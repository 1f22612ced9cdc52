import Mathlib.Data.List.Forall2
import ShellHistory.Proofs.Capture

/-! Independence: the history watches a shell and does not steer it. Two shells that are alike, one
with its history and one without, run the same lines side by side. Line by line they come to the same,
start the same commands and stay alike. -/

namespace ShellHistory

open Act

def Environment.ownNames : List String :=
  [Setup.sentinelName, Session.tokenName, Session.startName]

/-- Environments that differ at most in what a history adds. -/
def Environment.Alike (e e' : Environment) : Prop :=
  ∀ name ∉ ownNames, e.get? name = e'.get? name

theorem Environment.Alike.symm {e e' : Environment} (h : Alike e e') : Alike e' e :=
  fun name hn => (h name hn).symm

theorem Environment.Alike.trans {e e' e'' : Environment} (h : Alike e e') (h' : Alike e' e'') :
    Alike e e'' :=
  fun name hn => (h name hn).trans (h' name hn)

theorem Environment.Alike.set {e e' : Environment} (h : Alike e e') (name value : String) :
    Alike (e.set name value) (e'.set name value) := by
  intro other ho
  by_cases hn : other = name
  · subst hn
    rw [get?_set_self, get?_set_self]
  · rw [get?_set_of_ne e hn, get?_set_of_ne e' hn]
    exact h other ho

/-- The session that an environment names, if it does, can be told to a process. -/
def Environment.Sayable (e : Environment) : Prop :=
  ∀ name ∈ [Session.tokenName, Session.startName], ∀ value, e.get? name = some value →
    '\x00' ∉ value.toList

theorem Environment.sayable_congr {e e' : Environment}
    (h : ∀ name ∈ [Session.tokenName, Session.startName], e.get? name = e'.get? name) :
    e.Sayable ↔ e'.Sayable :=
  forall₂_congr fun name hn => by rw [h name hn]

theorem Environment.sayable_set_iff {e : Environment} {name : String} (hn : name ∉ ownNames)
    (value : String) : (e.set name value).Sayable ↔ e.Sayable := by
  refine sayable_congr fun other ho => get?_set_of_ne e ?_ value
  rintro rfl
  exact hn (List.mem_cons_of_mem _ ho)

def FileTree.SameDirectories (t u : FileTree) : Prop :=
  ∀ cwd path, t.isDirectory? cwd path = u.isDirectory? cwd path ∧
    t.canonical? cwd path = u.canonical? cwd path

def commandsOf (cs : List Call) : List Call := cs.filter fun c => c.job.role = .commandLine

theorem commandsOf_append (cs ds : List Call) :
    commandsOf (cs ++ ds) = commandsOf cs ++ commandsOf ds := by
  simp [commandsOf]

/-- The same command line in the same directory, with environments that tell it the same apart from
the session. Neither gives away that there is a history. -/
structure SameCommand (c d : Call) : Prop where
  job : c.job = d.job
  environ : ∀ name, name ≠ Session.tokenName → name ≠ Session.startName →
    c.environ.get? name = d.environ.get? name
  unmarked : c.environ.has Setup.sentinelName = false ∧ d.environ.has Setup.sentinelName = false

namespace SameCommand

variable {c d : Call}

theorem symm (h : SameCommand c d) : SameCommand d c :=
  ⟨h.job.symm, fun name ht hs => (h.environ name ht hs).symm, h.unmarked.2, h.unmarked.1⟩

/-- What is wrong with the name of a variable is not wrong with the names of a session. -/
theorem misnamed (h : SameCommand c d)
    (hc : c.environ.names.any fun name => name.toList.contains '=') :
    d.environ.names.any fun name => name.toList.contains '=' := by
  obtain ⟨name, hn, heq⟩ := List.any_eq_true.1 hc
  obtain ⟨value, hv⟩ := Environment.mem_names_iff.1 hn
  have htoken : name ≠ Session.tokenName := by
    rintro rfl
    exact absurd heq (by decide)
  have hstart : name ≠ Session.startName := by
    rintro rfl
    exact absurd heq (by decide)
  exact List.any_eq_true.2
    ⟨name, Environment.mem_names_iff.2 ⟨value, (h.environ name htoken hstart).symm.trans hv⟩, heq⟩

theorem unsaid (h : SameCommand c d) (hs : c.environ.Sayable)
    (hc : c.texts.any fun text => text.toList.contains '\x00') :
    d.texts.any fun text => text.toList.contains '\x00' := by
  obtain ⟨text, hmem, hnul⟩ := List.any_eq_true.1 hc
  refine List.any_eq_true.2 ⟨text, ?_, hnul⟩
  rw [Call.texts, List.mem_append] at hmem ⊢
  obtain hjob | henv := hmem
  · exact .inl (h.job ▸ hjob)
  obtain ⟨name, value, hv, ht⟩ := Environment.mem_texts_iff.1 henv
  have hnot : name ∉ [Session.tokenName, Session.startName] := by
    intro hname
    obtain rfl | rfl := ht
    · obtain rfl | rfl : text = Session.tokenName ∨ text = Session.startName := by simpa using hname
      · exact absurd hnul (by decide)
      · exact absurd hnul (by decide)
    · exact hs name hname text hv (by simpa using hnul)
  obtain ⟨htoken, hstart⟩ : name ≠ Session.tokenName ∧ name ≠ Session.startName := by
    simpa using hnot
  exact .inr (Environment.mem_texts_iff.2
    ⟨name, value, (h.environ name htoken hstart).symm.trans hv, ht⟩)

theorem texts_of_not_sayable (hc : ¬c.environ.Sayable) :
    c.texts.any fun text => text.toList.contains '\x00' := by
  simp only [Environment.Sayable, not_forall, not_not] at hc
  obtain ⟨name, -, value, hv, hnul⟩ := hc
  refine List.any_eq_true.2 ⟨value, List.mem_append_right _ ?_, by simpa using hnul⟩
  exact Environment.mem_texts_iff.2 ⟨name, value, hv, .inr rfl⟩

theorem untold?_eq (h : SameCommand c d) (hs : c.environ.Sayable ↔ d.environ.Sayable) :
    c.untold? = d.untold? := by
  have hnames := Bool.eq_iff_iff.2 ⟨h.misnamed, h.symm.misnamed⟩
  have htexts : (c.texts.any fun text => text.toList.contains '\x00') =
      d.texts.any fun text => text.toList.contains '\x00' := by
    by_cases hc : c.environ.Sayable
    · exact Bool.eq_iff_iff.2 ⟨h.unsaid hc, h.symm.unsaid (hs.1 hc)⟩
    · rw [texts_of_not_sayable hc, texts_of_not_sayable fun hd => hc (hs.2 hd)]
  rw [Call.untold?, Call.untold?, hnames, htexts, h.job]

end SameCommand

namespace Repl

/-- What a line goes by, apart from the environment and the files. -/
structure Outlook where
  cwd : Path
  lastExit : Int
  place : Place
  login : Environment
  accounts : Accounts
  processes : Processes
  outcomes : List Outcome

def outlook (r : Repl) : Outlook where
  cwd := r.cwd
  lastExit := r.lastExit
  place := r.shell.host.cwd
  login := r.shell.host.login
  accounts := r.shell.host.accounts
  processes := r.shell.host.processes
  outcomes := r.shell.host.outcomes .commandLine

/-- Shells with the same outlook: in the same place, and with the same to come for their commands. -/
structure Beside (r s : Repl) : Prop where
  outlook : r.outlook = s.outlook
  environ : r.environ.Alike s.environ
  directories : r.shell.host.files.SameDirectories s.shell.host.files

theorem Beside.symm {r s : Repl} (h : Beside r s) : Beside s r where
  outlook := h.outlook.symm
  environ := h.environ.symm
  directories := fun cwd path => ⟨(h.directories cwd path).1.symm, (h.directories cwd path).2.symm⟩

theorem Beside.cwd {r s : Repl} (h : Beside r s) : r.cwd = s.cwd := congrArg Outlook.cwd h.outlook

theorem Beside.lastExit {r s : Repl} (h : Beside r s) : r.lastExit = s.lastExit :=
  congrArg Outlook.lastExit h.outlook

theorem Beside.place {r s : Repl} (h : Beside r s) : r.shell.host.cwd = s.shell.host.cwd :=
  congrArg Outlook.place h.outlook

theorem Beside.processes {r s : Repl} (h : Beside r s) :
    r.shell.host.processes = s.shell.host.processes :=
  congrArg Outlook.processes h.outlook

theorem Beside.outcomes {r s : Repl} (h : Beside r s) :
    r.shell.host.outcomes .commandLine = s.shell.host.outcomes .commandLine :=
  congrArg Outlook.outcomes h.outlook

/-- The processes of two shells can be told the sessions that their environments name, or those of
neither can. -/
def ToldAlike (r s : Repl) : Prop :=
  r.shell.host.processes = .played ∨ (r.environ.Sayable ↔ s.environ.Sayable)

/-- How two shells go on side by side, from `r` to `t` and from `s` to `u`. If one of them stops, so
does the other. -/
structure Along (r s t u : Repl) : Prop where
  beside : Beside t u
  calls : ∃ cs ds, t.shell.host.calls = r.shell.host.calls ++ cs ∧
    u.shell.host.calls = s.shell.host.calls ++ ds ∧
    List.Forall₂ SameCommand (commandsOf cs) (commandsOf ds)
  running : ∃ going, t.running = (r.running && going) ∧ u.running = (s.running && going)
  registries : t.shell.registry = r.shell.registry ∧ u.shell.registry = s.shell.registry
  stores : t.shell.host.outcomes (.backend "store") ⊆ r.shell.host.outcomes (.backend "store")
  told : ToldAlike r s → ToldAlike t u

theorem Along.refl {r s : Repl} (h : Beside r s) : Along r s r s where
  beside := h
  calls := ⟨[], [], (List.append_nil _).symm, (List.append_nil _).symm, .nil⟩
  running := ⟨true, (Bool.and_true _).symm, (Bool.and_true _).symm⟩
  registries := ⟨rfl, rfl⟩
  stores := List.Subset.refl _
  told := id

theorem Along.trans {r s t u v w : Repl} (h : Along r s t u) (h' : Along t u v w) :
    Along r s v w := by
  obtain ⟨cs, ds, hcs, hds, hsame⟩ := h.calls
  obtain ⟨cs', ds', hcs', hds', hsame'⟩ := h'.calls
  obtain ⟨going, ht, hu⟩ := h.running
  obtain ⟨going', hv, hw⟩ := h'.running
  refine ⟨h'.beside, ⟨cs ++ cs', ds ++ ds', ?_, ?_, ?_⟩, ⟨going && going', ?_, ?_⟩,
    ⟨h'.registries.1.trans h.registries.1, h'.registries.2.trans h.registries.2⟩,
    List.Subset.trans h'.stores h.stores, h'.told ∘ h.told⟩
  · rw [hcs', hcs, List.append_assoc]
  · rw [hds', hds, List.append_assoc]
  · rw [commandsOf_append, commandsOf_append]
    exact List.rel_append hsame hsame'
  · rw [hv, ht, Bool.and_assoc]
  · rw [hw, hu, Bool.and_assoc]

/-- Two lines that come to the same, and how their shells have gone on. -/
structure Agree (r s : Repl) (x y : EStateM.Result Failure Repl Int) : Prop where
  answer : answerOf x = answerOf y
  along : Along r s (endOf x) (endOf y)

theorem Agree.kept {r s : Repl} {x y : EStateM.Result Failure Repl Int} (h : Agree r s x y) :
    Agree r s (kept x) (kept y) := by
  obtain ⟨ha, hb, hc, hr, hg, hs, ht⟩ := h
  cases x with
  | ok status t =>
    cases y with
    | ok status' u =>
      cases ha
      have houtlook := congrArg (fun o => { o with lastExit := status : Outlook }) hb.outlook
      exact ⟨rfl, ⟨houtlook, hb.environ, hb.directories⟩, hc, hr, hg, hs, ht⟩
    | error f u => cases ha
  | error f t =>
    cases y with
    | ok status u => cases ha
    | error f' u =>
      cases ha
      exact ⟨rfl, hb, hc, hr, hg, hs, ht⟩

/-- Shells that start no process, and neither stop nor register anything, go on alike if they end
beside each other. -/
theorem Along.quiet {r s t u : Repl} (h : Beside t u)
    (calls : t.shell.host.calls = r.shell.host.calls ∧ u.shell.host.calls = s.shell.host.calls)
    (scripts : t.shell.host.scripts = r.shell.host.scripts)
    (running : t.running = r.running ∧ u.running = s.running)
    (registries : t.shell.registry = r.shell.registry ∧ u.shell.registry = s.shell.registry)
    (told : ToldAlike r s → ToldAlike t u) : Along r s t u where
  beside := h
  calls := ⟨[], [], by rw [calls.1, List.append_nil], by rw [calls.2, List.append_nil], .nil⟩
  running := ⟨true, by rw [running.1, Bool.and_true], by rw [running.2, Bool.and_true]⟩
  registries := registries
  stores := by
    rw [Host.outcomes, Host.outcomes, scripts]
    exact List.Subset.refl _
  told := told

theorem Beside.wantedOf {r s : Repl} (h : Beside r s) (target : String) :
    r.wantedOf target = s.wantedOf target := by
  have hhome : r.shell.host.environ.get? "HOME" = s.shell.host.environ.get? "HOME" :=
    h.environ "HOME" (by decide)
  simp only [Repl.wantedOf, hhome]

theorem Beside.targetOf {r s : Repl} (h : Beside r s) (target : String) :
    r.targetOf target = s.targetOf target := by
  have hlogin : r.shell.host.login = s.shell.host.login := congrArg Outlook.login h.outlook
  have haccounts : r.shell.host.accounts = s.shell.host.accounts :=
    congrArg Outlook.accounts h.outlook
  simp only [Repl.targetOf, h.wantedOf, hlogin, haccounts, h.cwd]

theorem Beside.isThere? {r s : Repl} (h : Beside r s) (target : String) :
    r.isThere? target = s.isThere? target := by
  have hd := (h.directories s.shell.host.cwd (s.targetOf target).toText).1
  simp only [Repl.isThere?, h.wantedOf, h.targetOf, h.place, hd]

theorem ToldAlike.set {r s : Repl} (h : ToldAlike r s) (name : String)
    (hn : name ∉ Environment.ownNames) (v w : String) :
    ToldAlike (r.withHost { r.shell.host with environ := r.environ.set name v })
      (s.withHost { s.shell.host with environ := s.environ.set name w }) :=
  h.imp_right fun h => (Environment.sayable_set_iff hn v).trans
    (h.trans (Environment.sayable_set_iff hn w).symm)

theorem Beside.changeDirectory {r s : Repl} (h : Beside r s) (target : String) :
    Agree r s (changeDirectory target r) (changeDirectory target s) := by
  -- both ask the same question of directories that look alike, so one case analysis serves both
  have hgoal := h.targetOf target
  have hold : (r.environ.set "OLDPWD" r.cwd.toText).Alike (s.environ.set "OLDPWD" s.cwd.toText) := by
    rw [h.cwd]
    exact h.environ.set _ _
  have hp := (h.directories s.shell.host.cwd (s.targetOf target).toText).2
  have hleft (ht : ToldAlike r s) := ht.set "OLDPWD" (by decide) r.cwd.toText s.cwd.toText
  unfold Repl.changeDirectory
  rw [get_bind, get_bind]
  dsimp only
  rw [h.isThere?, h.place, hgoal, hp]
  cases s.isThere? target with
  | error f => exact ⟨rfl, .refl h⟩
  | ok present =>
  cases present with
  | false =>
    exact ⟨rfl, .quiet ⟨h.outlook, h.environ, h.directories⟩ ⟨rfl, rfl⟩ rfl ⟨rfl, rfl⟩ ⟨rfl, rfl⟩
      id⟩
  | true =>
  cases s.shell.host.files.canonical? s.shell.host.cwd (s.targetOf target).toText with
  | none =>
    exact ⟨rfl, .quiet ⟨h.outlook, hold, h.directories⟩ ⟨rfl, rfl⟩ rfl ⟨rfl, rfl⟩ ⟨rfl, rfl⟩ hleft⟩
  | some place =>
    have houtlook := congrArg (fun o => { o with cwd := Path.ofPlace place : Outlook }) h.outlook
    exact ⟨rfl, .quiet ⟨houtlook, hold.set _ _, h.directories⟩ ⟨rfl, rfl⟩ rfl ⟨rfl, rfl⟩ ⟨rfl, rfl⟩
      fun ht => (hleft ht).set "PWD" (by decide) _ _⟩

/-- What a command gets of the environment hides whether there is a history. -/
theorem Beside.sameCommand {r s : Repl} (h : Beside r s) (line : String) :
    SameCommand (r.callOf line) (s.callOf line) := by
  have hmark (e : Environment) : (childEnvironment e).has Setup.sentinelName = false := by
    rw [Environment.has, childEnvironment, Environment.get?_erase_self]
    rfl
  refine ⟨congrArg (Job.commandLine line) h.cwd, fun name ht hs => ?_, hmark _, hmark _⟩
  simp only [callOf, childEnvironment]
  by_cases hn : name = Setup.sentinelName
  · rw [hn, Environment.get?_erase_self, Environment.get?_erase_self]
  · rw [Environment.get?_erase_of_ne _ hn, Environment.get?_erase_of_ne _ hn]
    exact h.environ name (by simp [Environment.ownNames, hn, ht, hs])

/-- The system can be told the command of one shell as well as that of the other. -/
theorem Beside.untold? {r s : Repl} (h : Beside r s) (ht : ToldAlike r s) (line : String) :
    r.shell.host.untold? (r.callOf line) = s.shell.host.untold? (s.callOf line) := by
  have hplain (r : Repl) : (r.callOf line).environ.Sayable ↔ r.environ.Sayable :=
    Environment.sayable_congr fun name hn => Environment.get?_erase_of_ne _ (by
      rintro rfl
      exact absurd hn (by decide))
  unfold Host.untold?
  rw [← h.processes]
  cases hp : r.shell.host.processes with
  | played => rfl
  | system =>
    obtain hplayed | hsay := ht
    · cases hp.symm.trans hplayed
    · exact (h.sameCommand line).untold?_eq ((hplain r).trans (hsay.trans (hplain s).symm))

theorem Beside.runCommand {r s : Repl} (h : Beside r s) (ht : ToldAlike r s) (line : String) :
    Agree r s (runCommand line r) (runCommand line s) := by
  have hnext : r.shell.host.next (r.callOf line) = s.shell.host.next (s.callOf line) := by
    rw [Host.next_eq, Host.next_eq, Host.read_of_processes h.processes]
    exact congrArg (fun os => s.shell.host.read (List.headD os _)) h.outcomes
  have hbeside : Beside (r.withHost (r.shell.host.after (r.callOf line)))
      (s.withHost (s.shell.host.after (s.callOf line))) := by
    have hafter (r : Repl) : (r.withHost (r.shell.host.after (r.callOf line))).outlook =
        { r.outlook with outcomes := r.outlook.outcomes.tail } :=
      congrArg (Outlook.mk _ _ _ _ _ _) (r.shell.host.outcomes_after_self (r.callOf line))
    refine ⟨?_, h.environ, h.directories⟩
    rw [hafter, hafter, h.outlook]
  have halong : Along r s (r.withHost (r.shell.host.after (r.callOf line)))
      (s.withHost (s.shell.host.after (s.callOf line))) := by
    refine ⟨hbeside, ⟨[r.callOf line], [s.callOf line], rfl, rfl, ?_⟩, (Along.refl h).running,
      ⟨rfl, rfl⟩, ?_, id⟩
    · exact .cons (h.sameCommand line) .nil
    · have hstore := Host.outcomes_after_of_ne r.shell.host (r.callOf line)
        (show Role.backend "store" ≠ (r.callOf line).job.role from nofun)
      exact hstore.symm ▸ List.Subset.refl _
  have huntold := h.untold? ht line
  cases hs : s.shell.host.untold? (s.callOf line) with
  | some f =>
    rw [runCommand_of_untold (huntold.trans hs), runCommand_of_untold hs]
    exact ⟨rfl, .refl h⟩
  | none =>
  rw [runCommand_of_told (huntold.trans hs), runCommand_of_told hs, hnext]
  cases statusAfter (s.shell.host.next (s.callOf line)) with
  | ok status => exact ⟨rfl, halong⟩
  | error f => exact ⟨rfl, halong⟩

theorem Beside.exit {r s : Repl} (h : Beside r s) (line : String) (arguments : List String) :
    Agree r s (handle line ("exit" :: arguments) r) (handle line ("exit" :: arguments) s) := by
  have hstopped : Along r s { r with running := false } { s with running := false } := by
    refine ⟨⟨h.outlook, h.environ, h.directories⟩, (Along.refl h).calls, ⟨false, ?_, ?_⟩,
      ⟨rfl, rfl⟩, List.Subset.refl _, id⟩
    · rw [Bool.and_false]
    · rw [Bool.and_false]
  cases hs : statusOf arguments with
  | error f =>
    have hhandle (r : Repl) : Repl.handle line ("exit" :: arguments) r =
        .error f { r with running := false } := by
      simp only [Repl.handle, stop, modify_bind, hs, ofExcept_error, throw_bind]
    rw [hhandle, hhandle]
    exact ⟨rfl, hstopped⟩
  | ok status =>
    have hhandle (r : Repl) : Repl.handle line ("exit" :: arguments) r =
        kept (.ok (status.getD r.lastExit) { r with running := false }) := by
      simp only [Repl.handle, stop, modify_bind, hs, ofExcept_ok, pure_bind, get_bind]
      rfl
    rw [hhandle, hhandle]
    refine Agree.kept ⟨?_, hstopped⟩
    rw [h.lastExit]
    rfl

theorem Beside.handle {r s : Repl} (h : Beside r s) (ht : ToldAlike r s) (line : String)
    (words : List String) : Agree r s (handle line words r) (handle line words s) := by
  unfold Repl.handle
  split
  · next arguments => exact h.exit line arguments
  · rw [bind_keepStatus, bind_keepStatus]
    exact (h.changeDirectory "").kept
  · next target =>
    rw [bind_keepStatus, bind_keepStatus]
    exact (h.changeDirectory target).kept
  · rw [bind_keepStatus, bind_keepStatus]
    exact (h.runCommand ht line).kept

/-- A shell that has its history, beside one that has not. No line that is stored is broken off. -/
structure Watched (session : Session) (r s : Repl) : Prop where
  beside : Beside r s
  hooks : r.shell.registry.hooks .preexec = [Hook.captureOf session]
  bare : s.shell.registry.hooks .preexec = []
  stores : .interrupted ∉ r.shell.host.outcomes (.backend "store")
  told : ToldAlike r s

theorem Watched.of_along {session : Session} {r s t u : Repl} (h : Watched session r s)
    (ha : Along r s t u) : Watched session t u where
  beside := ha.beside
  hooks := by rw [ha.registries.1, h.hooks]
  bare := by rw [ha.registries.2, h.bare]
  stores := fun hi => h.stores (ha.stores hi)
  told := ha.told h.told

/-- Storing a line is over before the line runs, and the shells are still beside each other then. -/
theorem Watched.fire {session : Session} {r s : Repl} (h : Watched session r s) (line : String) :
    ∃ v, Shell.fire .preexec [line] r.shell = .ok () v ∧ Along r s { r with shell := v } s := by
  have hb := h.beside
  -- the one hook fails in silence, except for an interrupt, and no store is interrupted
  rw [Shell.fire_of_hooks_single h.hooks rfl]
  generalize hx : Shell.callSafely (Hook.captureOf session) [line] r.shell = x
  cases hx ▸ Shell.callSafely_captureOf session line r.shell with
  | unmade =>
    exact ⟨_, rfl, .quiet ⟨hb.outlook, hb.environ, hb.directories⟩ ⟨rfl, rfl⟩ rfl ⟨rfl, rfl⟩
      ⟨rfl, rfl⟩ id⟩
  | interrupted hc hn =>
    have hi := Host.mem_outcomes_of_next hn nofun
    exact absurd (Shell.role_of_storeCall? hc ▸ hi) h.stores
  | @made c records hc =>
    have hrole := Shell.role_of_storeCall? hc
    have hcommands := Host.outcomes_after_of_ne r.shell.host c
      (show Role.commandLine ≠ c.job.role by rw [hrole]; nofun)
    have hstores := hrole ▸ Host.outcomes_after_self r.shell.host c
    have houtlook := (congrArg (Outlook.mk _ _ _ _ _ _) hcommands).trans hb.outlook
    refine ⟨_, rfl, ⟨houtlook, hb.environ, hb.directories⟩,
      ⟨[c], [], rfl, (List.append_nil _).symm, ?_⟩, (Along.refl hb).running, ⟨rfl, rfl⟩, ?_, id⟩
    · rw [commandsOf, List.filter_cons_of_neg (by simp [hrole])]
      exact .nil
    · exact fun o ho => List.mem_of_mem_tail (hstores ▸ ho)

theorem Watched.execute {session : Session} {r s : Repl} (h : Watched session r s) (line : String) :
    Agree r s (execute line r) (execute line s) := by
  rw [execute_eq]
  by_cases hw : Text.words line = []
  · rw [if_pos hw]
    exact ⟨congrArg Except.ok h.beside.lastExit, .refl h.beside⟩
  · obtain ⟨v, hfire, hstored⟩ := h.fire line
    have hbare := Shell.fire_of_hooks_nil h.bare [line]
    rw [if_neg hw, bind_of_ok (onShell_of_ok hfire), bind_of_ok (onShell_of_ok hbare)]
    obtain ⟨ha, hhandled⟩ := hstored.beside.handle (hstored.told h.told) line (Text.words line)
    exact ⟨ha, hstored.trans hhandled⟩

def executeAll : List String → Repl → List (Except Failure Int) × Repl
  | [], r => ([], r)
  | line :: lines, r =>
    let x := execute line r
    let rest := executeAll lines (endOf x)
    (answerOf x :: rest.1, rest.2)

theorem Watched.executeAll {session : Session} {r s : Repl} (h : Watched session r s)
    (lines : List String) :
    (executeAll lines r).1 = (executeAll lines s).1 ∧
      Along r s (executeAll lines r).2 (executeAll lines s).2 := by
  induction lines generalizing r s with
  | nil => exact ⟨rfl, .refl h.beside⟩
  | cons line lines ih =>
    obtain ⟨ha, hline⟩ := h.execute line
    obtain ⟨has, hlines⟩ := ih (h.of_along hline)
    simp only [Repl.executeAll, ha, has]
    exact ⟨trivial, hline.trans hlines⟩

/-- What starting does to a shell, be it refused a history or not. Only the history program has been
asked, and that for a session. -/
structure Begun (r t : Repl) : Prop where
  running : t.running = true
  outlook : t.outlook = r.outlook
  environ : t.environ.Alike r.environ
  files : t.shell.host.files = r.shell.host.files
  stores : t.shell.host.outcomes (.backend "store") = r.shell.host.outcomes (.backend "store")
  calls : ∃ cs, t.shell.host.calls = r.shell.host.calls ++ cs ∧ commandsOf cs = []

/-- The mark and the session are all that a setup adds to the environment. -/
theorem alike_of_setup (e : Environment) (session : Session) :
    ((e.set Setup.sentinelName "1").merge session.toEnvironment).Alike e := by
  intro name hn
  simp only [Environment.ownNames, List.mem_cons, List.not_mem_nil, or_false, not_or] at hn
  obtain ⟨hmark, htoken, hstart⟩ := hn
  have hnot : name ∉ session.toEnvironment.vars.map Prod.fst := by
    intro hm
    rcases session.names_toEnvironment hm with h | h
    · exact htoken h
    · exact hstart h
  rw [Environment.get?_merge_of_notMem hnot, Environment.get?_set_of_ne e hmark]

theorem start_begun {r t : Repl} {a : Bool} (h : start r = .ok a t) : Begun r t := by
  obtain ⟨done, s, hs, -, rfl⟩ := start_ok h
  have hsame : r.environ.Alike r.environ := fun _ _ => rfl
  cases hs with
  | missing => exact ⟨rfl, rfl, hsame, rfl, rfl, [], (List.append_nil _).symm, rfl⟩
  | skipped => exact ⟨rfl, rfl, hsame, rfl, rfl, [], (List.append_nil _).symm, rfl⟩
  | @done session u records _ _ _ hu =>
    have henviron := alike_of_setup r.environ session
    cases hu with
    | known => exact ⟨rfl, rfl, henviron, rfl, rfl, [], (List.append_nil _).symm, rfl⟩
    | @asked first second _ _ hfirst hsecond =>
      have hrole {args : List String} {e : Environment} {c : Call}
          (hc : r.shell.backend.call? ("init" :: args) none true e = .ok c) :
          c.job.role = .backend "init" := by
        obtain ⟨_, -, -, hjob⟩ := Backend.call?_ok hc
        rw [hjob]
        rfl
      have hkept (role : Role) (hn : role ≠ .backend "init") :
          ((r.shell.host.after first).after second).outcomes role = r.shell.host.outcomes role := by
        rw [Host.outcomes_after_of_ne _ second (hrole hsecond ▸ hn),
          Host.outcomes_after_of_ne _ first (hrole hfirst ▸ hn)]
      refine ⟨rfl, congrArg (Outlook.mk _ _ _ _ _ _) (hkept _ nofun), henviron, rfl,
        hkept _ (by decide), [first, second], List.append_assoc _ [first] [second], ?_⟩
      simp [commandsOf, hrole hfirst, hrole hsecond]

theorem Beside.begun {r s t : Repl} (h : Beside r s) (hb : Begun r t) : Beside t s where
  outlook := hb.outlook.trans h.outlook
  environ := hb.environ.trans h.environ
  directories := hb.files ▸ h.directories

/-- A shell that was started without getting a history is as bare as before. -/
theorem fresh_of_refused {b : Backend} {r t : Repl} (hr : Fresh b r)
    (h : start r = .ok false t) : Fresh b t := by
  obtain ⟨-, ht⟩ | ⟨session, ht⟩ := hr.start h
  · exact ht
  · obtain ⟨done, s, -, ha, rfl⟩ := start_ok h
    have hsome : s.integration.map (·.context.session) = some session := ht.integration
    cases hi : s.integration with
    | none =>
      rw [hi] at hsome
      cases hsome
    | some i =>
      rw [hi] at ha
      cases ha

/-- The history does not steer the shell. Of two shells that are alike, let one be started with its
history and the other be refused one, or not be started at all, and let the sessions in their
environments be such that processes can be told both, or neither. Then lines come to the same in both,
start the same commands, and leave both in the same place. A shell that runs goes on running as long
as the other one does. -/
theorem lines_run_alike {b b' : Backend} {r₀ s₀ r s : Repl} (hr₀ : Fresh b r₀) (hs₀ : Fresh b' s₀)
    (hsame : Beside r₀ s₀) (hr : start r₀ = .ok true r) (hs : s = s₀ ∨ start s₀ = .ok false s)
    (htold : ToldAlike r s) (hstores : .interrupted ∉ r₀.shell.host.outcomes (.backend "store"))
    (lines : List String) :
    (executeAll lines r).1 = (executeAll lines s).1 ∧
      (executeAll lines r).2.lastExit = (executeAll lines s).2.lastExit ∧
      (executeAll lines r).2.cwd = (executeAll lines s).2.cwd ∧
      (executeAll lines s).2.running = (s.running && (executeAll lines r).2.running) ∧
      (start s₀ = .ok false s →
        (executeAll lines s).2.running = (executeAll lines r).2.running) ∧
      List.Forall₂ SameCommand
        (commandsOf (r₀.shell.host.startedSince (executeAll lines r).2.shell.host))
        (commandsOf (s₀.shell.host.startedSince (executeAll lines s).2.shell.host)) := by
  have hbegun := start_begun hr
  obtain ⟨session, hooks⟩ : ∃ session,
      r.shell.registry.hooks .preexec = [Hook.captureOf session] := by
    obtain ⟨ha, -⟩ | ⟨session, ht⟩ := hr₀.start hr
    · cases ha
    · exact ⟨session, ht.hooks⟩
  obtain ⟨hbeside, hfresh, ds₀, hds₀, hnone⟩ : Beside r s ∧ Fresh b' s ∧
      ∃ ds, s.shell.host.calls = s₀.shell.host.calls ++ ds ∧ commandsOf ds = [] := by
    rcases hs with rfl | hs
    · exact ⟨hsame.begun hbegun, hs₀, [], (List.append_nil _).symm, rfl⟩
    · have hbegun' := start_begun hs
      exact ⟨((hsame.begun hbegun).symm.begun hbegun').symm, fresh_of_refused hs₀ hs, hbegun'.calls⟩
  have hwatched : Watched session r s := by
    refine ⟨hbeside, hooks, ?_, ?_, htold⟩
    · rw [hfresh.registry]
      rfl
    · rw [hbegun.stores]
      exact hstores
  obtain ⟨ha, hb, ⟨cs, ds, hcs, hds, hcommands⟩, ⟨going, hx, hy⟩, -, -, -⟩ :=
    hwatched.executeAll lines
  rw [hbegun.running, Bool.true_and] at hx
  refine ⟨ha, hb.lastExit, hb.cwd, by rw [hy, hx], fun hs => ?_, ?_⟩
  · rw [hy, hx, (start_begun hs).running, Bool.true_and]
  · obtain ⟨cs₀, hcs₀, hnone'⟩ := hbegun.calls
    rw [hcs₀, List.append_assoc] at hcs
    rw [hds₀, List.append_assoc] at hds
    rw [Host.startedSince_of_calls hcs, Host.startedSince_of_calls hds, commandsOf_append,
      commandsOf_append, hnone, hnone']
    exact hcommands

def guest : Repl := { sample with interactive := false }

theorem start_guest :
    start guest = .ok false { guest with running := true } := by
  have hset : Shell.setUp guest.config guest.interactive guest.shell = .ok false guest.shell := by
    have hfound : Setup.hasSelector guest.shell.host guest.config
        (guest.shell.host.environ.get? "PATH") = .ok true := hasSelector_sample
    unfold Shell.setUp
    rw [get_bind, hfound, ofExcept_ok, pure_bind]
    rfl
  exact start_of_setUp hset

/-- With the history and without it the shell is left by the first line, and runs the second one all
the same. -/
theorem lines_run_alike_sample :
    ∃ r, start sample = .ok true r ∧ start guest = .ok false { guest with running := true } ∧
      (executeAll ["exit 3", "ls"] r).1 = [.ok 3, .ok 0] ∧
      (executeAll ["exit 3", "ls"] r).2.lastExit = 0 ∧
      (executeAll ["exit 3", "ls"] r).2.running = false := by
  obtain ⟨r, hr, hplayed, -⟩ := start_sample
  have hsame : Beside sample guest := ⟨rfl, fun _ _ => rfl, fun _ _ => ⟨rfl, rfl⟩⟩
  obtain ⟨hanswers, hlast, -, -, hrunning, -⟩ := lines_run_alike
    (create_fresh sample.shell.host .default true) (create_fresh sample.shell.host .default false)
    hsame hr (.inr start_guest) (.inl hplayed) (by decide) ["exit 3", "ls"]
  refine ⟨r, hr, start_guest, ?_, ?_, ?_⟩
  · rw [hanswers]
    decide +kernel
  · rw [hlast]
    decide +kernel
  · rw [← hrunning start_guest]
    decide +kernel

/-- A shell that was never started does not run, whatever lines it is given, while one that was
started does until it is left. -/
theorem unstarted_not_running :
    ∃ r, start sample = .ok true r ∧
      Outcome.interrupted ∉ sample.shell.host.outcomes (.backend "store") ∧
      (executeAll ["ls"] r).2.running = true ∧ (executeAll ["ls"] sample).2.running = false := by
  obtain ⟨s, hset, hi, hrun⟩ :
      ∃ s, Shell.setUp sample.config sample.interactive sample.shell = .ok true s ∧
        s.integration.isSome = true ∧
        (executeAll ["ls"] { sample with shell := s, running := true }).2.running = true := by
    unfold Shell.setUp
    rw [get_bind, hasSelector_sample, ofExcept_ok, pure_bind]
    exact ⟨_, rfl, rfl, by decide +kernel⟩
  refine ⟨_, (start_of_setUp hset).trans (congrArg (EStateM.Result.ok · _) hi), by decide, hrun, ?_⟩
  decide +kernel

end Repl
end ShellHistory

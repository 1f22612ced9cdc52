import ShellHistory.Proofs.Independence
import ShellHistory.Proofs.Resolution
import ShellHistory.Proofs.Touched

/-! The directory that a shell is in. Only `cd` changes it, and only to the directory that is found:
that is there, and it is known by its own names from then on, with no link among them. The variables
`PWD` and `OLDPWD` follow it, and every command is started in it. -/

namespace ShellHistory

open Act Host FileTree

namespace Text

theorem not_sep_of_mem_runs {sep : Char → Bool} {s word : List Char} {c : Char}
    (h : word ∈ runs sep s) (hc : c ∈ word) : sep c = false := by
  induction s generalizing word with
  | nil => cases h
  | cons d rest ih =>
    unfold runs at h
    split at h
    · exact ih h hc
    · next hd =>
      have hd : sep d = false := by simpa using hd
      have hfirst {tail : List Char} (ht : c ∈ tail → sep c = false) (hc : c ∈ d :: tail) :
          sep c = false := by
        rcases List.mem_cons.1 hc with rfl | hc
        · exact hd
        · exact ht hc
      split at h
      · next heq =>
        rw [heq] at ih
        split at h
        · rcases List.mem_cons.1 h with rfl | h
          · exact hfirst (fun hn => absurd hn List.not_mem_nil) hc
          · exact ih h hc
        · rcases List.mem_cons.1 h with rfl | h
          · exact hfirst (ih List.mem_cons_self) hc
          · exact ih (List.mem_cons_of_mem _ h) hc
      · rcases List.mem_cons.1 h with rfl | h
        · exact hfirst (fun hn => absurd hn List.not_mem_nil) hc
        · exact ih h hc

theorem break_notMem_of_mem_words {s word : String} (h : word ∈ words s) : '\n' ∉ word.toList := by
  obtain ⟨run, hrun, rfl⟩ := List.mem_map.1 h
  rw [String.toList_ofList]
  exact fun hc => absurd (not_sep_of_mem_runs hrun hc) (by decide)

end Text

namespace Repl

variable {r t : Repl} {line target : String} {place : Place}

/-- The shell is in a directory that is there, and knows it by its own names. -/
def Settled (r : Repl) : Prop :=
  ∃ place, r.cwd = Path.ofPlace place ∧ r.shell.host.files.Resolved place

theorem settled_create {h : Host} (hcwd : h.files.Resolved h.cwd) (c : Config) (interactive : Bool) :
    Settled (create h c interactive) := ⟨h.cwd, rfl, hcwd⟩

theorem Settled.startOf_target (hr : Settled r) (target : String) (here : Place) :
    startOf (r.targetOf target).toText here = [] := by
  obtain ⟨place, hcwd, hplace⟩ := hr
  have hnamed : (r.targetOf target).Named := by
    rw [targetOf, hcwd]
    exact Path.Named.join (fun name hn => (hplace.proper name hn).1) (Path.named_ofString _)
  have hroot : (r.targetOf target).root ≠ .none := by
    have habsolute : (Path.ofPlace place).root ≠ .none := show Root.one ≠ .none by decide
    rw [targetOf, hcwd]
    exact Path.root_join habsolute _
  generalize r.targetOf target = p at hnamed hroot
  obtain ⟨root, names⟩ := p
  rw [startOf_toText hnamed, if_neg hroot]

/-- The directory that is found is there, and so is the way to it. -/
theorem Settled.resolved (hr : Settled r)
    (hf : r.shell.host.files.find r.shell.host.cwd (r.targetOf target).toText .target =
      .ok (.taken place)) (hn : r.shell.host.files.node? place = some .directory) :
    r.shell.host.files.Resolved place := by
  have hwalk := (find_ok_iff.1 hf).2
  rw [hr.startOf_target] at hwalk
  exact ⟨hwalk.reached reached_root hn, hwalk.proper nofun fun _ => unslashed_of_mem_steps⟩

/-- What a line does about the directory. It is left as it is by a line that is no `cd`. With `cd` the
shell goes to where the target leads, or says in one line that there is no such directory, or fails. -/
inductive Went (line : String) (r : Repl) : EStateM.Result Failure Repl Int → Prop
  | stayed {x : EStateM.Result Failure Repl Int} : goal? (Text.words line) = none →
      (endOf x).cwd = r.cwd → (endOf x).environ = r.environ →
      (endOf x).shell.host.err = r.shell.host.err → Went line r x
  | moved {target : String} {place : Place} {t : Repl} :
      goal? (Text.words line) = some target →
      r.shell.host.files.find r.shell.host.cwd (r.targetOf target).toText .target =
        .ok (.taken place) → r.shell.host.files.node? place = some .directory →
      t.cwd = Path.ofPlace place →
      t.environ = (r.environ.set "OLDPWD" r.cwd.toText).set "PWD" t.cwd.toText →
      t.shell.host.err = r.shell.host.err → Went line r (.ok 0 t)
  | missing {target : String} {t : Repl} : goal? (Text.words line) = some target →
      r.shell.host.files.isDirectory? r.shell.host.cwd (r.targetOf target).toText = .ok false →
      t.cwd = r.cwd → t.environ = r.environ →
      t.shell.host.err = r.shell.host.err ++ ("cd: no such directory: " ++ target) ++ "\n" →
      '\n' ∉ target.toList → Went line r (.ok 1 t)
  | failed {target : String} {f : Failure} {t : Repl} : goal? (Text.words line) = some target →
      t.cwd = r.cwd → t.environ = r.environ → t.shell.host.err = r.shell.host.err →
      Went line r (.error f t)

/-- What a line leaves of the directories. The one command that it may start is started where the
shell is. -/
structure Placed (line : String) (r : Repl) (x : EStateM.Result Failure Repl Int) : Prop where
  went : Went line r x
  files : (endOf x).shell.host.files = r.shell.host.files
  commands : commandsOf (r.shell.host.startedSince (endOf x).shell.host) = [] ∨
    commandsOf (r.shell.host.startedSince (endOf x).shell.host) = [r.callOf line]

theorem mem_words_of_goal? {words : List String} (h : goal? words = some target) :
    target = "" ∨ target ∈ words := by
  unfold goal? at h
  split at h
  · cases h
    exact .inl rfl
  · cases h
    exact .inr (List.mem_cons_of_mem _ List.mem_cons_self)
  · cases h

theorem break_notMem_of_goal? (h : goal? (Text.words line) = some target) :
    '\n' ∉ target.toList := by
  rcases mem_words_of_goal? h with rfl | h
  · exact List.not_mem_nil
  · exact Text.break_notMem_of_mem_words h

theorem stores_backend (k : Hook) (b : Backend) (e : Environment) :
    k.Stores (fun c => c.job.role ≠ .commandLine) b e := by
  intro session hk args captured call hc
  obtain ⟨binary, -, -, hjob⟩ := Backend.call?_ok hc
  rw [hjob]
  nofun

theorem Went.of_quiet {x : EStateM.Result Failure Repl Int}
    (hx : goal? (Text.words line) = none ∨ ∃ f, answerOf x = .error f)
    (hcwd : (endOf x).cwd = r.cwd) (henviron : (endOf x).environ = r.environ)
    (herr : (endOf x).shell.host.err = r.shell.host.err) : Went line r x := by
  cases hg : goal? (Text.words line) with
  | none => exact .stayed hg hcwd henviron herr
  | some target =>
    rw [hg] at hx
    obtain hx | ⟨f, hx⟩ := hx
    · cases hx
    · obtain ⟨t, rfl⟩ := answerOf_eq_error_iff.1 hx
      exact .failed hg hcwd henviron herr

/-- A line that has been handled, when its hooks have started some processes before. -/
theorem Handled.placed {s : Shell} {cs : List Call} {x : EStateM.Result Failure Repl Int}
    (hran : Ran r.shell.host cs s.host) (hcs : commandsOf cs = [])
    (hx : Handled line { r with shell := s } (Text.words line) x) : Placed line r x := by
  obtain ⟨scripts, records, hhost⟩ := hran
  obtain ⟨host, backend, registry, integration, made, notes⟩ := s
  dsimp only at hhost
  subst hhost
  have hcalls : commandsOf (r.shell.host.startedSince { r.shell.host with
      scripts := scripts, calls := r.shell.host.calls ++ cs, records := records }) = [] := by
    rw [startedSince_of_calls rfl, hcs]
  generalize hw : Text.words line = words at hx
  cases hx with
  | exit =>
    have hg : goal? (Text.words line) = none := by rw [hw]; rfl
    exact ⟨.of_quiet (.inl hg) rfl rfl rfl, rfl, .inl hcalls⟩
  | @exitRefused _ f => exact ⟨.of_quiet (.inr ⟨f, rfl⟩) rfl rfl rfl, rfl, .inl hcalls⟩
  | @cd _ target y hgoal hy =>
    rw [← hw] at hgoal
    cases hy with
    | @refused e => exact ⟨.of_quiet (.inr ⟨_, rfl⟩) rfl rfl rfl, rfl, .inl hcalls⟩
    | missing hd =>
      exact ⟨.missing hgoal (isThere?_ok hd) rfl rfl rfl (break_notMem_of_goal? hgoal), rfl,
        .inl hcalls⟩
    | circle hd hnone =>
      -- what is found has a place, so the way to it does not run in a circle
      obtain ⟨place, -, -, hplace⟩ := find_of_isDirectory? (isThere?_ok hd)
      cases hnone.symm.trans hplace
    | moved hd hplace =>
      -- the place that is looked at and the one that the links lead to are the same
      obtain ⟨place', hf, hn, hplace'⟩ := find_of_isDirectory? (isThere?_ok hd)
      cases hplace.symm.trans hplace'
      exact ⟨.moved hgoal hf hn rfl rfl rfl, rfl, .inl hcalls⟩
  | command hexit hgoal =>
    rw [← hw] at hgoal
    generalize hsaid : Host.untold? _ (callOf { r with shell := _ } line) = said
    cases said with
    | some f =>
      rw [runCommand_of_untold hsaid]
      exact ⟨.of_quiet (.inl hgoal) rfl rfl rfl, rfl, .inl hcalls⟩
    | none =>
    rw [runCommand_of_told hsaid]
    have hcommand : commandsOf (r.shell.host.startedSince (Host.after { r.shell.host with
        scripts := scripts, calls := r.shell.host.calls ++ cs, records := records }
          (r.callOf line))) = [r.callOf line] := by
      rw [startedSince_of_calls (List.append_assoc _ cs [r.callOf line]), commandsOf_append, hcs]
      rfl
    generalize statusAfter _ = status
    cases status with
    | ok status => exact ⟨.of_quiet (.inl hgoal) rfl rfl rfl, rfl, .inr hcommand⟩
    | error f => exact ⟨.of_quiet (.inl hgoal) rfl rfl rfl, rfl, .inr hcommand⟩

theorem execute_placed (line : String) (r : Repl) : Placed line r (execute line r) := by
  have hfired : Shell.Touched (fun c => c.job.role ≠ .commandLine) r.shell
      (endOf (Shell.fire .preexec [line] r.shell)) :=
    Shell.fire_touched (fun k _ => stores_backend k _ _) [line]
  have hnone {cs : List Call} (hcs : ∀ c ∈ cs, c.job.role ≠ .commandLine) : commandsOf cs = [] :=
    List.filter_eq_nil_iff.2 fun c hc => by simpa using hcs c hc
  generalize hx : execute line r = x
  cases hx ▸ execute_executed line r with
  | blank hw =>
    refine ⟨.of_quiet (.inl (by rw [hw]; rfl)) rfl rfl rfl, rfl, .inl ?_⟩
    rw [endOf_ok, startedSince_of_calls (List.append_nil _).symm]
    rfl
  | @broken f s hw hf =>
    rw [hf, endOf_error] at hfired
    obtain ⟨cs, hran, hcs⟩ := hfired.ran
    have hcalls := startedSince_of_calls hran.calls
    obtain ⟨scripts, records, hhost⟩ := hran
    refine ⟨.of_quiet (.inr ⟨f, rfl⟩) rfl hfired.environ ?_, ?_, .inl ?_⟩
    · rw [endOf_error, hhost]
    · rw [endOf_error, hhost]
    · rw [endOf_error, hcalls, hnone hcs]
  | @handled s _ hw hf hh =>
    rw [hf, endOf_ok] at hfired
    obtain ⟨cs, hran, hcs⟩ := hfired.ran
    exact hh.placed hran (hnone hcs)

/-- Wherever a line leaves the shell, it is in a directory that it knows by its own names. -/
theorem Settled.went {x : EStateM.Result Failure Repl Int} (hr : Settled r) (hx : Placed line r x) :
    Settled (endOf x) := by
  obtain ⟨place, hcwd, hplace⟩ := hr
  obtain ⟨hwent, hfiles, -⟩ := hx
  rw [Settled, hfiles]
  cases hwent with
  | stayed _ hstay | missing _ _ hstay | failed _ hstay => exact ⟨place, hstay.trans hcwd, hplace⟩
  | @moved _ place' _ _ hf hn hgone =>
    exact ⟨place', hgone, Settled.resolved ⟨place, hcwd, hplace⟩ hf hn⟩

def Told (r : Repl) : Prop := r.environ.get? "PWD" = some r.cwd.toText

theorem Told.went {x : EStateM.Result Failure Repl Int} (hr : Told r) (hx : Went line r x) :
    Told (endOf x) := by
  rw [Told] at hr ⊢
  cases hx with
  | stayed _ hcwd henviron | missing _ _ hcwd henviron | failed _ hcwd henviron =>
    simpa only [endOf_ok, endOf_error, hcwd, henviron] using hr
  | moved _ _ _ _ henviron =>
    rw [endOf_ok, henviron, Environment.get?_set_self]

theorem executeAll_append (front later : List String) (r : Repl) :
    (executeAll (front ++ later) r).2 = (executeAll later (executeAll front r).2).2 := by
  induction front generalizing r with
  | nil => rfl
  | cons line front ih => exact ih (endOf (execute line r))

theorem executeAll_keeps {P : Repl → Prop} (h : ∀ line r, P r → P (endOf (execute line r)))
    (lines : List String) (hr : P r) : P (executeAll lines r).2 := by
  induction lines generalizing r with
  | nil => exact hr
  | cons line lines ih => exact ih (h line r hr)

def Travelled (lines : List String) (r : Repl) : Prop :=
  ∃ before line after target, lines = before ++ line :: after ∧
    goal? (Text.words line) = some target ∧
    answerOf (execute line (executeAll before r).2) = .ok 0

theorem told_of_travelled {lines : List String} (h : Travelled lines r) :
    Told (executeAll lines r).2 := by
  obtain ⟨before, line, after, target, rfl, hg, hok⟩ := h
  rw [executeAll_append]
  have htold : Told (endOf (execute line (executeAll before r).2)) := by
    have hwent := (execute_placed line (executeAll before r).2).went
    generalize execute line (executeAll before r).2 = x at hwent hok
    cases hwent with
    | stayed hnone => cases hg.symm.trans hnone
    | moved _ _ _ _ henviron => rw [Told, endOf_ok, henviron, Environment.get?_set_self]
    | missing | failed => cases hok
  exact executeAll_keeps (fun line _ hr => hr.went (execute_placed line _).went) after htold

/-- The directory of a shell is kept along any lines, even such that fail. Before each line the shell
is in a directory that it knows by its own names, and in the files as they were; the line does to it
what `Placed` says; and `PWD` is the directory as soon as one of the lines has gone to one, for the
shell and for the command that the line may start. -/
theorem directory_kept (hr : Settled r) (front : List String) (line : String) :
    Settled (executeAll front r).2 ∧
      (executeAll front r).2.shell.host.files = r.shell.host.files ∧
      Placed line (executeAll front r).2 (execute line (executeAll front r).2) ∧
      (Travelled front r → Told (executeAll front r).2 ∧
        ((executeAll front r).2.callOf line).environ.get? "PWD" =
          some (executeAll front r).2.cwd.toText) := by
  refine ⟨?_, ?_, execute_placed line _, fun ht => ?_⟩
  · exact executeAll_keeps (fun line _ hs => hs.went (execute_placed line _)) front hr
  · exact executeAll_keeps (P := fun s => s.shell.host.files = r.shell.host.files)
      (fun line _ hs => (execute_placed line _).files.trans hs) front rfl
  · have htold := told_of_travelled ht
    refine ⟨htold, ?_⟩
    rw [callOf, childEnvironment, Environment.get?_erase_of_ne _ (by decide)]
    exact htold

def linked : Repl :=
  create { Host.scripted ⟨[]⟩ [] with files := ⟨[(["a"], .directory), (["a", "b"], .directory),
    (["l"], .link "a/b")], []⟩ } .default true

theorem find_linked : linked.shell.host.files.find [] (linked.targetOf "l").toText .target =
    .ok (.taken ["a", "b"]) := by
  have ha : linked.shell.host.files.node? ([] ++ ["a"]) = some .directory := rfl
  have hb : linked.shell.host.files.node? (["a"] ++ ["b"]) = some .directory := rfl
  have hl : linked.shell.host.files.node? ([] ++ ["l"]) = some (.link "a/b") := rfl
  have hwalk : Walks linked.shell.host.files .target maxLinks [] ["l"] (.taken ["a", "b"]) := by
    refine .detour ⟨admits_of_open List.not_mem_nil _, by decide, by decide, nofun, by decide⟩ hl
      nofun ?_
    rw [show steps "a/b" = ["a", "b"] by decide, show startOf "a/b" [] = [] by decide]
    exact .into ⟨admits_of_open List.not_mem_nil _, by decide, by decide, nofun, by decide⟩ ha
      (.into ⟨admits_of_open List.not_mem_nil _, by decide, by decide, nofun, by decide⟩ hb .done)
  rw [← show steps "/l" = ["l"] by decide] at hwalk
  rw [show (linked.targetOf "l").toText = "/l" by decide]
  exact find_ok_iff.2 ⟨⟨by decide, by decide, by decide⟩, hwalk⟩

theorem execute_linked : ∃ t, execute "cd l" linked = .ok 0 t ∧ t.cwd = Path.ofPlace ["a", "b"] := by
  have hd : linked.shell.host.files.isDirectory? [] (linked.targetOf "l").toText = .ok true := by
    rw [isDirectory?, stat_of_find find_linked]
    rfl
  obtain ⟨_, hleads⟩ := (find_ok_iff.1 find_linked).2.leads
  have hthere : linked.isThere? "l" = .ok true := isThere?_of_isDirectory? (by decide) hd
  have hfire : Shell.fire .preexec ["cd l"] linked.shell = .ok () linked.shell :=
    Shell.fire_of_hooks_nil rfl _
  rw [execute_eq, show Text.words "cd l" = ["cd", "l"] by decide, if_neg (by decide),
    bind_of_ok (onShell_of_ok hfire), handle, bind_keepStatus]
  generalize hx : changeDirectory "l" linked = x
  cases hx ▸ changeDirectory_gone "l" linked with
  | refused hd' | missing hd' => cases hthere.symm.trans hd'
  | circle _ hnone => cases hnone.symm.trans hleads.canonical?
  | moved _ hplace =>
    cases hplace.symm.trans hleads.canonical?
    exact ⟨_, rfl, rfl⟩

/-- By way of the link the shell comes to the directory itself, and so does the next command. -/
theorem directory_kept_linked : Settled linked ∧ Travelled ["cd l"] linked ∧
    ((executeAll ["cd l"] linked).2.callOf "ls").job = .commandLine "ls" ⟨.one, ["a", "b"]⟩ ∧
    ((executeAll ["cd l"] linked).2.callOf "ls").environ.get? "PWD" = some "/a/b" := by
  obtain ⟨t, ht, hcwd⟩ := execute_linked
  have hsettled : Settled linked :=
    settled_create (h := linked.shell.host) ⟨reached_root, nofun⟩ .default true
  have hend : (executeAll ["cd l"] linked).2 = t := by
    rw [executeAll, ht]
    rfl
  have htravelled : Travelled ["cd l"] linked :=
    ⟨[], "cd l", [], "l", rfl, by decide, by rw [executeAll, ht]; rfl⟩
  obtain ⟨-, -, -, htold⟩ := directory_kept hsettled ["cd l"] "ls"
  obtain ⟨-, hpwd⟩ := htold htravelled
  rw [hend, hcwd] at hpwd
  rw [hend]
  exact ⟨hsettled, htravelled, by rw [callOf, hcwd]; rfl, hpwd⟩

end Repl

end ShellHistory

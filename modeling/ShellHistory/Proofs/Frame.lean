import ShellHistory.Proofs.BrokenSetup
import ShellHistory.Proofs.Export
import ShellHistory.Proofs.Keys
import ShellHistory.Proofs.Resolution

/-! The environment of a shell. It changes when the shell is set up, which can be broken off half
way, and when the shell goes to another directory, and at no other time. Processes are started with
the environment as it is, each kind with the few variables of its own that are laid over it. -/

namespace ShellHistory

open Act Host

namespace Shell

def session? (s : Shell) : Option Session := s.integration.map fun i => i.context.session

theorem Touched.session {P : Call → Prop} {s t : Shell} (h : Touched P s t) :
    t.session? = s.session? := by
  have hsteady (s : Shell) :
      s.session? = (s.integration.map Integration.steady).map fun i => i.context.session := by
    rw [Option.map_map]
    rfl
  rw [hsteady, hsteady, h.integration]

end Shell

namespace Frame

/-- All that happens to an interactive shell. -/
inductive Step
  | start
  | stop
  | execute (line : String)
  | integration (step : Walk.Step)
  | observe (name : String) (event : Event) (ending : Hook.Ending)
    (adds : List (String × Hook.Ending))
  | fire (event : Event) (args : List String)
  | bind
  | prompt
  | stroke (stroke : Repl.Stroke)
  deriving DecidableEq, Repr

def act : Step → Act Repl Unit
  | .start => discard Repl.start
  | .stop => Repl.stop
  | .execute line => discard (Repl.execute line)
  | .integration step => discard (Repl.onShell (Walk.act step))
  | .observe name event ending adds =>
    Repl.onShell (Shell.register (Hook.observer name event ending adds))
  | .fire event args => Repl.onShell (Shell.fire event args)
  | .bind => modify fun r => { r with bound := some r.shell.integration.isSome }
  | .prompt => Repl.showPrompt
  | .stroke stroke => Repl.strike stroke

def after (r : Repl) (steps : List Step) : Repl := steps.foldl (fun r step => endOf (act step r)) r

/-- The environment in which a step starts its processes. A setup has marked it before. -/
def environAt (r : Repl) : Step → Environment
  | .start => r.environ.set Setup.sentinelName "1"
  | _ => r.environ

/-- The session in which a step starts its processes. A setup is still looking for one. -/
def sessionAt (r : Repl) : Step → Option Session
  | .start => none
  | _ => r.shell.session?

/-- What a step does to the environment: nothing, or it sets up the shell, or is broken off when it
does so, or goes to another directory. -/
inductive Changed (r : Repl) : Step → EStateM.Result Failure Repl Unit → Prop
  | same {step : Step} {x : EStateM.Result Failure Repl Unit} :
      (endOf x).environ = r.environ → Changed r step x
  | setUp {t : Repl} {session : Session} : Setup.isDone r.environ = false →
      t.shell.session? = some session →
      t.environ = (r.environ.set Setup.sentinelName "1").merge session.toEnvironment →
      Changed r .start (.ok () t)
  | brokenOff {f : Failure} {t : Repl} : Setup.isDone r.environ = false →
      t.shell.session? = r.shell.session? →
      t.environ = r.environ.set Setup.sentinelName "1" → Changed r .start (.error f t)
  | moved {line target : String} {t : Repl} : Repl.goal? (Text.words line) = some target →
      t.lastExit = 0 →
      t.environ = (r.environ.set "OLDPWD" r.cwd.toText).set "PWD" t.cwd.toText →
      Changed r (.execute line) (.ok () t)

/-- What a process has in its environment, if the shell has `e`. -/
inductive Overlaid (b : Backend) (session : Option Session) (c : Config) (e : Environment) :
    Call → Prop
  | backend {argv : List String} {captured : Bool} {environ : Environment} :
      (∀ name, environ.get? name = (b.given? session name).or (e.get? name)) →
      Overlaid b session c e ⟨.backend argv captured, environ⟩
  | selector {argv : List String} {input options : String} {h t : Host} {environ : Environment} :
      h.environ = e → Search.defaults c e h = .ok options t →
      (∀ name, environ.get? name =
        if name = "FZF_DEFAULT_OPTS_FILE" then some ""
        else if name = "FZF_DEFAULT_OPTS" then some options else e.get? name) →
      Overlaid b session c e ⟨.selector argv input, environ⟩
  | commandLine {line : String} {cwd : Path} {environ : Environment} :
      (∀ name, environ.get? name = if name = Setup.sentinelName then none else e.get? name) →
      Overlaid b session c e ⟨.commandLine line cwd, environ⟩

/-- The variables that some process has and its shell has not, or otherwise. -/
def ownNames : List String :=
  ["VELLUM_EDITOR", Session.tokenName, Session.startName, "FZF_DEFAULT_OPTS",
    "FZF_DEFAULT_OPTS_FILE", Setup.sentinelName]

theorem overlaid_of_started {b : Backend} {session : Option Session} {c : Config} {e : Environment}
    {call : Call} (h : Shell.Started b session c e call) : Overlaid b session c e call := by
  cases h with
  | @backend args captured call hc =>
    obtain ⟨binary, -, he, hjob⟩ := Backend.call?_ok hc
    obtain ⟨job, environ⟩ := call
    cases hjob
    exact .backend fun name => Backend.get?_environment he name
  | selector hs =>
    obtain ⟨he, hd⟩ := hs
    refine .selector he hd fun name => ?_
    split
    · next hn => rw [hn, Environment.get?_set_self]
    · next hn =>
      rw [Environment.get?_set_of_ne _ hn]
      split
      · next hn => rw [hn, Environment.get?_set_self]
      · next hn => rw [Environment.get?_set_of_ne _ hn]
  | commandLine line cwd =>
    refine .commandLine fun name => ?_
    split
    · next hn => rw [hn]; exact Environment.get?_erase_self e _
    · next hn => exact Environment.get?_erase_of_ne e hn

/-- A process has every other variable from its shell. -/
theorem Overlaid.get?_of_notMem {b : Backend} {session : Option Session} {c : Config} {e : Environment}
    {call : Call} (h : Overlaid b session c e call) {name : String} (hn : name ∉ ownNames) :
    call.environ.get? name = e.get? name := by
  simp only [ownNames, List.mem_cons, List.not_mem_nil, or_false, not_or] at hn
  obtain ⟨heditor, htoken, hstart, hoptions, hfile, hmark⟩ := hn
  cases h with
  | backend h =>
    rw [h, Backend.given?, if_neg heditor]
    cases session with
    | none => rfl
    | some s => exact congrArg (Option.or · _) (s.get?_toEnvironment_of_ne htoken hstart)
  | selector _ _ h => rw [h, if_neg hfile, if_neg hoptions]
  | commandLine h => rw [h, if_neg hmark]

/-- What stays true of a shell with the history program `b` and the configuration `c`. -/
structure Standing (b : Backend) (c : Config) (r : Repl) : Prop where
  backend : r.shell.backend = b
  config : r.config = c
  attached : ∀ i, r.shell.integration = some i → i.context.config = c ∧ Setup.isDone r.environ = true
  captures : ∀ event, ∀ k ∈ r.shell.registry.hooks event, ∀ session, k.action = .capture session →
    r.shell.session? = some session

theorem create_standing (host : Host) (c : Config) (interactive : Bool) :
    Standing (Shell.backendOf c host.environ) c (Repl.create host c interactive) where
  backend := rfl
  config := rfl
  attached := nofun
  captures event k hk := by cases event <;> cases hk

abbrev Own (b : Backend) (c : Config) (r : Repl) : Call → Prop :=
  Shell.Started b r.shell.session? c r.environ

/-- A step leaves the shell standing, changes the environment as it may, and starts what it may. -/
structure Framed (b : Backend) (c : Config) (step : Step) (r : Repl)
    (x : EStateM.Result Failure Repl Unit) : Prop where
  standing : Standing b c (endOf x)
  changed : Changed r step x
  started : ∃ cs, (endOf x).shell.host.calls = r.shell.host.calls ++ cs ∧
    ∀ call ∈ cs, Shell.Started b (sessionAt r step) c (environAt r step) call

section Framed

variable {b : Backend} {c : Config} {r : Repl}

theorem Standing.of_touched {P : Call → Prop} {t : Repl} (hr : Standing b c r)
    (ht : Shell.Touched P r.shell t.shell) (hc : t.config = r.config) : Standing b c t where
  backend := ht.backend.trans hr.backend
  config := hc.trans hr.config
  attached i hi := by
    have hsteady := ht.integration.symm
    rw [hi, Option.map_some, Option.map_eq_some_iff] at hsteady
    obtain ⟨j, hj, hij⟩ := hsteady
    obtain ⟨hconfig, hdone⟩ := hr.attached j hj
    have hsame : j.steady.context.config = i.steady.context.config := by rw [hij]
    refine ⟨hsame.symm.trans hconfig, ?_⟩
    rw [← hdone]
    exact congrArg Setup.isDone ht.environ
  captures event k hk session hs := by
    obtain ⟨more, hmore, hobserve⟩ := ht.hooks event
    rw [hmore] at hk
    rcases List.mem_append.1 hk with hk | hk
    · rw [ht.session]
      exact hr.captures event k hk session hs
    · obtain ⟨name, ending, adds, rfl⟩ := hobserve k hk
      cases hs

theorem Framed.of_touched {step : Step} {x : EStateM.Result Failure Repl Unit}
    (hr : Standing b c r) (hs : step ≠ .start)
    (ht : Shell.Touched (Own b c r) r.shell (endOf x).shell) (hc : (endOf x).config = r.config) :
    Framed b c step r x where
  standing := hr.of_touched ht hc
  changed := .same ht.environ
  started := by
    obtain ⟨cs, hran, hcs⟩ := ht.ran
    refine ⟨cs, hran.calls, ?_⟩
    cases step with
    | start => exact absurd rfl hs
    | _ => exact hcs

theorem Standing.stores (hr : Standing b c r) (event : Event) :
    ∀ k ∈ r.shell.registry.hooks event, k.Stores (Own b c r) r.shell.backend r.environ := by
  intro k hk session hs args captured call hc
  rw [hr.backend] at hc
  rw [Own, hr.captures event k hk session hs]
  exact .backend hc

theorem Standing.own (hr : Standing b c r) {i : Integration} (hi : r.shell.integration = some i)
    {call : Call} (h : Shell.Started r.shell.backend (some i.context.session) i.context.config
      r.environ call) : Own b c r call := by
  rw [hr.backend, (hr.attached i hi).1] at h
  rw [Own, Shell.session?, hi]
  exact h

/-- A step that neither sets up the shell nor runs a line only uses the shell: what it starts is
started by its hooks and by its integration. -/
theorem act_used {P : Call → Prop} {r : Repl}
    (hstores : ∀ event, ∀ k ∈ r.shell.registry.hooks event, k.Stores P r.shell.backend r.environ)
    (hP : ∀ i, r.shell.integration = some i → ∀ c, Shell.Started r.shell.backend
      (some i.context.session) i.context.config r.environ c → P c) (step : Step) :
    step = .start ∨ (∃ line, step = .execute line) ∨ step ≠ .start ∧
      Shell.Touched P r.shell (endOf (act step r)).shell ∧ (endOf (act step r)).config = r.config := by
  cases step with
  | start => exact .inl rfl
  | execute line => exact .inr (.inl ⟨line, rfl⟩)
  | stop => exact .inr (.inr ⟨nofun, .refl _, rfl⟩)
  | bind => exact .inr (.inr ⟨nofun, .refl _, rfl⟩)
  | integration step =>
    right; right
    rw [act, endOf_discard, Repl.endOf_onShell]
    exact ⟨nofun, Shell.act_touched step hP, rfl⟩
  | observe name event ending adds =>
    refine .inr (.inr ⟨nofun, ⟨⟨[], Ran.refl _, nofun⟩, rfl, rfl, fun other => ?_⟩, rfl⟩)
    refine ⟨_, Registry.hooks_register _ _ other, ?_⟩
    split
    · next he => simpa [← he] using ⟨name, ending, adds, rfl⟩
    · exact nofun
  | fire event args =>
    right; right
    rw [act, Repl.endOf_onShell]
    exact ⟨nofun, Shell.fire_touched (hstores event) args, rfl⟩
  | prompt =>
    obtain ⟨prompts, hend⟩ := (Repl.showPrompt_shown r).ends
    right; right
    rw [act, hend]
    exact ⟨nofun, Shell.fire_touched (hstores .precmd) [], rfl⟩
  | stroke stroke =>
    have hstruck := Repl.strike_struck stroke hP
    refine .inr (.inr ⟨nofun, hstruck.touched, ?_⟩)
    rw [act, hstruck.rest]

/-- A shell apart from its machine, on which the mark of a setup has not been lost. -/
theorem Standing.of_host {t : Repl} {h : Host} (hr : Standing b c r)
    (hs : t.shell = { r.shell with host := h }) (hc : t.config = r.config)
    (hd : Setup.isDone r.environ = true → Setup.isDone t.environ = true) : Standing b c t where
  backend := by rw [hs]; exact hr.backend
  config := hc.trans hr.config
  attached i hi := by
    rw [hs] at hi
    exact ⟨(hr.attached i hi).1, hd (hr.attached i hi).2⟩
  captures := by rw [hs]; exact hr.captures

theorem unfired_framed {line : String} {s : Shell} {x : EStateM.Result Failure Repl Int}
    (hr : Standing b c r) (ht : Shell.Touched (Own b c r) r.shell s)
    (hx : Repl.Handled line { r with shell := s } (Text.words line) x) :
    Framed b c (.execute line) r (quiet x) := by
  have hs : Standing b c { r with shell := s } := hr.of_touched ht rfl
  have hdone := hx.unhooked.isDone
  obtain ⟨cs, hran, hcs⟩ := ht.ran
  generalize hw : Text.words line = words at hx
  cases hx with
  | exit => exact .of_touched hr nofun ht rfl
  | exitRefused => exact .of_touched hr nofun ht rfl
  | @cd _ target y hgoal hy =>
    cases hy with
    | refused => exact .of_touched hr nofun ht rfl
    | missing => exact ⟨hs.of_host rfl rfl id, .same ht.environ, cs, hran.calls, hcs⟩
    | circle hd hnone =>
      -- a directory is there, so its links do not go round in circles
      obtain ⟨place, -, -, hplace⟩ := FileTree.find_of_isDirectory? (Repl.isThere?_ok hd)
      cases hnone.symm.trans hplace
    | moved =>
      refine ⟨hs.of_host rfl rfl hdone.trans, .moved (hw ▸ hgoal) rfl ?_, cs, hran.calls, hcs⟩
      exact congrArg (fun e : Environment => (e.set _ _).set _ _) ht.environ
  | command =>
    have hcall : Own b c r (Repl.callOf { r with shell := s } line) := by
      rw [Repl.callOf, show Repl.environ { r with shell := s } = r.environ from ht.environ]
      exact .commandLine line r.cwd
    have hcalls : s.host.calls ++ [Repl.callOf { r with shell := s } line] =
        r.shell.host.calls ++ (cs ++ [Repl.callOf { r with shell := s } line]) := by
      rw [hran.calls, List.append_assoc]
    have hstarted : ∀ call ∈ cs ++ [Repl.callOf { r with shell := s } line], Own b c r call := by
      intro call hm
      rcases List.mem_append.1 hm with hm | hm
      · exact hcs call hm
      · exact List.mem_singleton.1 hm ▸ hcall
    cases hsaid : s.host.untold? (Repl.callOf { r with shell := s } line) with
    | some f =>
      rw [Repl.runCommand_of_untold hsaid]
      exact .of_touched hr nofun ht rfl
    | none =>
    rw [Repl.runCommand_of_told hsaid]
    cases Repl.statusAfter (s.host.next (Repl.callOf { r with shell := s } line)) with
    | ok status => exact ⟨hs.of_host rfl rfl id, .same ht.environ, _, hcalls, hstarted⟩
    | error f => exact ⟨hs.of_host rfl rfl id, .same ht.environ, _, hcalls, hstarted⟩

theorem execute_framed (hr : Standing b c r) (line : String) :
    Framed b c (.execute line) r (act (.execute line) r) := by
  rw [act, discard_apply]
  generalize hx : Repl.execute line r = x
  cases hx ▸ Repl.execute_executed line r with
  | blank => exact .of_touched hr nofun (.refl _) rfl
  | broken _ hf =>
    have ht := Shell.fire_touched (hr.stores .preexec) [line]
    rw [hf] at ht
    exact .of_touched hr nofun ht rfl
  | handled _ hf hh =>
    have ht := Shell.fire_touched (hr.stores .preexec) [line]
    rw [hf] at ht
    exact unfired_framed hr ht hh

theorem broken_framed {f : Failure} {s : Shell} (hr : Standing b c r)
    (hs : Shell.Broken r.config r.interactive r.shell f s) :
    Framed b c .start r (.error f { r with shell := s }) := by
  cases hs with
  | unreadable => exact ⟨hr, .same rfl, [], (List.append_nil _).symm, nofun⟩
  | unanswered _ hd _ _ _ hran hcs =>
    have hmark : Setup.isDone (r.environ.set Setup.sentinelName "1") = true :=
      Setup.isDone_set_sentinel r.environ
    refine ⟨hr.of_host rfl rfl fun _ => ?_, .brokenOff hd rfl hran.environ, _, hran.calls,
      fun call hm => ?_⟩
    · exact (congrArg Setup.isDone hran.environ).trans hmark
    · obtain ⟨what, hc⟩ := hcs call hm
      rw [hr.backend] at hc
      exact .backend hc

theorem found_started {session : Session} {h u : Host} (hu : Setup.Found b h session u) :
    ∃ cs, u.calls = h.calls ++ cs ∧ ∀ call ∈ cs, Shell.Started b none c h.environ call := by
  cases hu with
  | known => exact ⟨[], (List.append_nil _).symm, nofun⟩
  | @asked first second records _ hfirst hsecond =>
    refine ⟨[first, second], List.append_assoc _ _ _, fun call hm => ?_⟩
    rcases List.mem_cons.1 hm with rfl | hm
    · exact .backend hfirst
    · exact List.mem_singleton.1 hm ▸ .backend hsecond

theorem mem_installed {registry : Registry} {session : Session} {number : Nat} {event : Event}
    {k : Hook} (hk : k ∈ ((registry.register (Hook.captureOf session)).register
      (Hook.resetOf number)).hooks event) :
    k ∈ registry.hooks event ∨ k = Hook.captureOf session ∨ k = Hook.resetOf number := by
  rw [Registry.hooks_register, Registry.hooks_register, List.mem_append, List.mem_append] at hk
  obtain (hk | hk) | hk := hk
  · exact .inl hk
  · split at hk
    · exact .inr (.inl (List.mem_singleton.1 hk))
    · cases hk
  · split at hk
    · exact .inr (.inr (List.mem_singleton.1 hk))
    · cases hk

/-- A shell that is set up had no integration, or else it would be marked. -/
theorem tried_framed {a : Bool} {s : Shell} {t : Repl} (hr : Standing b c r)
    (hs : Shell.Tried r.config r.interactive r.shell a s)
    (ht : t = { r with shell := s, running := true }) : Framed b c .start r (.ok () t) := by
  subst ht
  cases hs with
  | missing => exact ⟨hr.of_host rfl rfl id, .same rfl, [], (List.append_nil _).symm, nofun⟩
  | skipped => exact ⟨hr.of_host rfl rfl id, .same rfl, [], (List.append_nil _).symm, nofun⟩
  | @done session u records _ hd _ hu =>
    have hmark : Setup.isDone (((r.environ.set Setup.sentinelName "1")).merge session.toEnvironment) =
        true := (Setup.isDone_merge _ session).trans (Setup.isDone_set_sentinel r.environ)
    rw [hr.backend] at hu
    obtain ⟨cs, hcalls, hcs⟩ := found_started (c := c) hu
    refine ⟨⟨hr.backend, hr.config, ?_, ?_⟩, .setUp hd rfl rfl, cs, hcalls, hcs⟩
    · rintro i hi
      cases hi
      exact ⟨hr.config, hmark⟩
    · intro event k hk session' hk'
      rcases mem_installed hk with hk | rfl | rfl
      · obtain ⟨i, hi, -⟩ := Option.map_eq_some_iff.1 (hr.captures event k hk session' hk')
        cases hd.symm.trans (hr.attached i hi).2
      · cases hk'
        rfl
      · cases hk'

theorem start_of_setUp_error {r : Repl} {f : Failure} {s : Shell}
    (hs : Shell.setUp r.config r.interactive r.shell = .error f s) :
    Repl.start r = .error f { r with shell := s } := by
  unfold Repl.start
  rw [get_bind, bind_of_error (discard_of_error (Repl.onShell_of_error hs))]

theorem start_framed (hr : Standing b c r) : Framed b c .start r (act .start r) := by
  rw [act, discard_apply]
  cases hs : Shell.setUp r.config r.interactive r.shell with
  | error f s =>
    rw [start_of_setUp_error hs]
    exact broken_framed hr (Shell.setUp_error hs)
  | ok done s =>
    rw [Repl.start_of_setUp hs]
    exact tried_framed hr (Shell.setUp_tried hs) rfl

/-- Every step of a shell leaves it standing and is framed, whether it fails or not. -/
theorem act_framed (hr : Standing b c r) (step : Step) : Framed b c step r (act step r) := by
  rcases act_used hr.stores (fun i hi call => hr.own hi) step with rfl | ⟨line, rfl⟩ | ⟨hs, ht, hc⟩
  · exact start_framed hr
  · exact execute_framed hr line
  · exact .of_touched hr hs ht hc

theorem after_standing (hr : Standing b c r) (steps : List Step) : Standing b c (after r steps) := by
  induction steps generalizing r with
  | nil => exact hr
  | cons step rest ih => exact ih (act_framed hr step).standing

end Framed

/-- Whatever an action does, and however it ends, some steps do the same. -/
def Stepwise {α : Type} (x : Act Repl α) : Prop := ∀ r, ∃ steps, endOf (x r) = after r steps

section Stepwise

variable {α β : Type}

theorem stepwise_act (step : Step) : Stepwise (act step) := fun _ => ⟨[step], rfl⟩

theorem stepwise_pure (a : α) : Stepwise (pure a : Act Repl α) := fun _ => ⟨[], rfl⟩

theorem Stepwise.bind {x : Act Repl α} {f : α → Act Repl β} (hx : Stepwise x)
    (hf : ∀ a, Stepwise (f a)) : Stepwise (x >>= f) := by
  intro r
  obtain ⟨steps, hsteps⟩ := hx r
  cases h : x r with
  | error f t =>
    rw [h] at hsteps
    rw [bind_of_error h]
    exact ⟨steps, hsteps⟩
  | ok a t =>
    rw [h, endOf_ok] at hsteps
    rw [bind_of_ok h]
    obtain ⟨more, hmore⟩ := hf a t
    exact ⟨steps ++ more, by rw [hmore, hsteps, after, after, after, List.foldl_append]⟩

theorem stepwise_get_bind {f : Repl → Act Repl α} (hf : ∀ r, Stepwise (f r)) :
    Stepwise (get >>= f) := fun r => hf r r

theorem strokes_stepwise (strokes : List Repl.Stroke) : Stepwise (strokes.forM Repl.strike) := by
  induction strokes with
  | nil => exact stepwise_pure ()
  | cons stroke rest ih => exact (stepwise_act (.stroke stroke)).bind fun _ => ih

theorem loop_stepwise (turns : List Repl.Turn) : Stepwise (Repl.loop turns) := by
  induction turns with
  | nil =>
    unfold Repl.loop
    refine stepwise_get_bind fun r => ?_
    split
    · exact stepwise_get_bind fun _ => stepwise_pure _
    · exact (stepwise_act .prompt).bind fun _ => stepwise_get_bind fun _ => stepwise_pure _
  | cons turn rest ih =>
    unfold Repl.loop
    refine stepwise_get_bind fun r => ?_
    split
    · exact stepwise_get_bind fun _ => stepwise_pure _
    refine (stepwise_act .prompt).bind fun _ => (strokes_stepwise turn.strokes).bind fun _ => ?_
    cases turn.answer with
    | interrupt => exact ih
    | endOfFile => exact stepwise_get_bind fun _ => stepwise_pure _
    | line s => exact (stepwise_act (.execute s)).bind fun _ => ih

theorem run_stepwise (turns : List Repl.Turn) : Stepwise (Repl.run turns) := by
  unfold Repl.run
  refine stepwise_get_bind fun r => ?_
  split
  · exact (stepwise_act .start).bind fun _ => (stepwise_act .bind).bind fun _ => loop_stepwise turns
  · exact (stepwise_act .bind).bind fun _ => loop_stepwise turns

end Stepwise

/-- Along all that happens to a shell, well or not, its environment is changed by a setup and by going
to a directory, and by nothing else; only a setup that is broken off leaves its mark without being
one. A process is started with the environment as it is, but for the variables of its kind: every
other variable reaches it untouched. The prompt loop does nothing besides such steps. -/
theorem environment_framed (host : Host) (c : Config) (interactive : Bool) (steps : List Step)
    (step : Step) :
    let r := after (Repl.create host c interactive) steps
    Changed r step (act step r) ∧
    (∀ call ∈ r.shell.host.startedSince (endOf (act step r)).shell.host,
      Overlaid (Shell.backendOf c host.environ) (sessionAt r step) c (environAt r step) call ∧
      ∀ name ∉ ownNames, call.environ.get? name = r.environ.get? name) ∧
    ∀ turns, ∃ more, endOf (Repl.run turns r) = after r more := by
  intro r
  have hr := after_standing (create_standing host c interactive) steps
  obtain ⟨-, hchanged, cs, hcalls, hcs⟩ := act_framed hr step
  refine ⟨hchanged, fun call hm => ?_, fun turns => run_stepwise turns r⟩
  rw [Host.startedSince_of_calls hcalls] at hm
  have hover := overlaid_of_started (hcs call hm)
  refine ⟨hover, fun name hn => (hover.get?_of_notMem hn).trans ?_⟩
  cases step with
  | start => exact Environment.get?_set_of_ne _ (fun he => hn (by rw [he]; decide)) _
  | _ => rfl

example : Setup.keyName ∉ ownNames := by decide

def unlucky : Repl := Repl.create (Shell.interrupted.on Shell.sample).host .default true

/-- A start that is broken off changes the environment, though nothing has been set up. -/
theorem mark_without_setup : ∃ t, act .start unlucky = .error .interrupted t ∧
    t.shell.integration = none ∧ unlucky.environ.get? Setup.sentinelName = none ∧
    t.environ.get? Setup.sentinelName = some "1" := by
  obtain ⟨s, hs, henviron, -⟩ := Shell.attempt_interrupted
  have hset : Shell.setUp unlucky.config unlucky.interactive unlucky.shell = .error .interrupted s := hs
  have hnone : s.integration = none := by
    cases Shell.setUp_error hset with
    | unreadable => rfl
    | unanswered => rfl
  refine ⟨_, discard_of_error (start_of_setUp_error hset), hnone, rfl, ?_⟩
  rw [Repl.environ, henviron]
  rfl

end Frame
end ShellHistory

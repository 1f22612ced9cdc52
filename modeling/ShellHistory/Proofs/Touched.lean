import ShellHistory.Proofs.Capture
import ShellHistory.Proofs.Started
import ShellHistory.Proofs.Walk

/-! What a shell leaves as it is while its keys are pressed and its hooks are called. Processes are
started, the cursor moves and observers are registered; the environment, the session and the
configuration stay what they are, whether all goes well or not. -/

namespace ShellHistory

open Act Host

def Integration.steady (i : Integration) : Integration :=
  { i with context := { i.context with cursor := "", lastSelected := none } }

/-- The hooks that a firing calls: those of the event, and then those that they register. -/
def Hook.heard (hooks : List Hook) : List Hook := hooks ++ hooks.flatMap Hook.added

def Hook.noted (k : Hook) (args : List String) : List (String × List String) :=
  match k.action with
  | .observe _ _ => [(k.name, args)]
  | _ => []

/-- The processes with which a hook stores lines are as `P` says. -/
def Hook.Stores (P : Call → Prop) (b : Backend) (e : Environment) (k : Hook) : Prop :=
  ∀ session, k.action = .capture session →
    ∀ args captured call, b.call? args (some session) captured e = .ok call → P call

theorem Hook.stores_true (k : Hook) (b : Backend) (e : Environment) :
    k.Stores (fun _ => True) b e := fun _ _ _ _ _ _ => trivial

/-- A hook that a hook has registered is an observer, and registers none itself. -/
theorem Hook.mem_added {h k : Hook} (hk : k ∈ h.added) :
    ∃ name ending, k = observer name h.event ending [] := by
  unfold added at hk
  split at hk
  · obtain ⟨⟨name, ending⟩, -, rfl⟩ := List.mem_map.1 hk
    exact ⟨name, ending, rfl⟩
  · cases hk

theorem Hook.added_of_mem_added {h k : Hook} (hk : k ∈ h.added) : k.added = [] := by
  obtain ⟨name, ending, rfl⟩ := mem_added hk
  rfl

theorem Hook.heard_cons (h : Hook) (rest : List Hook) :
    heard (h :: rest) = h :: heard (rest ++ h.added) := by
  have hnone : h.added.flatMap added = [] :=
    List.flatMap_eq_nil_iff.2 fun k hk => added_of_mem_added hk
  simp [heard, hnone]

namespace Registry

theorem hooks_foldl_register (ks : List Hook) (r : Registry) (event : Event) :
    (ks.foldl register r).hooks event = r.hooks event ++ ks.filter (·.event = event) := by
  induction ks generalizing r with
  | nil => exact (List.append_nil _).symm
  | cons k rest ih =>
    rw [List.foldl_cons, ih, hooks_register, List.append_assoc, List.filter_cons]
    by_cases hk : k.event = event <;> simp [hk]

end Registry

namespace Shell

/-- What there is of a shell when it has been used for a while. Its processes were as `P` says. -/
structure Touched (P : Call → Prop) (s t : Shell) : Prop where
  ran : ∃ cs, Ran s.host cs t.host ∧ ∀ c ∈ cs, P c
  backend : t.backend = s.backend
  integration : t.integration.map Integration.steady = s.integration.map Integration.steady
  hooks : ∀ event, ∃ more, t.registry.hooks event = s.registry.hooks event ++ more ∧
    ∀ k ∈ more, ∃ name ending adds, k = Hook.observer name event ending adds

section Touched

variable {P : Call → Prop} {s t u : Shell}

theorem Touched.environ (h : Touched P s t) : t.host.environ = s.host.environ := by
  obtain ⟨cs, hr, -⟩ := h.ran
  exact hr.environ

theorem Touched.mono {Q : Call → Prop} (h : Touched P s t) (hPQ : ∀ c, P c → Q c) :
    Touched Q s t := by
  obtain ⟨cs, hr, hcs⟩ := h.ran
  exact ⟨⟨cs, hr, fun c hc => hPQ c (hcs c hc)⟩, h.backend, h.integration, h.hooks⟩

/-- The integration stays, wherever it has got to in the history. -/
theorem Touched.exists_integration (h : Touched P s t) {i : Integration}
    (hi : s.integration = some i) : ∃ j, t.integration = some j ∧ j.steady = i.steady := by
  have hsteady := h.integration
  rw [hi, Option.map_some, Option.map_eq_some_iff] at hsteady
  exact hsteady

theorem Touched.trans (h : Touched P s t) (h' : Touched P t u) : Touched P s u := by
  obtain ⟨cs, hr, hcs⟩ := h.ran
  obtain ⟨ds, hr', hds⟩ := h'.ran
  refine ⟨⟨cs ++ ds, hr.trans hr', fun c hm => (List.mem_append.1 hm).elim (hcs c) (hds c)⟩,
    h'.backend.trans h.backend, h'.integration.trans h.integration, fun event => ?_⟩
  obtain ⟨more, hm, hobs⟩ := h.hooks event
  obtain ⟨more', hm', hobs'⟩ := h'.hooks event
  exact ⟨more ++ more', by rw [hm', hm, List.append_assoc],
    fun k hk => (List.mem_append.1 hk).elim (hobs k) (hobs' k)⟩

/-- Apart from its machine a shell is as before, but for its place in the history. -/
theorem touched_of_ran {cs : List Call} {h : Host} (hr : Ran s.host cs h) (hcs : ∀ c ∈ cs, P c)
    {integration : Option Integration}
    (hi : integration.map Integration.steady = s.integration.map Integration.steady) :
    Touched P s { s with host := h, integration := integration } :=
  ⟨⟨cs, hr, hcs⟩, rfl, hi, fun _ => ⟨[], (List.append_nil _).symm, nofun⟩⟩

theorem Touched.refl (s : Shell) : Touched P s s := touched_of_ran (Ran.refl _) nofun rfl

theorem endOf_onHost {α : Type} (act : Act Host α) (s : Shell) :
    endOf (onHost act s) = { s with host := endOf (act s.host) } := by
  cases hx : act s.host with
  | ok a h => rw [onHost_of_ok hx, endOf_ok, endOf_ok]
  | error f h => rw [onHost_of_error hx, endOf_error, endOf_error]

theorem onHost_touched {α : Type} {act : Act Host α} (ha : Starts P s.host.environ act) :
    Touched P s { s with host := endOf (act s.host) } := by
  obtain ⟨cs, hr, hcs⟩ := ha s.host rfl
  exact touched_of_ran hr hcs rfl

end Touched

/-- Hooks have been called, one after the other. -/
structure Heard (P : Call → Prop) (called : List Hook) (args : List String) (s t : Shell) : Prop
    extends Touched P s t where
  notes : t.notes = s.notes ++ called.flatMap (Hook.noted · args)
  registry : t.registry = (called.flatMap Hook.added).foldl Registry.register s.registry

section Heard

variable {P : Call → Prop} {s t u : Shell} {args : List String}

theorem Heard.nil (s : Shell) : Heard P [] args s s where
  toTouched := .refl s
  notes := (List.append_nil _).symm
  registry := rfl

theorem Heard.trans {ks ks' : List Hook} (h : Heard P ks args s t) (h' : Heard P ks' args t u) :
    Heard P (ks ++ ks') args s u where
  toTouched := h.toTouched.trans h'.toTouched
  notes := by rw [h'.notes, h.notes, List.flatMap_append, List.append_assoc]
  registry := by rw [h'.registry, h.registry, List.flatMap_append, List.foldl_append]

theorem Heard.then {ks : List Hook} (h : Heard P ks args s t) (h' : Touched P t u)
    (notes : u.notes = t.notes) (registry : u.registry = t.registry) : Heard P ks args s u where
  toTouched := h.toTouched.trans h'
  notes := notes.trans h.notes
  registry := registry.trans h.registry

theorem Touched.heard {k : Hook} (h : Touched P s t) (hnoted : k.noted args = [])
    (hadded : k.added = []) (notes : t.notes = s.notes) (registry : t.registry = s.registry) :
    Heard P [k] args s t where
  toTouched := h
  notes := by rw [notes, List.flatMap_singleton, hnoted, List.append_nil]
  registry := by rw [registry, List.flatMap_singleton, hadded, List.foldl_nil]

theorem forM_register (ks : List Hook) (s : Shell) :
    (ks.forM register : Act Shell Unit) s =
      .ok () { s with registry := ks.foldl Registry.register s.registry } := by
  induction ks generalizing s with
  | nil => rfl
  | cons k rest ih => exact ih { s with registry := s.registry.register k }

theorem endOf_call_capture (name : String) (event : Event) (session : Session) (line : String)
    (s : Shell) : endOf (call ⟨name, event, .capture session⟩ [line] s) =
      { s with host := endOf (s.backend.store line (some session) s.host) } :=
  (endOf_discard _ s).trans (endOf_onHost _ s)

def closed : Hook.Ending → Shell → EStateM.Result Failure Shell Unit
  | .quiet, s => .ok () s
  | .failing, s => .error .observer s
  | .interrupting, s => .error .interrupted s

@[simp] theorem endOf_closed (ending : Hook.Ending) (s : Shell) : endOf (closed ending s) = s := by
  cases ending <;> rfl

theorem call_observe (name : String) (event : Event) (ending : Hook.Ending)
    (adds : List (String × Hook.Ending)) (args : List String) (s : Shell) :
    call ⟨name, event, .observe ending adds⟩ args s = closed ending { s with
      notes := s.notes ++ [(name, args)]
      registry := (Hook.added ⟨name, event, .observe ending adds⟩).foldl Registry.register
        s.registry } := by
  simp only [call, modify_bind]
  rw [bind_of_ok (forM_register _ _)]
  cases ending <;> rfl

def idle (number : Nat) (s : Shell) : Shell :=
  { s with integration := s.integration.map fun i =>
      if i.number = number then { i with context := { i.context with cursor := "" } } else i }

theorem call_reset (name : String) (event : Event) (number : Nat) (s : Shell) :
    call ⟨name, event, .reset number⟩ [] s = .ok () (s.idle number) := by
  obtain ⟨host, backend, registry, integration, made, notes⟩ := s
  cases integration with
  | none => rfl
  | some i =>
    by_cases hn : i.number = number
    · simp only [call, modify_apply, idle, Option.map_some, if_pos hn]
    · simp only [call, modify_apply, idle, Option.map_some, if_neg hn]

theorem idle_touched (number : Nat) (s : Shell) : Touched P s (s.idle number) := by
  refine touched_of_ran (Ran.refl _) nofun ?_
  cases s.integration with
  | none => rfl
  | some i =>
    dsimp only [Option.map_some]
    split <;> rfl

theorem observe_heard {k : Hook} (hnoted : k.noted args = [(k.name, args)]) :
    Heard P [k] args s { s with
      notes := s.notes ++ [(k.name, args)]
      registry := k.added.foldl Registry.register s.registry } where
  ran := ⟨[], Ran.refl _, nofun⟩
  backend := rfl
  integration := rfl
  hooks := by
    refine fun event => ⟨_, Registry.hooks_foldl_register k.added s.registry event, ?_⟩
    intro a ha
    obtain ⟨ha, he⟩ := List.mem_filter.1 ha
    obtain ⟨name, ending, rfl⟩ := Hook.mem_added ha
    exact ⟨name, ending, [], congrArg (Hook.observer name · ending []) (of_decide_eq_true he)⟩
  notes := by rw [List.flatMap_singleton, hnoted]
  registry := by rw [List.flatMap_singleton]

theorem call_heard {k : Hook} (hk : k.Stores P s.backend s.host.environ) (args : List String) :
    Heard P [k] args s (endOf (call k args s)) := by
  -- arguments that a hook does not take are refused before it does anything
  obtain ⟨name, event, action⟩ := k
  cases action with
  | capture session =>
    rcases args with _ | ⟨line, _ | ⟨other, more⟩⟩
    · exact (Touched.refl s).heard rfl rfl rfl rfl
    · rw [endOf_call_capture]
      have hstarts := (s.backend.run_starts ["store", "--", line] (some session) false
        s.host.environ).mono fun c hc => hk session rfl _ _ c hc
      exact (onHost_touched hstarts).heard rfl rfl rfl rfl
    · exact (Touched.refl s).heard rfl rfl rfl rfl
  | reset number =>
    rcases args with _ | ⟨line, more⟩
    · rw [call_reset]
      exact (idle_touched number s).heard rfl rfl rfl rfl
    · exact (Touched.refl s).heard rfl rfl rfl rfl
  | observe ending adds =>
    rw [call_observe, endOf_closed]
    exact observe_heard rfl

/-- A failure that is caught is logged, which changes nothing else. -/
theorem callSafely_heard {k : Hook} (hk : k.Stores P s.backend s.host.environ) (args : List String) :
    Heard P [k] args s (endOf (callSafely k args s)) := by
  have h := call_heard hk args
  unfold callSafely
  generalize call k args s = x at h
  split
  · exact h
  · exact h
  · rw [endOf_onHost]
    exact h.then (onHost_touched (starts_log _ _ _ _)) rfl rfl

theorem Hook.Stores.of_touched {k : Hook} (hk : k.Stores P s.backend s.host.environ)
    (h : Touched P s t) : k.Stores P t.backend t.host.environ := by
  rw [h.backend, h.environ]
  exact hk

/-- A firing calls all that there is to call, unless it is broken off. -/
theorem callAll_heard (args : List String) (hooks : List Hook) {s : Shell}
    (hk : ∀ k ∈ hooks, k.Stores P s.backend s.host.environ) :
    ∃ called, called <+: Hook.heard hooks ∧ Heard P called args s (endOf (callAll args hooks s)) ∧
      (answerOf (callAll args hooks s) = .ok () → called = Hook.heard hooks) := by
  induction hooks using callAll.induct generalizing s with
  | case1 =>
    rw [callAll]
    exact ⟨[], List.nil_prefix, .nil s, fun _ => rfl⟩
  | case2 h rest ih =>
    have hh := callSafely_heard (hk h List.mem_cons_self) args
    rw [callAll, Hook.heard_cons]
    cases hx : callSafely h args s with
    | error f t =>
      rw [hx] at hh
      rw [bind_of_error hx]
      exact ⟨[h], by simp, hh, fun ha => by cases ha⟩
    | ok a t =>
      rw [hx, endOf_ok] at hh
      rw [bind_of_ok hx]
      have hrest : ∀ k ∈ rest ++ h.added, k.Stores P t.backend t.host.environ := by
        refine fun k hm => Hook.Stores.of_touched ?_ hh.toTouched
        rcases List.mem_append.1 hm with hm | hm
        · exact hk k (List.mem_cons_of_mem h hm)
        · obtain ⟨name, ending, rfl⟩ := Hook.mem_added hm
          intro session hcapture
          cases hcapture
      obtain ⟨called, hc, hheard, hall⟩ := ih hrest
      exact ⟨h :: called, List.cons_prefix_cons.2 ⟨rfl, hc⟩, hh.trans hheard,
        fun ha => congrArg (h :: ·) (hall ha)⟩

theorem fire_touched {event : Event}
    (hk : ∀ k ∈ s.registry.hooks event, k.Stores P s.backend s.host.environ) (args : List String) :
    Touched P s (endOf (fire event args s)) := by
  obtain ⟨called, -, hheard, -⟩ := callAll_heard args (s.registry.hooks event) hk
  exact hheard.toTouched

/-- What is done beside the hooks: nothing is noted, and none is registered. -/
theorem Touched.unheard (h : Touched P s t) (notes : t.notes = s.notes)
    (registry : t.registry = s.registry) : Heard P [] args s t :=
  (Heard.nil s).then h notes registry

theorem Heard.silent {k : Hook} (h : Heard P [k] args s t) (hnoted : k.noted args = [])
    (hadded : k.added = []) : Heard P [] [] s t := by
  refine h.toTouched.unheard ?_ ?_
  · rw [h.notes, List.flatMap_singleton, hnoted, List.append_nil]
  · rw [h.registry, List.flatMap_singleton, hadded, List.foldl_nil]

end Heard

/-- The processes that a shell with the history program `b` starts in an environment `e`. -/
inductive Started (b : Backend) (session : Option Session) (c : Config) (e : Environment) :
    Call → Prop
  | backend {args : List String} {captured : Bool} {call : Call} :
      b.call? args session captured e = .ok call → Started b session c e call
  | selector {call : Call} : Search.Chosen c e call → Started b session c e call
  | commandLine (line : String) (cwd : Path) :
      Started b session c e ⟨.commandLine line cwd, Repl.childEnvironment e⟩

section Walk

variable {P : Call → Prop} {s : Shell} {i : Integration}

theorem putContext_heard {α : Type} {act : Act Host (α × Context)} (hi : s.integration = some i)
    (ha : Starts P s.host.environ act)
    (hc : ∀ {a c h}, act s.host = .ok (a, c) h →
      c.session = i.context.session ∧ c.config = i.context.config) :
    Heard P [] [] s (endOf ((do
      let (a, c) ← onHost act
      putContext c
      return a : Act Shell α) s)) := by
  obtain ⟨cs, hr, hcs⟩ := ha s.host rfl
  cases hx : act s.host with
  | error f h =>
    rw [hx] at hr
    rw [bind_of_error (onHost_of_error hx)]
    exact (touched_of_ran hr hcs rfl).unheard rfl rfl
  | ok p h =>
    obtain ⟨a, c⟩ := p
    rw [hx] at hr
    rw [bind_of_ok (onHost_of_ok hx)]
    obtain ⟨hsession, hconfig⟩ := hc hx
    have hsteady : Integration.steady { i with context := c } = i.steady := by
      simp only [Integration.steady, hsession, hconfig]
    refine (touched_of_ran hr hcs ?_).unheard rfl rfl
    rw [hi]
    exact congrArg some hsteady

theorem navigate_heard (hi : s.integration = some i) (direction : Int) (buffer : String)
    (probe : Option String) :
    Heard (Started s.backend (some i.context.session) i.context.config s.host.environ) [] [] s
      (endOf (navigate i direction buffer probe s)) := by
  refine putContext_heard hi ?_ ?_
  · exact (Navigation.step_starts _ _ _ _ _ _).mono fun c ⟨args, hc⟩ => .backend hc
  · intro o c h ho
    have hc := (ho ▸ Navigation.step_stepped _ _ _ _ _ _ : Navigation.Stepped s.backend i.context
      direction buffer probe s.host _).context.1
    exact ⟨by rw [hc], by rw [hc]⟩

theorem search_heard (hi : s.integration = some i) (buffer : String) :
    Heard (Started s.backend (some i.context.session) i.context.config s.host.environ) [] [] s
      (endOf (search i buffer s)) := by
  refine putContext_heard hi ?_ ?_
  · exact (Search.run_starts _ _ _ _).mono fun c hc => hc.elim (fun ⟨args, h⟩ => .backend h) .selector
  · intro o c h ho
    obtain ⟨last, rfl⟩ := Search.run_ok ho
    exact ⟨rfl, rfl⟩

theorem act_navigate (hi : s.integration = some i) (direction : Int) (buffer : String)
    (probe : Option String) : Walk.act (.navigate direction buffer probe) s =
      (navigate i direction buffer probe >>= fun o => pure (.walked o)) s := by
  unfold Walk.act
  rw [get_bind, hi]

theorem act_search (hi : s.integration = some i) (buffer : String) :
    Walk.act (.search buffer) s = (search i buffer >>= fun o => pure (.searched o)) s := by
  unfold Walk.act
  rw [get_bind, hi]

/-- A step of an integration starts processes in its session, and nothing is noted. -/
theorem act_heard (step : Walk.Step) (hi : s.integration = some i) :
    Heard (Started s.backend (some i.context.session) i.context.config s.host.environ) [] [] s
      (endOf (Walk.act step s)) := by
  cases step with
  | navigate direction buffer probe =>
    rw [act_navigate hi, endOf_bind_pure]
    exact navigate_heard hi direction buffer probe
  | search buffer =>
    rw [act_search hi, endOf_bind_pure]
    exact search_heard hi buffer
  | reset =>
    unfold Walk.act
    rw [get_bind, hi]
    refine (congrArg _ (endOf_bind_pure _ _ s)).mpr (Heard.silent (call_heard ?_ []) rfl rfl)
    exact fun session h => by cases h
  | capture line =>
    unfold Walk.act
    rw [get_bind, hi]
    refine (congrArg _ (endOf_bind_pure _ _ s)).mpr (Heard.silent (call_heard ?_ [line]) rfl rfl)
    rintro session h args captured call hc
    cases h
    exact .backend hc

theorem act_touched (step : Walk.Step) (hP : ∀ i, s.integration = some i → ∀ c,
    Started s.backend (some i.context.session) i.context.config s.host.environ c → P c) :
    Touched P s (endOf (Walk.act step s)) := by
  cases hi : s.integration with
  | none =>
    have hact : Walk.act step s = .ok .done s := by
      unfold Walk.act
      rw [get_bind, hi]
      rfl
    rw [hact]
    exact .refl s
  | some i => exact (act_heard step hi).toTouched.mono (hP i hi)

end Walk

end Shell

namespace Repl

variable {P : Call → Prop} {r : Repl} {i : Integration}

theorem endOf_onShell {α : Type} (act : Act Shell α) (r : Repl) :
    endOf (onShell act r) = { r with shell := endOf (act r.shell) } := by
  cases hx : act r.shell with
  | ok a s => rw [onShell_of_ok hx, endOf_ok, endOf_ok]
  | error f s => rw [onShell_of_error hx, endOf_error, endOf_error]

def home? (r : Repl) : Option Path := Tilde.ownHome? r.shell.host.login r.shell.host.accounts

/-- All that can come of drawing a prompt. Its hooks are called first. -/
inductive Shown (r : Repl) : EStateM.Result Failure Repl Unit → Prop
  | broken {f : Failure} {s : Shell} : Shell.fire .precmd [] r.shell = .error f s →
      Shown r (.error f { r with shell := s })
  | homeless {s : Shell} : Shell.fire .precmd [] r.shell = .ok () s →
      home? { r with shell := s } = none → Shown r (.error .homeless { r with shell := s })
  | drawn {s : Shell} {text : String} : Shell.fire .precmd [] r.shell = .ok () s →
      (home? { r with shell := s }).isSome →
      Shown r (.ok () { r with shell := s, prompts := r.prompts ++ [text] })

theorem showPrompt_shown (r : Repl) : Shown r (showPrompt r) := by
  unfold showPrompt
  cases hf : Shell.fire .precmd [] r.shell with
  | error f s =>
    rw [bind_of_error (onShell_of_error hf)]
    exact .broken hf
  | ok a s =>
    rw [bind_of_ok (onShell_of_ok hf)]
    cases hh : home? { r with shell := s } with
    | none =>
      have htext : promptText { r with shell := s } = .error .homeless { r with shell := s } := by
        unfold promptText
        rw [get_bind, show Tilde.ownHome? s.host.login s.host.accounts = none from hh]
        rfl
      rw [bind_of_error htext]
      exact .homeless hf hh
    | some home =>
      obtain ⟨text, htext⟩ : ∃ text,
          promptText { r with shell := s } = .ok text { r with shell := s } := by
        unfold promptText
        rw [get_bind, show Tilde.ownHome? s.host.login s.host.accounts = some home from hh]
        exact ⟨_, rfl⟩
      rw [bind_of_ok htext]
      exact .drawn hf (by rw [hh]; rfl)

theorem Shown.ends {x : EStateM.Result Failure Repl Unit} (hx : Shown r x) : ∃ prompts,
    endOf x = { r with shell := endOf (Shell.fire .precmd [] r.shell), prompts := prompts } := by
  cases hx with
  | broken hf => exact ⟨r.prompts, by rw [hf]; rfl⟩
  | homeless hf => exact ⟨r.prompts, by rw [hf]; rfl⟩
  | drawn hf => exact ⟨_, by rw [hf]; rfl⟩

end Repl
end ShellHistory

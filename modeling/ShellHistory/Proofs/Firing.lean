import ShellHistory.Proofs.Touched

/-! Firings, hook by hook. The hooks of an event are called in the order in which they stand in the
registry, and that goes for those as well that are registered while it is being worked off. A hook that
fails is told of in the log and holds up no other; only an interrupt breaks off a firing. -/

namespace ShellHistory

open Act Host

namespace Registry

/-- Every hook stands under its own event. -/
def Filed (r : Registry) : Prop := ∀ event, ∀ k ∈ r.hooks event, k.event = event

/-- So does every hook of a registry that has been filled by registering hooks. -/
theorem filed_registered (ks : List Hook) : (ks.foldl register empty).Filed := by
  intro event k hk
  rw [hooks_foldl_register] at hk
  cases event <;> simpa using (List.mem_filter.1 hk).2

end Registry

namespace Hook

theorem event_of_mem_added {h k : Hook} (hk : k ∈ h.added) : k.event = h.event := by
  obtain ⟨name, ending, rfl⟩ := mem_added hk
  rfl

theorem event_of_mem_heard {hooks : List Hook} {event : Event} (h : ∀ k ∈ hooks, k.event = event)
    {k : Hook} (hk : k ∈ heard hooks) : k.event = event := by
  rcases List.mem_append.1 hk with hk | hk
  · exact h k hk
  · obtain ⟨a, ha, hk⟩ := List.mem_flatMap.1 hk
    exact (event_of_mem_added hk).trans (h a ha)

theorem flatMap_added_heard (hooks : List Hook) :
    (heard hooks).flatMap added = hooks.flatMap added := by
  have hnone : (hooks.flatMap added).flatMap added = [] := by
    refine List.flatMap_eq_nil_iff.2 fun a ha => ?_
    obtain ⟨b, -, hb⟩ := List.mem_flatMap.1 ha
    exact added_of_mem_added hb
  rw [heard, List.flatMap_append, hnone, List.append_nil]

/-- The hooks that are called and the registry keep step: the next hook to be called is the one that
stands next, behind those that have been called. -/
theorem getElem?_append_added {hooks called : List Hook} {k : Hook}
    (h : called ++ [k] <+: heard hooks) :
    (hooks ++ called.flatMap added)[called.length]? = some k := by
  have hnext : (heard hooks)[called.length]? = some k := by
    rw [List.prefix_iff_getElem?.1 h called.length (by simp)]
    simp
  by_cases hl : called.length < hooks.length
  · rw [heard, List.getElem?_append_left hl] at hnext
    rw [List.getElem?_append_left hl, hnext]
  · -- all the old hooks have been called, and the new ones add none
    have hpre : hooks <+: called :=
      List.prefix_of_prefix_length_le (List.prefix_append _ _) ((List.prefix_append _ _).trans h)
        (Nat.le_of_not_lt hl)
    obtain ⟨more, rfl⟩ := hpre
    have hnone : more.flatMap added = [] := by
      refine List.flatMap_eq_nil_iff.2 fun a ha => ?_
      rw [heard, List.append_assoc, List.prefix_append_right_inj] at h
      obtain ⟨b, -, hb⟩ := List.mem_flatMap.1 (h.subset (List.mem_append_left _ ha))
      exact added_of_mem_added hb
    rw [List.flatMap_append, hnone, List.append_nil]
    exact hnext

end Hook

namespace Host

def hookSource : String := "vellum_integration.hooks"

def complaints (h : Host) : List Record := h.records.filter (·.source = hookSource)

/-- Whether messages of a level get into the log. -/
def hears (h : Host) (level : Level) : Bool :=
  (if h.threshold = 0 then Level.warning.number else h.threshold) ≤ level.number

theorem complaints_log (level : Level) (source message : String) (cause : Option Failure) (h : Host) :
    complaints (endOf (log level source message cause h)) = complaints h ++
      if source = hookSource ∧ h.hears level then [⟨level, source, message, cause⟩] else [] := by
  simp only [log, modify_apply, endOf_ok, hears, decide_eq_true_eq]
  by_cases hl : (if h.threshold = 0 then Level.warning.number else h.threshold) ≤ level.number
  · by_cases hs : source = hookSource <;> simp [complaints, hl, hs]
  · simp [hl]

def Discreet {α : Type} (act : Act Host α) : Prop := ∀ h, complaints (endOf (act h)) = complaints h

section Discreet

variable {α β : Type}

theorem discreet_pure (a : α) : Discreet (pure a : Act Host α) := fun _ => rfl

theorem discreet_throw (f : Failure) : Discreet (throw f : Act Host α) := fun _ => rfl

theorem discreet_ofExcept (x : Except Failure α) : Discreet (ofExcept x : Act Host α) := by
  cases x with
  | ok a => exact discreet_pure a
  | error f => exact discreet_throw f

theorem discreet_launch (job : Job) (e : Environment) : Discreet (launch job e) := by
  intro h
  cases ht : h.untold? ⟨job, e⟩ with
  | some f =>
    rw [launch_of_untold ht]
    rfl
  | none =>
    rw [launch_of_told ht]
    rfl

theorem discreet_log {source : String} (hs : source ≠ hookSource) (level : Level) (message : String)
    (cause : Option Failure) : Discreet (log level source message cause) := by
  intro h
  rw [complaints_log, if_neg fun hc => hs hc.1, List.append_nil]

theorem Discreet.bind {act : Act Host α} {f : α → Act Host β} (hact : Discreet act)
    (hf : ∀ a, Discreet (f a)) : Discreet (act >>= f) := by
  intro h
  have ha := hact h
  cases hx : act h with
  | error e t =>
    rw [hx] at ha
    rw [bind_of_error hx]
    exact ha
  | ok a t =>
    rw [hx] at ha
    rw [bind_of_ok hx]
    exact (hf a t).trans ha

theorem discreet_get_bind {f : Host → Act Host α} (hf : ∀ h, Discreet (f h)) :
    Discreet (get >>= f) := fun h => hf h h

end Discreet

end Host

theorem Backend.run_discreet (b : Backend) (args : List String) (session : Option Session)
    (captured : Bool) : Discreet (b.run args session captured) := by
  unfold run
  refine discreet_get_bind fun h => (discreet_ofExcept _).bind fun environ =>
    (discreet_ofExcept _).bind fun binary => (discreet_launch _ _).bind fun outcome => ?_
  have hend (r : Result) : Discreet (do
      if !r.success then
        Host.log .debug source (args.headD binary ++ " exited " ++ toString r.status ++
          " after 0ms: " ++ Text.strip r.stderr)
      return r : Act Host Result) := by
    split
    · exact (discreet_log (by decide) _ _ _).bind fun _ => discreet_pure r
    · exact discreet_pure r
  cases outcome with
  | exited x => exact hend ⟨binary :: args, if captured then x.stdout else "", x.stderr, x.status⟩
  | refused e => exact hend ⟨binary :: args, "", e.message binary, -1⟩
  | garbled _ | interrupted => exact discreet_throw _

namespace Shell

variable {args : List String} {k : Hook} {s t u : Shell}

def raised? (args : List String) (k : Hook) (s : Shell) : Option Failure :=
  match call k args s with
  | .ok _ _ => none
  | .error f _ => some f

def complaint (k : Hook) (f : Failure) : Record :=
  ⟨.error, hookSource, "hook " ++ k.name ++ " failed", some f⟩

def told (k : Hook) (f : Failure) (s : Shell) : Shell :=
  { s with host := endOf (log .error hookSource ("hook " ++ k.name ++ " failed") (some f) s.host) }

/-- All that can come of a hook: it ends well, it fails and that is logged, or it is broken off. -/
inductive Contained (args : List String) (k : Hook) (s : Shell) :
    EStateM.Result Failure Shell Unit → Prop
  | quiet {t : Shell} : call k args s = .ok () t → Contained args k s (.ok () t)
  | logged {f : Failure} {t : Shell} : f ≠ .interrupted → call k args s = .error f t →
      Contained args k s (.ok () (told k f t))
  | broken {t : Shell} : call k args s = .error .interrupted t →
      Contained args k s (.error .interrupted t)

theorem callSafely_contained (k : Hook) (args : List String) (s : Shell) :
    Contained args k s (callSafely k args s) := by
  unfold callSafely
  split
  · next t hc => exact .quiet hc
  · next t hc => exact .broken hc
  · next f t hf hc => exact .logged hf hc

/-- Why a hook is broken off: it is there for it, or the line that it stores is not stored. -/
inductive Breaks (args : List String) (s : Shell) (k : Hook) : Prop
  | observer {adds : List (String × Hook.Ending)} : k.action = .observe .interrupting adds →
      Breaks args s k
  | store {session : Session} {line : String} : k.action = .capture session → args = [line] →
      .interrupted ∈ s.host.outcomes (.backend "store") → Breaks args s k

theorem role_of_store {b : Backend} {session : Option Session} {line : String} {captured : Bool}
    {e : Environment} {c : Call} (hc : b.call? ["store", "--", line] session captured e = .ok c) :
    c.job.role = .backend "store" := by
  obtain ⟨binary, -, -, hjob⟩ := Backend.call?_ok hc
  rw [hjob]
  rfl

theorem breaks_of_call (h : call k args s = .error .interrupted t) : Breaks args s k := by
  obtain ⟨name, event, action⟩ := k
  cases action with
  | capture session =>
    rcases args with _ | ⟨line, _ | ⟨other, more⟩⟩
    · cases h
    · refine .store rfl rfl ?_
      have hcall : call ⟨name, event, .capture session⟩ [line] s =
          (discard (onHost (s.backend.run ["store", "--", line] (some session) false)) :
            Act Shell Unit) s := rfl
      rw [hcall] at h
      generalize hr : s.backend.run ["store", "--", line] (some session) false s.host = x
      cases hr ▸ s.backend.run_called ["store", "--", line] (some session) false s.host with
      | @unusable f hc =>
        rw [discard_of_error (onHost_of_error hr)] at h
        cases h
        obtain ⟨binary, environ, -, he⟩ | ⟨kind, -, he⟩ :=
          s.backend.call?_cases ["store", "--", line] (some session) false s.host.environ
        · cases hc.symm.trans he
        · cases hc.symm.trans he
      | untold _ hf =>
        rw [discard_of_error (onHost_of_error hr)] at h
        cases h
        exact absurd rfl (Host.untold?_ne_interrupted hf)
      | @interrupted c hc _ hn =>
        have hmem := mem_outcomes_of_next hn nofun
        rwa [role_of_store hc] at hmem
      | garbled =>
        rw [discard_of_error (onHost_of_error hr)] at h
        cases h
      | ended hc =>
        rw [discard_of_ok (onHost_of_ok hr)] at h
        cases h
    · cases h
  | reset number =>
    rcases args with _ | ⟨line, more⟩
    · rw [call_reset] at h
      cases h
    · cases h
  | observe ending adds =>
    rw [call_observe] at h
    cases ending with
    | quiet => cases h
    | failing => cases h
    | interrupting => exact .observer rfl

theorem callSafely_of_interrupting {adds : List (String × Hook.Ending)}
    (hk : k.action = .observe .interrupting adds) (args : List String) (s : Shell) :
    ∃ t, callSafely k args s = .error .interrupted t := by
  obtain ⟨name, event, action⟩ := k
  subst hk
  unfold callSafely
  rw [call_observe]
  exact ⟨_, rfl⟩

theorem complaints_call (k : Hook) (args : List String) (s : Shell) :
    complaints (endOf (call k args s)).host = complaints s.host := by
  obtain ⟨name, event, action⟩ := k
  cases action with
  | capture session =>
    rcases args with _ | ⟨line, _ | ⟨other, more⟩⟩
    · rfl
    · rw [endOf_call_capture]
      exact s.backend.run_discreet _ _ _ s.host
    · rfl
  | reset number =>
    rcases args with _ | ⟨line, more⟩
    · rw [call_reset]
      rfl
    · rfl
  | observe ending adds =>
    rw [call_observe, endOf_closed]

theorem call_host (k : Hook) (args : List String) (s : Shell) :
    ∃ cs, Ran s.host cs (endOf (call k args s)).host := by
  obtain ⟨cs, hran, -⟩ := (call_heard (k.stores_true s.backend s.host.environ) args).toTouched.ran
  exact ⟨cs, hran⟩

theorem hears_of_ran {h h' : Host} {cs : List Call} (hr : Ran h cs h') (level : Level) :
    h'.hears level = h.hears level := by
  obtain ⟨_, _, rfl⟩ := hr
  rfl

/-- A hook that does not break off the firing leaves one message behind if it fails, else none. -/
theorem complaints_callSafely (h : callSafely k args s = .ok () t) :
    complaints t.host = complaints s.host ++
      if s.host.hears .error then (raised? args k s).toList.map (complaint k) else [] := by
  have hcall := complaints_call k args s
  obtain ⟨cs, hran⟩ := call_host k args s
  have hhears := hears_of_ran hran .error
  unfold raised?
  cases h ▸ callSafely_contained k args s with
  | quiet hc =>
    rw [hc] at hcall ⊢
    simpa using hcall
  | logged hf hc =>
    rw [hc] at hcall hhears ⊢
    rw [endOf_error] at hcall hhears
    rw [told, complaints_log, hcall, hhears]
    by_cases hh : s.host.hears .error <;> simp [hh, complaint]

section Run

variable {run : List (Stage Shell Hook Unit)}

/-- Hooks that have been called one after the other, none of which has broken off. -/
theorem run_heard (h : Run (callSafely · args) s run t) :
    Heard (fun _ => True) (run.map Stage.step) args s t := by
  induction h with
  | nil s => exact .nil s
  | @cons k _ s t u rest ha _ ih =>
    have hk := callSafely_heard (k.stores_true s.backend s.host.environ) args
    rw [show callSafely k args s = .ok _ t from ha, endOf_ok] at hk
    exact hk.trans ih

theorem complaints_run (h : Run (callSafely · args) s run t) :
    complaints t.host = complaints s.host ++
      if s.host.hears .error then
        run.filterMap fun g => (raised? args g.step g.before).map (complaint g.step)
      else [] := by
  induction h with
  | nil s => simp
  | @cons k _ s t u rest ha hr ih =>
    have hk := callSafely_heard (k.stores_true s.backend s.host.environ) args
    rw [show callSafely k args s = .ok _ t from ha, endOf_ok] at hk
    obtain ⟨cs, hran, -⟩ := hk.toTouched.ran
    rw [ih, complaints_callSafely ha, hears_of_ran hran, List.append_assoc, List.filterMap_cons]
    by_cases hh : s.host.hears .error <;> cases raised? args k s <;> simp [hh]

/-- The hooks that a run registers, if all its hooks belong to one event. -/
theorem hooks_run {event : Event} (h : Run (callSafely · args) s run t)
    (hev : ∀ k ∈ run.map Stage.step, k.event = event) (other : Event) :
    t.registry.hooks other = s.registry.hooks other ++
      if other = event then (run.map Stage.step).flatMap Hook.added else [] := by
  have hadded : ∀ a ∈ (run.map Stage.step).flatMap Hook.added, a.event = event := by
    intro a ha
    obtain ⟨k, hk, ha⟩ := List.mem_flatMap.1 ha
    exact (Hook.event_of_mem_added ha).trans (hev k hk)
  rw [(run_heard h).registry, Registry.hooks_foldl_register, List.append_cancel_left_eq]
  by_cases ho : other = event
  · rw [if_pos ho]
    exact List.filter_eq_self.2 fun a ha => by simp [hadded a ha, ho]
  · rw [if_neg ho]
    exact List.filter_eq_nil_iff.2 fun a ha => by simpa [hadded a ha] using fun he => ho he.symm

end Run

/-- A firing is a run of its hooks, to the last one or up to one that breaks it off. -/
theorem callAll_run (args : List String) (hooks : List Hook) (s : Shell) :
    (∃ run t, Run (callSafely · args) s run t ∧ run.map Stage.step = Hook.heard hooks ∧
      callAll args hooks s = .ok () t) ∨
    ∃ run t k u, Run (callSafely · args) s run t ∧
      run.map Stage.step ++ [k] <+: Hook.heard hooks ∧ call k args t = .error .interrupted u ∧
      callAll args hooks s = .error .interrupted u := by
  induction hooks using callAll.induct generalizing s with
  | case1 => exact .inl ⟨[], s, .nil s, rfl, by rw [callAll]; rfl⟩
  | case2 h rest ih =>
    rw [callAll, Hook.heard_cons]
    cases hx : callSafely h args s with
    | error f u =>
      right
      cases hx ▸ callSafely_contained h args s with
      | broken hc => exact ⟨[], s, h, u, .nil s, by simp, hc, bind_of_error hx⟩
    | ok a t =>
      rw [bind_of_ok hx]
      obtain ⟨run, u, hr, hsteps, hall⟩ | ⟨run, u, k, v, hr, hsteps, hc, hall⟩ := ih t
      · exact .inl ⟨_, u, .cons hx hr, congrArg (h :: ·) hsteps, hall⟩
      · exact .inr ⟨_, u, k, v, .cons hx hr, List.cons_prefix_cons.2 ⟨rfl, hsteps⟩, hc, hall⟩

/-- How far a firing has got by calling the hooks of a run. Each of them was the one that stood next in
the registry just then, behind those called before it, and what it registered came to the end of the
list. A hook that failed has left one message behind, and none of them was broken off. -/
structure Fired (event : Event) (args : List String) (s : Shell)
    (run : List (Stage Shell Hook Unit)) (t : Shell) : Prop where
  called : Run (callSafely · args) s run t
  turn : ∀ pre g post, run = pre ++ g :: post →
    (g.before.registry.hooks event)[pre.length]? = some g.step ∧
      g.after.registry.hooks event = g.before.registry.hooks event ++ g.step.added
  hooks : t.registry.hooks event =
    s.registry.hooks event ++ (run.map Stage.step).flatMap Hook.added
  others : ∀ other, other ≠ event → t.registry.hooks other = s.registry.hooks other
  complaints : complaints t.host = complaints s.host ++
    if s.host.hears .error then
      run.filterMap fun g => (raised? args g.step g.before).map (complaint g.step)
    else []
  unbroken : ∀ g ∈ run, raised? args g.step g.before ≠ some .interrupted

theorem raised?_of_callSafely (h : callSafely k args s = .ok () t) :
    raised? args k s ≠ some .interrupted := by
  unfold raised?
  cases h ▸ callSafely_contained k args s with
  | quiet hc => simp [hc]
  | logged hf hc => simpa [hc] using hf

/-- A run of the first hooks that a firing has to call. -/
theorem fired_of_run {event : Event} {run : List (Stage Shell Hook Unit)}
    (hs : s.registry.Filed) (h : Run (callSafely · args) s run t)
    (hrun : run.map Stage.step <+: Hook.heard (s.registry.hooks event)) :
    Fired event args s run t := by
  have hevent : ∀ k ∈ run.map Stage.step, k.event = event :=
    fun k hk => Hook.event_of_mem_heard (hs event) (hrun.subset hk)
  have hall := hooks_run h hevent
  refine ⟨h, ?_, by rw [hall, if_pos rfl], fun other ho => ?_, complaints_run h, ?_⟩
  · rintro pre g post rfl
    obtain ⟨step, before, _, after⟩ := g
    obtain ⟨u, hpre, hrest⟩ := h.split
    cases hrest with
    | cons ha _ =>
    have hbefore := hooks_run hpre
      (fun k hk => hevent k (by rw [List.map_append]; exact List.mem_append_left _ hk)) event
    have hstep : ∀ k ∈ [step], k.event = event :=
      fun k hk => hevent k (by rw [List.mem_singleton.1 hk]; simp)
    have hafter := hooks_run (Run.cons ha (.nil after)) hstep event
    rw [if_pos rfl] at hbefore hafter
    refine ⟨?_, by simpa using hafter⟩
    rw [hbefore]
    have hnext : pre.map Stage.step ++ [step] <+: Hook.heard (s.registry.hooks event) := by
      refine List.IsPrefix.trans ?_ hrun
      rw [List.map_append, List.map_cons]
      exact (List.prefix_append_right_inj _).2 (List.prefix_append [step] _)
    simpa using Hook.getElem?_append_added hnext
  · rw [hall, if_neg ho, List.append_nil]
  · rintro g hg
    obtain ⟨pre, post, rfl⟩ := List.append_of_mem hg
    obtain ⟨u, -, hrest⟩ := h.split
    cases hrest with
    | cons ha _ => exact raised?_of_callSafely ha

/-- How a hook breaks off a firing that has got as far as `t`. It stands next. What it registers is
registered all the same, and nothing is said of it in the log. -/
structure BrokenBy (event : Event) (args : List String) (s : Shell)
    (run : List (Stage Shell Hook Unit)) (t : Shell) (k : Hook) (u : Shell) : Prop where
  next : (t.registry.hooks event)[run.length]? = some k
  raised : raised? args k t = some .interrupted
  hooks : u.registry.hooks event =
    s.registry.hooks event ++ (run.map Stage.step ++ [k]).flatMap Hook.added
  others : ∀ other, other ≠ event → u.registry.hooks other = s.registry.hooks other
  complaints : complaints u.host = complaints t.host

theorem Fired.brokenBy {event : Event} {run : List (Stage Shell Hook Unit)}
    (hs : s.registry.Filed) (h : Fired event args s run t)
    (hrun : run.map Stage.step ++ [k] <+: Hook.heard (s.registry.hooks event))
    (hc : call k args t = .error .interrupted u) : BrokenBy event args s run t k u := by
  have hheard := call_heard (k.stores_true t.backend t.host.environ) args
  have hcomplaints := complaints_call k args t
  rw [hc, endOf_error] at hheard hcomplaints
  have hk : k.event = event :=
    Hook.event_of_mem_heard (hs event) (hrun.subset (by simp))
  have hregistry (other : Event) : u.registry.hooks other =
      t.registry.hooks other ++ k.added.filter (·.event = other) := by
    rw [hheard.registry, List.flatMap_singleton, Registry.hooks_foldl_register]
  refine ⟨?_, by rw [raised?, hc], ?_, fun other ho => ?_, hcomplaints⟩
  · rw [h.hooks]
    simpa using Hook.getElem?_append_added hrun
  · rw [hregistry, h.hooks, List.flatMap_append, List.flatMap_singleton, List.append_assoc,
      List.filter_eq_self.2 fun a ha => by simp [Hook.event_of_mem_added ha, hk]]
  · rw [hregistry, h.others other ho, List.filter_eq_nil_iff.2, List.append_nil]
    exact fun a ha => by simpa [Hook.event_of_mem_added ha, hk] using fun he => ho he.symm

/-- A firing calls the hooks of its event one after the other, in the order in which they stand in the
registry when their turn comes. It ends behind the last one, and all that stand there at the end have
been called once by then; or it ends with the first hook that is interrupted, and that one and those
before it have been called. Either way the list has grown by what the called hooks have registered, in
that order, the list of the other event is as before, and the failures are in the log, one message
each, unless only what is graver than an error is logged. -/
theorem fire_in_turn (event : Event) (args : List String) (hs : s.registry.Filed) :
    ∃ run t, Fired event args s run t ∧
      ((fire event args s = .ok () t ∧ run.map Stage.step = t.registry.hooks event) ∨
        ∃ k u, BrokenBy event args s run t k u ∧ fire event args s = .error .interrupted u) := by
  have hfire : fire event args s = callAll args (s.registry.hooks event) s := rfl
  obtain ⟨run, t, hr, hsteps, hall⟩ | ⟨run, t, k, u, hr, hsteps, hc, hall⟩ :=
    callAll_run args (s.registry.hooks event) s
  · have hheard : run.map Stage.step <+: Hook.heard (s.registry.hooks event) := by simp [hsteps]
    have hfired := fired_of_run hs hr hheard
    refine ⟨run, t, hfired, .inl ⟨hfire.trans hall, ?_⟩⟩
    rw [hfired.hooks, hsteps, Hook.flatMap_added_heard, Hook.heard]
  · have hfired := fired_of_run hs hr ((List.prefix_append _ _).trans hsteps)
    exact ⟨run, t, hfired, .inr ⟨k, u, hfired.brokenBy hs hsteps hc, hfire.trans hall⟩⟩

/-- A shell whose first hook fails, having registered two more, of which the second is interrupted. -/
def chained : Shell :=
  let hooks := [Hook.observer "first" .preexec .failing [("third", .quiet), ("fourth", .interrupting)],
    Hook.observer "drawing" .precmd .quiet [],
    Hook.observer "second" .preexec .quiet [("fifth", .quiet)]]
  { create (Host.scripted .empty []) .default with registry := hooks.foldl Registry.register .empty }

theorem fire_in_turn_sample : chained.registry.Filed ∧ ∃ run t k u,
    Fired .preexec ["ls"] chained run t ∧ BrokenBy .preexec ["ls"] chained run t k u ∧
    fire .preexec ["ls"] chained = .error .interrupted u ∧
    u.notes = [("first", ["ls"]), ("second", ["ls"]), ("third", ["ls"]), ("fourth", ["ls"])] ∧
    u.registry.names .preexec = ["first", "second", "third", "fourth", "fifth"] ∧
    (complaints u.host).map Record.message = ["hook first failed"] := by
  have hfiled : chained.registry.Filed := Registry.filed_registered _
  have hanswer : (answerOf (fire .preexec ["ls"] chained)).toOption = none := by decide +kernel
  have hnotes : (endOf (fire .preexec ["ls"] chained)).notes =
      [("first", ["ls"]), ("second", ["ls"]), ("third", ["ls"]), ("fourth", ["ls"])] := by
    decide +kernel
  have hnames : (endOf (fire .preexec ["ls"] chained)).registry.names .preexec =
      ["first", "second", "third", "fourth", "fifth"] := by
    decide +kernel
  have hlog : (complaints (endOf (fire .preexec ["ls"] chained)).host).map Record.message =
      ["hook first failed"] := by
    decide +kernel
  obtain ⟨run, t, hfired, ⟨hok, -⟩ | ⟨k, u, hbroken, herror⟩⟩ :=
    fire_in_turn .preexec ["ls"] hfiled
  · rw [hok] at hanswer
    cases hanswer
  · rw [herror] at hnotes hnames hlog
    exact ⟨hfiled, run, t, k, u, hfired, hbroken, herror, hnotes, hnames, hlog⟩

end Shell
end ShellHistory

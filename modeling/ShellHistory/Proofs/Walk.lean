import ShellHistory.Proofs.Operations

/-! Walks through the history over whole runs: the cursor that a shell keeps is the one that the
answers of the history program and the resets have left, whatever else has happened in between. -/

namespace ShellHistory.Walk

open Act

inductive Step
  | navigate (direction : Int) (buffer : String) (probe : Option String)
  | reset
  | capture (line : String)
  | search (buffer : String)
  deriving DecidableEq, Repr

inductive Answer
  | walked (o : Navigation.Outcome)
  | searched (o : Search.Outcome)
  | done
  deriving DecidableEq, Repr

/-- One step of the integration of a shell. Without one there is nothing to do. -/
def act (step : Step) : Act Shell Answer := do
  match (← get).integration with
  | none => return .done
  | some i =>
    match step with
    | .navigate direction buffer probe => return .walked (← Shell.navigate i direction buffer probe)
    | .reset => do
      Shell.reset i
      return .done
    | .capture line => do
      Shell.capture i line
      return .done
    | .search buffer => return .searched (← Shell.search i buffer)

def started (g : Stage Shell Step Answer) : List Call := g.before.host.startedSince g.after.host

def told? (g : Stage Shell Step Answer) : Option Entry :=
  ((started g).find? fun c => c.job.role = .backend "move").bind fun c =>
    (g.before.host.next c).told?

/-- The cursor behind a step, told from the answer to it alone. -/
def cursorAfter (cursor : String) (g : Stage Shell Step Answer) : String :=
  match g.step with
  | .reset => ""
  | .navigate _ _ _ => ((told? g).map Entry.id).getD cursor
  | .capture _ | .search _ => cursor

/-- The step that is asked for from a cursor: what is typed matters only outside of a walk. -/
def moveFrom (c : Context) (cursor : String) (direction : Int) (buffer : String) : Move where
  direction := direction
  session := c.session.token
  cursor := cursor
  typed := if cursor = "" then some buffer else none
  extra := c.config.moveArgs

/-- The context of a shell at a point of a run: that of the start, but for the cursor and what was
picked last. -/
def At (c : Context) (cursor : String) (s : Shell) : Prop :=
  ∃ i last, s.integration = some i ∧ i.context = { c with cursor := cursor, lastSelected := last }

theorem request_eq_moveFrom {c d : Context} {cursor : String} {last : Option String}
    (h : d = { c with cursor := cursor, lastSelected := last }) (direction : Int) (buffer : String) :
    Navigation.request d direction buffer = moveFrom c cursor direction buffer := by
  subst h
  by_cases hc : cursor = "" <;> simp [Navigation.request, moveFrom, Context.isWalking, hc]

theorem told?_of_started {g : Stage Shell Step Answer} {call : Call} (h : started g = [call])
    (hr : call.job.role = .backend "move") : told? g = (g.before.host.next call).told? := by
  rw [told?, h, List.find?_cons_of_pos (by simpa using hr)]
  rfl

/-- A step through the history either moves within the line and starts nothing, or starts the one
process that the cursor asks for and does as it answers. -/
inductive Walked (c : Context) (cursor : String) (direction : Int) (buffer : String)
    (probe : Option String) (g : Stage Shell Step Answer) : Prop
  | bypass : '\n' ∈ (probe.getD buffer).toList → started g = [] → g.answer = .walked .bypass →
      At c cursor g.after → Walked c cursor direction buffer probe g
  | asked {args : List String} {call : Call} : '\n' ∉ (probe.getD buffer).toList →
      (moveFrom c cursor direction buffer).args? = some args →
      g.before.backend.call? args (some c.session) true g.before.host.environ = .ok call →
      started g = [call] → told? g = (g.before.host.next call).told? →
      g.answer = .walked (.of (told? g)) →
      At c (((told? g).map Entry.id).getD cursor) g.after →
      Walked c cursor direction buffer probe g

theorem act_walked {c : Context} {cursor : String} {direction : Int} {buffer : String}
    {probe : Option String} {s t : Shell} {a : Answer} (hs : At c cursor s)
    (h : act (.navigate direction buffer probe) s = .ok a t) :
    Walked c cursor direction buffer probe ⟨.navigate direction buffer probe, s, a, t⟩ := by
  obtain ⟨i, last, hi, hc⟩ := hs
  unfold act at h
  rw [get_bind, hi] at h
  obtain ⟨o, u, hn, h⟩ := bind_ok h
  cases h
  obtain ⟨c', h', hstep, ht⟩ := Shell.navigate_ok hn
  rw [hi] at ht
  cases hstep ▸ Navigation.step_stepped s.backend i.context direction buffer probe s.host with
  | bypass hnl =>
    refine .bypass hnl (Host.startedSince_of_calls (by simp [ht])) rfl ?_
    exact ⟨i, last, by rw [ht]; rfl, hc⟩
  | @ended args call records hnl hargs hcall =>
    rw [request_eq_moveFrom hc] at hargs
    have hsession : i.context.session = c.session := by rw [hc]
    rw [hsession] at hcall
    have hrole := Move.role_of_call? hargs hcall
    have hst : started ⟨.navigate direction buffer probe, s,
        .walked (.of (s.host.next call).told?), t⟩ = [call] :=
      Host.startedSince_of_calls (by rw [ht]; rfl)
    have htold := told?_of_started hst hrole
    refine .asked hnl hargs hcall hst htold (by rw [htold]) ?_
    rw [htold, ht]
    cases (s.host.next call).told? with
    | none => exact ⟨_, last, rfl, hc⟩
    | some e => exact ⟨_, last, rfl, by rw [hc]; rfl⟩

theorem act_at {c : Context} {cursor : String} {step : Step} {s t : Shell} {a : Answer}
    (hs : At c cursor s) (h : act step s = .ok a t) :
    At c (cursorAfter cursor ⟨step, s, a, t⟩) t := by
  cases step with
  | navigate direction buffer probe =>
    cases act_walked hs h with
    | bypass hnl hst ha hat =>
      have ht : told? ⟨.navigate direction buffer probe, s, a, t⟩ = none := by
        rw [told?, hst]
        rfl
      rw [cursorAfter, ht]
      exact hat
    | asked hnl hargs hcall hst ht ha hat => exact hat
  | reset =>
    obtain ⟨i, last, hi, hc⟩ := hs
    unfold act at h
    rw [get_bind, hi] at h
    obtain ⟨_, u, hr, h⟩ := bind_ok h
    cases h
    rw [Shell.reset_apply hi] at hr
    cases hr
    exact ⟨_, last, rfl, by rw [hc]; rfl⟩
  | capture line =>
    obtain ⟨i, last, hi, hc⟩ := hs
    unfold act at h
    rw [get_bind, hi] at h
    obtain ⟨_, u, hr, h⟩ := bind_ok h
    cases h
    obtain ⟨h', rfl⟩ := Shell.capture_ok hr
    exact ⟨i, last, hi, hc⟩
  | search buffer =>
    obtain ⟨i, last, hi, hc⟩ := hs
    unfold act at h
    rw [get_bind, hi] at h
    obtain ⟨o, u, hn, h⟩ := bind_ok h
    cases h
    obtain ⟨c', h', hrun, rfl⟩ := Shell.search_ok hn
    obtain ⟨last', rfl⟩ := Search.run_ok hrun
    exact ⟨_, last', by rw [hi]; rfl, by rw [hc]; rfl⟩

def cursor? (s : Shell) : Option String := s.integration.map fun i => i.context.cursor

theorem At.cursor? {c : Context} {cursor : String} {s : Shell} (h : At c cursor s) :
    cursor? s = some cursor := by
  obtain ⟨i, last, hi, hc⟩ := h
  rw [Walk.cursor?, hi, Option.map_some, hc]

/-- Along every run none of whose steps fails, the cursor is what the answers and the resets so far
have made of the first one. A step through the history moves within the line, and starts nothing,
exactly when the probed text has a line break; else it asks for the entry next to that cursor, by one
process, and does to the line what that process answers. -/
theorem cursor_follows_answers {s u : Shell} {i : Integration}
    {run : List (Stage Shell Step Answer)} (hi : s.integration = some i) (hr : Run act s run u) :
    cursor? u = some (run.foldl cursorAfter i.context.cursor) ∧
    ∀ pre g post, run = pre ++ g :: post →
      cursor? g.before = some (pre.foldl cursorAfter i.context.cursor) ∧
      ∀ direction buffer probe, g.step = .navigate direction buffer probe →
        ('\n' ∈ (probe.getD buffer).toList ↔ started g = []) ∧
        ('\n' ∈ (probe.getD buffer).toList ↔ g.answer = .walked .bypass) ∧
        ('\n' ∉ (probe.getD buffer).toList → ∃ binary args environ,
          g.before.backend.program? = some binary ∧
          (moveFrom i.context (pre.foldl cursorAfter i.context.cursor) direction buffer).args? =
            some args ∧
          started g = [⟨.backend (binary :: args) true, environ⟩] ∧
          g.answer = .walked (.of (told? g))) := by
  have hs : At i.context i.context.cursor s := ⟨i, i.context.lastSelected, hi, rfl⟩
  obtain ⟨hu, hpre⟩ := hr.tracked cursorAfter act_at hs
  refine ⟨hu.cursor?, fun pre g post he => ?_⟩
  obtain ⟨hg, ha⟩ := hpre pre g post he
  refine ⟨hg.cursor?, fun direction buffer probe hstep => ?_⟩
  obtain ⟨step, before, answer, after⟩ := g
  subst hstep
  cases act_walked hg ha with
  | bypass hnl hst hb =>
    exact ⟨iff_of_true hnl hst, iff_of_true hnl hb, fun h => absurd hnl h⟩
  | @asked args call hnl hargs hcall hst _ hans =>
    obtain ⟨binary, hbinary, -, hjob⟩ := Backend.call?_ok hcall
    refine ⟨iff_of_false hnl (by rw [hst]; simp), iff_of_false hnl ?_, fun _ => ?_⟩
    · rw [hans]
      cases told? ⟨.navigate direction buffer probe, before, answer, after⟩ <;>
        simp [Navigation.Outcome.of]
    · exact ⟨binary, args, call.environ, hbinary, hargs, by rw [hst, ← hjob], hans⟩

def sample : Shell :=
  let h := Host.scripted .empty [(.backend "move",
    [.exited ⟨"10|git commit\n", "", 0⟩, .exited ⟨"oops", "", 0⟩, .refused .notFound])]
  { Shell.create h .default with
    integration := some ⟨0, ⟨⟨"t", none⟩, .default, "", none⟩, false⟩ }

/-- The cursor of the first answer outlives two bad ones, and is gone with the reset. -/
theorem cursor_follows_answers_sample :
    ∃ run u, Run act sample run u ∧
      run.map Stage.step = [.navigate (-1) "git" none, .navigate (-1) "git commit" none,
        .capture "ls", .navigate 1 "git commit" none, .navigate 1 "a" (some "\nb"), .reset] ∧
      run.map (cursor? ∘ Stage.before) =
        [some "", some "10", some "10", some "10", some "10", some "10"] ∧
      cursor? u = some (run.foldl cursorAfter "") ∧
      ∀ pre g post, run = pre ++ g :: post →
        cursor? g.before = some (pre.foldl cursorAfter "") := by
  obtain ⟨run, u, hr, hsteps, hcursors⟩ : ∃ run u, Run act sample run u ∧
      run.map Stage.step = [.navigate (-1) "git" none, .navigate (-1) "git commit" none,
        .capture "ls", .navigate 1 "git commit" none, .navigate 1 "a" (some "\nb"), .reset] ∧
      run.map (cursor? ∘ Stage.before) =
        [some "", some "10", some "10", some "10", some "10", some "10"] :=
    ⟨_, _, .cons rfl (.cons rfl (.cons rfl (.cons rfl (.cons rfl (.cons rfl (.nil _)))))), rfl, rfl⟩
  obtain ⟨hu, hall⟩ := cursor_follows_answers rfl hr
  exact ⟨run, u, hr, hsteps, hcursors, hu, fun pre g post he => (hall pre g post he).1⟩

end ShellHistory.Walk

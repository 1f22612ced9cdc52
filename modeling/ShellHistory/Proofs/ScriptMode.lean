import ShellHistory.Bridge
import ShellHistory.Proofs.Effect
import ShellHistory.Proofs.Walk

/-! Walks through the history in a shell that calls the bridge at every key. The process of a key
knows only the cursor that the shell keeps in a variable, and the shell only the statements that are
printed. Key by key, this comes to the same as one shell with its history attached. -/

namespace ShellHistory.ScriptMode

open Act

/-- What reaches a shell between two lines. A prompt ends a walk. -/
inductive Key
  | arrow (direction : Int) (buffer : String) (probe : Option String)
  | prompt
  deriving DecidableEq, Repr

/-- What can be seen of a key: the processes of the history program with all that they are given, the
line that takes the place of the edited one, the cursor behind it, and the failure, if it failed. -/
structure Seen where
  calls : List Call
  line : Option String
  cursor : Option String
  failure : Option Failure
  deriving DecidableEq, Repr

/-- A shell with scripts: its machine, and the variable that holds the cursor. -/
structure Script where
  host : Host
  cursor : String

def failureOf {σ α : Type} : EStateM.Result Failure σ α → Option Failure
  | .ok _ _ => none
  | .error f _ => some f

/-- The process of a key. What it prints is what it has printed from its beginning. -/
def process (d : Dialect) (c : Config) (s : Script) (direction : Int) (buffer : String)
    (probe : Option String) : EStateM.Result Failure Host Int :=
  Bridge.Command.run none c (.navigate (some d) (some s.cursor) probe direction buffer)
    { s.host with out := "" }

/-- A key in a shell with scripts: it obeys the statements that the process prints. -/
def press (d : Dialect) (c : Config) (s : Script) : Key → Seen × Script
  | .arrow direction buffer probe =>
    let x := process d c s direction buffer probe
    let e := ((d.read (endOf x).out).getD []).foldl d.obey ⟨s.cursor, none⟩
    (⟨s.host.startedSince (endOf x), e.line, some e.cursor, failureOf x⟩,
      ⟨{ endOf x with out := s.host.out }, e.cursor⟩)
  | .prompt => (⟨[], none, some "", none⟩, { s with cursor := "" })

def lineOf : EStateM.Result Failure Shell Walk.Answer → Option String
  | .ok (.walked o) _ => o.line?
  | _ => none

def Key.step : Key → Walk.Step
  | .arrow direction buffer probe => .navigate direction buffer probe
  | .prompt => .reset

def pressAttached (s : Shell) (key : Key) : Seen × Shell :=
  let x := Walk.act key.step s
  (⟨s.host.startedSince (endOf x).host, lineOf x, Walk.cursor? (endOf x), failureOf x⟩, endOf x)

def trace {σ : Type} (press : σ → Key → Seen × σ) : σ → List Key → List Seen
  | _, [] => []
  | s, key :: rest => (press s key).1 :: trace press (press s key).2 rest

/-- Shells that show the same at every key, as long as they are related, show the same all along. -/
theorem trace_eq {σ τ : Type} {f : σ → Key → Seen × σ} {g : τ → Key → Seen × τ} {R : σ → τ → Prop}
    (hstep : ∀ {s t}, R s t → ∀ key, (f s key).1 = (g t key).1 ∧ R (f s key).2 (g t key).2)
    (keys : List Key) {s : σ} {t : τ} (h : R s t) : trace f s keys = trace g t keys := by
  induction keys generalizing s t with
  | nil => rfl
  | cons key rest ih =>
    obtain ⟨hseen, hrest⟩ := hstep h key
    rw [trace, trace, hseen, ih hrest]

def shown (statements : String) : String := if statements = "" then "" else statements ++ "\n"

theorem printStatements_apply (statements : String) (h : Host) :
    Bridge.printStatements statements h = .ok () { h with out := h.out ++ shown statements } := by
  unfold Bridge.printStatements shown
  by_cases hs : statements = ""
  · rw [if_pos hs, if_pos hs, String.append_empty]
    rfl
  · rw [if_neg hs, if_neg hs]
    rfl

theorem read_shown_navigation (d : Dialect) (outcome : Navigation.Outcome) (cursor : String)
    (direction : Int) : d.read (shown (d.navigationStatements outcome cursor direction)) =
      some (d.meantNavigation outcome cursor direction) := by
  obtain ⟨texts, ht, hr⟩ := d.exists_readsAll_navigation outcome cursor direction
  unfold shown
  split
  · next he => rw [← he, ht, Dialect.read_ofStatements hr]
  · rw [ht, Dialect.read_ofStatements_break hr]

section Step

variable {d : Dialect} {c : Config} {s : Script} {direction : Int} {buffer cursor : String}
  {probe : Option String} {h h' : Host}

theorem takeStep_of_ok {o : Navigation.Outcome} {after : Context}
    (hy : Navigation.step (Bridge.backendOf h c) (Bridge.contextOf h c cursor) direction buffer probe h =
      .ok (o, after) h') : Bridge.takeStep d c (some cursor) probe direction buffer h =
        .ok 0 { h' with out := h'.out ++ shown (d.navigationStatements o after.cursor direction) } := by
  unfold Bridge.takeStep
  rw [get_bind]
  refine (bind_of_ok hy).trans ?_
  exact bind_of_ok (printStatements_apply _ h')

theorem takeStep_of_error {f : Failure}
    (hy : Navigation.step (Bridge.backendOf h c) (Bridge.contextOf h c cursor) direction buffer probe h =
      .error f h') : Bridge.takeStep d c (some cursor) probe direction buffer h = .error f h' := by
  unfold Bridge.takeStep
  rw [get_bind]
  exact bind_of_error hy

theorem process_eq (hs : s.host.out = "") : process d c s direction buffer probe =
    Bridge.takeStep d c (some s.cursor) probe direction buffer s.host := by
  have hfresh : { s.host with out := "" } = s.host := by rw [← hs]
  rw [process, hfresh]
  rfl

theorem read_empty (d : Dialect) : d.read "" = some [] := d.read_navigation .unchanged "" 0

theorem press_of_error {f : Failure} (hs : s.host.out = "") (hh : h'.out = "")
    (hy : Navigation.step (Bridge.backendOf s.host c) (Bridge.contextOf s.host c s.cursor)
      direction buffer probe s.host = .error f h') :
    press d c s (.arrow direction buffer probe) =
      (⟨s.host.startedSince h', none, some s.cursor, some f⟩, ⟨h', s.cursor⟩) := by
  have hkept : { h' with out := s.host.out } = h' := by rw [hs, ← hh]
  unfold press
  dsimp only
  rw [process_eq hs, takeStep_of_error hy, endOf_error, hkept, hh, read_empty]
  rfl

/-- A shell with scripts takes over the line and the cursor from a step. -/
theorem press_of_ok {o : Navigation.Outcome} {after : Context} (hs : s.host.out = "")
    (hh : h'.out = "") (hc : o.line? = none → after.cursor = s.cursor)
    (hy : Navigation.step (Bridge.backendOf s.host c) (Bridge.contextOf s.host c s.cursor)
      direction buffer probe s.host = .ok (o, after) h') :
    press d c s (.arrow direction buffer probe) =
      (⟨s.host.startedSince h', o.line?, some after.cursor, none⟩, ⟨h', after.cursor⟩) := by
  have hkept (out : String) : { { h' with out := out } with out := s.host.out } = h' := by
    rw [hs, ← hh]
  have hcursor : (if o.line?.isSome then after.cursor else s.cursor) = after.cursor := by
    split
    · rfl
    · next hn => exact (hc (by simpa using hn)).symm
  unfold press
  dsimp only
  rw [process_eq hs, takeStep_of_ok hy, endOf_ok, hkept, hh, String.empty_append,
    read_shown_navigation, Option.getD_some, Dialect.obey_meantNavigation, hcursor]
  rfl

end Step

/-- What a shell with scripts and a shell with its history attached agree on between two keys. -/
structure Related (c : Config) (s : Script) (t : Shell) : Prop where
  host : t.host = s.host
  out : s.host.out = ""
  environ : s.host.environ = s.host.login
  backend : t.backend = Bridge.backendOf s.host c
  context : ∃ n installed,
    t.integration = some ⟨n, Bridge.contextOf s.host c s.cursor, installed⟩

section Attached

variable {t : Shell} {i : Integration} {direction : Int} {buffer : String} {probe : Option String}
  {h' : Host}

theorem act_reset (hi : t.integration = some i) : Walk.act .reset t = .ok .done
    { t with integration := some { i with context := { i.context with cursor := "" } } } := by
  unfold Walk.act
  rw [get_bind, hi]
  exact bind_of_ok (Shell.reset_apply hi)

theorem act_navigate_of_ok (hi : t.integration = some i) {o : Navigation.Outcome} {after : Context}
    (hy : Navigation.step t.backend i.context direction buffer probe t.host = .ok (o, after) h') :
    Walk.act (.navigate direction buffer probe) t = .ok (.walked o)
      { t with host := h', integration := some { i with context := after } } := by
  obtain ⟨host, backend, registry, integration, made, notes⟩ := t
  cases hi
  have hn : Shell.navigate i direction buffer probe
      ⟨host, backend, registry, some i, made, notes⟩ = .ok o
        ⟨h', backend, registry, some { i with context := after }, made, notes⟩ := by
    unfold Shell.navigate
    rw [get_bind, bind_of_ok (Shell.onHost_of_ok hy)]
    rfl
  unfold Walk.act
  rw [get_bind]
  exact bind_of_ok hn

theorem act_navigate_of_error (hi : t.integration = some i) {f : Failure}
    (hy : Navigation.step t.backend i.context direction buffer probe t.host = .error f h') :
    Walk.act (.navigate direction buffer probe) t = .error f { t with host := h' } := by
  obtain ⟨host, backend, registry, integration, made, notes⟩ := t
  cases hi
  have hn : Shell.navigate i direction buffer probe
      ⟨host, backend, registry, some i, made, notes⟩ =
        .error f ⟨h', backend, registry, some i, made, notes⟩ := by
    unfold Shell.navigate
    rw [get_bind, bind_of_error (Shell.onHost_of_error hy)]
  unfold Walk.act
  rw [get_bind]
  exact bind_of_error hn

end Attached

/-- One key keeps the two shells related and looks the same in both. -/
theorem press_related (d : Dialect) {c : Config} {s : Script} {t : Shell} (h : Related c s t)
    (key : Key) : (press d c s key).1 = (pressAttached t key).1 ∧
      Related c (press d c s key).2 (pressAttached t key).2 := by
  obtain ⟨n, installed, hi⟩ := h.context
  cases key with
  | prompt =>
    unfold pressAttached
    dsimp only [Key.step]
    rw [act_reset hi]
    refine ⟨?_, h.host, h.out, h.environ, h.backend, n, installed, rfl⟩
    simp [press, Walk.cursor?, failureOf, lineOf, Host.startedSince]
  | arrow direction buffer probe =>
    have hx := Navigation.step_stepped (Bridge.backendOf s.host c)
      (Bridge.contextOf s.host c s.cursor) direction buffer probe s.host
    have hstep : Navigation.step t.backend (Bridge.contextOf s.host c s.cursor) direction buffer probe
        t.host = Navigation.step (Bridge.backendOf s.host c) (Bridge.contextOf s.host c s.cursor)
          direction buffer probe s.host := by
      rw [h.backend, h.host]
    generalize hy : Navigation.step (Bridge.backendOf s.host c) (Bridge.contextOf s.host c s.cursor)
      direction buffer probe s.host = y at hx hstep
    obtain ⟨hout, henviron, hlogin⟩ := hx.host
    rw [h.out] at hout
    have henv : (endOf y).environ = (endOf y).login := by rw [henviron, hlogin, h.environ]
    have hbackend : t.backend = Bridge.backendOf (endOf y) c := by
      rw [h.backend, Bridge.backendOf, Bridge.backendOf, hlogin]
    have hcontext (cursor : String) : Bridge.contextOf (endOf y) c cursor =
        Bridge.contextOf s.host c cursor := by
      rw [Bridge.contextOf, Bridge.contextOf, hlogin]
    unfold pressAttached
    dsimp only [Key.step]
    cases y with
    | error f h' =>
      rw [press_of_error h.out hout hy, act_navigate_of_error hi hstep]
      refine ⟨?_, rfl, hout, henv, hbackend, n, installed, ?_⟩
      · rw [h.host, endOf_error, Walk.cursor?, hi]
        rfl
      · rw [hcontext]
        exact hi
    | ok a h' =>
      obtain ⟨o, after⟩ := a
      obtain ⟨hafter, hsame⟩ := hx.context
      rw [press_of_ok h.out hout (fun hn => by rw [hsame hn]; rfl) hy, act_navigate_of_ok hi hstep]
      refine ⟨?_, rfl, hout, henv, hbackend, n, installed, ?_⟩
      · rw [h.host]
        rfl
      · rw [hcontext, endOf_ok, hafter]
        rfl

def begun (h : Host) : Host := { h with environ := h.login, out := "" }

def attached (h : Host) (c : Config) (cursor : String) : Shell :=
  { Shell.create (begun h) c with
    integration :=
      some ⟨0, ⟨(Session.ofEnvironment? h.login).getD ⟨"", none⟩, c, cursor, none⟩, false⟩
    made := 1 }

theorem begun_related (h : Host) (c : Config) (cursor : String) :
    Related c ⟨begun h, cursor⟩ (attached h c cursor) := ⟨rfl, rfl, rfl, rfl, 0, false, rfl⟩

def reply? (h : Host) : Option Entry := (h.upcoming (.backend "move")).told?

theorem out_process_of_no_reply {d : Dialect} {c : Config} {s : Script} {direction : Int}
    {buffer : String} {probe : Option String} (hn : '\n' ∉ (probe.getD buffer).toList)
    (hr : reply? s.host = none) : (endOf (process d c s direction buffer probe)).out = "" := by
  have hx := Navigation.step_stepped (Bridge.backendOf { s.host with out := "" } c)
    (Bridge.contextOf { s.host with out := "" } c s.cursor) direction buffer probe
    { s.host with out := "" }
  have hprocess : process d c s direction buffer probe =
      Bridge.takeStep d c (some s.cursor) probe direction buffer { s.host with out := "" } := rfl
  rw [hprocess]
  generalize hy : Navigation.step (Bridge.backendOf { s.host with out := "" } c)
    (Bridge.contextOf { s.host with out := "" } c s.cursor) direction buffer probe
    { s.host with out := "" } = y at hx
  cases hx with
  | bypass hnl => exact absurd hnl hn
  | refused => rw [takeStep_of_error hy, endOf_error]
  | interrupted | garbled =>
    rw [takeStep_of_error hy]
    rfl
  | @ended args call records _ hargs hcall =>
    have htold : (Host.next { s.host with out := "" } call).told? = none := by
      rw [Host.next_eq_upcoming, Move.role_of_call? hargs hcall]
      exact hr
    rw [htold] at hy
    rw [takeStep_of_ok hy]
    rfl

/-- A shell that runs a process at every key, and obeys what it prints, shows the same at every key as
one shell with its history attached: the same processes, the same new line, the same cursor and the
same failure. Without an answer from the history program nothing is printed, and neither the line nor
the variable changes. -/
theorem press_simulates_attached (h : Host) (c : Config) (cursor : String) (keys : List Key) :
    trace (press .bash c) ⟨begun h, cursor⟩ keys = trace pressAttached (attached h c cursor) keys ∧
    trace (press .fish c) ⟨begun h, cursor⟩ keys = trace pressAttached (attached h c cursor) keys ∧
    ∀ d s direction buffer probe, '\n' ∉ (probe.getD buffer).toList → reply? s.host = none →
      (endOf (process d c s direction buffer probe)).out = "" ∧
      (press d c s (.arrow direction buffer probe)).1.line = none ∧
      (press d c s (.arrow direction buffer probe)).2.cursor = s.cursor := by
  refine ⟨trace_eq (press_related .bash) keys (begun_related h c cursor),
    trace_eq (press_related .fish) keys (begun_related h c cursor), ?_⟩
  intro d s direction buffer probe hn hr
  have hout : (endOf (process d c s direction buffer probe)).out = "" :=
    out_process_of_no_reply hn hr
  refine ⟨hout, ?_, ?_⟩
  · unfold press
    dsimp only
    rw [hout, read_empty]
    rfl
  · unfold press
    dsimp only
    rw [hout, read_empty]
    rfl

def sample : Host := Host.scripted ⟨[("VELLUM_SESSION", "t")]⟩
  [(.backend "move", [.exited ⟨"7|echo 'it''s'\n", "", 0⟩, .exited ⟨"oops", "", 0⟩])]

theorem press_simulates_attached_sample :
    (trace (press .bash .default) ⟨begun sample, ""⟩
      [.arrow (-1) "e" none, .arrow (-1) "e" none, .prompt]).map (fun g => (g.line, g.cursor)) =
        [(some "echo 'it''s'", some "7"), (none, some "7"), (none, some "")] ∧
    (endOf (process .fish .default ⟨.scripted .empty [(.backend "move", [.refused .notFound])], "7"⟩
      1 "e" none)).out = "" := by
  obtain ⟨htrace, -, hquiet⟩ := press_simulates_attached sample .default ""
    [.arrow (-1) "e" none, .arrow (-1) "e" none, .prompt]
  refine ⟨?_, (hquiet .fish _ 1 "e" none (by decide) rfl).1⟩
  rw [htrace]
  rfl

end ShellHistory.ScriptMode

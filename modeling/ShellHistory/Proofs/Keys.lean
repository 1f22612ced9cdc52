import ShellHistory.Proofs.Touched

/-! The keys of a shell. A key takes a step of the integration and then perhaps changes the buffer,
and does nothing else. Outside of a walk through the history, the first arrow that reaches the history
program begins one. -/

namespace ShellHistory.Repl

open Act

section Keys

variable {P : Call → Prop} {r : Repl} {i : Integration}

def Key.step (b : Buffer) : Key → Walk.Step
  | .up => .navigate Move.previous (String.ofList b.text) (some (String.ofList b.before))
  | .down => .navigate Move.next (String.ofList b.text) (some (String.ofList b.after))
  | .search => .search (String.ofList b.text)

/-- All that can come of a key: it fails with the step that it asks for, or the buffer is changed
behind it. -/
inductive Pressed (r : Repl) (step : Walk.Step) : EStateM.Result Failure Repl Unit → Prop
  | failed {f : Failure} {s : Shell} : Walk.act step r.shell = .error f s →
      Pressed r step (.error f { r with shell := s })
  | done {a : Walk.Answer} {s : Shell} {buffer : Buffer} : Walk.act step r.shell = .ok a s →
      Pressed r step (.ok () { r with shell := s, buffer := buffer })

theorem walk_pressed (hi : r.shell.integration = some i) (direction : Int) (probe : List Char)
    (move : Buffer → Buffer) :
    Pressed r (.navigate direction (String.ofList r.buffer.text) (some (String.ofList probe)))
      (walk i direction probe move r) := by
  have hact := Shell.act_navigate hi direction (String.ofList r.buffer.text)
    (some (String.ofList probe))
  unfold walk
  rw [get_bind]
  cases hx : Shell.navigate i direction (String.ofList r.buffer.text) (some (String.ofList probe))
      r.shell with
  | error f s =>
    rw [bind_of_error hx] at hact
    rw [bind_of_error (onShell_of_error hx)]
    exact .failed hact
  | ok o s =>
    rw [bind_of_ok hx] at hact
    rw [bind_of_ok (onShell_of_ok hx)]
    cases o <;> exact .done hact

/-- A key takes a step of the integration, and then perhaps changes the buffer. -/
theorem press_pressed (hi : r.shell.integration = some i) (key : Key) (count : Nat) :
    Pressed r (key.step r.buffer) (press i key count r) := by
  unfold press
  rw [get_bind]
  cases key with
  | up => exact walk_pressed hi _ _ _
  | down => exact walk_pressed hi _ _ _
  | search =>
    have hact := Shell.act_search hi (String.ofList r.buffer.text)
    dsimp only
    cases hx : Shell.search i (String.ofList r.buffer.text) r.shell with
    | error f s =>
      rw [bind_of_error hx] at hact
      rw [bind_of_error (onShell_of_error hx)]
      exact .failed hact
    | ok o s =>
      rw [bind_of_ok hx] at hact
      rw [bind_of_ok (onShell_of_ok hx)]
      cases o.line <;> exact .done hact

theorem strike_of_some (hi : r.shell.integration = some i) (key : Key) (count : Nat) :
    strike (.key key count) r = press i key count r := by
  unfold strike
  dsimp only
  rw [get_bind, hi]

theorem strike_of_none (hi : r.shell.integration = none) (key : Key) (count : Nat) :
    strike (.key key count) r = .ok () r := by
  unfold strike
  dsimp only
  rw [get_bind, hi]
  rfl

/-- What keys leave of a shell. They do not enter anything. -/
structure Struck (P : Call → Prop) (r t : Repl) : Prop where
  touched : Shell.Touched P r.shell t.shell
  notes : t.shell.notes = r.shell.notes
  rest : t = { r with shell := t.shell, buffer := t.buffer }

theorem Struck.refl (r : Repl) : Struck P r r := ⟨.refl _, rfl, rfl⟩

theorem Struck.trans {t u : Repl} (h : Struck P r t) (h' : Struck P t u) : Struck P r u where
  touched := h.touched.trans h'.touched
  notes := h'.notes.trans h.notes
  rest := by rw [h'.rest, h.rest]

theorem strike_struck (stroke : Stroke) (hP : ∀ i, r.shell.integration = some i → ∀ c,
    Shell.Started r.shell.backend (some i.context.session) i.context.config r.environ c → P c) :
    Struck P r (endOf (strike stroke r)) := by
  cases stroke with
  | edit text point => exact ⟨.refl _, rfl, rfl⟩
  | key key count =>
    cases hi : r.shell.integration with
    | none =>
      rw [strike_of_none hi]
      exact .refl r
    | some i =>
      have hheard := Shell.act_heard (key.step r.buffer) hi
      rw [strike_of_some hi]
      generalize hx : press i key count r = x
      cases hx ▸ press_pressed hi key count with
      | failed ha =>
        rw [ha, endOf_error] at hheard
        exact ⟨hheard.toTouched.mono (hP i hi), hheard.notes.trans (List.append_nil _), rfl⟩
      | done ha =>
        rw [ha, endOf_ok] at hheard
        exact ⟨hheard.toTouched.mono (hP i hi), hheard.notes.trans (List.append_nil _), rfl⟩

theorem struck_of_run {r t : Repl} {keys : List (Stage Repl Stroke Unit)}
    (h : Run strike r keys t) : Struck (fun _ => True) r t := by
  induction h with
  | nil r => exact .refl r
  | @cons stroke _ r s t _ ha _ ih =>
    have hstruck := strike_struck (P := fun _ => True) (r := r) stroke fun _ _ _ _ => trivial
    rw [ha, endOf_ok] at hstruck
    exact hstruck.trans ih

def arrow? : Stroke → Option Int
  | .key .up _ => some Move.previous
  | .key .down _ => some Move.next
  | .key .search _ | .edit _ _ => none

def calledBy (g : Stage Repl Stroke Unit) : List Call :=
  g.before.shell.host.startedSince g.after.shell.host

/-- The arguments of a first step: what stands in the buffer is the prefix, and there is no entry to
go on from. -/
def firstArgs (c : Config) (direction : Int) (buffer : String) : List String :=
  ["move", "--with-id", "--session", "--prefix=" ++ buffer] ++ c.moveArgs ++
    ["--", toString direction, ""]

theorem args?_moveFrom {c : Context} {direction : Int} {buffer : String}
    (hd : direction = Move.previous ∨ direction = Move.next) :
    (Walk.moveFrom c "" direction buffer).args? = some (firstArgs c.config direction buffer) := by
  unfold Move.args?
  rw [Walk.moveFrom, if_pos hd]
  rfl

theorem step_of_arrow {stroke : Stroke} {direction : Int} (hd : arrow? stroke = some direction)
    (b : Buffer) : (direction = Move.previous ∨ direction = Move.next) ∧ ∃ key count probe,
      stroke = .key key count ∧ key.step b = .navigate direction (String.ofList b.text) probe := by
  cases stroke with
  | edit text point => cases hd
  | key key count =>
    cases key with
    | up =>
      cases hd
      exact ⟨.inl rfl, .up, count, _, rfl, rfl⟩
    | down =>
      cases hd
      exact ⟨.inr rfl, .down, count, _, rfl, rfl⟩
    | search => cases hd

def AskedFirst (direction : Int) (g : Stage Repl Stroke Unit) : Prop :=
  ∃ i binary environ, g.before.shell.integration = some i ∧ i.context.cursor = "" ∧
    calledBy g = [⟨.backend (binary :: firstArgs i.context.config direction
      (String.ofList g.before.buffer.text)) true, environ⟩]

/-- An arrow outside of a walk moves within the buffer, or else takes the first step of a walk. -/
theorem arrow_walked {stroke : Stroke} {direction : Int} {r t : Repl}
    (hd : arrow? stroke = some direction) (h : strike stroke r = .ok () t)
    (hc : Walk.cursor? r.shell = some "") :
    (calledBy ⟨stroke, r, (), t⟩ = [] ∧ Walk.cursor? t.shell = some "") ∨
      AskedFirst direction ⟨stroke, r, (), t⟩ := by
  obtain ⟨hdirection, key, count, probe, rfl, hstep⟩ := step_of_arrow hd r.buffer
  obtain ⟨i, hi, hcursor⟩ := Option.map_eq_some_iff.1 hc
  rw [strike_of_some hi] at h
  cases h ▸ press_pressed hi key count with
  | done ha =>
    rw [hstep] at ha
    have hat : Walk.At i.context "" r.shell :=
      ⟨i, i.context.lastSelected, hi, by rw [← hcursor]⟩
    cases Walk.act_walked hat ha with
    | bypass _ hst _ hafter => exact .inl ⟨hst, hafter.cursor?⟩
    | asked _ hargs hcall hst =>
      obtain ⟨binary, -, -, hjob⟩ := Backend.call?_ok hcall
      rw [args?_moveFrom hdirection] at hargs
      cases hargs
      exact .inr ⟨i, binary, _, hi, hcursor, hst.trans (by rw [← hjob])⟩

/-- A walk does not begin before an arrow reaches the history program. -/
theorem strike_idle {stroke : Stroke} {r t : Repl} (h : strike stroke r = .ok () t)
    (hc : Walk.cursor? r.shell = some "")
    (hq : (arrow? stroke).isSome → calledBy ⟨stroke, r, (), t⟩ = []) :
    Walk.cursor? t.shell = some "" := by
  cases hd : arrow? stroke with
  | some direction =>
    have hq := hq (by rw [hd]; rfl)
    obtain ⟨-, hcursor⟩ | ⟨i, binary, environ, -, -, hcalled⟩ := arrow_walked hd h hc
    · exact hcursor
    · cases hq.symm.trans hcalled
  | none =>
    cases stroke with
    | edit text point =>
      cases h
      exact hc
    | key key count =>
    cases key with
    | up => cases hd
    | down => cases hd
    | search =>
      obtain ⟨i, hi, hcursor⟩ := Option.map_eq_some_iff.1 hc
      rw [strike_of_some hi] at h
      have hat : Walk.At i.context "" r.shell :=
        ⟨i, i.context.lastSelected, hi, by rw [← hcursor]⟩
      cases h ▸ press_pressed hi .search count with
      | done ha => exact (Walk.act_at hat ha).cursor?

theorem idle_of_run {r t : Repl} {keys : List (Stage Repl Stroke Unit)} (h : Run strike r keys t)
    (hc : Walk.cursor? r.shell = some "")
    (hq : ∀ g ∈ keys, (arrow? g.step).isSome → calledBy g = []) :
    Walk.cursor? t.shell = some "" := by
  induction h with
  | nil r => exact hc
  | cons ha _ ih =>
    exact ih (strike_idle ha hc (hq _ List.mem_cons_self))
      fun g hg => hq g (List.mem_cons_of_mem _ hg)

/-- The first arrow that reaches the history program begins a walk. -/
theorem first_arrow {r t : Repl} {keys pre post : List (Stage Repl Stroke Unit)}
    {g : Stage Repl Stroke Unit} {direction : Int} (h : Run strike r keys t)
    (hc : Walk.cursor? r.shell = some "") (he : keys = pre ++ g :: post)
    (hd : arrow? g.step = some direction)
    (hq : ∀ p ∈ pre, (arrow? p.step).isSome → calledBy p = []) :
    calledBy g = [] ∨ AskedFirst direction g := by
  subst he
  obtain ⟨u, hpre, hpost⟩ := h.split
  have hidle := idle_of_run hpre hc hq
  cases hpost with
  | cons ha _ => exact (arrow_walked hd ha hidle).imp_left And.left

end Keys

end ShellHistory.Repl

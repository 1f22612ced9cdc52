import ShellHistory.Proofs.Keys
import ShellHistory.Proofs.MoveArguments
import ShellHistory.Proofs.Rows

/-! The arrow keys of a prompt. Where there is another line of the buffer in its direction, an arrow
goes there and asks nobody; else it takes a step through the history, and the buffer is left alone or
replaced as a whole. -/

namespace ShellHistory

open Act

theorem Navigation.step_of_run {b : Backend} {c : Context} {direction : Int} {buffer : String}
    {probe : Option String} {h h' : Host} {args : List String} {r : Backend.Result}
    (ha : (request c direction buffer).args? = some args)
    (hr : b.run args (some c.session) true h = .ok r h') (hn : '\n' ∉ (probe.getD buffer).toList) :
    ∃ p t, step b c direction buffer probe h = .ok p t := by
  have hm : b.move (request c direction buffer) (some c.session) h = .ok r h' := by
    rw [Backend.move, ha]
    exact hr
  unfold step
  rw [if_neg (by simpa using hn), bind_of_ok hm]
  split
  · exact ⟨_, _, rfl⟩
  · cases Reply.ofText r.stdout with
    | entry e => exact ⟨_, _, rfl⟩
    | malformed raw =>
      obtain ⟨records, hl⟩ := Host.log_apply .debug source
        ("ignoring malformed move reply: " ++ Text.literal raw) none h'
      exact ⟨_, _, bind_of_ok hl⟩

def Navigation.Outcome.edit (move : Buffer → Buffer) : Outcome → Buffer → Buffer
  | .bypass, b => move b
  | .unchanged, b => b
  | .replaced line, b => b.replaceText line.toList

namespace Repl

inductive Arrow
  | up
  | down
  deriving DecidableEq, Repr

namespace Arrow

def key : Arrow → Key
  | up => .up
  | down => .down

def direction : Arrow → Int
  | up => Move.previous
  | down => Move.next

def ahead (a : Arrow) (b : Buffer) : List Char :=
  match a with
  | up => b.before
  | down => b.after

def move (a : Arrow) (count : Nat) (b : Buffer) : Buffer :=
  match a with
  | up => b.up count
  | down => b.down count

def Passes (a : Arrow) (lines row row' : Nat) : Prop :=
  match a with
  | up => row' + lines = row
  | down => row' = row + lines

variable {a : Arrow} {count : Nat} {b : Buffer}

theorem text_move : (a.move count b).text = b.text := by
  cases a <;> rfl

/-- An arrow goes by as many lines as it is told, if there are so many in its direction. -/
theorem passes_move (a : Arrow) (count : Nat) (b : Buffer) :
    a.Passes (min count ((a.ahead b).count '\n')) b.row (a.move count b).row := by
  cases a with
  | up => exact b.row_up count
  | down => exact b.row_down count

/-- The column stays as far as the line that is reached is long enough. -/
theorem place_move (a : Arrow) (count : Nat) (b : Buffer) :
    (a.move count b).place =
      min b.aim ((a.move count b).line (a.move count b).row).length := by
  have hmoved (row : Nat) : (b.moveTo row).place =
      min b.aim ((b.moveTo row).line (b.moveTo row).row).length := by
    rw [Buffer.place_moveTo, Buffer.row_moveTo]
    rfl
  cases a <;> exact hmoved _

end Arrow

variable {r t : Repl} {i : Integration} {a : Arrow} {count : Nat}

theorem walk_of_ok {direction : Int} {probe : List Char} {move : Buffer → Buffer}
    {o : Navigation.Outcome} {s : Shell}
    (h : Shell.navigate i direction (String.ofList r.buffer.text) (some (String.ofList probe))
      r.shell = .ok o s) :
    walk i direction probe move r = .ok () { r with shell := s, buffer := o.edit move r.buffer } := by
  unfold walk
  rw [get_bind, bind_of_ok (onShell_of_ok h)]
  cases o <;> rfl

theorem strike_arrow (hi : r.shell.integration = some i) (a : Arrow) (count : Nat) :
    strike (.key a.key count) r = walk i a.direction (a.ahead r.buffer) (a.move count) r := by
  rw [strike_of_some hi]
  unfold press
  rw [get_bind]
  cases a <;> rfl

/-- With another line of the buffer in its direction, an arrow goes there and does nothing else. -/
theorem strike_inside (hi : r.shell.integration = some i) (hn : '\n' ∈ a.ahead r.buffer) :
    strike (.key a.key count) r = .ok () { r with buffer := a.move count r.buffer } := by
  rw [strike_arrow hi]
  exact walk_of_ok (Shell.navigate_of_mem (by simpa using hn) hi)

/-- What comes of an arrow that leaves the buffer: the one process that the place in the history and
the buffer ask for, and then the answer to it. -/
structure Answered (i : Integration) (a : Arrow) (r t : Repl) : Prop where
  called : ∃ binary args environ,
    (Navigation.request i.context a.direction (String.ofList r.buffer.text)).args? = some args ∧
    r.shell.host.startedSince t.shell.host = [⟨.backend (binary :: args) true, environ⟩]
  buffer : t.buffer =
    (Navigation.Outcome.of (r.shell.host.upcoming (.backend "move")).told?).edit id r.buffer

theorem strike_outside (hi : r.shell.integration = some i) (hn : '\n' ∉ a.ahead r.buffer)
    (h : strike (.key a.key count) r = .ok () t) : Answered i a r t := by
  have hn' : '\n' ∉ ((some (String.ofList (a.ahead r.buffer))).getD
      (String.ofList r.buffer.text)).toList := by simpa using hn
  rw [strike_arrow hi] at h
  cases hx : Shell.navigate i a.direction (String.ofList r.buffer.text)
      (some (String.ofList (a.ahead r.buffer))) r.shell with
  | error f s =>
    unfold walk at h
    rw [get_bind, bind_of_error (onShell_of_error hx)] at h
    cases h
  | ok o s =>
    rw [walk_of_ok hx] at h
    cases h
    obtain ⟨c, h', hstep, rfl⟩ := Shell.navigate_ok hx
    cases hstep ▸ Navigation.step_stepped r.shell.backend i.context a.direction _ _ r.shell.host with
    | bypass hmem => exact absurd hmem hn'
    | @ended args call records _ hargs hcall =>
      obtain ⟨binary, -, -, hjob⟩ := Backend.call?_ok hcall
      refine ⟨⟨binary, args, call.environ, hargs, ?_⟩, ?_⟩
      · rw [← hjob]
        exact Host.startedSince_of_calls rfl
      · rw [← Move.role_of_call? hargs hcall, ← Host.next_eq_upcoming]
        cases (r.shell.host.next call).told? <;> rfl

/-- The process that an arrow asks, and that there is something to be read of it. -/
structure Answers (i : Integration) (a : Arrow) (r : Repl) (args : List String) (c : Call) :
    Prop where
  asked : (Navigation.request i.context a.direction (String.ofList r.buffer.text)).args? = some args
  called : r.shell.backend.call? args (some i.context.session) true r.environ = .ok c
  told : r.shell.host.untold? c = none
  readable : (Backend.resultOf c.job.argv true (r.shell.host.next c)).isSome

/-- An arrow ends well unless it is the history program that cannot be called, is broken off or gives
an answer that cannot be read. -/
theorem strike_ends (hi : r.shell.integration = some i) (a : Arrow) (count : Nat)
    (hn : '\n' ∈ a.ahead r.buffer ∨ ∃ args c, Answers i a r args c) :
    ∃ t, strike (.key a.key count) r = .ok () t := by
  by_cases hmem : '\n' ∈ a.ahead r.buffer
  · exact ⟨_, strike_inside hi hmem⟩
  obtain ⟨args, c, hargs, hcall, htold, hread⟩ := hn.resolve_left hmem
  generalize hx : r.shell.backend.run args (some i.context.session) true r.shell.host = x
  cases hx ▸ r.shell.backend.run_called args (some i.context.session) true r.shell.host with
  | unusable hc => cases hc.symm.trans hcall
  | untold hc hf =>
    cases hc.symm.trans hcall
    cases hf.symm.trans htold
  | interrupted hc _ hnext | garbled hc _ hnext =>
    cases hc.symm.trans hcall
    rw [hnext] at hread
    cases hread
  | ended =>
    have hahead : '\n' ∉ ((some (String.ofList (a.ahead r.buffer))).getD
        (String.ofList r.buffer.text)).toList := by simpa using hmem
    obtain ⟨⟨o, c⟩, h, hstep⟩ := Navigation.step_of_run hargs hx hahead
    exact ⟨_, (strike_arrow hi a count).trans (walk_of_ok (Shell.navigate_of_step hstep))⟩

/-- An arrow that moves within the buffer does nothing but that. -/
structure Moved (a : Arrow) (count : Nat) (g : Stage Repl Stroke Unit) : Prop where
  called : calledBy g = []
  rest : g.after = { g.before with buffer := g.after.buffer }
  text : g.after.buffer.text = g.before.buffer.text
  row : a.Passes (min count ((a.ahead g.before.buffer).count '\n')) g.before.buffer.row
    g.after.buffer.row
  place : g.after.buffer.place =
    min g.before.buffer.aim (g.after.buffer.line g.after.buffer.row).length

/-- An arrow that takes a step through the history starts one process, which asks for the entry next to
the cursor or, without a cursor, for one that starts like the whole buffer. What it answers replaces the
buffer, with the point at the end; without an answer the buffer stays. -/
structure Asked (a : Arrow) (g : Stage Repl Stroke Unit) : Prop where
  called : ∃ i binary environ, g.before.shell.integration = some i ∧
    calledBy g = [⟨.backend (binary :: (Move.opening ++
      (if i.context.cursor = "" then ["--prefix=" ++ String.ofList g.before.buffer.text] else []) ++
      i.context.config.moveArgs ++ ["--", toString a.direction, i.context.cursor])) true, environ⟩]
  answered : ∀ e, (g.before.shell.host.upcoming (.backend "move")).told? = some e →
    g.after.buffer.text = e.line.toList ∧ g.after.buffer.point = e.line.toList.length
  unanswered : (g.before.shell.host.upcoming (.backend "move")).told? = none →
    g.after.buffer = g.before.buffer

theorem moved_of_strike (hi : r.shell.integration = some i) (hn : '\n' ∈ a.ahead r.buffer)
    (h : strike (.key a.key count) r = .ok () t) : Moved a count ⟨.key a.key count, r, (), t⟩ := by
  rw [strike_inside hi hn] at h
  cases h
  exact ⟨Host.startedSince_of_calls (List.append_nil _).symm, rfl, Arrow.text_move,
    a.passes_move count r.buffer, a.place_move count r.buffer⟩

theorem asked_of_strike (hi : r.shell.integration = some i) (hn : '\n' ∉ a.ahead r.buffer)
    (h : strike (.key a.key count) r = .ok () t) : Asked a ⟨.key a.key count, r, (), t⟩ := by
  have hleft := strike_outside hi hn h
  refine ⟨?_, fun e he => ?_, fun he => ?_⟩
  · obtain ⟨binary, args, environ, hargs, hcalled⟩ := hleft.called
    obtain ⟨-, rfl⟩ := Move.args?_eq_some_iff.1 hargs
    rw [Navigation.flags_request] at hcalled
    exact ⟨i, binary, environ, hi, hcalled⟩
  · have hb := hleft.buffer
    rw [he] at hb
    change t.buffer.text = _ ∧ t.buffer.point = _
    rw [hb]
    exact ⟨rfl, Nat.min_self _⟩
  · have hb := hleft.buffer
    rw [he] at hb
    exact hb

/-- An arrow ends well if there is another line in its direction, or if the process that it starts
does and can be read. Along every run of keys, an arrow with another line in its direction goes by the
lines that it is told, as far as there are any, and asks nobody; any other arrow asks the history
program once, and moves nothing within the buffer. The point never leaves the text. -/
theorem arrows_move_or_ask :
    (∀ r i a count, r.shell.integration = some i →
      ('\n' ∈ Arrow.ahead a r.buffer ∨ ∃ args c, Answers i a r args c) →
      ∃ t, strike (.key a.key count) r = .ok () t) ∧
    ∀ r t i keys, r.shell.integration = some i → Run strike r keys t →
      ∀ g ∈ keys, g.after.buffer.point ≤ g.after.buffer.text.length ∧
        ∀ a count, g.step = .key (Arrow.key a) count →
          ('\n' ∈ a.ahead g.before.buffer → Moved a count g) ∧
          ('\n' ∉ a.ahead g.before.buffer → Asked a g) := by
  refine ⟨fun r i a count hi hn => strike_ends hi a count hn, fun r t i keys hi hrun g hg => ?_⟩
  refine ⟨g.after.buffer.point_le, fun a count hstep => ?_⟩
  obtain ⟨pre, post, rfl⟩ := List.append_of_mem hg
  obtain ⟨u, hpre, hpost⟩ := hrun.split
  obtain ⟨j, hj, -⟩ := (struck_of_run hpre).touched.exists_integration hi
  cases hpost with
  | cons ha _ =>
    cases hstep
    exact ⟨fun hn => moved_of_strike hj hn ha, fun hn => asked_of_strike hj hn ha⟩

/-- A shell with two lines in its buffer, whose history program finds an entry. -/
def twoLines : Repl :=
  { create Walk.sample.host .default true with
    shell := Walk.sample
    buffer := ⟨"ab\nc".toList, 4, none, by decide⟩ }

/-- The first arrow up goes to the first line, and the second one on into the history. -/
theorem arrows_move_or_ask_sample : ∃ t u,
    Run strike twoLines [⟨.key .up 1, twoLines, (), t⟩, ⟨.key .up 1, t, (), u⟩] u ∧
      calledBy ⟨.key .up 1, twoLines, (), t⟩ = [] ∧ t.buffer.row = 0 ∧ t.buffer.place = 1 ∧
      u.buffer.text = "git commit".toList ∧ u.buffer.point = 10 := by
  obtain ⟨hends, hall⟩ := arrows_move_or_ask
  obtain ⟨t, ht⟩ := hends twoLines _ .up 1 rfl (.inl (by decide))
  have ht' := ht
  rw [strike_inside rfl (a := .up) (by decide)] at ht'
  cases ht'
  obtain ⟨u, hu⟩ := hends { twoLines with buffer := twoLines.buffer.up 1 } _ .up 1 rfl
    (.inr ⟨_, _, rfl, rfl, rfl, rfl⟩)
  have hrun := Run.cons ht (.cons hu (.nil u))
  have hmoved := ((hall _ _ _ _ rfl hrun _ List.mem_cons_self).2 .up 1 rfl).1 (by decide)
  have hasked := ((hall _ _ _ _ rfl hrun _ (List.mem_cons_of_mem _ List.mem_cons_self)).2
    .up 1 rfl).2 (show '\n' ∉ (twoLines.buffer.up 1).before by decide)
  have htold : (twoLines.shell.host.upcoming (.backend "move")).told? =
      some ⟨"10", "git commit"⟩ := by
    decide +kernel
  have hanswered := hasked.answered _ htold
  exact ⟨_, u, hrun, hmoved.called, rfl, rfl, hanswered⟩

end Repl
end ShellHistory

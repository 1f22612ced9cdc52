import ShellHistory.Navigation
import ShellHistory.Proofs.Process

/-! What the history program answers, told from its process alone, and all that can come of a step
through the history. The id is what stands before the first `|`. -/

namespace ShellHistory

open Act

namespace Text

theorem dropTerminator_append {d : Char} (hn : d ≠ '\n') (hr : d ≠ '\r') (a s : List Char) :
    dropTerminator (a ++ d :: s) = a ++ d :: dropTerminator s := by
  obtain ⟨t, rfl⟩ : ∃ t, s = t.reverse := ⟨s.reverse, s.reverse_reverse.symm⟩
  have e : (a ++ d :: t.reverse).reverse = t ++ d :: a.reverse := by simp
  unfold dropTerminator
  rw [e, List.reverse_reverse]
  -- the terminator has at most two characters, and `d` is neither of them
  rcases t with _ | ⟨x, _ | ⟨y, t⟩⟩
  · split
    · next h => exact absurd (List.cons.inj h).1 hn
    · next h => exact absurd (List.cons.inj h).1 hn
    · rfl
  · by_cases hx : x = '\n'
    · subst hx
      split
      · next h => exact absurd (List.cons.inj (List.cons.inj h).2).1 hr
      · next h => rw [← (List.cons.inj h).2]; simp
      · next h => exact absurd rfl (h _)
    · split
      · next h => exact absurd (List.cons.inj h).1 hx
      · next h => exact absurd (List.cons.inj h).1 hx
      · simp [hx]
  · by_cases hx : x = '\n'
    · subst hx
      by_cases hy : y = '\r'
      · subst hy
        simp
      · simp [hy]
    · simp [hx]

theorem mem_of_mem_dropTerminator {c : Char} {s : List Char} (h : c ∈ dropTerminator s) : c ∈ s := by
  unfold dropTerminator at h
  split at h
  · next rest he => exact List.mem_reverse.1 (he ▸ by simp_all)
  · next rest he => exact List.mem_reverse.1 (he ▸ by simp_all)
  · exact h

theorem takeWhile_dropWhile_of_notMem {d : Char} {a s : List Char} (h : d ∉ a) :
    (a ++ d :: s).takeWhile (· ≠ d) = a ∧ (a ++ d :: s).dropWhile (· ≠ d) = d :: s := by
  induction a with
  | nil => simp
  | cons x a ih =>
    simp only [List.mem_cons, not_or] at h
    have hx : x ≠ d := fun e => h.1 e.symm
    obtain ⟨h1, h2⟩ := ih h.2
    rw [List.cons_append, List.takeWhile_cons_of_pos (by simpa using hx),
      List.dropWhile_cons_of_pos (by simpa using hx), h1, h2]
    exact ⟨rfl, rfl⟩

end Text

namespace Outcome

/-- The answer to a step: the process has to end well and to print a `|`. The line is what stands
behind the first one, less one line terminator. -/
def told? : Outcome → Option Entry
  | .exited ⟨stdout, _, status⟩ =>
    if status = 0 ∧ '|' ∈ stdout.toList then
      some ⟨String.ofList (stdout.toList.takeWhile (· ≠ '|')),
        String.ofList (Text.dropTerminator (stdout.toList.dropWhile (· ≠ '|')).tail)⟩
    else none
  | _ => none

end Outcome

theorem Entry.cut?_dropTerminator (s : List Char) :
    Entry.cut? '|' (Text.dropTerminator s) =
      if '|' ∈ s then
        some ⟨String.ofList (s.takeWhile (· ≠ '|')),
          String.ofList (Text.dropTerminator (s.dropWhile (· ≠ '|')).tail)⟩
      else none := by
  by_cases hs : '|' ∈ s
  · obtain ⟨a, t, rfl, ha⟩ := List.eq_append_cons_of_mem hs
    obtain ⟨h1, h2⟩ := Text.takeWhile_dropWhile_of_notMem (s := t) ha
    have hc : Text.cut? '|' (a ++ '|' :: Text.dropTerminator t) = some (a, Text.dropTerminator t) :=
      Text.cut?_eq_some_iff.2 ⟨rfl, ha⟩
    rw [if_pos hs, Text.dropTerminator_append (by decide) (by decide), Entry.cut?, hc, h1, h2]
    rfl
  · have hd : '|' ∉ Text.dropTerminator s := by
      intro h
      exact hs (Text.mem_of_mem_dropTerminator h)
    rw [if_neg hs, Entry.cut?, Text.cut?_eq_none_iff.2 hd]
    rfl

/-- A result is that of a process that has answered exactly when it is a success and its output reads
as an entry. -/
theorem told?_of_resultOf {argv : List String} {o : Outcome} {r : Backend.Result}
    (h : Backend.resultOf argv true o = some r) :
    o.told? = if r.success then Entry.cut? '|' (Text.dropTerminator r.stdout.toList) else none := by
  rw [Entry.cut?_dropTerminator]
  cases o with
  | exited e =>
    cases h
    by_cases h0 : e.status = 0 <;> simp [Outcome.told?, Backend.Result.success, h0]
  | refused e =>
    cases h
    rfl
  | interrupted | garbled => cases h

theorem Move.role_of_call? {m : Move} {args : List String} {b : Backend} {session : Option Session}
    {captured : Bool} {e : Environment} {call : Call} (h : m.args? = some args)
    (hc : b.call? args session captured e = .ok call) : call.job.role = .backend "move" := by
  obtain ⟨binary, -, -, hjob⟩ := Backend.call?_ok hc
  rw [hjob]
  unfold Move.args? at h
  split at h
  · cases h
    rfl
  · cases h

namespace Navigation

def Outcome.line? : Outcome → Option String
  | .replaced line => some line
  | .bypass | .unchanged => none

/-- What becomes of the line when the history program answers so. -/
def Outcome.of : Option Entry → Outcome
  | some e => .replaced e.line
  | none => .unchanged

end Navigation

def Context.told (c : Context) : Option Entry → Context
  | some e => { c with cursor := e.id }
  | none => c

namespace Navigation

/-- All that can come of a step: a move within the line, a step that is refused before there is a
process, one whose process is broken off or cannot be read, or one whose process ends. -/
inductive Stepped (b : Backend) (c : Context) (direction : Int) (buffer : String)
    (probe : Option String) (h : Host) : EStateM.Result Failure Host (Outcome × Context) → Prop
  | bypass : '\n' ∈ (probe.getD buffer).toList →
      Stepped b c direction buffer probe h (.ok (.bypass, c) h)
  | refused {f : Failure} : '\n' ∉ (probe.getD buffer).toList →
      Stepped b c direction buffer probe h (.error f h)
  | interrupted {call : Call} : '\n' ∉ (probe.getD buffer).toList →
      h.next call = .interrupted →
      Stepped b c direction buffer probe h (.error .interrupted (h.after call))
  | garbled {call : Call} {status : Int} : '\n' ∉ (probe.getD buffer).toList →
      h.next call = .garbled status →
      Stepped b c direction buffer probe h (.error .encoding (h.after call))
  | ended {args : List String} {call : Call} {records : List Record} :
      '\n' ∉ (probe.getD buffer).toList → (request c direction buffer).args? = some args →
      b.call? args (some c.session) true h.environ = .ok call → h.untold? call = none →
      Stepped b c direction buffer probe h
        (.ok (.of (h.next call).told?, c.told (h.next call).told?)
          { h.after call with records := records })

theorem step_stepped (b : Backend) (c : Context) (direction : Int) (buffer : String)
    (probe : Option String) (h : Host) :
    Stepped b c direction buffer probe h (step b c direction buffer probe h) := by
  unfold step
  by_cases hn : '\n' ∈ (probe.getD buffer).toList
  · rw [if_pos (by simpa using hn)]
    exact .bypass hn
  rw [if_neg (by simpa using hn)]
  cases ha : (request c direction buffer).args? with
  | none =>
    have hm : b.move (request c direction buffer) (some c.session) h =
        .error (.direction direction) h := by
      rw [Backend.move, ha]
      rfl
    rw [bind_of_error hm]
    exact .refused hn
  | some args =>
    have hm : b.move (request c direction buffer) (some c.session) =
        b.run args (some c.session) true := by
      rw [Backend.move, ha]
      rfl
    rw [hm]
    generalize hr : b.run args (some c.session) true h = x
    cases hr ▸ b.run_called args (some c.session) true h with
    | unusable | untold =>
      rw [bind_of_error hr]
      exact .refused hn
    | interrupted _ _ ho =>
      rw [bind_of_error hr]
      exact .interrupted hn ho
    | garbled _ _ ho =>
      rw [bind_of_error hr]
      exact .garbled hn ho
    | @ended call r records hc hu ho =>
      have ht := told?_of_resultOf ho
      have he (records : List Record) : Stepped b c direction buffer probe h
          (.ok (.of (h.next call).told?, c.told (h.next call).told?)
            { h.after call with records := records }) := .ended hn ha hc hu
      rw [bind_of_ok hr]
      by_cases hs : r.success
      · rw [if_pos hs] at ht
        rw [if_neg (by simp [hs])]
        cases hq : Entry.cut? '|' (Text.dropTerminator r.stdout.toList) with
        | some e =>
          rw [ht, hq] at he
          simp only [Reply.ofText, hq]
          exact he records
        | none =>
          rw [ht, hq] at he
          simp only [Reply.ofText, hq]
          obtain ⟨records', hl⟩ := Host.log_apply .debug source
            ("ignoring malformed move reply: " ++ Text.literal r.stdout) none
            { h.after call with records := records }
          rw [bind_of_ok hl]
          exact he records'
      · rw [if_neg hs] at ht
        rw [if_pos (by simp [hs])]
        rw [ht] at he
        exact he records

section Stepped

variable {b : Backend} {c : Context} {direction : Int} {buffer : String} {probe : Option String}
  {h : Host} {x : EStateM.Result Failure Host (Outcome × Context)}

/-- A step prints nothing, and leaves both environments alone. -/
theorem Stepped.host (hx : Stepped b c direction buffer probe h x) :
    (endOf x).out = h.out ∧ (endOf x).environ = h.environ ∧
      (endOf x).login = h.login := by
  cases hx <;> exact ⟨rfl, rfl, rfl⟩

/-- The cursor moves with the line, and nothing else of the context changes. -/
theorem Stepped.context {o : Outcome} {after : Context} {h' : Host}
    (hx : Stepped b c direction buffer probe h (.ok (o, after) h')) :
    after = { c with cursor := after.cursor } ∧ (o.line? = none → after = c) := by
  generalize hy : EStateM.Result.ok (o, after) h' = y at hx
  cases hx with
  | bypass =>
    cases hy
    exact ⟨rfl, fun _ => rfl⟩
  | @ended args call =>
    cases hy
    cases (h.next call).told? with
    | none => exact ⟨rfl, fun _ => rfl⟩
    | some e => exact ⟨rfl, nofun⟩
  | refused => cases hy
  | interrupted | garbled => cases hy

end Stepped

end Navigation
end ShellHistory

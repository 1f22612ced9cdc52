import ShellHistory.Proofs.Frame

/-! A shell whose history is in use. Whatever happens to it, it stays one, and before each of its
prompts the walk through the history is ended. -/

namespace ShellHistory

open Act

namespace Shell

section Idle

variable {s t : Shell} {i : Integration}

theorem cursor?_idle (h : Walk.cursor? s = some "") (number : Nat) :
    Walk.cursor? (s.idle number) = some "" := by
  obtain ⟨i, hi, hc⟩ := Option.map_eq_some_iff.1 h
  simp only [Walk.cursor?, idle, hi, Option.map_some]
  split
  · rfl
  · rw [hc]

theorem cursor?_idle_self (hi : s.integration = some i) :
    Walk.cursor? (s.idle i.number) = some "" := by
  simp only [Walk.cursor?, idle, hi, Option.map_some, if_true]

theorem callSafely_integration (k : Hook) (args : List String) (s : Shell) :
    (endOf (callSafely k args s)).integration = (endOf (call k args s)).integration := by
  unfold callSafely
  generalize call k args s = x
  split
  · rfl
  · rfl
  · rw [endOf_onHost]
    rfl

theorem call_integration (k : Hook) (args : List String) (s : Shell) :
    (endOf (call k args s)).integration = s.integration ∨
      ∃ number, (endOf (call k args s)).integration = (s.idle number).integration := by
  obtain ⟨name, event, action⟩ := k
  cases action with
  | capture session =>
    left
    rcases args with _ | ⟨line, _ | ⟨other, more⟩⟩
    · rfl
    · rw [endOf_call_capture]
    · rfl
  | reset number =>
    rcases args with _ | ⟨line, more⟩
    · exact .inr ⟨number, by rw [call_reset]; rfl⟩
    · exact .inl rfl
  | observe ending adds =>
    left
    rw [call_observe, endOf_closed]

theorem callSafely_idle {k : Hook} {args : List String} (h : Walk.cursor? s = some "") :
    Walk.cursor? (endOf (callSafely k args s)) = some "" := by
  rw [Walk.cursor?, callSafely_integration]
  obtain he | ⟨number, he⟩ := call_integration k args s
  · rw [he]
    exact h
  · rw [he]
    exact cursor?_idle h number

theorem callSafely_reset {k : Hook} (hi : s.integration = some i) (hk : k.action = .reset i.number) :
    Walk.cursor? (endOf (callSafely k [] s)) = some "" := by
  obtain ⟨name, event, action⟩ := k
  subst hk
  rw [Walk.cursor?, callSafely_integration, call_reset]
  exact cursor?_idle_self hi

/-- No walk goes on behind a firing that has ended one, wherever its hook stands. -/
theorem callAll_idle {hooks : List Hook} (h : callAll [] hooks s = .ok () t)
    (hs : Walk.cursor? s = some "" ∨
      ∃ i, s.integration = some i ∧ ∃ k ∈ hooks, k.action = .reset i.number) :
    Walk.cursor? t = some "" := by
  induction hooks using callAll.induct generalizing s with
  | case1 =>
    rw [callAll] at h
    cases h
    obtain hs | ⟨i, -, k, hk, -⟩ := hs
    · exact hs
    · cases hk
  | case2 k rest ih =>
    rw [callAll] at h
    obtain ⟨_, u, hu, h⟩ := bind_ok h
    refine ih h ?_
    obtain hs | ⟨i, hi, k', hk', hreset⟩ := hs
    · left
      have hidle : Walk.cursor? (endOf (callSafely k [] s)) = some "" := callSafely_idle hs
      rwa [hu] at hidle
    · rcases List.mem_cons.1 hk' with rfl | hk'
      · left
        have hidle := callSafely_reset hi hreset
        rwa [hu] at hidle
      · right
        have hheard := callSafely_heard (k.stores_true s.backend s.host.environ) []
        rw [hu] at hheard
        obtain ⟨j, hj, hij⟩ := hheard.toTouched.exists_integration hi
        have hnumber : j.steady.number = i.steady.number := by rw [hij]
        exact ⟨j, hj, k', List.mem_append_left _ hk', hreset.trans (congrArg _ hnumber.symm)⟩

end Idle

end Shell

namespace Repl

/-- A shell whose history is in use: its integration is reset before every prompt, and it will not be
set up anew. -/
structure Active (r : Repl) : Prop where
  reset : ∃ i, r.shell.integration = some i ∧
    ∃ k ∈ r.shell.registry.hooks .precmd, k.action = .reset i.number
  isDone : Setup.isDone r.environ = true
  selector : ∃ words, Search.selectorWords r.config.selector = .ok words

theorem Active.of_touched {P : Call → Prop} {r t : Repl} (hr : Active r)
    (ht : Shell.Touched P r.shell t.shell) (hc : t.config = r.config) : Active t where
  reset := by
    obtain ⟨i, hi, k, hk, hreset⟩ := hr.reset
    obtain ⟨j, hj, hij⟩ := ht.exists_integration hi
    obtain ⟨more, hmore, -⟩ := ht.hooks .precmd
    have hnumber : j.steady.number = i.steady.number := by rw [hij]
    refine ⟨j, hj, k, by rw [hmore]; exact List.mem_append_left more hk, ?_⟩
    exact hreset.trans (congrArg _ hnumber.symm)
  isDone := (congrArg Setup.isDone ht.environ).trans hr.isDone
  selector := by rw [hc]; exact hr.selector

theorem Active.of_unhooked {line : String} {r t : Repl} (hr : Active r) (hu : Unhooked line r t) :
    Active t where
  reset := by
    obtain ⟨h, hs⟩ := hu.host
    rw [hs]
    exact hr.reset
  isDone := hu.isDone.trans hr.isDone
  selector := by rw [hu.config]; exact hr.selector

theorem Active.execute {r : Repl} (hr : Active r) (line : String) :
    Active (endOf (execute line r)) := by
  have htouched : Shell.Touched (fun _ => True) r.shell
      (endOf (Shell.fire .preexec [line] r.shell)) :=
    Shell.fire_touched (fun k _ => k.stores_true _ _) [line]
  generalize hx : Repl.execute line r = x
  cases hx ▸ execute_executed line r with
  | blank => exact hr
  | broken _ hf =>
    rw [hf] at htouched
    exact hr.of_touched htouched rfl
  | @handled s _ _ hf hh =>
    rw [hf] at htouched
    exact (hr.of_touched (t := { r with shell := s }) htouched rfl).of_unhooked hh.unhooked

theorem fire_idle {r : Repl} {s : Shell} (hr : Active r)
    (h : Shell.fire .precmd [] r.shell = .ok () s) : Walk.cursor? s = some "" :=
  Shell.callAll_idle h (.inr hr.reset)

structure Going (home : Option Path) (r : Repl) : Prop where
  active : Active r
  home : r.home? = home

/-- The shell when its prompt loop begins. It may have been started again. -/
structure Opening (r t : Repl) : Prop where
  running : t.running = true
  lastExit : t.lastExit = r.lastExit
  prompts : t.prompts = r.prompts
  notes : t.shell.notes = r.shell.notes
  calls : t.shell.host.calls = r.shell.host.calls
  environ : t.environ = r.environ

/-- Starting a shell again that is set up does nothing but to look for the selector. -/
theorem start_opening {r : Repl} (hr : Active r) : ∃ a t, start r = .ok a t ∧ Opening r t ∧
    Going r.home? t := by
  cases hs : Shell.setUp r.config r.interactive r.shell with
  | error f s =>
    obtain ⟨words, hwords⟩ := hr.selector
    cases Shell.setUp_error hs with
    | unreadable hw => cases hwords.symm.trans hw
    | unanswered _ hd => cases hd.symm.trans hr.isDone
  | ok done s =>
    refine ⟨_, _, start_of_setUp hs, ?_⟩
    cases Shell.setUp_tried hs with
    | missing => exact ⟨⟨rfl, rfl, rfl, rfl, rfl, rfl⟩, ⟨hr.reset, hr.isDone, hr.selector⟩, rfl⟩
    | skipped => exact ⟨⟨rfl, rfl, rfl, rfl, rfl, rfl⟩, ⟨hr.reset, hr.isDone, hr.selector⟩, rfl⟩
    | done _ hd => cases hd.symm.trans hr.isDone

end Repl
end ShellHistory

import ShellHistory.Host

/-! Actions taken apart, and runs of steps none of which fails. What every step keeps holds all along
a run. -/

namespace ShellHistory.Act

variable {σ ι α β : Type}

@[simp] theorem pure_apply (a : α) (s : σ) : (pure a : Act σ α) s = .ok a s := rfl

@[simp] theorem modify_apply (g : σ → σ) (s : σ) : (modify g : Act σ Unit) s = .ok () (g s) := rfl

theorem bind_of_ok {x : Act σ α} {f : α → Act σ β} {s t : σ} {a : α} (h : x s = .ok a t) :
    (x >>= f) s = f a t := by
  change EStateM.bind x f s = _
  unfold EStateM.bind
  rw [h]

theorem bind_of_error {x : Act σ α} {f : α → Act σ β} {s t : σ} {e : Failure}
    (h : x s = .error e t) : (x >>= f) s = .error e t := by
  change EStateM.bind x f s = _
  unfold EStateM.bind
  rw [h]

/-- What is done after an action does not depend on how the action has come to its end. -/
theorem bind_eq_of_eq {x y : Act σ α} {s t : σ} (h : x s = y t) (f : α → Act σ β) :
    (x >>= f) s = (y >>= f) t := by
  change EStateM.bind x f s = EStateM.bind y f t
  unfold EStateM.bind
  rw [h]

@[simp] theorem get_bind (f : σ → Act σ α) (s : σ) : (get >>= f) s = f s s := rfl

@[simp] theorem modify_bind (g : σ → σ) (f : Unit → Act σ α) (s : σ) :
    (modify g >>= f) s = f () (g s) := rfl

@[simp] theorem throw_bind (e : Failure) (f : α → Act σ β) (s : σ) :
    ((throw e : Act σ α) >>= f) s = .error e s := rfl

@[simp] theorem ofExcept_ok (a : α) : (ofExcept (.ok a : Except Failure α) : Act σ α) = pure a := rfl

@[simp] theorem ofExcept_error (e : Failure) :
    (ofExcept (.error e : Except Failure α) : Act σ α) = throw e := rfl

/-- An action that ends well has done its parts one after the other. -/
theorem bind_ok {x : Act σ α} {f : α → Act σ β} {s t : σ} {b : β} (h : (x >>= f) s = .ok b t) :
    ∃ a u, x s = .ok a u ∧ f a u = .ok b t := by
  cases hx : x s with
  | ok a u => exact ⟨a, u, rfl, by rwa [bind_of_ok hx] at h⟩
  | error e u =>
    rw [bind_of_error hx] at h
    cases h

theorem except_bind_ok {ε : Type} {x : Except ε α} {f : α → Except ε β} {b : β}
    (h : x >>= f = .ok b) : ∃ a, x = .ok a ∧ f a = .ok b := by
  cases x with
  | error e => cases h
  | ok a => exact ⟨a, rfl, h⟩

/-- A computation that fails does so in its first part or in what comes after it. -/
theorem except_bind_error {ε : Type} {x : Except ε α} {f : α → Except ε β} {e : ε}
    (h : x >>= f = .error e) : x = .error e ∨ ∃ a, x = .ok a ∧ f a = .error e := by
  cases x with
  | error e' =>
    cases h
    exact .inl rfl
  | ok a => exact .inr ⟨a, rfl, h⟩

theorem except_map_error {ε : Type} {x : Except ε α} {f : α → β} {e : ε} (h : x.map f = .error e) :
    x = .error e := by
  cases x with
  | error e' =>
    cases h
    rfl
  | ok a => cases h

theorem ofExcept_bind_ok {x : Except Failure α} {f : α → Act σ β} {s t : σ} {b : β}
    (h : (ofExcept x >>= f) s = .ok b t) : ∃ a, x = .ok a ∧ f a s = .ok b t := by
  cases x with
  | ok a => exact ⟨a, rfl, h⟩
  | error e => cases h

theorem discard_of_ok {x : Act σ α} {s t : σ} {a : α} (h : x s = .ok a t) :
    (discard x : Act σ Unit) s = .ok () t := by
  change EStateM.map _ x s = _
  unfold EStateM.map
  rw [h]

theorem discard_of_error {x : Act σ α} {s t : σ} {e : Failure} (h : x s = .error e t) :
    (discard x : Act σ Unit) s = .error e t := by
  change EStateM.map _ x s = _
  unfold EStateM.map
  rw [h]

theorem discard_ok {x : Act σ α} {s t : σ} (h : (discard x : Act σ Unit) s = .ok () t) :
    ∃ a, x s = .ok a t := by
  cases hx : x s with
  | ok a u =>
    rw [discard_of_ok hx] at h
    cases h
    exact ⟨a, rfl⟩
  | error e u =>
    rw [discard_of_error hx] at h
    cases h

/-- The state in which an action ends, well or not. -/
def endOf : EStateM.Result Failure σ α → σ
  | .ok _ s | .error _ s => s

@[simp] theorem endOf_ok (a : α) (s : σ) : endOf (.ok a s : EStateM.Result Failure σ α) = s := rfl

@[simp] theorem endOf_error (f : Failure) (s : σ) :
    endOf (.error f s : EStateM.Result Failure σ α) = s := rfl

def quiet : EStateM.Result Failure σ α → EStateM.Result Failure σ Unit
  | .ok _ s => .ok () s
  | .error f s => .error f s

theorem discard_apply (x : Act σ α) (s : σ) : (discard x : Act σ Unit) s = quiet (x s) := by
  cases h : x s with
  | ok a t => exact discard_of_ok h
  | error f t => exact discard_of_error h

@[simp] theorem endOf_quiet (x : EStateM.Result Failure σ α) : endOf (quiet x) = endOf x := by
  cases x <;> rfl

@[simp] theorem endOf_discard (x : Act σ α) (s : σ) :
    endOf ((discard x : Act σ Unit) s) = endOf (x s) := by
  rw [discard_apply, endOf_quiet]

@[simp] theorem endOf_bind_pure (x : Act σ α) (g : α → β) (s : σ) :
    endOf ((x >>= fun a => pure (g a)) s) = endOf (x s) := by
  cases h : x s with
  | ok a t => rw [bind_of_ok h, pure_apply, endOf_ok, endOf_ok]
  | error f t => rw [bind_of_error h, endOf_error, endOf_error]

/-- What an action comes to, its state left aside. -/
def answerOf : EStateM.Result Failure σ α → Except Failure α
  | .ok a _ => .ok a
  | .error f _ => .error f

theorem answerOf_eq_ok_iff {x : EStateM.Result Failure σ α} {a : α} :
    answerOf x = .ok a ↔ ∃ t, x = .ok a t := by
  cases x with
  | ok b t => simp [answerOf]
  | error f t => simp [answerOf]

theorem answerOf_eq_error_iff {x : EStateM.Result Failure σ α} {f : Failure} :
    answerOf x = .error f ↔ ∃ t, x = .error f t := by
  cases x with
  | ok b t => simp [answerOf]
  | error g t => simp [answerOf]

/-- What one step of a run did: the states around it, and its answer. -/
structure Stage (σ ι α : Type) where
  step : ι
  before : σ
  answer : α
  after : σ

/-- Steps done one after the other, none of which fails. -/
inductive Run (act : ι → Act σ α) : σ → List (Stage σ ι α) → σ → Prop
  | nil (s : σ) : Run act s [] s
  | cons {i : ι} {a : α} {s t u : σ} {rest : List (Stage σ ι α)} :
      act i s = .ok a t → Run act t rest u → Run act s (⟨i, s, a, t⟩ :: rest) u

def succeed (act : ι → Act σ α) : List ι → σ → Bool
  | [], _ => true
  | i :: rest, s =>
    match act i s with
    | .ok _ t => succeed act rest t
    | .error _ _ => false

/-- What is tracked along a run, and related to the state by every step, is so before every step and
at the end. -/
theorem Run.tracked {κ : Type} (track : κ → Stage σ ι α → κ) {act : ι → Act σ α} {R : κ → σ → Prop}
    (hstep : ∀ {k i s a t}, R k s → act i s = .ok a t → R (track k ⟨i, s, a, t⟩) t)
    {s u : σ} {run : List (Stage σ ι α)} (h : Run act s run u) {k : κ} (hk : R k s) :
    R (run.foldl track k) u ∧ ∀ pre g post, run = pre ++ g :: post →
      R (pre.foldl track k) g.before ∧ act g.step g.before = .ok g.answer g.after := by
  induction h generalizing k with
  | nil s => exact ⟨hk, fun pre g post he => absurd he (by simp)⟩
  | cons ha hr ih =>
    obtain ⟨hu, hpre⟩ := ih (hstep hk ha)
    refine ⟨hu, fun pre g post he => ?_⟩
    rcases pre with _ | ⟨p, pre⟩
    · obtain ⟨rfl, -⟩ := List.cons.inj he
      exact ⟨hk, ha⟩
    · obtain ⟨rfl, hrest⟩ := List.cons.inj he
      exact hpre pre g post hrest

theorem forM_cons_apply (act : ι → Act σ Unit) (i : ι) (rest : List ι) (s : σ) :
    (i :: rest).forM act s = (act i >>= fun _ => rest.forM act) s := rfl

theorem forM_ok {act : ι → Act σ Unit} {steps : List ι} {s t : σ}
    (h : steps.forM act s = .ok () t) : ∃ run, Run act s run t ∧ run.map Stage.step = steps := by
  induction steps generalizing s with
  | nil =>
    cases h
    exact ⟨[], .nil t, rfl⟩
  | cons i rest ih =>
    rw [forM_cons_apply] at h
    obtain ⟨_, u, ha, h⟩ := bind_ok h
    obtain ⟨run, hr, hsteps⟩ := ih h
    exact ⟨_, .cons ha hr, congrArg (i :: ·) hsteps⟩

/-- Steps that are not all done are a run up to one that fails. -/
theorem forM_error {act : ι → Act σ Unit} {steps : List ι} {s u : σ} {f : Failure}
    (h : steps.forM act s = .error f u) : ∃ run t i, Run act s run t ∧
      run.map Stage.step ++ [i] <+: steps ∧ act i t = .error f u := by
  induction steps generalizing s with
  | nil => cases h
  | cons i rest ih =>
    rw [forM_cons_apply] at h
    cases ha : act i s with
    | error g t =>
      rw [bind_of_error ha] at h
      cases h
      exact ⟨[], s, i, .nil s, by simp, ha⟩
    | ok a t =>
      rw [bind_of_ok ha] at h
      obtain ⟨run, v, j, hr, hsteps, hj⟩ := ih h
      exact ⟨_, v, j, .cons ha hr, List.cons_prefix_cons.2 ⟨rfl, hsteps⟩, hj⟩

/-- A run can be broken off anywhere, and goes on from where it has got to. -/
theorem Run.split {act : ι → Act σ α} {s u : σ} {pre post : List (Stage σ ι α)}
    (h : Run act s (pre ++ post) u) : ∃ t, Run act s pre t ∧ Run act t post u := by
  induction pre generalizing s with
  | nil => exact ⟨s, .nil s, h⟩
  | cons g pre ih =>
    cases h with
    | cons ha hr =>
      obtain ⟨t, hpre, hpost⟩ := ih hr
      exact ⟨t, .cons ha hpre, hpost⟩

end ShellHistory.Act

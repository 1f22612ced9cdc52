import ShellHistory.Proofs.Operations

/-! The arguments of a step through the history, read back. Arguments alone do not tell a prefix from
a configured argument that looks like one; but the steps that are asked for have a prefix exactly when
they have no cursor, and so everything in them but the session is told by their arguments. -/

namespace ShellHistory

open Act

namespace Move

def opening : List String := ["move", "--with-id", "--session"]

def typedArgs (typed : Option String) : List String :=
  (typed.map fun typed => "--prefix=" ++ typed).toList

/-- The arguments in front of the `--` that separates them from direction and cursor. -/
def flags (m : Move) : List String := opening ++ typedArgs m.typed ++ m.extra

def directionOf? (s : String) : Option Int :=
  if s = toString previous then some previous
  else if s = toString next then some next
  else none

def typedOf (arg : String) : String := String.ofList (arg.toList.drop "--prefix=".toList.length)

/-- What stands behind the opening: what was typed comes first, if there is no cursor. -/
def restOf? (cursor : String) (rest : List String) : Option (Option String × List String) :=
  if cursor ≠ "" then some (none, rest)
  else match rest with
    | arg :: extra => some (some (typedOf arg), extra)
    | [] => none

/-- Reads a step from its arguments, from their end, where the cursor is. The session is not in
them. -/
def ofArgs? (args : List String) : Option Move :=
  match args.reverse with
  | cursor :: direction :: _ :: flags => do
    let direction ← directionOf? direction
    let (typed, extra) ← restOf? cursor (flags.reverse.drop opening.length)
    return ⟨direction, "", cursor, typed, extra⟩
  | _ => none

variable {m : Move} {args : List String}

theorem args?_eq_some_iff : m.args? = some args ↔
    (m.direction = previous ∨ m.direction = next) ∧
      args = m.flags ++ ["--", toString m.direction, m.cursor] := by
  unfold args?
  split
  · next hd => exact ⟨fun h => ⟨hd, (Option.some.inj h).symm⟩, fun h => congrArg some h.2.symm⟩
  · next hd => exact ⟨nofun, fun h => absurd h.1 hd⟩

theorem args?_eq_none_iff : m.args? = none ↔ m.direction ≠ previous ∧ m.direction ≠ next := by
  unfold args?
  split
  · next hd => exact ⟨nofun, fun h => absurd hd (not_or.2 h)⟩
  · next hd => exact iff_of_true rfl (not_or.1 hd)

theorem directionOf?_toString {direction : Int} (h : direction = previous ∨ direction = next) :
    directionOf? (toString direction) = some direction := by
  rcases h with rfl | rfl <;> decide

theorem typedOf_given (typed : String) : typedOf ("--prefix=" ++ typed) = typed := by
  rw [typedOf, String.toList_append, List.drop_left, String.ofList_toList]

theorem restOf?_typedArgs (hm : m.typed.isSome ↔ m.cursor = "") :
    restOf? m.cursor (typedArgs m.typed ++ m.extra) = some (m.typed, m.extra) := by
  unfold restOf?
  cases ht : m.typed with
  | none =>
    rw [ht] at hm
    rw [if_pos fun hc => absurd (hm.2 hc) Bool.false_ne_true]
    rfl
  | some typed =>
    rw [ht] at hm
    rw [if_neg fun hc => hc (hm.1 rfl)]
    change some (some (typedOf ("--prefix=" ++ typed)), m.extra) = _
    rw [typedOf_given]

/-- A step that has a prefix exactly when it has no cursor is read back from its arguments, whatever
the configured ones look like. -/
theorem ofArgs?_of_args? (hm : m.typed.isSome ↔ m.cursor = "") (h : m.args? = some args) :
    ofArgs? args = some { m with session := "" } := by
  obtain ⟨hd, rfl⟩ := args?_eq_some_iff.1 h
  have hreverse : (m.flags ++ ["--", toString m.direction, m.cursor]).reverse =
      m.cursor :: toString m.direction :: "--" :: m.flags.reverse := by
    rw [List.reverse_append]
    rfl
  have hrest : m.flags.drop opening.length = typedArgs m.typed ++ m.extra := by
    rw [flags, List.append_assoc, List.drop_left]
  unfold ofArgs?
  rw [hreverse]
  dsimp only
  rw [directionOf?_toString hd, List.reverse_reverse, hrest, Option.bind_eq_bind, Option.bind_some,
    restOf?_typedArgs hm]
  rfl

/-- Without the tie between prefix and cursor, two steps can have the same arguments. -/
example : args? ⟨previous, "", "7", some "ls", []⟩ = args? ⟨previous, "", "7", none, ["--prefix=ls"]⟩ :=
  rfl

/-- What was typed and the opening are never the `--`, so the first `--` is the one in front of the
direction unless one is configured. -/
theorem notMem_flags (h : "--" ∉ m.extra) : "--" ∉ m.flags := by
  unfold flags typedArgs
  rw [List.mem_append, List.mem_append, not_or, not_or]
  refine ⟨⟨by decide, fun hm => ?_⟩, h⟩
  obtain ⟨typed, -, ht⟩ := Option.map_eq_some_iff.1 (Option.mem_toList.1 hm)
  exact absurd (congrArg String.toList ht) (by simp)

end Move

namespace Navigation

variable {c c' : Context} {direction direction' : Int} {buffer buffer' : String} {args : List String}

/-- A step that is asked for has a prefix exactly when there is no walk to go on with. -/
theorem isSome_typed_request : (request c direction buffer).typed.isSome ↔ c.cursor = "" := by
  by_cases hc : c.cursor = "" <;> simp [request, Context.isWalking, hc]

theorem flags_request : (request c direction buffer).flags =
    Move.opening ++ (if c.cursor = "" then ["--prefix=" ++ buffer] else []) ++ c.config.moveArgs := by
  by_cases hc : c.cursor = "" <;> simp [request, Context.isWalking, Move.flags, Move.typedArgs, hc]

theorem ofArgs?_request (h : (request c direction buffer).args? = some args) :
    Move.ofArgs? args = some { request c direction buffer with session := "" } :=
  Move.ofArgs?_of_args? isSome_typed_request h

/-- The first `--` separates the flags from direction and cursor, unless one is configured. -/
theorem split_request (hd : direction = Move.previous ∨ direction = Move.next)
    (hm : "--" ∉ c.config.moveArgs) : ∃ args, (request c direction buffer).args? = some args ∧
      args.takeWhile (· ≠ "--") = (request c direction buffer).flags ∧
      args.dropWhile (· ≠ "--") = ["--", toString direction, c.cursor] := by
  have hflags : ∀ arg ∈ (request c direction buffer).flags, decide (arg ≠ "--") = true :=
    fun arg ha => decide_eq_true fun he =>
      Move.notMem_flags (m := request c direction buffer) hm (he ▸ ha)
  refine ⟨_, Move.args?_eq_some_iff.2 ⟨hd, rfl⟩, ?_, ?_⟩
  · rw [List.takeWhile_append_of_pos hflags]
    simp
  · rw [List.dropWhile_append_of_pos hflags]
    simp [request]

/-- A step without arguments is refused before there is a process. -/
theorem step_of_args?_eq_none {probe : Option String}
    (h : (request c direction buffer).args? = none) (hn : '\n' ∉ (probe.getD buffer).toList)
    (b : Backend) (host : Host) :
    step b c direction buffer probe host = .error (.direction direction) host := by
  have hm : b.move (request c direction buffer) (some c.session) host =
      .error (.direction direction) host := by
    rw [Backend.move, h]
    rfl
  unfold step
  rw [if_neg (by simpa using hn), bind_of_error hm]

end Navigation

namespace Shell

variable {i : Integration} {direction : Int} {buffer : String} {probe : Option String} {s : Shell}

theorem navigate_of_step {o : Navigation.Outcome} {c : Context} {h : Host}
    (hstep : Navigation.step s.backend i.context direction buffer probe s.host = .ok (o, c) h) :
    navigate i direction buffer probe s = .ok o
      { s with host := h, integration := s.integration.map fun j => { j with context := c } } := by
  unfold navigate
  rw [get_bind, bind_of_ok (onHost_of_ok hstep)]
  rfl

/-- Where the probed text has line breaks, nothing is asked for and nothing changes. -/
theorem navigate_of_mem (hn : '\n' ∈ (probe.getD buffer).toList) (hi : s.integration = some i) :
    navigate i direction buffer probe s = .ok .bypass s := by
  have hstep : Navigation.step s.backend i.context direction buffer probe s.host =
      .ok (.bypass, i.context) s.host := by
    unfold Navigation.step
    rw [if_pos (by simpa using hn)]
    rfl
  rw [navigate_of_step hstep, hi, Option.map_some, ← hi]

theorem navigate_of_args?_eq_none (h : (Navigation.request i.context direction buffer).args? = none)
    (hn : '\n' ∉ (probe.getD buffer).toList) (s : Shell) :
    navigate i direction buffer probe s = .error (.direction direction) s := by
  have hstep := Navigation.step_of_args?_eq_none h hn s.backend s.host
  unfold navigate
  rw [get_bind, bind_of_error (onHost_of_error hstep)]

end Shell

namespace Navigation

/-- Whatever has been typed and whatever is configured, a step can be told from its arguments: two
steps that have the same ones go in the same direction from the same cursor, with the same prefix and
the same configured arguments, because there is a prefix exactly when there is no cursor. If no `--` is
configured, the first one is followed by direction and cursor alone, and what was typed is in front of
it, inside one flag. A step of another size has no arguments, and neither the context nor anything else
of the shell is changed by asking for it. -/
theorem told_by_arguments :
    (∀ c direction buffer, (request c direction buffer).typed.isSome ↔ c.cursor = "") ∧
    (∀ c direction buffer, direction = Move.previous ∨ direction = Move.next →
      ∃ args, (request c direction buffer).args? = some args ∧
        Move.ofArgs? args = some { request c direction buffer with session := "" }) ∧
    (∀ c c' direction direction' buffer buffer' args,
      (request c direction buffer).args? = some args →
      (request c' direction' buffer').args? = some args →
      direction = direction' ∧ c.cursor = c'.cursor ∧
        (request c direction buffer).typed = (request c' direction' buffer').typed ∧
        c.config.moveArgs = c'.config.moveArgs) ∧
    (∀ c direction buffer, direction = Move.previous ∨ direction = Move.next →
      "--" ∉ c.config.moveArgs → ∃ args, (request c direction buffer).args? = some args ∧
        args.takeWhile (· ≠ "--") = Move.opening ++
          (if c.cursor = "" then ["--prefix=" ++ buffer] else []) ++ c.config.moveArgs ∧
        args.dropWhile (· ≠ "--") = ["--", toString direction, c.cursor]) ∧
    (∀ m : Move, m.direction ≠ Move.previous → m.direction ≠ Move.next → m.args? = none ∧
      ∀ b session h, Backend.move b m session h = .error (.direction m.direction) h) ∧
    ∀ direction buffer probe i s, direction ≠ Move.previous → direction ≠ Move.next →
      s.integration = some i → Shell.navigate i direction buffer probe s =
        if '\n' ∈ (probe.getD buffer).toList then .ok .bypass s
        else .error (.direction direction) s := by
  refine ⟨fun _ _ _ => isSome_typed_request, fun c direction buffer hd => ?_,
    fun c c' direction direction' buffer buffer' args h h' => ?_, fun c direction buffer hd hm => ?_,
    fun m hp hn => ?_, fun direction buffer probe i s hp hn hi => ?_⟩
  · have h : (request c direction buffer).args? = some _ := Move.args?_eq_some_iff.2 ⟨hd, rfl⟩
    exact ⟨_, h, ofArgs?_request h⟩
  · have heq := Option.some.inj ((ofArgs?_request h).symm.trans (ofArgs?_request h'))
    exact ⟨congrArg Move.direction heq, congrArg Move.cursor heq, (congrArg Move.typed heq :),
      congrArg Move.extra heq⟩
  · rw [← flags_request]
    exact split_request hd hm
  · have h := Move.args?_eq_none_iff.2 ⟨hp, hn⟩
    refine ⟨h, fun b session host => ?_⟩
    rw [Backend.move, h]
    rfl
  · split
    · next hmem => exact Shell.navigate_of_mem hmem hi
    · next hmem =>
      exact Shell.navigate_of_args?_eq_none (Move.args?_eq_none_iff.2 ⟨hp, hn⟩) hmem s

/-- A context whose configured arguments look like a prefix and like the separator. -/
def misleading (token cursor : String) : Context :=
  ⟨⟨token, none⟩, { Config.default with moveArgs := ["--", "--prefix=a"] }, cursor, none⟩

def asking (typed : String) (direction : Int) :
    EStateM.Result Failure Shell Outcome :=
  let i := ⟨0, ⟨⟨"t", none⟩, .default, "", none⟩, true⟩
  Shell.navigate i direction typed none
    { Shell.create (Host.scripted .empty []) .default with integration := some i }

/-- Arguments that mislead are read back, a typed `--` is no separator, and a step of two is refused. -/
theorem told_by_arguments_sample :
    Move.ofArgs? ["move", "--with-id", "--session", "--prefix=ls", "--", "--prefix=a", "--", "-1", ""]
        = some ⟨-1, "", "", some "ls", ["--", "--prefix=a"]⟩ ∧
      (request (misleading "t" "--") 1 "a").typed = (request (misleading "u" "--") 1 "b").typed ∧
      ["move", "--with-id", "--session", "--prefix=--", "--", "-1", ""].dropWhile (· ≠ "--") =
        ["--", "-1", ""] ∧
      (request (misleading "t" "7") 2 "ls").args? = none ∧
      Act.answerOf (asking "ls" 2) = .error (.direction 2) := by
  obtain ⟨-, htold, hsame, hsplit, hrefused, hshell⟩ := told_by_arguments
  refine ⟨?_, (hsame (misleading "t" "--") (misleading "u" "--") 1 1 "a" "b" _ rfl rfl).2.2.1, ?_,
    (hrefused _ (by decide) (by decide)).1, ?_⟩
  · obtain ⟨args, ha, ht⟩ := htold (misleading "t" "") (-1) "ls" (.inl rfl)
    cases ha
    exact ht
  · obtain ⟨args, ha, -, ht⟩ :=
      hsplit ⟨⟨"t", none⟩, .default, "", none⟩ (-1) "--" (.inl rfl) (by decide)
    cases ha
    exact ht
  · rw [asking, hshell 2 "ls" none _ _ (by decide) (by decide) rfl]
    rfl

end Navigation
end ShellHistory

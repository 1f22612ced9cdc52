import ShellHistory.Proofs.Started

/-! The session that is handed on. It is laid over the environment, and what an overlay does not name
shows through it: a session whose start nobody knows is carried with the start that was there before,
and then the session that is carried is not the one that was found. -/

namespace ShellHistory

open Act Host

/-- Variables that are laid over an environment hide what is below them, and nothing else. -/
theorem Environment.get?_merge {added : List (String × String)} (h : (added.map Prod.fst).Nodup)
    (e : Environment) (name : String) :
    (e.merge ⟨added⟩).get? name = (added.lookup name).or (e.get? name) := by
  unfold merge
  induction added generalizing e with
  | nil => rfl
  | cons v rest ih =>
    obtain ⟨n, value⟩ := v
    rw [List.map_cons, List.nodup_cons] at h
    rw [List.foldl_cons, ih h.2, List.lookup_cons]
    by_cases hn : name = n
    · subst hn
      have hrest : rest.lookup name = none :=
        List.lookup_eq_none_iff.2 fun v hv => by
          simpa using fun he : name = v.1 => h.1 (List.mem_map.2 ⟨v, hv, he.symm⟩)
      rw [hrest, beq_self_eq_true, get?_set_self]
      rfl
    · rw [beq_eq_false_iff_ne.2 hn, get?_set_of_ne e hn]

/-- A variable that is set to what it is already is left as it is. -/
theorem Environment.set_of_get? {e : Environment} {name value : String}
    (h : e.get? name = some value) : e.set name value = e := by
  obtain ⟨vars⟩ := e
  refine congrArg mk ?_
  rw [get?] at h
  induction vars with
  | nil => cases h
  | cons v rest ih =>
    obtain ⟨n, w⟩ := v
    by_cases hn : n = name
    · subst hn
      rw [List.lookup_cons, beq_self_eq_true] at h
      cases h
      exact if_pos rfl
    · rw [List.lookup_cons, beq_eq_false_iff_ne.2 (Ne.symm hn)] at h
      rw [setIn, if_neg hn, ih h]

namespace Session

theorem get?_toEnvironment_token (s : Session) :
    s.toEnvironment.get? tokenName = some s.token := by
  unfold toEnvironment
  split <;> rfl

/-- A start that is there is not empty, whether it was asked for or found. -/
theorem get?_toEnvironment_start {s : Session} (hs : s.start ≠ some "") :
    s.toEnvironment.get? startName = s.start := by
  have hfilter : s.start.filter (· ≠ "") = s.start := by
    cases hstart : s.start with
    | none => rfl
    | some start => simpa using fun he => hs (hstart.trans (congrArg some he))
  unfold toEnvironment
  split
  · next h => exact h.symm.trans hfilter
  · next h => exact h.symm.trans hfilter

theorem get?_toEnvironment_of_ne (s : Session) {name : String} (ht : name ≠ tokenName)
    (hs : name ≠ startName) : s.toEnvironment.get? name = none := by
  refine List.lookup_eq_none_iff.2 fun v hv => ?_
  have hv := s.names_toEnvironment (List.mem_map_of_mem hv)
  rw [bne_iff_ne]
  rintro rfl
  exact hv.elim ht hs

theorem nodup_toEnvironment (s : Session) : (s.toEnvironment.vars.map Prod.fst).Nodup := by
  unfold toEnvironment
  split
  · exact (by decide : [tokenName].Nodup)
  · exact (by decide : [tokenName, startName].Nodup)

/-- The variables of the session are laid over an environment, which shows through elsewhere. -/
theorem get?_merge (s : Session) (e : Environment) (name : String) :
    (e.merge s.toEnvironment).get? name = (s.toEnvironment.get? name).or (e.get? name) :=
  Environment.get?_merge s.nodup_toEnvironment e name

def carriedIn (s : Session) (e : Environment) : Session := ⟨s.token, s.start.or (e.filled? startName)⟩

/-- It is `s` itself exactly when its start is known or there was none to show through. -/
theorem carriedIn_eq_self_iff {s : Session} {e : Environment} :
    s.carriedIn e = s ↔ s.start.isSome ∨ e.filled? startName = none := by
  obtain ⟨token, start⟩ := s
  cases start <;> simp [carriedIn]

theorem ofEnvironment?_merge {s : Session} (hs : s.start ≠ some "") (e : Environment) :
    ofEnvironment? (e.merge s.toEnvironment) = if s.token = "" then none else some (s.carriedIn e) := by
  unfold ofEnvironment? carriedIn Environment.filled?
  rw [s.get?_merge, s.get?_merge, get?_toEnvironment_token, get?_toEnvironment_start hs]
  obtain ⟨token, start⟩ := s
  by_cases ht : token = ""
  · simp [ht]
  · cases start with
    | none => simp [ht]
    | some start =>
      have hstart : start ≠ "" := fun he => hs (congrArg some he)
      simp [ht, hstart]

/-- A session that is carried already is handed on without a change. -/
theorem merge_of_ofEnvironment? {s : Session} {e : Environment} (h : ofEnvironment? e = some s) :
    e.merge s.toEnvironment = e := by
  unfold ofEnvironment? at h
  obtain ⟨token, ht, rfl⟩ := Option.map_eq_some_iff.1 h
  have hset : e.set tokenName token = e :=
    Environment.set_of_get? (Option.filter_eq_some_iff.1 ht).1
  unfold toEnvironment
  split
  · exact hset
  · next start hs =>
    have hs := (Option.filter_eq_some_iff.1 (Option.filter_eq_some_iff.1 hs).1).1
    exact (congrArg (·.set startName start) hset).trans (Environment.set_of_get? hs)

end Session

namespace Backend

def editor? (b : Backend) : Option String :=
  if b.editor.isSet then (asText b.editor).toOption else none

/-- What a call lays over the environment under a name: the editor, and the session. -/
def given? (b : Backend) (session : Option Session) (name : String) : Option String :=
  if name = "VELLUM_EDITOR" then b.editor? else session.bind fun s => s.toEnvironment.get? name

def withEditor (b : Backend) (e : Environment) : Except Failure Environment := do
  if b.editor.isSet then return e.set "VELLUM_EDITOR" (← asText b.editor)
  return e

theorem get?_withEditor {b : Backend} {e e' : Environment} (h : b.withEditor e = .ok e')
    (name : String) :
    e'.get? name = (if name = "VELLUM_EDITOR" then b.editor? else none).or (e.get? name) := by
  unfold withEditor at h
  unfold editor?
  by_cases hset : b.editor.isSet
  · rw [if_pos hset] at h ⊢
    cases ht : asText b.editor with
    | error f =>
      rw [ht] at h
      cases h
    | ok editor =>
      rw [ht] at h
      cases h
      by_cases hn : name = "VELLUM_EDITOR"
      · rw [if_pos hn, hn, Environment.get?_set_self]
        rfl
      · rw [if_neg hn, Environment.get?_set_of_ne _ hn]
        rfl
  · rw [if_neg hset] at h ⊢
    cases h
    rw [ite_self]
    rfl

theorem get?_environment {b : Backend} {session : Option Session} {e e' : Environment}
    (h : b.environment session e = .ok e') (name : String) :
    e'.get? name = (b.given? session name).or (e.get? name) := by
  unfold given?
  cases session with
  | none =>
    rw [get?_withEditor (h : b.withEditor e = .ok e')]
    rfl
  | some s =>
    rw [get?_withEditor (h : b.withEditor (e.merge s.toEnvironment) = .ok e'), s.get?_merge]
    by_cases hn : name = "VELLUM_EDITOR"
    · have hs : s.toEnvironment.get? name = none :=
        s.get?_toEnvironment_of_ne (by rw [hn]; decide) (by rw [hn]; decide)
      rw [if_pos hn, if_pos hn, hs, Option.none_or]
    · rw [if_neg hn, if_neg hn]
      rfl

/-- What a child is told of a session: its token, and its start if that is known. A start that is not
known leaves the child with the one of the environment. -/
theorem run_tells (b : Backend) (args : List String) {s : Session} (hs : s.start ≠ some "")
    (captured : Bool) (e : Environment) :
    Starts (fun c => c.environ.get? Session.tokenName = some s.token ∧
      c.environ.get? Session.startName = s.start.or (e.get? Session.startName)) e
      (b.run args (some s) captured) := by
  refine (b.run_starts args (some s) captured e).mono fun c hc => ?_
  obtain ⟨binary, -, he, -⟩ := call?_ok hc
  rw [get?_environment he, get?_environment he, given?, given?, if_neg (by decide),
    if_neg (by decide)]
  rw [Option.bind_some, Option.bind_some, s.get?_toEnvironment_token,
    Session.get?_toEnvironment_start hs]
  exact ⟨rfl, rfl⟩

/-- A process of the program is asked before anything else happens. -/
theorem ask_calls {b : Backend} {args : List String} {h : Host} {call : Call}
    (hc : b.call? args none true h.environ = .ok call) (ht : h.untold? call = none) :
    (endOf (b.ask args h)).calls = h.calls ++ [call] := by
  unfold ask
  generalize hx : b.run args none true h = x
  cases hx ▸ b.run_called args none true h with
  | unusable hn => cases hc.symm.trans hn
  | untold hd hf =>
    cases hc.symm.trans hd
    cases ht.symm.trans hf
  | interrupted hd | garbled hd =>
    cases hc.symm.trans hd
    rw [bind_of_error hx]
    rfl
  | ended hd =>
    cases hc.symm.trans hd
    rw [bind_of_ok hx]
    rfl

theorem ask_of_untold {b : Backend} {args : List String} {h : Host} {call : Call} {f : Failure}
    (hc : b.call? args none true h.environ = .ok call) (hf : h.untold? call = some f) :
    b.ask args h = .error f h := bind_of_error (run_of_untold hc hf)

theorem ask_ne_empty {b : Backend} {args : List String} {h t : Host} {a : Option String}
    (ha : b.ask args h = .ok a t) : a ≠ some "" := by
  unfold ask at ha
  obtain ⟨r, u, -, ha⟩ := bind_ok ha
  cases ha
  split
  · next hr =>
    rintro he
    rw [Option.some.inj he] at hr
    simp at hr
  · nofun

end Backend

namespace Setup

theorem findSession_start {b : Backend} {h t : Host} {s : Session}
    (hs : findSession b h = .ok s t) : s.start ≠ some "" := by
  unfold findSession at hs
  rw [get_bind] at hs
  cases hf : Session.ofEnvironment? h.environ with
  | some s' =>
    rw [hf] at hs
    cases hs
    obtain ⟨token, -, rfl⟩ := Option.map_eq_some_iff.1 hf
    exact fun he => absurd (Option.filter_eq_some_iff.1 he).2 (by decide)
  | none =>
    rw [hf] at hs
    obtain ⟨token, u, -, hs⟩ := bind_ok hs
    dsimp only at hs
    split at hs
    · obtain ⟨-, v, -, hs⟩ := bind_ok hs
      obtain ⟨start, w, hw, hs⟩ := bind_ok hs
      cases hs
      exact Backend.ask_ne_empty hw
    · obtain ⟨start, w, hw, hs⟩ := bind_ok hs
      cases hs
      exact Backend.ask_ne_empty hw

/-- Where no session is carried the history program is asked for one, first of all. -/
theorem findSession_asks {b : Backend} {h : Host} {call : Call}
    (hf : Session.ofEnvironment? h.environ = none)
    (hc : b.call? ["init", "session"] none true h.environ = .ok call)
    (ht : h.untold? call = none) :
    ∃ rest, (endOf (findSession b h)).calls = h.calls ++ call :: rest := by
  have hask := Backend.ask_calls hc ht
  unfold findSession
  rw [get_bind, hf]
  dsimp only
  cases hx : b.ask ["init", "session"] h with
  | error f t =>
    rw [bind_of_error (x := b.initSession) hx]
    rw [hx] at hask
    exact ⟨[], hask⟩
  | ok token t =>
    rw [bind_of_ok (x := b.initSession) hx]
    rw [hx] at hask
    have htime : Starts (fun _ => True) t.environ b.initTimestamp :=
      (b.ask_starts ["init", "timestamp"] t.environ).mono fun _ _ => trivial
    split
    · obtain ⟨cs, hr, -⟩ := (starts_log _ _ _ _).bind (fun _ => htime.bind fun _ => starts_pure _)
        t rfl
      exact ⟨cs, by rw [hr.calls, ← endOf_ok token t, hask, List.append_assoc]; rfl⟩
    · obtain ⟨cs, hr, -⟩ := htime.bind (fun _ => starts_pure _) t rfl
      exact ⟨cs, by rw [hr.calls, ← endOf_ok token t, hask, List.append_assoc]; rfl⟩

theorem establish_of_untold {b : Backend} {h : Host} {call : Call} {f : Failure}
    (hs : Session.ofEnvironment? h.environ = none)
    (hc : b.call? ["init", "session"] none true h.environ = .ok call)
    (hf : h.untold? call = some f) : establish b h = .error f h := by
  refine establish_of_error ?_
  unfold findSession
  rw [get_bind, hs]
  exact bind_of_error (Backend.ask_of_untold hc hf)

theorem establish_calls (b : Backend) (h : Host) :
    (endOf (establish b h)).calls = (endOf (findSession b h)).calls := by
  cases hf : findSession b h with
  | error f t => rw [establish_of_error hf]
  | ok s t =>
    obtain ⟨records, he⟩ := establish_of_findSession hf
    rw [he]
    rfl

/-- A session that is carried is the one that is handed on, and nothing is done for it. -/
theorem establish_of_carried {b : Backend} {h : Host} {s : Session}
    (hs : Session.ofEnvironment? h.environ = some s) :
    ∃ records, establish b h = .ok s { h with records := records } := by
  have hf : findSession b h = .ok s h := by
    unfold findSession
    rw [get_bind, hs]
    rfl
  obtain ⟨records, he⟩ := establish_of_findSession hf
  rw [Session.merge_of_ofEnvironment? hs] at he
  exact ⟨records, he⟩

theorem Found.asked_of_token {b : Backend} {h t : Host} {s : Session} (hs : Found b h s t)
    (ht : s.token = "") : ∃ binary, b.program? = some binary := by
  cases hs with
  | known hk =>
    obtain ⟨token, hfilled, rfl⟩ := Option.map_eq_some_iff.1 hk
    exact absurd (Option.filter_eq_some_iff.1 hfilled).2 (by simpa using ht)
  | asked _ hc =>
    obtain ⟨binary, _, hp, -⟩ | ⟨kind, -, hn⟩ := b.call?_cases ["init", "session"] none true h.environ
    · exact ⟨binary, hp⟩
    · cases hn.symm.trans hc

/-- A session with a token that has been handed on: it is the one that is carried, that is found again
without any process, and that children are told, but for a start that nobody knew. -/
structure HandedOn (b : Backend) (s : Session) (h h' : Host) : Prop where
  carried : Session.ofEnvironment? h'.environ = some (s.carriedIn h.environ)
  again : ∃ records, establish b h' = .ok (s.carriedIn h.environ) { h' with records := records }
  children : ∀ (b' : Backend) (args : List String) (captured : Bool) (e : Environment),
    e.get? Session.startName = h'.environ.get? Session.startName →
    Starts (fun c => c.environ.get? Session.tokenName = some s.token ∧
      c.environ.get? Session.startName = s.start.or (h.environ.get? Session.startName)) e
      (b'.run args (some s) captured)
  same : s.carriedIn h.environ = s ↔ s.start.isSome ∨ h.environ.filled? Session.startName = none
  sameForChildren : s.start.or (h.environ.get? Session.startName) = s.start ↔
    s.start.isSome ∨ h.environ.get? Session.startName = none

/-- A session is handed on through two variables and no other. If it has a token, it is carried from
then on and nobody has to be asked for it again; if it has none, the history program is asked again
the next time, unless it cannot be told the environment by then. The session that is carried is the
one that was found, exactly when its start is known or the environment had no start from before. -/
theorem exported_session {b : Backend} {h h' : Host} {s : Session}
    (hs : establish b h = .ok s h') :
    (∀ name, name ≠ Session.tokenName → name ≠ Session.startName →
      h'.environ.get? name = h.environ.get? name) ∧
    (s.token ≠ "" → HandedOn b s h h') ∧
    (s.token = "" → Session.ofEnvironment? h'.environ = none ∧ ∃ call,
      b.call? ["init", "session"] none true h'.environ = .ok call ∧
      (h'.untold? call = none → ∃ rest,
        (endOf (establish b h')).calls = h'.calls ++ call :: rest) ∧
      ∀ f, h'.untold? call = some f → establish b h' = .error f h') := by
  cases hf : findSession b h with
  | error f t => cases (establish_of_error hf).symm.trans hs
  | ok s' t =>
  obtain ⟨records, he⟩ := establish_of_findSession hf
  cases he.symm.trans hs
  have hfound := findSession_ok hf
  have hstart := findSession_start hf
  rw [hfound.environ]
  have hcarried := Session.ofEnvironment?_merge hstart h.environ
  refine ⟨fun name ht hn => ?_, fun ht => ?_, fun ht => ?_⟩
  · rw [s.get?_merge, s.get?_toEnvironment_of_ne ht hn, Option.none_or]
  · rw [if_neg ht] at hcarried
    refine ⟨hcarried, ?_, fun b' args captured e he => ?_, Session.carriedIn_eq_self_iff, ?_⟩
    · exact establish_of_carried hcarried
    · refine (b'.run_tells args hstart captured e).mono fun c ⟨htoken, hold⟩ => ⟨htoken, ?_⟩
      rw [he, s.get?_merge, Session.get?_toEnvironment_start hstart, ← Option.or_assoc,
        Option.or_self] at hold
      exact hold
    · cases s.start <;> simp
  · rw [if_pos ht] at hcarried
    obtain ⟨binary, hp⟩ := hfound.asked_of_token ht
    obtain ⟨_, environ, -, hc⟩ | ⟨kind, hn, -⟩ := b.call?_cases ["init", "session"] none true
      (h.environ.merge s.toEnvironment)
    · refine ⟨hcarried, _, hc, fun htold => ?_, fun f hf => establish_of_untold hcarried hc hf⟩
      obtain ⟨rest, hrest⟩ := findSession_asks hcarried hc htold
      exact ⟨rest, (establish_calls b _).trans hrest⟩
    · cases hn.symm.trans hp

/-- A machine with a start from before, on which the history program knows a session and no time. -/
def stale : Host :=
  Host.scripted ⟨[("VELLUM_SESSION_START", "old")]⟩
    [(.backend "init", [.exited ⟨"t\n", "", 0⟩, .refused .notFound])]

theorem exported_session_sample : ∃ h', establish ⟨.text "vellum", .null⟩ stale = .ok ⟨"t", none⟩ h' ∧
    Session.ofEnvironment? h'.environ = some ⟨"t", some "old"⟩ ∧
    HandedOn ⟨.text "vellum", .null⟩ ⟨"t", none⟩ stale h' := by
  have hs : ∃ h', establish ⟨.text "vellum", .null⟩ stale = .ok ⟨"t", none⟩ h' := ⟨_, rfl⟩
  obtain ⟨h', hs⟩ := hs
  have hh := (exported_session hs).2.1 (by decide)
  exact ⟨h', hs, hh.carried, hh⟩

/-- The session that was found has no start, but the one that is carried and found again has, and so
have the children of the one that was found. -/
theorem stale_start_carried : ∃ h', establish ⟨.text "vellum", .null⟩ stale = .ok ⟨"t", none⟩ h' ∧
    Session.ofEnvironment? h'.environ = some ⟨"t", some "old"⟩ ∧
    answerOf (establish ⟨.text "vellum", .null⟩ h') = .ok ⟨"t", some "old"⟩ ∧
    (Backend.call? ⟨.text "vellum", .null⟩ ["store", "--", "ls"] (some ⟨"t", none⟩) false
      h'.environ).map (fun c => c.environ.get? Session.startName) = .ok (some "old") :=
  ⟨_, rfl, rfl, rfl, rfl⟩

end Setup
end ShellHistory

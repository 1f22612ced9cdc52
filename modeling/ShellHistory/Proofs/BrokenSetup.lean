import ShellHistory.Proofs.Attempts
import ShellHistory.Proofs.Started

/-! Setups that fail. Hooks and integration come last, so none of them is ever left half done. The
mark comes first: a setup that is broken off while it asks for a session leaves it behind, and then
the shell counts as set up though it is not. -/

namespace ShellHistory

open Act Host

namespace Backend

/-- The history program can be called and asked for a session, nobody breaks it off, and its answers
are texts. -/
structure Answers (b : Backend) (h : Host) : Prop where
  program : b.program?.isSome
  told : ∀ what ∈ ["session", "timestamp"], ∀ c,
    b.call? ["init", what] none true h.environ = .ok c → h.untold? c = none
  unbroken : .interrupted ∉ h.outcomes (.backend "init")
  readable : ∀ status, .garbled status ∉ h.outcomes (.backend "init")

theorem ask_works {b : Backend} {h : Host} (hb : b.Answers h) {what : String}
    (hwhat : what ∈ ["session", "timestamp"]) :
    ∃ a t, b.ask ["init", what] h = .ok a t ∧ b.Answers t := by
  unfold ask
  generalize hx : b.run ["init", what] none true h = x
  have hcases := b.call?_cases ["init", what] none true h.environ
  cases hx ▸ b.run_called ["init", what] none true h with
  | unusable hc =>
    obtain ⟨binary, environ, -, he⟩ | ⟨kind, hp, -⟩ := hcases
    · cases hc.symm.trans he
    · exact absurd hb.program (by rw [hp]; decide)
  | @untold c f hc hf => cases (hb.told what hwhat c hc).symm.trans hf
  | @interrupted c hc _ hn =>
    obtain ⟨binary, -, -, hjob⟩ := call?_ok hc
    have hmem := mem_outcomes_of_next hn nofun
    rw [hjob] at hmem
    exact absurd hmem hb.unbroken
  | @garbled c status hc _ hn =>
    obtain ⟨binary, -, -, hjob⟩ := call?_ok hc
    have hmem := mem_outcomes_of_next hn nofun
    rw [hjob] at hmem
    exact absurd hmem (hb.readable status)
  | @ended c r records hc =>
    obtain ⟨binary, -, -, hjob⟩ := call?_ok hc
    have hrole : c.job.role = .backend "init" := by
      rw [hjob]
      rfl
    have hleft {o : Outcome} (hm : o ∈ (h.after c).outcomes (.backend "init")) :
        o ∈ h.outcomes (.backend "init") := by
      have hafter := h.outcomes_after_self c
      rw [hrole] at hafter
      exact List.mem_of_mem_tail (hafter ▸ hm)
    exact ⟨_, _, bind_of_ok hx, hb.program, hb.told, fun hm => hb.unbroken (hleft hm),
      fun status hm => hb.readable status (hleft hm)⟩

end Backend

namespace Setup

/-- Without an answer a setup goes on, but it has to get one from both processes. -/
theorem findSession_works {b : Backend} {h : Host} (hb : b.Answers h) :
    ∃ s t, findSession b h = .ok s t := by
  unfold findSession
  rw [get_bind]
  cases Session.ofEnvironment? h.environ with
  | some s => exact ⟨s, h, rfl⟩
  | none =>
    have hsession : "session" ∈ ["session", "timestamp"] := by decide
    have htime : "timestamp" ∈ ["session", "timestamp"] := by decide
    dsimp only
    obtain ⟨token, t, ht, hbt⟩ := Backend.ask_works hb hsession
    have hask : b.initSession h = .ok token t := ht
    rw [bind_of_ok hask]
    split
    · obtain ⟨records, hl⟩ := log_apply .warning source "backing process returned no session id"
        none t
      rw [bind_of_ok hl]
      have hnoted : b.Answers { t with records := records } :=
        ⟨hbt.program, hbt.told, hbt.unbroken, hbt.readable⟩
      obtain ⟨start, u, hu, -⟩ := Backend.ask_works hnoted htime
      exact ⟨_, _, bind_of_ok hu⟩
    · obtain ⟨start, u, hu, -⟩ := Backend.ask_works hbt htime
      exact ⟨_, _, bind_of_ok hu⟩

/-- Nothing is asked for if the environment carries a session. -/
theorem ofEnvironment?_of_error {b : Backend} {h t : Host} {f : Failure}
    (hs : findSession b h = .error f t) : Session.ofEnvironment? h.environ = none := by
  unfold findSession at hs
  rw [get_bind] at hs
  cases he : Session.ofEnvironment? h.environ with
  | none => rfl
  | some s =>
    rw [he] at hs
    cases hs

end Setup

namespace Shell

def marked (s : Shell) : Shell :=
  { s with host := { s.host with environ := s.host.environ.set Setup.sentinelName "1" } }

def unmarked (s : Shell) : Shell :=
  { s with host := { s.host with environ := s.host.environ.erase Setup.sentinelName } }

/-- What is left of a setup once it is known that there is something to do. -/
def finishSetUp (c : Config) (b : Backend) : Act Shell Bool := do
  let session ← onHost (Setup.establish b)
  attach ⟨session, c, "", none⟩
  discard install
  onHost (Host.log .info Setup.source ("session " ++ session.token ++ " ready"))
  return true

section Ready

variable {c : Config} {s : Shell}

theorem setUp_of_ready (hf : Setup.hasSelector s.host c (s.host.environ.get? "PATH") = .ok true)
    (hd : Setup.isDone s.host.environ = false) :
    setUp c true s = finishSetUp c s.backend s.marked := by
  unfold setUp
  rw [get_bind, hf, ofExcept_ok, pure_bind, if_neg (by decide), hd, if_neg (by decide)]
  rfl

theorem finishSetUp_of_ok {b : Backend} {h : Host} {session : Session}
    (he : Setup.establish b s.host = .ok session h) : ∃ t, finishSetUp c b s = .ok true t := by
  let attached : Shell :=
    { s with
      host := h
      integration := some ⟨s.made, ⟨session, c, "", none⟩, false⟩
      made := s.made + 1 }
  let installed : Shell :=
    { attached with
      registry := (s.registry.register (Hook.captureOf session)).register (Hook.resetOf s.made)
      integration := some ⟨s.made, ⟨session, c, "", none⟩, true⟩ }
  have ha : attach ⟨session, c, "", none⟩ { s with host := h } = .ok () attached := rfl
  have hi : (discard install : Act Shell Unit) attached = .ok () installed := rfl
  obtain ⟨records, hl⟩ := log_apply .info Setup.source ("session " ++ session.token ++ " ready")
    none installed.host
  unfold finishSetUp
  rw [bind_of_ok (onHost_of_ok he), bind_of_ok ha, bind_of_ok hi, bind_of_ok (onHost_of_ok hl)]
  exact ⟨_, rfl⟩

theorem finishSetUp_of_error {b : Backend} {h : Host} {f : Failure}
    (he : Setup.establish b s.host = .error f h) :
    finishSetUp c b s = .error f { s with host := h } := bind_of_error (onHost_of_error he)

end Ready

inductive Broken (c : Config) (interactive : Bool) (s : Shell) (f : Failure) : Shell → Prop
  | unreadable : Search.selectorWords c.selector = .error f → Broken c interactive s f s
  | unanswered {cs : List Call} {h : Host} :
      Setup.hasSelector s.host c (s.host.environ.get? "PATH") = .ok true →
      Setup.isDone s.host.environ = false → interactive = true →
      Session.ofEnvironment? s.host.environ = none → ¬s.backend.Answers s.marked.host →
      Ran s.marked.host cs h →
      (∀ call ∈ cs, ∃ what, s.backend.call? ["init", what] none true s.marked.host.environ = .ok call) →
      Broken c interactive s f { s with host := h }

theorem setUp_error {c : Config} {interactive : Bool} {s t : Shell} {f : Failure}
    (h : setUp c interactive s = .error f t) : Broken c interactive s f t := by
  cases hf : Setup.hasSelector s.host c (s.host.environ.get? "PATH") with
  | error g =>
    have hwords : Search.selectorWords c.selector = .error g := by
      unfold Setup.hasSelector at hf
      cases hw : Search.selectorWords c.selector with
      | error g' =>
        rw [hw] at hf
        cases hf
        rfl
      | ok words =>
        rw [hw] at hf
        cases words <;> cases hf
    unfold setUp at h
    rw [get_bind, hf, ofExcept_error, throw_bind] at h
    cases h
    exact .unreadable hwords
  | ok found =>
  cases found with
  | false =>
    unfold setUp at h
    rw [get_bind, hf, ofExcept_ok, pure_bind, if_pos (by decide)] at h
    cases h
  | true =>
  cases hskip : (Setup.isDone s.host.environ || !interactive) with
  | true =>
    unfold setUp at h
    rw [get_bind, hf, ofExcept_ok, pure_bind, if_neg (by decide), if_pos hskip] at h
    cases h
  | false =>
  obtain ⟨hd, hi⟩ : Setup.isDone s.host.environ = false ∧ interactive = true := by
    simpa using hskip
  subst hi
  rw [setUp_of_ready hf hd] at h
  cases hs : Setup.findSession s.backend s.marked.host with
  | ok session u =>
    obtain ⟨records, he⟩ := Setup.establish_of_findSession hs
    obtain ⟨v, hv⟩ := finishSetUp_of_ok (c := c) he
    cases hv.symm.trans h
  | error g u =>
    cases (finishSetUp_of_error (c := c) (Setup.establish_of_error hs)).symm.trans h
    have hsession := Setup.ofEnvironment?_of_error hs
    obtain ⟨cs, hr, hcs⟩ := Setup.findSession_starts s.backend _ s.marked.host rfl
    rw [hs, endOf_error] at hr
    refine .unanswered hf hd rfl ?_ (fun hb => ?_) hr hcs
    · rwa [marked, Setup.ofEnvironment?_set_sentinel] at hsession
    · obtain ⟨session, v, hv⟩ := Setup.findSession_works hb
      cases hv.symm.trans hs

/-- An attempt that has all that it needs: a selector, a user, and a history program that answers. -/
structure Attempt.Works (k : Attempt) (s : Shell) : Prop where
  finds : Setup.Finds (k.on s).host k.config
  interactive : k.interactive = true
  answers : k.backend.Answers (k.on s).marked.host

theorem attempt_of_works {k : Attempt} {s : Shell} (hk : k.Works s)
    (hd : Setup.isDone s.host.environ = false) :
    ∃ session u, attempt k s = .ok true u ∧ Once session s u := by
  obtain ⟨u, hu⟩ : ∃ u, attempt k s = .ok true u := by
    have hf := (Setup.finds_iff _ _).1 hk.finds
    obtain ⟨session, v, hv⟩ := Setup.findSession_works hk.answers
    obtain ⟨records, he⟩ := Setup.establish_of_findSession hv
    obtain ⟨u, hu⟩ := finishSetUp_of_ok (c := k.config) he
    refine ⟨u, ?_⟩
    unfold attempt
    rw [hk.interactive, setUp_of_ready hf hd]
    exact hu
  obtain ⟨session, ho⟩ := attempt_done hu
  exact ⟨session, u, hu, ho⟩

theorem attempt_of_isDone {k : Attempt} {s : Shell} (hd : Setup.isDone s.host.environ = true) :
    answerOf (attempt k s) ≠ .ok true ∧ Untouched s (endOf (attempt k s)) := by
  cases h : attempt k s with
  | ok a t =>
    cases a with
    | true =>
      have hready := ((attempt_answered h).ready.1 rfl).2.1
      cases ((Setup.isDone_eq_false_iff _).2 hready).symm.trans hd
    | false => exact ⟨nofun, attempt_refused h⟩
  | error f t =>
    refine ⟨nofun, ?_⟩
    cases setUp_error h with
    | unreadable => exact ⟨rfl, rfl, rfl, rfl⟩
    | unanswered _ hn => cases hn.symm.trans hd

/-- An attempt that failed before it had begun. Nothing is lost by it. -/
structure Unbegun (k : Attempt) (f : Failure) (s t : Shell) : Prop where
  unreadable : Search.selectorWords k.config.selector = .error f
  environ : t.host.environ = s.host.environ
  calls : t.host.calls = s.host.calls
  retry : Setup.isDone s.host.environ = false → ∀ k' : Attempt, k'.Works t →
    ∃ session u, attempt k' t = .ok true u ∧ Once session t u

/-- An attempt that failed when it asked for a session. It has marked the shell and done nothing else
to its environment, and the mark keeps off every later attempt. Without it they would succeed. -/
structure Halfway (k : Attempt) (s t : Shell) : Prop where
  finds : Setup.Finds (k.on s).host k.config
  unmarked : Setup.isDone s.host.environ = false
  interactive : k.interactive = true
  asked : Session.ofEnvironment? s.host.environ = none
  unanswered : ¬k.backend.Answers (k.on s).marked.host
  environ : t.host.environ = s.host.environ.set Setup.sentinelName "1"
  refused : ∀ k' : Attempt,
    answerOf (attempt k' t) ≠ .ok true ∧ Untouched t (endOf (attempt k' t))
  retry : ∀ k' : Attempt, k'.Works t.unmarked →
    ∃ session u, attempt k' t.unmarked = .ok true u ∧ Once session t.unmarked u

/-- An attempt that fails registers no hooks and makes no integration. It fails over the selector,
and then the environment is as before, and so is what a later attempt can do; or it fails over the
session, and then the environment has the mark of a setup that has not taken place. -/
theorem failed_attempt {k : Attempt} {s t : Shell} {f : Failure} (h : attempt k s = .error f t) :
    t.registry = s.registry ∧ t.integration = s.integration ∧ (Unbegun k f s t ∨ Halfway k s t) := by
  cases setUp_error h with
  | unreadable hw =>
    exact ⟨rfl, rfl, .inl ⟨hw, rfl, rfl, fun hd k' hk => attempt_of_works hk hd⟩⟩
  | unanswered hf hd hi hsession hb hr =>
    have henviron := hr.environ
    refine ⟨rfl, rfl, .inr ⟨(Setup.finds_iff _ _).2 hf, hd, hi, hsession, hb, henviron, ?_, ?_⟩⟩
    · intro k'
      refine attempt_of_isDone ?_
      rw [henviron]
      exact Setup.isDone_set_sentinel s.host.environ
    · intro k' hk
      refine attempt_of_works hk ((Setup.isDone_eq_false_iff _).2 ?_)
      rw [unmarked, Environment.get?_erase_self]
      rfl

def interrupted : Attempt := { found true with scripts := [(.backend "init", [.interrupted])] }

theorem attempt_interrupted : ∃ t, attempt interrupted sample = .error .interrupted t ∧
    t.host.environ = ⟨[("PATH", "/"), ("__VELLUM_SETUP", "1")]⟩ ∧ t.registry = .empty ∧
    t.host.processes = .played := by
  have hf : Setup.hasSelector (interrupted.on sample).host interrupted.config
      ((interrupted.on sample).host.environ.get? "PATH") = .ok true :=
    Setup.hasSelector_selectorFiles rfl rfl rfl
  unfold attempt setUp
  rw [get_bind, hf, ofExcept_ok, pure_bind]
  exact ⟨_, rfl, rfl, rfl, rfl⟩

theorem failed_attempt_sample : ∃ t, attempt interrupted sample = .error .interrupted t ∧
    t.registry = sample.registry ∧ Halfway interrupted sample t := by
  obtain ⟨t, ht, -⟩ := attempt_interrupted
  obtain ⟨hregistry, -, hunbegun | hhalfway⟩ := failed_attempt ht
  · cases hunbegun.unreadable
  · exact ⟨t, ht, hregistry, hhalfway⟩

/-- The mark of an interrupted setup stays behind, without any hooks, and an attempt that has all it
needs is refused because of it. -/
theorem mark_outlives_interrupt : ∃ t, attempt interrupted sample = .error .interrupted t ∧
    sample.host.environ.get? Setup.sentinelName = none ∧
    t.host.environ.get? Setup.sentinelName = some "1" ∧ t.registry = .empty ∧
    (found true).Works t ∧ ∃ u, attempt (found true) t = .ok false u ∧ u.registry = .empty := by
  obtain ⟨t, ht, henviron, hregistry, hprocesses⟩ := attempt_interrupted
  have hpath : t.host.environ.get? "PATH" = some "/" := by
    rw [henviron]
    rfl
  have hf : Setup.hasSelector ((found true).on t).host (found true).config
      (((found true).on t).host.environ.get? "PATH") = .ok true :=
    Setup.hasSelector_selectorFiles rfl rfl hpath
  have hcalm : .interrupted ∉ ((found true).scripts.lookup (.backend "init")).getD [] := by decide
  have hclear : ∀ status, .garbled status ∉
      ((found true).scripts.lookup (.backend "init")).getD [] := by
    simp [found]
  have htold (c : Call) : ((found true).on t).marked.host.untold? c = none := by
    rw [Host.untold?, show ((found true).on t).marked.host.processes = .played from hprocesses]
  have hworks : (found true).Works t :=
    ⟨(Setup.finds_iff _ _).2 hf, rfl, rfl, fun _ _ c _ => htold c, hcalm, hclear⟩
  have hmark : t.host.environ.get? Setup.sentinelName = some "1" := by
    rw [henviron]
    rfl
  have hdone : Setup.isDone t.host.environ = true := by
    rw [henviron]
    rfl
  refine ⟨t, ht, rfl, hmark, hregistry, hworks, (found true).on t, ?_, hregistry⟩
  exact attempt_skipped hf (congrArg (· || false) hdone)

end Shell
end ShellHistory

import ShellHistory.Proofs.Operations

/-! Setting up a shell: what is changed by it, in the environment and in the registry, and that it is
refused once it has been done. -/

namespace ShellHistory

open Act

theorem Environment.get?_merge_of_notMem {name : String} {added : List (String × String)}
    (h : name ∉ added.map Prod.fst) (e : Environment) : (e.merge ⟨added⟩).get? name = e.get? name := by
  unfold merge
  induction added generalizing e with
  | nil => rfl
  | cons v rest ih =>
    simp only [List.map_cons, List.mem_cons, not_or] at h
    rw [List.foldl_cons, ih h.2, Environment.get?_set_of_ne e h.1]

/-- The variables of a session are those two, whatever their values. -/
theorem Session.names_toEnvironment (s : Session) {name : String}
    (h : name ∈ s.toEnvironment.vars.map Prod.fst) : name = tokenName ∨ name = startName := by
  unfold toEnvironment at h
  split at h
  · exact Or.inl (List.mem_singleton.1 h)
  · simpa using h

namespace Setup

theorem isDone_of_get?_eq {e e' : Environment} (h : e'.get? sentinelName = e.get? sentinelName) :
    isDone e' = isDone e := by
  rw [isDone, isDone, Environment.filled?, Environment.filled?, h]

theorem isDone_merge (e : Environment) (s : Session) : isDone (e.merge s.toEnvironment) = isDone e := by
  refine isDone_of_get?_eq (Environment.get?_merge_of_notMem (fun h => ?_) e)
  rcases s.names_toEnvironment h with h | h
  · exact absurd h (by decide)
  · exact absurd h (by decide)

theorem isDone_set_sentinel (e : Environment) : isDone (e.set sentinelName "1") = true := by
  rw [isDone, Environment.filled?, Environment.get?_set_self]
  rfl

/-- What it takes to find the session of a shell: nothing if the environment carries one, else two
processes of the history program, one that is asked for a session and one for the time. -/
inductive Found (b : Backend) (h : Host) (s : Session) : Host → Prop
  | known : Session.ofEnvironment? h.environ = some s → Found b h s h
  | asked {session time : Call} {records : List Record} :
      Session.ofEnvironment? h.environ = none →
      b.call? ["init", "session"] none true h.environ = .ok session →
      b.call? ["init", "timestamp"] none true h.environ = .ok time →
      Found b h s { (h.after session).after time with records := records }

theorem findSession_ok {b : Backend} {h h' : Host} {s : Session}
    (hs : findSession b h = .ok s h') : Found b h s h' := by
  unfold findSession at hs
  rw [get_bind] at hs
  cases hf : Session.ofEnvironment? h.environ with
  | some t =>
    simp only [hf] at hs
    cases hs
    exact .known hf
  | none =>
    simp only [hf] at hs
    obtain ⟨token, u, ht, hs⟩ := bind_ok hs
    obtain ⟨session, records, hc, rfl⟩ := Backend.ask_ok ht
    split at hs
    · obtain ⟨records', hl⟩ := Host.log_apply .warning source
        "backing process returned no session id" none { h.after session with records := records }
      rw [bind_of_ok hl] at hs
      obtain ⟨start, v, hv, hs⟩ := bind_ok hs
      obtain ⟨time, _, hd, rfl⟩ := Backend.ask_ok hv
      cases hs
      exact .asked hf hc hd
    · obtain ⟨start, v, hv, hs⟩ := bind_ok hs
      obtain ⟨time, _, hd, rfl⟩ := Backend.ask_ok hv
      cases hs
      exact .asked hf hc hd

theorem Found.environ {b : Backend} {h h' : Host} {s : Session} (hs : Found b h s h') :
    h'.environ = h.environ := by
  cases hs with
  | known => rfl
  | asked => rfl

theorem establish_ok {b : Backend} {h h' : Host} {s : Session} (hs : establish b h = .ok s h') :
    ∃ u records, Found b h s u ∧
      h' = { u with environ := h.environ.merge s.toEnvironment, records := records } := by
  unfold establish at hs
  obtain ⟨t, u, hf, hs⟩ := bind_ok hs
  have hu := findSession_ok hf
  simp only [modify_bind, get_bind] at hs
  split at hs
  · obtain ⟨records, hl⟩ := Host.log_apply .debug source
      (keyName ++ " is not set; the backing process will refuse to run") none
      { u with environ := u.environ.merge t.toEnvironment }
    rw [bind_of_ok hl] at hs
    cases hs
    exact ⟨u, records, hu, by rw [← hu.environ]⟩
  · cases hs
    exact ⟨u, u.records, hu, by rw [← hu.environ]⟩

theorem establish_of_findSession {b : Backend} {h t : Host} {s : Session}
    (hs : findSession b h = .ok s t) : ∃ records, establish b h =
      .ok s { t with environ := t.environ.merge s.toEnvironment, records := records } := by
  unfold establish
  rw [bind_of_ok hs, modify_bind, get_bind]
  split
  · obtain ⟨records, hl⟩ := Host.log_apply .debug source
      (keyName ++ " is not set; the backing process will refuse to run") none
      { t with environ := t.environ.merge s.toEnvironment }
    exact ⟨records, bind_of_ok hl⟩
  · exact ⟨t.records, rfl⟩

theorem establish_of_error {b : Backend} {h t : Host} {f : Failure}
    (hs : findSession b h = .error f t) : establish b h = .error f t := bind_of_error hs

def selectorFiles : FileTree := FileTree.empty.put ["fzf"] (.file .empty true)

theorem isProgram_selectorFiles (cwd : Place) : selectorFiles.isProgram cwd "/fzf" = true := by
  have hwalk : selectorFiles.walk .target FileTree.maxLinks [] ["fzf"] = .ok (.taken ["fzf"]) := by
    rw [FileTree.walk]
    rfl
  have hfind : selectorFiles.find cwd "/fzf" .target = .ok (.taken ["fzf"]) := hwalk
  rw [FileTree.isProgram, FileTree.stat, hfind]
  rfl

theorem hasSelector_selectorFiles {h : Host} {c : Config} {path : Option String}
    (hf : h.files = selectorFiles) (hc : c.selector = .text "fzf") (hp : path = some "/") :
    hasSelector h c path = .ok true := by
  subst hp
  have hwords : Search.selectorWords c.selector = .ok ["fzf"] := by
    rw [hc]
    rfl
  have hinstalled : isInstalled h "fzf" (some "/") = true := by
    simp [isInstalled, Text.fields, programIn, hf, isProgram_selectorFiles]
  unfold hasSelector
  rw [hwords]
  exact congrArg Except.ok hinstalled

end Setup

namespace Shell

/-- All that can come of an attempt to set up a shell: the selector is not there, which is said, or
nothing is to be done, or the shell is marked and gets a session, an integration and its hooks. -/
inductive Tried (c : Config) (interactive : Bool) (s : Shell) : Bool → Shell → Prop
  | missing : Setup.hasSelector s.host c (s.host.environ.get? "PATH") = .ok false →
      Tried c interactive s false { s with host := { s.host with
        err := s.host.err ++ Failure.missingSelector.message ++ "\n" } }
  | skipped : Setup.hasSelector s.host c (s.host.environ.get? "PATH") = .ok true →
      Setup.isDone s.host.environ = true ∨ interactive = false → Tried c interactive s false s
  | done {session : Session} {u : Host} {records : List Record} :
      Setup.hasSelector s.host c (s.host.environ.get? "PATH") = .ok true →
      Setup.isDone s.host.environ = false → interactive = true →
      Setup.Found s.backend { s.host with environ := s.host.environ.set Setup.sentinelName "1" }
        session u →
      Tried c interactive s true
        { s with
          host := { u with
            environ := (s.host.environ.set Setup.sentinelName "1").merge session.toEnvironment
            records := records }
          registry := (s.registry.register (Hook.captureOf session)).register (Hook.resetOf s.made)
          integration := some ⟨s.made, ⟨session, c, "", none⟩, true⟩
          made := s.made + 1 }

theorem setUp_tried {c : Config} {interactive : Bool} {s t : Shell} {a : Bool}
    (h : setUp c interactive s = .ok a t) : Tried c interactive s a t := by
  unfold setUp at h
  rw [get_bind] at h
  obtain ⟨found, hfound, h⟩ := ofExcept_bind_ok h
  cases found with
  | false =>
    cases h
    exact .missing hfound
  | true =>
  cases hd : Setup.isDone s.host.environ with
  | true =>
    rw [if_neg (by decide), hd] at h
    cases h
    exact .skipped hfound (.inl hd)
  | false =>
  cases interactive with
  | false =>
    rw [if_neg (by decide), hd] at h
    cases h
    exact .skipped hfound (.inr rfl)
  | true =>
    rw [if_neg (by decide), hd, if_neg (by decide)] at h
    obtain ⟨_, _, hm, h⟩ := bind_ok h
    cases hm
    rw [get_bind] at h
    obtain ⟨session, _, he, h⟩ := bind_ok h
    obtain ⟨_, hest, rfl⟩ := onHost_ok he
    obtain ⟨u, records, hu, rfl⟩ := Setup.establish_ok hest
    obtain ⟨_, _, ha, h⟩ := bind_ok h
    cases ha
    obtain ⟨_, v, hi, h⟩ := bind_ok h
    obtain ⟨_, hi⟩ := discard_ok hi
    cases hi
    obtain ⟨_, w, hl, h⟩ := bind_ok h
    obtain ⟨w', hlog, rfl⟩ := onHost_ok hl
    cases h
    obtain ⟨_, hr⟩ := Host.log_apply .info Setup.source ("session " ++ session.token ++ " ready")
      none { u with
        environ := (s.host.environ.set Setup.sentinelName "1").merge session.toEnvironment
        records := records }
    cases hr.symm.trans hlog
    exact .done (u := u) hfound hd rfl hu

/-- The setup is refused, and has done nothing but to say so perhaps, or it is done. -/
inductive SetUp (c : Config) (interactive : Bool) (s : Shell) : Bool → Shell → Prop
  | refused {err : String} : SetUp c interactive s false { s with host := { s.host with err := err } }
  | done {session : Session} {h : Host} : interactive = true →
      Setup.isDone s.host.environ = false → Setup.isDone h.environ = true →
      SetUp c interactive s true
        { s with
          host := h
          registry := (s.registry.register (Hook.captureOf session)).register (Hook.resetOf s.made)
          integration := some ⟨s.made, ⟨session, c, "", none⟩, true⟩
          made := s.made + 1 }

theorem Tried.setUp {c : Config} {interactive : Bool} {s t : Shell} {a : Bool}
    (h : Tried c interactive s a t) : SetUp c interactive s a t := by
  cases h with
  | missing => exact .refused
  | skipped => exact .refused
  | done _ hd hi =>
    refine .done hi hd ?_
    rw [Setup.isDone_merge]
    exact Setup.isDone_set_sentinel s.host.environ

end Shell
end ShellHistory

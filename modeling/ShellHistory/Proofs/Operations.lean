import ShellHistory.Shell
import ShellHistory.Proofs.Reply

/-! The operations of a shell with its history attached, each with all that it changes. -/

namespace ShellHistory

open Act

/-- A search leaves the cursor, the session and the configuration alone. -/
theorem Search.run_ok {b : Backend} {c c' : Context} {buffer : String} {h h' : Host} {o : Outcome}
    (hr : run b c buffer h = .ok (o, c') h') : ∃ last, c' = { c with lastSelected := last } := by
  unfold run at hr
  obtain ⟨listing, u, -, hr⟩ := bind_ok hr
  split at hr
  · cases hr
    exact ⟨c.lastSelected, rfl⟩
  · obtain ⟨⟨printed, status⟩, v, -, hr⟩ := bind_ok hr
    cases hp : Entry.ofSelection? printed with
    | none =>
      simp only [hp] at hr
      cases hr
      exact ⟨c.lastSelected, rfl⟩
    | some e =>
      simp only [hp] at hr
      cases hr
      exact ⟨some e.id, rfl⟩

namespace Shell

theorem onHost_of_ok {α : Type} {act : Act Host α} {s : Shell} {h : Host} {a : α}
    (ha : act s.host = .ok a h) : onHost act s = .ok a { s with host := h } := by
  rw [onHost, ha]

theorem onHost_of_error {α : Type} {act : Act Host α} {s : Shell} {h : Host} {f : Failure}
    (ha : act s.host = .error f h) : onHost act s = .error f { s with host := h } := by
  rw [onHost, ha]

theorem onHost_ok {α : Type} {act : Act Host α} {s t : Shell} {a : α}
    (h : onHost act s = .ok a t) : ∃ h', act s.host = .ok a h' ∧ t = { s with host := h' } := by
  unfold onHost at h
  split at h
  · next b h' hb =>
    cases h
    exact ⟨h', hb, rfl⟩
  · cases h

theorem navigate_ok {i : Integration} {direction : Int} {buffer : String} {probe : Option String}
    {s t : Shell} {o : Navigation.Outcome} (h : navigate i direction buffer probe s = .ok o t) :
    ∃ c h', Navigation.step s.backend i.context direction buffer probe s.host = .ok (o, c) h' ∧
      t = { s with host := h', integration := s.integration.map fun j => { j with context := c } } := by
  unfold navigate at h
  rw [get_bind] at h
  obtain ⟨⟨o', c⟩, u, ho, h⟩ := bind_ok h
  obtain ⟨h', hs, rfl⟩ := onHost_ok ho
  cases h
  exact ⟨c, h', hs, rfl⟩

theorem search_ok {i : Integration} {buffer : String} {s t : Shell} {o : Search.Outcome}
    (h : search i buffer s = .ok o t) :
    ∃ c h', Search.run s.backend i.context buffer s.host = .ok (o, c) h' ∧
      t = { s with host := h', integration := s.integration.map fun j => { j with context := c } } := by
  unfold search at h
  rw [get_bind] at h
  obtain ⟨⟨o', c⟩, u, ho, h⟩ := bind_ok h
  obtain ⟨h', hs, rfl⟩ := onHost_ok ho
  cases h
  exact ⟨c, h', hs, rfl⟩

theorem capture_ok {i : Integration} {line : String} {s t : Shell}
    (h : capture i line s = .ok () t) : ∃ h', t = { s with host := h' } := by
  unfold capture call at h
  obtain ⟨r, h⟩ := discard_ok (by simpa [Hook.captureOf] using h)
  obtain ⟨h', -, rfl⟩ := onHost_ok h
  exact ⟨h', rfl⟩

theorem reset_apply {i : Integration} {s : Shell} (hi : s.integration = some i) :
    reset i s = .ok ()
      { s with integration := some { i with context := { i.context with cursor := "" } } } := by
  unfold reset call
  simp [Hook.resetOf, hi]

end Shell
end ShellHistory

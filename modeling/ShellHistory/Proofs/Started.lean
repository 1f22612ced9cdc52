import ShellHistory.Search
import ShellHistory.Proofs.Reply
import ShellHistory.Proofs.Setup

/-! Actions that do nothing to the machine but to start processes and to log. All that asks the
history program or the selector is of this kind, whether it ends well or not, so the environment and
the files are left alone by it. -/

namespace ShellHistory

open Act

namespace Host

/-- Processes have run and things have been logged, and nothing else has happened. -/
def Ran (h : Host) (cs : List Call) (h' : Host) : Prop :=
  ∃ scripts records,
    h' = { h with scripts := scripts, calls := h.calls ++ cs, records := records }

theorem Ran.refl (h : Host) : Ran h [] h := ⟨h.scripts, h.records, by rw [List.append_nil]⟩

theorem Ran.trans {h h' h'' : Host} {cs ds : List Call} (hc : Ran h cs h') (hd : Ran h' ds h'') :
    Ran h (cs ++ ds) h'' := by
  obtain ⟨_, _, rfl⟩ := hc
  obtain ⟨scripts, records, rfl⟩ := hd
  exact ⟨scripts, records, by rw [List.append_assoc]⟩

theorem Ran.environ {h h' : Host} {cs : List Call} (hr : Ran h cs h') : h'.environ = h.environ := by
  obtain ⟨_, _, rfl⟩ := hr
  rfl

theorem Ran.calls {h h' : Host} {cs : List Call} (hr : Ran h cs h') : h'.calls = h.calls ++ cs := by
  obtain ⟨_, _, rfl⟩ := hr
  rfl

theorem Ran.home {h h' : Host} {cs : List Call} (hr : Ran h cs h') :
    h'.login = h.login ∧ h'.accounts = h.accounts := by
  obtain ⟨_, _, rfl⟩ := hr
  exact ⟨rfl, rfl⟩

/-- In the environment `e` an action only starts processes, each of them as `P` says. -/
def Starts {α : Type} (P : Call → Prop) (e : Environment) (act : Act Host α) : Prop :=
  ∀ h, h.environ = e → ∃ cs, Ran h cs (endOf (act h)) ∧ ∀ c ∈ cs, P c

section Starts

variable {α β : Type} {P Q : Call → Prop} {e : Environment}

theorem starts_of_idle {act : Act Host α} (h : ∀ m, endOf (act m) = m) : Starts P e act :=
  fun m _ => ⟨[], by rw [h m]; exact Ran.refl m, nofun⟩

theorem starts_pure (a : α) : Starts P e (pure a : Act Host α) := starts_of_idle fun _ => rfl

theorem starts_throw (f : Failure) : Starts P e (throw f : Act Host α) := starts_of_idle fun _ => rfl

theorem starts_ofExcept (x : Except Failure α) : Starts P e (ofExcept x : Act Host α) := by
  cases x with
  | ok a => exact starts_pure a
  | error f => exact starts_throw f

/-- What comes after an action may count on what the action came to. -/
theorem Starts.bind_of_ok {act : Act Host α} {f : α → Act Host β} (hact : Starts P e act)
    (hf : ∀ {h t a}, h.environ = e → act h = .ok a t → Starts P e (f a)) :
    Starts P e (act >>= f) := by
  intro h he
  obtain ⟨cs, hc, hP⟩ := hact h he
  cases hx : act h with
  | error g t =>
    rw [hx] at hc
    rw [bind_of_error hx]
    exact ⟨cs, hc, hP⟩
  | ok a t =>
    rw [hx, endOf_ok] at hc
    rw [Act.bind_of_ok hx]
    obtain ⟨ds, hd, hQ⟩ := hf he hx t (hc.environ.trans he)
    exact ⟨cs ++ ds, hc.trans hd, fun c hm => (List.mem_append.1 hm).elim (hP c) (hQ c)⟩

theorem Starts.bind {act : Act Host α} {f : α → Act Host β} (hact : Starts P e act)
    (hf : ∀ a, Starts P e (f a)) : Starts P e (act >>= f) :=
  hact.bind_of_ok fun _ _ => hf _

theorem starts_get_bind {f : Host → Act Host α}
    (hf : ∀ h, h.environ = e → Starts P e (f h)) : Starts P e (get >>= f) := by
  intro h he
  rw [get_bind]
  exact hf h he h he

theorem Starts.mono {act : Act Host α} (h : Starts P e act) (hPQ : ∀ c, P c → Q c) :
    Starts Q e act := by
  intro m he
  obtain ⟨cs, hc, hP⟩ := h m he
  exact ⟨cs, hc, fun c hm => hPQ c (hP c hm)⟩

theorem starts_log (level : Level) (source message : String) (cause : Option Failure) :
    Starts P e (log level source message cause) := by
  intro h _
  obtain ⟨records, hl⟩ := log_apply level source message cause h
  rw [hl]
  exact ⟨[], ⟨h.scripts, records, by rw [List.append_nil]; rfl⟩, nofun⟩

theorem starts_launch {job : Job} {environ : Environment} (hP : P ⟨job, environ⟩) :
    Starts P e (launch job environ) := by
  intro h _
  cases ht : h.untold? ⟨job, environ⟩ with
  | some f =>
    rw [launch_of_untold ht]
    exact ⟨[], Ran.refl h, nofun⟩
  | none =>
    rw [launch_of_told ht]
    exact ⟨[⟨job, environ⟩], ⟨_, h.records, rfl⟩, by simpa using hP⟩

end Starts

end Host

open Host

namespace Backend

variable {b : Backend} {e : Environment}

theorem run_starts (b : Backend) (args : List String) (session : Option Session) (captured : Bool)
    (e : Environment) :
    Starts (fun c => b.call? args session captured e = .ok c) e (b.run args session captured) := by
  intro h he
  subst he
  generalize hx : b.run args session captured h = x
  cases hx ▸ b.run_called args session captured h with
  | unusable | untold => exact ⟨[], Ran.refl h, nofun⟩
  | @interrupted c hc => exact ⟨[c], ⟨_, h.records, rfl⟩, by simpa using hc⟩
  | @garbled c _ hc => exact ⟨[c], ⟨_, h.records, rfl⟩, by simpa using hc⟩
  | @ended c r records hc => exact ⟨[c], ⟨_, records, rfl⟩, by simpa using hc⟩

theorem ask_starts (b : Backend) (args : List String) (e : Environment) :
    Starts (fun c => b.call? args none true e = .ok c) e (b.ask args) :=
  (b.run_starts args none true e).bind fun _ => starts_pure _

theorem move_starts (b : Backend) (m : Move) (session : Session) (e : Environment) :
    Starts (fun c => ∃ args, b.call? args (some session) true e = .ok c) e
      (b.move m (some session)) := by
  unfold move
  cases m.args? with
  | none => exact starts_throw _
  | some args => exact (b.run_starts args (some session) true e).mono fun c hc => ⟨args, hc⟩

end Backend

/-- A session is looked for by asking the history program, outside of any session. -/
theorem Setup.findSession_starts (b : Backend) (e : Environment) :
    Starts (fun c => ∃ what, b.call? ["init", what] none true e = .ok c) e (findSession b) := by
  have hask (what : String) : Starts (fun c => ∃ what, b.call? ["init", what] none true e = .ok c) e
      (b.ask ["init", what]) := (b.ask_starts ["init", what] e).mono fun c hc => ⟨what, hc⟩
  unfold findSession
  refine starts_get_bind fun h _ => ?_
  cases Session.ofEnvironment? h.environ with
  | some s => exact starts_pure s
  | none =>
    refine (hask "session").bind fun token => ?_
    split
    · exact (starts_log _ _ _ _).bind fun _ => (hask "timestamp").bind fun _ => starts_pure _
    · exact (hask "timestamp").bind fun _ => starts_pure _

theorem Navigation.step_starts (b : Backend) (c : Context) (direction : Int) (buffer : String)
    (probe : Option String) (e : Environment) :
    Starts (fun call => ∃ args, b.call? args (some c.session) true e = .ok call) e
      (step b c direction buffer probe) := by
  unfold step
  split
  · exact starts_pure _
  refine (b.move_starts _ c.session e).bind fun result => ?_
  split
  · exact starts_pure _
  cases Reply.ofText result.stdout with
  | malformed raw => exact (starts_log _ _ _ _).bind fun _ => starts_pure _
  | entry _ => exact starts_pure _

namespace Search

variable {P : Call → Prop} {e : Environment}

theorem readText_idle (path : Path) (h : Host) : endOf (Host.readText path h) = h := by
  unfold Host.readText
  rw [get_bind]
  cases h.files.read h.cwd path.toText with
  | error f => rfl
  | ok bytes =>
    cases ht : String.fromUTF8? bytes with
    | none =>
      simp only [ht]
      rfl
    | some text =>
      simp only [ht]
      rfl

theorem optionsFile_starts (path : String) : Starts P e (optionsFile path) := by
  intro h he
  have hidle := readText_idle (Path.ofString path) h
  unfold optionsFile
  generalize Host.readText (Path.ofString path) h = x at hidle
  -- only a file that cannot be read is noted
  split
  · exact ⟨[], by rw [← hidle]; exact Ran.refl _, nofun⟩
  · exact ⟨[], by rw [← hidle]; exact Ran.refl _, nofun⟩
  · next t _ =>
    rw [endOf_error] at hidle
    subst hidle
    exact ((starts_log _ _ _ _).bind fun _ => starts_pure _ : Starts P e _) t he
  · exact ⟨[], by rw [← hidle]; exact Ran.refl _, nofun⟩

theorem defaults_starts (c : Config) (given e : Environment) : Starts P e (defaults c given) := by
  unfold defaults
  dsimp only
  cases given.filled? "FZF_DEFAULT_OPTS_FILE"
  case' none => refine (starts_pure _).bind fun fromFile => ?_
  case' some path => refine (optionsFile_starts path).bind fun fromFile => ?_
  all_goals
    split
    · exact starts_pure _
    · split
      · exact starts_throw _
      · exact starts_pure _

/-- The process of the selector in an environment `e`: it is told its options anew, and that there is
no file of them. -/
inductive Chosen (c : Config) (e : Environment) : Call → Prop
  | intro {argv : List String} {input options : String} {h t : Host} : h.environ = e →
      defaults c e h = .ok options t → Chosen c e ⟨.selector argv input,
        (e.set "FZF_DEFAULT_OPTS" options).set "FZF_DEFAULT_OPTS_FILE" ""⟩

theorem runSelector_starts (c : Config) (records query : String) (e : Environment) :
    Starts (Chosen c e) e (runSelector c records query) := by
  unfold runSelector
  refine (starts_ofExcept _).bind fun words => starts_get_bind fun h he => ?_
  subst he
  refine (defaults_starts c h.environ h.environ).bind_of_ok fun hm hd => ?_
  refine (starts_launch (.intro hm hd)).bind fun outcome => ?_
  cases outcome with
  | exited x => exact starts_pure _
  | garbled status => exact starts_throw _
  | interrupted => exact starts_pure _
  | refused f =>
    cases f with
    | notFound => exact (starts_log _ _ _ _).bind fun _ => starts_pure _
    | _ => exact starts_throw _

/-- A search calls the history program, and then perhaps the selector. -/
theorem run_starts (b : Backend) (c : Context) (buffer : String) (e : Environment) :
    Starts (fun call => (∃ args, b.call? args (some c.session) true e = .ok call) ∨
      Chosen c.config e call) e (run b c buffer) := by
  unfold run
  refine ((b.run_starts _ (some c.session) true e).mono fun call hc => .inl ⟨_, hc⟩).bind
    fun listing => ?_
  split
  · exact starts_pure _
  refine ((runSelector_starts c.config listing.stdout buffer e).mono fun call hc => .inr hc).bind
    fun picked => ?_
  obtain ⟨printed, status⟩ := picked
  dsimp only
  cases Entry.ofSelection? printed with
  | none => exact starts_pure _
  | some entry => exact starts_pure _

end Search
end ShellHistory

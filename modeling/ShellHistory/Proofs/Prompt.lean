import ShellHistory.Proofs.Active
import ShellHistory.Proofs.Firing
import ShellHistory.Proofs.ScriptMode

/-! The prompt loop, round by round. In each round the hooks for a prompt are called once, the prompt
is drawn with no walk through the history going on, keys are pressed, and the line that is entered is
run. The loop ends with the first end of the input and behind the first `exit`. -/

namespace ShellHistory

open Act

namespace Shell

/-- Without arguments only an observer that is there for it breaks off a firing. -/
theorem callAll_error {hooks : List Hook} {f : Failure} {s t : Shell}
    (h : callAll [] hooks s = .error f t) :
    f = .interrupted ∧ ∃ k ∈ Hook.heard hooks, ∃ adds, k.action = .observe .interrupting adds := by
  obtain ⟨_, _, -, -, hall⟩ | ⟨_, _, k, _, -, hsteps, hc, hall⟩ := callAll_run [] hooks s
  · cases hall.symm.trans h
  · cases hall.symm.trans h
    refine ⟨rfl, k, hsteps.subset (by simp), ?_⟩
    cases breaks_of_call hc with
    | observer hk => exact ⟨_, hk⟩
    | store _ hargs => cases hargs

end Shell

namespace Repl

def Turn.ends (turn : Turn) : Bool :=
  match turn.answer with
  | .line s => (Text.words s).head? = some "exit"
  | .interrupt => false
  | .endOfFile => true

/-- The turns that a prompt loop comes to. Behind the last one the input ends. -/
def reached : List Turn → List Turn
  | [] => [⟨[], .endOfFile⟩]
  | turn :: rest => if turn.ends then [turn] else turn :: reached rest

def leave : Answer → Act Repl Unit
  | .line s => discard (execute s)
  | .interrupt | .endOfFile => pure ()

def round (turn : Turn) : Act Repl Unit := do
  showPrompt
  turn.strokes.forM strike
  leave turn.answer

/-- What a line that has been handled leaves behind in the shell around it. -/
structure Left (words : List String) (r t : Repl) (status : Int) : Prop where
  lastExit : t.lastExit = status
  prompts : t.prompts = r.prompts
  running : t.running = (r.running && words.head? ≠ some "exit")
  home : t.home? = r.home?
  notes : t.shell.notes = r.shell.notes

theorem head?_of_goal? {words : List String} {target : String} (h : goal? words = some target) :
    words.head? ≠ some "exit" := by
  unfold goal? at h
  split at h
  · decide
  · simp
  · cases h

theorem Handled.left {line : String} {words : List String} {r t : Repl} {status : Int}
    (h : Handled line r words (.ok status t)) : Left words r t status := by
  have hgoing (hw : words.head? ≠ some "exit") :
      r.running = (r.running && words.head? ≠ some "exit") := by simp [hw]
  generalize hx : EStateM.Result.ok status t = x at h
  cases h with
  | exit =>
    cases hx
    exact ⟨rfl, rfl, by simp, rfl, rfl⟩
  | exitRefused => cases hx
  | cd hg hy =>
    have hrunning := hgoing (head?_of_goal? hg)
    cases hy with
    | refused => cases hx
    | missing =>
      cases hx
      exact ⟨rfl, rfl, hrunning, rfl, rfl⟩
    | circle => cases hx
    | moved =>
      cases hx
      exact ⟨rfl, rfl, hrunning, rfl, rfl⟩
  | command hw =>
    obtain ⟨u, hu, rfl⟩ := kept_ok hx.symm
    obtain ⟨-, -, rfl⟩ := runCommand_ok hu
    exact ⟨rfl, rfl, hgoing hw, rfl, rfl⟩

def announced (s : Shell) (event : Event) (args : List String) : List (String × List String) :=
  (Hook.heard (s.registry.hooks event)).flatMap (Hook.noted · args)

theorem fire_heard {event : Event} {args : List String} {s t : Shell}
    (h : Shell.fire event args s = .ok () t) :
    Shell.Touched (fun _ => True) s t ∧ t.notes = s.notes ++ announced s event args := by
  have hheard := Shell.callAll_heard args (s.registry.hooks event)
    fun k _ => k.stores_true s.backend s.host.environ
  have hfire : Shell.callAll args (s.registry.hooks event) s = .ok () t := h
  rw [hfire] at hheard
  obtain ⟨called, -, hcalled, hall⟩ := hheard
  rw [hall rfl] at hcalled
  exact ⟨hcalled.toTouched, hcalled.notes⟩

/-- A line that is not blank: the hooks for a line are called once, and the shell goes on as it is. -/
structure Entered (line : String) (r t : Repl) : Prop where
  prompts : t.prompts = r.prompts
  running : t.running = (r.running && (Text.words line).head? ≠ some "exit")
  home : t.home? = r.home?
  notes : t.shell.notes = r.shell.notes ++ announced r.shell .preexec [line]

theorem Touched.home {P : Call → Prop} {r t : Repl} (h : Shell.Touched P r.shell t.shell) :
    t.home? = r.home? := by
  obtain ⟨cs, hran, -⟩ := h.ran
  rw [home?, home?, hran.home.1, hran.home.2]

theorem execute_entered {line : String} {r t : Repl} {status : Int}
    (h : execute line r = .ok status t) : t.lastExit = status ∧
      ((Text.words line = [] ∧ t = r) ∨ (Text.words line ≠ [] ∧ Entered line r t)) := by
  cases h ▸ execute_executed line r with
  | blank hw => exact ⟨rfl, .inl ⟨hw, rfl⟩⟩
  | @handled s _ hw hf hh =>
    obtain ⟨htouched, hnotes⟩ := fire_heard hf
    have hl := hh.left
    refine ⟨hl.lastExit, .inr ⟨hw, hl.prompts, hl.running, ?_, hl.notes.trans hnotes⟩⟩
    exact hl.home.trans (Touched.home (t := { r with shell := s }) htouched)

/-- What a round has done, with the shell as it was when the prompt was `shown` and when it was `left`
again. The hooks for a prompt are called once and before it is drawn. -/
structure Round (turn : Turn) (r shown left t : Repl) : Prop where
  fired : shown.shell.notes = r.shell.notes ++ announced r.shell .precmd []
  drawn : ∃ text, shown.prompts = r.prompts ++ [text]
  idle : Walk.cursor? shown.shell = some ""
  keys : ∃ keys, Run strike shown keys left ∧ keys.map Stage.step = turn.strokes ∧
    ∀ pre g post direction, keys = pre ++ g :: post → arrow? g.step = some direction →
      (∀ p ∈ pre, (arrow? p.step).isSome → calledBy p = []) →
      calledBy g = [] ∨ AskedFirst direction g
  unfired : left.shell.notes = shown.shell.notes ∧ left.prompts = shown.prompts
  lastExit : left.lastExit = r.lastExit
  interrupted : turn.answer = .interrupt → t = left
  ended : turn.answer = .endOfFile → t = left
  line : ∀ s, turn.answer = .line s → execute s left = .ok t.lastExit t ∧
    (Text.words s = [] ∧ t = left ∨ Text.words s ≠ [] ∧ Entered s left t)

/-- How a round is broken off: by a hook that is there for it, by a key or by the line. -/
inductive BrokenOff (turn : Turn) (r : Repl) : Failure → Repl → Prop
  | hook {k : Hook} {adds : List (String × Hook.Ending)} {t : Repl} :
      k ∈ Hook.heard (r.shell.registry.hooks .precmd) → k.action = .observe .interrupting adds →
      t.prompts = r.prompts → BrokenOff turn r .interrupted t
  | key {f : Failure} {shown u t : Repl} {keys : List (Stage Repl Stroke Unit)} {stroke : Stroke} :
      showPrompt r = .ok () shown → Run strike shown keys u →
      keys.map Stage.step ++ [stroke] <+: turn.strokes → strike stroke u = .error f t →
      BrokenOff turn r f t
  | line {f : Failure} {shown left t : Repl} {keys : List (Stage Repl Stroke Unit)} {s : String} :
      showPrompt r = .ok () shown → Run strike shown keys left →
      keys.map Stage.step = turn.strokes → turn.answer = .line s → execute s left = .error f t →
      BrokenOff turn r f t

theorem showPrompt_ok {r t : Repl} (h : showPrompt r = .ok () t) : ∃ s text,
    Shell.fire .precmd [] r.shell = .ok () s ∧
      t = { r with shell := s, prompts := r.prompts ++ [text] } := by
  cases h ▸ showPrompt_shown r with
  | drawn hf => exact ⟨_, _, hf, rfl⟩

theorem round_ok {turn : Turn} {home : Option Path} {r t : Repl} (hr : Going home r)
    (h : round turn r = .ok () t) : (∃ shown left, Round turn r shown left t) ∧ Going home t ∧
      (turn.ends = false → r.running = true → t.running = true) := by
  unfold round at h
  obtain ⟨_, shown, hshow, h⟩ := bind_ok h
  obtain ⟨_, left, hstrokes, hleave⟩ := bind_ok h
  obtain ⟨s, text, hfire, rfl⟩ := showPrompt_ok hshow
  obtain ⟨keys, hrun, hsteps⟩ := forM_ok hstrokes
  obtain ⟨htouched, hnotes⟩ := fire_heard hfire
  have hidle := fire_idle hr.active hfire
  have hstruck := struck_of_run hrun
  have hshown : Going home { r with shell := s, prompts := r.prompts ++ [text] } :=
    ⟨hr.active.of_touched htouched rfl, (Touched.home htouched).trans hr.home⟩
  have hleft : Going home left :=
    ⟨hshown.active.of_touched hstruck.touched (by rw [hstruck.rest]),
      (Touched.home hstruck.touched).trans hshown.home⟩
  have hrest : left.prompts = r.prompts ++ [text] ∧ left.lastExit = r.lastExit ∧
      left.running = r.running := by
    rw [hstruck.rest]
    exact ⟨rfl, rfl, rfl⟩
  obtain ⟨hprompts, hlast, hrunning⟩ := hrest
  have hround (hi : turn.answer = .interrupt → t = left) (he : turn.answer = .endOfFile → t = left)
      (hl : ∀ s, turn.answer = .line s → execute s left = .ok t.lastExit t ∧
        (Text.words s = [] ∧ t = left ∨ Text.words s ≠ [] ∧ Entered s left t)) :
      ∃ shown left, Round turn r shown left t :=
    ⟨_, left, hnotes, ⟨text, rfl⟩, hidle,
      ⟨keys, hrun, hsteps, fun _ _ _ _ he hd hq => first_arrow hrun hidle he hd hq⟩,
      ⟨hstruck.notes, hprompts⟩, hlast, hi, he, hl⟩
  cases ha : turn.answer with
  | interrupt =>
    rw [ha] at hleave
    cases hleave
    exact ⟨hround (fun _ => rfl) (fun _ => rfl) (by rw [ha]; nofun), hleft, fun _ h => hrunning.trans h⟩
  | endOfFile =>
    rw [ha] at hleave
    cases hleave
    exact ⟨hround (fun _ => rfl) (fun _ => rfl) (by rw [ha]; nofun), hleft, fun _ h => hrunning.trans h⟩
  | line s =>
    rw [ha] at hleave
    obtain ⟨status, hx⟩ := discard_ok hleave
    obtain ⟨rfl, hentered⟩ := execute_entered hx
    have hactive := hleft.active.execute s
    rw [hx, endOf_ok] at hactive
    refine ⟨hround (by rw [ha]; nofun) (by rw [ha]; nofun) ?_, ⟨hactive, ?_⟩, ?_⟩
    · rw [ha]
      rintro s' hs'
      cases hs'
      exact ⟨hx, hentered⟩
    · obtain ⟨-, rfl⟩ | ⟨-, he⟩ := hentered
      · exact hleft.home
      · exact he.home.trans hleft.home
    · intro hends hgoing
      obtain ⟨-, rfl⟩ | ⟨-, he⟩ := hentered
      · exact hrunning.trans hgoing
      · rw [he.running, hrunning, hgoing]
        simpa [Turn.ends, ha] using hends

theorem round_error {turn : Turn} {home : Option Path} {r t : Repl} {f : Failure}
    (hr : Going home r) (hh : home.isSome) (h : round turn r = .error f t) :
    BrokenOff turn r f t := by
  unfold round at h
  cases hshow : showPrompt r with
  | error g u =>
    rw [bind_of_error hshow] at h
    cases h
    cases hshow ▸ showPrompt_shown r with
    | broken hf =>
      obtain ⟨rfl, k, hk, adds, hadds⟩ := Shell.callAll_error hf
      exact .hook hk hadds rfl
    | homeless hf hnone =>
      obtain ⟨htouched, -⟩ := fire_heard hf
      rw [Touched.home htouched, hr.home] at hnone
      rw [hnone] at hh
      cases hh
  | ok a shown =>
    rw [bind_of_ok hshow] at h
    cases hstrokes : turn.strokes.forM strike shown with
    | error g u =>
      rw [bind_of_error hstrokes] at h
      cases h
      obtain ⟨keys, u, stroke, hrun, hsteps, hstroke⟩ := forM_error hstrokes
      exact .key hshow hrun hsteps hstroke
    | ok a left =>
      rw [bind_of_ok hstrokes] at h
      obtain ⟨keys, hrun, hsteps⟩ := forM_ok hstrokes
      cases ha : turn.answer with
      | interrupt =>
        rw [ha] at h
        cases h
      | endOfFile =>
        rw [ha] at h
        cases h
      | line s =>
        rw [ha] at h
        cases hx : execute s left with
        | ok status u =>
          rw [leave, discard_of_ok hx] at h
          cases h
        | error g u =>
          rw [leave, discard_of_error hx] at h
          cases h
          exact .line hshow hrun hsteps ha hx

theorem loop_of_stopped (turns : List Turn) {r : Repl} (hr : r.running = false) :
    loop turns r = .ok r.lastExit r := by
  cases turns <;> (unfold loop; rw [get_bind, hr]; rfl)

/-- A prompt loop does one round, and goes on unless the turn ends it. -/
theorem loop_cons (turn : Turn) (rest : List Turn) {r : Repl} (hr : r.running = true) :
    loop (turn :: rest) r = (do
      round turn
      if turn.ends then return (← get).lastExit
      loop rest : Act Repl Int) r := by
  rw [loop, round, get_bind, hr, if_neg (by decide), bind_assoc]
  cases hshow : showPrompt r with
  | error f u => rw [bind_of_error hshow, bind_of_error hshow]
  | ok a shown =>
  rw [bind_of_ok hshow, bind_of_ok hshow, bind_assoc]
  cases hstrokes : turn.strokes.forM strike shown with
  | error f u => rw [bind_of_error hstrokes, bind_of_error hstrokes]
  | ok a left =>
  rw [bind_of_ok hstrokes, bind_of_ok hstrokes, Turn.ends]
  cases turn.answer with
  | interrupt => rfl
  | endOfFile => rfl
  | line s =>
    dsimp only [leave]
    cases hx : (discard (execute s) : Act Repl Unit) left with
    | error f u => rw [bind_of_error hx, bind_of_error hx]
    | ok a u =>
      rw [bind_of_ok hx, bind_of_ok hx]
      split
      · next hexit =>
        obtain ⟨status, he⟩ := discard_ok hx
        have hexit := of_decide_eq_true hexit
        obtain ⟨-, ⟨hw, -⟩ | ⟨-, hentered⟩⟩ := execute_entered he
        · rw [hw] at hexit
          cases hexit
        · rw [loop_of_stopped rest (hentered.running.trans (by simp [hexit]))]
          rfl
      · rfl

/-- A prompt loop is its rounds, one after the other. -/
theorem loop_eq (turns : List Turn) {home : Option Path} {r : Repl} (hg : Going home r)
    (hr : r.running = true) : loop turns r = (do
      (reached turns).forM round
      return (← get).lastExit : Act Repl Int) r := by
  induction turns generalizing r with
  | nil =>
    have hlast : showPrompt r = (reached []).forM round r := by
      change showPrompt r = ((showPrompt >>= fun _ => pure ()) >>= fun _ => pure ()) r
      rw [bind_pure_unit, bind_pure_unit]
    rw [loop, get_bind, hr, if_neg (by decide)]
    exact bind_eq_of_eq hlast _
  | cons turn rest ih =>
    rw [loop_cons turn rest hr, reached]
    cases hround : round turn r with
    | error f u =>
      have hforM (more : List Turn) : (turn :: more).forM round r = .error f u :=
        bind_of_error hround
      rw [bind_of_error hround]
      by_cases hends : turn.ends
      · rw [if_pos hends, bind_of_error (hforM [])]
      · rw [if_neg hends, bind_of_error (hforM (reached rest))]
    | ok a t =>
      obtain ⟨-, ht, hgoing⟩ := round_ok hg hround
      have hforM (more : List Turn) : more.forM round t = (turn :: more).forM round r :=
        ((forM_cons_apply round turn more r).trans (bind_of_ok hround)).symm
      rw [bind_of_ok hround]
      by_cases hends : turn.ends
      · have hlast : [turn].forM round r = .ok () t := (hforM []).symm
        rw [if_pos hends, if_pos hends, bind_of_ok hlast]
      · rw [if_neg hends, if_neg hends, ih ht (hgoing (by simpa using hends) hr)]
        exact bind_eq_of_eq (hforM (reached rest)) _

def status? (g : Stage Repl Turn Unit) : Option Int :=
  match g.step.answer with
  | .line s => if Text.words s = [] then none else some g.after.lastExit
  | .interrupt | .endOfFile => none

theorem run_opening {r : Repl} (hr : Active r) : ∃ t, Opening r t ∧ Going r.home? t ∧
    ∀ turns, run turns r = loop turns t := by
  cases hrunning : r.running with
  | true =>
    refine ⟨{ r with bound := some r.shell.integration.isSome }, ⟨hrunning, rfl, rfl, rfl, rfl, rfl⟩,
      ⟨⟨hr.reset, hr.isDone, hr.selector⟩, rfl⟩, fun turns => ?_⟩
    rw [run, get_bind, if_neg (by simp [hrunning])]
    rfl
  | false =>
    obtain ⟨a, t, hstart, hopening, hgoing⟩ := start_opening hr
    refine ⟨{ t with bound := some t.shell.integration.isSome },
      ⟨hopening.running, hopening.lastExit, hopening.prompts, hopening.notes, hopening.calls,
        hopening.environ⟩,
      ⟨⟨hgoing.active.reset, hgoing.active.isDone, hgoing.active.selector⟩, hgoing.home⟩,
      fun turns => ?_⟩
    rw [run, get_bind, if_pos (by simp [hrunning]), bind_of_ok (discard_of_ok hstart)]
    rfl

theorem Round.lastExit_eq {g : Stage Repl Turn Unit} {shown left : Repl}
    (h : Round g.step g.before shown left g.after) :
    g.after.lastExit = (status? g).getD g.before.lastExit := by
  unfold status?
  cases ha : g.step.answer with
  | interrupt => rw [h.interrupted ha, h.lastExit]; rfl
  | endOfFile => rw [h.ended ha, h.lastExit]; rfl
  | line s =>
    obtain ⟨-, ⟨hw, ht⟩ | ⟨hw, -⟩⟩ := h.line s ha
    · rw [ht, h.lastExit]
      simp [hw]
    · simp [hw]

/-- The rounds of a loop, each with its prompt, and the status that is left behind. -/
theorem run_rounds {home : Option Path} {r t : Repl} {rounds : List (Stage Repl Turn Unit)}
    (hg : Going home r) (h : Run round r rounds t) :
    Going home t ∧ (∀ g ∈ rounds, ∃ shown left, Round g.step g.before shown left g.after) ∧
      t.lastExit = ((rounds.filterMap status?).getLast?).getD r.lastExit := by
  induction h with
  | nil r => exact ⟨hg, fun g hm => (List.not_mem_nil hm).elim, rfl⟩
  | @cons turn _ r s t rest ha _ ih =>
    obtain ⟨⟨shown, left, hround⟩, hs, -⟩ := round_ok hg ha
    obtain ⟨ht, hall, hlast⟩ := ih hs
    have hstatus : s.lastExit = (status? ⟨turn, r, (), s⟩).getD r.lastExit :=
      Round.lastExit_eq (g := ⟨turn, r, (), s⟩) hround
    refine ⟨ht, fun g hm => ?_, ?_⟩
    · rcases List.mem_cons.1 hm with rfl | hm
      · exact ⟨shown, left, hround⟩
      · exact hall g hm
    · rw [hlast, hstatus, List.filterMap_cons]
      cases status? ⟨turn, r, (), s⟩ with
      | none => rfl
      | some status => rw [List.getLast?_cons]; rfl

theorem exists_reached (turns : List Turn) : ∃ turn rest, reached turns = turn :: rest := by
  cases turns with
  | nil => exact ⟨_, _, rfl⟩
  | cons turn rest =>
    unfold reached
    split
    · exact ⟨_, _, rfl⟩
    · exact ⟨_, _, rfl⟩

theorem round_homeless (turn : Turn) {r : Repl} (hh : r.home? = none) :
    ∃ f t, round turn r = .error f t ∧ t.prompts = r.prompts := by
  unfold round
  generalize hx : showPrompt r = x
  cases hx ▸ showPrompt_shown r with
  | broken => exact ⟨_, _, bind_of_error hx, rfl⟩
  | homeless => exact ⟨_, _, bind_of_error hx, rfl⟩
  | drawn hf hsome =>
    rw [Touched.home (fire_heard hf).1, hh] at hsome
    cases hsome

/-- A shell with its history runs the rounds of its prompt loop one after the other, up to the first
turn that ends the loop and no further. If it can tell its home directory, it ends well, with the
status of the last line that was not blank, unless a round is broken off by a hook that is there for
it, by a key or by a line. In every round the hooks for a prompt are called once, and then the prompt is
drawn, with no walk going on: the first arrow that reaches the history program carries the buffer as
the prefix and no entry. An interrupt leaves the shell as it is. Without a home directory there are no
prompts. -/
theorem prompt_loop {r : Repl} (hr : Active r) (turns : List Turn) : ∃ r₀, Opening r r₀ ∧
    (r.home?.isSome → ∃ rounds t, Run round r₀ rounds t ∧
      (∀ g ∈ rounds, ∃ shown left, Round g.step g.before shown left g.after) ∧
      t.lastExit = ((rounds.filterMap status?).getLast?).getD r.lastExit ∧
      ((rounds.map Stage.step = reached turns ∧ run turns r = .ok t.lastExit t) ∨
        ∃ turn f u, rounds.map Stage.step ++ [turn] <+: reached turns ∧ BrokenOff turn t f u ∧
          run turns r = .error f u)) ∧
    (r.home? = none → ∃ f t, run turns r = .error f t ∧ t.prompts = r.prompts) := by
  obtain ⟨r₀, hopening, hgoing, hrun⟩ := run_opening hr
  have hloop := (hrun turns).trans (loop_eq turns hgoing hopening.running)
  refine ⟨r₀, hopening, fun hh => ?_, fun hh => ?_⟩
  · cases hx : (reached turns).forM round r₀ with
    | ok a t =>
      obtain ⟨rounds, hrounds, hsteps⟩ := forM_ok hx
      obtain ⟨-, hall, hlast⟩ := run_rounds hgoing hrounds
      rw [hopening.lastExit] at hlast
      exact ⟨rounds, t, hrounds, hall, hlast, .inl ⟨hsteps, hloop.trans (bind_of_ok hx)⟩⟩
    | error f u =>
      obtain ⟨rounds, t, turn, hrounds, hsteps, hround⟩ := forM_error hx
      obtain ⟨ht, hall, hlast⟩ := run_rounds hgoing hrounds
      rw [hopening.lastExit] at hlast
      exact ⟨rounds, t, hrounds, hall, hlast, .inr ⟨turn, f, u, hsteps, round_error ht hh hround,
        hloop.trans (bind_of_error hx)⟩⟩
  · obtain ⟨turn, rest, hreached⟩ := exists_reached turns
    obtain ⟨f, t, hround, hprompts⟩ := round_homeless turn (hgoing.home.trans hh)
    refine ⟨f, t, ?_, hprompts.trans hopening.prompts⟩
    rw [hloop, hreached]
    exact bind_of_error (bind_of_error hround)

/-- A shell in the middle of a walk, with an observer of its prompts. Its history program finds an
entry, and its first command fails. -/
def walking : Repl :=
  let h := Host.scripted ⟨[("HOME", "/"), (Session.tokenName, "t"), (Setup.sentinelName, "1")]⟩
    [(.backend "move", [.exited ⟨"10|git commit\n", "", 0⟩]), (.commandLine, [.exited ⟨"", "", 2⟩])]
  { create h .default true with
    running := true
    shell := { Shell.create h .default with
      registry := ⟨[Hook.captureOf ⟨"t", none⟩],
        [Hook.resetOf 0, Hook.observer "drawing" .precmd .quiet []]⟩
      integration := some ⟨0, ⟨⟨"t", none⟩, .default, "9", none⟩, true⟩ } }

theorem walking_active : Active walking :=
  ⟨⟨_, rfl, _, List.mem_cons_self, rfl⟩, rfl, ⟨_, rfl⟩⟩

/-- An arrow and an interrupt, two lines of which one is blank, and the end of the shell, which does
not come to the last line. -/
theorem prompt_loop_sample :
    let turns := [⟨[.edit "git" 3, .key .up 1], .interrupt⟩, ⟨[], .line "git commit"⟩,
      ⟨[], .line " "⟩, ⟨[], .line "exit"⟩, ⟨[], .line "ls"⟩]
    ∃ r₀ rounds t, Opening walking r₀ ∧ Run round r₀ rounds t ∧
      rounds.map Stage.step = turns.take 4 ∧ run turns walking = .ok 2 t ∧
      t.prompts = ["~ $ ", "~ $ ", "~ [2]$ ", "~ [2]$ "] ∧
      t.shell.notes = [("drawing", []), ("drawing", []), ("drawing", []), ("drawing", [])] := by
  intro turns
  have hanswer : (answerOf (run turns walking)).toOption = some 2 := by decide +kernel
  have hprompts : (endOf (run turns walking)).prompts = ["~ $ ", "~ $ ", "~ [2]$ ", "~ [2]$ "] := by
    decide +kernel
  have hnotes : (endOf (run turns walking)).shell.notes =
      [("drawing", []), ("drawing", []), ("drawing", []), ("drawing", [])] := by
    decide +kernel
  obtain ⟨r₀, hopening, hrounds, -⟩ := prompt_loop walking_active turns
  obtain ⟨rounds, t, hr, -, -, ⟨hsteps, hrun⟩ | ⟨turn, f, u, -, -, hrun⟩⟩ := hrounds (by decide)
  · rw [hrun] at hanswer hprompts hnotes
    have hlast : t.lastExit = 2 := Option.some.inj hanswer
    exact ⟨r₀, rounds, t, hopening, hr, hsteps, by rw [hrun, hlast], hprompts, hnotes⟩
  · rw [hrun] at hanswer
    cases hanswer

def homeless : Repl :=
  { walking with shell := { walking.shell with host := { walking.shell.host with
    login := ⟨[("HOME", "~x")]⟩ } } }

/-- A shell that cannot tell its home directory fails at its first prompt, although there is nothing
but the end of the input: no key and no line. -/
theorem homeless_prompt : Active homeless ∧ ∃ t, run [] homeless = .error .homeless t ∧
    t.prompts = [] ∧ t.shell.notes = [("drawing", [])] := by
  refine ⟨⟨⟨_, rfl, _, List.mem_cons_self, rfl⟩, rfl, ⟨_, rfl⟩⟩, ?_⟩
  have hfailure : ScriptMode.failureOf (run [] homeless) = some .homeless := by decide +kernel
  have hprompts : (endOf (run [] homeless)).prompts = [] := by decide +kernel
  have hnotes : (endOf (run [] homeless)).shell.notes = [("drawing", [])] := by decide +kernel
  cases hrun : run [] homeless with
  | ok status t =>
    rw [hrun] at hfailure
    cases hfailure
  | error f t =>
    rw [hrun] at hfailure hprompts hnotes
    cases hfailure
    exact ⟨t, rfl, hprompts, hnotes⟩

end Repl
end ShellHistory

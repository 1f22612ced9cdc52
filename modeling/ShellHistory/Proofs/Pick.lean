import ShellHistory.Proofs.Decoding
import ShellHistory.Proofs.Started

/-! Searches from end to end: the listing goes to the selector as it is, and the record that the
selector prints comes back as the line and the id that the listing had for it. -/

namespace ShellHistory

open Act

namespace Host

def Inspects {α : Type} (act : Act Host α) : Prop :=
  ∀ h h', h'.files = h.files → h'.cwd = h.cwd →
    answerOf (act h') = answerOf (act h) ∧ ∃ records, endOf (act h) = { h with records := records }

section Inspects

variable {α β : Type}

theorem inspects_pure (a : α) : Inspects (pure a : Act Host α) :=
  fun h _ _ _ => ⟨rfl, h.records, rfl⟩

theorem inspects_throw (f : Failure) : Inspects (throw f : Act Host α) :=
  fun h _ _ _ => ⟨rfl, h.records, rfl⟩

theorem Inspects.bind {act : Act Host α} {f : α → Act Host β} (hact : Inspects act)
    (hf : ∀ a, Inspects (f a)) : Inspects (act >>= f) := by
  intro h h' hfiles hcwd
  obtain ⟨ha, records, hend⟩ := hact h h' hfiles hcwd
  obtain ⟨-, records', hend'⟩ := hact h' h' rfl rfl
  cases hx : act h with
  | error e t =>
    cases hy : act h' with
    | ok b u => simp [hx, hy, answerOf] at ha
    | error e' u =>
      rw [hx, hy] at ha
      rw [hx] at hend
      rw [bind_of_error hx, bind_of_error hy]
      exact ⟨congrArg Except.error (Except.error.inj ha), records, hend⟩
  | ok a t =>
    cases hy : act h' with
    | error e' u => simp [hx, hy, answerOf] at ha
    | ok b u =>
      rw [hx, hy] at ha
      cases ha
      rw [hx, endOf_ok] at hend
      rw [hy, endOf_ok] at hend'
      subst hend hend'
      rw [bind_of_ok hx, bind_of_ok hy]
      exact hf a _ _ hfiles hcwd

theorem inspects_log (level : Level) (source message : String) (cause : Option Failure) :
    Inspects (log level source message cause) := by
  intro h h' _ _
  obtain ⟨records, hl⟩ := log_apply level source message cause h
  obtain ⟨records', hl'⟩ := log_apply level source message cause h'
  rw [hl, hl']
  exact ⟨rfl, records, rfl⟩

theorem readText_congr (path : Path) {h h' : Host} (hfiles : h'.files = h.files)
    (hcwd : h'.cwd = h.cwd) : answerOf (readText path h') = answerOf (readText path h) := by
  unfold readText
  rw [get_bind, get_bind, hfiles, hcwd]
  cases h.files.read h.cwd path.toText with
  | error e => rfl
  | ok bytes =>
    cases ht : String.fromUTF8? bytes with
    | none => simp only [ht]; rfl
    | some text => simp only [ht]; rfl

end Inspects

end Host

/-- The outcome that is next for the role of a process is how the process ends. -/
theorem Host.next_of_outcomes {h : Host} {c : Call} {o : Outcome} {more : List Outcome}
    (ho : h.outcomes c.job.role = o :: more) : h.next c = h.read o := by
  rw [next_eq, ho]
  rfl

namespace Backend

variable {b : Backend} {args : List String} {session : Option Session} {captured : Bool} {h : Host}

theorem run_of_exited {call : Call} {x : Exit}
    (hc : b.call? args session captured h.environ = .ok call) (ht : h.untold? call = none)
    (hx : h.next call = .exited x) :
    ∃ noted, b.run args session captured h =
      .ok ⟨call.job.argv, if captured then x.stdout else "", x.stderr, x.status⟩
        { h.after call with records := noted } := by
  generalize hr : b.run args session captured h = y
  cases hr ▸ b.run_called args session captured h with
  | unusable hc' => cases hc.symm.trans hc'
  | untold hc' hf =>
    cases hc.symm.trans hc'
    cases ht.symm.trans hf
  | interrupted hc' _ ho | garbled hc' _ ho =>
    cases hc.symm.trans hc'
    cases hx.symm.trans ho
  | @ended _ r records hc' _ ho =>
    cases hc.symm.trans hc'
    rw [hx] at ho
    cases ho
    exact ⟨records, rfl⟩

end Backend

def Context.picked (c : Context) : Option Entry → Context
  | some e => { c with lastSelected := some e.id }
  | none => c

/-- A listing of the history: its records, each with a `NUL` behind it. -/
def Entry.listing (entries : List Entry) : String :=
  String.join (entries.map fun e => e.record ++ "\x00")

namespace Search

open Host

theorem optionsFile_apply (path : String) (h : Host) :
    optionsFile path h =
      match answerOf (readText (Path.ofString path) h) with
      | .ok text => .ok (Text.strip text) h
      | .error (.file .badName p) => .error (.file .badName p) h
      | .error (.file e p) =>
        (do log .debug source ("cannot read " ++ path ++ ": " ++ e.message p); return "") h
      | .error f => .error f h := by
  have hidle := readText_idle (Path.ofString path) h
  unfold optionsFile
  generalize readText (Path.ofString path) h = x at hidle
  cases x with
  | ok text t =>
    cases hidle
    rfl
  | error f t =>
    cases hidle
    cases f with
    | file e p => cases e <;> rfl
    | _ => rfl

theorem optionsFile_inspects (path : String) : Inspects (optionsFile path) := by
  intro h h' hfiles hcwd
  rw [optionsFile_apply, optionsFile_apply, readText_congr (Path.ofString path) hfiles hcwd]
  generalize answerOf (readText (Path.ofString path) h) = x
  split
  · exact ⟨rfl, h.records, rfl⟩
  · exact ⟨rfl, h.records, rfl⟩
  · exact (inspects_log _ _ _ _).bind (fun _ => inspects_pure "") h h' hfiles hcwd
  · exact ⟨rfl, h.records, rfl⟩

theorem defaults_inspects (c : Config) (e : Environment) : Inspects (defaults c e) := by
  unfold defaults
  dsimp only
  cases e.filled? "FZF_DEFAULT_OPTS_FILE"
  case' none => refine (inspects_pure _).bind fun fromFile => ?_
  case' some path => refine (optionsFile_inspects path).bind fun fromFile => ?_
  all_goals
    split
    · exact inspects_pure _
    · split
      · exact inspects_throw _
      · exact inspects_pure _

/-- What the options of the selector come to. Whatever that is, there are only new records. -/
theorem defaults_apply (c : Config) (e : Environment) (h : Host) :
    ∃ noted, defaults c e h =
      match answerOf (defaults c e h) with
      | .ok options => .ok options { h with records := noted }
      | .error f => .error f { h with records := noted } := by
  obtain ⟨-, noted, hend⟩ := defaults_inspects c e h h rfl rfl
  refine ⟨noted, ?_⟩
  rw [← hend]
  cases defaults c e h <;> rfl

/-- The process of the selector. There is none if its words or its options cannot be had. -/
def selectorCall? (c : Config) (records query : String) (h : Host) : Except Failure Call := do
  let words ← selectorWords c.selector
  let options ← answerOf (defaults c h.environ h)
  return ⟨.selector (words ++ ["--query=" ++ query]) records,
    (h.environ.set "FZF_DEFAULT_OPTS" options).set "FZF_DEFAULT_OPTS_FILE" ""⟩

theorem selectorCall?_ok {c : Config} {records query : String} {h : Host} {call : Call}
    (hc : selectorCall? c records query h = .ok call) :
    ∃ words options, selectorWords c.selector = .ok words ∧
      answerOf (defaults c h.environ h) = .ok options ∧
      call = ⟨.selector (words ++ ["--query=" ++ query]) records,
        (h.environ.set "FZF_DEFAULT_OPTS" options).set "FZF_DEFAULT_OPTS_FILE" ""⟩ := by
  unfold selectorCall? at hc
  obtain ⟨words, hw, hc⟩ := except_bind_ok hc
  obtain ⟨options, ho, hc⟩ := except_bind_ok hc
  cases hc
  exact ⟨words, options, hw, ho, rfl⟩

theorem selectorCall?_ran (c : Config) (records query : String) {h h' : Host} {cs : List Call}
    (hr : Ran h cs h') : selectorCall? c records query h' = selectorCall? c records query h := by
  obtain ⟨scripts, records', rfl⟩ := hr
  have hd := (defaults_inspects c h.environ h
    { h with scripts := scripts, calls := h.calls ++ cs, records := records' } rfl rfl).1
  simp only [selectorCall?, hd]

/-- What the selector comes to: what it has printed and its status, unless that is no text, or the
selector could not be launched although it is there. -/
def selected (program : String) : ShellHistory.Outcome → Except Failure (String × Int)
  | .exited x => .ok (x.stdout, x.status)
  | .garbled _ => .error .encoding
  | .refused .notFound => .ok ("", missing)
  | .refused e => .error (.file e program)
  | .interrupted => .ok ("", cancelled)

theorem runSelector_of_call {c : Config} {records query : String} {h : Host} {call : Call}
    (hc : selectorCall? c records query h = .ok call) (ht : h.untold? call = none) :
    ∃ noted, runSelector c records query h =
      (ofExcept (selected call.job.program (h.next call)) : Act Host (String × Int))
        { h.after call with records := noted } := by
  obtain ⟨words, options, hw, ho, hcall⟩ := selectorCall?_ok hc
  obtain ⟨noted, hd⟩ := defaults_apply c h.environ h
  rw [ho] at hd
  have hnext : next { h with records := noted } call = h.next call := rfl
  have htold : untold? { h with records := noted } _ = none := hcall ▸ ht
  unfold runSelector
  rw [hw, ofExcept_ok, pure_bind, get_bind, bind_of_ok hd, bind_of_ok (launch_of_told htold), ← hcall,
    hnext]
  cases h.next call with
  | exited x | garbled status | interrupted => exact ⟨noted, rfl⟩
  | refused e =>
    subst hcall
    cases e with
    | notFound =>
      obtain ⟨noted', hl⟩ := log_apply .debug source
        ("selector " ++ (words ++ ["--query=" ++ query]).headD "" ++ " not found") none
        (after { h with records := noted } _)
      exact ⟨noted', bind_of_ok hl⟩
    | _ => exact ⟨noted, rfl⟩

theorem runSelector_of_untold {c : Config} {records query : String} {h : Host} {call : Call}
    {f : Failure} (hc : selectorCall? c records query h = .ok call)
    (hf : h.untold? call = some f) :
    ∃ noted, runSelector c records query h = .error f { h with records := noted } := by
  obtain ⟨words, options, hw, ho, hcall⟩ := selectorCall?_ok hc
  obtain ⟨noted, hd⟩ := defaults_apply c h.environ h
  rw [ho] at hd
  subst hcall
  refine ⟨noted, ?_⟩
  unfold runSelector
  rw [hw, ofExcept_ok, pure_bind, get_bind, bind_of_ok hd]
  exact bind_of_error (launch_of_untold (show untold? { h with records := noted } _ = some f from hf))

/-- A selector that has run says what it has printed, and how it has ended. -/
theorem runSelector_of_exited {c : Config} {records query : String} {h : Host} {call : Call}
    {x : Exit} (hc : selectorCall? c records query h = .ok call) (ht : h.untold? call = none)
    (hx : h.next call = .exited x) :
    ∃ noted, runSelector c records query h =
      .ok (x.stdout, x.status) { h.after call with records := noted } := by
  obtain ⟨noted, hr⟩ := runSelector_of_call hc ht
  rw [hx] at hr
  exact ⟨noted, hr⟩

theorem runSelector_of_error {c : Config} {records query : String} {h : Host} {f : Failure}
    (hc : selectorCall? c records query h = .error f) :
    ∃ noted, runSelector c records query h = .error f { h with records := noted } := by
  unfold selectorCall? at hc
  unfold runSelector
  cases hw : selectorWords c.selector with
  | error g =>
    rw [hw] at hc
    cases hc
    exact ⟨h.records, rfl⟩
  | ok words =>
    obtain ⟨noted, hd⟩ := defaults_apply c h.environ h
    cases ho : answerOf (defaults c h.environ h) with
    | error g =>
      rw [hw, ho] at hc
      cases hc
      rw [ho] at hd
      rw [ofExcept_ok, pure_bind, get_bind, bind_of_error hd]
      exact ⟨noted, rfl⟩
    | ok options =>
      rw [hw, ho] at hc
      cases hc

def listingCall? (b : Backend) (c : Context) (h : Host) : Except Failure Call :=
  b.call? (["history", "--fzf"] ++ c.config.searchArgs) (some c.session) true h.environ

theorem listingCall?_ok {b : Backend} {c : Context} {h : Host} {call : Call}
    (hc : listingCall? b c h = .ok call) : ∃ binary,
      call.job = .backend (binary :: "history" :: "--fzf" :: c.config.searchArgs) true := by
  obtain ⟨binary, -, -, hjob⟩ := Backend.call?_ok hc
  exact ⟨binary, hjob⟩

/-- Whether the search goes on to the selector when the listing has ended so. -/
def goesOn (listed : Exit) : Bool := listed.status = 0 || !listed.stdout.isEmpty

theorem stays_iff {argv : List String} {listed : Exit} :
    (!Backend.Result.success ⟨argv, listed.stdout, listed.stderr, listed.status⟩ &&
      listed.stdout.isEmpty) = true ↔ goesOn listed = false := by
  simp [goesOn, Backend.Result.success]

variable {b : Backend} {c : Context} {buffer : String} {h : Host} {call chosen : Call}
  {listed x : Exit} {more more' : List ShellHistory.Outcome}

theorem run_of_exited (hc : listingCall? b c h = .ok call) (ht : h.untold? call = none)
    (hl : h.next call = .exited listed) (hgo : goesOn listed)
    (hs : selectorCall? c.config listed.stdout buffer h = .ok chosen)
    (ht' : h.untold? chosen = none) (hx : (h.after call).next chosen = .exited x) :
    ∃ noted, run b c buffer h =
      .ok (⟨(Entry.ofSelection? x.stdout).map Entry.line, x.status⟩,
          c.picked (Entry.ofSelection? x.stdout))
        { (h.after call).after chosen with records := noted } := by
  obtain ⟨noted, hr⟩ := Backend.run_of_exited hc ht hl
  have hran : Ran h [call] { h.after call with records := noted } := ⟨_, noted, rfl⟩
  obtain ⟨noted', hr'⟩ := runSelector_of_exited
    ((selectorCall?_ran c.config listed.stdout buffer hran).trans hs)
    (show untold? { h.after call with records := noted } chosen = none from ht')
    (show next { h.after call with records := noted } chosen = .exited x from hx)
  refine ⟨noted', ?_⟩
  unfold run
  rw [Backend.history, bind_of_ok hr, if_pos rfl, if_neg (stays_iff.not.2 (by simp [hgo])),
    bind_of_ok hr']
  cases he : Entry.ofSelection? x.stdout with
  | none => simp only [he]; rfl
  | some e => simp only [he]; rfl

/-- A search gets to its selector: its listing can be asked for and goes on, and the selector can be
told what was listed. -/
structure GetsTo (b : Backend) (c : Context) (buffer : String) (h : Host) (listed : Exit)
    (call chosen : Call) : Prop where
  listing : listingCall? b c h = .ok call
  asked : h.untold? call = none
  goesOn : goesOn (h.hear listed)
  selector : selectorCall? c.config (h.heard listed.stdout) buffer h = .ok chosen
  told : h.untold? chosen = none

theorem getsTo_of_started (hl : h.outcomes (.backend "history") = .exited listed :: more)
    (hs : ∃ call ∈ h.startedSince (endOf (run b c buffer h)), call.job.role = .selector) :
    ∃ call chosen, GetsTo b c buffer h listed call chosen := by
  -- nothing has been started
  have hnone {f : Failure} (hr : b.history c.config.searchArgs (some c.session) h = .error f h) :
      False := by
    rw [run, bind_of_error hr, endOf_error, startedSince_of_calls (List.append_nil _).symm] at hs
    simp at hs
  cases hc : listingCall? b c h with
  | error f => exact (hnone (Backend.run_of_error hc)).elim
  | ok call =>
  cases ht : h.untold? call with
  | some f => exact (hnone (Backend.run_of_untold hc ht)).elim
  | none =>
    obtain ⟨binary, hjob⟩ := listingCall?_ok hc
    have hrole : call.job.role = .backend "history" := by rw [hjob]; rfl
    obtain ⟨noted, hr⟩ := Backend.run_of_exited hc ht (next_of_outcomes (by rw [hrole, hl]))
    -- only the listing has been started, which is no selector
    have hone {m : Host} (hm : m.calls = h.calls ++ [call])
        (hs : ∃ call ∈ h.startedSince m, call.job.role = .selector) : False := by
      rw [startedSince_of_calls hm] at hs
      simp [hrole] at hs
    have hran : Ran h [call] { h.after call with records := noted } := ⟨_, noted, rfl⟩
    have hsame := selectorCall?_ran c.config (h.hear listed).stdout buffer hran
    rw [run, Backend.history, bind_of_ok hr, if_pos rfl] at hs
    by_cases hgo : goesOn (h.hear listed) = true
    · rw [if_neg (stays_iff.not.2 (by simp [hgo]))] at hs
      cases hsel : selectorCall? c.config (h.hear listed).stdout buffer h with
      | error f =>
        obtain ⟨noted', hr'⟩ := runSelector_of_error (hsame.trans hsel)
        rw [bind_of_error hr'] at hs
        exact (hone rfl hs).elim
      | ok chosen =>
      cases ht' : h.untold? chosen with
      | some f =>
        obtain ⟨noted', hr'⟩ := runSelector_of_untold (hsame.trans hsel)
          (show untold? { h.after call with records := noted } chosen = some f from ht')
        rw [bind_of_error hr'] at hs
        exact (hone rfl hs).elim
      | none => exact ⟨call, chosen, hc, ht, hgo, hsel, ht'⟩
    · rw [if_pos (stays_iff.2 (by simpa using hgo))] at hs
      exact (hone rfl hs).elim

/-- Both processes run, the selector on what the listing has printed. -/
theorem GetsTo.run_eq (hg : GetsTo b c buffer h listed call chosen)
    (hl : h.outcomes (.backend "history") = .exited listed :: more)
    (hp : h.outcomes .selector = .exited x :: more') :
    ∃ h', run b c buffer h =
      .ok (⟨(Entry.ofSelection? (h.heard x.stdout)).map Entry.line, x.status⟩,
        c.picked (Entry.ofSelection? (h.heard x.stdout))) h' ∧
      h.startedSince h' = [call, chosen] := by
  obtain ⟨binary, hjob⟩ := listingCall?_ok hg.listing
  obtain ⟨words, options, -, -, hchosen⟩ := selectorCall?_ok hg.selector
  have hrole : call.job.role = .backend "history" := by rw [hjob]; rfl
  have hrole' : chosen.job.role = .selector := by rw [hchosen]; rfl
  have hne : Role.selector ≠ call.job.role := by rw [hrole]; exact nofun
  have hnext : (h.after call).next chosen = .exited (h.hear x) :=
    next_of_outcomes (by rw [hrole', outcomes_after_of_ne h call hne, hp])
  obtain ⟨noted, hr⟩ := run_of_exited hg.listing hg.asked (next_of_outcomes (by rw [hrole, hl]))
    hg.goesOn hg.selector hg.told hnext
  exact ⟨_, hr, startedSince_of_calls (List.append_assoc _ _ _)⟩

/-- When a search starts the selector at all. -/
theorem selector_started_iff (hl : h.outcomes (.backend "history") = .exited listed :: more)
    (hp : h.outcomes .selector = .exited x :: more') :
    (∃ call ∈ h.startedSince (endOf (run b c buffer h)), call.job.role = .selector) ↔
      ∃ call chosen, GetsTo b c buffer h listed call chosen := by
  refine ⟨getsTo_of_started hl, fun ⟨call, chosen, hg⟩ => ?_⟩
  obtain ⟨h', hr, hstarted⟩ := hg.run_eq hl hp
  obtain ⟨words, options, -, -, rfl⟩ := selectorCall?_ok hg.selector
  rw [hr, endOf_ok, hstarted]
  exact ⟨_, List.mem_cons_of_mem _ List.mem_cons_self, rfl⟩

/-- What a search does when its selector has ended as `x`: it takes over the status; it changes
nothing exactly if there are only `NUL`s before a terminator; and all that is printed is the line if
there is no tab in it. -/
structure Answered (c : Context) (x : Exit) (o : Outcome) (c' : Context) : Prop where
  status : o.status = x.status
  nothing : o.line = none ↔
    ∃ n, ∃ t ∈ [[], ['\n'], ['\r', '\n']], x.stdout.toList = List.replicate n '\x00' ++ t
  kept : o.line = none → c' = c
  whole : '\t' ∉ x.stdout.toList → ∀ line, o.line = some line →
    c' = { c with lastSelected := some "" } ∧ line.toList.getLast? ≠ some '\x00' ∧
      ∃ n, x.stdout.toList =
        line.toList ++ List.replicate n '\x00' ++ Text.terminator x.stdout.toList

theorem answered_ofSelection? (c : Context) (x : Exit) :
    Answered c x ⟨(Entry.ofSelection? x.stdout).map Entry.line, x.status⟩
      (c.picked (Entry.ofSelection? x.stdout)) := by
  refine ⟨rfl, ?_, ?_, ?_⟩
  · rw [Option.map_eq_none_iff, Entry.ofSelection?_eq_none_iff]
  · intro hnone
    rw [Option.map_eq_none_iff.1 hnone]
    rfl
  · intro htab line hline
    obtain ⟨e, he, rfl⟩ := Option.map_eq_some_iff.1 hline
    obtain ⟨hid, hlast, hwhole⟩ := Entry.ofSelection?_of_notMem htab he
    rw [he, Context.picked, hid]
    exact ⟨rfl, hlast, hwhole⟩

/-- An entry as it is read when a process prints it. -/
def heardEntry (h : Host) (e : Entry) : Entry := ⟨h.heard e.id, h.heard e.line⟩

theorem heard_append {s t : String} (hs : s.toList.getLast? = some '\r' → t.toList.head? ≠ some '\n') :
    h.heard (s ++ t) = h.heard s ++ h.heard t := by
  unfold heard
  cases h.processes with
  | played => rfl
  | system => exact Text.unifiedBreaks_append hs

/-- A text with no half of a line terminator is read as it is. -/
theorem heard_of_plain {s : String} (hs : h.processes = .played ∨ '\r' ∉ s.toList) :
    h.heard s = s := by
  unfold heard
  split
  · next hsystem =>
    rcases hs with hplayed | hplain
    · cases hsystem.symm.trans hplayed
    · exact Text.unifiedBreaks_of_notMem hplain
  · rfl

theorem plain_heard (h : Host) (s : String) : h.processes = .played ∨ '\r' ∉ (h.heard s).toList := by
  unfold heard
  cases h.processes with
  | played => exact .inl rfl
  | system => exact .inr (by simpa [Text.unifiedBreaks] using Text.notMem_unifyBreaks s.toList)

theorem mem_of_mem_heard {d : Char} {s : String} (hd : d ≠ '\n') (hm : d ∈ (h.heard s).toList) :
    d ∈ s.toList := by
  unfold heard at hm
  cases hp : h.processes with
  | played => rwa [hp] at hm
  | system =>
    rw [hp] at hm
    exact Text.mem_of_mem_unifyBreaks hd (by simpa [Text.unifiedBreaks] using hm)

theorem heard_listing (h : Host) (entries : List Entry) :
    h.heard (Entry.listing entries) = Entry.listing (entries.map (heardEntry h)) := by
  have hcons (e : Entry) (rest : List Entry) : Entry.listing (e :: rest) =
      e.id ++ ("\t" ++ (e.line ++ ("\x00" ++ Entry.listing rest))) := by
    simp [Entry.listing, Entry.record, String.append_assoc]
  induction entries with
  | nil => exact heard_of_plain (.inr (by decide))
  | cons e rest ih =>
    rw [List.map_cons, hcons, hcons, heard_append (by simp), heard_append (by simp),
      heard_append (by simp), heard_append (by simp), ih,
      heard_of_plain (s := "\t") (.inr (by decide)), heard_of_plain (s := "\x00") (.inr (by decide))]
    rfl

theorem heardEntry_listable {e : Entry} (he : e.Listable) : (heardEntry h e).Listable where
  tab := fun hm => he.tab (mem_of_mem_heard (by decide) hm)
  nul_id := fun hm => he.nul_id (mem_of_mem_heard (by decide) hm)
  nul_line := fun hm => he.nul_line (mem_of_mem_heard (by decide) hm)
  last := by
    rcases plain_heard h e.line with hplayed | hplain
    · rw [show (heardEntry h e).line = h.heard e.line from rfl, heard_of_plain (.inl hplayed)]
      exact he.last
    · exact fun hl => hplain (List.mem_of_getLast? hl)

/-- A record that has been read is printed and read again as it is. -/
theorem heard_record {s : String} (e : Entry) (hs : '\r' ∉ s.toList) :
    h.heard ((heardEntry h e).record ++ s) = (heardEntry h e).record ++ s := by
  refine heard_of_plain ?_
  rcases plain_heard h e.id with hplayed | hid
  · exact .inl hplayed
  rcases plain_heard h e.line with hplayed | hline
  · exact .inl hplayed
  right
  simp [Entry.record, heardEntry, hid, hline, hs]

/-- A search that gets to its selector starts it, on the listing as it is read, and with the buffer as
the query. If the selector prints a record that it has been handed, the search comes back with its
line and notes its id; and whatever else it prints is told apart without a failure. A text is read as
it is, but for the line terminators of a process of the system. -/
theorem pick_returned (hl : h.outcomes (.backend "history") = .exited listed :: more)
    (hp : h.outcomes .selector = .exited x :: more') (hg : GetsTo b c buffer h listed call chosen) :
    ∃ o c' h' binary words, run b c buffer h = .ok (o, c') h' ∧
      h.startedSince h' = [call, chosen] ∧
      call.job = .backend (binary :: "history" :: "--fzf" :: c.config.searchArgs) true ∧
      chosen.job = .selector (words ++ ["--query=" ++ buffer]) (h.heard listed.stdout) ∧
      (∀ entries, (∀ e ∈ entries, Entry.Listable e) → listed.stdout = Entry.listing entries →
        h.heard listed.stdout = Entry.listing (entries.map (heardEntry h)) ∧
        ∀ e ∈ entries.map (heardEntry h), x.stdout = e.record ++ "\n" ∨ x.stdout = e.record ++ "\x00" →
          o = ⟨some e.line, x.status⟩ ∧ c' = { c with lastSelected := some e.id }) ∧
      (∀ s, h.processes = .played ∨ '\r' ∉ s.toList → h.heard s = s) ∧
      Answered c (h.hear x) o c' := by
  obtain ⟨h', hr, hcalls⟩ := hg.run_eq hl hp
  obtain ⟨binary, hjob⟩ := listingCall?_ok hg.listing
  obtain ⟨words, options, -, -, hchosen⟩ := selectorCall?_ok hg.selector
  refine ⟨_, _, h', binary, words, hr, hcalls, hjob, by rw [hchosen], ?_,
    fun s hs => heard_of_plain hs, answered_ofSelection? c (h.hear x)⟩
  intro entries hentries hlisted
  refine ⟨by rw [hlisted, heard_listing], fun e he hprinted => ?_⟩
  obtain ⟨e, hmem, rfl⟩ := List.mem_map.1 he
  have hheard : h.heard x.stdout = x.stdout := by
    rcases hprinted with hx | hx
    · rw [hx, heard_record e (by decide)]
    · rw [hx, heard_record e (by decide)]
  rw [hheard, (heardEntry_listable (hentries e hmem)).ofSelection? hprinted]
  exact ⟨rfl, rfl⟩

/-- Three entries, one of them with every mark in its line that a listing or a selection is read
by. -/
def entries : List Entry := [⟨"3", "git commit"⟩, ⟨"2", "printf 'a\tb' |\n"⟩, ⟨"", ""⟩]

def searched : Host :=
  Host.scripted .empty [(.backend "history", [.exited ⟨Entry.listing entries, "", 1⟩]),
    (.selector, [.exited ⟨"2\tprintf 'a\tb' |\n\n", "", 0⟩])]

def searching : Context := ⟨⟨"t", none⟩, .default, "10", none⟩

theorem pick_returned_sample : ∃ h',
    run ⟨.text "vellum", .null⟩ searching "-- git" searched =
      .ok (⟨some "printf 'a\tb' |\n", 0⟩, { searching with lastSelected := some "2" }) h' := by
  have hl : searched.outcomes (.backend "history") = [.exited ⟨Entry.listing entries, "", 1⟩] := rfl
  have hp : searched.outcomes .selector = [.exited ⟨"2\tprintf 'a\tb' |\n\n", "", 0⟩] := rfl
  have hentries : ∀ e ∈ entries, e.Listable := by
    intro e he
    simp only [entries, List.mem_cons, List.not_mem_nil, or_false] at he
    rcases he with rfl | rfl | rfl <;> exact ⟨by decide, by decide, by decide, by decide⟩
  obtain ⟨call, chosen, hg⟩ : ∃ call chosen, GetsTo ⟨.text "vellum", .null⟩ searching "-- git" searched
      ⟨Entry.listing entries, "", 1⟩ call chosen := ⟨_, _, rfl, rfl, rfl, rfl, rfl⟩
  obtain ⟨o, c', h', _, _, hr, -, -, -, hpick, -⟩ := pick_returned hl hp hg
  have hmem : heardEntry searched ⟨"2", "printf 'a\tb' |\n"⟩ ∈ entries.map (heardEntry searched) :=
    List.mem_map_of_mem (by simp [entries])
  obtain ⟨rfl, rfl⟩ := (hpick entries hentries rfl).2 _ hmem (.inl rfl)
  exact ⟨h', hr⟩

/-- A machine of processes of the system that list a line with a `\r` in it, and pick it. -/
def returning : Host :=
  { Host.scripted .empty [(.backend "history", [.exited ⟨"2\tprintf 'a\rb'\x00", "", 0⟩]),
      (.selector, [.exited ⟨"2\tprintf 'a\rb'\n", "", 0⟩])] with
    processes := .system }

/-- The line that comes back is not the one that is listed, and what is printed without a tab loses
its line terminator. -/
theorem pick_altered :
    Entry.Listable ⟨"2", "printf 'a\rb'"⟩ ∧
    Entry.listing [⟨"2", "printf 'a\rb'"⟩] = "2\tprintf 'a\rb'\x00" ∧
    (∃ h', run ⟨.text "vellum", .null⟩ searching "" returning =
      .ok (⟨some "printf 'a\nb'", 0⟩, { searching with lastSelected := some "2" }) h') ∧
    Entry.ofSelection? "ls\n" = some ⟨"", "ls"⟩ := by
  refine ⟨⟨by decide, by decide, by decide, by decide⟩, rfl, ?_, by decide +kernel⟩
  have hread : Entry.ofSelection? (returning.heard "2\tprintf 'a\rb'\n") =
      some ⟨"2", "printf 'a\nb'"⟩ := by decide +kernel
  obtain ⟨call, chosen, hg⟩ : ∃ call chosen, GetsTo ⟨.text "vellum", .null⟩ searching "" returning
      ⟨"2\tprintf 'a\rb'\x00", "", 0⟩ call chosen :=
    ⟨_, _, rfl, by decide +kernel, rfl, rfl, by decide +kernel⟩
  obtain ⟨h', hr, -⟩ := hg.run_eq rfl rfl
  rw [hread] at hr
  exact ⟨h', hr⟩

end Search
end ShellHistory

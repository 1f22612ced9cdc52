import ShellHistory.Shell
import ShellHistory.Proofs.Pick
import ShellHistory.Proofs.Resolution

/-! How searches end. Two processes and a file with options may all fail, and most of it ends the
search quietly: the line stays, a status says why, and the place in the history is as before. What
is not caught is a selector that is there and cannot be launched, options and outputs that are no
text, and a process that cannot be told its call. -/

namespace ShellHistory

open Act

namespace Host

theorem answerOf_readText (path : Path) (h : Host) : answerOf (readText path h) =
    match h.files.read h.cwd path.toText with
    | .error e => .error (.file e path.toText)
    | .ok bytes =>
      match String.fromUTF8? bytes with
      | none => .error .encoding
      | some text => .ok (Text.unifiedBreaks text) := by
  unfold readText
  rw [get_bind]
  cases h.files.read h.cwd path.toText with
  | error e => rfl
  | ok bytes =>
    dsimp only
    cases String.fromUTF8? bytes <;> rfl

end Host

namespace Search

open Host

/-- The settings of a search are texts, and that of the selector can be cut into words. -/
structure Textual (b : Backend) (c : Config) : Prop where
  program : ∃ binary, b.program? = some binary
  selector : ∃ line words, c.selector.spelling? = some line ∧ Words.split line = .ok words
  options : ∃ options, c.selectorOptions.spelling? = some options

/-- How the file that the environment names for the options cannot be taken for a text: its bytes are
none, or its name is no name. A file that is not there is not among these. -/
inductive Spoilt (h : Host) : Failure → Prop
  | bytes {path : String} {bytes : ByteArray} :
      h.environ.filled? "FZF_DEFAULT_OPTS_FILE" = some path →
      h.files.read h.cwd (Path.ofString path).toText = .ok bytes →
      String.fromUTF8? bytes = none → Spoilt h .encoding
  | name {path : String} :
      h.environ.filled? "FZF_DEFAULT_OPTS_FILE" = some path →
      h.files.read h.cwd (Path.ofString path).toText = .error .badName →
      Spoilt h (.file .badName (Path.ofString path).toText)

section Defaults

variable {c : Config} {h : Host} {f : Failure} {options : String}

theorem answerOf_noted (level : Level) (message : String) (h : Host) :
    answerOf ((do log level source message; return "" : Act Host String) h) = .ok "" := by
  obtain ⟨records, hl⟩ := log_apply level source message none h
  rw [bind_of_ok hl]
  rfl

/-- A file that is not there, or that cannot be read, has no options. -/
theorem optionsFile_error_iff {path : String} : answerOf (optionsFile path h) = .error f ↔
    (h.files.read h.cwd (Path.ofString path).toText = .error .badName ∧
      f = .file .badName (Path.ofString path).toText) ∨
    ∃ bytes, h.files.read h.cwd (Path.ofString path).toText = .ok bytes ∧
      String.fromUTF8? bytes = none ∧ f = .encoding := by
  rw [optionsFile_apply, answerOf_readText]
  cases h.files.read h.cwd (Path.ofString path).toText with
  | error e =>
    cases e with
    | badName => simp [answerOf, eq_comm]
    | _ =>
      dsimp only
      rw [answerOf_noted]
      simp
  | ok bytes =>
    cases hb : String.fromUTF8? bytes with
    | none => simp [answerOf, hb, eq_comm]
    | some text => simp [answerOf, hb]

theorem spoilt_iff {path : String}
    (hp : h.environ.filled? "FZF_DEFAULT_OPTS_FILE" = some path) :
    Spoilt h f ↔ answerOf (optionsFile path h) = .error f := by
  rw [optionsFile_error_iff]
  constructor
  · intro hs
    cases hs with
    | bytes hp' hread hb =>
      cases hp.symm.trans hp'
      exact .inr ⟨_, hread, hb, rfl⟩
    | name hp' hread =>
      cases hp.symm.trans hp'
      exact .inl ⟨hread, rfl⟩
  · rintro (⟨hread, rfl⟩ | ⟨bytes, hread, hb, rfl⟩)
    · exact .name hp hread
    · exact .bytes hp hread hb

/-- What the options are made of, in its order: the basic ones, those of the file, those of the
environment, those for a history, and those of the configuration. Each may be empty. -/
def layers (c : Config) (e : Environment) (fromFile own : String) : List String :=
  ["--height " ++ c.selectorHeight ++ " --min-height 20+ --bind=ctrl-z:ignore", fromFile,
    (e.get? "FZF_DEFAULT_OPTS").getD "", historyOptions, own]

/-- Options that are a text are put behind those of the file as they are. -/
theorem defaults_eq (e : Environment) (ho : c.selectorOptions.spelling? = some options) :
    defaults c e = (match e.filled? "FZF_DEFAULT_OPTS_FILE" with
      | none => pure ""
      | some path => optionsFile path) >>= fun fromFile => pure (String.intercalate " "
        ((layers c e fromFile options).filter (· ≠ "") ++ ["+m --read0"])) := by
  have hlayers (fromFile : String) : (layers c e fromFile options).filter (· ≠ "") =
      (layers c e fromFile options).dropLast.filter (· ≠ "") ++
        if options = "" then [] else [options] := by
    have hlast : layers c e fromFile options =
        (layers c e fromFile options).dropLast ++ [options] := rfl
    rw [hlast, List.filter_append, List.dropLast_concat, List.filter_singleton]
    by_cases hs : options = "" <;> simp [hs]
  unfold defaults
  simp only [ho, hlayers]
  by_cases hs : options = ""
  · subst hs
    cases e.filled? "FZF_DEFAULT_OPTS_FILE" <;> rfl
  · simp only [if_neg hs]
    cases e.filled? "FZF_DEFAULT_OPTS_FILE" <;> rfl

/-- With options that are a text, only the file can keep the options of the selector from being
told. -/
theorem defaults_error_iff (ho : c.selectorOptions.spelling? = some options) :
    answerOf (defaults c h.environ h) = .error f ↔ Spoilt h f := by
  rw [defaults_eq h.environ ho]
  cases hp : h.environ.filled? "FZF_DEFAULT_OPTS_FILE" with
  | none =>
    refine iff_of_false nofun fun hs => ?_
    cases hs with
    | bytes hp' => cases hp.symm.trans hp'
    | name hp' => cases hp.symm.trans hp'
  | some path =>
    rw [spoilt_iff hp]
    dsimp only
    cases hx : optionsFile path h with
    | error g t =>
      rw [bind_of_error hx]
    | ok text t =>
      rw [bind_of_ok hx]
      exact iff_of_false nofun nofun

end Defaults

variable {b : Backend} {c : Context} {buffer : String} {h : Host} {call : Call} {f : Failure}

def listed? : ShellHistory.Outcome → Option String
  | .exited x => if goesOn x then some x.stdout else none
  | .garbled _ | .refused _ | .interrupted => none

def listingStatus : ShellHistory.Outcome → Int
  | .exited x => x.status
  | .garbled status => status
  | .refused _ | .interrupted => -1

def ended : ShellHistory.Outcome → Bool
  | .exited _ | .refused _ => true
  | .garbled _ | .interrupted => false

theorem ended_of_listed? {o : ShellHistory.Outcome} {records : String}
    (hl : listed? o = some records) : ended o = true := by
  cases o with
  | exited | refused => rfl
  | _ => cases hl

/-- A listing that has ended, with what the search goes by. -/
theorem history_ended (hc : listingCall? b c h = .ok call) (ht : h.untold? call = none)
    (hi : ended (h.next call) = true) :
    ∃ r noted, b.history c.config.searchArgs (some c.session) h =
        .ok r { h.after call with records := noted } ∧ r.status = listingStatus (h.next call) ∧
      listed? (h.next call) = if !r.success && r.stdout.isEmpty then none else some r.stdout := by
  rw [Backend.history]
  generalize hr : b.run (["history", "--fzf"] ++ c.config.searchArgs) (some c.session) true h = y
  cases hr ▸ b.run_called (["history", "--fzf"] ++ c.config.searchArgs) (some c.session) true h with
  | unusable hc' => cases hc.symm.trans hc'
  | untold hc' hf =>
    cases hc.symm.trans hc'
    cases ht.symm.trans hf
  | interrupted hc' _ hn | garbled hc' _ hn =>
    cases hc.symm.trans hc'
    rw [hn] at hi
    cases hi
  | @ended _ r records hc' _ ho =>
    cases hc.symm.trans hc'
    refine ⟨r, records, rfl, ?_⟩
    cases hn : h.next call with
    | interrupted | garbled =>
      rw [hn] at hi
      cases hi
    | refused e =>
      rw [hn] at ho
      cases ho
      exact ⟨rfl, rfl⟩
    | exited x =>
      rw [hn] at ho
      cases ho
      refine ⟨rfl, ?_⟩
      change (if goesOn x then some x.stdout else none) =
        if !Backend.Result.success ⟨call.job.argv, x.stdout, x.stderr, x.status⟩ && x.stdout.isEmpty
          then none else some x.stdout
      by_cases hgo : goesOn x = true
      · rw [if_pos hgo, if_neg (stays_iff.not.2 (by simp [hgo]))]
      · rw [if_neg hgo, if_pos (stays_iff.2 (by simpa using hgo))]

/-- A search whose listing has failed and says nothing ends with the status of the listing. -/
theorem run_of_unlisted (buffer : String) (hc : listingCall? b c h = .ok call)
    (ht : h.untold? call = none) (hi : ended (h.next call) = true)
    (hn : listed? (h.next call) = none) : ∃ noted, run b c buffer h =
      .ok (⟨none, listingStatus (h.next call)⟩, c) { h.after call with records := noted } := by
  obtain ⟨r, noted, hr, hstatus, hlisted⟩ := history_ended hc ht hi
  rw [hn] at hlisted
  refine ⟨noted, ?_⟩
  rw [run, bind_of_ok hr, ← hstatus]
  split at hlisted
  · next hstop =>
    rw [if_pos hstop]
    rfl
  · cases hlisted

def answered (c : Context) : Except Failure (String × Int) → Except Failure (Outcome × Context)
  | .error f => .error f
  | .ok (printed, status) =>
    .ok (⟨(Entry.ofSelection? printed).map Entry.line, status⟩, c.picked (Entry.ofSelection? printed))

/-- A search that has something to pick from ends as its selector does. -/
theorem run_of_listed {records : String} (buffer : String) (hc : listingCall? b c h = .ok call)
    (ht : h.untold? call = none) (hl : listed? (h.next call) = some records) :
    ∃ noted, run b c buffer h =
      (do
        let (printed, status) ← runSelector c.config records buffer
        (ofExcept (answered c (.ok (printed, status))) : Act Host (Outcome × Context)))
      { h.after call with records := noted } := by
  obtain ⟨r, noted, hr, -, hlisted⟩ := history_ended hc ht (ended_of_listed? hl)
  rw [hl] at hlisted
  split at hlisted
  · cases hlisted
  next hgo =>
  cases hlisted
  refine ⟨noted, ?_⟩
  rw [run, bind_of_ok hr, if_neg hgo]
  refine congrFun (congrArg (runSelector c.config r.stdout buffer >>= ·) (funext fun p => ?_)) _
  obtain ⟨printed, status⟩ := p
  dsimp only [answered]
  cases Entry.ofSelection? printed <;> rfl

theorem selectorCall?_error_iff {config : Config} {records : String} (ht : Textual b config) :
    selectorCall? config records buffer h = .error f ↔ Spoilt h f := by
  obtain ⟨line, words, hline, hwords⟩ := ht.selector
  obtain ⟨options, ho⟩ := ht.options
  have hsel : selectorWords config.selector = .ok words := by
    unfold selectorWords
    rw [hline]
    exact congrArg (Except.mapError Failure.words) hwords
  rw [← defaults_error_iff ho, selectorCall?, hsel]
  cases answerOf (defaults config h.environ h) with
  | error g =>
    change (Except.error g : Except Failure Call) = .error f ↔ _
    rw [Except.error.injEq, Except.error.injEq]
  | ok text => exact iff_of_false (by rintro ⟨⟩) (by rintro ⟨⟩)

/-- How the selector has ended for the search. One that is missing or that has been broken off has
printed nothing. -/
def exitOf : ShellHistory.Outcome → Exit
  | .exited x => x
  | .garbled status => ⟨"", "", status⟩
  | .refused _ => ⟨"", "", missing⟩
  | .interrupted => ⟨"", "", cancelled⟩

theorem selected_cases (program : String) (o : ShellHistory.Outcome) :
    selected program o = .ok ((exitOf o).stdout, (exitOf o).status) ∨
    (∃ e, o = .refused e ∧ e ≠ .notFound ∧ selected program o = .error (.file e program)) ∨
    ∃ status, o = .garbled status ∧ selected program o = .error .encoding := by
  cases o with
  | exited x => exact .inl rfl
  | interrupted => exact .inl rfl
  | garbled status => exact .inr (.inr ⟨status, rfl, rfl⟩)
  | refused e =>
    by_cases he : e = .notFound
    · subst he
      exact .inl rfl
    · refine .inr (.inl ⟨e, rfl, he, ?_⟩)
      cases e with
      | notFound => exact absurd rfl he
      | _ => rfl

/-- The listing ends with something to pick from. -/
structure Listed (b : Backend) (c : Context) (h : Host) (call : Call) (records : String) : Prop where
  asked : listingCall? b c h = .ok call
  told : h.untold? call = none
  lists : listed? (h.upcoming (.backend "history")) = some records

section Listed

variable {records : String} {chosen : Call}

theorem next_listing (hc : listingCall? b c h = .ok call) :
    h.next call = h.upcoming (.backend "history") := by
  obtain ⟨_, hjob⟩ := listingCall?_ok hc
  rw [next_eq_upcoming, hjob]
  rfl

theorem Listed.run_eq (hl : Listed b c h call records) (buffer : String) :
    ∃ noted, run b c buffer h =
      (do
        let (printed, status) ← runSelector c.config records buffer
        (ofExcept (answered c (.ok (printed, status))) : Act Host (Outcome × Context)))
      { h.after call with records := noted } :=
  run_of_listed buffer hl.asked hl.told (next_listing hl.asked ▸ hl.lists)

theorem Listed.ran (noted : List Record) : Ran h [call] { h.after call with records := noted } :=
  ⟨_, noted, rfl⟩

theorem Listed.run_of_unchosen (hl : Listed b c h call records)
    (hs : selectorCall? c.config records buffer h = .error f) :
    ∃ h', run b c buffer h = .error f h' := by
  obtain ⟨noted, hr⟩ := hl.run_eq buffer
  obtain ⟨noted', hr'⟩ :=
    runSelector_of_error ((selectorCall?_ran c.config records buffer (ran noted)).trans hs)
  exact ⟨_, hr.trans (bind_of_error hr')⟩

theorem Listed.run_of_untold (hl : Listed b c h call records)
    (hs : selectorCall? c.config records buffer h = .ok chosen) (hf : h.untold? chosen = some f) :
    ∃ h', run b c buffer h = .error f h' := by
  obtain ⟨noted, hr⟩ := hl.run_eq buffer
  obtain ⟨noted', hr'⟩ :=
    runSelector_of_untold ((selectorCall?_ran c.config records buffer (ran noted)).trans hs)
      (show untold? { h.after call with records := noted } chosen = some f from hf)
  exact ⟨_, hr.trans (bind_of_error hr')⟩

theorem Listed.run_of_told (hl : Listed b c h call records)
    (hs : selectorCall? c.config records buffer h = .ok chosen) (ht : h.untold? chosen = none) :
    ∃ h', run b c buffer h =
      (ofExcept (answered c (selected chosen.job.program (h.upcoming .selector))) :
        Act Host (Outcome × Context)) h' := by
  obtain ⟨noted, hr⟩ := hl.run_eq buffer
  obtain ⟨noted', hr'⟩ :=
    runSelector_of_call ((selectorCall?_ran c.config records buffer (ran noted)).trans hs)
      (show untold? { h.after call with records := noted } chosen = none from ht)
  obtain ⟨_, hjob⟩ := listingCall?_ok hl.asked
  obtain ⟨_, _, -, -, hchosen⟩ := selectorCall?_ok hs
  -- the listing has left what is to come of the selector alone
  have hnext : next { h.after call with records := noted } chosen = h.upcoming .selector := by
    change (h.after call).next chosen = _
    rw [next_eq_upcoming, hchosen]
    exact upcoming_after_of_ne h call (by rw [hjob]; exact nofun)
  rw [hnext] at hr'
  rw [hr, bind_eq_of_eq hr']
  cases selected chosen.job.program (h.upcoming .selector) with
  | error f => exact ⟨_, rfl⟩
  | ok printed => exact ⟨_, rfl⟩

end Listed

/-- Why a search fails although its settings are good. It cannot ask for the listing, or what it is
told is no text; there is something to pick from, but the file with options is spoilt, the selector
cannot be told its call, it is there and cannot be launched, or what it prints is no text. -/
inductive Failed (b : Backend) (c : Context) (buffer : String) (h : Host) : Failure → Prop
  | unasked {call : Call} {f : Failure} : listingCall? b c h = .ok call → h.untold? call = some f →
      Failed b c buffer h f
  | unread {call : Call} {status : Int} : listingCall? b c h = .ok call → h.untold? call = none →
      h.upcoming (.backend "history") = .garbled status → Failed b c buffer h .encoding
  | spoilt {call : Call} {records : String} {f : Failure} : Listed b c h call records →
      Spoilt h f → Failed b c buffer h f
  | untold {call chosen : Call} {records : String} {f : Failure} : Listed b c h call records →
      selectorCall? c.config records buffer h = .ok chosen → h.untold? chosen = some f →
      Failed b c buffer h f
  | unlaunched {call chosen : Call} {records : String} {e : FileError} :
      Listed b c h call records → selectorCall? c.config records buffer h = .ok chosen →
      h.untold? chosen = none → h.upcoming .selector = .refused e → e ≠ .notFound →
      Failed b c buffer h (.file e chosen.job.program)
  | garbled {call chosen : Call} {records : String} {status : Int} :
      Listed b c h call records → selectorCall? c.config records buffer h = .ok chosen →
      h.untold? chosen = none → h.upcoming .selector = .garbled status →
      Failed b c buffer h .encoding

theorem Failed.run_eq (ht : Textual b c.config) (hf : Failed b c buffer h f) :
    ∃ h', run b c buffer h = .error f h' := by
  cases hf with
  | unasked hc hf => exact ⟨h, bind_of_error (Backend.run_of_untold hc hf)⟩
  | unread hc hu ho =>
    exact ⟨_, bind_of_error (Backend.run_of_garbled hc hu ((next_listing hc).trans ho))⟩
  | spoilt hl hs => exact hl.run_of_unchosen ((selectorCall?_error_iff ht).2 hs)
  | untold hl hs hf => exact hl.run_of_untold hs hf
  | @unlaunched _ _ _ e hl hs hu ho he =>
    obtain ⟨h', hr⟩ := hl.run_of_told hs hu
    rw [ho] at hr
    refine ⟨h', hr.trans ?_⟩
    cases e with
    | notFound => exact absurd rfl he
    | _ => rfl
  | garbled hl hs hu ho =>
    obtain ⟨h', hr⟩ := hl.run_of_told hs hu
    rw [ho] at hr
    exact ⟨h', hr⟩

/-- All that can come of a search whose settings are good. -/
inductive Ended (b : Backend) (c : Context) (buffer : String) (h : Host) :
    EStateM.Result Failure Host (Outcome × Context) → Prop
  | unlisted {call : Call} {h' : Host} : listingCall? b c h = .ok call →
      listed? (h.upcoming (.backend "history")) = none → h.startedSince h' = [call] →
      Ended b c buffer h
        (.ok (⟨none, listingStatus (h.upcoming (.backend "history"))⟩, c) h')
  | failed {f : Failure} {h' : Host} : Failed b c buffer h f → Ended b c buffer h (.error f h')
  | answered {h' : Host} : (listed? (h.upcoming (.backend "history"))).isSome →
      Ended b c buffer h
        (.ok (⟨(Entry.ofSelection? (exitOf (h.upcoming .selector)).stdout).map Entry.line,
            (exitOf (h.upcoming .selector)).status⟩,
          c.picked (Entry.ofSelection? (exitOf (h.upcoming .selector)).stdout)) h')

theorem exists_listingCall (ht : Textual b c.config) (h : Host) :
    ∃ call, listingCall? b c h = .ok call := by
  obtain ⟨binary, hbinary⟩ := ht.program
  obtain ⟨_, _, -, hc⟩ | ⟨_, hnone, -⟩ :=
    b.call?_cases (["history", "--fzf"] ++ c.config.searchArgs) (some c.session) true h.environ
  · exact ⟨_, hc⟩
  · cases hbinary.symm.trans hnone

theorem Listed.run_ended {records : String} (hl : Listed b c h call records)
    (ht : Textual b c.config) : Ended b c buffer h (run b c buffer h) := by
  cases hs : selectorCall? c.config records buffer h with
  | error f =>
    obtain ⟨h', hr⟩ := hl.run_of_unchosen hs
    rw [hr]
    exact .failed (.spoilt hl ((selectorCall?_error_iff ht).1 hs))
  | ok chosen =>
  cases hu : h.untold? chosen with
  | some f =>
    obtain ⟨h', hr⟩ := hl.run_of_untold hs hu
    rw [hr]
    exact .failed (.untold hl hs hu)
  | none =>
  obtain ⟨h', hr⟩ := hl.run_of_told hs hu
  rw [hr]
  obtain hok | ⟨e, ho, he, herror⟩ | ⟨status, ho, herror⟩ :=
    selected_cases chosen.job.program (h.upcoming .selector)
  · rw [hok]
    exact .answered (by rw [hl.lists]; rfl)
  · rw [herror]
    exact .failed (.unlaunched hl hs hu ho he)
  · rw [herror]
    exact .failed (.garbled hl hs hu ho)

theorem run_ended (ht : Textual b c.config)
    (hh : h.upcoming (.backend "history") ≠ .interrupted) :
    Ended b c buffer h (run b c buffer h) := by
  obtain ⟨call, hc⟩ := exists_listingCall ht h
  have hnext := next_listing hc
  cases hu : h.untold? call with
  | some f =>
    have hf : Failed b c buffer h f := .unasked hc hu
    obtain ⟨h', hr⟩ := hf.run_eq ht
    rw [hr]
    exact .failed hf
  | none =>
  cases hl : listed? (h.upcoming (.backend "history")) with
  | some records => exact Listed.run_ended ⟨hc, hu, hl⟩ ht
  | none =>
  cases hended : ended (h.upcoming (.backend "history")) with
  | true =>
    obtain ⟨noted, hr⟩ := run_of_unlisted buffer hc hu (by rwa [hnext]) (by rwa [hnext])
    rw [hr, hnext]
    exact .unlisted hc hl (startedSince_of_calls rfl)
  | false =>
    cases ho : h.upcoming (.backend "history") with
    | garbled status =>
      have hf : Failed b c buffer h .encoding := .unread hc hu ho
      obtain ⟨h', hr⟩ := hf.run_eq ht
      rw [hr]
      exact .failed hf
    | interrupted => exact absurd ho hh
    | exited | refused =>
      rw [ho] at hended
      cases hended

end Search

namespace Shell

variable {s : Shell} {i : Integration}

theorem search_apply (hi : s.integration = some i) (buffer : String) : search i buffer s =
    match Search.run s.backend i.context buffer s.host with
    | .ok (o, c) h => .ok o { s with host := h, integration := some { i with context := c } }
    | .error f h => .error f { s with host := h } := by
  unfold search
  rw [get_bind]
  cases hx : Search.run s.backend i.context buffer s.host with
  | error f h => rw [bind_of_error (onHost_of_error hx)]
  | ok p h =>
    obtain ⟨o, c⟩ := p
    rw [bind_of_ok (onHost_of_ok hx)]
    simp only [putContext, modify_bind, pure_apply, hi, Option.map_some]

theorem search_left (hi : s.integration = some i) {buffer : String} {f : Failure} {t : Shell}
    (h : search i buffer s = .error f t) : t.integration = s.integration := by
  rw [search_apply hi] at h
  split at h
  · cases h
  · cases h
    rfl

/-- What a search that comes back leaves behind. The integration is as it was, but for the id that
was picked last, if a line was picked. -/
structure Searched (i : Integration) (h : Host) (o : Search.Outcome) (t : Shell)
    (picked : Option Entry) : Prop where
  line : o.line = picked.map Entry.line
  integration : t.integration = some { i with context := i.context.picked picked }
  unlisted : Search.listed? (h.upcoming (.backend "history")) = none → picked = none ∧
    o.status = Search.listingStatus (h.upcoming (.backend "history")) ∧
      ∃ call, h.startedSince t.host = [call] ∧ call.job.role = .backend "history"
  answered : (Search.listed? (h.upcoming (.backend "history"))).isSome →
    picked = Entry.ofSelection? (Search.exitOf (h.upcoming .selector)).stdout ∧
      o.status = (Search.exitOf (h.upcoming .selector)).status

section Ended

variable (hi : s.integration = some i) (ht : Search.Textual s.backend i.context.config)
  (hh : s.host.upcoming (.backend "history") ≠ .interrupted) (buffer : String)

include hi ht hh

theorem search_error_iff {f : Failure} : (∃ t, search i buffer s = .error f t) ↔
    Search.Failed s.backend i.context buffer s.host f := by
  rw [search_apply hi]
  constructor
  · have hended : Search.Ended s.backend i.context buffer s.host
        (Search.run s.backend i.context buffer s.host) := Search.run_ended ht hh
    generalize Search.run s.backend i.context buffer s.host = x at hended
    cases hended with
    | unlisted | answered => rintro ⟨t, ⟨⟩⟩
    | failed hf =>
      rintro ⟨t, ⟨⟩⟩
      exact hf
  · intro hf
    obtain ⟨h', hr⟩ := hf.run_eq ht
    rw [hr]
    exact ⟨_, rfl⟩

theorem search_searched {o : Search.Outcome} {t : Shell} (h : search i buffer s = .ok o t) :
    ∃ picked, Searched i s.host o t picked := by
  have hended : Search.Ended s.backend i.context buffer s.host
      (Search.run s.backend i.context buffer s.host) := Search.run_ended ht hh
  rw [search_apply hi] at h
  generalize Search.run s.backend i.context buffer s.host = x at hended h
  cases hended with
  | @unlisted call _ hc hl hstarted =>
    obtain ⟨_, hjob⟩ := Search.listingCall?_ok hc
    cases h
    refine ⟨none, rfl, rfl, fun _ => ⟨rfl, rfl, call, hstarted, by rw [hjob]; rfl⟩, fun hsome => ?_⟩
    rw [hl] at hsome
    cases hsome
  | failed => cases h
  | answered hl =>
    cases h
    refine ⟨_, rfl, rfl, fun hnone => ?_, fun _ => ⟨rfl, rfl⟩⟩
    rw [hnone] at hl
    cases hl

/-- A search whose settings are good comes back quietly, whatever becomes of its two processes, but for
the listed failures; and it leaves the integration alone then. A listing that fails and says nothing
starts no selector. -/
theorem search_ended :
    (∀ f, (∃ t, search i buffer s = .error f t) ↔
      Search.Failed s.backend i.context buffer s.host f) ∧
    (∀ f t, search i buffer s = .error f t → t.integration = s.integration) ∧
    ∀ o t, search i buffer s = .ok o t → ∃ picked, Searched i s.host o t picked :=
  ⟨fun _ => search_error_iff hi ht hh buffer, fun _ _ h => search_left hi h,
    fun _ _ h => search_searched hi ht hh buffer h⟩

end Ended

def searching (h : Host) : Shell :=
  { create h .default with integration := some ⟨0, Search.searching, true⟩ }

theorem search_ended_sample :
    Search.Textual (searching Search.searched).backend Search.searching.config ∧
    Search.searched.upcoming (.backend "history") ≠ .interrupted ∧
    ∃ o t, search ⟨0, Search.searching, true⟩ "-- git" (searching Search.searched) = .ok o t ∧
      o = ⟨some "printf 'a\tb' |\n", 0⟩ ∧
      t.integration = some ⟨0, { Search.searching with lastSelected := some "2" }, true⟩ := by
  have ht : Search.Textual (searching Search.searched).backend Search.searching.config :=
    ⟨⟨"vellum", rfl⟩, ⟨"fzf", ["fzf"], rfl, by decide +kernel⟩, ⟨"", rfl⟩⟩
  have hh : Search.searched.upcoming (.backend "history") ≠ .interrupted := by decide
  have hi : (searching Search.searched).integration = some ⟨0, Search.searching, true⟩ := rfl
  obtain ⟨hfailed, -, hsearched⟩ := search_ended hi ht hh "-- git"
  have hentry : Entry.ofSelection? "2\tprintf 'a\tb' |\n\n" = some ⟨"2", "printf 'a\tb' |\n"⟩ := by
    decide +kernel
  refine ⟨ht, hh, ?_⟩
  cases hx : search ⟨0, Search.searching, true⟩ "-- git" (searching Search.searched) with
  | error f t =>
    cases (hfailed f).1 ⟨t, hx⟩ with
    | spoilt _ hs =>
      cases hs with
      | bytes hp => cases hp
      | name hp => cases hp
    | unasked _ hf => cases hf
    | unread _ _ ho => cases ho
    | untold _ _ hf => cases hf
    | unlaunched _ _ _ ho => cases ho
    | garbled _ _ _ ho => cases ho
  | ok o t =>
    obtain ⟨picked, hline, hintegration, -, hanswered⟩ := hsearched o t hx
    obtain ⟨rfl, hstatus⟩ := hanswered rfl
    have hprinted : Entry.ofSelection?
        (Search.exitOf ((searching Search.searched).host.upcoming .selector)).stdout = some
          ⟨"2", "printf 'a\tb' |\n"⟩ := hentry
    rw [hprinted] at hline hintegration
    obtain ⟨line, status⟩ := o
    cases hline
    cases hstatus
    exact ⟨_, t, rfl, rfl, hintegration⟩

def misconfigured : Host :=
  { Search.searched with
    files := FileTree.empty.put ["fzfrc"] (.file ⟨#[0xff]⟩ false)
    environ := ⟨[("FZF_DEFAULT_OPTS_FILE", "/fzfrc")]⟩ }

theorem read_misconfigured : misconfigured.files.read [] "/fzfrc" = .ok ⟨#[0xff]⟩ :=
  FileTree.read_rooted "fzfrc" ⟨by decide, by decide, by decide⟩ (by decide +kernel)
    (by decide +kernel)
    ⟨FileTree.admits_of_open List.not_mem_nil _, by decide, by decide, nofun, by decide⟩ rfl

def guarded : Host :=
  { Search.searched with scripts :=
      [(.backend "history", [.exited ⟨Entry.listing Search.entries, "", 0⟩]),
        (.selector, [.refused .denied])] }

/-- A file with options that is not there is passed over, and so is a selector; but not these. -/
theorem search_breaks_off :
    (∃ t, search ⟨0, Search.searching, true⟩ "git" (searching misconfigured) = .error .encoding t) ∧
      ∃ t, search ⟨0, Search.searching, true⟩ "git" (searching guarded) =
        .error (.file .denied "fzf") t := by
  have hsplit : Words.split "fzf" = .ok ["fzf"] := by decide +kernel
  have ht (h : Host) (he : (searching h).backend.program? = some "vellum") :
      Search.Textual (searching h).backend Search.searching.config :=
    ⟨⟨"vellum", he⟩, ⟨"fzf", ["fzf"], rfl, hsplit⟩, ⟨"", rfl⟩⟩
  have hi (h : Host) : (searching h).integration = some ⟨0, Search.searching, true⟩ := rfl
  constructor
  · have hname : (Path.ofString "/fzfrc").toText = "/fzfrc" := by decide +kernel
    exact (search_error_iff (hi _) (ht _ rfl) (by decide) "git").2
      (.spoilt ⟨rfl, rfl, rfl⟩ (.bytes rfl (hname ▸ read_misconfigured) (by decide +kernel)))
  · obtain ⟨call, records, chosen, hl, hs, hu, hprogram⟩ : ∃ call records chosen,
        Search.Listed (searching guarded).backend Search.searching guarded call records ∧
        Search.selectorCall? .default records "git" guarded = .ok chosen ∧
        guarded.untold? chosen = none ∧ chosen.job.program = "fzf" :=
      ⟨_, _, _, ⟨rfl, rfl, rfl⟩, rfl, rfl, rfl⟩
    rw [← hprogram]
    exact (search_error_iff (hi _) (ht _ rfl) (by decide) "git").2
      (.unlaunched hl hs hu rfl nofun)

end Shell
end ShellHistory

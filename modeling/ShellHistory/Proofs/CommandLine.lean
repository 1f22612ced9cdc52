import ShellHistory.Options.Reading

/-! Command lines read token by token: what a text is taken for, what one option adds to a reading,
and what the arguments behind the last option add. A value that is joined to its option, or stands
behind `--`, is never taken for an option. -/

namespace ShellHistory.Options

namespace Token

theorem text_ofText {g : Grammar} {s : String} {t : Token} (h : ofText g s = .ok t) :
    t.text = s := by
  unfold ofText at h
  split at h
  · dsimp only at h
    split at h
    · cases h
      rfl
    · split at h
      · cases h
        rfl
      · split at h
        · cases h
          rfl
        · cases h
          rfl
      · cases h
  · cases h
    rfl

theorem ofTexts_dashes (g : Grammar) (rest : List String) :
    ofTexts g ("--" :: rest) = .ok (.dashes :: rest.map .argument) := by
  rw [ofTexts, if_pos rfl]

theorem ofTexts_cons {g : Grammar} {s : String} {t : Token} {rest : List String} {ts : List Token}
    (hs : s ≠ "--") (ht : ofText g s = .ok t) (hrest : ofTexts g rest = .ok ts) :
    ofTexts g (s :: rest) = .ok (t :: ts) := by
  rw [ofTexts, if_neg hs, ht, hrest]
  rfl

theorem ofText_flag {g : Grammar} {f : Flag} {name : String} {c : Char} {more : List Char}
    (hname : name.toList = '-' :: c :: more) (hf : g.flag? name = some f) :
    ofText g name = .ok (.option name (some ⟨f, name, none⟩)) := by
  have hw : written? g ('-' :: c :: more) = some ⟨f, name, none⟩ := by
    rw [written?, ← hname, String.ofList_toList, hf]
  unfold ofText
  rw [hname]
  simp only [hw]

def joinedText (name value : String) : String := name ++ "=" ++ value

theorem toList_joinedText (name value : String) :
    (joinedText name value).toList = name.toList ++ '=' :: value.toList := by
  simp [joinedText]

section Joined

variable {g : Grammar} {name : String} (value : String)

theorem cut?_joinedText (hname : '=' ∉ name.toList) :
    Text.cut? '=' (joinedText name value).toList = some (name.toList, value.toList) :=
  Text.cut?_eq_some_iff.2 ⟨toList_joinedText name value, hname⟩

theorem joinedText_of_dash {c : Char} {more : List Char} (hdash : name.toList = '-' :: c :: more) :
    (joinedText name value).toList = '-' :: c :: (more ++ '=' :: value.toList) := by
  rw [toList_joinedText, hdash, List.cons_append, List.cons_append]

/-- No name holds a `=`, so the first one cuts a text into a name and its value. -/
theorem written?_joinedText (hnames : ∀ n ∈ g.named, '=' ∉ n.1.toList)
    (hname : '=' ∉ name.toList) : written? g (joinedText name value).toList =
      (g.flag? name).map fun f => ⟨f, name, some value⟩ := by
  have hnone : g.flag? (joinedText name value) = none := by
    refine List.lookup_eq_none_iff.2 fun n hn => ?_
    have hne : joinedText name value ≠ n.1 := by
      intro he
      refine hnames n hn ?_
      rw [← he, toList_joinedText]
      simp
    simpa using hne
  unfold written?
  rw [String.ofList_toList, hnone, cut?_joinedText value hname]
  cases hf : g.flag? name <;> simp [hf]

theorem ofText_joined {f : Flag} {c : Char} {more : List Char}
    (hdash : name.toList = '-' :: c :: more) (hnames : ∀ n ∈ g.named, '=' ∉ n.1.toList)
    (hname : '=' ∉ name.toList) (hf : g.flag? name = some f) :
    ofText g (joinedText name value) =
      .ok (.option (joinedText name value) (some ⟨f, name, some value⟩)) := by
  have hw := written?_joinedText value hnames hname
  rw [hf, joinedText_of_dash value hdash] at hw
  unfold ofText
  rw [joinedText_of_dash value hdash]
  simp only [hw, Option.map_some]

/-- A name that the grammar does not have, nor one that begins so, is an option all the same, or an
argument if there are blanks in its value. It is never refused. -/
theorem ofText_unknown {more : List Char} (hdash : name.toList = '-' :: '-' :: more)
    (hnames : ∀ n ∈ g.named, '=' ∉ n.1.toList) (hname : '=' ∉ name.toList)
    (hunknown : ∀ n ∈ g.named, name.toList.isPrefixOf n.1.toList = false) :
    ∃ t, ofText g (joinedText name value) = .ok t := by
  have hf : g.flag? name = none := by
    refine List.lookup_eq_none_iff.2 fun n hn => ?_
    have hne : name ≠ n.1 := by
      intro he
      have hstart : name.toList.isPrefixOf n.1.toList = true := by
        rw [he]
        exact List.isPrefixOf_iff_prefix.2 (List.prefix_refl _)
      exact absurd (hstart.symm.trans (hunknown n hn)) (by decide)
    simpa using hne
  have hw := written?_joinedText value hnames hname
  have hcut := cut?_joinedText value hname
  rw [joinedText_of_dash value hdash] at hw hcut
  have hc : candidates g ('-' :: '-' :: (more ++ '=' :: value.toList)) = [] := by
    simp only [candidates, hcut]
    refine List.filterMap_eq_nil_iff.2 fun n hn => ?_
    simp [hunknown n hn]
  unfold ofText
  rw [joinedText_of_dash value hdash]
  simp only [hw, hf, hc, Option.map_none]
  split
  · exact ⟨_, rfl⟩
  · exact ⟨_, rfl⟩

end Joined

/-- No text before `--` is refused, so the whole line is cut into tokens. -/
theorem ofTexts_total {g : Grammar} (texts rest : List String)
    (h : ∀ s ∈ texts, ∃ t, ofText g s = .ok t) : ∃ ts, ofTexts g (texts ++ "--" :: rest) = .ok ts := by
  induction texts with
  | nil => exact ⟨_, ofTexts_dashes g rest⟩
  | cons s texts ih =>
    by_cases hs : s = "--"
    · rw [List.cons_append, hs]
      exact ⟨_, ofTexts_dashes g _⟩
    · obtain ⟨t, ht⟩ := h s List.mem_cons_self
      obtain ⟨ts, hts⟩ := ih fun s' hs' => h s' (List.mem_cons_of_mem s hs')
      exact ⟨t :: ts, ofTexts_cons hs ht hts⟩

theorem text_ofTexts {g : Grammar} {texts : List String} {ts : List Token}
    (h : ofTexts g texts = .ok ts) : ts.map text = texts := by
  induction texts generalizing ts with
  | nil =>
    cases h
    rfl
  | cons s texts ih =>
    by_cases hs : s = "--"
    · subst hs
      rw [ofTexts_dashes] at h
      cases h
      simp [text, Function.comp_def]
    · rw [ofTexts, if_neg hs] at h
      cases ht : ofText g s with
      | error stop =>
        rw [ht] at h
        cases h
      | ok t =>
        cases hts : ofTexts g texts with
        | error stop =>
          rw [ht, hts] at h
          cases h
        | ok us =>
          rw [ht, hts] at h
          cases h
          rw [List.map_cons, text_ofText ht, ih hts]

end Token

/-- What is left of a text that stands alone, once a `--` is taken out. -/
def passed (s : String) : Option String := if s = "--" then none else some s

namespace Grammar

variable {g : Grammar}

theorem erase_dashes_of_ne {s : String} (hs : s ≠ "--") : [s].erase "--" = [s] :=
  List.erase_of_not_mem (by simpa using fun he => hs he.symm)

/-- A value that may be anything is what was written, unless that was `--`. -/
theorem valueOf_any (s : String) : valueOf [s] .any = .ok (passed s) := by
  by_cases hs : s = "--"
  · subst hs
    rfl
  · rw [valueOf, erase_dashes_of_ne hs, passed, if_neg hs]
    rfl

/-- Behind a `--` of its own, a value is what was written, whatever that was. -/
theorem valueOf_dashes {s : String} {choice : Choice} (h : choice.complaint? s = none) :
    valueOf ["--", s] choice = .ok (some s) := by
  have herase : ["--", s].erase "--" = [s] := List.erase_cons_head _ _
  rw [valueOf, herase]
  simp only [List.head?_cons, h]

section Steps

variable {fuel : Nat} {r : Reading} {ps : List Positional} {f : Flag} {name value s : String}
  {choice : Choice} {v : Option String} {tokens rest : List Token}

theorem readFrom_value {w : Written} (hu : w.flag.use = .value choice)
    (hv : valueOf [value] choice = .ok v)
    (hcluster : g.cluster w.flag w.name (w.joined.map String.toList) tokens =
      .ok ([(w.flag, [value])], rest)) :
    g.readFrom (fuel + 1) r ps (.option s (some w) :: tokens) =
      g.readFrom fuel (r.put w.flag.key v) ps rest := by
  have happly : g.apply r w.flag [value] = .ok (r.put w.flag.key v) := by
    rw [apply, hu]
    simp only [hv]
  rw [readFrom, if_neg (by simp [Token.isOption])]
  simp only [hcluster]
  change (g.apply r w.flag [value] >>= pure) >>= _ = _
  rw [happly]
  rfl

theorem readFrom_joined (hu : f.use = .value choice) (hv : valueOf [value] choice = .ok v) :
    g.readFrom (fuel + 1) r ps (.option s (some ⟨f, name, some value⟩) :: rest) =
      g.readFrom fuel (r.put f.key v) ps rest := by
  refine readFrom_value (w := ⟨f, name, some value⟩) hu hv ?_
  have htakes : f.takesValue = true := by rw [Flag.takesValue, hu]
  rw [cluster.eq_def]
  simp only [Option.map_some, htakes, if_true, String.ofList_toList]

theorem readFrom_apart (hu : f.use = .value choice) (hv : valueOf [value] choice = .ok v) :
    g.readFrom (fuel + 1) r ps (.option s (some ⟨f, name, none⟩) :: .argument value :: rest) =
      g.readFrom fuel (r.put f.key v) ps rest := by
  refine readFrom_value (w := ⟨f, name, none⟩) hu hv ?_
  have htakes : f.takesValue = true := by rw [Flag.takesValue, hu]
  rw [cluster.eq_def]
  simp only [Option.map_none, htakes, if_true]

end Steps

section Arguments

variable {r r' : Reading} {p : Positional} {ps : List Positional} {s : String} {rest : List Token}

theorem readPositionals_cons {texts : List String} {tokens : List Token}
    (hspan : span? p.arity tokens = some (texts, rest)) (haccept : g.accept r p texts = .ok r') :
    g.readPositionals r tokens (p :: ps) = g.readPositionals r' rest ps := by
  rw [readPositionals, hspan]
  simp only [haccept]
  rfl

theorem span?_dashes {arity : Arity} (ha : arity ≠ .command) (hrest : ∀ more, rest ≠ .dashes :: more) :
    span? arity (.dashes :: .argument s :: rest) = some (["--", s], rest) := by
  cases arity with
  | command => exact absurd rfl ha
  | _ =>
    cases rest with
    | nil => rfl
    | cons t more =>
      cases t with
      | dashes => exact absurd rfl (hrest more)
      | argument => rfl
      | option => rfl

/-- The first argument behind the last option is what was written. -/
theorem readPositionals_dashes (ha : p.arity ≠ .command) (hc : p.choice.complaint? s = none)
    (hrest : ∀ more, rest ≠ .dashes :: more) :
    g.readPositionals r (.dashes :: .argument s :: rest) (p :: ps) =
      g.readPositionals (r.put p.key (some s)) rest ps := by
  refine readPositionals_cons (span?_dashes ha hrest) ?_
  have herase : ["--", s].erase "--" = [s] := List.erase_cons_head _ _
  unfold accept
  cases harity : p.arity with
  | command => exact absurd harity ha
  | one => simp only [valueOf_dashes hc]
  | atMostOne => simp only [herase, valueOf_dashes hc, List.cons_ne_nil, if_false]

/-- The last argument of all is taken up as it is, unless it is `--`. -/
theorem readPositionals_last (ha : p.arity = .atMostOne) (hc : p.choice = .any) :
    g.readPositionals r [.argument s] [p] =
      .ok ((passed s).elim r (fun s => r.put p.key (some s)), [], []) := by
  have hspan : span? p.arity [.argument s] = some ([s], []) := by
    rw [ha]
    rfl
  have haccept : g.accept r p [s] = .ok ((passed s).elim r (fun s => r.put p.key (some s))) := by
    unfold accept
    rw [ha]
    simp only [hc, valueOf_any]
    by_cases hs : s = "--"
    · subst hs
      rfl
    · simp only [erase_dashes_of_ne hs, passed, hs, List.cons_ne_nil, if_false, Option.elim_some]
  rw [readPositionals_cons hspan haccept]
  rfl

theorem leave_nil (r : Reading) : r.leave [] = r := by
  rw [Reading.leave, List.append_nil]

theorem readFrom_arguments {fuel : Nat} {tokens : List Token}
    (hnone : tokens.any Token.isOption = false)
    (hread : g.readPositionals r tokens ps = .ok (r', [], [])) :
    g.readFrom (fuel + 1) r ps tokens = .ok r' := by
  unfold readFrom
  rw [if_pos (by rw [hnone]; rfl), hread]
  exact congrArg Except.ok (leave_nil r')

theorem read_of_readFrom {texts : List String} {tokens : List Token}
    (htokens : Token.ofTexts g texts = .ok tokens)
    (hread : g.readFrom (tokens.length + 1) .empty g.positionals tokens = .ok r)
    (hneeded : (g.needed.all fun n => r.has n.2) = true) : g.read texts = .ok r := by
  have hfilter : (g.needed.filter fun n => !r.has n.2) = [] :=
    List.filter_eq_nil_iff.2 fun n hn => by simp [List.all_eq_true.1 hneeded n hn]
  rw [read, htokens]
  change (g.readFrom (tokens.length + 1) .empty g.positionals tokens >>= _) = _
  rw [hread]
  dsimp only [bind, Except.bind]
  rw [hfilter]
  rfl

/-- The name of a command takes along all that follows it, options too. -/
theorem read_command {name : String} {texts : List String} {tokens : List Token}
    (hp : g.positionals = [p]) (ha : p.arity = .command) (hc : p.choice.complaint? name = none)
    (hneeded : g.needed = []) (hn : name ≠ "--") (hname : Token.ofText g name = .ok (.argument name))
    (htexts : Token.ofTexts g texts = .ok tokens) :
    g.read (name :: texts) = .ok ⟨[(p.key, some name)], some (name, texts), []⟩ := by
  have hspan : span? p.arity (.argument name :: tokens) = some (name :: texts, []) := by
    rw [ha, ← Token.text_ofTexts htexts]
    rfl
  have haccept : g.accept .empty p (name :: texts) =
      .ok ⟨[(p.key, some name)], some (name, texts), []⟩ := by
    unfold accept
    rw [ha]
    simp only [hc]
    rfl
  have hall : g.readPositionals .empty (.argument name :: tokens) g.positionals =
      .ok (⟨[(p.key, some name)], some (name, texts), []⟩, [], []) := by
    rw [hp, readPositionals_cons hspan haccept]
    rfl
  refine read_of_readFrom (Token.ofTexts_cons hn hname htexts) ?_ (by rw [hneeded]; rfl)
  -- the options that follow the name are not this grammar's: whether there are any or not, the
  -- first step takes everything
  cases hany : (Token.argument name :: tokens).any Token.isOption with
  | false => exact readFrom_arguments hany hall
  | true =>
    unfold readFrom
    rw [if_neg (by simp [hany])]
    dsimp only
    rw [hall]
    exact congrArg Except.ok (leave_nil _)

end Arguments

end Grammar

end ShellHistory.Options

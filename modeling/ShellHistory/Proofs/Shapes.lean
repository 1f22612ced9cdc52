import ShellHistory.Proofs.ArgumentLists
import ShellHistory.Proofs.ReadBack

/-! Which documents are configurations. A document may leave out whatever it likes and may hold more
than is read of it. What it holds under the known keys has to have the right shape, and where a
number becomes text it must not be too long to be written. -/

namespace ShellHistory

namespace Value

def only (keys : List String) (entries : List (Value × Value)) : List (Value × Value) :=
  entries.filter fun (k, _) => keys.any fun key => sameKey k (.text key)

def without (key : String) (entries : List (Value × Value)) : List (Value × Value) :=
  entries.filter fun (k, _) => !sameKey k (.text key)

/-- A filter that tells entries by their keys keeps what is under a key or drops it. -/
theorem get?_filter {p : Value → Bool} {key : String} {b : Bool}
    (h : ∀ k : Value, k.bare = .text key → p k = b) (entries : List (Value × Value)) :
    get? (entries.filter fun (k, _) => p k) key = if b then get? entries key else none := by
  induction entries with
  | nil => simp
  | cons e rest ih =>
    obtain ⟨k, v⟩ := e
    by_cases hk : sameKey k (.text key) = true
    · have hp := h k ((sameKey_text_iff k key).1 hk)
      cases b with
      | true => simp [hp, get?, hk]
      | false => simpa [hp] using ih
    · by_cases hp : p k = true
      · simpa [hp, get?, hk] using ih
      · simpa [hp, get?, hk] using ih

theorem get?_only {keys : List String} {key : String} (h : key ∈ keys)
    (entries : List (Value × Value)) : get? (only keys entries) key = get? entries key := by
  have hkept (k : Value) (hk : k.bare = .text key) :
      (keys.any fun key => sameKey k (.text key)) = true :=
    List.any_eq_true.2 ⟨key, h, (sameKey_text_iff k key).2 hk⟩
  exact (get?_filter hkept entries).trans (if_pos rfl)

theorem get?_without_self (key : String) (entries : List (Value × Value)) :
    get? (without key entries) key = none := by
  have hdropped (k : Value) (hk : k.bare = .text key) : (!sameKey k (.text key)) = false := by
    rw [(sameKey_text_iff k key).2 hk]
    rfl
  exact (get?_filter hdropped entries).trans (if_neg Bool.false_ne_true)

theorem get?_without_of_ne {key other : String} (h : other ≠ key) (entries : List (Value × Value)) :
    get? (without key entries) other = get? entries other := by
  have hkept (k : Value) (hk : k.bare = .text other) : (!sameKey k (.text key)) = true := by
    rw [Bool.not_eq_true', Bool.eq_false_iff, ne_eq, sameKey_text_iff, hk]
    exact fun he => h (Value.text.inj he)
  exact (get?_filter hkept entries).trans (if_pos rfl)

/-- A change of the values by their keys changes what is under a key. -/
theorem get?_map {f : Value → Value → Value} {g : Value → Value} {key : String}
    (h : ∀ k v : Value, k.bare = .text key → f k v = g v) (entries : List (Value × Value)) :
    get? (entries.map fun (k, v) => (k, f k v)) key = (get? entries key).map g := by
  induction entries with
  | nil => rfl
  | cons e rest ih =>
    obtain ⟨k, v⟩ := e
    by_cases hk : sameKey k (.text key) = true
    · simp [get?, hk, h k v ((sameKey_text_iff k key).1 hk)]
    · simpa [get?, hk] using ih

end Value

namespace Config

inductive Section
  | backend
  | selector
  | history
  | move
  | logging
  deriving DecidableEq, Repr

namespace Section

def all : List Section := [backend, selector, history, move, logging]

def name : Section → String
  | backend => "backend"
  | selector => "selector"
  | history => "history"
  | move => "move"
  | logging => "logging"

def keys : Section → List String
  | backend => ["binary"]
  | selector => ["command", "options", "height"]
  | history => ["args", "session_only"]
  | move => ["args"]
  | logging => ["level", "file"]

theorem name_injective : Function.Injective name := by
  intro s t h
  cases s <;> cases t <;> first | rfl | exact absurd h (by decide)

def pruned (s : Section) (v : Value) : Value :=
  match v.entries? with
  | some entries => .map (Value.only s.keys entries)
  | none => v

end Section

/-- The value under a key of a document, without the keys that are not read if it is a section. -/
def prunedUnder (k v : Value) : Value :=
  match Section.all.find? fun s => Value.sameKey k (.text s.name) with
  | some s => s.pruned v
  | none => v

def pruned (v : Value) : Value :=
  match v.entries? with
  | some data => .map ((Value.only (Section.all.map Section.name ++ ["editor"]) data).map
      fun (k, w) => (k, prunedUnder k w))
  | none => v

def ArgumentList.key : ArgumentList → String
  | history => "history.args"
  | move => "move.args"

def ArgumentList.of (c : Config) : ArgumentList → List String
  | history => c.historyArgs
  | move => c.moveArgs

/-- What a document has in the wrong shape, and what it is told. -/
inductive Misshapen (v : Value) : Error → Prop
  | document : v.entries? = none → Misshapen v .notMapping
  | heading {s : Section} {w : Value} : v.at? [s.name] = some w → w ≠ .null → w.entries? = none →
      Misshapen v (.badSection s.name w.kind)
  | arguments {k : ArgumentList} {w : Value} : v.at? [k.heading, "args"] = some w → w ≠ .null →
      w.spelling? = none → w.items? = none → Misshapen v (.badArguments k.key w.kind)
  | quotes {k : ArgumentList} {w : Value} {line : String} {e : Words.Error} :
      v.at? [k.heading, "args"] = some w → w.spelling? = some line → Words.split line = .error e →
      Misshapen v (.words e)

/-- Where a document has a number that is too long for a text. -/
inductive Overlong (v : Value) : Prop
  | height {w : Value} : v.at? ["selector", "height"] = some w → w.hasLongNumber → Overlong v
  | argument {k : ArgumentList} {w item : Value} {items : List Value} :
      v.at? [k.heading, "args"] = some w → w.items? = some items → item ∈ items →
      item.hasLongNumber → Overlong v

/-! ### What is refused -/

section Refused

variable {v w : Value} {data entries items : List (Value × Value)} {e : Error} {key : String}

theorem sectionOf_of_entries? (h : Value.get? data key = some w) (he : w.entries? = some entries) :
    sectionOf data key = .ok entries := by
  unfold sectionOf
  rw [h]
  split
  · next hn => cases hn
  · next hn =>
    cases hn
    cases he
  · next hv =>
    cases hv
    rw [he]

theorem sectionOf_eq_error_iff : sectionOf data key = .error e ↔
    ∃ w, Value.get? data key = some w ∧ w ≠ .null ∧ w.entries? = none ∧
      e = .badSection key w.kind := by
  unfold sectionOf
  split
  · next h => simp [h]
  · next h => simp [h]
  · next w hnull h =>
    cases he : w.entries? with
    | some entries => simp [h, he]
    | none =>
      have hw : w ≠ .null := hnull
      simp [h, he, hw, eq_comm]

theorem textOf_eq_error_iff : textOf w = .error e ↔ w.hasLongNumber = true ∧ e = .longNumber := by
  unfold textOf
  split
  · next h => simp [h, eq_comm]
  · next h => simp [h]

theorem items?_of_spelling? {line : String} (h : w.spelling? = some line) : w.items? = none := by
  cases w with
  | text | unpaired => rfl
  | _ => cases h

theorem argumentsOf_of_spelling? {line : String} (h : w.spelling? = some line) (key : String) :
    argumentsOf key (some w) = (Words.split line).mapError .words := by
  unfold argumentsOf
  split
  · next hn => cases hn
  · next hn =>
    cases hn
    cases h
  · next hv =>
    cases hv
    rw [h]

theorem argumentsOf_of_items? {items : List Value} (h : w.items? = some items) (key : String) :
    argumentsOf key (some w) = items.mapM textOf := by
  unfold argumentsOf
  split
  · next hn => cases hn
  · next hn =>
    cases hn
    cases h
  · next hv =>
    cases hv
    cases hs : w.spelling? with
    | none => rw [h]
    | some line => cases h.symm.trans (items?_of_spelling? hs)

/-- Why a value is no list of arguments. -/
inductive NotArguments (key : String) (w : Value) : Error → Prop
  | shape : w ≠ .null → w.spelling? = none → w.items? = none →
      NotArguments key w (.badArguments key w.kind)
  | quotes {line : String} {e : Words.Error} : w.spelling? = some line →
      Words.split line = .error e → NotArguments key w (.words e)
  | number {items : List Value} {item : Value} : w.items? = some items → item ∈ items →
      item.hasLongNumber = true → NotArguments key w .longNumber

theorem notArguments_of_argumentsOf (h : argumentsOf key (some w) = .error e) :
    NotArguments key w e := by
  cases hitems : w.items? with
  | some items =>
    rw [argumentsOf_of_items? hitems, mapM_textOf] at h
    split at h
    · next hany =>
      cases h
      obtain ⟨item, hmem, hlong⟩ := List.any_eq_true.1 hany
      exact .number hitems hmem hlong
    · cases h
  | none =>
    cases htext : w.spelling? with
    | some line =>
      rw [argumentsOf_of_spelling? htext] at h
      cases hs : Words.split line with
      | error e' =>
        rw [hs] at h
        cases h
        exact .quotes htext hs
      | ok args =>
        rw [hs] at h
        cases h
    | none =>
      unfold argumentsOf at h
      split at h
      · cases h
      · cases h
      · next hnull hv =>
        cases hv
        rw [hitems, htext] at h
        cases h
        exact .shape hnull htext hitems

theorem NotArguments.argumentsOf_ne_ok (h : NotArguments key w e) (args : List String) :
    argumentsOf key (some w) ≠ .ok args := by
  intro hok
  cases h with
  | shape hnull htext hitems =>
    unfold argumentsOf at hok
    split at hok
    · next hn => cases hn
    · next hn => exact hnull (Option.some.inj hn)
    · next hv =>
      cases hv
      rw [hitems, htext] at hok
      cases hok
  | quotes htext hs =>
    rw [argumentsOf_of_spelling? htext, hs] at hok
    cases hok
  | number hitems hmem hlong =>
    rw [argumentsOf_of_items? hitems, mapM_textOf,
      if_pos (List.any_eq_true.2 ⟨_, hmem, hlong⟩)] at hok
    cases hok

/-- Behind a section that can be read, the path through it leads to what it has under a key. -/
theorem at?_of_sectionOf (hv : v.entries? = some data) (hs : sectionOf data key = .ok entries)
    (inner : String) : v.at? [key, inner] = Value.get? entries inner := by
  simp only [Value.at?, hv]
  unfold sectionOf at hs
  split at hs
  · next h =>
    cases hs
    simp [h]
  · next h =>
    cases hs
    simp only [h, Option.bind_some]
    rfl
  · next w _ h =>
    cases he : w.entries? with
    | none =>
      rw [he] at hs
      cases hs
    | some entries' =>
      rw [he] at hs
      cases hs
      simp [h, he]

/-- What a document is refused for. -/
def Refused (v : Value) (e : Error) : Prop := Misshapen v e ∨ Overlong v ∧ e = .longNumber

theorem refused_of_sectionOf (hv : v.entries? = some data) {s : Section}
    (h : sectionOf data s.name = .error e) : Refused v e := by
  obtain ⟨w, hget, hnull, hentries, rfl⟩ := sectionOf_eq_error_iff.1 h
  have hat : v.at? [s.name] = some w := by
    simp [Value.at?, hv, hget]
  exact .inl (.heading hat hnull hentries)

theorem refused_of_argumentsOf {k : ArgumentList} (hv : v.entries? = some data)
    (hs : sectionOf data k.heading = .ok entries)
    (h : argumentsOf k.key (Value.get? entries "args") = .error e) : Refused v e := by
  have hat := at?_of_sectionOf hv hs "args"
  cases hw : Value.get? entries "args" with
  | none =>
    rw [hw] at h
    cases h
  | some w =>
    rw [hw] at h hat
    cases notArguments_of_argumentsOf h with
    | shape hnull htext hitems => exact .inl (.arguments hat hnull htext hitems)
    | quotes hline hsplit => exact .inl (.quotes hat hline hsplit)
    | number hitems hmem hlong => exact .inr ⟨.argument hat hitems hmem hlong, rfl⟩

theorem refused_of_textOf (hv : v.entries? = some data)
    (hs : sectionOf data "selector" = .ok entries)
    (h : textOf ((Value.get? entries "height").getD (.text default.selectorHeight)) = .error e) :
    Refused v e := by
  have hat := at?_of_sectionOf hv hs "height"
  obtain ⟨hlong, rfl⟩ := textOf_eq_error_iff.1 h
  cases hw : Value.get? entries "height" with
  | none =>
    rw [hw] at hlong
    cases hlong
  | some w =>
    rw [hw] at hlong hat
    exact .inr ⟨.height hat hlong, rfl⟩

/-- Whatever a document is refused for is wrong with its shape or with a number in it. -/
theorem refused_of_ofValue (h : ofValue v = .error e) : Refused v e := by
  unfold ofValue at h
  cases hv : v.entries? with
  | none =>
    rw [hv] at h
    cases h
    exact .inl (.document hv)
  | some data =>
  rw [hv] at h
  obtain hbackend | ⟨backend, -, h⟩ := Act.except_bind_error h
  · exact refused_of_sectionOf (s := .backend) hv hbackend
  obtain hselector | ⟨selector, hselector, h⟩ := Act.except_bind_error h
  · exact refused_of_sectionOf (s := .selector) hv hselector
  obtain hheight | ⟨height, -, h⟩ := Act.except_bind_error h
  · exact refused_of_textOf hv hselector hheight
  obtain hhistory | ⟨history, hhistory, h⟩ := Act.except_bind_error h
  · exact refused_of_sectionOf (s := .history) hv hhistory
  obtain hargs | ⟨historyArgs, -, h⟩ := Act.except_bind_error h
  · exact refused_of_argumentsOf (k := .history) hv hhistory hargs
  obtain hmove | ⟨move, hmove, h⟩ := Act.except_bind_error h
  · exact refused_of_sectionOf (s := .move) hv hmove
  obtain hargs | ⟨moveArgs, -, h⟩ := Act.except_bind_error h
  · exact refused_of_argumentsOf (k := .move) hv hmove hargs
  obtain hlogging | ⟨logging, -, h⟩ := Act.except_bind_error h
  · exact refused_of_sectionOf (s := .logging) hv hlogging
  cases h

/-- What has been read of a document when a configuration has been made of it. -/
structure Parts (v : Value) (c : Config) : Prop where
  sections : ∃ data, v.entries? = some data ∧
    ∀ s : Section, ∃ entries, sectionOf data s.name = .ok entries
  height : textOf ((v.at? ["selector", "height"]).getD (.text default.selectorHeight)) =
    .ok c.selectorHeight
  arguments : ∀ k : ArgumentList, argumentsOf k.key (v.at? [k.heading, "args"]) = .ok (k.of c)

theorem parts_of_ofValue {c : Config} (h : ofValue v = .ok c) : Parts v c := by
  unfold ofValue at h
  cases hv : v.entries? with
  | none =>
    rw [hv] at h
    cases h
  | some data =>
  rw [hv] at h
  obtain ⟨backend, hbackend, h⟩ := Act.except_bind_ok h
  obtain ⟨selector, hselector, h⟩ := Act.except_bind_ok h
  obtain ⟨height, hheight, h⟩ := Act.except_bind_ok h
  obtain ⟨history, hhistory, h⟩ := Act.except_bind_ok h
  obtain ⟨historyArgs, hhistoryArgs, h⟩ := Act.except_bind_ok h
  obtain ⟨move, hmove, h⟩ := Act.except_bind_ok h
  obtain ⟨moveArgs, hmoveArgs, h⟩ := Act.except_bind_ok h
  obtain ⟨logging, hlogging, h⟩ := Act.except_bind_ok h
  cases h
  refine ⟨⟨data, hv, fun s => ?_⟩, ?_, fun k => ?_⟩
  · cases s with
    | backend => exact ⟨backend, hbackend⟩
    | selector => exact ⟨selector, hselector⟩
    | history => exact ⟨history, hhistory⟩
    | move => exact ⟨move, hmove⟩
    | logging => exact ⟨logging, hlogging⟩
  · rw [at?_of_sectionOf hv hselector]
    exact hheight
  · cases k with
    | history => exact (congrArg _ (at?_of_sectionOf hv hhistory "args")).trans hhistoryArgs
    | move => exact (congrArg _ (at?_of_sectionOf hv hmove "args")).trans hmoveArgs

/-- Of what is wrong with its shape or with a number in it, no configuration is made. -/
theorem ofValue_ne_ok_of_refused (h : Refused v e) (c : Config) : ofValue v ≠ .ok c := by
  intro hc
  obtain ⟨⟨data, hv, hsections⟩, hheight, harguments⟩ := parts_of_ofValue hc
  obtain hshape | ⟨hlong, -⟩ := h
  · cases hshape with
    | document hnone => cases hnone.symm.trans hv
    | @heading s w hat hnull hentries =>
      obtain ⟨entries, hs⟩ := hsections s
      have hget : Value.get? data s.name = some w := by
        simpa [Value.at?, hv] using hat
      cases hs.symm.trans (sectionOf_eq_error_iff.2 ⟨w, hget, hnull, hentries, rfl⟩)
    | @arguments k w hat hnull htext hitems =>
      exact (NotArguments.shape hnull htext hitems).argumentsOf_ne_ok _ (hat ▸ harguments k)
    | @quotes k w line e hat hline hsplit =>
      exact (NotArguments.quotes hline hsplit).argumentsOf_ne_ok _ (hat ▸ harguments k)
  · cases hlong with
    | @height w hat hw =>
      rw [hat] at hheight
      cases hheight.symm.trans (textOf_eq_error_iff.2 ⟨hw, rfl⟩)
    | @argument k w item items hat hitems hmem hitem =>
      exact (NotArguments.number hitems hmem hitem).argumentsOf_ne_ok _ (hat ▸ harguments k)

theorem ofValue_error_iff (v : Value) :
    (∃ e, ofValue v = .error e) ↔ (∃ e, Misshapen v e) ∨ Overlong v := by
  constructor
  · rintro ⟨e, h⟩
    obtain hshape | ⟨hlong, -⟩ := refused_of_ofValue h
    · exact .inl ⟨e, hshape⟩
    · exact .inr hlong
  · intro h
    have hrefused : ∃ e, Refused v e := by
      obtain ⟨e, hshape⟩ | hlong := h
      · exact ⟨e, .inl hshape⟩
      · exact ⟨_, .inr ⟨hlong, rfl⟩⟩
    obtain ⟨e, hrefused⟩ := hrefused
    cases hc : ofValue v with
    | error e' => exact ⟨e', rfl⟩
    | ok c => exact absurd hc (ofValue_ne_ok_of_refused hrefused c)

theorem arguments_of_ofValue {c : Config} {k : ArgumentList} {items : List Value}
    (h : ofValue v = .ok c) (hat : v.at? [k.heading, "args"] = some w)
    (hitems : w.items? = some items) : k.of c = items.map Value.toText := by
  have hargs := (parts_of_ofValue h).arguments k
  rw [hat, argumentsOf_of_items? hitems, mapM_textOf] at hargs
  split at hargs
  · cases hargs
  · exact (Except.ok.inj hargs).symm

end Refused

/-! ### What is not read -/

/-- Two sections, or the failures to read them, that are the same as far as they are read. -/
inductive Alike (keys : List String) :
    Except Error (List (Value × Value)) → Except Error (List (Value × Value)) → Prop
  | refused (e : Error) : Alike keys (.error e) (.error e)
  | read {a b : List (Value × Value)} : (∀ key ∈ keys, Value.get? a key = Value.get? b key) →
      Alike keys (.ok a) (.ok b)

theorem Alike.refl (keys : List String) (x : Except Error (List (Value × Value))) :
    Alike keys x x := by
  cases x with
  | error e => exact .refused e
  | ok a => exact .read fun _ _ => rfl

theorem Alike.bind {β : Type} {keys : List String} {x y : Except Error (List (Value × Value))}
    {f g : List (Value × Value) → Except Error β} (h : Alike keys x y)
    (hf : ∀ a b, (∀ key ∈ keys, Value.get? a key = Value.get? b key) → f a = g b) :
    x >>= f = y >>= g := by
  cases h with
  | refused e => rfl
  | read hkeys => exact hf _ _ hkeys

variable {v : Value} {data data' : List (Value × Value)}

/-- Documents with the same editor and the same sections, as far as they are read, give the same. -/
theorem ofValue_congr {v' : Value} (hv : v.entries? = some data) (hv' : v'.entries? = some data')
    (hs : ∀ s : Section, Alike s.keys (sectionOf data s.name) (sectionOf data' s.name))
    (heditor : Value.get? data "editor" = Value.get? data' "editor") : ofValue v = ofValue v' := by
  simp only [ofValue, hv, hv']
  refine (hs .backend).bind fun backend backend' hbackend => ?_
  refine (hs .selector).bind fun selector selector' hselector => ?_
  rw [hselector "height" (by decide)]
  refine bind_congr fun height => ?_
  refine (hs .history).bind fun history history' hhistory => ?_
  rw [hhistory "args" (by decide)]
  refine bind_congr fun historyArgs => ?_
  refine (hs .move).bind fun move move' hmove => ?_
  rw [hmove "args" (by decide)]
  refine bind_congr fun moveArgs => ?_
  refine (hs .logging).bind fun logging logging' hlogging => ?_
  rw [hbackend "binary" (by decide), hselector "command" (by decide),
    hselector "options" (by decide), hhistory "session_only" (by decide), heditor,
    hlogging "level" (by decide), hlogging "file" (by decide)]

theorem prunedUnder_section {k : Value} (s : Section) (hk : k.bare = .text s.name) (w : Value) :
    prunedUnder k w = s.pruned w := by
  have hfind : (Section.all.find? fun t => Value.sameKey k (.text t.name)) = some s := by
    have hsame (t : Section) : Value.sameKey k (.text t.name) = decide (s = t) := by
      rw [Bool.eq_iff_iff, Value.sameKey_text_iff, hk, decide_eq_true_iff, Value.text.injEq,
        Section.name_injective.eq_iff]
    simp only [hsame]
    cases s <;> rfl
  rw [prunedUnder, hfind]

theorem prunedUnder_editor {k : Value} (hk : k.bare = .text "editor") (w : Value) :
    prunedUnder k w = w := by
  have hfind : (Section.all.find? fun t => Value.sameKey k (.text t.name)) = none := by
    refine List.find?_eq_none.2 fun t _ => ?_
    rw [Value.sameKey_text_iff, hk, Value.text.injEq]
    cases t <;> decide
  rw [prunedUnder, hfind]

theorem get?_pruned {key : String} {g : Value → Value}
    (hkey : key ∈ Section.all.map Section.name ++ ["editor"])
    (hg : ∀ k w : Value, k.bare = .text key → prunedUnder k w = g w) :
    Value.get? ((Value.only (Section.all.map Section.name ++ ["editor"]) data).map
      fun (k, w) => (k, prunedUnder k w)) key = (Value.get? data key).map g := by
  rw [Value.get?_map hg, Value.get?_only hkey]

theorem alike_pruned {s : Section}
    (h : Value.get? data' s.name = (Value.get? data s.name).map s.pruned) :
    Alike s.keys (sectionOf data s.name) (sectionOf data' s.name) := by
  cases hget : Value.get? data s.name with
  | none =>
    rw [hget] at h
    rw [sectionOf, sectionOf, hget, h]
    exact .refl _ _
  | some w =>
    rw [hget] at h
    cases he : w.entries? with
    | some entries =>
      have hpruned : s.pruned w = .map (Value.only s.keys entries) := by
        rw [Section.pruned, he]
      have hget' := h.trans (congrArg some hpruned)
      rw [sectionOf_of_entries? hget he, sectionOf_of_entries? hget' rfl]
      exact .read fun key hkey => (Value.get?_only hkey entries).symm
    | none =>
      have hpruned : s.pruned w = w := by
        rw [Section.pruned, he]
      rw [sectionOf, sectionOf, hget, h, Option.map_some, hpruned]
      exact .refl _ _

/-- Keys that are not read do not matter. -/
theorem ofValue_pruned (v : Value) : ofValue (pruned v) = ofValue v := by
  unfold pruned
  cases hv : v.entries? with
  | none => rfl
  | some data =>
    refine (ofValue_congr hv rfl (fun s => alike_pruned ?_) ?_).symm
    · refine get?_pruned ?_ fun k w hk => prunedUnder_section s hk w
      cases s <;> decide
    · refine (get?_pruned (by decide) fun k w hk => prunedUnder_editor hk w).trans ?_ |>.symm
      exact Option.map_id'

/-- A section that has no entries may as well be left out. -/
theorem ofValue_insert_blank (s : Section) (data : List (Value × Value)) {w : Value}
    (hw : w = .null ∨ w = .map []) :
    ofValue (.map (Value.insert (.text s.name) w data)) =
      ofValue (.map (Value.without s.name data)) := by
  refine ofValue_congr rfl rfl (fun t => ?_) ?_
  · by_cases ht : t = s
    · subst ht
      have hblank : sectionOf (Value.insert (.text t.name) w data) t.name = .ok [] := by
        rw [sectionOf, Value.get?_insert_self]
        rcases hw with rfl | rfl <;> rfl
      rw [hblank, sectionOf, Value.get?_without_self]
      exact .refl _ _
    · have hname : t.name ≠ s.name := Section.name_injective.ne ht
      rw [sectionOf_insert_of_ne hname, sectionOf, sectionOf, Value.get?_without_of_ne hname]
      exact .refl _ _
  · have hname : "editor" ≠ s.name := by cases s <;> decide
    rw [Value.get?_insert_of_ne hname, Value.get?_without_of_ne hname]

/-- A document is refused exactly if it has the wrong shape or, where a number becomes text, one that
is too long to be written. Keys that are not read do not matter. A section that is null is as good
as an empty one and as one that is not there. The arguments of a list are kept one by one, each as
text. -/
theorem document_read (v : Value) :
    ((∃ e, ofValue v = .error e) ↔ (∃ e, Misshapen v e) ∨ Overlong v) ∧
      (∀ e, ofValue v = .error e → Misshapen v e ∨ Overlong v ∧ e = .longNumber) ∧
      ofValue (pruned v) = ofValue v ∧
      (∀ (s : Section) (data : List (Value × Value)) (w : Value), w = .null ∨ w = .map [] →
        ofValue (.map (Value.insert (.text s.name) w data)) =
          ofValue (.map (Value.without s.name data))) ∧
      ∀ (c : Config) (k : ArgumentList) (w : Value) (items : List Value), ofValue v = .ok c →
        v.at? [k.heading, "args"] = some w → w.items? = some items →
        k.of c = items.map Value.toText :=
  ⟨ofValue_error_iff v, fun _ h => refused_of_ofValue h, ofValue_pruned v,
    fun s data _ hw => ofValue_insert_blank s data hw,
    fun _ _ _ _ h hat hitems => arguments_of_ofValue h hat hitems⟩

def busyDocument : Value := .map [
  entry "theme" (.text "dark"),
  entry "history" (.map [entry "args" (.list [.int 1, .null]), entry "limit" (.int 9)])]

theorem document_read_sample :
    ofValue busyDocument = .ok { default with historyArgs := ["1", "None"] } ∧
      ofValue (pruned busyDocument) = .ok { default with historyArgs := ["1", "None"] } ∧
      ["1", "None"] = [Value.int 1, .null].map Value.toText := by
  obtain ⟨-, -, hpruned, -, harguments⟩ := document_read busyDocument
  have h : ofValue busyDocument = .ok { default with historyArgs := ["1", "None"] } := by
    rfl
  exact ⟨h, hpruned.trans h, harguments _ .history _ _ h rfl rfl⟩

def ofHeight (w : Value) : Value := .map [entry "selector" (.map [entry "height" w])]

theorem not_misshapen_ofHeight (w : Value) : ¬ ∃ e, Misshapen (ofHeight w) e := by
  rintro ⟨e, h⟩
  cases h with
  | document hnone => cases hnone
  | @heading s w hat hnull hentries =>
    cases s <;> cases hat
    cases hentries
  | @arguments k w hat => cases k <;> cases hat
  | @quotes k w line e hat => cases k <;> cases hat

theorem ofValue_ofHeight (w : Value) :
    ofValue (ofHeight w) =
      (textOf w).map fun height => { default with selectorHeight := height } := by
  change (textOf w >>= fun height => .ok { default with selectorHeight := height }) = _
  cases textOf w <;> rfl

/-- A number of 4302 digits is a height of the right shape, and it is refused. -/
theorem long_height_refused :
    (¬ ∃ e, Misshapen (ofHeight (.int (Nat.pow 16 3572))) e) ∧
      ofValue (ofHeight (.int (Nat.pow 16 3572))) = .error .longNumber := by
  have hlong : (Value.int (Nat.pow 16 3572)).hasLongNumber = true := by
    decide +kernel
  refine ⟨not_misshapen_ofHeight _, ?_⟩
  rw [ofValue_ofHeight, textOf_eq_error_iff.2 ⟨hlong, rfl⟩]
  rfl

end Config
end ShellHistory

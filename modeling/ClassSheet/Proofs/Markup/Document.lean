import ClassSheet.Markup.ClassNames
import ClassSheet.Proofs.Distinct
import ClassSheet.Proofs.Markup.Spans
import ClassSheet.Proofs.Text.Words

/-!
# Documents with class attributes in quotes

A document is written from its class attributes and the texts around them. Reading its class names
gives back the tokens of the attributes.

* `QuotedAttribute`: a class attribute in quotes, as it is written.
* `Document`: such attributes, with a text in front of each and one behind the last.
* `valuesFrom_glue`: up to the boundary in front of an attribute nothing is read.
* `QuotedAttribute.values_text_append`: behind an attribute, an empty one too, reading goes on where
  it ends.
* `occurrences_document`: the class names of a document are the tokens of its attributes.
-/

namespace ClassSheet.Markup

/-- The common beginning of the names of class attributes. -/
def keyword : Text := "class".toList

/-- A class attribute in quotes, as it is written: its tokens stand between the quotes, with blanks
around them. -/
structure QuotedAttribute where
  name : Text
  quote : Char
  tokens : List Text
  /-- What stands between the quotes. -/
  inside : Text
  isName : IsAttributeName name
  isQuote : quote = '"' ∨ quote = '\''
  spaced : Text.Spaced tokens inside
  quote_notMem : ∀ w ∈ tokens, quote ∉ w

/-- An attribute may follow the text. -/
def EndsInBoundary (s : Text) : Prop := ∃ c ∈ s.getLast?, Text.isBlank c ∨ c = '<' ∨ c = ':'

/-- Markup with class attributes in quotes. Elsewhere the beginning of their names does not
occur. -/
structure Document where
  /-- The attributes, each with the text in front of it. -/
  attributes : List (Text × QuotedAttribute)
  /-- The text behind the last attribute. -/
  tail : Text
  keyword_free : ∀ p ∈ attributes, ¬keyword <:+: p.1
  tail_keyword_free : ¬keyword <:+: tail
  first_boundary : ∀ p ∈ attributes.head?, p.1 = [] ∨ EndsInBoundary p.1
  next_boundary : ∀ p ∈ attributes.tail, EndsInBoundary p.1

/-- An attribute as it is written. -/
def QuotedAttribute.text (a : QuotedAttribute) : Text :=
  a.name ++ '=' :: a.quote :: (a.inside ++ [a.quote])

/-- A document as it is written. -/
def Document.text (doc : Document) : Text :=
  doc.attributes.flatMap (fun p => p.1 ++ p.2.text) ++ doc.tail

/-- The tokens of all attributes, in order. -/
def Document.tokens (doc : Document) : List Text := doc.attributes.flatMap (·.2.tokens)

/-! ## Text between attributes -/

/-- At the beginning of a class attribute, or behind its boundary, stands the beginning of its
name. -/
theorem Begins.keyword_prefix {atStart : Bool} {c : Char} {s rest : Text} {v : Value}
    (h : Begins atStart (c :: s) v rest) : keyword <+: c :: s ∨ keyword <+: s := by
  obtain ⟨b, name, group, hb, hname, -, hs⟩ := h
  have hkeyword : keyword <+: name ++ '=' :: group ++ rest := by
    rcases hname with rfl | rfl
    · exact ⟨"Name".toList ++ '=' :: group ++ rest, rfl⟩
    · exact ⟨'=' :: group ++ rest, rfl⟩
  rw [List.append_assoc b, List.append_assoc b] at hs
  rcases hb with ⟨d, rfl, -⟩ | ⟨rfl, -⟩
  · rw [List.singleton_append, List.cons.injEq] at hs
    rw [hs.2]
    exact .inr hkeyword
  · rw [hs]
    exact .inl hkeyword

/-- Without the beginning of the names there is no class attribute. -/
theorem valuesFrom_eq_nil {s : Text} (h : ¬keyword <:+: s) (atStart : Bool) :
    valuesFrom atStart s = [] := by
  induction s generalizing atStart with
  | nil => exact valuesFrom_nil atStart
  | cons c s ih =>
    rw [List.infix_cons_iff, not_or] at h
    rw [valuesFrom_cons, ih h.2]
    intro v rest hbegins
    rcases hbegins.keyword_prefix with hprefix | hprefix
    · exact h.1 hprefix
    · exact h.2 hprefix.isInfix

/-- A beginning of a text that lacks a character of it ends before that character. -/
theorem prefix_of_prefix_append_cons {w s t : Text} {c : Char} (h : w <+: s ++ c :: t)
    (hc : c ∉ w) : w <+: s := by
  rcases List.prefix_or_prefix_of_prefix h (List.prefix_append s (c :: t)) with hw | ⟨u, rfl⟩
  · exact hw
  · rw [List.prefix_append_right_inj] at h
    cases u with
    | nil => exact ⟨[], by simp⟩
    | cons d u =>
      rw [List.cons_prefix_cons] at h
      exact absurd (by simp [h.1]) hc

/-- Up to the boundary in front of an attribute nothing is read. -/
theorem valuesFrom_append_boundary {glue : Text} {c : Char} (hkeyword : ¬keyword <:+: glue)
    (hc : isBoundary c = true) (atStart : Bool) (s : Text) :
    valuesFrom atStart (glue ++ c :: s) = values s := by
  have hnotMem : c ∉ keyword := by
    intro hmem
    have hall : ∀ d ∈ keyword, isBoundary d = false := by decide
    rw [hall c hmem] at hc
    cases hc
  induction glue generalizing atStart with
  | nil => exact valuesFrom_boundary hc atStart s
  | cons d glue ih =>
    rw [List.infix_cons_iff, not_or] at hkeyword
    rw [List.cons_append, valuesFrom_cons, ih hkeyword.2]
    intro v rest hbegins
    rcases hbegins.keyword_prefix with hprefix | hprefix
    · rw [← List.cons_append] at hprefix
      exact hkeyword.1 (prefix_of_prefix_append_cons hprefix hnotMem)
    · exact hkeyword.2 (prefix_of_prefix_append_cons hprefix hnotMem).isInfix

theorem valuesFrom_glue {glue : Text} (hkeyword : ¬keyword <:+: glue)
    (hboundary : EndsInBoundary glue) (atStart : Bool) (s : Text) :
    valuesFrom atStart (glue ++ s) = values s := by
  obtain ⟨c, hlast, hc⟩ := hboundary
  obtain ⟨glue, rfl⟩ := List.getLast?_eq_some_iff.mp hlast
  have hglue : ¬keyword <:+: glue := fun h => hkeyword (h.trans (List.prefix_append _ _).isInfix)
  rw [List.append_assoc, List.singleton_append]
  exact valuesFrom_append_boundary hglue (isBoundary_iff.mpr hc) atStart s

/-! ## Attributes -/

/-- Inside a text, only a boundary begins an attribute. -/
theorem Begins.isBoundary {c : Char} {s rest : Text} {v : Value}
    (h : Begins false (c :: s) v rest) : isBoundary c = true := by
  obtain ⟨b, name, group, hb, -, -, hs⟩ := h
  rcases hb with ⟨d, rfl, hd⟩ | ⟨-, hfalse⟩
  · rw [List.append_assoc, List.append_assoc, List.singleton_append, List.cons.injEq] at hs
    rw [hs.1]
    exact isBoundary_iff.mpr hd
  · cases hfalse

theorem valuesFrom_append_of_not_isBoundary {u : Text} (hu : ∀ c ∈ u, isBoundary c = false)
    (s : Text) : valuesFrom false (u ++ s) = valuesFrom false s := by
  induction u with
  | nil => rfl
  | cons c u ih =>
    rw [List.forall_mem_cons] at hu
    rw [List.cons_append, valuesFrom_cons, ih hu.2]
    intro v rest hbegins
    have hc := hbegins.isBoundary
    rw [hu.1] at hc
    cases hc

namespace QuotedAttribute

variable (a : QuotedAttribute)

/-- The values that an attribute has: none if nothing stands between its quotes. -/
def values : List Value := if a.inside = [] then [] else [.quoted a.inside]

theorem text_append (s : Text) :
    a.text ++ s = a.name ++ '=' :: a.quote :: (a.inside ++ a.quote :: s) := by
  simp [text]

theorem quote_notMem_inside : a.quote ∉ a.inside := by
  intro h
  rcases a.spaced.mem h with hblank | ⟨w, hw, hmem⟩
  · rcases a.isQuote with hq | hq <;> rw [hq] at hblank <;> revert hblank <;> decide
  · exact a.quote_notMem w hw hmem

theorem group (hinside : a.inside ≠ []) :
    Group (a.quote :: (a.inside ++ [a.quote])) (.quoted a.inside) := by
  have hclose := a.quote_notMem_inside
  rcases a.isQuote with hq | hq
  · rw [hq] at hclose ⊢
    exact .double hinside hclose
  · rw [hq] at hclose ⊢
    exact .single hinside hclose

/-- No character of an attribute with nothing between its quotes is a boundary. -/
theorem isBoundary_eq_false_of_mem {c : Char} (hc : c ∈ a.name ++ ['=', a.quote, a.quote]) :
    isBoundary c = false := by
  have hall : ∀ name ∈ attributeNames, ∀ q ∈ ['"', '\''], ∀ c ∈ name ++ ['=', q, q],
      isBoundary c = false := by decide
  refine hall a.name (mem_attributeNames_iff.mpr a.isName) a.quote ?_ c hc
  simpa using a.isQuote

/-- Two quotes with nothing between them are no value. -/
theorem value?_empty (s : Text) : value? (a.quote :: a.quote :: s) = none := by
  have hcut : Text.cut? a.quote (a.quote :: s) = some ([], s) :=
    Text.cut?_eq_some_iff.mpr ⟨List.not_mem_nil, rfl⟩
  have hnone : enclosed? a.quote (a.quote :: s) = none := by
    rw [enclosed?, hcut]
    rfl
  rcases a.isQuote with hq | hq <;> rw [hq] at hnone ⊢ <;> rw [value?, hnone] <;> rfl

/-- Behind an attribute reading goes on where it ends, also if nothing stands between its
quotes. -/
theorem values_text_append (s : Text) :
    Markup.values (a.text ++ s) = a.values ++ valuesFrom false s := by
  unfold values
  split
  · rename_i hinside
    have htext : a.text ++ s = a.name ++ ['=', a.quote, a.quote] ++ s := by
      rw [text_append, hinside]
      simp
    have hassignment : assignment? (a.text ++ s) = none := by
      rw [text_append, hinside, assignment?_append a.isName]
      exact a.value?_empty s
    rw [Markup.values, valuesFrom_eq_of_attribute?_eq
      (attribute?_eq_of_assignment?_eq_none hassignment), htext,
      valuesFrom_append_of_not_isBoundary (fun c hc => a.isBoundary_eq_false_of_mem hc),
      List.nil_append]
  · rename_i hinside
    have hbegins : Begins true (a.text ++ s) (.quoted a.inside) s :=
      ⟨[], a.name, _, .inr ⟨rfl, rfl⟩, a.isName, a.group hinside, by rw [List.nil_append, text]⟩
    rw [Markup.values, valuesFrom_of_begins hbegins, List.singleton_append]

theorem flatMap_classNames_values : a.values.flatMap Value.classNames = a.tokens := by
  have hwords := a.spaced.words_eq
  unfold values
  split
  · rename_i hinside
    rw [hinside] at hwords
    rw [List.flatMap_nil, ← hwords]
    rfl
  · rw [List.flatMap_singleton, Value.classNames, hwords]

end QuotedAttribute

/-! ## Documents -/

/-- The values of attributes with boundaries in front of them are read one after the other. -/
theorem valuesFrom_attributes {attributes : List (Text × QuotedAttribute)} {tail : Text}
    (hkeyword : ∀ p ∈ attributes, ¬keyword <:+: p.1) (htail : ¬keyword <:+: tail)
    (hboundary : ∀ p ∈ attributes, EndsInBoundary p.1) :
    valuesFrom false (attributes.flatMap (fun p => p.1 ++ p.2.text) ++ tail) =
      attributes.flatMap (·.2.values) := by
  induction attributes with
  | nil => exact valuesFrom_eq_nil htail false
  | cons p attributes ih =>
    rw [List.forall_mem_cons] at hkeyword hboundary
    rw [List.flatMap_cons, List.append_assoc, List.append_assoc,
      valuesFrom_glue hkeyword.1 hboundary.1, p.2.values_text_append, ih hkeyword.2 hboundary.2,
      List.flatMap_cons]

theorem Document.values_text (doc : Document) :
    values doc.text = doc.attributes.flatMap (·.2.values) := by
  obtain ⟨attributes, tail, hkeyword, htail, hfirst, hnext⟩ := doc
  unfold Document.text
  cases attributes with
  | nil => exact valuesFrom_eq_nil htail true
  | cons p attributes =>
    have hglue : ∀ s, values (p.1 ++ s) = values s := by
      intro s
      rcases hfirst p rfl with hempty | hboundary
      · rw [hempty, List.nil_append]
      · exact valuesFrom_glue (hkeyword p List.mem_cons_self) hboundary true s
    rw [List.forall_mem_cons] at hkeyword
    rw [List.flatMap_cons, List.append_assoc, List.append_assoc, hglue, p.2.values_text_append,
      valuesFrom_attributes hkeyword.2 htail hnext, List.flatMap_cons]

/-- The class names of a document are the tokens of its attributes in the order in which they are
written, and without repeats each is kept where it occurs first. -/
theorem occurrences_document (doc : Document) :
    occurrences doc.text = doc.tokens ∧ classNames doc.text = firstOccurrences doc.tokens := by
  have htokens : occurrences doc.text = doc.tokens := by
    rw [occurrences, doc.values_text, List.flatMap_assoc, Document.tokens]
    exact congrArg (doc.attributes.flatMap ·)
      (funext fun p => p.2.flatMap_classNames_values)
  refine ⟨htokens, ?_⟩
  rw [classNames, htokens, eraseDups_eq_firstOccurrences]

/-- The attribute `class=""`. -/
def emptyAttribute : QuotedAttribute where
  name := "class".toList
  quote := '"'
  tokens := []
  inside := []
  isName := .inr rfl
  isQuote := .inl rfl
  spaced := .blank (by decide)
  quote_notMem := by decide

/-- An attribute with tokens that look like markup themselves. -/
def markupAttribute : QuotedAttribute where
  name := "className".toList
  quote := '\''
  tokens := ["class=\"a\"".toList, "{x}".toList]
  inside := [' '] ++ "class=\"a\"".toList ++ '\t' :: ([] ++ "{x}".toList)
  isName := .inl rfl
  isQuote := .inr rfl
  spaced := .word (by decide) ⟨by decide, by decide⟩ (by decide)
    (.last (by decide) ⟨by decide, by decide⟩)
  quote_notMem := by decide

/-- The empty attribute, and the other one behind it. -/
def emptyThenMarkup : Document where
  attributes := [("<i ".toList, emptyAttribute), ("><b:".toList, markupAttribute)]
  tail := "/>".toList
  keyword_free := by
    rw [List.forall_mem_cons, List.forall_mem_singleton]
    exact ⟨by decide, by decide⟩
  tail_keyword_free := by decide
  first_boundary := by
    rintro p ⟨⟩
    exact .inr ⟨' ', rfl, by decide⟩
  next_boundary := by
    rw [List.tail_cons, List.forall_mem_singleton]
    exact ⟨':', rfl, by decide⟩

example : occurrences emptyThenMarkup.text = ["class=\"a\"".toList, "{x}".toList] := by
  decide +kernel

end ClassSheet.Markup

import ClassSheet.Markup.ClassNames
import ClassSheet.Proofs.Markup.Spans
import ClassSheet.Proofs.Text.Words

/-!
# Class names of joined texts

Texts are joined without anything between them, so a class attribute could begin in one of them
and end in the next. It does not if the first text ends with a blank and closes what it opens.

* `Terminated`: such a text, or the empty one.
* `Terminated.begins_append`: an attribute that begins in such a text in front of another one,
  before its last character, ends in it.
* `Terminated.occurrences_append`, `occurrences_flatten`: the class names of joined texts are those
  of the texts, one after the other.
-/

namespace ClassSheet.Markup

/-- The characters that open a value, each with the one that closes it. -/
def enclosures : List (Char × Char) := [('"', '"'), ('\'', '\''), ('{', '}')]

/-- The name of a class attribute may stand at this place: at the start of the text, or behind a
boundary character. -/
def IsNamePlace (text : Text) (place : Nat) : Prop :=
  place = 0 ∨ (text[place - 1]?).any isBoundary

instance (text : Text) (place : Nat) : Decidable (IsNamePlace text place) :=
  inferInstanceAs (Decidable (_ ∨ _))

/-- Wherever a class attribute is opened, with its name, the equals sign and an opening character,
the character that closes it follows at some place or other. -/
def OpenersClosed (text : Text) : Prop :=
  ∀ place ≤ text.length, IsNamePlace text place → ∀ name ∈ attributeNames, ∀ e ∈ enclosures,
    name ++ ['=', e.1] <+: text.drop place → e.2 ∈ text.drop (place + name.length + 2)

instance (text : Text) : Decidable (OpenersClosed text) :=
  inferInstanceAs (Decidable (∀ place ≤ _, _))

/-- A text behind which any other one may follow: a blank ends it, unless it is empty, and its
openers are closed. -/
structure Terminated (text : Text) : Prop where
  ends_blank : ∀ c ∈ text.getLast?, Text.isBlank c
  openers_closed : OpenersClosed text

instance (text : Text) : Decidable (Terminated text) :=
  decidable_of_iff ((∀ c ∈ text.getLast?, Text.isBlank c) ∧ OpenersClosed text)
    ⟨fun h => ⟨h.1, h.2⟩, fun h => ⟨h.ends_blank, h.openers_closed⟩⟩

/-! ## Openers -/

theorem Group.enclosed {group : Text} {v : Value} (h : Group group v) :
    ∃ e ∈ enclosures, ∃ inside, e.2 ∉ inside ∧ group = e.1 :: (inside ++ [e.2]) := by
  cases h with
  | double _ hclose => exact ⟨('"', '"'), by decide, _, hclose, rfl⟩
  | single _ hclose => exact ⟨('\'', '\''), by decide, _, hclose, rfl⟩
  | brace _ hclose => exact ⟨('{', '}'), by decide, _, hclose, rfl⟩

/-- From its name on, an opener has no blank. -/
theorem not_isBlank_of_mem_opener {name : Text} {e : Char × Char} (hname : name ∈ attributeNames)
    (he : e ∈ enclosures) : ∀ c ∈ name ++ ['=', e.1], ¬Text.isBlank c := by
  have hall : ∀ name ∈ attributeNames, ∀ e ∈ enclosures, ∀ c ∈ name ++ ['=', e.1],
      ¬Text.isBlank c := by decide
  exact hall name hname e he

theorem not_isBlank_of_mem_enclosures {e : Char × Char} (he : e ∈ enclosures) :
    ¬Text.isBlank e.2 := by
  have hall : ∀ e ∈ enclosures, ¬Text.isBlank e.2 := by decide
  exact hall e he

/-- What begins a joined text, and has no blank behind its first character, begins the first part,
if that one ends with a blank that is not its first character. -/
theorem exists_eq_append_of_not_isBlank {s t u x : Text} (h : s ++ t = u ++ x)
    (hu : ∀ c ∈ u.tail, ¬Text.isBlank c) (hends : ∀ c ∈ s.getLast?, Text.isBlank c)
    (hlong : 1 < s.length) : ∃ y, s = u ++ y ∧ x = y ++ t := by
  rcases List.append_eq_append_iff.mp h with ⟨y, rfl, -⟩ | ⟨y, hs, hx⟩
  · cases s with
    | nil => simp at hlong
    | cons c s =>
      have hne : s ≠ [] := by
        rintro rfl
        simp at hlong
      have hlast : s.getLast hne ∈ (c :: s).getLast? := by
        rw [List.getLast?_cons_of_ne_nil hne, List.getLast?_eq_some_getLast hne]
        rfl
      have hmem : s.getLast hne ∈ (c :: s ++ y).tail :=
        List.mem_append_left y (List.getLast_mem hne)
      exact absurd (hends _ hlast) (hu _ hmem)
  · exact ⟨y, hs, hx⟩

/-- The first character that closes a run in a joined text is in the first part, if one is. -/
theorem exists_eq_append_of_mem {s t inside rest : Text} {c : Char}
    (h : inside ++ c :: rest = s ++ t) (hclose : c ∉ inside) (hmem : c ∈ s) :
    ∃ rest', s = inside ++ c :: rest' ∧ rest = rest' ++ t := by
  rcases List.append_eq_append_iff.mp h with ⟨y, rfl, hy⟩ | ⟨y, rfl, -⟩
  · cases y with
    | nil =>
      rw [List.append_nil] at hmem
      exact absurd hmem hclose
    | cons d y =>
      rw [List.cons_append, List.cons.injEq] at hy
      obtain ⟨rfl, hrest⟩ := hy
      exact ⟨y, rfl, hrest⟩
  · exact absurd (List.mem_append_left y hmem) hclose

/-! ## Attributes in a text that another one follows -/

variable {text t : Text}

/-- Behind a boundary that begins what is left of a text, a name may stand. -/
theorem isNamePlace_of_boundary {b s : Text} {start : Nat} (hb : Boundary (start == 0) b)
    (hs : text.drop start = b ++ s) : IsNamePlace text (start + b.length) := by
  rcases hb with ⟨c, rfl, hc⟩ | ⟨rfl, hstart⟩
  · right
    have hget : text[start]? = some c := by
      rw [← Nat.add_zero start, ← List.getElem?_drop, hs]
      rfl
    rw [List.length_singleton, Nat.add_sub_cancel, hget]
    exact isBoundary_iff.mpr hc
  · left
    rw [List.length_nil, Nat.add_zero]
    exact beq_iff_eq.mp hstart

/-- What closes an opener that begins the rest of a text follows it there. -/
theorem OpenersClosed.mem {b name y : Text} {e : Char × Char} {start : Nat}
    (h : OpenersClosed text) (hb : Boundary (start == 0) b) (hname : name ∈ attributeNames)
    (he : e ∈ enclosures) (hs : text.drop start = b ++ (name ++ ['=', e.1]) ++ y) : e.2 ∈ y := by
  have hle : start + b.length ≤ text.length := by
    have hlength := congrArg List.length hs
    simp only [List.length_drop, List.length_append, List.length_cons] at hlength
    omega
  have hplace : IsNamePlace text (start + b.length) :=
    isNamePlace_of_boundary hb (by rw [hs, List.append_assoc])
  have hrest : text.drop (start + b.length) = name ++ ['=', e.1] ++ y := by
    rw [← List.drop_drop, hs, List.append_assoc b, List.drop_left]
  have hmem := h _ hle hplace name hname e he ⟨y, hrest.symm⟩
  have hopener : name.length + 2 = (name ++ ['=', e.1]).length := by simp
  rwa [Nat.add_assoc, ← List.drop_drop, hrest, hopener, List.drop_left] at hmem

/-- An attribute that begins in the text, before its last character, ends in it, and not at its end
either. -/
theorem Terminated.begins_append {start : Nat} {v : Value} {rest : Text} (h : Terminated text)
    (hstart : start + 1 < text.length)
    (hbegins : Begins (start == 0) (text.drop start ++ t) v rest) :
    ∃ rest', rest' ≠ [] ∧ Begins (start == 0) (text.drop start) v rest' ∧ rest = rest' ++ t := by
  obtain ⟨b, name, group, hb, hname, hgroup, hs⟩ := hbegins
  obtain ⟨e, he, inside, hclose, hgroup_eq⟩ := hgroup.enclosed
  have hname_mem := mem_attributeNames_iff.mpr hname
  have hlast : (text.drop start).getLast? = text.getLast? := by
    rw [List.getLast?_drop, if_neg (by omega)]
  have hends : ∀ c ∈ (text.drop start).getLast?, Text.isBlank c := hlast ▸ h.ends_blank
  have hsplit : text.drop start ++ t =
      b ++ (name ++ ['=', e.1]) ++ (inside ++ e.2 :: rest) := by
    rw [hs, hgroup_eq]
    simp
  -- The opener has no blank behind its first character, so it does not reach the end of the text.
  have htail : ∀ c ∈ (b ++ (name ++ ['=', e.1])).tail, ¬Text.isBlank c := by
    intro c hc
    refine not_isBlank_of_mem_opener hname_mem he c ?_
    rcases hb with ⟨d, rfl, -⟩ | ⟨rfl, -⟩
    · exact hc
    · exact List.mem_of_mem_tail hc
  obtain ⟨y, hy, hinside⟩ := exists_eq_append_of_not_isBlank hsplit htail hends (by
    rw [List.length_drop]
    omega)
  -- What closes it follows in the text, and there the value ends.
  have hmem : e.2 ∈ y := h.openers_closed.mem hb hname_mem he hy
  obtain ⟨rest', rfl, hrest⟩ := exists_eq_append_of_mem hinside hclose hmem
  refine ⟨rest', ?_, ⟨b, name, group, hb, hname, hgroup, ?_⟩, hrest⟩
  · rintro rfl
    have hend : e.2 ∈ (text.drop start).getLast? := by
      rw [hy, ← List.append_assoc, List.getLast?_concat]
      rfl
    exact not_isBlank_of_mem_enclosures he (hends _ hend)
  · rw [hy, hgroup_eq]
    simp

theorem Begins.append {atStart : Bool} {s rest : Text} {v : Value} (h : Begins atStart s v rest)
    (t : Text) : Begins atStart (s ++ t) v (rest ++ t) := by
  obtain ⟨b, name, group, hb, hname, hgroup, rfl⟩ := h
  exact ⟨b, name, group, hb, hname, hgroup, by simp⟩

/-! ## The values and class names of joined texts -/

/-- From every place of a terminated text on, the values that are read when another text follows
are those of what is left, and then those of the other text. The induction is on what is left: an
attribute is read alike in both, and the last character is a boundary for the other text. -/
theorem Terminated.valuesFrom_append (h : Terminated text) (t : Text) {start : Nat}
    (hstart : start < text.length) :
    valuesFrom (start == 0) (text.drop start ++ t) =
      valuesFrom (start == 0) (text.drop start) ++ values t := by
  have hdrop := List.drop_eq_getElem_cons hstart
  by_cases hlast : start + 1 = text.length
  · have hmem : text[start] ∈ text.getLast? := by
      rw [List.getLast?_eq_getElem?, ← hlast, Nat.add_sub_cancel, List.getElem?_eq_getElem hstart]
      rfl
    have hboundary : isBoundary text[start] = true :=
      isBoundary_iff.mpr (.inl (h.ends_blank _ hmem))
    rw [hdrop, hlast, List.drop_length, List.singleton_append, valuesFrom_boundary hboundary,
      valuesFrom_boundary hboundary, values_nil, List.nil_append]
  · have hlt : start + 1 < text.length := by omega
    by_cases hbegins : ∃ v rest, Begins (start == 0) (text.drop start ++ t) v rest
    · obtain ⟨v, rest, hv⟩ := hbegins
      obtain ⟨rest', hne, hv', rfl⟩ := h.begins_append hlt hv
      obtain ⟨stop, hstop, rfl, -⟩ := exists_isSpan_of_begins (Nat.le_of_lt hstart) hv'
      have hstop_lt : stop < text.length := by
        rwa [ne_eq, List.drop_eq_nil_iff, Nat.not_le] at hne
      have hrest := h.valuesFrom_append t hstop_lt
      have hfalse : (stop == 0) = false := by
        rw [beq_eq_false_iff_ne]
        omega
      rw [hfalse] at hrest
      rw [valuesFrom_of_begins hv, valuesFrom_of_begins hv', hrest, List.cons_append]
    · have hnone : ∀ v rest, ¬Begins (start == 0) (text.drop start ++ t) v rest := by
        intro v rest hv
        exact hbegins ⟨v, rest, hv⟩
      have hnone' : ∀ v rest, ¬Begins (start == 0) (text.drop start) v rest := by
        intro v rest hv
        exact hnone v _ (hv.append t)
      have hrest := h.valuesFrom_append t hlt
      rw [hdrop] at hnone hnone' ⊢
      rw [List.cons_append] at hnone ⊢
      rw [valuesFrom_cons hnone, valuesFrom_cons hnone']
      exact hrest
termination_by text.length - start

/-- The class names of a terminated text and another one joined to it are those of the first, and
then those of the second. -/
theorem Terminated.occurrences_append (h : Terminated text) (t : Text) :
    occurrences (text ++ t) = occurrences text ++ occurrences t := by
  have hvalues : values (text ++ t) = values text ++ values t := by
    cases text with
    | nil => rw [List.nil_append, values_nil, List.nil_append]
    | cons c s =>
      exact h.valuesFrom_append t (show 0 < (c :: s).length from Nat.succ_pos _)
  rw [occurrences, hvalues, List.flatMap_append]
  rfl

/-- The class names of joined terminated texts are those of the texts, one after the other. -/
theorem occurrences_flatten {texts : List Text} (h : ∀ text ∈ texts, Terminated text) :
    occurrences texts.flatten = texts.flatMap occurrences := by
  induction texts with
  | nil =>
    rw [List.flatten_nil, occurrences, values_nil]
    rfl
  | cons text texts ih =>
    rw [List.forall_mem_cons] at h
    rw [List.flatten_cons, h.1.occurrences_append, ih h.2, List.flatMap_cons]

end ClassSheet.Markup

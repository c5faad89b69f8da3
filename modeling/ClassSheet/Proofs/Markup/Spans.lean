import ClassSheet.Markup.Attribute

/-!
# The class attributes of a text as spans

A class attribute is described by what its characters are, and the values of a text by a sequence
of such spans, without a word about how a text is searched.

* `Group`: how a value is written, with the characters that enclose it.
* `IsAttributeName`, `Boundary`: the names, and what may stand in front of one.
* `IsSpan`: the characters from one place of a text up to another one are a class attribute.
* `Greedy`: the values of a sequence of spans, each the first one that begins where the one before
  it ends or later.
* `attribute?_eq_some_iff`, `isSpan_iff`: what is read at a place is the span that begins there.
* `valuesFrom_of_begins`, `valuesFrom_cons`, `valuesFrom_boundary`: the steps of a reading.
* `values_eq_iff_greedy`: the values of a text are those of the greedy sequence from its start.
-/

namespace ClassSheet.Markup

/-- A value as it is written: a run that is not empty, up to the first character that closes it. -/
inductive Group : Text → Value → Prop
  | double {inside : Text} (hne : inside ≠ []) (hclose : '"' ∉ inside) :
      Group ('"' :: (inside ++ ['"'])) (.quoted inside)
  | single {inside : Text} (hne : inside ≠ []) (hclose : '\'' ∉ inside) :
      Group ('\'' :: (inside ++ ['\''])) (.quoted inside)
  | brace {inside : Text} (hne : inside ≠ []) (hclose : '}' ∉ inside) :
      Group ('{' :: (inside ++ ['}'])) (.braced inside)

/-- One of the two names of class attributes. -/
def IsAttributeName (name : Text) : Prop := name = "className".toList ∨ name = "class".toList

/-- What may stand in front of an attribute name: one blank, `<` or `:`, or at the start of the
text nothing. -/
def Boundary (atStart : Bool) (b : Text) : Prop :=
  (∃ c, b = [c] ∧ (Text.isBlank c ∨ c = '<' ∨ c = ':')) ∨ (b = [] ∧ atStart)

/-- The text begins with a class attribute of the given value, and `rest` follows. -/
def Begins (atStart : Bool) (s : Text) (v : Value) (rest : Text) : Prop :=
  ∃ b name group, Boundary atStart b ∧ IsAttributeName name ∧ Group group v ∧
    s = b ++ name ++ '=' :: group ++ rest

/-- The characters from place `start` up to place `stop` are a class attribute of the given
value. -/
def IsSpan (text : Text) (start stop : Nat) (v : Value) : Prop :=
  stop ≤ text.length ∧ ∃ b name group, Boundary (start == 0) b ∧ IsAttributeName name ∧
    Group group v ∧ text.extract start stop = b ++ name ++ '=' :: group

/-- The values of a sequence of spans from place `place` on, each with the least start at or after
the end of the one before it. -/
inductive Greedy (text : Text) : Nat → List Value → Prop
  | done {place : Nat} (hnone : ∀ start stop v, IsSpan text start stop v → start < place) :
      Greedy text place []
  | next {place start stop : Nat} {v : Value} {values : List Value}
      (hspan : IsSpan text start stop v) (hplace : place ≤ start)
      (hleast : ∀ start' stop' v', IsSpan text start' stop' v' → place ≤ start' →
        start ≤ start')
      (hrest : Greedy text stop values) : Greedy text place (v :: values)

/-! ## What is read at the beginning of a text -/

theorem value?_eq_some_iff {s rest : Text} {v : Value} :
    value? s = some (v, rest) ↔ ∃ group, Group group v ∧ s = group ++ rest := by
  constructor
  · intro h
    unfold value? at h
    split at h
    case h_4 => cases h
    all_goals
      obtain ⟨⟨inside, rest'⟩, henclosed, he⟩ := Option.map_eq_some_iff.mp h
      obtain ⟨hne, hclose, rfl⟩ := enclosed?_eq_some_iff.mp henclosed
      cases he
    · exact ⟨_, .double hne hclose, by simp⟩
    · exact ⟨_, .single hne hclose, by simp⟩
    · exact ⟨_, .brace hne hclose, by simp⟩
  · rintro ⟨group, hgroup, rfl⟩
    cases hgroup
    all_goals
      rename_i inside hne hclose
      rw [List.cons_append, List.append_assoc, List.singleton_append, value?]
      rw [enclosed?_eq_some_iff.mpr ⟨hne, hclose, rfl⟩]
      rfl

theorem mem_attributeNames_iff {name : Text} : name ∈ attributeNames ↔ IsAttributeName name := by
  simp only [attributeNames, List.mem_cons, List.not_mem_nil, or_false, IsAttributeName]

/-- The longer attribute name is tried first, but it is no beginning of the shorter one with its
equals sign. -/
theorem assignment?_append {name s : Text} (hname : IsAttributeName name) :
    assignment? (name ++ '=' :: s) = value? s := by
  rw [List.append_cons]
  unfold assignment? attributeNames
  rcases hname with rfl | rfl
  · rw [List.findSome?_cons, Text.after?_append, Option.bind_some]
    cases value? s <;> rfl
  · have hlong : Text.after? ("className".toList ++ ['=']) ("class".toList ++ ['='] ++ s) = none :=
      rfl
    rw [List.findSome?_cons, hlong, List.findSome?_cons, Text.after?_append, Option.bind_none,
      Option.bind_some]
    cases value? s <;> rfl

theorem assignment?_eq_some_iff {s rest : Text} {v : Value} :
    assignment? s = some (v, rest) ↔
      ∃ name group, IsAttributeName name ∧ Group group v ∧ s = name ++ '=' :: group ++ rest := by
  constructor
  · intro h
    obtain ⟨name, hname, h⟩ := List.exists_of_findSome?_eq_some h
    obtain ⟨s', hs', h⟩ := Option.bind_eq_some_iff.mp h
    obtain ⟨group, hgroup, rfl⟩ := value?_eq_some_iff.mp h
    refine ⟨name, group, mem_attributeNames_iff.mp hname, hgroup, ?_⟩
    rw [Text.after?_eq_some_iff.mp hs']
    simp
  · rintro ⟨name, group, hname, hgroup, rfl⟩
    rw [List.append_assoc, List.cons_append, assignment?_append hname]
    exact value?_eq_some_iff.mpr ⟨group, hgroup, rfl⟩

theorem isBoundary_iff {c : Char} :
    isBoundary c = true ↔ Text.isBlank c ∨ c = '<' ∨ c = ':' := by
  simp only [isBoundary, Bool.or_eq_true, beq_iff_eq, or_assoc]

/-- An attribute name is not preceded by a boundary that it begins with itself, so at the start of
the text at most one of the two readings is possible. -/
theorem assignment?_eq_none_of_isBoundary {c : Char} {s : Text} (hc : isBoundary c = true) :
    assignment? (c :: s) = none := by
  rw [Option.eq_none_iff_forall_ne_some]
  rintro ⟨v, rest⟩ h
  obtain ⟨name, group, hname, -, hs⟩ := assignment?_eq_some_iff.mp h
  have hclass : c = 'c' := by
    rcases hname with rfl | rfl
    · exact (List.cons.inj hs).1
    · exact (List.cons.inj hs).1
  subst hclass
  exact absurd hc (by decide)

/-- What is read at the beginning of a text is the class attribute that begins it. -/
theorem attribute?_eq_some_iff {atStart : Bool} {s rest : Text} {v : Value} :
    attribute? atStart s = some (v, rest) ↔ Begins atStart s v rest := by
  constructor
  · intro h
    rcases Option.or_eq_some_iff.mp h with h | ⟨-, h⟩
    · obtain ⟨hstart, h⟩ := Option.ite_none_right_eq_some.mp h
      obtain ⟨name, group, hname, hgroup, rfl⟩ := assignment?_eq_some_iff.mp h
      exact ⟨[], name, group, .inr ⟨rfl, hstart⟩, hname, hgroup, rfl⟩
    · cases s with
      | nil => cases h
      | cons c s =>
        obtain ⟨hc, h⟩ := Option.ite_none_right_eq_some.mp h
        obtain ⟨name, group, hname, hgroup, rfl⟩ := assignment?_eq_some_iff.mp h
        exact ⟨[c], name, group, .inl ⟨c, rfl, isBoundary_iff.mp hc⟩, hname, hgroup, rfl⟩
  · rintro ⟨b, name, group, hb, hname, hgroup, rfl⟩
    have hassignment : assignment? (name ++ '=' :: group ++ rest) = some (v, rest) :=
      assignment?_eq_some_iff.mpr ⟨name, group, hname, hgroup, rfl⟩
    rw [List.append_assoc b, List.append_assoc b]
    generalize name ++ '=' :: group ++ rest = s at hassignment
    rcases hb with ⟨c, rfl, hc⟩ | ⟨rfl, hstart⟩
    · have hc := isBoundary_iff.mpr hc
      have hnone : assignment? (c :: s) = none := assignment?_eq_none_of_isBoundary hc
      rw [List.singleton_append, attribute?, hnone, ite_self, Option.none_or, if_pos hc,
        hassignment]
    · unfold attribute?
      rw [List.nil_append, if_pos hstart, hassignment, Option.some_or]

/-- A class attribute is not empty. -/
theorem Begins.length_lt {atStart : Bool} {s rest : Text} {v : Value}
    (h : Begins atStart s v rest) : rest.length < s.length :=
  length_lt_of_attribute? (attribute?_eq_some_iff.mpr h)

/-- A class attribute is read in one way only. -/
theorem Begins.unique {atStart : Bool} {s rest rest' : Text} {v v' : Value}
    (h : Begins atStart s v rest) (h' : Begins atStart s v' rest') : v = v' ∧ rest = rest' := by
  have he := attribute?_eq_some_iff.mpr h
  rw [attribute?_eq_some_iff.mpr h'] at he
  cases he
  exact ⟨rfl, rfl⟩

/-! ## Spans -/

/-- A span is a class attribute that begins what is left of the text from its start. -/
theorem isSpan_iff {text : Text} {start stop : Nat} {v : Value} :
    IsSpan text start stop v ↔
      start ≤ stop ∧ stop ≤ text.length ∧
        Begins (start == 0) (text.drop start) v (text.drop stop) := by
  constructor
  · rintro ⟨hstop, b, name, group, hb, hname, hgroup, h⟩
    have hlength := congrArg List.length h
    simp only [List.extract_eq_take_drop, List.length_take, List.length_drop,
      List.length_append, List.length_cons] at hlength
    have hle : start ≤ stop := by omega
    refine ⟨hle, hstop, b, name, group, hb, hname, hgroup, ?_⟩
    rw [← h, List.extract_eq_take_drop]
    have hdrop : text.drop stop = (text.drop start).drop (stop - start) := by
      rw [List.drop_drop]
      congr 1
      omega
    rw [hdrop, List.take_append_drop]
  · rintro ⟨hle, hstop, b, name, group, hb, hname, hgroup, h⟩
    refine ⟨hstop, b, name, group, hb, hname, hgroup, ?_⟩
    have hlength := congrArg List.length h
    rw [List.length_append, List.length_drop, List.length_drop] at hlength
    rw [List.extract_eq_take_drop, h, List.take_left']
    omega

theorem IsSpan.lt_length {text : Text} {start stop : Nat} {v : Value}
    (h : IsSpan text start stop v) : start < text.length := by
  obtain ⟨-, -, hbegins⟩ := isSpan_iff.mp h
  have := hbegins.length_lt
  rw [List.length_drop, List.length_drop] at this
  omega

/-- A span is determined by its start. -/
theorem IsSpan.unique {text : Text} {start stop stop' : Nat} {v v' : Value}
    (h : IsSpan text start stop v) (h' : IsSpan text start stop' v') : stop = stop' ∧ v = v' := by
  obtain ⟨-, hstop, hbegins⟩ := isSpan_iff.mp h
  obtain ⟨-, hstop', hbegins'⟩ := isSpan_iff.mp h'
  obtain ⟨hv, hrest⟩ := hbegins.unique hbegins'
  have hlength := congrArg List.length hrest
  rw [List.length_drop, List.length_drop] at hlength
  exact ⟨by omega, hv⟩

/-- What begins the rest of a text at a place is a span from there. -/
theorem exists_isSpan_of_begins {text rest : Text} {start : Nat} {v : Value}
    (hstart : start ≤ text.length) (h : Begins (start == 0) (text.drop start) v rest) :
    ∃ stop, start < stop ∧ rest = text.drop stop ∧ IsSpan text start stop v := by
  have hlt := h.length_lt
  rw [List.length_drop] at hlt
  obtain ⟨b, name, group, hb, hname, hgroup, hs⟩ := id h
  have hrest : rest = text.drop (text.length - rest.length) := by
    have hlength := congrArg List.length hs
    rw [List.length_drop, List.length_append] at hlength
    have hsplit : text.length - rest.length = start + (b ++ name ++ '=' :: group).length := by
      omega
    rw [hsplit, ← List.drop_drop, hs, List.drop_left]
  refine ⟨text.length - rest.length, by omega, hrest, isSpan_iff.mpr ⟨by omega, by omega, ?_⟩⟩
  rwa [← hrest]

/-! ## Greedy sequences of spans -/

/-- The greedy sequence from a place is unique. -/
theorem Greedy.unique {text : Text} {place : Nat} {values values' : List Value}
    (h : Greedy text place values) (h' : Greedy text place values') : values = values' := by
  induction h generalizing values' with
  | done hnone =>
    cases h' with
    | done => rfl
    | next hspan hplace =>
      have := hnone _ _ _ hspan
      omega
  | next hspan hplace hleast _ ih =>
    cases h' with
    | done hnone =>
      have := hnone _ _ _ hspan
      omega
    | next hspan' hplace' hleast' hrest' =>
      have hle := hleast _ _ _ hspan' hplace'
      have hle' := hleast' _ _ _ hspan hplace
      obtain rfl := Nat.le_antisymm hle hle'
      obtain ⟨rfl, rfl⟩ := hspan.unique hspan'
      rw [ih hrest']

/-- A place where no span begins can be passed over. -/
theorem Greedy.of_succ {text : Text} {place : Nat} {values : List Value}
    (hnone : ∀ stop v, ¬IsSpan text place stop v) (h : Greedy text (place + 1) values) :
    Greedy text place values := by
  have hne : ∀ start stop v, IsSpan text start stop v → start ≠ place := by
    rintro start stop v hspan rfl
    exact hnone stop v hspan
  cases h with
  | done hdone =>
    refine .done fun start stop v hspan => ?_
    have := hdone start stop v hspan
    have := hne start stop v hspan
    omega
  | next hspan hplace hleast hrest =>
    refine .next hspan (by omega) (fun start stop v hspan' hplace' => ?_) hrest
    have := hne start stop v hspan'
    exact hleast start stop v hspan' (by omega)

/-! ## The values of a text -/

theorem valuesFrom_of_begins {atStart : Bool} {s rest : Text} {v : Value}
    (h : Begins atStart s v rest) : valuesFrom atStart s = v :: valuesFrom false rest := by
  rw [valuesFrom]
  split
  · rename_i v' rest' h'
    obtain ⟨rfl, rfl⟩ := h.unique (attribute?_eq_some_iff.mp h')
    rfl
  · rename_i hnone
    rw [attribute?_eq_some_iff.mpr h] at hnone
    cases hnone

theorem valuesFrom_nil (atStart : Bool) : valuesFrom atStart [] = [] := by
  have hnone : attribute? atStart [] = none := by cases atStart <;> rfl
  rw [valuesFrom]
  split
  · rename_i h
    rw [hnone] at h
    cases h
  · rfl

@[simp]
theorem values_nil : values [] = [] := valuesFrom_nil true

theorem valuesFrom_cons {atStart : Bool} {c : Char} {s : Text}
    (h : ∀ v rest, ¬Begins atStart (c :: s) v rest) :
    valuesFrom atStart (c :: s) = valuesFrom false s := by
  rw [valuesFrom]
  split
  · rename_i v rest h'
    exact absurd (attribute?_eq_some_iff.mp h') (h v rest)
  · rfl

/-- At the start of a text it matters only whether an attribute can be read there. -/
theorem valuesFrom_eq_of_attribute?_eq {atStart atStart' : Bool} {s : Text}
    (h : attribute? atStart s = attribute? atStart' s) :
    valuesFrom atStart s = valuesFrom atStart' s := by
  have hbegins : ∀ v rest, Begins atStart s v rest ↔ Begins atStart' s v rest := by
    intro v rest
    rw [← attribute?_eq_some_iff, h, attribute?_eq_some_iff]
  by_cases hsome : ∃ v rest, Begins atStart s v rest
  · obtain ⟨v, rest, hv⟩ := hsome
    rw [valuesFrom_of_begins hv, valuesFrom_of_begins ((hbegins v rest).mp hv)]
  · have hnone : ∀ v rest, ¬Begins atStart s v rest := by
      intro v rest hv
      exact hsome ⟨v, rest, hv⟩
    cases s with
    | nil => rw [valuesFrom_nil, valuesFrom_nil]
    | cons c s =>
      rw [valuesFrom_cons hnone, valuesFrom_cons]
      intro v rest hv
      exact hnone v rest ((hbegins v rest).mpr hv)

theorem attribute?_eq_of_assignment?_eq_none {s : Text} (h : assignment? s = none) :
    attribute? true s = attribute? false s := by
  simp only [attribute?, h, ite_self]

/-- Behind a boundary character a text is read as from its start. -/
theorem valuesFrom_boundary {c : Char} (hc : isBoundary c = true) (atStart : Bool) (s : Text) :
    valuesFrom atStart (c :: s) = values s := by
  have hread : attribute? atStart (c :: s) = assignment? s := by
    simp only [attribute?, assignment?_eq_none_of_isBoundary hc, ite_self, Option.none_or,
      if_pos hc]
  cases h : assignment? s with
  | some p =>
    obtain ⟨v, rest⟩ := p
    have hcons : Begins atStart (c :: s) v rest := attribute?_eq_some_iff.mp (by rw [hread, h])
    have hs : Begins true s v rest := attribute?_eq_some_iff.mp (by
      unfold attribute?
      rw [if_pos rfl, h, Option.some_or])
    rw [values, valuesFrom_of_begins hcons, valuesFrom_of_begins hs]
  | none =>
    have hnone : ∀ v rest, ¬Begins atStart (c :: s) v rest := by
      intro v rest hbegins
      rw [← attribute?_eq_some_iff, hread, h] at hbegins
      cases hbegins
    rw [valuesFrom_cons hnone, values]
    exact (valuesFrom_eq_of_attribute?_eq (attribute?_eq_of_assignment?_eq_none h)).symm

/-- From every place on, the values that are read are those of the greedy sequence. The induction
is on what is left of the text: a span that begins here is the first one, and else the next place
has the same sequence. -/
theorem greedy_valuesFrom (text : Text) {place : Nat} (hplace : place ≤ text.length) :
    Greedy text place (valuesFrom (place == 0) (text.drop place)) := by
  by_cases hbegins : ∃ v rest, Begins (place == 0) (text.drop place) v rest
  · obtain ⟨v, rest, h⟩ := hbegins
    obtain ⟨stop, hlt, rfl, hspan⟩ := exists_isSpan_of_begins hplace h
    rw [valuesFrom_of_begins h]
    have hlength := hspan.lt_length
    have hrest := greedy_valuesFrom text hspan.1
    have hfalse : (stop == 0) = false := by
      rw [beq_eq_false_iff_ne]
      omega
    rw [hfalse] at hrest
    exact .next hspan (Nat.le_refl _) (fun _ _ _ _ hle => hle) hrest
  · have hnone : ∀ v rest, ¬Begins (place == 0) (text.drop place) v rest := by
      intro v rest h
      exact hbegins ⟨v, rest, h⟩
    by_cases hend : place = text.length
    · rw [hend, List.drop_length, valuesFrom_nil]
      exact .done fun _ _ _ hspan => hspan.lt_length
    · have hlt : place < text.length := by omega
      have hrest := greedy_valuesFrom text (show place + 1 ≤ text.length from hlt)
      rw [List.drop_eq_getElem_cons hlt] at hnone ⊢
      rw [valuesFrom_cons hnone]
      refine .of_succ (fun stop v hspan => ?_) hrest
      have h := (isSpan_iff.mp hspan).2.2
      rw [List.drop_eq_getElem_cons hlt] at h
      exact hnone _ _ h
termination_by text.length - place

/-- The values of a text are those of the greedy sequence of spans from its start. -/
theorem values_eq_iff_greedy {text : Text} {vs : List Value} :
    values text = vs ↔ Greedy text 0 vs := by
  have h : Greedy text 0 (values text) := greedy_valuesFrom text (Nat.zero_le _)
  constructor
  · rintro rfl
    exact h
  · exact h.unique

end ClassSheet.Markup

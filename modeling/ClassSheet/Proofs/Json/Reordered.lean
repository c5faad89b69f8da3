import ClassSheet.Proofs.Json.Record

/-!
# Objects in another order

* `Json.Tree.Reordered`: the members of objects stand in another order, at whatever depth.
* `Json.readText_agree`, `Json.readOptionalNumber_agree`: what is no list and no object is the same.
* `Json.readListItems_agree`, `Json.readList_agree`: a list is read item by item.
* `Json.readChoice_object_eq_ok_iff`, `Json.readChoice_agree`: a choice is an object with one member.
-/

namespace ClassSheet.Json

variable {α β : Type}

mutual

/-- Two trees that differ in the order of the members of objects only. -/
inductive Tree.Reordered : Tree → Tree → Prop where
  | refl (tree : Tree) : Reordered tree tree
  | list {items items' : List Tree} (h : List.Forall₂ Reordered items items') :
    Reordered (.list (.ofList items)) (.list (.ofList items'))
  | object {members between members' : List (Option Text × Tree)} (h : ReorderedValues members between)
    (hperm : between.Perm members') :
    Reordered (.object (.ofList members)) (.object (.ofList members'))

/-- Members of the same names, one after the other, whose values differ in this way only. -/
inductive Tree.ReorderedValues :
    List (Option Text × Tree) → List (Option Text × Tree) → Prop where
  | nil : ReorderedValues [] []
  | cons {name? : Option Text} {value value' : Tree} {members members' : List (Option Text × Tree)}
    (hvalue : Reordered value value') (h : ReorderedValues members members') :
    ReorderedValues ((name?, value) :: members) ((name?, value') :: members')

end

open Json.Tree (Reordered ReorderedValues)

variable {tree tree' : Tree}

theorem Agree.map {x y : Reading α} (f : α → β) (h : Agree x y) : Agree (x.map f) (y.map f) := by
  intro b
  simp only [map_eq_ok_iff]
  exact exists_congr fun a => and_congr_left fun _ => h a

/-! ## Texts and numbers -/

theorem readText_agree (wanted : Wanted) (h : Reordered tree tree') :
    Agree (readText wanted tree) (readText wanted tree') := by
  cases h with
  | refl => exact .refl _
  | list _ => exact .of_error (fun _ h => by cases h) fun _ h => by cases h
  | object _ _ => exact .of_error (fun _ h => by cases h) fun _ h => by cases h

theorem readOptionalNumber_agree (h : Reordered tree tree') :
    Agree (readOptionalNumber tree) (readOptionalNumber tree') := by
  cases h with
  | refl => exact .refl _
  | list _ => exact .of_error (fun _ h => by cases h) fun _ h => by cases h
  | object _ _ => exact .of_error (fun _ h => by cases h) fun _ h => by cases h

/-! ## Lists -/

/-- Lists whose items agree one by one agree. -/
theorem readListItems_agree {read : Tree → Reading α} {items items' : List Tree}
    (h : List.Forall₂ (fun item item' => Agree (read item) (read item')) items items') :
    Agree (readListItems read (.ofList items)) (readListItems read (.ofList items')) := by
  induction h with
  | nil => exact .refl _
  | @cons item item' items items' hitem _ ih =>
    intro as
    simp only [Items.ofList, readListItems, bind_eq_ok_iff]
    exact exists_congr fun a => and_congr (hitem a) (exists_congr fun as' => and_congr_left fun _ =>
      ih as')

/-- A list is read only if all its items are. -/
theorem exists_read_of_readListItems {read : Tree → Reading α} {items : List Tree} {as : List α}
    (h : readListItems read (.ofList items) = .ok as) : ∀ item ∈ items, ∃ a, read item = .ok a := by
  induction items generalizing as with
  | nil => exact List.forall_mem_nil _
  | cons item items ih =>
    obtain ⟨a, ha, h⟩ := bind_eq_ok_iff.mp h
    obtain ⟨rest, hrest, -⟩ := bind_eq_ok_iff.mp h
    exact List.forall_mem_cons.mpr ⟨⟨a, ha⟩, ih hrest⟩

theorem readList_agree {read : Tree → Reading α}
    (hread : ∀ {tree tree'}, Reordered tree tree' → Agree (read tree) (read tree'))
    (h : Reordered tree tree') : Agree (readList read tree) (readList read tree') := by
  cases h with
  | refl => exact .refl _
  | list h => exact readListItems_agree (h.imp fun _ _ => hread)
  | object _ _ => exact .of_error (fun _ h => by cases h) fun _ h => by cases h

/-! ## Choices -/

/-- An object is a choice if it has one member, with the name of the choice and nothing for a value. -/
theorem readChoice_object_eq_ok_iff {choices : List (Text × α)}
    {members : List (Option Text × Tree)} {a : α} :
    readChoice choices (.object (.ofList members)) = .ok a ↔
      ∃ word, members = [(some word, .null)] ∧ choices.lookup word = some a := by
  have hchosen (word : Text) : chosen choices word = .ok a ↔ choices.lookup word = some a := by
    rw [chosen]
    cases choices.lookup word <;> simp [mismatch]
  have hnull (value : Tree) : readNull value = .ok () ↔ value = .null := by
    cases value <;> simp [readNull]
  have honly (members : List (Option Text × Tree)) :
      readOnlyMember (.ofList members) = .ok () ↔ members = [] := by
    cases members <;> simp [Members.ofList, readOnlyMember, problem]
  cases members with
  | nil => simp [Members.ofList, readChoice, problem]
  | cons member members =>
    obtain ⟨_ | word, value⟩ := member
    · simp [Members.ofList, readChoice, problem]
    simp only [Members.ofList, readChoice, bind_eq_ok_iff]
    constructor
    · rintro ⟨b, hb, ⟨⟩, hvalue, ⟨⟩, hmembers, h⟩
      cases h
      rw [(hnull value).mp hvalue, (honly members).mp hmembers]
      exact ⟨word, rfl, (hchosen word).mp hb⟩
    · rintro ⟨word', h, hlookup⟩
      cases h
      exact ⟨a, (hchosen word).mpr hlookup, (), rfl, (), rfl, rfl⟩

/-- An object with one member that has no value is not changed by another order. -/
theorem eq_singleton_null_iff {members between members' : List (Option Text × Tree)}
    {name? : Option Text}
    (h : ReorderedValues members between) (hperm : between.Perm members') :
    members = [(name?, .null)] ↔ members' = [(name?, .null)] := by
  have hbetween : members = [(name?, .null)] ↔ between = [(name?, .null)] := by
    constructor
    · rintro rfl
      cases h with | cons hvalue hrest =>
      cases hvalue
      cases hrest
      rfl
    · rintro rfl
      cases h with | cons hvalue hrest =>
      cases hvalue
      cases hrest
      rfl
  rw [hbetween]
  constructor
  · rintro rfl
    exact (List.singleton_perm.mp hperm).symm
  · rintro rfl
    exact List.perm_singleton.mp hperm

theorem readChoice_agree (choices : List (Text × α)) (h : Reordered tree tree') :
    Agree (readChoice choices tree) (readChoice choices tree') := by
  cases h with
  | refl => exact .refl _
  | list _ => exact .of_error (fun _ h => by cases h) fun _ h => by cases h
  | object h hperm =>
    intro a
    simp only [readChoice_object_eq_ok_iff, eq_singleton_null_iff h hperm]

end ClassSheet.Json

import ClassSheet.Json.Record
import ClassSheet.Proofs.Json.Spelling
import ClassSheet.Proofs.Outcome
import Mathlib.Data.List.Find
import Mathlib.Data.List.Forall2
import Mathlib.Data.List.Pairwise

/-!
# Records that are given in different ways

What is read from an object depends on nothing but the values that it gives for the fields of the
record, as long as all names in it are texts. The order of its members, the names that stand for one
field and the members that stand for none do not matter, and a field may be left out where its value
is the default.

* `Json.Agree`: two readings have the same value, or neither has one.
* `Json.Named`, `Json.HalfNamed`: the names of the members of an object are texts, or one is not.
* `Json.given`: the values that an object gives for a field.
* `Json.Matched`, `Json.Variation.Alike`: two objects give the same for each field.
* `Json.Slot`, `Json.Record.Slotted`: the parts of a draft, one for each field.
* `Json.Record.named_of_readMembers`: the names are texts when all is read.
* `Json.Record.Slotted.taken_of_readMembers`: what the parts of a draft hold when all is read.
* `Json.Record.Slotted.exists_readMembers`: when all can be read.
* `Json.Record.Slotted.read_agree`: the records of two alike objects agree.
-/

namespace ClassSheet.Json

variable {α β σ ρ : Type}

/-! ## Readings -/

/-- The readings have the same value, or both have a fault, which may be another one. -/
def Agree (x y : Reading α) : Prop := ∀ a, x = .ok a ↔ y = .ok a

namespace Agree

theorem refl (x : Reading α) : Agree x x := fun _ => Iff.rfl

theorem symm {x y : Reading α} (h : Agree x y) : Agree y x := fun a => (h a).symm

theorem of_error {x y : Reading α} (hx : ∀ a, x ≠ .ok a) (hy : ∀ a, y ≠ .ok a) : Agree x y :=
  fun a => iff_of_false (hx a) (hy a)

end Agree

/-! ## What an object gives -/

/-- The names of the members are texts: no half of a surrogate pair stands alone in one. -/
def Named (members : List (Option Text × Tree)) : Prop := ∀ member ∈ members, member.1 ≠ none

instance (members : List (Option Text × Tree)) : Decidable (Named members) :=
  inferInstanceAs (Decidable (∀ member ∈ members, member.1 ≠ none))

/-- The tree is an object with a member whose name is no text. -/
def HalfNamed (tree : Tree) : Prop := ∃ members, tree = .object (.ofList members) ∧ ¬Named members

/-- The values that an object gives for a field with these names. -/
def given (names : List Text) (members : List (Option Text × Tree)) : List Tree :=
  (members.filter fun member => member.1.any (· ∈ names)).map (·.2)

/-- Two objects give values for a field that are the same in some sense, or none. Where one of them
gives none, the other one gives the default. Neither of them gives more than one. -/
inductive Matched (same : Tree → Tree → Prop) (atDefault : Tree → Prop) :
    List Tree → List Tree → Prop where
  | neither : Matched same atDefault [] []
  | both {value value' : Tree} (h : same value value') : Matched same atDefault [value] [value']
  | left {value : Tree} (h : atDefault value) : Matched same atDefault [value] []
  | right {value : Tree} (h : atDefault value) : Matched same atDefault [] [value]

/-- How the values of the fields of a record may vary, each under the name of the field. -/
structure Variation where
  /-- The fields, each with its other names. -/
  fields : List (Text × List Text)
  /-- Both values count as one. -/
  same : Text → Tree → Tree → Prop
  /-- The value is that of a field that is left out. -/
  atDefault : Text → Tree → Prop

/-- The trees are objects that give the same for each field. Either the names in both of them are texts
or there is one in each of them that is not. -/
inductive Variation.Alike (v : Variation) : Tree → Tree → Prop where
  | intro {members members' : List (Option Text × Tree)} (hnamed : Named members ↔ Named members')
    (h : ∀ field ∈ v.fields, Matched (v.same field.1) (v.atDefault field.1)
      (given (field.1 :: field.2) members) (given (field.1 :: field.2) members')) :
    Alike v (.object (.ofList members)) (.object (.ofList members'))

theorem Variation.Alike.of_named {v : Variation} {members members' : List (Option Text × Tree)}
    (hnamed : Named members) (hnamed' : Named members')
    (h : ∀ field ∈ v.fields, Matched (v.same field.1) (v.atDefault field.1)
      (given (field.1 :: field.2) members) (given (field.1 :: field.2) members')) :
    v.Alike (.object (.ofList members)) (.object (.ofList members')) :=
  .intro (iff_of_true hnamed hnamed') h

/-! ## The parts of a draft -/

/-- A part of a draft, which holds the value of one field. -/
structure Slot (σ : Type) where
  /-- The name of the field. -/
  name : Text
  aliases : List Text := []
  Value : Type
  read : Tree → Reading Value
  get : σ → Option Value
  put : σ → Value → σ
  /-- The value of a field that is left out, if it may be. -/
  default? : Option Value := none

namespace Slot

/-- All names of the field. -/
def names (s : Slot σ) : List Text := s.name :: s.aliases

/-- The field reads its value into the slot. -/
structure Holds (f : Field σ) (s : Slot σ) : Prop where
  name : f.name = s.name
  aliases : f.aliases = s.aliases
  required : f.required = s.default?.isNone
  present : ∀ d, f.present d = (s.get d).isSome
  store : ∀ d value, f.store d value = (s.read value).map (s.put d)
  get_put : ∀ d a, s.get (s.put d a) = some a

/-- The slots are those of two fields, and what is put into the one does not change the other. -/
structure Apart (s s' : Slot σ) : Prop where
  names : ∀ name ∈ s.names, name ∉ s'.names
  get_put : ∀ d a, s'.get (s.put d a) = s'.get d
  get_put' : ∀ d a, s.get (s'.put d a) = s.get d

instance : Std.Symm (@Apart σ) where
  symm _ _ h := ⟨fun name hname' hname => h.names name hname hname', h.get_put', h.get_put⟩

/-- What the slot holds when the given values have been read into a draft. -/
inductive Taken (s : Slot σ) (d d' : σ) : List Tree → Prop where
  | nothing (h : s.get d' = s.get d) : Taken s d d' []
  | value {value : Tree} {a : s.Value} (hnone : s.get d = none) (hread : s.read value = .ok a)
    (h : s.get d' = some a) : Taken s d d' [value]

/-- What the slot counts as. -/
def content (s : Slot σ) (d : σ) : Option s.Value := (s.get d).or s.default?

theorem get_eq_of_content {s : Slot σ} {d d' : σ} (hdefault : s.default? = none)
    (h : s.content d = s.content d') : s.get d = s.get d' := by
  rwa [content, content, hdefault, Option.or_none, Option.or_none] at h

theorem getD_eq_of_content {s : Slot σ} {d d' : σ} {a : s.Value} (hdefault : s.default? = some a)
    (h : s.content d = s.content d') : (s.get d).getD a = (s.get d').getD a := by
  rwa [content, content, hdefault, Option.or_some, Option.or_some, Option.some.injEq] at h

end Slot

/-- The slots are those of the fields of a record, and what becomes of a draft depends on what they
count as. -/
structure Record.Slotted (r : Record σ ρ) (slots : List (Slot σ)) : Prop where
  holds : List.Forall₂ Slot.Holds r.fields slots
  apart : slots.Pairwise Slot.Apart
  empty : ∀ s ∈ slots, s.get r.empty = none
  finish : ∀ d d', (∀ s ∈ slots, s.content d = s.content d') → r.finish? d = r.finish? d'

namespace Matched

variable {same same' : Tree → Tree → Prop} {atDefault atDefault' : Tree → Prop}
  {values values' : List Tree}

theorem imp (h : Matched same atDefault values values')
    (hsame : ∀ value ∈ values, ∀ value' ∈ values', same value value' → same' value value')
    (hdefault : ∀ value ∈ values ++ values', atDefault value → atDefault' value) :
    Matched same' atDefault' values values' := by
  cases h with
  | neither => exact .neither
  | both h => exact .both (hsame _ List.mem_cons_self _ List.mem_cons_self h)
  | left h => exact .left (hdefault _ List.mem_cons_self h)
  | right h => exact .right (hdefault _ List.mem_cons_self h)

theorem symm (h : Matched same atDefault values values') :
    Matched (fun value value' => same value' value) atDefault values' values := by
  cases h with
  | neither => exact .neither
  | both h => exact .both h
  | left h => exact .right h
  | right h => exact .left h

end Matched

/-! ## Reading members one by one -/

section Given

variable {names : List Text} {name : Text} {value : Tree} {members : List (Option Text × Tree)}

theorem given_cons_of_mem (h : name ∈ names) :
    given names ((some name, value) :: members) = value :: given names members := by
  simp [given, h]

theorem given_cons_of_notMem (h : name ∉ names) :
    given names ((some name, value) :: members) = given names members := by
  simp [given, h]

theorem named_cons_iff {member : Option Text × Tree} :
    Named (member :: members) ↔ member.1 ≠ none ∧ Named members :=
  List.forall_mem_cons

theorem skip_of_mem_given (h : ∀ member ∈ members, skip member.2 = .ok ())
    (hvalue : value ∈ given names members) : skip value = .ok () := by
  obtain ⟨member, hmember, rfl⟩ := List.mem_map.mp hvalue
  exact h member (List.mem_of_mem_filter hmember)

theorem forall_skip_of_list {items : List Tree} (h : skip (.list (.ofList items)) = .ok ()) :
    ∀ item ∈ items, skip item = .ok () := by
  rw [skip] at h
  induction items with
  | nil => simp
  | cons item items ih =>
    rw [Items.ofList, skipItems] at h
    cases hitem : skip item with
    | error f =>
      rw [hitem] at h
      cases h
    | ok u =>
      rw [hitem] at h
      exact List.forall_mem_cons.mpr ⟨hitem, ih h⟩

/-- If nothing is broken in an object, nothing is in the values of its members. -/
theorem forall_skip_of_object (h : skip (.object (.ofList members)) = .ok ()) :
    ∀ member ∈ members, skip member.2 = .ok () := by
  rw [skip] at h
  induction members with
  | nil => simp
  | cons member members ih =>
    rw [Members.ofList, skipMembers] at h
    cases hvalue : skip member.2 with
    | error f =>
      rw [hvalue] at h
      cases h
    | ok u =>
      rw [hvalue] at h
      exact List.forall_mem_cons.mpr ⟨hvalue, ih h⟩

end Given

/-- What is related to an item of a list that is related to another one item by item. -/
theorem exists_mem_of_forall₂ {γ δ : Type*} {R : γ → δ → Prop} {l : List γ} {l' : List δ}
    (h : List.Forall₂ R l l') {a : γ} (ha : a ∈ l) : ∃ b ∈ l', R a b := by
  induction h with
  | nil => cases ha
  | cons hab _ ih =>
    rcases List.mem_cons.mp ha with rfl | ha
    · exact ⟨_, List.mem_cons_self, hab⟩
    · obtain ⟨b, hb, hR⟩ := ih ha
      exact ⟨b, List.mem_cons_of_mem _ hb, hR⟩

theorem Slot.Holds.isName_iff {f : Field σ} {s : Slot σ} (h : Slot.Holds f s) {name : Text} :
    (f.name = name || name ∈ f.aliases) = true ↔ name ∈ s.names := by
  rw [Slot.names, h.name, h.aliases, List.mem_cons, Bool.or_eq_true, decide_eq_true_eq,
    decide_eq_true_eq, eq_comm]

theorem Slot.Taken.of_get_eq {s : Slot σ} {d d₁ d' : σ} {values : List Tree}
    (h : s.Taken d₁ d' values) (hget : s.get d₁ = s.get d) : s.Taken d d' values := by
  cases h with
  | nothing h => exact .nothing (h.trans hget)
  | value hnone hread h => exact .value (hget.symm.trans hnone) hread h

/-- The slot is given the same, or its default is left out once. -/
def Slot.Alike (s : Slot σ) : List Tree → List Tree → Prop :=
  Matched (fun value value' => Agree (s.read value) (s.read value'))
    fun value => ∃ a, s.default? = some a ∧ s.read value = .ok a

/-- What is given alike can be taken alike. -/
theorem Slot.Holds.exists_taken {f : Field σ} {s : Slot σ} {d d₁ : σ} {values values' : List Tree}
    (h : Slot.Holds f s) (hempty : s.get d = none) (hmatch : s.Alike values values')
    (htaken : s.Taken d d₁ values) : ∃ d₂, s.Taken d d₂ values' := by
  cases hmatch with
  | neither => exact ⟨d, .nothing rfl⟩
  | both hagree =>
    cases htaken with | value _ hvalue _ =>
    exact ⟨_, .value hempty ((hagree _).mp hvalue) (h.get_put d _)⟩
  | left _ => exact ⟨d, .nothing rfl⟩
  | right hdefault =>
    obtain ⟨a, -, hvalue⟩ := hdefault
    exact ⟨_, .value hempty hvalue (h.get_put d _)⟩

/-- A default counts as the same whether it is given or left out. -/
theorem Slot.content_eq_of_default {s : Slot σ} {d d₁ d₂ : σ} {value : Tree}
    (hempty : s.get d = none) (hdefault : ∃ a, s.default? = some a ∧ s.read value = .ok a)
    (hgiven : s.Taken d d₁ [value]) (hleft : s.Taken d d₂ []) : s.content d₁ = s.content d₂ := by
  obtain ⟨a, hdefault, ha⟩ := hdefault
  cases hgiven with | value _ hvalue hget =>
  cases hleft with | nothing hget' =>
  rw [ha, Except.ok.injEq] at hvalue
  rw [content, content, hget, hget', hempty, hdefault, hvalue]
  rfl

/-- What was given alike counts as the same. -/
theorem Slot.Taken.content_eq {s : Slot σ} {d d₁ d₂ : σ} {values values' : List Tree}
    (h : s.Taken d d₁ values) (hempty : s.get d = none) (hmatch : s.Alike values values')
    (h' : s.Taken d d₂ values') : s.content d₁ = s.content d₂ := by
  cases hmatch with
  | neither =>
    cases h with | nothing hget =>
    cases h' with | nothing hget' =>
    rw [content, content, hget, hget']
  | both hagree =>
    cases h with | value _ hvalue hget =>
    cases h' with | value _ hvalue' hget' =>
    rw [(hagree _).mp hvalue, Except.ok.injEq] at hvalue'
    rw [content, content, hget, hget', hvalue']
  | left hdefault => exact content_eq_of_default hempty hdefault h h'
  | right hdefault => exact (content_eq_of_default hempty hdefault h' h).symm

namespace Record

variable {r : Record σ ρ} {d d' : σ} {members : List (Option Text × Tree)}

/-- No member is read whose name is no text. -/
theorem named_of_readMembers (hread : r.readMembers d (.ofList members) = .ok d') :
    Named members := by
  induction members generalizing d with
  | nil => exact List.forall_mem_nil _
  | cons member members ih =>
    obtain ⟨name?, value⟩ := member
    rw [Members.ofList] at hread
    cases name? with
    | none => cases hread
    | some name =>
      refine named_cons_iff.mpr ⟨nofun, ?_⟩
      rw [readMembers] at hread
      split at hread
      · obtain ⟨-, -, hread⟩ := bind_eq_ok_iff.mp hread
        exact ih hread
      · split at hread
        · cases hread
        · obtain ⟨d₁, -, hread⟩ := bind_eq_ok_iff.mp hread
          exact ih hread

theorem read_ne_ok_of_halfNamed (r : Record σ ρ) {tree : Tree} (h : HalfNamed tree) (a : ρ) :
    r.read tree ≠ .ok a := by
  obtain ⟨members, rfl, hnamed⟩ := h
  intro hread
  obtain ⟨d, hd, -⟩ := bind_eq_ok_iff.mp hread
  exact hnamed (named_of_readMembers hd)

end Record

namespace Record.Slotted

variable {r : Record σ ρ} {slots : List (Slot σ)} {d d' : σ} {s s' : Slot σ} {f : Field σ}
  {name : Text} {members members' : List (Option Text × Tree)}

/-- A member that stands for a field goes into a slot with its name. -/
theorem exists_slot (h : r.Slotted slots) (hf : r.field? name = some f) :
    ∃ s ∈ slots, Slot.Holds f s ∧ name ∈ s.names := by
  rw [field?] at hf
  obtain ⟨s, hs, hholds⟩ := exists_mem_of_forall₂ h.holds (List.mem_of_find?_eq_some hf)
  have hname := List.find?_some hf
  exact ⟨s, hs, hholds, hholds.isName_iff.mp hname⟩

theorem exists_field (h : r.Slotted slots) (hs : s ∈ slots) : ∃ f ∈ r.fields, Slot.Holds f s :=
  exists_mem_of_forall₂ h.holds.flip hs

/-- A member that stands for no field has the name of no slot. -/
theorem notMem_names (h : r.Slotted slots) (hf : r.field? name = none) (hs : s ∈ slots) :
    name ∉ s.names := by
  obtain ⟨f, hfield, hholds⟩ := h.exists_field hs
  intro hname
  exact List.find?_eq_none.mp hf f hfield (hholds.isName_iff.mpr hname)

theorem eq_or_apart (h : r.Slotted slots) (hs : s ∈ slots) (hs' : s' ∈ slots) :
    s = s' ∨ Slot.Apart s s' := by
  by_cases heq : s = s'
  · exact .inl heq
  · exact .inr (h.apart.forall hs hs' heq)

/-- A record is complete or not by what the slots of its draft count as. -/
theorem complete_eq (h : r.Slotted slots) (hcontent : ∀ s ∈ slots, s.content d = s.content d') :
    r.complete d = r.complete d' := by
  have hmissing : r.firstMissing? d = r.firstMissing? d' := by
    refine List.find?_congr fun f hf => ?_
    obtain ⟨s, hs, hholds⟩ := exists_mem_of_forall₂ h.holds hf
    rw [hholds.required, hholds.present, hholds.present]
    cases hdefault : s.default? with
    | none => rw [Slot.get_eq_of_content hdefault (hcontent s hs)]
    | some a => rfl
  rw [complete, complete, hmissing, h.finish d d' hcontent]

/-- When all members have been read, each slot holds the value that was given for its field, and
there was at most one. The induction is on the members; what was stored for the first one stays. -/
theorem taken_of_readMembers (h : r.Slotted slots)
    (hread : r.readMembers d (.ofList members) = .ok d') (hs : s ∈ slots) :
    s.Taken d d' (given s.names members) := by
  induction members generalizing d with
  | nil =>
    cases hread
    exact .nothing rfl
  | cons member members ih =>
    obtain ⟨name?, value⟩ := member
    obtain ⟨name, rfl⟩ := Option.ne_none_iff_exists'.mp
      (named_cons_iff.mp (named_of_readMembers hread)).1
    rw [Members.ofList, readMembers] at hread
    cases hf : r.field? name with
    | none =>
      rw [hf] at hread
      obtain ⟨-, -, hread⟩ := bind_eq_ok_iff.mp hread
      rw [given_cons_of_notMem (h.notMem_names hf hs)]
      exact ih hread
    | some f =>
      rw [hf] at hread
      obtain ⟨s₁, hs₁, hholds, hname⟩ := h.exists_slot hf
      dsimp only at hread
      split at hread
      · cases hread
      · rename_i hpresent
        obtain ⟨d₁, hstore, hread⟩ := bind_eq_ok_iff.mp hread
        rw [hholds.store, map_eq_ok_iff] at hstore
        obtain ⟨a, hvalue, rfl⟩ := hstore
        have htaken := ih hread
        rcases h.eq_or_apart hs₁ hs with rfl | hapart
        · have hnone : s₁.get d = none := by
            rwa [hholds.present, Bool.not_eq_true, Option.isSome_eq_false_iff,
              Option.isNone_iff_eq_none] at hpresent
          rw [given_cons_of_mem hname]
          generalize given s₁.names members = values at htaken
          cases htaken with
          | nothing hget => exact .value hnone hvalue (hget.trans (hholds.get_put d a))
          | value hnone' =>
            rw [hholds.get_put] at hnone'
            cases hnone'
        · rw [given_cons_of_notMem (hapart.names name hname)]
          exact htaken.of_get_eq (hapart.get_put d a)

/-- A record is read only if what is given for its fields is. -/
theorem exists_read_of_mem_given (h : r.Slotted slots) {a : ρ}
    (hread : r.read (.object (.ofList members)) = .ok a) (hs : s ∈ slots) {value : Tree}
    (hvalue : value ∈ given s.names members) : ∃ b, s.read value = .ok b := by
  obtain ⟨d, hd, -⟩ := bind_eq_ok_iff.mp hread
  have htaken := h.taken_of_readMembers hd hs
  generalize given s.names members = values at htaken hvalue
  cases htaken with
  | nothing _ => cases hvalue
  | value _ hread _ =>
    obtain rfl := List.mem_singleton.mp hvalue
    exact ⟨_, hread⟩

/-- All members are read if their names are texts, each slot can take what is given for its field, and
nothing is broken in the other members. -/
theorem exists_readMembers (h : r.Slotted slots) (hnamed : Named members)
    (hskip : ∀ member ∈ members, skip member.2 = .ok ())
    (htaken : ∀ s ∈ slots, ∃ d', s.Taken d d' (given s.names members)) :
    ∃ d', r.readMembers d (.ofList members) = .ok d' := by
  induction members generalizing d with
  | nil => exact ⟨d, rfl⟩
  | cons member members ih =>
    obtain ⟨name?, value⟩ := member
    obtain ⟨hname, hothers⟩ := named_cons_iff.mp hnamed
    obtain ⟨name, rfl⟩ := Option.ne_none_iff_exists'.mp hname
    obtain ⟨hvalue, hskip⟩ := List.forall_mem_cons.mp hskip
    rw [Members.ofList, readMembers]
    cases hf : r.field? name with
    | none =>
      have hrest : ∀ s ∈ slots, ∃ d', s.Taken d d' (given s.names members) := by
        intro s hs
        obtain ⟨d', hd'⟩ := htaken s hs
        rw [given_cons_of_notMem (h.notMem_names hf hs)] at hd'
        exact ⟨d', hd'⟩
      dsimp only at hvalue ⊢
      rw [hvalue]
      exact ih hothers hskip hrest
    | some f =>
      obtain ⟨s₁, hs₁, hholds, hname⟩ := h.exists_slot hf
      obtain ⟨e, he⟩ := htaken s₁ hs₁
      rw [given_cons_of_mem hname] at he
      generalize hgiven : given s₁.names members = values at he
      cases he with | value hnone hread hget =>
      rename_i a
      have hpresent : ¬f.present d = true := by
        rw [hholds.present, hnone]
        exact Bool.false_ne_true
      have hrest : ∀ s ∈ slots, ∃ d', s.Taken (s₁.put d a) d' (given s.names members) := by
        intro s hs
        rcases h.eq_or_apart hs₁ hs with rfl | hapart
        · rw [hgiven]
          exact ⟨_, .nothing rfl⟩
        · obtain ⟨d', hd'⟩ := htaken s hs
          rw [given_cons_of_notMem (hapart.names name hname)] at hd'
          exact ⟨d', hd'.of_get_eq (hapart.get_put d a).symm⟩
      dsimp only
      rw [if_neg hpresent, hholds.store, hread]
      exact ih hothers hskip hrest

/-- If what two objects give is matched, the second one is read as the same record as the first. -/
theorem read_of_matched (h : r.Slotted slots)
    (hmatched : ∀ s ∈ slots, s.Alike (given s.names members) (given s.names members'))
    (hnamed : Named members → Named members') (hskip : ∀ member ∈ members', skip member.2 = .ok ())
    {a : ρ}
    (hread : r.read (.object (.ofList members)) = .ok a) :
    r.read (.object (.ofList members')) = .ok a := by
  obtain ⟨d, hd, hcomplete⟩ := bind_eq_ok_iff.mp hread
  have hfirst (s : Slot σ) (hs : s ∈ slots) : s.Taken r.empty d (given s.names members) :=
    h.taken_of_readMembers hd hs
  have htaken : ∀ s ∈ slots, ∃ d', s.Taken r.empty d' (given s.names members') := by
    intro s hs
    obtain ⟨f, -, hholds⟩ := h.exists_field hs
    exact hholds.exists_taken (h.empty s hs) (hmatched s hs) (hfirst s hs)
  obtain ⟨d', hd'⟩ := h.exists_readMembers (hnamed (named_of_readMembers hd)) hskip htaken
  have hcontent : ∀ s ∈ slots, s.content d = s.content d' := fun s hs =>
    (hfirst s hs).content_eq (h.empty s hs) (hmatched s hs) (h.taken_of_readMembers hd' hs)
  rw [Record.read, hd']
  rw [h.complete_eq hcontent] at hcomplete
  exact hcomplete

/-- Two objects that give the same for each field, and in which nothing is broken, are read as the same
record, or neither of them is read. -/
theorem read_agree (h : r.Slotted slots) {v : Variation}
    (hnames : v.fields = slots.map fun s => (s.name, s.aliases))
    (hsame : ∀ s ∈ slots, ∀ value value', skip value = .ok () → skip value' = .ok () →
      v.same s.name value value' → Agree (s.read value) (s.read value'))
    (hdefault : ∀ s ∈ slots, ∀ value, skip value = .ok () → v.atDefault s.name value →
      ∃ a, s.default? = some a ∧ s.read value = .ok a)
    {tree tree' : Tree} (hskip : skip tree = .ok ()) (hskip' : skip tree' = .ok ())
    (halike : v.Alike tree tree') : Agree (r.read tree) (r.read tree') := by
  cases halike with | @intro members members' hnamed hfields =>
  replace hskip := forall_skip_of_object hskip
  replace hskip' := forall_skip_of_object hskip'
  have hmatched : ∀ s ∈ slots, s.Alike (given s.names members) (given s.names members') := by
    intro s hs
    rw [hnames] at hfields
    have hfield := hfields (s.name, s.aliases) (List.mem_map_of_mem hs)
    refine hfield.imp (fun value hvalue value' hvalue' => ?_) (fun value hvalue => ?_)
    · exact hsame s hs value value' (skip_of_mem_given hskip hvalue)
        (skip_of_mem_given hskip' hvalue')
    · rcases List.mem_append.mp hvalue with hvalue | hvalue
      · exact hdefault s hs value (skip_of_mem_given hskip hvalue)
      · exact hdefault s hs value (skip_of_mem_given hskip' hvalue)
  intro a
  constructor
  · exact h.read_of_matched hmatched hnamed.mp hskip'
  · refine h.read_of_matched (fun s hs => ?_) hnamed.mpr hskip
    exact (hmatched s hs).symm.imp (fun _ _ _ _ hagree => hagree.symm) fun _ _ hdefault => hdefault

end Record.Slotted

end ClassSheet.Json

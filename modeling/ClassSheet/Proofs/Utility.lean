import ClassSheet.Utility
import Mathlib.Data.List.TakeWhile

/-!
# How class names are read

* `ofName?_eq_structured_iff`: the structured classes are the names that begin with their mark.
* `name_of_ofName?`: a utility class keeps the name that it was read from.
* `underscore_notMem_body`: the body of a structured class has no underscore.
* `ofName?_mark_append`: a body without an underscore, behind the mark, is read back as it is.
* `Tail`: what may stand behind the body of a structured class, with the run in it that is kept.
* `ofName?_eq_structured_iff_tail`: structured classes are spelled as a mark, a body and a tail.
* `structuredMark_prefix_iff`, `enumeratedMark_prefix_iff`: a name that begins with a mark is a class.
* `hasValidMultiplier_iff`: a multiplier has to be the text of a finite number.
* `mem_name_of_mem_body` and the lemmas after it: all parts of a class are parts of its name.
-/

namespace ClassSheet

namespace Text

theorem takeWhile_eq_of_cut? {mark : Char} {s left right : Text}
    (h : cut? mark s = some (left, right)) : s.takeWhile (· != mark) = left := by
  unfold cut? at h
  split at h
  · cases h
  · cases h
    rfl

theorem takeWhile_eq_of_notMem {mark : Char} {s : Text} (h : mark ∉ s) :
    s.takeWhile (· != mark) = s := by
  rw [List.takeWhile_eq_self_iff]
  intro c hc
  rw [bne_iff_ne]
  rintro rfl
  exact h hc

end Text

namespace StructuredClass

theorem underscore_notMem_body (name rest : Text) : '_' ∉ (ofRest name rest).body := by
  intro h
  have := List.mem_takeWhile_imp h
  simp at this

/-- Without an underscore everything behind the mark is the body. -/
theorem ofRest_eq_of_notMem {name rest : Text} (h : '_' ∉ rest) :
    ofRest name rest = ⟨name, rest, none⟩ := by
  have hmultiplier : multiplierOf? rest = none := by
    unfold multiplierOf?
    rw [Text.cut?_eq_none_iff.mpr h]
  rw [ofRest, Text.takeWhile_eq_of_notMem h, hmultiplier]

/-- What may stand behind the body of a structured class: nothing; an underscore and a run without
underscores; or that, one more underscore and anything at all. The run is kept. -/
inductive Tail : Text → Text → Prop
  | nothing : Tail [] []
  | run {m : Text} (hm : '_' ∉ m) : Tail ('_' :: m) m
  | ignored {m rest : Text} (hm : '_' ∉ m) : Tail ('_' :: (m ++ '_' :: rest)) m

theorem Tail.mem {tail m : Text} {c : Char} (h : Tail tail m) (hc : c ∈ m) : c ∈ tail := by
  cases h with
  | nothing => exact hc
  | run _ => exact List.mem_cons_of_mem _ hc
  | ignored _ => exact List.mem_cons_of_mem _ (List.mem_append_left _ hc)

/-- The name is cut at the first underscore, and what follows at the next one. -/
theorem ofRest_eq_of_cut? {name rest body right m : Text}
    (hcut : Text.cut? '_' rest = some (body, right)) (hm : right.takeWhile (· != '_') = m) :
    ofRest name rest = ⟨name, body, if m = [] then none else some m⟩ := by
  have hmultiplier : multiplierOf? rest = if m = [] then none else some m := by
    unfold multiplierOf?
    rw [hcut]
    dsimp only
    rw [hm]
    cases m <;> rfl
  rw [ofRest, Text.takeWhile_eq_of_cut? hcut, hmultiplier]

/-- What follows the mark is a body and a tail. -/
theorem exists_tail (rest : Text) :
    ∃ body tail m, rest = body ++ tail ∧ '_' ∉ body ∧ Tail tail m := by
  cases hcut : Text.cut? '_' rest with
  | none => exact ⟨rest, [], [], by simp, Text.cut?_eq_none_iff.mp hcut, .nothing⟩
  | some p =>
    obtain ⟨body, right⟩ := p
    obtain ⟨hbody, rfl⟩ := Text.cut?_eq_some_iff.mp hcut
    cases hright : Text.cut? '_' right with
    | none => exact ⟨body, _, right, rfl, hbody, .run (Text.cut?_eq_none_iff.mp hright)⟩
    | some p =>
      obtain ⟨m, ignored⟩ := p
      obtain ⟨hm, rfl⟩ := Text.cut?_eq_some_iff.mp hright
      exact ⟨body, _, m, rfl, hbody, .ignored hm⟩

/-- A body and a tail behind the mark are read back. -/
theorem ofRest_append_tail {body tail m : Text} (name : Text) (hbody : '_' ∉ body)
    (htail : Tail tail m) :
    ofRest name (body ++ tail) = ⟨name, body, if m = [] then none else some m⟩ := by
  cases htail with
  | nothing =>
    rw [List.append_nil]
    exact ofRest_eq_of_notMem hbody
  | run hm =>
    have hcut : Text.cut? '_' (body ++ '_' :: m) = some (body, m) :=
      Text.cut?_eq_some_iff.mpr ⟨hbody, rfl⟩
    exact ofRest_eq_of_cut? hcut (Text.takeWhile_eq_of_notMem hm)
  | @ignored m rest hm =>
    have hcut : Text.cut? '_' (body ++ '_' :: (m ++ '_' :: rest)) =
        some (body, m ++ '_' :: rest) := Text.cut?_eq_some_iff.mpr ⟨hbody, rfl⟩
    have hnext : Text.cut? '_' (m ++ '_' :: rest) = some (m, rest) :=
      Text.cut?_eq_some_iff.mpr ⟨hm, rfl⟩
    exact ofRest_eq_of_cut? hcut (Text.takeWhile_eq_of_cut? hnext)

/-- A multiplier has to be the text of a finite number. -/
theorem hasValidMultiplier_iff {c : StructuredClass} :
    c.hasValidMultiplier ↔ ∀ m ∈ c.multiplier?, ∃ x, Number.ofText? m = some x ∧ x.isFinite := by
  unfold hasValidMultiplier
  cases c.multiplier? with
  | none => simp
  | some m =>
    simp only [Option.mem_some_iff, forall_eq']
    cases Number.ofText? m <;> simp

/-- The run of a tail may be empty, as then there is no multiplier. -/
theorem hasValidMultiplier_run_iff {name body m : Text} :
    hasValidMultiplier ⟨name, body, if m = [] then none else some m⟩ ↔
      m = [] ∨ ∃ x, Number.ofText? m = some x ∧ x.isFinite := by
  rw [hasValidMultiplier_iff]
  by_cases hm : m = []
  · simp [hm]
  · simp [hm]

end StructuredClass

namespace Utility

theorem ofName?_eq_structured_iff {name : Text} {c : StructuredClass} :
    ofName? name = some (.structured c) ↔
      ∃ rest, name = structuredMark ++ rest ∧ c = .ofRest name rest := by
  unfold ofName?
  constructor
  · intro h
    cases hrest : Text.after? structuredMark name with
    | some rest =>
      rw [hrest] at h
      cases h
      exact ⟨rest, Text.after?_eq_some_iff.mp hrest, rfl⟩
    | none =>
      rw [hrest] at h
      obtain ⟨rest, -, he⟩ := Option.map_eq_some_iff.mp h
      cases he
  · rintro ⟨rest, rfl, rfl⟩
    rw [Text.after?_append]

/-- A utility class keeps the name that it was read from. -/
theorem name_of_ofName? {name : Text} {u : Utility} (h : ofName? name = some u) :
    u.name = name := by
  unfold ofName? at h
  split at h
  · cases h
    rfl
  · obtain ⟨rest, -, rfl⟩ := Option.map_eq_some_iff.mp h
    rfl

/-- A body without an underscore, behind the mark, is read back as it is. -/
theorem ofName?_mark_append {body : Text} (h : '_' ∉ body) :
    ofName? (structuredMark ++ body) =
      some (.structured ⟨structuredMark ++ body, body, none⟩) := by
  rw [← StructuredClass.ofRest_eq_of_notMem h]
  exact ofName?_eq_structured_iff.mpr ⟨body, rfl, rfl⟩

/-- Structured classes are spelled as a mark, a body without underscores, and a tail. -/
theorem ofName?_eq_structured_iff_tail {name : Text} {c : StructuredClass} :
    ofName? name = some (.structured c) ↔
      ∃ body tail m, name = structuredMark ++ (body ++ tail) ∧ '_' ∉ body ∧
        StructuredClass.Tail tail m ∧ c = ⟨name, body, if m = [] then none else some m⟩ := by
  rw [ofName?_eq_structured_iff]
  constructor
  · rintro ⟨rest, rfl, rfl⟩
    obtain ⟨body, tail, m, rfl, hbody, htail⟩ := StructuredClass.exists_tail rest
    exact ⟨body, tail, m, rfl, hbody, htail, StructuredClass.ofRest_append_tail _ hbody htail⟩
  · rintro ⟨body, tail, m, rfl, hbody, htail, rfl⟩
    exact ⟨body ++ tail, rfl, (StructuredClass.ofRest_append_tail _ hbody htail).symm⟩

theorem ofName?_eq_enumerated_iff {name : Text} {c : EnumeratedClass} :
    ofName? name = some (.enumerated c) ↔
      ∃ rest, name = enumeratedMark ++ rest ∧ c = ⟨name, rest⟩ := by
  unfold ofName?
  constructor
  · intro h
    cases hrest : Text.after? structuredMark name with
    | some rest =>
      rw [hrest] at h
      cases h
    | none =>
      rw [hrest] at h
      obtain ⟨rest, hafter, he⟩ := Option.map_eq_some_iff.mp h
      cases he
      exact ⟨rest, Text.after?_eq_some_iff.mp hafter, rfl⟩
  · rintro ⟨rest, rfl, rfl⟩
    -- The two marks differ in their first character.
    have hnone : Text.after? structuredMark (enumeratedMark ++ rest) = none := rfl
    rw [hnone, Text.after?_append]
    rfl

/-! ## Families -/

variable {name : Text} {x : Char}

theorem structuredMark_prefix_iff :
    structuredMark <+: name ↔ ∃ c, ofName? name = some (.structured c) := by
  constructor
  · rintro ⟨rest, rfl⟩
    exact ⟨_, ofName?_eq_structured_iff.mpr ⟨rest, rfl, rfl⟩⟩
  · rintro ⟨c, h⟩
    obtain ⟨rest, rfl, -⟩ := ofName?_eq_structured_iff.mp h
    exact List.prefix_append _ _

theorem enumeratedMark_prefix_iff :
    enumeratedMark <+: name ↔ ∃ c, ofName? name = some (.enumerated c) := by
  constructor
  · rintro ⟨rest, rfl⟩
    exact ⟨_, ofName?_eq_enumerated_iff.mpr ⟨rest, rfl, rfl⟩⟩
  · rintro ⟨c, h⟩
    obtain ⟨rest, rfl, -⟩ := ofName?_eq_enumerated_iff.mp h
    exact List.prefix_append _ _

/-! ## The parts of a class -/

theorem mem_name_of_mem_body {c : StructuredClass} (h : ofName? name = some (.structured c))
    (hx : x ∈ c.body) : x ∈ name := by
  obtain ⟨body, tail, m, rfl, -, -, rfl⟩ := ofName?_eq_structured_iff_tail.mp h
  exact List.mem_append_right _ (List.mem_append_left _ hx)

theorem mem_name_of_mem_multiplier {c : StructuredClass} {m : Text}
    (h : ofName? name = some (.structured c)) (hm : c.multiplier? = some m) (hx : x ∈ m) :
    x ∈ name := by
  obtain ⟨body, tail, run, rfl, -, htail, rfl⟩ := ofName?_eq_structured_iff_tail.mp h
  dsimp only at hm
  split at hm
  · cases hm
  · cases hm
    exact List.mem_append_right _ (List.mem_append_right _ (htail.mem hx))

theorem mem_name_of_mem_declaration {c : EnumeratedClass} {p : Text × Text}
    (h : ofName? name = some (.enumerated c)) (hp : c.declaration? = some p)
    (hx : x ∈ p.1 ∨ x ∈ p.2) : x ∈ name := by
  obtain ⟨rest, rfl, rfl⟩ := ofName?_eq_enumerated_iff.mp h
  obtain ⟨left, right⟩ := p
  obtain ⟨-, hrest⟩ := Text.cut?_eq_some_iff.mp (Option.filter_eq_some_iff.mp hp).1
  dsimp only at hrest
  rw [hrest]
  refine List.mem_append_right _ (List.mem_append.mpr ?_)
  exact hx.imp_right (List.mem_cons_of_mem _)

end Utility

end ClassSheet

import ClassSheet.Proofs.Markup.Pieces
import ClassSheet.Proofs.Number.Layout
import ClassSheet.Proofs.Sheet.Spelling
import ClassSheet.Proofs.Text.Places

/-!
# Selectors in the text of a stylesheet

A selector ends with an opening brace, and if nothing that a theme brings has such a brace, the only
ones in a stylesheet are that of the root block and one for each rule. So every place at which a
selector occurs is found by looking at what precedes the braces.

* `Style.BraceFree`: neither properties nor values nor the unit have an opening brace.
* `brace_notMem_inside`, `brace_notMem_write`: the insides of blocks have none.
* `places_flatMap_write`: from what one rule adds, what a list of rules has.
* `places_css`: the same for a whole stylesheet.
* `selectors_occur_once`: the selector of the root block and that of each class name with a rule
  occur once, and those of class names without a rule never.
-/

namespace ClassSheet

open Markup (IsNameChar notMem_of_isNameChar)

namespace Style

/-- Nothing that a style brings into a stylesheet besides class names has an opening brace. -/
structure BraceFree (style : Style) : Prop where
  property : ∀ d ∈ style.theme.tokens, '{' ∉ d.property
  value : ∀ d ∈ style.theme.tokens, ∀ s, d.value = .text s → '{' ∉ s
  unit : '{' ∉ style.options.unit

variable {style : Style} {names : List Text} {name : Text} {rule : Rule} {d : DesignToken}

/-! ## Blocks without opening braces -/

theorem brace_notMem_value (hstyle : style.BraceFree) (hd : d ∈ style.theme.tokens) :
    '{' ∉ d.value.write := by
  cases hvalue : d.value with
  | number x =>
    intro hmem
    have hbrace : ¬Number.IsMark '{' := by decide
    exact hbrace (Number.Layout.forall_isMark_write .plain x _ hmem)
  | text s => exact hstyle.value d hd s hvalue

theorem brace_notMem_unitOf (hstyle : style.BraceFree) : '{' ∉ style.unitOf d := by
  unfold unitOf
  split
  · exact hstyle.unit
  · exact List.not_mem_nil

/-- A declaration has no opening brace. -/
theorem brace_notMem_write {decl : Declaration} (hstyle : style.BraceFree) (hname : '{' ∉ name)
    (h : style.declarationOf? name = some decl) : '{' ∉ decl.write := by
  obtain ⟨c, d, -, hd, rfl⟩ := declarationOf?_eq_some_iff.mp h
  have hvalue := brace_notMem_value hstyle (Theme.mem_of_resolve? hd)
  have hunit := brace_notMem_unitOf (d := d) hstyle
  simp only [Declaration.write, List.mem_append, not_or]
  exact ⟨⟨⟨⟨⟨by decide, hname⟩, by decide⟩, hvalue⟩, hunit⟩, by decide⟩

/-- Behind its opening brace, a rule has no other one. What it takes from the theme besides the
property is part of the class name. -/
theorem brace_notMem_inside (hstyle : style.BraceFree) (hname : '{' ∉ name)
    (h : style.rule? name = some rule) : '{' ∉ rule.inside := by
  have hmark : '{' ∉ structuredMark := by decide
  cases rule?_eq_some_iff.mp h with
  | @range c d direction hc hd _ _ hdirection =>
    have hproperty := hstyle.property d (Theme.mem_of_resolve? hd)
    have hbody : '{' ∉ c.body := fun hmem => hname (Utility.mem_name_of_mem_body hc hmem)
    obtain ⟨side, -, hspelled, rfl⟩ := DesignToken.direction?_eq_some_iff.mp hdirection
    rw [hspelled, List.mem_append, not_or] at hbody
    have hfactor : '{' ∉ Rule.factor c.multiplier? := by
      cases hm : c.multiplier? with
      | none => exact List.not_mem_nil
      | some m =>
        have hmultiplier : '{' ∉ m :=
          fun hmem => hname (Utility.mem_name_of_mem_multiplier hc hm hmem)
        simp only [Rule.factor, List.mem_append, not_or]
        exact ⟨by decide, hmultiplier⟩
    simp only [Rule.inside, Rule.variableName, Direction.suffix_ofSuffix, List.mem_append, not_or]
    exact ⟨⟨⟨⟨⟨⟨hproperty, hbody.2⟩, by decide⟩, hmark, hbody.1⟩, by decide⟩, hfactor⟩, by decide⟩
  | @color c d hc hd _ =>
    have hproperty := hstyle.property d (Theme.mem_of_resolve? hd)
    have htoken : '{' ∉ d.name := fun hmem =>
      hname (Utility.mem_name_of_mem_body hc ((Theme.name_infix_of_resolve? hd).mem hmem))
    simp only [Rule.inside, Rule.variableName, List.mem_append, not_or]
    exact ⟨⟨⟨hproperty, by decide⟩, hmark, htoken⟩, by decide⟩
  | @enumerated c property value hc hdeclaration =>
    have hproperty : '{' ∉ property := fun hmem =>
      hname (Utility.mem_name_of_mem_declaration hc hdeclaration (.inl hmem))
    have hvalue : '{' ∉ value := fun hmem =>
      hname (Utility.mem_name_of_mem_declaration hc hdeclaration (.inr hmem))
    have hunit : '{' ∉ (if isWholeNumber value then style.options.unit else []) := by
      split
      · exact hstyle.unit
      · exact List.not_mem_nil
    simp only [Rule.inside, List.mem_append, not_or]
    exact ⟨⟨⟨⟨hproperty, by decide⟩, hvalue⟩, hunit⟩, by decide⟩

/-! ## Braces of a stylesheet -/

/-- The name of a rule is one of the class names. -/
theorem name_mem_of_mem_rules (h : rule ∈ style.rules names) : rule.name ∈ names := by
  obtain ⟨name, hname, h⟩ := mem_rules_iff.mp h
  rwa [name_of_rule? h]

/-- One rule adds the brace behind its selector, and its inside goes in front of the next rule. So
texts that end with a brace occur as often as the rules have them in front of theirs, whatever
stands before the first one. -/
theorem places_flatMap_write {parts : List Text} {p : Rule → Bool} {rules : List Rule} {lead : Text}
    (hparts : ∀ part ∈ parts, '{' ∉ part) (hname : ∀ rule ∈ rules, '{' ∉ rule.name)
    (hinside : ∀ rule ∈ rules, '{' ∉ rule.inside) (hlead : '{' ∉ lead)
    (hcount : ∀ rule ∈ rules, ∀ lead,
      (lead ++ '.' :: (rule.name ++ rule.gap)).tails.countP (· ∈ parts) = if p rule then 1 else 0) :
    Text.places (parts.map (· ++ ['{'])) (lead ++ rules.flatMap Rule.write) = rules.countP p := by
  induction rules generalizing lead with
  | nil =>
    rw [List.flatMap_nil, List.append_nil]
    exact Text.places_eq_zero hlead
  | cons rule rules ih =>
    rw [List.forall_mem_cons] at hname hinside hcount
    have hgap : '{' ∉ rule.gap := by cases rule <;> simp [Rule.gap]
    have hbefore : '{' ∉ lead ++ '.' :: (rule.name ++ rule.gap) := by
      simp [hlead, hname.1, hgap]
    have hsplit : lead ++ (rule :: rules).flatMap Rule.write =
        (lead ++ '.' :: (rule.name ++ rule.gap)) ++
          '{' :: (rule.inside ++ rules.flatMap Rule.write) := by
      simp [Rule.write_eq]
    rw [hsplit, Text.places_append_mark hparts hbefore, hcount.1 lead,
      ih hname.2 hinside.2 hinside.1 hcount.2, List.countP_cons, Nat.add_comm]

/-- Texts that end with a brace occur in a stylesheet as often as the root block and the rules have
them in front of their braces. -/
theorem places_css {parts : List Text} {p : Rule → Bool} (hstyle : style.BraceFree)
    (hnames : ∀ name ∈ names, '{' ∉ name) (hparts : ∀ part ∈ parts, '{' ∉ part)
    (hcount : ∀ rule ∈ style.rules names, ∀ lead,
      (lead ++ '.' :: (rule.name ++ rule.gap)).tails.countP (· ∈ parts) = if p rule then 1 else 0) :
    Text.places (parts.map (· ++ ['{'])) (style.sheet names).css =
      ":root".toList.tails.countP (· ∈ parts) + (style.rules names).countP p := by
  have hdeclarations : '{' ∉ (style.declarations names).flatMap Declaration.write := by
    intro hmem
    obtain ⟨decl, hdecl, hwrite⟩ := List.mem_flatMap.mp hmem
    obtain ⟨name, hname, h⟩ := List.mem_filterMap.mp hdecl
    exact brace_notMem_write hstyle (hnames name (List.mem_eraseDups.mp hname)) h hwrite
  have hlead : '{' ∉ (style.declarations names).flatMap Declaration.write ++ "\x7d".toList :=
    List.mem_append.not.mpr (not_or.mpr ⟨hdeclarations, by decide⟩)
  have hname : ∀ rule ∈ style.rules names, '{' ∉ rule.name :=
    fun rule hrule => hnames _ (name_mem_of_mem_rules hrule)
  have hinside : ∀ rule ∈ style.rules names, '{' ∉ rule.inside := by
    intro rule hrule
    obtain ⟨name, hname, h⟩ := mem_rules_iff.mp hrule
    exact brace_notMem_inside hstyle (hnames name hname) h
  have hsplit : (style.sheet names).css = ":root".toList ++ '{' ::
      (((style.declarations names).flatMap Declaration.write ++ "\x7d".toList) ++
        (style.rules names).flatMap Rule.write) := by
    rw [sheet_eq]
    rfl
  rw [hsplit, Text.places_append_mark hparts (by decide),
    places_flatMap_write hparts hname hinside hlead hcount]

/-! ## Selectors -/

/-- The selector of a rule is not that of the root block: it has a dot in front of the name, and no
colon in it. -/
theorem countP_root_eq_zero {rule : Rule} (hrule : ':' ∉ rule.name) (lead : Text) :
    (lead ++ '.' :: (rule.name ++ rule.gap)).tails.countP (· ∈ [":root".toList]) = 0 := by
  have hgap : ':' ∉ rule.gap := by cases rule <;> simp [Rule.gap]
  rw [List.countP_eq_zero]
  intro t ht h
  rw [decide_eq_true_eq, List.mem_singleton] at h
  subst h
  rcases Text.mem_or_suffix ((List.mem_tails _ _).mp ht) with hdot | hsuffix
  · revert hdot
    decide
  · rcases List.mem_append.mp (hsuffix.mem (show ':' ∈ ":root".toList by decide)) with hmem | hmem
    · exact hrule hmem
    · exact hgap hmem

/-- The selector of a rule is that of a class name, with or without a blank, iff the names agree. -/
theorem selector_mem_iff {rule : Rule} (hname : ' ' ∉ name) (hrule : ' ' ∉ rule.name) :
    '.' :: (rule.name ++ rule.gap) ∈ ['.' :: name, '.' :: (name ++ [' '])] ↔ rule.name = name := by
  simp only [List.mem_cons, List.not_mem_nil, or_false, List.cons.injEq, true_and]
  have hgap : rule.gap = [] ∨ rule.gap = [' '] := by cases rule <;> simp [Rule.gap]
  rcases hgap with hgap | hgap
  · rw [hgap, List.append_nil]
    constructor
    · rintro (h | h)
      · exact h
      · rw [h] at hrule
        simp at hrule
    · exact .inl
  · rw [hgap]
    constructor
    · rintro (h | h)
      · rw [← h] at hname
        simp at hname
      · exact List.append_cancel_right h
    · rintro rfl
      exact .inr rfl

/-- One rule at most is that of a class name. -/
theorem countP_name_rules (hname : name ∈ names) :
    (style.rules names).countP (·.name == name) = if (style.rule? name).isSome then 1 else 0 := by
  unfold rules
  rw [List.countP_eq_length_filter,
    filter_key_filterMap (fun _ _ h => name_of_rule? h) (nodup_eraseDups names),
    if_pos (List.mem_eraseDups.mpr hname)]
  cases style.rule? name <;> rfl

/-- In front of the brace of a rule stands the selector of a class name iff the rule is for it. -/
theorem countP_selectors {rule : Rule} (hname : ∀ c ∈ name, IsNameChar c)
    (hrule : ∀ c ∈ rule.name, IsNameChar c) (lead : Text) :
    (lead ++ '.' :: (rule.name ++ rule.gap)).tails.countP
      (· ∈ ['.' :: name, '.' :: (name ++ [' '])]) = if rule.name == name then 1 else 0 := by
  have hdot : ¬IsNameChar '.' := by decide
  have hblank : ¬IsNameChar ' ' := by decide
  have hparts : ∀ p ∈ ['.' :: name, '.' :: (name ++ [' '])], ∃ q, p = '.' :: q ∧ '.' ∉ q := by
    simp [notMem_of_isNameChar hdot hname]
  have hrest : '.' ∉ rule.name ++ rule.gap := by
    have hgap : '.' ∉ rule.gap := by cases rule <;> simp [Rule.gap]
    simp [notMem_of_isNameChar hdot hrule, hgap]
  have hagree := selector_mem_iff (notMem_of_isNameChar hblank hname)
    (notMem_of_isNameChar hblank hrule)
  rw [Text.countP_tails_append_cons hparts hrest]
  simp only [hagree, beq_iff_eq]

/-- Where neither properties nor values nor the unit have an opening brace, and class names are made
of name characters, the stylesheet starts with the selector of the root block, which occurs nowhere
else, and the selector of a class name, with or without a blank behind it, occurs once if the class
name has a rule, and never if it has none. -/
theorem selectors_occur_once (style : Style) (names : List Text) (hstyle : style.BraceFree)
    (hnames : ∀ name ∈ names, ∀ c ∈ name, IsNameChar c) :
    ":root\x7b".toList <+: (style.sheet names).css ∧
    Text.places [":root\x7b".toList] (style.sheet names).css = 1 ∧
    ∀ name ∈ names,
      Text.places [".".toList ++ name ++ "\x7b".toList, ".".toList ++ name ++ " \x7b".toList]
        (style.sheet names).css = if (style.rule? name).isSome then 1 else 0 := by
  have hbrace : ∀ name ∈ names, '{' ∉ name := fun name hname =>
    notMem_of_isNameChar (by decide) (hnames name hname)
  refine ⟨?_, ?_, ?_⟩
  · rw [sheet_eq]
    exact (List.prefix_append _ _).trans (List.prefix_append _ _)
  · have hcount : ∀ rule ∈ style.rules names, ∀ lead,
        (lead ++ '.' :: (rule.name ++ rule.gap)).tails.countP (· ∈ [":root".toList]) =
          if false then 1 else 0 := by
      intro rule hrule
      have hname := hnames _ (name_mem_of_mem_rules hrule)
      exact countP_root_eq_zero (notMem_of_isNameChar (by decide) hname)
    have hnone : (style.rules names).countP (fun _ => false) = 0 := by simp
    refine (places_css (p := fun _ => false) hstyle hbrace (by decide) hcount).trans ?_
    rw [hnone]
    decide
  · intro name hname
    have hcount : ∀ rule ∈ style.rules names, ∀ lead,
        (lead ++ '.' :: (rule.name ++ rule.gap)).tails.countP
          (· ∈ ['.' :: name, '.' :: (name ++ [' '])]) = if rule.name == name then 1 else 0 :=
      fun rule hrule =>
        countP_selectors (hnames name hname) (hnames _ (name_mem_of_mem_rules hrule))
    have hparts : ∀ p ∈ ['.' :: name, '.' :: (name ++ [' '])], '{' ∉ p := by
      simp [hbrace name hname]
    have hdots : ∀ p ∈ ['.' :: name, '.' :: (name ++ [' '])], '.' ∈ p := by simp
    have hroot : ":root".toList.tails.countP (· ∈ ['.' :: name, '.' :: (name ++ [' '])]) = 0 :=
      Text.countP_tails_eq_zero hdots (by decide)
    have hplaces := places_css hstyle hbrace hparts hcount
    rw [hroot, Nat.zero_add, countP_name_rules hname] at hplaces
    rw [← hplaces]
    simp

/-- Class names of which one begins like another, and one that means nothing. -/
theorem selectors_occur_once_underscored :
    let css := ((underscored.exactStyle "px".toList).sheet
      ["ee-w_1".toList, "oo-ink".toList, "ee-w_1-5".toList, "oo-gap".toList]).css
    css = (":root\x7b--oo-ink: black;\x7d" ++ ".ee-w_1\x7bw:1px\x7d" ++
        ".oo-ink \x7bcolor:var(--oo-ink);\x7d" ++ ".ee-w_1-5\x7bw:1-5\x7d").toList ∧
      Text.places [":root\x7b".toList] css = 1 ∧
      Text.places [".ee-w_1\x7b".toList, ".ee-w_1 \x7b".toList] css = 1 ∧
      Text.places [".oo-gap\x7b".toList, ".oo-gap \x7b".toList] css = 0 := by
  have hstyle : (underscored.exactStyle "px".toList).BraceFree := by
    refine ⟨by decide +kernel, ?_, by decide⟩
    rintro d hd s hs
    simp only [Theme.exactStyle, underscored, Theme.ofNormal, Theme.ofAccepted, List.mem_cons,
      List.not_mem_nil, or_false] at hd
    rcases hd with rfl | rfl
    · cases hs
    · cases hs
      decide
  obtain ⟨-, hroot, hselectors⟩ := selectors_occur_once (underscored.exactStyle "px".toList)
    ["ee-w_1".toList, "oo-ink".toList, "ee-w_1-5".toList, "oo-gap".toList] hstyle (by decide)
  refine ⟨by decide +kernel, hroot, ?_, ?_⟩
  · exact (hselectors "ee-w_1".toList (by decide)).trans (by decide +kernel)
  · exact (hselectors "oo-gap".toList (by decide)).trans (by decide +kernel)

end Style

end ClassSheet

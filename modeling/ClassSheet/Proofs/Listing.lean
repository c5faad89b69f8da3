import ClassSheet.Proofs.Markup.Occurrences
import ClassSheet.Proofs.Session
import ClassSheet.Proofs.Sheet.Accounting
import ClassSheet.Proofs.Text.Words
import ClassSheet.Proofs.Utility

/-!
# The listing of the class names

A line of the listing is the word for a family, a tab and a class name. A class name is a word, so
that neither a tab nor the end of a line can be in it, and the listing is read back line by line.

* `Markup.isWord_of_mem_occurrences`: what is found in a text are words.
* `Utility.familyWord_eq_structured_iff` and the like: the family of a name as its beginning tells it.
* `Invocation.splitOn_listing`, `Invocation.cut?_line`: how a listing is read back.
* `Invocation.length_filter_line`: the lines of the utility classes.
* `Invocation.listing_decodes`: the listing of a project, and the build of the same project.
-/

namespace ClassSheet

variable {name text : Text} {names : List Text}

/-! ## Class names -/

namespace Markup

/-- Whatever the value of an attribute looks like, its class names are words. -/
theorem Value.isWord_of_mem_classNames {v : Value} (h : name ∈ v.classNames) : Text.IsWord name := by
  cases v with
  | quoted inside => exact Text.isWord_of_mem_words h
  | braced inside =>
    obtain ⟨piece, -, hname⟩ := List.mem_flatMap.mp h
    exact Text.isWord_of_mem_words hname

theorem isWord_of_mem_occurrences (h : name ∈ occurrences text) : Text.IsWord name := by
  obtain ⟨v, -, hname⟩ := List.mem_flatMap.mp h
  exact v.isWord_of_mem_classNames hname

theorem isWord_of_mem_classNames (h : name ∈ classNames text) : Text.IsWord name :=
  isWord_of_mem_occurrences (List.mem_eraseDups.mp h)

end Markup

/-! ## Families -/

namespace Utility

theorem familyWord_eq_structured_iff :
    familyWord name = "structured".toList ↔ structuredMark <+: name := by
  rw [structuredMark_prefix_iff, familyWord]
  obtain h | ⟨_ | _, h⟩ := (ofName? name).eq_none_or_eq_some <;> simp [h]

theorem familyWord_eq_enumerated_iff :
    familyWord name = "enumerated".toList ↔ enumeratedMark <+: name := by
  rw [enumeratedMark_prefix_iff, familyWord]
  obtain h | ⟨_ | _, h⟩ := (ofName? name).eq_none_or_eq_some <;> simp [h]

theorem familyWord_eq_other_iff : familyWord name = "other".toList ↔ ¬isName name := by
  rw [isName, familyWord]
  obtain h | ⟨_ | _, h⟩ := (ofName? name).eq_none_or_eq_some <;> simp [h]

theorem isName_iff : isName name ↔ structuredMark <+: name ∨ enumeratedMark <+: name := by
  rw [structuredMark_prefix_iff, enumeratedMark_prefix_iff, isName]
  obtain h | ⟨_ | _, h⟩ := (ofName? name).eq_none_or_eq_some <;> simp [h]

/-- The words for the families are made of letters. -/
theorem isAlpha_of_mem_familyWord {x : Char} (h : x ∈ familyWord name) : x.isAlpha := by
  rw [familyWord] at h
  split at h <;> revert x <;> decide

end Utility

/-! ## Lines -/

namespace Invocation

open Utility (familyWord)

variable {disk : Disk} {c : Configuration}

/-- The line of a class name, without its end. -/
def line (name : Text) : Text := familyWord name ++ '\t' :: name

/-- A line is cut between the family and the name. -/
theorem cut?_line (name : Text) : Text.cut? '\t' (line name) = some (familyWord name, name) := by
  rw [Text.cut?_eq_some_iff]
  refine ⟨fun h => ?_, rfl⟩
  have := Utility.isAlpha_of_mem_familyWord h
  simp at this

/-- The line of a word does not end before its end. -/
theorem newline_notMem_line (h : Text.IsWord name) : '\n' ∉ line name := by
  intro hmem
  rcases List.mem_append.mp hmem with hfamily | hname
  · have := Utility.isAlpha_of_mem_familyWord hfamily
    simp at this
  · rcases List.mem_cons.mp hname with htab | hname
    · cases htab
    · exact h.2 _ hname (by decide)

theorem splitOn_listing (h : ∀ name ∈ names, Text.IsWord name) :
    (names.flatMap classLine).splitOn '\n' = names.map line ++ [[]] := by
  induction names with
  | nil => simp
  | cons name names ih =>
    obtain ⟨hname, hnames⟩ := List.forall_mem_cons.mp h
    have hline : (name :: names).flatMap classLine =
        line name ++ '\n' :: names.flatMap classLine := by
      simp [classLine, line]
    rw [hline, List.splitOn_append_cons_self_of_not_mem (newline_notMem_line hname), ih hnames,
      List.map_cons, List.cons_append]

/-- The family that a line begins with. -/
def family? (line : Text) : Option Text := (Text.cut? '\t' line).map (·.1)

/-- The lines of another family than `other` are those of the utility classes. -/
theorem length_filter_line (names : List Text) :
    ((names.map line).filter fun line => family? line ≠ some "other".toList).length =
      (names.filter Utility.isName).length := by
  rw [List.filter_map, List.length_map]
  congr 1
  apply List.filter_congr
  intro name _
  have hother : family? (line name) ≠ some "other".toList ↔ Utility.isName name := by
    rw [family?, cut?_line, Option.map_some, ne_eq, Option.some.injEq,
      Utility.familyWord_eq_other_iff, not_not]
  rw [Bool.eq_iff_iff, ← hother]
  exact decide_eq_true_iff

/-- A build makes a rule for the names of the other lines, or skips them. -/
theorem counts_reportOn (c : Configuration) (hnames : names.Nodup) :
    (Build.reportOn c names).rules + (Build.reportOn c names).skipped =
      (names.filter Utility.isName).length := by
  have hcounts := c.style.length_rules_add_length_skipped names
  rw [eraseDups_eq_self hnames] at hcounts
  rw [Build.reportOn, Style.sheet_eq]
  exact hcounts

/-- If the sources of a project can be read, the class names in them are words without repeats. The
listing is the lines of these names, each ended by the end of the line, and each line is cut at its
first tab into the family, as the beginning of the name tells it, and the name. A build of the same
project that succeeds counts the lines, and it has a rule for each line that is not of another family,
or skips it. -/
theorem listing_decodes (disk : Disk) (c : Configuration) (names : List Text)
    (h : Build.classNames disk c = .ok names) :
    names.Nodup ∧ (∀ name ∈ names, name ≠ [] ∧ ∀ x ∈ name, ¬Text.isBlank x) ∧
    (∀ name ∈ names,
      (familyWord name = "structured".toList ↔ "oo-".toList <+: name) ∧
      (familyWord name = "enumerated".toList ↔ "ee-".toList <+: name) ∧
      (familyWord name = "other".toList ↔ ¬"oo-".toList <+: name ∧ ¬"ee-".toList <+: name)) ∧
    ∃ output lines, perform disk c .classes = ⟨.ok output, disk⟩ ∧
      (∀ i : Invocation, Configuration.load disk i.config = .ok c → i.command = .classes →
        i.run disk = ⟨.ok output, disk⟩) ∧
      output.splitOn '\n' = lines ++ [[]] ∧
      lines.map (Text.cut? '\t') = names.map (fun name => some (familyWord name, name)) ∧
      ∀ disk' report, Build.write disk c = (disk', .ok report) →
        perform disk c .build = ⟨.ok (reportLine report), disk'⟩ ∧
        report.classes = lines.length ∧
        report.rules + report.skipped =
          (lines.filter fun line => family? line ≠ some "other".toList).length := by
  obtain ⟨texts, -, hjoined⟩ := Build.classNames_eq_ok_iff.mp h
  have hwords : ∀ name ∈ names, Text.IsWord name := by
    intro name hname
    rw [hjoined] at hname
    exact Markup.isWord_of_mem_classNames hname
  have hnodup : names.Nodup := by
    rw [hjoined]
    exact nodup_eraseDups _
  have hperform : perform disk c .classes = ⟨.ok (names.flatMap classLine), disk⟩ := by
    rw [perform, h]
  refine ⟨hnodup, hwords, fun name _ => ⟨?_, ?_, ?_⟩, names.flatMap classLine, names.map line,
    hperform, ?_, splitOn_listing hwords, ?_, ?_⟩
  · exact Utility.familyWord_eq_structured_iff
  · exact Utility.familyWord_eq_enumerated_iff
  · rw [Utility.familyWord_eq_other_iff, Utility.isName_iff, not_or]
    rfl
  · intro i hload hcommand
    rw [run, hload, hcommand]
    exact hperform
  · rw [List.map_map]
    exact List.map_congr_left fun name _ => cut?_line name
  · intro disk' report hwrite
    obtain ⟨names', hnames', rfl, -⟩ := Build.write_eq_ok_iff.mp hwrite
    rw [h, Except.ok.injEq] at hnames'
    subst hnames'
    refine ⟨by rw [perform, hwrite], (List.length_map _).symm, ?_⟩
    rw [length_filter_line]
    exact counts_reportOn c hnodup

/-- A project with a structured class and another one: its listing is read back, and a build makes a
rule for the first of them. -/
theorem listing_decodes_project :
    let c := Build.projectConfiguration ⟨"site".toList⟩ ⟨"css/out.css".toList⟩ [⟨"src".toList⟩]
    Build.classNames Build.project c = .ok ["oo-gap_2".toList, "row".toList] ∧
      (Build.write Build.project c).2 = .ok ⟨⟨"site/css/out.css".toList⟩, 2, 1, 1, 0⟩ ∧
      ∃ output lines, perform Build.project c .classes = ⟨.ok output, Build.project⟩ ∧
        output = "structured\too-gap_2\nother\trow\n".toList ∧
        output.splitOn '\n' = lines ++ [[]] ∧
        lines.map (Text.cut? '\t') =
          [some ("structured".toList, "oo-gap_2".toList), some ("other".toList, "row".toList)] ∧
        lines.length = 2 ∧
        (lines.filter fun line => family? line ≠ some "other".toList).length = 1 := by
  intro c
  have hnames : Build.classNames Build.project c = .ok ["oo-gap_2".toList, "row".toList] := by
    decide +kernel
  have hwrite : (Build.write Build.project c).2 =
      .ok ⟨⟨"site/css/out.css".toList⟩, 2, 1, 1, 0⟩ := by
    decide +kernel
  obtain ⟨-, -, -, output, lines, hperform, -, hsplit, hlines, hbuild⟩ :=
    listing_decodes Build.project c _ hnames
  obtain ⟨-, hclasses, hrules⟩ := hbuild _ _ (Prod.ext rfl hwrite)
  have houtput : perform Build.project c .classes =
      ⟨.ok "structured\too-gap_2\nother\trow\n".toList, Build.project⟩ := by
    rw [perform, hnames]
    rfl
  refine ⟨hnames, hwrite, output, lines, hperform, ?_, hsplit, hlines, hclasses.symm, hrules.symm⟩
  rw [hperform, RunResult.mk.injEq, Except.ok.injEq] at houtput
  exact houtput.1

end Invocation

end ClassSheet

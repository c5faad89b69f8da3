import ClassSheet.Build
import ClassSheet.Proofs.Distinct
import ClassSheet.Proofs.Markup.Joined
import ClassSheet.Proofs.Sources

/-!
# The class names of a project, file by file

* `classNames_file_by_file`: where every source file is a terminated text, the class names of a
  project are those of its files, one after the other and without repeats.
-/

namespace ClassSheet.Build

variable {disk : Disk} {c : Configuration} {names : List Text}

theorem classNames_eq_ok_iff :
    classNames disk c = .ok names ↔
      ∃ texts, List.Forall₂ Sources.IsTextOf
          (Sources.selected disk c.content.fileExtension c.sourceRoots) texts ∧
        names = Markup.classNames texts.flatten := by
  have hmap : classNames disk c = .ok names ↔
      ∃ text, Sources.collect disk c.content.fileExtension c.sourceRoots = .ok text ∧
        names = Markup.classNames text := by
    unfold classNames
    cases Sources.collect disk c.content.fileExtension c.sourceRoots with
    | error e => simp [Except.map]
    | ok text => simp [Except.map, eq_comm]
  rw [hmap]
  constructor
  · rintro ⟨text, htext, rfl⟩
    obtain ⟨texts, htexts, rfl⟩ := Sources.collect_eq_ok_iff.mp htext
    exact ⟨texts, htexts, rfl⟩
  · rintro ⟨texts, htexts, rfl⟩
    exact ⟨texts.flatten, Sources.collect_eq_ok_iff.mpr ⟨texts, htexts, rfl⟩, rfl⟩

/-- The class names of a text that is terminated and of another one joined to it are those of both,
one after the other. So if every source file that holds a text holds a terminated one, then the
class names of a project are there iff all source files hold texts, and they are the class names of
those texts in the order of the walks, each where it occurs first. -/
theorem classNames_file_by_file :
    (∀ a b : Text, Markup.Terminated a →
      Markup.occurrences (a ++ b) = Markup.occurrences a ++ Markup.occurrences b) ∧
    ∀ (disk : Disk) (c : Configuration),
      (∀ file ∈ Sources.selected disk c.content.fileExtension c.sourceRoots,
        ∀ text, Sources.IsTextOf file text → Markup.Terminated text) →
      ∀ names, classNames disk c = .ok names ↔
        ∃ texts, List.Forall₂ Sources.IsTextOf
            (Sources.selected disk c.content.fileExtension c.sourceRoots) texts ∧
          names = firstOccurrences (texts.flatMap Markup.occurrences) := by
  refine ⟨fun a b ha => ha.occurrences_append b, ?_⟩
  intro disk c hfiles names
  rw [classNames_eq_ok_iff]
  refine exists_congr fun texts => and_congr_right fun htexts => ?_
  have hterminated : ∀ text ∈ texts, Markup.Terminated text := by
    intro text htext
    obtain ⟨i, hi, rfl⟩ := List.getElem_of_mem htext
    have hi' : i < (Sources.selected disk c.content.fileExtension c.sourceRoots).length := by
      rwa [htexts.length_eq]
    exact hfiles _ (List.getElem_mem hi') _ (htexts.get hi' hi)
  rw [Markup.classNames, Markup.occurrences_flatten hterminated, eraseDups_eq_firstOccurrences]

/-- A source text with an empty attribute, and one that begins with an attribute. -/
def sourceTexts : Text × Text :=
  ("<i class=\"\" className=\"x y\"/>\n".toList, "class='y z'\t".toList)

/-- A directory with a file of another extension and the two source texts. -/
def sourceDirectory : Node :=
  .directory
    [("a.css".toList, .file (Text.utf8 "class=\"n\" ".toList)),
     ("a.tsx".toList, .file (Text.utf8 sourceTexts.1)),
     ("b.tsx".toList, .file (Text.utf8 sourceTexts.2))]

/-- A disk with that directory on it. -/
def twoFiles : Disk where
  root := .directory [("src".toList, sourceDirectory)]
  current := []

/-- The configuration with that directory as a root, and another one that is not there. -/
def twoFilesConfiguration : Configuration where
  content :=
    { sourceDir := ⟨"src".toList⟩
      fileExtension := ".tsx".toList
      outputFile := ⟨"o.css".toList⟩
      includeDirs := [⟨"lib".toList⟩] }
  options := {}
  theme := .ofAccepted [] ⟨by simp, by simp, by simp, by simp, by simp⟩

/-- A file is visited if its path leads to it. -/
theorem visit_file {disk : Disk} {path : Path} {bytes : ByteArray} {address : Address}
    (h : disk.find? path = some (address, .file bytes)) :
    Walk.visit disk path (.file bytes) = [.file path bytes] := by
  rw [Walk.visit, h]
  simp

theorem walk_twoFiles :
    twoFiles.walk ⟨"src".toList⟩ =
      [.file ⟨"src/a.css".toList⟩ (Text.utf8 "class=\"n\" ".toList),
       .file ⟨"src/a.tsx".toList⟩ (Text.utf8 sourceTexts.1),
       .file ⟨"src/b.tsx".toList⟩ (Text.utf8 sourceTexts.2)] := by
  have hroot : twoFiles.find? ⟨"src".toList⟩ =
      some ((["src".toList] : Address), sourceDirectory) := rfl
  have hdirectory : twoFiles.isDirectory ⟨"src".toList⟩ = true := rfl
  rw [Disk.walk, hroot]
  dsimp only
  -- The walk sorts the entries by their names, and they are listed in that order.
  rw [sourceDirectory, Walk.visit, if_pos hdirectory]
  simp only [Walk.visitEntries]
  rw [List.mergeSort_of_pairwise (by decide)]
  simp only [List.flatMap_cons]
  rw [visit_file rfl, visit_file rfl, visit_file rfl]
  rfl

theorem selected_twoFiles :
    Sources.selected twoFiles ".tsx".toList twoFilesConfiguration.sourceRoots =
      [(⟨"src/a.tsx".toList⟩, Text.utf8 sourceTexts.1),
       (⟨"src/b.tsx".toList⟩, Text.utf8 sourceTexts.2)] := by
  have hroots : twoFilesConfiguration.sourceRoots = [⟨"src".toList⟩, ⟨"lib".toList⟩] := rfl
  have hmissing : twoFiles.walk ⟨"lib".toList⟩ = [] := rfl
  rw [Sources.selected, hroots, List.flatMap_cons, List.flatMap_singleton, walk_twoFiles, hmissing]
  rfl

/-- The attribute at the start of the second file is found behind the blank that ends the first
one. -/
theorem classNames_file_by_file_two_files :
    (Markup.Terminated sourceTexts.1 ∧
      Markup.occurrences (sourceTexts.1 ++ sourceTexts.2) =
        ["x".toList, "y".toList, "y".toList, "z".toList]) ∧
    (∀ file ∈ Sources.selected twoFiles ".tsx".toList twoFilesConfiguration.sourceRoots,
      ∀ text, Sources.IsTextOf file text → Markup.Terminated text) ∧
    classNames twoFiles twoFilesConfiguration = .ok ["x".toList, "y".toList, "z".toList] := by
  obtain ⟨hjoin, hbuild⟩ := classNames_file_by_file
  have hfirst : Markup.Terminated sourceTexts.1 := by decide +kernel
  have hsecond : Markup.Terminated sourceTexts.2 := by decide +kernel
  have hall : ∀ file ∈ Sources.selected twoFiles ".tsx".toList twoFilesConfiguration.sourceRoots,
      ∀ text, Sources.IsTextOf file text → Markup.Terminated text := by
    intro file hfile text htext
    rw [selected_twoFiles, List.mem_cons, List.mem_singleton] at hfile
    rcases hfile with rfl | rfl
    · rwa [Sources.isTextOf_utf8_iff.mp htext]
    · rwa [Sources.isTextOf_utf8_iff.mp htext]
  have htexts : List.Forall₂ Sources.IsTextOf
      (Sources.selected twoFiles ".tsx".toList twoFilesConfiguration.sourceRoots)
      [sourceTexts.1, sourceTexts.2] := by
    rw [selected_twoFiles]
    exact .cons (Sources.isTextOf_utf8_iff.mpr rfl) (.cons (Sources.isTextOf_utf8_iff.mpr rfl) .nil)
  refine ⟨⟨hfirst, ?_⟩, hall, ?_⟩
  · rw [hjoin _ _ hfirst]
    decide +kernel
  · exact (hbuild twoFiles twoFilesConfiguration hall _).mpr ⟨_, htexts, by decide +kernel⟩

end ClassSheet.Build

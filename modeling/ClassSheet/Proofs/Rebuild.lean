import ClassSheet.Proofs.Build
import ClassSheet.Proofs.Files.Walk
import ClassSheet.Proofs.Theme.Lookup

/-!
# Building again

The stylesheet may be written below a directory that is scanned for sources. To build again then
means to scan a larger file tree. It comes to the same as long as what is scanned was there before,
with the same content.

* `Build.write_eq_ok_iff`: a build is determined by the class names, and these by the files that
  are read.
* `Build.write_settles`: where a second build does the same as the first and changes nothing.
* `Build.write_not_settled`: two projects for which it does something else.
-/

namespace ClassSheet.Build

variable {disk disk' : Disk} {c : Configuration} {names : List Text} {report : BuildReport}

/-- The report on the stylesheet for some class names. -/
def reportOn (c : Configuration) (names : List Text) : BuildReport where
  output := c.outputPath
  classes := names.length
  declarations := (c.style.sheet names).declarations
  rules := (c.style.sheet names).rules
  skipped := (c.style.sheet names).skipped.length

/-- Nothing of the disk goes into a build but the class names and the place of the output. -/
theorem write_eq_ok_iff :
    write disk c = (disk', .ok report) ↔
      ∃ names, classNames disk c = .ok names ∧ report = reportOn c names ∧
        writeText disk c.outputPath (c.style.sheet names).css = (disk', .ok ()) := by
  unfold write
  cases hnames : classNames disk c with
  | error e => simp
  | ok names =>
    simp only [Except.ok.injEq, exists_eq_left']
    split
    · rename_i hwrite
      simp [hwrite]
    · rename_i hwrite
      simp [hwrite, reportOn, and_comm, eq_comm]

/-- The class names are those of the files that are read. -/
theorem classNames_eq_of_selected_eq
    (h : Sources.selected disk c.content.fileExtension c.sourceRoots =
      Sources.selected disk' c.content.fileExtension c.sourceRoots)
    (hnames : classNames disk c = .ok names) : classNames disk' c = .ok names := by
  rw [classNames_eq_ok_iff] at hnames ⊢
  rwa [← h]

/-- A build after which the same files are read as before is repeated by the next one. -/
theorem write_again
    (h : Sources.selected disk c.content.fileExtension c.sourceRoots =
      Sources.selected disk' c.content.fileExtension c.sourceRoots)
    (hwrite : write disk c = (disk', .ok report)) : write disk' c = (disk', .ok report) := by
  obtain ⟨names, hnames, hreport, htext⟩ := write_eq_ok_iff.mp hwrite
  exact write_eq_ok_iff.mpr
    ⟨names, classNames_eq_of_selected_eq h hnames, hreport, writeText_again htext⟩

/-- If no directory has to be made, the files that do not lie in the place of the output are as
they were before the build. -/
theorem readBytes_of_not_output {text : Text} {output p : Path} {bytes : ByteArray}
    (hparent : HasParent disk output) (htext : writeText disk output text = (disk', .ok ()))
    (hread : disk'.readBytes p = .ok bytes)
    (hp : disk'.locate true p ≠ disk'.locate true output) : disk.readBytes p = .ok bytes := by
  obtain ⟨between, hmade, hwrite⟩ := writeText_eq_ok_iff.mp htext
  rw [makeParent_of_hasParent hparent] at hmade
  cases hmade
  obtain ⟨x, rfl, hfind, hold, -⟩ := Disk.writeBytes_spec hwrite
  obtain ⟨y, hy⟩ := Disk.readBytes_eq_ok_iff.mp hread
  obtain ⟨hlocate, hat⟩ := Disk.find?_eq_some_iff.mp hfind
  obtain ⟨hlocate', -⟩ := Disk.find?_eq_some_iff.mp hy
  have hne : y ≠ x := by
    rintro rfl
    exact hp (hlocate'.trans hlocate.symm)
  exact Disk.readBytes_eq_ok_iff.mpr ⟨y, Disk.find?_of_put hold hat hne hy⟩

/-- After a build, the directory of the output is there. A second build then gives the same report
and leaves the whole disk as it is, if each file that it reads had the same content under the same
path before the first one. This is so of all files but the output itself if its directory was there
already. -/
theorem write_settles (disk disk' : Disk) (c : Configuration) (report : BuildReport)
    (hroot : disk.root.WellFormed) (hwrite : write disk c = (disk', .ok report)) :
    (disk'.root.WellFormed ∧ HasParent disk' c.outputPath) ∧
    ((∀ file ∈ Sources.selected disk' c.content.fileExtension c.sourceRoots,
        disk.readBytes file.1 = .ok file.2) →
      write disk' c = (disk', .ok report)) ∧
    (HasParent disk c.outputPath →
      (∀ file ∈ Sources.selected disk' c.content.fileExtension c.sourceRoots,
        disk'.locate true file.1 ≠ disk'.locate true c.outputPath) →
      write disk' c = (disk', .ok report)) := by
  obtain ⟨names, -, -, htext⟩ := write_eq_ok_iff.mp hwrite
  obtain ⟨hextends, hparent', -⟩ := writeText_spec htext
  have hsettles : (∀ file ∈ Sources.selected disk' c.content.fileExtension c.sourceRoots,
      disk.readBytes file.1 = .ok file.2) → write disk' c = (disk', .ok report) := fun hfiles =>
    write_again ((Sources.selected_eq_iff hextends hroot).mpr hfiles) hwrite
  refine ⟨⟨hextends.wellFormed hroot, hparent'⟩, hsettles, fun hparent hfiles => ?_⟩
  refine hsettles fun file hfile => ?_
  exact readBytes_of_not_output hparent htext (Sources.readBytes_of_mem_selected hfile)
    (hfiles file hfile)

/-- A directory with one file in it. -/
def project : Disk where
  root := .directory [("src".toList, .directory
    [("App.tsx".toList, .file (Text.utf8 "<i className=\"oo-gap_2 row\"/>".toList))])]
  current := []

/-- A configuration of the project with one range token. -/
def projectConfiguration (sourceDir outputFile : Path) (includeDirs : List Path) :
    Configuration where
  content :=
    { sourceDir := sourceDir
      fileExtension := "tsx".toList
      outputFile := outputFile
      includeDirs := includeDirs }
  options := {}
  theme := .ofNormal [.range "gap".toList "gap".toList (.ofRatio false 1 1)] (by decide +kernel)

theorem project_wellFormed : project.root.WellFormed := by
  decide

/-- The directory that is scanned for sources is made by the first build, which puts the stylesheet
there. The second build and every further one change nothing. -/
theorem write_settles_in_new_directory :
    let c := projectConfiguration ⟨"site".toList⟩ ⟨"css/out.css".toList⟩ [⟨"src".toList⟩]
    let built := (write project c).1
    let report : BuildReport := ⟨⟨"site/css/out.css".toList⟩, 2, 1, 1, 0⟩
    (project.root.WellFormed ∧ write project c = (built, .ok report) ∧
      ∀ file ∈ Sources.selected built c.content.fileExtension c.sourceRoots,
        project.readBytes file.1 = .ok file.2) ∧
    (built.root.WellFormed ∧ HasParent built c.outputPath ∧
      ∀ file ∈ Sources.selected built c.content.fileExtension c.sourceRoots,
        built.locate true file.1 ≠ built.locate true c.outputPath) ∧
    write built c = (built, .ok report) := by
  intro c built report
  have hwrite : write project c = (built, .ok report) := Prod.ext rfl (by decide +kernel)
  have hfiles : ∀ file ∈ Sources.selected built c.content.fileExtension c.sourceRoots,
      project.readBytes file.1 = .ok file.2 := by decide +kernel
  have hplaces : ∀ file ∈ Sources.selected built c.content.fileExtension c.sourceRoots,
      built.locate true file.1 ≠ built.locate true c.outputPath := by decide +kernel
  obtain ⟨⟨hroot, hparent⟩, hsettles, -⟩ :=
    write_settles project built c report project_wellFormed hwrite
  -- From the second build on the directory is there.
  obtain ⟨-, -, hsettles'⟩ := write_settles built built c report hroot (hsettles hfiles)
  exact ⟨⟨project_wellFormed, hwrite, hfiles⟩, ⟨hroot, hparent, hplaces⟩, hsettles' hparent hplaces⟩

/-- A second build reads what the first one wrote if that is among the sources, and it reads sources
to which only a directory that the first one made opens the way. -/
theorem write_not_settled :
    project.root.WellFormed ∧
    (let c := projectConfiguration ⟨"src".toList⟩ ⟨"App.tsx".toList⟩ []
     (write project c).2 = .ok ⟨⟨"src/App.tsx".toList⟩, 2, 1, 1, 0⟩ ∧
      (write (write project c).1 c).2 = .ok ⟨⟨"src/App.tsx".toList⟩, 0, 0, 0, 0⟩) ∧
    (let c := projectConfiguration ⟨"site".toList⟩ ⟨"out.css".toList⟩ [⟨"site/../src".toList⟩]
     (write project c).2 = .ok ⟨⟨"site/out.css".toList⟩, 0, 0, 0, 0⟩ ∧
      (write (write project c).1 c).2 = .ok ⟨⟨"site/out.css".toList⟩, 2, 1, 1, 0⟩) := by
  refine ⟨project_wellFormed, ⟨?_, ?_⟩, ⟨?_, ?_⟩⟩
  · decide +kernel
  · decide +kernel
  · decide +kernel
  · decide +kernel

end ClassSheet.Build

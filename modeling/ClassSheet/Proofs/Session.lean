import ClassSheet.Session
import ClassSheet.Proofs.Files.Frame
import ClassSheet.Proofs.Rebuild

/-!
# What a run changes

* `Session.run_look`, `Session.run_build`, `Session.run_say`: what the steps do.
* `Invocation.run_steps`: step by step a run comes to what `Invocation.run` says, and all that it
  writes to the output it writes after the last step that can fail.
* `Build.write_leaves`: what a successful build reports, and what it leaves on the disk.
* `Invocation.effects_of_run`: the runs of all commands.
-/

namespace ClassSheet

namespace Session

variable {s s' : Session} {ε α β : Type}

/-! ## The steps -/

theorem run_bind (x : Step α) (f : α → Step β) :
    (x >>= f).run s =
      match x.run s with
      | .ok a s' => (f a).run s'
      | .error e s' => .error e s' := by
  change EStateM.bind x f s = _
  unfold EStateM.bind EStateM.run
  cases x s <;> rfl

theorem run_get : EStateM.run get s = (.ok s s : EStateM.Result RunError Session Session) := rfl

theorem run_set : EStateM.run (set s') s = (.ok ⟨⟩ s' : EStateM.Result RunError Session PUnit) := rfl

theorem run_say (text : Text) :
    (say text).run s = .ok () { s with output := s.output ++ text } := rfl

theorem run_forM_say (texts : List Text) (f : Text → Text) :
    (texts.forM fun text => say (f text)).run s =
      .ok () { s with output := s.output ++ texts.flatMap f } := by
  induction texts generalizing s with
  | nil => simp
  | cons text texts ih =>
    change (texts.forM fun text => say (f text)).run { s with output := s.output ++ f text } = _
    rw [ih, List.flatMap_cons, List.append_assoc]

theorem run_look (failure : ε → RunError) (f : Disk → Except ε α) :
    (look failure f).run s =
      match f s.disk with
      | .ok a => .ok a s
      | .error e => .error (failure e) s := by
  simp only [look, run_bind, run_get]
  cases f s.disk <;> rfl

theorem run_build (c : Configuration) :
    (build c).run s =
      match Build.write s.disk c with
      | (disk, .ok report) => .ok report { s with disk }
      | (disk, .error e) => .error (.build e) { s with disk } := by
  simp only [build, run_bind, run_get, run_set]
  rcases Build.write s.disk c with ⟨disk, e | report⟩ <;> rfl

/-- What there is after the steps, whether they fail or not. -/
def after (x : Step α) (s : Session) : Session :=
  match x.run s with
  | .ok _ s' => s'
  | .error _ s' => s'

end Session

/-! ## Builds -/

/-- A successful build reports on the stylesheet that the disk held the classes of, and leaves its
text in the file of the output. -/
theorem Build.write_leaves {disk disk' : Disk} {c : Configuration} {report : BuildReport}
    (h : write disk c = (disk', .ok report)) :
    ∃ names sheet, classNames disk c = .ok names ∧ Build.sheet disk c = .ok sheet ∧
      css disk c = .ok sheet.css ∧
      report =
        ⟨c.outputPath, names.length, sheet.declarations, sheet.rules, sheet.skipped.length⟩ ∧
      writeText disk c.outputPath sheet.css = (disk', .ok ()) := by
  obtain ⟨names, hnames, rfl, hwrite⟩ := write_eq_ok_iff.mp h
  have hsheet : Build.sheet disk c = .ok (c.style.sheet names) := by
    rw [Build.sheet, hnames]
    rfl
  exact ⟨names, _, hnames, hsheet, by rw [css, hsheet]; rfl, rfl, hwrite⟩

namespace Invocation

open Session (run_bind run_look run_build run_say run_forM_say)

variable {disk : Disk} {c : Configuration} {s : Session} (i : Invocation)

/-- Step by step a run comes to the same. What was written to the output before stays in front, and
nothing is added to it if the run fails. -/
theorem run_steps (s : Session) :
    i.steps.run s =
      match (i.run s.disk).output with
      | .ok text => .ok () ⟨(i.run s.disk).disk, s.output ++ text⟩
      | .error e => .error e ⟨(i.run s.disk).disk, s.output⟩ := by
  unfold steps run
  rw [run_bind, run_look]
  cases Configuration.load s.disk i.config with
  | error e => rfl
  | ok c =>
    dsimp only
    unfold perform
    cases i.command with
    | build =>
      rw [run_bind, run_build]
      rcases Build.write s.disk c with ⟨disk, e | report⟩ <;> rfl
    | print =>
      rw [run_bind, run_look]
      cases Build.css s.disk c <;> rfl
    | classes =>
      rw [run_bind, run_look]
      cases Build.classNames s.disk c with
      | error e => rfl
      | ok names => exact run_forM_say names classLine

theorem after_steps (s : Session) : (Session.after i.steps s).disk = (i.run s.disk).disk := by
  unfold Session.after
  rw [run_steps]
  cases (i.run s.disk).output <;> rfl

theorem disk_run_of_not_build (h : i.command ≠ .build) : (i.run disk).disk = disk := by
  unfold run
  cases Configuration.load disk i.config with
  | error e => rfl
  | ok c =>
    dsimp only
    unfold perform
    cases hcommand : i.command with
    | build => exact absurd hcommand h
    | print => dsimp only; split <;> rfl
    | classes => dsimp only; split <;> rfl

/-- A build that succeeds is one for the configuration that was loaded. -/
theorem exists_write_of_run_build (hcommand : i.command = .build) {text : Text}
    (h : (i.run disk).output = .ok text) :
    ∃ c report, Configuration.load disk i.config = .ok c ∧ text = reportLine report ∧
      Build.write disk c = ((i.run disk).disk, .ok report) := by
  unfold run at h ⊢
  cases hload : Configuration.load disk i.config with
  | error e =>
    rw [hload] at h
    cases h
  | ok c =>
    rw [hload] at h
    simp only [perform, hcommand] at h ⊢
    rcases hwrite : Build.write disk c with ⟨disk', e | report⟩
    · rw [hwrite] at h
      cases h
    · rw [hwrite] at h
      cases h
      exact ⟨c, report, rfl, rfl, hwrite⟩

/-- Without a configuration, or without the class names of the sources, every command fails and
leaves all as it was. -/
theorem run_steps_of_unreadable (disk : Disk) (out : Text) :
    (∀ e, Configuration.load disk i.config = .error e →
      i.steps.run ⟨disk, out⟩ = .error (.loading i.config e) ⟨disk, out⟩) ∧
    (∀ c e, Configuration.load disk i.config = .ok c → Build.classNames disk c = .error e →
      i.steps.run ⟨disk, out⟩ = .error (.build (.source e)) ⟨disk, out⟩) := by
  constructor
  · intro e hload
    have hrun : i.run disk = ⟨.error (.loading i.config e), disk⟩ := by rw [run, hload]
    rw [run_steps]
    simp only [hrun]
  · intro c e hload hnames
    have hrun : i.run disk = ⟨.error (.build (.source e)), disk⟩ := by
      rw [run, hload]
      dsimp only
      unfold perform
      cases i.command with
      | build => simp only [Build.write, hnames]
      | print =>
        have hcss : Build.css disk c = .error e := by
          rw [Build.css, Build.sheet, hnames]
          rfl
        simp only [hcss]
      | classes => simp only [hnames]
    rw [run_steps]
    simp only [hrun]

/-- A run that fails has written nothing to the output. To print the stylesheet or the classes changes
nothing on the disk, and a build changes nothing if the configuration cannot be loaded or the sources
cannot be read. A build that succeeds leaves the text of the stylesheet in the file of the output, as it
is made from the disk before the run; besides, only missing directories above that file are made, and
all other files hold what they held. Its report has the counts of that stylesheet and of the class names,
and the line about it is written to the output. -/
theorem effects_of_run (i : Invocation) (disk : Disk) (out : Text) :
    (∀ e s, i.steps.run ⟨disk, out⟩ = .error e s → s.output = out) ∧
    (i.command = .print ∨ i.command = .classes →
      (Session.after i.steps ⟨disk, out⟩).disk = disk) ∧
    (∀ e, Configuration.load disk i.config = .error e →
      i.steps.run ⟨disk, out⟩ = .error (.loading i.config e) ⟨disk, out⟩) ∧
    (∀ c e, Configuration.load disk i.config = .ok c → Build.classNames disk c = .error e →
      i.steps.run ⟨disk, out⟩ = .error (.build (.source e)) ⟨disk, out⟩) ∧
    (∀ s, i.command = .build → i.steps.run ⟨disk, out⟩ = .ok () s →
      ∃ c names sheet report, Configuration.load disk i.config = .ok c ∧
        Build.classNames disk c = .ok names ∧ Build.sheet disk c = .ok sheet ∧
        Build.css disk c = .ok sheet.css ∧ Build.write disk c = (s.disk, .ok report) ∧
        report =
          ⟨c.outputPath, names.length, sheet.declarations, sheet.rules, sheet.skipped.length⟩ ∧
        s.output = out ++ reportLine report ∧
        s.disk.readBytes c.outputPath = .ok sheet.css.utf8 ∧
        Build.Leaves disk s.disk c.outputPath sheet.css.utf8 ∧
        ∀ p bytes, disk.readBytes p = .ok bytes →
          s.disk.locate true p ≠ s.disk.locate true c.outputPath →
          s.disk.readBytes p = .ok bytes) := by
  obtain ⟨hload, hnames⟩ := run_steps_of_unreadable i disk out
  refine ⟨?_, ?_, hload, hnames, ?_⟩
  · intro e s h
    rw [run_steps] at h
    split at h <;> cases h
    rfl
  · intro hcommand
    rw [after_steps]
    refine disk_run_of_not_build i fun hbuild => ?_
    rw [hbuild] at hcommand
    rcases hcommand with h | h <;> cases h
  · intro s hcommand h
    rw [run_steps] at h
    split at h
    · rename_i text htext
      cases h
      obtain ⟨c, report, hc, rfl, hwrite⟩ := exists_write_of_run_build i hcommand htext
      obtain ⟨names, sheet, hnames, hsheet, hcss, hreport, htext'⟩ := Build.write_leaves hwrite
      obtain ⟨-, x, hfind, -⟩ := Build.writeText_leaves htext'
      exact ⟨c, names, sheet, report, hc, hnames, hsheet, hcss, hwrite, hreport, rfl,
        Disk.readBytes_eq_ok_iff.mpr ⟨x, hfind⟩, Build.writeText_leaves htext',
        fun p bytes hread hp => Build.writeText_readBytes htext' hread hp⟩
    · cases h

/-- A directory with a configuration and a source file, the directory of the output not being there
yet. -/
def configured : Disk where
  root := .directory
    [("app".toList, .directory
      [("BlackSquareUI.json".toList, .file (Text.utf8
        ("\x7b\"content\": \x7b\"sourceDir\": \"src\", \"fileExtension\": \"tsx\", " ++
          "\"outputFile\": \"css/out.css\"\x7d, \"props\": []\x7d").toList)),
       ("src".toList, .directory
        [("App.tsx".toList, .file (Text.utf8 "<i class=\"ee-gap_2 row\"/>".toList))])])]
  current := ["app".toList]

theorem output_configured :
    (run {} configured).output =
      .ok "Wrote src/css/out.css (2 classes, 1 rules, 0 skipped)\n".toList := by
  decide +kernel

theorem load_configured_elsewhere :
    Configuration.load { configured with current := [] } Configuration.defaultPath =
      .error (.notFound Configuration.defaultPath) := by
  have hnone : Disk.contains { configured with current := [] } Configuration.defaultPath = false := by
    decide +kernel
  rw [Configuration.load, hnone]
  rfl

/-- The build makes the directory and leaves the source file alone. From another directory, where there
is no configuration, nothing is changed or written. -/
theorem effects_of_run_configured :
    (∃ s, (steps {}).run ⟨configured, "> ".toList⟩ = .ok () s ∧
      ∃ c sheet report, Configuration.load configured Configuration.defaultPath = .ok c ∧
        Build.sheet configured c = .ok sheet ∧
        Build.write configured c = (s.disk, .ok report) ∧
        report.declarations = sheet.declarations ∧
        s.disk.readBytes c.outputPath = .ok sheet.css.utf8 ∧
        Build.Leaves configured s.disk c.outputPath sheet.css.utf8) ∧
    (steps {}).run ⟨{ configured with current := [] }, "> ".toList⟩ =
      .error (.loading Configuration.defaultPath (.notFound Configuration.defaultPath))
        ⟨{ configured with current := [] }, "> ".toList⟩ := by
  constructor
  · obtain ⟨-, -, -, -, hbuild⟩ := effects_of_run {} configured "> ".toList
    have hok : ∃ s, (steps {}).run ⟨configured, "> ".toList⟩ = .ok () s := by
      rw [run_steps, output_configured]
      exact ⟨_, rfl⟩
    obtain ⟨s, hs⟩ := hok
    obtain ⟨c, names, sheet, _, hc, -, hsheet, -, hwrite, rfl, -, hread, hleaves, -⟩ :=
      hbuild s rfl hs
    exact ⟨s, hs, c, sheet, _, hc, hsheet, hwrite, rfl, hread, hleaves⟩
  · obtain ⟨-, -, hload, -⟩ :=
      effects_of_run {} { configured with current := [] } "> ".toList
    exact hload _ load_configured_elsewhere

end Invocation

end ClassSheet

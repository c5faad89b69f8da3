import ClassSheet.Proofs.Files.Entered
import ClassSheet.Proofs.Files.Turns
import ClassSheet.Proofs.Session

/-!
# Runs from another directory

A configuration is loaded along a path to it, or by its bare name from inside the directory where it
is. Its source directories are taken from that directory in either case.

* `Walk.visit_join`, `Sources.read_join`: what is read from outside and from inside.
* `Configuration.load_outside`, `Configuration.load_inside`: the configuration that is loaded.
* `Build.classNames_join`, `Build.write_join`: what is built from it.
* `Invocation.run_from_outside`: the runs of all commands.
-/

namespace ClassSheet

open Node

variable {disk disk' : Disk} {base path q : Path}

/-! ## What is read -/

namespace Walk

/-- The step as it is met from outside, behind a directory. -/
def Step.behind (base : Path) : Step → Step
  | .file path bytes => .file (base.join path) bytes
  | .passed path => .passed (base.join path)

theorem passedLinks_join {entries : List (Bytes × Node)} (hpath : path.bytes ≠ [])
    (hsame : ∀ entry ∈ entries, disk.isDirectory (base.join (path.join ⟨entry.1⟩)) =
      disk'.isDirectory (path.join ⟨entry.1⟩)) :
    passedLinks disk (base.join path) entries =
      (passedLinks disk' path entries).map (Step.behind base) := by
  rw [passedLinks, passedLinks, List.map_filterMap]
  refine List.filterMap_congr fun entry hentry => ?_
  split
  · dsimp only
    rw [Path.join_join hpath, hsame entry hentry]
    split <;> rfl
  · rfl

/-- Where the same is found from outside and from inside, a walk meets the same. -/
theorem visit_join {node : Node} (hnode : node.WellFormed) (hpath : path.bytes ≠ [])
    (hsame : ∀ names, (node.at? names).isSome →
      disk.find? (base.join (path.below names)) = disk'.find? (path.below names)) :
    visit disk (base.join path) node = (visit disk' path node).map (Step.behind base) := by
  have hself : disk.find? (base.join path) = disk'.find? path := hsame [] (by simp)
  induction node using Node.induct generalizing path with
  | leaf node hleaf =>
    rw [visit.eq_2 _ _ _ hleaf, visit.eq_2 _ _ _ hleaf, hself]
    split <;> rfl
  | directory entries ih =>
    obtain ⟨hnodup, hall⟩ := wellFormed_directory_iff.mp hnode
    have hbelow (entry : Bytes × Node) (hentry : entry ∈ entries) (names : Address)
        (h : (entry.2.at? names).isSome) :
        disk.find? (base.join ((path.join ⟨entry.1⟩).below names)) =
          disk'.find? ((path.join ⟨entry.1⟩).below names) := by
      refine hsame (entry.1 :: names) ?_
      rw [at?_directory_cons, lookup_of_mem hnodup hentry]
      exact h
    have hchild (entry : Bytes × Node) (hentry : entry ∈ entries) :
        disk.find? (base.join (path.join ⟨entry.1⟩)) = disk'.find? (path.join ⟨entry.1⟩) :=
      hbelow entry hentry [] (by simp)
    have hvisit : (entries.map fun entry =>
          (entry.1, visit disk ((base.join path).join ⟨entry.1⟩) entry.2)) =
        (entries.map fun entry => (entry.1, visit disk' (path.join ⟨entry.1⟩) entry.2)).map
          fun entry => (entry.1, entry.2.map (Step.behind base)) := by
      rw [List.map_map]
      refine List.map_congr_left fun entry hentry => ?_
      obtain ⟨hname, hwf⟩ := hall entry hentry
      rw [Path.join_join hpath, ih entry hentry hwf (Path.bytes_join_name_ne_nil hname)
        (hbelow entry hentry) (hchild entry hentry)]
      rfl
    rw [visit, visit, Disk.isDirectory_of_find?_eq hself]
    split
    · rw [List.map_append, passedLinks_join hpath fun entry hentry =>
        Disk.isDirectory_of_find?_eq (hchild entry hentry), visitEntries_eq_map,
        visitEntries_eq_map, hvisit]
      have hsorted (l : List (Bytes × List Step)) :
          ((l.map fun entry => (entry.1, entry.2.map (Step.behind base))).mergeSort
            entryLe).flatMap (·.2) =
          (l.mergeSort entryLe).flatMap fun entry => entry.2.map (Step.behind base) := by
        rw [← map_mergeSort_entryLe, List.flatMap_map]
      rw [List.map_flatMap]
      exact congrArg _ (hsorted _)
    · rfl

/-- What a walk meets as a file is one. -/
theorem isFile_of_mem_walk {bytes : ByteArray} (hroot : disk.root.WellFormed)
    (h : Step.file path bytes ∈ disk.walk q) : disk.isFile path := by
  have hmem : path ∈ disk.filesBelow q := List.mem_filterMap.mpr ⟨_, h, rfl⟩
  obtain ⟨nss, hfiles, -, hnames⟩ := exists_names_below hroot q
  rw [hfiles] at hmem
  obtain ⟨names, hname, rfl⟩ := List.mem_map.mp hmem
  exact ((hnames names).mp hname).2

theorem walk_join (hroot : disk'.root.WellFormed) (hq : q.bytes ≠ [])
    (hself : disk.find? (base.join q) = disk'.find? q)
    (hsame : ∀ names, Reaches disk' q names →
      disk.find? (base.join (q.below names)) = disk'.find? (q.below names)) :
    disk.walk (base.join q) = (disk'.walk q).map (Step.behind base) := by
  rw [Disk.walk, Disk.walk, hself]
  cases hfind : disk'.find? q with
  | none => rfl
  | some found =>
    obtain ⟨x, node⟩ := found
    exact visit_join (hroot.at? (Disk.find?_eq_some_iff.mp hfind).2) hq fun names h =>
      hsame names ⟨x, node, hfind, h⟩

end Walk

/-- A path that leads to a file has a part that is not idle. -/
theorem Disk.exists_not_isIdle_of_isFile (h : disk.isFile path) :
    ∃ part ∈ path.parts, ¬Path.isIdle part := by
  by_contra hidle
  push Not at hidle
  obtain ⟨x, bytes, hfind⟩ := Disk.isFile_iff.mp h
  obtain ⟨hlocate, hat⟩ := Disk.find?_eq_some_iff.mp hfind
  obtain ⟨-, hleads⟩ := Disk.locate_eq_ok_iff.mp hlocate
  obtain ⟨entries, hdir⟩ := hleads.exists_directory_of_idle hidle path.parts_ne_nil
  rw [hat] at hdir
  cases hdir

namespace SourceError

/-- The error as it is met from outside, behind a directory. -/
def behind (base : Path) : SourceError → SourceError
  | .unreadable path cause => .unreadable (base.join path) cause

end SourceError

namespace Sources

open Walk (Step Reaches)

variable {start : Path.Start} {parts : List Bytes} {a : Address} {entries : List (Bytes × Node)}

theorem stepText_behind (hbase : base.IsBase start parts) (extension : Text) (step : Step)
    (hfile : ∀ path bytes, step = .file path bytes → ∃ part ∈ path.parts, ¬Path.isIdle part) :
    stepText extension (step.behind base) =
      (stepText extension step).mapError (SourceError.behind base) := by
  cases step with
  | passed path => rfl
  | file path bytes =>
    rw [Step.behind, stepText, stepText, hbase.hasExtension_join (hfile path bytes rfl)]
    split
    · split <;> rfl
    · rfl

theorem joinSteps_behind (hbase : base.IsBase start parts) (extension : Text) {steps : List Step}
    (hfile : ∀ path bytes, .file path bytes ∈ steps → ∃ part ∈ path.parts, ¬Path.isIdle part) :
    joinSteps extension (steps.map (Step.behind base)) =
      (joinSteps extension steps).mapError (SourceError.behind base) := by
  induction steps with
  | nil => rfl
  | cons step steps ih =>
    have hstep := stepText_behind hbase extension step
      fun path bytes h => hfile path bytes (h ▸ List.mem_cons_self)
    have hrest := ih fun path bytes h => hfile path bytes (List.mem_cons_of_mem _ h)
    rw [List.map_cons, joinSteps, joinSteps, hstep, hrest]
    cases stepText extension step with
    | error e => rfl
    | ok text => cases joinSteps extension steps <;> rfl

/-- What is found from inside is not refused from outside. -/
def WithinLimits (disk : Disk) (base : Path) (a : Address) (q : Path) : Prop :=
  ∀ names, Reaches (disk.enter a) q names → (disk.enter a).contains (q.below names) →
    ¬disk.Refuses (base.join (q.below names))

variable {disk : Disk}

theorem find?_join_below (hbase : base.IsBase start parts)
    (hfind : disk.find? base = some (a, .directory entries)) (hroot : disk.root.WellFormed)
    (hq : q.bytes ≠ []) (hlimits : WithinLimits disk base a q) {names : Address}
    (hnames : Reaches (disk.enter a) q names) :
    disk.find? (base.join (q.below names)) = (disk.enter a).find? (q.below names) := by
  refine Disk.find?_join_eq hbase hfind ?_ (hlimits names hnames)
  by_cases hne : names = []
  · rwa [hne]
  · have hroot' : (disk.enter a).root.WellFormed := hroot
    rw [Path.bytes_below (hnames.isName hroot') hne]
    exact List.append_ne_nil_of_left_ne_nil (Path.lead_ne_nil hq) _

/-- The text that a root is read to is the same from outside and from inside, and so are the errors,
but for their paths. -/
theorem read_join (hbase : base.IsBase start parts)
    (hfind : disk.find? base = some (a, .directory entries)) (hroot : disk.root.WellFormed)
    (hq : q.bytes ≠ []) (hlimits : WithinLimits disk base a q) (extension : Text) :
    read disk (base.join q) extension =
      (read (disk.enter a) q extension).mapError (SourceError.behind base) := by
  have hself : disk.find? (base.join q) = (disk.enter a).find? q := by
    refine Disk.find?_join_eq hbase hfind hq fun hcontains => ?_
    obtain ⟨⟨x, node⟩, hnode⟩ := Option.isSome_iff_exists.mp hcontains
    exact hlimits [] ⟨x, node, hnode, by simp⟩ hcontains
  have hroot' : (disk.enter a).root.WellFormed := hroot
  have hwalk := Walk.walk_join hroot' hq hself fun names hnames =>
    find?_join_below hbase hfind hroot hq hlimits hnames
  rw [read, read, Disk.contains, Disk.contains, hself]
  split
  · rw [hwalk]
    exact joinSteps_behind hbase extension fun path bytes h =>
      Disk.exists_not_isIdle_of_isFile (Walk.isFile_of_mem_walk hroot' h)
  · rfl

theorem collect_join (hbase : base.IsBase start parts)
    (hfind : disk.find? base = some (a, .directory entries)) (hroot : disk.root.WellFormed)
    (extension : Text) {roots : List Path} (hroots : ∀ q ∈ roots, q.bytes ≠ [])
    (hlimits : ∀ q ∈ roots, WithinLimits disk base a q) :
    collect disk extension (roots.map base.join) =
      (collect (disk.enter a) extension roots).mapError (SourceError.behind base) := by
  induction roots with
  | nil => rfl
  | cons q roots ih =>
    obtain ⟨hq, hrest⟩ := List.forall_mem_cons.mp hroots
    obtain ⟨hlimit, hlimits⟩ := List.forall_mem_cons.mp hlimits
    rw [List.map_cons, collect, collect, read_join hbase hfind hroot hq hlimit, ih hrest hlimits]
    cases read (disk.enter a) q extension with
    | error e => rfl
    | ok text => cases collect (disk.enter a) extension roots <;> rfl

end Sources

/-! ## What is loaded -/

namespace Configuration

variable {disk : Disk} {d base path path' : Path} {f : Bytes} {a : Address}
  {entries : List (Bytes × Node)} {s : Text} {c : Configuration}

/-- Only messages call the text by its path. -/
theorem ofJson_eq_ok (h : ofJson path s = .ok c) (path' : Path) : ofJson path' s = .ok c := by
  unfold ofJson at h ⊢
  cases hread : Json.readDocument Format.sections.read s with
  | error cause =>
    rw [hread] at h
    cases h
  | ok sections =>
    rw [hread] at h
    exact h

theorem load_eq (hread : disk.readText path = .ok s) (hc : ofJson path' s = .ok c) :
    load disk path = .ok (c.relativeToFile path) := by
  obtain ⟨bytes, hbytes, -⟩ := Disk.readText_eq_ok_iff.mp hread
  have hcontains := Disk.contains_of_readBytes hbytes
  have hparsed := ofJson_eq_ok hc path
  simp only [load, hcontains, hread, hparsed]
  rfl

/-- The path above a configuration names the directory that it is in. -/
theorem exists_isBase (hd : ¬d.isAbsolute) (hfind : disk.find? d = some (a, .directory entries))
    (hf : IsName f) (hbase : (d.join ⟨f⟩).parent? = some base) :
    (∃ start parts, base.IsBase start parts) ∧ disk.find? base = some (a, .directory entries) := by
  obtain ⟨base', start, parts, idles, hparent, h, hparts, hidle⟩ :=
    Path.exists_isBase_of_join (Disk.bytes_ne_nil_of_find? hfind) hd hf
  rw [hbase, Option.some.injEq] at hparent
  subst hparent
  exact ⟨⟨start, parts, h⟩, Disk.find?_of_parts_append h hd hfind hparts hidle⟩

theorem load_outside (hread : disk.readText (d.join ⟨f⟩) = .ok s) (hc : ofJson ⟨f⟩ s = .ok c)
    (hbase : (d.join ⟨f⟩).parent? = some base) (hne : base.bytes ≠ []) :
    load disk (d.join ⟨f⟩) = .ok (c.relativeTo base) := by
  rw [load_eq hread hc, relativeToFile, hbase]
  exact congrArg Except.ok (if_neg hne)

/-- From inside the configuration stays as it is written. -/
theorem load_inside (hfind : disk.find? d = some (a, .directory entries)) (hf : IsName f)
    (hread : disk.readText (d.join ⟨f⟩) = .ok s) (hc : ofJson ⟨f⟩ s = .ok c) :
    load (disk.enter a) ⟨f⟩ = .ok c := by
  obtain ⟨bytes, hbytes, hdecode⟩ := Disk.readText_eq_ok_iff.mp hread
  have hinside : (disk.enter a).readText ⟨f⟩ = .ok s :=
    Disk.readText_eq_ok_iff.mpr ⟨bytes, Disk.readBytes_inside hfind hf hbytes, hdecode⟩
  have hparent : (⟨f⟩ : Path).parent? = some ⟨[]⟩ := by
    have hparts : (⟨f⟩ : Path).HasParts .none [f] :=
      ⟨List.splitOn_eq_singleton hf.2.2, nofun, fun _ => ⟨f, [], rfl, hf.1⟩⟩
    have htrim : Path.trimEnd ([] ++ [f]) = [] ++ [f] := Path.trimEnd_concat hf.1
    rw [List.nil_append] at htrim
    rw [hparts.parent?_eq (by simp [htrim]), htrim]
    rfl
  rw [load_eq hinside hc, relativeToFile, hparent]
  rfl

end Configuration

/-! ## What is built -/

/-- The error as it is met from outside, behind a directory. -/
def BuildError.behind (base : Path) : BuildError → BuildError
  | .source e => .source (e.behind base)
  | .unwritable path cause => .unwritable (base.join path) cause

/-- The report as it is made from outside, behind a directory. -/
def BuildReport.behind (base : Path) (report : BuildReport) : BuildReport :=
  { report with output := base.join report.output }

namespace Build

open Sources (WithinLimits)

variable {disk : Disk} {base : Path} {a : Address} {entries : List (Bytes × Node)}
  {start : Path.Start} {parts : List Bytes} {c : Configuration}

theorem classNames_join (hbase : base.IsBase start parts)
    (hfind : disk.find? base = some (a, .directory entries)) (hroot : disk.root.WellFormed)
    (hroots : ∀ q ∈ c.sourceRoots, q.bytes ≠ [])
    (hlimits : ∀ q ∈ c.sourceRoots, WithinLimits disk base a q) :
    classNames disk (c.relativeTo base) =
      (classNames (disk.enter a) c).mapError (SourceError.behind base) := by
  have hcollect := Sources.collect_join hbase hfind hroot c.content.fileExtension hroots hlimits
  have hjoined : (c.relativeTo base).sourceRoots = c.sourceRoots.map base.join := rfl
  rw [classNames, classNames, hjoined]
  refine (congrArg (Except.map Markup.classNames) hcollect).trans ?_
  cases Sources.collect (disk.enter a) c.content.fileExtension c.sourceRoots <;> rfl

theorem sheet_join (h : classNames disk (c.relativeTo base) =
      (classNames (disk.enter a) c).mapError (SourceError.behind base)) :
    sheet disk (c.relativeTo base) =
      (sheet (disk.enter a) c).mapError (SourceError.behind base) := by
  rw [sheet, sheet, h]
  cases classNames (disk.enter a) c <;> rfl

theorem css_join (h : sheet disk (c.relativeTo base) =
      (sheet (disk.enter a) c).mapError (SourceError.behind base)) :
    css disk (c.relativeTo base) = (css (disk.enter a) c).mapError (SourceError.behind base) := by
  rw [css, css, h]
  cases sheet (disk.enter a) c <;> rfl

theorem outputPath_relativeTo (h : c.content.sourceDir.bytes ≠ []) :
    (c.relativeTo base).outputPath = base.join c.outputPath :=
  Path.join_join h c.content.outputFile

theorem outputPath_ne_nil (h : c.content.sourceDir.bytes ≠ []) : c.outputPath.bytes ≠ [] := by
  rw [Configuration.outputPath]
  by_cases habsolute : c.content.outputFile.isAbsolute
  · rw [Path.join_of_isAbsolute habsolute]
    intro hnil
    rw [Path.isAbsolute, hnil] at habsolute
    cases habsolute
  · rw [Path.bytes_join habsolute]
    exact List.append_ne_nil_of_left_ne_nil (Path.lead_ne_nil h) _

/-- A build does the same from outside and from inside, with the same report but for the path of the
output, unless the output, or what is above it, is refused. -/
theorem write_join (hbase : base.IsBase start parts)
    (hfind : disk.find? base = some (a, .directory entries))
    (hsource : c.content.sourceDir.bytes ≠ [])
    (hnames : classNames disk (c.relativeTo base) =
      (classNames (disk.enter a) c).mapError (SourceError.behind base)) :
    (∃ e p, (write disk (c.relativeTo base)).2 = .error e ∧
      (p = (c.relativeTo base).outputPath ∨ p.IsAbove (c.relativeTo base).outputPath) ∧
      (write disk (c.relativeTo base)).1.Refuses p) ∨
    ((write (disk.enter a) c).1 = (write disk (c.relativeTo base)).1.enter a ∧
      (write disk (c.relativeTo base)).2 =
        ((write (disk.enter a) c).2.mapError (BuildError.behind base)).map
          (BuildReport.behind base)) := by
  have hstyle : (c.relativeTo base).style = c.style := rfl
  rw [write, write, hnames, hstyle, outputPath_relativeTo hsource]
  cases classNames (disk.enter a) c with
  | error e => exact .inr ⟨rfl, rfl⟩
  | ok names =>
    dsimp only [Except.mapError]
    have hmade := writeText_join hbase hfind (outputPath_ne_nil hsource) (c.style.sheet names).css
    rcases hwrite : writeText disk (base.join c.outputPath) (c.style.sheet names).css with
      ⟨disk', result⟩
    rw [hwrite] at hmade
    rcases hmade with ⟨e, p, rfl, hp, hrefuses⟩ | hsame
    · exact .inl ⟨_, p, rfl, hp, hrefuses⟩
    · rw [hsame]
      cases result with
      | error e => exact .inr ⟨rfl, rfl⟩
      | ok _ => exact .inr ⟨rfl, rfl⟩

end Build

/-! ## Runs -/

namespace Invocation

open Sources (WithinLimits)

variable {disk : Disk} {base : Path} {a : Address} {entries : List (Bytes × Node)} {c c' : Configuration}
  {start : Path.Start} {parts : List Bytes} {i i' : Invocation}

theorem run_of_load (h : Configuration.load disk i.config = .ok c) :
    i.run disk = perform disk c i.command := by
  rw [run, h]

theorem perform_eq_ok_of_reading {command : Command} {text : Text}
    (hcommand : command = .print ∨ command = .classes)
    (hnames : Build.classNames disk c' =
      (Build.classNames (disk.enter a) c).mapError (SourceError.behind base))
    (hcss : Build.css disk c' = (Build.css (disk.enter a) c).mapError (SourceError.behind base)) :
    (perform disk c' command).output = .ok text ↔
      (perform (disk.enter a) c command).output = .ok text := by
  rcases hcommand with rfl | rfl
  · rw [perform, perform, hcss]
    cases Build.css (disk.enter a) c with
    | error e => constructor <;> (intro h; cases h)
    | ok css => rfl
  · rw [perform, perform, hnames]
    cases Build.classNames (disk.enter a) c with
    | error e => constructor <;> (intro h; cases h)
    | ok names => rfl

/-- What a successful build has written is found from outside and from inside, in the same place. -/
theorem find?_output (hbase : base.IsBase start parts)
    (hfind : disk.find? base = some (a, .directory entries))
    (hsource : c.content.sourceDir.bytes ≠ [])
    {disk' : Disk} {report : BuildReport}
    (h : Build.write disk (c.relativeTo base) = (disk', .ok report)) :
    ∃ x css, Build.css disk (c.relativeTo base) = .ok css ∧
      disk'.find? (c.relativeTo base).outputPath = some (x, .file css.utf8) ∧
      (disk'.enter a).find? c.outputPath = some (x, .file css.utf8) := by
  obtain ⟨-, sheet, -, -, hcss, -, hwrite⟩ := Build.write_leaves h
  obtain ⟨hextends, -, x, houtput⟩ := Build.writeText_spec hwrite
  obtain ⟨entries', hfind'⟩ := hextends.find?_directory hfind
  refine ⟨x, sheet.css, hcss, houtput, ?_⟩
  rw [Build.outputPath_relativeTo hsource] at houtput
  rw [← Disk.find?_join_eq hbase hfind' (Build.outputPath_ne_nil hsource) fun _ hrefuses => ?_]
  · exact houtput
  · rw [Disk.find?_of_refuses hrefuses] at houtput
    cases houtput

/-- A configuration is loaded from the directory `d`, or by its bare name from inside. If none of its
source directories is the empty path, and the system refuses none of what is found from inside, then
both runs read the same class names and the same stylesheet, and fail with the same errors but for
their paths. A build from outside fails where its output, or what is above it, is refused; or else both
builds leave the same tree behind, with the same file for their output. -/
theorem run_from_outside (disk : Disk) (hroot : disk.root.WellFormed) {d base : Path} {f : Bytes}
    {a : Address} {entries : List (Bytes × Node)} {s : Text} {c : Configuration}
    (hd : ¬d.isAbsolute) (hfind : disk.find? d = some (a, .directory entries)) (hf : IsName f)
    (hread : disk.readText (d.join ⟨f⟩) = .ok s) (hc : Configuration.ofJson ⟨f⟩ s = .ok c)
    (hbase : (d.join ⟨f⟩).parent? = some base) (hroots : ∀ q ∈ c.sourceRoots, q.bytes ≠ [])
    (hlimits : ∀ q ∈ c.sourceRoots, WithinLimits disk base a q) :
    (Configuration.load disk (d.join ⟨f⟩) = .ok (c.relativeTo base) ∧
      Configuration.load (disk.enter a) ⟨f⟩ = .ok c) ∧
    (Build.classNames disk (c.relativeTo base) =
        (Build.classNames (disk.enter a) c).mapError (SourceError.behind base) ∧
      Build.sheet disk (c.relativeTo base) =
        (Build.sheet (disk.enter a) c).mapError (SourceError.behind base)) ∧
    ∀ i : Invocation, i.config = d.join ⟨f⟩ →
      let outside := i.run disk
      let inside := Invocation.run { i with config := ⟨f⟩ } (disk.enter a)
      (i.command = .print ∨ i.command = .classes →
        ∀ text, outside.output = .ok text ↔ inside.output = .ok text) ∧
      (i.command = .build →
        (∃ e p, outside.output = .error e ∧
          (p = (c.relativeTo base).outputPath ∨ p.IsAbove (c.relativeTo base).outputPath) ∧
          outside.disk.Refuses p) ∨
        inside.disk = outside.disk.enter a ∧
          ((∃ e, outside.output = .error e) ∧ (∃ e, inside.output = .error e) ∨
            ∃ report x css, inside.output = .ok (reportLine report) ∧
              outside.output = .ok (reportLine (report.behind base)) ∧
              Build.css (disk.enter a) c = .ok css ∧
              outside.disk.find? (c.relativeTo base).outputPath = some (x, .file css.utf8) ∧
              inside.disk.find? c.outputPath = some (x, .file css.utf8))) := by
  obtain ⟨⟨start, parts, hisBase⟩, hfind'⟩ := Configuration.exists_isBase hd hfind hf hbase
  have hload := Configuration.load_outside hread hc hbase hisBase.bytes_ne_nil
  have hload' := Configuration.load_inside hfind hf hread hc
  have hnames := Build.classNames_join hisBase hfind' hroot hroots hlimits
  have hsheet := Build.sheet_join hnames
  have hcss := Build.css_join hsheet
  have hsource := hroots c.content.sourceDir List.mem_cons_self
  refine ⟨⟨hload, hload'⟩, ⟨hnames, hsheet⟩, fun i hi => ?_⟩
  have houtside : i.run disk = perform disk (c.relativeTo base) i.command :=
    run_of_load (by rw [hi, hload])
  have hinside : Invocation.run { i with config := ⟨f⟩ } (disk.enter a) =
      perform (disk.enter a) c i.command :=
    run_of_load (i := { i with config := ⟨f⟩ }) hload'
  rw [houtside, hinside]
  refine ⟨fun hcommand text => perform_eq_ok_of_reading hcommand hnames hcss, fun hcommand => ?_⟩
  rw [hcommand, perform, perform]
  have hwrite := Build.write_join hisBase hfind' hsource hnames
  rcases hwritten : Build.write disk (c.relativeTo base) with ⟨disk', result⟩
  rcases hwritten' : Build.write (disk.enter a) c with ⟨disk'', result'⟩
  rw [hwritten, hwritten'] at hwrite
  dsimp only at hwrite
  rcases hwrite with ⟨e, p, rfl, hp, hrefuses⟩ | ⟨rfl, rfl⟩
  · exact .inl ⟨.build e, p, rfl, hp, hrefuses⟩
  · cases result' with
    | error e => exact .inr ⟨rfl, .inl ⟨⟨_, rfl⟩, _, rfl⟩⟩
    | ok report =>
      obtain ⟨x, css, hwrote, hout, hin⟩ := find?_output hisBase hfind' hsource hwritten
      have hsame : Build.css (disk.enter a) c = .ok css := by
        rw [hcss] at hwrote
        cases hinner : Build.css (disk.enter a) c with
        | error e =>
          rw [hinner] at hwrote
          cases hwrote
        | ok css' =>
          rw [hinner] at hwrote
          exact hwrote
      exact .inr ⟨rfl, .inr ⟨report, x, css, rfl, rfl, hsame, hout, hin⟩⟩

/-- The disk with a configuration, outside its directory. -/
def configuredOutside : Disk := { configured with current := [] }

theorem configuredOutside_wellFormed : configuredOutside.root.WellFormed := by
  decide

theorem content_configuredOutside :
    ((configuredOutside.readText ⟨"app/BlackSquareUI.json".toList⟩).toOption.bind fun s =>
        (Configuration.ofJson ⟨"BlackSquareUI.json".toList⟩ s).toOption).map (·.content) =
      some ⟨⟨"src".toList⟩, "tsx".toList, ⟨"css/out.css".toList⟩, []⟩ := by
  decide +kernel

theorem withinLimits_configuredOutside :
    WithinLimits configuredOutside ⟨"app".toList⟩ ["app".toList] ⟨"src".toList⟩ := by
  rintro names ⟨x, node, hfind, hat⟩ -
  have hsrc : (configuredOutside.enter ["app".toList]).find? ⟨"src".toList⟩ =
      some ((["app".toList, "src".toList] : Address), .directory
        [("App.tsx".toList, .file (Text.utf8 "<i class=\"ee-gap_2 row\"/>".toList))]) :=
    Disk.find?_eq_some_iff.mpr ⟨by decide +kernel, rfl⟩
  rw [hsrc] at hfind
  cases hfind
  cases names with
  | nil => decide +kernel
  | cons name names =>
    rw [at?_directory_cons, lookup_cons_eq] at hat
    split at hat
    · rename_i hname
      cases names with
      | nil =>
        rw [hname]
        decide +kernel
      | cons next names => cases hat
    · cases hat

theorem output_configuredOutside :
    (run { config := ⟨"app/BlackSquareUI.json".toList⟩ } configuredOutside).output =
      .ok "Wrote app/src/css/out.css (2 classes, 1 rules, 0 skipped)\n".toList := by
  decide +kernel

theorem run_from_outside_configured :
    (∀ text,
      (run { config := ⟨"app/BlackSquareUI.json".toList⟩, command? := some .print }
        configuredOutside).output = .ok text ↔
      (run { command? := some .print } configured).output = .ok text) ∧
    (run {} configured).disk =
      (run { config := ⟨"app/BlackSquareUI.json".toList⟩ } configuredOutside).disk.enter
        ["app".toList] := by
  obtain ⟨c, hparsed, hcontent⟩ := Option.map_eq_some_iff.mp content_configuredOutside
  obtain ⟨s, hread, hc⟩ := Option.bind_eq_some_iff.mp hparsed
  have hfind : ∃ entries, configuredOutside.find? ⟨"app".toList⟩ =
      some ((["app".toList] : Address), .directory entries) :=
    ⟨_, Disk.find?_eq_some_iff.mpr ⟨by decide +kernel, rfl⟩⟩
  obtain ⟨entries, hfind⟩ := hfind
  have hok {ε α : Type} {x : Except ε α} {y : α} (h : x.toOption = some y) : x = .ok y := by
    cases x with
    | error e => cases h
    | ok z => exact congrArg Except.ok (Option.some.inj h)
  have hsource : c.sourceRoots = [⟨"src".toList⟩] := by
    rw [Configuration.sourceRoots, hcontent]
  have hroots : ∀ q ∈ c.sourceRoots, q.bytes ≠ [] := by
    rw [hsource]
    exact List.forall_mem_singleton.mpr (by decide)
  have hlimits : ∀ q ∈ c.sourceRoots,
      WithinLimits configuredOutside ⟨"app".toList⟩ ["app".toList] q := by
    rw [hsource]
    exact List.forall_mem_singleton.mpr withinLimits_configuredOutside
  obtain ⟨-, -, hruns⟩ := run_from_outside configuredOutside configuredOutside_wellFormed
    (f := "BlackSquareUI.json".toList) (by decide : ¬(⟨"app".toList⟩ : Path).isAbsolute) hfind
    (by decide +kernel) (hok hread) (hok hc)
    (by decide +kernel) hroots hlimits
  constructor
  · obtain ⟨hprint, -⟩ :=
      hruns { config := ⟨"app/BlackSquareUI.json".toList⟩, command? := some .print } rfl
    exact hprint (.inl rfl)
  · obtain ⟨-, hbuild⟩ := hruns { config := ⟨"app/BlackSquareUI.json".toList⟩ } rfl
    rcases hbuild rfl with ⟨e, p, herror, -⟩ | ⟨hdisk, -⟩
    · rw [output_configuredOutside] at herror
      cases herror
    · exact hdisk

/-- A directory whose configuration has the empty path for the directory of its sources. -/
def rootless : Disk where
  root := .directory
    [("app".toList, .directory
      [("App.tsx".toList, .file (Text.utf8 "<i class=\"row\"/>".toList)),
       ("conf.json".toList, .file (Text.utf8
        ("\x7b\"content\": \x7b\"sourceDir\": \"\", \"fileExtension\": \"tsx\", " ++
          "\"outputFile\": \"out.css\"\x7d, \"props\": []\x7d").toList))])]
  current := []

theorem read_rootless :
    Sources.read rootless ⟨"app/".toList⟩ "tsx".toList = .ok "<i class=\"row\"/>".toList := by
  have hcontains : rootless.contains ⟨"app/".toList⟩ := by decide +kernel
  have hfind : rootless.find? ⟨"app/".toList⟩ = some ((["app".toList] : Address), _) :=
    Disk.find?_eq_some_iff.mpr ⟨by decide +kernel, rfl⟩
  have hdirectory : rootless.isDirectory ⟨"app/".toList⟩ :=
    Disk.isDirectory_iff.mpr ⟨_, _, hfind⟩
  rw [Sources.read, if_pos hcontains, Disk.walk, hfind]
  dsimp only
  -- The entries are listed in the order of their names.
  rw [Walk.visit, if_pos hdirectory]
  simp only [Walk.visitEntries]
  rw [List.mergeSort_of_pairwise (by decide)]
  simp only [List.flatMap_cons]
  rw [Build.visit_file rfl, Build.visit_file rfl]
  decide +kernel

theorem load_rootless :
    (Configuration.load rootless ⟨"app/conf.json".toList⟩).map (·.content) =
      .ok ⟨⟨"app/".toList⟩, "tsx".toList, ⟨"out.css".toList⟩, []⟩ := by
  decide +kernel

theorem classes_rootless :
    (run { config := ⟨"app/conf.json".toList⟩, command? := some .classes } rootless).output =
      .ok "other\trow\n".toList := by
  have hload := load_rootless
  cases hc : Configuration.load rootless ⟨"app/conf.json".toList⟩ with
  | error e =>
    rw [hc] at hload
    cases hload
  | ok c =>
    rw [hc] at hload
    have hcontent : c.content = ⟨⟨"app/".toList⟩, "tsx".toList, ⟨"out.css".toList⟩, []⟩ :=
      Except.ok.inj hload
    have hcollect : Sources.collect rootless c.content.fileExtension c.sourceRoots =
        .ok "<i class=\"row\"/>".toList := by
      rw [Configuration.sourceRoots, hcontent, Sources.collect, read_rootless]
      rfl
    have hnames : Build.classNames rootless c = .ok ["row".toList] := by
      rw [Build.classNames, hcollect]
      exact congrArg Except.ok (by decide +kernel)
    have hrun : run { config := ⟨"app/conf.json".toList⟩, command? := some .classes } rootless =
        perform rootless c .classes := run_of_load hc
    rw [hrun, perform, hnames]
    decide +kernel

/-- From inside, the empty path is no path to the directory of the configuration. -/
theorem empty_root_is_lost_inside :
    rootless.root.WellFormed ∧
      (∃ entries,
        rootless.find? ⟨"app".toList⟩ = some ((["app".toList] : Address), .directory entries)) ∧
      IsName "conf.json".toList ∧
      (run { config := ⟨"app/conf.json".toList⟩, command? := some .classes } rootless).output =
        .ok "other\trow\n".toList ∧
      (run { config := ⟨"conf.json".toList⟩, command? := some .classes }
        (rootless.enter ["app".toList])).output = .ok [] := by
  refine ⟨?_, ⟨_, Disk.find?_eq_some_iff.mpr ⟨by decide +kernel, rfl⟩⟩, by decide +kernel,
    classes_rootless, by decide +kernel⟩
  decide

end Invocation

end ClassSheet

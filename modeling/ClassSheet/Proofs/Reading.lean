import ClassSheet.Proofs.Files.Above
import ClassSheet.Proofs.Files.SameWays

/-!
# What is read from the sources

The source text of a root is that of the files below it whose names are texts that end in a dot and
the extension, one after the other. The first one whose content is no text stops the reading, and
nothing else matters that lies below the root.

* `Path.hasExtension_iff`, `Path.fileName?_below`: which files have an extension.
* `Sources.files`: the files that are read, in the order of the walk.
* `Sources.read_eq_ok_iff`, `Sources.read_eq_error_iff`: the source text in terms of these files.
* `Sources.Selects`, `Sources.exists_selected_names`: the names under which these files lie.
* `Sources.read_eq_of_keepsSelected`: the source text does not depend on anything else.
* `Sources.read_eq_of_sameWays`: so it is on disks with the same directories and links.
* `Sources.read_selected_files`: all this about one root, and what it means for several ones.
* `Sources.odd_name_and_link_target`: what is not selected, and what matters nevertheless.
-/

namespace ClassSheet

open Node

namespace Path

variable {p : Path} {name : Bytes} {extension : Text} {names : Address}

/-! ## Extensions -/

theorem bareExtension_replicate (n : Nat) (extension : Text) :
    bareExtension (List.replicate n '.' ++ extension) = bareExtension extension := by
  induction n with
  | zero => rfl
  | succ n ih => simp [bareExtension, List.replicate_succ]

/-- An extension is some dots and what is left without them, which does not begin with one. -/
theorem exists_dots (extension : Text) :
    (∃ n, extension = List.replicate n '.' ++ bareExtension extension) ∧
      (bareExtension extension).head? ≠ some '.' := by
  constructor
  · refine ⟨(extension.takeWhile (· == '.')).length, ?_⟩
    have hdots : extension.takeWhile (· == '.') =
        List.replicate (extension.takeWhile (· == '.')).length '.' := by
      apply List.eq_replicate_of_mem
      intro c hc
      simpa using List.mem_takeWhile_imp hc
    rw [← hdots]
    exact List.takeWhile_append_dropWhile.symm
  · intro h
    have hhead := List.head?_dropWhile_not (· == '.') extension
    rw [bareExtension] at h
    simp [h] at hhead

theorem hasExtension_iff :
    p.hasExtension extension ↔ bareExtension extension ≠ [] ∧
      ∃ name : Text, p.fileName? = some name.bytes ∧
        ('.' :: bareExtension extension) <:+ name := by
  have hsuffix (name : Text) : ('.' :: bareExtension extension) <:+ name ↔
      ∃ stem, Text.before? (bareExtension extension) name = some stem ∧
        stem.getLast? = some '.' := by
    simp only [Text.before?_eq_some_iff, List.getLast?_eq_some_iff]
    constructor
    · rintro ⟨stem, rfl⟩
      exact ⟨stem ++ ['.'], by simp, stem, rfl⟩
    · rintro ⟨_, rfl, stem, rfl⟩
      exact ⟨stem, by simp⟩
  simp only [hasExtension, hsuffix, Bool.and_eq_true, bne_iff_ne]
  apply and_congr_right
  intro _
  cases p.fileName? with
  | none => simp
  | some fileName =>
    simp only [Option.bind_some, Option.some.injEq, ← Bytes.text?_eq_some_iff]
    cases fileName.text? with
    | none => simp
    | some name =>
      simp only [Option.bind_some, Option.some.injEq, exists_eq_left']
      cases Text.before? (bareExtension extension) name <;> simp

theorem hasExtension_replicate (n : Nat) :
    p.hasExtension (List.replicate n '.' ++ extension) = p.hasExtension extension := by
  simp only [hasExtension, bareExtension_replicate]

/-! ## File names -/

theorem fileName?_join_name (hp : p.bytes ≠ []) (hname : IsName name) :
    (p.join ⟨name⟩).fileName? = some name := by
  obtain ⟨hidle, habove, hslash⟩ := hname
  obtain ⟨parts, -, hjoin⟩ := exists_parts_join hp hslash
  rw [fileName?, getLast?_split, hjoin]
  simp [hidle, habove]

/-- What lies under names, one below the other, has the last of them for its file name. -/
theorem fileName?_below (hp : p.bytes ≠ []) (hnames : ∀ name ∈ names, IsName name)
    (hlast : names.getLast? = some name) : (p.below names).fileName? = some name := by
  induction names generalizing p with
  | nil => cases hlast
  | cons first names ih =>
    obtain ⟨hfirst, hrest⟩ := List.forall_mem_cons.mp hnames
    cases names with
    | nil =>
      cases hlast
      exact fileName?_join_name hp hfirst
    | cons next names =>
      rw [List.getLast?_cons_cons] at hlast
      exact ih (bytes_join_name_ne_nil hfirst) hrest hlast

end Path

namespace Sources

variable {disk disk' : Disk} {extension text : Text} {root : Path} {roots : List Path}
  {steps : List Walk.Step} {e : SourceError}

/-! ## The first file that is no text -/

theorem stepText_of_selectedFile? {step : Walk.Step} {file : Path × ByteArray}
    (h : selectedFile? extension step = some file) :
    stepText extension step =
      (Disk.decodeText file.2).mapError (SourceError.unreadable file.1) := by
  cases step with
  | passed path => cases h
  | file path bytes =>
    rw [selectedFile?] at h
    split at h
    · rename_i hextension
      cases h
      rw [stepText, if_pos hextension]
      cases Disk.decodeText bytes <;> rfl
    · cases h

/-- The first item with `Q`, behind items with `P` only, is the first one of the list or among the
others. -/
theorem exists_first_cons_iff {α : Type} {P Q : α → Prop} {a : α} {l : List α} :
    (∃ before x after, a :: l = before ++ x :: after ∧ (∀ b ∈ before, P b) ∧ Q x) ↔
      Q a ∨ P a ∧ ∃ before x after, l = before ++ x :: after ∧ (∀ b ∈ before, P b) ∧ Q x := by
  constructor
  · rintro ⟨before, x, after, hsplit, hbefore, hx⟩
    cases before with
    | nil =>
      obtain ⟨rfl, -⟩ := List.cons.inj hsplit
      exact .inl hx
    | cons b before =>
      rw [List.cons_append, List.cons.injEq] at hsplit
      obtain ⟨rfl, hsplit⟩ := hsplit
      obtain ⟨ha, hbefore⟩ := List.forall_mem_cons.mp hbefore
      exact .inr ⟨ha, before, x, after, hsplit, hbefore, hx⟩
  · rintro (ha | ⟨ha, before, x, after, rfl, hbefore, hx⟩)
    · exact ⟨[], a, l, rfl, by simp, ha⟩
    · exact ⟨a :: before, x, after, rfl, List.forall_mem_cons.mpr ⟨ha, hbefore⟩, hx⟩

/-- The error of a file that is no text. -/
def IsFaultOf (file : Path × ByteArray) (e : SourceError) : Prop :=
  ∃ cause, Disk.decodeText file.2 = .error cause ∧ e = .unreadable file.1 cause

/-- The steps have an error iff one of the selected files is no text, and then it is that of the first
such file. -/
theorem joinSteps_eq_error_iff :
    joinSteps extension steps = .error e ↔
      ∃ before file after, steps.filterMap (selectedFile? extension) = before ++ file :: after ∧
        (∀ other ∈ before, ∃ text, IsTextOf other text) ∧ IsFaultOf file e := by
  induction steps with
  | nil => simp [joinSteps]
  | cons step steps ih =>
    cases hstep : selectedFile? extension step with
    | none =>
      have hnothing : stepText extension step = .ok [] := stepText_eq_ok_iff.mpr (by rw [hstep])
      rw [List.filterMap_cons_none hstep, ← ih, joinSteps, hnothing]
      cases joinSteps extension steps <;> simp [bind, Except.bind, pure, Except.pure]
    | some file =>
      rw [List.filterMap_cons_some hstep, exists_first_cons_iff, ← ih, joinSteps,
        stepText_of_selectedFile? hstep]
      cases hfile : Disk.decodeText file.2 with
      | error cause =>
        simp [IsFaultOf, IsTextOf, hfile, Except.mapError, bind, Except.bind, eq_comm]
      | ok fileText =>
        cases joinSteps extension steps <;>
          simp [IsFaultOf, IsTextOf, hfile, Except.mapError, bind, Except.bind, pure, Except.pure]

/-! ## The files of a root -/

/-- The files below a root that have the extension, in the order of the walk. -/
def files (disk : Disk) (extension : Text) (root : Path) : List Path :=
  (disk.filesBelow root).filter fun path => path.hasExtension extension

theorem map_fst_selected (disk : Disk) (extension : Text) (root : Path) :
    (selected disk extension [root]).map (·.1) = files disk extension root := by
  rw [selected, List.flatMap_singleton, files, Disk.filesBelow, List.map_filterMap,
    List.filter_filterMap]
  apply List.filterMap_congr
  intro step _
  cases step with
  | passed path => rfl
  | file path bytes =>
    rw [selectedFile?]
    by_cases hextension : path.hasExtension extension <;> simp [hextension, Option.filter]

theorem readText_of_mem_selected {file : Path × ByteArray}
    (h : file ∈ selected disk extension roots) :
    disk.readText file.1 = Disk.decodeText file.2 := by
  rw [Disk.readText, readBytes_of_mem_selected h]
  rfl

theorem read_eq_joinSteps_selected (disk : Disk) (root : Path) (extension : Text) :
    read disk root extension = joinSteps extension ([root].flatMap disk.walk) := by
  rw [read_eq, List.flatMap_singleton]

/-- The text of a root is that of its files, one after the other, if all of them are texts. -/
theorem read_eq_ok_iff :
    read disk root extension = .ok text ↔
      ∃ texts, List.Forall₂ (fun path text => disk.readText path = .ok text)
          (files disk extension root) texts ∧ text = texts.flatten := by
  rw [read_eq_joinSteps_selected, joinSteps_eq_ok_iff, ← selected, ← map_fst_selected]
  apply exists_congr
  intro texts
  rw [List.forall₂_map_left_iff, List.forall₂_iff_zip, List.forall₂_iff_zip]
  have hsame : ∀ {file text}, (file, text) ∈ (selected disk extension [root]).zip texts →
      (IsTextOf file text ↔ disk.readText file.1 = .ok text) := by
    intro file text h
    rw [readText_of_mem_selected (List.of_mem_zip h).1, IsTextOf]
  constructor
  · rintro ⟨⟨hlength, h⟩, htext⟩
    exact ⟨⟨hlength, fun hmem => (hsame hmem).mp (h hmem)⟩, htext⟩
  · rintro ⟨⟨hlength, h⟩, htext⟩
    exact ⟨⟨hlength, fun hmem => (hsame hmem).mpr (h hmem)⟩, htext⟩

/-- A root has an error iff one of its files is no text, and then it is that of the first such file. -/
theorem read_eq_error_iff :
    read disk root extension = .error e ↔
      ∃ before path after cause, files disk extension root = before ++ path :: after ∧
        (∀ other ∈ before, ∃ text, disk.readText other = .ok text) ∧
        disk.readText path = .error cause ∧ e = .unreadable path cause := by
  rw [read_eq_joinSteps_selected, joinSteps_eq_error_iff, ← selected, ← map_fst_selected]
  have hread {file : Path × ByteArray} (h : file ∈ selected disk extension [root]) :
      disk.readText file.1 = Disk.decodeText file.2 := readText_of_mem_selected h
  constructor
  · rintro ⟨before, file, after, hsplit, hbefore, cause, hfile, rfl⟩
    rw [hsplit] at hread ⊢
    refine ⟨before.map (·.1), file.1, after.map (·.1), cause, by simp, ?_, ?_, rfl⟩
    · intro path hpath
      obtain ⟨other, hother, rfl⟩ := List.mem_map.mp hpath
      obtain ⟨text, htext⟩ := hbefore other hother
      exact ⟨text, (hread (by simp [hother])).trans htext⟩
    · exact (hread (by simp)).trans hfile
  · rintro ⟨paths, path, paths', cause, hsplit, hbefore, hpath, rfl⟩
    obtain ⟨before, rest, hselected, rfl, hrest⟩ := List.map_eq_append_iff.mp hsplit
    obtain ⟨file, after, rfl, rfl, rfl⟩ := List.map_eq_cons_iff.mp hrest
    rw [hselected] at hread ⊢
    refine ⟨before, file, after, rfl, ?_, cause, ?_, rfl⟩
    · intro other hother
      obtain ⟨text, htext⟩ := hbefore other.1 (List.mem_map_of_mem hother)
      exact ⟨text, (hread (by simp [hother])).symm.trans htext⟩
    · exact (hread (by simp)).symm.trans hpath

/-! ## What the text does not depend on -/

theorem read_replicate (disk : Disk) (root : Path) (n : Nat) (extension : Text) :
    read disk root (List.replicate n '.' ++ extension) = read disk root extension := by
  have hstep : stepText (List.replicate n '.' ++ extension) = stepText extension := by
    funext step
    cases step with
    | passed path => rfl
    | file path bytes => simp only [stepText, Path.hasExtension_replicate]
  have hsteps (steps : List Walk.Step) :
      joinSteps (List.replicate n '.' ++ extension) steps = joinSteps extension steps := by
    induction steps with
    | nil => rfl
    | cons step steps ih => rw [joinSteps, joinSteps, hstep, ih]
  rw [read_eq, read_eq, hsteps]

/-- The walk from the root meets a file under these names, and it has the extension. -/
def Selects (disk : Disk) (extension : Text) (root : Path) (names : Address) : Prop :=
  Walk.Reaches disk root names ∧ disk.isFile (root.below names) ∧
    (root.below names).hasExtension extension

/-- The files are in the order of the names under which they lie. -/
theorem exists_selected_names (hroot : disk.root.WellFormed) (extension : Text) (root : Path) :
    ∃ nss : List Address, files disk extension root = nss.map root.below ∧
      nss.Pairwise Walk.Precedes ∧ ∀ names, names ∈ nss ↔ Selects disk extension root names := by
  obtain ⟨nss, hfiles, horder, hmem⟩ := Walk.exists_names_below hroot root
  refine ⟨nss.filter fun names => (root.below names).hasExtension extension, ?_, horder.filter _,
    fun names => ?_⟩
  · rw [files, hfiles, List.filter_map]
    rfl
  · rw [List.mem_filter, hmem, Selects, and_assoc]

theorem mem_files_iff (hroot : disk.root.WellFormed) {path : Path} :
    path ∈ files disk extension root ↔
      ∃ names, Selects disk extension root names ∧ root.below names = path := by
  obtain ⟨nss, hfiles, -, hmem⟩ := exists_selected_names hroot extension root
  simp only [hfiles, List.mem_map, hmem]

/-- The names under which the files lie determine the list of the files. -/
theorem files_eq_of_selects (hroot : disk.root.WellFormed) (hroot' : disk'.root.WellFormed)
    (h : ∀ names, Selects disk' extension root names ↔ Selects disk extension root names) :
    files disk' extension root = files disk extension root := by
  obtain ⟨nss, hfiles, horder, hmem⟩ := exists_selected_names hroot extension root
  obtain ⟨nss', hfiles', horder', hmem'⟩ := exists_selected_names hroot' extension root
  have hperm : nss'.Perm nss :=
    (List.perm_ext_iff_of_nodup (horder'.imp Walk.Precedes.ne) (horder.imp Walk.Precedes.ne)).mpr
      fun names => by rw [hmem, hmem', h]
  have hsame : nss' = nss := List.Perm.eq_of_pairwise
    (fun _ _ _ _ hlt hgt => absurd hgt (List.lt_asymm hlt)) horder' horder hperm
  rw [hfiles, hfiles', hsame]

/-- What is selected on the first disk lies under the same names on the second one, and reads the same
there. -/
def KeepsSelected (disk disk' : Disk) (extension : Text) (root : Path) : Prop :=
  ∀ names, Selects disk extension root names →
    Walk.Reaches disk' root names ∧
      disk'.readBytes (root.below names) = disk.readBytes (root.below names)

theorem KeepsSelected.selects (h : KeepsSelected disk disk' extension root) {names : Address}
    (hnames : Selects disk extension root names) : Selects disk' extension root names := by
  obtain ⟨hreaches, hread⟩ := h names hnames
  obtain ⟨-, hfile, hextension⟩ := hnames
  obtain ⟨x, bytes, hfind⟩ := Disk.isFile_iff.mp hfile
  rw [Disk.readBytes_eq_ok_iff.mpr ⟨x, hfind⟩] at hread
  obtain ⟨x', hfind'⟩ := Disk.readBytes_eq_ok_iff.mp hread
  exact ⟨hreaches, Disk.isFile_iff.mpr ⟨x', bytes, hfind'⟩, hextension⟩

/-- The files and what their paths read determine what is selected. -/
theorem selected_eq_filterMap_files (disk : Disk) (extension : Text) (root : Path) :
    selected disk extension [root] = (files disk extension root).filterMap fun path =>
      (disk.readBytes path).toOption.map fun bytes => (path, bytes) := by
  have hfile : ∀ file ∈ selected disk extension [root],
      ((fun path => (disk.readBytes path).toOption.map fun bytes => (path, bytes)) ∘ (·.1)) file =
        some file := by
    intro file h
    rw [Function.comp_apply, readBytes_of_mem_selected h]
    rfl
  rw [← map_fst_selected, List.filterMap_map, List.filterMap_congr hfile, List.filterMap_some]

theorem joinSteps_eq_of_selectedFile? {steps' : List Walk.Step}
    (h : steps.filterMap (selectedFile? extension) = steps'.filterMap (selectedFile? extension)) :
    joinSteps extension steps = joinSteps extension steps' := by
  cases hjoin : joinSteps extension steps with
  | ok text =>
    rw [joinSteps_eq_ok_iff, h, ← joinSteps_eq_ok_iff] at hjoin
    exact hjoin.symm
  | error e =>
    rw [joinSteps_eq_error_iff, h, ← joinSteps_eq_error_iff] at hjoin
    exact hjoin.symm

/-- The text of a root is the same on two disks if what is selected on either of them is on the other
one as well. Whatever else is on them does not matter. -/
theorem read_eq_of_keepsSelected (hroot : disk.root.WellFormed) (hroot' : disk'.root.WellFormed)
    (h : KeepsSelected disk disk' extension root) (h' : KeepsSelected disk' disk extension root) :
    read disk' root extension = read disk root extension := by
  have hfiles : files disk' extension root = files disk extension root :=
    files_eq_of_selects hroot hroot' fun names => ⟨h'.selects, h.selects⟩
  have hread : ∀ path ∈ files disk extension root, disk'.readBytes path = disk.readBytes path := by
    intro path hpath
    obtain ⟨names, hnames, rfl⟩ := (mem_files_iff hroot).mp hpath
    exact (h names hnames).2
  have hselected : selected disk' extension [root] = selected disk extension [root] := by
    rw [selected_eq_filterMap_files, selected_eq_filterMap_files, hfiles]
    exact List.filterMap_congr fun path hpath => by rw [hread path hpath]
  rw [read_eq_joinSteps_selected, read_eq_joinSteps_selected]
  exact joinSteps_eq_of_selectedFile? hselected

/-! ## Disks that have other files -/

/-- Below the same directories it is enough that what is selected reads the same. -/
theorem keepsSelected_of_reachesDirectory (hroot : disk.root.WellFormed)
    (hroot' : disk'.root.WellFormed)
    (hdirs : ∀ names, Walk.ReachesDirectory disk root names → Walk.ReachesDirectory disk' root names)
    (hread : ∀ names, Selects disk extension root names →
      disk'.readBytes (root.below names) = disk.readBytes (root.below names)) :
    KeepsSelected disk disk' extension root := by
  intro names hnames
  obtain ⟨hreaches, hfile, -⟩ := id hnames
  refine ⟨?_, hread names hnames⟩
  obtain ⟨x, bytes, hfind⟩ := Disk.isFile_iff.mp hfile
  have hcontains : disk'.contains (root.below names) := Disk.contains_of_readBytes
    ((hread names hnames).trans (Disk.readBytes_eq_ok_iff.mpr ⟨x, hfind⟩))
  rcases List.eq_nil_or_concat names with rfl | ⟨front, name, rfl⟩
  · obtain ⟨⟨y, node⟩, hy⟩ := Option.isSome_iff_exists.mp hcontains
    exact ⟨y, node, hy, by simp⟩
  · rw [List.concat_eq_append] at hreaches hcontains ⊢
    exact (hdirs front hreaches.reachesDirectory).reaches_concat hroot'
      (hreaches.isName hroot name (by simp)) hcontains

/-- A file that is read lies at the address, if need be behind a link. -/
def SelectedAt (disk : Disk) (extension : Text) (root : Path) (x : Address) : Prop :=
  ∃ path ∈ files disk extension root, ∃ node, disk.find? path = some (x, node)

theorem keepsSelected_of_sameWays (hways : disk.SameWays disk') (hroot : disk.root.WellFormed)
    (hroot' : disk'.root.WellFormed)
    (hsame : ∀ x, SelectedAt disk extension root x → disk'.root.at? x = disk.root.at? x) :
    KeepsSelected disk disk' extension root := by
  refine keepsSelected_of_reachesDirectory hroot hroot' (fun _ => hways.reachesDirectory) ?_
  intro names hnames
  obtain ⟨x, bytes, hfind⟩ := Disk.isFile_iff.mp hnames.2.1
  have hmem := (mem_files_iff hroot).mpr ⟨names, hnames, rfl⟩
  have hat := (hsame x ⟨_, hmem, _, hfind⟩).trans (Disk.find?_eq_some_iff.mp hfind).2
  have hfind' := hways.find? hfind hat nofun
  rw [Disk.readBytes_eq_ok_iff.mpr ⟨x, hfind⟩, Disk.readBytes_eq_ok_iff.mpr ⟨x, hfind'⟩]

/-- The text of a root is the same on two disks with the same directories and links that have the same
files at the addresses of what is read on either of them. -/
theorem read_eq_of_sameWays (hways : disk.SameWays disk') (hroot : disk.root.WellFormed)
    (hroot' : disk'.root.WellFormed)
    (hsame : ∀ x, SelectedAt disk extension root x ∨ SelectedAt disk' extension root x →
      disk'.root.at? x = disk.root.at? x) :
    read disk' root extension = read disk root extension :=
  read_eq_of_keepsSelected hroot hroot'
    (keepsSelected_of_sameWays hways hroot hroot' fun x hx => hsame x (.inl hx))
    (keepsSelected_of_sameWays hways.symm hroot' hroot fun x hx => (hsame x (.inr hx)).symm)

/-! ## Several roots -/

theorem collect_eq_ok_iff_read :
    collect disk extension roots = .ok text ↔
      ∃ texts, List.Forall₂ (fun root text => read disk root extension = .ok text) roots texts ∧
        text = texts.flatten := by
  induction roots generalizing text with
  | nil => simp [collect, eq_comm]
  | cons root roots ih =>
    simp only [collect, bind_eq_ok_iff, ih, List.forall₂_cons_left_iff]
    constructor
    · rintro ⟨first, hfirst, _, ⟨texts, htexts, rfl⟩, h⟩
      cases h
      exact ⟨first :: texts, ⟨first, texts, hfirst, htexts, rfl⟩, rfl⟩
    · rintro ⟨_, ⟨first, texts, hfirst, htexts, rfl⟩, rfl⟩
      exact ⟨first, hfirst, texts.flatten, ⟨texts, htexts, rfl⟩, rfl⟩

theorem exists_read_of_collect_eq_error (h : collect disk extension roots = .error e) :
    ∃ root ∈ roots, read disk root extension = .error e := by
  induction roots with
  | nil => cases h
  | cons root roots ih =>
    rw [collect] at h
    cases hroot : read disk root extension with
    | error e' =>
      rw [hroot] at h
      cases h
      exact ⟨root, List.mem_cons_self, hroot⟩
    | ok text =>
      cases hroots : collect disk extension roots with
      | error e' =>
        rw [hroot, hroots] at h
        cases h
        obtain ⟨other, hother, hread⟩ := ih hroots
        exact ⟨other, List.mem_cons_of_mem _ hother, hread⟩
      | ok texts =>
        rw [hroot, hroots] at h
        cases h

/-! ## The source text -/

/-- On every disk, the files of a root that are read are those that the walk meets whose names are texts
and end in a dot and the extension, without the dots in front of it; the name is the last one on the
way from the root. If the extension is nothing but dots, there is no such file. The text of the root is
that of these files, one after the other, if all of them are texts. Else the error is that of the first
one that is not. The dots in front of the extension do not matter, and neither does anything else that
is on the disk or not: the text is the same on another one, if what is selected on either of them lies
under the same names on the other one and reads the same there. With the same directories and links
on both, that is so if they have the same files at the addresses of what is selected. A root that is not
there has the empty text. Several roots have the texts of each, one after the other, if all of them have
one, and else the error of one of them. -/
theorem read_selected_files (disk : Disk) (hwf : disk.root.WellFormed) (root : Path)
    (extension : Text) :
    (∃ n bare, extension = List.replicate n '.' ++ bare ∧ bare.head? ≠ some '.' ∧
      (∀ path, path ∈ files disk extension root ↔ path ∈ disk.filesBelow root ∧ bare ≠ [] ∧
        ∃ name : Text, path.fileName? = some name.bytes ∧ ('.' :: bare) <:+ name) ∧
      (files disk extension root).Sublist (disk.filesBelow root)) ∧
    (∀ names name, Walk.Reaches disk root names → names.getLast? = some name →
      (root.below names).fileName? = some name) ∧
    (∀ text, read disk root extension = .ok text ↔
      ∃ texts, List.Forall₂ (fun path text => disk.readText path = .ok text)
          (files disk extension root) texts ∧ text = texts.flatten) ∧
    (∀ e, read disk root extension = .error e ↔
      ∃ before path after cause, files disk extension root = before ++ path :: after ∧
        (∀ other ∈ before, ∃ text, disk.readText other = .ok text) ∧
        disk.readText path = .error cause ∧ e = .unreadable path cause) ∧
    (∀ n, read disk root (List.replicate n '.' ++ extension) = read disk root extension) ∧
    (∀ disk' : Disk, disk'.root.WellFormed → KeepsSelected disk disk' extension root →
      KeepsSelected disk' disk extension root →
      read disk' root extension = read disk root extension) ∧
    (∀ disk' : Disk, disk'.root.WellFormed → disk.SameWays disk' →
      (∀ x, SelectedAt disk extension root x ∨ SelectedAt disk' extension root x →
        disk'.root.at? x = disk.root.at? x) →
      read disk' root extension = read disk root extension) ∧
    (¬disk.contains root → read disk root extension = .ok []) ∧
    ∀ roots,
      (∀ text, collect disk extension roots = .ok text ↔
        ∃ texts, List.Forall₂ (fun root text => read disk root extension = .ok text) roots texts ∧
          text = texts.flatten) ∧
      ∀ e, collect disk extension roots = .error e →
        ∃ root ∈ roots, read disk root extension = .error e := by
  refine ⟨?_, ?_, fun text => read_eq_ok_iff, fun e => read_eq_error_iff,
    fun n => read_replicate disk root n extension,
    fun disk' hwf' h h' => read_eq_of_keepsSelected hwf hwf' h h',
    fun disk' hwf' hways hsame => read_eq_of_sameWays hways hwf hwf' hsame, fun hroot => ?_,
    fun roots => ⟨fun text => collect_eq_ok_iff_read, fun e => exists_read_of_collect_eq_error⟩⟩
  · obtain ⟨⟨n, hn⟩, hhead⟩ := Path.exists_dots extension
    refine ⟨n, Path.bareExtension extension, hn, hhead, fun path => ?_, List.filter_sublist⟩
    rw [files, List.mem_filter, Path.hasExtension_iff]
  · intro names name hreaches hlast
    obtain ⟨x, node, hfind, -⟩ := id hreaches
    exact Path.fileName?_below (Disk.bytes_ne_nil_of_find? hfind) (hreaches.isName hwf) hlast
  · rw [read, if_neg hroot]

/-- A directory with one file that is read and one that is not. -/
def withNotes : Disk where
  root := .directory [("src".toList, .directory
    [("b.tsx".toList, .file (Text.utf8 "b".toList)), ("a.txt".toList, .file .empty)])]
  current := []

/-- A name that ends like that of a file that is read, but is no text. -/
def oddName : Bytes := 0xFF :: Text.bytes ".tsx".toList

/-- The directory with a link in the place of the file that is not read, and with another file, neither
the content nor the name of which is a text. -/
def withOther : Disk where
  root := .directory [("src".toList, .directory
    [(oddName, .file ⟨#[0xFF]⟩), ("b.tsx".toList, .file (Text.utf8 "b".toList)),
      ("a.txt".toList, .link ⟨"b.tsx".toList⟩)])]
  current := []

/-- The directory with one more file, the content of which is no text. -/
def withMore : Disk := withNotes.put ["src".toList, "a.ts".toList] (.file ⟨#[0xFF]⟩)

theorem withNotes_wellFormed : withNotes.root.WellFormed := by decide

theorem withOther_wellFormed : withOther.root.WellFormed := by decide

theorem withMore_wellFormed : withMore.root.WellFormed := by decide

theorem files_withNotes : files withNotes ".tsx".toList ⟨"src".toList⟩ = [⟨"src/b.tsx".toList⟩] := by
  have hfind : withNotes.find? ⟨"src".toList⟩ = some ((["src".toList] : Address), _) :=
    Disk.find?_eq_some_iff.mpr ⟨by decide +kernel, rfl⟩
  rw [files, Walk.filesBelow_of_sorted withNotes_wellFormed hfind (by decide +kernel) rfl]
  decide +kernel

theorem filesBelow_withOther : withOther.filesBelow ⟨"src".toList⟩ =
    [⟨"src/a.txt".toList⟩, ⟨"src/b.tsx".toList⟩, Path.join ⟨"src".toList⟩ ⟨oddName⟩] := by
  have hfind : withOther.find? ⟨"src".toList⟩ = some ((["src".toList] : Address), _) :=
    Disk.find?_eq_some_iff.mpr ⟨by decide +kernel, rfl⟩
  rw [Walk.filesBelow_of_sorted withOther_wellFormed hfind (by decide +kernel) rfl]
  decide +kernel

theorem files_withMore : files withMore ".tsx".toList ⟨"src".toList⟩ = [⟨"src/b.tsx".toList⟩] := by
  have hfind : withMore.find? ⟨"src".toList⟩ = some ((["src".toList] : Address), _) :=
    Disk.find?_eq_some_iff.mpr ⟨by decide +kernel, rfl⟩
  rw [files, Walk.filesBelow_of_sorted withMore_wellFormed hfind (by decide +kernel) rfl]
  decide +kernel

theorem files_withOther : files withOther ".tsx".toList ⟨"src".toList⟩ = [⟨"src/b.tsx".toList⟩] := by
  rw [files, filesBelow_withOther]
  decide +kernel

/-- What is only at one path that is selected is kept, if it lies under its name and reads the same. -/
theorem keepsSelected_of_files_eq (hroot : disk.root.WellFormed) {path : Path} {names : Address}
    (hfiles : files disk extension root = [path]) (hpath : root.below names = path)
    (hnames : ∀ name ∈ names, IsName name) (hreaches : Walk.Reaches disk' root names)
    (hread : disk'.readBytes path = disk.readBytes path) :
    KeepsSelected disk disk' extension root := by
  subst hpath
  intro names' hselects
  have hmem := (mem_files_iff hroot).mpr ⟨names', hselects, rfl⟩
  rw [hfiles, List.mem_singleton] at hmem
  obtain rfl : names' = names := Path.below_injective (hselects.1.isName hroot) hnames hmem
  exact ⟨hreaches, hread⟩

theorem SelectedAt.eq_of_files_eq {path : Path} {x y : Address} {node : Node}
    (h : SelectedAt disk extension root x) (hfiles : files disk extension root = [path])
    (hfind : disk.find? path = some (y, node)) : x = y := by
  obtain ⟨other, hother, found, hfound⟩ := h
  rw [hfiles, List.mem_singleton] at hother
  rw [hother, hfind] at hfound
  cases hfound
  rfl

theorem keepsSelected_withOther :
    KeepsSelected withNotes withOther ".tsx".toList ⟨"src".toList⟩ ∧
      KeepsSelected withOther withNotes ".tsx".toList ⟨"src".toList⟩ := by
  have hname : ∀ name ∈ (["b.tsx".toList] : Address), IsName name := by decide
  have hthere : Walk.Reaches withNotes ⟨"src".toList⟩ ["b.tsx".toList] :=
    ⟨["src".toList], _, Disk.find?_eq_some_iff.mpr ⟨by decide +kernel, rfl⟩, rfl⟩
  have hthere' : Walk.Reaches withOther ⟨"src".toList⟩ ["b.tsx".toList] :=
    ⟨["src".toList], _, Disk.find?_eq_some_iff.mpr ⟨by decide +kernel, rfl⟩, rfl⟩
  have hsame : withOther.readBytes ⟨"src/b.tsx".toList⟩ = withNotes.readBytes ⟨"src/b.tsx".toList⟩ :=
    rfl
  constructor
  · exact keepsSelected_of_files_eq withNotes_wellFormed files_withNotes rfl hname hthere' hsame
  · exact keepsSelected_of_files_eq withOther_wellFormed files_withOther rfl hname hthere hsame.symm

theorem sameWays_withMore : withNotes.SameWays withMore := by
  refine Disk.sameWays_put_file (fun old hold => ?_) rfl
  have hnone : withNotes.root.at? ["src".toList, "a.ts".toList] = none := rfl
  rw [hnone] at hold
  cases hold

theorem at?_withMore (x : Address) (h : SelectedAt withNotes ".tsx".toList ⟨"src".toList⟩ x ∨
    SelectedAt withMore ".tsx".toList ⟨"src".toList⟩ x) :
    withMore.root.at? x = withNotes.root.at? x := by
  have hfind : withNotes.find? ⟨"src/b.tsx".toList⟩ =
      some ((["src".toList, "b.tsx".toList] : Address), .file (Text.utf8 "b".toList)) := rfl
  have hfind' : withMore.find? ⟨"src/b.tsx".toList⟩ =
      some ((["src".toList, "b.tsx".toList] : Address), .file (Text.utf8 "b".toList)) := rfl
  rcases h with h | h
  · rw [h.eq_of_files_eq files_withNotes hfind]
    rfl
  · rw [h.eq_of_files_eq files_withMore hfind']
    rfl

/-- What is in the place of a file with another extension does not matter, and nor do a file whose name
or content is no text and one more dot. -/
theorem read_selected_files_with_other :
    withNotes.root.WellFormed ∧
      (withOther.root.WellFormed ∧
        KeepsSelected withNotes withOther ".tsx".toList ⟨"src".toList⟩ ∧
        KeepsSelected withOther withNotes ".tsx".toList ⟨"src".toList⟩) ∧
      (withMore.root.WellFormed ∧ withNotes.SameWays withMore ∧
        ∀ x, SelectedAt withNotes ".tsx".toList ⟨"src".toList⟩ x ∨
            SelectedAt withMore ".tsx".toList ⟨"src".toList⟩ x →
          withMore.root.at? x = withNotes.root.at? x) ∧
      read withNotes ⟨"src".toList⟩ "..tsx".toList = .ok "b".toList ∧
      read withOther ⟨"src".toList⟩ ".tsx".toList = .ok "b".toList ∧
      read withMore ⟨"src".toList⟩ ".tsx".toList = .ok "b".toList := by
  obtain ⟨hkeeps, hkeeps'⟩ := keepsSelected_withOther
  obtain ⟨-, -, hok, -, hdots, hother, hmore, -⟩ :=
    read_selected_files withNotes withNotes_wellFormed ⟨"src".toList⟩ ".tsx".toList
  have htext : withNotes.readText ⟨"src/b.tsx".toList⟩ = .ok "b".toList := by decide +kernel
  have hread : read withNotes ⟨"src".toList⟩ ".tsx".toList = .ok "b".toList := by
    rw [hok, files_withNotes]
    exact ⟨["b".toList], .cons htext .nil, rfl⟩
  refine ⟨withNotes_wellFormed, ⟨withOther_wellFormed, hkeeps, hkeeps'⟩,
    ⟨withMore_wellFormed, sameWays_withMore, at?_withMore⟩, ?_, ?_, ?_⟩
  · exact (hdots 1).trans hread
  · exact (hother withOther withOther_wellFormed hkeeps hkeeps').trans hread
  · exact (hmore withMore withMore_wellFormed sameWays_withMore at?_withMore).trans hread

/-- A directory with a link that is read and the file that it leads to, which has another extension. -/
def behindLink (content : Text) : Disk where
  root := .directory [("src".toList, .directory
    [("b.tsx".toList, .link ⟨"a.txt".toList⟩), ("a.txt".toList, .file content.utf8)])]
  current := []

theorem files_behindLink (content : Text) :
    files (behindLink content) "tsx".toList ⟨"src".toList⟩ = [⟨"src/b.tsx".toList⟩] := by
  have hroot : (behindLink content).root.WellFormed := of_decide_eq_true rfl
  have hfind : (behindLink content).find? ⟨"src".toList⟩ = some ((["src".toList] : Address), _) :=
    Disk.find?_eq_some_iff.mpr ⟨rfl, rfl⟩
  rw [files, Walk.filesBelow_of_sorted hroot hfind (of_decide_eq_true rfl) rfl]
  rfl

theorem read_behindLink (content : Text) :
    read (behindLink content) ⟨"src".toList⟩ "tsx".toList = .ok content := by
  have htext : (behindLink content).readText ⟨"src/b.tsx".toList⟩ = .ok content := by
    refine Disk.readText_eq_ok_iff.mpr ⟨content.utf8, rfl, ?_⟩
    rw [Disk.decodeText, Text.ofUtf8?_utf8]
  rw [read_eq_ok_iff, files_behindLink]
  exact ⟨[content], .cons htext .nil, (List.append_nil content).symm⟩

/-- A file is not selected though its name ends in a dot and the extension, if the name is no text. And
the content of a file that is not selected matters, if a link that is selected leads to it. -/
theorem odd_name_and_link_target :
    ((Path.join ⟨"src".toList⟩ ⟨oddName⟩ ∈ withOther.filesBelow ⟨"src".toList⟩ ∧
        (Path.join ⟨"src".toList⟩ ⟨oddName⟩).fileName? = some oddName ∧
        Text.bytes ".tsx".toList <:+ oddName) ∧
      Path.join ⟨"src".toList⟩ ⟨oddName⟩ ∉ files withOther ".tsx".toList ⟨"src".toList⟩) ∧
    (⟨"src/a.txt".toList⟩ ∉ files (behindLink "one".toList) "tsx".toList ⟨"src".toList⟩ ∧
      ⟨"src/a.txt".toList⟩ ∉ files (behindLink "two".toList) "tsx".toList ⟨"src".toList⟩) ∧
    read (behindLink "one".toList) ⟨"src".toList⟩ "tsx".toList = .ok "one".toList ∧
    read (behindLink "two".toList) ⟨"src".toList⟩ "tsx".toList = .ok "two".toList := by
  refine ⟨⟨⟨?_, by decide +kernel, List.suffix_cons _ _⟩, ?_⟩, ⟨?_, ?_⟩, read_behindLink _,
    read_behindLink _⟩
  · rw [filesBelow_withOther]
    simp
  · rw [files_withOther]
    decide +kernel
  · rw [files_behindLink]
    decide +kernel
  · rw [files_behindLink]
    decide +kernel

end Sources

end ClassSheet

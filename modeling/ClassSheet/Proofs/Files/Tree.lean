import ClassSheet.Files.Disk
import Mathlib.Data.List.Nodup

/-!
# Trees that grow

* `Node.at?_append`, `Node.at?_put_self`: what is at an address, also after it was put there.
* `Node.outline_at?_put`: what is elsewhere stays, except for the entries of a directory.
* `Node.Grows`: everything in a tree is at the same address in another one. A file may hold other
  bytes there and a directory more entries.
* `Node.WellFormed`: the names in every directory are distinct, and each is a name that the part of
  a path can be. It is decided by looking at every directory.
-/

namespace ClassSheet.Node

variable {node node' node'' new old : Node} {name : Bytes} {bytes : ByteArray}
  {entries : List (Bytes × Node)} {address place : Address}

/-! ## Entries -/

theorem lookup_cons_eq (listed name : Bytes) (old : Node) (entries : List (Bytes × Node)) :
    ((listed, old) :: entries).lookup name =
      if name = listed then some old else entries.lookup name := by
  rw [List.lookup_cons]
  by_cases h : name = listed
  · simp [h]
  · rw [beq_eq_false_iff_ne.mpr h, if_neg h]

theorem mem_of_lookup (h : entries.lookup name = some node) : (name, node) ∈ entries := by
  obtain ⟨before, after, rfl, -⟩ := List.lookup_eq_some_iff.mp h
  simp

theorem lookup_of_mem (hnodup : (entries.map (·.1)).Nodup) (h : (name, node) ∈ entries) :
    entries.lookup name = some node := by
  obtain ⟨before, after, rfl⟩ := List.append_of_mem h
  refine List.lookup_eq_some_iff.mpr ⟨before, after, rfl, fun entry hentry => ?_⟩
  rw [List.map_append, List.map_cons] at hnodup
  have hne : entry.1 ≠ name :=
    (List.nodup_append.mp hnodup).2.2 _ (List.mem_map_of_mem hentry) _ List.mem_cons_self
  simpa using hne.symm

theorem lookup_putEntry (name other : Bytes) (node : Node) (entries : List (Bytes × Node)) :
    (putEntry name node entries).lookup other =
      if other = name then some node else entries.lookup other := by
  induction entries with
  | nil => rw [putEntry, lookup_cons_eq]
  | cons entry entries ih =>
    obtain ⟨listed, old⟩ := entry
    rw [putEntry]
    by_cases hlisted : listed = name
    · subst hlisted
      rw [if_pos rfl, lookup_cons_eq, lookup_cons_eq]
      split <;> rfl
    · rw [if_neg hlisted, lookup_cons_eq, lookup_cons_eq, ih]
      by_cases h : other = listed
      · rw [if_pos h, if_pos h, if_neg (h ▸ hlisted)]
      · rw [if_neg h, if_neg h]

theorem putEntry_self (h : entries.lookup name = some node) :
    putEntry name node entries = entries := by
  induction entries with
  | nil => cases h
  | cons entry entries ih =>
    obtain ⟨listed, old⟩ := entry
    rw [lookup_cons_eq] at h
    rw [putEntry]
    by_cases hlisted : listed = name
    · subst hlisted
      rw [if_pos rfl] at h
      cases h
      rw [if_pos rfl]
    · rw [if_neg fun e => hlisted e.symm] at h
      rw [if_neg hlisted, ih h]

theorem mem_putEntry {entry : Bytes × Node} (h : entry ∈ putEntry name node entries) :
    entry = (name, node) ∨ entry ∈ entries := by
  induction entries with
  | nil => exact .inl (List.mem_singleton.mp h)
  | cons first entries ih =>
    obtain ⟨listed, old⟩ := first
    rw [putEntry] at h
    split at h
    · rcases List.mem_cons.mp h with h | h
      · exact .inl h
      · exact .inr (List.mem_cons_of_mem _ h)
    · rcases List.mem_cons.mp h with rfl | h
      · exact .inr List.mem_cons_self
      · exact (ih h).imp_right (List.mem_cons_of_mem _)

theorem nodup_putEntry (h : (entries.map (·.1)).Nodup) :
    ((putEntry name node entries).map (·.1)).Nodup := by
  induction entries with
  | nil => simp [putEntry]
  | cons entry entries ih =>
    obtain ⟨listed, old⟩ := entry
    obtain ⟨hnew, hnodup⟩ := List.nodup_cons.mp h
    rw [putEntry]
    split
    · rename_i hlisted
      subst hlisted
      exact h
    · rename_i hlisted
      refine List.nodup_cons.mpr ⟨fun hmem => ?_, ih hnodup⟩
      obtain ⟨entry, hentry, hname⟩ := List.mem_map.mp hmem
      rcases mem_putEntry hentry with rfl | hentry
      · exact hlisted hname.symm
      · exact hnew (List.mem_map.mpr ⟨entry, hentry, hname⟩)

/-! ## Nodes at addresses -/

@[simp]
theorem at?_nil (node : Node) : node.at? [] = some node := by
  cases node <;> rfl

@[simp]
theorem at?_directory_cons (entries : List (Bytes × Node)) (name : Bytes) (address : Address) :
    (directory entries).at? (name :: address) =
      (entries.lookup name).bind fun node => node.at? address := rfl

theorem at?_append (node : Node) (address place : Address) :
    node.at? (address ++ place) = (node.at? address).bind fun node => node.at? place := by
  induction address generalizing node with
  | nil => simp
  | cons name address ih =>
    cases node with
    | file bytes => rfl
    | link target => rfl
    | directory entries =>
      rw [List.cons_append, at?_directory_cons, at?_directory_cons]
      cases entries.lookup name with
      | none => rfl
      | some node => exact ih node

/-- What is under a name in the directory at an address. -/
theorem at?_concat (h : node.at? address = some (directory entries)) (name : Bytes) :
    node.at? (address ++ [name]) = entries.lookup name := by
  rw [at?_append, h, Option.bind_some, at?_directory_cons]
  cases entries.lookup name <;> simp

theorem at?_singleton (entries : List (Bytes × Node)) (name : Bytes) :
    (directory entries).at? [name] = entries.lookup name :=
  at?_concat (at?_nil (directory entries)) name

theorem exists_of_at?_concat (h : node.at? (address ++ [name]) = some new) :
    ∃ entries, node.at? address = some (directory entries) ∧ entries.lookup name = some new := by
  rw [at?_append, Option.bind_eq_some_iff] at h
  obtain ⟨parent, hparent, hchild⟩ := h
  cases parent with
  | directory entries =>
    refine ⟨entries, hparent, ?_⟩
    rw [at?_directory_cons, Option.bind_eq_some_iff] at hchild
    obtain ⟨child, hlookup, hchild⟩ := hchild
    rw [hlookup, ← hchild, at?_nil]
  | file bytes => cases hchild
  | link target => cases hchild

/-- Above a directory there is one as well. -/
theorem exists_at?_dropLast (h : node.at? address = some (directory entries)) :
    ∃ above, node.at? address.dropLast = some (directory above) := by
  rcases List.eq_nil_or_concat address with rfl | ⟨address, name, rfl⟩
  · exact ⟨entries, h⟩
  · rw [List.concat_eq_append] at h ⊢
    rw [List.dropLast_concat]
    obtain ⟨above, habove, -⟩ := exists_of_at?_concat h
    exact ⟨above, habove⟩

/-! ## Trees with another node -/

/-- A new node is found where it was put, in a directory that was there. -/
theorem at?_put_concat (h : node.at? address = some (directory entries)) :
    (put new node (address ++ [name])).at? (address ++ [name]) = some new := by
  induction address generalizing node with
  | nil =>
    rw [at?_nil, Option.some.injEq] at h
    subst h
    rw [List.nil_append, put, at?_directory_cons, lookup_putEntry, if_pos rfl, Option.bind_some,
      at?_nil]
  | cons first address ih =>
    cases node with
    | file bytes => cases h
    | link target => cases h
    | directory listed =>
      rw [at?_directory_cons, Option.bind_eq_some_iff] at h
      obtain ⟨child, hchild, h⟩ := h
      have hne : address ++ [name] ≠ [] := by simp
      rw [List.cons_append, put, hchild]
      · dsimp only
        rw [at?_directory_cons, lookup_putEntry, if_pos rfl, Option.bind_some, ih h]
      · exact hne

theorem at?_put_self (h : node.at? address = some old) :
    (put new node address).at? address = some new := by
  rcases List.eq_nil_or_concat address with rfl | ⟨address, name, rfl⟩
  · cases node <;> simp [put]
  · rw [List.concat_eq_append] at h ⊢
    obtain ⟨entries, hentries, -⟩ := exists_of_at?_concat h
    exact at?_put_concat hentries

/-- To put a node where it is changes nothing. -/
theorem put_self (h : node.at? address = some new) : put new node address = node := by
  fun_induction put new node address with
  | case1 node =>
    rw [at?_nil, Option.some.injEq] at h
    exact h.symm
  | case2 entries name =>
    rw [putEntry_self ((at?_singleton entries name).symm.trans h)]
  | case3 entries name address hne node hlookup ih =>
    rw [at?_directory_cons, hlookup, Option.bind_some] at h
    rw [ih h, putEntry_self hlookup]
  | case4 entries name address hne hlookup => rfl
  | case5 node name address h₁ h₂ => rfl

/-- What is looked at on the way along a path: not the entries of a directory. -/
def outline : Node → Node
  | directory _ => directory []
  | node => node

/-- Nothing is below the node. -/
def IsLeaf (node : Node) : Prop := ∀ name address, node.at? (name :: address) = none

theorem isLeaf_file (bytes : ByteArray) : (file bytes).IsLeaf := fun _ _ => rfl

theorem isLeaf_empty : (directory []).IsLeaf := fun _ _ => rfl

/-- A leaf in the place of nothing or of another leaf changes nothing elsewhere. -/
theorem outline_at?_put (hnew : new.IsLeaf) (hold : ∀ old, node.at? address = some old → old.IsLeaf)
    (hplace : place ≠ address) :
    ((put new node address).at? place).map outline = (node.at? place).map outline := by
  fun_induction put new node address generalizing place with
  | case1 node =>
    cases place with
    | nil => exact absurd rfl hplace
    | cons name place => rw [hnew, hold node (at?_nil node)]
  | case2 entries name =>
    cases place with
    | nil => simp [outline]
    | cons other place =>
      rw [at?_directory_cons, at?_directory_cons, lookup_putEntry]
      by_cases h : other = name
      · subst h
        cases place with
        | nil => exact absurd rfl hplace
        | cons next place =>
          rw [if_pos rfl, Option.bind_some, hnew]
          cases hlookup : entries.lookup other with
          | none => rfl
          | some old =>
            rw [Option.bind_some, hold old (by rw [at?_directory_cons, hlookup]; simp)]
      · rw [if_neg h]
  | case3 entries name address hne node hlookup ih =>
    cases place with
    | nil => simp [outline]
    | cons other place =>
      rw [at?_directory_cons, at?_directory_cons, lookup_putEntry]
      by_cases h : other = name
      · subst h
        have hplace' : place ≠ address := fun e => hplace (by rw [e])
        rw [if_pos rfl, hlookup, Option.bind_some, Option.bind_some]
        refine ih (fun old h => hold old ?_) hplace'
        rw [at?_directory_cons, hlookup, Option.bind_some, h]
      · rw [if_neg h]
  | case4 entries name address hne hlookup => rfl
  | case5 node name address h₁ h₂ => rfl

/-! ## Growing -/

/-- Both are files, or both are directories, or both are the same link. -/
inductive SameKind : Node → Node → Prop where
  | file (bytes bytes' : ByteArray) : SameKind (.file bytes) (.file bytes')
  | directory (entries entries' : List (Bytes × Node)) :
    SameKind (.directory entries) (.directory entries')
  | link (target : Path) : SameKind (.link target) (.link target)

theorem SameKind.refl (node : Node) : SameKind node node := by
  cases node with
  | file bytes => exact .file bytes bytes
  | directory entries => exact .directory entries entries
  | link target => exact .link target

theorem SameKind.trans (h : SameKind node node') (h' : SameKind node' node'') :
    SameKind node node'' := by
  cases h <;> cases h' <;> constructor

theorem SameKind.of_outline_eq (h : node.outline = node'.outline) : SameKind node node' := by
  cases node with
  | file bytes =>
    cases node' <;> cases h
    exact .refl _
  | directory entries =>
    cases node' <;> cases h
    exact .directory _ _
  | link target =>
    cases node' <;> cases h
    exact .refl _

/-- Everything in the one tree is at the same address in the other one. -/
def Grows (node node' : Node) : Prop :=
  ∀ address old, node.at? address = some old →
    ∃ new, node'.at? address = some new ∧ SameKind old new

theorem Grows.refl (node : Node) : node.Grows node := fun _ old h => ⟨old, h, .refl old⟩

theorem Grows.trans (h : node.Grows node') (h' : node'.Grows node'') : node.Grows node'' := by
  intro address old hold
  obtain ⟨mid, hmid, hkind⟩ := h address old hold
  obtain ⟨new, hnew, hkind'⟩ := h' address mid hmid
  exact ⟨new, hnew, hkind.trans hkind'⟩

theorem Grows.sameKind (h : node.Grows node') : SameKind node node' := by
  obtain ⟨new, hnew, hkind⟩ := h [] node (at?_nil node)
  rw [at?_nil, Option.some.injEq] at hnew
  exact hnew ▸ hkind

/-- What is at an address grows with the tree. -/
theorem Grows.at? (h : node.Grows node') (hold : node.at? address = some old) :
    ∃ new, node'.at? address = some new ∧ old.Grows new := by
  obtain ⟨new, hnew, -⟩ := h address old hold
  refine ⟨new, hnew, fun place below hbelow => ?_⟩
  obtain ⟨below', hbelow', hkind⟩ :=
    h (address ++ place) below (by rw [at?_append, hold, Option.bind_some, hbelow])
  rw [at?_append, hnew, Option.bind_some] at hbelow'
  exact ⟨below', hbelow', hkind⟩

theorem Grows.entry {entries' : List (Bytes × Node)}
    (h : (directory entries).Grows (directory entries')) (hold : entries.lookup name = some old) :
    ∃ new, entries'.lookup name = some new ∧ old.Grows new := by
  obtain ⟨new, hnew, hgrows⟩ := h.at? ((at?_singleton entries name).trans hold)
  exact ⟨new, (at?_singleton entries' name).symm.trans hnew, hgrows⟩

theorem Grows.put (hnew : new.IsLeaf)
    (hold : ∀ old, node.at? address = some old → old.IsLeaf ∧ SameKind old new) :
    node.Grows (put new node address) := by
  intro place old h
  by_cases hplace : place = address
  · subst hplace
    exact ⟨new, at?_put_self h, (hold old h).2⟩
  · have houtline := outline_at?_put hnew (fun old h => (hold old h).1) hplace
    rw [h, Option.map_some, Option.map_eq_some_iff] at houtline
    obtain ⟨old', hold', heq⟩ := houtline
    exact ⟨old', hold', .of_outline_eq heq.symm⟩

/-- Directories and links stay, which is all that matters on the way along a path. -/
def KeepsWays (node node' : Node) : Prop :=
  ∀ address old, node.at? address = some old → (∀ bytes, old ≠ file bytes) →
    ∃ new, node'.at? address = some new ∧ SameKind old new

theorem Grows.keepsWays (h : node.Grows node') : node.KeepsWays node' :=
  fun address old hold _ => h address old hold

/-! ## Names -/

/-- The name can be the part of a path, which then leads to what has the name. -/
def IsName (name : Bytes) : Prop := ¬Path.isIdle name ∧ name ≠ Path.above ∧ Path.slash ∉ name

instance (name : Bytes) : Decidable (IsName name) :=
  inferInstanceAs (Decidable (¬Path.isIdle name ∧ name ≠ Path.above ∧ Path.slash ∉ name))

/-- The names in every directory of the tree are distinct and can be parts of paths. -/
def WellFormed (node : Node) : Prop :=
  ∀ address entries, node.at? address = some (directory entries) →
    (entries.map (·.1)).Nodup ∧ ∀ entry ∈ entries, IsName entry.1

theorem WellFormed.at? (h : node.WellFormed) (hat : node.at? address = some new) :
    new.WellFormed := by
  intro place entries hentries
  exact h (address ++ place) entries (by rw [at?_append, hat, Option.bind_some, hentries])

/-- Whatever is in a well-formed tree has a name that the part of a path can be. -/
theorem WellFormed.isName_of_at? (h : node.WellFormed) (hat : node.at? address = some old) :
    ∀ name ∈ address.getLast?, IsName name := by
  intro name hname
  obtain ⟨parent, rfl⟩ := List.getLast?_eq_some_iff.mp hname
  obtain ⟨entries, hentries, hentry⟩ := exists_of_at?_concat hat
  exact (h parent entries hentries).2 _ (mem_of_lookup hentry)

theorem wellFormed_file (bytes : ByteArray) : (file bytes).WellFormed := by
  intro address entries h
  cases address <;> cases h

theorem wellFormed_link (target : Path) : (link target).WellFormed := by
  intro address entries h
  cases address <;> cases h

theorem wellFormed_directory_iff :
    (directory entries).WellFormed ↔
      (entries.map (·.1)).Nodup ∧ ∀ entry ∈ entries, IsName entry.1 ∧ entry.2.WellFormed := by
  constructor
  · intro h
    obtain ⟨hnodup, hnames⟩ := h [] entries (at?_nil _)
    refine ⟨hnodup, fun entry hentry => ⟨hnames entry hentry, ?_⟩⟩
    exact h.at? ((at?_singleton entries entry.1).trans (lookup_of_mem hnodup hentry))
  · rintro ⟨hnodup, hall⟩ address listed h
    cases address with
    | nil =>
      cases h
      exact ⟨hnodup, fun entry hentry => (hall entry hentry).1⟩
    | cons name address =>
      rw [at?_directory_cons, Option.bind_eq_some_iff] at h
      obtain ⟨child, hchild, h⟩ := h
      exact (hall _ (mem_of_lookup hchild)).2 address listed h

mutual

/-- Decides whether the tree is well-formed, entry by entry. -/
def decideWellFormed : (node : Node) → Decidable node.WellFormed
  | .file bytes => .isTrue (wellFormed_file bytes)
  | .link target => .isTrue (wellFormed_link target)
  | .directory entries =>
    have := decideWellFormedEntries entries
    decidable_of_iff _ wellFormed_directory_iff.symm

/-- Decides whether the entries are well-formed and their names can be parts of paths. -/
def decideWellFormedEntries :
    (entries : List (Bytes × Node)) →
      Decidable (∀ entry ∈ entries, IsName entry.1 ∧ entry.2.WellFormed)
  | [] => .isTrue (List.forall_mem_nil _)
  | (_, node) :: entries =>
    have := decideWellFormed node
    have := decideWellFormedEntries entries
    decidable_of_iff _ List.forall_mem_cons.symm

end

instance (node : Node) : Decidable node.WellFormed := decideWellFormed node

theorem WellFormed.putEntry (h : (directory entries).WellFormed) (hname : IsName name)
    (hnew : new.WellFormed) : (directory (putEntry name new entries)).WellFormed := by
  rw [wellFormed_directory_iff] at h ⊢
  refine ⟨nodup_putEntry h.1, fun entry hentry => ?_⟩
  rcases mem_putEntry hentry with rfl | hentry
  · exact ⟨hname, hnew⟩
  · exact h.2 entry hentry

theorem WellFormed.put (h : node.WellFormed) (hnew : new.WellFormed)
    (hname : ∀ name ∈ address.getLast?, IsName name) : (Node.put new node address).WellFormed := by
  fun_induction Node.put new node address with
  | case1 node => exact hnew
  | case2 entries name => exact h.putEntry (hname name rfl) hnew
  | case3 entries name address hne node hlookup ih =>
    obtain ⟨hentry, hnode⟩ := (wellFormed_directory_iff.mp h).2 _ (mem_of_lookup hlookup)
    refine h.putEntry hentry (ih hnode fun last hlast => hname last ?_)
    cases address with
    | nil => exact absurd rfl hne
    | cons next address => exact hlast
  | case4 entries name address hne hlookup => exact h
  | case5 node name address h₁ h₂ => exact h

end ClassSheet.Node

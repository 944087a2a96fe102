import NanoRos.Codegen.FileSystem

/-!
# File systems with the same tree

What a search comes to depends on which paths are files or directories, on
which directories can be listed and on which are the same one: not on the
contents of the files, nor on the order in which directories are listed.
-/

namespace NanoRos.Codegen

theorem Path.nodup_map_join {ν : Type} (dir : Path ν) {names : List ν}
    (nodup : names.Nodup) : (names.map dir.join).Nodup := by
  refine nodup.map fun left right same => ?_
  exact List.singleton_injective (List.append_cancel_left same)

namespace FileSystem

variable {ν ι ι' : Type}

/-! ## A change of contents -/

/-- The file system with another content in one file. -/
def overwrite [DecidableEq ι] (fs : FileSystem ν ι) (id : ι)
    (content : Option (List Char)) : FileSystem ν ι where
  root := fs.root
  inode node :=
    match fs.inode node with
    | .dir listed entries => .dir listed entries
    | .file before => .file (if node = id then content else before)
  nodup node listed entries found := by
    split at found
    · case _ same =>
        cases found
        exact fs.nodup node listed entries same
    · cases found

section Overwrite

variable [DecidableEq ι] (fs : FileSystem ν ι) (id : ι)
  (content : Option (List Char))

theorem inode_overwrite (node : ι) :
    (fs.overwrite id content).inode node =
      match fs.inode node with
      | .dir listed entries => .dir listed entries
      | .file before => .file (if node = id then content else before) := rfl

@[simp] theorem entries_overwrite :
    (fs.overwrite id content).entries = fs.entries := by
  funext node
  rw [entries, entries, inode_overwrite]
  cases fs.inode node <;> rfl

@[simp] theorem listed_overwrite :
    (fs.overwrite id content).listed = fs.listed := by
  funext node
  rw [listed, listed, inode_overwrite]
  cases fs.inode node <;> rfl

@[simp] theorem nodeIsDir_overwrite :
    (fs.overwrite id content).nodeIsDir = fs.nodeIsDir := by
  funext node
  rw [nodeIsDir, nodeIsDir, inode_overwrite]
  cases fs.inode node <;> rfl

end Overwrite

variable [EntryName ν]

/-! ## The same tree -/

/-- The path is a directory that can be listed. -/
def isListed (fs : FileSystem ν ι) (path : Path ν) : Bool :=
  (fs.resolve path).any fs.listed

/-- The same directories and file names, whatever the files contain. -/
structure SameTree (fs : FileSystem ν ι) (other : FileSystem ν ι') : Prop where
  isDir : ∀ path, fs.isDir path = other.isDir path
  isFile : ∀ path, fs.isFile path = other.isFile path
  isListed : ∀ path, fs.isListed path = other.isListed path
  canonical : ∀ left right,
    fs.isDir left = true → fs.isDir right = true →
      (fs.canonicalize left = fs.canonicalize right ↔
        other.canonicalize left = other.canonicalize right)

theorem SameTree.refl (fs : FileSystem ν ι) : fs.SameTree fs where
  isDir _ := rfl
  isFile _ := rfl
  isListed _ := rfl
  canonical _ _ _ _ := Iff.rfl

/-! ## Directories and their listings -/

theorem isListed_iff {fs : FileSystem ν ι} {path : Path ν} :
    fs.isListed path = true ↔
      ∃ id, fs.resolve path = some id ∧ fs.listed id = true := by
  rw [isListed, Option.any_eq_true]

theorem readDir_eq (fs : FileSystem ν ι) (order : fs.Listing)
    (path : Path ν) :
    fs.readDir order path =
      if fs.isListed path then some (order.names path) else none := rfl

theorem isDir_of_isListed {fs : FileSystem ν ι} {path : Path ν}
    (listed : fs.isListed path = true) : fs.isDir path = true := by
  obtain ⟨id, leads, listed⟩ := isListed_iff.mp listed
  refine isDir_iff.mpr ⟨id, leads, ?_⟩
  rw [FileSystem.listed] at listed
  rw [nodeIsDir]
  split at listed
  · rfl
  · cases listed

theorem isDir_of_child {fs : FileSystem ν ι} {path : Path ν} {name : ν}
    (leads : (fs.resolve (path.join name)).isSome) : fs.isDir path = true := by
  obtain ⟨id, leadsDir, isDir, _⟩ := dir_of_child leads
  exact isDir_iff.mpr ⟨id, leadsDir, isDir⟩

theorem nodup_names {fs : FileSystem ν ι} (order : fs.Listing)
    {path : Path ν} (listed : fs.isListed path = true) :
    (order.names path).Nodup := by
  obtain ⟨id, leads, _⟩ := isListed_iff.mp listed
  rw [(order.perm path id leads).nodup_iff, entries]
  split
  · case _ listed entries found => exact fs.nodup id listed entries found
  · exact List.nodup_nil

/-- What is there is in the listing. -/
theorem mem_names {fs : FileSystem ν ι} (order : fs.Listing) {path : Path ν}
    {name : ν} (leads : (fs.resolve (path.join name)).isSome) :
    name ∈ order.names path := by
  obtain ⟨id, leadsDir, _, member⟩ := dir_of_child leads
  exact (order.perm path id leadsDir).mem_iff.mpr member

/-- A directory is not a file. -/
theorem isFile_of_isDir {fs : FileSystem ν ι} {path : Path ν}
    (isDir : fs.isDir path = true) : fs.isFile path = false := by
  obtain ⟨id, leads, isDirNode⟩ := isDir_iff.mp isDir
  rw [isFile, leads, Option.any_some, isDirNode]
  rfl

/-- Paths in order, each once, are settled by which they are. -/
theorem eq_of_inOrder {left right : List (Path ν)}
    (inOrder : left.Pairwise (· ≤ ·)) (inOrder' : right.Pairwise (· ≤ ·))
    (nodup : left.Nodup) (nodup' : right.Nodup)
    (same : ∀ path, path ∈ left ↔ path ∈ right) : left = right :=
  List.Perm.eq_of_pairwise' inOrder inOrder'
    ((List.perm_ext_iff_of_nodup nodup nodup').mpr same)

/-! ## Paths after a change -/

section Overwrite

variable [DecidableEq ι] (fs : FileSystem ν ι) (id : ι)
  (content : Option (List Char))

@[simp] theorem resolve_overwrite (path : Path ν) :
    (fs.overwrite id content).resolve path = fs.resolve path := by
  have child : (fs.overwrite id content).child = fs.child := by
    funext node name
    rw [FileSystem.child, FileSystem.child, entries_overwrite]
  rw [resolve, resolve, child]
  rfl

theorem sameTree_overwrite : fs.SameTree (fs.overwrite id content) where
  isDir path := by simp [isDir]
  isFile path := by simp [isFile]
  isListed path := by simp [isListed]
  canonical left right _ _ := by simp [canonicalize]

/-- What other files contain stays the same. -/
theorem readToString_overwrite {path : Path ν}
    (apart : fs.resolve path ≠ some id) :
    (fs.overwrite id content).readToString path = fs.readToString path := by
  rw [readToString, readToString, resolve_overwrite]
  cases leads : fs.resolve path with
  | none => rfl
  | some node =>
      have notId : node ≠ id := fun same => apart (same ▸ leads)
      dsimp only [Option.bind_eq_bind, Option.bind_some]
      rw [inode_overwrite]
      cases fs.inode node with
      | dir listed entries => rfl
      | file before =>
          dsimp only
          rw [if_neg notId]

end Overwrite

end FileSystem

end NanoRos.Codegen

import NanoRos.Foundation.Entries
import NanoRos.Foundation.PartialRun
import NanoRos.Codegen.MsgField
import Mathlib.Data.Char
import Mathlib.Data.List.Lex
import Mathlib.Data.List.Sort

/-!
# The file system the code generator reads

Directories and files are nodes; a link is an entry that leads to the node it
resolves to, so that one directory may have several names and may lie below
itself.  In which order a directory is listed is not settled here.
-/

namespace NanoRos.Codegen

/-- Names of directory entries (`OsStr`): ordered as paths are, some of them
text. -/
class EntryName (ν : Type) extends LinearOrder ν where
  toStr : ν → Option Name
  ofStr : Name → ν
  display : ν → Name
  toStr_ofStr : ∀ text, toStr (ofStr text) = some text
  ofStr_of_toStr : ∀ name text, toStr name = some text → ofStr text = name

/-- Names that are all text. -/
instance : EntryName Name where
  toLinearOrder := inferInstanceAs (LinearOrder (List Char))
  toStr := some
  ofStr := id
  display := id
  toStr_ofStr _ := rfl
  ofStr_of_toStr _ _ same := (Option.some.inj same).symm

/-- A directory with its entries, or a file with its content.  An entry
without a node is a dangling link; a file without content is not text. -/
inductive Inode (ν ι : Type) where
  | dir (listed : Bool) (entries : List (ν × Option ι))
  | file (content : Option (List Char))

/-- The names of a directory are distinct. -/
structure FileSystem (ν ι : Type) where
  root : ι
  inode : ι → Inode ν ι
  nodup : ∀ id listed entries, inode id = .dir listed entries →
    (entries.map Prod.fst).Nodup

/-- A path: the names on it, from the root on. -/
abbrev Path (ν : Type) := List ν

namespace Path

variable {ν : Type}

/-- `join`. -/
def join (path : Path ν) (name : ν) : Path ν := path ++ [name]

/-- `join` with a name given as text. -/
def joinStr [EntryName ν] (path : Path ν) (text : Name) : Path ν :=
  path.join (EntryName.ofStr text)

/-- `file_name`. -/
def fileName (path : Path ν) : Option ν := path.getLast?

/-- `display`. -/
def display [EntryName ν] (path : Path ν) : Name :=
  if path = [] then ['/']
  else path.flatMap fun name => '/' :: EntryName.display name

@[simp] theorem fileName_join (path : Path ν) (name : ν) :
    (path.join name).fileName = some name := by
  rw [fileName, join]
  exact List.getLast?_concat

end Path

namespace FileSystem

variable {ν ι : Type} [EntryName ν]

/-- The entries of a directory. -/
def entries (fs : FileSystem ν ι) (id : ι) : List (ν × Option ι) :=
  match fs.inode id with
  | .dir _ entries => entries
  | .file _ => []

/-- The node an entry of a directory leads to. -/
def child (fs : FileSystem ν ι) (id : ι) (name : ν) : Option ι :=
  ((fs.entries id).lookup name).join

/-- The node a path leads to. -/
def resolve (fs : FileSystem ν ι) (path : Path ν) : Option ι :=
  PartialRun.exec fs.child fs.root path

/-- `canonicalize`: nodes stand for canonical paths. -/
def canonicalize (fs : FileSystem ν ι) (path : Path ν) : Option ι :=
  fs.resolve path

/-- The node is a directory. -/
def nodeIsDir (fs : FileSystem ν ι) (id : ι) : Bool :=
  match fs.inode id with
  | .dir _ _ => true
  | .file _ => false

/-- `is_dir`. -/
def isDir (fs : FileSystem ν ι) (path : Path ν) : Bool :=
  (fs.resolve path).any fs.nodeIsDir

/-- `is_file`. -/
def isFile (fs : FileSystem ν ι) (path : Path ν) : Bool :=
  (fs.resolve path).any fun id => !fs.nodeIsDir id

/-- `read_to_string`. -/
def readToString (fs : FileSystem ν ι) (path : Path ν) :
    Option (List Char) := do
  match fs.inode (← fs.resolve path) with
  | .dir _ _ => none
  | .file content => content

/-- Whether the directory may be listed. -/
def listed (fs : FileSystem ν ι) (id : ι) : Bool :=
  match fs.inode id with
  | .dir listed _ => listed
  | .file _ => false

/-- The orders in which `read_dir` lists the entries of a directory. -/
structure Listing (fs : FileSystem ν ι) where
  names : Path ν → List ν
  perm : ∀ path id, fs.resolve path = some id →
    (names path).Perm ((fs.entries id).map Prod.fst)

/-- Every directory listed as it is stored. -/
instance (fs : FileSystem ν ι) : Inhabited fs.Listing where
  default := {
    names := fun path =>
      ((fs.resolve path).toList.flatMap fs.entries).map Prod.fst
    perm := by
      intro path id leads
      rw [leads, Option.toList_some, List.flatMap_singleton] }

/-- `read_dir`. -/
def readDir (fs : FileSystem ν ι) (order : fs.Listing) (path : Path ν) :
    Option (List ν) :=
  if (fs.resolve path).any fs.listed then some (order.names path) else none

/-! ## Paths and nodes -/

@[simp] theorem resolve_join (fs : FileSystem ν ι) (path : Path ν) (name : ν) :
    fs.resolve (path.join name) =
      (fs.resolve path).bind (fs.child · name) := by
  rw [resolve, Path.join, PartialRun.exec_append]
  congr 1
  funext id
  rw [PartialRun.exec_cons]
  cases fs.child id name <;> rfl

theorem resolve_join_of_resolve {fs : FileSystem ν ι} {path : Path ν} {id : ι}
    (leads : fs.resolve path = some id) (name : ν) :
    fs.resolve (path.join name) = fs.child id name := by
  rw [resolve_join, leads, Option.bind_some]

theorem isDir_iff {fs : FileSystem ν ι} {path : Path ν} :
    fs.isDir path = true ↔
      ∃ id, fs.resolve path = some id ∧ fs.nodeIsDir id = true := by
  rw [isDir, Option.any_eq_true]

theorem isFile_iff {fs : FileSystem ν ι} {path : Path ν} :
    fs.isFile path = true ↔
      ∃ id, fs.resolve path = some id ∧ fs.nodeIsDir id = false := by
  simp [isFile, Option.any_eq_true]

theorem isDir_of_resolve {fs : FileSystem ν ι} {path other : Path ν}
    (same : fs.resolve path = fs.resolve other) :
    fs.isDir path = fs.isDir other := by
  rw [isDir, isDir, same]

theorem readDir_eq_some {fs : FileSystem ν ι} {order : fs.Listing}
    {path : Path ν} {names : List ν} :
    fs.readDir order path = some names ↔
      names = order.names path ∧
        ∃ id, fs.resolve path = some id ∧ fs.listed id = true := by
  rw [readDir]
  split
  · case _ listed =>
      rw [Option.any_eq_true] at listed
      exact ⟨fun same => ⟨(Option.some.inj same).symm, listed⟩,
        fun same => congrArg some same.1.symm⟩
  · case _ notListed =>
      rw [Option.any_eq_true] at notListed
      exact ⟨fun absent => (Option.some_ne_none _ absent.symm).elim,
        fun same => absurd same.2 notListed⟩

/-- The name of an entry that leads somewhere is a name of the directory. -/
theorem mem_names_of_child {fs : FileSystem ν ι} {id below : ι} {name : ν}
    (leads : fs.child id name = some below) :
    name ∈ (fs.entries id).map Prod.fst := by
  have found : (fs.entries id).lookup name = some (some below) :=
    Option.join_eq_some_iff.mp leads
  exact Entries.mem_keys_of_lookup (Option.isSome_of_eq_some found)

/-- What has something in it is a directory that lists it. -/
theorem dir_of_child {fs : FileSystem ν ι} {path : Path ν} {name : ν}
    (leads : (fs.resolve (path.join name)).isSome) :
    ∃ id, fs.resolve path = some id ∧ fs.nodeIsDir id = true ∧
      name ∈ (fs.entries id).map Prod.fst := by
  obtain ⟨below, leads⟩ := Option.isSome_iff_exists.mp leads
  rw [resolve_join] at leads
  obtain ⟨id, leadsDir, child⟩ := Option.bind_eq_some_iff.mp leads
  have member := mem_names_of_child child
  refine ⟨id, leadsDir, ?_, member⟩
  rw [entries] at member
  rw [nodeIsDir]
  split at member
  · rfl
  · cases member

end FileSystem

end NanoRos.Codegen

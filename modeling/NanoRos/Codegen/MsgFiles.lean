import NanoRos.Codegen.PackageIndex

/-!
# Where a message is defined

`MsgResolver::find_msg_file` of `msg_file_parser.rs`.
-/

namespace NanoRos.Codegen

open Text

/-- `MsgResolver`; the files read so far are passed along apart from it. -/
structure MsgResolver (ν : Type) where
  rosPkgs : PackageIndex ν
  userPkgs : PackageIndex ν

/-- `ResolvedMsg`. -/
structure ResolvedMsg (ν : Type) where
  path : Path ν
  pkg : Name

/-- `split_type_path`. -/
def splitTypePath (typePath : Name) : Except Error (Name × Name) :=
  let invalid : Error :=
    ["Invalid message type '".toList ++ typePath ++
      "', expected 'pkg/Name' or 'pkg/msg/Name'".toList]
  match typePath.splitOn '/' with
  | [pkg, name] => .ok (pkg, name)
  | [pkg, middle, name] =>
      if middle = "msg".toList then .ok (pkg, name) else .error invalid
  | _ => .error invalid

/-- The file name of a message. -/
def msgFileName (name : Name) : Name := name ++ ".msg".toList

/-! ## Type paths -/

/-- `pkg/Name` or `pkg/msg/Name`. -/
def IsMsgPath (pkg name typePath : Name) : Prop :=
  '/' ∉ pkg ∧ '/' ∉ name ∧
    (typePath = pkg ++ '/' :: name ∨
      typePath = pkg ++ '/' :: ("msg".toList ++ '/' :: name))

theorem splitOn_of_isMsgPath {pkg name typePath : Name}
    (isPath : IsMsgPath pkg name typePath) :
    typePath.splitOn '/' = [pkg, name] ∨
      typePath.splitOn '/' = [pkg, "msg".toList, name] := by
  obtain ⟨plainPkg, plainName, short | long⟩ := isPath
  · refine .inl ?_
    rw [short, List.splitOn_append_cons_self_of_not_mem plainPkg,
      List.splitOn_eq_singleton plainName]
  · have plainMsg : '/' ∉ "msg".toList := by decide
    refine .inr ?_
    rw [long, List.splitOn_append_cons_self_of_not_mem plainPkg,
      List.splitOn_append_cons_self_of_not_mem plainMsg,
      List.splitOn_eq_singleton plainName]

theorem length_splitOn_of_isMsgPath {pkg name typePath : Name}
    (isPath : IsMsgPath pkg name typePath) :
    (typePath.splitOn '/').length ≤ 3 := by
  rcases splitOn_of_isMsgPath isPath with short | long
  · rw [short]
    exact Nat.le_succ 2
  · rw [long]
    exact Nat.le_refl 3

theorem splitTypePath_of_isMsgPath {pkg name typePath : Name}
    (isPath : IsMsgPath pkg name typePath) :
    splitTypePath typePath = .ok (pkg, name) := by
  rcases splitOn_of_isMsgPath isPath with short | long
  · rw [splitTypePath, short]
  · rw [splitTypePath, long]
    exact if_pos rfl

theorem isMsgPath_of_splitTypePath {pkg name typePath : Name}
    (split : splitTypePath typePath = .ok (pkg, name)) :
    IsMsgPath pkg name typePath := by
  have whole : ['/'].intercalate (typePath.splitOn '/') = typePath :=
    List.intercalate_splitOn '/'
  have plain : ∀ piece ∈ typePath.splitOn '/', '/' ∉ piece :=
    fun _ => notMem_of_mem_splitOn
  rw [splitTypePath] at split
  split at split
  · case _ pieces =>
      cases split
      rw [pieces] at plain whole
      refine ⟨plain pkg (by simp), plain name (by simp), .inl ?_⟩
      rw [← whole]
      simp
  · case _ pieces =>
      split at split
      · case _ isMsg =>
          cases split
          subst isMsg
          rw [pieces] at plain whole
          refine ⟨plain pkg (by simp), plain name (by simp), .inr ?_⟩
          rw [← whole]
          simp
      · cases split
  · cases split

namespace FileSystem

variable {ν ι : Type} [EntryName ν] (fs : FileSystem ν ι) (order : fs.Listing)

/-- A file of the name that is searched for. -/
def isTarget (name : Name) (entry : Path ν) : Bool :=
  fs.isFile entry &&
    entry.fileName.bind EntryName.toStr = some (msgFileName name)

/-- `search_for_msg`: the files of a directory come before what lies below
it. -/
def searchForMsg (name : Name) : Nat → Path ν → Option (Path ν)
  | depth, dir =>
      match fs.readDir order dir with
      | none => none
      | some names =>
          let entries := (names.map dir.join).insertionSort (· ≤ ·)
          match entries.find? (fs.isTarget name) with
          | some found => some found
          | none =>
              let subdirs := entries.filter fun entry =>
                !fs.isFile entry && fs.isDir entry && !isSkipped entry
              match depth with
              | 0 => none
              | depth + 1 => subdirs.findSome? (searchForMsg name depth)

/-- Where a package directory holds a message: at `msg/Name.msg`, or
elsewhere below. -/
def msgInPackage (name : Name) (pkgDir : Path ν) : Option (Path ν) :=
  let conventional :=
    (pkgDir.joinStr "msg".toList).joinStr (msgFileName name)
  if fs.isFile conventional then some conventional
  else fs.searchForMsg order name 4 pkgDir

/-- `find_msg_file`. -/
def findMsgFile (resolver : MsgResolver ν) (typePath : Name) :
    Except Error (ResolvedMsg ν) :=
  match splitTypePath typePath with
  | .error error => .error error
  | .ok (pkg, name) =>
      match [resolver.rosPkgs.get pkg, resolver.userPkgs.get pkg].reduceOption
      with
      | [] => .error
          ["package '".toList ++ pkg ++ "' (from '".toList ++ typePath ++
            "') not found in ROS install or user types directory".toList]
      | candidates =>
          match candidates.findSome? (fs.msgInPackage order name) with
          | some path => .ok ⟨path, pkg⟩
          | none => .error
              ["msg '".toList ++ name ++ "' not found in package '".toList ++
                pkg ++ "'".toList]

variable {fs order}

/-! ## What is found -/

theorem isFile_of_isTarget {name : Name} {entry : Path ν}
    (target : fs.isTarget name entry = true) : fs.isFile entry = true :=
  (Bool.and_eq_true_iff.mp target).1

theorem isFile_of_searchForMsg {name : Name} {depth : Nat} {dir path : Path ν}
    (found : fs.searchForMsg order name depth dir = some path) :
    fs.isFile path = true := by
  induction depth generalizing dir with
  | zero =>
      rw [searchForMsg] at found
      split at found
      · cases found
      · dsimp only at found
        split at found
        · case _ target =>
            cases found
            exact isFile_of_isTarget (List.find?_some target)
        · cases found
  | succ depth induction =>
      rw [searchForMsg] at found
      split at found
      · cases found
      · dsimp only at found
        split at found
        · case _ target =>
            cases found
            exact isFile_of_isTarget (List.find?_some target)
        · obtain ⟨_, _, deeper⟩ := List.exists_of_findSome?_eq_some found
          exact induction deeper

theorem isFile_of_findMsgFile {resolver : MsgResolver ν} {typePath : Name}
    {resolved : ResolvedMsg ν}
    (found : fs.findMsgFile order resolver typePath = .ok resolved) :
    fs.isFile resolved.path = true := by
  rw [findMsgFile] at found
  split at found
  · cases found
  · split at found
    · cases found
    · split at found
      · case _ path candidate =>
          cases found
          obtain ⟨_, _, inPackage⟩ :=
            List.exists_of_findSome?_eq_some candidate
          rw [msgInPackage] at inPackage
          split at inPackage
          · case _ conventional =>
              cases inPackage
              exact conventional
          · exact isFile_of_searchForMsg inPackage
      · cases found

/-- The package of a message that was found is in one of the indexes. -/
theorem pkg_of_findMsgFile {resolver : MsgResolver ν} {typePath : Name}
    {resolved : ResolvedMsg ν}
    (found : fs.findMsgFile order resolver typePath = .ok resolved) :
    (resolver.rosPkgs.get resolved.pkg).isSome ∨
      (resolver.userPkgs.get resolved.pkg).isSome := by
  rw [findMsgFile] at found
  split at found
  · cases found
  · case _ pkg name _ =>
      split at found
      · cases found
      · case _ some_ =>
          split at found
          · cases found
            by_contra neither
            rw [not_or, Option.not_isSome_iff_eq_none,
              Option.not_isSome_iff_eq_none] at neither
            exact some_ (by rw [neither.1, neither.2]; rfl)
          · cases found

end FileSystem

end NanoRos.Codegen

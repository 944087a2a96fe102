import NanoRos.Codegen.MsgFiles
import NanoRos.Codegen.PackageSearch

/-!
# What message lookup finds

Where a message may lie is said of paths alone; `find_msg_file` is compared
with that.  The one thing a search cannot do is to look into a directory that
may not be listed, which it takes for one without the message.
-/

namespace NanoRos.Codegen

namespace FileSystem

variable {ν ι ι' : Type} [EntryName ν]

/-! ## Where a message may lie -/

/-- The file `msg/Name.msg` of a package. -/
def conventional (pkgDir : Path ν) (name : Name) : Path ν :=
  (pkgDir.joinStr "msg".toList).joinStr (msgFileName name)

/-- A file `Name.msg` at most so many levels below a directory.  No directory
on the way has a name that is skipped, and what is asked of directories holds
of the first and of every one on the way. -/
def LiesBelow (fs : FileSystem ν ι) (opens : Path ν → Prop) (name : Name)
    (depth : Nat) (dir path : Path ν) : Prop :=
  ∃ levels : List ν, levels.length ≤ depth ∧
    (∀ level ∈ levels, (EntryName.toStr level).any isSkippedDir = false) ∧
    (∀ above, above <+: levels → opens (dir ++ above)) ∧
    path = Path.joinStr (dir ++ levels) (msgFileName name) ∧
    fs.isFile path = true

/-- A package directory holds the message in this file. -/
def HoldsMsg (fs : FileSystem ν ι) (opens : Path ν → Prop) (name : Name)
    (pkgDir path : Path ν) : Prop :=
  path = conventional pkgDir name ∧ fs.isFile path = true ∨
    fs.LiesBelow opens name 4 pkgDir path

/-- The index has a directory for the package, and that holds the message. -/
def Held (index : PackageIndex ν) (holds : Path ν → Path ν → Prop)
    (pkg : Name) (dir : Path ν) : Prop :=
  index.get pkg = some dir ∧ ∃ path, holds dir path

/-- The directory of the ROS install, or that of the user where the ROS
install does not hold the message. -/
def Preferred (resolver : MsgResolver ν) (holds : Path ν → Path ν → Prop)
    (pkg : Name) (dir : Path ν) : Prop :=
  Held resolver.rosPkgs holds pkg dir ∨
    (∀ rosDir, ¬ Held resolver.rosPkgs holds pkg rosDir) ∧
      Held resolver.userPkgs holds pkg dir

/-- A result is right for what the packages hold. -/
structure Finds (fs : FileSystem ν ι) (resolver : MsgResolver ν)
    (holds : Path ν → Path ν → Prop) (pkg name : Name)
    (result : Except Error (ResolvedMsg ν)) : Prop where
  found_iff : (∃ resolved, result = .ok resolved) ↔
    ∃ dir, Held resolver.rosPkgs holds pkg dir ∨
      Held resolver.userPkgs holds pkg dir
  lies : ∀ resolved dir, result = .ok resolved →
    Preferred resolver holds pkg dir →
      holds dir resolved.path ∧ dir <+: resolved.path
  conventional : ∀ resolved dir, result = .ok resolved →
    Preferred resolver holds pkg dir →
      fs.isFile (conventional dir name) = true →
        resolved.path = conventional dir name

theorem prefix_joinStr {dir path : Path ν} (below : dir <+: path)
    (text : Name) : dir <+: path.joinStr text :=
  below.trans (List.prefix_append path _)

/-- A package's message lies in the directory of the package. -/
theorem prefix_of_holdsMsg {fs : FileSystem ν ι} {opens : Path ν → Prop}
    {name : Name} {pkgDir path : Path ν}
    (holds : fs.HoldsMsg opens name pkgDir path) : pkgDir <+: path := by
  rcases holds with ⟨rfl, _⟩ | ⟨levels, _, _, _, rfl, _⟩
  · exact prefix_joinStr (prefix_joinStr (List.prefix_refl pkgDir) _) _
  · exact prefix_joinStr (List.prefix_append pkgDir levels) _

/-! ## One directory of the search -/

/-- The directories `search_for_msg` turns to below one. -/
def dirsBelow (fs : FileSystem ν ι) (order : fs.Listing) (dir : Path ν) :
    List (Path ν) :=
  (((order.names dir).map dir.join).insertionSort (· ≤ ·)).filter fun entry =>
    !fs.isFile entry && fs.isDir entry && !isSkipped entry

theorem mem_dirsBelow {fs : FileSystem ν ι} {order : fs.Listing}
    {dir sub : Path ν} :
    sub ∈ fs.dirsBelow order dir ↔
      ∃ level, sub = dir.join level ∧ fs.isDir sub = true ∧
        (EntryName.toStr level).any isSkippedDir = false := by
  rw [dirsBelow, List.mem_filter, List.mem_insertionSort, List.mem_map]
  constructor
  · rintro ⟨⟨level, _, rfl⟩, taken⟩
    rw [isSkipped_join] at taken
    simp only [Bool.and_eq_true, Bool.not_eq_true'] at taken
    exact ⟨level, rfl, taken.1.2, taken.2⟩
  · rintro ⟨level, rfl, isDir, visible⟩
    refine ⟨⟨level, mem_names order (Option.isSome_of_any isDir), rfl⟩, ?_⟩
    rw [isSkipped_join, isFile_of_isDir isDir, isDir, visible]
    rfl

theorem isTarget_join {fs : FileSystem ν ι} {name : Name} {dir : Path ν}
    {entry : ν} :
    fs.isTarget name (dir.join entry) = true ↔
      fs.isFile (dir.join entry) = true ∧
        dir.join entry = dir.joinStr (msgFileName name) := by
  rw [isTarget, Bool.and_eq_true, Path.fileName_join, Option.bind_some,
    decide_eq_true_eq]
  refine and_congr_right fun _ => ?_
  constructor
  · intro named
    rw [Path.joinStr, EntryName.ofStr_of_toStr entry _ named]
  · intro same
    have last : entry = EntryName.ofStr (msgFileName name) :=
      List.singleton_injective (List.append_cancel_left same)
    rw [last, EntryName.toStr_ofStr]

/-- A directory has one file of the name at most. -/
theorem find?_isTarget (fs : FileSystem ν ι) (order : fs.Listing)
    (name : Name) (dir : Path ν) :
    (((order.names dir).map dir.join).insertionSort (· ≤ ·)).find?
        (fs.isTarget name) =
      if fs.isFile (dir.joinStr (msgFileName name)) then
        some (dir.joinStr (msgFileName name))
      else none := by
  split
  · case _ isFile =>
      have member : dir.joinStr (msgFileName name) ∈
          ((order.names dir).map dir.join).insertionSort (· ≤ ·) :=
        (List.mem_insertionSort _).mpr (List.mem_map.mpr
          ⟨_, mem_names order (Option.isSome_of_any isFile), rfl⟩)
      cases found : (((order.names dir).map dir.join).insertionSort
          (· ≤ ·)).find? (fs.isTarget name) with
      | none =>
          have missed := List.find?_eq_none.mp found _ member
          exact absurd (isTarget_join.mpr ⟨isFile, rfl⟩) missed
      | some entry =>
          have entryMember := List.mem_of_find?_eq_some found
          rw [List.mem_insertionSort, List.mem_map] at entryMember
          obtain ⟨last, _, rfl⟩ := entryMember
          exact congrArg some
            (isTarget_join.mp (List.find?_some found)).2
  · case _ notFile =>
      refine List.find?_eq_none.mpr fun entry member target => ?_
      rw [List.mem_insertionSort, List.mem_map] at member
      obtain ⟨last, _, rfl⟩ := member
      obtain ⟨isFile, same⟩ := isTarget_join.mp target
      exact notFile (same ▸ isFile)

/-- What `search_for_msg` does with a directory. -/
theorem searchForMsg_eq (fs : FileSystem ν ι) (order : fs.Listing)
    (name : Name) (depth : Nat) (dir : Path ν) :
    fs.searchForMsg order name depth dir =
      if fs.isListed dir then
        if fs.isFile (dir.joinStr (msgFileName name)) then
          some (dir.joinStr (msgFileName name))
        else
          match depth with
          | 0 => none
          | depth + 1 =>
              (fs.dirsBelow order dir).findSome?
                (fs.searchForMsg order name depth)
      else none := by
  have target := find?_isTarget fs order name dir
  cases listed : fs.isListed dir with
  | false =>
      have unread : fs.readDir order dir = none := by
        rw [readDir_eq, listed]
        rfl
      cases depth <;> rw [searchForMsg, unread] <;> rfl
  | true =>
      have read : fs.readDir order dir = some (order.names dir) := by
        rw [readDir_eq, listed]
        rfl
      cases isFile : fs.isFile (dir.joinStr (msgFileName name)) with
      | false =>
          rw [isFile] at target
          cases depth <;> rw [searchForMsg, read] <;> dsimp only <;>
            rw [target] <;> rfl
      | true =>
          rw [isFile] at target
          cases depth <;> rw [searchForMsg, read] <;> dsimp only <;>
            rw [target] <;> rfl

/-! ## The search against the paths -/

section Levels

variable {fs : FileSystem ν ι} {opens : Path ν → Prop} {name : Name}
  {depth : Nat} {dir path : Path ν}

theorem LiesBelow.here (depth : Nat) (open_ : opens dir)
    (isFile : fs.isFile (dir.joinStr (msgFileName name)) = true) :
    fs.LiesBelow opens name depth dir (dir.joinStr (msgFileName name)) := by
  refine ⟨[], Nat.zero_le _, fun _ member => absurd member List.not_mem_nil,
    ?_, ?_, isFile⟩
  · intro above atRoot
    rw [List.prefix_nil.mp atRoot, List.append_nil]
    exact open_
  · rw [List.append_nil]

theorem LiesBelow.below {level : ν} (open_ : opens dir)
    (visible : (EntryName.toStr level).any isSkippedDir = false)
    (lies : fs.LiesBelow opens name depth (dir.join level) path) :
    fs.LiesBelow opens name (depth + 1) dir path := by
  obtain ⟨levels, short, visibleLevels, openLevels, same, isFile⟩ := lies
  rw [Path.join, List.append_assoc, List.singleton_append] at same
  refine ⟨level :: levels, Nat.succ_le_succ short,
    List.forall_mem_cons.mpr ⟨visible, visibleLevels⟩, ?_, same, isFile⟩
  intro above onTheWay
  rcases List.prefix_cons_iff.mp onTheWay with rfl | ⟨others, rfl, later⟩
  · rw [List.append_nil]
    exact open_
  · have further := openLevels others later
    rw [Path.join, List.append_assoc, List.singleton_append] at further
    exact further

/-- The message is in the directory, or below one of those in it. -/
theorem LiesBelow.cases (lies : fs.LiesBelow opens name depth dir path) :
    opens dir ∧
      (path = dir.joinStr (msgFileName name) ∧ fs.isFile path = true ∨
        ∃ level less, depth = less + 1 ∧
          (EntryName.toStr level).any isSkippedDir = false ∧
          fs.LiesBelow opens name less (dir.join level) path) := by
  obtain ⟨levels, short, visible, open_, same, isFile⟩ := lies
  have openHere := open_ [] List.nil_prefix
  rw [List.append_nil] at openHere
  refine ⟨openHere, ?_⟩
  cases levels with
  | nil =>
      rw [List.append_nil] at same
      exact .inl ⟨same, isFile⟩
  | cons level levels =>
      obtain ⟨here, later⟩ := List.forall_mem_cons.mp visible
      obtain ⟨less, rfl⟩ : ∃ less, depth = less + 1 :=
        Nat.exists_eq_add_of_lt (Nat.lt_of_lt_of_le (Nat.succ_pos _) short)
          |>.imp fun _ same => by omega
      refine .inr ⟨level, less, rfl, here, levels,
        Nat.le_of_succ_le_succ short, later, ?_, ?_, isFile⟩
      · intro above onTheWay
        have further := open_ (level :: above)
          (List.prefix_cons_inj level |>.mpr onTheWay)
        rw [Path.join, List.append_assoc, List.singleton_append]
        exact further
      · rw [Path.join, List.append_assoc, List.singleton_append]
        exact same

end Levels

/-- What the search returns lies where it looked. -/
theorem liesBelow_of_searchForMsg {fs : FileSystem ν ι} {order : fs.Listing}
    {name : Name} {depth : Nat} {dir path : Path ν}
    (found : fs.searchForMsg order name depth dir = some path) :
    fs.LiesBelow (fun dir => fs.isListed dir = true) name depth dir path := by
  induction depth generalizing dir with
  | zero =>
      rw [searchForMsg_eq] at found
      split at found
      · case _ listed =>
          split at found
          · case _ isFile =>
              cases found
              exact .here 0 listed isFile
          · cases found
      · cases found
  | succ depth induction =>
      rw [searchForMsg_eq] at found
      split at found
      · case _ listed =>
          split at found
          · case _ isFile =>
              cases found
              exact .here _ listed isFile
          · obtain ⟨sub, member, deeper⟩ :=
              List.exists_of_findSome?_eq_some found
            obtain ⟨level, rfl, _, visible⟩ := mem_dirsBelow.mp member
            exact .below listed visible (induction deeper)
      · cases found

/-- A message that lies below a directory is not missed. -/
theorem searchForMsg_isSome {fs : FileSystem ν ι} (order : fs.Listing)
    {name : Name} {depth : Nat} {dir path : Path ν}
    (lies : fs.LiesBelow (fun dir => fs.isListed dir = true) name depth dir
      path) : (fs.searchForMsg order name depth dir).isSome := by
  induction depth generalizing dir with
  | zero =>
      obtain ⟨listed, ⟨rfl, isFile⟩ | ⟨_, _, absurd_, _⟩⟩ := lies.cases
      · rw [searchForMsg_eq, if_pos listed, if_pos isFile]
        rfl
      · cases absurd_
  | succ depth induction =>
      obtain ⟨listed, here⟩ := lies.cases
      rw [searchForMsg_eq, if_pos listed]
      split
      · rfl
      · case _ notFile =>
          obtain ⟨rfl, isFile⟩ | ⟨level, _, ⟨⟩, visible, deeper⟩ := here
          · exact absurd isFile notFile
          · have isDir := isDir_of_isListed deeper.cases.1
            exact List.findSome?_isSome_iff.mpr
              ⟨_, mem_dirsBelow.mpr ⟨level, rfl, isDir, visible⟩,
                induction deeper⟩

/-! ## A package -/

section Package

variable {fs : FileSystem ν ι} {order : fs.Listing} {name : Name}
  {pkgDir path : Path ν}

theorem holdsMsg_of_msgInPackage
    (found : fs.msgInPackage order name pkgDir = some path) :
    fs.HoldsMsg (fun dir => fs.isListed dir = true) name pkgDir path := by
  rw [msgInPackage] at found
  split at found
  · case _ isFile =>
      cases found
      exact .inl ⟨rfl, isFile⟩
  · exact .inr (liesBelow_of_searchForMsg found)

/-- The conventional file comes first. -/
theorem msgInPackage_conventional
    (isFile : fs.isFile (conventional pkgDir name) = true) :
    fs.msgInPackage order name pkgDir = some (conventional pkgDir name) := by
  rw [msgInPackage]
  exact if_pos isFile

theorem msgInPackage_isSome_iff :
    (fs.msgInPackage order name pkgDir).isSome ↔
      ∃ path, fs.HoldsMsg (fun dir => fs.isListed dir = true) name pkgDir
        path := by
  constructor
  · intro some_
    obtain ⟨path, found⟩ := Option.isSome_iff_exists.mp some_
    exact ⟨path, holdsMsg_of_msgInPackage found⟩
  · rintro ⟨path, ⟨rfl, isFile⟩ | lies⟩
    · rw [msgInPackage_conventional isFile]
      rfl
    · by_cases isFile : fs.isFile (conventional pkgDir name) = true
      · rw [msgInPackage_conventional isFile]
        rfl
      · rw [msgInPackage]
        refine (congrArg Option.isSome (if_neg isFile)).trans ?_
        exact searchForMsg_isSome order lies

end Package

/-! ## The two indexes -/

/-- The candidates are tried in turn. -/
theorem findSome?_candidates {α β : Type} (first second : Option α)
    (found : α → Option β) :
    [first, second].reduceOption.findSome? found =
      (first.bind found).or (second.bind found) := by
  cases first with
  | none =>
      cases second with
      | none => rfl
      | some other =>
          change [other].findSome? found = found other
          rw [List.findSome?_cons]
          cases found other <;> rfl
  | some item =>
      cases second with
      | none =>
          change [item].findSome? found = (found item).or none
          rw [List.findSome?_cons]
          cases found item <;> rfl
      | some other =>
          change [item, other].findSome? found =
            (found item).or (found other)
          rw [List.findSome?_cons, List.findSome?_cons]
          cases found item <;> cases found other <;> rfl

section Indexes

variable {fs : FileSystem ν ι} {order : fs.Listing}
  {resolver : MsgResolver ν} {pkg name typePath : Name}

theorem findMsgFile_ok_iff (isPath : IsMsgPath pkg name typePath)
    {resolved : ResolvedMsg ν} :
    fs.findMsgFile order resolver typePath = .ok resolved ↔
      resolved.pkg = pkg ∧
        ((resolver.rosPkgs.get pkg).bind (fs.msgInPackage order name)).or
          ((resolver.userPkgs.get pkg).bind (fs.msgInPackage order name)) =
            some resolved.path := by
  rw [← findSome?_candidates, findMsgFile, splitTypePath_of_isMsgPath isPath]
  dsimp only
  split
  · case _ empty =>
      rw [empty]
      simp
  · cases [resolver.rosPkgs.get pkg,
        resolver.userPkgs.get pkg].reduceOption.findSome?
          (fs.msgInPackage order name) with
    | none => simp
    | some path =>
        constructor
        · rintro ⟨⟩
          exact ⟨rfl, rfl⟩
        · rintro ⟨rfl, same⟩
          cases same
          rfl

/-- Whether a package of an index holds the message. -/
theorem exists_held_iff (order : fs.Listing) {index : PackageIndex ν} :
    (∃ dir, Held index
        (fs.HoldsMsg (fun dir => fs.isListed dir = true) name) pkg dir) ↔
      ((index.get pkg).bind (fs.msgInPackage order name)).isSome := by
  rw [Option.isSome_iff_exists]
  constructor
  · rintro ⟨dir, got, holds⟩
    obtain ⟨path, found⟩ :=
      Option.isSome_iff_exists.mp (msgInPackage_isSome_iff.mpr holds)
    exact ⟨path, Option.bind_eq_some_iff.mpr ⟨dir, got, found⟩⟩
  · rintro ⟨path, found⟩
    obtain ⟨dir, got, found⟩ := Option.bind_eq_some_iff.mp found
    exact ⟨dir, got, path, holdsMsg_of_msgInPackage found⟩

/-- The result is what the preferred directory gives. -/
theorem msgInPackage_of_preferred (isPath : IsMsgPath pkg name typePath)
    {resolved : ResolvedMsg ν}
    (found : fs.findMsgFile order resolver typePath = .ok resolved)
    {dir : Path ν}
    (preferred : Preferred resolver
      (fs.HoldsMsg (fun dir => fs.isListed dir = true) name) pkg dir) :
    fs.msgInPackage order name dir = some resolved.path := by
  obtain ⟨_, found⟩ := (findMsgFile_ok_iff isPath).mp found
  rcases preferred with ⟨got, holds⟩ | ⟨noRos, got, _⟩
  · obtain ⟨path, here⟩ :=
      Option.isSome_iff_exists.mp (msgInPackage_isSome_iff.mpr holds)
    rw [got, Option.bind_some, here, Option.some_or] at found
    rw [here, found]
  · have nothing : (resolver.rosPkgs.get pkg).bind
        (fs.msgInPackage order name) = none := by
      rw [← Option.not_isSome_iff_eq_none, ← exists_held_iff order, not_exists]
      exact noRos
    rw [nothing, Option.none_or, got, Option.bind_some] at found
    exact found

end Indexes

section SameTree

variable {fs : FileSystem ν ι} {other : FileSystem ν ι'}

theorem dirsBelow_same (same : fs.SameTree other) (order : fs.Listing)
    (order' : other.Listing) {dir : Path ν}
    (listed : fs.isListed dir = true) :
    fs.dirsBelow order dir = other.dirsBelow order' dir := by
  have listed' : other.isListed dir = true := by
    rw [← same.isListed]
    exact listed
  have nodup := Path.nodup_map_join dir (nodup_names order listed)
  have nodup' := Path.nodup_map_join dir (nodup_names order' listed')
  refine eq_of_inOrder ((List.pairwise_insertionSort _ _).filter _)
    ((List.pairwise_insertionSort _ _).filter _) ?_ ?_ fun sub => ?_
  · exact ((List.perm_insertionSort _ _).nodup_iff.mpr nodup).filter _
  · exact ((List.perm_insertionSort _ _).nodup_iff.mpr nodup').filter _
  · rw [mem_dirsBelow, mem_dirsBelow, same.isDir]

theorem searchForMsg_same (same : fs.SameTree other) (order : fs.Listing)
    (order' : other.Listing) (name : Name) (depth : Nat) (dir : Path ν) :
    fs.searchForMsg order name depth dir =
      other.searchForMsg order' name depth dir := by
  induction depth generalizing dir with
  | zero => rw [searchForMsg_eq, searchForMsg_eq, same.isListed, same.isFile]
  | succ depth induction =>
      have deeper : fs.searchForMsg order name depth =
          other.searchForMsg order' name depth := funext induction
      rw [searchForMsg_eq, searchForMsg_eq, same.isFile, ← same.isListed]
      by_cases listed : fs.isListed dir = true
      · dsimp only
        rw [deeper, dirsBelow_same same order order' listed]
      · rw [if_neg listed, if_neg listed]

/-- Lookup is settled by the tree. -/
theorem findMsgFile_same (same : fs.SameTree other) (order : fs.Listing)
    (order' : other.Listing) (resolver : MsgResolver ν) (typePath : Name) :
    fs.findMsgFile order resolver typePath =
      other.findMsgFile order' resolver typePath := by
  have inPackage : ∀ name, fs.msgInPackage order name =
      other.msgInPackage order' name := by
    intro name
    funext pkgDir
    rw [msgInPackage, msgInPackage, same.isFile, searchForMsg_same same order order']
  rw [findMsgFile, findMsgFile]
  simp only [inPackage]

end SameTree

/-! ## Lookup -/

/-- Lookup finds what the packages hold: at `msg/Name.msg`, or at most four
levels below the package directory through directories that can be listed and
have no skipped name.  The ROS install comes first, in each package the
conventional file, and the order of listings makes no difference. -/
theorem message_lookup (fs : FileSystem ν ι) (order : fs.Listing)
    (resolver : MsgResolver ν) (pkg name typePath : Name)
    (isPath : IsMsgPath pkg name typePath) :
    fs.Finds resolver
        (fs.HoldsMsg (fun dir => fs.isListed dir = true) name) pkg name
        (fs.findMsgFile order resolver typePath) ∧
      ∀ other, fs.findMsgFile other resolver typePath =
        fs.findMsgFile order resolver typePath := by
  refine ⟨⟨?_, ?_, ?_⟩, fun other =>
    findMsgFile_same (.refl fs) other order resolver typePath⟩
  · rw [exists_or, exists_held_iff order, exists_held_iff order,
      ← Bool.or_eq_true, ← Option.isSome_or,
      Option.isSome_iff_exists]
    constructor
    · rintro ⟨resolved, found⟩
      exact ⟨_, ((findMsgFile_ok_iff isPath).mp found).2⟩
    · rintro ⟨path, found⟩
      exact ⟨⟨path, pkg⟩, (findMsgFile_ok_iff isPath).mpr ⟨rfl, found⟩⟩
  · intro resolved dir found preferred
    have holds := holdsMsg_of_msgInPackage
      (msgInPackage_of_preferred isPath found preferred)
    exact ⟨holds, prefix_of_holdsMsg holds⟩
  · intro resolved dir found preferred isFile
    have here := msgInPackage_of_preferred isPath found preferred
    rw [msgInPackage_conventional isFile] at here
    exact (Option.some.inj here).symm

/-! A package in both indexes.  Its directory of the ROS install has a link
back to itself and a directory that may not be listed. -/

/-- The nodes of the tree. -/
inductive GeoNode where
  | root
  | ros
  | extra
  | shut
  | user
  | msgDir
  | message
  deriving DecidableEq

def geoTree : FileSystem Name GeoNode where
  root := .root
  inode
    | .root => .dir true [("ros".toList, some .ros), ("user".toList, some .user)]
    | .ros => .dir true [("shut".toList, some .shut),
        ("extra".toList, some .extra)]
    | .extra => .dir true [("Point.msg".toList, some .message),
        ("up".toList, some .ros)]
    | .shut => .dir false [("Pose.msg".toList, some .message)]
    | .user => .dir true [("msg".toList, some .msgDir)]
    | .msgDir => .dir true [("Point.msg".toList, some .message)]
    | .message => .file (some "float64 x\n".toList)
  nodup id listed entries found := by
    cases id <;> cases found <;> decide

def geoResolver : MsgResolver Name where
  rosPkgs := [("geo".toList, ["ros".toList])]
  userPkgs := [("geo".toList, ["user".toList])]

theorem message_lookup_geoTree :
    geoTree.findMsgFile default geoResolver "geo/msg/Point".toList =
        .ok ⟨["ros".toList, "extra".toList, "Point.msg".toList],
          "geo".toList⟩ ∧
      geoTree.Finds geoResolver
        (geoTree.HoldsMsg (fun dir => geoTree.isListed dir = true)
          "Point".toList) "geo".toList "Point".toList
        (geoTree.findMsgFile default geoResolver "geo/msg/Point".toList) := by
  have isPath : IsMsgPath "geo".toList "Point".toList
      "geo/msg/Point".toList := ⟨by decide, by decide, .inr rfl⟩
  refine ⟨(findMsgFile_ok_iff isPath).mpr ⟨rfl, by decide +kernel⟩, ?_⟩
  exact (message_lookup geoTree default geoResolver "geo".toList "Point".toList
    "geo/msg/Point".toList isPath).1

/-- `Pose.msg` is in the ROS package, in a directory that may not be
listed. -/
theorem not_message_lookup :
    IsMsgPath "geo".toList "Pose".toList "geo/Pose".toList ∧
      ¬ geoTree.Finds geoResolver
        (geoTree.HoldsMsg (fun _ => True) "Pose".toList) "geo".toList
        "Pose".toList
        (geoTree.findMsgFile default geoResolver "geo/Pose".toList) := by
  have isPath : IsMsgPath "geo".toList "Pose".toList "geo/Pose".toList :=
    ⟨by decide, by decide, .inl rfl⟩
  refine ⟨isPath, fun finds => ?_⟩
  have lies : geoTree.LiesBelow (fun _ => True) "Pose".toList 4
      ["ros".toList] ["ros".toList, "shut".toList, "Pose.msg".toList] := by
    refine ⟨["shut".toList], by decide, ?_, fun _ _ => trivial, rfl,
      by decide⟩
    intro level member
    cases List.mem_singleton.mp member
    decide
  obtain ⟨resolved, found⟩ := finds.found_iff.mpr
    ⟨["ros".toList], .inl ⟨rfl, _, .inr lies⟩⟩
  have missed : ((geoResolver.rosPkgs.get "geo".toList).bind
      (geoTree.msgInPackage default "Pose".toList)).or
        ((geoResolver.userPkgs.get "geo".toList).bind
          (geoTree.msgInPackage default "Pose".toList)) = none := by
    decide +kernel
  obtain ⟨_, here⟩ := (findMsgFile_ok_iff isPath).mp found
  cases missed.symm.trans here

end FileSystem

end NanoRos.Codegen

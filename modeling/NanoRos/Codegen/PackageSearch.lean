import NanoRos.Codegen.FileTrees
import NanoRos.Codegen.PackageIndex

/-!
# What the package index holds

`scan_dir` is a depth-first visit of the directories, by canonical path.  Its
order does not depend on that in which directories are listed, and it enters
every directory the search can reach.
-/

namespace NanoRos.Codegen

namespace FileSystem

variable {ν ι : Type} [EntryName ν]

/-- The directories on paths from the root that go through no skipped name
and through no package. -/
inductive Searched (fs : FileSystem ν ι) (root : Path ν) : Path ν → Prop where
  | root : Searched fs root root
  | sub {dir : Path ν} {name : ν} : Searched fs root dir →
      fs.isPackage dir = false → fs.isDir (dir.join name) = true →
      isSkipped (dir.join name) = false → Searched fs root (dir.join name)

/-- A package the search can reach. -/
def HoldsPackage (fs : FileSystem ν ι) (root : Path ν) (name : Name)
    (dir : Path ν) : Prop :=
  fs.Searched root dir ∧ fs.isPackage dir = true ∧
    fs.parsePackageName (dir.joinStr "package.xml".toList) = .ok name

/-- The search meets no directory that may not be listed and no malformed
`package.xml`. -/
structure WellFormed (fs : FileSystem ν ι) (root : Path ν) : Prop where
  listed : ∀ dir id, fs.Searched root dir → fs.isPackage dir = false →
    fs.resolve dir = some id → fs.listed id = true
  named : ∀ dir, fs.Searched root dir → fs.isPackage dir = true →
    ∃ name, fs.parsePackageName (dir.joinStr "package.xml".toList) = .ok name

theorem Searched.isDir {fs : FileSystem ν ι} {root dir : Path ν}
    (isDir : fs.isDir root = true) (searched : fs.Searched root dir) :
    fs.isDir dir = true := by
  cases searched with
  | root => exact isDir
  | sub _ _ isDirSub _ => exact isDirSub

/-! ## The scan as a visit -/

/-- What `scan_dir` does with a directory before it turns to those below. -/
def enterDir (fs : FileSystem ν ι) (order : fs.Listing) (dir : Path ν)
    (index : PackageIndex ν) : Except Error (PackageIndex ν) :=
  if fs.isPackage dir then
    (fs.parsePackageName (dir.joinStr "package.xml".toList)).map
      (index.keepFirst · dir)
  else
    match fs.readDir order dir with
    | none => .error ["Failed to read directory ".toList ++ dir.display]
    | some _ => .ok index

/-- The directories below that `scan_dir` turns to. -/
def subdirsScanned (fs : FileSystem ν ι) (order : fs.Listing)
    (dir : Path ν) : List (Path ν) :=
  if fs.isPackage dir then []
  else
    ((fs.readDir order dir).toList.flatMap (fs.subdirs dir)).filter
      fun sub => !isSkipped sub

theorem scanDir_eq_visit [DecidableEq ι] (fs : FileSystem ν ι)
    (order : fs.Listing) (fuel : Nat) (dir : Path ν)
    (reached : PackageIndex ν × List ι) :
    fs.scanDir order fuel dir reached =
      DepthFirst.visit fs.canonicalize (fs.enterDir order)
        (fs.subdirsScanned order) fuel dir reached := by
  induction fuel generalizing dir reached with
  | zero => rfl
  | succ fuel induction =>
      obtain ⟨index, visited⟩ := reached
      have scan : fs.scanDir order fuel =
          DepthFirst.visit fs.canonicalize (fs.enterDir order)
            (fs.subdirsScanned order) fuel := by
        funext dir reached
        exact induction dir reached
      cases canon : fs.canonicalize dir with
      | none =>
          rw [DepthFirst.visit_succ_of_none canon, scanDir, canon]
      | some here =>
          by_cases seen : here ∈ visited
          · rw [DepthFirst.visit_succ_of_mem canon seen, scanDir, canon]
            exact if_pos seen
          · rw [DepthFirst.visit_succ_of_notMem canon seen, scanDir, canon]
            refine (if_neg seen).trans ?_
            rw [enterDir, subdirsScanned]
            by_cases package : fs.isPackage dir = true
            · rw [if_pos package, if_pos package, if_pos package]
              cases fs.parsePackageName
                (dir.joinStr "package.xml".toList) <;> rfl
            · rw [if_neg package, if_neg package, if_neg package]
              cases fs.readDir order dir with
              | none => rfl
              | some names =>
                  have one : (some names).toList.flatMap (fs.subdirs dir) =
                      fs.subdirs dir names := List.flatMap_singleton _ _
                  rw [scan, one]
                  exact DepthFirst.visitAll_filter _ _ _

/-! ## Directories and names -/

theorem isPackage_of_resolve {fs : FileSystem ν ι} {dir other : Path ν}
    (same : fs.resolve dir = fs.resolve other) :
    fs.isPackage dir = fs.isPackage other := by
  rw [isPackage, isPackage, isFile, isFile, Path.joinStr, Path.joinStr,
    resolve_join, resolve_join, same]

/-- A directory has one package name, whichever way it was reached. -/
theorem parsePackageName_of_resolve {fs : FileSystem ν ι} {dir other : Path ν}
    (same : fs.resolve dir = fs.resolve other) {name : Name}
    (named : fs.parsePackageName (dir.joinStr "package.xml".toList) =
      .ok name) :
    fs.parsePackageName (other.joinStr "package.xml".toList) = .ok name := by
  have sameFile : fs.readToString (dir.joinStr "package.xml".toList) =
      fs.readToString (other.joinStr "package.xml".toList) := by
    rw [readToString, readToString, Path.joinStr, Path.joinStr, resolve_join,
      resolve_join, same]
  rw [parsePackageName, sameFile] at named
  rw [parsePackageName]
  cases read : fs.readToString (other.joinStr "package.xml".toList) with
  | none =>
      rw [read] at named
      cases named
  | some raw =>
      rw [read] at named
      exact nameElement_ok named

theorem mem_subdirs {fs : FileSystem ν ι} {dir sub : Path ν}
    {names : List ν} :
    sub ∈ fs.subdirs dir names ↔
      ∃ name ∈ names, sub = dir.join name ∧ fs.isDir sub = true := by
  rw [subdirs, List.mem_insertionSort, List.mem_filter, List.mem_map]
  constructor
  · rintro ⟨⟨name, member, rfl⟩, isDir⟩
    exact ⟨name, member, rfl, isDir⟩
  · rintro ⟨name, member, rfl, isDir⟩
    exact ⟨⟨name, member, rfl⟩, isDir⟩

theorem mem_subdirsScanned {fs : FileSystem ν ι} {order : fs.Listing}
    {dir sub : Path ν} :
    sub ∈ fs.subdirsScanned order dir ↔
      fs.isPackage dir = false ∧
        ∃ id name, fs.resolve dir = some id ∧ fs.listed id = true ∧
          sub = dir.join name ∧ fs.isDir sub = true ∧
          isSkipped sub = false := by
  rw [subdirsScanned]
  constructor
  · intro member
    split at member
    · cases member
    · case _ notPackage =>
        obtain ⟨listing, visible⟩ := List.mem_filter.mp member
        obtain ⟨names, read, member⟩ := List.mem_flatMap.mp listing
        obtain ⟨name, _, rfl, isDir⟩ := mem_subdirs.mp member
        obtain ⟨_, id, leads, listed⟩ :=
          readDir_eq_some.mp (Option.mem_toList.mp read)
        exact ⟨by simpa using notPackage, id, name, leads, listed, rfl, isDir,
          by simpa using visible⟩
  · rintro ⟨notPackage, id, name, leads, listed, rfl, isDir, visible⟩
    rw [if_neg (by simp [notPackage])]
    refine List.mem_filter.mpr ⟨List.mem_flatMap.mpr
      ⟨order.names dir, ?_, mem_subdirs.mpr ⟨name, ?_, rfl, isDir⟩⟩, ?_⟩
    · exact Option.mem_toList.mpr (readDir_eq_some.mpr ⟨rfl, id, leads, listed⟩)
    · obtain ⟨below, leadsBelow, _⟩ := isDir_iff.mp isDir
      rw [resolve_join_of_resolve leads] at leadsBelow
      exact (order.perm dir id leads).mem_iff.mpr
        (mem_names_of_child leadsBelow)
    · simp [visible]

theorem isSkipped_join (dir : Path ν) (name : ν) :
    isSkipped (dir.join name) = (EntryName.toStr name).any isSkippedDir := by
  rw [isSkipped, Path.fileName_join, Option.bind_some]

/-- The entries of a directory are the same under each of its names. -/
theorem scanned_uniform (fs : FileSystem ν ι) (order : fs.Listing) :
    DepthFirst.Uniform fs.canonicalize (fs.subdirsScanned order) := by
  intro dir other _ same sub member
  obtain ⟨notPackage, id, name, leads, listed, rfl, isDir, visible⟩ :=
    mem_subdirsScanned.mp member
  have leadsOther : fs.resolve other = some id := same.symm.trans leads
  have sameSub : fs.resolve (other.join name) = fs.resolve (dir.join name) := by
    rw [resolve_join_of_resolve leads, resolve_join_of_resolve leadsOther]
  refine ⟨other.join name, mem_subdirsScanned.mpr
    ⟨?_, id, name, leadsOther, listed, rfl, ?_, ?_⟩, sameSub⟩
  · exact (isPackage_of_resolve same).symm.trans notPackage
  · rw [isDir_of_resolve sameSub]
    exact isDir
  · rw [isSkipped_join] at visible ⊢
    exact visible

/-! ## Runs -/

theorem searched_of_calls {fs : FileSystem ν ι} {order : fs.Listing}
    {root dir : Path ν}
    (calls : DepthFirst.Calls (fs.subdirsScanned order) root dir) :
    fs.Searched root dir := by
  induction calls with
  | refl => exact .root
  | tail _ member searched =>
      obtain ⟨notPackage, _, _, _, _, rfl, isDir, visible⟩ :=
        mem_subdirsScanned.mp member
      exact .sub searched notPackage isDir visible

section SameTree

variable {ι' : Type} {fs : FileSystem ν ι} {other : FileSystem ν ι'}

/-- The directories below are the same, in whatever order they are listed. -/
theorem subdirs_same (same : fs.SameTree other) (order : fs.Listing)
    (order' : other.Listing) {dir : Path ν}
    (listed : fs.isListed dir = true) :
    fs.subdirs dir (order.names dir) =
      other.subdirs dir (order'.names dir) := by
  have listed' : other.isListed dir = true := by
    rw [← same.isListed]
    exact listed
  have nodup := Path.nodup_map_join dir (nodup_names order listed)
  have nodup' := Path.nodup_map_join dir (nodup_names order' listed')
  refine eq_of_inOrder (List.pairwise_insertionSort _ _)
    (List.pairwise_insertionSort _ _) ?_ ?_ fun sub => ?_
  · exact (List.perm_insertionSort _ _).nodup_iff.mpr (nodup.filter _)
  · exact (List.perm_insertionSort _ _).nodup_iff.mpr (nodup'.filter _)
  · rw [mem_subdirs, mem_subdirs]
    constructor
    · rintro ⟨name, _, rfl, isDir⟩
      rw [same.isDir] at isDir
      exact ⟨name, mem_names order' (Option.isSome_of_any isDir), rfl, isDir⟩
    · rintro ⟨name, _, rfl, isDir⟩
      rw [← same.isDir] at isDir
      exact ⟨name, mem_names order (Option.isSome_of_any isDir), rfl, isDir⟩

theorem subdirsScanned_same (same : fs.SameTree other) (order : fs.Listing)
    (order' : other.Listing) :
    fs.subdirsScanned order = other.subdirsScanned order' := by
  funext dir
  have package : fs.isPackage dir = other.isPackage dir := same.isFile _
  rw [subdirsScanned, subdirsScanned, package, readDir_eq, readDir_eq,
    ← same.isListed]
  by_cases listed : fs.isListed dir = true
  · rw [if_pos listed, if_pos listed, Option.toList_some, Option.toList_some,
      List.flatMap_singleton, List.flatMap_singleton,
      subdirs_same same order order' listed]
  · rw [if_neg listed, if_neg listed]
    rfl

theorem enterDir_same (same : fs.SameTree other)
    (packageXml : ∀ dir : Path ν,
      fs.readToString (dir.joinStr "package.xml".toList) =
        other.readToString (dir.joinStr "package.xml".toList))
    (order : fs.Listing) (order' : other.Listing) :
    fs.enterDir order = other.enterDir order' := by
  funext dir index
  have package : fs.isPackage dir = other.isPackage dir := same.isFile _
  rw [enterDir, enterDir, package, parsePackageName, parsePackageName,
    packageXml, readDir_eq, readDir_eq, ← same.isListed]
  cases fs.isListed dir <;> rfl

end SameTree

/-- What was found is there, and every package entered has been found. -/
structure Indexed (fs : FileSystem ν ι) (root : Path ν)
    (reached : PackageIndex ν × List ι) : Prop where
  holds : ∀ name dir, reached.1.get name = some dir →
    fs.HoldsPackage root name dir
  found : ∀ name dir id, id ∈ reached.2 → fs.resolve dir = some id →
    fs.HoldsPackage root name dir → (reached.1.get name).isSome

theorem Indexed.start (fs : FileSystem ν ι) (root : Path ν) :
    fs.Indexed root ([], []) where
  holds _ _ found := (Option.some_ne_none _ found.symm).elim
  found _ _ _ member := absurd member List.not_mem_nil

/-- A directory of the search keeps the index as it should be. -/
theorem Indexed.enter {fs : FileSystem ν ι} {order : fs.Listing}
    {root dir : Path ν} (wellFormed : fs.WellFormed root)
    (searched : fs.Searched root dir) {here : ι}
    (leads : fs.resolve dir = some here) {index : PackageIndex ν}
    {visited : List ι} (indexed : fs.Indexed root (index, visited)) :
    ∃ next, fs.enterDir order dir index = .ok next ∧
      fs.Indexed root (next, here :: visited) := by
  by_cases package : fs.isPackage dir = true
  · obtain ⟨name, named⟩ := wellFormed.named dir searched package
    refine ⟨index.keepFirst name dir, ?_, ?_, ?_⟩
    · rw [enterDir, if_pos package, named]
      rfl
    · intro other kept get
      rw [PackageIndex.get_keepFirst] at get
      split at get
      · case _ first =>
          cases get
          rw [first.1]
          exact ⟨searched, package, named⟩
      · exact indexed.holds other kept get
    · intro other found id member leadsFound holds
      rw [PackageIndex.get_keepFirst]
      split
      · rfl
      · case _ notFirst =>
          rcases List.mem_cons.mp member with rfl | member
          · -- the directory just entered, perhaps by another path
            have sameName : other = name := by
              have again := parsePackageName_of_resolve
                (leadsFound.trans leads.symm) holds.2.2
              exact Except.ok.inj (again.symm.trans named)
            exact Option.isSome_iff_ne_none.mpr fun absent =>
              notFirst ⟨sameName, sameName ▸ absent⟩
          · exact indexed.found other found id member leadsFound holds
  · refine ⟨index, ?_, indexed.holds, ?_⟩
    · rw [enterDir, if_neg package, readDir, leads, Option.any_some,
        wellFormed.listed dir here searched (by simpa using package) leads]
      rfl
    · intro name found id member leadsFound holds
      rcases List.mem_cons.mp member with rfl | member
      · have same := isPackage_of_resolve (leadsFound.trans leads.symm)
        exact absurd (same.symm.trans holds.2.1) package
      · exact indexed.found name found id member leadsFound holds

/-- Every directory of the search is entered. -/
theorem entered_of_searched {fs : FileSystem ν ι} {order : fs.Listing}
    {root dir : Path ν} (wellFormed : fs.WellFormed root)
    (isDir : fs.isDir root = true) {visited : List ι}
    (started : ∀ id, fs.resolve root = some id → id ∈ visited)
    (covered : DepthFirst.Covered fs.canonicalize (fs.subdirsScanned order)
      [] visited)
    (searched : fs.Searched root dir) :
    ∃ id ∈ visited, fs.resolve dir = some id := by
  induction searched with
  | root =>
      obtain ⟨id, leads, _⟩ := isDir_iff.mp isDir
      exact ⟨id, started id leads, leads⟩
  | sub searched notPackage isDirSub visible induction =>
      obtain ⟨id, member, leads⟩ := induction
      obtain ⟨below, leadsBelow, _⟩ := isDir_iff.mp isDirSub
      refine ⟨below, covered.2 id member List.not_mem_nil below ?_, leadsBelow⟩
      have listed := wellFormed.listed _ id searched notPackage leads
      exact ⟨_, _, leads, mem_subdirsScanned.mpr
        ⟨notPackage, id, _, leads, listed, rfl, isDirSub, visible⟩,
        leadsBelow⟩

/-- A scan of a well-formed tree finds exactly the packages there are. -/
theorem scanDir_indexes [DecidableEq ι] {fs : FileSystem ν ι}
    {order : fs.Listing} {root : Path ν} (isDir : fs.isDir root = true)
    (wellFormed : fs.WellFormed root) {fuel : Nat}
    {result : Except Error (PackageIndex ν × List ι)}
    (run : fs.scanDir order fuel root ([], []) = some result) :
    ∃ index visited, result = .ok (index, visited) ∧
      fs.Indexed root (index, visited) ∧
      ∀ dir, fs.Searched root dir →
        ∃ id ∈ visited, fs.resolve dir = some id := by
  rw [scanDir_eq_visit] at run
  have enters : ∀ dir index visited here,
      DepthFirst.Calls (fs.subdirsScanned order) root dir →
      fs.canonicalize dir = some here → here ∉ visited →
      fs.Indexed root (index, visited) →
      ∃ next, fs.enterDir order dir index = .ok next ∧
        fs.Indexed root (next, here :: visited) := by
    intro dir index visited here calls leads _ indexed
    exact indexed.enter wellFormed (searched_of_calls calls) leads
  obtain ⟨⟨index, visited⟩, rfl, indexed⟩ :=
    DepthFirst.visit_keeps enters .refl (Indexed.start fs root) run
  obtain ⟨covered, started⟩ :=
    DepthFirst.visit_covers (scanned_uniform fs order) run
  exact ⟨index, visited, rfl, indexed, fun dir searched =>
    entered_of_searched wellFormed isDir started covered searched⟩

/-- With enough fuel a scan ends, in the same way in every order. -/
theorem scanDir_ends [Fintype ι] [DecidableEq ι] (fs : FileSystem ν ι)
    (root : Path ν) :
    ∃ result, ∀ order fuel, Fintype.card ι < fuel →
      fs.scanDir order fuel root ([], []) = some result := by
  have ends :
      (fs.scanDir default (Fintype.card ι + 1) root ([], [])).isSome := by
    rw [scanDir_eq_visit]
    apply DepthFirst.visit_isSome
    simp
  obtain ⟨result, run⟩ := Option.isSome_iff_exists.mp ends
  refine ⟨result, fun order fuel enough => ?_⟩
  rw [scanDir_eq_visit] at run ⊢
  rw [enterDir_same (.refl fs) (fun _ => rfl) order default,
    subdirsScanned_same (.refl fs) order default]
  exact DepthFirst.visit_mono enough run

/-- The index is settled by the tree and the `package.xml` files in it. -/
theorem buildPackageIndex_same {ι' : Type} [DecidableEq ι] [DecidableEq ι']
    {fs : FileSystem ν ι} {other : FileSystem ν ι'} (same : fs.SameTree other)
    (packageXml : ∀ dir : Path ν,
      fs.readToString (dir.joinStr "package.xml".toList) =
        other.readToString (dir.joinStr "package.xml".toList))
    (order : fs.Listing) (order' : other.Listing) (fuel : Nat)
    (root : Path ν) :
    fs.buildPackageIndex order fuel root =
      other.buildPackageIndex order' fuel root := by
  rw [buildPackageIndex, buildPackageIndex, ← same.isDir]
  by_cases isDir : fs.isDir root = true
  · rw [if_pos isDir, if_pos isDir, scanDir_eq_visit, scanDir_eq_visit,
      enterDir_same same packageXml order order',
      subdirsScanned_same same order order']
    have sameKeys : DepthFirst.SameKeys fs.canonicalize other.canonicalize
        (fun dir => fs.isDir dir = true) := by
      refine ⟨fun dir isDir => ⟨Option.isSome_of_any isDir, ?_⟩,
        same.canonical⟩
      rw [same.isDir] at isDir
      exact Option.isSome_of_any isDir
    have closed : ∀ dir, fs.isDir dir = true →
        ∀ sub ∈ other.subdirsScanned order' dir, fs.isDir sub = true := by
      intro dir _ sub member
      rw [← subdirsScanned_same same order order'] at member
      obtain ⟨_, _, _, _, _, _, isDirSub, _⟩ := mem_subdirsScanned.mp member
      exact isDirSub
    have unvisited : DepthFirst.SameVisited fs.canonicalize other.canonicalize
        (fun dir => fs.isDir dir = true) [] [] := by
      intro dir here here' _ _ _
      rw [List.mem_nil_iff, List.mem_nil_iff]
    exact (DepthFirst.visit_alike sameKeys closed fuel isDir [] unvisited).states
  · rw [if_neg isDir, if_neg isDir]

/-- A package holds its `package.xml`, so it is a directory. -/
theorem isDir_of_isPackage {fs : FileSystem ν ι} {dir : Path ν}
    (package : fs.isPackage dir = true) : fs.isDir dir = true :=
  isDir_of_child (Option.isSome_of_any package)

/-- The index is built whatever the tree, the same in every order of listing,
and in a well-formed tree it holds exactly the packages of the search. -/
theorem package_index_complete [Fintype ι] [DecidableEq ι]
    (fs : FileSystem ν ι) (root : Path ν) :
    ∃ result,
      (∀ order fuel, Fintype.card ι < fuel →
        fs.buildPackageIndex order fuel root = some result) ∧
      (fs.isDir root = true → fs.WellFormed root →
        ∃ index, result = .ok index ∧
          (∀ name, (index.get name).isSome ↔
            ∃ dir, fs.HoldsPackage root name dir) ∧
          ∀ name dir, index.get name = some dir →
            fs.isDir dir = true ∧ fs.isPackage dir = true ∧
              fs.parsePackageName (dir.joinStr "package.xml".toList) =
                .ok name) := by
  obtain ⟨scanned, ends⟩ := scanDir_ends fs root
  by_cases isDir : fs.isDir root = true
  · refine ⟨scanned.map Prod.fst, ?_, ?_⟩
    · intro order fuel enough
      rw [buildPackageIndex, if_pos isDir, ends order fuel enough]
      rfl
    · intro _ wellFormed
      have run := ends default _ (Nat.lt_succ_self _)
      obtain ⟨index, visited, rfl, indexed, entered⟩ :=
        scanDir_indexes isDir wellFormed run
      refine ⟨index, rfl, fun name => ?_, fun name dir get => ?_⟩
      · constructor
        · intro get
          obtain ⟨dir, get⟩ := Option.isSome_iff_exists.mp get
          exact ⟨dir, indexed.holds name dir get⟩
        · rintro ⟨dir, holds⟩
          obtain ⟨id, member, leads⟩ := entered dir holds.1
          exact indexed.found name dir id member leads holds
      · obtain ⟨_, package, named⟩ := indexed.holds name dir get
        exact ⟨isDir_of_isPackage package, package, named⟩
  · refine ⟨.error
      ["package search root is not a directory: ".toList ++ root.display],
      ?_, fun isDir' => absurd isDir' isDir⟩
    intro order fuel _
    rw [buildPackageIndex, if_neg isDir]

/-! A tree with a link back to its root, and one package that a skipped name
and a plain link lead to. -/

/-- The nodes of the tree. -/
inductive LinkedNode where
  | root
  | package
  | links
  | packageXml
  deriving DecidableEq

instance : Fintype LinkedNode where
  elems := {.root, .package, .links, .packageXml}
  complete node := by cases node <;> decide

def linkedTree : FileSystem Name LinkedNode where
  root := .root
  inode
    | .root => .dir true [("build".toList, some .package),
        ("gone".toList, none), ("links".toList, some .links)]
    | .package => .dir true [("package.xml".toList, some .packageXml)]
    | .links => .dir true [("alias".toList, some .package),
        ("up".toList, some .root)]
    | .packageXml => .file (some "<name> a </name>".toList)
  nodup id listed entries found := by
    cases id <;> cases found <;> decide

theorem linkedTree_wellFormed : linkedTree.WellFormed [] := by
  have nodes : ∀ id, linkedTree.nodeIsDir id = true →
      linkedTree.listed id = true := by decide
  have files : ∀ id, (linkedTree.child id "package.xml".toList).any
      (fun file => !linkedTree.nodeIsDir file) = true →
      linkedTree.child id "package.xml".toList = some .packageXml := by decide
  constructor
  · intro dir id searched _ leads
    obtain ⟨_, same, isDir⟩ :=
      isDir_iff.mp (searched.isDir (show linkedTree.isDir [] = true by decide))
    cases leads.symm.trans same
    exact nodes id isDir
  · intro dir searched package
    obtain ⟨id, leads, _⟩ :=
      isDir_iff.mp (searched.isDir (show linkedTree.isDir [] = true by decide))
    have file := resolve_join_of_resolve leads "package.xml".toList
    have holds : linkedTree.resolve (dir.joinStr "package.xml".toList) =
        some .packageXml := by
      rw [isPackage, isFile, Path.joinStr] at package
      exact file.trans (files id (file ▸ package))
    have read : linkedTree.readToString (dir.joinStr "package.xml".toList) =
        some "<name> a </name>".toList := by
      rw [readToString, holds]
      rfl
    have named : nameElement [] "<name> a </name>".toList =
        .ok "a".toList := by decide
    refine ⟨"a".toList, ?_⟩
    rw [parsePackageName, read]
    exact nameElement_ok named

theorem package_index_complete_linkedTree :
    ∃ index, (∀ order, linkedTree.buildPackageIndex order 5 [] =
        some (.ok index)) ∧
      ∀ name, (index.get name).isSome ↔
        ∃ dir, linkedTree.HoldsPackage [] name dir := by
  obtain ⟨result, built, holds⟩ := package_index_complete linkedTree []
  obtain ⟨index, rfl, names, _⟩ :=
    holds (by decide) linkedTree_wellFormed
  exact ⟨index, fun order => built order 5 (by decide), names⟩

example : linkedTree.buildPackageIndex default 5 [] =
    some (.ok [("a".toList, ["links".toList, "alias".toList])]) := by decide

end FileSystem

end NanoRos.Codegen

import NanoRos.Codegen.CodegenRun
import NanoRos.Codegen.MsgLookup
import NanoRos.Codegen.MsgRoundTrip

/-!
# What the depfile covers

The code generator is run on two file systems with one tree.  It looks into no
file but `ros.toml`, the `package.xml` files and the messages it records, so a
run that succeeds on the first is repeated on the second wherever these are
the same.
-/

namespace NanoRos.Codegen

open RecordedReads

namespace FileSystem

variable {ν ι ι' : Type} [EntryName ν]

/-- The file has one content in both file systems. -/
def SameContent (fs : FileSystem ν ι) (other : FileSystem ν ι')
    (path : Path ν) : Prop :=
  fs.readToString path = other.readToString path

/-! ## Parsing -/

section Parsing

variable {fs : FileSystem ν ι} {other : FileSystem ν ι'} {order : fs.Listing}
  {order' : other.Listing} {resolver : MsgResolver ν}

theorem repeats_parseStep (tree : fs.SameTree other)
    {parseFile parseFile' : Path ν → Name → ReadFiles ν → Parsed ν}
    (repeatsFile : ∀ path pkg, Repeats (fs.SameContent other)
      (parseFile path pkg) (parseFile' path pkg))
    (owningPkg shown : Name) (parsed : ParsedLine) (fields : List MsgField) :
    Repeats (fs.SameContent other)
      (fs.parseStep order resolver parseFile owningPkg shown parsed fields)
      (other.parseStep order' resolver parseFile' owningPkg shown parsed
        fields) := by
  cases parsed with
  | skipped => exact .refl _
  | badLength typeToken => exact .refl _
  | declared fieldName baseType arrayLen =>
      intro before result after done agree
      rw [parseStep] at done ⊢
      dsimp only at done ⊢
      cases primitive : parsePrimitive baseType with
      | some prim =>
          rw [primitive] at done
          exact done
      | none =>
          rw [primitive] at done
          rw [← findMsgFile_same tree order order']
          dsimp only at done ⊢
          cases found : fs.findMsgFile order resolver
              (resolveNestedType baseType owningPkg) with
          | error error =>
              rw [found] at done
              cases done
          | ok resolved =>
              rw [found] at done
              obtain ⟨⟨outcome, files⟩, parsedFile, same⟩ :=
                Option.map_eq_some_iff.mp done
              obtain ⟨sameOutcome, rfl⟩ := Prod.mk.inj same
              cases outcome with
              | error error => cases sameOutcome
              | ok nested =>
                  have again := repeatsFile resolved.path resolved.pkg before
                    nested files parsedFile agree
                  exact Option.map_eq_some_iff.mpr ⟨_, again, same⟩

theorem repeats_parseLines (tree : fs.SameTree other)
    {parseFile parseFile' : Path ν → Name → ReadFiles ν → Parsed ν}
    (framed : ∀ path pkg, Framed (parseFile path pkg))
    (repeatsFile : ∀ path pkg, Repeats (fs.SameContent other)
      (parseFile path pkg) (parseFile' path pkg))
    (owningPkg shown : Name) (lines : List (List Char))
    (fields : List MsgField) :
    Repeats (fs.SameContent other)
      (fs.parseLines order resolver parseFile owningPkg shown lines fields)
      (other.parseLines order' resolver parseFile' owningPkg shown lines
        fields) := by
  induction lines generalizing fields with
  | nil => exact .refl _
  | cons line rest induction =>
      rw [parseLines_cons, parseLines_cons]
      refine Repeats.andThen (fun fields => ?_) ?_ induction
      · exact (framed_parseLines framed owningPkg shown rest fields).grows
      · exact repeats_parseStep tree repeatsFile owningPkg shown
          (parseLine line) fields

/-- A file that parses does so again where all that was read is the same. -/
theorem repeats_parseMsgFile (tree : fs.SameTree other) (fuel : Nat)
    (path : Path ν) (pkg : Name) :
    Repeats (fs.SameContent other)
      (fs.parseMsgFile order resolver fuel path pkg)
      (other.parseMsgFile order' resolver fuel path pkg) := by
  induction fuel generalizing path pkg with
  | zero =>
      rintro before result after ⟨⟩
  | succ fuel induction =>
      rw [parseMsgFile_succ, parseMsgFile_succ]
      refine Repeats.read (fun _ same => same) (fun content => ?_)
        fun content => ?_
      · exact (framed_parseLines (framed_parseMsgFile fuel) pkg path.display
          (Text.lines content) []).grows
      · exact repeats_parseLines tree (framed_parseMsgFile fuel) induction pkg
          path.display (Text.lines content) []

theorem grows_parseType (fuel : Nat) (typePath : Name) :
    Grows (fs.parseType order resolver fuel typePath) := by
  intro before result after done
  rw [parseType] at done
  split at done
  · cases done
  · case _ resolved found =>
      exact (framed_parseMsgFile fuel resolved.path resolved.pkg).grows before
        result after done

theorem repeats_parseType (tree : fs.SameTree other) (fuel : Nat)
    (typePath : Name) :
    Repeats (fs.SameContent other) (fs.parseType order resolver fuel typePath)
      (other.parseType order' resolver fuel typePath) := by
  intro before result after done agree
  rw [parseType] at done ⊢
  rw [← findMsgFile_same tree order order']
  cases found : fs.findMsgFile order resolver typePath with
  | error error =>
      rw [found] at done
      cases done
  | ok resolved =>
      rw [found] at done
      exact repeats_parseMsgFile tree fuel resolved.path resolved.pkg before
        result after done agree

/-! ## Topics -/

/-- What a topic that is resolved has been parsed to. -/
theorem resolveTopic_eq_ok {fuel : Nat} {topic resolved : Topic}
    {before after : ReadFiles ν}
    (done : fs.resolveTopic order resolver fuel topic before =
      some (.ok resolved, after)) :
    ∃ fields, validateTopicType topic.msgType = .ok () ∧
      fs.parseType order resolver fuel topic.msgType before =
        some (.ok fields, after) ∧
      resolved = { topic with fields } := by
  rw [resolveTopic] at done
  split at done
  · cases done
  · case _ valid =>
      split at done
      · cases done
      · cases done
      · case _ fields files parsed =>
          cases done
          exact ⟨fields, valid, parsed, rfl⟩

theorem grows_resolveTopic (fuel : Nat) (topic : Topic) :
    Grows (fs.resolveTopic order resolver fuel topic) := by
  intro before result after done
  obtain ⟨fields, _, parsed, _⟩ := resolveTopic_eq_ok done
  exact grows_parseType fuel topic.msgType before fields after parsed

theorem repeats_resolveTopic (tree : fs.SameTree other) (fuel : Nat)
    (topic : Topic) :
    Repeats (fs.SameContent other) (fs.resolveTopic order resolver fuel topic)
      (other.resolveTopic order' resolver fuel topic) := by
  intro before result after done agree
  obtain ⟨fields, valid, parsed, rfl⟩ := resolveTopic_eq_ok done
  have again : other.parseType order' resolver fuel topic.msgType before =
      some (.ok fields, after) :=
    repeats_parseType tree fuel topic.msgType before fields after parsed agree
  rw [resolveTopic, valid]
  dsimp only
  rw [again]

/-- The loop over the topics, as one run after another. -/
theorem resolveTopics_cons (fs : FileSystem ν ι) (order : fs.Listing)
    (resolver : MsgResolver ν) (fuel : Nat) (topic : Topic)
    (rest : List Topic) :
    fs.resolveTopics order resolver fuel (topic :: rest) =
      RecordedReads.andThen (fs.resolveTopic order resolver fuel topic)
        fun topic =>
          RecordedReads.andThen (fs.resolveTopics order resolver fuel rest)
            fun topics files => some (.ok (topic :: topics), files) := by
  funext files
  rw [resolveTopics, RecordedReads.andThen]
  rcases fs.resolveTopic order resolver fuel topic files with
    _ | ⟨_ | topic, files⟩
  · rfl
  · rfl
  · dsimp only
    rw [RecordedReads.andThen]
    rcases fs.resolveTopics order resolver fuel rest files with
      _ | ⟨_ | _, _⟩ <;> rfl

theorem grows_resolveTopics (fuel : Nat) (topics : List Topic) :
    Grows (fs.resolveTopics order resolver fuel topics) := by
  induction topics with
  | nil => exact .const _
  | cons topic rest induction =>
      rw [resolveTopics_cons]
      exact (grows_resolveTopic fuel topic).andThen fun topic =>
        induction.andThen fun topics => .const _

theorem repeats_resolveTopics (tree : fs.SameTree other) (fuel : Nat)
    (topics : List Topic) :
    Repeats (fs.SameContent other)
      (fs.resolveTopics order resolver fuel topics)
      (other.resolveTopics order' resolver fuel topics) := by
  induction topics with
  | nil => exact .refl _
  | cons topic rest induction =>
      rw [resolveTopics_cons, resolveTopics_cons]
      refine Repeats.andThen (fun topic => ?_)
        (repeats_resolveTopic tree fuel topic) fun topic => ?_
      · exact (grows_resolveTopics fuel rest).andThen fun topics => .const _
      · exact Repeats.andThen (fun topics => .const _) induction
          fun topics => .refl _

end Parsing

/-! ## The run -/

theorem newResolver_same [DecidableEq ι] [DecidableEq ι']
    {fs : FileSystem ν ι} {other : FileSystem ν ι'} (tree : fs.SameTree other)
    (packageXml : ∀ dir : Path ν,
      fs.SameContent other (dir.joinStr "package.xml".toList))
    (order : fs.Listing) (order' : other.Listing) (fuel : Nat)
    (rosShare userTypesPath : Path ν) :
    fs.newResolver order fuel rosShare userTypesPath =
      other.newResolver order' fuel rosShare userTypesPath := by
  rw [newResolver, newResolver,
    buildPackageIndex_same tree packageXml order order',
    buildPackageIndex_same tree packageXml order order']

/-- A run that succeeds comes to the same output in every file system with the
same tree and the same `package.xml` files, if `ros.toml` and the messages it
lists have the same contents there.  So no other file that is changed makes a
difference. -/
theorem depfile_misses_nothing [DecidableEq ι] (fs : FileSystem ν ι)
    (order : fs.Listing) (fromStr : List Char → Except Error NanoRosConfig)
    (upper : Char → List Char) (args : CodegenArgs ν) (fuel : Nat)
    (output : CodegenOutput ν)
    (run : fs.codegen order fromStr upper args fuel = some (.ok output)) :
    (∀ (ι' : Type) [DecidableEq ι'] (other : FileSystem ν ι')
      (order' : other.Listing), fs.SameTree other →
      (∀ dir : Path ν,
        fs.SameContent other (dir.joinStr "package.xml".toList)) →
      fs.SameContent other args.tomlPath →
      (∀ path ∈ output.readFiles, fs.SameContent other path) →
      other.codegen order' fromStr upper args fuel = some (.ok output)) ∧
    ∀ (id : ι) (content : Option (List Char))
      (order' : (fs.overwrite id content).Listing),
      (∀ dir : Path ν,
        fs.resolve (dir.joinStr "package.xml".toList) ≠ some id) →
      (∀ path ∈ args.tomlPath :: output.readFiles,
        fs.resolve path ≠ some id) →
      (fs.overwrite id content).codegen order' fromStr upper args fuel =
        some (.ok output) := by
  obtain ⟨tomlStr, config, resolver, topics, files, generated, read, parsed,
    indexed, resolved, written, rfl⟩ := codegen_eq_ok_iff.mp run
  have twoRuns : ∀ (ι' : Type) [DecidableEq ι'] (other : FileSystem ν ι')
      (order' : other.Listing), fs.SameTree other →
      (∀ dir : Path ν,
        fs.SameContent other (dir.joinStr "package.xml".toList)) →
      fs.SameContent other args.tomlPath →
      (∀ path ∈ files.sorted, fs.SameContent other path) →
      other.codegen order' fromStr upper args fuel =
        some (.ok (args.output topics files generated)) := by
    intro ι' _ other order' tree packageXml toml messages
    have agree : ∀ path ∈ files, fs.SameContent other path :=
      fun path member => messages path ((Finset.mem_sort _).mpr member)
    refine codegen_eq_ok_iff.mpr ⟨tomlStr, config, resolver, topics, files,
      generated, ?_, parsed, ?_, ?_, written, rfl⟩
    · exact toml.symm.trans read
    · rw [← newResolver_same tree packageXml order order']
      exact indexed
    · exact repeats_resolveTopics tree fuel config.topics ∅ topics files
        resolved agree
  refine ⟨twoRuns, fun id content order' noPackage unlisted => ?_⟩
  have same : ∀ path, fs.resolve path ≠ some id →
      fs.SameContent (fs.overwrite id content) path :=
    fun path apart => (readToString_overwrite fs id content apart).symm
  refine twoRuns ι (fs.overwrite id content) order'
    (sameTree_overwrite fs id content) (fun dir => same _ (noPackage dir))
    (same _ (unlisted _ List.mem_cons_self)) fun path member => ?_
  exact same path (unlisted path (List.mem_cons_of_mem _ member))

/-! A topic with a message of each install; `Spare.msg` is not read. -/

/-- The nodes of the tree. -/
inductive DepNode where
  | root
  | toml
  | ros
  | stdMsgs
  | stdXml
  | stdMsgDir
  | header
  | user
  | demo
  | demoXml
  | demoMsgDir
  | reading
  | spare
  deriving DecidableEq

instance : Fintype DepNode where
  elems := {.root, .toml, .ros, .stdMsgs, .stdXml, .stdMsgDir, .header, .user,
    .demo, .demoXml, .demoMsgDir, .reading, .spare}
  complete node := by cases node <;> decide

def depTree : FileSystem Name DepNode where
  root := .root
  inode
    | .root => .dir true [("ros.toml".toList, some .toml),
        ("ros".toList, some .ros), ("user".toList, some .user)]
    | .toml => .file (some "topics of the board".toList)
    | .ros => .dir true [("std_msgs".toList, some .stdMsgs)]
    | .stdMsgs => .dir true [("package.xml".toList, some .stdXml),
        ("msg".toList, some .stdMsgDir)]
    | .stdXml => .file (some "<name>std_msgs</name>".toList)
    | .stdMsgDir => .dir true [("Header.msg".toList, some .header)]
    | .header => .file (some "uint32 seq\n".toList)
    | .user => .dir true [("demo".toList, some .demo)]
    | .demo => .dir true [("package.xml".toList, some .demoXml),
        ("msg".toList, some .demoMsgDir)]
    | .demoXml => .file (some "<name>demo</name>".toList)
    | .demoMsgDir => .dir true [("Reading.msg".toList, some .reading),
        ("Spare.msg".toList, some .spare)]
    | .reading => .file (some "Header header\nfloat64 value\n".toList)
    | .spare => .file (some "uint8 id\n".toList)
  nodup id listed entries found := by
    cases id <;> cases found <;> decide

def depTopics : List Topic :=
  [{ name := "reading".toList
     topicType := .publisher
     msgType := "demo/msg/Reading".toList
     qos := .default
     fields := [] }]

def depFromStr (text : List Char) : Except Error NanoRosConfig :=
  if text = "topics of the board".toList then .ok { topics := depTopics }
  else .error ["expected another file".toList]

def depArgs : CodegenArgs Name where
  tomlPath := ["ros.toml".toList]
  rosPrefix := ["ros".toList]
  userTypes := ["user".toList]
  outDir := ["out".toList]
  depfile := some ["out.d".toList]

def depResolver : MsgResolver Name where
  rosPkgs := [("std_msgs".toList, ["ros".toList, "std_msgs".toList])]
  userPkgs := [("demo".toList, ["user".toList, "demo".toList])]

def depFiles : ReadFiles Name :=
  {["user".toList, "demo".toList, "msg".toList, "Reading.msg".toList],
    ["ros".toList, "std_msgs".toList, "msg".toList, "Header.msg".toList]}

theorem newResolver_depTree :
    depTree.newResolver default 4 depArgs.rosPrefix depArgs.userTypes =
      some (.ok depResolver) := by
  have ros : depTree.buildPackageIndex default 4 depArgs.rosPrefix =
      some (.ok depResolver.rosPkgs) := by decide +kernel
  have user : depTree.buildPackageIndex default 4 depArgs.userTypes =
      some (.ok depResolver.userPkgs) := by decide +kernel
  rw [newResolver, ros]
  dsimp only
  rw [user]

theorem codegen_depTree : ∃ topics generated,
    depTree.codegen default depFromStr asciiUpper depArgs 4 =
      some (.ok (depArgs.output topics depFiles generated)) := by
  have check : (depTree.resolveTopics default depResolver 4 depTopics ∅).any
      (fun done => decide (done.2 = depFiles) && done.1.toOption.any
        fun topics => (generateFiles asciiUpper topics).isOk) = true := by
    decide +kernel
  obtain ⟨⟨outcome, files⟩, resolved, done⟩ := (Option.any_eq_true _ _).mp check
  obtain ⟨sameFiles, succeeds⟩ := Bool.and_eq_true_iff.mp done
  obtain rfl : files = depFiles := of_decide_eq_true sameFiles
  obtain ⟨topics, parsed, generates⟩ := (Option.any_eq_true _ _).mp succeeds
  cases outcome with
  | error error => cases parsed
  | ok resolvedTopics =>
      cases parsed
      cases written : generateFiles asciiUpper topics with
      | error error =>
          rw [written] at generates
          cases generates
      | ok generated =>
          exact ⟨topics, generated, codegen_eq_ok_iff.mpr
            ⟨_, _, _, _, _, _, rfl, rfl, newResolver_depTree, resolved,
              written, rfl⟩⟩

theorem depfile_misses_nothing_spareChanged :
    ∃ output, depTree.codegen default depFromStr asciiUpper depArgs 4 =
        some (.ok output) ∧
      ∀ order, (depTree.overwrite .spare none).codegen order depFromStr
        asciiUpper depArgs 4 = some (.ok output) := by
  obtain ⟨topics, generated, run⟩ := codegen_depTree
  refine ⟨_, run, fun order => ?_⟩
  refine (depfile_misses_nothing depTree default depFromStr asciiUpper depArgs
    4 _ run).2 .spare none order ?_ fun path member => ?_
  · intro dir leads
    have apart : ∀ node,
        depTree.child node "package.xml".toList ≠ some .spare := by decide
    rw [Path.joinStr, resolve_join] at leads
    obtain ⟨node, _, child⟩ := Option.bind_eq_some_iff.mp leads
    exact apart node child
  · rcases List.mem_cons.mp member with rfl | member
    · decide
    · have listed : ∀ path ∈ depFiles, depTree.resolve path ≠ some .spare := by
        decide
      exact listed path ((Finset.mem_sort _).mp member)

end FileSystem

end NanoRos.Codegen

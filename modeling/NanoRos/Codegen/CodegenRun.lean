import Mathlib.Data.Finset.Sort
import NanoRos.Codegen.GeneratedText
import NanoRos.Codegen.MsgParser

/-!
# A run of the code generator

`main` of `main.rs`, from `ros.toml` to the files that are written.  The toml
parser is a parameter.
-/

namespace NanoRos.Codegen

/-- `NanoRosConfig`. -/
structure NanoRosConfig where
  topics : List Topic

/-- What `parse_args` returns. -/
structure CodegenArgs (ν : Type) where
  tomlPath : Path ν
  rosPrefix : Path ν
  userTypes : Path ν
  outDir : Path ν
  depfile : Option (Path ν)

/-- `validate_topic_type`. -/
def validateTopicType (typePath : Name) : Except Error Unit :=
  let invalid : Error :=
    ["invalid ros_type '".toList ++ typePath ++
      "': expected 'pkg/msg/Name' (e.g. 'sensor_msgs/msg/Imu')".toList]
  match typePath.splitOn '/' with
  | [pkg, middle, name] =>
      if middle = "msg".toList ∧ pkg ≠ [] ∧ name ≠ [] then .ok ()
      else .error invalid
  | _ => .error invalid

/-! ## The depfile -/

/-- `replace` of one character. -/
def replaceChar (char : Char) (by_ text : List Char) : List Char :=
  text.flatMap fun other => if other = char then by_ else [other]

/-- `depfile_escape`. -/
def depfileEscape {ν : Type} [EntryName ν] (path : Path ν) : List Char :=
  replaceChar ' ' "\\ ".toList
    (replaceChar '#' "\\#".toList (replaceChar '$' "$$".toList path.display))

/-- What `write_depfile` writes. -/
def depfileText {ν : Type} [EntryName ν] (target : Path ν)
    (deps : List (Path ν)) : List Char :=
  depfileEscape target ++ ":".toList ++
    deps.flatMap (fun dep => " \\\n  ".toList ++ depfileEscape dep) ++ ['\n']

/-- `MsgResolver::read_files`: the files read so far, sorted. -/
def ReadFiles.sorted {ν : Type} [EntryName ν] (files : ReadFiles ν) :
    List (Path ν) :=
  files.sort (· ≤ ·)

/-- What a run comes to: the topics with their fields, what `read_files`
lists, and the files written. -/
structure CodegenOutput (ν : Type) where
  topics : List Topic
  readFiles : List (Path ν)
  written : List (Path ν × List Char)

/-- The end of `main`: the generated files, and the depfile if one is asked
for. -/
def CodegenArgs.output {ν : Type} [EntryName ν] (args : CodegenArgs ν)
    (topics : List Topic) (files : ReadFiles ν) (generated : GeneratedFiles) :
    CodegenOutput ν :=
  let header := args.outDir.joinStr "nano_ros_codegen.h".toList
  let code := args.outDir.joinStr "nano_ros_serde_codegen.c".toList
  let implementation := args.outDir.joinStr "nano_ros_impl_codegen.c".toList
  let deps := args.tomlPath :: files.sorted
  { topics
    readFiles := files.sorted
    written :=
      [(header, generated.header), (code, generated.code),
        (implementation, generated.implementation)] ++
        args.depfile.toList.map fun depfile =>
          (depfile, depfileText header deps) }

namespace FileSystem

variable {ν ι : Type} [EntryName ν] (fs : FileSystem ν ι) (order : fs.Listing)

/-! ## Topics -/

section Topics

variable (resolver : MsgResolver ν) (fuel : Nat)

/-- One round of the loop over the topics. -/
def resolveTopic (topic : Topic) (files : ReadFiles ν) :
    Option (Except Error Topic × ReadFiles ν) :=
  match validateTopicType topic.msgType with
  | .error error =>
      let context := "topic '".toList ++ topic.name ++ "'".toList
      some (.error (context :: error), files)
  | .ok () =>
      match fs.parseType order resolver fuel topic.msgType files with
      | none => none
      | some (.error error, files) =>
          let context :=
            "Resolving topic type '".toList ++ topic.msgType ++ "'".toList
          some (.error (context :: error), files)
      | some (.ok fields, files) => some (.ok { topic with fields }, files)

/-- The loop over the topics. -/
def resolveTopics :
    List Topic → ReadFiles ν → Option (Except Error (List Topic) × ReadFiles ν)
  | [], files => some (.ok [], files)
  | topic :: rest, files =>
      match fs.resolveTopic order resolver fuel topic files with
      | none => none
      | some (.error error, files) => some (.error error, files)
      | some (.ok topic, files) =>
          match resolveTopics rest files with
          | none => none
          | some (.error error, files) => some (.error error, files)
          | some (.ok topics, files) => some (.ok (topic :: topics), files)

end Topics

variable [DecidableEq ι]

/-- `MsgResolver::new`. -/
def newResolver (fuel : Nat) (rosShare userTypesPath : Path ν) :
    Option (Except Error (MsgResolver ν)) :=
  match fs.buildPackageIndex order fuel rosShare with
  | none => none
  | some (.error error) =>
      let context := "Indexing ROS packages in ".toList ++ rosShare.display
      some (.error (context :: error))
  | some (.ok rosPkgs) =>
      match fs.buildPackageIndex order fuel userTypesPath with
      | none => none
      | some (.error error) =>
          let context :=
            "Indexing user packages in ".toList ++ userTypesPath.display
          some (.error (context :: error))
      | some (.ok userPkgs) => some (.ok { rosPkgs, userPkgs })

variable (fromStr : List Char → Except Error NanoRosConfig)
  (upper : Char → List Char)

/-- `main`, once the arguments are parsed; what it writes is part of the
output. -/
def codegen (args : CodegenArgs ν) (fuel : Nat) :
    Option (Except Error (CodegenOutput ν)) :=
  match fs.readToString args.tomlPath with
  | none =>
      some (.error ["Reading ".toList ++ args.tomlPath.display])
  | some tomlStr =>
      match fromStr tomlStr with
      | .error error => some (.error error)
      | .ok config =>
          match fs.newResolver order fuel args.rosPrefix args.userTypes with
          | none => none
          | some (.error error) => some (.error error)
          | some (.ok resolver) =>
              match fs.resolveTopics order resolver fuel config.topics ∅ with
              | none => none
              | some (.error error, _) => some (.error error)
              | some (.ok topics, files) =>
                  match generateFiles upper topics with
                  | .error error => some (.error error)
                  | .ok generated =>
                      some (.ok (args.output topics files generated))

variable {fs order fromStr upper}

/-- What a run that succeeds has gone through. -/
theorem codegen_eq_ok_iff {args : CodegenArgs ν} {fuel : Nat}
    {output : CodegenOutput ν} :
    fs.codegen order fromStr upper args fuel = some (.ok output) ↔
      ∃ tomlStr config resolver topics files generated,
        fs.readToString args.tomlPath = some tomlStr ∧
        fromStr tomlStr = .ok config ∧
        fs.newResolver order fuel args.rosPrefix args.userTypes =
          some (.ok resolver) ∧
        fs.resolveTopics order resolver fuel config.topics ∅ =
          some (.ok topics, files) ∧
        generateFiles upper topics = .ok generated ∧
        output = args.output topics files generated := by
  constructor
  · intro run
    rw [codegen] at run
    split at run
    · cases run
    · case _ tomlStr read =>
        split at run
        · cases run
        · case _ config parsed =>
            split at run
            · cases run
            · cases run
            · case _ resolver indexed =>
                split at run
                · cases run
                · cases run
                · case _ topics files resolved =>
                    split at run
                    · cases run
                    · case _ generated written =>
                        cases run
                        exact ⟨tomlStr, config, resolver, topics, files,
                          generated, read, parsed, indexed, resolved, written,
                          rfl⟩
  · rintro ⟨tomlStr, config, resolver, topics, files, generated, read, parsed,
      indexed, resolved, written, rfl⟩
    simp only [codegen, read, parsed, indexed, resolved, written]

end FileSystem

end NanoRos.Codegen

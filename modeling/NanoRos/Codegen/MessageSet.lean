import NanoRos.Codegen.DepfileCoverage
import NanoRos.Codegen.GeneratedClosed

/-!
# The message set of a run

All fields that a run of the code generator comes to are read from message
files, and a file is parsed to the same fields wherever it is referred to.  If
messages are named as ROS wants it, one C name belongs to one file.
-/

namespace NanoRos.Codegen

open Text

/-! ## Names -/

/-- The rule of ROS for the name of a message: letters and digits, the first
of them a capital. -/
def IsMessageName : Name → Prop
  | [] => False
  | first :: rest => first.isUpper = true ∧ ∀ char ∈ rest, char.isAlphanum

instance : ∀ name, Decidable (IsMessageName name)
  | [] => isFalse id
  | _ :: rest => @instDecidableAnd _ _ _
      (List.decidableBAll (Char.isAlphanum · = true) rest)

/-- `pkg/msg/Name`. -/
def qualified (pkg name : Name) : Name :=
  pkg ++ '/' :: ("msg".toList ++ '/' :: name)

theorem IsMessageName.notMem {name : Name} (isName : IsMessageName name)
    {char : Char} (other : char.isAlphanum = false) : char ∉ name := by
  cases name with
  | nil => exact List.not_mem_nil
  | cons first rest =>
      obtain ⟨capital, plain⟩ := isName
      rw [List.mem_cons, not_or]
      constructor
      · rintro rfl
        have letter : char.isAlphanum =
            (true || char.isLower || char.isDigit) := by
          rw [← capital]
          rfl
        exact absurd (letter.symm.trans other) (ne_false_of_eq_true rfl)
      · intro member
        rw [plain char member] at other
        cases other

theorem IsMessageName.ne_t {name : Name} (isName : IsMessageName name) :
    name ≠ ['t'] := by
  rintro rfl
  exact absurd isName.1 (by decide)

theorem IsMessageName.isTypePath {name : Name} (isName : IsMessageName name)
    (pkg : Name) : IsTypePath (qualified pkg name) := by
  refine ⟨pkg ++ '/' :: "msg".toList, name, ?_, ?_, isName.notMem (by decide),
    isName.notMem (by decide)⟩
  · rw [qualified, List.append_assoc, List.cons_append]
  · rintro rfl
    exact isName

/-- The struct name of a qualified path, from which the path can be read off
again. -/
theorem structName_qualified {pkg name : Name} (plain : '/' ∉ pkg)
    (isName : IsMessageName name) :
    rosTypeToCStructName (qualified pkg name) =
      pkg ++ "__msg".toList ++ '_' :: '_' :: name ++ ['_', 't'] := by
  have dir : replaceSlash (pkg ++ '/' :: "msg".toList) =
      pkg ++ "__msg".toList := by
    rw [replaceSlash_path (by decide), replaceSlash_of_notMem plain]
    rfl
  have whole : qualified pkg name =
      (pkg ++ '/' :: "msg".toList) ++ '/' :: name := by
    rw [qualified, List.append_assoc, List.cons_append]
  rw [rosTypeToCStructName, whole,
    replaceSlash_path (isName.notMem (by decide)), dir]

theorem structName_inj {pkg pkg' name name' : Name} (plain : '/' ∉ pkg)
    (plain' : '/' ∉ pkg') (isName : IsMessageName name)
    (isName' : IsMessageName name')
    (same : rosTypeToCStructName (qualified pkg name) =
      rosTypeToCStructName (qualified pkg' name')) :
    pkg = pkg' ∧ name = name' := by
  rw [structName_qualified plain isName, structName_qualified plain' isName']
    at same
  have reversed := congrArg List.reverse (List.append_cancel_right same)
  simp only [List.reverse_append, List.reverse_cons, List.append_assoc,
    List.cons_append, List.nil_append] at reversed
  -- read from the end, the name goes on to the first underscore
  have absent {name : Name} (isName : IsMessageName name) :
      '_' ∉ name.reverse := by
    rw [List.mem_reverse]
    exact isName.notMem (by decide)
  have names := congrArg (upTo '_') reversed
  rw [upTo_append_separator (absent isName),
    upTo_append_separator (absent isName')] at names
  have sameName := List.reverse_injective names
  rw [names] at reversed
  have dirs := List.append_cancel_left reversed
  simp only [List.cons.injEq, true_and, List.append_cancel_left_eq,
    List.reverse_inj] at dirs
  exact ⟨dirs, sameName⟩

theorem nestedTypes_append (fields more : List MsgField) :
    nestedTypes (fields ++ more) = nestedTypes fields ++ nestedTypes more := by
  induction fields with
  | nil => rfl
  | cons field fields induction =>
      rw [List.cons_append, nestedTypes, nestedTypes, induction,
        List.append_assoc]

namespace FileSystem

variable {ν ι : Type} [EntryName ν]

/-! ## Message files -/

/-- The names of all message files are as ROS wants them. -/
def RosNamed (fs : FileSystem ν ι) : Prop :=
  ∀ (dir : Path ν) (name : Name),
    fs.isFile (dir.joinStr (msgFileName name)) = true → IsMessageName name

/-- A type path leads to a message file with these fields. -/
def Denotes (fs : FileSystem ν ι) (order : fs.Listing)
    (resolver : MsgResolver ν) (typePath : Name) (fields : List MsgField) :
    Prop :=
  ∃ resolved, fs.findMsgFile order resolver typePath = .ok resolved ∧
    Parses fs order resolver resolved fields

/-- A C name with the fields of the message file it is made from. -/
def Sourced (fs : FileSystem ν ι) (order : fs.Listing)
    (resolver : MsgResolver ν) (node : Name × List MsgField) : Prop :=
  ∃ pkg name, '/' ∉ pkg ∧ IsMessageName name ∧
    node.1 = rosTypeToCStructName (qualified pkg name) ∧
      fs.Denotes order resolver (qualified pkg name) node.2

variable {fs : FileSystem ν ι} {order : fs.Listing} {resolver : MsgResolver ν}

theorem Parses.unique {resolved : ResolvedMsg ν} {fields other : List MsgField}
    (parses : Parses fs order resolver resolved fields)
    (parsesOther : Parses fs order resolver resolved other) :
    fields = other := by
  obtain ⟨fuel, first⟩ := parses
  obtain ⟨more, second⟩ := parsesOther
  have both := (first.mono (Nat.le_max_left fuel more)).symm.trans
    (second.mono (Nat.le_max_right fuel more))
  cases both
  rfl

theorem Denotes.unique {typePath : Name} {fields other : List MsgField}
    (denotes : fs.Denotes order resolver typePath fields)
    (denotesOther : fs.Denotes order resolver typePath other) :
    fields = other := by
  obtain ⟨resolved, found, parses⟩ := denotes
  obtain ⟨_, again, parsesOther⟩ := denotesOther
  cases found.symm.trans again
  exact parses.unique parsesOther

theorem parses_of_parseMsgFile {fuel : Nat} {resolved : ResolvedMsg ν}
    {fields : List MsgField} {before after : ReadFiles ν}
    (parsed : fs.parseMsgFile order resolver fuel resolved.path resolved.pkg
      before = some (.ok fields, after)) :
    Parses fs order resolver resolved fields := by
  refine ⟨fuel, ?_⟩
  rw [ParsesWith, Returns, fst_parseMsgFile fuel _ _ ∅ before, parsed]
  rfl

/-- Where a message file is found, its name is that in the type path. -/
theorem qualified_of_findMsgFile (named : fs.RosNamed) {typePath : Name}
    {resolved : ResolvedMsg ν}
    (found : fs.findMsgFile order resolver typePath = .ok resolved)
    (pieces : 2 < (typePath.splitOn '/').length) :
    ∃ pkg name, '/' ∉ pkg ∧ IsMessageName name ∧
      typePath = qualified pkg name := by
  cases split : splitTypePath typePath with
  | error error =>
      rw [findMsgFile, split] at found
      cases found
  | ok both =>
      obtain ⟨pkg, name⟩ := both
      have isPath := isMsgPath_of_splitTypePath split
      obtain ⟨_, candidate⟩ := (findMsgFile_ok_iff isPath).mp found
      have inPackage : ∃ pkgDir,
          fs.msgInPackage order name pkgDir = some resolved.path := by
        rcases Option.or_eq_some_iff.mp candidate with ros | ⟨_, user⟩
        · obtain ⟨pkgDir, _, inPackage⟩ := Option.bind_eq_some_iff.mp ros
          exact ⟨pkgDir, inPackage⟩
        · obtain ⟨pkgDir, _, inPackage⟩ := Option.bind_eq_some_iff.mp user
          exact ⟨pkgDir, inPackage⟩
      obtain ⟨pkgDir, inPackage⟩ := inPackage
      have isName : IsMessageName name := by
        rcases holdsMsg_of_msgInPackage inPackage with
          ⟨same, isFile⟩ | ⟨levels, _, _, _, same, isFile⟩
        · rw [same] at isFile
          exact named _ name isFile
        · rw [same] at isFile
          exact named _ name isFile
      obtain ⟨plainPkg, plainName, short | long⟩ := isPath
      · rw [short, List.splitOn_append_cons_self_of_not_mem plainPkg,
          List.splitOn_eq_singleton plainName] at pieces
        exact absurd pieces (Nat.lt_irrefl 2)
      · exact ⟨pkg, name, plainPkg, isName, long⟩

/-! ## Parsing -/

/-- All nested types of fields come from message files. -/
def AllSourced (fs : FileSystem ν ι) (order : fs.Listing)
    (resolver : MsgResolver ν) (fields : List MsgField) : Prop :=
  ∀ node ∈ nestedTypes fields, fs.Sourced order resolver node

theorem AllSourced.append {fields more : List MsgField}
    (sourced : fs.AllSourced order resolver fields)
    (sourcedMore : fs.AllSourced order resolver more) :
    fs.AllSourced order resolver (fields ++ more) := by
  intro node member
  rw [nestedTypes_append] at member
  rcases List.mem_append.mp member with first | last
  · exact sourced node first
  · exact sourcedMore node last

theorem allSourced_primitive (fieldName : Name) (prim : PrimType)
    (arrayLen : Option Nat) :
    fs.AllSourced order resolver
      [.mk fieldName (primitiveField prim arrayLen)] := by
  intro node member
  cases arrayLen with
  | none => cases member
  | some len => cases member

theorem allSourced_nested {cType : Name} {nested : List MsgField}
    (source : fs.Sourced order resolver (cType, nested))
    (inner : fs.AllSourced order resolver nested) (fieldName : Name)
    (arrayLen : Option Nat) :
    fs.AllSourced order resolver
      [.mk fieldName (nestedField cType nested arrayLen)] := by
  intro node member
  have inTree : node ∈ (cType, nested) :: nestedTypes nested := by
    cases arrayLen with
    | none => exact (List.mem_append.mp member).resolve_right List.not_mem_nil
    | some len =>
        exact (List.mem_append.mp member).resolve_right List.not_mem_nil
  rcases List.mem_cons.mp inTree with rfl | below
  · exact source
  · exact inner node below

/-- One line adds fields whose nested types come from message files. -/
theorem allSourced_parseStep (named : fs.RosNamed) {fuel : Nat}
    (inFiles : ∀ path pkg before after nested,
      fs.parseMsgFile order resolver fuel path pkg before =
        some (.ok nested, after) → fs.AllSourced order resolver nested)
    {owningPkg shown : Name} {parsed : ParsedLine}
    {fields added : List MsgField} {before after : ReadFiles ν}
    (step : fs.parseStep order resolver (fs.parseMsgFile order resolver fuel)
      owningPkg shown parsed fields before = some (.ok added, after))
    (sourced : fs.AllSourced order resolver fields) :
    fs.AllSourced order resolver added := by
  unfold parseStep at step
  cases parsed with
  | skipped =>
      cases step
      exact sourced
  | badLength typeToken => cases step
  | declared fieldName baseType arrayLen =>
      dsimp only at step
      cases primitive : parsePrimitive baseType with
      | some prim =>
          rw [primitive] at step
          cases step
          exact sourced.append (allSourced_primitive _ _ _)
      | none =>
          rw [primitive] at step
          dsimp only at step
          cases found : fs.findMsgFile order resolver
              (resolveNestedType baseType owningPkg) with
          | error error =>
              rw [found] at step
              cases step
          | ok resolved =>
              rw [found] at step
              obtain ⟨⟨outcome, read⟩, parsedFile, same⟩ :=
                Option.map_eq_some_iff.mp step
              cases outcome with
              | error error => cases same
              | ok nested =>
                  cases same
                  obtain ⟨pkg, name, plain, isName, path⟩ :=
                    qualified_of_findMsgFile named found
                      (resolveNestedType_pieces _ _)
                  apply sourced.append
                  apply allSourced_nested _
                    (inFiles _ _ _ _ nested parsedFile)
                  refine ⟨pkg, name, plain, isName, ?_, resolved, ?_, ?_⟩
                  · rw [path]
                  · rw [← path]
                    exact found
                  · exact parses_of_parseMsgFile parsedFile

theorem allSourced_parseMsgFile (named : fs.RosNamed) {fuel : Nat}
    {path : Path ν} {pkg : Name} {before after : ReadFiles ν}
    {fields : List MsgField}
    (parsed : fs.parseMsgFile order resolver fuel path pkg before =
      some (.ok fields, after)) : fs.AllSourced order resolver fields := by
  induction fuel generalizing path pkg before after fields with
  | zero => cases parsed
  | succ fuel inFiles =>
      have ofLines (lines : List (List Char)) (start : List MsgField)
          (read : ReadFiles ν) (sourced : fs.AllSourced order resolver start)
          (done : fs.parseLines order resolver
            (fs.parseMsgFile order resolver fuel) pkg path.display lines start
            read = some (.ok fields, after)) :
          fs.AllSourced order resolver fields := by
        induction lines generalizing start read with
        | nil =>
            cases done
            exact sourced
        | cons line rest induction =>
            rw [parseLines_cons] at done
            obtain ⟨added, between, step, restDone⟩ :=
              RecordedReads.andThen_eq_ok done
            have sourcedAdded := allSourced_parseStep named
              (fun _ _ _ _ _ => inFiles) step sourced
            exact induction added between sourcedAdded restDone
      rw [parseMsgFile] at parsed
      split at parsed
      · cases parsed
      · refine ofLines _ [] _ ?_ parsed
        rintro _ ⟨⟩

/-! ## Topics -/

theorem sourced_parseType (named : fs.RosNamed) {fuel : Nat} {typePath : Name}
    {before after : ReadFiles ν} {fields : List MsgField}
    (valid : validateTopicType typePath = .ok ())
    (parsed : fs.parseType order resolver fuel typePath before =
      some (.ok fields, after)) :
    (∃ pkg name, '/' ∉ pkg ∧ IsMessageName name ∧
        typePath = qualified pkg name ∧
          fs.Denotes order resolver (qualified pkg name) fields) ∧
      fs.AllSourced order resolver fields := by
  rw [parseType] at parsed
  split at parsed
  · cases parsed
  · case _ resolved found =>
      have pieces : 2 < (typePath.splitOn '/').length := by
        rw [validateTopicType] at valid
        split at valid
        · case _ three =>
            rw [three]
            exact Nat.lt_succ_self 2
        · cases valid
      obtain ⟨pkg, name, plain, isName, path⟩ :=
        qualified_of_findMsgFile named found pieces
      refine ⟨⟨pkg, name, plain, isName, path, resolved, path ▸ found, ?_⟩, ?_⟩
      · exact parses_of_parseMsgFile parsed
      · exact allSourced_parseMsgFile named parsed

/-- The type of a topic and all types nested in it come from message files. -/
def TopicSourced (fs : FileSystem ν ι) (order : fs.Listing)
    (resolver : MsgResolver ν) (topic : Topic) : Prop :=
  (∃ pkg name, '/' ∉ pkg ∧ IsMessageName name ∧
      topic.msgType = qualified pkg name ∧
        fs.Denotes order resolver (qualified pkg name) topic.fields) ∧
    fs.AllSourced order resolver topic.fields

theorem topicSourced_resolveTopics (named : fs.RosNamed) {fuel : Nat}
    {topics resolved : List Topic} {before after : ReadFiles ν}
    (done : fs.resolveTopics order resolver fuel topics before =
      some (.ok resolved, after)) :
    ∀ topic ∈ resolved, fs.TopicSourced order resolver topic := by
  induction topics generalizing resolved before with
  | nil =>
      cases done
      exact nofun
  | cons topic rest induction =>
      rw [resolveTopics] at done
      split at done
      · cases done
      · cases done
      · case _ first files here =>
          split at done
          · cases done
          · cases done
          · case _ others files later =>
              cases done
              obtain ⟨fields, valid, parsed, rfl⟩ := resolveTopic_eq_ok here
              intro topic member
              rcases List.mem_cons.mp member with rfl | among
              · exact sourced_parseType named valid parsed
              · exact induction later topic among

/-- Every type of the topics comes from the message file of its name. -/
theorem sourced_messageTypes {topics : List Topic}
    (sourced : ∀ topic ∈ topics, fs.TopicSourced order resolver topic) :
    ∀ node ∈ messageTypes topics, fs.Sourced order resolver node := by
  intro node member
  obtain ⟨topic, inside, inTopic⟩ := List.mem_flatMap.mp member
  obtain ⟨⟨pkg, name, plain, isName, path, denotes⟩, nested⟩ :=
    sourced topic inside
  rcases List.mem_cons.mp inTopic with rfl | below
  · exact ⟨pkg, name, plain, isName, congrArg rosTypeToCStructName path,
      denotes⟩
  · exact nested node below

/-- Types of one C name come from one file. -/
theorem Sourced.agree {left right : Name × List MsgField}
    (sourced : fs.Sourced order resolver left)
    (sourcedRight : fs.Sourced order resolver right)
    (same : left.1 = right.1) : left.2 = right.2 := by
  obtain ⟨pkg, name, plain, isName, cName, denotes⟩ := sourced
  obtain ⟨pkg', name', plain', isName', cName', denotesRight⟩ := sourcedRight
  obtain ⟨rfl, rfl⟩ := structName_inj plain plain' isName isName'
    (cName.symm.trans (same.trans cName'))
  exact denotes.unique denotesRight

theorem oneMessageSet_of_sourced {topics : List Topic}
    (sourced : ∀ topic ∈ topics, fs.TopicSourced order resolver topic) :
    OneMessageSet topics := by
  have all := sourced_messageTypes sourced
  constructor
  · intro topic member
    obtain ⟨⟨pkg, name, _, isName, path, _⟩, _⟩ := sourced topic member
    rw [path]
    exact isName.isTypePath pkg
  · intro topic member node nested
    obtain ⟨pkg, name, _, isName, cName, _⟩ := (sourced topic member).2 node
      nested
    exact ⟨_, isName.isTypePath pkg, cName⟩
  · intro left inLeft right inRight same
    exact (all left inLeft).agree (all right inRight) same

/-- No message that ROS allows is named `t`. -/
theorem Sourced.not_isNamedT {node : Name × List MsgField}
    (sourced : fs.Sourced order resolver node) : ¬ IsNamedT node.1 := by
  obtain ⟨pkg, name, _, isName, cName, _⟩ := sourced
  have shape : qualified pkg name =
      (pkg ++ '/' :: "msg".toList) ++ '/' :: name := by
    rw [qualified, List.append_assoc, List.cons_append]
  rw [cName, shape, isNamedT_iff (isName.notMem (by decide))
    (isName.notMem (by decide))]
  exact isName.ne_t

/-- Whatever `main` writes for message files with names of ROS can be compiled
as far as structs and serializers go, and every C name stands for one message
file. -/
theorem codegen_closed [DecidableEq ι] (fs : FileSystem ν ι)
    (order : fs.Listing) (fromStr : List Char → Except Error NanoRosConfig)
    (upper : Char → List Char) (args : CodegenArgs ν) (fuel : Nat)
    (output : CodegenOutput ν) (named : fs.RosNamed)
    (run : fs.codegen order fromStr upper args fuel = some (.ok output)) :
    OneMessageSet output.topics ∧
      (generateCoreCode output.topics).Closed output.topics := by
  obtain ⟨_, _, resolver, topics, files, _, _, _, _, resolved, _, rfl⟩ :=
    codegen_eq_ok_iff.mp run
  have sourced := topicSourced_resolveTopics named resolved
  have oneSet : OneMessageSet topics := oneMessageSet_of_sourced sourced
  refine ⟨oneSet, closed_of_noneNamedT oneSet ?_⟩
  intro node member
  exact (sourced_messageTypes sourced node member).not_isNamedT

theorem rosNamed_depTree : depTree.RosNamed := by
  have stems : ∀ node, ∀ entry ∈ (depTree.entries node).map Prod.fst,
      ".msg".toList.isSuffixOf entry = true →
        IsMessageName (entry.take (entry.length - 4)) := by
    intro node
    cases node <;> decide
  intro dir name isFile
  obtain ⟨file, leads, _⟩ := isFile_iff.mp isFile
  obtain ⟨node, _, _, member⟩ := dir_of_child (Option.isSome_of_eq_some leads)
  have stem := stems node (msgFileName name) member
    (List.isSuffixOf_iff_suffix.mpr (List.suffix_append name _))
  have whole : (msgFileName name).take ((msgFileName name).length - 4) =
      name := by
    rw [msgFileName, List.length_append]
    exact List.take_left
  rwa [whole] at stem

theorem codegen_closed_depTree :
    ∃ output, depTree.codegen default depFromStr asciiUpper depArgs 4 =
        some (.ok output) ∧
      OneMessageSet output.topics ∧
        (generateCoreCode output.topics).Closed output.topics := by
  obtain ⟨topics, generated, run⟩ := codegen_depTree
  exact ⟨_, run, codegen_closed depTree default depFromStr asciiUpper depArgs 4
    _ rosNamed_depTree run⟩

end FileSystem

end NanoRos.Codegen

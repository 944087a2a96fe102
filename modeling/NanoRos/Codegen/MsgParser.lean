import NanoRos.Codegen.MsgFiles
import NanoRos.Codegen.GeneratedCode
import Mathlib.Data.Finset.Insert

/-!
# Parsing messages

`parse_type`, `parse_msg_file` and `parse_msg_str` of `msg_file_parser.rs`.
They pass along the set of files read so far, and are cut off when the fuel
runs out.
-/

namespace NanoRos.Codegen

open Text

/-- `usize::MAX + 1`. -/
def usizeBound : Nat := 0x10000000000000000

/-- The arms of `parse_primitive`. -/
def primitiveTypes : List (Name × PrimType) :=
  [("bool".toList, .bool),
    ("byte".toList, .byte),
    ("char".toList, .char),
    ("float32".toList, .float32),
    ("float64".toList, .float64),
    ("int8".toList, .int8),
    ("int16".toList, .int16),
    ("int32".toList, .int32),
    ("int64".toList, .int64),
    ("uint8".toList, .uint8),
    ("uint16".toList, .uint16),
    ("uint32".toList, .uint32),
    ("uint64".toList, .uint64),
    ("string".toList, .string),
    ("wstring".toList, .string)]

/-- `parse_primitive`. -/
def parsePrimitive (type : Name) : Option PrimType :=
  primitiveTypes.lookup type

/-- `resolve_nested_type`. -/
def resolveNestedType (type owningPkg : Name) : Name :=
  match type.splitOn '/' with
  | [pkg, name] => pkg ++ "/msg/".toList ++ name
  | [_, _, _] => type
  | _ =>
      if type = "Header".toList then "std_msgs/msg/Header".toList
      else owningPkg ++ "/msg/".toList ++ type

/-- What one line declares. -/
inductive ParsedLine where
  | skipped
  | badLength (typeToken : Name)
  | declared (fieldName baseType : Name) (arrayLen : Option Nat)

/-- `TYPE[SPEC]` without what follows the first bracket, and SPEC. -/
def splitArraySpec (typeToken : Name) : Name × Option Name :=
  match splitOnce ['['] typeToken with
  | some (base, spec) => (base, some (spec.rdropWhile (· == ']')))
  | none => (typeToken, none)

/-- `string<=10` without its bound. -/
def stripBound (baseRaw : Name) : Name :=
  match splitOnce "<=".toList baseRaw with
  | some (base, _) => base
  | none => baseRaw

/-- A line without its comment. -/
def stripComment (line : List Char) : List Char :=
  trim (upTo '#' line)

/-- The test for `TYPE NAME=VALUE`; bounds of strings do not count. -/
def isConstant (line : List Char) : Bool :=
  '=' ∈ line && !(splitWhitespace line).head?.any (contains "<=".toList)

/-- What `TYPE[N] NAME` or `TYPE NAME` declares. -/
def parseWords : List Name → ParsedLine
  | typeToken :: fieldName :: _ =>
      match splitArraySpec typeToken with
      | (baseRaw, none) => .declared fieldName (stripBound baseRaw) none
      | (baseRaw, some spec) =>
          -- dynamic and bounded arrays are not supported
          if spec = [] ∨ "<=".toList.isPrefixOf spec then .skipped
          else
            match parseNat usizeBound spec with
            | some len => .declared fieldName (stripBound baseRaw) (some len)
            | none => .badLength typeToken
  | _ => .skipped

/-- One round of the loop of `parse_msg_str`, up to the type of the field. -/
def parseLine (raw : List Char) : ParsedLine :=
  let line := stripComment raw
  if line = [] then .skipped
  else if isConstant line then .skipped
  else parseWords (splitWhitespace line)

theorem isConstant_trim (text : List Char) :
    isConstant (trim text) = isConstant text := by
  have visible : isWhitespace '=' = false := by decide
  have same : decide ('=' ∈ trim text) = decide ('=' ∈ text) :=
    decide_eq_decide.mpr (mem_trim_iff visible text)
  rw [isConstant, isConstant, splitWhitespace_trim, same]

theorem isConstant_append_space {space : List Char} (isSpace : IsSpace space)
    (text : List Char) : isConstant (text ++ space) = isConstant text := by
  have absent : '=' ∉ space := isSpace.notMem (by decide)
  have same : decide ('=' ∈ text ++ space) = decide ('=' ∈ text) := by
    refine decide_eq_decide.mpr (List.mem_append.trans ?_)
    exact or_iff_left absent
  rw [isConstant, isConstant, splitWhitespace_append_space isSpace, same]

/-- A line is read by the words before its comment. -/
theorem parseLine_eq (raw : List Char) :
    parseLine raw =
      if isConstant (upTo '#' raw) then .skipped
      else parseWords (splitWhitespace (upTo '#' raw)) := by
  rw [parseLine, stripComment, isConstant_trim, splitWhitespace_trim]
  split
  · case _ empty =>
      have noWords : splitWhitespace (upTo '#' raw) = [] := by
        rw [← splitWhitespace_trim, empty]
        rfl
      rw [noWords]
      exact (ite_self _).symm
  · rfl

/-- A line of white space and a comment declares nothing. -/
theorem parseLine_of_space {raw : List Char} (space : IsSpace (upTo '#' raw)) :
    parseLine raw = .skipped := by
  have noWords : splitWhitespace (upTo '#' raw) = [] := by
    have all := splitWhitespace_space_append space []
    rw [List.append_nil] at all
    exact all
  rw [parseLine_eq, noWords]
  exact ite_self _

/-- A carriage return at the end of a line makes no difference. -/
theorem parseLine_concat_return (line : List Char) :
    parseLine (line ++ ['\r']) = parseLine line := by
  by_cases comment : '#' ∈ line
  · obtain ⟨before, after, rfl, absent⟩ := List.eq_append_cons_of_mem comment
    rw [List.append_assoc, List.cons_append, parseLine_eq, parseLine_eq,
      upTo_append_separator absent, upTo_append_separator absent]
  · have absent : '#' ∉ line ++ ['\r'] := by
      rw [List.mem_append, not_or]
      exact ⟨comment, by decide⟩
    have return_ : IsSpace ['\r'] := by
      intro char member
      cases List.mem_singleton.mp member
      decide
    rw [parseLine_eq, parseLine_eq, upTo_of_notMem absent,
      upTo_of_notMem comment, isConstant_append_space return_,
      splitWhitespace_append_space return_]

/-- The type of a primitive field. -/
def primitiveField (prim : PrimType) : Option Nat → FieldType
  | some len => .primArray prim len
  | none => .primitive prim

/-- The type of a nested field. -/
def nestedField (cTypeName : Name) (fields : List MsgField) :
    Option Nat → FieldType
  | some len => .nestedArray cTypeName fields len
  | none => .nested cTypeName fields

/-- The files read so far (`read_files`). -/
abbrev ReadFiles (ν : Type) [DecidableEq ν] := Finset (Path ν)

namespace FileSystem

variable {ν ι : Type} [EntryName ν] (fs : FileSystem ν ι) (order : fs.Listing)
  (resolver : MsgResolver ν)

/-- The loop of `parse_msg_str` over the lines. -/
def parseLines
    (parseFile : Path ν → Name → ReadFiles ν →
      Option (Except Error (List MsgField) × ReadFiles ν))
    (owningPkg shown : Name) :
    List (List Char) → List MsgField → ReadFiles ν →
      Option (Except Error (List MsgField) × ReadFiles ν)
  | [], fields, files => some (.ok fields, files)
  | line :: rest, fields, files =>
      match parseLine line with
      | .skipped => parseLines parseFile owningPkg shown rest fields files
      | .badLength typeToken =>
          let context := "Invalid array length in '".toList ++ typeToken ++
            "' at ".toList ++ shown
          some (.error [context], files)
      | .declared fieldName baseType arrayLen =>
          match parsePrimitive baseType with
          | some prim =>
              let field := .mk fieldName (primitiveField prim arrayLen)
              parseLines parseFile owningPkg shown rest
                (fields ++ [field]) files
          | none =>
              let nestedType := resolveNestedType baseType owningPkg
              match fs.findMsgFile order resolver nestedType with
              | .error error =>
                  let context := "Resolving nested type '".toList ++ baseType ++
                    "' for field '".toList ++ fieldName ++ "'".toList
                  some (.error (context :: error), files)
              | .ok resolved =>
                  match parseFile resolved.path resolved.pkg files with
                  | none => none
                  | some (.error error, files) => some (.error error, files)
                  | some (.ok nested, files) =>
                      let cTypeName := rosTypeToCStructName nestedType
                      let field :=
                        .mk fieldName (nestedField cTypeName nested arrayLen)
                      parseLines parseFile owningPkg shown rest
                        (fields ++ [field]) files

/-- `parse_msg_file`, and `parse_msg_str` of its content. -/
def parseMsgFile : Nat → Path ν → Name → ReadFiles ν →
    Option (Except Error (List MsgField) × ReadFiles ν)
  | 0, _, _, _ => none
  | fuel + 1, msgPath, owningPkg, files =>
      match fs.readToString msgPath with
      | none =>
          some (.error ["Failed to read ".toList ++ msgPath.display], files)
      | some content =>
          fs.parseLines order resolver (parseMsgFile fuel) owningPkg
            msgPath.display (lines content) [] (insert msgPath files)

/-- `parse_msg_str`. -/
def parseMsgStr (fuel : Nat) (content : List Char) (owningPkg : Name)
    (source : Path ν) (files : ReadFiles ν) :
    Option (Except Error (List MsgField) × ReadFiles ν) :=
  fs.parseLines order resolver (fs.parseMsgFile order resolver fuel) owningPkg
    source.display (lines content) [] files

/-- `parse_type`. -/
def parseType (fuel : Nat) (typePath : Name) (files : ReadFiles ν) :
    Option (Except Error (List MsgField) × ReadFiles ν) :=
  match fs.findMsgFile order resolver typePath with
  | .error error => some (.error error, files)
  | .ok resolved =>
      fs.parseMsgFile order resolver fuel resolved.path resolved.pkg files

end FileSystem

end NanoRos.Codegen

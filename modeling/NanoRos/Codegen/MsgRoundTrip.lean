import NanoRos.Foundation.RecordedReads
import NanoRos.Codegen.MsgRendering

/-!
# A message file is parsed as it was written

The parser is followed line by line: what each line adds to the fields, and
that neither more fuel nor the files read before change what is returned.
-/

namespace NanoRos.Codegen

open Text RecordedReads

namespace FileSystem

variable {ν ι : Type} [EntryName ν] (fs : FileSystem ν ι) (order : fs.Listing)
  (resolver : MsgResolver ν)

/-- What parsing comes to, with the files read. -/
abbrev Parsed (ν : Type) [DecidableEq ν] :=
  Option (Except Error (List MsgField) × ReadFiles ν)

/-- What one line adds to the fields. -/
def parseStep (parseFile : Path ν → Name → ReadFiles ν → Parsed ν)
    (owningPkg shown : Name) (parsed : ParsedLine) (fields : List MsgField)
    (files : ReadFiles ν) : Parsed ν :=
  match parsed with
  | .skipped => some (.ok fields, files)
  | .badLength typeToken =>
      let context := "Invalid array length in '".toList ++ typeToken ++
        "' at ".toList ++ shown
      some (.error [context], files)
  | .declared fieldName baseType arrayLen =>
      match parsePrimitive baseType with
      | some prim =>
          some (.ok (fields ++ [.mk fieldName (primitiveField prim arrayLen)]),
            files)
      | none =>
          let nestedType := resolveNestedType baseType owningPkg
          match fs.findMsgFile order resolver nestedType with
          | .error error =>
              let context := "Resolving nested type '".toList ++ baseType ++
                "' for field '".toList ++ fieldName ++ "'".toList
              some (.error (context :: error), files)
          | .ok resolved =>
              (parseFile resolved.path resolved.pkg files).map fun parsed =>
                (parsed.1.map fun nested => fields ++
                  [.mk fieldName (nestedField
                    (rosTypeToCStructName nestedType) nested arrayLen)],
                  parsed.2)

variable {fs order resolver}

/-- The loop of `parse_msg_str`, line by line. -/
theorem parseLines_cons
    (parseFile : Path ν → Name → ReadFiles ν → Parsed ν)
    (owningPkg shown : Name) (line : List Char) (rest : List (List Char))
    (fields : List MsgField) :
    fs.parseLines order resolver parseFile owningPkg shown (line :: rest)
        fields =
      andThen
        (fs.parseStep order resolver parseFile owningPkg shown
          (parseLine line) fields)
        (fs.parseLines order resolver parseFile owningPkg shown rest) := by
  funext files
  rw [parseLines, RecordedReads.andThen]
  cases parseLine line with
  | skipped => rfl
  | badLength typeToken => rfl
  | declared fieldName baseType arrayLen =>
      rw [parseStep]
      dsimp only
      cases parsePrimitive baseType with
      | some prim => rfl
      | none =>
          dsimp only
          cases fs.findMsgFile order resolver
            (resolveNestedType baseType owningPkg) with
          | error error => rfl
          | ok resolved =>
              dsimp only
              rcases parseFile resolved.path resolved.pkg files with
                _ | ⟨_ | nested, files⟩ <;> rfl

/-- A message file is read and recorded before its lines are parsed. -/
theorem parseMsgFile_succ (fs : FileSystem ν ι) (order : fs.Listing)
    (resolver : MsgResolver ν) (fuel : Nat) (path : Path ν) (pkg : Name) :
    fs.parseMsgFile order resolver (fuel + 1) path pkg =
      RecordedReads.read fs.readToString path
        ["Failed to read ".toList ++ path.display] fun content =>
          fs.parseLines order resolver (fs.parseMsgFile order resolver fuel)
            pkg path.display (lines content) [] := by
  funext files
  rw [parseMsgFile, RecordedReads.read]
  cases fs.readToString path <;> rfl

section Lines

variable {parseFile : Path ν → Name → ReadFiles ν → Parsed ν}
  {owningPkg shown : Name}

/-- Only what is read in the lines matters. -/
theorem parseLines_congr {lines others : List (List Char)}
    (same : lines.map parseLine = others.map parseLine) :
    fs.parseLines order resolver parseFile owningPkg shown lines =
      fs.parseLines order resolver parseFile owningPkg shown others := by
  induction lines generalizing others with
  | nil =>
      rw [List.map_nil, eq_comm, List.map_eq_nil_iff] at same
      rw [same]
  | cons line rest induction =>
      cases others with
      | nil => cases same
      | cons other others =>
          obtain ⟨here, later⟩ := List.cons.inj same
          funext fields
          rw [parseLines_cons, parseLines_cons, here, induction later]

/-- A last line that declares nothing may be left out. -/
theorem parseLines_concat_skipped {line : List Char}
    (skipped : parseLine line = .skipped) (lines : List (List Char)) :
    fs.parseLines order resolver parseFile owningPkg shown (lines ++ [line]) =
      fs.parseLines order resolver parseFile owningPkg shown lines := by
  induction lines with
  | nil =>
      funext fields
      rw [List.nil_append, parseLines_cons, skipped]
      rfl
  | cons other rest induction =>
      funext fields
      rw [List.cons_append, parseLines_cons, parseLines_cons, induction]

/-- How the lines of a text end makes no difference. -/
theorem parseLines_lines (text : List Char) :
    fs.parseLines order resolver parseFile owningPkg shown (lines text) =
      fs.parseLines order resolver parseFile owningPkg shown
        (text.splitOn '\n') := by
  obtain ⟨ended, last, shape⟩ : ∃ ended last,
      text.splitOn '\n' = ended ++ [last] :=
    ⟨_, _, (List.dropLast_append_getLast (List.splitOn_ne_nil '\n' text)).symm⟩
  have stripped : ∀ line : List Char,
      parseLine (if line.getLast? = some '\r' then line.dropLast else line) =
        parseLine line := by
    intro line
    split
    · case _ return_ =>
        have whole := List.dropLast_append_getLast? '\r' return_
        rw [← parseLine_concat_return, whole]
    · rfl
  have same := congrArg (ended.map ·) (funext stripped)
  rw [lines, shape, List.dropLast_concat, List.getLast?_concat,
    Option.toList_some]
  by_cases empty : last = []
  · subst empty
    have nothing : parseLine [] = .skipped := rfl
    rw [parseLines_concat_skipped nothing]
    refine parseLines_congr ?_
    simpa [Function.comp_def] using same
  · refine parseLines_congr ?_
    rw [List.filter_cons_of_pos (by simpa using empty)]
    simpa [Function.comp_def] using same

/-! ## Fuel -/

theorem extends_parseStep {later : Path ν → Name → ReadFiles ν → Parsed ν}
    (extendsFile : ∀ path pkg, Extends (parseFile path pkg) (later path pkg))
    (parsed : ParsedLine) (fields : List MsgField) :
    Extends
      (fs.parseStep order resolver parseFile owningPkg shown parsed fields)
      (fs.parseStep order resolver later owningPkg shown parsed fields) := by
  cases parsed with
  | skipped => exact .refl _
  | badLength typeToken => exact .refl _
  | declared fieldName baseType arrayLen =>
      intro files done ended
      unfold parseStep at ended ⊢
      dsimp only at ended ⊢
      cases primitive : parsePrimitive baseType with
      | some prim =>
          rw [primitive] at ended
          exact ended
      | none =>
          rw [primitive] at ended
          dsimp only at ended ⊢
          cases found : fs.findMsgFile order resolver
              (resolveNestedType baseType owningPkg) with
          | error error =>
              rw [found] at ended
              exact ended
          | ok resolved =>
              rw [found] at ended
              obtain ⟨nested, parsedFile, same⟩ :=
                Option.map_eq_some_iff.mp ended
              exact Option.map_eq_some_iff.mpr
                ⟨nested, extendsFile _ _ _ _ parsedFile, same⟩

theorem extends_parseLines {later : Path ν → Name → ReadFiles ν → Parsed ν}
    (extendsFile : ∀ path pkg, Extends (parseFile path pkg) (later path pkg))
    (lines : List (List Char)) (fields : List MsgField) :
    Extends
      (fs.parseLines order resolver parseFile owningPkg shown lines fields)
      (fs.parseLines order resolver later owningPkg shown lines fields) := by
  induction lines generalizing fields with
  | nil => exact .refl _
  | cons line rest induction =>
      rw [parseLines_cons, parseLines_cons]
      exact (extends_parseStep extendsFile (parseLine line) fields).andThen
        induction

end Lines

/-- More fuel changes nothing. -/
theorem extends_parseMsgFile {fuel more : Nat} (le : fuel ≤ more)
    (path : Path ν) (pkg : Name) :
    Extends (fs.parseMsgFile order resolver fuel path pkg)
      (fs.parseMsgFile order resolver more path pkg) := by
  induction fuel generalizing more path pkg with
  | zero =>
      intro files done ended
      cases ended
  | succ fuel induction =>
      obtain ⟨more, rfl⟩ : ∃ less, more = less + 1 := ⟨more - 1, by omega⟩
      rw [parseMsgFile_succ, parseMsgFile_succ]
      exact Extends.read fun content => extends_parseLines
        (induction (Nat.le_of_succ_le_succ le)) (lines content) []

/-! ## The files read -/

theorem framed_parseStep
    {parseFile : Path ν → Name → ReadFiles ν → Parsed ν}
    (framed : ∀ path pkg, Framed (parseFile path pkg)) (owningPkg shown : Name)
    (parsed : ParsedLine) (fields : List MsgField) :
    Framed (fs.parseStep order resolver parseFile owningPkg shown parsed
      fields) := by
  cases parsed with
  | skipped => exact .const _
  | badLength typeToken => exact .const _
  | declared fieldName baseType arrayLen =>
      intro files
      rw [parseStep, parseStep]
      cases parsePrimitive baseType with
      | some prim => exact Framed.const _ files
      | none =>
          dsimp only
          cases fs.findMsgFile order resolver
              (resolveNestedType baseType owningPkg) with
          | error error => exact Framed.const _ files
          | ok resolved =>
              dsimp only
              rw [framed resolved.path resolved.pkg files, Option.map_map,
                Option.map_map]
              rfl

theorem framed_parseLines
    {parseFile : Path ν → Name → ReadFiles ν → Parsed ν}
    (framed : ∀ path pkg, Framed (parseFile path pkg)) (owningPkg shown : Name)
    (lines : List (List Char)) (fields : List MsgField) :
    Framed (fs.parseLines order resolver parseFile owningPkg shown lines
      fields) := by
  induction lines generalizing fields with
  | nil => exact .const _
  | cons line rest induction =>
      rw [parseLines_cons]
      exact (framed_parseStep framed owningPkg shown (parseLine line)
        fields).andThen induction

theorem framed_parseMsgFile (fuel : Nat) (path : Path ν) (pkg : Name) :
    Framed (fs.parseMsgFile order resolver fuel path pkg) := by
  induction fuel generalizing path pkg with
  | zero => exact fun files => rfl
  | succ fuel induction =>
      rw [parseMsgFile_succ]
      exact .read fun content =>
        framed_parseLines induction pkg path.display (lines content) []

theorem fst_parseMsgFile (fuel : Nat) (path : Path ν) (pkg : Name)
    (files other : ReadFiles ν) :
    (fs.parseMsgFile order resolver fuel path pkg files).map Prod.fst =
      (fs.parseMsgFile order resolver fuel path pkg other).map Prod.fst :=
  (framed_parseMsgFile fuel path pkg).result_eq files other

/-! ## What a declaration declares -/

/-- Parsing returns these fields. -/
def Returns (parsed : Parsed ν) (fields : List MsgField) : Prop :=
  parsed.map Prod.fst = some (.ok fields)

theorem returns_iff {parsed : Parsed ν} {fields : List MsgField} :
    Returns parsed fields ↔ ∃ files, parsed = some (.ok fields, files) := by
  rw [Returns, Option.map_eq_some_iff]
  constructor
  · rintro ⟨⟨_, files⟩, rfl, rfl⟩
    exact ⟨files, rfl⟩
  · rintro ⟨files, rfl⟩
    exact ⟨_, rfl, rfl⟩

theorem returns_andThen {first : ReadFiles ν → Parsed ν}
    {next : List MsgField → ReadFiles ν → Parsed ν} {files : ReadFiles ν}
    {result : List MsgField} :
    Returns (andThen first next files) result ↔
      ∃ fields read, first files = some (.ok fields, read) ∧
        Returns (next fields read) result := by
  constructor
  · intro returns
    obtain ⟨read, done⟩ := returns_iff.mp returns
    obtain ⟨fields, between, firstDone, nextDone⟩ := andThen_eq_ok done
    exact ⟨fields, between, firstDone, returns_iff.mpr ⟨read, nextDone⟩⟩
  · rintro ⟨fields, read, done, returns⟩
    rwa [andThen_of_ok done]

variable (fs order resolver)

/-- The field of a declaration of fixed size, in a message of a package.  Of
a nested type it has the fields its file is parsed to. -/
inductive Declares (parses : ResolvedMsg ν → List MsgField → Prop)
    (pkg : Name) : Declaration → MsgField → Prop where
  | primitive {item : Declaration} {prim : PrimType} {type : FieldType}
      (isPrim : item.type.prim? = some prim)
      (size : item.suffix.fieldType (.primitive prim) (.primArray prim) =
        some type) :
      Declares parses pkg item (.mk item.name.text type)
  | nested {item : Declaration} {name : NestedName} {typePath : Name}
      {resolved : ResolvedMsg ν} {fields : List MsgField} {type : FieldType}
      (isNested : item.type = .nested name)
      (names : NamesMsg pkg name.text typePath)
      (found : fs.findMsgFile order resolver typePath = .ok resolved)
      (parsed : parses resolved fields)
      (size : item.suffix.fieldType
          (.nested (rosTypeToCStructName typePath) fields)
          (.nestedArray (rosTypeToCStructName typePath) fields) = some type) :
      Declares parses pkg item (.mk item.name.text type)

variable {fs order resolver}

section Lines

variable {parseFile : Path ν → Name → ReadFiles ν → Parsed ν}
  {owningPkg shown : Name}

/-- A line with a primitive type adds its field. -/
theorem parseStep_primitive {item : Declaration} {prim : PrimType}
    (primitive : item.type.prim? = some prim) (len : Option Nat)
    (fields : List MsgField) (files : ReadFiles ν) :
    fs.parseStep order resolver parseFile owningPkg shown
        (.declared item.name.text item.type.base len) fields files =
      some (.ok (fields ++ [.mk item.name.text (primitiveField prim len)]),
        files) := by
  rw [parseStep, item.type.parsePrimitive_base, primitive]

/-- What is found is what the type refers to. -/
theorem namesMsg_of_findMsgFile {type pkg : Name} {resolved : ResolvedMsg ν}
    (found : fs.findMsgFile order resolver (resolveNestedType type pkg) =
      .ok resolved) :
    NamesMsg pkg type (resolveNestedType type pkg) := by
  rw [findMsgFile] at found
  split at found
  · cases found
  · case _ split =>
      exact namesMsg_of_isMsgPath (isMsgPath_of_splitTypePath split)

/-- A line with a nested type adds a field if its file is found and parsed. -/
theorem parseStep_nested {item : Declaration} {name : NestedName}
    (type : item.type = .nested name) {len : Option Nat}
    {fields next : List MsgField} {files : ReadFiles ν} :
    Returns (fs.parseStep order resolver parseFile owningPkg shown
        (.declared item.name.text item.type.base len) fields files) next ↔
      ∃ resolved nested, fs.findMsgFile order resolver
          (resolveNestedType name.text owningPkg) = .ok resolved ∧
        Returns (parseFile resolved.path resolved.pkg files) nested ∧
        next = fields ++ [.mk item.name.text (nestedField
          (rosTypeToCStructName (resolveNestedType name.text owningPkg))
          nested len)] := by
  have base : item.type.base = name.text := by
    rw [type]
    rfl
  rw [parseStep, item.type.parsePrimitive_base, base, type]
  dsimp only [DeclaredType.prim?]
  constructor
  · intro returns
    cases found : fs.findMsgFile order resolver
        (resolveNestedType name.text owningPkg) with
    | error error =>
        rw [found] at returns
        cases returns
    | ok resolved =>
        rw [found] at returns
        obtain ⟨read, parsed⟩ := returns_iff.mp returns
        obtain ⟨⟨_ | nested, read⟩, parsedFile, added⟩ :=
          Option.map_eq_some_iff.mp parsed
        · cases added
        · cases added
          exact ⟨resolved, nested, rfl, returns_iff.mpr ⟨_, parsedFile⟩, rfl⟩
  · rintro ⟨resolved, nested, found, parsed, rfl⟩
    obtain ⟨read, parsedFile⟩ := returns_iff.mp parsed
    rw [found]
    dsimp only
    rw [parsedFile]
    rfl

/-- A line with a declaration adds the field it declares. -/
theorem parseStep_declaration
    (same : ∀ path pkg files other, (parseFile path pkg files).map Prod.fst =
      (parseFile path pkg other).map Prod.fst)
    {item : Declaration} {len : Option Nat}
    (size : item.suffix.arrayLen = some len) {fields next : List MsgField}
    {files : ReadFiles ν} :
    Returns (fs.parseStep order resolver parseFile owningPkg shown
        (.declared item.name.text item.type.base len) fields files) next ↔
      ∃ field, Declares fs order resolver
          (fun resolved => Returns (parseFile resolved.path resolved.pkg ∅))
          owningPkg item field ∧
        next = fields ++ [field] := by
  have anyFiles : ∀ {path pkg nested},
      Returns (parseFile path pkg files) nested ↔
        Returns (parseFile path pkg ∅) nested := by
    intro path pkg nested
    rw [Returns, Returns, same path pkg files ∅]
  cases primitive : item.type.prim? with
  | some prim =>
      rw [parseStep_primitive primitive]
      have sized := ArraySuffix.fieldType_primitive size prim
      constructor
      · intro added
        cases added
        exact ⟨_, .primitive primitive sized, rfl⟩
      · rintro ⟨field, declares, rfl⟩
        cases declares with
        | primitive other sizedOther =>
            cases primitive.symm.trans other
            cases sized.symm.trans sizedOther
            rfl
        | nested other _ _ _ _ =>
            rw [other] at primitive
            cases primitive
  | none =>
      obtain ⟨name, type⟩ := item.type.eq_nested_of_prim? primitive
      rw [parseStep_nested type]
      constructor
      · rintro ⟨resolved, nested, found, parsed, rfl⟩
        exact ⟨_, .nested type (namesMsg_of_findMsgFile found) found
          (anyFiles.mp parsed) (ArraySuffix.fieldType_nested size _ _), rfl⟩
      · rintro ⟨field, declares, rfl⟩
        cases declares with
        | primitive other _ =>
            rw [primitive] at other
            cases other
        | nested other names found parsed sized =>
            cases type.symm.trans other
            cases (ArraySuffix.fieldType_nested size _ _).symm.trans sized
            rw [← resolveNestedType_of_namesMsg names] at found ⊢
            exact ⟨_, _, found, anyFiles.mpr parsed, rfl⟩

/-- The lines of a rendered message add the fields it declares. -/
theorem parseLines_render
    (same : ∀ path pkg files other, (parseFile path pkg files).map Prod.fst =
      (parseFile path pkg other).map Prod.fst)
    (written : List MsgLine) (fields result : List MsgField)
    (files : ReadFiles ν) :
    Returns (fs.parseLines order resolver parseFile owningPkg shown
        (written.map MsgLine.render) fields files) result ↔
      ∃ more, List.Forall₂ (Declares fs order resolver
          (fun resolved => Returns (parseFile resolved.path resolved.pkg ∅))
          owningPkg) (fixedSize written) more ∧
        result = fields ++ more := by
  induction written generalizing fields files with
  | nil =>
      constructor
      · intro returns
        cases returns
        exact ⟨[], .nil, (List.append_nil _).symm⟩
      · rintro ⟨more, declares, rfl⟩
        cases declares
        rw [List.append_nil]
        rfl
  | cons line rest induction =>
      rw [List.map_cons, parseLines_cons, parseLine_render, returns_andThen]
      rcases line.parsed_cases with ⟨skipped, other⟩ | ⟨item, len, rfl, size⟩
      · rw [skipped, other]
        constructor
        · rintro ⟨next, read, step, returns⟩
          cases step
          exact (induction fields files).mp returns
        · intro declares
          exact ⟨fields, files, rfl, (induction fields files).mpr declares⟩
      · rw [MsgLine.parsed_declaration size, fixedSize_declaration size]
        constructor
        · rintro ⟨next, read, step, returns⟩
          obtain ⟨field, declares, rfl⟩ :=
            (parseStep_declaration same size).mp (returns_iff.mpr ⟨read, step⟩)
          obtain ⟨more, declaresRest, rfl⟩ := (induction _ read).mp returns
          exact ⟨field :: more, .cons declares declaresRest,
            List.append_assoc _ _ _⟩
        · rintro ⟨more, declares, rfl⟩
          obtain _ | ⟨declares, declaresRest⟩ := declares
          have adds : Returns (fs.parseStep order resolver parseFile owningPkg
              shown (.declared item.name.text item.type.base len) fields files)
              _ := (parseStep_declaration same size).mpr ⟨_, declares, rfl⟩
          obtain ⟨read, step⟩ := returns_iff.mp adds
          refine ⟨_, read, step, (induction _ read).mpr
            ⟨_, declaresRest, ?_⟩⟩
          rw [List.append_assoc, List.singleton_append]

end Lines

/-! ## Whole files -/

variable (fs order resolver)

/-- With this fuel, the file of a message is parsed to these fields. -/
def ParsesWith (fuel : Nat) (resolved : ResolvedMsg ν)
    (fields : List MsgField) : Prop :=
  Returns
    (fs.parseMsgFile order resolver fuel resolved.path resolved.pkg ∅) fields

/-- The file of a message is parsed to these fields. -/
def Parses (resolved : ResolvedMsg ν) (fields : List MsgField) : Prop :=
  ∃ fuel, ParsesWith fs order resolver fuel resolved fields

variable {fs order resolver}

theorem ParsesWith.mono {fuel more : Nat} (le : fuel ≤ more)
    {resolved : ResolvedMsg ν} {fields : List MsgField}
    (parses : ParsesWith fs order resolver fuel resolved fields) :
    ParsesWith fs order resolver more resolved fields := by
  obtain ⟨read, parsed⟩ := returns_iff.mp parses
  exact returns_iff.mpr ⟨read, extends_parseMsgFile le _ _ _ _ parsed⟩

theorem Declares.mono {parses other : ResolvedMsg ν → List MsgField → Prop}
    (implies : ∀ resolved fields,
      parses resolved fields → other resolved fields)
    {pkg : Name} {item : Declaration} {field : MsgField}
    (declares : Declares fs order resolver parses pkg item field) :
    Declares fs order resolver other pkg item field := by
  cases declares with
  | primitive isPrim size => exact .primitive isPrim size
  | nested isNested names found parsed size =>
      exact .nested isNested names found (implies _ _ parsed) size

theorem Declares.exists_fuel {pkg : Name} {item : Declaration}
    {field : MsgField}
    (declares : Declares fs order resolver (Parses fs order resolver) pkg item
      field) :
    ∃ fuel, Declares fs order resolver (ParsesWith fs order resolver fuel) pkg
      item field := by
  cases declares with
  | primitive isPrim size => exact ⟨0, .primitive isPrim size⟩
  | nested isNested names found parsed size =>
      obtain ⟨fuel, parses⟩ := parsed
      exact ⟨fuel, .nested isNested names found parses size⟩

/-- One amount of fuel is enough for all nested types. -/
theorem exists_fuel {pkg : Name} {items : List Declaration}
    {fields : List MsgField}
    (declares : List.Forall₂ (Declares fs order resolver
      (Parses fs order resolver) pkg) items fields) :
    ∃ fuel, List.Forall₂ (Declares fs order resolver
      (ParsesWith fs order resolver fuel) pkg) items fields := by
  induction declares with
  | nil => exact ⟨0, .nil⟩
  | cons declares _ induction =>
      obtain ⟨rest, declaresRest⟩ := induction
      obtain ⟨fuel, declares⟩ := declares.exists_fuel
      refine ⟨max fuel rest, .cons (declares.mono fun _ _ parses =>
        parses.mono (Nat.le_max_left fuel rest)) ?_⟩
      exact declaresRest.imp fun _ _ declares =>
        declares.mono fun _ _ parses =>
          parses.mono (Nat.le_max_right fuel rest)

/-- The lines of a rendered message are the lines it was rendered from. -/
theorem parseLines_renderMsg
    {parseFile : Path ν → Name → ReadFiles ν → Parsed ν} {pkg shown : Name}
    (written : List MsgLine) :
    fs.parseLines order resolver parseFile pkg shown
        (lines (renderMsg written)) =
      fs.parseLines order resolver parseFile pkg shown
        (written.map MsgLine.render) := by
  rw [parseLines_lines]
  cases written with
  | nil =>
      have nothing : parseLine [] = .skipped := rfl
      exact parseLines_concat_skipped nothing []
  | cons line rest =>
      rw [renderMsg, List.splitOn_intercalate]
      · intro text member
        obtain ⟨line, _, rfl⟩ := List.mem_map.mp member
        exact inline_render line
      · exact List.cons_ne_nil _ _

/-- A message file is parsed to the fields it declares with a fixed size, in
order, and to nothing else: blank lines, comments, constants and arrays without
a fixed size add nothing. -/
theorem parse_rendered_msg (fs : FileSystem ν ι) (order : fs.Listing)
    (resolver : MsgResolver ν) (written : List MsgLine) (owningPkg : Name)
    (source : Path ν) (files : ReadFiles ν) (fields : List MsgField) :
    (∃ fuel, Returns (fs.parseMsgStr order resolver fuel (renderMsg written)
        owningPkg source files) fields) ↔
      List.Forall₂ (Declares fs order resolver (Parses fs order resolver)
        owningPkg) (fixedSize written) fields := by
  simp only [parseMsgStr, parseLines_renderMsg]
  constructor
  · rintro ⟨fuel, returns⟩
    obtain ⟨more, declares, rfl⟩ := (parseLines_render
      (fst_parseMsgFile fuel) written [] fields files).mp returns
    exact declares.imp fun _ _ declares =>
      declares.mono fun _ _ returns => ⟨fuel, returns⟩
  · intro declares
    obtain ⟨fuel, declares⟩ := exists_fuel declares
    exact ⟨fuel, (parseLines_render (fst_parseMsgFile fuel) written []
      fields files).mpr ⟨fields, declares, rfl⟩⟩

end FileSystem

end NanoRos.Codegen

import NanoRos.Foundation.DepthFirst
import NanoRos.Foundation.Text
import NanoRos.Codegen.FileSystem

/-!
# The package index

`build_package_index` of `msg_file_parser.rs`.  An error is the list of its
texts, the outermost context first; what the operating system adds to it is
left out.
-/

namespace NanoRos.Codegen

open Text

/-- `anyhow::Error`. -/
abbrev Error := List Name

/-- `is_skipped_dir`. -/
def isSkippedDir (name : Name) : Bool :=
  name.head? = some '.' ∨
    name = "build".toList ∨ name = "install".toList ∨ name = "log".toList

/-- The loop of `strip_xml_comments`; every round makes the rest shorter. -/
def stripFrom : Nat → List Char → List Char
  | 0, rest => rest
  | fuel + 1, rest =>
      match splitOnce "<!--".toList rest with
      | none => rest
      | some (before, after) =>
          -- the end is looked for from the start of the opening on
          match splitOnce "-->".toList ("<!--".toList ++ after) with
          | none => before
          | some (_, rest) => before ++ stripFrom fuel rest

/-- `strip_xml_comments`. -/
def stripXmlComments (text : List Char) : List Char :=
  stripFrom text.length text

/-- What follows a comment is shorter than what the comment stood in. -/
theorem length_after_comment {rest before after inner last : List Char}
    (opened : splitOnce "<!--".toList rest = some (before, after))
    (closed : splitOnce "-->".toList ("<!--".toList ++ after) =
      some (inner, last)) : last.length < rest.length := by
  have opening : "<!--".toList.length = 4 := rfl
  have closing : "-->".toList.length = 3 := rfl
  have length := congrArg List.length (eq_append_of_splitOnce opened)
  have lengthLast := congrArg List.length (eq_append_of_splitOnce closed)
  rw [List.length_append, List.length_append] at length lengthLast
  rw [List.length_append] at lengthLast
  omega

theorem stripFrom_congr {fuel other : Nat} {rest : List Char}
    (enough : rest.length ≤ fuel) (enoughOther : rest.length ≤ other) :
    stripFrom fuel rest = stripFrom other rest := by
  induction fuel generalizing other rest with
  | zero =>
      rw [List.length_eq_zero_iff.mp (Nat.le_zero.mp enough)]
      cases other <;> rfl
  | succ fuel induction =>
      cases other with
      | zero =>
          rw [List.length_eq_zero_iff.mp (Nat.le_zero.mp enoughOther)]
          rfl
      | succ other =>
          rw [stripFrom, stripFrom]
          split
          · rfl
          · case _ before after opened =>
              split
              · rfl
              · case _ inner last closed =>
                  have shorter := length_after_comment opened closed
                  rw [induction (by omega)
                    (show last.length ≤ other by omega)]

/-- The text runs out before the rounds do. -/
theorem stripXmlComments_eq (text : List Char) :
    stripXmlComments text =
      match splitOnce "<!--".toList text with
      | none => text
      | some (before, after) =>
          match splitOnce "-->".toList ("<!--".toList ++ after) with
          | none => before
          | some (_, rest) => before ++ stripXmlComments rest := by
  have more : stripXmlComments text = stripFrom (text.length + 1) text :=
    stripFrom_congr (Nat.le_refl _) (Nat.le_succ _)
  rw [more, stripFrom]
  split
  · rfl
  · case _ before after opened =>
      split
      · rfl
      · case _ inner last closed =>
          have shorter := length_after_comment opened closed
          rw [stripFrom_congr (Nat.le_of_lt shorter) (Nat.le_refl _)]
          rfl

/-- What `parse_package_name` makes of the content of the file `shown`. -/
def nameElement (shown : Name) (raw : List Char) : Except Error Name :=
  match splitOnce "<name>".toList (stripXmlComments raw) with
  | none => .error ["no <name> element in ".toList ++ shown]
  | some (_, rest) =>
      match splitOnce "</name>".toList rest with
      | none => .error ["unterminated <name> element in ".toList ++ shown]
      | some (inner, _) =>
          if trim inner = [] then
            .error ["empty <name> element in ".toList ++ shown]
          else .ok (trim inner)

/-- What a file is shown as makes no difference to the name in it. -/
theorem nameElement_ok {shown other : Name} {raw : List Char} {name : Name}
    (named : nameElement shown raw = .ok name) :
    nameElement other raw = .ok name := by
  rw [nameElement] at named ⊢
  split at named
  · cases named
  · split at named
    · cases named
    · split at named
      · cases named
      · case _ some_ =>
          rw [if_neg some_]
          exact named

/-- `PackageIndex`. -/
abbrev PackageIndex (ν : Type) := List (Name × Path ν)

namespace PackageIndex

variable {ν : Type}

/-- `get`. -/
def get (index : PackageIndex ν) (name : Name) : Option (Path ν) :=
  index.lookup name

/-- The first directory found for a name is kept. -/
def keepFirst (index : PackageIndex ν) (name : Name) (dir : Path ν) :
    PackageIndex ν :=
  match index.get name with
  | some _ => index
  | none => index ++ [(name, dir)]

theorem get_keepFirst (index : PackageIndex ν) (name : Name) (dir : Path ν)
    (other : Name) :
    (index.keepFirst name dir).get other =
      if other = name ∧ index.get name = none then some dir
      else index.get other := by
  rw [keepFirst]
  cases found : index.get name with
  | some kept => rw [if_neg fun both => Option.some_ne_none _ both.2]
  | none =>
      by_cases same : other = name
      · subst same
        rw [if_pos ⟨rfl, rfl⟩]
        rw [get] at found ⊢
        rw [List.lookup_append, found]
        simp
      · rw [if_neg fun both => same both.1, get, get, List.lookup_append]
        have absent : [(name, dir)].lookup other = none := by
          rw [List.lookup_cons, beq_false_of_ne same]
          rfl
        rw [absent, Option.or_none]

end PackageIndex

namespace FileSystem

variable {ν ι : Type} [EntryName ν]

/-- `parse_package_name`. -/
def parsePackageName (fs : FileSystem ν ι) (packageXml : Path ν) :
    Except Error Name :=
  match fs.readToString packageXml with
  | none => .error ["Failed to read ".toList ++ packageXml.display]
  | some raw => nameElement packageXml.display raw

/-- The name of a directory met below another is a skipped one. -/
def isSkipped (dir : Path ν) : Bool :=
  (dir.fileName.bind EntryName.toStr).any isSkippedDir

/-- The directories of a listing, sorted. -/
def subdirs (fs : FileSystem ν ι) (dir : Path ν) (names : List ν) :
    List (Path ν) :=
  ((names.map dir.join).filter fs.isDir).insertionSort (· ≤ ·)

/-- The directory holds a `package.xml`. -/
def isPackage (fs : FileSystem ν ι) (dir : Path ν) : Bool :=
  fs.isFile (dir.joinStr "package.xml".toList)

variable [DecidableEq ι]

/-- `scan_dir`; `none` when the fuel ran out. -/
def scanDir (fs : FileSystem ν ι) (order : fs.Listing) :
    Nat → Path ν → PackageIndex ν × List ι →
      Option (Except Error (PackageIndex ν × List ι))
  | 0, _, _ => none
  | fuel + 1, dir, (index, visited) =>
      match fs.canonicalize dir with
      | none => some (.ok (index, visited))
      | some canon =>
          if canon ∈ visited then some (.ok (index, visited))
          else if fs.isPackage dir then
            match fs.parsePackageName (dir.joinStr "package.xml".toList) with
            | .error error => some (.error error)
            | .ok name =>
                some (.ok (index.keepFirst name dir, canon :: visited))
          else
            match fs.readDir order dir with
            | none =>
                some (.error
                  ["Failed to read directory ".toList ++ dir.display])
            | some names =>
                DepthFirst.visitAll
                  (fun sub reached =>
                    if isSkipped sub then some (.ok reached)
                    else scanDir fs order fuel sub reached)
                  (fs.subdirs dir names) (index, canon :: visited)

/-- `build_package_index`. -/
def buildPackageIndex (fs : FileSystem ν ι) (order : fs.Listing) (fuel : Nat)
    (root : Path ν) : Option (Except Error (PackageIndex ν)) :=
  if fs.isDir root then
    (fs.scanDir order fuel root ([], [])).map (·.map Prod.fst)
  else
    some (.error
      ["package search root is not a directory: ".toList ++ root.display])

end FileSystem

end NanoRos.Codegen

import NanoRos.Foundation.OrderedCalls
import NanoRos.Codegen.MsgParser
import Mathlib.Data.Finite.Prod

/-!
# When parsing a message ends

A message file is a list of lines, read in order up to the first that is
faulty; a line with a nested type has another file parsed.  Nothing stops a
message from being parsed inside itself, so that parsing ends exactly where
the references it follows do not lead round in a circle.
-/

namespace NanoRos.Codegen

open OrderedCalls

namespace FileSystem

variable {ν ι : Type} [EntryName ν] (fs : FileSystem ν ι) (order : fs.Listing)
  (resolver : MsgResolver ν)

/-- What a line asks for: nothing, a fault, or the file of a nested type,
which is read for its package. -/
def lineItem (owningPkg : Name) (line : List Char) : Item (ι × Name) :=
  match parseLine line with
  | .skipped => .done
  | .badLength _ => .fail
  | .declared _ baseType _ =>
      match parsePrimitive baseType with
      | some _ => .done
      | none =>
          match fs.findMsgFile order resolver
            (resolveNestedType baseType owningPkg) with
          | .error _ => .fail
          | .ok resolved =>
              match fs.resolve resolved.path with
              | none => .fail
              | some id => .call (id, resolved.pkg)

/-- What the lines of a message ask for. -/
def messageItems (message : ι × Name) : List (Item (ι × Name)) :=
  match fs.inode message.1 with
  | .file (some content) =>
      (Text.lines content).map (fs.lineItem order resolver message.2)
  | _ => [.fail]

/-- A message refers to another in a line that is reached: the lines before it
are not faulty, and neither is any message they lead to. -/
def RefersTo : ι × Name → ι × Name → Prop :=
  Enters (fs.messageItems order resolver)

/-- No message that a message leads to leads back to itself. -/
def Acyclic (message : ι × Name) : Prop :=
  ∀ other, Relation.ReflTransGen (fs.RefersTo order resolver) message other →
    ¬ Relation.TransGen (fs.RefersTo order resolver) other other

variable {fs order resolver}

/-! ## Parsing as a run of items -/

/-- The lines of a file come to what their items come to. -/
theorem isOk_parseLines
    {parseFile : Path ν → Name → ReadFiles ν →
      Option (Except Error (List MsgField) × ReadFiles ν)}
    {next : ι × Name → Option Bool}
    (same : ∀ path id pkg files, fs.resolve path = some id →
      (parseFile path pkg files).map (·.1.isOk) = next (id, pkg))
    (owningPkg shown : Name) (lines : List (List Char))
    (fields : List MsgField) (files : ReadFiles ν) :
    (fs.parseLines order resolver parseFile owningPkg shown lines fields
        files).map (·.1.isOk) =
      runItems next (lines.map (fs.lineItem order resolver owningPkg)) := by
  induction lines generalizing fields files with
  | nil => rfl
  | cons line rest induction =>
      rw [List.map_cons, parseLines, lineItem]
      cases parseLine line with
      | skipped => exact induction fields files
      | badLength typeToken => rfl
      | declared fieldName baseType arrayLen =>
          cases primitive : parsePrimitive baseType with
          | some prim =>
              simp only [primitive]
              exact induction _ files
          | none =>
              simp only [primitive]
              cases found : fs.findMsgFile order resolver
                (resolveNestedType baseType owningPkg) with
              | error error => rfl
              | ok resolved =>
                  obtain ⟨id, leads, _⟩ :=
                    isFile_iff.mp (isFile_of_findMsgFile found)
                  have nested := same resolved.path id resolved.pkg files leads
                  simp only [leads]
                  rw [runItems, ← nested]
                  cases parseFile resolved.path resolved.pkg files with
                  | none => rfl
                  | some parsed =>
                      obtain ⟨result, files⟩ := parsed
                      cases result with
                      | error error => rfl
                      | ok nested => exact induction _ files

/-- A file comes to what its items come to. -/
theorem isOk_parseMsgFile (fuel : Nat) {path : Path ν} {id : ι}
    (leads : fs.resolve path = some id) (pkg : Name) (files : ReadFiles ν) :
    (fs.parseMsgFile order resolver fuel path pkg files).map (·.1.isOk) =
      run (fs.messageItems order resolver) fuel (id, pkg) := by
  induction fuel generalizing path id pkg files with
  | zero => rfl
  | succ fuel induction =>
      rw [parseMsgFile, run, messageItems, readToString, leads]
      dsimp only [Option.bind_eq_bind, Option.bind_some]
      cases fs.inode id with
      | dir listed entries => rfl
      | file content =>
          cases content with
          | none => rfl
          | some content =>
              exact isOk_parseLines
                (fun path id pkg files leads => induction leads pkg files) _ _
                _ _ _

theorem ends_iff_parseMsgFile {path : Path ν} {id : ι}
    (leads : fs.resolve path = some id) (pkg : Name) (files : ReadFiles ν) :
    (∃ fuel, (fs.parseMsgFile order resolver fuel path pkg files).isSome) ↔
      Ends (fs.messageItems order resolver) (id, pkg) := by
  refine exists_congr fun fuel => ?_
  rw [← isOk_parseMsgFile fuel leads pkg files, Option.isSome_map]

/-! ## The references are finitely many -/

/-- The packages messages can be read for. -/
def PackageNames (resolver : MsgResolver ν) : List Name :=
  resolver.rosPkgs.map Prod.fst ++ resolver.userPkgs.map Prod.fst

theorem pkg_of_lineItem {owningPkg : Name} {line : List Char}
    {callee : ι × Name}
    (calls : fs.lineItem order resolver owningPkg line = .call callee) :
    callee.2 ∈ PackageNames resolver := by
  rw [lineItem] at calls
  split at calls
  · cases calls
  · cases calls
  · split at calls
    · cases calls
    · split at calls
      · cases calls
      · case _ resolved found =>
          split at calls
          · cases calls
          · cases calls
            rcases pkg_of_findMsgFile found with ros | user
            · exact List.mem_append_left _ (Entries.mem_keys_of_lookup ros)
            · exact List.mem_append_right _ (Entries.mem_keys_of_lookup user)

theorem pkg_of_refersTo {message other : ι × Name}
    (refers : fs.RefersTo order resolver message other) :
    other.2 ∈ PackageNames resolver := by
  obtain ⟨before, after, same, _⟩ := refers
  have member : .call other ∈ fs.messageItems order resolver message := by
    rw [same]
    exact List.mem_append_right _ List.mem_cons_self
  rw [messageItems] at member
  split at member
  · obtain ⟨line, _, calls⟩ := List.mem_map.mp member
    exact pkg_of_lineItem calls
  · cases List.mem_singleton.mp member

/-- A message leads to finitely many others. -/
theorem finite_reached [Finite ι] (message : ι × Name) :
    {other | Relation.ReflTransGen (fs.RefersTo order resolver) message
      other}.Finite := by
  have names : {name | name ∈ message.2 :: PackageNames resolver}.Finite :=
    List.finite_toSet _
  have nodes : (Set.univ : Set ι).Finite := Set.finite_univ
  refine (nodes.prod names).subset ?_
  intro other path
  refine ⟨Set.mem_univ _, ?_⟩
  rcases Relation.ReflTransGen.cases_tail path with rfl | ⟨_, _, refers⟩
  · exact List.mem_cons_self
  · exact List.mem_cons_of_mem _ (pkg_of_refersTo refers)

/-- Parsing a type ends if and only if no message it comes to leads back to
itself. -/
theorem parse_type_ends_iff [Fintype ι] (fs : FileSystem ν ι)
    (order : fs.Listing) (resolver : MsgResolver ν) (typePath : Name)
    (files : ReadFiles ν) :
    (∃ fuel, (fs.parseType order resolver fuel typePath files).isSome) ↔
      ∀ resolved id, fs.findMsgFile order resolver typePath = .ok resolved →
        fs.resolve resolved.path = some id →
        fs.Acyclic order resolver (id, resolved.pkg) := by
  simp only [parseType]
  cases found : fs.findMsgFile order resolver typePath with
  | error error =>
      constructor
      · rintro _ resolved id ⟨⟩
      · exact fun _ => ⟨0, rfl⟩
  | ok resolved =>
      obtain ⟨id, leads, _⟩ := isFile_iff.mp (isFile_of_findMsgFile found)
      refine (ends_iff_parseMsgFile leads resolved.pkg files).trans
        ((ends_iff (finite_reached (id, resolved.pkg))).trans ?_)
      constructor
      · rintro acyclic _ other ⟨⟩ leadsOther
        cases leads.symm.trans leadsOther
        exact acyclic
      · exact fun acyclic => acyclic resolved id rfl leads

/-! A package whose one message has a field of its own type. -/

/-- The nodes of its tree. -/
inductive ChainNode where
  | root
  | package
  | msgDir
  | link
  deriving DecidableEq

def selfReferring : FileSystem Name ChainNode where
  root := .root
  inode
    | .root => .dir true [("chain".toList, some .package)]
    | .package => .dir true [("msg".toList, some .msgDir)]
    | .msgDir => .dir true [("Link.msg".toList, some .link)]
    | .link => .file (some "uint8 id\nLink next\n".toList)
  nodup id listed entries found := by
    cases id <;> cases found <;> decide

/-- The indexes that hold that package alone. -/
def chainResolver : MsgResolver Name where
  rosPkgs := []
  userPkgs := [("chain".toList, ["chain".toList])]

theorem messageItems_selfReferring :
    selfReferring.messageItems default chainResolver (.link, "chain".toList) =
      [.done, .call (.link, "chain".toList)] := by
  decide

/-- Not every message set can be parsed. -/
theorem not_parse_type_ends :
    ¬ ∃ fuel, (selfReferring.parseType default chainResolver fuel
      "chain/Link".toList ∅).isSome := by
  have refers : selfReferring.RefersTo default chainResolver
      (.link, "chain".toList) (.link, "chain".toList) := by
    refine ⟨[.done], [], messageItems_selfReferring, ?_⟩
    intro item member
    cases List.mem_singleton.mp member
    trivial
  have leads : selfReferring.resolve
      ["chain".toList, "msg".toList, "Link.msg".toList] = some .link := by
    decide
  have found : selfReferring.findMsgFile default chainResolver
      "chain/Link".toList =
      .ok ⟨["chain".toList, "msg".toList, "Link.msg".toList],
        "chain".toList⟩ := by rfl
  simp only [parseType, found]
  rw [ends_iff_parseMsgFile leads]
  exact not_ends_of_cycle (.single refers)

end FileSystem

end NanoRos.Codegen

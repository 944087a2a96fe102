import NanoRos.Codegen.MsgParser

/-!
# How the type of a field is written

The words of the primitive types, and the messages that other names refer to.
Both are laid down here apart from the parser, which is then shown to read
them so.
-/

namespace NanoRos.Codegen

open Text

/-- The words a primitive type is written with. -/
def PrimType.keywords : PrimType → List Name
  | .bool => ["bool".toList]
  | .byte => ["byte".toList]
  | .char => ["char".toList]
  | .float32 => ["float32".toList]
  | .float64 => ["float64".toList]
  | .int8 => ["int8".toList]
  | .int16 => ["int16".toList]
  | .int32 => ["int32".toList]
  | .int64 => ["int64".toList]
  | .uint8 => ["uint8".toList]
  | .uint16 => ["uint16".toList]
  | .uint32 => ["uint32".toList]
  | .uint64 => ["uint64".toList]
  | .string => ["string".toList, "wstring".toList]

theorem parsePrimitive_of_mem_keywords {prim : PrimType} {word : Name}
    (member : word ∈ prim.keywords) : parsePrimitive word = some prim := by
  have all : ∀ word ∈ prim.keywords, parsePrimitive word = some prim := by
    cases prim <;> decide
  exact all word member

theorem parsePrimitive_eq_some_iff {prim : PrimType} {word : Name} :
    parsePrimitive word = some prim ↔ word ∈ prim.keywords := by
  constructor
  · intro known
    have entries : ∀ entry ∈ primitiveTypes, entry.1 ∈ entry.2.keywords := by
      decide
    obtain ⟨before, after, shape, _⟩ := List.lookup_eq_some_iff.mp known
    exact entries (word, prim) (shape ▸ by simp)
  · exact parsePrimitive_of_mem_keywords

theorem parsePrimitive_eq_none_iff {word : Name} :
    parsePrimitive word = none ↔ ∀ prim : PrimType, word ∉ prim.keywords := by
  constructor
  · intro unknown prim member
    rw [parsePrimitive_of_mem_keywords member] at unknown
    cases unknown
  · intro absent
    refine Option.eq_none_iff_forall_ne_some.mpr fun prim known => ?_
    exact absent prim (parsePrimitive_eq_some_iff.mp known)

/-- The message that the type of a field refers to, in a message of a package:
one named with its package, `Header`, or one of the same package. -/
inductive NamesMsg (owningPkg : Name) : Name → Name → Prop where
  | qualified {pkg name type : Name} (isPath : IsMsgPath pkg name type) :
      NamesMsg owningPkg type (pkg ++ "/msg/".toList ++ name)
  | header :
      NamesMsg owningPkg "Header".toList "std_msgs/msg/Header".toList
  | ownPackage {name : Name} (plain : '/' ∉ name)
      (other : name ≠ "Header".toList) :
      NamesMsg owningPkg name (owningPkg ++ "/msg/".toList ++ name)

/-- A reference is resolved to the message it refers to. -/
theorem resolveNestedType_of_namesMsg {type owningPkg typePath : Name}
    (names : NamesMsg owningPkg type typePath) :
    resolveNestedType type owningPkg = typePath := by
  cases names with
  | qualified isPath =>
      rcases splitOn_of_isMsgPath isPath with short | long
      · rw [resolveNestedType, short]
      · have whole : ['/'].intercalate (type.splitOn '/') = type :=
          List.intercalate_splitOn '/'
        rw [resolveNestedType, long, ← whole, long]
        simp
  | header => rfl
  | ownPackage plain other =>
      rw [resolveNestedType, List.splitOn_eq_singleton plain]
      exact if_neg other

theorem splitOn_msg (before after : Name) :
    (before ++ "/msg/".toList ++ after).splitOn '/' =
      before.splitOn '/' ++ "msg".toList :: after.splitOn '/' := by
  have shape : before ++ "/msg/".toList ++ after =
      before ++ '/' :: ("msg".toList ++ '/' :: after) := by simp
  rw [shape, List.splitOn_append_cons_self,
    List.splitOn_append_cons_self_of_not_mem (by decide)]

/-- Only references are resolved to the path of a message. -/
theorem namesMsg_of_isMsgPath {type owningPkg pkg name : Name}
    (isPath : IsMsgPath pkg name (resolveNestedType type owningPkg)) :
    NamesMsg owningPkg type (resolveNestedType type owningPkg) := by
  have whole : ['/'].intercalate (type.splitOn '/') = type :=
    List.intercalate_splitOn '/'
  have plain : ∀ piece ∈ type.splitOn '/', '/' ∉ piece :=
    fun _ => notMem_of_mem_splitOn
  rcases pieces : type.splitOn '/' with
    _ | ⟨first, _ | ⟨second, _ | ⟨third, _ | ⟨fourth, rest⟩⟩⟩⟩
  · exact absurd pieces (List.splitOn_ne_nil _ _)
  · rw [pieces] at plain whole
    have same : type = first := by simpa using whole.symm
    rw [resolveNestedType, pieces]
    dsimp only
    split
    · case _ header =>
        rw [header]
        exact .header
    · case _ other =>
        exact .ownPackage (same ▸ plain first List.mem_cons_self) other
  · have split : splitTypePath type = .ok (first, second) := by
      rw [splitTypePath, pieces]
    rw [resolveNestedType, pieces]
    exact .qualified (isMsgPath_of_splitTypePath split)
  · have resolved : resolveNestedType type owningPkg = type := by
      rw [resolveNestedType, pieces]
    rw [resolved] at isPath ⊢
    rcases splitOn_of_isMsgPath isPath with short | long
    · rw [pieces] at short
      cases short
    · have same : pkg ++ "/msg/".toList ++ name = type := by
        rw [← whole, long]
        simp
      have names : NamesMsg owningPkg type (pkg ++ "/msg/".toList ++ name) :=
        .qualified isPath
      rwa [same] at names
  · -- a path has three pieces at most
    have other : type ≠ "Header".toList := by
      rintro rfl
      rw [List.splitOn_eq_singleton (by decide)] at pieces
      cases pieces
    have resolved : resolveNestedType type owningPkg =
        owningPkg ++ "/msg/".toList ++ type := by
      rw [resolveNestedType, pieces]
      exact if_neg other
    have few := length_splitOn_of_isMsgPath isPath
    rw [resolved, splitOn_msg, pieces] at few
    simp only [List.length_append, List.length_cons] at few
    omega

/-- Two slashes or more make three pieces or more. -/
theorem resolveNestedType_pieces (type owningPkg : Name) :
    2 < ((resolveNestedType type owningPkg).splitOn '/').length := by
  have pieces (before after : Name) :
      2 < ((before ++ "/msg/".toList ++ after).splitOn '/').length := by
    have some_ (text : Name) : 0 < (text.splitOn '/').length :=
      List.length_pos_iff.mpr (List.splitOn_ne_nil _ _)
    have first := some_ before
    have last := some_ after
    rw [splitOn_msg, List.length_append, List.length_cons]
    omega
  rw [resolveNestedType]
  split
  · exact pieces _ _
  · case _ three =>
      rw [three]
      exact Nat.lt_succ_self 2
  · split
    · decide
    · exact pieces _ _

end NanoRos.Codegen

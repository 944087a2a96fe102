import NanoRos.Codegen.MsgTypes

/-!
# The lines of a message file

What may be written in a message file, and what the parser reads in each line
of it: a declaration of fixed size is read as it was written, and every other
line as nothing.
-/

namespace NanoRos.Codegen

open Text

/-- White space within a line. -/
structure Blank where
  text : List Char
  space : IsSpace text
  inline : '\n' ∉ text

/-- White space between two words. -/
structure Gap extends Blank where
  some_ : text ≠ []

/-- The text of a comment, or of the value of a constant. -/
structure Remark where
  text : List Char
  inline : '\n' ∉ text

/-- A default value. -/
structure DefaultValue extends Remark where
  noHash : '#' ∉ text
  noEquals : '=' ∉ text

/-- A name without white space, `#` or `=`. -/
structure PlainName where
  text : Name
  some_ : text ≠ []
  visible : IsVisible text
  noHash : '#' ∉ text
  noEquals : '=' ∉ text

/-- The name of a message type, as a field refers to it. -/
structure NestedName extends PlainName where
  noBracket : '[' ∉ text
  nested : ∀ prim : PrimType, text ∉ prim.keywords

/-- The type of a field, without an array suffix. -/
inductive DeclaredType where
  | primitive (keyword : Name) (prim : PrimType)
      (known : keyword ∈ prim.keywords)
  | boundedString (keyword : Name)
      (known : keyword ∈ PrimType.string.keywords) (bound : Nat)
  | nested (name : NestedName)

/-- What may follow a type. -/
inductive ArraySuffix where
  | scalar
  | fixed (len : Fin usizeBound)
  | dynamic
  | bounded (len : Nat)

/-- `TYPE[N] NAME`, with a default value and a comment. -/
structure Declaration where
  lead : Blank
  type : DeclaredType
  suffix : ArraySuffix
  gap : Gap
  name : PlainName
  default : Option (Gap × DefaultValue)
  trail : Blank
  comment : Option Remark

/-- `TYPE NAME=VALUE`. -/
structure Constant where
  lead : Blank
  type : PlainName
  gap : Gap
  name : PlainName
  trail : Blank
  value : Remark

/-- A line of a message file. -/
inductive MsgLine where
  | blank (space : Blank)
  | comment (lead : Blank) (text : Remark)
  | constant (constant : Constant)
  | declaration (declaration : Declaration)

/-- A gap sets a word apart from what follows. -/
theorem Gap.head_append (gap : Gap) (rest : List Char) :
    ∀ char ∈ (gap.text ++ rest).head?, isWhitespace char = true := by
  intro char first
  obtain ⟨next, others, shape⟩ := List.exists_cons_of_ne_nil gap.some_
  rw [shape] at first
  rw [← Option.some.inj first]
  exact gap.space next (shape ▸ List.mem_cons_self)

/-- A number in decimal. -/
def decimal (value : Nat) : List Char := Nat.toDigits 10 value

def DeclaredType.text : DeclaredType → Name
  | .primitive keyword _ _ => keyword
  | .boundedString keyword _ bound => keyword ++ "<=".toList ++ decimal bound
  | .nested name => name.text

/-- The type without its bound. -/
def DeclaredType.base : DeclaredType → Name
  | .primitive keyword _ _ => keyword
  | .boundedString keyword _ _ => keyword
  | .nested name => name.text

/-- The primitive type it is, if it is one. -/
def DeclaredType.prim? : DeclaredType → Option PrimType
  | .primitive _ prim _ => some prim
  | .boundedString _ _ _ => some .string
  | .nested _ => none

/-- The array length, for types of fixed size. -/
def ArraySuffix.arrayLen : ArraySuffix → Option (Option Nat)
  | .scalar => some none
  | .fixed len => some (some len)
  | .dynamic | .bounded _ => none

/-- The type of a field of fixed size: that of an element, or an array. -/
def ArraySuffix.fieldType (element : FieldType) (array : Nat → FieldType) :
    ArraySuffix → Option FieldType
  | .scalar => some element
  | .fixed len => some (array len)
  | .dynamic | .bounded _ => none

def ArraySuffix.text : ArraySuffix → List Char
  | .scalar => []
  | .fixed len => '[' :: (decimal len ++ [']'])
  | .dynamic => ['[', ']']
  | .bounded len => '[' :: ("<=".toList ++ decimal len ++ [']'])

namespace Declaration

/-- The type with its suffix. -/
def token (declaration : Declaration) : List Char :=
  declaration.type.text ++ declaration.suffix.text

/-- The default value, behind white space. -/
def defaultText (declaration : Declaration) : List Char :=
  match declaration.default with
  | none => []
  | some (gap, value) => gap.text ++ value.text

/-- What stands behind the name. -/
def tail (declaration : Declaration) : List Char :=
  declaration.defaultText ++ declaration.trail.text

/-- The line without its comment. -/
def code (declaration : Declaration) : List Char :=
  declaration.lead.text ++ (declaration.token ++ (declaration.gap.text ++
    (declaration.name.text ++ declaration.tail)))

end Declaration

/-- The constant up to its value. -/
def Constant.head (constant : Constant) : List Char :=
  constant.lead.text ++ (constant.type.text ++ (constant.gap.text ++
    (constant.name.text ++ constant.trail.text)))

/-- A line as it is written. -/
def MsgLine.render : MsgLine → List Char
  | .blank space => space.text
  | .comment lead remark => lead.text ++ '#' :: remark.text
  | .constant item => item.head ++ '=' :: item.value.text
  | .declaration item =>
      item.code ++
        match item.comment with
        | none => []
        | some remark => '#' :: remark.text

/-- The text of a message file; an empty last line ends it in a line end. -/
def renderMsg (lines : List MsgLine) : List Char :=
  ['\n'].intercalate (lines.map MsgLine.render)

/-- What the parser reads in a line. -/
def MsgLine.parsed : MsgLine → ParsedLine
  | .declaration item =>
      match item.suffix.arrayLen with
      | some len => .declared item.name.text item.type.base len
      | none => .skipped
  | _ => .skipped

/-- The declarations of fixed size. -/
def fixedSize (lines : List MsgLine) : List Declaration :=
  lines.filterMap fun
    | .declaration item =>
        if item.suffix.arrayLen.isSome then some item else none
    | _ => none

theorem MsgLine.parsed_declaration {item : Declaration} {len : Option Nat}
    (size : item.suffix.arrayLen = some len) :
    (MsgLine.declaration item).parsed =
      .declared item.name.text item.type.base len := by
  rw [parsed, size]

theorem fixedSize_declaration {item : Declaration} {len : Option Nat}
    (size : item.suffix.arrayLen = some len) (rest : List MsgLine) :
    fixedSize (.declaration item :: rest) = item :: fixedSize rest :=
  List.filterMap_cons_some (if_pos (Option.isSome_of_eq_some size))

/-- A line is read as nothing, or declares a field of fixed size. -/
theorem MsgLine.parsed_cases (line : MsgLine) :
    line.parsed = .skipped ∧
        (∀ rest, fixedSize (line :: rest) = fixedSize rest) ∨
      ∃ item len, line = .declaration item ∧
        item.suffix.arrayLen = some len := by
  cases line with
  | blank space => exact .inl ⟨rfl, fun _ => rfl⟩
  | comment lead remark => exact .inl ⟨rfl, fun _ => rfl⟩
  | constant item => exact .inl ⟨rfl, fun _ => rfl⟩
  | declaration item =>
      cases size : item.suffix.arrayLen with
      | some len => exact .inr ⟨item, len, rfl, size⟩
      | none =>
          refine .inl ⟨by rw [parsed, size], fun rest => ?_⟩
          exact List.filterMap_cons_none (if_neg (by simp [size]))

namespace ArraySuffix

variable {suffix : ArraySuffix} {len : Option Nat}

theorem fieldType_primitive (size : suffix.arrayLen = some len)
    (prim : PrimType) :
    suffix.fieldType (.primitive prim) (.primArray prim) =
      some (primitiveField prim len) := by
  cases suffix <;> cases size <;> rfl

theorem fieldType_nested (size : suffix.arrayLen = some len)
    (cTypeName : Name) (fields : List MsgField) :
    suffix.fieldType (.nested cTypeName fields)
        (.nestedArray cTypeName fields) =
      some (nestedField cTypeName fields len) := by
  cases suffix <;> cases size <;> rfl

end ArraySuffix

/-! ## Characters -/

/-- Characters that end nothing. -/
def IsPlain (char : Char) : Prop :=
  isWhitespace char = false ∧ char ≠ '#' ∧ char ≠ '=' ∧ char ≠ '<' ∧
    char ≠ '[' ∧ char ≠ ']'

instance (char : Char) : Decidable (IsPlain char) :=
  inferInstanceAs (Decidable (_ ∧ _))

/-- All characters of a text are such. -/
def AllPlain (text : List Char) : Prop :=
  ∀ char ∈ text, IsPlain char

instance (text : List Char) : Decidable (AllPlain text) :=
  List.decidableBAll _ text

theorem plain_of_isDigit {char : Char} (digit : char.isDigit = true) :
    IsPlain char := by
  have bounds : 48 ≤ char.toNat ∧ char.toNat ≤ 57 := by
    simpa [Char.isDigit, UInt32.le_iff_toNat_le] using digit
  refine ⟨?_, ?_, ?_, ?_, ?_, ?_⟩
  · simp only [isWhitespace, Bool.or_eq_false_iff, Bool.and_eq_false_iff,
      decide_eq_false_iff_not, List.mem_cons, List.not_mem_nil, or_false,
      not_or]
    omega
  all_goals
    rintro rfl
    revert digit
    decide

theorem plain_of_decimal {value : Nat} {char : Char}
    (member : char ∈ decimal value) : IsPlain char :=
  plain_of_isDigit
    (Nat.isDigit_of_mem_toDigits (by decide) (by decide) member)

/-- The words of the primitive types. -/
theorem plain_of_keyword {keyword : Name} {prim : PrimType}
    (known : keyword ∈ prim.keywords) :
    keyword ≠ [] ∧ AllPlain keyword := by
  have all : ∀ keyword ∈ prim.keywords, keyword ≠ [] ∧ AllPlain keyword := by
    cases prim <;> decide
  exact all keyword known

/-! ## Types -/

namespace DeclaredType

theorem plain_of_base (type : DeclaredType) :
    type.base ≠ [] ∧ ∀ char ∈ type.base,
      isWhitespace char = false ∧ char ≠ '#' ∧ char ≠ '=' ∧ char ≠ '[' := by
  have keywords : ∀ {keyword : Name} {prim : PrimType},
      keyword ∈ prim.keywords → keyword ≠ [] ∧ ∀ char ∈ keyword,
        isWhitespace char = false ∧ char ≠ '#' ∧ char ≠ '=' ∧ char ≠ '[' := by
    intro keyword prim known
    obtain ⟨some_, plain⟩ := plain_of_keyword known
    refine ⟨some_, fun char member => ?_⟩
    obtain ⟨visible, noHash, noEquals, _, noBracket, _⟩ := plain char member
    exact ⟨visible, noHash, noEquals, noBracket⟩
  cases type with
  | primitive keyword prim known => exact keywords known
  | boundedString keyword known bound => exact keywords known
  | nested name =>
      refine ⟨name.some_, fun char member => ⟨name.visible char member, ?_⟩⟩
      refine ⟨?_, ?_, ?_⟩ <;> rintro rfl
      · exact name.noHash member
      · exact name.noEquals member
      · exact name.noBracket member

/-- The type as it is written: its base, and perhaps a bound. -/
theorem text_eq (type : DeclaredType) :
    type.text = type.base ∨
      '<' ∉ type.base ∧
        ∃ bound, type.text = type.base ++ "<=".toList ++ decimal bound := by
  cases type with
  | primitive keyword prim known => exact .inl rfl
  | nested name => exact .inl rfl
  | boundedString keyword known bound =>
      refine .inr ⟨fun member => ?_, bound, rfl⟩
      exact ((plain_of_keyword known).2 _ member).2.2.2.1 rfl

theorem parsePrimitive_base (type : DeclaredType) :
    parsePrimitive type.base = type.prim? := by
  cases type with
  | primitive keyword prim known =>
      exact parsePrimitive_of_mem_keywords known
  | boundedString keyword known bound =>
      exact parsePrimitive_of_mem_keywords known
  | nested name => exact parsePrimitive_eq_none_iff.mpr name.nested

theorem eq_nested_of_prim? (type : DeclaredType) (none_ : type.prim? = none) :
    ∃ name, type = .nested name := by
  cases type with
  | nested name => exact ⟨name, rfl⟩
  | primitive keyword prim known => cases none_
  | boundedString keyword known bound => cases none_

theorem stripBound_text (type : DeclaredType) :
    stripBound type.text = type.base := by
  rw [stripBound]
  rcases type.text_eq with same | ⟨noBound, bound, same⟩
  · have absent : '=' ∉ type.base := fun member =>
      (type.plain_of_base.2 _ member).2.2.1 rfl
    rw [same, splitOnce_eq_none absent "<=".toList (by decide)]
  · have split : splitOnce "<=".toList
        (type.base ++ "<=".toList ++ decimal bound) =
        some (type.base, decimal bound) := splitOnce_append noBound _
    rw [same, split]

theorem plain_of_text (type : DeclaredType) :
    type.text ≠ [] ∧ ∀ char ∈ type.text,
      isWhitespace char = false ∧ char ≠ '#' ∧ char ≠ '[' := by
  obtain ⟨some_, plain⟩ := type.plain_of_base
  have inBase : ∀ char ∈ type.base,
      isWhitespace char = false ∧ char ≠ '#' ∧ char ≠ '[' :=
    fun char member => ⟨(plain char member).1, (plain char member).2.1,
      (plain char member).2.2.2⟩
  rcases type.text_eq with same | ⟨_, bound, same⟩
  · rw [same]
    exact ⟨some_, inBase⟩
  · rw [same]
    refine ⟨by simp [some_], fun char member => ?_⟩
    rcases List.mem_append.mp member with member | inBound
    · rcases List.mem_append.mp member with inType | inSign
      · exact inBase char inType
      · have signs : char = '<' ∨ char = '=' := by simpa using inSign
        rcases signs with rfl | rfl <;> decide
    · obtain ⟨visible, noHash, _, _, noBracket, _⟩ := plain_of_decimal inBound
      exact ⟨visible, noHash, noBracket⟩

end DeclaredType

namespace ArraySuffix

theorem mem_text {suffix : ArraySuffix} {char : Char}
    (member : char ∈ suffix.text) :
    char ∈ "[]<=".toList ∨ ∃ value, char ∈ decimal value := by
  have brackets : ['[', ']'] ⊆ "[]<=".toList := by decide
  have signs : "<=".toList ⊆ "[]<=".toList := by decide
  cases suffix with
  | scalar => exact absurd member List.not_mem_nil
  | fixed len =>
      rcases List.mem_cons.mp member with rfl | member
      · exact .inl (brackets (by decide))
      · rcases List.mem_append.mp member with inLen | last
        · exact .inr ⟨_, inLen⟩
        · exact .inl (brackets (List.mem_cons_of_mem _ last))
  | dynamic => exact .inl (brackets member)
  | bounded len =>
      rcases List.mem_cons.mp member with rfl | member
      · exact .inl (brackets (by decide))
      · rcases List.mem_append.mp member with member | last
        · rcases List.mem_append.mp member with inSigns | inLen
          · exact .inl (signs inSigns)
          · exact .inr ⟨_, inLen⟩
        · exact .inl (brackets (List.mem_cons_of_mem _ last))

theorem plain_of_text {suffix : ArraySuffix} {char : Char}
    (member : char ∈ suffix.text) :
    isWhitespace char = false ∧ char ≠ '#' := by
  rcases mem_text member with inSigns | ⟨value, inLen⟩
  · have signs : char = '[' ∨ char = ']' ∨ char = '<' ∨ char = '=' := by
      simpa using inSigns
    rcases signs with rfl | rfl | rfl | rfl <;> decide
  · exact ⟨(plain_of_decimal inLen).1, (plain_of_decimal inLen).2.1⟩

/-- An array suffix has an equals sign only in a bound. -/
theorem eq_bounded_of_equals {suffix : ArraySuffix}
    (equals : '=' ∈ suffix.text) : ∃ len, suffix = .bounded len := by
  have noDigit : ∀ {value}, '=' ∉ decimal value := fun member =>
    (plain_of_decimal member).2.2.1 rfl
  cases suffix with
  | scalar => exact absurd equals List.not_mem_nil
  | fixed len =>
      simp only [text, List.mem_cons, List.mem_append, List.not_mem_nil,
        or_false] at equals
      rcases equals with same | inLen | same
      · cases same
      · exact absurd inLen noDigit
      · cases same
  | dynamic => exact absurd equals (show '=' ∉ ['[', ']'] by decide)
  | bounded len => exact ⟨len, rfl⟩

end ArraySuffix

/-! ## Declarations -/

namespace Declaration

variable (declaration : Declaration)

theorem token_ne_nil : declaration.token ≠ [] := by
  intro empty
  exact declaration.type.plain_of_text.1 (List.append_eq_nil_iff.mp empty).1

theorem plain_of_token {char : Char} (member : char ∈ declaration.token) :
    isWhitespace char = false ∧ char ≠ '#' := by
  rcases List.mem_append.mp member with inType | inSuffix
  · obtain ⟨visible, noHash, _⟩ := declaration.type.plain_of_text.2 char inType
    exact ⟨visible, noHash⟩
  · exact ArraySuffix.plain_of_text inSuffix

/-- A token with an equals sign has a bound. -/
theorem contains_of_equals (equals : '=' ∈ declaration.token) :
    contains "<=".toList declaration.token = true := by
  rcases declaration.type.text_eq with same | ⟨_, bound, same⟩
  · have inSuffix : '=' ∈ declaration.suffix.text := by
      rcases List.mem_append.mp equals with inType | inSuffix
      · rw [same] at inType
        exact absurd rfl (declaration.type.plain_of_base.2 _ inType).2.2.1
      · exact inSuffix
    obtain ⟨len, bounded⟩ := ArraySuffix.eq_bounded_of_equals inSuffix
    have shape : declaration.token =
        (declaration.type.text ++ ['[']) ++ "<=".toList ++
          (decimal len ++ [']']) := by
      rw [token, bounded]
      simp [ArraySuffix.text]
    rw [shape]
    exact contains_append _ _ _
  · have shape : declaration.token =
        declaration.type.base ++ "<=".toList ++
          (decimal bound ++ declaration.suffix.text) := by
      rw [token, same, List.append_assoc (_ ++ _)]
    rw [shape]
    exact contains_append _ _ _

/-- The bracket behind a number is all that is taken off. -/
theorem rdropWhile_decimal (front : List Char) (value : Nat) :
    (front ++ decimal value ++ [']']).rdropWhile (· == ']') =
      front ++ decimal value := by
  have bracket := List.rdropWhile_concat_pos (fun char => char == ']')
    (front ++ decimal value) ']' (by decide)
  refine bracket.trans (List.rdropWhile_eq_self_iff.mpr ?_)
  intro some_
  have last : (front ++ decimal value).getLast some_ ∈ decimal value := by
    rw [List.getLast_append_of_ne_nil some_ Nat.toDigits_ne_nil]
    exact List.getLast_mem _
  simpa using (plain_of_decimal last).2.2.2.2.2

theorem splitArraySpec_token :
    splitArraySpec declaration.token =
      (declaration.type.text,
        match declaration.suffix with
        | .scalar => none
        | .fixed len => some (decimal len)
        | .dynamic => some []
        | .bounded len => some ("<=".toList ++ decimal len)) := by
  have noBracket : '[' ∉ declaration.type.text := fun member =>
    (declaration.type.plain_of_text.2 _ member).2.2 rfl
  have split : ∀ rest,
      splitOnce ['['] (declaration.type.text ++ ['['] ++ rest) =
        some (declaration.type.text, rest) := splitOnce_append noBracket
  rw [splitArraySpec, token]
  cases declaration.suffix with
  | scalar =>
      rw [ArraySuffix.text, List.append_nil,
        splitOnce_eq_none noBracket ['['] List.mem_cons_self]
  | fixed len =>
      have found := split (decimal len ++ [']'])
      rw [List.append_assoc, List.singleton_append] at found
      rw [ArraySuffix.text, found]
      dsimp only
      rw [← List.nil_append (decimal len), rdropWhile_decimal]
  | dynamic =>
      have found := split [']']
      rw [List.append_assoc, List.singleton_append] at found
      rw [ArraySuffix.text, found]
      rfl
  | bounded len =>
      have found := split ("<=".toList ++ decimal len ++ [']'])
      rw [List.append_assoc, List.singleton_append] at found
      rw [ArraySuffix.text, found]
      dsimp only
      rw [rdropWhile_decimal]

/-- The first two words of a declaration settle what it declares. -/
theorem parseWords_token (more : List Name) :
    parseWords (declaration.token :: declaration.name.text :: more) =
      (MsgLine.declaration declaration).parsed := by
  rw [parseWords, splitArraySpec_token, MsgLine.parsed]
  cases declaration.suffix with
  | scalar =>
      dsimp only
      rw [declaration.type.stripBound_text]
      rfl
  | fixed len =>
      have someLen : decimal len ≠ [] := Nat.toDigits_ne_nil
      have noBound : ¬ ("<=".toList.isPrefixOf (decimal len) = true) := by
        intro bound
        have member : '<' ∈ decimal len :=
          (List.isPrefixOf_iff_prefix.mp bound).subset (by decide)
        exact (plain_of_decimal member).2.2.2.1 rfl
      dsimp only
      rw [if_neg (not_or.mpr ⟨someLen, noBound⟩), decimal,
        parseNat_toDigits len.isLt, declaration.type.stripBound_text]
      rfl
  | dynamic => exact if_pos (.inl rfl)
  | bounded len =>
      exact if_pos (.inr (List.isPrefixOf_iff_prefix.mpr
        (List.prefix_append _ _)))

/-- What is behind a name is apart from it. -/
theorem tail_apart : ∀ char ∈ declaration.tail.head?,
    isWhitespace char = true := by
  intro char first
  rw [tail, defaultText] at first
  split at first
  · exact declaration.trail.space char (List.mem_of_mem_head? first)
  · case _ gap value _ =>
      rw [List.append_assoc] at first
      exact gap.head_append _ char first

/-- Behind a name there is white space, and perhaps a default value. -/
theorem notMem_tail {char : Char} (visible : isWhitespace char = false)
    (absent : ∀ value : DefaultValue, char ∉ value.text) :
    char ∉ declaration.tail := by
  intro member
  rcases List.mem_append.mp member with inDefault | inTrail
  · rw [defaultText] at inDefault
    split at inDefault
    · cases inDefault
    · case _ gap value _ =>
        rcases List.mem_append.mp inDefault with inGap | inValue
        · exact gap.space.notMem visible inGap
        · exact absent value inValue
  · exact declaration.trail.space.notMem visible inTrail

/-- Where a visible character of the line can stand. -/
theorem mem_code {char : Char} (visible : isWhitespace char = false)
    (member : char ∈ declaration.code) :
    char ∈ declaration.token ∨ char ∈ declaration.name.text ∨
      char ∈ declaration.tail := by
  rcases List.mem_append.mp member with inLead | member
  · exact absurd inLead (declaration.lead.space.notMem visible)
  · rcases List.mem_append.mp member with inToken | member
    · exact .inl inToken
    · rcases List.mem_append.mp member with inGap | member
      · exact absurd inGap (declaration.gap.space.notMem visible)
      · exact .inr (List.mem_append.mp member)

theorem noHash_code : '#' ∉ declaration.code := by
  intro member
  rcases declaration.mem_code (by decide) member with inToken | inName | inTail
  · exact (declaration.plain_of_token inToken).2 rfl
  · exact declaration.name.noHash inName
  · exact declaration.notMem_tail (by decide) DefaultValue.noHash inTail

theorem splitWhitespace_code :
    splitWhitespace declaration.code =
      declaration.token :: declaration.name.text ::
        splitWhitespace declaration.tail := by
  have visible : IsVisible declaration.token := fun char member =>
    (declaration.plain_of_token member).1
  have gap : splitWhitespace (declaration.gap.text ++
      (declaration.name.text ++ declaration.tail)) =
      declaration.name.text :: splitWhitespace declaration.tail := by
    rw [splitWhitespace_space_append declaration.gap.space]
    exact splitWhitespace_word_append declaration.name.some_
      declaration.name.visible declaration.tail_apart
  rw [code, splitWhitespace_space_append declaration.lead.space,
    splitWhitespace_word_append declaration.token_ne_nil visible
      (declaration.gap.head_append _), gap]

/-- A declaration is no constant. -/
theorem isConstant_code : isConstant declaration.code = false := by
  rw [isConstant, splitWhitespace_code, List.head?_cons, Option.any_some]
  by_cases equals : '=' ∈ declaration.code
  · have inToken : '=' ∈ declaration.token := by
      rcases declaration.mem_code (by decide) equals with
        inToken | inName | inTail
      · exact inToken
      · exact absurd inName declaration.name.noEquals
      · exact absurd inTail
          (declaration.notMem_tail (by decide) DefaultValue.noEquals)
    rw [declaration.contains_of_equals inToken]
    exact Bool.and_false _
  · rw [decide_eq_false equals]
    rfl

end Declaration

/-! ## Lines -/

namespace Constant

variable (constant : Constant)

theorem noHash_head : '#' ∉ constant.head := by
  have noSpace : ∀ {text}, IsSpace text → '#' ∉ text := fun space =>
    space.notMem (by decide)
  simp only [head, List.mem_append, not_or]
  exact ⟨noSpace constant.lead.space, constant.type.noHash,
    noSpace constant.gap.space, constant.name.noHash,
    noSpace constant.trail.space⟩

/-- Up to its value a constant is known as one, whatever the value. -/
theorem isConstant_head (value : List Char) :
    isConstant (constant.head ++ '=' :: value) = true := by
  have equals : '=' ∈ constant.head ++ '=' :: value :=
    List.mem_append_right _ List.mem_cons_self
  have noBound : contains "<=".toList constant.type.text = false := by
    rw [contains, splitOnce_eq_none constant.type.noEquals _ (by decide)]
    rfl
  obtain ⟨rest, shape⟩ : ∃ rest, constant.head ++ '=' :: value =
      constant.lead.text ++
        (constant.type.text ++ (constant.gap.text ++ rest)) :=
    ⟨constant.name.text ++ constant.trail.text ++ '=' :: value, by simp [head]⟩
  have words : splitWhitespace (constant.head ++ '=' :: value) =
      constant.type.text :: splitWhitespace (constant.gap.text ++ rest) := by
    rw [shape, splitWhitespace_space_append constant.lead.space]
    exact splitWhitespace_word_append constant.type.some_ constant.type.visible
      (constant.gap.head_append rest)
  rw [isConstant, words, decide_eq_true equals, List.head?_cons,
    Option.any_some, noBound]
  rfl

end Constant

/-- Every line is read as what it was written for. -/
theorem parseLine_render (line : MsgLine) :
    parseLine line.render = line.parsed := by
  cases line with
  | blank space =>
      refine parseLine_of_space ?_
      rw [MsgLine.render, upTo_of_notMem (space.space.notMem (by decide))]
      exact space.space
  | comment lead remark =>
      refine parseLine_of_space ?_
      rw [MsgLine.render,
        upTo_append_separator (lead.space.notMem (by decide))]
      exact lead.space
  | constant item =>
      rw [parseLine_eq, MsgLine.render, upTo_append item.noHash_head,
        upTo_cons_of_ne (by decide), if_pos (item.isConstant_head _)]
      rfl
  | declaration item =>
      have code : upTo '#' (MsgLine.declaration item).render = item.code := by
        rw [MsgLine.render]
        cases item.comment with
        | none =>
            dsimp only
            rw [List.append_nil]
            exact upTo_of_notMem item.noHash_code
        | some remark => exact upTo_append_separator item.noHash_code _
      rw [parseLine_eq, code, if_neg (by simp [item.isConstant_code]),
        item.splitWhitespace_code, item.parseWords_token]

/-- Signs of a bound and of a constant may stand in a comment. -/
example : ∃ item : Declaration, item.suffix.arrayLen = some (some 2) ∧
    (MsgLine.declaration item).render =
      "string<=8[2] tag 'x' # n=1".toList := by
  refine ⟨{
    lead := ⟨[], by decide, by decide⟩
    type := .boundedString "string".toList (by decide) 8
    suffix := .fixed ⟨2, by decide⟩
    gap := ⟨⟨[' '], by decide, by decide⟩, by decide⟩
    name := ⟨"tag".toList, by decide, by decide, by decide, by decide⟩
    default := some (⟨⟨[' '], by decide, by decide⟩, by decide⟩,
      ⟨⟨"'x'".toList, by decide⟩, by decide, by decide⟩)
    trail := ⟨[' '], by decide, by decide⟩
    comment := some ⟨" n=1".toList, by decide⟩ }, rfl, by decide⟩

/-- A line is written without a line end in it. -/
theorem inline_render (line : MsgLine) : '\n' ∉ line.render := by
  have inWord : ∀ name : PlainName, '\n' ∉ name.text := fun name =>
    name.visible.notMem (by decide)
  cases line with
  | blank space => exact space.inline
  | comment lead remark =>
      simp only [MsgLine.render, List.mem_append, List.mem_cons, not_or]
      exact ⟨lead.inline, by decide, remark.inline⟩
  | constant item =>
      simp only [MsgLine.render, Constant.head, List.mem_append, List.mem_cons,
        not_or]
      exact ⟨⟨item.lead.inline, inWord item.type, item.gap.inline,
        inWord item.name, item.trail.inline⟩, by decide, item.value.inline⟩
  | declaration item =>
      have inToken : '\n' ∉ item.token := fun member =>
        absurd (item.plain_of_token member).1 (by decide)
      have inTail : '\n' ∉ item.tail := by
        rw [Declaration.tail, Declaration.defaultText, List.mem_append, not_or]
        refine ⟨?_, item.trail.inline⟩
        split
        · exact List.not_mem_nil
        · case _ gap value _ =>
            rw [List.mem_append, not_or]
            exact ⟨gap.inline, value.inline⟩
      have inCode : '\n' ∉ item.code := by
        simp only [Declaration.code, List.mem_append, not_or]
        exact ⟨item.lead.inline, inToken, item.gap.inline, inWord item.name,
          inTail⟩
      rw [MsgLine.render, List.mem_append, not_or]
      refine ⟨inCode, ?_⟩
      cases item.comment with
      | none => exact List.not_mem_nil
      | some remark =>
          rw [List.mem_cons, not_or]
          exact ⟨by decide, remark.inline⟩

end NanoRos.Codegen

import Mathlib.Data.List.DropRight

/-!
# Texts

The operations of a string library on texts that are lists of characters.
-/

namespace Text

/-- Unicode white space. -/
def isWhitespace (char : Char) : Bool :=
  (9 ≤ char.toNat && char.toNat ≤ 13) ||
    (0x2000 ≤ char.toNat && char.toNat ≤ 0x200A) ||
    char.toNat ∈
      [0x20, 0x85, 0xA0, 0x1680, 0x2028, 0x2029, 0x202F, 0x205F, 0x3000]

/-- The text between its first and its last visible character. -/
def trim (text : List Char) : List Char :=
  (text.dropWhile isWhitespace).rdropWhile isWhitespace

/-- What is before the first occurrence of a pattern, and what is after it. -/
def splitOnce (pattern : List Char) :
    List Char → Option (List Char × List Char)
  | [] => if pattern = [] then some ([], []) else none
  | char :: rest =>
      if pattern.isPrefixOf (char :: rest) then
        some ([], (char :: rest).drop pattern.length)
      else
        (splitOnce pattern rest).map fun (before, after) =>
          (char :: before, after)

/-- Whether a pattern occurs. -/
def contains (pattern text : List Char) : Bool :=
  (splitOnce pattern text).isSome

/-- The lines of a text; what ends a line is no part of it. -/
def lines (text : List Char) : List (List Char) :=
  let pieces := text.splitOn '\n'
  let ended := pieces.dropLast.map fun line =>
    if line.getLast? = some '\r' then line.dropLast else line
  ended ++ pieces.getLast?.toList.filter (· ≠ [])

/-- What is before the first separator. -/
def upTo (separator : Char) (text : List Char) : List Char :=
  (text.splitOn separator).headD []

/-- The words of a text. -/
def splitWhitespace (text : List Char) : List (List Char) :=
  (text.splitOnP isWhitespace).filter (· ≠ [])

/-- The value of decimal digits that follow those of `value`, below a
bound. -/
def parseDigits (bound : Nat) : Nat → List Char → Option Nat
  | value, [] => some value
  | value, char :: rest =>
      if char.isDigit then
        let value := value * 10 + (char.toNat - '0'.toNat)
        if value < bound then parseDigits bound value rest else none
      else none

/-- A number in decimal, below a bound; a plus sign may come first. -/
def parseNat (bound : Nat) (text : List Char) : Option Nat :=
  match text with
  | '+' :: char :: rest => parseDigits bound 0 (char :: rest)
  | char :: rest => parseDigits bound 0 (char :: rest)
  | [] => none

/-- All of the text is white space. -/
def IsSpace (text : List Char) : Prop :=
  ∀ char ∈ text, isWhitespace char = true

/-- None of the text is white space. -/
def IsVisible (text : List Char) : Prop :=
  ∀ char ∈ text, isWhitespace char = false

instance (text : List Char) : Decidable (IsSpace text) :=
  List.decidableBAll _ text

instance (text : List Char) : Decidable (IsVisible text) :=
  List.decidableBAll _ text

/-! ## Occurrences -/

/-- What is split off around a pattern makes up the text. -/
theorem eq_append_of_splitOnce {pattern text before after : List Char}
    (split : splitOnce pattern text = some (before, after)) :
    text = before ++ pattern ++ after := by
  induction text generalizing before after with
  | nil =>
      rw [splitOnce] at split
      split at split
      · case _ empty =>
          cases split
          rw [empty]
          rfl
      · cases split
  | cons char rest induction =>
      rw [splitOnce] at split
      split at split
      · case _ here =>
          cases split
          obtain ⟨after, same⟩ := List.isPrefixOf_iff_prefix.mp here
          rw [← same, List.drop_left, List.nil_append]
      · obtain ⟨⟨first, last⟩, later, same⟩ :=
          Option.map_eq_some_iff.mp split
        cases same
        rw [induction later]
        rfl

theorem splitOnce_eq_none {char : Char} {text : List Char}
    (absent : char ∉ text) (pattern : List Char) (member : char ∈ pattern) :
    splitOnce pattern text = none := by
  cases found : splitOnce pattern text with
  | none => rfl
  | some split =>
      rw [eq_append_of_splitOnce found] at absent
      exact absurd (List.mem_append_left _ (List.mem_append_right _ member))
        absent

/-- A pattern whose first character is new is found where it first stands. -/
theorem splitOnce_append {char : Char} {rest before : List Char}
    (absent : char ∉ before) (after : List Char) :
    splitOnce (char :: rest) (before ++ (char :: rest) ++ after) =
      some (before, after) := by
  induction before with
  | nil =>
      have here : (char :: rest).isPrefixOf ((char :: rest) ++ after) = true :=
        List.isPrefixOf_iff_prefix.mpr (List.prefix_append _ _)
      rw [List.nil_append, List.cons_append, splitOnce]
      rw [List.cons_append] at here
      rw [if_pos here, ← List.cons_append, List.drop_left]
  | cons other before induction =>
      have differs : char ≠ other := fun same =>
        absent (same ▸ List.mem_cons_self)
      have later := induction fun member =>
        absent (List.mem_cons_of_mem _ member)
      rw [List.cons_append, List.cons_append, splitOnce, if_neg, later]
      · rfl
      · intro here
        obtain ⟨_, same⟩ := List.isPrefixOf_iff_prefix.mp here
        exact differs (List.cons.inj same).1

theorem contains_append (pattern before after : List Char) :
    contains pattern (before ++ pattern ++ after) = true := by
  induction before with
  | nil =>
      rw [List.nil_append]
      cases same : pattern ++ after with
      | nil =>
          rw [(List.append_eq_nil_iff.mp same).1]
          rfl
      | cons char rest =>
          have here : pattern.isPrefixOf (char :: rest) = true :=
            List.isPrefixOf_iff_prefix.mpr (same ▸ List.prefix_append _ _)
          rw [contains, splitOnce, if_pos here]
          rfl
  | cons char before induction =>
      rw [List.cons_append, List.cons_append, contains, splitOnce]
      split
      · rfl
      · rw [Option.isSome_map]
        exact induction

theorem upTo_cons_self (separator : Char) (rest : List Char) :
    upTo separator (separator :: rest) = [] := by
  rw [upTo, List.splitOn_cons_eq_if_modifyHead, if_pos (beq_self_eq_true _)]
  rfl

theorem upTo_cons_of_ne {separator char : Char} (differs : char ≠ separator)
    (rest : List Char) :
    upTo separator (char :: rest) = char :: upTo separator rest := by
  rw [upTo, upTo, List.splitOn_cons_eq_if_modifyHead,
    if_neg (by simpa using differs)]
  cases pieces : rest.splitOn separator with
  | nil => exact absurd pieces (List.splitOn_ne_nil _ _)
  | cons first others => rfl

theorem upTo_append {separator : Char} {before : List Char}
    (absent : separator ∉ before) (rest : List Char) :
    upTo separator (before ++ rest) = before ++ upTo separator rest := by
  induction before with
  | nil => rfl
  | cons char before induction =>
      have differs : char ≠ separator := fun same =>
        absent (same ▸ List.mem_cons_self)
      rw [List.cons_append, upTo_cons_of_ne differs, List.cons_append,
        induction fun member => absent (List.mem_cons_of_mem _ member)]

theorem upTo_of_notMem {separator : Char} {text : List Char}
    (absent : separator ∉ text) : upTo separator text = text := by
  have whole := upTo_append absent []
  rw [List.append_nil] at whole
  exact whole.trans (List.append_nil _)

/-- The separator and what is behind it are left out. -/
theorem upTo_append_separator {separator : Char} {before : List Char}
    (absent : separator ∉ before) (after : List Char) :
    upTo separator (before ++ separator :: after) = before := by
  rw [upTo_append absent, upTo_cons_self, List.append_nil]

/-- No piece of a split text has a separator in it. -/
theorem notMem_of_mem_splitOn {separator : Char} {text piece : List Char}
    (member : piece ∈ text.splitOn separator) : separator ∉ piece := by
  induction text generalizing piece with
  | nil =>
      rw [List.splitOn_nil, List.mem_singleton] at member
      rw [member]
      exact List.not_mem_nil
  | cons char rest induction =>
      rw [List.splitOn_cons_eq_if_modifyHead] at member
      split at member
      · rcases List.mem_cons.mp member with rfl | later
        · exact List.not_mem_nil
        · exact induction later
      · case _ other =>
          cases pieces : rest.splitOn separator with
          | nil => exact absurd pieces (List.splitOn_ne_nil _ _)
          | cons first later =>
              rw [pieces, List.modifyHead_cons] at member
              rw [pieces] at induction
              rcases List.mem_cons.mp member with rfl | there
              · rw [List.mem_cons, not_or]
                refine ⟨?_, induction List.mem_cons_self⟩
                rintro rfl
                exact other (beq_self_eq_true _)
              · exact induction (List.mem_cons_of_mem _ there)

/-! ## Words -/

theorem IsSpace.notMem {text : List Char} (space : IsSpace text) {char : Char}
    (visible : isWhitespace char = false) : char ∉ text := by
  intro member
  rw [space char member] at visible
  cases visible

theorem IsVisible.notMem {text : List Char} (visible : IsVisible text)
    {char : Char} (space : isWhitespace char = true) : char ∉ text := by
  intro member
  rw [visible char member] at space
  cases space

theorem splitWhitespace_cons {char : Char} (space : isWhitespace char = true)
    (text : List Char) :
    splitWhitespace (char :: text) = splitWhitespace text := by
  rw [splitWhitespace, List.splitOnP_cons_eq_if_modifyHead, if_pos space]
  rfl

/-- White space in front does not change the words. -/
theorem splitWhitespace_space_append {space : List Char}
    (isSpace : IsSpace space) (text : List Char) :
    splitWhitespace (space ++ text) = splitWhitespace text := by
  induction space with
  | nil => rfl
  | cons char space induction =>
      rw [List.cons_append,
        splitWhitespace_cons (isSpace char List.mem_cons_self)]
      apply induction
      exact fun char member =>
        isSpace char (List.mem_cons_of_mem _ member)

/-- White space behind does not change them either. -/
theorem splitWhitespace_append_space {space : List Char}
    (isSpace : IsSpace space) (text : List Char) :
    splitWhitespace (text ++ space) = splitWhitespace text := by
  cases space with
  | nil => rw [List.append_nil]
  | cons char space =>
      have none_ : splitWhitespace space = [] := by
        have all := splitWhitespace_space_append
          (fun char member => isSpace char (List.mem_cons_of_mem _ member)) []
        rw [List.append_nil] at all
        exact all
      rw [splitWhitespace,
        List.splitOnP_append_cons _ _ (isSpace char List.mem_cons_self),
        List.filter_append]
      exact (congrArg (splitWhitespace text ++ ·) none_).trans
        (List.append_nil _)

/-- A word ends where the text does, or at white space. -/
theorem splitWhitespace_word_append {word rest : List Char}
    (some_ : word ≠ []) (visible : IsVisible word)
    (apart : ∀ char ∈ rest.head?, isWhitespace char = true) :
    splitWhitespace (word ++ rest) = word :: splitWhitespace rest := by
  cases rest with
  | nil =>
      rw [List.append_nil, splitWhitespace, List.splitOnP_eq_singleton visible]
      simp [some_, splitWhitespace]
  | cons char rest =>
      have space : isWhitespace char = true := apart char rfl
      rw [splitWhitespace_cons space, splitWhitespace,
        List.splitOnP_append_cons_of_forall_mem visible char space,
        List.filter_cons_of_pos (by simpa using some_)]
      rfl

/-! ## Trimming -/

theorem exists_trim (text : List Char) :
    ∃ left right, IsSpace left ∧ IsSpace right ∧
      text = left ++ (trim text ++ right) := by
  refine ⟨text.takeWhile isWhitespace,
    (text.dropWhile isWhitespace).rtakeWhile isWhitespace, ?_, ?_, ?_⟩
  · exact fun _ member => List.mem_takeWhile_imp member
  · exact fun _ member => List.mem_rtakeWhile_imp member
  · rw [trim, List.rdropWhile_append_rtakeWhile,
      List.takeWhile_append_dropWhile]

/-- Trimming does not change the words. -/
theorem splitWhitespace_trim (text : List Char) :
    splitWhitespace (trim text) = splitWhitespace text := by
  obtain ⟨left, right, leftSpace, rightSpace, same⟩ := exists_trim text
  calc
    splitWhitespace (trim text) = splitWhitespace (trim text ++ right) :=
      (splitWhitespace_append_space rightSpace _).symm
    _ = splitWhitespace (left ++ (trim text ++ right)) :=
      (splitWhitespace_space_append leftSpace _).symm
    _ = splitWhitespace text := by rw [← same]

/-- Trimming leaves the visible characters. -/
theorem mem_trim_iff {char : Char} (visible : isWhitespace char = false)
    (text : List Char) : char ∈ trim text ↔ char ∈ text := by
  obtain ⟨left, right, leftSpace, rightSpace, same⟩ := exists_trim text
  constructor
  · intro member
    rw [same]
    exact List.mem_append_right _ (List.mem_append_left _ member)
  · intro member
    rw [same] at member
    rcases List.mem_append.mp member with inLeft | member
    · exact absurd inLeft (leftSpace.notMem visible)
    · rcases List.mem_append.mp member with inTrim | inRight
      · exact inTrim
      · exact absurd inRight (rightSpace.notMem visible)

/-! ## Numbers -/

theorem le_ofDigitChars (text : List Char) (value : Nat) :
    value ≤ Nat.ofDigitChars 10 text value := by
  induction text generalizing value with
  | nil => exact Nat.le_of_eq Nat.ofDigitChars_nil.symm
  | cons char rest induction =>
      rw [Nat.ofDigitChars_cons]
      have later := induction (10 * value + (char.toNat - '0'.toNat))
      omega

theorem parseDigits_eq_some {bound value : Nat} {text : List Char}
    (digits : ∀ char ∈ text, char.isDigit = true)
    (lt : Nat.ofDigitChars 10 text value < bound) :
    parseDigits bound value text = some (Nat.ofDigitChars 10 text value) := by
  induction text generalizing value with
  | nil => rw [parseDigits, Nat.ofDigitChars_nil]
  | cons char rest induction =>
      rw [Nat.ofDigitChars_cons] at lt ⊢
      have grows := le_ofDigitChars rest (10 * value + (char.toNat - '0'.toNat))
      rw [parseDigits, if_pos (digits char List.mem_cons_self)]
      dsimp only
      rw [Nat.mul_comm value 10, if_pos (Nat.lt_of_le_of_lt grows lt)]
      exact induction
        (fun char member => digits char (List.mem_cons_of_mem _ member)) lt

/-- The decimal form of a number below the bound is read as that number. -/
theorem parseNat_toDigits {bound value : Nat} (lt : value < bound) :
    parseNat bound (Nat.toDigits 10 value) = some value := by
  have digits : ∀ char ∈ Nat.toDigits 10 value, char.isDigit = true := by
    intro char member
    exact Nat.isDigit_of_mem_toDigits (by decide) (by decide) member
  have whole : parseDigits bound 0 (Nat.toDigits 10 value) =
      some (Nat.ofDigitChars 10 (Nat.toDigits 10 value) 0) := by
    refine parseDigits_eq_some digits ?_
    rw [Nat.ofDigitChars_ten_toDigits]
    exact lt
  rw [Nat.ofDigitChars_ten_toDigits] at whole
  unfold parseNat
  split
  · case _ char rest same =>
      have plus := digits '+' (same ▸ List.mem_cons_self)
      cases plus
  · case _ char rest _ same =>
      rw [← same]
      exact whole
  · case _ empty => exact absurd empty Nat.toDigits_ne_nil

end Text

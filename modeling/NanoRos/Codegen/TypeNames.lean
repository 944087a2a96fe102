import NanoRos.Codegen.GeneratedCode

/-!
# Two routes to a function prefix

The prefix of a topic's functions comes from its type path, that of a nested
type's functions from its struct name.  The second route trims too much from
the struct of a message named `t`, and nothing else.
-/

namespace NanoRos.Codegen

/-- `pkg/msg/Name`: the message name has no underscore. -/
def IsTypePath (path : Name) : Prop :=
  ∃ dir name, path = dir ++ '/' :: name ∧ name ≠ [] ∧ '/' ∉ name ∧ '_' ∉ name

/-- The struct of a message named `t`. -/
def IsNamedT (structName : Name) : Prop :=
  ∃ dir, structName = rosTypeToCStructName (dir ++ ['/', 't'])

theorem replaceSlash_append (left right : Name) :
    replaceSlash (left ++ right) = replaceSlash left ++ replaceSlash right :=
  List.flatMap_append

theorem replaceSlash_of_notMem {name : Name} (plain : '/' ∉ name) :
    replaceSlash name = name := by
  induction name with
  | nil => rfl
  | cons char name induction =>
      have here : char ≠ '/' := fun same => plain (same ▸ List.mem_cons_self)
      have rest := induction fun member =>
        plain (List.mem_cons_of_mem _ member)
      rw [replaceSlash] at rest ⊢
      rw [List.flatMap_cons, rest, if_neg here]
      rfl

theorem replaceSlash_path {dir name : Name} (plain : '/' ∉ name) :
    replaceSlash (dir ++ '/' :: name) =
      replaceSlash dir ++ '_' :: '_' :: name := by
  rw [replaceSlash_append]
  have slash : replaceSlash ('/' :: name) = '_' :: '_' :: name := by
    rw [replaceSlash, List.flatMap_cons]
    exact congrArg (['_', '_'] ++ ·) (replaceSlash_of_notMem plain)
  rw [slash]

/-! ## Trimming -/

theorem trimReversed_of_ne {last : Char} (rest : Name) (other : last ≠ 't') :
    trimReversed (last :: rest) = last :: rest := by
  cases rest with
  | nil => rfl
  | cons before rest =>
      rw [trimReversed, if_neg fun both => other both.1]

/-- After the message name has been reached nothing more is trimmed, unless
all of it is a `t`. -/
theorem trimReversed_name {name before : Name} (some_ : name ≠ [])
    (plain : '_' ∉ name) :
    trimReversed (name ++ '_' :: before) =
      if name = ['t'] then trimReversed before else name ++ '_' :: before := by
  match name, some_ with
  | [char], _ =>
      rw [List.singleton_append, trimReversed]
      by_cases isT : char = 't'
      · rw [isT]
        rfl
      · rw [if_neg fun both => isT both.1, if_neg]
        rintro ⟨⟩
        exact isT rfl
  | first :: second :: rest, _ =>
      have other : second ≠ '_' := by
        rintro rfl
        exact plain (List.mem_cons_of_mem _ List.mem_cons_self)
      rw [List.cons_append, List.cons_append, trimReversed,
        if_neg fun both => other both.2, if_neg (by simp)]

/-- What is trimmed from the struct name of a path. -/
theorem trim_structName {dir name : Name} (some_ : name ≠ [])
    (noSlash : '/' ∉ name) (plain : '_' ∉ name) :
    trimEndMatchesT (rosTypeToCStructName (dir ++ '/' :: name)) =
      if name = ['t'] then replaceSlash dir ++ ['_']
      else rosTypeToCPrefix (dir ++ '/' :: name) := by
  have reversed : (rosTypeToCStructName (dir ++ '/' :: name)).reverse =
      't' :: '_' :: (name.reverse ++
        '_' :: '_' :: (replaceSlash dir).reverse) := by
    rw [rosTypeToCStructName, replaceSlash_path noSlash]
    simp
  have nonempty : name.reverse ≠ [] := by simpa using some_
  have noUnderscore : '_' ∉ name.reverse := by simpa using plain
  have isT : name.reverse = ['t'] ↔ name = ['t'] := by
    rw [List.reverse_eq_iff]
    rfl
  rw [trimEndMatchesT, reversed, trimReversed, if_pos ⟨rfl, rfl⟩,
    trimReversed_name nonempty noUnderscore]
  simp only [isT]
  split
  · rw [trimReversed_of_ne _ (by decide)]
    simp
  · rw [rosTypeToCPrefix, replaceSlash_path noSlash]
    simp

theorem isNamedT_iff {dir name : Name} (noSlash : '/' ∉ name)
    (plain : '_' ∉ name) :
    IsNamedT (rosTypeToCStructName (dir ++ '/' :: name)) ↔ name = ['t'] := by
  constructor
  · rintro ⟨other, same⟩
    rw [rosTypeToCStructName, rosTypeToCStructName,
      replaceSlash_path noSlash, replaceSlash_path (by decide)] at same
    have tails := congrArg List.reverse (List.append_cancel_right same)
    simp only [List.reverse_append, List.reverse_cons, List.reverse_nil,
      List.nil_append, List.append_assoc, List.cons_append] at tails
    -- read from the end: a `t`, then the separator
    cases reversed : name.reverse with
    | nil =>
        rw [reversed] at tails
        simp at tails
    | cons last rest =>
        rw [reversed] at tails
        cases rest with
        | nil =>
            have same := (List.cons.inj tails).1
            have back := congrArg List.reverse reversed
            rw [List.reverse_reverse, same] at back
            exact back
        | cons before rest =>
            have underscore := (List.cons.inj (List.cons.inj tails).2).1
            have member : before ∈ name.reverse := by
              rw [reversed]
              exact List.mem_cons_of_mem _ List.mem_cons_self
            rw [underscore, List.mem_reverse] at member
            exact absurd member plain
  · rintro rfl
    exact ⟨dir, rfl⟩

/-! ## Back from a prefix -/

/-- The struct a function prefix is meant for. -/
def structOfPrefix (typePrefix : Name) : Name :=
  if typePrefix.getLast? = some '_' then typePrefix ++ ['_', 't', '_', 't']
  else typePrefix ++ ['_', 't']

theorem getLast?_rosPath {path : Name} (isPath : IsTypePath path) :
    (rosTypeToCPrefix path).getLast? ≠ some '_' := by
  obtain ⟨dir, name, rfl, some_, noSlash, plain⟩ := isPath
  rw [rosTypeToCPrefix, replaceSlash_path noSlash]
  intro last
  have ends : (replaceSlash dir ++ '_' :: '_' :: name).getLast? =
      name.getLast? := by
    rw [List.getLast?_append, List.getLast?_cons_cons]
    obtain ⟨char, rest, rfl⟩ := List.exists_cons_of_ne_nil some_
    rw [List.getLast?_cons_cons,
      List.getLast?_eq_some_getLast (List.cons_ne_nil char rest),
      Option.some_or]
  rw [ends] at last
  exact plain (List.mem_of_getLast? last)

theorem structOfPrefix_rosPath {path : Name} (isPath : IsTypePath path) :
    structOfPrefix (rosTypeToCPrefix path) = rosTypeToCStructName path := by
  rw [structOfPrefix, if_neg (getLast?_rosPath isPath)]
  rfl

theorem structOfPrefix_trim {path : Name} (isPath : IsTypePath path) :
    structOfPrefix (trimEndMatchesT (rosTypeToCStructName path)) =
      rosTypeToCStructName path := by
  have straight := structOfPrefix_rosPath isPath
  obtain ⟨dir, name, rfl, some_, noSlash, plain⟩ := isPath
  rw [trim_structName some_ noSlash plain]
  split
  · next isT =>
      rw [structOfPrefix, if_pos (by simp), isT, rosTypeToCStructName,
        replaceSlash_path (by decide)]
      simp
  · exact straight

/-- Trimming is exact except for a message named `t`. -/
theorem trim_append {path : Name} (isPath : IsTypePath path)
    (notT : ¬ IsNamedT (rosTypeToCStructName path)) :
    trimEndMatchesT (rosTypeToCStructName path) = rosTypeToCPrefix path := by
  obtain ⟨dir, name, rfl, some_, noSlash, plain⟩ := isPath
  rw [isNamedT_iff noSlash plain] at notT
  rw [trim_structName some_ noSlash plain, if_neg notT]

/-- For a message named `t`, what the trimmed prefix would be the prefix of is
no struct of any message. -/
theorem trim_namedT {structName other : Name} (isT : IsNamedT structName)
    (isPath : IsTypePath other) :
    trimEndMatchesT structName ++ ['_', 't'] ≠ rosTypeToCStructName other := by
  obtain ⟨dir, rfl⟩ := isT
  have last := getLast?_rosPath isPath
  rw [trim_structName (by decide) (by decide) (by decide), if_pos rfl]
  intro same
  have prefixes : replaceSlash dir ++ ['_'] = rosTypeToCPrefix other :=
    List.append_cancel_right same
  rw [← prefixes] at last
  simp at last

end NanoRos.Codegen

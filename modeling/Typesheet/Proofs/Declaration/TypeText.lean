import Typesheet.Declaration.Render
import Typesheet.Proofs.ColumnType.Reading

/-!
Contract: the text that a type is written as, against its display name and against the grammar.

Owns: expressions without addresses and the types that they denote, types up to the names of their
unions, reading of a written type, how often an expression makes an array of an array, and the
comparison of the written type with the display name.

A union is written from its members and its flag.  Its name is kept from reading instead, and takes
`( … )[]` around it each time it is made an array.  The flag is set the first time and stays set, so
the two part where an array of a union is made an array again.
-/

set_option autoImplicit false

namespace Typesheet

namespace ColumnType

mutual

/-- The type without the names that its unions carry. -/
def eraseNames : ColumnType → ColumnType
  | .union _ members isArray => .union [] (eraseNamesAll members) isArray
  | .keyword word isArray => .keyword word isArray
  | .literal text isArray => .literal text isArray
  | .reference ref => .reference ref
  | .unknown text isArray => .unknown text isArray
termination_by structural type => type

def eraseNamesAll : List ColumnType → List ColumnType
  | [] => []
  | type :: rest => eraseNames type :: eraseNamesAll rest
termination_by structural types => types

end

theorem eraseNamesAll_eq_map (types : List ColumnType) :
    eraseNamesAll types = types.map eraseNames := by
  induction types with
  | nil => rfl
  | cons type rest inductionHypothesis => exact congrArg (_ :: ·) inductionHypothesis

theorem eraseNames_union (name : Text) (members : List ColumnType) (isArray : Bool) :
    eraseNames (.union name members isArray) = .union [] (members.map eraseNames) isArray := by
  rw [eraseNames, eraseNamesAll_eq_map]

end ColumnType

namespace Grammar

open Expression ColumnType Declaration

/-! ## Expressions without addresses -/

def Leaf.isAddress : Leaf → Bool
  | .whole _ => true
  | .column .. => true
  | .keyword _ => false
  | .literal _ => false

mutual

/-- The leaves from left to right, at every depth. -/
def Term.leaves : Term → List Leaf
  | .leaf stem _ => [stem]
  | .group content _ => content.leaves
termination_by structural term => term

def Expr.leaves : Expr → List Leaf
  | .last _ term _ => term.leaves
  | .more _ term _ rest => term.leaves ++ rest.leaves
termination_by structural expr => expr

end

def Term.NoAddress (term : Term) : Prop :=
  ∀ stem ∈ term.leaves, stem.isAddress = false

def Expr.NoAddress (expr : Expr) : Prop :=
  ∀ stem ∈ expr.leaves, stem.isAddress = false

theorem Expr.noAddress_more {before after : Blank} {term : Term} {rest : Expr} :
    (Expr.more before term after rest).NoAddress ↔ term.NoAddress ∧ rest.NoAddress :=
  List.forall_mem_append

/-- The types that expressions without addresses denote, whatever names their unions carry. -/
inductive Plain : ColumnType → Prop where
  | leaf (stem : Leaf) (isArray : Bool) (noAddress : stem.isAddress = false) :
      Plain (stem.type isArray)
  | union (name : Text) (members : List ColumnType) (isArray : Bool)
      (several : 2 ≤ members.length) (plain : ∀ member ∈ members, Plain member) :
      Plain (.union name members isArray)

theorem Plain.toArray {type : ColumnType} (plain : Plain type) : Plain (arrayOf type) := by
  cases plain with
  | leaf stem isArray noAddress =>
      rw [arrayOf_leaf_type]
      exact .leaf stem true noAddress
  | union name members isArray several plain => exact .union _ members true several plain

mutual

theorem Term.plain : ∀ term : Term, term.NoAddress → Plain term.type
  | .leaf stem marker, noAddress =>
      .leaf stem marker.isSome (noAddress stem (List.mem_singleton_self stem))
  | .group content false, noAddress => content.plain noAddress
  | .group content true, noAddress => (content.plain noAddress).toArray

theorem Expr.plain : ∀ expr : Expr, expr.NoAddress → Plain expr.type
  | .last _ term _, noAddress => term.plain noAddress
  | .more _ term _ rest, noAddress => by
      obtain ⟨inTerm, inRest⟩ := Expr.noAddress_more.mp noAddress
      refine .union _ _ false (Nat.succ_le_succ rest.length_types_pos) ?_
      exact List.forall_mem_cons.mpr ⟨term.plain inTerm, rest.plain_types inRest⟩

theorem Expr.plain_types : ∀ expr : Expr, expr.NoAddress → ∀ type ∈ expr.types, Plain type
  | .last _ term _, noAddress => List.forall_mem_singleton.mpr (term.plain noAddress)
  | .more _ term _ rest, noAddress => by
      obtain ⟨inTerm, inRest⟩ := Expr.noAddress_more.mp noAddress
      exact List.forall_mem_cons.mpr ⟨term.plain inTerm, rest.plain_types inRest⟩

end

/-! ## Written types -/

theorem memberTexts_eq_map (nameOf : Ref → Text) (types : List ColumnType) :
    memberTexts nameOf types = types.map (typeText nameOf) := by
  induction types with
  | nil => rfl
  | cons type rest inductionHypothesis => exact congrArg (_ :: ·) inductionHypothesis

theorem renderType_union (name : Text) (members : List ColumnType) (isArray : Bool) :
    renderType (.union name members isArray)
      = marked ('(' :: " | ".toList.intercalate (members.map renderType) ++ ")".toList)
          isArray := by
  rw [renderType, typeText, memberTexts_eq_map, withArrayMark_eq_marked]
  rfl

/-- A leaf that is no address is written as it shows. -/
theorem renderType_leaf {stem : Leaf} (noAddress : stem.isAddress = false) (isArray : Bool) :
    renderType (stem.type isArray) = shown (stem.type isArray) := by
  rw [← name_leaf_type]
  cases stem with
  | keyword word => rfl
  | literal quoted => rfl
  | whole uri => nomatch noAddress
  | column uri wellFormed => nomatch noAddress

/-- **A written type is a term of the grammar**, and the term denotes the type again, up to the
names of unions. -/
theorem Plain.exists_written {type : ColumnType} (plain : Plain type) :
    ∃ term : Term, term.text = renderType type ∧ term.type.eraseNames = type.eraseNames := by
  induction plain with
  | leaf stem isArray noAddress =>
      refine ⟨stem.tidied isArray, ?_, congrArg eraseNames (stem.type_tidied isArray)⟩
      rw [stem.text_tidied, renderType_leaf noAddress]
  | union name members isArray several plain inductionHypothesis =>
      have nonempty : members ≠ [] := by
        rintro rfl
        exact absurd several (by decide)
      obtain ⟨expr, isText, sameTypes⟩ :=
        exists_expr_of_members nonempty renderType eraseNames inductionHypothesis
      have severalTypes : 2 ≤ expr.types.length := by
        have sameLength := congrArg List.length sameTypes
        rw [List.length_map, List.length_map] at sameLength
        omega
      have isType : expr.type = alternatives expr.types := Expr.type_of_types severalTypes
      refine ⟨.group expr isArray, ?_, ?_⟩
      · rw [renderType_union, ← isText]
        cases isArray with
        | false => rfl
        | true => simp [Term.text, marked]
      · rw [eraseNames_union, ← sameTypes]
        cases isArray with
        | false => rw [Term.type, isType, alternatives, eraseNames_union]
        | true => rw [Term.type, isType, alternatives, arrayOf, eraseNames_union]

/-- **A written type is read as the type again**, up to the names of unions.  For every expression
without addresses, writing the type that it is read as and reading the written text gives a type of
the same tree: the same kinds of nodes, keywords, literals and array flags, with the same members in
the same order at every depth. -/
theorem parse_renderType_eraseNames {expr : Expr} (noAddress : expr.NoAddress) :
    (parse .standard (renderType (parse .standard expr.text))).eraseNames
      = (parse .standard expr.text).eraseNames := by
  obtain ⟨term, isText, sameType⟩ := (expr.plain noAddress).exists_written
  rw [parse_text_of_read expr.read, ← isText, term.parse_text, sameType]

/-- A group array in a union, and a group array of a group array, whose name is not read back. -/
theorem parse_renderType_of_nested_arrays :
    let text : Text := "null | ((string | 'a')[])[]".toList
    let type := parse .standard text
    ∃ expr : Expr, expr.NoAddress ∧ expr.text = text
      ∧ (parse .standard (renderType type)).eraseNames = type.eraseNames
      ∧ parse .standard (renderType type) ≠ type := by
  intro text type
  let letter : Literal := ⟨.single, [.plain 'a' (by decide) (by decide)]⟩
  let content : Expr := .more .none (.leaf (.keyword .string) none) .space
    (.last .space (.leaf (.literal letter) none) .none)
  let expr : Expr := .more .none (.leaf (.keyword .null) none) .space
    (.last .space (.group (.last .none (.group content true) .none) true) .none)
  have noAddress : expr.NoAddress := by
    simp [Expr.NoAddress, expr, content, letter, Expr.leaves, Term.leaves, Leaf.isAddress]
  have isText : expr.text = text := by decide
  have same := parse_renderType_eraseNames noAddress
  rw [isText] at same
  exact ⟨expr, noAddress, isText, same, by decide +kernel⟩

/-! ## Written types and display names -/

/-- The first text becomes the second when so many times a pair of parentheses with the array
marker behind it is taken off around a part of it. -/
inductive Unwraps : Nat → Text → Text → Prop where
  | refl (text : Text) : Unwraps 0 text text
  | append {first second : Nat} {front front' back back' : Text}
      (inFront : Unwraps first front front') (inBack : Unwraps second back back') :
      Unwraps (first + second) (front ++ back) (front' ++ back')
  | unwrap {count : Nat} {text text' : Text} (inside : Unwraps count text text') :
      Unwraps (count + 1) ('(' :: text ++ ")[]".toList) text'

namespace Unwraps

variable {count : Nat} {text text' : Text}

theorem length_eq (unwraps : Unwraps count text text') :
    text.length = text'.length + 4 * count := by
  induction unwraps with
  | refl => rfl
  | append _ _ inFront inBack =>
      rw [List.length_append, List.length_append]
      omega
  | unwrap _ inside =>
      have around : ")[]".toList.length = 3 := rfl
      rw [List.length_append, List.length_cons, around]
      omega

theorem eq_of_count_eq_zero (unwraps : Unwraps count text text') (nothing : count = 0) :
    text = text' := by
  induction unwraps with
  | refl => rfl
  | append _ _ inFront inBack =>
      obtain ⟨noneInFront, noneInBack⟩ := Nat.add_eq_zero_iff.mp nothing
      rw [inFront noneInFront, inBack noneInBack]
  | unwrap => exact absurd nothing (Nat.succ_ne_zero _)

/-- Every pair that is taken off makes the text shorter. -/
theorem eq_iff (unwraps : Unwraps count text text') : text = text' ↔ count = 0 := by
  refine ⟨fun same => ?_, unwraps.eq_of_count_eq_zero⟩
  have lengths := unwraps.length_eq
  rw [same] at lengths
  omega

end Unwraps

/-- An array of a union. -/
def isUnionArray (type : ColumnType) : Bool :=
  type.isUnion && type.isArray

mutual

/-- How many groups of the term are made an array when what they enclose is an array of a union
already. -/
def Term.rewraps : Term → Nat
  | .leaf .. => 0
  | .group content false => content.rewraps
  | .group content true => content.rewraps + (isUnionArray content.type).toNat
termination_by structural term => term

def Expr.rewraps : Expr → Nat
  | .last _ term _ => term.rewraps
  | .more _ term _ rest => term.rewraps + rest.rewraps
termination_by structural expr => expr

end

/-- The display name, in parentheses if the type is a union that is no array. -/
def displayed (type : ColumnType) : Text :=
  if type.isUnion && !type.isArray then '(' :: type.name ++ ")".toList else type.name

theorem Plain.displayed_eq {type : ColumnType} (plain : Plain type) :
    displayed type = shown type := by
  cases plain with
  | leaf stem isArray noAddress =>
      rw [← name_leaf_type]
      cases stem <;> rfl
  | union name members isArray several plain => cases isArray <;> rfl

/-- An array of a type is written and shown with one marker more, but an array of an array of a
union is only shown with one more. -/
theorem Unwraps.toArray {type : ColumnType} {count : Nat} (plain : Plain type)
    (unwraps : Unwraps count (shown type) (renderType type)) :
    Unwraps (count + (isUnionArray type).toNat) (shown (arrayOf type))
      (renderType (arrayOf type)) := by
  cases plain with
  | leaf stem isArray noAddress =>
      have noUnion : isUnionArray (stem.type isArray) = false := by cases stem <;> rfl
      have nothing : count = 0 := unwraps.eq_iff.mp (renderType_leaf noAddress isArray).symm
      rw [nothing, noUnion, arrayOf_leaf_type, renderType_leaf noAddress]
      exact .refl _
  | union name members isArray several plain =>
      cases isArray with
      | false =>
          have marked := unwraps.append (.refl "[]".toList)
          rw [renderType_union] at marked
          rw [arrayOf, renderType_union]
          simpa [shown, Grammar.marked, isUnionArray, ColumnType.isArray] using marked
      | true =>
          have wrapped := unwraps.unwrap
          rw [renderType_union] at wrapped
          rw [arrayOf, renderType_union]
          exact wrapped

mutual

theorem Term.unwraps : ∀ term : Term, term.NoAddress →
    Unwraps term.rewraps (shown term.type) (renderType term.type)
  | .leaf stem marker, noAddress => by
      have isStem := noAddress stem (List.mem_singleton_self stem)
      rw [Term.type, renderType_leaf isStem]
      exact .refl _
  | .group content false, noAddress => content.unwraps noAddress
  | .group content true, noAddress =>
      (content.unwraps noAddress).toArray (content.plain noAddress)

theorem Expr.unwraps : ∀ expr : Expr, expr.NoAddress →
    Unwraps expr.rewraps (shown expr.type) (renderType expr.type)
  | .last _ term _, noAddress => term.unwraps noAddress
  | .more before term after rest, noAddress => by
      have members := (Expr.more before term after rest).unwraps_types noAddress
      have grouped := (Unwraps.append (.refl ['(']) members).append (.refl ")".toList)
      rw [Expr.type, alternatives, renderType_union]
      simpa [shown, marked, Expr.types] using grouped

/-- The members of a union with ` | ` between them. -/
theorem Expr.unwraps_types : ∀ expr : Expr, expr.NoAddress →
    Unwraps expr.rewraps (joined expr.types)
      (" | ".toList.intercalate (expr.types.map renderType))
  | .last _ term _, noAddress => by
      have single := term.unwraps noAddress
      simpa [Expr.types, joined, Expr.rewraps] using single
  | .more _ term _ rest, noAddress => by
      obtain ⟨inTerm, inRest⟩ := Expr.noAddress_more.mp noAddress
      have several : rest.types ≠ [] := List.length_pos_iff.mp rest.length_types_pos
      have members := ((term.unwraps inTerm).append (.refl " | ".toList)).append
        (rest.unwraps_types inRest)
      rw [Expr.types, joined, List.map_cons, List.map_cons,
        List.intercalate_cons_of_ne_nil (by simpa using several),
        List.intercalate_cons_of_ne_nil (by simpa using several)]
      simpa [joined, Expr.rewraps] using members

end

/-- **A written type is the display name less the array markers that the flag cannot hold.**  For
every expression without addresses the type that it is read as is written as its display name, in
parentheses if it is a union that is no array, from which `( … )[]` is taken off once for every
group that makes an array of an array of a union.  So the two are the same exactly when no group
does. -/
theorem renderType_eq_displayed_iff {expr : Expr} (noAddress : expr.NoAddress) :
    let type := parse .standard expr.text
    Unwraps expr.rewraps (displayed type) (renderType type)
      ∧ (renderType type = displayed type ↔ expr.rewraps = 0) := by
  intro type
  have isType : type = expr.type := parse_text_of_read expr.read
  have unwraps : Unwraps expr.rewraps (displayed type) (renderType type) := by
    rw [isType, (expr.plain noAddress).displayed_eq]
    exact expr.unwraps noAddress
  exact ⟨unwraps, eq_comm.trans unwraps.eq_iff⟩

/-- One member of a union is an array of an array of a union, and the other a plain array of one. -/
theorem renderType_of_mixed_arrays :
    let text : Text := "((string | 'a')[])[] | (null | number)[]".toList
    let type := parse .standard text
    ∃ expr : Expr, expr.NoAddress ∧ expr.text = text ∧ expr.rewraps = 1
      ∧ Unwraps 1 (displayed type) (renderType type)
      ∧ renderType type ≠ displayed type
      ∧ displayed type = "(((string | 'a')[])[] | (null | number)[])".toList
      ∧ renderType type = "((string | 'a')[] | (null | number)[])".toList := by
  intro text type
  let letter : Literal := ⟨.single, [.plain 'a' (by decide) (by decide)]⟩
  let first : Expr := .more .none (.leaf (.keyword .string) none) .space
    (.last .space (.leaf (.literal letter) none) .none)
  let second : Expr := .more .none (.leaf (.keyword .null) none) .space
    (.last .space (.leaf (.keyword .number) none) .none)
  let expr : Expr := .more .none (.group (.last .none (.group first true) .none) true) .space
    (.last .space (.group second true) .none)
  have noAddress : expr.NoAddress := by
    simp [Expr.NoAddress, expr, first, second, letter, Expr.leaves, Term.leaves, Leaf.isAddress]
  have isText : expr.text = text := by decide
  have once : expr.rewraps = 1 := by decide
  have compared := renderType_eq_displayed_iff noAddress
  rw [isText, once] at compared
  have isType : type = expr.type := by
    rw [← parse_text_of_read expr.read, isText]
  refine ⟨expr, noAddress, isText, once, compared.1, mt compared.2.mp Nat.one_ne_zero, ?_, ?_⟩
  · rw [isType]
    decide
  · rw [isType]
    decide

/-- **An array of an array of a union is written as an array of the union**, while its display name
shows both. -/
theorem nested_array_written_once :
    let text : Text := "((string | number)[])[]".toList
    let type := parse .standard text
    (∃ expr : Expr, expr.NoAddress ∧ expr.text = text)
      ∧ type.name = text ∧ isUnionArray type = true
      ∧ renderType type = "(string | number)[]".toList
      ∧ renderType type ≠ displayed type := by
  intro text type
  let content : Expr := .more .none (.leaf (.keyword .string) none) .space
    (.last .space (.leaf (.keyword .number) none) .none)
  let expr : Expr := .last .none (.group (.last .none (.group content true) .none) true) .none
  have isText : expr.text = text := by decide
  have isType : type = expr.type := by
    change parse .standard text = _
    rw [← isText, parse_text_of_read expr.read]
  refine ⟨⟨expr, ?_, isText⟩, ?_⟩
  · simp [Expr.NoAddress, expr, content, Expr.leaves, Term.leaves, Leaf.isAddress]
  · rw [isType]
    decide

end Grammar

end Typesheet

import Typesheet.Proofs.Address.Grammar
import Typesheet.Proofs.ColumnType.Reading
import Typesheet.Proofs.ColumnType.Stub
import Typesheet.Schema.Load

/-!
Contract: the places that recognize references, under the standard scheme.

Owns: the leaf that a text stands for when it is taken for a reference, the agreement of the test
for references with the two readers, and what the references that were read lead to when they are
followed.

The test drops an array marker wherever there is one, the reader of leaves only where the text is
more than an empty group.  The two differ on `()[]` alone, which is no reference for either.
-/

set_option autoImplicit false

namespace Typesheet

namespace Grammar

open Expression ColumnType

variable {text : Text}

/-! ## The leaf of a reference -/

/-- An address is a leaf that denotes a reference. -/
theorem exists_leaf_of_isAddress
    (address : Address.isNamespace text = true ∨ Address.isColumn text = true) :
    ∃ leaf : Leaf, leaf.text = text ∧ ∀ isArray, ∃ ref, leaf.type isArray = .reference ref := by
  cases address with
  | inl isNamespace => exact ⟨.whole ⟨text, isNamespace⟩, rfl, fun _ => ⟨_, rfl⟩⟩
  | inr isColumn =>
      obtain ⟨owner, selector, isText⟩ := Address.isColumn_iff.mp isColumn
      have isOwner := Address.isNamespace_iff.mpr isText.isOwner
      have isName := Address.isSelector_iff.mpr isText.isSelector
      exact ⟨.column ⟨⟨owner, isOwner⟩, selector⟩ isName, isText.whole.symm, fun _ => ⟨_, rfl⟩⟩

theorem dropArrayMark_cases (text : Text) :
    dropArrayMark text = text ∨ text = dropArrayMark text ++ arrayMark := by
  rw [dropArrayMark]
  cases found : arrayMark.isSuffixOf? text with
  | none => exact .inl rfl
  | some front => exact .inr (List.isSuffixOf?_eq_some_iff_append_eq.mp found).symm

/-- A trimmed text is what is left of it without its array marker, with the marker behind. -/
theorem exists_marker (text : Text) :
    ∃ marker : Option Blank,
      Text.trim text = Text.trim (dropArrayMark (Text.trim text)) ++ markerText marker := by
  cases dropArrayMark_cases (Text.trim text) with
  | inl kept =>
      refine ⟨none, ?_⟩
      rw [kept, Text.trim_trim, markerText, List.append_nil]
  | inr dropped =>
      obtain ⟨before, after, blankBefore, blankAfter, whole⟩ :=
        Text.exists_blanks (dropArrayMark (Text.trim text))
      have nonempty : Text.trim text ≠ [] := by
        rw [dropped]
        exact List.append_ne_nil_of_right_ne_nil _ (by decide)
      -- White space in front would stand in front of the whole text.
      have nothing : before = [] := by
        cases before with
        | nil => rfl
        | cons first others =>
            have isFirst : first ∈ (Text.trim text).head? := by
              rw [dropped, whole]
              rfl
            have visible := (Text.tight_trim nonempty).first first isFirst
            rw [blankBefore first List.mem_cons_self] at visible
            exact absurd visible Bool.noConfusion
      refine ⟨some ⟨after, blankAfter⟩, ?_⟩
      rw [nothing, List.nil_append] at whole
      rw [markerText, ← List.append_assoc, ← whole]
      exact dropped

/-- **A text that is taken for a reference** is an address with or without an array marker, and
white space around it. -/
theorem exists_leaf_of_isReference (isRef : isReference .standard text = true) :
    ∃ (leaf : Leaf) (marker : Option Blank), Text.trim text = leaf.text ++ markerText marker
      ∧ ∃ ref, leaf.type marker.isSome = .reference ref := by
  obtain ⟨leaf, isText, denotes⟩ := exists_leaf_of_isAddress (Bool.or_eq_true_iff.mp isRef)
  obtain ⟨marker, whole⟩ := exists_marker text
  rw [← isText] at whole
  exact ⟨leaf, marker, whole, denotes marker.isSome⟩

/-! ## The readers -/

theorem ofLeaf_trim (scheme : Scheme) (text : Text) :
    ofLeaf scheme (Text.trim text) = ofLeaf scheme text := by
  rw [ofLeaf_eq_readStem, ofLeaf_eq_readStem, Text.trim_trim]

theorem parse_trim (scheme : Scheme) (text : Text) :
    parse scheme (Text.trim text) = parse scheme text := by
  rw [parse_eq, parse_eq, termTokens, termTokens, Text.trim_trim]

/-- Only an address is read as a reference. -/
theorem isAddress_of_readStem {whole stem : Text} {isArray : Bool} {ref : Ref}
    (isRead : readStem .standard whole stem isArray = .reference ref) :
    Address.isNamespace stem = true ∨ ∃ column, ColumnUri.read stem = .ok column := by
  unfold readStem at isRead
  split at isRead
  case h_1 => exact ColumnType.noConfusion isRead
  case h_2 =>
    split at isRead
    case isTrue isNamespace => exact .inl isNamespace
    case isFalse =>
      split at isRead
      case h_1 column isColumn => exact .inr ⟨column, isColumn⟩
      case h_2 =>
        split at isRead
        case isTrue =>
          have none := references_ofLiterals whole
          rw [isRead] at none
          exact absurd none (List.cons_ne_nil ref [])
        case isFalse => exact ColumnType.noConfusion isRead

/-- The test and the reader of leaves drop the same marker, except from an empty group. -/
theorem stem_eq_of_not_emptyGroup (noGroup : Text.trim text ≠ "()[]".toList) :
    (if hasArrayMark (Text.trim text) then Text.trim (dropArrayMark (Text.trim text))
        else Text.trim text)
      = Text.trim (dropArrayMark (Text.trim text)) := by
  split
  case isTrue => rfl
  case isFalse unmarked =>
    have kept : dropArrayMark (Text.trim text) = Text.trim text := by
      cases dropArrayMark_cases (Text.trim text) with
      | inl kept => exact kept
      | inr dropped =>
          refine absurd ?_ unmarked
          rw [hasArrayMark, Text.trim_trim, decide_eq_true noGroup, Bool.true_and,
            List.isSuffixOf_iff_suffix]
          exact ⟨_, dropped.symm⟩
    rw [kept, Text.trim_trim]

theorem isReference_of_ofLeaf {ref : Ref} (isRead : ofLeaf .standard text = .reference ref) :
    isReference .standard text = true := by
  by_cases isGroup : Text.trim text = "()[]".toList
  · have noReference : ofLeaf .standard "()[]".toList = .unknown "()[]".toList false := by decide
    rw [← ofLeaf_trim, isGroup, noReference] at isRead
    exact ColumnType.noConfusion isRead
  · rw [ofLeaf_eq_readStem, stem_eq_of_not_emptyGroup isGroup] at isRead
    split at isRead
    case isTrue => exact ColumnType.noConfusion isRead
    case isFalse =>
      rw [isReference, Bool.or_eq_true_iff]
      cases isAddress_of_readStem isRead with
      | inl isNamespace => exact .inl isNamespace
      | inr isColumn =>
          refine .inr (Address.isColumn_iff.mpr ?_)
          have isText := Address.exists_readColumn_iff.mp isColumn
          rwa [Text.trim_trim] at isText

/-- A text that is taken for a reference is read as one, alone or as an expression. -/
theorem parse_eq_ofLeaf_of_isReference (isRef : isReference .standard text = true) :
    (∃ ref, ofLeaf .standard text = .reference ref)
      ∧ parse .standard text = ofLeaf .standard text := by
  obtain ⟨leaf, marker, whole, denotes⟩ := exists_leaf_of_isReference isRef
  have asLeaf : ofLeaf .standard text = leaf.type marker.isSome := by
    rw [← ofLeaf_trim, whole, leaf.ofLeaf_append]
  have asTerm : parse .standard text = leaf.type marker.isSome := by
    rw [← parse_trim, whole]
    exact (Term.leaf leaf marker).parse_text
  rw [asTerm, asLeaf]
  exact ⟨denotes, rfl⟩

/-! ## Following what was read -/

/-- A reference that can be followed: it is unresolved, and it leads to the column that its
selector names or to a whole namespace. -/
structure Followable (ref : Ref) : Prop where
  unresolved : ref.typename = [] ∧ ref.columns = []
  followed : ∃ owner, Loader.destination .standard ref = .ok (owner, ref.selector)
  addressed :
    (ref.scope = .whole ∧ ref.selector = none ∧ ∃ uri, NamespaceUri.read ref.uri = .ok uri)
    ∨ (ref.scope = .column
      ∧ ∃ column, ColumnUri.read ref.uri = .ok column ∧ ref.selector = some column.selector)

theorem followable_of_isStub {ref : Ref} (stub : IsStub .standard ref) : Followable ref := by
  have unresolved := And.intro stub.typename_eq_nil stub.columns_eq_nil
  cases stub with
  | @toNamespace uri isArray isNamespace =>
      have isRead : NamespaceUri.read uri = .ok ⟨uri, isNamespace⟩ :=
        Address.readNamespace_eq_ok_iff.mpr (Address.trim_of_isNamespace isNamespace).symm
      refine ⟨unresolved, ⟨⟨uri, isNamespace⟩, ?_⟩, .inl ⟨rfl, rfl, _, isRead⟩⟩
      exact congrArg (Except.map fun owner => (owner, none)) isRead
  | @toColumn uri column isArray _ isRead =>
      refine ⟨unresolved, ⟨column.owner, ?_⟩, .inr ⟨rfl, column, isRead, rfl⟩⟩
      exact congrArg (Except.map fun column => (column.owner, some column.selector)) isRead

end Grammar

end Typesheet

import Typesheet.ColumnType.Parse

/-!
Contract: the references of a type that was read from an expression.

Owns: the references of lists of types, what changing the references of a type
comes to, and the form of every reference that reading yields.  It is unresolved,
and its scope and its selector are those that the scheme gives its address, so two
references of one type to the same address differ in their array flags at most.
-/

set_option autoImplicit false

namespace Typesheet.ColumnType

open Expression

/-! ## References of lists of types -/

theorem referencesAll_eq_flatMap : ∀ types : List ColumnType,
    referencesAll types = types.flatMap references
  | [] => rfl
  | type :: rest => by
      rw [referencesAll, referencesAll_eq_flatMap rest, List.flatMap_cons]

mutual

theorem references_mapReferences (change : Ref → Ref) : ∀ type : ColumnType,
    (type.mapReferences change).references = type.references.map change
  | .reference _ => rfl
  | .union _ members _ => referencesAll_mapReferencesAll change members
  | .keyword .. => rfl
  | .literal .. => rfl
  | .unknown .. => rfl

theorem referencesAll_mapReferencesAll (change : Ref → Ref) : ∀ types : List ColumnType,
    referencesAll (mapReferencesAll change types) = (referencesAll types).map change
  | [] => rfl
  | type :: rest => by
      rw [mapReferencesAll, referencesAll, referencesAll, List.map_append,
        references_mapReferences change type, referencesAll_mapReferencesAll change rest]

end

mutual

/-- Two changes one after the other are one change of every reference. -/
theorem mapReferences_mapReferences (change before : Ref → Ref) : ∀ type : ColumnType,
    (type.mapReferences before).mapReferences change
      = type.mapReferences fun ref => change (before ref)
  | .reference _ => rfl
  | .union name members isArray =>
      congrArg (ColumnType.union name · isArray)
        (mapReferencesAll_mapReferencesAll change before members)
  | .keyword .. => rfl
  | .literal .. => rfl
  | .unknown .. => rfl

theorem mapReferencesAll_mapReferencesAll (change before : Ref → Ref) :
    ∀ types : List ColumnType,
      mapReferencesAll change (mapReferencesAll before types)
        = mapReferencesAll (fun ref => change (before ref)) types
  | [] => rfl
  | type :: rest => by
      rw [mapReferencesAll, mapReferencesAll, mapReferencesAll,
        mapReferences_mapReferences change before type,
        mapReferencesAll_mapReferencesAll change before rest]

end

mutual

/-- A change that leaves the references of a type as they are leaves the type as it is. -/
theorem mapReferences_eq_self {change : Ref → Ref} : ∀ {type : ColumnType},
    (∀ ref ∈ type.references, change ref = ref) → type.mapReferences change = type
  | .reference ref, fixed =>
      congrArg ColumnType.reference (fixed ref (List.mem_singleton_self ref))
  | .union name _ isArray, fixed =>
      congrArg (ColumnType.union name · isArray) (mapReferencesAll_eq_self fixed)
  | .keyword .., _ => rfl
  | .literal .., _ => rfl
  | .unknown .., _ => rfl

theorem mapReferencesAll_eq_self {change : Ref → Ref} : ∀ {types : List ColumnType},
    (∀ ref ∈ referencesAll types, change ref = ref) → mapReferencesAll change types = types
  | [], _ => rfl
  | type :: rest, fixed => by
      have ofFirst : ∀ ref ∈ type.references, change ref = ref :=
        fun ref member => fixed ref (List.mem_append_left _ member)
      have ofRest : ∀ ref ∈ referencesAll rest, change ref = ref :=
        fun ref member => fixed ref (List.mem_append_right _ member)
      rw [mapReferencesAll, mapReferences_eq_self ofFirst, mapReferencesAll_eq_self ofRest]

end

theorem references_ofMembers (types : List ColumnType) :
    (ofMembers types).references = types.flatMap references := by
  rcases types with _ | ⟨first, _ | ⟨second, rest⟩⟩
  · rfl
  · simp [ofMembers]
  · exact referencesAll_eq_flatMap _

/-- Making an array of a group sets the flag of a lone reference and leaves the
references of a union as they are. -/
theorem mem_references_arrayOfGroup {type : ColumnType} {ref : Ref}
    (member : ref ∈ (arrayOfGroup type).references) :
    ∃ original ∈ type.references, ref = { original with isArray := ref.isArray } := by
  cases type with
  | union name members isArray => exact ⟨ref, member, rfl⟩
  | reference original =>
      rw [List.mem_singleton.mp member]
      exact ⟨original, List.mem_singleton_self original, rfl⟩
  | keyword word isArray => exact absurd member List.not_mem_nil
  | literal text isArray => exact absurd member List.not_mem_nil
  | unknown text isArray => exact absurd member List.not_mem_nil

/-! ## The references that reading yields -/

/-- An unresolved reference of the scope that its address has under the scheme. -/
inductive IsStub (scheme : Scheme) : Ref → Prop where
  | toNamespace {uri : Text} {isArray : Bool} (isNamespace : scheme.isNamespace uri = true) :
      IsStub scheme (.toNamespace uri isArray)
  | toColumn {uri : Text} {column : ColumnUri} {isArray : Bool}
      (isColumn : scheme.isNamespace uri = false) (read : scheme.readColumn uri = .ok column) :
      IsStub scheme (.toColumn uri column.selector isArray)

namespace IsStub

variable {scheme : Scheme} {ref other : Ref}

theorem withArray (stub : IsStub scheme ref) (isArray : Bool) :
    IsStub scheme { ref with isArray } := by
  cases stub with
  | toNamespace isNamespace => exact .toNamespace isNamespace
  | toColumn isColumn read => exact .toColumn isColumn read

theorem typename_eq_nil (stub : IsStub scheme ref) : ref.typename = [] := by
  cases stub <;> rfl

theorem columns_eq_nil (stub : IsStub scheme ref) : ref.columns = [] := by
  cases stub <;> rfl

theorem scope_eq (stub : IsStub scheme ref) :
    ref.scope = if scheme.isNamespace ref.uri then .whole else .column := by
  cases stub with
  | toNamespace isNamespace => exact (if_pos isNamespace).symm
  | toColumn isColumn read => exact (if_neg (ne_true_of_eq_false isColumn)).symm

end IsStub

theorem references_ofLiterals (text : Text) : (ofLiterals text).references = [] := by
  have piece (text : Text) : (ofLiteral text).references = [] := by
    unfold ofLiteral
    split <;> rfl
  unfold ofLiterals
  split
  case h_1 only single =>
    have member : only ∈ (Token.texts text).map ofLiteral := by
      rw [single]
      exact List.mem_singleton_self only
    obtain ⟨token, _, rfl⟩ := List.mem_map.mp member
    exact piece token
  case h_2 =>
    rw [references, referencesAll_eq_flatMap, List.flatMap_map]
    simp only [piece, List.flatMap_eq_nil_iff, implies_true]

theorem isStub_of_mem_references_ofLeaf {scheme : Scheme} {text : Text} {ref : Ref}
    (member : ref ∈ (ofLeaf scheme text).references) : IsStub scheme ref := by
  unfold ofLeaf at member
  extract_lets trimmed isArray base at member
  by_cases isEmpty : trimmed = []
  · simp [isEmpty, references] at member
  · simp only [isEmpty, ↓reduceIte] at member
    cases keyword : Keyword.ofName? base with
    | some word => simp [keyword, references] at member
    | none =>
        simp only [keyword] at member
        cases isNamespace : scheme.isNamespace base with
        | true =>
            simp only [isNamespace, ↓reduceIte, references, List.mem_singleton] at member
            subst member
            exact .toNamespace isNamespace
        | false =>
            simp only [isNamespace, Bool.false_eq_true, ↓reduceIte] at member
            cases read : scheme.readColumn base with
            | ok column =>
                simp only [read, references, List.mem_singleton] at member
                subst member
                exact .toColumn isNamespace read
            | error error =>
                simp only [read] at member
                split at member
                · rw [references_ofLiterals] at member
                  exact absurd member List.not_mem_nil
                · exact absurd member List.not_mem_nil

/-- **Every reference that reading yields is a stub**, however deep in groups and
unions it stands. -/
theorem isStub_of_mem_references_parse (scheme : Scheme) (text : Text) :
    ∀ ref ∈ (parse scheme text).references, IsStub scheme ref := by
  induction size : text.length using Nat.strongRecOn generalizing text with
  | ind size inductionHypothesis =>
      subst size
      intro ref member
      rw [parse_eq, references_ofMembers, List.flatMap_map, List.mem_flatMap] at member
      obtain ⟨token, isTerm, inToken⟩ := member
      unfold ofToken at inToken
      cases shape : token.shape with
      | plain =>
          rw [shape] at inToken
          exact isStub_of_mem_references_ofLeaf inToken
      | group inner =>
          rw [shape] at inToken
          have shorter := length_inner_lt_of_mem_termTokens isTerm (.inl shape)
          exact inductionHypothesis _ shorter inner rfl ref inToken
      | groupArray inner =>
          rw [shape] at inToken
          have shorter := length_inner_lt_of_mem_termTokens isTerm (.inr shape)
          by_cases isBlank : Text.isBlankText inner = true
          · simp only [isBlank, ↓reduceIte] at inToken
            exact absurd inToken List.not_mem_nil
          · simp only [isBlank, Bool.false_eq_true, ↓reduceIte] at inToken
            obtain ⟨original, inInner, same⟩ := mem_references_arrayOfGroup inToken
            rw [same]
            exact (inductionHypothesis _ shorter inner rfl original inInner).withArray _

end Typesheet.ColumnType

import Typesheet.Proofs.Address.Reader
import Typesheet.Proofs.Text.Trim

/-!
Contract: the grammar of addresses as a language.

Owns: the texts of the grammar, given by how they are put together and not by how they are
recognized; and the agreement of everything that looks at addresses with that grammar: the two
tests, the readers that take a text from the left, reading a checked address with white space
around it, and adding a missing marker.
-/

set_option autoImplicit false

namespace Typesheet

namespace Address

/-! ## The language -/

/-- An ASCII letter. -/
def IsLetter (character : Char) : Prop :=
  ('a' ≤ character ∧ character ≤ 'z') ∨ ('A' ≤ character ∧ character ≤ 'Z')

def IsSign (character : Char) : Prop :=
  IsLetter character ∨ ('0' ≤ character ∧ character ≤ '9') ∨ character = '_' ∨ character = '-'

def SegmentText (text : Text) : Prop :=
  text ≠ [] ∧ ∀ character ∈ text, IsSign character

/-- Segments with a single slash between each two. -/
inductive IdText : Text → Prop
  | segment {text : Text} (isSegment : SegmentText text) : IdText text
  | slash {first rest : Text} (isSegment : SegmentText first) (isRest : IdText rest) :
      IdText (first ++ '/' :: rest)

def NamespaceText (text : Text) : Prop :=
  ∃ id, IdText id ∧ text = "ns:".toList ++ id

inductive SelectorText : Text → Prop
  | cons {first : Char} {rest : Text} (starts : IsLetter first ∨ first = '_')
      (signs : ∀ character ∈ rest, IsSign character) : SelectorText (first :: rest)

/-- The text is a column address, put together from an owner and a selector. -/
structure ColumnText (owner selector text : Text) : Prop where
  isOwner : NamespaceText owner
  isSelector : SelectorText selector
  whole : text = owner ++ '.' :: selector

variable {text owner selector other name : Text} {character separator : Char}

/-! ## The tests -/

theorem isAlpha_iff : character.isAlpha = true ↔ IsLetter character := by
  delta Char.isAlpha Char.isUpper Char.isLower
  rw [Bool.or_eq_true, IsLetter, or_comm]
  simp only [Bool.and_eq_true, decide_eq_true_eq, ge_iff_le, Char.le_def]

theorem isSegmentChar_iff : isSegmentChar character = true ↔ IsSign character := by
  rw [isSegmentChar, IsSign]
  delta Char.isAlphanum Char.isDigit
  simp only [Bool.or_eq_true, isAlpha_iff, Bool.and_eq_true, decide_eq_true_eq, ge_iff_le,
    Char.le_def, or_assoc]

theorem isSegment_iff_segmentText : isSegment text = true ↔ SegmentText text := by
  rw [Reader.isSegment_iff, SegmentText]
  simp only [isSegmentChar_iff]

theorem isId_iff_idText : isId text = true ↔ IdText text := by
  rw [Reader.isId_iff_exists_slashed]
  constructor
  · intro ⟨first, pieces, isFirst, arePieces, whole⟩
    induction pieces generalizing first text with
    | nil =>
        rw [whole, Reader.slashed, List.flatMap_nil, List.append_nil]
        exact .segment (isSegment_iff_segmentText.mp isFirst)
    | cons next others inductionHypothesis =>
        have later := List.forall_mem_cons.mp arePieces
        rw [whole]
        exact .slash (isSegment_iff_segmentText.mp isFirst)
          (inductionHypothesis next later.1 later.2 rfl)
  · intro isText
    induction isText with
    | segment isSegment =>
        exact ⟨_, [], isSegment_iff_segmentText.mpr isSegment, List.forall_mem_nil _,
          (List.append_nil _).symm⟩
    | slash isSegment _ inductionHypothesis =>
        obtain ⟨next, others, isNext, areOthers, rfl⟩ := inductionHypothesis
        exact ⟨_, next :: others, isSegment_iff_segmentText.mpr isSegment,
          List.forall_mem_cons.mpr ⟨isNext, areOthers⟩, rfl⟩

theorem isNamespace_iff : isNamespace text = true ↔ NamespaceText text := by
  constructor
  · intro address
    obtain ⟨id, isId, whole⟩ := exists_id_of_isNamespace address
    exact ⟨id, isId_iff_idText.mp isId, whole⟩
  · intro ⟨id, isText, whole⟩
    rw [whole]
    exact (Reader.isNamespace_marker_append id).trans (isId_iff_idText.mpr isText)

theorem isSelector_iff : isSelector text = true ↔ SelectorText text := by
  cases text with
  | nil => exact ⟨fun isName => absurd isName Bool.false_ne_true, nofun⟩
  | cons first rest =>
      rw [Reader.isSelector_cons, Bool.or_eq_true, isAlpha_iff, decide_eq_true_eq]
      simp only [isSegmentChar_iff]
      constructor
      · intro ⟨starts, signs⟩
        exact .cons starts signs
      · intro isText
        cases isText with
        | cons starts signs => exact ⟨starts, signs⟩

/-- What is cut out of a text stands around the separator. -/
theorem eq_of_cutAt (found : cutAt separator text = some (owner, selector)) :
    text = owner ++ separator :: selector := by
  induction text generalizing owner with
  | nil => exact absurd found (by simp [cutAt])
  | cons first rest inductionHypothesis =>
      rw [cutAt] at found
      split at found
      case isTrue same =>
        cases found
        rw [same]
        rfl
      case isFalse =>
        obtain ⟨pieces, isCut, same⟩ := Option.map_eq_some_iff.mp found
        cases same
        rw [inductionHypothesis isCut]
        rfl

/-- A column address is cut into its owner and its selector. -/
theorem cutAt_of_columnText (isColumn : ColumnText owner selector text) :
    cutAt '.' text = some (owner, selector) := by
  rw [isColumn.whole]
  apply cutAt_append
  intro member
  exact (isAddressChar_of_isNamespace (isNamespace_iff.mpr isColumn.isOwner) member).2 rfl

theorem isColumn_iff : isColumn text = true ↔ ∃ owner selector, ColumnText owner selector text := by
  constructor
  · intro address
    rw [isColumn] at address
    split at address
    case h_1 owner selector found =>
      have both := Bool.and_eq_true_iff.mp address
      exact ⟨owner, selector, isNamespace_iff.mp both.1, isSelector_iff.mp both.2,
        eq_of_cutAt found⟩
    case h_2 => exact absurd address Bool.false_ne_true
  · intro ⟨owner, selector, isText⟩
    rw [isColumn, cutAt_of_columnText isText]
    exact Bool.and_eq_true_iff.mpr
      ⟨isNamespace_iff.mpr isText.isOwner, isSelector_iff.mpr isText.isSelector⟩

/-- A column address holds a dot, which no namespace address does. -/
theorem not_isColumn_of_isNamespace (address : isNamespace text = true) :
    ¬ isColumn text = true := by
  intro column
  obtain ⟨owner, selector, isText⟩ := isColumn_iff.mp column
  have dot : '.' ∈ text := by
    rw [isText.whole]
    exact List.mem_append_right owner List.mem_cons_self
  exact (isAddressChar_of_isNamespace address dot).2 rfl

theorem ColumnText.unique (isText : ColumnText owner selector text)
    (isOther : ColumnText other name text) : owner = other ∧ selector = name := by
  have same := (cutAt_of_columnText isText).symm.trans (cutAt_of_columnText isOther)
  cases same
  exact ⟨rfl, rfl⟩

/-! ## Checked addresses -/

/-- A namespace address is read exactly where the trimmed text is one, as that text. -/
theorem readNamespace_eq_ok_iff {uri : NamespaceUri} :
    NamespaceUri.read text = .ok uri ↔ uri.text = Text.trim text := by
  constructor
  · intro isRead
    simp only [NamespaceUri.read] at isRead
    split at isRead
    case isTrue => cases isRead
    case isFalse =>
      split at isRead
      case isTrue => cases isRead
      case isFalse =>
        split at isRead
        case isTrue => cases isRead; rfl
        case isFalse => cases isRead
  · intro same
    have wellFormed := uri.wellFormed
    rw [same] at wellFormed
    obtain ⟨id, isId, whole⟩ := exists_id_of_isNamespace wellFormed
    have hasId : ¬ (Text.trim text = [] ∨ Text.trim text = marker) := by
      intro bare
      cases bare with
      | inl nothing => rw [nothing] at wellFormed; exact absurd wellFormed (by decide)
      | inr isMarker => rw [isMarker] at wellFormed; exact absurd wellFormed (by decide)
    have marked : ¬ marker.isPrefixOf (Text.trim text) = false := by
      rw [Bool.not_eq_false, List.isPrefixOf_iff_prefix]
      exact ⟨id, whole.symm⟩
    simp only [NamespaceUri.read, if_neg hasId, if_neg marked, dif_pos wellFormed]
    cases uri
    cases same
    rfl

/-- A column address is read exactly where the trimmed text is one, as what that text is put
together from. -/
theorem readColumn_eq_ok_iff {uri : ColumnUri} :
    ColumnUri.read text = .ok uri ↔ ColumnText uri.owner.text uri.selector (Text.trim text) := by
  constructor
  · intro isRead
    simp only [ColumnUri.read] at isRead
    split at isRead
    case h_1 owner selector found =>
      split at isRead
      case isTrue isOwner =>
        split at isRead
        case isTrue isName =>
          cases isRead
          exact ⟨isNamespace_iff.mp isOwner, isSelector_iff.mp isName, eq_of_cutAt found⟩
        case isFalse => cases isRead
      case isFalse => cases isRead
    case h_2 => cases isRead
  · intro isText
    simp only [ColumnUri.read, cutAt_of_columnText isText, dif_pos uri.owner.wellFormed,
      if_pos (isSelector_iff.mpr isText.isSelector)]

/-! No character of an address is blank, so trimming leaves addresses as they are. -/

theorem trim_of_isAddressChar (nonempty : text ≠ [])
    (letters : ∀ character ∈ text, isAddressChar character = true) : Text.trim text = text := by
  apply (Text.Tight.of_forall nonempty _).trim_eq
  intro character member
  exact not_isBlank_of_isAddressChar (letters character member)

theorem trim_of_isNamespace (address : isNamespace text = true) : Text.trim text = text := by
  apply trim_of_isAddressChar
  · intro nothing
    rw [nothing] at address
    exact absurd address (by decide)
  · exact fun character member => (isAddressChar_of_isNamespace address member).1

theorem ColumnText.trim_eq (isText : ColumnText owner selector text) : Text.trim text = text := by
  rw [isText.whole]
  apply trim_of_isAddressChar
  · exact List.append_ne_nil_of_right_ne_nil owner (List.cons_ne_nil '.' selector)
  · intro character member
    cases List.mem_append.mp member with
    | inl inOwner =>
        exact (isAddressChar_of_isNamespace (isNamespace_iff.mpr isText.isOwner) inOwner).1
    | inr behind =>
        cases List.mem_cons.mp behind with
        | inl isDot => rw [isDot]; decide
        | inr inSelector =>
            exact isAddressChar_of_isSelector (isSelector_iff.mpr isText.isSelector) inSelector

/-- Reading takes back the owner and the selector that an address was put together from. -/
theorem readColumn_append (owner : NamespaceUri) (isName : SelectorText selector) :
    ColumnUri.read (owner.text ++ '.' :: selector) = .ok ⟨owner, selector⟩ := by
  have isText : ColumnText owner.text selector (owner.text ++ '.' :: selector) :=
    ⟨isNamespace_iff.mp owner.wellFormed, isName, rfl⟩
  rw [readColumn_eq_ok_iff, isText.trim_eq]
  exact isText

theorem exists_readNamespace_iff :
    (∃ uri, NamespaceUri.read text = .ok uri) ↔ NamespaceText (Text.trim text) := by
  rw [← isNamespace_iff]
  constructor
  · intro ⟨uri, isRead⟩
    rw [← readNamespace_eq_ok_iff.mp isRead]
    exact uri.wellFormed
  · intro address
    exact ⟨⟨Text.trim text, address⟩, readNamespace_eq_ok_iff.mpr rfl⟩

theorem exists_readColumn_iff :
    (∃ uri, ColumnUri.read text = .ok uri)
      ↔ ∃ owner selector, ColumnText owner selector (Text.trim text) := by
  constructor
  · intro ⟨uri, isRead⟩
    exact ⟨uri.owner.text, uri.selector, readColumn_eq_ok_iff.mp isRead⟩
  · intro ⟨owner, selector, isText⟩
    exact ⟨⟨⟨owner, isNamespace_iff.mpr isText.isOwner⟩, selector⟩,
      readColumn_eq_ok_iff.mpr isText⟩

/-! ## A missing marker -/

/-- The id that a text stands for: the trimmed text without the marker it may start with. -/
def idOf (text : Text) : Text :=
  (marker.isPrefixOf? (Text.trim text)).getD (Text.trim text)

theorem normalize_eq (text : Text) : normalize text = marker ++ idOf text := by
  rw [normalize, idOf]
  cases found : marker.isPrefixOf? (Text.trim text) with
  | none =>
      have bare : ¬ marker.isPrefixOf (Text.trim text) = true := by
        intro marked
        obtain ⟨id, whole⟩ := List.isPrefixOf_iff_prefix.mp marked
        rw [List.isPrefixOf?_eq_some_iff_append_eq.mpr whole] at found
        cases found
      simp only [if_neg bare, Option.getD_none]
  | some id =>
      have whole := List.isPrefixOf?_eq_some_iff_append_eq.mp found
      have marked : marker.isPrefixOf (Text.trim text) = true :=
        List.isPrefixOf_iff_prefix.mpr ⟨id, whole⟩
      simp only [if_pos marked, Option.getD_some, whole]

theorem trim_normalize (text : Text) : Text.trim (normalize text) = normalize text := by
  have isTight : Text.Tight marker :=
    (Text.tight_singleton rfl).append ['s'] (Text.tight_singleton rfl)
  rw [normalize]
  split
  case isTrue => exact Text.trim_trim text
  case isFalse =>
    rw [isTight.trim_append, Text.trimEnd_eq_self]
    intro character isLast
    have nonempty : Text.trim text ≠ [] := List.ne_nil_of_mem (List.mem_of_getLast? isLast)
    exact (Text.tight_trim nonempty).last character isLast

theorem normalize_normalize (text : Text) : normalize (normalize text) = normalize text := by
  have marked : marker.isPrefixOf (normalize text) = true := by
    rw [List.isPrefixOf_iff_prefix, normalize_eq]
    exact List.prefix_append marker (idOf text)
  rw [normalize, trim_normalize, if_pos marked]

theorem isNamespace_normalize_iff : isNamespace (normalize text) = true ↔ IdText (idOf text) := by
  rw [normalize_eq, Reader.isNamespace_marker_append, isId_iff_idText]

/-! ## All that looks at addresses -/

/-- **Everything that looks at addresses follows their grammar.**  The two tests accept its texts
and no others, and never the same text.  Taking a text from the left, as much as there is at each
step, finds the same addresses and parts a column address in the same way.  Reading succeeds
exactly where the trimmed text is in the grammar: a namespace is read as that text, a column as
the only owner and selector that the text is put together from, and putting these together and
reading again gives them back.  Normalizing twice is normalizing once, and it gives an address
exactly where the trimmed text is an id, with a marker in front or without. -/
theorem addresses_follow_grammar (text : Text) :
    ((isNamespace text = true ↔ NamespaceText text)
      ∧ (isColumn text = true ↔ ∃ owner selector, ColumnText owner selector text)
      ∧ ¬ (isNamespace text = true ∧ isColumn text = true))
    ∧ ((Reader.namespaceUri.read text = some (text, []) ↔ NamespaceText text)
      ∧ ∀ owner selector,
        Reader.readColumn text = some (owner, selector) ↔ ColumnText owner selector text)
    ∧ (((∃ uri, NamespaceUri.read text = .ok uri) ↔ NamespaceText (Text.trim text))
      ∧ ∀ uri, NamespaceUri.read text = .ok uri → uri.text = Text.trim text)
    ∧ (((∃ uri, ColumnUri.read text = .ok uri)
        ↔ ∃ owner selector, ColumnText owner selector (Text.trim text))
      ∧ (∀ uri, ColumnUri.read text = .ok uri →
        ColumnText uri.owner.text uri.selector (Text.trim text)
          ∧ ∀ owner selector, ColumnText owner selector (Text.trim text) →
            owner = uri.owner.text ∧ selector = uri.selector)
      ∧ ∀ (owner : NamespaceUri) (selector : Text), SelectorText selector →
        ColumnUri.read (owner.text ++ '.' :: selector) = .ok ⟨owner, selector⟩)
    ∧ (normalize (normalize text) = normalize text
      ∧ (isNamespace (normalize text) = true ↔ IdText (idOf text))) := by
  refine ⟨⟨isNamespace_iff, isColumn_iff, ?_⟩, ⟨?_, ?_⟩, ⟨exists_readNamespace_iff, ?_⟩,
    ⟨exists_readColumn_iff, ?_, ?_⟩, normalize_normalize text, isNamespace_normalize_iff⟩
  · intro both
    exact not_isColumn_of_isNamespace both.1 both.2
  · rw [Reader.read_namespaceUri_eq_some_nil_iff, isNamespace_iff, and_iff_right rfl]
  · intro owner selector
    rw [Reader.readColumn_eq_some_iff, isNamespace_iff, isSelector_iff]
    exact ⟨fun parts => ⟨parts.1, parts.2.1, parts.2.2⟩,
      fun isText => ⟨isText.isOwner, isText.isSelector, isText.whole⟩⟩
  · exact fun uri => readNamespace_eq_ok_iff.mp
  · intro uri isRead
    have isText := readColumn_eq_ok_iff.mp isRead
    exact ⟨isText, fun owner selector isOther => isOther.unique isText⟩
  · exact fun owner selector => readColumn_append owner

end Address

end Typesheet

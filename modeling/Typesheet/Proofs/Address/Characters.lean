import Typesheet.Address.Uri
import Typesheet.Proofs.Expression.Passes

/-!
Contract: the characters that addresses are made of.

Owns: the characters of both address grammars, what the reader of type expressions does not
find among them, and where the first dot of a column address stands.
-/

set_option autoImplicit false

namespace Typesheet

namespace Address

/-- The characters of both kinds of addresses. -/
def isAddressChar (character : Char) : Bool :=
  isSegmentChar character || character = '/' || character = ':' || character = '.'

variable {text owner selector after : Text} {character separator : Char}

theorem ne_of_isAddressChar {other : Char} (isAddress : isAddressChar character = true)
    (foreign : isAddressChar other = false) : character ≠ other := by
  rintro rfl
  rw [foreign] at isAddress
  exact Bool.false_ne_true isAddress

theorem isAlphanum_of_isAlpha (isLetter : character.isAlpha = true) :
    character.isAlphanum = true :=
  Bool.or_eq_true_iff.mpr (.inl isLetter)

theorem isDigit_iff_toNat :
    character.isDigit = true ↔ 48 ≤ character.toNat ∧ character.toNat ≤ 57 := by
  delta Char.isDigit
  rw [Bool.and_eq_true, decide_eq_true_eq, decide_eq_true_eq]
  exact Iff.rfl

theorem isAlpha_iff_toNat :
    character.isAlpha = true ↔ (65 ≤ character.toNat ∧ character.toNat ≤ 90)
      ∨ (97 ≤ character.toNat ∧ character.toNat ≤ 122) := by
  delta Char.isAlpha Char.isUpper Char.isLower
  simp only [Bool.or_eq_true, Bool.and_eq_true, decide_eq_true_eq]
  exact Iff.rfl

theorem isAlphanum_iff_toNat :
    character.isAlphanum = true ↔ ((65 ≤ character.toNat ∧ character.toNat ≤ 90)
      ∨ (97 ≤ character.toNat ∧ character.toNat ≤ 122))
      ∨ (48 ≤ character.toNat ∧ character.toNat ≤ 57) := by
  rw [Char.isAlphanum, Bool.or_eq_true, isAlpha_iff_toNat, isDigit_iff_toNat]

theorem toNat_of_isAlphanum (isLetter : character.isAlphanum = true) :
    33 ≤ character.toNat ∧ character.toNat < 128 := by
  rw [isAlphanum_iff_toNat] at isLetter
  omega

/-- The white space of ASCII stands below its letters, digits and signs. -/
theorem not_isBlank_of_toNat (bounds : 33 ≤ character.toNat ∧ character.toNat < 128) :
    Text.isBlank character = false := by
  simp only [Text.isBlank, Text.blankRanges, List.any_cons, List.any_nil, Bool.or_false,
    Bool.or_eq_false_iff, Bool.and_eq_false_iff, decide_eq_false_iff_not]
  omega

theorem not_isBlank_of_isAddressChar (isAddress : isAddressChar character = true) :
    Text.isBlank character = false := by
  apply not_isBlank_of_toNat
  simp only [isAddressChar, isSegmentChar, Bool.or_eq_true, decide_eq_true_eq] at isAddress
  rcases isAddress with ((((isLetter | rfl) | rfl) | rfl) | rfl) | rfl
  · exact toNat_of_isAlphanum isLetter
  all_goals decide

/-- No address character means anything to the scan of a type expression. -/
theorem isOrdinary_of_isAddressChar (isAddress : isAddressChar character = true) :
    Expression.isOrdinary character = true := by
  have differs (other : Char) (foreign : isAddressChar other = false) : character ≠ other :=
    ne_of_isAddressChar isAddress foreign
  simp [Expression.isOrdinary, Expression.ScanState.isQuote, differs '\'' (by decide),
    differs '"' (by decide), differs '(' (by decide), differs ')' (by decide),
    differs '|' (by decide)]

/-! ## Namespace addresses -/

theorem mem_of_mem_intercalate :
    ∀ {pieces : List Text}, character ∈ [separator].intercalate pieces →
      character = separator ∨ ∃ piece ∈ pieces, character ∈ piece
  | [], member => absurd member List.not_mem_nil
  | [piece], member => by
      rw [List.intercalate_singleton] at member
      exact .inr ⟨piece, List.mem_singleton_self piece, member⟩
  | piece :: next :: rest, member => by
      rw [List.intercalate_cons_cons, List.append_assoc, List.mem_append, List.mem_append] at member
      rcases member with inPiece | isSeparator | later
      · exact .inr ⟨piece, List.mem_cons_self, inPiece⟩
      · exact .inl (List.mem_singleton.mp isSeparator)
      · rcases mem_of_mem_intercalate later with isSeparator | ⟨found, isPiece, inFound⟩
        · exact .inl isSeparator
        · exact .inr ⟨found, List.mem_cons_of_mem _ isPiece, inFound⟩

theorem isSegmentChar_or_slash_of_isId (isId : isId text = true) (member : character ∈ text) :
    isSegmentChar character = true ∨ character = '/' := by
  have pieces : ['/'].intercalate (text.splitOn '/') = text := List.intercalate_splitOn '/'
  rw [← pieces] at member
  rcases mem_of_mem_intercalate member with isSlash | ⟨segment, isPiece, inSegment⟩
  · exact .inr isSlash
  · have isSegment := List.all_eq_true.mp isId segment isPiece
    have letters := (Bool.and_eq_true_iff.mp isSegment).2
    exact .inl (List.all_eq_true.mp letters character inSegment)

/-- A namespace address is the marker with an id behind it. -/
theorem exists_id_of_isNamespace (isAddress : isNamespace text = true) :
    ∃ id, isId id = true ∧ text = marker ++ id := by
  unfold isNamespace at isAddress
  split at isAddress
  case h_1 id found => exact ⟨id, isAddress, (List.isPrefixOf?_eq_some_iff_append_eq.mp found).symm⟩
  case h_2 => exact absurd isAddress Bool.false_ne_true

/-- Every namespace address starts with the first letter of its marker. -/
theorem head?_of_isNamespace (isAddress : isNamespace text = true) : text.head? = some 'n' := by
  obtain ⟨id, -, rfl⟩ := exists_id_of_isNamespace isAddress
  rfl

/-- A namespace address holds address characters and no dot. -/
theorem isAddressChar_of_isNamespace (isAddress : isNamespace text = true)
    (member : character ∈ text) : isAddressChar character = true ∧ character ≠ '.' := by
  obtain ⟨id, isId, rfl⟩ := exists_id_of_isNamespace isAddress
  rcases List.mem_append.mp member with inMarker | inId
  · have letters : marker.all (fun letter => isAddressChar letter && letter ≠ '.') = true := by
      decide
    simpa using List.all_eq_true.mp letters character inMarker
  · rcases isSegmentChar_or_slash_of_isId isId inId with inSegment | rfl
    · refine ⟨by simp [isAddressChar, inSegment], ?_⟩
      rintro rfl
      exact absurd inSegment (by decide)
    · decide

/-! ## Column addresses -/

theorem isAddressChar_of_isSelector (isSelector : isSelector selector = true)
    (member : character ∈ selector) : isAddressChar character = true := by
  cases selector with
  | nil => exact absurd member List.not_mem_nil
  | cons first rest =>
      obtain ⟨isFirst, isRest⟩ := Bool.and_eq_true_iff.mp isSelector
      rcases List.mem_cons.mp member with rfl | later
      · rcases Bool.or_eq_true_iff.mp isFirst with isLetter | isLine
        · simp [isAddressChar, isSegmentChar, isAlphanum_of_isAlpha isLetter]
        · simp [isAddressChar, isSegmentChar, of_decide_eq_true isLine]
      · simp [isAddressChar, List.all_eq_true.mp isRest character later]

/-- A text is cut at the first separator. -/
theorem cutAt_append (outside : separator ∉ owner) (rest : Text) :
    cutAt separator (owner ++ separator :: rest) = some (owner, rest) := by
  induction owner with
  | nil => simp [cutAt]
  | cons first others inductionHypothesis =>
      have differs : first ≠ separator := fun same => outside (same ▸ List.mem_cons_self)
      have later := inductionHypothesis fun member => outside (List.mem_cons_of_mem _ member)
      simp [cutAt, differs, later]

/-- What stands before a cut starts like the text. -/
theorem head?_of_cutAt {first : Char} {rest : Text}
    (found : cutAt separator (first :: rest) = some (owner, after)) (differs : first ≠ separator) :
    owner.head? = some first := by
  rw [cutAt, if_neg differs, Option.map_eq_some_iff] at found
  obtain ⟨pieces, -, isOwner⟩ := found
  rw [← (Prod.mk.inj isOwner).1]
  rfl

end Address

end Typesheet

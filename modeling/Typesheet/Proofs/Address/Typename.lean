import Typesheet.Address.Typename
import Typesheet.Proofs.Address.Characters

/-!
Contract: the characters of the type names that addresses suggest.

Owns: capitals, what capitalizing leaves of a text, and that a suggested name is made of ASCII letters and
digits with at most a line in front, so that it holds no white space and no separator of paths.
-/

set_option autoImplicit false

namespace Typesheet.Address

variable {character : Char} {text uri : Text}

/-! ## Capitals -/

-- Only the whole of the library has lemmas on the case of letters, so the three needed stand here.
theorem toUpper_of_notSmall (notSmall : ¬ (97 ≤ character.toNat ∧ character.toNat ≤ 122)) :
    character.toUpper = character :=
  dif_neg notSmall

/-- A capital stands 32 below its small letter. -/
theorem toNat_toUpper_of_small (small : 97 ≤ character.toNat ∧ character.toNat ≤ 122) :
    character.toUpper.toNat = character.toNat - 32 := by
  have capital : character.toUpper.val = character.val + ('A'.val - 'a'.val) := by
    unfold Char.toUpper
    split
    case isTrue => rfl
    case isFalse notSmall => exact absurd small notSmall
  change character.toUpper.val.toNat = character.toNat - 32
  rw [capital, UInt32.toNat_add]
  change (character.toNat + 4294967264) % 4294967296 = character.toNat - 32
  omega

theorem toUpper_toUpper (character : Char) : character.toUpper.toUpper = character.toUpper := by
  by_cases small : 97 ≤ character.toNat ∧ character.toNat ≤ 122
  · apply toUpper_of_notSmall
    rw [toNat_toUpper_of_small small]
    omega
  · rw [toUpper_of_notSmall small, toUpper_of_notSmall small]

theorem isAlphanum_toUpper (character : Char) :
    character.toUpper.isAlphanum = character.isAlphanum := by
  by_cases small : 97 ≤ character.toNat ∧ character.toNat ≤ 122
  · rw [Bool.eq_iff_iff, isAlphanum_iff_toNat, isAlphanum_iff_toNat, toNat_toUpper_of_small small]
    omega
  · rw [toUpper_of_notSmall small]

/-! ## The characters of a suggested name -/

theorem isAlphanum_of_mem_capitalizeRuns {capital : Bool}
    (member : character ∈ capitalizeRuns capital text) : character.isAlphanum = true := by
  induction text generalizing capital with
  | nil => exact absurd member List.not_mem_nil
  | cons first rest inductionHypothesis =>
      rw [capitalizeRuns] at member
      split at member
      case isTrue isLetter =>
        cases List.mem_cons.mp member with
        | inl isFirst =>
            rw [isFirst]
            split
            case isTrue => exact (isAlphanum_toUpper first).trans isLetter
            case isFalse => exact isLetter
        | inr later => exact inductionHypothesis later
      case isFalse => exact inductionHypothesis member

/-- A suggested name holds segment characters only. -/
theorem isSegmentChar_of_mem_typename (member : character ∈ typename uri) :
    isSegmentChar character = true := by
  have ofLetter (isLetter : character.isAlphanum = true) : isSegmentChar character = true := by
    simp [isSegmentChar, isLetter]
  unfold typename at member
  split at member
  case h_1 =>
    have letters : fallbackTypename.all isSegmentChar = true := by decide
    exact List.all_eq_true.mp letters character member
  case h_2 first rest listed =>
    split at member
    case isTrue =>
      cases List.mem_cons.mp member with
      | inl isLine => rw [isLine]; decide
      | inr behind =>
          rw [← listed] at behind
          exact ofLetter (isAlphanum_of_mem_capitalizeRuns behind)
    case isFalse =>
      rw [← listed] at member
      exact ofLetter (isAlphanum_of_mem_capitalizeRuns member)

theorem tight_typename (uri : Text) : Text.Tight (typename uri) :=
  .of_forall (typename_ne_nil uri) fun _ member =>
    not_isBlank_of_isAddressChar (by simp [isAddressChar, isSegmentChar_of_mem_typename member])

end Typesheet.Address

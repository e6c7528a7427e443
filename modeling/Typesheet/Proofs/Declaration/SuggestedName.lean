import Typesheet.Proofs.Declaration.Identifier

/-!
Contract: the type name that an address suggests spells the id of the address.

Owns: how each letter and digit of an id stands in the suggested name, the runs of capitalized
letters and digits as a function of the characters in front of them, and the theorem that a
suggested name is an identifier which spells the id and suggests itself.

Capitalizing carries a flag from character to character.  The flag only says whether the character
before was a letter or digit, so what becomes of a character can be told from the two alone
(`capitalizeRuns_eq_filter`).  A run that is capitalized already stays as it is, and the underscore
in front of a digit is no letter, so a suggested name is read as a single run again.
-/

set_option autoImplicit false

namespace Typesheet

namespace Address

variable {previous character : Char} {text runs : Text}

/-! ## How a letter is spelled -/

/-- How a letter or digit is spelled behind another character: as it is when that is one too, and
as a capital otherwise. -/
def spelledBehind (previous character : Char) : Char :=
  if previous.isAlphanum then character else character.toUpper

theorem isAlphanum_spelledBehind :
    (spelledBehind previous character).isAlphanum = character.isAlphanum := by
  unfold spelledBehind
  split
  case isTrue => rfl
  case isFalse => exact isAlphanum_toUpper character

theorem toUpper_spelledBehind :
    (spelledBehind previous character).toUpper = character.toUpper := by
  unfold spelledBehind
  split
  case isTrue => rfl
  case isFalse => exact toUpper_toUpper character

/-! ## Capitalized runs -/

/-- **Capitalizing looks one character back.** -/
theorem capitalizeRuns_eq_filter (previous : Char) (text : Text) :
    capitalizeRuns (!previous.isAlphanum) text
      = (List.zipWith spelledBehind (previous :: text) text).filter Char.isAlphanum := by
  induction text generalizing previous with
  | nil => rfl
  | cons character rest inductionHypothesis =>
      rw [capitalizeRuns, List.zipWith_cons_cons, List.filter_cons, isAlphanum_spelledBehind,
        ← inductionHypothesis character]
      cases isLetter : character.isAlphanum with
      | true =>
          have spelled : (if (!previous.isAlphanum) = true then character.toUpper else character)
              = spelledBehind previous character := by
            unfold spelledBehind
            cases previous.isAlphanum <;> rfl
          rw [spelled]
          rfl
      | false => rfl

/-- Letter case apart, capitalizing keeps the letters and digits as they are. -/
theorem map_toUpper_filter_zipWith (previous : Char) (text : Text) :
    ((List.zipWith spelledBehind (previous :: text) text).filter Char.isAlphanum).map Char.toUpper
      = (text.filter Char.isAlphanum).map Char.toUpper := by
  induction text generalizing previous with
  | nil => rfl
  | cons character rest inductionHypothesis =>
      rw [List.zipWith_cons_cons, List.filter_cons, List.filter_cons, isAlphanum_spelledBehind]
      cases character.isAlphanum with
      | true =>
          simp only [↓reduceIte, List.map_cons, toUpper_spelledBehind]
          rw [inductionHypothesis character]
      | false => exact inductionHypothesis character

theorem capitalizeRuns_eq_nil_iff {capital : Bool} :
    capitalizeRuns capital text = [] ↔ text.any Char.isAlphanum = false := by
  induction text generalizing capital with
  | nil => exact iff_of_true rfl rfl
  | cons character rest inductionHypothesis =>
      rw [capitalizeRuns, List.any_cons]
      cases character.isAlphanum with
      | true => simp
      | false => exact inductionHypothesis

theorem capitalizeRuns_of_letters (letters : ∀ character ∈ text, character.isAlphanum = true) :
    capitalizeRuns false text = text := by
  induction text with
  | nil => rfl
  | cons first rest inductionHypothesis =>
      obtain ⟨isLetter, others⟩ := List.forall_mem_cons.mp letters
      rw [capitalizeRuns, if_pos isLetter, inductionHypothesis others]
      rfl

/-- What is capitalized is a single run that starts with a capital, and stays as it is. -/
theorem capitalizeRuns_capitalizeRuns (text : Text) :
    capitalizeRuns true (capitalizeRuns true text) = capitalizeRuns true text := by
  induction text with
  | nil => rfl
  | cons first rest inductionHypothesis =>
      cases isLetter : first.isAlphanum with
      | true =>
          have others : capitalizeRuns false (capitalizeRuns false rest)
              = capitalizeRuns false rest :=
            capitalizeRuns_of_letters fun _ member => isAlphanum_of_mem_capitalizeRuns member
          have capital : first.toUpper.isAlphanum = true := (isAlphanum_toUpper first).trans isLetter
          have spelled : capitalizeRuns true (first :: rest)
              = first.toUpper :: capitalizeRuns false rest := by
            rw [capitalizeRuns, if_pos isLetter]
            rfl
          rw [spelled, capitalizeRuns, if_pos capital, others]
          exact congrArg (· :: _) (toUpper_toUpper first)
      | false =>
          have skipped : capitalizeRuns true (first :: rest) = capitalizeRuns true rest := by
            rw [capitalizeRuns, isLetter]
            rfl
          rw [skipped, inductionHypothesis]

/-! ## Suggested names -/

/-- The name that capitalized runs make: the fallback when there are none, and an underscore in
front of a digit. -/
def nameOfRuns : Text → Text
  | [] => fallbackTypename
  | first :: rest => if first.isDigit then '_' :: first :: rest else first :: rest

theorem typename_eq (uri : Text) :
    typename uri = nameOfRuns (capitalizeRuns true ((marker.isPrefixOf? uri).getD uri)) := by
  unfold typename
  cases capitalizeRuns true ((marker.isPrefixOf? uri).getD uri) <;> rfl

theorem filter_nameOfRuns (nonempty : runs ≠ [])
    (letters : ∀ character ∈ runs, character.isAlphanum = true) :
    (nameOfRuns runs).filter Char.isAlphanum = runs := by
  have kept : runs.filter Char.isAlphanum = runs := List.filter_eq_self.mpr letters
  cases runs with
  | nil => exact absurd rfl nonempty
  | cons first rest =>
      rw [nameOfRuns]
      split
      case isTrue => exact kept
      case isFalse => exact kept

theorem capitalizeRuns_nameOfRuns (nonempty : runs ≠ []) :
    capitalizeRuns true (nameOfRuns runs) = capitalizeRuns true runs := by
  cases runs with
  | nil => exact absurd rfl nonempty
  | cons first rest =>
      rw [nameOfRuns]
      split
      case isTrue => rfl
      case isFalse => rfl

/-- A suggested name has no marker in front: there is no colon in it. -/
theorem unmarked_typename (uri : Text) :
    (marker.isPrefixOf? (typename uri)).getD (typename uri) = typename uri := by
  cases found : marker.isPrefixOf? (typename uri) with
  | none => rfl
  | some rest =>
      have whole := List.isPrefixOf?_eq_some_iff_append_eq.mp found
      have hasColon : ':' ∈ typename uri := by
        rw [← whole]
        exact List.mem_append_left rest (by decide)
      exact absurd (isSegmentChar_of_mem_typename hasColon) (by decide)

/-- **A suggested name suggests itself.** -/
theorem typename_typename (uri : Text) : typename (typename uri) = typename uri := by
  rw [typename_eq (typename uri), unmarked_typename, typename_eq uri]
  by_cases nothing : capitalizeRuns true ((marker.isPrefixOf? uri).getD uri) = []
  · rw [nothing]
    decide
  · rw [capitalizeRuns_nameOfRuns nothing, capitalizeRuns_capitalizeRuns]

end Address

namespace Declaration

/-- **A suggested name spells the id.**  Whatever the address, the name is not empty, an
identifier, and the name that it suggests itself.  When the id, which is the address without a
marker in front, has a letter or digit, the letters and digits of the name are those of the id in
their order: letter case apart they are the same, and each is a capital behind a character that is
neither letter nor digit, and as it is in the id behind one that is.  The start of the id counts as
the former; a space stands for it.  When the id has none, the name is the fallback. -/
theorem suggested_name_spells_id (uri : Text) :
    let name := Address.typename uri
    let id := (Address.marker.isPrefixOf? uri).getD uri
    name ≠ [] ∧ isIdentifier name = true
      ∧ (id.any Char.isAlphanum = true →
        (name.filter Char.isAlphanum).map Char.toUpper
            = (id.filter Char.isAlphanum).map Char.toUpper
          ∧ name.filter Char.isAlphanum
            = (List.zipWith Address.spelledBehind (' ' :: id) id).filter Char.isAlphanum)
      ∧ (id.any Char.isAlphanum = false → name = Address.fallbackTypename)
      ∧ Address.typename name = name := by
  intro name id
  have nameEq : name = Address.nameOfRuns (Address.capitalizeRuns true id) :=
    Address.typename_eq uri
  refine ⟨Address.typename_ne_nil uri, isIdentifier_typename uri, ?_, ?_,
    Address.typename_typename uri⟩
  · intro hasLetter
    have nonempty : Address.capitalizeRuns true id ≠ [] := by
      rw [ne_eq, Address.capitalizeRuns_eq_nil_iff, hasLetter]
      decide
    have spelled : name.filter Char.isAlphanum
        = (List.zipWith Address.spelledBehind (' ' :: id) id).filter Char.isAlphanum := by
      rw [nameEq, Address.filter_nameOfRuns nonempty fun _ member =>
        Address.isAlphanum_of_mem_capitalizeRuns member]
      exact Address.capitalizeRuns_eq_filter ' ' id
    refine ⟨?_, spelled⟩
    rw [spelled, Address.map_toUpper_filter_zipWith]
  · intro noLetter
    rw [nameEq, Address.capitalizeRuns_eq_nil_iff.mpr noLetter]
    rfl

/-- An id that starts with a digit and goes on behind separators. -/
theorem suggested_name_of_quarter_spells_id :
    let name := Address.typename "ns:2024-sales/eu_Q1".toList
    name = "_2024SalesEuQ1".toList
      ∧ ("2024-sales/eu_Q1".toList).any Char.isAlphanum = true
      ∧ (name.filter Char.isAlphanum).map Char.toUpper
        = ("2024-sales/eu_Q1".toList.filter Char.isAlphanum).map Char.toUpper
      ∧ Address.typename name = name := by
  intro name
  have hasLetter : ("2024-sales/eu_Q1".toList).any Char.isAlphanum = true := by decide
  obtain ⟨-, -, spells, -, again⟩ := suggested_name_spells_id "ns:2024-sales/eu_Q1".toList
  exact ⟨by decide, hasLetter, (spells hasLetter).1, again⟩

end Declaration

end Typesheet

import Mathlib.Data.Set.Function
import Mathlib.Order.Defs.Unbundled
import Mathlib.Tactic.Ring
import Typesheet.Proofs.Column.Order

/-!
Contract: keys stand in the order of the columns that they number.

Owns: the number of a column, and that keys are compared as their numbers, that the numbers of
keys are the positive numbers, each once, and that sorting keeps the order of columns with one key.

A key is a numeral to the base 26 whose digits run from one to 26, so that no digit is zero and
no key has a second spelling.  The letters behind the first `n` can make up for less than
one step of the letter in front of them (`number_lt_add`), and all three facts about numbers
come from that bound.
-/

set_option autoImplicit false

namespace Typesheet.Column

/-- The letters that keys are made of. -/
def IsLetter (letter : Char) : Prop :=
  'A' ≤ letter ∧ letter ≤ 'Z'

/-- The place of a letter in the alphabet, from one. -/
def digit (letter : Char) : Nat :=
  letter.toNat - 'A'.toNat + 1

/-- The number of a column: `A` is one, `Z` is 26, and `AA` comes next. -/
def number : Text → Nat
  | [] => 0
  | letter :: rest => digit letter * 26 ^ rest.length + number rest

section Letters

variable {letter other : Char}

theorem digit_pos (letter : Char) : 0 < digit letter :=
  Nat.succ_pos _

theorem digit_le (isLetter : IsLetter letter) : digit letter ≤ 26 := by
  have last : letter.toNat ≤ 90 := isLetter.2
  change letter.toNat - 65 + 1 ≤ 26
  omega

theorem digit_lt_digit (isLetter : IsLetter letter) (less : letter < other) :
    digit letter < digit other := by
  have first : 65 ≤ letter.toNat := isLetter.1
  have below : letter.toNat < other.toNat := less
  change letter.toNat - 65 + 1 < other.toNat - 65 + 1
  omega

/-- Letters take one byte each. -/
theorem byteLength_of_letters {key : Text} (letters : ∀ letter ∈ key, IsLetter letter) :
    Text.byteLength key = key.length := by
  induction key with
  | nil => rfl
  | cons letter rest inductionHypothesis =>
      have last : letter.toNat ≤ 90 := (letters letter List.mem_cons_self).2
      have oneByte : letter.utf8Size = 1 := Char.utf8Size_eq_one_iff.mpr (by
        have small : letter.val.toNat ≤ 90 := last
        exact UInt32.le_iff_toNat_le.mpr (by change letter.val.toNat ≤ 127; omega))
      have later := inductionHypothesis fun other member =>
        letters other (List.mem_cons_of_mem _ member)
      have split : Text.byteLength (letter :: rest) = letter.utf8Size + Text.byteLength rest := rfl
      rw [split, later, oneByte, List.length_cons, Nat.add_comm]

end Letters

/-! ## Comparing numbers -/

theorem number_append (front back : Text) :
    number (front ++ back) = number front * 26 ^ back.length + number back := by
  induction front with
  | nil => rw [List.nil_append, number, Nat.zero_mul, Nat.zero_add]
  | cons letter rest inductionHypothesis =>
      rw [List.cons_append, number, number, inductionHypothesis, List.length_append, pow_add]
      ring

theorem number_pos {key : Text} (nonempty : key ≠ []) : 0 < number key := by
  cases key with
  | nil => exact absurd rfl nonempty
  | cons letter rest =>
      have leading : 0 < digit letter * 26 ^ rest.length :=
        Nat.mul_pos (digit_pos letter) (Nat.pow_pos (by decide))
      exact Nat.add_pos_left leading _

/-- Two keys of one length are less than one step of a letter in front of them apart. -/
theorem number_lt_add {left right : Text} (sameLength : left.length = right.length)
    (letters : ∀ letter ∈ left, IsLetter letter) :
    number left < number right + 26 ^ right.length := by
  induction left generalizing right with
  | nil =>
      rw [number]
      exact Nat.add_pos_right _ (Nat.pow_pos (by decide))
  | cons letter rest inductionHypothesis =>
      cases right with
      | nil => exact absurd sameLength (by simp)
      | cons other others =>
          have restLength : rest.length = others.length := Nat.succ.inj sameLength
          have behind : number rest < number others + 26 ^ others.length :=
            inductionHypothesis restLength fun found member =>
              letters found (List.mem_cons_of_mem _ member)
          have step : digit letter ≤ digit other + 25 := by
            have most := digit_le (letters letter List.mem_cons_self)
            have least := digit_pos other
            omega
          have leading : digit letter * 26 ^ others.length
              ≤ digit other * 26 ^ others.length + 25 * 26 ^ others.length := by
            rw [← Nat.add_mul]
            exact Nat.mul_le_mul_right _ step
          rw [number, number, restLength, List.length_cons, pow_succ]
          omega

/-- Of two keys the one that comes before has the smaller number. -/
theorem number_lt_of_lt {left right : Text} (sameLength : left.length = right.length)
    (letters : ∀ letter ∈ left, IsLetter letter) (less : left < right) :
    number left < number right := by
  induction left generalizing right with
  | nil =>
      rw [List.eq_nil_of_length_eq_zero sameLength.symm] at less
      exact absurd less (List.lt_irrefl _)
  | cons letter rest inductionHypothesis =>
      cases right with
      | nil => exact absurd sameLength (by simp)
      | cons other others =>
          have restLength : rest.length = others.length := Nat.succ.inj sameLength
          have restLetters : ∀ found ∈ rest, IsLetter found :=
            fun found member => letters found (List.mem_cons_of_mem _ member)
          rw [number, number, restLength]
          rcases List.cons_lt_cons_iff.mp less with leads | ⟨same, later⟩
          · -- A step of the first letter makes up for all that is behind it.
            have step : digit letter + 1 ≤ digit other :=
              digit_lt_digit (letters letter List.mem_cons_self) leads
            have leading : digit letter * 26 ^ others.length + 26 ^ others.length
                ≤ digit other * 26 ^ others.length := by
              rw [← Nat.succ_mul]
              exact Nat.mul_le_mul_right _ step
            have behind := number_lt_add restLength restLetters
            omega
          · rw [same]
            exact Nat.add_lt_add_left (inductionHypothesis restLength restLetters later) _

theorem number_lt_of_shorter {left right : Text} (shorter : left.length < right.length)
    (letters : ∀ letter ∈ left, IsLetter letter) : number left < number right := by
  obtain ⟨front, back, rfl, backLength⟩ :
      ∃ front back, right = front ++ back ∧ back.length = left.length :=
    ⟨_, _, (List.take_append_drop (right.length - left.length) right).symm, by
      rw [List.length_drop]
      omega⟩
  have nonempty : front ≠ [] := by
    rintro rfl
    exact absurd shorter (by simp [backLength])
  have leading : 26 ^ back.length ≤ number front * 26 ^ back.length :=
    Nat.le_mul_of_pos_left _ (number_pos nonempty)
  have behind := number_lt_add backLength.symm letters
  rw [number_append]
  omega

section Keys

variable {left right : Text}

theorem letters_of_isKey {key : Text} (isKey : isKey key = true) :
    ∀ letter ∈ key, IsLetter letter :=
  (isKey_iff.mp isKey).2

theorem ComesBefore.number_lt (before : ComesBefore left right) (leftKey : isKey left = true)
    (rightKey : isKey right = true) : number left < number right := by
  have letters := letters_of_isKey leftKey
  unfold ComesBefore at before
  rw [byteLength_of_letters letters, byteLength_of_letters (letters_of_isKey rightKey)] at before
  rcases before with shorter | ⟨sameLength, less⟩
  · exact number_lt_of_shorter shorter letters
  · exact number_lt_of_lt sameLength letters less

/-- **Keys are compared as the numbers of their columns.** -/
theorem compareKeys_eq_compare_number (leftKey : isKey left = true) (rightKey : isKey right = true) :
    compareKeys left right = compare (number left) (number right) := by
  cases order : compareKeys left right with
  | lt =>
      have less := (compareKeys_eq_lt_iff.mp order).number_lt leftKey rightKey
      exact (Nat.compare_eq_lt.mpr less).symm
  | eq =>
      rw [eq_of_compareKeys_eq_eq order]
      exact (Nat.compare_eq_eq.mpr rfl).symm
  | gt =>
      have swapped : compareKeys right left = .lt := by
        rw [compareKeys_swap, order]
        rfl
      have less := (compareKeys_eq_lt_iff.mp swapped).number_lt rightKey leftKey
      exact (Nat.compare_eq_gt.mpr less).symm

end Keys

/-! ## Each positive number once -/

theorem exists_letter {value : Nat} (least : 0 < value) (most : value ≤ 26) :
    ∃ letter, IsLetter letter ∧ digit letter = value := by
  have each : ∀ index : Fin 26,
      IsLetter ("ABCDEFGHIJKLMNOPQRSTUVWXYZ".toList.getD index 'A')
        ∧ digit ("ABCDEFGHIJKLMNOPQRSTUVWXYZ".toList.getD index 'A') = index + 1 := by
    unfold IsLetter
    decide
  obtain ⟨isLetter, digitEq⟩ := each ⟨value - 1, by omega⟩
  exact ⟨_, isLetter, digitEq.trans (Nat.sub_add_cancel least)⟩

/-- Every number is written with letters, the last of them for its remainder. -/
theorem exists_letters_of_number (value : Nat) :
    ∃ key, (∀ letter ∈ key, IsLetter letter) ∧ number key = value := by
  induction value using Nat.strong_induction_on with
  | _ value inductionHypothesis =>
      by_cases isZero : value = 0
      · exact ⟨[], List.forall_mem_nil _, isZero.symm⟩
      · obtain ⟨front, frontLetters, frontNumber⟩ :=
          inductionHypothesis ((value - 1) / 26) (by omega)
        obtain ⟨last, isLetter, lastDigit⟩ :=
          @exists_letter ((value - 1) % 26 + 1) (by omega) (by omega)
        refine ⟨front ++ [last], ?_, ?_⟩
        · intro letter member
          rcases List.mem_append.mp member with inFront | isLast
          · exact frontLetters letter inFront
          · rwa [List.mem_singleton.mp isLast]
        · rw [number_append, frontNumber]
          simp only [number, lastDigit, List.length_singleton, List.length_nil]
          omega

theorem bijOn_number : Set.BijOn number {key | isKey key = true} {value | 0 < value} := by
  refine ⟨?_, ?_, ?_⟩
  · intro key isKey
    exact number_pos (isKey_iff.mp isKey).1
  · intro left leftKey right rightKey same
    apply eq_of_compareKeys_eq_eq
    rw [compareKeys_eq_compare_number leftKey rightKey]
    exact Nat.compare_eq_eq.mpr same
  · intro value positive
    obtain ⟨key, letters, isNumber⟩ := exists_letters_of_number value
    refine ⟨key, isKey_iff.mpr ⟨?_, letters⟩, isNumber⟩
    rintro rfl
    exact absurd isNumber.symm (Nat.ne_of_gt positive)

/-! ## Sorting -/

/-- Columns with one key stay in the order in which they came. -/
theorem filter_key_sort (columns : List Field) (key : Text) :
    (sort columns).filter (fun column => column.key = key)
      = columns.filter fun column => column.key = key := by
  have sorted : (columns.filter fun column => column.key = key).Pairwise fun left right =>
      (compareKeys left.key right.key).isLE := by
    rw [List.pairwise_filter]
    refine List.pairwise_of_forall fun left right leftKey rightKey => ?_
    have same : compareKeys key key = .eq := Std.ReflCmp.compare_self
    rw [of_decide_eq_true leftKey, of_decide_eq_true rightKey, same]
    rfl
  have kept : (columns.filter fun column => column.key = key).Sublist (sort columns) :=
    List.sublist_mergeSort (fun _ _ _ => Std.TransCmp.isLE_trans)
      (fun left right => isLE_or_isLE left.key right.key) sorted List.filter_sublist
  have keptAmong := kept.filter fun column => column.key = key
  simp only [List.filter_filter, Bool.and_self] at keptAmong
  have sameLength := ((sort_perm columns).filter fun column => column.key = key).length_eq
  exact (keptAmong.eq_of_length sameLength.symm).symm

theorem isStrictTotalOrder_compareKeys :
    IsStrictTotalOrder Text fun left right => compareKeys left right = .lt where
  trichotomous left right notBefore notBehind := by
    cases order : compareKeys left right with
    | lt => exact absurd order notBefore
    | eq => exact eq_of_compareKeys_eq_eq order
    | gt =>
        rw [compareKeys_swap, order] at notBehind
        exact absurd rfl notBehind
  irrefl key before := (compareKeys_eq_lt_iff.mp before).ne rfl
  trans _ _ _ := Std.TransCmp.lt_trans

/-- **Columns stand in spreadsheet order.**  Two keys are compared as the numbers of their columns,
and these number the keys with the positive numbers, each of which belongs to one key: `A` to 1,
`Z` to 26, `AA` to 27.  On all texts, keys or not, the comparison is a strict total order, and it
finds a text equal to itself only.  Sorting puts the columns that it is given into that order, and
leaves those with one key in the order in which they came. -/
theorem columns_stand_in_spreadsheet_order :
    (∀ left right, isKey left = true → isKey right = true →
        compareKeys left right = compare (number left) (number right))
      ∧ Set.BijOn number {key | isKey key = true} {value | 0 < value}
      ∧ number "A".toList = 1 ∧ number "Z".toList = 26 ∧ number "AA".toList = 27
      ∧ IsStrictTotalOrder Text (fun left right => compareKeys left right = .lt)
      ∧ (∀ left right, (compareKeys left right = .eq ↔ left = right)
          ∧ (compareKeys left right = .gt ↔ compareKeys right left = .lt))
      ∧ ∀ columns : List Field,
          (sort columns).Perm columns
            ∧ (sort columns).Pairwise (fun left right => compareKeys left.key right.key ≠ .gt)
            ∧ ∀ key, (sort columns).filter (fun column => column.key = key)
              = columns.filter fun column => column.key = key := by
  refine ⟨fun left right => compareKeys_eq_compare_number, bijOn_number, rfl, rfl, rfl,
    isStrictTotalOrder_compareKeys, ?_, ?_⟩
  · intro left right
    refine ⟨⟨eq_of_compareKeys_eq_eq, ?_⟩, ?_⟩
    · rintro rfl
      exact Std.ReflCmp.compare_self
    · rw [compareKeys_swap left right]
      cases compareKeys left right <;> decide
  · intro columns
    refine ⟨sort_perm columns, ?_, filter_key_sort columns⟩
    refine (pairwise_sort columns).imp fun inOrder isBehind => ?_
    rw [isBehind] at inOrder
    exact absurd inOrder (by decide)

/-- The last key of two letters and the first of three. -/
theorem ZZ_comes_before_AAA :
    isKey "ZZ".toList = true ∧ isKey "AAA".toList = true
      ∧ compareKeys "ZZ".toList "AAA".toList = compare 702 703 :=
  ⟨by decide, by decide,
    columns_stand_in_spreadsheet_order.1 "ZZ".toList "AAA".toList (by decide) (by decide)⟩

end Typesheet.Column

import Typesheet.Text.Basic

/-!
Contract: finite maps from texts, kept in the order in which their keys first
came in.

Owns: the table type, look-up, setting, removal, and building a table from pairs
where a later pair replaces an earlier one with the same key.
-/

set_option autoImplicit false

namespace Typesheet

/-- Pairs of a key and a value. -/
abbrev Table (Value : Type) := List (Text × Value)

namespace Table

variable {Value : Type}

def get? (key : Text) : Table Value → Option Value
  | [] => none
  | (own, value) :: rest => if own = key then some value else get? key rest

/-- Put a value under a key: in the place of the old one, or at the end. -/
def set (key : Text) (value : Value) : Table Value → Table Value
  | [] => [(key, value)]
  | (own, old) :: rest =>
      if own = key then (own, value) :: rest else (own, old) :: set key value rest

def remove (key : Text) (table : Table Value) : Table Value :=
  table.filter fun entry => entry.1 ≠ key

/-- The table of some pairs; of two with one key the later one counts. -/
def ofPairs (pairs : List (Text × Value)) : Table Value :=
  pairs.foldl (fun table pair => set pair.1 pair.2 table) []

theorem get?_set_self (key : Text) (value : Value) :
    ∀ table : Table Value, get? key (set key value table) = some value
  | [] => by simp [set, get?]
  | (own, old) :: rest => by
      unfold set
      by_cases isKey : own = key
      · simp [isKey, get?]
      · simp [isKey, get?, get?_set_self key value rest]

theorem get?_set_of_ne {key other : Text} (value : Value) (distinct : other ≠ key) :
    ∀ table : Table Value, get? other (set key value table) = get? other table
  | [] => by simp [set, get?, distinct.symm]
  | (own, old) :: rest => by
      unfold set
      by_cases isKey : own = key
      · subst isKey
        simp [get?, distinct.symm]
      · simp only [isKey, ↓reduceIte, get?]
        rw [get?_set_of_ne value distinct rest]

theorem set_eq_self {key : Text} {value : Value} :
    ∀ {table : Table Value}, get? key table = some value → set key value table = table
  | [], held => by simp [get?] at held
  | (own, old) :: rest, held => by
      unfold get? at held
      unfold set
      split at held
      case isTrue isKey =>
        cases held
        simp [isKey]
      case isFalse isOther => simp [isOther, set_eq_self held]

theorem get?_remove_self (key : Text) :
    ∀ table : Table Value, get? key (remove key table) = none
  | [] => rfl
  | (own, value) :: rest => by
      have inductionHypothesis := get?_remove_self key rest
      unfold remove at inductionHypothesis ⊢
      by_cases isKey : own = key
      · simpa [List.filter_cons, isKey] using inductionHypothesis
      · simpa [List.filter_cons, isKey, get?] using inductionHypothesis

theorem get?_remove_of_ne {key other : Text} (distinct : other ≠ key) :
    ∀ table : Table Value, get? other (remove key table) = get? other table
  | [] => rfl
  | (own, value) :: rest => by
      have inductionHypothesis := get?_remove_of_ne distinct rest
      unfold remove at inductionHypothesis ⊢
      by_cases isKey : own = key
      · subst isKey
        simpa [List.filter_cons, get?, distinct.symm] using inductionHypothesis
      · simp only [List.filter_cons, ne_eq, isKey, not_false_eq_true, decide_true, ↓reduceIte,
          get?]
        rw [← inductionHypothesis]

end Table

end Typesheet

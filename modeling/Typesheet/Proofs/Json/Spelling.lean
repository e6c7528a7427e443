import Typesheet.Json.Read
import Typesheet.Json.Write

/-!
Contract: a document is read back from its spelling.

Owns: the documents that records of texts and flags are written as, and the theorem that
the reader inverts the writer on them, whatever text follows.

The reader counts down a fuel that bounds values and commas on the way down.  Each of these
takes a character of its own, so the length of the spelling is fuel enough, and the
induction needs no measure beside it.
-/

set_option autoImplicit false

namespace Typesheet.Json

/-- A document of texts and flags: it holds no null and no number, and its strings and keys
spell texts. -/
inductive Textual : Json → Prop where
  | bool (value : Bool) : Textual (.bool value)
  | string (text : Text) : Textual (.string (some text))
  | array {elements : List Json} (each : ∀ json ∈ elements, Textual json) :
      Textual (.array elements)
  | object {fields : List (Option Text × Json)}
      (keys : ∀ field ∈ fields, field.1.isSome = true)
      (each : ∀ field ∈ fields, Textual field.2) : Textual (.object fields)

/-! ## Strings -/

/-- The code units below 32, which are written as escapes of four digits, are read back. -/
theorem codeUnit?_hexDigit : ∀ unit < 0x20,
    codeUnit? '0' '0' (hexDigit (unit / 16)) (hexDigit (unit % 16)) = some unit := by
  decide

theorem readCharacters_escape (character : Char) (rest : Text) :
    readCharacters false (escape character ++ rest)
      = prepend (some character) (readCharacters false rest) := by
  unfold escape
  split
  case h_8 notQuote notBackslash _ _ _ _ _ =>
    by_cases isControl : character.toNat < 0x20
    · have read := codeUnit?_hexDigit character.toNat isControl
      have notLeading : isLeading character.toNat = false := by
        simp only [isLeading, Bool.and_eq_false_iff, decide_eq_false_iff_not]
        omega
      have notTrailing : isTrailing character.toNat = false := by
        simp only [isTrailing, Bool.and_eq_false_iff, decide_eq_false_iff_not]
        omega
      rw [if_pos isControl]
      simp only [List.cons_append, List.nil_append, readCharacters, read, notLeading, notTrailing,
        Bool.false_eq_true, ↓reduceIte, Char.ofNat_toNat]
    · rw [if_neg isControl, List.singleton_append, readCharacters]
      · simp only [isControl, decide_false, Bool.false_or, decide_eq_true_eq]
        exact if_neg notBackslash
      · exact notQuote
      · exact fun _ _ _ _ _ isBackslash _ => notBackslash isBackslash
      · exact fun _ _ isBackslash _ => notBackslash isBackslash
  all_goals rfl

theorem readCharacters_flatMap_escape (text rest : Text) :
    readCharacters false (text.flatMap escape ++ '"' :: rest) = some (some text, rest) := by
  induction text with
  | nil => rfl
  | cons character more inductionHypothesis =>
      rw [List.flatMap_cons, List.append_assoc, readCharacters_escape, inductionHypothesis]
      rfl

/-! ## Values -/

/-- The spelling of a document is read back, whatever follows it. -/
def IsReadBack (json : Json) : Prop :=
  ∀ (fuel : Nat) (rest : Text), (write json).length ≤ fuel →
    readValue fuel (write json ++ rest) = some (json, rest)

/-- The spelling of a document of texts and flags starts with a sign that is not blank and
ends no array. -/
theorem Textual.exists_write_eq_cons {json : Json} (textual : Textual json) :
    ∃ first more, write json = first :: more
      ∧ (∀ rest, skipBlanks (first :: rest) = first :: rest) ∧ first ≠ ']' := by
  cases textual with
  | bool value => cases value <;> exact ⟨_, _, rfl, fun _ => rfl, by decide⟩
  | string text => exact ⟨_, _, rfl, fun _ => rfl, by decide⟩
  | array each => exact ⟨_, _, rfl, fun _ => rfl, by decide⟩
  | object keys each => exact ⟨_, _, rfl, fun _ => rfl, by decide⟩

theorem readElements_writeElements {elements : List Json} (notEmpty : elements ≠ [])
    (each : ∀ json ∈ elements, IsReadBack json) {fuel : Nat} (rest : Text)
    (enough : (writeElements elements).length < fuel) :
    readElements fuel (writeElements elements ++ ']' :: rest) = some (elements, rest) := by
  induction elements generalizing fuel with
  | nil => exact absurd rfl notEmpty
  | cons json others inductionHypothesis =>
      obtain ⟨fuel, rfl⟩ : ∃ less, fuel = less + 1 := ⟨fuel - 1, by omega⟩
      have first := each json List.mem_cons_self
      cases others with
      | nil =>
          simp only [writeElements, writeMoreElements, List.append_nil] at enough ⊢
          rw [readElements, first fuel _ (by omega)]
          rfl
      | cons next more =>
          have split : writeElements (json :: next :: more)
              = write json ++ ',' :: writeElements (next :: more) := rfl
          rw [split, List.length_append, List.length_cons] at enough
          have fewer : (writeElements (next :: more)).length < fuel := by omega
          have later := inductionHypothesis (List.cons_ne_nil _ _)
            (fun other member => each other (List.mem_cons_of_mem _ member)) fewer
          rw [split, List.append_assoc, readElements, first fuel _ (by omega)]
          show (readElements fuel (writeElements (next :: more) ++ ']' :: rest)).bind _ = _
          rw [later]
          rfl

theorem readFields_writeFields {fields : List (Option Text × Json)} (notEmpty : fields ≠ [])
    (keys : ∀ field ∈ fields, field.1.isSome = true)
    (each : ∀ field ∈ fields, IsReadBack field.2) {fuel : Nat} (rest : Text)
    (enough : (writeFields fields).length < fuel) :
    readFields fuel (writeFields fields ++ '}' :: rest) = some (fields, rest) := by
  induction fields generalizing fuel with
  | nil => exact absurd rfl notEmpty
  | cons field others inductionHypothesis =>
      obtain ⟨fuel, rfl⟩ : ∃ less, fuel = less + 1 := ⟨fuel - 1, by omega⟩
      have first := each field List.mem_cons_self
      have hasKey := keys field List.mem_cons_self
      obtain ⟨key, json⟩ := field
      obtain ⟨key, rfl⟩ := Option.isSome_iff_exists.mp hasKey
      have spelled (behind : Text) : writeField (some key, json) ++ behind
          = '"' :: (key.flatMap escape ++ '"' :: ':' :: (write json ++ behind)) := by
        show '"' :: (key.flatMap escape ++ ['"']) ++ ':' :: write json ++ behind = _
        simp only [List.cons_append, List.append_assoc, List.nil_append]
      cases others with
      | nil =>
          simp only [writeFields, writeMoreFields, List.append_nil] at enough ⊢
          have shorter : (write json).length ≤ fuel := by
            simp only [writeField, List.length_append, List.length_cons] at enough
            omega
          rw [spelled, readFields]
          show (readCharacters false (key.flatMap escape ++ '"' :: _)).bind _ = _
          rw [readCharacters_flatMap_escape]
          show (readValue fuel (write json ++ '}' :: rest)).bind _ = _
          rw [first fuel _ shorter]
          rfl
      | cons next more =>
          have split : writeFields ((some key, json) :: next :: more)
              = writeField (some key, json) ++ ',' :: writeFields (next :: more) := rfl
          rw [split, List.length_append, List.length_cons] at enough
          have shorter : (write json).length ≤ fuel := by
            simp only [writeField, List.length_append, List.length_cons] at enough
            omega
          have fewer : (writeFields (next :: more)).length < fuel := by omega
          have later := inductionHypothesis (List.cons_ne_nil _ _)
            (fun other member => keys other (List.mem_cons_of_mem _ member))
            (fun other member => each other (List.mem_cons_of_mem _ member)) fewer
          rw [split, List.append_assoc, spelled, readFields]
          show (readCharacters false (key.flatMap escape ++ '"' :: _)).bind _ = _
          rw [readCharacters_flatMap_escape]
          show (readValue fuel (write json ++ (',' :: writeFields (next :: more)
            ++ '}' :: rest))).bind _ = _
          rw [first fuel _ shorter]
          show (readFields fuel (writeFields (next :: more) ++ '}' :: rest)).bind _ = _
          rw [later]
          rfl

theorem Textual.exists_fuel {json : Json} (textual : Textual json) {fuel : Nat}
    (enough : (write json).length ≤ fuel) : ∃ less, fuel = less + 1 := by
  obtain ⟨first, more, spelled, -, -⟩ := textual.exists_write_eq_cons
  rw [spelled, List.length_cons] at enough
  exact ⟨fuel - 1, by omega⟩

theorem readValue_openArray {sign : Char} {more : Text} (fuel : Nat)
    (visible : skipBlanks (sign :: more) = sign :: more) (notEnd : sign ≠ ']') :
    readValue (fuel + 1) ('[' :: sign :: more)
      = (readElements fuel (sign :: more)).map fun found => (Json.array found.1, found.2) := by
  have opened : skipBlanks ('[' :: sign :: more) = '[' :: sign :: more := rfl
  unfold readValue
  rw [opened]
  simp only [visible]
  split
  case h_1 isEnd => exact absurd (List.cons.inj isEnd).1 notEnd
  case h_2 => rfl

theorem Textual.isReadBack {json : Json} (textual : Textual json) : IsReadBack json := by
  induction textual with
  | bool value =>
      intro fuel rest enough
      obtain ⟨fuel, rfl⟩ := (Textual.bool value).exists_fuel enough
      cases value <;> rfl
  | string text =>
      intro fuel rest enough
      obtain ⟨fuel, rfl⟩ := (Textual.string text).exists_fuel enough
      show (readCharacters false (text.flatMap escape ++ ['"'] ++ rest)).map _ = _
      rw [List.append_assoc, List.singleton_append, readCharacters_flatMap_escape]
      rfl
  | @array elements each inductionHypothesis =>
      intro fuel rest enough
      obtain ⟨fuel, rfl⟩ := (Textual.array each).exists_fuel enough
      cases elements with
      | nil => rfl
      | cons first others =>
          obtain ⟨sign, more, spelled, visible, notEnd⟩ :=
            (each first List.mem_cons_self).exists_write_eq_cons
          have starts : writeElements (first :: others)
              = sign :: (more ++ writeMoreElements others) := by
            rw [writeElements, spelled, List.cons_append]
          have opened : write (.array (first :: others)) ++ rest
              = '[' :: (writeElements (first :: others) ++ ']' :: rest) := by
            show '[' :: (writeElements (first :: others) ++ [']'] ++ rest) = _
            rw [List.append_assoc, List.singleton_append]
          have shorter : (writeElements (first :: others)).length < fuel := by
            change (writeElements (first :: others) ++ [']']).length + 1 ≤ fuel + 1 at enough
            rw [List.length_append, List.length_singleton] at enough
            omega
          have read := readElements_writeElements (List.cons_ne_nil first others)
            inductionHypothesis rest shorter
          rw [opened]
          rw [starts, List.cons_append] at read ⊢
          rw [readValue_openArray fuel (visible _) notEnd, read]
          rfl
  | @object fields keys each inductionHypothesis =>
      intro fuel rest enough
      obtain ⟨fuel, rfl⟩ := (Textual.object keys each).exists_fuel enough
      cases fields with
      | nil => rfl
      | cons first others =>
          have opened : write (.object (first :: others)) ++ rest
              = '{' :: (writeFields (first :: others) ++ '}' :: rest) := by
            show '{' :: (writeFields (first :: others) ++ ['}'] ++ rest) = _
            rw [List.append_assoc, List.singleton_append]
          have shorter : (writeFields (first :: others)).length < fuel := by
            change (writeFields (first :: others) ++ ['}']).length + 1 ≤ fuel + 1 at enough
            rw [List.length_append, List.length_singleton] at enough
            omega
          have read := readFields_writeFields (List.cons_ne_nil first others) keys
            inductionHypothesis rest shorter
          obtain ⟨key, json⟩ := first
          obtain ⟨key, rfl⟩ := Option.isSome_iff_exists.mp (keys _ List.mem_cons_self)
          rw [opened]
          show (readFields fuel (writeFields ((some key, json) :: others) ++ '}' :: rest)).map _ = _
          rw [read]
          rfl

/-- **A document of texts and flags is read back from its spelling.** -/
theorem read?_write {json : Json} (textual : Textual json) : read? (write json) = some json := by
  have read := textual.isReadBack (2 * (write json).length + 1) [] (by omega)
  rw [List.append_nil] at read
  rw [read?, read]
  rfl

end Typesheet.Json

import Mathlib.Data.List.Basic
import Mathlib.Data.List.TakeWhile
import Typesheet.Text.Basic

/-!
Contract: what trimming a text leaves.

Owns: blank and tight texts, what the two halves of trimming take away, and trimming of
texts put together from blank and tight ones.

Trimming takes blanks away and nothing else (`exists_blanks`), and what it leaves is
nothing or tight (`tight_trim`).
-/

set_option autoImplicit false

namespace Typesheet.Text

/-- Nothing but blank characters. -/
def IsBlank (text : Text) : Prop :=
  ∀ character ∈ text, isBlank character = true

instance (text : Text) : Decidable (IsBlank text) :=
  decidable_of_iff (text.all isBlank = true) List.all_eq_true

/-- A text that starts and ends with a character that is not blank. -/
structure Tight (text : Text) : Prop where
  nonempty : text ≠ []
  first : ∀ character ∈ text.head?, isBlank character = false
  last : ∀ character ∈ text.getLast?, isBlank character = false

variable {text other before after : Text}

theorem isBlank_nil : IsBlank [] :=
  fun _ member => absurd member List.not_mem_nil

theorem IsBlank.append (left : IsBlank text) (right : IsBlank other) :
    IsBlank (text ++ other) :=
  List.forall_mem_append.mpr ⟨left, right⟩

theorem IsBlank.reverse (blank : IsBlank text) : IsBlank text.reverse :=
  fun character member => blank character (List.mem_reverse.mp member)

theorem Tight.of_forall (nonempty : text ≠ [])
    (visible : ∀ character ∈ text, isBlank character = false) : Tight text where
  nonempty := nonempty
  first := fun character isFirst => visible character (List.mem_of_mem_head? isFirst)
  last := fun character isLast => visible character (List.mem_of_mem_getLast? isLast)

theorem tight_singleton {character : Char} (visible : isBlank character = false) :
    Tight [character] :=
  .of_forall (List.cons_ne_nil _ _) (List.forall_mem_singleton.mpr visible)

/-- What starts tight and ends tight is tight. -/
theorem Tight.append (left : Tight text) (middle : Text) (right : Tight other) :
    Tight (text ++ middle ++ other) where
  nonempty := by simp [left.nonempty]
  first := by
    rw [List.append_assoc, List.head?_append_of_ne_nil _ left.nonempty]
    exact left.first
  last := by
    rw [List.getLast?_append_of_ne_nil _ right.nonempty]
    exact right.last

/-- A tight text holds something that is not blank. -/
theorem Tight.not_isBlank (tight : Tight text) : ¬ IsBlank text := by
  intro blank
  cases text with
  | nil => exact tight.nonempty rfl
  | cons first rest =>
      have visible := tight.first first rfl
      have hidden := blank first List.mem_cons_self
      rw [visible] at hidden
      exact Bool.false_ne_true hidden

/-! ## What is put in front and behind -/

theorem trimStart_append_of_isBlank (blank : IsBlank before) (text : Text) :
    trimStart (before ++ text) = trimStart text :=
  List.dropWhile_append_of_pos blank

theorem trimEnd_append_of_isBlank (text : Text) (blank : IsBlank after) :
    trimEnd (text ++ after) = trimEnd text := by
  unfold trimEnd
  rw [List.reverse_append, List.dropWhile_append_of_pos blank.reverse]

theorem Tight.trimStart_append (tight : Tight text) (rest : Text) :
    trimStart (text ++ rest) = text ++ rest := by
  cases text with
  | nil => exact absurd rfl tight.nonempty
  | cons first others =>
      have visible := tight.first first rfl
      exact List.dropWhile_cons_of_neg (by simp [visible])

/-- The end of a text is trimmed behind its last character that is not blank. -/
theorem Tight.trimEnd_append (tight : Tight text) (rest : Text) :
    trimEnd (text ++ rest) = text ++ trimEnd rest := by
  have ends : text.reverse.dropWhile isBlank = text.reverse := by
    cases reversed : text.reverse with
    | nil => rfl
    | cons last others =>
        have visible := tight.last last (by rw [← List.head?_reverse, reversed]; rfl)
        exact List.dropWhile_cons_of_neg (by simp [visible])
  unfold trimEnd
  rw [List.reverse_append, List.dropWhile_append]
  split
  case isTrue nothing =>
    rw [ends, List.isEmpty_iff.mp nothing, List.reverse_reverse, List.reverse_nil,
      List.append_nil]
  case isFalse => rw [List.reverse_append, List.reverse_reverse]

theorem Tight.trim_append (tight : Tight text) (rest : Text) :
    trim (text ++ rest) = text ++ trimEnd rest := by
  rw [trim, tight.trimStart_append, tight.trimEnd_append]

/-- **Trimming takes the blanks away** around a tight text and leaves the text. -/
theorem Tight.trim_pad (tight : Tight text) (blankBefore : IsBlank before)
    (blankAfter : IsBlank after) : trim (before ++ text ++ after) = text := by
  have nothing : trimEnd after = [] := trimEnd_append_of_isBlank [] blankAfter
  rw [List.append_assoc, trim, trimStart_append_of_isBlank blankBefore, tight.trimStart_append,
    tight.trimEnd_append, nothing, List.append_nil]

theorem Tight.trim_eq (tight : Tight text) : trim text = text := by
  simpa using tight.trim_pad isBlank_nil isBlank_nil

/-- A text that starts with a character that is not blank starts with it when trimmed. -/
theorem head?_trim {first : Char} (visible : isBlank first = false)
    (isFirst : text.head? = some first) : (trim text).head? = some first := by
  obtain ⟨rest, rfl⟩ := List.head?_eq_some_iff.mp isFirst
  have trimmed : trim (first :: rest) = first :: trimEnd rest :=
    (tight_singleton visible).trim_append rest
  rw [trimmed]
  rfl

/-! ## What is taken away and what is left -/

theorem exists_trimStart (text : Text) :
    ∃ before, IsBlank before ∧ text = before ++ trimStart text :=
  ⟨text.takeWhile isBlank, fun _ member => List.mem_takeWhile_imp member,
    List.takeWhile_append_dropWhile.symm⟩

theorem exists_trimEnd (text : Text) :
    ∃ after, IsBlank after ∧ text = trimEnd text ++ after := by
  obtain ⟨before, blank, whole⟩ := exists_trimStart text.reverse
  refine ⟨before.reverse, blank.reverse, ?_⟩
  rw [trimEnd, ← List.reverse_append, ← trimStart, ← whole, List.reverse_reverse]

/-- Trimming takes blanks away on both sides and nothing else. -/
theorem exists_blanks (text : Text) :
    ∃ before after, IsBlank before ∧ IsBlank after ∧ text = before ++ trim text ++ after := by
  obtain ⟨before, blankBefore, whole⟩ := exists_trimStart text
  obtain ⟨after, blankAfter, rest⟩ := exists_trimEnd (trimStart text)
  refine ⟨before, after, blankBefore, blankAfter, ?_⟩
  rw [List.append_assoc, trim, ← rest]
  exact whole

theorem visible_of_mem_head?_trimStart {character : Char}
    (isFirst : character ∈ (trimStart text).head?) : isBlank character = false := by
  have visible := List.head?_dropWhile_not isBlank text
  rw [← trimStart, Option.mem_def.mp isFirst] at visible
  simpa using visible

/-- What trimming leaves is nothing or tight. -/
theorem tight_trim (nonempty : trim text ≠ []) : Tight (trim text) where
  nonempty := nonempty
  first := by
    intro character isFirst
    obtain ⟨after, -, rest⟩ := exists_trimEnd (trimStart text)
    have isFirstOfStart : character ∈ (trimStart text).head? := by
      rw [rest]
      change character ∈ (trim text ++ after).head?
      rwa [List.head?_append_of_ne_nil _ nonempty]
    exact visible_of_mem_head?_trimStart isFirstOfStart
  last := by
    intro character isLast
    rw [trim, trimEnd, List.getLast?_reverse] at isLast
    exact visible_of_mem_head?_trimStart isLast

theorem trim_eq_nil_iff : trim text = [] ↔ IsBlank text := by
  constructor
  · intro trimmed
    obtain ⟨before, after, blankBefore, blankAfter, whole⟩ := exists_blanks text
    rw [trimmed, List.append_nil] at whole
    rw [whole]
    exact blankBefore.append blankAfter
  · intro blank
    have start : trimStart text = [] := by
      rw [← List.append_nil text]
      exact trimStart_append_of_isBlank blank []
    rw [trim, start]
    rfl

theorem trim_trim (text : Text) : trim (trim text) = trim text := by
  by_cases nonempty : trim text = []
  · rw [nonempty]
    rfl
  · exact (tight_trim nonempty).trim_eq

/-- White space around a text does not change what trimming leaves. -/
theorem trim_pad (blankBefore : IsBlank before) (blankAfter : IsBlank after) (text : Text) :
    trim (before ++ text ++ after) = trim text := by
  by_cases nonempty : trim text = []
  · have blank := trim_eq_nil_iff.mp nonempty
    rw [nonempty]
    exact trim_eq_nil_iff.mpr ((blankBefore.append blank).append blankAfter)
  · obtain ⟨front, back, blankFront, blankBack, whole⟩ := exists_blanks text
    have regroup : before ++ text ++ after
        = (before ++ front) ++ trim text ++ (back ++ after) := by
      conv => lhs; rw [whole]
      simp only [List.append_assoc]
    rw [regroup, (tight_trim nonempty).trim_pad (blankBefore.append blankFront)
      (blankBack.append blankAfter)]

theorem trimEnd_eq_self (visible : ∀ character ∈ text.getLast?, isBlank character = false) :
    trimEnd text = text := by
  obtain ⟨after, blank, whole⟩ := exists_trimEnd text
  cases ends : after.getLast? with
  | none =>
      rw [List.getLast?_eq_none_iff.mp ends, List.append_nil] at whole
      exact whole.symm
  | some last =>
      have isLast : last ∈ text.getLast? := by
        rw [whole, List.getLast?_append, ends]
        rfl
      have hidden := blank last (List.mem_of_getLast? ends)
      rw [visible last isLast] at hidden
      exact absurd hidden Bool.false_ne_true

/-- Of what stands at the end of a trimmed text only the front is left to trim. -/
theorem trim_eq_trimStart (trimmed : trim (before ++ text) = before ++ text) :
    trim text = trimStart text := by
  obtain ⟨blanks, -, whole⟩ := exists_trimStart text
  apply trimEnd_eq_self
  intro character isLast
  have nonempty : trimStart text ≠ [] := by
    rintro nothing
    rw [nothing] at isLast
    exact absurd isLast (by simp)
  have lastEq : (before ++ text).getLast? = (trimStart text).getLast? := by
    conv_lhs => rw [whole, ← List.append_assoc]
    exact List.getLast?_append_of_ne_nil _ nonempty
  have tight : Tight (before ++ text) := by
    rw [← trimmed]
    apply tight_trim
    rw [trimmed, whole]
    simp [nonempty]
  apply tight.last
  rw [lastEq]
  exact isLast

theorem trim_trimEnd (text : Text) : trim (trimEnd text) = trim text := by
  obtain ⟨after, blank, whole⟩ := exists_trimEnd text
  have padded := trim_pad isBlank_nil blank (trimEnd text)
  rw [List.nil_append, ← whole] at padded
  exact padded.symm

end Typesheet.Text

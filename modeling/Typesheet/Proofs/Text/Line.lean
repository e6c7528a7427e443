import Mathlib.Data.List.TakeWhile
import Typesheet.Text.Basic

/-!
Contract: the characters that end a line of a declaration file.

Owns: the line ends of TypeScript, texts that hold none, what is left of a text behind a comment
that runs to the end of its line, and what replacing line feeds does to all three.

There are four line ends, and a comment or a literal does not go on behind any of them.  Replacing
line feeds takes one of the four away and adds none.
-/

set_option autoImplicit false

namespace Typesheet.Text

/-- The characters at which a line of TypeScript ends: line feed, carriage return, line separator
and paragraph separator. -/
def isLineEnd (character : Char) : Bool :=
  character = '\n' || character = '\r' || character = '\u2028' || character = '\u2029'

/-- The text stays on one line. -/
def IsLine (text : Text) : Prop :=
  ∀ character ∈ text, isLineEnd character = false

-- Given by name: a search may come upon the instance that runs through all characters there are.
instance (text : Text) : Decidable (IsLine text) :=
  List.decidableBAll (fun character => isLineEnd character = false) text

/-- What is left of a text behind a comment that runs to the end of its line. -/
def afterLine (text : Text) : Text :=
  text.dropWhile fun character => !isLineEnd character

section Line

variable {text other : Text} {character : Char}

theorem isLine_append : IsLine (text ++ other) ↔ IsLine text ∧ IsLine other :=
  List.forall_mem_append

theorem IsLine.newline_notMem (isLine : IsLine text) : '\n' ∉ text :=
  fun member => Bool.false_ne_true (isLine '\n' member).symm

/-- A comment takes a whole text in exactly when the text stays on one line. -/
theorem afterLine_eq_nil_iff : afterLine text = [] ↔ IsLine text := by
  simp [afterLine, IsLine, List.dropWhile_eq_nil_iff]

theorem afterLine_append_of_isLine (isLine : IsLine text) (other : Text) :
    afterLine (text ++ other) = afterLine other := by
  unfold afterLine
  rw [List.dropWhile_append_of_pos]
  intro character member
  rw [isLine character member]
  rfl

theorem newline_notMem_onOneLine (text : Text) : '\n' ∉ onOneLine text := by
  intro member
  obtain ⟨character, -, replaced⟩ := List.mem_map.mp member
  split at replaced
  case isTrue => exact absurd replaced (by decide)
  case isFalse other => exact other replaced

/-- Replacing line feeds leaves the other line ends where they are. -/
theorem mem_onOneLine_iff (ends : isLineEnd character = true) :
    character ∈ onOneLine text ↔ character ∈ text ∧ character ≠ '\n' := by
  constructor
  · intro member
    refine ⟨?_, fun isFeed => newline_notMem_onOneLine text (isFeed ▸ member)⟩
    obtain ⟨original, inText, replaced⟩ := List.mem_map.mp member
    split at replaced
    case isTrue =>
      rw [← replaced] at ends
      exact absurd ends (by decide)
    case isFalse => rwa [← replaced]
  · rintro ⟨member, noFeed⟩
    exact List.mem_map.mpr ⟨character, member, if_neg noFeed⟩

/-- **Replacing line feeds puts a text on one line** exactly when line feeds are the only line ends
that it holds. -/
theorem isLine_onOneLine_iff :
    IsLine (onOneLine text) ↔ ∀ character ∈ text, isLineEnd character = true → character = '\n' := by
  constructor
  · intro isLine character member ends
    by_contra noFeed
    have kept := isLine character ((mem_onOneLine_iff ends).mpr ⟨member, noFeed⟩)
    rw [ends] at kept
    exact Bool.false_ne_true kept.symm
  · intro feedsOnly character member
    rw [← Bool.not_eq_true]
    intro ends
    obtain ⟨inText, noFeed⟩ := (mem_onOneLine_iff ends).mp member
    exact noFeed (feedsOnly character inText ends)

end Line

end Typesheet.Text

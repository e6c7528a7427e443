import Mathlib.Algebra.Ring.Parity
import Mathlib.Data.List.DropRight
import Typesheet.ColumnType.Parse
import Typesheet.Proofs.Expression.Passes

/-!
Contract: literals as the scan sees them, and what quoting a content makes of it.

Owns: texts that the scan enters as a literal and does not leave before their last character,
literals that it leaves there, the scan of a quoted content, and the contents whose quoted form
is a literal.

Quoting keeps a flag of its own for the backslash that escapes.  On the content it goes along
with the scan character by character (`passes_escapeContent`), so the quotes inside are all
escaped; at the end the flag may be left standing, and then the closing quote is escaped as well.
-/

set_option autoImplicit false

namespace Typesheet.Expression

namespace ScanState

/-- Inside a literal; what an escape takes with it is inside too. -/
def isInside : ScanState → Bool
  | .code _ => false
  | _ => true

/-- The character that leads the scan out of a literal. -/
def closesLiteral (state : ScanState) (character : Char) : Bool :=
  state.isInside && !(state.step character).isInside

/-- Inside a literal with the given quote. -/
def Within (depth : Nat) (quote : Char) (state : ScanState) : Prop :=
  state = .literal depth quote ∨ state = .escape depth quote

end ScanState

/-- A text that opens a literal at its first character and closes it at no character before its
last. -/
structure OpensLiteral (quote : Char) (text : Text) : Prop where
  isQuote : ScanState.isQuote quote = true
  opens : text.head? = some quote
  staysInside : ∀ before after, text = before ++ after → before ≠ [] → after ≠ [] →
    (ScanState.start.run before).isInside = true

/-- One literal: it is opened at the first character and closed exactly at the last. -/
structure IsLiteral (quote : Char) (text : Text) : Prop extends OpensLiteral quote text where
  closes : ScanState.start.run text = .start

variable {state final : ScanState} {quote last : Char} {text body : Text} {depth : Nat}

/-! ## Runs inside a literal -/

theorem ScanState.run_quote (depth : Nat) (isQuote : ScanState.isQuote quote = true) (rest : Text) :
    (ScanState.code depth).run (quote :: rest) = (ScanState.literal depth quote).run rest := by
  change ((ScanState.code depth).step quote).run rest = _
  rw [step, if_pos isQuote]

/-- A character that is no backslash and not the quote stays in the literal. -/
theorem ScanState.step_literal {character : Char} (noBackslash : character ≠ '\\')
    (noQuote : character ≠ quote) :
    (ScanState.literal depth quote).step character = .literal depth quote := by
  simp [step, noBackslash, noQuote]

theorem passes_plain {character : Char} (noBackslash : character ≠ '\\')
    (noQuote : character ≠ quote) :
    Passes ScanState.closesLiteral (.literal depth quote) [character] (.literal depth quote) := by
  have stays : (ScanState.literal depth quote).step character = .literal depth quote :=
    ScanState.step_literal noBackslash noQuote
  refine .single ?_ stays
  rw [ScanState.closesLiteral, stays]
  rfl

namespace ScanState.Within

theorem isInside (within : Within depth quote state) : state.isInside = true := by
  rcases within with rfl | rfl <;> rfl

/-- A literal is left with its own quote only. -/
theorem step {character : Char} (within : Within depth quote state)
    (goes : state.closesLiteral character = false) :
    Within depth quote (state.step character) := by
  rcases within with rfl | rfl
  · by_cases isBackslash : character = '\\'
    · exact .inr (if_pos isBackslash)
    · by_cases isQuote : character = quote
      · subst isQuote
        simp [closesLiteral, ScanState.isInside, ScanState.step, isBackslash] at goes
      · exact .inl (ScanState.step_literal isBackslash isQuote)
  · exact .inl rfl

/-- A literal is closed where the scan does not stand on a backslash, and by its own quote. -/
theorem step_eq_start_iff {character : Char} (isQuote : ScanState.isQuote quote = true)
    (within : Within 0 quote state) :
    state.step character = .start ↔ state = .literal 0 quote ∧ character = quote := by
  have noBackslash : quote ≠ '\\' := by
    rintro rfl
    exact absurd isQuote (by decide)
  rcases within with rfl | rfl
  · by_cases isBackslash : character = '\\'
    · simp [ScanState.step, start, isBackslash, noBackslash.symm]
    · simp [ScanState.step, start, isBackslash]
  · simp [ScanState.step, start]

end ScanState.Within

theorem Passes.within (run : Passes ScanState.closesLiteral state text final)
    (within : ScanState.Within depth quote state) : ScanState.Within depth quote final := by
  induction run with
  | nil => exact within
  | cons goes _ inductionHypothesis => exact inductionHypothesis (within.step goes)

/-! ## What makes a literal -/

/-- A text of two characters or more opens a literal when its first character is a quote and no
literal ends between the first character and the last. -/
theorem opensLiteral_iff :
    OpensLiteral quote (quote :: body ++ [last])
      ↔ ScanState.isQuote quote = true
        ∧ ∃ final, Passes ScanState.closesLiteral (.literal 0 quote) body final := by
  constructor
  · intro literal
    refine ⟨literal.isQuote, _, passes_iff.mpr ⟨rfl, fun before character after whole => ?_⟩⟩
    have inside := literal.staysInside (quote :: before ++ [character]) (after ++ [last])
      (by simp [whole]) (List.cons_ne_nil _ _) (by simp)
    rw [ScanState.run_append, ScanState.start, ScanState.run_quote 0 literal.isQuote] at inside
    change ScanState.isInside (ScanState.step _ character) = true at inside
    rw [ScanState.closesLiteral, inside, Bool.not_true, Bool.and_false]
  · rintro ⟨isQuote, final, run⟩
    refine ⟨isQuote, rfl, fun before after whole notEmpty notAll => ?_⟩
    cases before with
    | nil => exact absurd rfl notEmpty
    | cons first front =>
        obtain ⟨rfl, rest⟩ := List.cons_eq_cons.mp whole
        change body ++ [last] = front ++ after at rest
        have isFront : front <+: body := by
          rcases List.prefix_concat_iff.mp ⟨after, rest.symm⟩ with all | isFront
          · rw [← all, List.self_eq_append_right] at rest
            exact absurd rest notAll
          · exact isFront
        obtain ⟨behind, rfl⟩ := isFront
        rw [ScanState.start, ScanState.run_quote 0 isQuote]
        exact (run.of_append.within (.inl rfl)).isInside

/-- A quote, a text on which no literal ends, and a quote again are a literal when the scan does
not stand on a backslash between the two. -/
theorem isLiteral_iff_of_passes (isQuote : ScanState.isQuote quote = true)
    (run : Passes ScanState.closesLiteral (.literal 0 quote) body final) :
    IsLiteral quote (quote :: body ++ [last])
      ↔ final = .literal 0 quote ∧ last = quote := by
  have ends : ScanState.start.run (quote :: body ++ [last]) = final.step last := by
    rw [ScanState.run_append, ScanState.start, ScanState.run_quote 0 isQuote, run.run_eq]
    rfl
  rw [← ScanState.Within.step_eq_start_iff isQuote (run.within (.inl rfl)), ← ends]
  exact ⟨IsLiteral.closes, IsLiteral.mk (opensLiteral_iff.mpr ⟨isQuote, final, run⟩)⟩

/-- **A literal** is a quote, a text on which no literal ends and which leaves no backslash
standing, and the quote again. -/
theorem isLiteral_iff :
    IsLiteral quote text
      ↔ ScanState.isQuote quote = true
        ∧ ∃ body, text = quote :: body ++ [quote]
          ∧ Passes ScanState.closesLiteral (.literal 0 quote) body (.literal 0 quote) := by
  constructor
  · intro literal
    obtain ⟨rest, rfl⟩ := List.head?_eq_some_iff.mp literal.opens
    rcases List.eq_nil_or_concat' rest with rfl | ⟨body, last, rfl⟩
    · have closes := literal.closes
      rw [ScanState.start, ScanState.run_quote 0 literal.isQuote] at closes
      exact absurd closes (by simp [ScanState.run])
    · obtain ⟨isQuote, final, run⟩ := opensLiteral_iff.mp literal.toOpensLiteral
      obtain ⟨rfl, rfl⟩ := (isLiteral_iff_of_passes isQuote run).mp literal
      exact ⟨isQuote, body, rfl, run⟩
  · rintro ⟨isQuote, body, rfl, run⟩
    exact (isLiteral_iff_of_passes isQuote run).mpr ⟨rfl, rfl⟩

/-! ## Quoted contents -/

/-- The flag of the quoting behind a character: a backslash that is not escaped escapes. -/
def escapes (escaped : Bool) (character : Char) : Bool :=
  character = '\\' && !escaped

/-- Where the scan stands inside a literal in single quotes, by the flag of the quoting. -/
def insideSingle (depth : Nat) : Bool → ScanState
  | false => .literal depth '\''
  | true => .escape depth '\''

/-- **Quoting goes along with the scan.**  On a quoted content no literal ends, and behind every
character the flag of the quoting tells where the scan stands. -/
theorem passes_escapeContent (depth : Nat) (escaped : Bool) (content : Text) :
    Passes ScanState.closesLiteral (insideSingle depth escaped) (escapeContent escaped content)
      (insideSingle depth (content.foldl escapes escaped)) := by
  induction content generalizing escaped with
  | nil => exact .nil _
  | cons character rest inductionHypothesis =>
      have following := inductionHypothesis (escapes escaped character)
      cases escaped with
      | true =>
          have noFlag : escapes true character = false := Bool.and_false _
          rw [noFlag] at following
          simp only [escapeContent, Bool.not_true, Bool.and_false, Bool.false_eq_true, ↓reduceIte,
            List.foldl_cons, noFlag]
          exact .cons rfl following
      | false =>
          by_cases isBare : character = '\''
          · subst isBare
            exact .cons rfl (.cons rfl following)
          · by_cases isBackslash : character = '\\'
            · subst isBackslash
              exact .cons rfl following
            · have noFlag : escapes false character = false := by simp [escapes, isBackslash]
              rw [noFlag] at following
              simp only [escapeContent, isBare, isBackslash, decide_false, Bool.false_and,
                Bool.false_eq_true, ↓reduceIte, List.foldl_cons, noFlag]
              exact (passes_plain isBackslash isBare).append following

/-- How many backslashes a content ends in. -/
def trailingBackslashes (content : Text) : Nat :=
  (content.rtakeWhile (· = '\\')).length

/-- A backslash that escapes is left standing behind a content exactly when the content ends in an
odd number of backslashes. -/
theorem foldl_escapes_iff (content : Text) :
    content.foldl escapes false = true ↔ Odd (trailingBackslashes content) := by
  unfold trailingBackslashes
  induction content using List.reverseRecOn with
  | nil => simp
  | append_singleton front last inductionHypothesis =>
      rw [List.foldl_concat, List.rtakeWhile_concat, escapes]
      by_cases isBackslash : last = '\\'
      · simp [isBackslash, Nat.odd_add_one, ← inductionHypothesis]
      · simp [isBackslash]

/-- A quoted content opens a literal at its first character and closes none before its last. -/
theorem opensLiteral_quoteLiteral (content : Text) : OpensLiteral '\'' (quoteLiteral content) :=
  opensLiteral_iff.mpr ⟨rfl, _, passes_escapeContent 0 false content⟩

/-- **A quoted content is a literal** exactly when it ends in an even number of backslashes. -/
theorem isLiteral_quoteLiteral_iff (content : Text) :
    IsLiteral '\'' (quoteLiteral content) ↔ Even (trailingBackslashes content) := by
  rw [quoteLiteral, isLiteral_iff_of_passes rfl (passes_escapeContent 0 false content),
    ← Nat.not_odd_iff_even, ← foldl_escapes_iff]
  cases content.foldl escapes false <;> simp [insideSingle]

/-- A backslash that is left standing takes the closing quote with it, and the scan goes on inside
the literal. -/
theorem run_quoteLiteral_of_odd {content : Text} (odd : Odd (trailingBackslashes content))
    (depth : Nat) : (ScanState.code depth).run (quoteLiteral content) = .literal depth '\'' := by
  have inside := (passes_escapeContent depth false content).run_eq
  rw [(foldl_escapes_iff content).mpr odd] at inside
  rw [quoteLiteral, List.cons_append, ScanState.run_quote depth rfl, ScanState.run_append]
  change ((insideSingle depth false).run _).run _ = _
  rw [inside]
  rfl

end Typesheet.Expression

import Typesheet.Text.Basic

/-!
Contract: the left-to-right scan of a type expression.

Owns: the scan state (group depth, open literal, pending escape), its step on
one character, and the first place in a text where a condition on the state
holds.

`'` and `"` open a literal that runs to the same quote; a backslash inside a
literal takes the next character with it; a literal that is never closed runs
to the end.  Parentheses count only outside literals, and a closing one without
a partner leaves the depth at zero.
-/

set_option autoImplicit false

namespace Typesheet.Expression

/-- Where a scan stands: in the open at a group depth, inside a literal, or on
the character that a backslash inside a literal takes with it. -/
inductive ScanState where
  | code (depth : Nat)
  | literal (depth : Nat) (quote : Char)
  | escape (depth : Nat) (quote : Char)
deriving DecidableEq, Repr

namespace ScanState

/-- A scan starts in the open, outside every group. -/
def start : ScanState := .code 0

/-- The two characters that open a literal. -/
def isQuote (character : Char) : Bool :=
  character = '\'' || character = '"'

def step : ScanState → Char → ScanState
  | .code depth, character =>
      if isQuote character then .literal depth character
      else if character = '(' then .code (depth + 1)
      else if character = ')' then .code (depth - 1)
      else .code depth
  | .literal depth quote, character =>
      if character = '\\' then .escape depth quote
      else if character = quote then .code depth
      else .literal depth quote
  | .escape depth quote, _ => .literal depth quote

/-- The state after a text. -/
def run (state : ScanState) (text : Text) : ScanState :=
  text.foldl step state

/-- A separator: `|` in the open, outside every group. -/
def separates (state : ScanState) (character : Char) : Bool :=
  state = .code 0 && character = '|'

/-- The end of a group: `)` in the open, after which no group is open. -/
def closesGroup : ScanState → Char → Bool
  | .code depth, character => character = ')' && depth ≤ 1
  | _, _ => false

end ScanState

/-- Cut a text at the first character where `stop` holds of the state reached
and the character: what stands before it and, if there is one, what follows
it. -/
def cut (stop : ScanState → Char → Bool) : ScanState → Text → Text × Option Text
  | _, [] => ([], none)
  | state, character :: rest =>
      if stop state character then ([], some rest)
      else
        let following := cut stop (state.step character) rest
        (character :: following.1, following.2)

/-- What stands before a cut is no longer than the text. -/
theorem length_cut_fst_le (stop : ScanState → Char → Bool) :
    ∀ (text : Text) (state : ScanState), (cut stop state text).1.length ≤ text.length
  | [], _ => Nat.le_refl _
  | character :: rest, state => by
      unfold cut
      split
      · exact Nat.zero_le _
      · exact Nat.succ_le_succ (length_cut_fst_le stop rest _)

/-- What stands on the two sides of a cut, with the character cut at, is as long
as the text. -/
theorem length_cut_snd {stop : ScanState → Char → Bool} {after : Text} :
    ∀ {text : Text} {state : ScanState}, (cut stop state text).2 = some after →
      (cut stop state text).1.length + after.length + 1 = text.length
  | [], _, found => by simp [cut] at found
  | character :: rest, state, found => by
      unfold cut at found ⊢
      split at found
      · rename_i stops
        simp only [stops, ↓reduceIte, Option.some.injEq] at found ⊢
        simp [found]
      · rename_i passes
        have inner := length_cut_snd found
        simp only [passes, Bool.false_eq_true, ↓reduceIte, List.length_cons] at inner ⊢
        omega

end Typesheet.Expression

import Typesheet.Expression.Scan

/-!
Contract: the tokens of a type expression.

Owns: the three shapes of a token, taking the first token off a text, and the
list of all tokens.

An expression is cut at every top-level `|`.  A token that is one whole group
`( … )`, or a group followed directly by `[]`, carries the text between its
parentheses; every other token is plain.
-/

set_option autoImplicit false

namespace Typesheet.Expression

/-- The shape of a token; a group carries the text between its parentheses. -/
inductive Shape where
  | plain
  | group (inner : Text)
  | groupArray (inner : Text)
deriving DecidableEq, Repr

def Shape.ofText (text : Text) : Shape :=
  match text with
  | '(' :: rest =>
      match cut ScanState.closesGroup (.code 1) rest with
      | (inner, some []) => .group inner
      | (inner, some ['[', ']']) => .groupArray inner
      | _ => .plain
  | _ => .plain

/-- One token: its shape and trimmed text, the text it was taken from, and the
trimmed text that is left after it. -/
structure Token where
  shape : Shape
  text : Text
  source : Text
  rest : Text
deriving DecidableEq, Repr

namespace Token

/-- What a token encloses: the text between the parentheses of a group, the text
itself of a plain token. -/
def inner (token : Token) : Text :=
  match token.shape with
  | .plain => token.text
  | .group inner => inner
  | .groupArray inner => inner

/-- Take the first token off a text. -/
def next (source : Text) : Token :=
  let pieces := cut ScanState.separates .start source
  let text := Text.trim pieces.1
  { shape := Shape.ofText text
    text := text
    source := source
    rest := Text.trim (pieces.2.getD []) }

/-- The text of the first token is no longer than its source. -/
theorem length_text_next_le (source : Text) : (next source).text.length ≤ source.length :=
  Nat.le_trans (Text.length_trim_le _) (length_cut_fst_le _ source _)

/-- What is left after the first token is shorter than a source that is not
empty. -/
theorem length_rest_next_lt {source : Text} (nonempty : source ≠ []) :
    (next source).rest.length < source.length := by
  have positive : 0 < source.length := List.length_pos_iff.2 nonempty
  have trimmed := Text.length_trim_le ((cut ScanState.separates .start source).2.getD [])
  cases found : (cut ScanState.separates .start source).2 with
  | none => simpa [next, found, Text.trim, Text.trimEnd, Text.trimStart] using positive
  | some after =>
      have lengths := length_cut_snd found
      simp only [next, found, Option.getD_some] at trimmed ⊢
      omega

def listTrimmed (source : Text) : List Token :=
  if source = [] then [] else next source :: listTrimmed (next source).rest
termination_by source.length
decreasing_by exact length_rest_next_lt (by assumption)

/-- All tokens of a text, in order.  A blank piece after the last separator is
no token; a blank piece before one is. -/
def list (text : Text) : List Token :=
  listTrimmed (Text.trim text)

def texts (text : Text) : List Text :=
  (list text).map Token.text

/-- The text of every token is no longer than the text it comes from. -/
theorem length_text_le_of_mem_listTrimmed {token : Token} {source : Text}
    (member : token ∈ listTrimmed source) : token.text.length ≤ source.length := by
  fun_induction listTrimmed source with
  | case1 => simp at member
  | case2 source nonempty inductionHypothesis =>
      rcases List.mem_cons.1 member with rfl | later
      · exact length_text_next_le source
      · exact Nat.le_trans (inductionHypothesis later)
          (Nat.le_of_lt (length_rest_next_lt nonempty))

/-- The text of every token is no longer than the text it comes from. -/
theorem length_text_le_of_mem_list {token : Token} {text : Text}
    (member : token ∈ list text) : token.text.length ≤ text.length :=
  Nat.le_trans (length_text_le_of_mem_listTrimmed member) (Text.length_trim_le text)

theorem shape_of_mem_listTrimmed {token : Token} {source : Text}
    (member : token ∈ listTrimmed source) : token.shape = Shape.ofText token.text := by
  fun_induction listTrimmed source with
  | case1 => simp at member
  | case2 source nonempty inductionHypothesis =>
      rcases List.mem_cons.1 member with rfl | later
      · rfl
      · exact inductionHypothesis later

end Token

/-- The text enclosed by a group is shorter than the group. -/
theorem Shape.length_lt_of_ofText {text inner : Text}
    (found : Shape.ofText text = .group inner ∨ Shape.ofText text = .groupArray inner) :
    inner.length < text.length := by
  unfold Shape.ofText at found
  split at found
  · rename_i rest
    have bound := length_cut_fst_le ScanState.closesGroup rest (.code 1)
    split at found
    · rename_i enclosed pieces
      obtain rfl : enclosed = inner := by simpa using found
      rw [pieces] at bound
      exact Nat.lt_succ_of_le bound
    · rename_i enclosed pieces
      obtain rfl : enclosed = inner := by simpa using found
      rw [pieces] at bound
      exact Nat.lt_succ_of_le bound
    · simp at found
  · simp at found

end Typesheet.Expression

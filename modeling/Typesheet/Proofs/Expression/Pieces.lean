import Typesheet.Proofs.Expression.Passes

/-!
Contract: the tokens of an expression are the pieces of one scan.

Owns: the characters of a text with the states in which a single scan meets them, the
pieces between the separators that this scan meets, and the theorem that taking token after
token off a text gives these pieces, trimmed.

A token is taken by a new scan of what is left, trimmed.  Behind a separator the single scan
stands in the open, outside every group, so it goes on as a new scan would
(`pieces_cons`); and the white space that is trimmed off the front leaves a scan in the open
where it is (`map_trim_pieces_trimStart`).
-/

set_option autoImplicit false

namespace Typesheet.Expression

/-- The characters of a text, each with the state in which one scan from the left meets
it. -/
def scan : ScanState → Text → List (ScanState × Char)
  | _, [] => []
  | state, character :: rest => (state, character) :: scan (state.step character) rest

/-- The pieces of a text between the separators that one scan of it meets. -/
def pieces (state : ScanState) (text : Text) : List Text :=
  ((scan state text).splitOnP fun met => ScanState.separates met.1 met.2).map
    (List.map Prod.snd)

variable {state final : ScanState} {text before after source : Text}

theorem separates_iff {character : Char} :
    ScanState.separates state character = true ↔ state = .start ∧ character = '|' := by
  simp [ScanState.separates, ScanState.start]

theorem pieces_ne_nil (state : ScanState) (text : Text) : pieces state text ≠ [] := by
  unfold pieces
  rw [ne_eq, List.map_eq_nil_iff]
  exact List.splitOnP_ne_nil _ _

/-- Behind a separator a new piece starts, with the scan in the state of a new scan; any
other character belongs to the first piece of what follows it. -/
theorem pieces_cons (state : ScanState) (character : Char) (rest : Text) :
    pieces state (character :: rest)
      = if state.separates character then [] :: pieces .start rest
        else (pieces (state.step character) rest).modifyHead (character :: ·) := by
  unfold pieces
  rw [scan, List.splitOnP_cons_eq_if_modifyHead]
  split
  case isTrue separates =>
    obtain ⟨rfl, rfl⟩ := separates_iff.mp separates
    rfl
  case isFalse =>
    cases (scan (state.step character) rest).splitOnP _ with
    | nil => rfl
    | cons first others => rfl

/-- No character is lost, doubled or moved: the pieces with the separators between them are
the text. -/
theorem intercalate_pieces (state : ScanState) (text : Text) :
    "|".toList.intercalate (pieces state text) = text := by
  induction text generalizing state with
  | nil => rfl
  | cons character rest inductionHypothesis =>
      rw [pieces_cons]
      split
      case isTrue separates =>
        obtain ⟨rfl, rfl⟩ := separates_iff.mp separates
        have following := inductionHypothesis .start
        cases listed : pieces .start rest with
        | nil => exact absurd listed (pieces_ne_nil _ _)
        | cons first others =>
            rw [listed] at following
            rw [List.intercalate_cons_cons, following]
            rfl
      case isFalse =>
        have following := inductionHypothesis (state.step character)
        cases listed : pieces (state.step character) rest with
        | nil => exact absurd listed (pieces_ne_nil _ _)
        | cons first others =>
            rw [listed] at following
            rw [← following]
            cases others <;> rfl

/-! ## Pieces and cuts -/

theorem Passes.pieces_append (run : Passes ScanState.separates state text final) (rest : Text) :
    pieces state (text ++ rest) = (pieces final rest).modifyHead (text ++ ·) := by
  induction run with
  | nil state =>
      rw [List.nil_append]
      cases pieces state rest <;> rfl
  | cons goes _ inductionHypothesis =>
      rw [List.cons_append, pieces_cons, if_neg (by simp [goes]), inductionHypothesis,
        List.modifyHead_modifyHead]
      rfl

theorem Passes.pieces_eq (run : Passes ScanState.separates state text final) :
    pieces state text = [text] := by
  have whole := run.pieces_append []
  rw [List.append_nil] at whole
  rw [whole]
  show [text ++ []] = [text]
  rw [List.append_nil]

theorem Passes.pieces_append_cons (run : Passes ScanState.separates state before final)
    {character : Char} (stops : final.separates character = true) (after : Text) :
    pieces state (before ++ character :: after) = before :: pieces .start after := by
  rw [run.pieces_append, pieces_cons, if_pos stops, List.modifyHead_cons, List.append_nil]

/-- The white space in front of a text changes no trimmed piece of it. -/
theorem map_trim_pieces_trimStart (text : Text) :
    (pieces .start (Text.trimStart text)).map Text.trim
      = (pieces .start text).map Text.trim := by
  obtain ⟨blanks, blank, whole⟩ := Text.exists_trimStart text
  have run : Passes ScanState.separates .start blanks .start := by
    rw [separates_eq]
    exact .of_isBlank blank
  conv_rhs => rw [whole, run.pieces_append]
  cases pieces .start (Text.trimStart text) with
  | nil => rfl
  | cons first others =>
      have same := Text.trim_pad blank Text.isBlank_nil first
      rw [List.append_nil] at same
      rw [List.modifyHead_cons, List.map_cons, List.map_cons, same]

namespace Token

/-- **The tokens of a trimmed text** are its trimmed pieces, less the last one if nothing is
left of it. -/
theorem texts_listTrimmed {front : List Text} {last : Text}
    (trimmed : Text.trim source = source)
    (listed : (pieces .start source).map Text.trim = front ++ [last]) :
    (listTrimmed source).map Token.text = front ++ if last = [] then [] else [last] := by
  fun_induction listTrimmed source generalizing front with
  | case1 =>
      obtain ⟨rfl, lastEq⟩ : [] = front ∧ [[]] = [last] := List.append_inj' listed rfl
      obtain rfl : [] = last := List.singleton_inj.mp lastEq
      rfl
  | case2 source nonempty inductionHypothesis =>
      rcases cut_cases ScanState.separates .start source with
        ⟨final, run, cutEq⟩ | ⟨before, bar, after, final, run, stops, rfl, cutEq⟩
      · -- The scan meets no separator: the token is the whole text.
        have textEq : (next source).text = source := by
          simp only [next, cutEq]
          exact trimmed
        have restEq : (next source).rest = [] := by
          simp only [next, cutEq]
          rfl
        rw [run.pieces_eq] at listed
        obtain ⟨rfl, lastEq⟩ : [] = front ∧ [Text.trim source] = [last] :=
          List.append_inj' listed rfl
        obtain rfl : Text.trim source = last := List.singleton_inj.mp lastEq
        rw [List.map_cons, textEq, restEq, listTrimmed, if_pos rfl, trimmed, if_neg nonempty]
        rfl
      · have textEq : (next (before ++ bar :: after)).text = Text.trim before := by
          simp only [next, cutEq]
        have restEq : (next (before ++ bar :: after)).rest = Text.trim after := by
          simp only [next, cutEq, Option.getD_some]
        rw [List.append_cons] at trimmed
        have leading : Text.trim after = Text.trimStart after := Text.trim_eq_trimStart trimmed
        rw [run.pieces_append_cons stops, List.map_cons, ← map_trim_pieces_trimStart,
          ← leading] at listed
        rw [restEq] at inductionHypothesis
        rw [List.map_cons, textEq, restEq]
        cases front with
        | nil =>
            have nothing := (List.cons_eq_cons.mp listed).2
            exact absurd (List.map_eq_nil_iff.mp nothing) (pieces_ne_nil _ _)
        | cons first others =>
            obtain ⟨rfl, following⟩ := List.cons_eq_cons.mp listed
            rw [inductionHypothesis (Text.trim_trim after) following, List.cons_append]

/-- A text without blanks around it and without a separator is one token, whatever it leaves
open. -/
theorem texts_of_passes (tight : Text.Tight text)
    (run : Passes ScanState.separates .start text final) : texts text = [text] := by
  have listed : (pieces .start text).map Text.trim = [] ++ [text] := by
    rw [run.pieces_eq, List.map_singleton, tight.trim_eq, List.nil_append]
  rw [texts_eq, tight.trim_eq, texts_listTrimmed tight.trim_eq listed, if_neg tight.nonempty,
    List.nil_append]

/-- **The first token** is the first piece, trimmed, and what is left is what stands behind
the separator, trimmed. -/
theorem next_eq_pieces (source : Text) :
    ∃ first others, pieces .start source = first :: others
      ∧ (next source).text = Text.trim first
      ∧ (next source).rest = Text.trim ("|".toList.intercalate others) := by
  rcases cut_cases ScanState.separates .start source with
    ⟨final, run, cutEq⟩ | ⟨before, bar, after, final, run, stops, rfl, cutEq⟩
  · refine ⟨source, [], run.pieces_eq, ?_, ?_⟩
    · simp only [next, cutEq]
    · simp only [next, cutEq]
      rfl
  · refine ⟨before, pieces .start after, run.pieces_append_cons stops after, ?_, ?_⟩
    · simp only [next, cutEq]
    · rw [intercalate_pieces]
      simp only [next, cutEq, Option.getD_some]

/-- **The tokens of an expression are the pieces of one scan.**  Scan a text, trimmed, once
from the left and cut it at every separator.  The pieces with the separators between them are
the text, and trimmed they are the texts of its tokens, less the last piece if and only if
it is blank.  The first token of any text and what is left behind it are made of the pieces
of that text in the same way. -/
theorem texts_eq_trimmed_pieces (text : Text) :
    (∃ front last, pieces .start (Text.trim text) = front ++ [last]
        ∧ texts text
          = front.map Text.trim ++ if Text.isBlankText last then [] else [Text.trim last])
      ∧ "|".toList.intercalate (pieces .start (Text.trim text)) = Text.trim text
      ∧ ∃ first others, pieces .start text = first :: others
        ∧ "|".toList.intercalate (first :: others) = text
        ∧ (next text).text = Text.trim first
        ∧ (next text).rest = Text.trim ("|".toList.intercalate others) := by
  refine ⟨?_, intercalate_pieces _ _, ?_⟩
  · have nonempty := pieces_ne_nil .start (Text.trim text)
    have listed := List.dropLast_append_getLast nonempty
    have trimmed : (pieces .start (Text.trim text)).map Text.trim
        = ((pieces .start (Text.trim text)).dropLast).map Text.trim
          ++ [Text.trim ((pieces .start (Text.trim text)).getLast nonempty)] := by
      conv_lhs => rw [← listed, List.map_append]
      rfl
    refine ⟨_, _, listed.symm, ?_⟩
    rw [texts_eq, texts_listTrimmed (Text.trim_trim text) trimmed]
    simp only [Text.isBlankText, List.isEmpty_iff]
  · obtain ⟨first, others, listed, textEq, restEq⟩ := next_eq_pieces text
    have whole := intercalate_pieces .start text
    rw [listed] at whole
    exact ⟨first, others, listed, whole, textEq, restEq⟩

end Token

end Typesheet.Expression

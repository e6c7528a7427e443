import Typesheet.Proofs.Expression.Pieces

/-!
Contract: what stands between the terms of an expression does not count.

Owns: the segments of a text, which are its pieces without those that are blank; gaps, which are
made of separators and white space; and what a gap in front of a text, behind it or between two
texts does to the segments.

The segments split at a separator (`segments_append_bar`), and all that is said about gaps follows
from this and from the trimming of the pieces at the two ends.
-/

set_option autoImplicit false

namespace Typesheet.Expression

/-- The trimmed pieces of a text, less those of which nothing is left. -/
def segments (text : Text) : List Text :=
  ((pieces .start text).map Text.trim).filter fun piece => !piece.isEmpty

/-- Separators and white space. -/
def IsGap (text : Text) : Prop :=
  ∀ character ∈ text, Text.isBlank character = true ∨ character = '|'

/-- A gap with a separator in it. -/
structure IsSeparator (text : Text) : Prop where
  isGap : IsGap text
  hasBar : '|' ∈ text

variable {state : ScanState} {text before after gap : Text}

/-! ## Segments -/

theorem scan_append (state : ScanState) (before after : Text) :
    scan state (before ++ after) = scan state before ++ scan (state.run before) after := by
  induction before generalizing state with
  | nil => rfl
  | cons character rest inductionHypothesis =>
      rw [List.cons_append, scan, inductionHypothesis]
      rfl

/-- **Pieces split at a separator** that the scan meets outside every group and literal. -/
theorem pieces_append_bar (outside : state.run before = .start) (after : Text) :
    pieces state (before ++ '|' :: after) = pieces state before ++ pieces .start after := by
  have whole : scan state (before ++ '|' :: after)
      = scan state before ++ (.start, '|') :: scan .start after := by
    rw [scan_append, scan, outside]
    rfl
  rw [pieces, whole, List.splitOnP_append_cons _ _ rfl, List.map_append]
  rfl

theorem segments_append_bar (outside : ScanState.start.run before = .start) (after : Text) :
    segments (before ++ '|' :: after) = segments before ++ segments after := by
  rw [segments, pieces_append_bar outside, List.map_append, List.filter_append]
  rfl

theorem segments_trimStart (text : Text) : segments (Text.trimStart text) = segments text := by
  rw [segments, map_trim_pieces_trimStart]
  rfl

/-- White space at the end goes to the last piece, wherever the scan stands. -/
theorem exists_pieces_append (blank : Text.IsBlank after) (state : ScanState) (text : Text) :
    ∃ front last, pieces state text = front ++ [last]
      ∧ pieces state (text ++ after) = front ++ [last ++ after] := by
  induction text generalizing state with
  | nil =>
      have run : Passes ScanState.separates state after (state.run after) := by
        refine passes_iff.mpr ⟨rfl, fun front character rest whole => ?_⟩
        have isBlank := blank character (by simp [whole])
        rw [Bool.eq_false_iff]
        intro separates
        rw [(separates_iff.mp separates).2] at isBlank
        exact absurd isBlank (by decide)
      exact ⟨[], [], rfl, run.pieces_eq⟩
  | cons character rest inductionHypothesis =>
      rw [List.cons_append, pieces_cons, pieces_cons]
      split
      case isTrue =>
        obtain ⟨front, last, listed, appended⟩ := inductionHypothesis .start
        exact ⟨[] :: front, last, by rw [listed]; rfl, by rw [appended]; rfl⟩
      case isFalse =>
        obtain ⟨front, last, listed, appended⟩ := inductionHypothesis (state.step character)
        rw [listed, appended]
        cases front with
        | nil => exact ⟨[], character :: last, rfl, rfl⟩
        | cons first others => exact ⟨(character :: first) :: others, last, rfl, rfl⟩

theorem segments_append_of_isBlank (text : Text) (blank : Text.IsBlank after) :
    segments (text ++ after) = segments text := by
  obtain ⟨front, last, listed, appended⟩ := exists_pieces_append blank .start text
  have same := Text.trim_pad Text.isBlank_nil blank last
  rw [List.nil_append] at same
  simp only [segments, listed, appended, List.map_append, List.map_cons, List.map_nil, same]

theorem segments_trim (text : Text) : segments (Text.trim text) = segments text := by
  obtain ⟨after, blank, whole⟩ := Text.exists_trimEnd (Text.trimStart text)
  rw [← segments_trimStart text]
  conv_rhs => rw [whole]
  exact (segments_append_of_isBlank _ blank).symm

/-- The segments are the tokens that have a text. -/
theorem filter_texts_eq_segments (text : Text) :
    ((Token.texts text).filter fun token => !token.isEmpty) = segments text := by
  have nonempty : (pieces .start (Text.trim text)).map Text.trim ≠ [] := by
    rw [ne_eq, List.map_eq_nil_iff]
    exact pieces_ne_nil .start (Text.trim text)
  have listed := List.dropLast_append_getLast nonempty
  rw [Token.texts_eq, Token.texts_listTrimmed (Text.trim_trim text) listed.symm,
    ← segments_trim, segments]
  conv_rhs => rw [← listed]
  rw [List.filter_append, List.filter_append]
  congr 1
  split
  case isTrue nothing => rw [nothing]; rfl
  case isFalse => rfl

/-! ## Gaps -/

theorem segments_gap_append (isGap : IsGap gap) (after : Text) :
    segments (gap ++ after) = segments after := by
  induction gap with
  | nil => rfl
  | cons first rest inductionHypothesis =>
      have parts := List.forall_mem_cons.mp isGap
      have later := inductionHypothesis parts.2
      rw [← later, List.cons_append]
      cases parts.1 with
      | inl blank =>
          rw [← segments_trimStart (first :: (rest ++ after)),
            ← segments_trimStart (rest ++ after)]
          exact congrArg segments (List.dropWhile_cons_of_pos blank)
      | inr isBar =>
          have split : segments ([] ++ '|' :: (rest ++ after))
              = segments [] ++ segments (rest ++ after) := segments_append_bar rfl (rest ++ after)
          rw [isBar]
          exact split

theorem run_append_of_isGap (outside : ScanState.start.run before = .start) (isGap : IsGap gap) :
    ScanState.start.run (before ++ gap) = .start := by
  rw [ScanState.run_append, outside]
  induction gap with
  | nil => rfl
  | cons first rest inductionHypothesis =>
      have parts := List.forall_mem_cons.mp isGap
      have stays : ScanState.start.step first = .start := by
        cases parts.1 with
        | inl blank =>
            have run : Passes (stopsBelow 0 0) .start [first] .start :=
              .of_isBlank (List.forall_mem_singleton.mpr blank)
            exact run.run_eq
        | inr isBar => rw [isBar]; rfl
      change (ScanState.start.step first).run rest = .start
      rw [stays]
      exact inductionHypothesis parts.2

theorem segments_append_gap (outside : ScanState.start.run before = .start) (isGap : IsGap gap) :
    segments (before ++ gap) = segments before := by
  induction gap generalizing before with
  | nil => rw [List.append_nil]
  | cons first rest inductionHypothesis =>
      have parts := List.forall_mem_cons.mp isGap
      have isFirst : IsGap [first] := List.forall_mem_singleton.mpr parts.1
      rw [List.append_cons, inductionHypothesis (run_append_of_isGap outside isFirst) parts.2]
      cases parts.1 with
      | inl blank => exact segments_append_of_isBlank before (List.forall_mem_singleton.mpr blank)
      | inr isBar =>
          rw [isBar, segments_append_bar outside]
          exact List.append_nil (segments before)

/-- **A gap with a separator in it** parts the segments in front of it from those behind it, and
adds none. -/
theorem segments_append_separator (outside : ScanState.start.run before = .start)
    (separator : IsSeparator gap) (after : Text) :
    segments (before ++ gap ++ after) = segments before ++ segments after := by
  obtain ⟨front, behind, whole⟩ := List.append_of_mem separator.hasBar
  have isGap := separator.isGap
  rw [whole, IsGap, List.forall_mem_append, List.forall_mem_cons] at isGap
  have regroup : before ++ gap ++ after = (before ++ front) ++ '|' :: (behind ++ after) := by
    rw [whole]
    simp
  rw [regroup, segments_append_bar (run_append_of_isGap outside isGap.1),
    segments_append_gap outside isGap.1, segments_gap_append isGap.2.2]

end Typesheet.Expression

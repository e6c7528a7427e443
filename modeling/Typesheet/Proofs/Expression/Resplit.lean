import Typesheet.ColumnType.Parse
import Typesheet.Proofs.Expression.Gaps

/-!
Contract: tokens are stable under splitting again.

Owns: rows of texts as the separators of one scan leave them, the states that a scan meets, what
trimming does to the state behind a text, and the theorem that a token splits no further and that
tokens joined by separators are split back.

In a row every text but the last leaves the scan in the open, outside every group; the last one
may leave a literal or a group open, and nothing stands behind it that this could reach.  Trimming
keeps a row a row: white space changes nothing in the open, and inside a literal it does not lead
out, since a literal that a scan meets was opened by a quote.
-/

set_option autoImplicit false

namespace Typesheet.Expression

variable {state final : ScanState} {text blanks : Text} {tokens : List Text} {character : Char}

/-! ## White space and the state of a scan -/

namespace ScanState

/-- A state that a scan can meet: a literal is one that a quote opened. -/
def IsMet : ScanState → Prop
  | .code _ => True
  | .literal _ quote => isQuote quote = true
  | .escape _ quote => isQuote quote = true

theorem IsMet.step (isMet : state.IsMet) (character : Char) : (state.step character).IsMet := by
  cases state with
  | code depth =>
      by_cases quoted : isQuote character = true
      · rw [ScanState.step, if_pos quoted]
        exact quoted
      · rw [ScanState.step, if_neg quoted]
        split
        case isTrue => trivial
        case isFalse => split <;> trivial
  | literal depth quote =>
      rw [ScanState.step]
      split
      case isTrue => exact isMet
      case isFalse =>
        split
        case isTrue => trivial
        case isFalse => exact isMet
  | escape depth quote => exact isMet

theorem IsMet.run (isMet : state.IsMet) (text : Text) : (state.run text).IsMet := by
  induction text generalizing state with
  | nil => exact isMet
  | cons first rest inductionHypothesis => exact inductionHypothesis (isMet.step first)

/-- A blank does not lead to the start of a scan from anywhere else. -/
theorem IsMet.step_eq_start_iff (isMet : state.IsMet) (blank : Text.isBlank character = true) :
    state.step character = .start ↔ state = .start := by
  cases state with
  | code depth =>
      have stays : Passes (stopsBelow 0 0) (.code depth) [character] (.code depth) :=
        .of_isBlank (List.forall_mem_singleton.mpr blank)
      have same : (ScanState.code depth).step character = .code depth := stays.run_eq
      rw [same]
  | literal depth quote =>
      have noQuote : character ≠ quote := by
        rintro rfl
        have ordinary := isOrdinary_of_isBlank blank
        change isQuote character = true at isMet
        simp [isOrdinary, isMet] at ordinary
      rw [ScanState.step, if_neg noQuote]
      split <;> simp [start]
  | escape depth quote => simp [ScanState.step, start]

theorem IsMet.run_eq_start_iff (isMet : state.IsMet) (blank : Text.IsBlank text) :
    state.run text = .start ↔ state = .start := by
  induction text generalizing state with
  | nil => rfl
  | cons first rest inductionHypothesis =>
      have parts := List.forall_mem_cons.mp blank
      change (state.step first).run rest = .start ↔ _
      rw [inductionHypothesis (isMet.step first) parts.2, isMet.step_eq_start_iff parts.1]

/-- **Trimming opens and closes nothing**: behind a text the scan stands at the start exactly when
it does behind what trimming leaves of it. -/
theorem run_trim_eq_start_iff (text : Text) :
    start.run (Text.trim text) = .start ↔ start.run text = .start := by
  obtain ⟨before, after, blankBefore, blankAfter, whole⟩ := Text.exists_blanks text
  have isMet : start.IsMet := trivial
  have leading : start.run before = .start := (isMet.run_eq_start_iff blankBefore).mpr rfl
  conv_rhs => rw [whole, run_append, run_append, leading]
  exact ((isMet.run (Text.trim text)).run_eq_start_iff blankAfter).symm

end ScanState

theorem Passes.trim (run : Passes ScanState.separates .start text final) :
    Passes ScanState.separates .start (Text.trim text) (ScanState.start.run (Text.trim text)) := by
  obtain ⟨before, after, blankBefore, -, whole⟩ := Text.exists_blanks text
  have isMet : ScanState.start.IsMet := trivial
  have leading : ScanState.start.run before = .start :=
    (isMet.run_eq_start_iff blankBefore).mpr rfl
  rw [whole, List.append_assoc] at run
  have behind := run.of_append_right.of_append
  rwa [leading] at behind

/-! ## Rows -/

/-- Texts as the separators of one scan leave them: it meets no separator on any of them, and
behind each but the last it stands in the open, outside every group. -/
inductive Row : List Text → Prop where
  | nil : Row []
  | last {text : Text} {final : ScanState}
      (run : Passes ScanState.separates .start text final) : Row [text]
  | cons {text : Text} {others : List Text}
      (run : Passes ScanState.separates .start text .start) (following : Row others) :
      Row (text :: others)

theorem row_pieces (text : Text) : Row (pieces .start text) := by
  induction size : text.length using Nat.strongRecOn generalizing text with
  | ind size inductionHypothesis =>
      subst size
      rcases cut_cases ScanState.separates .start text with
        ⟨final, run, -⟩ | ⟨before, bar, after, final, run, stops, rfl, -⟩
      · rw [run.pieces_eq]
        exact .last run
      · rw [run.pieces_append_cons stops]
        obtain ⟨rfl, -⟩ := separates_iff.mp stops
        have shorter : after.length < (before ++ bar :: after).length := by
          simp only [List.length_append, List.length_cons]
          omega
        exact .cons run (inductionHypothesis _ shorter after rfl)

theorem Row.map_trim (row : Row tokens) : Row (tokens.map Text.trim) := by
  induction row with
  | nil => exact .nil
  | last run => exact .last run.trim
  | cons run _ inductionHypothesis =>
      have trimmed := run.trim
      rw [(ScanState.run_trim_eq_start_iff _).mpr run.run_eq] at trimmed
      exact .cons trimmed inductionHypothesis

theorem Row.filter (row : Row tokens) (keeps : Text → Bool) : Row (tokens.filter keeps) := by
  induction row with
  | nil => exact .nil
  | @last text final run =>
      cases kept : keeps text with
      | true =>
          rw [List.filter_cons_of_pos kept]
          exact .last run
      | false =>
          rw [List.filter_cons_of_neg (by simp [kept])]
          exact .nil
  | @cons text others run _ inductionHypothesis =>
      cases kept : keeps text with
      | true =>
          rw [List.filter_cons_of_pos kept]
          exact .cons run inductionHypothesis
      | false =>
          rw [List.filter_cons_of_neg (by simp [kept])]
          exact inductionHypothesis

theorem row_segments (text : Text) : Row (segments text) :=
  (row_pieces text).map_trim.filter _

theorem tight_of_mem_segments {segment : Text} (member : segment ∈ segments text) :
    Text.Tight segment := by
  obtain ⟨isTrimmed, nonempty⟩ := List.mem_filter.mp member
  obtain ⟨piece, -, rfl⟩ := List.mem_map.mp isTrimmed
  exact Text.tight_trim (by simpa using nonempty)

theorem Row.exists_passes (row : Row tokens) (member : text ∈ tokens) :
    ∃ final, Passes ScanState.separates .start text final := by
  induction row with
  | nil => exact absurd member List.not_mem_nil
  | last run => exact ⟨_, List.mem_singleton.mp member ▸ run⟩
  | cons run _ inductionHypothesis =>
      rcases List.mem_cons.mp member with rfl | later
      · exact ⟨_, run⟩
      · exact inductionHypothesis later

namespace Token

theorem texts_append_of_isBlank (blank : Text.IsBlank blanks) (text : Text) :
    texts (blanks ++ text) = texts text := by
  have same := Text.trim_pad blank Text.isBlank_nil text
  rw [List.append_nil] at same
  rw [texts_eq, texts_eq, same]

/-- **A row is split back** when its texts are joined by separators. -/
theorem texts_intercalate (row : Row tokens) (tight : ∀ token ∈ tokens, Text.Tight token) :
    texts (" | ".toList.intercalate tokens) = tokens := by
  induction row with
  | nil =>
      have nothing : Text.trim [] = [] := rfl
      rw [List.intercalate_nil, texts_eq, nothing, listTrimmed, if_pos rfl, List.map_nil]
  | @last token final run =>
      rw [List.intercalate_singleton]
      exact texts_of_passes (tight token (List.mem_singleton_self token)) run
  | @cons token others run _ inductionHypothesis =>
      obtain ⟨isTight, othersTight⟩ := List.forall_mem_cons.mp tight
      cases others with
      | nil =>
          rw [List.intercalate_singleton]
          exact texts_of_passes isTight run
      | cons second rest =>
          have space : Text.IsBlank [' '] := by decide
          have regroup : " | ".toList.intercalate (token :: second :: rest)
              = [] ++ token ++ [' '] ++ '|' ::
                ([' '] ++ " | ".toList.intercalate (second :: rest)) := by
            rw [List.intercalate_cons_cons]
            simp
          rw [separates_eq] at run
          rw [regroup, texts_cons isTight run Text.isBlank_nil space,
            texts_append_of_isBlank space, inductionHypothesis othersTight]

/-- **Tokens split no further.**  A token that has a text is the only token of this text.  The
tokens that have one, joined by separators, are split back as they are.  So what the reader of
expressions has cut out as a term is one literal to the reader of literals. -/
theorem tokens_split_no_further (text : Text) :
    let kept := (texts text).filter fun token => !token.isEmpty
    (∀ token ∈ texts text, token ≠ [] → texts token = [token])
      ∧ texts (" | ".toList.intercalate kept) = kept
      ∧ ∀ term ∈ ColumnType.termTokens text,
        ColumnType.ofLiterals (Text.trim term.text) = ColumnType.ofLiteral term.text := by
  intro kept
  have keptEq : kept = segments text := filter_texts_eq_segments text
  have row : Row kept := keptEq ▸ row_segments text
  have tight : ∀ token ∈ kept, Text.Tight token := by
    rw [keptEq]
    exact fun _ => tight_of_mem_segments
  have single : ∀ token ∈ kept, texts token = [token] := by
    intro token member
    obtain ⟨final, run⟩ := row.exists_passes member
    exact texts_of_passes (tight token member) run
  refine ⟨?_, texts_intercalate row tight, ?_⟩
  · intro token member nonempty
    exact single token (List.mem_filter.mpr ⟨member, by simpa using nonempty⟩)
  · intro term isTerm
    obtain ⟨listed, nonempty⟩ := List.mem_filter.mp isTerm
    have member : term.text ∈ texts text := by
      rw [← texts_trim]
      exact List.mem_map_of_mem listed
    have alone : texts (Text.trim term.text) = [term.text] := by
      rw [texts_trim, single term.text (List.mem_filter.mpr ⟨member, nonempty⟩)]
    rw [ColumnType.ofLiterals, alone]
    rfl

/-- A bar inside a literal, blank pieces, and a group that is left open. -/
theorem open_group_splits_no_further :
    let text := "| 'a|b' || (c | d".toList
    texts text = [[], "'a|b'".toList, [], "(c | d".toList]
      ∧ texts "(c | d".toList = ["(c | d".toList]
      ∧ texts "'a|b' | (c | d".toList = ["'a|b'".toList, "(c | d".toList] := by
  intro text
  have listed : texts text = [[], "'a|b'".toList, [], "(c | d".toList] := by decide +kernel
  obtain ⟨single, joined, -⟩ := tokens_split_no_further text
  have isLast : "(c | d".toList ∈ texts text := by
    rw [listed]
    decide
  rw [listed] at joined
  exact ⟨listed, single _ isLast (by decide), joined⟩

end Token

end Typesheet.Expression

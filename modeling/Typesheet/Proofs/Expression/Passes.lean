import Typesheet.Expression.Token
import Typesheet.Proofs.Text.Trim

/-!
Contract: which texts the scan of a type expression runs through, and how an expression is
cut around them.

Owns: runs of the scan that meet no stop, the stops at a group depth, the tokens of an
expression whose first piece the scan runs through, and the shape of a group.

Does not own: which texts the grammar prints (`Proofs.ColumnType.Grammar`).
-/

set_option autoImplicit false

namespace Typesheet.Expression

/-- The scan runs through a text from one state to another and meets no stop on it. -/
inductive Passes (stop : ScanState → Char → Bool) : ScanState → Text → ScanState → Prop where
  | nil (state : ScanState) : Passes stop state [] state
  | cons {state final : ScanState} {character : Char} {rest : Text}
      (goes : stop state character = false)
      (following : Passes stop (state.step character) rest final) :
      Passes stop state (character :: rest) final

/-- The stops on `|` and on `)` in the open at depths below the two bounds. -/
def stopsBelow (bars closes : Nat) : ScanState → Char → Bool
  | .code depth, character =>
      (character = '|' && depth < bars) || (character = ')' && depth < closes)
  | _, _ => false

/-- A character that does not change the state of a scan in the open and is no stop. -/
def isOrdinary (character : Char) : Bool :=
  !ScanState.isQuote character && character ≠ '(' && character ≠ ')' && character ≠ '|'

variable {stop : ScanState → Char → Bool} {state middle final : ScanState}
  {text front rest before after : Text} {depth : Nat}

namespace Passes

theorem append (first : Passes stop state text middle) (second : Passes stop middle rest final) :
    Passes stop state (text ++ rest) final := by
  induction first with
  | nil => exact second
  | cons goes _ inductionHypothesis => exact .cons goes (inductionHypothesis second)

theorem single {character : Char} (goes : stop state character = false)
    (leads : state.step character = final) : Passes stop state [character] final := by
  subst leads
  exact .cons goes (.nil _)

/-- A run that meets no stop meets none of fewer stops. -/
theorem mono {fewer : ScanState → Char → Bool}
    (less : ∀ state character, stop state character = false → fewer state character = false)
    (run : Passes stop state text final) : Passes fewer state text final := by
  induction run with
  | nil => exact .nil _
  | cons goes _ inductionHypothesis => exact .cons (less _ _ goes) inductionHypothesis

/-- A cut falls behind a text that the scan runs through. -/
theorem cut_append (run : Passes stop state text final) (rest : Text) :
    cut stop state (text ++ rest)
      = (text ++ (cut stop final rest).1, (cut stop final rest).2) := by
  induction run with
  | nil => rfl
  | cons goes _ inductionHypothesis =>
      rw [List.cons_append, cut, if_neg (by simp [goes]), inductionHypothesis]
      rfl

/-- A text that the scan runs through is not cut. -/
theorem cut_eq (run : Passes stop state text final) : cut stop state text = (text, none) := by
  simpa [cut] using run.cut_append []

/-- A text that the scan runs through is cut at the stop behind it. -/
theorem cut_cons {character : Char} (run : Passes stop state text final)
    (stops : stop final character = true) (rest : Text) :
    cut stop state (text ++ character :: rest) = (text, some rest) := by
  rw [run.cut_append, cut, if_pos stops, List.append_nil]

end Passes

/-- **What a cut can do**: the scan runs through the whole text, or it runs up to a stop and
the text is cut there. -/
theorem cut_cases (stop : ScanState → Char → Bool) (state : ScanState) (text : Text) :
    (∃ final, Passes stop state text final ∧ cut stop state text = (text, none))
      ∨ ∃ before character after final, Passes stop state before final
        ∧ stop final character = true ∧ text = before ++ character :: after
        ∧ cut stop state text = (before, some after) := by
  induction text generalizing state with
  | nil => exact .inl ⟨state, .nil state, rfl⟩
  | cons first rest inductionHypothesis =>
      cases stops : stop state first with
      | true =>
          refine .inr ⟨[], first, rest, state, .nil state, stops, rfl, ?_⟩
          rw [cut, if_pos stops]
      | false =>
          rcases inductionHypothesis (state.step first) with
            ⟨final, run, pieces⟩ | ⟨before, character, after, final, run, atStop, rfl, pieces⟩
          · refine .inl ⟨final, .cons stops run, ?_⟩
            rw [cut, if_neg (by simp [stops]), pieces]
          · refine .inr ⟨first :: before, character, after, final, .cons stops run, atStop, rfl, ?_⟩
            rw [cut, if_neg (by simp [stops]), pieces]

/-! ## Runs and states -/

theorem ScanState.run_append (state : ScanState) (text rest : Text) :
    state.run (text ++ rest) = (state.run text).run rest :=
  List.foldl_append

theorem Passes.run_eq (run : Passes stop state text final) : state.run text = final := by
  induction run with
  | nil => rfl
  | cons _ _ inductionHypothesis => exact inductionHypothesis

/-- The scan runs through a text when it meets no stop in the states that it goes through. -/
theorem passes_iff :
    Passes stop state text final
      ↔ state.run text = final
        ∧ ∀ before character after, text = before ++ character :: after →
          stop (state.run before) character = false := by
  constructor
  · intro run
    refine ⟨run.run_eq, ?_⟩
    induction run with
    | nil => simp
    | cons goes _ inductionHypothesis =>
        intro before character after whole
        cases before with
        | nil =>
            obtain ⟨rfl, -⟩ := List.cons_eq_cons.mp whole
            exact goes
        | cons first others =>
            obtain ⟨rfl, rest⟩ := List.cons_eq_cons.mp whole
            exact inductionHypothesis others character after rest
  · rintro ⟨rfl, goes⟩
    induction text generalizing state with
    | nil => exact .nil state
    | cons first rest inductionHypothesis =>
        refine .cons (goes [] first rest rfl) ?_
        apply inductionHypothesis
        intro before character after whole
        exact goes (first :: before) character after (by rw [whole, List.cons_append])

/-- What the scan runs through it runs through from the front. -/
theorem Passes.of_append (run : Passes stop state (before ++ after) final) :
    Passes stop state before (state.run before) := by
  obtain ⟨-, goes⟩ := passes_iff.mp run
  refine passes_iff.mpr ⟨rfl, fun front character rest whole => ?_⟩
  exact goes front character (rest ++ after) (by rw [whole]; simp)

/-- What the scan runs through it runs through from any place on. -/
theorem Passes.of_append_right (run : Passes stop state (before ++ after) final) :
    Passes stop (state.run before) after final := by
  obtain ⟨ends, goes⟩ := passes_iff.mp run
  rw [ScanState.run_append] at ends
  refine passes_iff.mpr ⟨ends, fun front character rest whole => ?_⟩
  rw [← ScanState.run_append]
  exact goes (before ++ front) character rest (by rw [whole]; simp)

/-- Whether the scan runs through a text is told by the state that it ends in and by the cut. -/
theorem passes_iff_cut :
    Passes stop state text final ↔ state.run text = final ∧ (cut stop state text).2 = none := by
  constructor
  · intro run
    exact ⟨run.run_eq, by rw [run.cut_eq]⟩
  · rintro ⟨rfl, uncut⟩
    rcases cut_cases stop state text with ⟨final, run, _⟩ | ⟨_, _, _, _, _, _, _, cutEq⟩
    · rwa [run.run_eq]
    · rw [cutEq] at uncut
      exact absurd uncut (by simp)

instance (stop : ScanState → Char → Bool) (state final : ScanState) (text : Text) :
    Decidable (Passes stop state text final) :=
  decidable_of_iff _ passes_iff_cut.symm

/-! ## Stops at a depth -/

theorem stopsBelow_of_le {bars closes fewerBars fewerCloses : Nat} (lessBars : fewerBars ≤ bars)
    (lessCloses : fewerCloses ≤ closes) (state : ScanState) (character : Char)
    (goes : stopsBelow bars closes state character = false) :
    stopsBelow fewerBars fewerCloses state character = false := by
  cases state with
  | code depth =>
      simp only [stopsBelow, Bool.or_eq_false_iff, Bool.and_eq_false_iff,
        decide_eq_false_iff_not, Nat.not_lt] at goes ⊢
      exact ⟨goes.1.imp_right lessBars.trans, goes.2.imp_right lessCloses.trans⟩
  | literal => rfl
  | escape => rfl

theorem Passes.of_le {bars closes fewerBars fewerCloses : Nat}
    (run : Passes (stopsBelow bars closes) state text final) (lessBars : fewerBars ≤ bars)
    (lessCloses : fewerCloses ≤ closes) :
    Passes (stopsBelow fewerBars fewerCloses) state text final :=
  run.mono (stopsBelow_of_le lessBars lessCloses)

/-- Separators are the bars outside every group. -/
theorem separates_eq : ScanState.separates = stopsBelow 1 0 := by
  funext state character
  cases state with
  | code depth => simp [ScanState.separates, stopsBelow, Bool.and_comm]
  | literal => simp [ScanState.separates, stopsBelow]
  | escape => simp [ScanState.separates, stopsBelow]

/-- What ends a group is a closing parenthesis inside at most one. -/
theorem closesGroup_eq : ScanState.closesGroup = stopsBelow 0 2 := by
  funext state character
  cases state with
  | code depth =>
      have atMostOne : depth < 2 ↔ depth ≤ 1 := Nat.lt_succ_iff
      simp only [ScanState.closesGroup, stopsBelow, atMostOne, Nat.not_lt_zero, decide_false,
        Bool.and_false, Bool.false_or]
  | literal => rfl
  | escape => rfl

/-- Ordinary characters leave the scan where it is. -/
theorem Passes.of_isOrdinary {bars closes : Nat} :
    ∀ {text : Text}, (∀ character ∈ text, isOrdinary character = true) →
      Passes (stopsBelow bars closes) (.code depth) text (.code depth)
  | [], _ => .nil _
  | character :: rest, ordinary => by
      have isFirst := ordinary character List.mem_cons_self
      simp only [isOrdinary, ne_eq, decide_not, Bool.and_eq_true, Bool.not_eq_true',
        decide_eq_false_iff_not] at isFirst
      obtain ⟨⟨⟨noQuote, noOpening⟩, noClosing⟩, noBar⟩ := isFirst
      have stays : ScanState.step (.code depth) character = .code depth := by
        simp [ScanState.step, noQuote, noOpening, noClosing]
      have first : Passes (stopsBelow bars closes) (.code depth) [character] (.code depth) :=
        .single (by simp [stopsBelow, noBar, noClosing]) stays
      exact first.append (of_isOrdinary fun other member =>
        ordinary other (List.mem_cons_of_mem _ member))

/-- A blank is an ordinary character. -/
theorem isOrdinary_of_isBlank {character : Char} (blank : Text.isBlank character = true) :
    isOrdinary character = true := by
  have differs (other : Char) (visible : Text.isBlank other = false) : character ≠ other := by
    rintro rfl
    rw [visible] at blank
    exact Bool.false_ne_true blank
  simp [isOrdinary, ScanState.isQuote, differs '\'' rfl, differs '"' rfl, differs '(' rfl,
    differs ')' rfl, differs '|' rfl]

theorem Passes.of_isBlank {bars closes : Nat} (blank : Text.IsBlank text) :
    Passes (stopsBelow bars closes) (.code depth) text (.code depth) :=
  .of_isOrdinary fun character member => isOrdinary_of_isBlank (blank character member)

/-- White space around a term changes nothing for the scan; between the terms of an expression
the bars at its own depth are no stops. -/
theorem Passes.between
    (run : Passes (stopsBelow (depth + 1) (depth + 1)) (.code depth) text (.code depth))
    (blankBefore : Text.IsBlank before) (blankAfter : Text.IsBlank after) :
    Passes (stopsBelow depth (depth + 1)) (.code depth) (before ++ text ++ after)
      (.code depth) :=
  ((Passes.of_isBlank blankBefore).append (run.of_le (Nat.le_succ depth) le_rfl)).append
    (.of_isBlank blankAfter)

/-- A group around a text that closes every group it opens. -/
theorem Passes.group (run : Passes (stopsBelow (depth + 1) (depth + 2)) (.code (depth + 1)) text
      (.code (depth + 1))) :
    Passes (stopsBelow (depth + 1) (depth + 1)) (.code depth) ('(' :: text ++ [')'])
      (.code depth) := by
  have opening : Passes (stopsBelow (depth + 1) (depth + 1)) (.code depth) ['(']
      (.code (depth + 1)) := .single (by simp [stopsBelow]) rfl
  have closing : Passes (stopsBelow (depth + 1) (depth + 1)) (.code (depth + 1)) [')']
      (.code depth) := .single (by simp [stopsBelow]) rfl
  exact (opening.append (run.of_le le_rfl (Nat.le_succ _))).append closing

/-! ## The tokens of an expression -/

/-- A text outside every group with no bar in the open: one token of an expression. -/
abbrev IsTokenText (text : Text) : Prop :=
  Passes (stopsBelow 1 0) .start text .start

namespace Token

theorem texts_eq (text : Text) :
    texts text = (listTrimmed (Text.trim text)).map Token.text :=
  rfl

theorem texts_trim (text : Text) : texts (Text.trim text) = texts text := by
  rw [texts_eq, texts_eq, Text.trim_trim]

theorem listTrimmed_of_ne_nil {source : Text} (nonempty : source ≠ []) :
    listTrimmed source = next source :: listTrimmed (next source).rest := by
  rw [listTrimmed, if_neg nonempty]

/-- **The last token** is what stands between the blanks. -/
theorem texts_last (tight : Text.Tight text) (whole : IsTokenText text)
    (blankBefore : Text.IsBlank before) (blankAfter : Text.IsBlank after) :
    texts (before ++ text ++ after) = [text] := by
  have pieces : cut ScanState.separates .start text = (text, none) := by
    rw [separates_eq]
    exact whole.cut_eq
  have isText : (next text).text = text := by
    simp only [next, pieces]
    exact tight.trim_eq
  have nothing : (next text).rest = [] := by
    simp only [next, pieces]
    rfl
  rw [texts_eq, tight.trim_pad blankBefore blankAfter, listTrimmed_of_ne_nil tight.nonempty,
    nothing, listTrimmed, if_pos rfl, List.map_singleton, isText]

/-- **The first token** is what stands between the blanks in front of the first bar, and the
other tokens are those of what follows the bar. -/
theorem texts_cons (tight : Text.Tight text) (whole : IsTokenText text)
    (blankBefore : Text.IsBlank before) (blankAfter : Text.IsBlank after) (rest : Text) :
    texts (before ++ text ++ after ++ '|' :: rest) = text :: texts rest := by
  have bar : Text.Tight ['|'] := Text.tight_singleton rfl
  -- The bar keeps the white space in front of the rest; it goes when the rest is trimmed.
  have trimmed : Text.trim (before ++ text ++ after ++ '|' :: rest)
      = text ++ after ++ '|' :: Text.trimEnd rest := by
    have front := (tight.append after bar).trim_append rest
    have regroup : before ++ text ++ after ++ '|' :: rest
        = before ++ (text ++ after ++ ['|'] ++ rest) ++ [] := by simp
    rw [regroup, Text.trim_pad blankBefore Text.isBlank_nil, front]
    simp
  have pieces : cut ScanState.separates .start (text ++ after ++ '|' :: Text.trimEnd rest)
      = (text ++ after, some (Text.trimEnd rest)) := by
    rw [separates_eq]
    exact (whole.append (.of_isBlank blankAfter)).cut_cons rfl _
  have isText : (next (text ++ after ++ '|' :: Text.trimEnd rest)).text = text := by
    simp only [next, pieces]
    exact tight.trim_pad Text.isBlank_nil blankAfter
  have following : (next (text ++ after ++ '|' :: Text.trimEnd rest)).rest = Text.trim rest := by
    simp only [next, pieces, Option.getD_some]
    exact Text.trim_trimEnd rest
  rw [texts_eq, trimmed, listTrimmed_of_ne_nil (by simp), List.map_cons, isText, following,
    texts_eq]

end Token

/-! ## The shape of a token -/

/-- A text that does not start like a group is a plain token. -/
theorem Shape.ofText_of_head?_ne (plain : text.head? ≠ some '(') : Shape.ofText text = .plain := by
  unfold ofText
  split
  case h_1 => exact absurd rfl plain
  case h_2 => rfl

/-- **The shape of a group** is told by what stands behind its closing parenthesis. -/
theorem Shape.ofText_group
    (run : Passes (stopsBelow 1 2) (.code 1) text (.code 1)) :
    Shape.ofText ('(' :: text ++ ")".toList) = .group text
      ∧ Shape.ofText ('(' :: text ++ ")[]".toList) = .groupArray text := by
  have cutBefore (rest : Text) :
      cut ScanState.closesGroup (.code 1) (text ++ ')' :: rest) = (text, some rest) := by
    rw [closesGroup_eq]
    exact (run.of_le (Nat.zero_le 1) le_rfl).cut_cons rfl rest
  constructor
  · simp only [ofText, List.cons_append]
    rw [show ")".toList = ')' :: [] from rfl, cutBefore]
  · simp only [ofText, List.cons_append]
    rw [show ")[]".toList = ')' :: ['[', ']'] from rfl, cutBefore]
    rfl

end Typesheet.Expression

import Typesheet.Proofs.ColumnType.Reading
import Typesheet.Proofs.Expression.Quoted

/-!
Contract: a literal is read as one that stands for the same string.

Owns: what a literal stands for, the literals of the scan as the literals of the grammar, and
that reading one keeps what it stands for and comes to rest after one round.

A literal of the scan is a text with two facts about states; a literal of the grammar is a list of
pieces.  The pieces are where quoting can be followed: each of them is quoted on its own
(`Literal.quoteLiteral_body`) and stands for one character before and after.
-/

set_option autoImplicit false

namespace Typesheet

namespace Expression

/-- The string that a content stands for: a backslash and a character are that character. -/
def unescape : Text → Text
  | [] => []
  | [only] => [only]
  | first :: second :: rest =>
      if first = '\\' then second :: unescape rest else first :: unescape (second :: rest)

/-- The string that a literal stands for. -/
def meaning (literal : Text) : Text :=
  unescape literal.tail.dropLast

/-- An escaped quote, the other quote and an escaped backslash. -/
example : meaning "'a\\'\"\\\\'".toList = "a'\"\\".toList := by decide

end Expression

namespace Grammar

open Expression ColumnType

variable {quote : Quote} {sign : Char} {text body : Text} {depth : Nat}

/-! ## The literals of the scan -/

/-- A text on which the scan stays in a literal, and leaves no backslash standing, is made of
pieces. -/
theorem exists_pieces : ∀ {body : Text},
    Passes ScanState.closesLiteral (.literal depth quote.sign) body
      (.literal depth quote.sign) →
    ∃ content : List (Piece quote), content.flatMap Piece.text = body
  | [], _ => ⟨[], rfl⟩
  | character :: rest, .cons goes following => by
      by_cases isBackslash : character = '\\'
      · subst isBackslash
        change Passes _ (.escape depth quote.sign) rest _ at following
        match rest, following with
        | second :: others, .cons _ behind =>
            obtain ⟨content, rfl⟩ := exists_pieces behind
            exact ⟨.escaped second :: content, rfl⟩
      · have noQuote : character ≠ quote.sign := by
          rintro rfl
          simp [ScanState.closesLiteral, ScanState.isInside, ScanState.step, isBackslash] at goes
        rw [ScanState.step_literal isBackslash noQuote] at following
        obtain ⟨content, rfl⟩ := exists_pieces following
        exact ⟨.plain character isBackslash noQuote :: content, rfl⟩

theorem Piece.passes_closesLiteral (piece : Piece quote) :
    Passes ScanState.closesLiteral (.literal depth quote.sign) piece.text
      (.literal depth quote.sign) := by
  cases piece with
  | plain character noBackslash noQuote => exact passes_plain noBackslash noQuote
  | escaped character =>
      exact .cons (by simp [ScanState.closesLiteral, ScanState.isInside, ScanState.step])
        (.single rfl rfl)

theorem Literal.isLiteral_text (literal : Literal) : IsLiteral literal.quote.sign literal.text := by
  refine isLiteral_iff.mpr ⟨literal.quote.isQuote_sign, literal.body, rfl, ?_⟩
  unfold Literal.body
  induction literal.content with
  | nil => exact .nil _
  | cons piece rest inductionHypothesis =>
      exact piece.passes_closesLiteral.append inductionHypothesis

theorem exists_quote (isQuote : ScanState.isQuote sign = true) :
    ∃ quote : Quote, quote.sign = sign := by
  simp only [ScanState.isQuote, Bool.or_eq_true, decide_eq_true_eq] at isQuote
  rcases isQuote with rfl | rfl
  · exact ⟨.single, rfl⟩
  · exact ⟨.double, rfl⟩

/-- **The literals of the scan** are the literals of the grammar. -/
theorem isLiteral_iff_exists :
    IsLiteral sign text ↔ ∃ literal : Literal, literal.quote.sign = sign ∧ literal.text = text := by
  constructor
  · intro closed
    obtain ⟨isQuote, body, rfl, run⟩ := isLiteral_iff.mp closed
    obtain ⟨quote, rfl⟩ := exists_quote isQuote
    obtain ⟨content, rfl⟩ := exists_pieces run
    exact ⟨⟨quote, content⟩, rfl, rfl⟩
  · rintro ⟨literal, rfl, rfl⟩
    exact literal.isLiteral_text

/-! ## What a literal stands for -/

/-- The character that a piece stands for. -/
def Piece.character : Piece quote → Char
  | .plain character _ _ => character
  | .escaped character => character

theorem unescape_append (piece : Piece quote) (rest : Text) :
    unescape (piece.text ++ rest) = piece.character :: unescape rest := by
  cases piece with
  | plain character noBackslash noQuote =>
      cases rest with
      | nil => rfl
      | cons second others => exact if_neg noBackslash
  | escaped character => rfl

theorem Literal.meaning_text (literal : Literal) :
    meaning literal.text = literal.content.map Piece.character := by
  have isBody : literal.text.tail.dropLast = literal.body := List.dropLast_concat
  rw [meaning, isBody, Literal.body]
  induction literal.content with
  | nil => rfl
  | cons piece rest inductionHypothesis =>
      rw [List.flatMap_cons, unescape_append, inductionHypothesis, List.map_cons]

theorem Piece.character_canonical (piece : Piece quote) :
    piece.canonical.character = piece.character := by
  cases piece with
  | plain character noBackslash noQuote =>
      by_cases bare : character = '\''
      · subst bare
        rfl
      · rw [Piece.canonical, dif_neg bare]
        rfl
  | escaped character => rfl

/-- A literal stands for the same string in single quotes. -/
theorem Literal.meaning_canonical (literal : Literal) :
    meaning literal.canonical.text = meaning literal.text := by
  rw [Literal.meaning_text, Literal.meaning_text, Literal.canonical, List.map_map]
  exact List.map_congr_left fun piece _ => piece.character_canonical

theorem Literal.ofLeaf_text {scheme : Scheme} (literal : Literal)
    (rejects : Rejects scheme literal.text) :
    ofLeaf scheme literal.text = .literal literal.canonical.text false := by
  simpa [markerText] using literal.ofLeaf_append none rejects

/-- **Reading keeps what a literal stands for.**  A closed literal in either quote, whatever is in
it, is read as a literal node.  Its text is a closed literal in single quotes, which stands for
the same string and is read as the same node again.  The standard scheme takes no literal for an
address; any other scheme reads a literal that it does not take for one in the same way. -/
theorem ofLeaf_keeps_meaning {sign : Char} {text : Text} (closed : IsLiteral sign text) :
    ∃ requoted : Text,
      IsLiteral '\'' requoted
        ∧ meaning requoted = meaning text
        ∧ ofLeaf .standard text = .literal requoted false
        ∧ ofLeaf .standard requoted = .literal requoted false
        ∧ ∀ scheme : Scheme,
          (Rejects scheme text → ofLeaf scheme text = .literal requoted false)
            ∧ (Rejects scheme requoted → ofLeaf scheme requoted = .literal requoted false) := by
  obtain ⟨literal, rfl, rfl⟩ := isLiteral_iff_exists.mp closed
  have first (scheme : Scheme) (rejects : Rejects scheme literal.text) :
      ofLeaf scheme literal.text = .literal literal.canonical.text false :=
    literal.ofLeaf_text rejects
  have again (scheme : Scheme) (rejects : Rejects scheme literal.canonical.text) :
      ofLeaf scheme literal.canonical.text = .literal literal.canonical.text false := by
    rw [literal.canonical.ofLeaf_text rejects, literal.canonical_canonical]
  exact ⟨literal.canonical.text, literal.canonical.isLiteral_text, literal.meaning_canonical,
    first _ literal.rejects_standard, again _ literal.canonical.rejects_standard,
    fun scheme => ⟨first scheme, again scheme⟩⟩

/-- In double quotes: the other quote, the same one escaped, a bar in a group with a marker, and
two backslashes. -/
theorem ofLeaf_keeps_meaning_of_mixed :
    let text : Text := "\"a'\\\"(b|c)[]\\\\\"".toList
    IsLiteral '"' text ∧ Rejects .lenient text
      ∧ ∃ requoted : Text,
        IsLiteral '\'' requoted
          ∧ meaning requoted = "a'\"(b|c)[]\\".toList
          ∧ ofLeaf .standard text = .literal requoted false
          ∧ ofLeaf .standard requoted = .literal requoted false
          ∧ ofLeaf .lenient text = .literal requoted false := by
  intro text
  have closed : IsLiteral '"' text :=
    isLiteral_iff.mpr ⟨rfl, "a'\\\"(b|c)[]\\\\".toList, rfl, by decide⟩
  have rejects : Rejects .lenient text := ⟨by decide, _, rfl⟩
  obtain ⟨requoted, isLiteral, sameMeaning, first, again, others⟩ := ofLeaf_keeps_meaning closed
  exact ⟨closed, rejects, requoted, isLiteral, sameMeaning.trans (by decide), first, again,
    (others .lenient).1 rejects⟩

end Grammar

end Typesheet

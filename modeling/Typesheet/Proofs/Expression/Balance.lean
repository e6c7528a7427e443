import Typesheet.Proofs.Expression.Passes
import Typesheet.Text.Bytes

/-!
Contract: a group is recognized exactly when what it encloses is balanced.

Owns: the scan one level deeper, balanced texts, the shape of every text in terms of them, the
token that a group makes, and what a group encloses as a slice of bytes.

Balance is a property of the enclosed text alone, scanned from outside every group.  Inside a
group the same scan runs one level deeper; `Passes.deeper` and `Passes.of_deeper` carry a run
over from one to the other.
-/

set_option autoImplicit false

namespace Typesheet.Expression

variable {state final : ScanState} {text rest inner after : Text}

/-! ## One level deeper -/

/-- The same state inside one more group. -/
def ScanState.deeper : ScanState → ScanState
  | .code depth => .code (depth + 1)
  | .literal depth quote => .literal (depth + 1) quote
  | .escape depth quote => .escape (depth + 1) quote

/-- Up to a `)` outside every group, the scan goes the same way one level deeper. -/
theorem ScanState.step_deeper {character : Char}
    (goes : stopsBelow 0 1 state character = false) :
    state.deeper.step character = (state.step character).deeper := by
  cases state with
  | code depth =>
      by_cases isClosing : character = ')'
      · subst isClosing
        have inGroup : depth ≠ 0 := by simpa [stopsBelow] using goes
        obtain ⟨outer, rfl⟩ := Nat.exists_eq_succ_of_ne_zero inGroup
        rfl
      · simp only [deeper, step, isClosing, ↓reduceIte]
        split
        case isTrue => rfl
        case isFalse => split <;> rfl
  | literal depth quote =>
      simp only [deeper, step]
      split
      case isTrue => rfl
      case isFalse => split <;> rfl
  | escape depth quote => rfl

/-- Inside a group no bar is outside every group, so it makes no difference whether such bars
are stops. -/
theorem stopsBelow_deeper {bars : Nat} (atMostOne : bars ≤ 1) {character : Char} :
    stopsBelow bars 2 state.deeper character = stopsBelow 0 1 state character := by
  cases state with
  | code depth =>
      have outOfReach : ¬ depth + 1 < bars := by omega
      have oneDeeper : depth + 1 < 2 ↔ depth < 1 := Nat.succ_lt_succ_iff
      simp only [stopsBelow, ScanState.deeper, outOfReach, oneDeeper, Nat.not_lt_zero]
  | literal depth quote => rfl
  | escape depth quote => rfl

/-- What the scan runs through outside every group it runs through inside one. -/
theorem Passes.deeper (run : Passes (stopsBelow 0 1) state text final) :
    Passes (stopsBelow 1 2) state.deeper text final.deeper := by
  induction run with
  | nil => exact .nil _
  | cons goes _ inductionHypothesis =>
      refine .cons ((stopsBelow_deeper le_rfl).trans goes) ?_
      rwa [ScanState.step_deeper goes]

theorem Passes.of_deeper (run : Passes (stopsBelow 0 2) state.deeper text final) :
    ∃ outer : ScanState, final = outer.deeper ∧ Passes (stopsBelow 0 1) state text outer := by
  induction text generalizing state with
  | nil =>
      cases run with
      | nil => exact ⟨state, rfl, .nil state⟩
  | cons first rest inductionHypothesis =>
      cases run with
      | cons goes following =>
          rw [stopsBelow_deeper (Nat.zero_le 1)] at goes
          rw [ScanState.step_deeper goes] at following
          obtain ⟨outer, isFinal, inside⟩ := inductionHypothesis following
          exact ⟨outer, isFinal, .cons goes inside⟩

/-! ## Balanced texts -/

/-- A text that closes all that it opens and nothing else: one scan of it from the open, outside
every group, comes back there, and meets no `)` there on the way. -/
structure Balanced (text : Text) : Prop where
  comesBack : ScanState.start.run text = .start
  noStray : ∀ before after, text = before ++ ')' :: after →
    ScanState.start.run before ≠ .start

theorem balanced_iff_passes : Balanced text ↔ Passes (stopsBelow 0 1) .start text .start := by
  have isStray (state : ScanState) (character : Char) :
      stopsBelow 0 1 state character = false ↔ (character = ')' → state ≠ .start) := by
    cases state <;> simp [stopsBelow, ScanState.start]
  rw [passes_iff]
  constructor
  · rintro ⟨comesBack, noStray⟩
    refine ⟨comesBack, fun before character after whole => (isStray _ _).mpr ?_⟩
    rintro rfl
    exact noStray before after whole
  · rintro ⟨comesBack, goes⟩
    exact ⟨comesBack, fun before after whole => (isStray _ _).mp (goes before ')' after whole) rfl⟩

instance : DecidablePred Balanced :=
  fun _ => decidable_of_iff _ balanced_iff_passes.symm

/-- A parenthesis inside a literal does not count, and one without a partner does. -/
example : Balanced "')' | (b)".toList ∧ ¬ Balanced "a) | (b".toList := by decide

theorem Balanced.passes (balanced : Balanced text) :
    Passes (stopsBelow 1 2) (.code 1) text (.code 1) :=
  (balanced_iff_passes.mp balanced).deeper

/-- **A group ends behind the balanced text** that follows its parenthesis. -/
theorem cut_closesGroup_iff :
    cut ScanState.closesGroup (.code 1) rest = (inner, some after)
      ↔ rest = inner ++ ')' :: after ∧ Balanced inner := by
  constructor
  · intro pieces
    rcases cut_cases ScanState.closesGroup (.code 1) rest with
      ⟨final, _, whole⟩ | ⟨before, character, behind, final, run, stops, rfl, cutEq⟩
    · rw [whole] at pieces
      exact absurd (Prod.mk.inj pieces).2 (by simp)
    · rw [cutEq] at pieces
      obtain ⟨rfl, same⟩ := Prod.mk.inj pieces
      obtain rfl : behind = after := Option.some.inj same
      rw [closesGroup_eq] at run
      change Passes _ ScanState.start.deeper before final at run
      obtain ⟨outer, rfl, outside⟩ := run.of_deeper
      -- The scan stands inside the one group that this character closes.
      cases outer with
      | code depth =>
          simp only [ScanState.deeper, ScanState.closesGroup, Bool.and_eq_true,
            decide_eq_true_eq] at stops
          obtain ⟨rfl, atMostOne⟩ := stops
          obtain rfl : depth = 0 := by omega
          exact ⟨rfl, balanced_iff_passes.mpr outside⟩
      | literal => exact absurd stops Bool.false_ne_true
      | escape => exact absurd stops Bool.false_ne_true
  · rintro ⟨rfl, balanced⟩
    rw [closesGroup_eq]
    exact (balanced.passes.of_le (Nat.zero_le 1) le_rfl).cut_cons rfl after

/-! ## The shape of a text -/

/-- What a group encloses is balanced, and only the parentheses and the marker stand around
it. -/
theorem Shape.balanced_of_ofText (text inner : Text) :
    (Shape.ofText text = .group inner → text = '(' :: inner ++ ")".toList ∧ Balanced inner)
      ∧ (Shape.ofText text = .groupArray inner →
        text = '(' :: inner ++ ")[]".toList ∧ Balanced inner) := by
  unfold Shape.ofText
  split
  case h_1 rest =>
    split
    case h_1 enclosed pieces =>
      obtain ⟨rfl, balanced⟩ := cut_closesGroup_iff.mp pieces
      refine ⟨?_, nofun⟩
      rintro ⟨⟩
      exact ⟨rfl, balanced⟩
    case h_2 enclosed pieces =>
      obtain ⟨rfl, balanced⟩ := cut_closesGroup_iff.mp pieces
      refine ⟨nofun, ?_⟩
      rintro ⟨⟩
      exact ⟨rfl, balanced⟩
    case h_3 => exact ⟨nofun, nofun⟩
  case h_2 => exact ⟨nofun, nofun⟩

/-- **A text is a group** exactly when it is a balanced text in parentheses. -/
theorem Shape.ofText_eq_group_iff :
    Shape.ofText text = .group inner ↔ text = '(' :: inner ++ ")".toList ∧ Balanced inner := by
  refine ⟨(Shape.balanced_of_ofText text inner).1, ?_⟩
  rintro ⟨rfl, balanced⟩
  exact (Shape.ofText_group balanced.passes).1

/-- **A text is a group array** exactly when it is a balanced text in parentheses with the
marker directly behind. -/
theorem Shape.ofText_eq_groupArray_iff :
    Shape.ofText text = .groupArray inner
      ↔ text = '(' :: inner ++ ")[]".toList ∧ Balanced inner := by
  refine ⟨(Shape.balanced_of_ofText text inner).2, ?_⟩
  rintro ⟨rfl, balanced⟩
  exact (Shape.ofText_group balanced.passes).2

theorem Shape.ofText_eq_plain_iff :
    Shape.ofText text = .plain
      ↔ ∀ inner, Balanced inner →
        text ≠ '(' :: inner ++ ")".toList ∧ text ≠ '(' :: inner ++ ")[]".toList := by
  constructor
  · intro isPlain inner balanced
    constructor
    · intro isGroup
      rw [Shape.ofText_eq_group_iff.mpr ⟨isGroup, balanced⟩] at isPlain
      exact absurd isPlain (by simp)
    · intro isArray
      rw [Shape.ofText_eq_groupArray_iff.mpr ⟨isArray, balanced⟩] at isPlain
      exact absurd isPlain (by simp)
  · intro noGroup
    cases found : Shape.ofText text with
    | plain => rfl
    | group inner =>
        obtain ⟨isGroup, balanced⟩ := Shape.ofText_eq_group_iff.mp found
        exact absurd isGroup (noGroup inner balanced).1
    | groupArray inner =>
        obtain ⟨isArray, balanced⟩ := Shape.ofText_eq_groupArray_iff.mp found
        exact absurd isArray (noGroup inner balanced).2

/-! ## The token of a group -/

/-- A text without blanks around it and with no bar in the open is one token. -/
theorem Token.next_of_isTokenText (tight : Text.Tight text) (whole : IsTokenText text) :
    Token.next text = { shape := Shape.ofText text, text, source := text, rest := [] } := by
  have pieces : cut ScanState.separates .start text = (text, none) := by
    rw [separates_eq]
    exact whole.cut_eq
  simp only [Token.next, pieces, tight.trim_eq]
  rfl

/-- **A balanced text in parentheses is read as one token**, with or without the array
marker. -/
theorem Balanced.next_group (balanced : Balanced inner) :
    Token.next ('(' :: inner ++ ")".toList)
        = { shape := .group inner
            text := '(' :: inner ++ ")".toList
            source := '(' :: inner ++ ")".toList
            rest := [] }
      ∧ Token.next ('(' :: inner ++ ")[]".toList)
        = { shape := .groupArray inner
            text := '(' :: inner ++ ")[]".toList
            source := '(' :: inner ++ ")[]".toList
            rest := [] } := by
  obtain ⟨isGroup, isArray⟩ := Shape.ofText_group balanced.passes
  have opening : Text.Tight ['('] := Text.tight_singleton rfl
  have closing : Text.Tight [')'] := Text.tight_singleton rfl
  have marked : Text.Tight ")[]".toList := closing.append ['['] (Text.tight_singleton rfl)
  have group : IsTokenText ('(' :: inner ++ [')']) :=
    balanced.passes.group.of_le le_rfl (Nat.zero_le 1)
  have array : IsTokenText ('(' :: inner ++ [')'] ++ "[]".toList) :=
    group.append (.of_isOrdinary (List.all_eq_true.mp rfl))
  rw [List.append_assoc] at array
  have groupToken := Token.next_of_isTokenText (opening.append inner closing) group
  have arrayToken := Token.next_of_isTokenText (opening.append inner marked) array
  exact ⟨groupToken.trans (congrArg (Token.mk · _ _ _) isGroup),
    arrayToken.trans (congrArg (Token.mk · _ _ _) isArray)⟩

/-! ## The slice that a group encloses -/

/-- The slice of a text from its second byte to the last byte but some, and what makes it safe to
take: the two ends are in order, no character is cut, and less than the text is left. -/
structure Encloses (text inner : Text) (behind : Nat) : Prop where
  inOrder : 1 + behind ≤ (Text.toBytes text).size
  slice : (Text.toBytes text).extract 1 ((Text.toBytes text).size - behind) = Text.toBytes inner
  shorter : inner.length < text.length

/-- A parenthesis is one byte, so what stands behind the first one starts at the second byte. -/
theorem encloses_parenthesized (inner closing : Text) :
    Encloses ('(' :: inner ++ closing) inner (Text.toBytes closing).size := by
  have bytes : Text.toBytes ('(' :: inner ++ closing)
      = Text.toBytes ['('] ++ Text.toBytes inner ++ Text.toBytes closing := by
    rw [← Text.toBytes_append, ← Text.toBytes_append]
    rfl
  have opening : (Text.toBytes ['(']).size = 1 := by decide
  have size : (Text.toBytes ('(' :: inner ++ closing)).size
      = 1 + (Text.toBytes inner).size + (Text.toBytes closing).size := by
    rw [bytes, ByteArray.size_append, ByteArray.size_append, opening]
  refine ⟨by omega, ?_, by simp only [List.length_append, List.length_cons]; omega⟩
  rw [size, Nat.add_sub_cancel, bytes, ByteArray.extract_append,
    ByteArray.extract_append_eq_right opening.symm (by rw [opening])]
  simp [opening]

/-- **Groups are recognized exactly.**  A text is a group exactly when it is a balanced text in
parentheses, a group array exactly when it is one with the marker directly behind, and plain
otherwise.  A balanced text in parentheses, with or without the marker, is read as one token that
leaves nothing.  The shape of every token is that of its text; what it encloses is the slice of
its text between one byte at the front and one or three at the back, which is in bounds, cuts no
character, and is shorter than the token and so than the text that the token was taken from. -/
theorem groups_enclose_balanced_texts :
    (∀ text inner, Shape.ofText text = .group inner
        ↔ text = '(' :: inner ++ ")".toList ∧ Balanced inner)
      ∧ (∀ text inner, Shape.ofText text = .groupArray inner
        ↔ text = '(' :: inner ++ ")[]".toList ∧ Balanced inner)
      ∧ (∀ text, Shape.ofText text = .plain
        ↔ ∀ inner, Balanced inner →
          text ≠ '(' :: inner ++ ")".toList ∧ text ≠ '(' :: inner ++ ")[]".toList)
      ∧ (∀ inner, Balanced inner →
        Token.next ('(' :: inner ++ ")".toList)
            = { shape := .group inner
                text := '(' :: inner ++ ")".toList
                source := '(' :: inner ++ ")".toList
                rest := [] }
          ∧ Token.next ('(' :: inner ++ ")[]".toList)
            = { shape := .groupArray inner
                text := '(' :: inner ++ ")[]".toList
                source := '(' :: inner ++ ")[]".toList
                rest := [] })
      ∧ ∀ source token, token = Token.next source ∨ token ∈ Token.list source →
        token.shape = Shape.ofText token.text
          ∧ token.text.length ≤ source.length
          ∧ match token.shape with
            | .plain => token.inner = token.text
            | .group _ => Encloses token.text token.inner 1
            | .groupArray _ => Encloses token.text token.inner 3 := by
  refine ⟨fun _ _ => Shape.ofText_eq_group_iff, fun _ _ => Shape.ofText_eq_groupArray_iff,
    fun _ => Shape.ofText_eq_plain_iff, fun _ balanced => balanced.next_group, ?_⟩
  intro source token taken
  have known : token.shape = Shape.ofText token.text ∧ token.text.length ≤ source.length := by
    rcases taken with rfl | member
    · exact ⟨rfl, Token.length_text_next_le source⟩
    · exact ⟨Token.shape_of_mem_listTrimmed member, Token.length_text_le_of_mem_list member⟩
  refine ⟨known.1, known.2, ?_⟩
  unfold Token.inner
  cases shape : token.shape with
  | plain => rfl
  | group inner =>
      obtain ⟨isGroup, -⟩ := Shape.ofText_eq_group_iff.mp (known.1.symm.trans shape)
      rw [isGroup]
      exact encloses_parenthesized inner ")".toList
  | groupArray inner =>
      obtain ⟨isArray, -⟩ := Shape.ofText_eq_groupArray_iff.mp (known.1.symm.trans shape)
      rw [isArray]
      exact encloses_parenthesized inner ")[]".toList

end Typesheet.Expression

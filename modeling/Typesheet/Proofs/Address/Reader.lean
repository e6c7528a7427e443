import Typesheet.Proofs.Address.Characters

/-!
Contract: reading addresses from the left, taking as much as there is at each step.

Owns: readers, which take a piece off the front of a text or find nothing to take; the ways in
which they are put together; the readers of the two address grammars; and what each of them takes.

No reader ever gives back what it has taken, so a shorter piece that would let the reading go on is
not tried.  The one exception is a separator with nothing of use behind it, which is left where it
is.  That this loses no address is what `read_segments` and `readColumn_eq_some_iff` say: what may
follow a piece is never a character that the piece could go on with.
-/

set_option autoImplicit false

namespace Typesheet.Address

/-- A reader takes a piece off the front of a text and leaves the rest; it makes nothing up and
drops nothing. -/
structure Reader where
  read : Text → Option (Text × Text)
  append_eq : ∀ {text front rest : Text}, read text = some (front, rest) → front ++ rest = text

namespace Reader

/-! ## Readers and how they are put together -/

/-- The given text and no other. -/
def exactly (expected : Text) : Reader where
  read text := (expected.isPrefixOf? text).map fun rest => (expected, rest)
  append_eq := by
    intro text front rest taken
    obtain ⟨rest, found, same⟩ := Option.map_eq_some_iff.mp taken
    cases same
    exact List.isPrefixOf?_eq_some_iff_append_eq.mp found

/-- One or more of the accepted characters, as many as there are. -/
def oneOrMore (accepts : Char → Bool) : Reader where
  read text :=
    if text.takeWhile accepts = [] then none
    else some (text.takeWhile accepts, text.dropWhile accepts)
  append_eq := by
    intro text front rest taken
    split at taken
    case isTrue => exact absurd taken (by simp)
    case isFalse =>
      cases taken
      exact List.takeWhile_append_dropWhile

/-- What the first reader takes, and what the second takes behind it. -/
def followedBy (first second : Reader) : Reader where
  read text := do
    let (front, behind) ← first.read text
    let (piece, rest) ← second.read behind
    return (front ++ piece, rest)
  append_eq := by
    intro text front rest taken
    simp only [Option.bind_eq_bind, Option.bind_eq_some_iff, Option.pure_def, Option.some.injEq,
      Prod.mk.injEq, Prod.exists] at taken
    obtain ⟨_, behind, inFirst, piece, _, inSecond, rfl, rfl⟩ := taken
    rw [List.append_assoc, second.append_eq inSecond, first.append_eq inFirst]

/-- What the first reader takes, or else what the second takes. -/
def either (first second : Reader) : Reader where
  read text := (first.read text).or (second.read text)
  append_eq := by
    intro text front rest taken
    rcases Option.or_eq_some_iff.mp taken with inFirst | ⟨-, inSecond⟩
    · exact first.append_eq inFirst
    · exact second.append_eq inSecond

variable (separator item : Reader)

theorem length_rest_le {reader : Reader} {text front rest : Text}
    (taken : reader.read text = some (front, rest)) : rest.length ≤ text.length := by
  have lengths := congrArg List.length (reader.append_eq taken)
  rw [List.length_append] at lengths
  omega

/-- Pieces for as long as there are any; a piece that takes nothing is refused. -/
def readAll (text : Text) : Option (Text × Text) :=
  match item.read text with
  | none => some ([], text)
  | some (front, rest) =>
      if rest.length < text.length then
        (readAll rest).map fun taken => (front ++ taken.1, taken.2)
      else none
termination_by text.length

/-- Pieces each behind a separator, for as long as there are any.  A separator with no piece behind
it is left where it is; one that takes nothing is refused. -/
def readFollowing (text : Text) : Option (Text × Text) :=
  match separator.read text with
  | none => some ([], text)
  | some (sign, behind) =>
      if behind.length < text.length then
        match _ : item.read behind with
        | none => some ([], text)
        | some (piece, rest) =>
            (readFollowing rest).map fun taken => (sign ++ piece ++ taken.1, taken.2)
      else none
termination_by text.length
decreasing_by
  have := length_rest_le (by assumption)
  omega

/-- Any number of pieces. -/
def many : Reader where
  read := readAll item
  append_eq := by
    intro text front rest taken
    fun_induction readAll item text generalizing front rest with
    | case1 => cases taken; rfl
    | case2 text piece behind isPiece _ inductionHypothesis =>
        obtain ⟨following, isFollowing, same⟩ := Option.map_eq_some_iff.mp taken
        cases same
        rw [List.append_assoc, inductionHypothesis isFollowing, item.append_eq isPiece]
    | case3 => exact absurd taken (by simp)

/-- Further pieces, each behind a separator. -/
def following : Reader where
  read := readFollowing separator item
  append_eq := by
    intro text front rest taken
    fun_induction readFollowing separator item text generalizing front rest with
    | case1 => cases taken; rfl
    | case2 => cases taken; rfl
    | case3 text sign behind isSign _ piece later isPiece inductionHypothesis =>
        obtain ⟨others, isOthers, same⟩ := Option.map_eq_some_iff.mp taken
        cases same
        rw [List.append_assoc, List.append_assoc, inductionHypothesis isOthers,
          item.append_eq isPiece, separator.append_eq isSign]
    | case4 => exact absurd taken (by simp)

/-- One piece or more, with a separator between each two. -/
def separated : Reader :=
  item.followedBy (following separator item)

/-! ## The readers of addresses -/

def segment : Reader :=
  oneOrMore isSegmentChar

def segments : Reader :=
  separated (exactly ['/']) segment

def namespaceUri : Reader :=
  (exactly marker).followedBy segments

/-- Segment characters, run after run and sign after sign. -/
def segmentSigns : Reader :=
  ((oneOrMore Char.isAlphanum).either (exactly ['_'])).either (exactly ['-'])

def selector : Reader :=
  ((oneOrMore Char.isAlpha).either (exactly ['_'])).followedBy (many segmentSigns)

/-- The owner and the selector of a column address with nothing behind it. -/
def readColumn (text : Text) : Option (Text × Text) := do
  let (owner, behind) ← namespaceUri.read text
  let (_, behind) ← (exactly ['.']).read behind
  let (name, rest) ← selector.read behind
  if rest = [] then return (owner, name) else none

/-! ## Runs of characters -/

variable {reader other item separator : Reader} {accepts alsoAccepts : Char → Bool}
  {text front rest name owner : Text} {sign : Char}

theorem takeWhile_append_of_stop (accepted : ∀ character ∈ front, accepts character = true)
    (stops : ∀ character ∈ rest.head?, accepts character = false) :
    (front ++ rest).takeWhile accepts = front ∧ (front ++ rest).dropWhile accepts = rest := by
  have nothing : rest.takeWhile accepts = [] ∧ rest.dropWhile accepts = rest := by
    cases rest with
    | nil => exact ⟨rfl, rfl⟩
    | cons first others =>
        have stop := stops first rfl
        simp [stop]
  rw [List.takeWhile_append_of_pos accepted, List.dropWhile_append_of_pos accepted, nothing.1,
    nothing.2, List.append_nil]
  exact ⟨rfl, rfl⟩

theorem read_oneOrMore_append (nonempty : front ≠ [])
    (accepted : ∀ character ∈ front, accepts character = true)
    (stops : ∀ character ∈ rest.head?, accepts character = false) :
    (oneOrMore accepts).read (front ++ rest) = some (front, rest) := by
  have taken := takeWhile_append_of_stop accepted stops
  simp only [oneOrMore, taken.1, taken.2, nonempty, ↓reduceIte]

theorem read_exactly_append (expected rest : Text) :
    (exactly expected).read (expected ++ rest) = some (expected, rest) := by
  have found : expected.isPrefixOf? (expected ++ rest) = some rest :=
    List.isPrefixOf?_eq_some_iff_append_eq.mpr rfl
  simp only [exactly, found, Option.map_some]

theorem eq_of_read_exactly {expected : Text}
    (taken : (exactly expected).read text = some (front, rest)) : front = expected := by
  obtain ⟨behind, -, same⟩ := Option.map_eq_some_iff.mp taken
  cases same
  rfl

/-- A reader that takes nothing but accepted characters, and some of them whenever the text starts
with one. -/
structure Advances (reader : Reader) (accepts : Char → Bool) : Prop where
  nonempty : ∀ {text front rest}, reader.read text = some (front, rest) → front ≠ []
  accepted : ∀ {text front rest}, reader.read text = some (front, rest) →
    ∀ character ∈ front, accepts character = true
  starts : ∀ {first others}, accepts first = true → reader.read (first :: others) ≠ none

namespace Advances

theorem oneOrMore (accepts : Char → Bool) : Advances (oneOrMore accepts) accepts where
  nonempty := by
    intro text front rest taken
    simp only [Reader.oneOrMore, Option.ite_none_left_eq_some, Option.some.injEq,
      Prod.mk.injEq] at taken
    rw [← taken.2.1]
    exact taken.1
  accepted := by
    intro text front rest taken character member
    simp only [Reader.oneOrMore, Option.ite_none_left_eq_some, Option.some.injEq,
      Prod.mk.injEq] at taken
    rw [← taken.2.1] at member
    exact List.mem_takeWhile_imp member
  starts := by
    intro first others accepted
    simp [Reader.oneOrMore, accepted]

theorem exactly (sign : Char) : Advances (exactly [sign]) fun character => character = sign where
  nonempty := by
    intro text front rest taken
    rw [eq_of_read_exactly taken]
    exact List.cons_ne_nil sign []
  accepted := by
    intro text front rest taken character member
    rw [eq_of_read_exactly taken] at member
    exact decide_eq_true (List.mem_singleton.mp member)
  starts := by
    intro first others accepted
    rw [of_decide_eq_true accepted]
    exact ne_of_eq_of_ne (read_exactly_append [sign] others) (Option.some_ne_none _)

theorem either (first : Advances reader accepts) (second : Advances other alsoAccepts) :
    Advances (reader.either other) fun character =>
      accepts character || alsoAccepts character where
  nonempty := by
    intro text front rest taken
    cases Option.or_eq_some_iff.mp taken with
    | inl inFirst => exact first.nonempty inFirst
    | inr inSecond => exact second.nonempty inSecond.2
  accepted := by
    intro text front rest taken character member
    cases Option.or_eq_some_iff.mp taken with
    | inl inFirst => exact Bool.or_eq_true_iff.mpr (.inl (first.accepted inFirst character member))
    | inr inSecond =>
        exact Bool.or_eq_true_iff.mpr (.inr (second.accepted inSecond.2 character member))
  starts := by
    intro character others accepted nothing
    have neither := Option.or_eq_none_iff.mp nothing
    cases Bool.or_eq_true_iff.mp accepted with
    | inl byFirst => exact first.starts byFirst neither.1
    | inr bySecond => exact second.starts bySecond neither.2

/-- **Repeating such a reader** takes all accepted characters that the text starts with. -/
theorem read_many (advances : Advances item accepts) (text : Text) :
    (many item).read text = some (text.takeWhile accepts, text.dropWhile accepts) := by
  change readAll item text = _
  fun_induction readAll item text with
  | case1 text nothing =>
      have stops : ∀ character ∈ text.head?, accepts character = false := by
        intro character isFirst
        rw [Bool.eq_false_iff]
        intro accepted
        obtain ⟨others, rfl⟩ := List.head?_eq_some_iff.mp isFirst
        exact advances.starts accepted nothing
      have nothingTaken : ([] ++ text).takeWhile accepts = []
          ∧ ([] ++ text).dropWhile accepts = text :=
        takeWhile_append_of_stop (fun _ => nofun) stops
      rw [List.nil_append] at nothingTaken
      rw [nothingTaken.1, nothingTaken.2]
  | case2 text front rest taken _ inductionHypothesis =>
      have accepted := advances.accepted taken
      rw [inductionHypothesis, ← item.append_eq taken, List.takeWhile_append_of_pos accepted,
        List.dropWhile_append_of_pos accepted]
      rfl
  | case3 text front rest taken tooLong =>
      have some := List.length_pos_of_ne_nil (advances.nonempty taken)
      have lengths := congrArg List.length (item.append_eq taken)
      rw [List.length_append] at lengths
      omega

end Advances

/-! ## Selectors -/

theorem advances_segmentSigns : Advances segmentSigns isSegmentChar :=
  ((Advances.oneOrMore Char.isAlphanum).either (.exactly '_')).either (.exactly '-')

theorem isSegmentChar_of_startsSelector
    (starts : (sign.isAlpha || decide (sign = '_')) = true) : isSegmentChar sign = true := by
  cases Bool.or_eq_true_iff.mp starts with
  | inl isLetter => simp [isSegmentChar, isAlphanum_of_isAlpha isLetter]
  | inr isLine => simp [isSegmentChar, of_decide_eq_true isLine]

/-- A selector is read up to the first character that is in no segment. -/
theorem read_selector_cons (starts : (sign.isAlpha || decide (sign = '_')) = true)
    (others : Text) :
    selector.read (sign :: others)
      = some ((sign :: others).takeWhile isSegmentChar,
          (sign :: others).dropWhile isSegmentChar) := by
  have first := (Advances.oneOrMore Char.isAlpha).either (.exactly '_')
  have something : (((oneOrMore Char.isAlpha).either (exactly ['_'])).read (sign :: others))
      ≠ none :=
    first.starts starts
  obtain ⟨⟨front, behind⟩, taken⟩ := Option.ne_none_iff_exists'.mp something
  have accepted : ∀ character ∈ front, isSegmentChar character = true := by
    intro character member
    exact isSegmentChar_of_startsSelector (first.accepted taken character member)
  have following := advances_segmentSigns.read_many behind
  have whole : front ++ behind = sign :: others := Reader.append_eq _ taken
  rw [← whole, List.takeWhile_append_of_pos accepted, List.dropWhile_append_of_pos accepted]
  rw [← whole] at taken
  simp only [selector, followedBy, taken, following, Option.bind_eq_bind, Option.bind_some,
    Option.pure_def]

theorem isSelector_cons :
    isSelector (sign :: rest) = true
      ↔ (sign.isAlpha || decide (sign = '_')) = true
        ∧ ∀ character ∈ rest, isSegmentChar character = true := by
  rw [isSelector, Bool.and_eq_true_iff, List.all_eq_true]

theorem isSelector_of_read (taken : selector.read text = some (front, rest)) :
    isSelector front = true := by
  simp only [selector, followedBy, Option.bind_eq_bind, Option.bind_eq_some_iff, Option.pure_def,
    Option.some.injEq, Prod.mk.injEq, Prod.exists] at taken
  obtain ⟨head, behind, inHead, signs, _, inSigns, rfl, rfl⟩ := taken
  have first := (Advances.oneOrMore Char.isAlpha).either (.exactly '_')
  have starts := first.accepted inHead
  rw [advances_segmentSigns.read_many] at inSigns
  cases inSigns
  cases head with
  | nil => exact absurd rfl (first.nonempty inHead)
  | cons sign others =>
      refine isSelector_cons.mpr ⟨starts sign List.mem_cons_self, ?_⟩
      intro character member
      cases List.mem_append.mp member with
      | inl inOthers =>
          exact isSegmentChar_of_startsSelector
            (starts character (List.mem_cons_of_mem sign inOthers))
      | inr inSigns => exact List.mem_takeWhile_imp inSigns

theorem read_selector (isName : isSelector name = true) :
    selector.read name = some (name, []) := by
  cases name with
  | nil => exact absurd isName Bool.false_ne_true
  | cons sign others =>
      obtain ⟨starts, signs⟩ := isSelector_cons.mp isName
      have accepted : ∀ character ∈ sign :: others, isSegmentChar character = true :=
        List.forall_mem_cons.mpr ⟨isSegmentChar_of_startsSelector starts, signs⟩
      have taken : ((sign :: others) ++ []).takeWhile isSegmentChar = sign :: others
          ∧ ((sign :: others) ++ []).dropWhile isSegmentChar = [] :=
        takeWhile_append_of_stop accepted nofun
      rw [List.append_nil] at taken
      rw [read_selector_cons starts, taken.1, taken.2]

/-! ## Ids -/

theorem isSegment_iff :
    isSegment text = true
      ↔ text ≠ [] ∧ ∀ character ∈ text, isSegmentChar character = true := by
  rw [isSegment, Bool.and_eq_true_iff, List.all_eq_true, Bool.not_eq_true',
    List.isEmpty_eq_false_iff]

theorem isSegment_of_read (taken : segment.read text = some (front, rest)) :
    isSegment front = true :=
  isSegment_iff.mpr ⟨(Advances.oneOrMore isSegmentChar).nonempty taken,
    (Advances.oneOrMore isSegmentChar).accepted taken⟩

/-- Segments with a slash in front of each. -/
def slashed (pieces : List Text) : Text :=
  pieces.flatMap ('/' :: ·)

theorem intercalate_cons_eq_append_slashed (first : Text) (pieces : List Text) :
    ['/'].intercalate (first :: pieces) = first ++ slashed pieces := by
  induction pieces generalizing first with
  | nil => simp [slashed]
  | cons next others inductionHypothesis =>
      rw [List.intercalate_cons_cons, inductionHypothesis]
      simp [slashed]

/-- What may stand behind an id: nothing that the id could go on with. -/
def EndsId (rest : Text) : Prop :=
  ∀ character ∈ rest.head?, isSegmentChar character = false ∧ character ≠ '/'

/-- A further segment starts with a slash, which is in no segment. -/
theorem stops_slashed {pieces : List Text} (ends : EndsId rest) :
    ∀ character ∈ (slashed pieces ++ rest).head?, isSegmentChar character = false := by
  cases pieces with
  | nil => exact fun character isFirst => (ends character isFirst).1
  | cons next more =>
      intro character isFirst
      cases isFirst
      rfl

theorem read_segment (isSegment : isSegment front = true)
    (stops : ∀ character ∈ rest.head?, isSegmentChar character = false) :
    segment.read (front ++ rest) = some (front, rest) :=
  read_oneOrMore_append (isSegment_iff.mp isSegment).1 (isSegment_iff.mp isSegment).2 stops

theorem exists_slashed_of_readFollowing
    (taken : readFollowing (exactly ['/']) segment text = some (front, rest)) :
    ∃ pieces : List Text,
      (∀ piece ∈ pieces, isSegment piece = true) ∧ front = slashed pieces := by
  fun_induction readFollowing (exactly ['/']) segment text generalizing front rest with
  | case1 => cases taken; exact ⟨[], nofun, rfl⟩
  | case2 => cases taken; exact ⟨[], nofun, rfl⟩
  | case3 text sign behind isSign _ piece later isPiece inductionHypothesis =>
      obtain ⟨⟨others, rest⟩, isOthers, same⟩ := Option.map_eq_some_iff.mp taken
      cases same
      obtain ⟨pieces, areSegments, rfl⟩ := inductionHypothesis isOthers
      refine ⟨piece :: pieces, ?_, ?_⟩
      · exact List.forall_mem_cons.mpr ⟨isSegment_of_read isPiece, areSegments⟩
      · rw [eq_of_read_exactly isSign]
        rfl
  | case4 => exact absurd taken (by simp)

theorem readFollowing_slashed {pieces : List Text}
    (areSegments : ∀ piece ∈ pieces, isSegment piece = true) (ends : EndsId rest) :
    readFollowing (exactly ['/']) segment (slashed pieces ++ rest)
      = some (slashed pieces, rest) := by
  induction pieces with
  | nil =>
      have noSlash : (exactly ['/']).read rest = none := by
        rw [Option.eq_none_iff_forall_ne_some]
        intro taken isTaken
        have whole := Reader.append_eq _ isTaken
        rw [eq_of_read_exactly isTaken] at whole
        exact (ends '/' (by rw [← whole]; rfl)).2 rfl
      change readFollowing (exactly ['/']) segment rest = some ([], rest)
      rw [readFollowing, noSlash]
  | cons piece others inductionHypothesis =>
      obtain ⟨isPiece, areOthers⟩ := List.forall_mem_cons.mp areSegments
      have stops : ∀ character ∈ (slashed others ++ rest).head?, isSegmentChar character = false :=
        stops_slashed ends
      have isRead := read_segment isPiece stops
      have whole : slashed (piece :: others) ++ rest
          = ['/'] ++ (piece ++ (slashed others ++ rest)) := by simp [slashed]
      have shorter : (piece ++ (slashed others ++ rest)).length
          < (['/'] ++ (piece ++ (slashed others ++ rest))).length :=
        Nat.lt_succ_self _
      rw [whole, readFollowing, read_exactly_append]
      simp only [if_pos shorter]
      split
      case h_1 noPiece => exact absurd (isRead.symm.trans noPiece) (Option.some_ne_none _)
      case h_2 taken later isTaken =>
        cases isRead.symm.trans isTaken
        rw [inductionHypothesis areOthers]
        simp [slashed]

/-- An id is a segment and further ones with a slash in front of each. -/
theorem isId_iff_exists_slashed :
    isId text = true
      ↔ ∃ (first : Text) (pieces : List Text), isSegment first = true
        ∧ (∀ piece ∈ pieces, isSegment piece = true) ∧ text = first ++ slashed pieces := by
  constructor
  · intro id
    have whole : ['/'].intercalate (text.splitOn '/') = text := List.intercalate_splitOn '/'
    have areSegments := List.all_eq_true.mp id
    cases cut : text.splitOn '/' with
    | nil => exact absurd cut (List.splitOn_ne_nil '/' text)
    | cons first pieces =>
        rw [cut] at whole areSegments
        rw [intercalate_cons_eq_append_slashed] at whole
        exact ⟨first, pieces, areSegments first List.mem_cons_self,
          fun piece member => areSegments piece (List.mem_cons_of_mem first member), whole.symm⟩
  · intro ⟨first, pieces, isFirst, arePieces, whole⟩
    have areSegments : ∀ piece ∈ first :: pieces, isSegment piece = true :=
      List.forall_mem_cons.mpr ⟨isFirst, arePieces⟩
    have noSlash : ∀ piece ∈ first :: pieces, '/' ∉ piece := by
      intro piece member inside
      have inSegment := (isSegment_iff.mp (areSegments piece member)).2 '/' inside
      exact absurd inSegment (by decide)
    rw [isId, whole, ← intercalate_cons_eq_append_slashed,
      List.splitOn_intercalate '/' noSlash (List.cons_ne_nil first pieces)]
    exact List.all_eq_true.mpr areSegments

/-- What is read as an id is one. -/
theorem isId_of_read (taken : segments.read text = some (front, rest)) : isId front = true := by
  simp only [segments, separated, followedBy, Option.bind_eq_bind, Option.bind_eq_some_iff,
    Option.pure_def, Option.some.injEq, Prod.mk.injEq, Prod.exists] at taken
  obtain ⟨first, behind, isFirst, others, _, areOthers, rfl, rfl⟩ := taken
  obtain ⟨pieces, arePieces, rfl⟩ := exists_slashed_of_readFollowing areOthers
  exact isId_iff_exists_slashed.mpr ⟨first, pieces, isSegment_of_read isFirst, arePieces, rfl⟩

/-- **An id is read to its end** wherever nothing stands behind it that it could go on with. -/
theorem read_segments (id : isId front = true) (ends : EndsId rest) :
    segments.read (front ++ rest) = some (front, rest) := by
  obtain ⟨first, pieces, isFirst, arePieces, rfl⟩ := isId_iff_exists_slashed.mp id
  have stops : ∀ character ∈ (slashed pieces ++ rest).head?, isSegmentChar character = false :=
    stops_slashed ends
  have taken := read_segment isFirst stops
  have following := readFollowing_slashed arePieces ends
  rw [List.append_assoc]
  simp only [segments, separated, followedBy, Reader.following, taken, following,
    Option.bind_eq_bind, Option.bind_some, Option.pure_def]

/-! ## Namespace addresses -/

theorem isNamespace_marker_append (id : Text) : isNamespace (marker ++ id) = isId id := by
  have found : marker.isPrefixOf? (marker ++ id) = some id :=
    List.isPrefixOf?_eq_some_iff_append_eq.mpr rfl
  rw [isNamespace, found]

theorem isNamespace_of_read (taken : namespaceUri.read text = some (front, rest)) :
    isNamespace front = true := by
  simp only [namespaceUri, followedBy, Option.bind_eq_bind, Option.bind_eq_some_iff,
    Option.pure_def, Option.some.injEq, Prod.mk.injEq, Prod.exists] at taken
  obtain ⟨_, behind, isMarker, id, _, isId, rfl, rfl⟩ := taken
  rw [eq_of_read_exactly isMarker]
  exact (isNamespace_marker_append id).trans (isId_of_read isId)

theorem read_namespaceUri (address : isNamespace front = true) (ends : EndsId rest) :
    namespaceUri.read (front ++ rest) = some (front, rest) := by
  obtain ⟨id, isId, rfl⟩ := exists_id_of_isNamespace address
  have following := read_segments isId ends
  rw [List.append_assoc]
  simp only [namespaceUri, followedBy, read_exactly_append, following, Option.bind_eq_bind,
    Option.bind_some, Option.pure_def]

/-- **The reader takes exactly the namespace addresses** to their ends. -/
theorem read_namespaceUri_eq_some_nil_iff :
    namespaceUri.read text = some (front, []) ↔ front = text ∧ isNamespace text = true := by
  constructor
  · intro taken
    have whole := namespaceUri.append_eq taken
    rw [List.append_nil] at whole
    exact ⟨whole, whole ▸ isNamespace_of_read taken⟩
  · intro ⟨same, address⟩
    have taken : namespaceUri.read (text ++ []) = some (text, []) :=
      read_namespaceUri address nofun
    rw [List.append_nil] at taken
    rw [same, taken]

/-! ## Column addresses -/

/-- **The reader takes exactly the column addresses** to their ends, and finds in each the owner
and the selector that it was put together from. -/
theorem readColumn_eq_some_iff :
    readColumn text = some (owner, name)
      ↔ isNamespace owner = true ∧ isSelector name = true ∧ text = owner ++ '.' :: name := by
  constructor
  · intro taken
    simp only [readColumn, Option.bind_eq_bind, Option.bind_eq_some_iff, Option.pure_def,
      Option.ite_none_right_eq_some, Option.some.injEq, Prod.mk.injEq, Prod.exists] at taken
    obtain ⟨_, behind, isOwner, _, later, isDot, _, _, isName, rfl, rfl, rfl⟩ := taken
    refine ⟨isNamespace_of_read isOwner, isSelector_of_read isName, ?_⟩
    have name := selector.append_eq isName
    have dotted := Reader.append_eq _ isDot
    rw [eq_of_read_exactly isDot, ← name, List.append_nil] at dotted
    rw [← namespaceUri.append_eq isOwner, ← dotted]
    rfl
  · intro ⟨address, isName, whole⟩
    have isOwner : namespaceUri.read text = some (owner, '.' :: name) := by
      rw [whole]
      refine read_namespaceUri address ?_
      intro character isFirst
      cases isFirst
      decide
    have isDot : (exactly ['.']).read ('.' :: name) = some (['.'], name) :=
      read_exactly_append ['.'] name
    simp only [readColumn, isOwner, isDot, read_selector isName, Option.bind_eq_bind,
      Option.bind_some, Option.pure_def, ↓reduceIte]

end Reader

end Typesheet.Address

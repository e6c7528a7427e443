import Typesheet.Proofs.Address.Reader
import Typesheet.Proofs.Declaration.Selection
import Typesheet.Proofs.Text.Line

/-!
Contract: property keys and quoted names are read back.

Owns: a reader of the property names of TypeScript, that keys and quoted names tell their names
apart, and the theorem that the reader gives the name back and stops right behind it exactly when
the name stays on one line.

Quoting escapes what would close a literal early or escape its end, and nothing else.  A line end
in a name therefore stands in the literal as it is, and a literal is over at the end of its line,
closed or not.
-/

set_option autoImplicit false

namespace Typesheet.Declaration

/-! ## Reading property names -/

/-- The character that is meant by one behind a backslash.  Numeric escapes and line ends are left
out: no name is written with them. -/
def escaped? : Char → Option Char
  | 'b' => some '\x08'
  | 't' => some '\t'
  | 'n' => some '\n'
  | 'v' => some '\x0b'
  | 'f' => some '\x0c'
  | 'r' => some '\r'
  | 'x' | 'u' => none
  | character => if character.isDigit || Text.isLineEnd character then none else some character

/-- Read a string behind its opening quote: the string that is meant, and the text behind the
closing quote. -/
def readString : Text → Option (Text × Text)
  | [] => none
  | '\'' :: rest => some ([], rest)
  | '\\' :: sign :: rest =>
      (escaped? sign).bind fun meant => (readString rest).map (Prod.map (List.cons meant) id)
  | character :: rest =>
      if character = '\\' || Text.isLineEnd character then none
      else (readString rest).map (Prod.map (List.cons character) id)

/-- Read a property name from the left of a text: a string, or an identifier for as long as it
goes. -/
def readKey : Text → Option (Text × Text)
  | [] => none
  | '\'' :: rest => readString rest
  | character :: rest =>
      if startsIdentifier character then
        some (character :: rest.takeWhile continuesIdentifier, rest.dropWhile continuesIdentifier)
      else none

/-- In front of the rest the written text is read as one token that denotes the name, or, when a
line ends in the name, as no property name at all. -/
def ReadsOnOneLine (written name rest : Text) : Prop :=
  readKey (written ++ rest) = if Text.IsLine name then some (name, rest) else none

section Names

variable {name rest : Text} {character : Char}

/-! ## Quoted names -/

theorem escapeInName_of_quoted (quoted : character = '\'' ∨ character = '\\') :
    escapeInName character = ['\\', character] ∧ escaped? character = some character
      ∧ Text.isLineEnd character = false := by
  rcases quoted with rfl | rfl <;> decide

theorem escapeInName_of_plain (noQuote : character ≠ '\'') (noBackslash : character ≠ '\\') :
    escapeInName character = [character] := by
  simp [escapeInName, noQuote, noBackslash]

/-- What reading a character does that stands for itself or behind a backslash. -/
theorem readString_escapeInName (character : Char) (rest : Text) :
    readString (escapeInName character ++ rest)
      = if Text.isLineEnd character then none
        else (readString rest).map (Prod.map (List.cons character) id) := by
  by_cases quoted : character = '\'' ∨ character = '\\'
  · obtain ⟨escape, meant, noEnd⟩ := escapeInName_of_quoted quoted
    rw [escape, noEnd, if_neg Bool.false_ne_true]
    show readString ('\\' :: character :: rest) = _
    rw [readString, meant, Option.bind_some]
  · obtain ⟨noQuote, noBackslash⟩ := not_or.mp quoted
    rw [escapeInName_of_plain noQuote noBackslash, List.singleton_append]
    rw [readString]
    · simp [noBackslash]
    · exact noQuote
    · exact fun _ _ same => absurd same noBackslash

/-- The reader takes an escaped name in up to the closing quote, unless a line ends before it. -/
theorem readString_escaped (name rest : Text) :
    readString (name.flatMap escapeInName ++ '\'' :: rest)
      = if Text.IsLine name then some (name, rest) else none := by
  induction name with
  | nil => simp [readString, Text.IsLine]
  | cons character others inductionHypothesis =>
      have isLine_iff : Text.IsLine (character :: others)
          ↔ Text.isLineEnd character = false ∧ Text.IsLine others := List.forall_mem_cons
      rw [List.flatMap_cons, List.append_assoc, readString_escapeInName, inductionHypothesis]
      cases ends : Text.isLineEnd character with
      | true => simp [isLine_iff, ends]
      | false =>
          simp only [isLine_iff, ends, Bool.false_eq_true, ↓reduceIte, true_and]
          split <;> rfl

theorem quoteName_reads (name rest : Text) : ReadsOnOneLine (quoteName name) name rest := by
  have shape : quoteName name ++ rest = '\'' :: (name.flatMap escapeInName ++ '\'' :: rest) := by
    simp [quoteName]
  rw [ReadsOnOneLine, shape, readKey, readString_escaped]

theorem escapeInName_cases (character : Char) :
    escapeInName character = ['\\', character]
      ∨ character ≠ '\\' ∧ escapeInName character = [character] := by
  by_cases quoted : character = '\'' ∨ character = '\\'
  · exact .inl (escapeInName_of_quoted quoted).1
  · obtain ⟨noQuote, noBackslash⟩ := not_or.mp quoted
    exact .inr ⟨noBackslash, escapeInName_of_plain noQuote noBackslash⟩

/-- An escaped character says which one it is, whatever follows. -/
theorem escapeInName_cancel {sign : Char} {others : Text}
    (same : escapeInName character ++ rest = escapeInName sign ++ others) :
    character = sign ∧ rest = others := by
  rcases escapeInName_cases character with escaped | ⟨noBackslash, plain⟩
  · rcases escapeInName_cases sign with alsoEscaped | ⟨signNoBackslash, signPlain⟩
    · rw [escaped, alsoEscaped] at same
      exact List.cons.inj (List.cons.inj same).2
    · rw [escaped, signPlain] at same
      exact absurd (List.cons.inj same).1.symm signNoBackslash
  · rcases escapeInName_cases sign with signEscaped | ⟨-, alsoPlain⟩
    · rw [plain, signEscaped] at same
      exact absurd (List.cons.inj same).1 noBackslash
    · rw [plain, alsoPlain] at same
      exact List.cons.inj same

theorem escapeInName_ne_nil (character : Char) : escapeInName character ≠ [] := by
  unfold escapeInName
  split <;> exact List.cons_ne_nil _ _

theorem flatMap_escapeInName_injective :
    Function.Injective fun name : Text => name.flatMap escapeInName := by
  intro name other same
  induction name generalizing other with
  | nil =>
      cases other with
      | nil => rfl
      | cons sign behind =>
          exact absurd (List.append_eq_nil_iff.mp same.symm).1 (escapeInName_ne_nil sign)
  | cons character others inductionHypothesis =>
      cases other with
      | nil => exact absurd (List.append_eq_nil_iff.mp same).1 (escapeInName_ne_nil character)
      | cons sign behind =>
          obtain ⟨rfl, sameRest⟩ := escapeInName_cancel same
          rw [inductionHypothesis sameRest]

theorem quoteName_injective : Function.Injective quoteName := fun _ _ same =>
  flatMap_escapeInName_injective (List.append_cancel_right (List.cons.inj same).2)

/-! ## Keys -/

theorem isLineEnd_of_continuesIdentifier (continues : continuesIdentifier character = true) :
    Text.isLineEnd character = false := by
  rw [← Bool.not_eq_true]
  intro ends
  simp only [Text.isLineEnd, Bool.or_eq_true, decide_eq_true_eq] at ends
  rcases ends with ((rfl | rfl) | rfl) | rfl <;> exact absurd continues (by decide)

theorem continuesIdentifier_of_starts (starts : startsIdentifier character = true) :
    continuesIdentifier character = true := by
  simp only [startsIdentifier, Bool.or_eq_true, decide_eq_true_eq] at starts
  simp only [continuesIdentifier, Char.isAlphanum, Bool.or_eq_true, decide_eq_true_eq]
  rcases starts with (letter | underscore) | dollar
  · exact .inl (.inl (.inl letter))
  · exact .inl (.inr underscore)
  · exact .inr dollar

theorem isIdentifier_cons_iff :
    isIdentifier (character :: rest) = true
      ↔ startsIdentifier character = true
        ∧ ∀ other ∈ rest, continuesIdentifier other = true := by
  rw [isIdentifier, Bool.and_eq_true, List.all_eq_true]

/-- An identifier is a starting character with others behind it that it goes on with. -/
theorem exists_cons_of_isIdentifier (identifier : isIdentifier name = true) :
    ∃ first others, name = first :: others ∧ startsIdentifier first = true
      ∧ ∀ character ∈ others, continuesIdentifier character = true := by
  cases name with
  | nil => exact absurd identifier Bool.false_ne_true
  | cons first others =>
      obtain ⟨starts, goesOn⟩ := isIdentifier_cons_iff.mp identifier
      exact ⟨first, others, rfl, starts, goesOn⟩

theorem isLine_of_isIdentifier (identifier : isIdentifier name = true) : Text.IsLine name := by
  obtain ⟨first, others, rfl, starts, goesOn⟩ := exists_cons_of_isIdentifier identifier
  refine List.forall_mem_cons.mpr ⟨?_, ?_⟩
  · exact isLineEnd_of_continuesIdentifier (continuesIdentifier_of_starts starts)
  · exact fun character member => isLineEnd_of_continuesIdentifier (goesOn character member)

theorem ne_quote_of_startsIdentifier (starts : startsIdentifier character = true) :
    character ≠ '\'' := by
  rintro rfl
  exact absurd starts (by decide)

/-- The reader takes an identifier in up to where it can go on no more. -/
theorem readKey_identifier (identifier : isIdentifier name = true)
    (stops : ∀ character ∈ rest.head?, continuesIdentifier character = false) :
    readKey (name ++ rest) = some (name, rest) := by
  obtain ⟨first, others, rfl, starts, goesOn⟩ := exists_cons_of_isIdentifier identifier
  obtain ⟨taken, left⟩ := Address.Reader.takeWhile_append_of_stop goesOn stops
  rw [List.cons_append, readKey, if_pos starts, taken, left]
  exact ne_quote_of_startsIdentifier starts

theorem propertyKey_reads (name : Text)
    (stops : ∀ character ∈ rest.head?, continuesIdentifier character = false) :
    ReadsOnOneLine (propertyKey name) name rest := by
  unfold propertyKey
  split
  case isTrue identifier =>
    rw [ReadsOnOneLine, readKey_identifier identifier stops,
      if_pos (isLine_of_isIdentifier identifier)]
  case isFalse => exact quoteName_reads name rest

/-- A quoted name is no identifier, so it is the key of no other name. -/
theorem quoteName_ne_of_isIdentifier {other : Text} (identifier : isIdentifier name = true) :
    quoteName other ≠ name := by
  obtain ⟨first, others, rfl, starts, -⟩ := exists_cons_of_isIdentifier identifier
  intro same
  exact ne_quote_of_startsIdentifier starts (List.cons.inj same).1.symm

theorem propertyKey_injective : Function.Injective propertyKey := by
  intro name other same
  unfold propertyKey at same
  split at same
  case isTrue identifier =>
    split at same
    case isTrue => exact same
    case isFalse => exact absurd same.symm (quoteName_ne_of_isIdentifier identifier)
  case isFalse =>
    split at same
    case isTrue otherIdentifier => exact absurd same (quoteName_ne_of_isIdentifier otherIdentifier)
    case isFalse => exact quoteName_injective same

end Names

/-! ## Written names -/

theorem isLine_quoteName_iff (name : Text) : Text.IsLine (quoteName name) ↔ Text.IsLine name := by
  have escaped : ∀ character, Text.IsLine (escapeInName character)
      ↔ Text.isLineEnd character = false := by
    intro character
    rcases escapeInName_cases character with escape | ⟨-, plain⟩
    · rw [escape]
      exact List.forall_mem_cons.trans ((and_iff_right rfl).trans List.forall_mem_singleton)
    · rw [plain]
      exact List.forall_mem_singleton
  have quote : Text.IsLine ['\''] := by decide
  have shape : quoteName name = ['\''] ++ (name.flatMap escapeInName ++ ['\'']) := rfl
  rw [shape, Text.isLine_append, Text.isLine_append, and_iff_right quote, and_iff_left quote]
  constructor
  · intro isLine character member
    exact (escaped character).mp fun sign inEscape =>
      isLine sign (List.mem_flatMap.mpr ⟨character, member, inEscape⟩)
  · intro isLine sign inEscapes
    obtain ⟨character, member, inEscape⟩ := List.mem_flatMap.mp inEscapes
    exact (escaped character).mpr (isLine character member) sign inEscape

/-- What stands behind the key in the line that declares the property of a column. -/
def behindKey (nameOf : Ref → Text) (column : Field) : Text :=
  (if column.isOptional then "?".toList else []) ++ ": ".toList ++ typeText nameOf column.type
    ++ ";".toList

section Written

variable (nameOf : Ref → Text) (pad : Text)

theorem propertyLine_eq (column : Field) :
    propertyLine nameOf pad column = pad ++ (propertyKey column.name ++ behindKey nameOf column) := by
  simp only [propertyLine, behindKey, List.append_assoc]

theorem stops_behindKey (column : Field) :
    ∀ character ∈ (behindKey nameOf column).head?, continuesIdentifier character = false := by
  intro character first
  unfold behindKey at first
  cases isOptional : column.isOptional with
  | false =>
      rw [isOptional] at first
      obtain rfl : ':' = character := Option.some.inj first
      decide
  | true =>
      rw [isOptional] at first
      obtain rfl : '?' = character := Option.some.inj first
      decide

theorem referenceText_of_unresolved {ref : Ref} (unresolved : ref.isResolved = false) :
    referenceText nameOf ref
      = quoteName ref.uri
        ++ (withArrayMark [] ref.isArray ++ " /* unresolved reference */".toList) := by
  unfold referenceText
  rw [if_neg (by rw [unresolved]; exact Bool.false_ne_true)]
  cases ref.isArray <;> simp [withArrayMark]

theorem referenceText_of_selector {ref : Ref} {selector : Text}
    (isResolved : ref.isResolved = true) (toColumn : ref.scope = .column)
    (named : ref.selector = some selector) :
    referenceText nameOf ref
      = nameOf ref ++ "[".toList
        ++ (quoteName ((ref.selectedColumn.map Column.name).getD selector)
          ++ withArrayMark "]".toList ref.isArray) := by
  unfold referenceText
  rw [if_pos isResolved, toColumn, named]
  cases ref.isArray <;> simp [withArrayMark]

/-- **Keys and quoted names are read back as long as they stay on one line.**  The key of a column
is the name itself when that is an identifier and a quoted name otherwise.  Keys and quoted names
hold a line end exactly when the name does, and tell their names apart.  In every place where one
is written, in front of the mark and the type of a property, in an access to a column and in the
literal of an unresolved reference, it is one token that ends where the name ends and denotes the
name, unless a line ends in it. -/
theorem names_read_back_iff_isLine :
    (∀ name,
        (propertyKey name = if isIdentifier name then name else quoteName name)
          ∧ (Text.IsLine (quoteName name) ↔ Text.IsLine name)
          ∧ (Text.IsLine (propertyKey name) ↔ Text.IsLine name)
          ∧ ∀ rest, ReadsOnOneLine (quoteName name) name rest)
      ∧ (∀ column other : Field,
          propertyKey column.name = propertyKey other.name ↔ column.name = other.name)
      ∧ Function.Injective quoteName
      ∧ (∀ column, propertyLine nameOf pad column
            = pad ++ (propertyKey column.name ++ behindKey nameOf column)
          ∧ ReadsOnOneLine (propertyKey column.name) column.name (behindKey nameOf column)
          ∧ ∀ interface : Interface, column ∈ interface.columns →
            propertyLine nameOf pad column ++ ['\n'] <:+: interfaceText nameOf pad interface)
      ∧ (∀ ref : Ref, ref.isResolved = false →
          let behind := withArrayMark [] ref.isArray ++ " /* unresolved reference */".toList
          referenceText nameOf ref = quoteName ref.uri ++ behind
            ∧ ReadsOnOneLine (quoteName ref.uri) ref.uri behind)
      ∧ ∀ (ref : Ref) (selector : Text), ref.isResolved = true → ref.scope = .column →
          ref.selector = some selector →
          let property := (ref.selectedColumn.map Column.name).getD selector
          let behind := withArrayMark "]".toList ref.isArray
          referenceText nameOf ref = nameOf ref ++ "[".toList ++ (quoteName property ++ behind)
            ∧ ReadsOnOneLine (quoteName property) property behind := by
  refine ⟨fun name => ⟨rfl, isLine_quoteName_iff name, ?_, quoteName_reads name⟩,
    fun column other => propertyKey_injective.eq_iff, quoteName_injective, ?_, ?_, ?_⟩
  · unfold propertyKey
    split
    case isTrue => exact Iff.rfl
    case isFalse => exact isLine_quoteName_iff name
  · intro column
    exact ⟨propertyLine_eq nameOf pad column,
      propertyKey_reads column.name (stops_behindKey nameOf column),
      fun _ member => propertyLine_infix_interfaceText member⟩
  · intro ref unresolved behind
    exact ⟨referenceText_of_unresolved nameOf unresolved, quoteName_reads ref.uri behind⟩
  · intro ref selector isResolved toColumn named property behind
    exact ⟨referenceText_of_selector nameOf isResolved toColumn named,
      quoteName_reads property behind⟩

end Written

/-- A column whose name holds both characters that are escaped. -/
private def escapedColumn : Field :=
  { key := "A".toList, name := "it's a\\b".toList, type := .keyword .string false
    isOptional := true }

/-- A reference to such a column. -/
private def escapedRef : Ref :=
  { uri := "ns:notes.A".toList, scope := .column, selector := some "A".toList
    typename := "Notes".toList, columns := [escapedColumn] }

theorem escaped_name_reads_back :
    let notes : Interface :=
      { name := "Notes".toList, typename := "Notes".toList, columns := [escapedColumn] }
    readKey "'it\\'s a\\\\b'?: string;".toList = some (escapedColumn.name, "?: string;".toList)
      ∧ propertyLine Reference.typename "  ".toList escapedColumn
        = "  'it\\'s a\\\\b'?: string;".toList
      ∧ propertyLine Reference.typename "  ".toList escapedColumn ++ ['\n']
        <:+: interfaceText Reference.typename "  ".toList notes
      ∧ referenceText Reference.typename escapedRef = "Notes['it\\'s a\\\\b']".toList
      ∧ referenceText Reference.typename { escapedRef with typename := [], columns := [] }
        = "'ns:notes.A' /* unresolved reference */".toList := by
  intro notes
  obtain ⟨-, -, -, properties, unresolved, accesses⟩ :=
    names_read_back_iff_isLine Reference.typename "  ".toList
  obtain ⟨line, reads, inText⟩ := properties escapedColumn
  have isLine : Text.IsLine escapedColumn.name := by decide
  refine ⟨?_, line.trans (by decide), inText notes (List.mem_singleton_self _),
    (accesses escapedRef "A".toList rfl rfl rfl).1.trans (by decide),
    (unresolved _ rfl).1.trans (by decide)⟩
  rw [ReadsOnOneLine, if_pos isLine] at reads
  exact reads

/-- A namespace with a column whose name is written on two lines. -/
private def notesOnTwoLines : Loader where
  scheme := .standard
  source := MemoryStore.source
    { definitions :=
        [("ns:notes".toList,
          (Definition.named []).withColumn "A".toList "first\nname".toList "string".toList)] }
  maxDepth := 2

/-- The name of a column with a line feed in it is written as a literal that its line does not
close, where an escape in place of the line feed would be read back. -/
theorem line_feed_leaves_literal_open :
    let schema := (notesOnTwoLines.load [] ⟨"ns:notes".toList, by decide⟩).schema
    let column : Field :=
      { key := "A".toList, name := "first\nname".toList, type := .keyword .string false }
    schema.columns = [column] ∧ schema.issues = []
      ∧ propertyKey column.name = "'first\nname'".toList
      ∧ ¬ Text.IsLine (propertyKey column.name)
      ∧ readKey (propertyKey column.name ++ behindKey Reference.typename column) = none
      ∧ readKey "'first\\nname': string;".toList = some (column.name, ": string;".toList)
      ∧ renderSchema { includeHeader := false, indent := 2 } schema
        = "export interface Notes \x7b\n  'first\nname': string;\n\x7d\n".toList := by
  decide +kernel

end Typesheet.Declaration

import Typesheet.Address.Scheme
import Typesheet.ColumnType.Name

/-!
Contract: reading a type from a type expression.

    expression = term *( "|" term )
    term       = "(" expression ")" [ "[]" ] / leaf
    leaf       = keyword [ "[]" ] / address [ "[]" ] / quoted *( "|" quoted )

Anything else is read as an unknown type that keeps its text.  Owns: reading of
leaves, literals and whole expressions under an address scheme, and the small
tests on raw text that go with them.  References are read unresolved.
-/

set_option autoImplicit false

namespace Typesheet

namespace Expression

/-- The text, trimmed, ends in the array marker and is more than an empty group
with one. -/
def hasArrayMark (text : Text) : Bool :=
  Text.trim text ≠ "()[]".toList && arrayMark.isSuffixOf (Text.trim text)

/-- The text, trimmed, starts like a group and ends like one or like an array of
one. -/
def looksLikeGroup (text : Text) : Bool :=
  "(".toList.isPrefixOf (Text.trim text)
    && (")".toList.isSuffixOf (Text.trim text) || ")[]".toList.isSuffixOf (Text.trim text))

def dropArrayMark (text : Text) : Text :=
  (arrayMark.isSuffixOf? text).getD text

/-- Take one quote off the front and one off the back. -/
def dropQuotes (text : Text) : Text :=
  let opened :=
    match text with
    | first :: rest => if ScanState.isQuote first then rest else text
    | [] => []
  match opened.getLast? with
  | some last => if ScanState.isQuote last then opened.dropLast else opened
  | none => []

/-- The content of a literal with a backslash before every `'` that has none.
`escaped` tells whether the character before was a backslash that escapes. -/
def escapeContent (escaped : Bool) : Text → Text
  | [] => []
  | character :: rest =>
      let following := character :: escapeContent (character = '\\' && !escaped) rest
      if character = '\'' && !escaped then '\\' :: following else following

/-- A literal in single quotes with the given content. -/
def quoteLiteral (content : Text) : Text :=
  '\'' :: escapeContent false content ++ ['\'']

end Expression

namespace ColumnType

open Expression

def separator : Text := " | ".toList

/-- One piece of a literal expression. -/
def ofLiteral (piece : Text) : ColumnType :=
  if hasArrayMark piece then
    .literal (quoteLiteral (dropQuotes (Text.trim (dropArrayMark piece)))) true
  else .literal (quoteLiteral (dropQuotes piece)) false

/-- A text with quotes in it: one literal for each of its tokens. -/
def ofLiterals (text : Text) : ColumnType :=
  match (Token.texts text).map ofLiteral with
  | [only] => only
  | members => .union (separator.intercalate (members.map name)) members false

/-- Read a leaf.  Keywords come first, then addresses, then literals. -/
def ofLeaf (scheme : Scheme) (text : Text) : ColumnType :=
  let trimmed := Text.trim text
  let isArray := hasArrayMark trimmed
  let base := if isArray then Text.trim (dropArrayMark trimmed) else trimmed
  if trimmed = [] then .unknown [] false
  else
    match Keyword.ofName? base with
    | some word => .keyword word isArray
    | none =>
        if scheme.isNamespace base then .reference (.toNamespace base isArray)
        else
          match scheme.readColumn base with
          | .ok column => .reference (.toColumn base column.selector isArray)
          | .error _ =>
              if trimmed.any ScanState.isQuote then ofLiterals trimmed
              else .unknown base isArray

/-- How a member shows in the name of its union: a union that is no array stands
in parentheses, a reference is shown by its address. -/
def memberName : ColumnType → Text
  | .union name _ false => "(".toList ++ name ++ ")".toList
  | .reference ref => withArrayMark ref.uri ref.isArray
  | other => other.name

/-- The name of a union. -/
def unionName (members : List ColumnType) : Text :=
  separator.intercalate (members.map memberName)

/-- The type with the given alternatives: none is unknown, one is itself. -/
def ofMembers : List ColumnType → ColumnType
  | [] => .unknown [] false
  | [only] => only
  | members => .union (unionName members) members false

/-- The array of a parenthesized type.  The name of a union is put in
parentheses with the marker behind. -/
def arrayOfGroup : ColumnType → ColumnType
  | .union name members _ => .union ("(".toList ++ name ++ ")[]".toList) members true
  | other => other.setArray true

/-- The tokens of an expression that have a text. -/
def termTokens (text : Text) : List Token :=
  (Token.list (Text.trim text)).filter fun token => !token.text.isEmpty

theorem length_inner_lt_of_mem_termTokens {token : Token} {text inner : Text}
    (member : token ∈ termTokens text)
    (shape : token.shape = .group inner ∨ token.shape = .groupArray inner) :
    inner.length < text.length := by
  have listed := (List.mem_filter.1 member).1
  have bound := Token.length_text_le_of_mem_list listed
  have trimmed := Text.length_trim_le text
  have known : token.shape = Shape.ofText token.text :=
    Token.shape_of_mem_listTrimmed listed
  rw [known] at shape
  have := Shape.length_lt_of_ofText shape
  omega

/-- Read a type expression.  A group is read from the text it encloses, which is
shorter than the expression. -/
def parse (scheme : Scheme) (text : Text) : ColumnType :=
  ofMembers <| (termTokens text).attach.map fun ⟨token, _⟩ =>
    match _ : token.shape with
    | .plain => ofLeaf scheme token.text
    | .group inner => parse scheme inner
    | .groupArray inner =>
        if Text.isBlankText inner then .unknown token.text false
        else arrayOfGroup (parse scheme inner)
termination_by text.length
decreasing_by
  · exact length_inner_lt_of_mem_termTokens (by assumption) (.inl (by assumption))
  · exact length_inner_lt_of_mem_termTokens (by assumption) (.inr (by assumption))

def ofToken (scheme : Scheme) (token : Token) : ColumnType :=
  match token.shape with
  | .plain => ofLeaf scheme token.text
  | .group inner => parse scheme inner
  | .groupArray inner =>
      if Text.isBlankText inner then .unknown token.text false
      else arrayOfGroup (parse scheme inner)

/-- An expression is read token by token. -/
theorem parse_eq (scheme : Scheme) (text : Text) :
    parse scheme text = ofMembers ((termTokens text).map (ofToken scheme)) := by
  rw [parse]
  congr 1
  conv => rhs; rw [← List.attach_map_subtype_val (termTokens text), List.map_map]
  congr 1
  funext ⟨token, member⟩
  unfold ofToken
  simp only [Function.comp_apply]
  split <;> simp_all

end ColumnType

namespace Expression

/-- The text, less one array marker, is an address. -/
def isReference (scheme : Scheme) (text : Text) : Bool :=
  let base := Text.trim (dropArrayMark (Text.trim text))
  scheme.isNamespace base || scheme.isColumn base

end Expression

end Typesheet

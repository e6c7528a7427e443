import Typesheet.Issue.Basic

/-!
Contract: the types of spreadsheet columns.

Owns: the type tree, references with the columns they were resolved to, columns,
decidable equality of all three, and the simple operations on them.

A reference starts out unresolved: its type name is empty and it has no
columns.  Resolving fills both in.
-/

set_option autoImplicit false

namespace Typesheet

inductive Keyword where
  | string
  | number
  | boolean
  | null
  | undefined
deriving DecidableEq, Repr

namespace Keyword

def all : List Keyword := [.string, .number, .boolean, .null, .undefined]

def name : Keyword → Text
  | .string => "string".toList
  | .number => "number".toList
  | .boolean => "boolean".toList
  | .null => "null".toList
  | .undefined => "undefined".toList

def ofName? (name : Text) : Option Keyword :=
  all.find? fun keyword => keyword.name = name

end Keyword

/-- What a reference refers to: a whole namespace or one of its columns.
References in documents may also leave it open. -/
inductive Scope where
  | whole
  | column
  | unknown
deriving DecidableEq, Repr

namespace Scope

def all : List Scope := [.whole, .column, .unknown]

def code : Scope → Text
  | .whole => "NS".toList
  | .column => "COLUMN".toList
  | .unknown => "UNKNOWN".toList

def ofCode? (code : Text) : Option Scope :=
  all.find? fun scope => scope.code = code

end Scope

structure Column (Kind : Type) where
  key : Text
  name : Text
  type : Kind
  target : Option Text := none
  isOptional : Bool := false
  issue : Option Issue := none
deriving DecidableEq, Repr

/-- A reference to a namespace whose columns have types drawn from `Kind`. -/
structure Reference (Kind : Type) where
  uri : Text
  scope : Scope
  selector : Option Text := none
  typename : Text := []
  isArray : Bool := false
  columns : List (Column Kind) := []
deriving DecidableEq, Repr

/-- The type of a column.  A union carries the name that it is shown under. -/
inductive ColumnType where
  | keyword (word : Keyword) (isArray : Bool)
  | literal (text : Text) (isArray : Bool)
  | reference (ref : Reference ColumnType)
  | union (name : Text) (members : List ColumnType) (isArray : Bool)
  | unknown (text : Text) (isArray : Bool)
deriving Repr

abbrev Field := Column ColumnType

abbrev Ref := Reference ColumnType

namespace ColumnType

/-! ## Equality -/

mutual

def same : ColumnType → ColumnType → Bool
  | .keyword word isArray, .keyword word' isArray' => word = word' && isArray = isArray'
  | .literal text isArray, .literal text' isArray' => text = text' && isArray = isArray'
  | .reference ref, .reference ref' => sameReference ref ref'
  | .union name members isArray, .union name' members' isArray' =>
      name = name' && sameAll members members' && isArray = isArray'
  | .unknown text isArray, .unknown text' isArray' => text = text' && isArray = isArray'
  | _, _ => false
termination_by structural type => type

def sameAll : List ColumnType → List ColumnType → Bool
  | [], [] => true
  | type :: rest, type' :: rest' => same type type' && sameAll rest rest'
  | _, _ => false
termination_by structural types => types

def sameReference : Ref → Ref → Bool
  | ⟨uri, scope, selector, typename, isArray, columns⟩,
    ⟨uri', scope', selector', typename', isArray', columns'⟩ =>
      uri = uri' && scope = scope' && selector = selector' && typename = typename'
        && isArray = isArray' && sameColumns columns columns'
termination_by structural ref => ref

/-- Field-by-field comparison of two lists of columns. -/
def sameColumns : List Field → List Field → Bool
  | [], [] => true
  | column :: rest, column' :: rest' => sameColumn column column' && sameColumns rest rest'
  | _, _ => false
termination_by structural columns => columns

def sameColumn : Field → Field → Bool
  | ⟨key, name, type, target, isOptional, issue⟩,
    ⟨key', name', type', target', isOptional', issue'⟩ =>
      key = key' && name = name' && same type type' && target = target'
        && isOptional = isOptional' && issue = issue'
termination_by structural column => column

end

mutual

theorem same_iff : (left right : ColumnType) → (same left right = true ↔ left = right)
  | .keyword .., .keyword .. => by simp [same]
  | .literal .., .literal .. => by simp [same]
  | .reference ref, .reference ref' => by simp [same, sameReference_iff ref ref']
  | .union _ members _, .union _ members' _ => by
      simp [same, sameAll_iff members members', and_assoc]
  | .unknown .., .unknown .. => by simp [same]
  | .keyword .., .literal .. => by simp [same]
  | .keyword .., .reference .. => by simp [same]
  | .keyword .., .union .. => by simp [same]
  | .keyword .., .unknown .. => by simp [same]
  | .literal .., .keyword .. => by simp [same]
  | .literal .., .reference .. => by simp [same]
  | .literal .., .union .. => by simp [same]
  | .literal .., .unknown .. => by simp [same]
  | .reference .., .keyword .. => by simp [same]
  | .reference .., .literal .. => by simp [same]
  | .reference .., .union .. => by simp [same]
  | .reference .., .unknown .. => by simp [same]
  | .union .., .keyword .. => by simp [same]
  | .union .., .literal .. => by simp [same]
  | .union .., .reference .. => by simp [same]
  | .union .., .unknown .. => by simp [same]
  | .unknown .., .keyword .. => by simp [same]
  | .unknown .., .literal .. => by simp [same]
  | .unknown .., .reference .. => by simp [same]
  | .unknown .., .union .. => by simp [same]

/-- The comparison of lists of types decides equality. -/
theorem sameAll_iff :
    (left right : List ColumnType) → (sameAll left right = true ↔ left = right)
  | [], [] => by simp [sameAll]
  | type :: rest, type' :: rest' => by
      simp [sameAll, same_iff type type', sameAll_iff rest rest']
  | [], _ :: _ => by simp [sameAll]
  | _ :: _, [] => by simp [sameAll]

theorem sameReference_iff :
    (left right : Ref) → (sameReference left right = true ↔ left = right)
  | ⟨_, _, _, _, _, columns⟩, ⟨_, _, _, _, _, columns'⟩ => by
      simp [sameReference, sameColumns_iff columns columns', and_assoc]

/-- The comparison of lists of columns decides equality. -/
theorem sameColumns_iff :
    (left right : List Field) → (sameColumns left right = true ↔ left = right)
  | [], [] => by simp [sameColumns]
  | column :: rest, column' :: rest' => by
      simp [sameColumns, sameColumn_iff column column', sameColumns_iff rest rest']
  | [], _ :: _ => by simp [sameColumns]
  | _ :: _, [] => by simp [sameColumns]

theorem sameColumn_iff : (left right : Field) → (sameColumn left right = true ↔ left = right)
  | ⟨_, _, type, _, _, _⟩, ⟨_, _, type', _, _, _⟩ => by
      simp [sameColumn, same_iff type type', and_assoc]

end

instance : DecidableEq ColumnType := fun left right =>
  decidable_of_iff _ (same_iff left right)

end ColumnType

namespace Reference

def toNamespace (uri : Text) (isArray : Bool) : Ref :=
  { uri, scope := .whole, isArray }

def toColumn (uri selector : Text) (isArray : Bool) : Ref :=
  { uri, scope := .column, selector := some selector, isArray }

/-- A reference is resolved once it has a type name. -/
def isResolved (reference : Ref) : Bool :=
  !reference.typename.isEmpty

def resolve (reference : Ref) (typename : Text) (columns : List Field) : Ref :=
  { reference with typename, columns }

/-- A selector names a column by its property or by its key. -/
def selects (selector : Text) (column : Field) : Bool :=
  column.name = selector || column.key = selector

/-- The column that the selector names: the first of those it fits. -/
def selectedColumn (reference : Ref) : Option Field :=
  reference.selector.bind fun selector => reference.columns.find? (selects selector)

end Reference

namespace ColumnType

def isArray : ColumnType → Bool
  | .keyword _ isArray => isArray
  | .literal _ isArray => isArray
  | .reference ref => ref.isArray
  | .union _ _ isArray => isArray
  | .unknown _ isArray => isArray

/-- The type with another array flag on its outermost node. -/
def setArray (isArray : Bool) : ColumnType → ColumnType
  | .keyword word _ => .keyword word isArray
  | .literal text _ => .literal text isArray
  | .reference ref => .reference { ref with isArray }
  | .union name members _ => .union name members isArray
  | .unknown text _ => .unknown text isArray

def isUnion : ColumnType → Bool
  | .union .. => true
  | _ => false

mutual

/-- The references of a type in order, found through unions but not inside the
columns of a reference. -/
def references : ColumnType → List Ref
  | .reference ref => [ref]
  | .union _ members _ => referencesAll members
  | _ => []
termination_by structural type => type

def referencesAll : List ColumnType → List Ref
  | [] => []
  | type :: rest => references type ++ referencesAll rest
termination_by structural types => types

end

mutual

/-- Change every reference that `references` finds. -/
def mapReferences (change : Ref → Ref) : ColumnType → ColumnType
  | .reference ref => .reference (change ref)
  | .union name members isArray => .union name (mapReferencesAll change members) isArray
  | .keyword word isArray => .keyword word isArray
  | .literal text isArray => .literal text isArray
  | .unknown text isArray => .unknown text isArray
termination_by structural type => type

def mapReferencesAll (change : Ref → Ref) : List ColumnType → List ColumnType
  | [] => []
  | type :: rest => mapReferences change type :: mapReferencesAll change rest
termination_by structural types => types

end

end ColumnType

end Typesheet

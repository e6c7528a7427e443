import Typesheet.ColumnType.Name
import Typesheet.Declaration.Comment
import Typesheet.Declaration.Interface
import Typesheet.Declaration.Key
import Typesheet.Schema.Basic

/-!
Contract: the declaration file of a schema.

Owns: the text of types, of interfaces, and of the whole file.  A schema with
issues is rendered too: an unresolved reference becomes the literal of its
address, an unknown type `unknown`, each with a comment, and the issues of a
column stand in comments above it.
-/

set_option autoImplicit false

namespace Typesheet.Declaration

structure RenderOptions where
  includeHeader : Bool := true
  indent : Nat := 2
deriving DecidableEq, Repr

/-! ## Types -/

/-- An unknown type, with the text that it was read from in a comment. -/
def unknownText (text : Text) (isArray : Bool) : Text :=
  let placeholder := withArrayMark "unknown".toList isArray
  if text = [] then placeholder
  else placeholder ++ " /* ".toList ++ commentText text ++ " */".toList

/-- A reference.  A resolved one to a column is written as an access to a property
of its interface. -/
def referenceText (nameOf : Ref → Text) (ref : Ref) : Text :=
  if ref.isResolved then
    let name := nameOf ref
    let base :=
      match ref.scope, ref.selector with
      | .column, some selector =>
          let property := (ref.selectedColumn.map Column.name).getD selector
          name ++ "[".toList ++ quoteName property ++ "]".toList
      | _, _ => name
    withArrayMark base ref.isArray
  else
    withArrayMark (quoteName ref.uri) ref.isArray ++ " /* unresolved reference */".toList

mutual

/-- A type, where `nameOf` names resolved references. -/
def typeText (nameOf : Ref → Text) : ColumnType → Text
  | .keyword word isArray => (ColumnType.keyword word isArray).name
  | .literal text isArray => (ColumnType.literal text isArray).name
  | .reference ref => referenceText nameOf ref
  | .union _ members isArray =>
      withArrayMark ("(".toList ++ " | ".toList.intercalate (memberTexts nameOf members)
        ++ ")".toList) isArray
  | .unknown text isArray => unknownText text isArray
termination_by structural type => type

def memberTexts (nameOf : Ref → Text) : List ColumnType → List Text
  | [] => []
  | type :: rest => typeText nameOf type :: memberTexts nameOf rest
termination_by structural types => types

end

/-- A type on its own; references are written by their type names. -/
def renderType (type : ColumnType) : Text :=
  typeText Reference.typename type

/-! ## Interfaces -/

/-- The lines of a column: its issues, its target, and its property. -/
def columnLines (nameOf : Ref → Text) (pad : Text) (column : Field) : List Text :=
  childLines pad 0 column.issue.toList
    ++ (column.target.toList.map fun target =>
      pad ++ "/** @target ".toList ++ commentText target ++ " */".toList)
    ++ [pad ++ propertyKey column.name ++ (if column.isOptional then "?".toList else [])
      ++ ": ".toList ++ typeText nameOf column.type ++ ";".toList]

/-- Lines with a line feed behind each. -/
def lines (texts : List Text) : Text :=
  texts.flatMap fun text => text ++ ['\n']

def interfaceText (nameOf : Ref → Text) (pad : Text) (interface : Interface) : Text :=
  let extending :=
    match interface.base with
    | some base => " extends ".toList ++ base
    | none => []
  let opening := "export interface ".toList ++ interface.name ++ extending
  if interface.columns = [] then lines [opening ++ " \x7b\x7d".toList]
  else
    lines ([opening ++ " \x7b".toList] ++ interface.columns.flatMap (columnLines nameOf pad)
      ++ ["\x7d".toList])

/-! ## Files -/

def rootName (uri typename : Text) : Text :=
  if Text.isBlankText typename then Address.typename uri else Text.trim typename

def baseReference : Option ColumnType → Option Ref
  | some (.reference ref) => if ref.isResolved then some ref else none
  | _ => none

/-- Let the first interface extend the one with the given name. -/
def extendRoot (base : Text) : List Interface → List Interface
  | root :: rest => { root with base := some base } :: rest
  | [] => []

/-- The interfaces of a file: the root, then what its base and its columns refer
to. -/
def interfacesOf (uri typename : Text) (implements : Option ColumnType)
    (columns : List Field) : List Interface :=
  let root := addShape [] (rootName uri typename) columns
  let withBase :=
    match baseReference implements with
    | some ref =>
        let collected := collectReference root ref
        extendRoot (referenceName collected ref) collected
    | none => root
  collectColumns withBase columns

def header (uri : Text) : Text :=
  lines ["// Declarations generated for `".toList ++ uri ++ "`.".toList,
    "// Changes made here are overwritten on the next save.".toList, []]

def renderWithBase (options : RenderOptions) (uri typename : Text)
    (implements : Option ColumnType) (columns : List Field) : Text :=
  let interfaces := interfacesOf uri typename implements columns
  let pad := List.replicate options.indent ' '
  (if options.includeHeader then header uri else [])
    ++ "\n".toList.intercalate
      (interfaces.map (interfaceText (referenceName interfaces) pad))

def render (options : RenderOptions) (uri typename : Text) (columns : List Field) : Text :=
  renderWithBase options uri typename none columns

/-- The declaration file of a schema. -/
def renderSchema (options : RenderOptions) (schema : Schema) : Text :=
  renderWithBase options schema.uri schema.typename schema.implements schema.columns

end Typesheet.Declaration

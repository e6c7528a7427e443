import Mathlib.Data.List.Basic
import Typesheet.Proofs.Declaration.Names
import Typesheet.Proofs.Load.Deep
import Typesheet.Proofs.Load.Selection

/-!
Contract: a reference to a column is written as an access to a declared property.

Owns: where a reference stands in the text of an interface; that the columns of every
interface of a document hold references of its schema only; and the theorem that a resolved
reference to a column names an interface of the document and a property of it.
-/

set_option autoImplicit false

namespace Typesheet.Declaration

/-! ## Where references are written -/

theorem infix_intercalate_of_mem (separator : Text) {text : Text} :
    ∀ {texts : List Text}, text ∈ texts → text <:+: separator.intercalate texts
  | [only], member => by
      have same : separator.intercalate [only] = text := by
        rw [List.intercalate_singleton, List.mem_singleton.mp member]
      exact same ▸ List.infix_refl text
  | first :: second :: rest, member => by
      rw [List.intercalate_cons_cons]
      rcases List.mem_cons.mp member with rfl | later
      · exact ⟨[], separator ++ separator.intercalate (second :: rest), by simp⟩
      · have inRest := infix_intercalate_of_mem separator later
        exact inRest.trans (List.suffix_append _ _).isInfix

theorem infix_withArrayMark (text : Text) (isArray : Bool) :
    text <:+: withArrayMark text isArray := by
  cases isArray with
  | false => exact List.infix_refl text
  | true => exact (List.prefix_append text arrayMark).isInfix

theorem memberText_infix_typeText (nameOf : Ref → Text) {text : Text} {members : List ColumnType}
    (member : text ∈ memberTexts nameOf members) (name : Text) (isArray : Bool) :
    text <:+: typeText nameOf (.union name members isArray) := by
  have inTexts := infix_intercalate_of_mem " | ".toList member
  have inGroup : " | ".toList.intercalate (memberTexts nameOf members)
      <:+: "(".toList ++ " | ".toList.intercalate (memberTexts nameOf members) ++ ")".toList :=
    ⟨"(".toList, ")".toList, rfl⟩
  exact inTexts.trans (inGroup.trans (infix_withArrayMark _ isArray))

mutual

/-- The text of a type holds the text of each of its references. -/
theorem referenceText_infix_typeText (nameOf : Ref → Text) {ref : Ref} :
    ∀ {type : ColumnType}, ref ∈ type.references →
      referenceText nameOf ref <:+: typeText nameOf type
  | .reference _, member => by
      rw [List.mem_singleton.mp member]
      exact List.infix_refl _
  | .union name members isArray, member => by
      obtain ⟨text, inMembers, inText⟩ := exists_text_of_mem_referencesAll nameOf member
      exact inText.trans (memberText_infix_typeText nameOf inMembers name isArray)
  | .keyword .., member => absurd member List.not_mem_nil
  | .literal .., member => absurd member List.not_mem_nil
  | .unknown .., member => absurd member List.not_mem_nil

theorem exists_text_of_mem_referencesAll (nameOf : Ref → Text) {ref : Ref} :
    ∀ {types : List ColumnType}, ref ∈ ColumnType.referencesAll types →
      ∃ text ∈ memberTexts nameOf types, referenceText nameOf ref <:+: text
  | type :: rest, member => by
      rcases List.mem_append.mp member with inFirst | inRest
      · exact ⟨_, List.mem_cons_self, referenceText_infix_typeText nameOf inFirst⟩
      · obtain ⟨text, listed, inText⟩ := exists_text_of_mem_referencesAll nameOf inRest
        exact ⟨text, List.mem_cons_of_mem _ listed, inText⟩

end

/-- The line that declares the property of a column. -/
def propertyLine (nameOf : Ref → Text) (pad : Text) (column : Field) : Text :=
  pad ++ propertyKey column.name ++ (if column.isOptional then "?".toList else [])
    ++ ": ".toList ++ typeText nameOf column.type ++ ";".toList

theorem line_infix_lines {text : Text} {texts : List Text} (member : text ∈ texts) :
    text ++ ['\n'] <:+: lines texts :=
  List.infix_of_mem_flatten (List.mem_map_of_mem member)

section Lines

variable {nameOf : Ref → Text} {pad : Text} {interface : Interface} {column : Field}

theorem line_infix_interfaceText {line : Text} (member : column ∈ interface.columns)
    (inLines : line ∈ columnLines nameOf pad column) :
    line ++ ['\n'] <:+: interfaceText nameOf pad interface := by
  have hasColumns : interface.columns ≠ [] := List.ne_nil_of_mem member
  have inBody : line ∈ interface.columns.flatMap (columnLines nameOf pad) :=
    List.mem_flatMap.mpr ⟨column, member, inLines⟩
  unfold interfaceText
  rw [if_neg hasColumns]
  exact line_infix_lines (List.mem_append_left _ (List.mem_append_right _ inBody))

/-- An interface declares a property for each of its columns, on a line of its own. -/
theorem propertyLine_infix_interfaceText (member : column ∈ interface.columns) :
    propertyLine nameOf pad column ++ ['\n'] <:+: interfaceText nameOf pad interface :=
  line_infix_interfaceText member (List.mem_append_right _ (List.mem_singleton_self _))

theorem typeText_infix_propertyLine :
    typeText nameOf column.type <:+: propertyLine nameOf pad column :=
  ⟨_, ";".toList, rfl⟩

theorem referenceText_infix_propertyLine {ref : Ref} (member : ref ∈ column.type.references) :
    referenceText nameOf ref <:+: propertyLine nameOf pad column :=
  (referenceText_infix_typeText nameOf member).trans typeText_infix_propertyLine

end Lines

/-- A resolved reference that selects a column is written as an access to its property. -/
theorem referenceText_of_selectedColumn (nameOf : Ref → Text) {ref : Ref} {column : Field}
    (isResolved : ref.isResolved = true) (toColumn : ref.scope = .column)
    (selected : ref.selectedColumn = some column) :
    referenceText nameOf ref
      = withArrayMark (nameOf ref ++ "[".toList ++ quoteName column.name ++ "]".toList)
        ref.isArray := by
  obtain ⟨selector, named, _⟩ := Option.bind_eq_some_iff.mp selected
  unfold referenceText
  rw [if_pos isResolved, toColumn, named, selected]
  rfl

/-! ## The references of a document -/

theorem contains_of_reaches {outer ref : Ref} (reaches : Reaches outer ref) :
    outer.Contains ref := by
  induction reaches with
  | self ref => exact .self ref
  | within member _ inductionHypothesis =>
      obtain ⟨⟨field, inColumns, inType⟩, _⟩ := mem_resolvedIn_iff.mp member
      exact .within inColumns inType inductionHypothesis

theorem contains_trans {outer middle ref : Ref} (first : outer.Contains middle)
    (second : middle.Contains ref) : outer.Contains ref := by
  induction first with
  | self => exact second
  | within inColumns inType _ inductionHypothesis =>
      exact .within inColumns inType (inductionHypothesis second)

section Document

variable {schema : Schema} {interface : Interface} {field : Field} {outer ref : Ref}

theorem mem_references_of_mem_startingRefs
    (starts : ref ∈ startingRefs schema.implements schema.columns) :
    ref ∈ schema.references := by
  rcases List.mem_append.mp starts with based | inColumns
  · have found : baseReference schema.implements = some ref := Option.mem_toList.mp based
    unfold baseReference at found
    split at found
    case h_1 other shown =>
      split at found
      case isTrue =>
        obtain rfl := Option.some.inj found
        exact List.mem_flatMap.mpr ⟨.reference other,
          List.mem_append_left _ (Option.mem_toList.mpr shown), List.mem_singleton_self other⟩
      case isFalse => exact absurd found (by simp)
    case h_2 => exact absurd found (by simp)
  · obtain ⟨⟨field, listed, inType⟩, _⟩ := mem_resolvedIn_iff.mp inColumns
    exact Schema.mem_references_of_mem_columns listed inType

/-- What the columns of an interface refer to, the schema mentions: the columns are those of
the root, or those of a reference that the schema mentions. -/
theorem mentions_of_mem_interfacesOf
    (member : interface
      ∈ interfacesOf schema.uri schema.typename schema.implements schema.columns)
    (inColumns : field ∈ interface.columns) (inType : outer ∈ field.type.references)
    (contains : outer.Contains ref) : schema.Mentions ref := by
  have listed : interface.shape
      ∈ shapes (interfacesOf schema.uri schema.typename schema.implements schema.columns) :=
    List.mem_map_of_mem member
  rcases mem_shapes_interfacesOf_iff.mp listed with isRoot | ⟨start, starts, user, reaches, same⟩
  · have columns : interface.columns = schema.columns := congrArg Prod.snd isRoot
    rw [columns] at inColumns
    exact ⟨outer, Schema.mem_references_of_mem_columns inColumns inType, contains⟩
  · have columns : interface.columns = user.columns := congrArg Prod.snd same.symm
    rw [columns] at inColumns
    exact ⟨start, mem_references_of_mem_startingRefs starts,
      contains_trans (contains_of_reaches reaches) (.within inColumns inType contains)⟩

end Document

/-- A reference at any depth below the columns of an interface stands in the columns of an
interface of the document, since what it is below is resolved. -/
theorem exists_interface_of_contains {loader : Loader} {answers : ChangingSource}
    {trail : List Link} {ancestors : List Text} {uri : NamespaceUri} {outer ref : Ref}
    (contains : outer.Contains ref) :
    let schema := loader.schemaFrom answers trail ancestors uri
    let interfaces := interfacesOf schema.uri schema.typename schema.implements schema.columns
    ∀ interface ∈ interfaces, ∀ field ∈ interface.columns, outer ∈ field.type.references →
      ∃ home ∈ interfaces, ∃ column ∈ home.columns, ref ∈ column.type.references := by
  intro schema interfaces
  induction contains with
  | self ref =>
      intro interface member field inColumns inType
      exact ⟨interface, member, field, inColumns, inType⟩
  | @within outer inner ref innerField inOuter inInner _ inductionHypothesis =>
      intro interface member field inColumns inType
      have mentions := mentions_of_mem_interfacesOf member inColumns inType (.self outer)
      have isResolved : outer.isResolved = true := by
        cases unresolved : outer.isResolved with
        | true => rfl
        | false =>
            have empty := (Loader.isDeep_of_mentions mentions).2 unresolved
            rw [empty] at inOuter
            exact absurd inOuter List.not_mem_nil
      have inShape : interface.shape ∈ shapes interfaces := List.mem_map_of_mem member
      have listed := shape_mem_shapes_interfacesOf inShape
        (mem_resolvedIn_iff.mpr ⟨⟨field, inColumns, inType⟩, isResolved⟩)
      obtain ⟨target, inList, same, _⟩ := exists_nameOf?_of_mem_shapes listed
      have columns : target.columns = outer.columns := congrArg Prod.snd same
      exact inductionHypothesis target inList innerField (columns ▸ inOuter) inInner

/-- **Every reference to a column is written as an access to an existing property.**  The
document of a loaded schema, with issues or without, declares the columns of its interfaces
line by line, with the text of each reference in the line of its column.  A resolved reference
to a column, at any depth below the columns of an interface, stands in the columns of some
interface.  It selects one of the columns that it holds, and it is written as the access to the
property of that column in the one interface of the document that has the name written; that
interface has the columns that the reference holds, and so declares the property. -/
theorem selected_property_of_document (loader : Loader) (answers : ChangingSource)
    (root : NamespaceUri) (options : RenderOptions) :
    let schema := loader.schemaFrom answers [] [] root
    let interfaces := interfacesOf schema.uri schema.typename schema.implements schema.columns
    let nameOf := referenceName interfaces
    let pad := List.replicate options.indent ' '
    renderSchema options schema
        = (if options.includeHeader then header schema.uri else [])
          ++ "\n".toList.intercalate (interfaces.map (interfaceText nameOf pad))
      ∧ (∀ interface ∈ interfaces, ∀ field ∈ interface.columns,
          propertyLine nameOf pad field ++ ['\n'] <:+: interfaceText nameOf pad interface
            ∧ ∀ ref ∈ field.type.references,
              referenceText nameOf ref <:+: propertyLine nameOf pad field)
      ∧ (∀ interface ∈ interfaces, ∀ field ∈ interface.columns,
          ∀ outer ∈ field.type.references, ∀ ref, outer.Contains ref →
            ref.isResolved = true → ref.scope = .column →
            (∃ home ∈ interfaces, ∃ column ∈ home.columns, ref ∈ column.type.references)
              ∧ ∃ target ∈ interfaces, ∃ property ∈ target.columns,
                (∀ other ∈ interfaces, other.name = target.name → other = target)
                  ∧ target.typename = ref.typename ∧ target.columns = ref.columns
                  ∧ ref.selectedColumn = some property
                  ∧ referenceText nameOf ref
                    = withArrayMark (target.name ++ "[".toList ++ quoteName property.name
                      ++ "]".toList) ref.isArray)
      ∧ ∀ before, (Client.load loader ⟨some root, before⟩).1.schema
          = loader.schemaFrom (fun _ => loader.source) [] [] root := by
  intro schema interfaces nameOf pad
  refine ⟨rfl, ?_, ?_, fun before => Loader.schema_client_load loader loader.source root before⟩
  · intro interface member field inColumns
    exact ⟨propertyLine_infix_interfaceText inColumns,
      fun ref inType => referenceText_infix_propertyLine inType⟩
  · intro interface member field inColumns outer inType ref contains isResolved toColumn
    obtain ⟨home, isHome, column, inHome, inColumn⟩ :=
      exists_interface_of_contains contains interface member field inColumns inType
    have mentions := mentions_of_mem_interfacesOf member inColumns inType contains
    obtain ⟨property, held, selected⟩ :=
      Loader.selectsColumn_of_mentions mentions isResolved toColumn
    have inShape : home.shape ∈ shapes interfaces := List.mem_map_of_mem isHome
    obtain ⟨target, inList, same, named⟩ := exists_nameOf?_of_mem_shapes
      (shape_mem_shapes_interfacesOf inShape
        (mem_resolvedIn_iff.mpr ⟨⟨column, inHome, inColumn⟩, isResolved⟩))
    obtain ⟨typename, columns⟩ := Prod.mk.inj same
    have name : nameOf ref = target.name := by
      show (nameOf? interfaces ref.typename ref.columns).getD ref.typename = target.name
      rw [named, Option.getD_some]
    refine ⟨⟨home, isHome, column, inHome, inColumn⟩, target, inList, property,
      columns ▸ held, ?_, typename, columns, selected, ?_⟩
    · intro other otherListed sameName
      exact eq_of_name_eq otherListed inList sameName
    · rw [referenceText_of_selectedColumn nameOf isResolved toColumn selected, name]

/-- A namespace with a column of references to one column of another namespace. -/
private def ordersWithBuyers : Loader where
  scheme := .standard
  source := MemoryStore.source
    { definitions :=
        [("ns:orders".toList,
            (Definition.named []).withColumn "A".toList "buyers".toList
              "(ns:contacts.B | null)[]".toList),
          ("ns:contacts".toList,
            (Definition.named []).withColumn "B".toList "e-mail".toList "string".toList)] }
  maxDepth := 2

example :
    renderSchema { includeHeader := false, indent := 2 }
        (ordersWithBuyers.load [] ⟨"ns:orders".toList, by decide⟩).schema
      = ("export interface Orders \x7b\n  buyers: (Contacts['e-mail'] | null)[];\n\x7d\n\n"
        ++ "export interface Contacts \x7b\n  'e-mail': string;\n\x7d\n").toList := by
  decide +kernel

end Typesheet.Declaration

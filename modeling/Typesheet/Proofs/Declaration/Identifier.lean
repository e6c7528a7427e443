import Typesheet.Proofs.Declaration.Base
import Typesheet.Proofs.Declaration.Key
import Typesheet.Proofs.Declaration.Saving
import Typesheet.Proofs.Load.Origin

/-!
Contract: which names of a document are identifiers.

Owns: that a number behind a name and a name that an address suggests keep the rules of
identifiers; the names that a document writes for its interfaces; and the theorem that a written
name is an identifier exactly when the type name is that its namespace declares, if it declares
one.

A suggested name that would start with a digit gets an underscore in front, so that it always is
an identifier.  A declared one is trimmed and otherwise written as it is.
-/

set_option autoImplicit false

namespace Typesheet.Declaration

/-! ## Identifiers -/

theorem continuesIdentifier_of_isAlphanum {character : Char}
    (isAlphanum : character.isAlphanum = true) : continuesIdentifier character = true := by
  simp [continuesIdentifier, isAlphanum]

theorem not_startsIdentifier_of_isDigit {character : Char} (isDigit : character.isDigit = true) :
    startsIdentifier character = false := by
  rw [← Bool.not_eq_true]
  intro starts
  rw [startsIdentifier, Bool.or_eq_true, Bool.or_eq_true, decide_eq_true_eq, decide_eq_true_eq,
    Address.isAlpha_iff_toNat] at starts
  rw [Address.isDigit_iff_toNat] at isDigit
  rcases starts with (letter | rfl) | rfl
  · omega
  · exact absurd isDigit (by decide)
  · exact absurd isDigit (by decide)

/-- A number behind a name decides nothing: it goes on with an identifier and starts none. -/
theorem isIdentifier_append_ofNat (name : Text) (number : Nat) :
    isIdentifier (name ++ Text.ofNat number) = isIdentifier name := by
  have digits : ∀ character ∈ Text.ofNat number, character.isDigit = true :=
    fun character member => Nat.isDigit_of_mem_toDigits (by decide) (by decide) member
  have goesOn : (Text.ofNat number).all continuesIdentifier = true := by
    rw [List.all_eq_true]
    intro character member
    apply continuesIdentifier_of_isAlphanum
    simp [Char.isAlphanum, digits character member]
  cases name with
  | cons first rest => simp [isIdentifier, goesOn]
  | nil =>
      rw [List.nil_append]
      cases written : Text.ofNat number with
      | nil => rfl
      | cons first rest =>
          have isDigit := digits first (written ▸ List.mem_cons_self)
          have startsNone := not_startsIdentifier_of_isDigit isDigit
          simp [isIdentifier, startsNone]

/-- **A suggested name is an identifier**, whatever the address. -/
theorem isIdentifier_typename (uri : Text) : isIdentifier (Address.typename uri) = true := by
  unfold Address.typename
  split
  case h_1 => decide
  case h_2 first rest listed =>
    have letters : ∀ character ∈ first :: rest, character.isAlphanum = true := by
      rw [← listed]
      exact fun character member => Address.isAlphanum_of_mem_capitalizeRuns member
    have goesOn : ∀ character ∈ first :: rest, continuesIdentifier character = true :=
      fun character member => continuesIdentifier_of_isAlphanum (letters character member)
    split
    case isTrue => exact isIdentifier_cons_iff.mpr ⟨by decide, goesOn⟩
    case isFalse noDigit =>
      have isAlpha : first.isAlpha = true := by
        have isLetter := letters first List.mem_cons_self
        simpa [Char.isAlphanum, noDigit] using isLetter
      have starts : startsIdentifier first = true := by simp [startsIdentifier, isAlpha]
      exact isIdentifier_cons_iff.mpr ⟨starts, (List.forall_mem_cons.mp goesOn).2⟩

theorem isIdentifier_knownAs_iff (loader : Loader) (uri : NamespaceUri) :
    isIdentifier (loader.knownAs uri) = true
      ↔ loader.typenameOf uri = [] ∨ isIdentifier (loader.typenameOf uri) = true := by
  unfold Loader.knownAs
  split
  case isTrue noName => exact iff_of_true (isIdentifier_typename uri.text) (.inl noName)
  case isFalse declared => exact (or_iff_right declared).symm

/-! ## The names of a document -/

/-- The names that a document writes for interfaces: what each is declared as, and what it
extends. -/
def writtenNames (interfaces : List Interface) : List Text :=
  interfaces.flatMap fun interface => interface.name :: interface.base.toList

/-- The name of an interface is its type name, or that with a number behind it. -/
def Interface.IsNumbered (interface : Interface) : Prop :=
  interface.name = interface.typename
    ∨ ∃ number, interface.name = interface.typename ++ Text.ofNat number

theorem Interface.IsNumbered.isIdentifier_eq {interface : Interface}
    (isNumbered : interface.IsNumbered) :
    isIdentifier interface.name = isIdentifier interface.typename := by
  rcases isNumbered with same | ⟨number, same⟩
  · rw [same]
  · rw [same, isIdentifier_append_ofNat]

/-- Interfaces are named after their type names, and each extends one of them or none. -/
structure Named (interfaces : List Interface) : Prop where
  numbered : ∀ interface ∈ interfaces, interface.IsNumbered
  bases : ∀ interface ∈ interfaces, ∀ base ∈ interface.base, base ∈ interfaces.map Interface.name

theorem Named.addShape {interfaces : List Interface} (named : Named interfaces)
    (typename : Text) (columns : List Field) : Named (addShape interfaces typename columns) where
  numbered := by
    intro interface member
    rcases List.mem_append.mp member with before | added
    · exact named.numbered interface before
    · rw [List.mem_singleton.mp added]
      rcases freeName_cases (interfaces.map Interface.name) typename with
        ⟨-, same⟩ | ⟨-, number, -, same, -⟩
      · exact .inl same
      · exact .inr ⟨number, same⟩
  bases := by
    intro interface member base based
    rw [Declaration.addShape, List.map_append]
    rcases List.mem_append.mp member with before | added
    · exact List.mem_append_left _ (named.bases interface before base based)
    · rw [List.mem_singleton.mp added] at based
      exact absurd based (by simp)

theorem Named.extendRoot {interfaces : List Interface} (named : Named interfaces) {base : Text}
    (listed : base ∈ interfaces.map Interface.name) : Named (extendRoot base interfaces) := by
  cases interfaces with
  | nil => exact named
  | cons root rest =>
      refine ⟨?_, ?_⟩
      · intro interface member
        rcases List.mem_cons.mp member with rfl | later
        · exact named.numbered root List.mem_cons_self
        · exact named.numbered interface (List.mem_cons_of_mem root later)
      · intro interface member other based
        rw [names_extendRoot]
        rcases List.mem_cons.mp member with rfl | later
        · obtain rfl : base = other := Option.some.inj based
          exact listed
        · exact named.bases interface (List.mem_cons_of_mem root later) other based

theorem named_interfacesOf (uri typename : Text) (implements : Option ColumnType)
    (columns : List Field) : Named (interfacesOf uri typename implements columns) := by
  refine interfacesOf_preserves ?_ ?_ ?_ uri typename implements columns
  · exact fun _ typename columns named => named.addShape typename columns
  · exact ⟨fun _ member => absurd member List.not_mem_nil,
      fun _ member => absurd member List.not_mem_nil⟩
  · exact fun _ _ listed named => named.extendRoot listed

/-- The written names are the names of the interfaces: extending brings no new one. -/
theorem exists_interface_of_mem_writtenNames {interfaces : List Interface} {name : Text}
    (named : Named interfaces) (written : name ∈ writtenNames interfaces) :
    ∃ interface ∈ interfaces, interface.name = name := by
  obtain ⟨interface, member, inName⟩ := List.mem_flatMap.mp written
  rcases List.mem_cons.mp inName with rfl | based
  · exact ⟨interface, member, rfl⟩
  · exact List.mem_map.mp (named.bases interface member name (Option.mem_toList.mp based))

theorem isResolved_of_reaches {outer ref : Ref} (reaches : Reaches outer ref)
    (isResolved : outer.isResolved = true) : ref.isResolved = true := by
  induction reaches with
  | self => exact isResolved
  | within member _ inductionHypothesis =>
      exact inductionHypothesis (mem_resolvedIn_iff.mp member).2

theorem isResolved_of_mem_startingRefs {implements : Option ColumnType} {columns : List Field}
    {ref : Ref} (starts : ref ∈ startingRefs implements columns) : ref.isResolved = true := by
  rcases List.mem_append.mp starts with based | inColumns
  · exact isResolved_of_baseReference (Option.mem_toList.mp based)
  · exact (mem_resolvedIn_iff.mp inColumns).2

/-- An interface of a document has the type name by which a namespace goes that the load comes to
at the end of some way down. -/
theorem exists_descends_of_mem_interfacesOf {loader : Loader} {answers : ChangingSource}
    {root : NamespaceUri} {interface : Interface} :
    let schema := loader.schemaFrom answers [] [] root
    interface ∈ interfacesOf schema.uri schema.typename schema.implements schema.columns →
      ∃ route : Route, loader.Descends answers [] [] root route
        ∧ interface.typename = (loader.facing answers route.links).knownAs (route.endpoint root) := by
  intro schema member
  have listed : interface.shape
      ∈ shapes (interfacesOf schema.uri schema.typename schema.implements schema.columns) :=
    List.mem_map_of_mem member
  rcases mem_shapes_interfacesOf_iff.mp listed with isRoot | ⟨start, starts, ref, reaches, same⟩
  · refine ⟨[], .stay [] [] root, ?_⟩
    calc
      interface.typename = rootName schema.uri schema.typename := congrArg Prod.fst isRoot
      _ = schema.displayTypename :=
          rootName_eq_displayTypename (IsLoaded.changing loader answers [] [] root).trim_typename
      _ = (loader.facing answers []).knownAs root :=
          loader.displayTypename_schemaFrom answers [] [] root
  · have mentions : schema.Mentions ref :=
      ⟨start, mem_references_of_mem_startingRefs starts, contains_of_reaches reaches⟩
    have isResolved := isResolved_of_reaches reaches (isResolved_of_mem_startingRefs starts)
    obtain ⟨route, descends, named, -⟩ := Loader.exists_descends_of_mentions mentions isResolved
    refine ⟨route, descends, ?_⟩
    rw [Loader.displayTypename_schemaFrom] at named
    exact (congrArg Prod.fst same).symm.trans named

/-- The document of a client whose name is no address writes one name, which its text suggests. -/
theorem writtenNames_of_refused (loader : Loader) {name : Text}
    (refused : (Client.ofName loader.scheme name).namespaceUri = none) :
    let schema := ((Client.ofName loader.scheme name).load loader).1.schema
    writtenNames (interfacesOf schema.uri schema.typename schema.implements schema.columns)
      = [Address.typename (Address.normalize name)] := by
  cases read : loader.scheme.readNamespace (Address.normalize name) with
  | ok uri => simp [Client.ofName, read] at refused
  | error error =>
      have opened : Client.ofName loader.scheme name
          = ⟨none, { uri := Address.normalize name
                     issues := [(Cause.invalidNamespace name error.message).issue] }⟩ := by
        simp only [Client.ofName, read]
      rw [opened]
      rfl

/-- **When a written name is an identifier.**  Whatever the store answers from visit to visit, the
document of a load writes a name for each interface behind `export interface` and, where it has a
base, one behind `extends`.  Every written name is the one that a namespace goes by to which the
load comes on some way down, or that with a number behind it.  It is an identifier exactly when
the type name that this namespace declares is one, or the namespace declares none and goes by what
its address suggests.  A client whose name is no address has identifiers only. -/
theorem isIdentifier_writtenName_iff (loader : Loader) (answers : ChangingSource)
    (root : NamespaceUri) (options : RenderOptions) :
    let schema := loader.schemaFrom answers [] [] root
    let interfaces := interfacesOf schema.uri schema.typename schema.implements schema.columns
    let nameOf := referenceName interfaces
    let pad := List.replicate options.indent ' '
    renderSchema options schema
        = (if options.includeHeader then header schema.uri else [])
          ++ "\n".toList.intercalate (interfaces.map (interfaceText nameOf pad))
      ∧ (∀ interface ∈ interfaces, ∃ rest, interfaceText nameOf pad interface
          = "export interface ".toList ++ interface.name
            ++ (interface.base.map fun base => " extends ".toList ++ base).getD []
            ++ " \x7b".toList ++ rest)
      ∧ (∀ name ∈ writtenNames interfaces,
          ∃ route : Route, loader.Descends answers [] [] root route
            ∧ let visited := loader.facing answers route.links
              let uri := route.endpoint root
              (name = visited.knownAs uri
                  ∨ ∃ number, name = visited.knownAs uri ++ Text.ofNat number)
                ∧ (isIdentifier name = true
                  ↔ visited.typenameOf uri = [] ∨ isIdentifier (visited.typenameOf uri) = true))
      ∧ (∀ source before, (Client.load { loader with source } ⟨some root, before⟩).1.schema
          = loader.schemaFrom (fun _ => source) [] [] root)
      ∧ ∀ text, (Client.ofName loader.scheme text).namespaceUri = none →
          let refused := ((Client.ofName loader.scheme text).load loader).1.schema
          ∀ name ∈ writtenNames
              (interfacesOf refused.uri refused.typename refused.implements refused.columns),
            isIdentifier name = true := by
  intro schema interfaces nameOf pad
  have named : Named interfaces := named_interfacesOf _ _ _ _
  refine ⟨rfl, fun interface _ => exists_opening_interfaceText nameOf pad interface, ?_,
    fun source before => loader.schema_client_load source root before, ?_⟩
  · intro name written
    obtain ⟨interface, member, rfl⟩ := exists_interface_of_mem_writtenNames named written
    obtain ⟨route, descends, typename⟩ := exists_descends_of_mem_interfacesOf member
    have isNumbered := named.numbered interface member
    refine ⟨route, descends, ?_, ?_⟩
    · rw [← typename]
      exact isNumbered
    · rw [isNumbered.isIdentifier_eq, typename, isIdentifier_knownAs_iff]
  · intro text isRefused refused name written
    rw [writtenNames_of_refused loader isRefused, List.mem_singleton] at written
    rw [written]
    exact isIdentifier_typename _

/-- A namespace of sales that implements one of records, with the type names that they declare. -/
private def sales (typename record : String) : Loader where
  scheme := .standard
  source := MemoryStore.source
    { definitions :=
        [("ns:2024-sales".toList,
            ((Definition.named typename.toList).withColumn "A".toList "total".toList
              "number".toList).implementing "ns:records".toList),
          ("ns:records".toList,
            (Definition.named record.toList).withColumn "A".toList "id".toList
              "string".toList)] }
  maxDepth := 2

private def salesUri : NamespaceUri :=
  ⟨"ns:2024-sales".toList, by decide⟩

theorem suggested_name_of_sales_is_identifier :
    let loader := sales "" "Record"
    let schema := loader.schemaFrom (fun _ => loader.source) [] [] salesUri
    let interfaces := interfacesOf schema.uri schema.typename schema.implements schema.columns
    writtenNames interfaces = ["_2024Sales".toList, "Record".toList, "Record".toList]
      ∧ ∃ route : Route, loader.Descends (fun _ => loader.source) [] [] salesUri route
        ∧ let visited := loader.facing (fun _ => loader.source) route.links
          let uri := route.endpoint salesUri
          visited.typenameOf uri = [] ∨ isIdentifier (visited.typenameOf uri) = true := by
  intro loader schema interfaces
  have written : writtenNames interfaces
      = ["_2024Sales".toList, "Record".toList, "Record".toList] := by
    show writtenNames (interfacesOf schema.uri schema.typename schema.implements schema.columns) = _
    rw [show schema = (loader.load [] salesUri).schema from loader.schemaFrom_const [] [] salesUri]
    decide +kernel
  have member : "_2024Sales".toList ∈ writtenNames interfaces := by
    rw [written]
    exact List.mem_cons_self
  obtain ⟨-, -, names, -, -⟩ :=
    isIdentifier_writtenName_iff loader (fun _ => loader.source) salesUri {}
  obtain ⟨route, descends, -, isIdentifier_iff⟩ := names _ member
  exact ⟨written, route, descends, isIdentifier_iff.mp (by decide)⟩

/-- Declared type names that are no identifiers are written as they are, behind `export interface`
and behind `extends`, and the load has no issues. -/
theorem declared_names_of_sales_are_no_identifiers :
    let schema := ((sales "2024 sales" "sales record").load [] salesUri).schema
    schema.isOk = true
      ∧ isIdentifier "2024 sales".toList = false ∧ isIdentifier "sales record".toList = false
      ∧ renderSchema { includeHeader := false, indent := 2 } schema
        = ("export interface 2024 sales extends sales record \x7b\n  total: number;\n\x7d\n\n"
          ++ "export interface sales record \x7b\n  id: string;\n\x7d\n").toList := by
  decide +kernel

end Typesheet.Declaration

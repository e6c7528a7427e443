import Typesheet.Proofs.Load.Declared
import Typesheet.Source.Memory

/-!
Contract: what resolved references are filled with.

Owns: the references of a schema at any depth; that a load without issues gives the
same schema below fewer ancestors and with more room; and the theorem that every
resolved reference of a schema, with issues or not, holds exactly what a load of its
namespace on its own gives.

The chain of ancestors decides whether a reference is circular and whether it is too
deep, so a load in general does depend on it.  A load without issues has passed every
such test, and it passes them again when the chain is shorter.
-/

set_option autoImplicit false

namespace Typesheet

/-- The reference itself or one in the columns that it is filled with, to any
depth. -/
inductive Reference.Contains : Ref → Ref → Prop where
  | self (ref : Ref) : Contains ref ref
  | within {outer inner ref : Ref} {field : Field} (inColumns : field ∈ outer.columns)
      (inType : inner ∈ field.type.references) (contains : Contains inner ref) :
      Contains outer ref

namespace Schema

/-- The references of a schema in its implements clause and its columns, not inside
other references. -/
def references (schema : Schema) : List Ref :=
  (schema.implements.toList ++ schema.columns.map Column.type).flatMap ColumnType.references

/-- A reference occurs in a schema, at any depth. -/
def Mentions (schema : Schema) (ref : Ref) : Prop :=
  ∃ outer ∈ schema.references, outer.Contains ref

theorem mem_references_of_mem_columns {schema : Schema} {field : Field} {ref : Ref}
    (inColumns : field ∈ schema.columns) (inType : ref ∈ field.type.references) :
    ref ∈ schema.references :=
  List.mem_flatMap.mpr ⟨field.type,
    List.mem_append_right _ (List.mem_map.mpr ⟨field, inColumns, rfl⟩), inType⟩

end Schema

namespace Loader

/-! ## Fewer ancestors and more room -/

theorem assemble_maxDepth (loader : Loader) (maxDepth : Nat) (uri : NamespaceUri)
    (resolution : Link → Resolution) :
    assemble { loader with maxDepth } uri resolution = loader.assemble uri resolution :=
  rfl

/-- **A load without issues does not depend on its ancestors.**  Below some of them
only, and with a depth limit that leaves at least as much room, the schema is the
same. -/
theorem schema_load_eq_of_isOk (loader : Loader) {maxDepth : Nat} {ancestors : List Text}
    {uri : NamespaceUri} (isOk : (loader.load ancestors uri).schema.isOk = true)
    {fewer : List Text} (subset : fewer ⊆ ancestors)
    (room : loader.maxDepth + fewer.length ≤ maxDepth + ancestors.length) :
    (Loader.load { loader with maxDepth } fewer uri).schema
      = (loader.load ancestors uri).schema := by
  induction ancestors, uri using loader.load_induction generalizing fewer with
  | level ancestors uri inductionHypothesis =>
      rw [schema_load, schema_load, assemble_maxDepth]
      apply assemble_congr
      intro link member
      have noIssue := ((loader.isOk_load_iff_links ancestors uri).mp isOk).2 link member
      obtain ⟨typename, columns, resolved⟩ := Resolution.issue?_eq_none_iff.mp noIssue
      rw [resolved]
      obtain ⟨owner, selector, destination, fresh, deeper, childOk, hasColumn, named, filled⟩ :=
        followLink_eq_resolved_iff.mp resolved
      -- Both bounds carry over to the longer chains, since each grows by this address.
      have subsetChain : fewer ++ [uri.text] ⊆ ancestors ++ [uri.text] :=
        List.append_subset.mpr
          ⟨List.subset_append_of_subset_left _ subset, List.subset_append_right _ _⟩
      rw [List.length_append, List.length_singleton] at deeper
      have roomChain : loader.maxDepth + (fewer ++ [uri.text]).length
          ≤ maxDepth + (ancestors ++ [uri.text]).length := by
        simp only [List.length_append, List.length_singleton]
        omega
      have child := inductionHypothesis (by simpa using deeper) owner childOk subsetChain
        roomChain
      refine followLink_eq_resolved_iff.mpr ⟨owner, selector, destination, ?_, ?_, ?_,
        hasColumn, ?_, ?_⟩
      · exact fun visited => fresh (subsetChain visited)
      · show (fewer ++ [uri.text]).length < maxDepth
        rw [List.length_append, List.length_singleton]
        omega
      · rw [child]
        exact childOk
      · rw [child]
        exact named
      · rw [child]
        exact filled

theorem schema_load_root_eq_of_isOk (loader : Loader) {ancestors : List Text}
    {uri : NamespaceUri} (isOk : (loader.load ancestors uri).schema.isOk = true) :
    (loader.load [] uri).schema = (loader.load ancestors uri).schema :=
  loader.schema_load_eq_of_isOk isOk (List.nil_subset ancestors) (by simp)

/-! ## The references of a level -/

section Level

variable {loader : Loader} {uri : NamespaceUri} {resolution : Link → Resolution} {ref : Ref}

theorem mem_references_assemble (member : ref ∈ (loader.assemble uri resolution).references) :
    (∃ type, loader.baseType resolution uri = some type ∧ ref ∈ type.references)
      ∨ ∃ field ∈ loader.columnsOf uri,
        ref ∈ (resolvedColumn resolution field).type.references := by
  obtain ⟨type, inSchema, inType⟩ := List.mem_flatMap.mp member
  unfold assemble at inSchema
  split at inSchema
  case h_1 => exact absurd inSchema (by simp)
  case h_2 =>
    split at inSchema
    case isFalse => exact absurd inSchema (by simp)
    case isTrue =>
      rcases List.mem_append.mp inSchema with inBase | inColumns
      · exact .inl ⟨type, Option.mem_toList.mp inBase, inType⟩
      · simp only [List.map_map, List.mem_map, Function.comp_apply] at inColumns
        obtain ⟨field, declared, rfl⟩ := inColumns
        exact .inr ⟨field, declared, inType⟩

private theorem reference_baseType_cases {type : ColumnType}
    (based : loader.baseType resolution uri = some type) (member : ref ∈ type.references) :
    (ref.typename = [] ∧ ref.columns = [])
      ∨ ∃ link ∈ loader.links uri, link.destination loader.scheme = destination loader.scheme ref
        ∧ resolution link = .resolved ref.typename ref.columns := by
  unfold baseType at based
  extract_lets link at based
  split at based
  case isTrue => exact absurd based (by simp)
  case isFalse hasBase =>
    split at based
    case h_1 => exact absurd based (by simp)
    case h_2 =>
      split at based
      case h_1 typename columns resolved =>
        rw [← Option.some.inj based] at member
        rw [List.mem_singleton.mp member]
        exact .inr ⟨link, base_mem_links hasBase, rfl, resolved⟩
      case h_2 =>
        rw [← Option.some.inj based] at member
        rw [List.mem_singleton.mp member]
        exact .inl ⟨rfl, rfl⟩

private theorem reference_resolvedColumn_cases {field : Field}
    (declared : field ∈ loader.columnsOf uri)
    (member : ref ∈ (resolvedColumn resolution field).type.references) :
    (ref.typename = [] ∧ ref.columns = [])
      ∨ ∃ link ∈ loader.links uri, link.destination loader.scheme = destination loader.scheme ref
        ∧ resolution link = .resolved ref.typename ref.columns := by
  change ref ∈ (field.type.mapReferences _).references at member
  rw [ColumnType.references_mapReferences] at member
  obtain ⟨original, inType, rfl⟩ := List.mem_map.mp member
  have stub := isStub_of_mem_columnsOf declared inType
  have unchanged : original.typename = [] ∧ original.columns = [] :=
    ⟨stub.typename_eq_nil, stub.columns_eq_nil⟩
  unfold fillFrom
  cases found : (columnLinks field).find? fun link => link.ref.uri = original.uri with
  | none => exact .inl unchanged
  | some link =>
      have same : link.ref.uri = original.uri := by simpa using List.find?_some found
      have linked := List.mem_of_find?_eq_some found
      cases resolved : resolution link with
      | failed issue => simpa only [resolved] using .inl unchanged
      | resolved typename columns =>
          simp only [resolved]
          exact .inr ⟨link, mem_links_of_mem_columnLinks declared linked,
            destination_eq_of_mem_columnLinks declared inType linked same, resolved⟩

/-- A reference of a schema was left unresolved and empty, or it holds what a link of the
namespace with its destination came to. -/
theorem reference_assemble_cases (member : ref ∈ (loader.assemble uri resolution).references) :
    (ref.typename = [] ∧ ref.columns = [])
      ∨ ∃ link ∈ loader.links uri, link.destination loader.scheme = destination loader.scheme ref
        ∧ resolution link = .resolved ref.typename ref.columns := by
  rcases mem_references_assemble member with ⟨type, based, inType⟩ | ⟨field, declared, inType⟩
  · exact reference_baseType_cases based inType
  · exact reference_resolvedColumn_cases declared inType

theorem reference_load_cases {ancestors : List Text}
    (member : ref ∈ (loader.load ancestors uri).schema.references) :
    (ref.typename = [] ∧ ref.columns = [])
      ∨ ∃ link ∈ loader.links uri, link.destination loader.scheme = destination loader.scheme ref
        ∧ (loader.followLink (ancestors ++ [uri.text]) link).resolution
          = .resolved ref.typename ref.columns := by
  rw [schema_load] at member
  exact reference_assemble_cases member

end Level

/-! ## References at any depth -/

/-- What a reference holds is what a load of its namespace as a root gives, and that
load is without issues. -/
def HoldsStandalone (loader : Loader) (ref : Ref) : Prop :=
  ∃ owner selector, destination loader.scheme ref = .ok (owner, selector)
    ∧ (loader.load [] owner).schema.isOk = true
    ∧ (loader.load [] owner).schema.columns = ref.columns
    ∧ (loader.load [] owner).schema.displayTypename = ref.typename

theorem holdsStandalone_of_mentions {loader : Loader} {ancestors : List Text}
    {uri : NamespaceUri} {ref : Ref}
    (mentions : (loader.load ancestors uri).schema.Mentions ref)
    (isResolved : ref.isResolved = true) : loader.HoldsStandalone ref := by
  induction ancestors, uri using loader.load_induction with
  | level ancestors uri inductionHypothesis =>
      obtain ⟨outer, member, contains⟩ := mentions
      rcases reference_load_cases member with ⟨noName, noColumns⟩ | ⟨link, -, same, resolved⟩
      · cases contains with
        | self => simp [Reference.isResolved, noName] at isResolved
        | within inColumns =>
            rw [noColumns] at inColumns
            exact absurd inColumns List.not_mem_nil
      · obtain ⟨owner, selector, destination, _, deeper, childOk, _, named, filled⟩ :=
          followLink_eq_resolved_iff.mp resolved
        -- The reference itself holds a load below the chain, which is also one as a root;
        -- whatever it contains is a reference of that load.
        cases contains with
        | self =>
            have asRoot := loader.schema_load_root_eq_of_isOk childOk
            refine ⟨owner, selector, same.symm.trans destination, ?_, ?_, ?_⟩
            · rw [asRoot]
              exact childOk
            · rw [asRoot]
              exact filled.symm
            · rw [asRoot]
              exact named.symm
        | within inColumns inType below =>
            rw [filled] at inColumns
            exact inductionHypothesis deeper owner
              ⟨_, Schema.mem_references_of_mem_columns inColumns inType, below⟩

/-- **A resolved reference is a standalone load of its target.**  Every resolved
reference that occurs at any depth in the schema that a client loads, with issues or
without, leads to a namespace that any client loads without issues, with the columns
that the reference holds and shown under the name that it holds. -/
theorem standalone_load_of_resolved_reference (loader : Loader) (root : NamespaceUri)
    (before : Schema) (ref : Ref)
    (mentions : (Client.load loader ⟨some root, before⟩).1.schema.Mentions ref)
    (isResolved : ref.isResolved = true) :
    ∃ owner selector, destination loader.scheme ref = .ok (owner, selector)
      ∧ ∀ held : Schema,
        let standalone := (Client.load loader ⟨some owner, held⟩).1.schema
        standalone.isOk = true ∧ standalone.columns = ref.columns
          ∧ standalone.displayTypename = ref.typename := by
  obtain ⟨owner, selector, leads, loaded⟩ := holdsStandalone_of_mentions mentions isResolved
  exact ⟨owner, selector, leads, fun _ => loaded⟩

/-- A namespace with a reference that fails beside one that is resolved two levels
down. -/
private def deals : Loader where
  scheme := .standard
  source := MemoryStore.source
    { definitions :=
        [("ns:deals".toList,
            (Definition.named []).withColumn "A".toList "contact".toList
              "ns:contacts | ns:gone".toList),
          ("ns:contacts".toList,
            (Definition.named []).withColumn "A".toList "kind".toList "ns:kinds".toList),
          ("ns:kinds".toList,
            (Definition.named []).withColumn "A".toList "label".toList "string".toList)]
      unavailable := ["ns:gone".toList] }
  maxDepth := 3

private def dealsUri : NamespaceUri :=
  ⟨"ns:deals".toList, by decide⟩

private def kindsRef : Ref :=
  (Reference.toNamespace "ns:kinds".toList false).resolve "Kinds".toList
    [{ key := "A".toList, name := "label".toList, type := .keyword .string false }]

private def contactsRef : Ref :=
  (Reference.toNamespace "ns:contacts".toList false).resolve "Contacts".toList
    [{ key := "A".toList, name := "kind".toList, type := .reference kindsRef }]

set_option maxRecDepth 4000 in
theorem standalone_load_of_kinds :
    (deals.load [] dealsUri).schema.isOk = false
      ∧ ∃ owner selector, destination deals.scheme kindsRef = .ok (owner, selector)
        ∧ ∀ held : Schema,
          let standalone := (Client.load deals ⟨some owner, held⟩).1.schema
          standalone.isOk = true ∧ standalone.columns = kindsRef.columns
            ∧ standalone.displayTypename = kindsRef.typename := by
  have listed : contactsRef ∈ (deals.load [] dealsUri).schema.references := by
    decide +kernel
  have contains : contactsRef.Contains kindsRef :=
    .within List.mem_cons_self (List.mem_singleton_self kindsRef) (.self kindsRef)
  refine ⟨by decide +kernel, ?_⟩
  exact standalone_load_of_resolved_reference deals dealsUri { uri := dealsUri.text } kindsRef
    ⟨contactsRef, listed, contains⟩ (by decide)

end Loader

end Typesheet

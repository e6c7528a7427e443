import Typesheet.Proofs.Load.Deep
import Typesheet.Source.Memory

/-!
Contract: the columns of a load do not interfere.

Owns: the visits that following references may come to, what a load takes from the answers
about one namespace, and the theorem that a column of a root is the same in two loads
whose stores tell them the same of the root and of all that the references of this column
may come to.

All columns of a namespace, and its implements clause, are followed below one chain.  The
chain holds the addresses on the way to the namespace and never those that a sibling led to,
so two loads that agree along one column stay in step there (`schemaFrom_congr`).
-/

set_option autoImplicit false

namespace Typesheet.Loader

variable (loader : Loader) (answers : ChangingSource)

/-- The visits that following links may come to from a visit: each is given by the links
followed to it and its namespace.  Nothing is said of their outcome, so they may come back
to a namespace and go on for ever. -/
inductive MayVisit : List Link → NamespaceUri → List Link → NamespaceUri → Prop where
  | here (trail : List Link) (uri : NamespaceUri) : MayVisit trail uri trail uri
  | beyond {trail last : List Link} {uri owner target : NamespaceUri} {link : Link}
      {selector : Option Text} (defined : (loader.facing answers trail).defines uri = true)
      (listed : link ∈ (loader.facing answers trail).links uri)
      (leads : link.destination loader.scheme = .ok (owner, selector))
      (visits : MayVisit (trail ++ [link]) owner last target) :
      MayVisit trail uri last target

/-- The visits that following the references of a column of the root may come to. -/
def ColumnMayVisit (field : Field) (trail : List Link) (uri : NamespaceUri) : Prop :=
  ∃ link ∈ columnLinks field, ∃ owner selector,
    link.destination loader.scheme = .ok (owner, selector)
      ∧ loader.MayVisit answers [link] owner trail uri

variable {loader answers}

/-! ## What the answers about one namespace decide -/

section Definition

variable {source other : Source} {uri : NamespaceUri}
  (same : source.definition uri = other.definition uri)
include same

theorem columnsOf_congr :
    columnsOf { loader with source } uri = columnsOf { loader with source := other } uri := by
  unfold columnsOf
  rw [same]

theorem defines_congr :
    defines { loader with source } uri = defines { loader with source := other } uri := by
  unfold defines
  rw [same]

theorem baseOf_congr :
    baseOf { loader with source } uri = baseOf { loader with source := other } uri := by
  unfold baseOf
  rw [same]

/-- The answers about a namespace and the resolutions of its links decide its schema. -/
theorem assemble_source_congr (resolution : Link → Resolution) :
    assemble { loader with source } uri resolution
      = assemble { loader with source := other } uri resolution := by
  unfold assemble levelIssues baseType baseLinks
  rw [columnsOf_congr same, baseOf_congr same]
  simp only [same]

end Definition

/-- The schema of a namespace that is not defined does not depend on its links. -/
theorem assemble_eq_of_not_defines {uri : NamespaceUri}
    (notDefined : loader.defines uri = false) (resolution other : Link → Resolution) :
    loader.assemble uri resolution = loader.assemble uri other := by
  rcases loader.definition_cases uri with
    ⟨reason, refused⟩ | ⟨listing, registration, answered, undefined⟩ | defined
  · rw [assemble_of_unanswered refused, assemble_of_unanswered refused]
  · rw [assemble_of_undefined answered undefined, assemble_of_undefined answered undefined]
  · rw [notDefined] at defined
    exact absurd defined Bool.false_ne_true

/-! ## Two loads in step -/

/-- **Two loads stay in step** below a visit when the stores tell them the same of each
visit that the first may come to from there. -/
theorem schemaFrom_congr {other : ChangingSource} {trail : List Link} {ancestors : List Text}
    {uri : NamespaceUri}
    (same : ∀ last target, loader.MayVisit answers trail uri last target →
      (answers last).definition target = (other last).definition target) :
    loader.schemaFrom answers trail ancestors uri
      = loader.schemaFrom other trail ancestors uri := by
  induction ancestors, uri using loader.load_induction generalizing trail with
  | level ancestors uri inductionHypothesis =>
      have own := same trail uri (.here trail uri)
      rw [schemaFrom_eq, schemaFrom_eq]
      trans (loader.facing answers trail).assemble uri
          (loader.resolutionFrom other trail ancestors uri)
      · cases defined : (loader.facing answers trail).defines uri with
        | false => exact assemble_eq_of_not_defines defined _ _
        | true =>
            apply assemble_congr
            intro link listed
            apply resolveTo_congr
            intro deeper owner selector leads
            apply inductionHypothesis deeper owner
            intro last target visits
            exact same last target (.beyond defined listed leads visits)
      · exact assemble_source_congr own _

/-- The columns of a loaded root stand where the root declares them. -/
theorem columns_schemaFrom_getElem? {root : NamespaceUri} {position : Nat} {field : Field}
    (declared : ((loader.facing answers []).columnsOf root)[position]? = some field)
    (defined : (loader.facing answers []).defines root = true) :
    (loader.schemaFrom answers [] [] root).columns[position]?
      = some (resolvedColumn (loader.resolutionFrom answers [] [] root) field) := by
  rw [schemaFrom_eq, (assemble_of_defines _ defined).2.1, List.getElem?_map, declared]
  rfl

/-- **Columns do not interfere.**  Let two stores, however they change, give the same answers
about a root, and about each namespace that following the references of one of its columns
may come to.  Then this column is the same in the schemas that they load, with all that it
holds and its issue: whatever else they tell of other columns and of the implements clause
makes no difference to it.  A load from a source is the case of a store that never
changes. -/
theorem column_eq_of_same_answers (loader : Loader) (answers other : ChangingSource)
    (root : NamespaceUri) (position : Nat) (field : Field)
    (sameRoot : (answers []).definition root = (other []).definition root)
    (declared : ((loader.facing answers []).columnsOf root)[position]? = some field)
    (sameBeyond : ∀ trail uri, loader.ColumnMayVisit answers field trail uri →
      (answers trail).definition uri = (other trail).definition uri) :
    let first := loader.schemaFrom answers [] [] root
    let second := loader.schemaFrom other [] [] root
    first.columns[position]? = second.columns[position]?
      ∧ ((loader.facing answers []).defines root = true →
          ∃ column, first.columns[position]? = some column
            ∧ column.key = field.key ∧ column.name = field.name)
      ∧ ∀ source before,
          (Client.load { loader with source } ⟨some root, before⟩).1.schema
            = loader.schemaFrom (fun _ => source) [] [] root := by
  intro first second
  have sameColumns : (loader.facing answers []).columnsOf root
      = (loader.facing other []).columnsOf root := columnsOf_congr sameRoot
  have sameDefined : (loader.facing answers []).defines root
      = (loader.facing other []).defines root := defines_congr sameRoot
  refine ⟨?_, ?_, ?_⟩
  · cases defined : (loader.facing answers []).defines root with
    | false =>
        show (loader.schemaFrom answers [] [] root).columns[position]?
          = (loader.schemaFrom other [] [] root).columns[position]?
        rw [schemaFrom_eq, schemaFrom_eq, (assemble_of_not_defines _ defined).2,
          (assemble_of_not_defines _ (sameDefined ▸ defined)).2]
    | true =>
        have inStep : ∀ link ∈ columnLinks field,
            loader.resolutionFrom answers [] [] root link
              = loader.resolutionFrom other [] [] root link := by
          intro link member
          apply resolveTo_congr
          intro deeper owner selector leads
          apply schemaFrom_congr
          intro last target visits
          exact sameBeyond last target ⟨link, member, owner, selector, leads, visits⟩
        rw [columns_schemaFrom_getElem? declared defined,
          columns_schemaFrom_getElem? (sameColumns ▸ declared) (sameDefined ▸ defined),
          resolvedColumn_congr inStep]
  · intro defined
    exact ⟨_, columns_schemaFrom_getElem? declared defined, rfl, rfl⟩
  · exact fun source before => loader.schema_client_load source root before

/-- The answers about orders, whose first column refers to contacts and whose second to
items. -/
private def orders (item : Definition) : Source :=
  MemoryStore.source
    { definitions :=
        [("ns:orders".toList,
            ((Definition.named []).withColumn "A".toList "buyer".toList
              "ns:contacts".toList).withColumn "B".toList "item".toList "ns:items".toList),
          ("ns:contacts".toList,
            (Definition.named []).withColumn "A".toList "label".toList "string".toList),
          ("ns:items".toList, item)] }

private def soundItem : Definition :=
  (Definition.named []).withColumn "A".toList "label".toList "string".toList

/-- An item that refers back to the orders. -/
private def circularItem : Definition :=
  (Definition.named []).withColumn "A".toList "order".toList "ns:orders".toList

private def ordersLoader : Loader where
  scheme := .standard
  source := orders soundItem
  maxDepth := 3

private def ordersUri : NamespaceUri :=
  ⟨"ns:orders".toList, by decide⟩

private def contactsUri : NamespaceUri :=
  ⟨"ns:contacts".toList, by decide⟩

private def itemsUri : NamespaceUri :=
  ⟨"ns:items".toList, by decide⟩

private def fieldTo (key name address : String) : Field where
  key := key.toList
  name := name.toList
  type := .reference (Reference.toNamespace address.toList false)

private def buyer : Field := fieldTo "A" "buyer" "ns:contacts"

private def item : Field := fieldTo "B" "item" "ns:items"

private theorem columnsOf_orders :
    (ordersLoader.facing (fun _ => orders soundItem) []).columnsOf ordersUri
      = [buyer, item] := by
  have declared : (ordersLoader.facing (fun _ => orders soundItem) []).columnsOf ordersUri
      = Column.sort [buyer, item] := by
    apply congrArg Column.sort
    decide +kernel
  rw [declared]
  exact List.mergeSort_of_pairwise (by decide)

/-- The references of the first column lead to contacts and no further. -/
private theorem eq_contactsUri_of_mayVisit {trail : List Link} {uri : NamespaceUri}
    (mayVisit : ordersLoader.ColumnMayVisit (fun _ => orders soundItem) buyer trail uri) :
    uri = contactsUri := by
  obtain ⟨link, member, owner, selector, leads, visits⟩ := mayVisit
  obtain rfl : link = .column buyer (Reference.toNamespace "ns:contacts".toList false) :=
    List.mem_singleton.mp member
  have known : Link.destination ordersLoader.scheme
      (.column buyer (Reference.toNamespace "ns:contacts".toList false))
        = .ok (contactsUri, none) := by decide +kernel
  obtain ⟨rfl, rfl⟩ := Link.destination_unique leads known
  have noLinks : (ordersLoader.links contactsUri).isEmpty = true := by decide +kernel
  cases visits with
  | here => rfl
  | beyond _ listed =>
      change _ ∈ ordersLoader.links contactsUri at listed
      rw [List.isEmpty_iff.mp noLinks] at listed
      exact absurd listed List.not_mem_nil

theorem buyer_eq_of_circular_item :
    let first := ordersLoader.schemaFrom (fun _ => orders soundItem) [] [] ordersUri
    let second := ordersLoader.schemaFrom (fun _ => orders circularItem) [] [] ordersUri
    (orders soundItem).definition itemsUri ≠ (orders circularItem).definition itemsUri
      ∧ first.columns[0]? = second.columns[0]?
      ∧ ∃ column, first.columns[0]? = some column
        ∧ column.key = buyer.key ∧ column.name = buyer.name := by
  intro first second
  have declared : ((ordersLoader.facing (fun _ => orders soundItem) []).columnsOf
      ordersUri)[0]? = some buyer := by
    rw [columnsOf_orders]
    rfl
  have sameBeyond : ∀ trail uri,
      ordersLoader.ColumnMayVisit (fun _ => orders soundItem) buyer trail uri →
        (orders soundItem).definition uri = (orders circularItem).definition uri := by
    intro trail uri mayVisit
    rw [eq_contactsUri_of_mayVisit mayVisit]
    decide +kernel
  have sameRoot : (orders soundItem).definition ordersUri
      = (orders circularItem).definition ordersUri := by decide +kernel
  obtain ⟨same, present, _⟩ := column_eq_of_same_answers ordersLoader
    (fun _ => orders soundItem) (fun _ => orders circularItem) ordersUri 0 buyer sameRoot declared
    sameBeyond
  have distinct : (orders soundItem).definition itemsUri
      ≠ (orders circularItem).definition itemsUri := by decide +kernel
  have defined : (ordersLoader.facing (fun _ => orders soundItem) []).defines ordersUri = true := by
    decide +kernel
  exact ⟨distinct, same, present defined⟩

end Typesheet.Loader

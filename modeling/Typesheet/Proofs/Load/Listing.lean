import Typesheet.Proofs.Load.Deep
import Typesheet.Proofs.Text.Trim

/-!
Contract: what a load makes of a listing.

Owns: the entries that a column comes of, the order in which the columns stand, and that a
listing declares the same columns in whatever order it is enumerated; sources that declare the
same of a namespace, and that loads from them give the same schema; and the theorem that a load
has one column for each usable entry, in spreadsheet order, however every listing that it meets
is enumerated.

A listing is a map, so each key has one entry.  Sorting keys that are all different leaves
nothing to the order in which they came, and this is the only place where a load looks at more
than one entry of a listing at a time.
-/

set_option autoImplicit false

namespace Typesheet

/-- An entry that a column comes of: its key is one or more of the capitals `A` to `Z`, and it
has a property with a type that is not blank. -/
structure Entry.IsUsable (entry : Entry) (key : Text) : Prop where
  key_ne_nil : key ≠ []
  capitals : ∀ letter ∈ key, 'A' ≤ letter ∧ letter ≤ 'Z'
  typed : ∃ property text, entry.property = some property ∧ property.typeText = some text
    ∧ ¬ Text.IsBlank text

/-- The same answer, with the columns of a listing enumerated in another order.  A listing is a
map: no key comes twice. -/
inductive Answer.Reorders : Answer Listing → Answer Listing → Prop where
  | found {other listing : Listing} (keyed : (listing.columns.map Prod.fst).Nodup)
      (perm : other.columns.Perm listing.columns) : Reorders (.found other) (.found listing)
  | failed (failure : FetchFailure) : Reorders (.failed failure) (.failed failure)
  | crashed (message : Option Text) : Reorders (.crashed message) (.crashed message)

/-- A source that gives the same answers, but enumerates listings in orders of its own. -/
structure Source.Reorders (other source : Source) : Prop where
  listing : ∀ uri, (other.listing uri).Reorders (source.listing uri)
  registration : ∀ uri, other.registration uri = source.registration uri

namespace Loader

/-! ## Declared columns -/

section Declared

variable {scheme : Scheme} {listing : Listing} {key : Text} {entry : Entry}

/-- A usable entry declares a column, and no other does. -/
theorem exists_declaredColumn_iff :
    (∃ field, declaredColumn scheme key entry = some field) ↔ entry.IsUsable key := by
  simp only [declaredColumn_eq_some_iff, Column.isKey_iff]
  constructor
  · rintro ⟨_, ⟨nonempty, capitals⟩, property, found, typed, _⟩
    refine ⟨nonempty, capitals, ?_⟩
    cases declared : property.typeText with
    | none =>
        rw [declared] at typed
        exact absurd rfl typed
    | some text =>
        rw [declared, Option.getD_some, ne_eq, Text.trim_eq_nil_iff] at typed
        exact ⟨property, text, found, declared, typed⟩
  · rintro ⟨nonempty, capitals, property, text, found, declared, typed⟩
    refine ⟨_, ⟨nonempty, capitals⟩, property, found, ?_, rfl⟩
    rw [declared, Option.getD_some, ne_eq, Text.trim_eq_nil_iff]
    exact typed

theorem nodup_keys_filterMap_declaredColumn (keyed : (listing.columns.map Prod.fst).Nodup) :
    ((listing.columns.filterMap fun column => declaredColumn scheme column.1 column.2).map
      Column.key).Nodup := by
  rw [List.Nodup, List.pairwise_map, List.pairwise_filterMap]
  rw [List.Nodup, List.pairwise_map] at keyed
  apply keyed.imp
  intro column later differ field declared laterField laterDeclared
  rwa [key_of_declaredColumn declared, key_of_declaredColumn laterDeclared]

/-- The columns that a listing declares do not depend on the order in which it lists them. -/
theorem declaredColumns_eq_of_perm (scheme : Scheme) {listing other : Listing}
    (distinct : (listing.columns.map Prod.fst).Nodup)
    (perm : other.columns.Perm listing.columns) :
    declaredColumns scheme listing = declaredColumns scheme other :=
  Column.sort_eq_of_perm (perm.symm.filterMap _) (nodup_keys_filterMap_declaredColumn distinct)

theorem pairwise_comesBefore_declaredColumns (keyed : (listing.columns.map Prod.fst).Nodup) :
    (declaredColumns scheme listing).Pairwise fun left right =>
      Column.ComesBefore left.key right.key :=
  Column.pairwise_comesBefore_sort (nodup_keys_filterMap_declaredColumn keyed)

/-- The keys of the declared columns are those of the usable entries. -/
theorem exists_mem_declaredColumns_iff :
    (∃ field ∈ declaredColumns scheme listing, field.key = key)
      ↔ ∃ entry, (key, entry) ∈ listing.columns ∧ entry.IsUsable key := by
  constructor
  · rintro ⟨field, declared, rfl⟩
    obtain ⟨entry, listed, made⟩ := mem_declaredColumns_iff.mp declared
    exact ⟨entry, listed, exists_declaredColumn_iff.mp ⟨field, made⟩⟩
  · rintro ⟨entry, listed, usable⟩
    obtain ⟨field, made⟩ : ∃ field, declaredColumn scheme key entry = some field :=
      exists_declaredColumn_iff.mpr usable
    obtain rfl := key_of_declaredColumn made
    exact ⟨field, mem_declaredColumns_iff.mpr ⟨entry, listed, made⟩, rfl⟩

end Declared

/-! ## Loads from two sources -/

/-- Two sources declare the same of a namespace: both refuse to answer for one reason, or they
register it alike and list columns that are declared alike. -/
inductive DeclareSame (scheme : Scheme) (source other : Source) (uri : NamespaceUri) : Prop where
  | refused {reason : Text} (first : source.definition uri = .error reason)
      (second : other.definition uri = .error reason)
  | answered {listing otherListing : Listing} {registration : Registration}
      (first : source.definition uri = .ok (listing, registration))
      (second : other.definition uri = .ok (otherListing, registration))
      (columns : declaredColumns scheme listing = declaredColumns scheme otherListing)

variable {loader : Loader} {source other : Source} {answers others : ChangingSource}

theorem assemble_eq_of_declareSame {uri : NamespaceUri}
    (same : DeclareSame loader.scheme source other uri) (resolution : Link → Resolution) :
    assemble { loader with source } uri resolution
      = assemble { loader with source := other } uri resolution := by
  cases same with
  | refused first second =>
      unfold assemble
      simp only [first, second]
  | answered first second columns =>
      have sameColumns : columnsOf { loader with source } uri
          = columnsOf { loader with source := other } uri := by
        unfold columnsOf
        simpa only [first, second] using columns
      have sameBase : baseOf { loader with source } uri
          = baseOf { loader with source := other } uri := by
        unfold baseOf
        simp only [first, second]
      unfold assemble levelIssues baseType baseLinks
      rw [sameColumns, sameBase]
      simp only [first, second]

/-- **Loads from two stores agree** when the stores, however they change, declare the same of
every namespace at every visit. -/
theorem schemaFrom_eq_of_declareSame
    (same : ∀ trail uri, DeclareSame loader.scheme (answers trail) (others trail) uri)
    (trail : List Link) (ancestors : List Text) (uri : NamespaceUri) :
    loader.schemaFrom answers trail ancestors uri
      = loader.schemaFrom others trail ancestors uri := by
  induction ancestors, uri using loader.load_induction generalizing trail with
  | level ancestors uri inductionHypothesis =>
      rw [schemaFrom_eq, schemaFrom_eq]
      trans (loader.facing answers trail).assemble uri
          (loader.resolutionFrom others trail ancestors uri)
      · apply assemble_congr
        intro link _
        apply resolveTo_congr
        intro deeper owner _ _
        exact inductionHypothesis deeper owner (trail ++ [link])
      · exact assemble_eq_of_declareSame (same trail uri) _

/-- Loads from two sources agree when the sources declare the same of every namespace. -/
theorem schema_load_eq_of_declareSame
    (same : ∀ uri, DeclareSame loader.scheme source other uri) (ancestors : List Text)
    (uri : NamespaceUri) :
    (load { loader with source } ancestors uri).schema
      = (load { loader with source := other } ancestors uri).schema := by
  rw [schema_load_eq_schemaFrom, schema_load_eq_schemaFrom]
  exact schemaFrom_eq_of_declareSame (fun _ => same) [] ancestors uri

/-! ## Enumerations of a listing -/

theorem definition_of_refused {uri : NamespaceUri} {reason : Text}
    (refused : (source.listing uri).toExcept = .error reason) :
    source.definition uri = .error reason := by
  rw [Source.definition, refused]
  rfl

theorem definition_of_listed {uri : NamespaceUri} {listing : Listing}
    (listed : source.listing uri = .found listing) :
    source.definition uri
      = (source.registration uri).toExcept.map fun registration => (listing, registration) := by
  rw [Source.definition, listed]
  rfl

/-- Sources that enumerate their listings in orders of their own declare the same. -/
theorem declareSame_of_reorders (reorders : other.Reorders source) (scheme : Scheme)
    (uri : NamespaceUri) : DeclareSame scheme source other uri := by
  have sameListing := reorders.listing uri
  have sameRegistration := reorders.registration uri
  generalize answered : source.listing uri = answer at sameListing
  generalize otherAnswered : other.listing uri = otherAnswer at sameListing
  cases sameListing with
  | failed failure =>
      exact .refused (definition_of_refused (congrArg Answer.toExcept answered))
        (definition_of_refused (congrArg Answer.toExcept otherAnswered))
  | crashed message =>
      exact .refused (definition_of_refused (congrArg Answer.toExcept answered))
        (definition_of_refused (congrArg Answer.toExcept otherAnswered))
  | found keyed perm =>
      have first := definition_of_listed answered
      have second := definition_of_listed otherAnswered
      rw [sameRegistration] at second
      cases registered : (source.registration uri).toExcept with
      | error reason =>
          rw [registered] at first second
          exact .refused first second
      | ok registration =>
          rw [registered] at first second
          exact .answered first second (declaredColumns_eq_of_perm scheme keyed perm)

/-! ## The columns of a load -/

theorem columnsOf_of_answered {loader : Loader} {uri : NamespaceUri} {listing : Listing}
    {registration : Registration}
    (answered : loader.source.definition uri = .ok (listing, registration)) :
    loader.columnsOf uri = declaredColumns loader.scheme listing := by
  unfold columnsOf
  rw [answered]

/-- A namespace that is defined has its declared columns in every load, with their references
filled in or not. -/
theorem columns_schemaFrom_of_answered {loader : Loader} {trail : List Link}
    {ancestors : List Text} {uri : NamespaceUri} {listing : Listing}
    {registration : Registration}
    (answered : (answers trail).definition uri = .ok (listing, registration))
    (defined : registration.isDefined = true) :
    (loader.schemaFrom answers trail ancestors uri).columns
      = (declaredColumns loader.scheme listing).map
          (resolvedColumn (loader.resolutionFrom answers trail ancestors uri)) := by
  have isDefined : (loader.facing answers trail).defines uri = true := by
    unfold defines
    rw [show (loader.facing answers trail).source.definition uri = _ from answered]
    exact defined
  rw [schemaFrom_eq, (assemble_of_defines _ isDefined).2.1, columnsOf_of_answered answered]
  rfl

/-- **The columns of a load are the usable entries, in spreadsheet order.**  Whatever the store
answers from visit to visit, the schema that a load of a defined root gives has one column for
each entry of the root's listing whose key is capitals and whose type is not blank, and no other
column.  The keys ascend strictly, by length and then lexically.  None of this depends on what
becomes of the references.  And if every listing that the load meets is enumerated in another
order, at each visit in one of its own, the whole schema is the same, with all that its references
hold and its issues in order. -/
theorem columns_of_listing (loader : Loader) (answers : ChangingSource) (root : NamespaceUri)
    (listing : Listing) (registration : Registration)
    (answered : (answers []).definition root = .ok (listing, registration))
    (defined : registration.isDefined = true)
    (keyed : (listing.columns.map Prod.fst).Nodup) :
    let schema := loader.schemaFrom answers [] [] root
    (∀ column ∈ schema.columns,
        ∃ entry, (column.key, entry) ∈ listing.columns ∧ entry.IsUsable column.key)
      ∧ (∀ key entry, (key, entry) ∈ listing.columns → entry.IsUsable key →
          ∃! column, column ∈ schema.columns ∧ column.key = key)
      ∧ (schema.columns.Pairwise fun left right => Column.ComesBefore left.key right.key)
      ∧ (∀ others : ChangingSource, (∀ trail, (others trail).Reorders (answers trail)) →
          loader.schemaFrom others [] [] root = schema)
      ∧ ∀ source before,
          (Client.load { loader with source } ⟨some root, before⟩).1.schema
            = loader.schemaFrom (fun _ => source) [] [] root := by
  intro schema
  have columns : schema.columns = (declaredColumns loader.scheme listing).map
      (resolvedColumn (loader.resolutionFrom answers [] [] root)) :=
    columns_schemaFrom_of_answered answered defined
  have sameKeys (key : Text) : (∃ column ∈ schema.columns, column.key = key)
      ↔ ∃ entry, (key, entry) ∈ listing.columns ∧ entry.IsUsable key := by
    rw [columns]
    simp only [List.mem_map, exists_exists_and_eq_and]
    exact exists_mem_declaredColumns_iff
  have sorted : schema.columns.Pairwise fun left right =>
      Column.ComesBefore left.key right.key := by
    rw [columns, List.pairwise_map]
    exact pairwise_comesBefore_declaredColumns keyed
  have distinct : (schema.columns.map Column.key).Nodup := by
    rw [List.Nodup, List.pairwise_map]
    exact sorted.imp Column.ComesBefore.ne
  refine ⟨?_, ?_, sorted, ?_, fun source before => loader.schema_client_load source root before⟩
  · exact fun column member => (sameKeys column.key).mp ⟨column, member, rfl⟩
  · intro key entry listed usable
    obtain ⟨column, member, rfl⟩ := (sameKeys key).mpr ⟨entry, listed, usable⟩
    refine ⟨column, ⟨member, rfl⟩, ?_⟩
    rintro other ⟨otherMember, same⟩
    exact List.inj_on_of_nodup_map distinct otherMember member same
  · intro others reorders
    exact (schemaFrom_eq_of_declareSame
      (fun trail uri => declareSame_of_reorders (reorders trail) loader.scheme uri) [] [] root).symm

/-- The entries of a stock list, none of them where it belongs: one with a reference that fails,
one whose key is no column key, one with a blank type, one without a property, and one that is
fine. -/
private def stockListing : Listing where
  columns :=
    [("AA".toList, ⟨some { name := "maker".toList, typeText := some "ns:makers".toList }⟩),
      ("b".toList, ⟨some { name := "size".toList, typeText := some "number".toList }⟩),
      ("C".toList, ⟨some { name := "note".toList, typeText := some " ".toList }⟩),
      ("D".toList, ⟨none⟩),
      ("Z".toList, ⟨some { name := "label".toList, typeText := some "string".toList }⟩)]

private def stockUri : NamespaceUri :=
  ⟨"ns:stock".toList, by decide⟩

/-- A store that answers for the stock list only. -/
private def stock (listing : Listing) : Source where
  listing uri :=
    if uri = stockUri then .found listing else .failed (.transport "down".toList)
  registration _ := .found { isDefined := true }

private theorem reorders_stock :
    (stock ⟨stockListing.columns.reverse⟩).Reorders (stock stockListing) where
  listing uri := by
    by_cases isStock : uri = stockUri
    · simp only [stock, isStock, ↓reduceIte]
      exact .found (by decide) (List.reverse_perm _)
    · simp only [stock, isStock, ↓reduceIte]
      exact .failed _
  registration _ := rfl

theorem columns_of_stock_listing :
    let loader : Loader := { scheme := .standard, source := stock stockListing, maxDepth := 32 }
    let schema := loader.schemaFrom (fun _ => stock stockListing) [] [] stockUri
    (stock stockListing).definition stockUri = .ok (stockListing, { isDefined := true })
      ∧ (∃! column, column ∈ schema.columns ∧ column.key = "AA".toList)
      ∧ (∀ column ∈ schema.columns, column.key ≠ "b".toList)
      ∧ loader.schemaFrom (fun _ => stock ⟨stockListing.columns.reverse⟩) [] [] stockUri
        = schema := by
  intro loader schema
  have answered : (stock stockListing).definition stockUri
      = .ok (stockListing, { isDefined := true }) := by decide +kernel
  obtain ⟨fromEntry, ofEntry, _, sameSchema, _⟩ := columns_of_listing loader
    (fun _ => stock stockListing) stockUri stockListing { isDefined := true } answered rfl
    (by decide)
  refine ⟨answered, ?_, ?_, sameSchema _ fun _ => reorders_stock⟩
  · obtain ⟨nonempty, capitals⟩ := Column.isKey_iff.mp (by decide : Column.isKey "AA".toList = true)
    exact ofEntry "AA".toList _ List.mem_cons_self
      ⟨nonempty, capitals, _, "ns:makers".toList, rfl, rfl, by decide⟩
  · intro column member isLower
    obtain ⟨entry, _, usable⟩ := fromEntry column member
    rw [isLower] at usable
    exact absurd (usable.capitals 'b' (List.mem_singleton_self 'b')).2 (by decide)

end Loader

end Typesheet

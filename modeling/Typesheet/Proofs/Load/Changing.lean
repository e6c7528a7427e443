import Typesheet.Proofs.Load.Standalone

/-!
Contract: loads from a store that changes while they go on.

Owns: stores that answer every visit of a load anew, the schema that such a load gives,
and the theorem that a load from a source is the case of a store that never changes.

The links followed on the way to a visit tell the visits of one load apart, so a store
that may answer differently from one request to the next is a source for each list of
links.  No order of the requests is assumed: whatever the order in which references are
followed, the answers that a load is given are those of some changing source.
-/

set_option autoImplicit false

namespace Typesheet

/-- The source that each visit meets, by the links followed on the way to it. -/
abbrev ChangingSource := List Link → Source

namespace Loader

/-- The loader as it meets a visit. -/
def facing (loader : Loader) (answers : ChangingSource) (trail : List Link) : Loader :=
  { loader with source := answers trail }

/-- What a link comes to below a chain, where `child` is the schema of the namespace that
it leads to. -/
def resolveTo (loader : Loader) (chain : List Text) (link : Link)
    (child : chain.length < loader.maxDepth → NamespaceUri → Schema) : Resolution :=
  match link.destination loader.scheme with
  | .error error =>
      .failed (Cause.invalidReference link.site link.declared error.message).issue
  | .ok (owner, selector) =>
      if owner.text ∈ chain then .failed (Cause.circular link.site link.ref.uri chain).issue
      else if deeper : chain.length < loader.maxDepth then
        settle link.site link.ref.uri owner selector (child deeper owner)
      else .failed (Cause.tooDeep link.site link.ref.uri loader.maxDepth).issue

/-- The schema that a load from a changing source gives.  The source of the loader itself
plays no part. -/
def schemaFrom (loader : Loader) (answers : ChangingSource) (trail : List Link)
    (ancestors : List Text) (uri : NamespaceUri) : Schema :=
  (loader.facing answers trail).assemble uri fun link =>
    loader.resolveTo (ancestors ++ [uri.text]) link fun _ owner =>
      schemaFrom loader answers (trail ++ [link]) (ancestors ++ [uri.text]) owner
termination_by loader.maxDepth - ancestors.length
decreasing_by
  simp only [List.length_append, List.length_singleton] at *
  omega

/-- What the links of a namespace come to in a load from a changing source. -/
def resolutionFrom (loader : Loader) (answers : ChangingSource) (trail : List Link)
    (ancestors : List Text) (uri : NamespaceUri) (link : Link) : Resolution :=
  loader.resolveTo (ancestors ++ [uri.text]) link fun _ owner =>
    loader.schemaFrom answers (trail ++ [link]) (ancestors ++ [uri.text]) owner

theorem schemaFrom_eq (loader : Loader) (answers : ChangingSource) (trail : List Link)
    (ancestors : List Text) (uri : NamespaceUri) :
    loader.schemaFrom answers trail ancestors uri
      = (loader.facing answers trail).assemble uri
          (loader.resolutionFrom answers trail ancestors uri) := by
  rw [schemaFrom]
  rfl

section ResolveTo

variable {loader : Loader} {chain : List Text} {link : Link} {owner : NamespaceUri}
  {selector : Option Text} {child other : chain.length < loader.maxDepth → NamespaceUri → Schema}

theorem resolveTo_of_unreadable {error : AddressError}
    (refused : link.destination loader.scheme = .error error) :
    loader.resolveTo chain link child
      = .failed (Cause.invalidReference link.site link.declared error.message).issue := by
  unfold resolveTo
  rw [refused]

theorem resolveTo_of_circular
    (leads : link.destination loader.scheme = .ok (owner, selector))
    (visited : owner.text ∈ chain) :
    loader.resolveTo chain link child
      = .failed (Cause.circular link.site link.ref.uri chain).issue := by
  unfold resolveTo
  rw [leads]
  exact if_pos visited

theorem resolveTo_of_tooDeep
    (leads : link.destination loader.scheme = .ok (owner, selector))
    (fresh : owner.text ∉ chain) (atLimit : loader.maxDepth ≤ chain.length) :
    loader.resolveTo chain link child
      = .failed (Cause.tooDeep link.site link.ref.uri loader.maxDepth).issue := by
  unfold resolveTo
  rw [leads]
  simp only [fresh, Nat.not_lt.mpr atLimit, ↓reduceIte, ↓reduceDIte]

theorem resolveTo_of_enters
    (leads : link.destination loader.scheme = .ok (owner, selector))
    (fresh : owner.text ∉ chain) (deeper : chain.length < loader.maxDepth) :
    loader.resolveTo chain link child
      = settle link.site link.ref.uri owner selector (child deeper owner) := by
  unfold resolveTo
  rw [leads]
  simp only [fresh, deeper, ↓reduceIte, ↓reduceDIte]

theorem resolveTo_congr
    (same : ∀ deeper owner selector, link.destination loader.scheme = .ok (owner, selector) →
      child deeper owner = other deeper owner) :
    loader.resolveTo chain link child = loader.resolveTo chain link other := by
  cases loader.link_cases chain link with
  | unreadable refused => rw [resolveTo_of_unreadable refused, resolveTo_of_unreadable refused]
  | circular leads visited =>
      rw [resolveTo_of_circular leads visited, resolveTo_of_circular leads visited]
  | tooDeep leads fresh atLimit =>
      rw [resolveTo_of_tooDeep leads fresh atLimit, resolveTo_of_tooDeep leads fresh atLimit]
  | enters leads fresh deeper =>
      rw [resolveTo_of_enters leads fresh deeper, resolveTo_of_enters leads fresh deeper,
        same deeper _ _ leads]

end ResolveTo

theorem resolveTo_eq_followLink (loader : Loader) (chain : List Text) (link : Link) :
    (loader.resolveTo chain link fun _ owner => (loader.load chain owner).schema)
      = (loader.followLink chain link).resolution := by
  cases loader.link_cases chain link with
  | unreadable refused => rw [followLink_of_unreadable refused, resolveTo_of_unreadable refused]
  | circular leads visited =>
      rw [followLink_of_circular leads visited, resolveTo_of_circular leads visited]
  | tooDeep leads fresh atLimit =>
      rw [followLink_of_tooDeep leads fresh atLimit, resolveTo_of_tooDeep leads fresh atLimit]
  | enters leads fresh deeper =>
      rw [followLink_of_enters leads fresh deeper, resolveTo_of_enters leads fresh deeper]

/-- **A load from a source** is the load from the store that never changes. -/
theorem schemaFrom_const (loader : Loader) (trail : List Link) (ancestors : List Text)
    (uri : NamespaceUri) :
    loader.schemaFrom (fun _ => loader.source) trail ancestors uri
      = (loader.load ancestors uri).schema := by
  induction ancestors, uri using loader.load_induction generalizing trail with
  | level ancestors uri inductionHypothesis =>
      rw [schemaFrom_eq, schema_load]
      show loader.assemble uri _ = _
      congr 1
      funext link
      rw [← resolveTo_eq_followLink]
      exact resolveTo_congr fun deeper owner _ _ =>
        inductionHypothesis deeper owner (trail ++ [link])

/-- The source of the loader itself plays no part in a load from a changing source. -/
theorem schemaFrom_source (loader : Loader) (source : Source) (answers : ChangingSource)
    (trail : List Link) (ancestors : List Text) (uri : NamespaceUri) :
    schemaFrom { loader with source } answers trail ancestors uri
      = loader.schemaFrom answers trail ancestors uri := by
  induction ancestors, uri using loader.load_induction generalizing trail with
  | level ancestors uri inductionHypothesis =>
      rw [schemaFrom_eq, schemaFrom_eq]
      apply assemble_congr
      intro link _
      exact resolveTo_congr fun deeper owner _ _ =>
        inductionHypothesis deeper owner (trail ++ [link])

theorem schema_load_eq_schemaFrom (loader : Loader) (source : Source) (ancestors : List Text)
    (uri : NamespaceUri) :
    (load { loader with source } ancestors uri).schema
      = loader.schemaFrom (fun _ => source) [] ancestors uri := by
  rw [← schemaFrom_source loader source]
  exact (schemaFrom_const { loader with source } [] ancestors uri).symm

/-- What a client loads, for every source, as a load from a store that never changes. -/
theorem schema_client_load (loader : Loader) (source : Source) (root : NamespaceUri)
    (before : Schema) :
    (Client.load { loader with source } ⟨some root, before⟩).1.schema
      = loader.schemaFrom (fun _ => source) [] [] root :=
  loader.schema_load_eq_schemaFrom source [] root

/-- A resolved link leads into a namespace that is not being loaded, and whose own load, one
level down, has no issues and holds the name and the columns that the link came to. -/
theorem exists_target_of_resolutionFrom {loader : Loader} {answers : ChangingSource}
    {trail : List Link} {ancestors : List Text} {uri : NamespaceUri} {link : Link}
    {typename : Text} {columns : List Field}
    (resolved : loader.resolutionFrom answers trail ancestors uri link
      = .resolved typename columns) :
    (ancestors ++ [uri.text]).length < loader.maxDepth
      ∧ ∃ owner selector, link.destination loader.scheme = .ok (owner, selector)
        ∧ owner.text ∉ ancestors ++ [uri.text]
        ∧ let child := loader.schemaFrom answers (trail ++ [link]) (ancestors ++ [uri.text]) owner
          child.isOk = true ∧ typename = child.displayTypename ∧ columns = child.columns := by
  unfold resolutionFrom at resolved
  cases loader.link_cases (ancestors ++ [uri.text]) link with
  | unreadable refused =>
      rw [resolveTo_of_unreadable refused] at resolved
      exact absurd resolved (by simp)
  | circular leads visited =>
      rw [resolveTo_of_circular leads visited] at resolved
      exact absurd resolved (by simp)
  | tooDeep leads fresh atLimit =>
      rw [resolveTo_of_tooDeep leads fresh atLimit] at resolved
      exact absurd resolved (by simp)
  | @enters owner selector leads fresh deeper =>
      rw [resolveTo_of_enters leads fresh deeper] at resolved
      obtain ⟨isOk, _, named, filled⟩ := settle_eq_resolved_iff.mp resolved
      exact ⟨deeper, owner, selector, leads, fresh, isOk, named, filled⟩

theorem exists_child_of_resolutionFrom {loader : Loader} {answers : ChangingSource}
    {trail : List Link} {ancestors : List Text} {uri : NamespaceUri} {link : Link}
    {typename : Text} {columns : List Field}
    (resolved : loader.resolutionFrom answers trail ancestors uri link
      = .resolved typename columns) :
    (ancestors ++ [uri.text]).length < loader.maxDepth
      ∧ ∃ owner,
        let child := loader.schemaFrom answers (trail ++ [link]) (ancestors ++ [uri.text]) owner
        child.isOk = true ∧ typename = child.displayTypename ∧ columns = child.columns := by
  obtain ⟨deeper, owner, _, _, _, child⟩ := exists_target_of_resolutionFrom resolved
  exact ⟨deeper, owner, child⟩

end Loader

end Typesheet

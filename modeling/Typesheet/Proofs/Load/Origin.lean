import Typesheet.Proofs.Load.Cycle

/-!
Contract: where a reference has what it holds from.

Owns: the type name that a namespace declares and the one that it goes by; and that a reference
of a load, however deep, holds the name and the columns of a namespace that the load comes to.

A reference is filled in by a link of the namespace that it stands in, and what it holds are
references of the next load down.  The way to its namespace is put together from these links, one
for each reference around it.
-/

set_option autoImplicit false

namespace Typesheet.Loader

/-- The type name that a namespace declares, trimmed; empty when it declares none or is not
defined. -/
def typenameOf (loader : Loader) (uri : NamespaceUri) : Text :=
  match loader.source.definition uri with
  | .ok (_, registration) =>
      if registration.isDefined then Text.trim (registration.profile.getD {}).typename else []
  | .error _ => []

/-- The type name that a namespace goes by: the declared one, or else the one that its address
suggests. -/
def knownAs (loader : Loader) (uri : NamespaceUri) : Text :=
  if loader.typenameOf uri = [] then Address.typename uri.text else loader.typenameOf uri

section Level

variable {loader : Loader} {uri : NamespaceUri} {resolution : Link → Resolution} {ref : Ref}

theorem names_assemble :
    (loader.assemble uri resolution).uri = uri.text
      ∧ (loader.assemble uri resolution).typename = loader.typenameOf uri := by
  unfold assemble typenameOf
  cases loader.source.definition uri with
  | error reason => exact ⟨rfl, rfl⟩
  | ok answers => by_cases defined : answers.2.isDefined = true <;> simp [defined]

theorem defines_of_mem_references (member : ref ∈ (loader.assemble uri resolution).references) :
    loader.defines uri = true := by
  cases defined : loader.defines uri with
  | true => rfl
  | false =>
      obtain ⟨noBase, noColumns⟩ := assemble_of_not_defines resolution defined
      unfold Schema.references at member
      rw [noBase, noColumns] at member
      exact absurd member List.not_mem_nil

end Level

section Depth

variable {loader : Loader} {answers : ChangingSource} {trail : List Link}
  {ancestors : List Text} {uri : NamespaceUri} {ref : Ref}

theorem displayTypename_schemaFrom (loader : Loader) (answers : ChangingSource)
    (trail : List Link) (ancestors : List Text) (uri : NamespaceUri) :
    (loader.schemaFrom answers trail ancestors uri).displayTypename
      = (loader.facing answers trail).knownAs uri := by
  have names := @names_assemble (loader.facing answers trail) uri
    (loader.resolutionFrom answers trail ancestors uri)
  rw [schemaFrom_eq, Schema.displayTypename, names.1, names.2]
  rfl

/-- A reference of a schema is empty, or it holds what a link came to that the load follows. -/
theorem reference_follows_cases
    (member : ref ∈ (loader.schemaFrom answers trail ancestors uri).references) :
    (ref.typename = [] ∧ ref.columns = [])
      ∨ ∃ link owner, loader.Follows answers trail ancestors uri link owner
        ∧ let child := loader.schemaFrom answers (trail ++ [link]) (ancestors ++ [uri.text]) owner
          ref.typename = child.displayTypename ∧ ref.columns = child.columns := by
  rw [schemaFrom_eq] at member
  have defined := defines_of_mem_references member
  rcases reference_assemble_cases member with empty | ⟨link, listed, _, resolved⟩
  · exact .inl empty
  · obtain ⟨deeper, owner, selector, leads, fresh, _, named, filled⟩ :=
      exists_target_of_resolutionFrom resolved
    exact .inr ⟨link, owner, ⟨defined, listed, ⟨selector, leads⟩, fresh, deeper⟩, named, filled⟩

/-- **A resolved reference holds what a load comes to**: at any depth of a schema, its type name
and its columns are those of the schema that the load makes at the end of some way down. -/
theorem exists_descends_of_mentions
    (mentions : (loader.schemaFrom answers trail ancestors uri).Mentions ref)
    (isResolved : ref.isResolved = true) :
    ∃ route : Route, loader.Descends answers trail ancestors uri route
      ∧ let child := loader.schemaFrom answers (trail ++ route.links)
          (ancestors ++ (route.passed uri).map NamespaceUri.text) (route.endpoint uri)
        ref.typename = child.displayTypename ∧ ref.columns = child.columns := by
  induction ancestors, uri using loader.load_induction generalizing trail ref with
  | level ancestors uri inductionHypothesis =>
      obtain ⟨outer, member, contains⟩ := mentions
      rcases reference_follows_cases member with ⟨noName, noColumns⟩ | ⟨link, owner, follows, holds⟩
      · cases contains with
        | self => simp [Reference.isResolved, noName] at isResolved
        | within inColumns =>
            rw [noColumns] at inColumns
            exact absurd inColumns List.not_mem_nil
      · obtain ⟨position, placed⟩ := List.mem_iff_getElem?.mp follows.listed
        let hop : Hop := ⟨position, link, owner⟩
        cases contains with
        | self =>
            refine ⟨[hop], .step placed follows (.stay _ _ _), ?_⟩
            simpa [Route.links, Route.passed, Route.endpoint, hop] using holds
        | within inColumns inType below =>
            rw [holds.2] at inColumns
            obtain ⟨route, descends, holdsBelow⟩ := inductionHypothesis follows.deeper owner
              ⟨_, Schema.mem_references_of_mem_columns inColumns inType, below⟩ isResolved
            refine ⟨hop :: route, .step placed follows descends, ?_⟩
            simpa [Route.links, Route.passed, Route.endpoint, hop] using holdsBelow

end Depth

end Typesheet.Loader

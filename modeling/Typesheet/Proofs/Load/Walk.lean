import Mathlib.Data.List.Nodup
import Typesheet.Proofs.Load.Link

/-!
Contract: walks along the references of namespaces.

Owns: routes, which are sequences of followed links; which routes are walks from a
namespace; the addresses on a route; the chains of addresses that a load may come
to; and the routes that a load enters.

Nothing here mentions the outcome of a load.  A walk only says where references
lead, so it may come back to a namespace and go on for ever.
-/

set_option autoImplicit false

namespace Typesheet

/-- A followed link: its position among the links of the namespace that it leaves,
the link, and the namespace that it leads to. -/
structure Hop where
  position : Nat
  link : Link
  target : NamespaceUri

/-- The links followed one after the other. -/
abbrev Route := List Hop

namespace Route

/-- The addresses on a route from a namespace, that of the namespace first. -/
def addresses (root : NamespaceUri) (route : Route) : List Text :=
  root.text :: route.map fun hop => hop.target.text

/-- The namespace at the end of a route. -/
def endpoint (root : NamespaceUri) : Route → NamespaceUri
  | [] => root
  | hop :: rest => endpoint hop.target rest

/-- The namespaces on a route that it goes on from: all but the last. -/
def passed (root : NamespaceUri) : Route → List NamespaceUri
  | [] => []
  | hop :: rest => root :: passed hop.target rest

def positions (route : Route) : List Nat :=
  route.map Hop.position

theorem append_addresses_cons (ancestors : List Text) (root : NamespaceUri) (hop : Hop)
    (rest : Route) :
    ancestors ++ addresses root (hop :: rest)
      = (ancestors ++ [root.text]) ++ addresses hop.target rest := by
  simp [addresses]

end Route

namespace Loader

variable (loader : Loader)

/-- A hop follows a link of a namespace to where it leads. -/
def Leads (uri : NamespaceUri) (hop : Hop) : Prop :=
  (loader.links uri)[hop.position]? = some hop.link
    ∧ ∃ selector, hop.link.destination loader.scheme = .ok (hop.target, selector)

/-- A route that follows references, from a namespace on. -/
inductive Walk : NamespaceUri → Route → Prop where
  | stay (uri : NamespaceUri) : Walk uri []
  | step {uri : NamespaceUri} {hop : Hop} {rest : Route}
      (leads : loader.Leads uri hop) (walk : Walk hop.target rest) :
      Walk uri (hop :: rest)

/-- A chain of addresses that a load may come to: none of them twice, and no more
than the depth limit allows.  A root namespace is always loaded. -/
structure Allows (chain : List Text) : Prop where
  distinct : chain.Nodup
  bounded : chain.length ≤ max loader.maxDepth 1

/-- The routes that a load below some ancestors enters: walks on which no namespace
is met twice, within the depth limit, and which only go on from namespaces that
are defined. -/
structure Enters (ancestors : List Text) (root : NamespaceUri) (route : Route) : Prop where
  walk : loader.Walk root route
  allowed : loader.Allows (ancestors ++ route.addresses root)
  defined : ∀ uri ∈ route.passed root, loader.defines uri = true

variable {loader} {ancestors : List Text} {uri : NamespaceUri}

/-! ## Walks -/

theorem walk_cons_iff {hop : Hop} {rest : Route} :
    loader.Walk uri (hop :: rest) ↔ loader.Leads uri hop ∧ loader.Walk hop.target rest := by
  constructor
  · intro walk
    cases walk with
    | step leads rest => exact ⟨leads, rest⟩
  · rintro ⟨leads, rest⟩
    exact .step leads rest

theorem Leads.mem_links {hop : Hop} (leads : loader.Leads uri hop) :
    hop.link ∈ loader.links uri :=
  List.mem_of_getElem? leads.1

theorem exists_leads_of_mem_links {link : Link} {owner : NamespaceUri}
    {selector : Option Text} (member : link ∈ loader.links uri)
    (destination : link.destination loader.scheme = .ok (owner, selector)) :
    ∃ position, loader.Leads uri ⟨position, link, owner⟩ := by
  obtain ⟨position, found⟩ := List.mem_iff_getElem?.mp member
  exact ⟨position, found, selector, destination⟩

/-! ## Chains -/

theorem allows_root (root : NamespaceUri) : loader.Allows [root.text] :=
  ⟨List.nodup_singleton _, Nat.le_max_right _ _⟩

/-- A chain may be continued with an address that is not on it, above the depth
limit. -/
theorem allows_append_singleton_iff {chain : List Text} (notEmpty : chain ≠ [])
    {address : Text} :
    loader.Allows (chain ++ [address])
      ↔ loader.Allows chain ∧ address ∉ chain ∧ chain.length < loader.maxDepth := by
  have positive : 0 < chain.length := List.length_pos_of_ne_nil notEmpty
  have nodup : (chain ++ [address]).Nodup ↔ address ∉ chain ∧ chain.Nodup := by
    rw [← List.concat_eq_append]
    exact List.nodup_concat chain address
  constructor
  · rintro ⟨distinct, bounded⟩
    rw [nodup] at distinct
    rw [List.length_append, List.length_singleton] at bounded
    exact ⟨⟨distinct.2, by omega⟩, distinct.1, by omega⟩
  · rintro ⟨⟨distinct, bounded⟩, fresh, deeper⟩
    refine ⟨nodup.mpr ⟨fresh, distinct⟩, ?_⟩
    rw [List.length_append, List.length_singleton]
    omega

theorem Allows.of_append {chain rest : List Text} (allowed : loader.Allows (chain ++ rest)) :
    loader.Allows chain := by
  refine ⟨(List.nodup_append.mp allowed.distinct).1, ?_⟩
  have bounded := allowed.bounded
  rw [List.length_append] at bounded
  omega

/-! ## Entered routes -/

theorem enters_nil_iff :
    loader.Enters ancestors uri [] ↔ loader.Allows (ancestors ++ [uri.text]) :=
  ⟨fun enters => enters.allowed,
    fun allowed => ⟨.stay uri, allowed, fun _ member => absurd member List.not_mem_nil⟩⟩

theorem enters_cons_iff {hop : Hop} {rest : Route} :
    loader.Enters ancestors uri (hop :: rest)
      ↔ loader.defines uri = true ∧ loader.Leads uri hop
        ∧ loader.Enters (ancestors ++ [uri.text]) hop.target rest := by
  constructor
  · rintro ⟨walk, allowed, defined⟩
    obtain ⟨leads, walk⟩ := walk_cons_iff.mp walk
    rw [Route.append_addresses_cons] at allowed
    exact ⟨defined uri List.mem_cons_self, leads, walk, allowed,
      fun other member => defined other (List.mem_cons_of_mem _ member)⟩
  · rintro ⟨own, leads, walk, allowed, defined⟩
    refine ⟨.step leads walk, ?_, ?_⟩
    · rw [Route.append_addresses_cons]
      exact allowed
    · intro other member
      rcases List.mem_cons.mp member with rfl | later
      · exact own
      · exact defined other later

theorem Enters.allows_start {route : Route} (enters : loader.Enters ancestors uri route) :
    loader.Allows (ancestors ++ [uri.text]) := by
  have allowed := enters.allowed
  rw [Route.addresses, List.append_cons] at allowed
  exact allowed.of_append

end Loader

/-! ## The order of routes -/

theorem flatMap_eq_flatMap_zipIdx {Entry Item : Type} (entries : List Entry)
    (block : Entry → List Item) :
    entries.flatMap block = entries.zipIdx.flatMap fun entry => block entry.1 := by
  conv_lhs => rw [← List.zipIdx_map_fst 0 entries, List.flatMap_map]

/-- What is listed link by link, with the position of the link as the first entry of
every key, is in the order of the keys. -/
theorem pairwise_flatMap_zipIdx {Entry Item : Type} (key : Item → List Nat)
    (block : Entry × Nat → List Item) (entries : List Entry)
    (starts : ∀ entry ∈ entries.zipIdx, ∀ item ∈ block entry,
      ∃ rest, key item = entry.2 :: rest)
    (sorted : ∀ entry ∈ entries.zipIdx,
      (block entry).Pairwise fun left right => key left < key right) :
    (entries.zipIdx.flatMap block).Pairwise fun left right => key left < key right := by
  have increasing : entries.zipIdx.Pairwise fun left right => left.2 < right.2 := by
    rw [← List.pairwise_map (f := Prod.snd) (R := (· < ·)), List.zipIdx_map_snd]
    exact List.pairwise_lt_range'
  rw [List.pairwise_flatMap]
  refine ⟨sorted, increasing.imp_of_mem ?_⟩
  intro left right leftMember rightMember below item itemMember other otherMember
  obtain ⟨rest, keyEq⟩ := starts left leftMember item itemMember
  obtain ⟨otherRest, otherKeyEq⟩ := starts right rightMember other otherMember
  rw [keyEq, otherKeyEq]
  exact List.cons_lt_cons_iff.mpr (.inl below)

end Typesheet

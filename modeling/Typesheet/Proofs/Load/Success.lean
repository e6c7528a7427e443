import Typesheet.Proofs.Load.Walk

/-!
Contract: a load without issues.

Owns: what has to hold at the end of a walk for a load to go well there, and the
theorem that a load is without issues exactly when it holds at the end of every
walk from the root.

The induction is on the room that the depth limit leaves, with the chain of
ancestors generalized: a namespace below a chain is sound when it is defined and
every link of it leads to a namespace that is sound below the longer chain
(`sound_iff`), and this is how a load recurses.
-/

set_option autoImplicit false

namespace Typesheet.Loader

variable (loader : Loader)

/-- The end of a route is as it should be: its namespace is defined, its references
can be read, the columns that they select are declared, no address was met before,
and the depth limit is kept. -/
structure SoundAt (ancestors : List Text) (root : NamespaceUri) (route : Route) : Prop where
  defined : loader.defines (route.endpoint root) = true
  readable : ∀ link ∈ loader.links (route.endpoint root),
    ∃ target, link.destination loader.scheme = .ok target
  distinct : (ancestors ++ route.addresses root).Nodup
  bounded : (ancestors ++ route.addresses root).length ≤ max loader.maxDepth 1
  selected : ∀ link ∈ loader.links (route.endpoint root), ∀ owner name,
    link.destination loader.scheme = .ok (owner, some name) → loader.HasColumn owner name

/-- A namespace below some ancestors is sound when the end of every walk from it
is. -/
def Sound (ancestors : List Text) (root : NamespaceUri) : Prop :=
  ∀ route, loader.Walk root route → loader.SoundAt ancestors root route

/-- A link below a chain that leads to a sound namespace, with the column that it
selects. -/
def Resolves (chain : List Text) (link : Link) : Prop :=
  ∃ owner selector, link.destination loader.scheme = .ok (owner, selector)
    ∧ owner.text ∉ chain ∧ chain.length < loader.maxDepth
    ∧ loader.Sound chain owner
    ∧ ∀ name ∈ selector, loader.HasColumn owner name

variable {loader} {ancestors : List Text} {uri : NamespaceUri}

theorem soundAt_cons_iff {hop : Hop} {rest : Route} :
    loader.SoundAt ancestors uri (hop :: rest)
      ↔ loader.SoundAt (ancestors ++ [uri.text]) hop.target rest := by
  constructor
  · rintro ⟨defined, readable, distinct, bounded, selected⟩
    rw [Route.append_addresses_cons] at distinct bounded
    exact ⟨defined, readable, distinct, bounded, selected⟩
  · rintro ⟨defined, readable, distinct, bounded, selected⟩
    rw [← Route.append_addresses_cons] at distinct bounded
    exact ⟨defined, readable, distinct, bounded, selected⟩

theorem Sound.of_leads (sound : loader.Sound ancestors uri) {hop : Hop}
    (leads : loader.Leads uri hop) : loader.Sound (ancestors ++ [uri.text]) hop.target :=
  fun route walk => soundAt_cons_iff.mp (sound (hop :: route) (.step leads walk))

private theorem resolves_of_sound (sound : loader.Sound ancestors uri) {link : Link}
    (member : link ∈ loader.links uri) :
    loader.Resolves (ancestors ++ [uri.text]) link := by
  have atRoot := sound [] (.stay uri)
  obtain ⟨⟨owner, selector⟩, destination⟩ := atRoot.readable link member
  obtain ⟨position, leads⟩ := exists_leads_of_mem_links member destination
  have below : loader.Sound (ancestors ++ [uri.text]) owner := sound.of_leads leads
  have atOwner := below [] (.stay owner)
  have allowed : loader.Allows ((ancestors ++ [uri.text]) ++ [owner.text]) :=
    ⟨atOwner.distinct, atOwner.bounded⟩
  rw [allows_append_singleton_iff (by simp)] at allowed
  refine ⟨owner, selector, destination, allowed.2.1, allowed.2.2, below, ?_⟩
  intro name isSelected
  apply atRoot.selected link member owner name
  rw [destination, Option.mem_def.mp isSelected]

/-- **Soundness level by level.**  A namespace is sound when it is defined and each
of its links resolves below the longer chain. -/
theorem sound_iff (allowed : loader.Allows (ancestors ++ [uri.text])) :
    loader.Sound ancestors uri
      ↔ loader.defines uri = true
        ∧ ∀ link ∈ loader.links uri, loader.Resolves (ancestors ++ [uri.text]) link := by
  constructor
  · intro sound
    exact ⟨(sound [] (.stay uri)).defined, fun link member => resolves_of_sound sound member⟩
  · rintro ⟨defined, resolves⟩ route walk
    -- The walk ends here, or its first hop leaves one of the links that resolve.
    cases walk with
    | stay =>
        refine ⟨defined, ?_, allowed.distinct, allowed.bounded, ?_⟩
        · intro link member
          obtain ⟨owner, selector, destination, _⟩ := resolves link member
          exact ⟨_, destination⟩
        · intro link member owner name destination
          obtain ⟨other, selector, same, _, _, _, hasColumn⟩ := resolves link member
          obtain ⟨rfl, rfl⟩ := Link.destination_unique destination same
          exact hasColumn name rfl
    | @step _ hop rest leads walk =>
        obtain ⟨owner, _, same, _, _, sound, _⟩ := resolves hop.link leads.mem_links
        obtain ⟨selector, destination⟩ := leads.2
        obtain ⟨rfl, _⟩ := Link.destination_unique destination same
        exact soundAt_cons_iff.mpr (sound rest walk)

/-- If loads one level down succeed on sound namespaces, a link leaves no issue
exactly when it resolves. -/
private theorem issue?_followLink_eq_none_iff_of_children {chain : List Text} {link : Link}
    (allowed : loader.Allows chain) (notEmpty : chain ≠ [])
    (children : chain.length < loader.maxDepth → ∀ owner : NamespaceUri,
      loader.Allows (chain ++ [owner.text]) →
        ((loader.load chain owner).schema.isOk = true ↔ loader.Sound chain owner)) :
    (loader.followLink chain link).resolution.issue? = none
      ↔ loader.Resolves chain link := by
  rw [issue?_followLink_eq_none_iff]
  unfold Resolves
  refine exists₂_congr fun owner selector => ?_
  refine and_congr_right fun _ => and_congr_right fun fresh => and_congr_right fun deeper => ?_
  have below : loader.Allows (chain ++ [owner.text]) :=
    (allows_append_singleton_iff notEmpty).mpr ⟨allowed, fresh, deeper⟩
  rw [children deeper owner below]

/-- **A load below some ancestors** is without issues exactly when its namespace is
sound below them. -/
theorem isOk_load_iff_sound (loader : Loader) (ancestors : List Text) (uri : NamespaceUri)
    (allowed : loader.Allows (ancestors ++ [uri.text])) :
    (loader.load ancestors uri).schema.isOk = true ↔ loader.Sound ancestors uri := by
  induction ancestors, uri using loader.load_induction with
  | level ancestors uri inductionHypothesis =>
      rw [isOk_load_iff_links, sound_iff allowed]
      refine and_congr_right fun _ => forall₂_congr fun link _ => ?_
      exact issue?_followLink_eq_none_iff_of_children allowed (by simp) inductionHypothesis

theorem issue?_followLink_eq_none_iff_resolves {chain : List Text} {link : Link}
    (allowed : loader.Allows chain) (notEmpty : chain ≠ []) :
    (loader.followLink chain link).resolution.issue? = none
      ↔ loader.Resolves chain link :=
  issue?_followLink_eq_none_iff_of_children allowed notEmpty fun _ owner below =>
    isOk_load_iff_sound loader chain owner below

/-- **A load succeeds exactly on well-formed reference graphs.**  Whatever a client
held before, its load of a root is without issues if and only if every walk of
references from the root, however long, ends in a defined namespace whose references
can be read and select declared columns, meets no namespace twice, and keeps the
depth limit. -/
theorem isOk_load_iff_soundAt_walks (loader : Loader) (root : NamespaceUri) (before : Schema) :
    (Client.load loader ⟨some root, before⟩).1.schema.isOk = true
      ↔ ∀ route, loader.Walk root route → loader.SoundAt [] root route :=
  isOk_load_iff_sound loader [] root (allows_root root)

end Typesheet.Loader

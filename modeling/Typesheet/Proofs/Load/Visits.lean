import Mathlib.Data.Set.Card
import Typesheet.Proofs.Load.Walk

/-!
Contract: which namespaces a load asks for, and how often.

Owns: the routes that a load enters, listed in the order in which it enters them; the
visit made at the end of a route; and the theorem that the requests for a namespace
are as many as the routes that end in it.

`enteredRoutes` follows the recursion of a load and `Enters` does not: the list is
here only to count, and `mem_enteredRoutes_iff` and `pairwise_enteredRoutes` say that
it holds every entered route and none of them twice.
-/

set_option autoImplicit false

namespace Typesheet

/-- The visit made at the end of a route. -/
def Route.visit (ancestors : List Text) (root : NamespaceUri) : Route → Visit
  | [] => ⟨ancestors, root⟩
  | hop :: rest => Route.visit (ancestors ++ [root.text]) hop.target rest

theorem Route.uri_visit (ancestors : List Text) (root : NamespaceUri) (route : Route) :
    (route.visit ancestors root).uri = route.endpoint root := by
  induction route generalizing ancestors root with
  | nil => rfl
  | cons hop rest inductionHypothesis => exact inductionHypothesis _ hop.target

theorem Route.chain_visit (ancestors : List Text) (root : NamespaceUri) (route : Route) :
    (route.visit ancestors root).ancestors ++ [(route.visit ancestors root).uri.text]
      = ancestors ++ route.addresses root := by
  induction route generalizing ancestors root with
  | nil => rfl
  | cons hop rest inductionHypothesis =>
      rw [Route.append_addresses_cons]
      exact inductionHypothesis _ hop.target

namespace Loader

/-- The routes along one link: none when it is not followed, else those below its
target, with the hop in front. -/
def routesAlong (loader : Loader) (chain : List Text) (below : NamespaceUri → List Route)
    (entry : Link × Nat) : List Route :=
  match entry.1.destination loader.scheme with
  | .error _ => []
  | .ok (owner, _) =>
      if owner.text ∈ chain then []
      else (below owner).map fun rest => ⟨entry.2, entry.1, owner⟩ :: rest

/-- The routes that a load enters, in order. -/
def enteredRoutes (loader : Loader) (ancestors : List Text) (uri : NamespaceUri) :
    List Route :=
  [] :: if loader.defines uri then
      (loader.links uri).zipIdx.flatMap <|
        loader.routesAlong (ancestors ++ [uri.text]) fun owner =>
          if (ancestors ++ [uri.text]).length < loader.maxDepth then
            enteredRoutes loader (ancestors ++ [uri.text]) owner
          else []
    else []
termination_by loader.maxDepth - ancestors.length
decreasing_by
  rename_i deeper
  rw [List.length_append, List.length_singleton] at deeper ⊢
  omega

variable {loader : Loader} {ancestors : List Text} {uri : NamespaceUri}

theorem mem_routesAlong_iff {chain : List Text} {below : NamespaceUri → List Route}
    {entry : Link × Nat} {route : Route} :
    route ∈ loader.routesAlong chain below entry
      ↔ ∃ owner selector rest, entry.1.destination loader.scheme = .ok (owner, selector)
        ∧ owner.text ∉ chain ∧ rest ∈ below owner
        ∧ route = ⟨entry.2, entry.1, owner⟩ :: rest := by
  unfold routesAlong
  cases entry.1.destination loader.scheme with
  | error error => simp
  | ok target =>
      obtain ⟨owner, selector⟩ := target
      by_cases visited : owner.text ∈ chain
      · simp [visited]
      · simp [visited, eq_comm]

/-- The routes that a load below a chain goes on with. -/
def routesBelow (loader : Loader) (chain : List Text) (owner : NamespaceUri) : List Route :=
  if chain.length < loader.maxDepth then loader.enteredRoutes chain owner else []

theorem enteredRoutes_eq (loader : Loader) (ancestors : List Text) (uri : NamespaceUri) :
    loader.enteredRoutes ancestors uri
      = [] :: if loader.defines uri then
          (loader.links uri).zipIdx.flatMap <|
            loader.routesAlong (ancestors ++ [uri.text])
              (loader.routesBelow (ancestors ++ [uri.text]))
        else [] := by
  rw [enteredRoutes]
  rfl

/-! ## The visits of a load -/

private theorem visits_followLink
    (children : (ancestors ++ [uri.text]).length < loader.maxDepth → ∀ owner,
      (loader.load (ancestors ++ [uri.text]) owner).visits
        = (loader.enteredRoutes (ancestors ++ [uri.text]) owner).map
            (Route.visit (ancestors ++ [uri.text]) owner))
    (entry : Link × Nat) :
    (loader.followLink (ancestors ++ [uri.text]) entry.1).visits
      = (loader.routesAlong (ancestors ++ [uri.text])
          (loader.routesBelow (ancestors ++ [uri.text])) entry).map
          (Route.visit ancestors uri) := by
  unfold routesAlong routesBelow
  cases loader.link_cases (ancestors ++ [uri.text]) entry.1 with
  | unreadable refused =>
      rw [followLink_of_unreadable refused, refused]
      rfl
  | circular leads visited =>
      rw [followLink_of_circular leads visited, leads]
      simp only [visited, ↓reduceIte, List.map_nil]
  | tooDeep leads fresh atLimit =>
      rw [followLink_of_tooDeep leads fresh atLimit, leads]
      simp only [fresh, Nat.not_lt.mpr atLimit, ↓reduceIte, List.map_nil]
  | @enters owner _ leads fresh deeper =>
      rw [followLink_of_enters leads fresh deeper, leads]
      simp only [fresh, deeper, ↓reduceIte, children deeper owner, List.map_map]
      rfl

/-- A load makes the visits at the ends of the routes that it enters, in order. -/
theorem visits_load_eq_map_visit (loader : Loader) (ancestors : List Text)
    (uri : NamespaceUri) :
    (loader.load ancestors uri).visits
      = (loader.enteredRoutes ancestors uri).map (Route.visit ancestors uri) := by
  induction ancestors, uri using loader.load_induction with
  | level ancestors uri inductionHypothesis =>
      rw [visits_load, enteredRoutes_eq, List.map_cons, Route.visit]
      congr 1
      split
      · rw [List.map_flatMap]
        simp only [← visits_followLink inductionHypothesis]
        exact flatMap_eq_flatMap_zipIdx _ _
      · rfl

/-! ## The listed routes -/

theorem mem_enteredRoutes_iff (allowed : loader.Allows (ancestors ++ [uri.text]))
    {route : Route} :
    route ∈ loader.enteredRoutes ancestors uri ↔ loader.Enters ancestors uri route := by
  induction ancestors, uri using loader.load_induction generalizing route with
  | level ancestors uri inductionHypothesis =>
      rw [enteredRoutes_eq]
      cases route with
      | nil => simp [enters_nil_iff, allowed]
      | cons hop rest =>
          rw [enters_cons_iff, List.mem_cons, or_iff_right (List.cons_ne_nil hop rest)]
          split
          case isFalse notDefined => simp [notDefined]
          case isTrue defined =>
            rw [List.mem_flatMap]
            constructor
            · rintro ⟨⟨link, position⟩, listed, along⟩
              obtain ⟨owner, selector, below, destination, fresh, entered, same⟩ :=
                mem_routesAlong_iff.mp along
              obtain ⟨rfl, rfl⟩ := List.cons.inj same
              unfold routesBelow at entered
              split at entered
              case isFalse => exact absurd entered List.not_mem_nil
              case isTrue deeper =>
                have longer := (allows_append_singleton_iff (by simp)).mpr
                  ⟨allowed, fresh, deeper⟩
                exact ⟨defined, ⟨List.mem_zipIdx_iff_getElem?.mp listed, selector, destination⟩,
                  (inductionHypothesis deeper owner longer).mp entered⟩
            · rintro ⟨_, ⟨listed, selector, destination⟩, enters⟩
              have longer := enters.allows_start
              obtain ⟨_, fresh, deeper⟩ := (allows_append_singleton_iff (by simp)).mp longer
              refine ⟨(hop.link, hop.position), List.mem_zipIdx_iff_getElem?.mpr listed, ?_⟩
              refine mem_routesAlong_iff.mpr
                ⟨hop.target, selector, rest, destination, fresh, ?_, rfl⟩
              unfold routesBelow
              rw [if_pos deeper]
              exact (inductionHypothesis deeper hop.target longer).mpr enters

theorem pairwise_enteredRoutes (loader : Loader) (ancestors : List Text)
    (uri : NamespaceUri) :
    (loader.enteredRoutes ancestors uri).Pairwise fun left right =>
      left.positions < right.positions := by
  induction ancestors, uri using loader.load_induction with
  | level ancestors uri inductionHypothesis =>
      rw [enteredRoutes_eq]
      have starts : ∀ entry ∈ (loader.links uri).zipIdx,
          ∀ route ∈ loader.routesAlong (ancestors ++ [uri.text])
            (loader.routesBelow (ancestors ++ [uri.text])) entry,
          ∃ rest, Route.positions route = entry.2 :: rest := by
        intro entry _ route along
        obtain ⟨owner, selector, rest, _, _, _, rfl⟩ := mem_routesAlong_iff.mp along
        exact ⟨rest.positions, rfl⟩
      refine List.pairwise_cons.mpr ⟨?_, ?_⟩
      · intro route member
        split at member
        case isFalse => exact absurd member List.not_mem_nil
        case isTrue =>
          obtain ⟨entry, listed, along⟩ := List.mem_flatMap.mp member
          obtain ⟨rest, same⟩ := starts entry listed route along
          rw [same]
          exact List.nil_lt_cons _ _
      · split
        case isFalse => exact List.Pairwise.nil
        case isTrue =>
          refine pairwise_flatMap_zipIdx Route.positions _ _ starts fun entry _ => ?_
          unfold routesAlong routesBelow
          split
          case h_1 => exact List.Pairwise.nil
          case h_2 owner _ _ =>
            split
            case isTrue => exact List.Pairwise.nil
            case isFalse =>
              rw [List.pairwise_map]
              split
              case isFalse => exact List.Pairwise.nil
              case isTrue deeper =>
                refine (inductionHypothesis deeper owner).imp fun below => ?_
                exact List.cons_lt_cons_iff.mpr (.inr ⟨rfl, below⟩)

theorem nodup_enteredRoutes (loader : Loader) (ancestors : List Text) (uri : NamespaceUri) :
    (loader.enteredRoutes ancestors uri).Nodup := by
  refine (loader.pairwise_enteredRoutes ancestors uri).imp fun below same => ?_
  subst same
  exact List.lt_irrefl _ below

/-! ## Counting requests -/

/-- **A load asks for exactly the bounded simple paths.**  Whatever a client held
before, its load of a root asks for a namespace as often as there are routes from
the root that end in it, meet no namespace twice, keep the depth limit, and go on
only from defined namespaces.  There are finitely many of them, even where
references go on to new namespaces for ever.  Every visit of the load is made below
the namespaces of such a route, and a client without a namespace asks for none. -/
theorem encard_enters_eq_count_asked (loader : Loader) (root : NamespaceUri)
    (before : Schema) :
    (∀ uri, Set.encard {route | loader.Enters [] root route ∧ route.endpoint root = uri}
        = ((Client.load loader ⟨some root, before⟩).2.count uri : ℕ))
      ∧ (∀ visit ∈ (loader.load [] root).visits, ∃ route, loader.Enters [] root route
          ∧ visit.ancestors ++ [visit.uri.text] = route.addresses root)
      ∧ (Client.load loader ⟨none, before⟩).2 = [] := by
  have listed : ∀ route,
      route ∈ loader.enteredRoutes [] root ↔ loader.Enters [] root route :=
    fun route => mem_enteredRoutes_iff (allows_root root)
  refine ⟨?_, ?_, rfl⟩
  · intro uri
    classical
    have ends : (Client.load loader ⟨some root, before⟩).2
        = (loader.enteredRoutes [] root).map (Route.endpoint root) := by
      show (loader.load [] root).visits.map Visit.uri = _
      rw [visits_load_eq_map_visit, List.map_map]
      exact List.map_congr_left fun route _ => Route.uri_visit [] root route
    have inSet : {route | loader.Enters [] root route ∧ route.endpoint root = uri}
        = (((loader.enteredRoutes [] root).filter
            fun route => route.endpoint root = uri).toFinset : Set Route) := by
      ext route
      simp [listed]
    rw [inSet, Set.encard_coe_eq_coe_finsetCard,
      List.toFinset_card_of_nodup ((loader.nodup_enteredRoutes [] root).filter _), ends,
      List.count_eq_length_filter, List.filter_map, List.length_map]
    rfl
  · intro visit made
    rw [visits_load_eq_map_visit] at made
    obtain ⟨route, member, rfl⟩ := List.mem_map.mp made
    exact ⟨route, (listed route).mp member, Route.chain_visit [] root route⟩

end Loader

end Typesheet

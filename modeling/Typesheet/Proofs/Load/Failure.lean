import Typesheet.Proofs.Issue.Branches
import Typesheet.Proofs.Load.Success

/-!
Contract: what can go wrong along the routes of a load, and how it is recorded.

Owns: the failures of a namespace and of its links, the points of a load at which
they are met, the order of these points, and the branch of the issue forest that
each of them is recorded as.

None of it refers to a load: a point is given by an entered route and by what the
source and the scheme answer at its end, and the links that fail beside it are those
that do not resolve.
-/

set_option autoImplicit false

namespace Typesheet

/-- What keeps a link from being resolved, the failures of its target apart. -/
inductive Obstacle where
  | unreadable (error : AddressError)
  | circular
  | tooDeep
  | missingColumn (owner : NamespaceUri) (name : Text)

/-- What can go wrong with a namespace: it has no answer, it is not defined, or one of
its links meets an obstacle. -/
inductive Failure where
  | unanswered (reason : Text)
  | undefined
  | atLink (position : Nat) (link : Link) (obstacle : Obstacle)

structure FailingPoint where
  route : Route
  failure : Failure

def Failure.positions : Failure → List Nat
  | unanswered _ => []
  | undefined => []
  | atLink position _ _ => [position]

/-- Where a point stands: the positions of the links that lead to it.  Points are
met in the order of their keys. -/
def FailingPoint.key (point : FailingPoint) : List Nat :=
  point.route.positions ++ point.failure.positions

/-- The point seen from the namespace that a hop leaves. -/
def FailingPoint.after (hop : Hop) (point : FailingPoint) : FailingPoint :=
  { point with route := hop :: point.route }

def Obstacle.cause (maxDepth : Nat) (chain : List Text) (link : Link) : Obstacle → Cause
  | unreadable error => .invalidReference link.site link.declared error.message
  | circular => .circular link.site link.ref.uri chain
  | tooDeep => .tooDeep link.site link.ref.uri maxDepth
  | missingColumn owner name => .missingColumn link.site link.ref.uri owner.text name

namespace Loader

variable (loader : Loader)

/-- The obstacle that a link meets below a chain.  A column is only missed in a
namespace that is sound. -/
inductive Obstructs (chain : List Text) (link : Link) : Obstacle → Prop where
  | unreadable {error : AddressError}
      (refused : link.destination loader.scheme = .error error) :
      Obstructs chain link (.unreadable error)
  | circular {owner : NamespaceUri} {selector : Option Text}
      (leads : link.destination loader.scheme = .ok (owner, selector))
      (visited : owner.text ∈ chain) :
      Obstructs chain link .circular
  | tooDeep {owner : NamespaceUri} {selector : Option Text}
      (leads : link.destination loader.scheme = .ok (owner, selector))
      (fresh : owner.text ∉ chain) (atLimit : loader.maxDepth ≤ chain.length) :
      Obstructs chain link .tooDeep
  | missingColumn {owner : NamespaceUri} {name : Text}
      (leads : link.destination loader.scheme = .ok (owner, some name))
      (fresh : owner.text ∉ chain) (deeper : chain.length < loader.maxDepth)
      (sound : loader.Sound chain owner) (missing : ¬ loader.HasColumn owner name) :
      Obstructs chain link (.missingColumn owner name)

/-- The failures of a namespace whose address ends the chain. -/
inductive Fails (chain : List Text) (uri : NamespaceUri) : Failure → Prop where
  | unanswered {reason : Text} (refused : loader.source.definition uri = .error reason) :
      Fails chain uri (.unanswered reason)
  | undefined {listing : Listing} {registration : Registration}
      (answered : loader.source.definition uri = .ok (listing, registration))
      (notDefined : registration.isDefined = false) :
      Fails chain uri .undefined
  | atLink {position : Nat} {link : Link} {obstacle : Obstacle}
      (defined : loader.defines uri = true)
      (listed : (loader.links uri)[position]? = some link)
      (obstructs : loader.Obstructs chain link obstacle) :
      Fails chain uri (.atLink position link obstacle)

/-- A failure is met at the end of a route that the load enters. -/
structure FailsAt (ancestors : List Text) (root : NamespaceUri) (point : FailingPoint) :
    Prop where
  enters : loader.Enters ancestors root point.route
  fails : loader.Fails (ancestors ++ point.route.addresses root) (point.route.endpoint root)
    point.failure

/-! ## How a failure is recorded -/

/-- The node that groups the failures of a column when there are several. -/
def groupNode (key : Text) (failures : Nat) : List Issue.Node :=
  if 2 ≤ failures then
    [(.reference, "Column ".toList ++ Cause.quoted key ++ " has ".toList
      ++ Text.ofNat failures ++ " unresolved references".toList)]
  else []

open scoped Classical in
/-- The node around a failure at a link, by the number of links of its column that do
not resolve. -/
noncomputable def groupNodes (chain : List Text) : Link → List Issue.Node
  | .base .. => []
  | .column field _ =>
      groupNode field.key <| (columnLinks field).countP fun link => ¬ loader.Resolves chain link

/-- The branch that a failure at the end of a route is recorded as: a node for each
followed link, inside the one that groups the failures of its column, and at last
the failure.  A link that leads to an undefined namespace has no node beside it. -/
noncomputable def branch (ancestors : List Text) (root : NamespaceUri) :
    Route → Failure → List Issue.Node
  | [], .unanswered reason => [(Cause.loadFailed root.text reason).issue.node]
  | [], .undefined => [(Cause.definitionNotFound root.text).issue.node]
  | [], .atLink _ link obstacle =>
      loader.groupNodes (ancestors ++ [root.text]) link
        ++ [(obstacle.cause loader.maxDepth (ancestors ++ [root.text]) link).issue.node]
  | hop :: rest, failure =>
      loader.groupNodes (ancestors ++ [root.text]) hop.link
        ++ match rest, failure with
          | [], .undefined =>
              [(Cause.namespaceNotFound hop.link.site hop.link.ref.uri).issue.node]
          | _, _ =>
              (Cause.referenceFailed hop.link.site hop.link.ref.uri []).issue.node
                :: branch (ancestors ++ [root.text]) hop.target rest failure

/-! ## Failures and soundness -/

variable {loader} {ancestors chain : List Text} {uri : NamespaceUri}

/-- A link that can be entered is only obstructed by the column that it selects. -/
theorem Obstructs.missing_of_enters {link : Link} {owner : NamespaceUri}
    {selector : Option Text} {obstacle : Obstacle}
    (obstructs : loader.Obstructs chain link obstacle)
    (leads : link.destination loader.scheme = .ok (owner, selector))
    (fresh : owner.text ∉ chain) (deeper : chain.length < loader.maxDepth) :
    loader.Sound chain owner ∧ ∃ name ∈ selector, ¬ loader.HasColumn owner name := by
  cases obstructs with
  | unreadable refused =>
      rw [leads] at refused
      exact absurd refused (by simp)
  | circular same visited =>
      obtain ⟨rfl, rfl⟩ := Link.destination_unique leads same
      exact absurd visited fresh
  | tooDeep _ _ atLimit => exact absurd deeper (Nat.not_lt.mpr atLimit)
  | missingColumn same _ _ sound missing =>
      obtain ⟨rfl, rfl⟩ := Link.destination_unique leads same
      exact ⟨sound, _, rfl, missing⟩

theorem Resolves.not_obstructs {link : Link} {obstacle : Obstacle}
    (resolves : loader.Resolves chain link) : ¬ loader.Obstructs chain link obstacle := by
  obtain ⟨owner, selector, leads, fresh, deeper, _, hasColumns⟩ := resolves
  intro obstructs
  obtain ⟨_, name, selected, missing⟩ := obstructs.missing_of_enters leads fresh deeper
  exact missing (hasColumns name selected)

/-- Below a namespace that is sound, nothing fails. -/
theorem Sound.not_failsAt {point : FailingPoint} (sound : loader.Sound ancestors uri) :
    ¬ loader.FailsAt ancestors uri point := by
  obtain ⟨route, failure⟩ := point
  rintro ⟨enters, fails⟩
  induction route generalizing ancestors uri with
  | nil =>
      obtain ⟨defined, resolves⟩ := (sound_iff (enters_nil_iff.mp enters)).mp sound
      change loader.Fails (ancestors ++ [uri.text]) uri failure at fails
      unfold defines at defined
      cases fails with
      | unanswered refused => simp [refused] at defined
      | undefined answered notDefined => simp [answered, notDefined] at defined
      | atLink _ listed obstructs =>
          exact (resolves _ (List.mem_of_getElem? listed)).not_obstructs obstructs
  | cons hop rest inductionHypothesis =>
      rw [Route.append_addresses_cons] at fails
      exact inductionHypothesis (sound.of_leads (enters_cons_iff.mp enters).2.1)
        (enters_cons_iff.mp enters).2.2 fails

/-! ## The failing points of a level -/

theorem failsAt_nil_iff {failure : Failure} :
    loader.FailsAt ancestors uri ⟨[], failure⟩
      ↔ loader.Allows (ancestors ++ [uri.text])
        ∧ loader.Fails (ancestors ++ [uri.text]) uri failure := by
  constructor
  · rintro ⟨enters, fails⟩
    exact ⟨enters_nil_iff.mp enters, fails⟩
  · rintro ⟨allowed, fails⟩
    exact ⟨enters_nil_iff.mpr allowed, fails⟩

theorem failsAt_after_iff {hop : Hop} {point : FailingPoint} :
    loader.FailsAt ancestors uri (point.after hop)
      ↔ loader.defines uri = true ∧ loader.Leads uri hop
        ∧ loader.FailsAt (ancestors ++ [uri.text]) hop.target point := by
  have addresses : ancestors ++ Route.addresses uri (point.after hop).route
      = (ancestors ++ [uri.text]) ++ point.route.addresses hop.target :=
    Route.append_addresses_cons ancestors uri hop point.route
  constructor
  · rintro ⟨enters, fails⟩
    obtain ⟨defined, leads, enters⟩ := enters_cons_iff.mp enters
    rw [addresses] at fails
    exact ⟨defined, leads, enters, fails⟩
  · rintro ⟨defined, leads, enters, fails⟩
    rw [← addresses] at fails
    exact ⟨enters_cons_iff.mpr ⟨defined, leads, enters⟩, fails⟩

theorem FailsAt.not_obstructs {link : Link} {owner : NamespaceUri} {selector : Option Text}
    {point : FailingPoint} {obstacle : Obstacle} (fails : loader.FailsAt chain owner point)
    (notEmpty : chain ≠ []) (leads : link.destination loader.scheme = .ok (owner, selector)) :
    ¬ loader.Obstructs chain link obstacle := by
  obtain ⟨_, fresh, deeper⟩ :=
    (allows_append_singleton_iff notEmpty).mp fails.enters.allows_start
  intro obstructs
  exact (obstructs.missing_of_enters leads fresh deeper).1.not_failsAt fails

theorem FailsAt.route_eq_nil {point : FailingPoint}
    (fails : loader.FailsAt ancestors uri point) (notDefined : loader.defines uri ≠ true) :
    point.route = [] := by
  obtain ⟨route, failure⟩ := point
  cases route with
  | nil => rfl
  | cons hop rest => exact absurd (enters_cons_iff.mp fails.enters).1 notDefined

theorem failsAt_iff_of_unanswered (allowed : loader.Allows (ancestors ++ [uri.text]))
    {reason : Text} (refused : loader.source.definition uri = .error reason)
    {point : FailingPoint} :
    loader.FailsAt ancestors uri point ↔ point = ⟨[], .unanswered reason⟩ := by
  have notDefined : loader.defines uri ≠ true := by simp [defines, refused]
  constructor
  · intro failsAt
    obtain ⟨route, failure⟩ := point
    obtain rfl : route = [] := failsAt.route_eq_nil notDefined
    cases (failsAt_nil_iff.mp failsAt).2 with
    | unanswered other =>
        rw [refused] at other
        rw [Except.error.inj other]
    | undefined answered =>
        rw [refused] at answered
        exact absurd answered (by simp)
    | atLink defined => exact absurd defined notDefined
  · rintro rfl
    exact failsAt_nil_iff.mpr ⟨allowed, .unanswered refused⟩

theorem failsAt_iff_of_undefined (allowed : loader.Allows (ancestors ++ [uri.text]))
    {listing : Listing} {registration : Registration}
    (answered : loader.source.definition uri = .ok (listing, registration))
    (undefined : registration.isDefined = false) {point : FailingPoint} :
    loader.FailsAt ancestors uri point ↔ point = ⟨[], .undefined⟩ := by
  have notDefined : loader.defines uri ≠ true := by simp [defines, answered, undefined]
  constructor
  · intro failsAt
    obtain ⟨route, failure⟩ := point
    obtain rfl : route = [] := failsAt.route_eq_nil notDefined
    cases (failsAt_nil_iff.mp failsAt).2 with
    | unanswered refused =>
        rw [answered] at refused
        exact absurd refused (by simp)
    | undefined => rfl
    | atLink defined => exact absurd defined notDefined
  · rintro rfl
    exact failsAt_nil_iff.mpr ⟨allowed, .undefined answered undefined⟩

/-- A defined namespace fails where a link of it meets an obstacle, and where the
namespace that a link leads to fails. -/
theorem failsAt_iff_of_defines (allowed : loader.Allows (ancestors ++ [uri.text]))
    (defined : loader.defines uri = true) {point : FailingPoint} :
    loader.FailsAt ancestors uri point
      ↔ (∃ position link obstacle, (loader.links uri)[position]? = some link
          ∧ loader.Obstructs (ancestors ++ [uri.text]) link obstacle
          ∧ point = ⟨[], .atLink position link obstacle⟩)
        ∨ ∃ hop inner, loader.Leads uri hop
          ∧ loader.FailsAt (ancestors ++ [uri.text]) hop.target inner
          ∧ point = inner.after hop := by
  constructor
  · intro failsAt
    obtain ⟨route, failure⟩ := point
    cases route with
    | nil =>
        have isDefined := defined
        unfold defines at isDefined
        cases (failsAt_nil_iff.mp failsAt).2 with
        | unanswered refused => simp [refused] at isDefined
        | undefined answered notDefined => simp [answered, notDefined] at isDefined
        | atLink _ listed obstructs => exact .inl ⟨_, _, _, listed, obstructs, rfl⟩
    | cons hop rest =>
        let inner : FailingPoint := ⟨rest, failure⟩
        change loader.FailsAt ancestors uri (inner.after hop) at failsAt
        obtain ⟨_, leads, fails⟩ := failsAt_after_iff.mp failsAt
        exact .inr ⟨hop, inner, leads, fails, rfl⟩
  · rintro (⟨position, link, obstacle, listed, obstructs, rfl⟩ | ⟨hop, inner, leads, fails, rfl⟩)
    · exact failsAt_nil_iff.mpr ⟨allowed, .atLink defined listed obstructs⟩
    · exact failsAt_after_iff.mpr ⟨defined, leads, fails⟩

end Loader

end Typesheet

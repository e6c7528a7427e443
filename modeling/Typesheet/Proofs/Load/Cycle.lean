import Typesheet.Proofs.Issue.Enclosing
import Typesheet.Proofs.Load.Kinds
import Typesheet.Proofs.Load.Visits

/-!
Contract: a circular reference is reported with the path that it closes.

Owns: the references that a namespace makes, the ways down that a load follows, the references at
the end of a way that lead back to it, and the theorem that the circular references among the
issues of a load are these, each below one failed reference for every step of its way.

The chain of a circular reference is built on the way down and the issues around it on the way
back up.  Both inductions therefore go along the way with the chain generalized: an issue is
followed down to its reference (`exists_way_of_occursUnder`), and a reference back up to its issue
(`exists_occursUnder_of_meetsCircle`).
-/

set_option autoImplicit false

namespace Typesheet

def Route.links (route : Route) : List Link :=
  route.map Hop.link

/-- The addresses on a route as its references spell them. -/
def Route.uris (route : Route) : List Text :=
  route.links.map fun link => link.ref.uri

namespace Loader

/-! ## Ways down -/

/-- A namespace makes a reference: in its implements clause, or anywhere in the type of a
column. -/
inductive RefersAt (loader : Loader) (uri : NamespaceUri) : Site → Ref → Prop where
  | base (hasBase : loader.baseOf uri ≠ []) :
      RefersAt loader uri (.implements uri.text)
        (Reference.toNamespace (Address.normalize (loader.baseOf uri)) false)
  | column {field : Field} {ref : Ref} (declared : field ∈ loader.columnsOf uri)
      (member : ref ∈ field.type.references) : RefersAt loader uri (.column field.key) ref

/-- A way that a load follows down from a namespace, link by link. -/
inductive Descends (loader : Loader) (answers : ChangingSource) :
    List Link → List Text → NamespaceUri → Route → Prop where
  | stay (trail : List Link) (ancestors : List Text) (uri : NamespaceUri) :
      Descends loader answers trail ancestors uri []
  | step {trail : List Link} {ancestors : List Text} {uri : NamespaceUri} {hop : Hop}
      {rest : Route}
      (placed : ((loader.facing answers trail).links uri)[hop.position]? = some hop.link)
      (follows : loader.Follows answers trail ancestors uri hop.link hop.target)
      (beyond : Descends loader answers (trail ++ [hop.link]) (ancestors ++ [uri.text])
        hop.target rest) :
      Descends loader answers trail ancestors uri (hop :: rest)

/-- A defined namespace refers to one on the chain. -/
structure LeadsBack (loader : Loader) (answers : ChangingSource) (trail : List Link)
    (chain : List Text) (uri : NamespaceUri) (site : Site) (ref : Ref) : Prop where
  defined : (loader.facing answers trail).defines uri = true
  refers : (loader.facing answers trail).RefersAt uri site ref
  onChain : ∃ owner selector, destination loader.scheme ref = .ok (owner, selector)
    ∧ owner.text ∈ chain

/-- A load comes down a way and meets a reference there that leads back to it. -/
structure MeetsCircle (loader : Loader) (answers : ChangingSource) (trail : List Link)
    (ancestors : List Text) (root : NamespaceUri) (route : Route) (site : Site) (ref : Ref) :
    Prop where
  descends : loader.Descends answers trail ancestors root route
  leadsBack : loader.LeadsBack answers (trail ++ route.links)
    (ancestors ++ route.addresses root) (route.endpoint root) site ref

variable {loader : Loader} {answers : ChangingSource} {trail : List Link}
  {ancestors chain : List Text} {uri : NamespaceUri} {link : Link} {site : Site} {ref : Ref}
  {issue failure : Issue} {enclosing inner : List Issue}

theorem meetsCircle_nil_iff :
    loader.MeetsCircle answers trail ancestors uri [] site ref
      ↔ loader.LeadsBack answers trail (ancestors ++ [uri.text]) uri site ref := by
  constructor
  · rintro ⟨-, leadsBack⟩
    simpa [Route.links, Route.addresses, Route.endpoint] using leadsBack
  · intro leadsBack
    exact ⟨.stay trail ancestors uri,
      by simpa [Route.links, Route.addresses, Route.endpoint] using leadsBack⟩

theorem meetsCircle_cons_iff {hop : Hop} {rest : Route} :
    loader.MeetsCircle answers trail ancestors uri (hop :: rest) site ref
      ↔ ((loader.facing answers trail).links uri)[hop.position]? = some hop.link
        ∧ loader.Follows answers trail ancestors uri hop.link hop.target
        ∧ loader.MeetsCircle answers (trail ++ [hop.link]) (ancestors ++ [uri.text]) hop.target
          rest site ref := by
  have sameEnd : loader.LeadsBack answers (trail ++ Route.links (hop :: rest))
        (ancestors ++ Route.addresses uri (hop :: rest)) (Route.endpoint uri (hop :: rest)) site ref
      ↔ loader.LeadsBack answers ((trail ++ [hop.link]) ++ rest.links)
        ((ancestors ++ [uri.text]) ++ rest.addresses hop.target) (rest.endpoint hop.target)
        site ref := by
    rw [Route.append_addresses_cons, List.append_assoc trail]
    rfl
  constructor
  · rintro ⟨descends, leadsBack⟩
    cases descends with
    | step placed follows beyond => exact ⟨placed, follows, beyond, sameEnd.mp leadsBack⟩
  · rintro ⟨placed, follows, beyond, leadsBack⟩
    exact ⟨.step placed follows beyond, sameEnd.mpr leadsBack⟩

/-! ## References and links -/

theorem refersAt_of_mem_links (listed : link ∈ loader.links uri) :
    loader.RefersAt uri link.site link.ref := by
  rcases List.mem_append.mp listed with inBase | inColumns
  · unfold baseLinks at inBase
    split at inBase
    case isTrue => exact absurd inBase List.not_mem_nil
    case isFalse hasBase =>
      rw [List.mem_singleton.mp inBase]
      exact .base hasBase
  · obtain ⟨field, declared, linked⟩ := List.mem_flatMap.mp inColumns
    obtain ⟨ref, first, rfl⟩ := List.mem_map.mp linked
    exact .column declared (mem_of_mem_firstPerUri first)

/-- Every reference has a link of the same site, address and destination. -/
theorem exists_link_of_refersAt (refers : loader.RefersAt uri site ref) :
    ∃ link ∈ loader.links uri, link.site = site ∧ link.ref.uri = ref.uri
      ∧ link.destination loader.scheme = destination loader.scheme ref := by
  cases refers with
  | base hasBase => exact ⟨_, base_mem_links hasBase, rfl, rfl, rfl⟩
  | column declared member =>
      obtain ⟨link, linked, sameUri, sameDestination⟩ :=
        exists_link_of_mem_references declared member
      obtain ⟨first, -, rfl⟩ := List.mem_map.mp linked
      exact ⟨_, mem_links_of_mem_columnLinks declared linked, rfl, sameUri, sameDestination⟩

/-- What holds a reference is a column key or a namespace address, and neither has a back quote
in it. -/
theorem backQuote_notMem_holder (refers : loader.RefersAt uri site ref) :
    Issue.backQuote ∉ site.holder := by
  cases refers with
  | base => exact fun member =>
      absurd (Address.isAddressChar_of_isNamespace uri.wellFormed member).1 (by decide)
  | @column field ref declared =>
      intro member
      unfold columnsOf at declared
      split at declared
      case h_2 => exact absurd declared List.not_mem_nil
      case h_1 =>
        obtain ⟨entry, -, made⟩ := mem_declaredColumns_iff.mp declared
        obtain ⟨isKey, -⟩ := declaredColumn_eq_some_iff.mp made
        have letters := (Bool.and_eq_true_iff.mp isKey).2
        exact absurd (List.all_eq_true.mp letters _ member) (by decide)

/-! ## The issues of one level -/

section Level

variable {resolution : Link → Resolution} {failures : List Issue}

/-- The issue of a column stands around its failures, or is the only one of them; either way it
adds no address. -/
theorem exists_occursUnder_columnIssue (key : Text) (occurs : issue.OccursUnder inner failures) :
    ∃ enclosing, issue.OccursUnder enclosing (columnIssue key failures).toList
      ∧ enclosing.filterMap Issue.failedUri? = inner.filterMap Issue.failedUri? := by
  rcases failures with _ | ⟨first, _ | ⟨second, rest⟩⟩
  · exact absurd occurs Issue.not_occursUnder_nil
  · exact ⟨inner, occurs, rfl⟩
  · exact ⟨_, .inside (List.mem_singleton_self _) occurs,
      List.filterMap_cons_none (Cause.failedUri?_unresolvedReferences key _)⟩

theorem exists_occursUnder_failures {key : Text} (kind : issue.kind ≠ .reference)
    (occurs : issue.OccursUnder enclosing (columnIssue key failures).toList) :
    ∃ inner, issue.OccursUnder inner failures
      ∧ enclosing.filterMap Issue.failedUri? = inner.filterMap Issue.failedUri? := by
  rcases failures with _ | ⟨first, _ | ⟨second, rest⟩⟩
  · exact absurd occurs Issue.not_occursUnder_nil
  · exact ⟨enclosing, occurs, rfl⟩
  · rcases Issue.occursUnder_singleton_iff.mp occurs with ⟨-, rfl⟩ | ⟨inner, rfl, below⟩
    · exact absurd rfl kind
    · exact ⟨inner, below,
        List.filterMap_cons_none (Cause.failedUri?_unresolvedReferences key _)⟩

/-- What a link leaves is found among the issues of its namespace. -/
theorem exists_occursUnder_levelIssues (listed : link ∈ loader.links uri)
    (failed : (resolution link).issue? = some failure)
    (occurs : issue.OccursUnder inner [failure]) :
    ∃ enclosing, issue.OccursUnder enclosing (loader.levelIssues resolution uri)
      ∧ enclosing.filterMap Issue.failedUri? = inner.filterMap Issue.failedUri? := by
  rcases List.mem_append.mp listed with inBase | inColumns
  · have recorded : failure ∈ (loader.baseLinks uri).filterMap fun other =>
        (resolution other).issue? := List.mem_filterMap.mpr ⟨link, inBase, failed⟩
    exact ⟨inner, Issue.occursUnder_iff_exists_mem.mpr
      ⟨failure, List.mem_append_left _ recorded, occurs⟩, rfl⟩
  · obtain ⟨field, declared, linked⟩ := List.mem_flatMap.mp inColumns
    have inField : failure ∈ columnFailures resolution field :=
      List.mem_filterMap.mpr ⟨link, linked, failed⟩
    obtain ⟨enclosing, inColumn, sameUris⟩ := exists_occursUnder_columnIssue field.key
      (Issue.occursUnder_iff_exists_mem.mpr ⟨failure, inField, occurs⟩)
    refine ⟨enclosing, inColumn.mono fun recorded member => ?_, sameUris⟩
    apply List.mem_append_right
    exact List.mem_filterMap.mpr ⟨field, declared, Option.mem_toList.mp member⟩

/-- What is found among the issues of a namespace, groups apart, one of its links left. -/
theorem exists_link_of_occursUnder_levelIssues (kind : issue.kind ≠ .reference)
    (occurs : issue.OccursUnder enclosing (loader.levelIssues resolution uri)) :
    ∃ link ∈ loader.links uri, ∃ failure inner, (resolution link).issue? = some failure
      ∧ issue.OccursUnder inner [failure]
      ∧ enclosing.filterMap Issue.failedUri? = inner.filterMap Issue.failedUri? := by
  obtain ⟨outer, recorded, below⟩ := Issue.occursUnder_iff_exists_mem.mp occurs
  rcases List.mem_append.mp recorded with inBase | inColumns
  · obtain ⟨link, listed, failed⟩ := List.mem_filterMap.mp inBase
    exact ⟨link, List.mem_append_left _ listed, outer, enclosing, failed, below, rfl⟩
  · obtain ⟨field, declared, ofColumn⟩ := List.mem_filterMap.mp inColumns
    have inColumn : issue.OccursUnder enclosing
        (columnIssue field.key (columnFailures resolution field)).toList := by
      rwa [ofColumn]
    obtain ⟨inner, inFailures, sameUris⟩ := exists_occursUnder_failures kind inColumn
    obtain ⟨failure, inField, belowFailure⟩ := Issue.occursUnder_iff_exists_mem.mp inFailures
    obtain ⟨link, linked, failed⟩ := List.mem_filterMap.mp inField
    exact ⟨link, mem_links_of_mem_columnLinks declared linked, failure, inner, failed,
      belowFailure, sameUris⟩

end Level

/-! ## The issue of one link -/

section OneLink

variable {child : chain.length < loader.maxDepth → NamespaceUri → Schema}

/-- **What a followed link can leave**: that the column is missing, that the namespace is, or a
failed reference with the issues of the namespace. -/
theorem issue?_settle_cases {address : Text} {owner : NamespaceUri} {selector : Option Text}
    {schema : Schema} (failed : (settle site address owner selector schema).issue? = some failure) :
    (∃ name, failure = (Cause.missingColumn site address owner.text name).issue)
      ∨ failure = (Cause.namespaceNotFound site address).issue
      ∨ failure = (Cause.referenceFailed site address schema.issues).issue := by
  unfold settle at failed
  split at failed
  case isTrue =>
    rw [← Option.some.inj failed]
    unfold childIssue
    split
    case h_1 => exact .inr (.inl rfl)
    case h_2 => exact .inr (.inr rfl)
  case isFalse =>
    cases selector with
    | none => exact absurd failed (by simp [Resolution.issue?])
    | some name =>
        cases found : schema.columns.any (Reference.selects name) with
        | true => simp [found, Resolution.issue?] at failed
        | false =>
            refine .inl ⟨name, ?_⟩
            simpa [found, Resolution.issue?] using failed.symm

/-- A circular reference is found below a followed link only as one of the issues of its
namespace, inside the failed reference. -/
theorem exists_below_of_settle {address : Text} {owner : NamespaceUri} {selector : Option Text}
    {schema : Schema} (circular : issue.kind = .circularReference)
    (failed : (settle site address owner selector schema).issue? = some failure)
    (occurs : issue.OccursUnder enclosing [failure]) :
    ∃ below, enclosing = (Cause.referenceFailed site address schema.issues).issue :: below
      ∧ issue.OccursUnder below schema.issues := by
  rcases issue?_settle_cases failed with ⟨name, rfl⟩ | rfl | rfl
  · obtain ⟨-, rfl⟩ := Issue.occursUnder_leaf_iff.mp occurs
    exact absurd circular IssueKind.noConfusion
  · obtain ⟨-, rfl⟩ := Issue.occursUnder_leaf_iff.mp occurs
    exact absurd circular IssueKind.noConfusion
  · rcases Issue.occursUnder_singleton_iff.mp occurs with ⟨-, rfl⟩ | ⟨below, rfl, inSchema⟩
    · exact absurd circular IssueKind.noConfusion
    · exact ⟨below, rfl, inSchema⟩

/-- **Where a circular reference below a link comes from**: from the link itself, which leads
back to the chain, or from the namespace that it was followed to. -/
theorem circular_below_link (circular : issue.kind = .circularReference)
    (failed : (loader.resolveTo chain link child).issue? = some failure)
    (occurs : issue.OccursUnder enclosing [failure]) :
    (∃ owner selector, link.destination loader.scheme = .ok (owner, selector)
        ∧ owner.text ∈ chain ∧ enclosing = []
        ∧ issue = (Cause.circular link.site link.ref.uri chain).issue)
      ∨ ∃ owner selector below, ∃ deeper : chain.length < loader.maxDepth,
        link.destination loader.scheme = .ok (owner, selector) ∧ owner.text ∉ chain
          ∧ enclosing = (Cause.referenceFailed link.site link.ref.uri
              (child deeper owner).issues).issue :: below
          ∧ issue.OccursUnder below (child deeper owner).issues := by
  cases loader.link_cases chain link with
  | unreadable refused =>
      rw [resolveTo_of_unreadable refused] at failed
      obtain rfl := Option.some.inj failed
      obtain ⟨-, rfl⟩ := Issue.occursUnder_leaf_iff.mp occurs
      exact absurd circular IssueKind.noConfusion
  | circular leads visited =>
      rw [resolveTo_of_circular leads visited] at failed
      obtain rfl := Option.some.inj failed
      obtain ⟨isEmpty, same⟩ := Issue.occursUnder_leaf_iff.mp occurs
      exact .inl ⟨_, _, leads, visited, isEmpty, same⟩
  | tooDeep leads fresh atLimit =>
      rw [resolveTo_of_tooDeep leads fresh atLimit] at failed
      obtain rfl := Option.some.inj failed
      obtain ⟨-, rfl⟩ := Issue.occursUnder_leaf_iff.mp occurs
      exact absurd circular IssueKind.noConfusion
  | enters leads fresh deeper =>
      rw [resolveTo_of_enters leads fresh deeper] at failed
      obtain ⟨below, isOuter, inChild⟩ := exists_below_of_settle circular failed occurs
      exact .inr ⟨_, _, below, deeper, leads, fresh, isOuter, inChild⟩

end OneLink

/-! ## Down to a reference and back up to its issue -/

/-- **Every circular reference comes from a way.**  By induction along the load, with the chain
and the enclosing issues generalized: each followed link takes one failed reference off them. -/
theorem exists_way_of_occursUnder (circular : issue.kind = .circularReference)
    (occurs : issue.OccursUnder enclosing (loader.schemaFrom answers trail ancestors uri).issues) :
    ∃ route site ref, loader.MeetsCircle answers trail ancestors uri route site ref
      ∧ enclosing.filterMap Issue.failedUri? = route.uris
      ∧ issue = (Cause.circular site ref.uri (ancestors ++ route.addresses uri)).issue := by
  induction ancestors, uri using loader.load_induction generalizing trail enclosing with
  | level ancestors uri inductionHypothesis =>
      rcases definition_cases (loader.facing answers trail) uri with
        ⟨reason, refused⟩ | undefined | defined
      · rw [schemaFrom_of_unanswered refused] at occurs
        obtain ⟨-, rfl⟩ := Issue.occursUnder_leaf_iff.mp occurs
        exact absurd circular IssueKind.noConfusion
      · rw [schemaFrom_of_lacksDefinition undefined] at occurs
        obtain ⟨-, rfl⟩ := Issue.occursUnder_leaf_iff.mp occurs
        exact absurd circular IssueKind.noConfusion
      · rw [schemaFrom_eq, (assemble_of_defines _ defined).2.2] at occurs
        obtain ⟨link, listed, failure, inner, failed, belowFailure, sameUris⟩ :=
          exists_link_of_occursUnder_levelIssues (by simp [circular]) occurs
        have refers := refersAt_of_mem_links listed
        rcases circular_below_link circular failed belowFailure with
          ⟨owner, selector, leads, visited, rfl, same⟩
            | ⟨owner, selector, below, deeper, leads, fresh, rfl, inChild⟩
        · refine ⟨[], link.site, link.ref, ?_, sameUris, same⟩
          exact meetsCircle_nil_iff.mpr ⟨defined, refers, owner, selector, leads, visited⟩
        · obtain ⟨route, site, ref, meets, uris, same⟩ := inductionHypothesis deeper owner inChild
          obtain ⟨position, placed⟩ := List.mem_iff_getElem?.mp listed
          have named := Cause.failedUri?_referenceFailed (backQuote_notMem_holder refers)
            link.ref.uri (loader.schemaFrom answers (trail ++ [link]) (ancestors ++ [uri.text])
              owner).issues
          refine ⟨⟨position, link, owner⟩ :: route, site, ref,
            meetsCircle_cons_iff.mpr
              ⟨placed, ⟨defined, listed, ⟨selector, leads⟩, fresh, deeper⟩, meets⟩, ?_, ?_⟩
          · rw [sameUris, List.filterMap_cons_some named, uris]
            rfl
          · rw [same, Route.append_addresses_cons]

/-- A namespace with a circular reference among its issues leaves a failed reference with all of
them. -/
theorem issue?_resolutionFrom_of_occursUnder {owner : NamespaceUri}
    (follows : loader.Follows answers trail ancestors uri link owner)
    (circular : issue.kind = .circularReference)
    (occurs : issue.OccursUnder enclosing
      (loader.schemaFrom answers (trail ++ [link]) (ancestors ++ [uri.text]) owner).issues) :
    let child := loader.schemaFrom answers (trail ++ [link]) (ancestors ++ [uri.text]) owner
    (loader.resolutionFrom answers trail ancestors uri link).issue?
      = some (Cause.referenceFailed link.site link.ref.uri child.issues).issue := by
  intro child
  have notLacking : ¬ (loader.facing answers (trail ++ [link])).LacksDefinition owner := by
    intro lacks
    rw [schemaFrom_of_lacksDefinition lacks] at occurs
    obtain ⟨-, rfl⟩ := Issue.occursUnder_leaf_iff.mp occurs
    exact absurd circular IssueKind.noConfusion
  have notOk : child.isOk = false := by
    rw [Schema.isOk, List.isEmpty_eq_false_iff]
    intro none
    change issue.OccursUnder enclosing child.issues at occurs
    rw [none] at occurs
    exact Issue.not_occursUnder_nil occurs
  have settled (selector : Option Text) : settle link.site link.ref.uri owner selector child
      = .failed (childIssue link.site link.ref.uri child.issues) := if_pos notOk
  obtain ⟨selector, leads⟩ := follows.leads
  unfold resolutionFrom
  rw [resolveTo_of_enters leads follows.fresh follows.deeper, settled selector,
    childIssue_of_fromReference fun _ => fromReference_of_mem_issues notLacking]
  rfl

/-- **Every way that meets a circle is reported.**  By induction on the way: each step puts one
failed reference around the issues of the namespace that it leads to. -/
theorem exists_occursUnder_of_meetsCircle {route : Route}
    (meets : loader.MeetsCircle answers trail ancestors uri route site ref) :
    ∃ enclosing,
      (Cause.circular site ref.uri (ancestors ++ route.addresses uri)).issue.OccursUnder enclosing
          (loader.schemaFrom answers trail ancestors uri).issues
        ∧ enclosing.filterMap Issue.failedUri? = route.uris := by
  induction route generalizing trail ancestors uri with
  | nil =>
      obtain ⟨defined, refers, owner, selector, leads, visited⟩ := meetsCircle_nil_iff.mp meets
      obtain ⟨link, listed, sameSite, sameUri, sameDestination⟩ := exists_link_of_refersAt refers
      have failed : (loader.resolutionFrom answers trail ancestors uri link).issue?
          = some (Cause.circular site ref.uri (ancestors ++ [uri.text])).issue := by
        have linkLeads : link.destination loader.scheme = .ok (owner, selector) :=
          sameDestination.trans leads
        unfold resolutionFrom
        rw [resolveTo_of_circular linkLeads visited, sameSite, sameUri]
        rfl
      rw [schemaFrom_eq, (assemble_of_defines _ defined).2.2]
      exact exists_occursUnder_levelIssues listed failed (.here (List.mem_singleton_self _))
  | cons hop rest inductionHypothesis =>
      obtain ⟨-, follows, beyond⟩ := meetsCircle_cons_iff.mp meets
      obtain ⟨below, inChild, uris⟩ := inductionHypothesis beyond
      have failed := issue?_resolutionFrom_of_occursUnder follows rfl inChild
      have named := Cause.failedUri?_referenceFailed
        (backQuote_notMem_holder (refersAt_of_mem_links follows.listed)) hop.link.ref.uri
        (loader.schemaFrom answers (trail ++ [hop.link]) (ancestors ++ [uri.text])
          hop.target).issues
      obtain ⟨enclosing, inLevel, sameUris⟩ := exists_occursUnder_levelIssues follows.listed failed
        (.inside (List.mem_singleton_self _) inChild)
      refine ⟨enclosing, ?_, ?_⟩
      · rw [Route.append_addresses_cons, schemaFrom_eq,
          (assemble_of_defines _ follows.defined).2.2]
        exact inLevel
      · rw [sameUris, List.filterMap_cons_some named, uris]
        rfl

/-- A reference that leads back has a link that fails whatever its namespace would load as. -/
theorem exists_link_of_leadsBack (back : loader.LeadsBack answers trail chain uri site ref) :
    ∃ link ∈ (loader.facing answers trail).links uri, link.site = site ∧ link.ref.uri = ref.uri
      ∧ ∀ child, loader.resolveTo chain link child
          = .failed (Cause.circular site ref.uri chain).issue := by
  obtain ⟨-, refers, owner, selector, leads, visited⟩ := back
  obtain ⟨link, listed, sameSite, sameUri, sameDestination⟩ := exists_link_of_refersAt refers
  refine ⟨link, listed, sameSite, sameUri, fun child => ?_⟩
  have linkLeads : link.destination loader.scheme = .ok (owner, selector) :=
    sameDestination.trans leads
  rw [resolveTo_of_circular linkLeads visited, sameSite, sameUri]

/-- No visit of a load is made to a namespace that is being loaded. -/
theorem notMem_ancestors_of_mem_visits {root : NamespaceUri} {visit : Visit}
    (made : visit ∈ (loader.load [] root).visits) : visit.uri.text ∉ visit.ancestors := by
  rw [visits_load_eq_map_visit] at made
  obtain ⟨route, entered, rfl⟩ := List.mem_map.mp made
  have enters := (mem_enteredRoutes_iff (allows_root root)).mp entered
  have distinct := enters.allowed.distinct
  rw [← Route.chain_visit, ← List.concat_eq_append, List.nodup_concat] at distinct
  exact distinct.1

/-- **Every circular reference names a true cycle.**  Whatever the store answers from visit to
visit, take a circular reference among the issues of a load of a root, at any depth.  The failed
references around it name, from the outermost in, the addresses of the references on a way that
the load follows down from the root, each of which leads from one namespace of the way to the
next.  At the end of the way a reference leads back to a namespace on it, and the issue is that of
this reference with the root and the namespaces of the way as its chain, which its message spells
out up to the offending address.  Conversely, every reference that leads back at the end of a way
is among the issues like this, and it comes to this issue whatever the namespace that it names
would load as.  A client makes no visit to a namespace that is being loaded. -/
theorem circular_issues_name_cycles (loader : Loader) (answers : ChangingSource)
    (root : NamespaceUri) :
    let issues := (loader.schemaFrom answers [] [] root).issues
    (∀ (issue : Issue) (enclosing : List Issue), issue.OccursUnder enclosing issues →
        issue.kind = .circularReference →
        ∃ route site ref, loader.MeetsCircle answers [] [] root route site ref
          ∧ enclosing.filterMap Issue.failedUri? = route.uris
          ∧ issue = (Cause.circular site ref.uri (route.addresses root)).issue
          ∧ "(".toList ++ Cause.arrow.intercalate (route.addresses root ++ [ref.uri]) ++ ")".toList
            <:+ issue.message)
      ∧ (∀ route site ref, loader.MeetsCircle answers [] [] root route site ref →
        let issue := (Cause.circular site ref.uri (route.addresses root)).issue
        (∃ enclosing, issue.OccursUnder enclosing issues
            ∧ enclosing.filterMap Issue.failedUri? = route.uris)
          ∧ ∃ link ∈ (loader.facing answers route.links).links (route.endpoint root),
            link.site = site ∧ link.ref.uri = ref.uri
              ∧ ∀ child, loader.resolveTo (route.addresses root) link child = .failed issue)
      ∧ ∀ source before,
        let loaded := load { loader with source } [] root
        Client.load { loader with source } ⟨some root, before⟩
            = (⟨some root, loader.schemaFrom (fun _ => source) [] [] root⟩, loaded.asked)
          ∧ ∀ visit ∈ loaded.visits, visit.uri.text ∉ visit.ancestors := by
  intro issues
  refine ⟨?_, ?_, ?_⟩
  · intro issue enclosing occurs circular
    obtain ⟨route, site, ref, meets, uris, same⟩ := exists_way_of_occursUnder circular occurs
    rw [List.nil_append] at same
    refine ⟨route, site, ref, meets, uris, same, ?_⟩
    have nonempty : root.text ≠ [] := by
      intro isEmpty
      have first := Address.head?_of_isNamespace root.wellFormed
      simp [isEmpty] at first
    rw [same]
    exact Cause.suffix_message_circular nonempty site _ ref.uri
  · intro route site ref meets issue
    refine ⟨exists_occursUnder_of_meetsCircle meets, ?_⟩
    exact exists_link_of_leadsBack meets.leadsBack
  · intro source before loaded
    have schema := loader.schema_client_load source root before
    refine ⟨?_, fun visit made => notMem_ancestors_of_mem_visits made⟩
    rw [← schema]
    rfl

/-- Two namespaces that refer to each other, the second to a column of the first. -/
example :
    let item (type : String) : Definition :=
      (Definition.named []).withColumn "A".toList "other".toList type.toList
    let store : MemoryStore :=
      { definitions := [("ns:a".toList, item "ns:b"), ("ns:b".toList, item "ns:a.other")] }
    (load ⟨.standard, store.source, 3⟩ [] ⟨"ns:a".toList, by decide⟩).schema.issues
      = [⟨.reference, "Column `A` references `ns:b`, which failed to resolve".toList,
          [.leaf .circularReference
            ("Column `A` references `ns:a.other`, which is already being resolved ".toList
              ++ "(ns:a -> ns:b -> ns:a.other)".toList)]⟩] := by
  decide +kernel

end Loader

end Typesheet

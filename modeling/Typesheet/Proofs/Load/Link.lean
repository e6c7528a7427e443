import Mathlib.Data.List.Basic
import Typesheet.Schema.Client

/-!
Contract: a load, given in terms of the references that each namespace declares.

Owns: links, which are the references of a definition in the order in which a load
follows them; following one link below a chain of addresses; the schema that the
resolutions of its links give a namespace; and the equations that say that a load
is no more than this.

Does not own: anything about several namespaces at once.  All that is proved about
loads elsewhere starts from `schema_load` and `visits_load`, and what is proved
about one link starts from `followLink`.
-/

set_option autoImplicit false

namespace Typesheet

/-- A reference that a namespace declares: in its implements clause, or in a
column.  The links of a column are the first references to each address in it. -/
inductive Link where
  | base (owner : NamespaceUri) (target : Text)
  | column (field : Field) (ref : Ref)

namespace Link

def site : Link → Site
  | base owner _ => .implements owner.text
  | column field _ => .column field.key

def declared : Link → Text
  | base _ target => target
  | column _ ref => ref.uri

def ref : Link → Ref
  | base _ target => Reference.toNamespace (Address.normalize target) false
  | column _ ref => ref

/-- The namespace that a link leads to, and the selector of a column in it. -/
def destination (scheme : Scheme) (link : Link) :
    Except AddressError (NamespaceUri × Option Text) :=
  Loader.destination scheme link.ref

theorem destination_unique {scheme : Scheme} {link : Link} {owner other : NamespaceUri}
    {selector otherSelector : Option Text}
    (leads : link.destination scheme = .ok (owner, selector))
    (same : link.destination scheme = .ok (other, otherSelector)) :
    owner = other ∧ selector = otherSelector :=
  Prod.mk.inj (Except.ok.inj (leads.symm.trans same))

end Link

/-- The issue that a failed reference leaves. -/
def Resolution.issue? : Resolution → Option Issue
  | .resolved .. => none
  | .failed issue => some issue

theorem Resolution.issue?_eq_none_iff {resolution : Resolution} :
    resolution.issue? = none
      ↔ ∃ typename columns, resolution = .resolved typename columns := by
  cases resolution <;> simp [Resolution.issue?]

namespace Loader

/-! ## The links of a namespace -/

/-- The source answers for a namespace, and it is defined. -/
def defines (loader : Loader) (uri : NamespaceUri) : Bool :=
  match loader.source.definition uri with
  | .ok (_, registration) => registration.isDefined
  | .error _ => false

/-- The columns that a namespace declares, in column order. -/
def columnsOf (loader : Loader) (uri : NamespaceUri) : List Field :=
  match loader.source.definition uri with
  | .ok (listing, _) => declaredColumns loader.scheme listing
  | .error _ => []

/-- The implements clause of a namespace, trimmed; empty when it has none. -/
def baseOf (loader : Loader) (uri : NamespaceUri) : Text :=
  match loader.source.definition uri with
  | .ok (_, registration) =>
      Text.trim ((registration.profile.getD {}).implements.getD [])
  | .error _ => []

def baseLinks (loader : Loader) (uri : NamespaceUri) : List Link :=
  if loader.baseOf uri = [] then [] else [.base uri (loader.baseOf uri)]

/-- The links of a column: one for each address that its type refers to. -/
def columnLinks (column : Field) : List Link :=
  (firstPerUri column.type.references).map (.column column)

/-- The links of a namespace, in the order in which they are followed. -/
def links (loader : Loader) (uri : NamespaceUri) : List Link :=
  loader.baseLinks uri ++ (loader.columnsOf uri).flatMap columnLinks

/-- A namespace declares a column that goes by a name: its own, or its key. -/
def HasColumn (loader : Loader) (uri : NamespaceUri) (name : Text) : Prop :=
  ∃ column ∈ loader.columnsOf uri, column.name = name ∨ column.key = name

/-- Follow a link from the namespace whose address ends the chain. -/
def followLink (loader : Loader) (chain : List Text) (link : Link) : Followed :=
  match link.destination loader.scheme with
  | .error error =>
      ⟨.failed (Cause.invalidReference link.site link.declared error.message).issue, []⟩
  | .ok (owner, selector) =>
      if owner.text ∈ chain then
        ⟨.failed (Cause.circular link.site link.ref.uri chain).issue, []⟩
      else if chain.length < loader.maxDepth then
        let child := loader.load chain owner
        ⟨settle link.site link.ref.uri owner selector child.schema, child.visits⟩
      else ⟨.failed (Cause.tooDeep link.site link.ref.uri loader.maxDepth).issue, []⟩

/-! ## The schema that resolved links give -/

/-- A reference of a column, filled in when the link to its address was resolved. -/
def fillFrom (resolution : Link → Resolution) (column : Field) (ref : Ref) : Ref :=
  match (columnLinks column).find? fun link => link.ref.uri = ref.uri with
  | some link =>
      match resolution link with
      | .resolved typename columns => ref.resolve typename columns
      | .failed _ => ref
  | none => ref

def columnFailures (resolution : Link → Resolution) (column : Field) : List Issue :=
  (columnLinks column).filterMap fun link => (resolution link).issue?

/-- A column with its references filled in and the issue that it is left with. -/
def resolvedColumn (resolution : Link → Resolution) (column : Field) : Field :=
  { column with
    type := column.type.mapReferences (fillFrom resolution column)
    issue := columnIssue column.key (columnFailures resolution column) }

def baseType (loader : Loader) (resolution : Link → Resolution) (uri : NamespaceUri) :
    Option ColumnType :=
  let link := Link.base uri (loader.baseOf uri)
  if loader.baseOf uri = [] then none
  else
    match link.destination loader.scheme with
    | .error _ => none
    | .ok _ =>
        match resolution link with
        | .resolved typename columns => some (.reference (link.ref.resolve typename columns))
        | .failed _ => some (.reference link.ref)

/-- The issues of a namespace: that of its implements clause, then those of its
columns. -/
def levelIssues (loader : Loader) (resolution : Link → Resolution) (uri : NamespaceUri) :
    List Issue :=
  ((loader.baseLinks uri).filterMap fun link => (resolution link).issue?)
    ++ (loader.columnsOf uri).filterMap fun column =>
      columnIssue column.key (columnFailures resolution column)

/-- The schema of a namespace whose links were resolved in the given way. -/
def assemble (loader : Loader) (uri : NamespaceUri) (resolution : Link → Resolution) :
    Schema :=
  match loader.source.definition uri with
  | .error reason => { uri := uri.text, issues := [(Cause.loadFailed uri.text reason).issue] }
  | .ok (_, registration) =>
      if registration.isDefined then
        { uri := uri.text
          typename := Text.trim (registration.profile.getD {}).typename
          implements := loader.baseType resolution uri
          columns := (loader.columnsOf uri).map (resolvedColumn resolution)
          issues := loader.levelIssues resolution uri }
      else { uri := uri.text, issues := [(Cause.definitionNotFound uri.text).issue] }

/-! ## A load in terms of its links -/

/-- What a load below the given ancestors follows references with. -/
def follower (loader : Loader) (ancestors : List Text) : Option Follow :=
  if ancestors.length + 1 < loader.maxDepth then
    some (loader.loadWithin (loader.maxDepth - (ancestors.length + 2)))
  else none

private theorem load_eq_loadLevel (loader : Loader) (ancestors : List Text)
    (uri : NamespaceUri) :
    loader.load ancestors uri = loader.loadLevel (loader.follower ancestors) ancestors uri := by
  unfold load follower
  by_cases deeper : ancestors.length + 1 < loader.maxDepth
  · have levels : loader.maxDepth - (ancestors.length + 1)
        = loader.maxDepth - (ancestors.length + 2) + 1 := by omega
    rw [if_pos deeper, levels]
    rfl
  · have levels : loader.maxDepth - (ancestors.length + 1) = 0 := by omega
    rw [if_neg deeper, levels]
    rfl

section Level

variable (loader : Loader) (ancestors : List Text) (uri : NamespaceUri)

private theorem followReference_column (field : Field) (ref : Ref) :
    loader.followReference (loader.follower ancestors) (ancestors ++ [uri.text])
        (.column field.key) ref
      = loader.followLink (ancestors ++ [uri.text]) (.column field ref) := by
  unfold followReference followLink Link.destination Link.site Link.declared Link.ref follower
  cases destination loader.scheme ref with
  | error error => rfl
  | ok target =>
      obtain ⟨owner, selector⟩ := target
      by_cases isCircular : owner.text ∈ ancestors ++ [uri.text]
      · simp only [isCircular, ↓reduceIte]
      · by_cases deeper : ancestors.length + 1 < loader.maxDepth
        · simp [isCircular, deeper, load]
        · simp [isCircular, deeper]

private theorem resolveBase_eq (target : Text) :
    let link := Link.base uri target
    let followed := loader.followLink (ancestors ++ [uri.text]) link
    loader.resolveBase (loader.follower ancestors) (ancestors ++ [uri.text]) uri target
      = { type := match link.destination loader.scheme with
            | .error _ => none
            | .ok _ =>
                match followed.resolution with
                | .resolved typename columns =>
                    some (.reference (link.ref.resolve typename columns))
                | .failed _ => some (.reference link.ref)
          issue := followed.resolution.issue?
          visits := followed.visits } := by
  unfold resolveBase followReference followLink Link.destination Link.site Link.declared
    Link.ref follower destination
  simp only [Reference.toNamespace]
  cases loader.scheme.readNamespace (Address.normalize target) with
  | error error => rfl
  | ok owner =>
      simp only [Except.map]
      by_cases isCircular : owner.text ∈ ancestors ++ [uri.text]
      · simp only [isCircular, ↓reduceIte]
        rfl
      · by_cases deeper : ancestors.length + 1 < loader.maxDepth
        · simp only [isCircular, deeper, ↓reduceIte, List.length_append, List.length_cons,
            List.length_nil, Nat.zero_add, load, Nat.add_assoc, Nat.reduceAdd]
          cases settle (.implements uri.text) (Address.normalize target) owner none
              (loader.loadWithin (loader.maxDepth - (ancestors.length + 2))
                (ancestors ++ [uri.text]) owner).schema <;> rfl
        · simp [isCircular, deeper, Resolution.issue?]

private theorem fill_map_columnLinks (followed : Link → Followed) (field : Field) (ref : Ref) :
    fill ((columnLinks field).map fun link => (link.ref.uri, followed link)) ref
      = fillFrom (fun link => (followed link).resolution) field ref := by
  unfold fill resolutionOf fillFrom
  rw [List.find?_map]
  simp only [Function.comp_def]
  cases (columnLinks field).find? fun link => link.ref.uri = ref.uri with
  | none => rfl
  | some link =>
      simp only [Option.map_some]
      cases (followed link).resolution <;> rfl

private theorem resolveColumn_eq :
    loader.resolveColumn (loader.follower ancestors) (ancestors ++ [uri.text])
      = fun field =>
        (resolvedColumn
          (fun link => (loader.followLink (ancestors ++ [uri.text]) link).resolution) field,
        (columnLinks field).flatMap fun link =>
          (loader.followLink (ancestors ++ [uri.text]) link).visits) := by
  funext field
  have followed :
      ((firstPerUri field.type.references).map fun ref =>
        (ref.uri, loader.followReference (loader.follower ancestors) (ancestors ++ [uri.text])
          (.column field.key) ref))
        = (columnLinks field).map fun link =>
            (link.ref.uri, loader.followLink (ancestors ++ [uri.text]) link) := by
    unfold columnLinks
    rw [List.map_map]
    apply List.map_congr_left
    intro ref _
    rw [followReference_column loader ancestors uri field ref]
    rfl
  unfold resolveColumn
  simp only [followed]
  congr 1
  · unfold resolvedColumn columnFailures failures
    rw [List.filterMap_map]
    congr 1
    · congr 1
      funext ref
      exact fill_map_columnLinks _ field ref
    · congr 2
      funext link
      simp only [Function.comp_apply]
      cases (loader.followLink (ancestors ++ [uri.text]) link).resolution <;> rfl
  · rw [List.flatMap_map]

/-- **The schema of a load** is assembled from the resolutions of the links of its
namespace, each followed below the namespaces that are being loaded. -/
theorem schema_load :
    (loader.load ancestors uri).schema
      = loader.assemble uri fun link =>
          (loader.followLink (ancestors ++ [uri.text]) link).resolution := by
  rw [load_eq_loadLevel]
  unfold loadLevel assemble
  cases known : loader.source.definition uri with
  | error reason => rfl
  | ok answers =>
      obtain ⟨listing, registration⟩ := answers
      have columnsOf_eq : loader.columnsOf uri = declaredColumns loader.scheme listing := by
        simp only [columnsOf, known]
      have baseOf_eq : loader.baseOf uri
          = Text.trim ((registration.profile.getD {}).implements.getD []) := by
        simp only [baseOf, known]
      by_cases defined : registration.isDefined = true
      · simp only [defined, ↓reduceIte, resolveColumn_eq, resolveBase_eq, List.map_map,
          List.filterMap_map, baseType, levelIssues, baseLinks, columnsOf_eq, ← baseOf_eq]
        by_cases noBase : loader.baseOf uri = []
        · simp only [noBase, ↓reduceIte]
          rfl
        · simp only [noBase, ↓reduceIte]
          congr 2
      · simp only [defined, Bool.false_eq_true, ↓reduceIte]

/-- **The visits of a load** are the visit to its namespace and then those made on
the way along its links, if it is defined. -/
theorem visits_load :
    (loader.load ancestors uri).visits
      = ⟨ancestors, uri⟩ :: if loader.defines uri then
          (loader.links uri).flatMap fun link =>
            (loader.followLink (ancestors ++ [uri.text]) link).visits
        else [] := by
  rw [load_eq_loadLevel]
  unfold loadLevel defines links baseLinks columnsOf baseOf
  cases known : loader.source.definition uri with
  | error reason => rfl
  | ok answers =>
      obtain ⟨listing, registration⟩ := answers
      by_cases defined : registration.isDefined = true
      · simp only [defined, ↓reduceIte, resolveColumn_eq, resolveBase_eq]
        by_cases noBase : Text.trim ((registration.profile.getD {}).implements.getD []) = []
        · simp [noBase, List.flatMap_map, List.flatMap_assoc]
        · simp [noBase, List.flatMap_map, List.flatMap_assoc]
      · simp only [defined, Bool.false_eq_true, ↓reduceIte]

end Level

/-! ## What a level comes to -/

section Assemble

variable {loader : Loader} {uri : NamespaceUri} {resolution other : Link → Resolution}

theorem columnIssue_eq_none_iff (key : Text) (issues : List Issue) :
    columnIssue key issues = none ↔ issues = [] := by
  rcases issues with _ | ⟨first, _ | ⟨second, rest⟩⟩ <;> simp [columnIssue]

theorem mem_links_of_mem_columnLinks {field : Field} {link : Link}
    (declared : field ∈ loader.columnsOf uri) (member : link ∈ columnLinks field) :
    link ∈ loader.links uri :=
  List.mem_append_right _ (List.mem_flatMap.mpr ⟨field, declared, member⟩)

theorem base_mem_links (hasBase : loader.baseOf uri ≠ []) :
    Link.base uri (loader.baseOf uri) ∈ loader.links uri := by
  apply List.mem_append_left
  unfold baseLinks
  rw [if_neg hasBase]
  exact List.mem_singleton_self _

theorem assemble_of_unanswered {reason : Text}
    (refused : loader.source.definition uri = .error reason)
    (resolution : Link → Resolution) :
    loader.assemble uri resolution
      = { uri := uri.text, issues := [(Cause.loadFailed uri.text reason).issue] } := by
  rw [assemble, refused]

theorem assemble_of_undefined {listing : Listing} {registration : Registration}
    (answered : loader.source.definition uri = .ok (listing, registration))
    (notDefined : registration.isDefined = false) (resolution : Link → Resolution) :
    loader.assemble uri resolution
      = { uri := uri.text, issues := [(Cause.definitionNotFound uri.text).issue] } := by
  rw [assemble, answered]
  simp only [notDefined, Bool.false_eq_true, ↓reduceIte]

theorem levelIssues_eq_nil_iff :
    loader.levelIssues resolution uri = []
      ↔ ∀ link ∈ loader.links uri, (resolution link).issue? = none := by
  unfold levelIssues links columnFailures
  rw [List.append_eq_nil_iff, List.filterMap_eq_nil_iff, List.filterMap_eq_nil_iff,
    List.forall_mem_append]
  simp only [columnIssue_eq_none_iff, List.filterMap_eq_nil_iff, List.mem_flatMap,
    forall_exists_index, and_imp]
  constructor
  · rintro ⟨base, columns⟩
    exact ⟨base, fun link field declared member => columns field declared link member⟩
  · rintro ⟨base, columns⟩
    exact ⟨base, fun field declared link member => columns link field declared member⟩

theorem isOk_assemble_iff :
    (loader.assemble uri resolution).isOk = true
      ↔ loader.defines uri = true
        ∧ ∀ link ∈ loader.links uri, (resolution link).issue? = none := by
  unfold assemble defines Schema.isOk
  cases loader.source.definition uri with
  | error reason => simp
  | ok answers =>
      by_cases defined : answers.2.isDefined = true
      · simp [defined, levelIssues_eq_nil_iff]
      · simp [defined]

theorem resolvedColumn_congr {field : Field}
    (agree : ∀ link ∈ columnLinks field, resolution link = other link) :
    resolvedColumn resolution field = resolvedColumn other field := by
  have fills : fillFrom resolution field = fillFrom other field := by
    funext ref
    unfold fillFrom
    cases found : (columnLinks field).find? fun link => link.ref.uri = ref.uri with
    | none => rfl
    | some link => simp only [agree link (List.mem_of_find?_eq_some found)]
  have failures : columnFailures resolution field = columnFailures other field := by
    unfold columnFailures
    apply List.filterMap_congr
    intro link member
    rw [agree link member]
  unfold resolvedColumn
  rw [fills, failures]

/-- A schema depends on the resolutions of its own links only. -/
theorem assemble_congr
    (agree : ∀ link ∈ loader.links uri, resolution link = other link) :
    loader.assemble uri resolution = loader.assemble uri other := by
  have columns : (loader.columnsOf uri).map (resolvedColumn resolution)
      = (loader.columnsOf uri).map (resolvedColumn other) := by
    apply List.map_congr_left
    intro field declared
    exact resolvedColumn_congr fun link member =>
      agree link (mem_links_of_mem_columnLinks declared member)
  have base : loader.baseType resolution uri = loader.baseType other uri := by
    unfold baseType
    by_cases noBase : loader.baseOf uri = []
    · simp only [noBase, ↓reduceIte]
    · simp only [noBase, ↓reduceIte, agree _ (base_mem_links noBase)]
  have issues : loader.levelIssues resolution uri = loader.levelIssues other uri := by
    unfold levelIssues
    congr 1
    · apply List.filterMap_congr
      intro link member
      rw [agree link (List.mem_append_left _ member)]
    · apply List.filterMap_congr
      intro field declared
      have own : resolvedColumn resolution field = resolvedColumn other field :=
        resolvedColumn_congr fun link member =>
          agree link (mem_links_of_mem_columnLinks declared member)
      exact congrArg Column.issue own
  unfold assemble
  rw [columns, base, issues]

theorem any_selects_columnsOf_iff {name : Text} :
    (loader.columnsOf uri).any (Reference.selects name) = true
      ↔ loader.HasColumn uri name := by
  simp [HasColumn, Reference.selects]

theorem any_selects_columns_assemble_iff (defined : loader.defines uri = true)
    (selector : Text) :
    (loader.assemble uri resolution).columns.any (Reference.selects selector) = true
      ↔ loader.HasColumn uri selector := by
  rw [← any_selects_columnsOf_iff]
  unfold defines at defined
  unfold assemble
  cases known : loader.source.definition uri with
  | error reason =>
      rw [known] at defined
      exact absurd defined (by simp)
  | ok answers =>
      rw [known] at defined
      simp only [defined, ↓reduceIte, List.any_map]
      rfl

end Assemble

/-! ## What following a link comes to -/

section Follow

variable {loader : Loader} {chain : List Text} {link : Link} {owner : NamespaceUri}
  {selector : Option Text}

/-- The ways in which following a link can go, before the namespace that it leads to
is loaded. -/
inductive LinkCase (loader : Loader) (chain : List Text) (link : Link) : Prop where
  | unreadable {error : AddressError}
      (refused : link.destination loader.scheme = .error error)
  | circular {owner : NamespaceUri} {selector : Option Text}
      (leads : link.destination loader.scheme = .ok (owner, selector))
      (visited : owner.text ∈ chain)
  | tooDeep {owner : NamespaceUri} {selector : Option Text}
      (leads : link.destination loader.scheme = .ok (owner, selector))
      (fresh : owner.text ∉ chain) (atLimit : loader.maxDepth ≤ chain.length)
  | enters {owner : NamespaceUri} {selector : Option Text}
      (leads : link.destination loader.scheme = .ok (owner, selector))
      (fresh : owner.text ∉ chain) (deeper : chain.length < loader.maxDepth)

theorem link_cases (loader : Loader) (chain : List Text) (link : Link) :
    loader.LinkCase chain link := by
  cases leads : link.destination loader.scheme with
  | error error => exact .unreadable leads
  | ok target =>
      by_cases visited : target.1.text ∈ chain
      · exact .circular leads visited
      · rcases Nat.lt_or_ge chain.length loader.maxDepth with deeper | atLimit
        · exact .enters leads visited deeper
        · exact .tooDeep leads visited atLimit

theorem followLink_of_unreadable {error : AddressError}
    (refused : link.destination loader.scheme = .error error) :
    loader.followLink chain link
      = ⟨.failed (Cause.invalidReference link.site link.declared error.message).issue, []⟩ := by
  unfold followLink
  rw [refused]

theorem followLink_of_circular
    (leads : link.destination loader.scheme = .ok (owner, selector))
    (visited : owner.text ∈ chain) :
    loader.followLink chain link
      = ⟨.failed (Cause.circular link.site link.ref.uri chain).issue, []⟩ := by
  unfold followLink
  rw [leads]
  exact if_pos visited

theorem followLink_of_tooDeep
    (leads : link.destination loader.scheme = .ok (owner, selector))
    (fresh : owner.text ∉ chain) (atLimit : loader.maxDepth ≤ chain.length) :
    loader.followLink chain link
      = ⟨.failed (Cause.tooDeep link.site link.ref.uri loader.maxDepth).issue, []⟩ := by
  unfold followLink
  rw [leads]
  simp only [fresh, ↓reduceIte, Nat.not_lt.mpr atLimit]

theorem followLink_of_enters
    (leads : link.destination loader.scheme = .ok (owner, selector))
    (fresh : owner.text ∉ chain) (deeper : chain.length < loader.maxDepth) :
    loader.followLink chain link
      = ⟨settle link.site link.ref.uri owner selector (loader.load chain owner).schema,
          (loader.load chain owner).visits⟩ := by
  unfold followLink
  rw [leads]
  simp only [fresh, ↓reduceIte, deeper]

/-- A reference is resolved when its namespace is loaded without issues and has the
column that the selector asks for; it is filled with the name and the columns of
that namespace. -/
theorem settle_eq_resolved_iff {site : Site} {uri typename : Text} {child : Schema}
    {columns : List Field} :
    settle site uri owner selector child = .resolved typename columns
      ↔ child.isOk = true
        ∧ (∀ name ∈ selector, child.columns.any (Reference.selects name) = true)
        ∧ typename = child.displayTypename ∧ columns = child.columns := by
  have filled : Resolution.resolved child.displayTypename child.columns
        = .resolved typename columns
      ↔ typename = child.displayTypename ∧ columns = child.columns := by
    rw [Resolution.resolved.injEq]
    exact and_congr eq_comm eq_comm
  unfold settle
  cases child.isOk with
  | false => simp
  | true =>
      cases selector with
      | none => simpa using filled
      | some name =>
          cases found : child.columns.any (Reference.selects name) with
          | false =>
              simp only [Bool.true_eq_false, ↓reduceIte, found, reduceCtorEq, Option.mem_def,
                Option.some.injEq, forall_eq', Bool.false_eq_true, false_and, and_false]
          | true =>
              simp only [Bool.true_eq_false, ↓reduceIte, found, Option.mem_def,
                Option.some.injEq, forall_eq', true_and]
              exact filled

theorem any_selects_columns_load_iff {name : Text}
    (isOk : (loader.load chain owner).schema.isOk = true) :
    (loader.load chain owner).schema.columns.any (Reference.selects name) = true
      ↔ loader.HasColumn owner name := by
  rw [schema_load] at isOk ⊢
  exact any_selects_columns_assemble_iff (isOk_assemble_iff.mp isOk).1 name

/-- **A resolved link** leads into a namespace that is not being loaded, above the
depth limit, whose load below the chain has no issues and has the column selected. -/
theorem followLink_eq_resolved_iff {typename : Text} {columns : List Field} :
    (loader.followLink chain link).resolution = .resolved typename columns
      ↔ ∃ owner selector, link.destination loader.scheme = .ok (owner, selector)
        ∧ owner.text ∉ chain ∧ chain.length < loader.maxDepth
        ∧ (loader.load chain owner).schema.isOk = true
        ∧ (∀ name ∈ selector, loader.HasColumn owner name)
        ∧ typename = (loader.load chain owner).schema.displayTypename
        ∧ columns = (loader.load chain owner).schema.columns := by
  cases loader.link_cases chain link with
  | unreadable refused => simp [followLink_of_unreadable refused, refused]
  | circular leads visited => simp [followLink_of_circular leads visited, leads, visited]
  | tooDeep leads fresh atLimit =>
      simp [followLink_of_tooDeep leads fresh atLimit, leads, Nat.not_lt.mpr atLimit]
  | @enters owner selector leads fresh deeper =>
      rw [followLink_of_enters leads fresh deeper]
      show settle _ _ owner selector _ = _ ↔ _
      rw [settle_eq_resolved_iff]
      constructor
      · rintro ⟨isOk, found, rest⟩
        refine ⟨owner, selector, leads, fresh, deeper, isOk, ?_, rest⟩
        intro name selected
        exact (any_selects_columns_load_iff isOk).mp (found name selected)
      · rintro ⟨_, _, same, _, _, isOk, found, rest⟩
        obtain ⟨rfl, rfl⟩ := Link.destination_unique leads same
        refine ⟨isOk, ?_, rest⟩
        intro name selected
        exact (any_selects_columns_load_iff isOk).mpr (found name selected)

theorem issue?_followLink_eq_none_iff :
    (loader.followLink chain link).resolution.issue? = none
      ↔ ∃ owner selector, link.destination loader.scheme = .ok (owner, selector)
        ∧ owner.text ∉ chain ∧ chain.length < loader.maxDepth
        ∧ (loader.load chain owner).schema.isOk = true
        ∧ ∀ name ∈ selector, loader.HasColumn owner name := by
  rw [Resolution.issue?_eq_none_iff]
  simp only [followLink_eq_resolved_iff]
  constructor
  · rintro ⟨_, _, owner, selector, leads, fresh, deeper, isOk, found, _⟩
    exact ⟨owner, selector, leads, fresh, deeper, isOk, found⟩
  · rintro ⟨owner, selector, leads, fresh, deeper, isOk, found⟩
    exact ⟨_, _, owner, selector, leads, fresh, deeper, isOk, found, rfl, rfl⟩

end Follow

/-- **Induction along a load.**  What holds of a namespace below a chain whenever it
holds of all namespaces below the longer chain, up to the depth limit, holds of
every namespace below every chain. -/
theorem load_induction (loader : Loader) {motive : List Text → NamespaceUri → Prop}
    (level : ∀ ancestors uri,
      ((ancestors ++ [uri.text]).length < loader.maxDepth →
        ∀ owner, motive (ancestors ++ [uri.text]) owner) →
      motive ancestors uri)
    (ancestors : List Text) (uri : NamespaceUri) : motive ancestors uri := by
  induction depth : loader.maxDepth - ancestors.length generalizing ancestors uri with
  | zero =>
      apply level
      intro deeper
      simp only [List.length_append, List.length_cons, List.length_nil] at deeper
      omega
  | succ depth inductionHypothesis =>
      apply level
      intro _ owner
      apply inductionHypothesis
      simp only [List.length_append, List.length_cons, List.length_nil]
      omega

/-! ## The issues of a load -/

section Issues

variable {loader : Loader} {ancestors : List Text} {uri : NamespaceUri}

theorem definition_cases (loader : Loader) (uri : NamespaceUri) :
    (∃ reason, loader.source.definition uri = .error reason)
      ∨ (∃ listing registration, loader.source.definition uri = .ok (listing, registration)
        ∧ registration.isDefined = false)
      ∨ loader.defines uri = true := by
  unfold defines
  cases loader.source.definition uri with
  | error reason => exact .inl ⟨reason, rfl⟩
  | ok answers =>
      obtain ⟨listing, registration⟩ := answers
      cases notDefined : registration.isDefined with
      | false => exact .inr (.inl ⟨listing, registration, rfl, notDefined⟩)
      | true => exact .inr (.inr notDefined)

theorem issues_load_of_unanswered {reason : Text}
    (refused : loader.source.definition uri = .error reason) :
    (loader.load ancestors uri).schema.issues = [(Cause.loadFailed uri.text reason).issue] := by
  rw [schema_load, assemble_of_unanswered refused]

theorem issues_load_of_undefined {listing : Listing} {registration : Registration}
    (answered : loader.source.definition uri = .ok (listing, registration))
    (notDefined : registration.isDefined = false) :
    (loader.load ancestors uri).schema.issues
      = [(Cause.definitionNotFound uri.text).issue] := by
  rw [schema_load, assemble_of_undefined answered notDefined]

theorem issues_load_of_defines (defined : loader.defines uri = true) :
    (loader.load ancestors uri).schema.issues
      = loader.levelIssues
          (fun link => (loader.followLink (ancestors ++ [uri.text]) link).resolution) uri := by
  unfold defines at defined
  rw [schema_load, assemble]
  split at defined
  case h_1 listing registration answered =>
    simp only [answered, defined, ↓reduceIte]
  case h_2 => exact absurd defined (by simp)

end Issues

theorem isOk_load_iff_links (loader : Loader) (ancestors : List Text) (uri : NamespaceUri) :
    (loader.load ancestors uri).schema.isOk = true
      ↔ loader.defines uri = true
        ∧ ∀ link ∈ loader.links uri,
          (loader.followLink (ancestors ++ [uri.text]) link).resolution.issue? = none := by
  rw [schema_load]
  exact isOk_assemble_iff

end Loader

end Typesheet

import Typesheet.Column.Order
import Typesheet.ColumnType.Parse
import Typesheet.Issue.Cause
import Typesheet.Schema.Basic
import Typesheet.Source.Basic

/-!
Contract: loading the schema of a namespace.

Owns: the columns that a listing declares, following references, and the load of
a namespace with everything that it refers to.

A load carries the addresses of the namespaces that are being loaded on the way
from the root.  A reference back to one of them is circular; a reference beyond
the depth limit is not followed.  The load of one level is a function of what
following a reference does, so the whole load is recursion on the number of
levels that are left.  Nothing that goes wrong stops a load: it is recorded as
an issue, and a schema without issues is the only sign of success.
-/

set_option autoImplicit false

namespace Typesheet

structure Loader where
  scheme : Scheme
  source : Source
  maxDepth : Nat

/-- The start of loading a namespace: the addresses that are being loaded on the way
to it, root first, and its own. -/
structure Visit where
  ancestors : List Text
  uri : NamespaceUri

/-- The outcome of a load: the schema, and the visits made on the way, in order. -/
structure Loaded where
  schema : Schema
  visits : List Visit

/-- The namespaces whose listing was asked for, once for each time: every visit
starts by asking. -/
def Loaded.asked (loaded : Loaded) : List NamespaceUri :=
  loaded.visits.map Visit.uri

/-- The outcome of following a reference: what it is filled with, or the issue
that it leaves. -/
inductive Resolution where
  | resolved (typename : Text) (columns : List Field)
  | failed (issue : Issue)

/-- A followed reference, with the visits made on the way. -/
structure Followed where
  resolution : Resolution
  visits : List Visit

namespace Loader

/-- How the namespace of a reference is loaded: from the addresses that are being
loaded and its own. -/
abbrev Follow := List Text → NamespaceUri → Loaded

/-! ## Columns -/

/-- The property name without a final `?`, and whether it had one. -/
def propertyName (declared : Text) : Text × Bool :=
  let name := Text.trim declared
  match ['?'].isSuffixOf? name with
  | some stripped => (Text.trimEnd stripped, true)
  | none => (name, false)

/-- The column that an entry declares: none when its key is no column key or when
it has no type. -/
def declaredColumn (scheme : Scheme) (key : Text) (entry : Entry) : Option Field :=
  if Column.isKey key then
    entry.property.bind fun property =>
      let typeText := Text.trim (property.typeText.getD [])
      if typeText = [] then none
      else
        let (name, isMarked) := propertyName property.name
        some {
          key
          name
          type := ColumnType.parse scheme typeText
          target := property.target.filter fun target => !Text.isBlankText target
          isOptional := property.isOptional || isMarked }
  else none

/-- The columns that a listing declares, in column order and unresolved. -/
def declaredColumns (scheme : Scheme) (listing : Listing) : List Field :=
  Column.sort <| listing.columns.filterMap fun column =>
    declaredColumn scheme column.1 column.2

/-! ## References -/

/-- The first of the references to each address. -/
def firstPerUri : List Ref → List Ref
  | [] => []
  | ref :: rest => ref :: (firstPerUri rest).filter fun other => other.uri ≠ ref.uri

/-- The namespace that a reference leads to, and the selector of a column in
it. -/
def destination (scheme : Scheme) (ref : Ref) :
    Except AddressError (NamespaceUri × Option Text) :=
  match ref.scope with
  | .column => (scheme.readColumn ref.uri).map fun column => (column.owner, some column.selector)
  | .whole | .unknown => (scheme.readNamespace ref.uri).map fun uri => (uri, none)

/-- The issue that a reference leaves when the namespace it leads to has issues.
A namespace that is merely not defined is reported as such. -/
def childIssue (site : Site) (uri : Text) : List Issue → Issue
  | [⟨.definitionNotFound, _, _⟩] => (Cause.namespaceNotFound site uri).issue
  | issues => (Cause.referenceFailed site uri issues).issue

/-- What a reference comes to when the namespace it leads to was loaded. -/
def settle (site : Site) (uri : Text) (owner : NamespaceUri) (selector : Option Text)
    (child : Schema) : Resolution :=
  if child.isOk = false then .failed (childIssue site uri child.issues)
  else
    match selector with
    | none => .resolved child.displayTypename child.columns
    | some selector =>
        if child.columns.any (Reference.selects selector) then
          .resolved child.displayTypename child.columns
        else .failed (Cause.missingColumn site uri owner.text selector).issue

/-- Follow one reference.  `follow` is absent when no level is left. -/
def followReference (loader : Loader) (follow : Option Follow) (chain : List Text)
    (site : Site) (ref : Ref) : Followed :=
  match destination loader.scheme ref with
  | .error error =>
      ⟨.failed (Cause.invalidReference site ref.uri error.message).issue, []⟩
  | .ok (owner, selector) =>
      if owner.text ∈ chain then
        ⟨.failed (Cause.circular site ref.uri chain).issue, []⟩
      else
        match follow with
        | none => ⟨.failed (Cause.tooDeep site ref.uri loader.maxDepth).issue, []⟩
        | some follow =>
            let child := follow chain owner
            ⟨settle site ref.uri owner selector child.schema, child.visits⟩

def failures (followed : List (Text × Followed)) : List Issue :=
  followed.filterMap fun step =>
    match step.2.resolution with
    | .failed issue => some issue
    | .resolved .. => none

def resolutionOf (followed : List (Text × Followed)) (uri : Text) : Option Resolution :=
  (followed.find? fun step => step.1 = uri).map fun step => step.2.resolution

/-- Fill a reference in when one to its address was resolved. -/
def fill (followed : List (Text × Followed)) (ref : Ref) : Ref :=
  match resolutionOf followed ref.uri with
  | some (.resolved typename columns) => ref.resolve typename columns
  | _ => ref

/-- The issue of a column: that of its only failed reference, or one for all of
them. -/
def columnIssue (key : Text) : List Issue → Option Issue
  | [] => none
  | [only] => some only
  | several => some (Cause.unresolvedReferences key several).issue

/-- Follow the references of a column, each address once, and fill them in. -/
def resolveColumn (loader : Loader) (follow : Option Follow) (chain : List Text)
    (column : Field) : Field × List Visit :=
  let followed := (firstPerUri column.type.references).map fun ref =>
    (ref.uri, loader.followReference follow chain (.column column.key) ref)
  ({ column with
      type := column.type.mapReferences (fill followed)
      issue := columnIssue column.key (failures followed) },
    followed.flatMap fun step => step.2.visits)

/-- An implements clause as loaded: the reference, the issue that it leaves, and
the visits made. -/
structure Base where
  type : Option ColumnType := none
  issue : Option Issue := none
  visits : List Visit := []

def resolveBase (loader : Loader) (follow : Option Follow) (chain : List Text)
    (uri : NamespaceUri) (target : Text) : Base :=
  let site := Site.implements uri.text
  let normalized := Address.normalize target
  match loader.scheme.readNamespace normalized with
  | .error error => { issue := some (Cause.invalidReference site target error.message).issue }
  | .ok _ =>
      let stub := Reference.toNamespace normalized false
      let followed := loader.followReference follow chain site stub
      match followed.resolution with
      | .resolved typename columns =>
          { type := some (.reference (stub.resolve typename columns)), visits := followed.visits }
      | .failed issue =>
          { type := some (.reference stub), issue := some issue, visits := followed.visits }

/-! ## Loading -/

/-- Load one namespace, where `follow` loads those that it refers to. -/
def loadLevel (loader : Loader) (follow : Option Follow) (ancestors : List Text)
    (uri : NamespaceUri) : Loaded :=
  match loader.source.definition uri with
  | .error reason =>
      ⟨{ uri := uri.text, issues := [(Cause.loadFailed uri.text reason).issue] }, [⟨ancestors, uri⟩]⟩
  | .ok (listing, registration) =>
      if registration.isDefined then
        let profile := registration.profile.getD {}
        let chain := ancestors ++ [uri.text]
        let target := Text.trim (profile.implements.getD [])
        let base :=
          if target = [] then ({} : Base) else loader.resolveBase follow chain uri target
        let columns := (declaredColumns loader.scheme listing).map
          (loader.resolveColumn follow chain)
        ⟨{ uri := uri.text
           typename := Text.trim profile.typename
           implements := base.type
           columns := columns.map Prod.fst
           issues := base.issue.toList
             ++ columns.filterMap fun column => column.1.issue },
          ⟨ancestors, uri⟩ :: (base.visits ++ columns.flatMap Prod.snd)⟩
      else
        ⟨{ uri := uri.text, issues := [(Cause.definitionNotFound uri.text).issue] },
          [⟨ancestors, uri⟩]⟩

/-- Load a namespace with a number of further levels that may be entered. -/
def loadWithin (loader : Loader) : Nat → Follow
  | 0 => loader.loadLevel none
  | levels + 1 => loader.loadLevel (some (loader.loadWithin levels))

/-- Load a namespace below the given ancestors.  A reference is followed while the
chain of addresses that leads to it is shorter than the depth limit. -/
def load (loader : Loader) (ancestors : List Text) (uri : NamespaceUri) : Loaded :=
  loader.loadWithin (loader.maxDepth - (ancestors.length + 1)) ancestors uri

end Loader

end Typesheet

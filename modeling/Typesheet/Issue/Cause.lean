import Typesheet.Issue.Basic

/-!
Contract: the causes of issues and the wording of each.

Owns: every reason for which loading a schema records an issue, and the one
function that turns a cause into an issue.
-/

set_option autoImplicit false

namespace Typesheet

/-- Where a reference stands: in a column, or in the implements clause of a
namespace. -/
inductive Site where
  | column (key : Text)
  | implements (uri : Text)
deriving DecidableEq, Repr

def Site.phrase : Site → Text
  | .column key => "Column `".toList ++ key ++ "` references".toList
  | .implements uri => "`".toList ++ uri ++ "` implements".toList

inductive Cause where
  /-- The name given for a root namespace is no address. -/
  | invalidNamespace (input reason : Text)
  /-- The store failed to answer for a namespace. -/
  | loadFailed (uri reason : Text)
  /-- The store has no definition of a namespace. -/
  | definitionNotFound (uri : Text)
  /-- A referenced namespace has no definition. -/
  | namespaceNotFound (site : Site) (uri : Text)
  /-- A referenced namespace has issues of its own. -/
  | referenceFailed (site : Site) (uri : Text) (children : List Issue)
  /-- A reference leads back to a namespace that is still being loaded. -/
  | circular (site : Site) (uri : Text) (chain : List Text)
  /-- A reference leads beyond the depth limit. -/
  | tooDeep (site : Site) (uri : Text) (maxDepth : Nat)
  /-- A referenced namespace has no column with the selector. -/
  | missingColumn (site : Site) (uri owner selector : Text)
  /-- A reference is no address. -/
  | invalidReference (site : Site) (uri reason : Text)
  /-- Several references of one column failed. -/
  | unresolvedReferences (key : Text) (failures : List Issue)

namespace Cause

def quoted (text : Text) : Text :=
  "`".toList ++ text ++ "`".toList

/-- The opening of a sentence about the reference to `uri`. -/
def about (site : Site) (uri : Text) : Text :=
  site.phrase ++ " ".toList ++ quoted uri

def arrow : Text := " -> ".toList

/-- The path that a circular reference closes.  A chain that spells nothing adds
nothing in front of the address. -/
def circle (chain : List Text) (uri : Text) : Text :=
  let path := arrow.intercalate chain
  if path = [] then uri else path ++ arrow ++ uri

/-- The issue that a cause is recorded as. -/
def issue : Cause → Issue
  | invalidNamespace input reason =>
      .leaf .invalidNamespace
        ("Invalid namespace ".toList ++ quoted input ++ ": ".toList ++ reason)
  | loadFailed uri reason =>
      .leaf .definition
        ("Failed while loading type for ".toList ++ quoted uri ++ ". ".toList ++ reason)
  | definitionNotFound uri =>
      .leaf .definitionNotFound
        ("Type definition for ".toList ++ quoted uri ++ " does not exist".toList)
  | namespaceNotFound site uri =>
      .leaf .namespaceNotFound (about site uri ++ ", which does not exist".toList)
  | referenceFailed site uri children =>
      ⟨.reference, about site uri ++ ", which failed to resolve".toList, children⟩
  | circular site uri chain =>
      .leaf .circularReference
        (about site uri ++ ", which is already being resolved (".toList
          ++ circle chain uri ++ ")".toList)
  | tooDeep site uri maxDepth =>
      .leaf .reference
        (about site uri ++ " beyond the maximum reference depth of ".toList
          ++ Text.ofNat maxDepth)
  | missingColumn site uri owner selector =>
      .leaf .reference
        (about site uri ++ ", but ".toList ++ quoted owner ++ " has no column ".toList
          ++ quoted selector)
  | invalidReference site uri reason =>
      .leaf .definition
        (about site uri ++ ", which is not a valid namespace URI: ".toList ++ reason)
  | unresolvedReferences key failures =>
      ⟨.reference,
        "Column ".toList ++ quoted key ++ " has ".toList ++ Text.ofNat failures.length
          ++ " unresolved references".toList,
        failures⟩

end Cause

end Typesheet

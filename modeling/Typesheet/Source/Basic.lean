import Typesheet.Address.Uri
import Typesheet.Namespace.Definition

/-!
Contract: where definitions come from.

Owns: the answer to a request, with the ways in which a request can go wrong,
and the source as a pair of questions about a namespace.  A source is a
function: during one load it answers a question the same way every time.
-/

set_option autoImplicit false

namespace Typesheet

inductive FetchFailure where
  | io (detail : Text)
  | document (detail : Text)
  | transport (detail : Text)
deriving DecidableEq, Repr

def FetchFailure.message : FetchFailure → Text
  | .io detail => "IO error: ".toList ++ detail
  | .document detail => "Invalid namespace document: ".toList ++ detail
  | .transport detail => "Transport error: ".toList ++ detail

/-- The end of a request: a value, a failure, or a crash of the store with or
without a message. -/
inductive Answer (Value : Type) where
  | found (value : Value)
  | failed (failure : FetchFailure)
  | crashed (message : Option Text)
deriving DecidableEq, Repr

/-- The value of an answer, or the text that says why there is none. -/
def Answer.toExcept {Value : Type} : Answer Value → Except Text Value
  | .found value => .ok value
  | .failed failure => .error failure.message
  | .crashed message => .error (message.getD "fetch capability panicked".toList)

/-- The two questions about a namespace. -/
structure Source where
  listing : NamespaceUri → Answer Listing
  registration : NamespaceUri → Answer Registration

namespace Source

/-- Ask for the listing and then for the registration.  The first that is not
answered decides. -/
def definition (source : Source) (uri : NamespaceUri) :
    Except Text (Listing × Registration) := do
  let listing ← (source.listing uri).toExcept
  let registration ← (source.registration uri).toExcept
  return (listing, registration)

end Source

/-- Prepared answers for one namespace. -/
structure Script where
  listing : Option (Answer Listing) := none
  registration : Option (Answer Registration) := none

/-- The source that gives prepared answers where there are some. -/
def Source.scripted (scripts : Table Script) (source : Source) : Source where
  listing uri :=
    ((scripts.get? uri.text).bind Script.listing).getD (source.listing uri)
  registration uri :=
    ((scripts.get? uri.text).bind Script.registration).getD (source.registration uri)

end Typesheet

import Typesheet.Json.Read
import Typesheet.Json.Write
import Typesheet.Namespace.Json
import Typesheet.Source.Basic
import Typesheet.Storage.FileTree

/-!
Contract: definitions kept as JSON documents, one file for each namespace.

Owns: the path of a namespace's document, the document of a definition, reading
it back, and the source that readable files serve.  `ns:crm/contacts` is kept in
`crm/contacts.json`.

Does not own: how files are kept.  All that is asked of them is the content under
a path or the reason why there is none, and `FileTree.read` is one such way.
-/

set_option autoImplicit false

namespace Typesheet

namespace Definition

def toDocument (definition : Definition) : Text :=
  definition.toJson.write

def ofDocument? (document : Text) : Option Definition :=
  (Json.read? document).bind (ofJson? Json.maxLevels)

end Definition

namespace DirectoryStore

/-- A path with the extension of documents on its last name. -/
def withExtension : List Text → Path
  | [] => []
  | [last] => [last ++ ".json".toList]
  | segment :: rest => segment :: withExtension rest

def pathOf (uri : NamespaceUri) : Path :=
  withExtension uri.segments

abbrev Reader := Path → Except Refusal ByteArray

/-- The definition of a namespace, none when it has no document. -/
def read (files : Reader) (uri : NamespaceUri) :
    Except FetchFailure (Option Definition) :=
  match files (pathOf uri) with
  | .error .absent => .ok none
  | .error refusal => .error (.io refusal.message)
  | .ok bytes =>
      match Text.ofBytes? bytes with
      | none => .error (.io "content is not UTF-8".toList)
      | some document =>
          match Definition.ofDocument? document with
          | none => .error (.document "content is not a definition".toList)
          | some definition => .ok (some definition)

/-- The answer made from the document of a namespace; a namespace without one has
the default answer. -/
def answer {Value : Type} (default : Value) (view : Definition → Value)
    (files : Reader) (uri : NamespaceUri) : Answer Value :=
  match read files uri with
  | .ok found => .found ((found.map view).getD default)
  | .error failure => .failed failure

def source (files : Reader) : Source where
  listing := answer {} Definition.listing files
  registration := answer {} Definition.registration files

end DirectoryStore

end Typesheet

import Typesheet.Schema.Load

/-!
Contract: a client of one namespace.

Owns: opening a client by a name that may lack the marker, and loading.  A
client whose name is no address keeps the issue that says so and never asks a
source.
-/

set_option autoImplicit false

namespace Typesheet

/-- A namespace, if the name given was one, and its schema as last loaded. -/
structure Client where
  namespaceUri : Option NamespaceUri
  schema : Schema

namespace Client

def ofName (scheme : Scheme) (name : Text) : Client :=
  let normalized := Address.normalize name
  match scheme.readNamespace normalized with
  | .ok uri => ⟨some uri, { uri := uri.text }⟩
  | .error error =>
      ⟨none, {
        uri := normalized
        issues := [(Cause.invalidNamespace name error.message).issue] }⟩

/-- The name was an address. -/
def isValid (client : Client) : Bool :=
  client.namespaceUri.isSome

/-- Load the schema anew, with the namespaces asked for. -/
def load (loader : Loader) (client : Client) : Client × List NamespaceUri :=
  match client.namespaceUri with
  | some uri =>
      let loaded := loader.load [] uri
      ({ client with schema := loaded.schema }, loaded.asked)
  | none => (client, [])

end Client

end Typesheet

import Typesheet.Source.Basic

/-!
Contract: definitions kept in memory.

Owns: the memory store, its changes, and the source that it serves.
-/

set_option autoImplicit false

namespace Typesheet

/-- Definitions by address, and the addresses that the store refuses to answer
for. -/
structure MemoryStore where
  definitions : Table Definition := []
  unavailable : List Text := []

namespace MemoryStore

def insert (uri : Text) (definition : Definition) (store : MemoryStore) : MemoryStore :=
  { store with definitions := store.definitions.set uri definition }

def remove (uri : Text) (store : MemoryStore) : MemoryStore :=
  { store with definitions := store.definitions.remove uri }

/-- Refuse to answer for an address from now on. -/
def failOn (uri : Text) (store : MemoryStore) : MemoryStore :=
  { store with unavailable := uri :: store.unavailable }

/-- The answer made from the definition under an address; an address without one
has the default answer. -/
def answer {Value : Type} (default : Value) (view : Definition → Value)
    (store : MemoryStore) (uri : NamespaceUri) : Answer Value :=
  if uri.text ∈ store.unavailable then
    .failed (.transport (uri.text ++ " is unavailable".toList))
  else .found (((store.definitions.get? uri.text).map view).getD default)

def source (store : MemoryStore) : Source where
  listing := store.answer {} Definition.listing
  registration := store.answer {} Definition.registration

end MemoryStore

end Typesheet

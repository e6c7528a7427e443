import Mathlib.Data.Option.Basic
import Typesheet.Proofs.Column.Order
import Typesheet.Proofs.Namespace.Json
import Typesheet.Proofs.Source.Path
import Typesheet.Schema.Load
import Typesheet.Source.Memory

/-!
Contract: one catalogue of definitions, in memory and in files.

Owns: the catalogue, a finite map from namespaces to definitions; the memory store of it; what
it means that files hold it; and the theorem that the two stores tell a loader the same of
every namespace.

A document may list the columns of its definition in any order: they are keyed, and a loader
sorts them by key.
-/

set_option autoImplicit false

namespace Typesheet

/-- A definition for each of finitely many namespaces, with one column for each key. -/
structure Catalogue where
  entries : List (NamespaceUri × Definition)
  distinct : (entries.map Prod.fst).Nodup
  keyed : ∀ entry ∈ entries, (entry.2.columns.map Prod.fst).Nodup

/-- The definition with its columns in another order. -/
structure Definition.Reorders (other definition : Definition) : Prop where
  typename : other.typename = definition.typename
  implements : other.implements = definition.implements
  columns : other.columns.Perm definition.columns

namespace Catalogue

open DirectoryStore (Reader pathOf)

def definition? (catalogue : Catalogue) (uri : NamespaceUri) : Option Definition :=
  (catalogue.entries.find? fun entry => entry.1 = uri).map Prod.snd

/-- The memory store of the catalogue, which answers for every address. -/
def memory (catalogue : Catalogue) : MemoryStore where
  definitions := catalogue.entries.map fun entry => (entry.1.text, entry.2)

/-- Files hold a catalogue when they have a document of each definition under the path of its
namespace, and nothing else: below the root, what is not a document, nor on the way to one, nor
said to be below one, is absent. -/
structure HeldBy (catalogue : Catalogue) (files : Reader) : Prop where
  document : ∀ entry ∈ catalogue.entries, ∃ written : Definition, written.Reorders entry.2
    ∧ files (pathOf entry.1) = .ok (Text.toBytes written.toDocument)
  absent : ∀ path, path ≠ [] →
    (∀ entry ∈ catalogue.entries, ¬ path <+: pathOf entry.1 ∧ ¬ pathOf entry.1 <+: path) →
    files path = .error .absent

end Catalogue

/-! ## Documents -/

namespace Definition

/-- A definition is read back from its document. -/
theorem ofDocument?_toDocument {definition : Definition}
    (keyed : (definition.columns.map Prod.fst).Nodup) :
    ofDocument? definition.toDocument = some definition := by
  have fits : definition.toJson.depth ≤ Json.maxLevels :=
    (definition.depth_toJson_le 0).trans (by decide)
  rw [ofDocument?, toDocument, Json.read?_write definition.textual_toJson, Option.bind_some]
  exact (givesBack Json.maxLevels keyed).trans (if_pos fits)

theorem Reorders.keyed {other definition : Definition} (reorders : other.Reorders definition)
    (keyed : (definition.columns.map Prod.fst).Nodup) : (other.columns.map Prod.fst).Nodup :=
  (reorders.columns.map Prod.fst).nodup_iff.mpr keyed

end Definition

namespace Catalogue

variable {catalogue : Catalogue} {files : DirectoryStore.Reader} {uri : NamespaceUri}

theorem mem_entries_of_definition? {definition : Definition}
    (found : catalogue.definition? uri = some definition) : (uri, definition) ∈ catalogue.entries := by
  obtain ⟨entry, isFirst, rfl⟩ := Option.map_eq_some_iff.mp found
  obtain rfl : entry.1 = uri := by simpa using List.find?_some isFirst
  exact List.mem_of_find?_eq_some isFirst

/-- Files that hold a catalogue have a document for exactly its namespaces, with the definition
up to the order of its columns. -/
theorem HeldBy.read (held : catalogue.HeldBy files) (uri : NamespaceUri) :
    ∃ found, DirectoryStore.read files uri = .ok found
      ∧ Option.Rel Definition.Reorders found (catalogue.definition? uri) := by
  unfold DirectoryStore.read
  cases defined : catalogue.definition? uri with
  | none =>
      have notListed : ∀ entry ∈ catalogue.entries, entry.1 ≠ uri := by
        intro entry listed same
        have missed := List.find?_eq_none.mp (Option.map_eq_none_iff.mp defined) entry listed
        exact missed (decide_eq_true same)
      have absent : files (DirectoryStore.pathOf uri) = .error .absent := by
        apply held.absent _ (DirectoryStore.pathOf_ne_nil uri)
        intro entry listed
        constructor
        · intro starts
          exact notListed entry listed (DirectoryStore.eq_of_pathOf_isPrefix starts).symm
        · intro starts
          exact notListed entry listed (DirectoryStore.eq_of_pathOf_isPrefix starts)
      rw [absent]
      exact ⟨none, rfl, .none⟩
  | some definition =>
      have listed := mem_entries_of_definition? defined
      obtain ⟨written, reorders, content⟩ := held.document _ listed
      have keyed := reorders.keyed (catalogue.keyed _ listed)
      rw [content]
      simp only [Text.ofBytes?_toBytes, Definition.ofDocument?_toDocument keyed]
      exact ⟨some written, rfl, .some reorders⟩

/-- The memory store has the definitions of the catalogue. -/
theorem get?_memory (catalogue : Catalogue) (uri : NamespaceUri) :
    catalogue.memory.definitions.get? uri.text = catalogue.definition? uri := by
  have sameText (other : NamespaceUri) : other.text = uri.text ↔ other = uri :=
    ⟨fun same => by cases other; cases uri; cases same; rfl, congrArg NamespaceUri.text⟩
  unfold memory definition?
  induction catalogue.entries with
  | nil => rfl
  | cons entry rest inductionHypothesis =>
      rw [List.map_cons, Table.get?, List.find?_cons]
      by_cases isUri : entry.1 = uri
      · rw [if_pos ((sameText _).mpr isUri), decide_eq_true isUri]
        rfl
      · rw [if_neg fun same => isUri ((sameText _).mp same), decide_eq_false isUri]
        exact inductionHypothesis

/-- Files with a document of each definition, the last of its columns first. -/
def documents (catalogue : Catalogue) : DirectoryStore.Reader := fun path =>
  match catalogue.entries.find? fun entry => DirectoryStore.pathOf entry.1 = path with
  | some entry =>
      .ok (Text.toBytes
        (Definition.toDocument { entry.2 with columns := entry.2.columns.reverse }))
  | none => .error .absent

theorem heldBy_documents (catalogue : Catalogue) : catalogue.HeldBy catalogue.documents where
  document entry listed := by
    refine ⟨{ entry.2 with columns := entry.2.columns.reverse },
      ⟨rfl, rfl, List.reverse_perm _⟩, ?_⟩
    unfold documents
    cases found : catalogue.entries.find? fun other =>
        DirectoryStore.pathOf other.1 = DirectoryStore.pathOf entry.1 with
    | none => exact absurd (decide_eq_true rfl) (List.find?_eq_none.mp found entry listed)
    | some other =>
        have samePath : DirectoryStore.pathOf other.1 = DirectoryStore.pathOf entry.1 := by
          simpa using List.find?_some found
        have sameUri := DirectoryStore.pathOf_injective samePath
        have isOther := List.mem_of_find?_eq_some found
        rw [List.inj_on_of_nodup_map catalogue.distinct isOther listed sameUri]
  absent path _ apart := by
    unfold documents
    cases found : catalogue.entries.find? fun entry => DirectoryStore.pathOf entry.1 = path with
    | none => rfl
    | some entry =>
        have isPath : DirectoryStore.pathOf entry.1 = path := by
          simpa using List.find?_some found
        have fromStart := (apart entry (List.mem_of_find?_eq_some found)).1
        rw [isPath] at fromStart
        exact absurd (List.prefix_refl path) fromStart

/-! ## Answers -/

/-- The listing of a namespace in the catalogue; one without a definition has no columns. -/
def listing (catalogue : Catalogue) (uri : NamespaceUri) : Listing :=
  ((catalogue.definition? uri).map Definition.listing).getD {}

def registration (catalogue : Catalogue) (uri : NamespaceUri) : Registration :=
  ((catalogue.definition? uri).map Definition.registration).getD {}

theorem nodup_keys_listing (catalogue : Catalogue) (uri : NamespaceUri) :
    ((catalogue.listing uri).columns.map Prod.fst).Nodup := by
  unfold listing
  cases defined : catalogue.definition? uri with
  | none => exact List.nodup_nil
  | some definition => exact catalogue.keyed _ (mem_entries_of_definition? defined)

theorem definition_memory (catalogue : Catalogue) (uri : NamespaceUri) :
    catalogue.memory.source.definition uri
      = .ok (catalogue.listing uri, catalogue.registration uri) := by
  have answers {Value : Type} (default : Value) (view : Definition → Value) :
      MemoryStore.answer default view catalogue.memory uri
        = .found (((catalogue.definition? uri).map view).getD default) := by
    rw [MemoryStore.answer, get?_memory]
    exact if_neg List.not_mem_nil
  simp only [Source.definition, MemoryStore.source, answers]
  rfl

/-- Files that hold a catalogue answer like its memory store, up to the order of columns. -/
theorem HeldBy.definition (held : catalogue.HeldBy files) (uri : NamespaceUri) :
    ∃ listing : Listing, listing.columns.Perm (catalogue.listing uri).columns
      ∧ (DirectoryStore.source files).definition uri
        = .ok (listing, catalogue.registration uri) := by
  obtain ⟨found, read, same⟩ := held.read uri
  have answers {Value : Type} (default : Value) (view : Definition → Value) :
      DirectoryStore.answer default view files uri = .found ((found.map view).getD default) := by
    rw [DirectoryStore.answer, read]
  refine ⟨(found.map Definition.listing).getD {}, ?_, ?_⟩
  · unfold listing
    generalize catalogue.definition? uri = defined at same
    cases same with
    | none => exact List.Perm.refl []
    | some reorders => exact reorders.columns
  · have registered : (found.map Definition.registration).getD {} = catalogue.registration uri := by
      unfold registration
      generalize catalogue.definition? uri = defined at same
      cases same with
      | none => rfl
      | some reorders =>
          simp only [Option.map_some, Option.getD_some, Definition.registration,
            reorders.typename, reorders.implements]
    simp only [Source.definition, DirectoryStore.source, answers, registered]
    rfl

end Catalogue

end Typesheet

import Typesheet.Proofs.Load.Listing
import Typesheet.Proofs.Source.Catalogue

/-!
Contract: stores that hold the same definitions are interchangeable.

Owns: that a catalogue in memory and in files declares the same of every namespace; and the
theorem that a load from memory and a load from files give the same schema, whatever the
definitions are.

The two stores list the columns of a definition in different orders, so their answers differ.
What a load makes of a listing does not, since keyed columns are sorted in one way only.
-/

set_option autoImplicit false

namespace Typesheet.Loader

theorem declareSame_of_heldBy {catalogue : Catalogue} {files : DirectoryStore.Reader}
    (held : catalogue.HeldBy files) (scheme : Scheme) (uri : NamespaceUri) :
    DeclareSame scheme catalogue.memory.source (DirectoryStore.source files) uri := by
  obtain ⟨listing, perm, answered⟩ := held.definition uri
  exact .answered (catalogue.definition_memory uri) answered
    (declaredColumns_eq_of_perm scheme (catalogue.nodup_keys_listing uri) perm)

/-- **The two stores are interchangeable.**  Let a catalogue of definitions be held in memory
and in files, with a document of each definition under the path of its namespace and with the
columns of each in any order.  Documents do not get in each other's way: two namespaces have
different paths, and neither path is on the way to the other.  And whatever the scheme and the
depth limit, a load of any namespace from the files gives the schema that a load from memory
gives, and so does every client, whatever name it was opened by. -/
theorem load_files_eq_load_memory (scheme : Scheme) (maxDepth : Nat) (catalogue : Catalogue)
    (files : DirectoryStore.Reader) (held : catalogue.HeldBy files) :
    let fromMemory : Loader := { scheme, source := catalogue.memory.source, maxDepth }
    let fromFiles : Loader := { scheme, source := DirectoryStore.source files, maxDepth }
    (∀ uri other : NamespaceUri, uri ≠ other →
        DirectoryStore.pathOf uri ≠ DirectoryStore.pathOf other
          ∧ ¬ DirectoryStore.pathOf uri <+: DirectoryStore.pathOf other)
      ∧ (∀ ancestors root,
          (fromFiles.load ancestors root).schema = (fromMemory.load ancestors root).schema)
      ∧ ∀ name, (Client.load fromFiles (Client.ofName scheme name)).1
          = (Client.load fromMemory (Client.ofName scheme name)).1 := by
  intro fromMemory fromFiles
  have sameSchema (ancestors : List Text) (root : NamespaceUri) :
      (fromFiles.load ancestors root).schema = (fromMemory.load ancestors root).schema :=
    (@schema_load_eq_of_declareSame fromMemory _ _
      (declareSame_of_heldBy held scheme) ancestors root).symm
  refine ⟨?_, sameSchema, ?_⟩
  · intro uri other distinct
    exact ⟨fun same => distinct (DirectoryStore.pathOf_injective same),
      fun starts => distinct (DirectoryStore.eq_of_pathOf_isPrefix starts)⟩
  · intro name
    unfold Client.load
    cases (Client.ofName scheme name).namespaceUri with
    | none => rfl
    | some uri => simp only [sameSchema]

/-- A namespace whose document lies beside the directory of the one that it refers to. -/
private def crm : Catalogue where
  entries :=
    [(⟨"ns:crm".toList, by decide⟩,
        (Definition.named "Crm".toList).withColumn "A".toList "owner".toList
          "ns:crm/contacts.email".toList),
      (⟨"ns:crm/contacts".toList, by decide⟩,
        ((Definition.named []).withColumn "B".toList "email".toList "string".toList).withColumn
          "A".toList "name".toList "string".toList)]
  distinct := by decide
  keyed := by decide

private def crmUri : NamespaceUri :=
  ⟨"ns:crm".toList, by decide⟩

theorem load_crm_files_eq_load_crm_memory :
    crm.HeldBy crm.documents
      ∧ (load ⟨.standard, DirectoryStore.source crm.documents, 2⟩ [] crmUri).schema
        = (load ⟨.standard, crm.memory.source, 2⟩ [] crmUri).schema :=
  ⟨crm.heldBy_documents,
    (load_files_eq_load_memory .standard 2 crm crm.documents crm.heldBy_documents).2.1 [] crmUri⟩

end Typesheet.Loader

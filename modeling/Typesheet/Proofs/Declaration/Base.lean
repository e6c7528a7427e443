import Typesheet.Proofs.Declaration.Names
import Typesheet.Schema.Client
import Typesheet.Source.Memory

/-!
Contract: what the root of a document extends.

Owns: the interface that the root of a document extends when the schema has a resolved base,
and the theorem that it is another interface than the root exactly when the base has another
type name or other columns.

Interfaces are told apart by type name and columns only, and the root is registered first.  A
base that has both in common with the root is therefore not registered, and the name that it is
written with is the root's.
-/

set_option autoImplicit false

namespace Typesheet.Declaration

section Base

variable {schema : Schema} {ref : Ref}

/-- The root of a document with a resolved base extends an interface of the document that has
the type name and the columns of the base. -/
theorem exists_base_of_root (based : baseReference schema.implements = some ref) :
    let interfaces := interfacesOf schema.uri schema.typename schema.implements schema.columns
    ∃ root rest, interfaces = root :: rest
      ∧ root.shape = rootShape schema.uri schema.typename schema.columns
      ∧ ∃ target ∈ interfaces, target.shape = ref.shape ∧ root.base = some target.name := by
  intro interfaces
  obtain ⟨_, root, rest, listed, _, rootEq, base⟩ := interfacesOf_collected schema.uri
    schema.typename schema.implements schema.columns
  have starts : ref ∈ startingRefs schema.implements schema.columns := by
    rw [startingRefs, based]
    exact List.mem_cons_self
  obtain ⟨target, inList, same, named⟩ :=
    exists_nameOf?_of_mem_shapes (shape_mem_of_mem_startingRefs starts)
  refine ⟨root, rest, listed, rootEq, target, inList, same, ?_⟩
  rw [base, based, Option.map_some, referenceName, named, Option.getD_some]

theorem eq_of_shape_eq {interface other : Interface}
    (listed : interface
      ∈ interfacesOf schema.uri schema.typename schema.implements schema.columns)
    (otherListed : other
      ∈ interfacesOf schema.uri schema.typename schema.implements schema.columns)
    (sameShape : interface.shape = other.shape) : interface = other :=
  List.inj_on_of_nodup_map (nodup_shapes_interfacesOf _ _ _ _) listed otherListed sameShape

end Base

/-- The text of an interface opens with its name and the name of what it extends. -/
theorem opening_prefix_interfaceText (nameOf : Ref → Text) (pad : Text) {interface : Interface}
    {base : Text} (extending : interface.base = some base) :
    "export interface ".toList ++ interface.name ++ " extends ".toList ++ base
      <+: interfaceText nameOf pad interface := by
  obtain ⟨rest, text⟩ := exists_opening_interfaceText nameOf pad interface
  rw [text, extending]
  exact ⟨" \x7b".toList ++ rest, by simp⟩

/-- **When a rendered interface extends another.**  The root of the document of a schema with a
resolved base extends the one interface of the document that has the name written, and this is
an interface with the type name and the columns of the base.  It is another interface than the
root, and has another name, exactly when the base differs from the root in its type name or its
columns. -/
theorem extends_other_iff_shape_ne (schema : Schema) (options : RenderOptions) (ref : Ref)
    (based : baseReference schema.implements = some ref) :
    let interfaces := interfacesOf schema.uri schema.typename schema.implements schema.columns
    let nameOf := referenceName interfaces
    let pad := List.replicate options.indent ' '
    renderSchema options schema
        = (if options.includeHeader then header schema.uri else [])
          ++ "\n".toList.intercalate (interfaces.map (interfaceText nameOf pad))
      ∧ ∃ root rest, interfaces = root :: rest
        ∧ root.typename = rootName schema.uri schema.typename ∧ root.columns = schema.columns
        ∧ ∃ target ∈ interfaces,
          "export interface ".toList ++ root.name ++ " extends ".toList ++ target.name
              <+: interfaceText nameOf pad root
            ∧ (∀ other ∈ interfaces, other.name = target.name → other = target)
            ∧ target.typename = ref.typename ∧ target.columns = ref.columns
            ∧ (target.name ≠ root.name
              ↔ ref.typename ≠ rootName schema.uri schema.typename
                ∨ ref.columns ≠ schema.columns) := by
  intro interfaces nameOf pad
  obtain ⟨root, rest, listed, rootEq, target, inList, same, base⟩ := exists_base_of_root based
  obtain ⟨rootTypename, rootColumns⟩ := Prod.mk.inj rootEq
  obtain ⟨typename, columns⟩ := Prod.mk.inj same
  have isRoot : root ∈ interfaces := by
    rw [show interfaces = root :: rest from listed]
    exact List.mem_cons_self
  refine ⟨rfl, root, rest, listed, rootTypename, rootColumns, target, inList,
    opening_prefix_interfaceText nameOf pad base, ?_, typename, columns, ?_⟩
  · intro other otherListed sameName
    exact eq_of_name_eq otherListed inList sameName
  · rw [← typename, ← columns, ← rootTypename, ← rootColumns, ← not_and_or, not_iff_not]
    constructor
    · intro sameName
      rw [eq_of_name_eq inList isRoot sameName]
      exact ⟨rfl, rfl⟩
    · rintro ⟨sameTypename, sameColumns⟩
      rw [eq_of_shape_eq inList isRoot (Prod.ext sameTypename sameColumns)]

/-- Two namespaces, the first of which implements the second, with the given type name for the
second. -/
private def items (typename : String) : Loader where
  scheme := .standard
  source := MemoryStore.source
    { definitions :=
        [("ns:shop/item".toList,
            ((Definition.named "Item".toList).withColumn "A".toList "id".toList
              "string".toList).implementing "ns:legacy/item".toList),
          ("ns:legacy/item".toList,
            (Definition.named typename.toList).withColumn "A".toList "id".toList
              "string".toList)] }
  maxDepth := 2

private def itemUri : NamespaceUri :=
  ⟨"ns:shop/item".toList, by decide⟩

/-- What the item implements, as it is loaded under the given type name. -/
private def legacyItem (typename : String) : Ref :=
  (Reference.toNamespace "ns:legacy/item".toList false).resolve typename.toList
    [{ key := "A".toList, name := "id".toList, type := .keyword .string false }]

theorem item_extends_old_item :
    let schema := ((items "OldItem").load [] itemUri).schema
    let interfaces := interfacesOf schema.uri schema.typename schema.implements schema.columns
    baseReference schema.implements = some (legacyItem "OldItem")
      ∧ ∃ root rest, interfaces = root :: rest
        ∧ ∃ target ∈ interfaces, target.typename = "OldItem".toList
          ∧ target.name ≠ root.name := by
  intro schema interfaces
  have based : baseReference schema.implements = some (legacyItem "OldItem") := by
    decide +kernel
  obtain ⟨_, root, rest, listed, _, _, target, inList, _, _, typename, _, isOther⟩ :=
    extends_other_iff_shape_ne schema {} (legacyItem "OldItem") based
  refine ⟨based, root, rest, listed, target, inList, typename, isOther.mpr (.inl ?_)⟩
  decide +kernel

/-- A namespace that implements another one with the same type name and the same columns loads
without issues, and its interface is rendered as extending itself. -/
theorem item_extends_itself :
    ((items "Item").load [] itemUri).schema.isOk = true
      ∧ ((items "Item").load [] itemUri).schema.implements
        = some (.reference (legacyItem "Item"))
      ∧ (legacyItem "Item").isResolved = true
      ∧ (legacyItem "Item").uri ≠ ((items "Item").load [] itemUri).schema.uri
      ∧ renderSchema { includeHeader := false, indent := 2 }
          ((items "Item").load [] itemUri).schema
        = "export interface Item extends Item \x7b\n  id: string;\n\x7d\n".toList := by
  decide +kernel

end Typesheet.Declaration

import Typesheet.Proofs.Declaration.Interfaces

/-!
Contract: the interfaces of the document of a schema.

Owns: the references that a schema starts from, what the text of an interface opens with, and
the theorem that its document declares an interface for its root and for each shape that it
uses, so that no reference in the document is left without an interface.
-/

set_option autoImplicit false

namespace Typesheet.Declaration

/-- The resolved references that a document starts from: the base of its root, if it has a
resolved one, and those in the columns of its root. -/
def startingRefs (implements : Option ColumnType) (columns : List Field) : List Ref :=
  (baseReference implements).toList ++ resolvedIn columns

theorem isResolved_of_baseReference {implements : Option ColumnType} {ref : Ref}
    (based : baseReference implements = some ref) : ref.isResolved = true := by
  unfold baseReference at based
  split at based
  case h_1 other =>
    split at based
    case isTrue isResolved =>
      rw [← Option.some.inj based]
      exact isResolved
    case isFalse => exact absurd based (by simp)
  case h_2 => exact absurd based (by simp)

/-! ## The text of an interface -/

/-- What the text of an interface opens with. -/
theorem exists_opening_interfaceText (nameOf : Ref → Text) (pad : Text) (interface : Interface) :
    ∃ rest, interfaceText nameOf pad interface
      = "export interface ".toList ++ interface.name
        ++ (interface.base.map fun base => " extends ".toList ++ base).getD []
        ++ " \x7b".toList ++ rest := by
  unfold interfaceText
  by_cases noColumns : interface.columns = []
  · refine ⟨"\x7d\n".toList, ?_⟩
    simp only [noColumns, ↓reduceIte]
    cases interface.base <;> simp [lines]
  · refine ⟨"\n".toList ++ lines (interface.columns.flatMap (columnLines nameOf pad)
      ++ ["\x7d".toList]), ?_⟩
    simp only [noColumns, ↓reduceIte]
    cases interface.base <;> simp [lines]

/-! ## Collecting behind a root -/

theorem referenceName_congr {interfaces other : List Interface}
    (same : nameOf? interfaces = nameOf? other) :
    referenceName interfaces = referenceName other := by
  funext ref
  unfold referenceName
  rw [same]

/-- Collecting behind a list whose root was given a base is collecting behind the list and
giving its root the base afterwards. -/
theorem Collects.exists_of_extendRoot {base : Text} {root : Interface}
    {rest after : List Interface} {refs : List Ref}
    (collects : Collects (extendRoot base (root :: rest)) refs after) :
    ∃ plain, after = extendRoot base plain ∧ Collects (root :: rest) refs plain := by
  obtain ⟨added, rfl⟩ := collects.kept
  have shapesEq : shapes (extendRoot base (root :: rest) ++ added)
      = shapes (root :: rest ++ added) :=
    shapes_extendRoot base (root :: rest ++ added)
  refine ⟨root :: rest ++ added, rfl, List.prefix_append _ _, ?_, ?_, ?_, ?_⟩
  · have distinct := collects.distinct
    rwa [shapesEq, shapes_extendRoot] at distinct
  · have used := collects.used
    rwa [shapesEq, shapes_extendRoot] at used
  · have closed := collects.closed
    rwa [shapesEq, shapes_extendRoot] at closed
  · have complete := collects.complete
    rwa [shapesEq] at complete

section Document

variable (uri typename : Text) (implements : Option ColumnType) (columns : List Field)

theorem addShape_nil (name : Text) :
    addShape [] name columns = [{ name, typename := name, columns }] := by
  simp [addShape, freeName]

/-- The interfaces of a document are collected behind the root from what it starts from,
and the root extends the interface of its base, if there is one. -/
theorem exists_collects_interfacesOf :
    ∃ plain, Collects (addShape [] (rootName uri typename) columns)
        (startingRefs implements columns) plain
      ∧ interfacesOf uri typename implements columns
        = match baseReference implements with
          | none => plain
          | some ref => extendRoot (referenceName plain ref) plain := by
  unfold interfacesOf startingRefs
  cases based : baseReference implements with
  | none => exact ⟨_, collects_columns columns _, rfl⟩
  | some ref =>
      simp only [Option.toList_some]
      have first := collects_reference (isResolved_of_baseReference based)
        (addShape [] (rootName uri typename) columns)
      obtain ⟨root, rest, collected⟩ : ∃ root rest,
          collectReference (addShape [] (rootName uri typename) columns) ref = root :: rest := by
        obtain ⟨added, same⟩ := first.kept
        rw [addShape_nil] at same ⊢
        exact ⟨_, _, same.symm⟩
      rw [collected] at first ⊢
      obtain ⟨plain, same, second⟩ := (collects_columns columns
        (extendRoot (referenceName (root :: rest) ref) (root :: rest))).exists_of_extendRoot
      refine ⟨plain, first.append second, ?_⟩
      obtain ⟨target, _, _, named⟩ :=
        exists_nameOf?_of_mem_shapes (first.complete ref (List.mem_singleton_self ref))
      have later := nameOf?_of_isPrefix second.kept named
      have kept : referenceName plain ref = referenceName (root :: rest) ref := by
        unfold referenceName
        rw [named, later]
      rw [same, kept]

/-- The interfaces of a document have the names and shapes of a list collected behind the
root; the root stands first, under its own name, and extends the interface of its base. -/
theorem interfacesOf_collected :
    let interfaces := interfacesOf uri typename implements columns
    (∃ plain, Collects (addShape [] (rootName uri typename) columns)
        (startingRefs implements columns) plain
      ∧ shapes interfaces = shapes plain ∧ nameOf? interfaces = nameOf? plain)
      ∧ ∃ root rest, interfaces = root :: rest ∧ root.name = rootName uri typename
        ∧ root.shape = (rootName uri typename, columns)
        ∧ root.base = (baseReference implements).map (referenceName interfaces) := by
  intro interfaces
  obtain ⟨plain, collects, made⟩ :=
    exists_collects_interfacesOf uri typename implements columns
  obtain ⟨added, behind⟩ := collects.kept
  rw [addShape_nil] at behind
  cases based : baseReference implements with
  | none =>
      have plainly : interfaces = plain := by simpa only [based] using made
      refine ⟨⟨plain, collects, congrArg shapes plainly, congrArg nameOf? plainly⟩, ?_⟩
      exact ⟨_, added, plainly.trans behind.symm, rfl, rfl, rfl⟩
  | some ref =>
      have extended : interfaces = extendRoot (referenceName plain ref) plain := by
        simpa only [based] using made
      have shapesEq : shapes interfaces = shapes plain := by
        rw [extended]
        exact shapes_extendRoot _ plain
      have namesEq : nameOf? interfaces = nameOf? plain := by
        rw [extended]
        exact nameOf?_extendRoot _ plain
      refine ⟨⟨plain, collects, shapesEq, namesEq⟩, ?_⟩
      rw [referenceName_congr namesEq, extended, ← behind]
      exact ⟨_, added, rfl, rfl, rfl, rfl⟩

/-! ## The shapes of a document -/

def rootShape : Shape :=
  (rootName uri typename, columns)

/-- A shape that a document uses: that of a reference that it starts from, or of one used
through resolved references from there. -/
def UsesShape (shape : Shape) : Prop :=
  ∃ outer ∈ startingRefs implements columns, ∃ ref, Reaches outer ref ∧ ref.shape = shape

theorem shapes_addShape_root :
    shapes (addShape [] (rootName uri typename) columns) = [rootShape uri typename columns] :=
  shapes_addShape [] _ _

theorem exists_shapes_interfacesOf_eq_cons :
    ∃ others, shapes (interfacesOf uri typename implements columns)
      = rootShape uri typename columns :: others := by
  obtain ⟨_, root, rest, listed, _, rootEq, _⟩ :=
    interfacesOf_collected uri typename implements columns
  refine ⟨shapes rest, ?_⟩
  rw [listed, shapes, List.map_cons, rootEq]
  rfl

theorem nodup_shapes_interfacesOf :
    (shapes (interfacesOf uri typename implements columns)).Nodup := by
  obtain ⟨⟨plain, collects, shapesEq, _⟩, _⟩ :=
    interfacesOf_collected uri typename implements columns
  rw [shapesEq]
  apply collects.distinct
  rw [shapes_addShape_root]
  exact List.nodup_singleton _

variable {uri typename implements columns}

/-- The shapes of a document are closed under use: those of the root's columns are all
collected, and every other shape was closed when it was added. -/
theorem shape_mem_shapes_interfacesOf {shape : Shape}
    (member : shape ∈ shapes (interfacesOf uri typename implements columns)) {ref : Ref}
    (inColumns : ref ∈ resolvedIn shape.2) :
    ref.shape ∈ shapes (interfacesOf uri typename implements columns) := by
  obtain ⟨⟨plain, collects, shapesEq, _⟩, _⟩ :=
    interfacesOf_collected uri typename implements columns
  rw [shapesEq] at member ⊢
  rcases collects.closed shape member with isRoot | closed
  · rw [shapes_addShape_root, List.mem_singleton] at isRoot
    rw [isRoot] at inColumns
    exact collects.complete ref (List.mem_append_right _ inColumns)
  · exact closed ref inColumns

theorem shape_mem_of_mem_startingRefs {ref : Ref}
    (starts : ref ∈ startingRefs implements columns) :
    ref.shape ∈ shapes (interfacesOf uri typename implements columns) := by
  obtain ⟨⟨plain, collects, shapesEq, _⟩, _⟩ :=
    interfacesOf_collected uri typename implements columns
  rw [shapesEq]
  exact collects.complete ref starts

theorem mem_shapes_interfacesOf_iff {shape : Shape} :
    shape ∈ shapes (interfacesOf uri typename implements columns)
      ↔ shape = rootShape uri typename columns ∨ UsesShape implements columns shape := by
  constructor
  · obtain ⟨⟨plain, collects, shapesEq, _⟩, _⟩ :=
      interfacesOf_collected uri typename implements columns
    rw [shapesEq]
    intro member
    rcases collects.used shape member with isRoot | used
    · rw [shapes_addShape_root, List.mem_singleton] at isRoot
      exact .inl isRoot
    · exact .inr used
  · rintro (rfl | ⟨outer, starts, ref, reaches, rfl⟩)
    · obtain ⟨others, listed⟩ :=
        exists_shapes_interfacesOf_eq_cons uri typename implements columns
      rw [listed]
      exact List.mem_cons_self
    · have start := @shape_mem_of_mem_startingRefs uri typename implements columns outer starts
      clear starts
      induction reaches with
      | self => exact start
      | within member _ inductionHypothesis =>
          exact inductionHypothesis (shape_mem_shapes_interfacesOf start member)

/-- Without a base the shapes stand in depth-first order of first use. -/
theorem shapes_interfacesOf_of_no_base (noBase : baseReference implements = none) :
    shapes (interfacesOf uri typename implements columns)
      = (rootShape uri typename columns
          :: (usedBy columns).map Reference.shape).eraseDups := by
  have opened : ClosedBelow (sizeOf columns) (addShape [] (rootName uri typename) columns) :=
    ClosedBelow.addShape fun _ member => absurd member List.not_mem_nil
  unfold interfacesOf
  rw [noBase]
  show shapes (collectColumns (addShape [] (rootName uri typename) columns) columns) = _
  rw [shapes_collectColumns opened, shapes_addShape_root, record_singleton]

end Document

/-- **A rendered document declares exactly the types it uses.**  The document of a schema
is made of the texts of its interfaces.  The first is that of the root, and behind it there
is one for each other shape that the root's base and columns use, through resolved
references to any depth.  Without a base they stand in depth-first order of first use.
Every resolved reference in the columns of an interface, and the base, is named after an
interface of its own type name and columns. -/
theorem interfaces_of_document (schema : Schema) (options : RenderOptions) :
    let interfaces := interfacesOf schema.uri schema.typename schema.implements schema.columns
    let root := rootShape schema.uri schema.typename schema.columns
    renderSchema options schema
        = (if options.includeHeader then header schema.uri else [])
          ++ "\n".toList.intercalate (interfaces.map
            (interfaceText (referenceName interfaces) (List.replicate options.indent ' ')))
      ∧ (∃ others, shapes interfaces = root :: others ∧ (root :: others).Nodup
          ∧ ∀ shape, shape ∈ others
            ↔ shape ≠ root ∧ UsesShape schema.implements schema.columns shape)
      ∧ (baseReference schema.implements = none →
          shapes interfaces
            = (root :: (usedBy schema.columns).map Reference.shape).eraseDups)
      ∧ (∀ interface ∈ interfaces, ∀ field ∈ interface.columns,
          ∀ ref ∈ field.type.references, ref.isResolved = true →
            ∃ target ∈ interfaces, target.shape = ref.shape
              ∧ nameOf? interfaces ref.typename ref.columns = some target.name
              ∧ referenceName interfaces ref = target.name)
      ∧ ∀ ref ∈ baseReference schema.implements,
          ∃ target ∈ interfaces, target.shape = ref.shape
            ∧ nameOf? interfaces ref.typename ref.columns = some target.name
            ∧ interfaces.head?.bind Interface.base = some target.name := by
  intro interfaces root
  refine ⟨rfl, ?_, shapes_interfacesOf_of_no_base, ?_, ?_⟩
  · obtain ⟨others, listed⟩ := exists_shapes_interfacesOf_eq_cons schema.uri schema.typename
      schema.implements schema.columns
    have distinct : (root :: others).Nodup := by
      rw [← listed]
      exact nodup_shapes_interfacesOf _ _ _ _
    refine ⟨others, listed, distinct, ?_⟩
    intro shape
    have listedIff : shape ∈ root :: others
        ↔ shape = root ∨ UsesShape schema.implements schema.columns shape := by
      rw [← listed]
      exact mem_shapes_interfacesOf_iff
    constructor
    · intro member
      have notRoot : shape ≠ root :=
        fun isRoot => (List.nodup_cons.mp distinct).1 (isRoot ▸ member)
      exact ⟨notRoot, (listedIff.mp (List.mem_cons_of_mem _ member)).resolve_left notRoot⟩
    · rintro ⟨notRoot, used⟩
      exact (List.mem_cons.mp (listedIff.mpr (.inr used))).resolve_left notRoot
  · intro interface member field inColumns ref inType isResolved
    have inShape : interface.shape ∈ shapes interfaces := List.mem_map_of_mem member
    obtain ⟨target, inList, same, named⟩ := exists_nameOf?_of_mem_shapes
      (shape_mem_shapes_interfacesOf inShape
        (mem_resolvedIn_iff.mpr ⟨⟨field, inColumns, inType⟩, isResolved⟩))
    refine ⟨target, inList, same, named, ?_⟩
    rw [referenceName, named]
    rfl
  · intro ref based
    have starts : ref ∈ startingRefs schema.implements schema.columns := by
      rw [startingRefs, Option.mem_def.mp based]
      exact List.mem_cons_self
    obtain ⟨target, inList, same, named⟩ :=
      exists_nameOf?_of_mem_shapes (shape_mem_of_mem_startingRefs starts)
    obtain ⟨_, first, rest, listed, _, _, base⟩ := interfacesOf_collected schema.uri
      schema.typename schema.implements schema.columns
    refine ⟨target, inList, same, named, ?_⟩
    change interfaces = first :: rest at listed
    change first.base = (baseReference schema.implements).map (referenceName interfaces) at base
    rw [listed, List.head?_cons, Option.bind_some, base, Option.mem_def.mp based,
      Option.map_some, referenceName, named]
    rfl

end Typesheet.Declaration

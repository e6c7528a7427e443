import Mathlib.Data.List.Nodup
import Typesheet.Proofs.Declaration.Usage

/-!
Contract: a document declares exactly the types that it uses.

Owns: what collecting references adds to a list of interfaces, with the order in which it
adds it, and the theorem about the interfaces of a rendered schema.

Collecting stops at a shape that was added before, also where its columns are still to be
gone through.  `Collects` is the invariant that allows for this: every added shape has the
shapes of its own references added by the end.  The order needs more, namely that the
shapes which are still open are larger than what is being collected (`ClosedBelow`), and so
it is only given for a schema without a base.
-/

set_option autoImplicit false

namespace Typesheet.Declaration

def Interface.shape (interface : Interface) : Shape :=
  (interface.typename, interface.columns)

def shapes (interfaces : List Interface) : List Shape :=
  interfaces.map Interface.shape

section Names

variable {interfaces later : List Interface}

theorem Interface.hasShape_iff {interface : Interface} {typename : Text}
    {columns : List Field} :
    interface.hasShape typename columns = true ↔ interface.shape = (typename, columns) := by
  simp [Interface.hasShape, Interface.shape]

theorem exists_nameOf?_of_mem_shapes {ref : Ref} (member : ref.shape ∈ shapes interfaces) :
    ∃ target ∈ interfaces, target.shape = ref.shape
      ∧ nameOf? interfaces ref.typename ref.columns = some target.name := by
  obtain ⟨interface, listed, same⟩ := List.mem_map.mp member
  unfold nameOf?
  cases found : interfaces.find? (Interface.hasShape ref.typename ref.columns) with
  | none =>
      have missed := List.find?_eq_none.mp found interface listed
      exact absurd (Interface.hasShape_iff.mpr same) missed
  | some target =>
      exact ⟨target, List.mem_of_find?_eq_some found,
        Interface.hasShape_iff.mp (List.find?_some found), rfl⟩

theorem isSome_nameOf?_iff {ref : Ref} :
    (nameOf? interfaces ref.typename ref.columns).isSome = true
      ↔ ref.shape ∈ shapes interfaces := by
  constructor
  · intro named
    unfold nameOf? at named
    rw [Option.isSome_map, List.find?_isSome] at named
    obtain ⟨interface, listed, same⟩ := named
    exact List.mem_map.mpr ⟨interface, listed, Interface.hasShape_iff.mp same⟩
  · intro member
    obtain ⟨target, _, _, named⟩ := exists_nameOf?_of_mem_shapes member
    rw [named]
    rfl

theorem nameOf?_of_isPrefix (kept : interfaces <+: later) {typename name : Text}
    {columns : List Field} (named : nameOf? interfaces typename columns = some name) :
    nameOf? later typename columns = some name := by
  obtain ⟨added, rfl⟩ := kept
  unfold nameOf? at named ⊢
  rw [List.find?_append]
  cases found : interfaces.find? (Interface.hasShape typename columns) with
  | none => simp [found] at named
  | some target => simpa [found] using named

theorem shapes_subset_of_isPrefix (kept : interfaces <+: later) :
    shapes interfaces ⊆ shapes later :=
  (kept.map Interface.shape).subset

theorem shapes_addShape (interfaces : List Interface) (typename : Text) (columns : List Field) :
    shapes (addShape interfaces typename columns) = shapes interfaces ++ [(typename, columns)] := by
  simp [shapes, addShape, Interface.shape]

theorem shapes_extendRoot (base : Text) (interfaces : List Interface) :
    shapes (extendRoot base interfaces) = shapes interfaces := by
  cases interfaces <;> rfl

theorem nameOf?_extendRoot (base : Text) (interfaces : List Interface) :
    nameOf? (extendRoot base interfaces) = nameOf? interfaces := by
  funext typename columns
  cases interfaces with
  | nil => rfl
  | cons root rest =>
      have same : Interface.hasShape typename columns { root with base := some base }
          = Interface.hasShape typename columns root := rfl
      unfold nameOf? extendRoot
      rw [List.find?_cons, List.find?_cons, same]
      cases Interface.hasShape typename columns root <;> rfl

end Names

/-! ## Collecting, reference by reference -/

mutual

theorem collectType_eq_foldl : ∀ (type : ColumnType) (interfaces : List Interface),
    collectType interfaces type = type.references.foldl collectReference interfaces
  | .reference _, _ => rfl
  | .union _ members _, interfaces => collectMembers_eq_foldl members interfaces
  | .keyword .., _ => rfl
  | .literal .., _ => rfl
  | .unknown .., _ => rfl

theorem collectMembers_eq_foldl : ∀ (types : List ColumnType) (interfaces : List Interface),
    collectMembers interfaces types
      = (ColumnType.referencesAll types).foldl collectReference interfaces
  | [], _ => rfl
  | type :: rest, interfaces => by
      rw [collectMembers, ColumnType.referencesAll, List.foldl_append,
        collectType_eq_foldl type interfaces, collectMembers_eq_foldl rest]

end

theorem collectReference_of_unresolved {ref : Ref} (unresolved : ¬ ref.isResolved = true)
    (interfaces : List Interface) : collectReference interfaces ref = interfaces := by
  obtain ⟨uri, scope, selector, typename, isArray, columns⟩ := ref
  rw [collectReference]
  simp only [Reference.isResolved, Bool.not_eq_true', Bool.not_eq_false] at unresolved
  simp [unresolved]

theorem collectReference_of_mem {ref : Ref} {interfaces : List Interface}
    (member : ref.shape ∈ shapes interfaces) : collectReference interfaces ref = interfaces := by
  have named := isSome_nameOf?_iff.mpr member
  obtain ⟨uri, scope, selector, typename, isArray, columns⟩ := ref
  rw [collectReference]
  simp only at named
  simp [named]

theorem collectReference_of_not_mem {ref : Ref} {interfaces : List Interface}
    (isResolved : ref.isResolved = true) (fresh : ref.shape ∉ shapes interfaces) :
    collectReference interfaces ref
      = collectColumns (addShape interfaces ref.typename ref.columns) ref.columns := by
  have unnamed : ¬ (nameOf? interfaces ref.typename ref.columns).isSome = true :=
    fun named => fresh (isSome_nameOf?_iff.mp named)
  obtain ⟨uri, scope, selector, typename, isArray, columns⟩ := ref
  rw [collectReference]
  simp only [Reference.isResolved, Bool.not_eq_true'] at isResolved
  simp only at unnamed
  simp [isResolved, unnamed]

theorem collectColumns_eq_foldl (columns : List Field) (interfaces : List Interface) :
    collectColumns interfaces columns
      = (resolvedIn columns).foldl collectReference interfaces := by
  have skips : (fun interfaces (ref : Ref) =>
      if ref.isResolved = true then collectReference interfaces ref else interfaces)
        = collectReference := by
    funext interfaces ref
    split
    case isTrue => rfl
    case isFalse unresolved => exact (collectReference_of_unresolved unresolved interfaces).symm
  rw [resolvedIn, List.foldl_filter, skips]
  induction columns generalizing interfaces with
  | nil => rfl
  | cons column rest inductionHypothesis =>
      rw [collectColumns, inductionHypothesis, List.flatMap_cons, List.foldl_append]
      obtain ⟨key, name, type, target, isOptional, issue⟩ := column
      rw [collectColumn, collectType_eq_foldl]

/-! ## What collecting adds -/

/-- The second list of interfaces comes from the first by collecting some references: it
continues the first, lists no shape twice if the first does not, and every shape that it
adds is used by the references and has the shapes of its own references listed. -/
structure Collects (before : List Interface) (refs : List Ref) (after : List Interface) :
    Prop where
  kept : before <+: after
  distinct : (shapes before).Nodup → (shapes after).Nodup
  used : ∀ shape ∈ shapes after, shape ∈ shapes before
    ∨ ∃ outer ∈ refs, ∃ ref, Reaches outer ref ∧ ref.shape = shape
  closed : ∀ shape ∈ shapes after, shape ∈ shapes before
    ∨ ∀ ref ∈ resolvedIn shape.2, ref.shape ∈ shapes after
  complete : ∀ ref ∈ refs, ref.shape ∈ shapes after

namespace Collects

variable {before middle after : List Interface} {refs rest : List Ref} {ref : Ref}

theorem nil (interfaces : List Interface) : Collects interfaces [] interfaces where
  kept := List.prefix_rfl
  distinct := id
  used := fun _ member => .inl member
  closed := fun _ member => .inl member
  complete := fun _ member => absurd member List.not_mem_nil

theorem append (first : Collects before refs middle) (second : Collects middle rest after) :
    Collects before (refs ++ rest) after where
  kept := first.kept.trans second.kept
  distinct := second.distinct ∘ first.distinct
  used := by
    intro shape member
    rcases second.used shape member with inMiddle | ⟨outer, listed, ref, reaches, same⟩
    · rcases first.used shape inMiddle with inBefore | ⟨outer, listed, ref, reaches, same⟩
      · exact .inl inBefore
      · exact .inr ⟨outer, List.mem_append_left _ listed, ref, reaches, same⟩
    · exact .inr ⟨outer, List.mem_append_right _ listed, ref, reaches, same⟩
  closed := by
    intro shape member
    rcases second.closed shape member with inMiddle | closed
    · rcases first.closed shape inMiddle with inBefore | closed
      · exact .inl inBefore
      · exact .inr fun ref listed => shapes_subset_of_isPrefix second.kept (closed ref listed)
    · exact .inr closed
  complete := by
    intro ref listed
    rcases List.mem_append.mp listed with inFirst | inSecond
    · exact shapes_subset_of_isPrefix second.kept (first.complete ref inFirst)
    · exact second.complete ref inSecond

theorem of_mem (member : ref.shape ∈ shapes before) : Collects before [ref] before :=
  { nil before with
    used := fun _ listed => .inl listed
    complete := fun other listed => by rwa [List.mem_singleton.mp listed] }

/-- Adding a shape and collecting its references collects a reference of that shape. -/
theorem of_columns (fresh : ref.shape ∉ shapes before)
    (inner : Collects (addShape before ref.typename ref.columns) (resolvedIn ref.columns) after) :
    Collects before [ref] after := by
  have added : shapes (addShape before ref.typename ref.columns)
      = shapes before ++ [ref.shape] := shapes_addShape before ref.typename ref.columns
  have listed : ref.shape ∈ shapes after := by
    apply shapes_subset_of_isPrefix inner.kept
    rw [added]
    exact List.mem_append_right _ (List.mem_singleton_self _)
  refine ⟨(List.prefix_append _ _).trans inner.kept, ?_, ?_, ?_, ?_⟩
  · intro distinct
    apply inner.distinct
    rw [added]
    exact List.nodup_append.mpr ⟨distinct, List.nodup_singleton _, by
      intro shape member other isNew same
      rw [List.mem_singleton.mp isNew] at same
      exact fresh (same ▸ member)⟩
  · intro shape member
    rcases inner.used shape member with inAdded | ⟨outer, inColumns, used, reaches, same⟩
    · rw [added] at inAdded
      rcases List.mem_append.mp inAdded with inBefore | isNew
      · exact .inl inBefore
      · exact .inr ⟨ref, List.mem_singleton_self _, ref, .self ref,
          (List.mem_singleton.mp isNew).symm⟩
    · exact .inr ⟨ref, List.mem_singleton_self _, used, .within inColumns reaches, same⟩
  · intro shape member
    rcases inner.closed shape member with inAdded | closed
    · rw [added] at inAdded
      rcases List.mem_append.mp inAdded with inBefore | isNew
      · exact .inl inBefore
      · rw [List.mem_singleton.mp isNew]
        exact .inr inner.complete
    · exact .inr closed
  · intro other isRef
    rw [List.mem_singleton.mp isRef]
    exact listed

end Collects

theorem collects_foldl {refs : List Ref}
    (each : ∀ ref ∈ refs, ∀ before, Collects before [ref] (collectReference before ref))
    (before : List Interface) : Collects before refs (refs.foldl collectReference before) := by
  induction refs generalizing before with
  | nil => exact .nil before
  | cons ref rest inductionHypothesis =>
      have first := each ref List.mem_cons_self before
      have later := inductionHypothesis
        (fun other member => each other (List.mem_cons_of_mem _ member))
        (collectReference before ref)
      exact first.append later

theorem collects_reference {ref : Ref} (isResolved : ref.isResolved = true)
    (before : List Interface) : Collects before [ref] (collectReference before ref) := by
  induction ref using reference_induction generalizing before with
  | step ref inductionHypothesis =>
      by_cases member : ref.shape ∈ shapes before
      · rw [collectReference_of_mem member]
        exact .of_mem member
      · rw [collectReference_of_not_mem isResolved member]
        apply Collects.of_columns member
        rw [collectColumns_eq_foldl]
        apply collects_foldl
        intro inner listed
        exact inductionHypothesis inner listed (mem_resolvedIn_iff.mp listed).2

theorem collects_columns (columns : List Field) (before : List Interface) :
    Collects before (resolvedIn columns) (collectColumns before columns) := by
  rw [collectColumns_eq_foldl]
  exact collects_foldl (fun ref member => collects_reference (mem_resolvedIn_iff.mp member).2)
    before

/-! ## The order in which shapes are added -/

/-- List the new shapes among some behind the known ones. -/
def record (known new : List Shape) : List Shape :=
  new.foldl (fun known shape => if shape ∈ known then known else known ++ [shape]) known

theorem record_append (known first second : List Shape) :
    record known (first ++ second) = record (record known first) second :=
  List.foldl_append

theorem record_of_subset {known new : List Shape} (subset : new ⊆ known) :
    record known new = known := by
  induction new with
  | nil => rfl
  | cons shape rest inductionHypothesis =>
      obtain ⟨isKnown, others⟩ := List.cons_subset.mp subset
      rw [record, List.foldl_cons, if_pos isKnown]
      exact inductionHypothesis others

theorem record_eq_append (known new : List Shape) :
    record known new = known ++ (new.removeAll known).eraseDups := by
  induction new generalizing known with
  | nil => simp [record, List.removeAll]
  | cons shape rest inductionHypothesis =>
      rw [record, List.foldl_cons, ← record, inductionHypothesis]
      by_cases isKnown : shape ∈ known
      · simp [isKnown, List.removeAll]
      · rw [if_neg isKnown, List.append_assoc]
        congr 1
        simp [isKnown, List.removeAll, List.eraseDups_cons, List.filter_filter, Bool.and_comm,
          beq_eq_decide]

theorem record_singleton (shape : Shape) (new : List Shape) :
    record [shape] new = (shape :: new).eraseDups := by
  rw [record_eq_append, List.eraseDups_cons]
  simp [List.removeAll, beq_eq_decide]

/-- Every listed shape whose columns are smaller than a bound has the shapes of its own
references listed. -/
def ClosedBelow (bound : Nat) (interfaces : List Interface) : Prop :=
  ∀ shape ∈ shapes interfaces, sizeOf shape.2 < bound →
    ∀ ref ∈ resolvedIn shape.2, ref.shape ∈ shapes interfaces

namespace ClosedBelow

variable {bound : Nat} {before after : List Interface}

theorem mono {smaller : Nat} (closed : ClosedBelow bound before) (le : smaller ≤ bound) :
    ClosedBelow smaller before :=
  fun shape member below => closed shape member (Nat.lt_of_lt_of_le below le)

theorem collects (closed : ClosedBelow bound before) {refs : List Ref}
    (collects : Collects before refs after) : ClosedBelow bound after := by
  intro shape member below
  rcases collects.closed shape member with inBefore | closedAfter
  · intro ref listed
    exact shapes_subset_of_isPrefix collects.kept (closed shape inBefore below ref listed)
  · exact closedAfter

theorem addShape {typename : Text} {columns : List Field}
    (closed : ClosedBelow (sizeOf columns) before) :
    ClosedBelow (sizeOf columns) (addShape before typename columns) := by
  intro shape member below ref listed
  rw [shapes_addShape] at member ⊢
  rcases List.mem_append.mp member with inBefore | isNew
  · exact List.mem_append_left _ (closed shape inBefore below ref listed)
  · rw [List.mem_singleton.mp isNew] at below
    exact absurd below (Nat.lt_irrefl _)

/-- With a listed shape below the bound, all shapes that it uses are listed. -/
theorem shape_mem_of_reaches (closed : ClosedBelow bound before) {outer ref : Ref}
    (reaches : Reaches outer ref) (listed : outer.shape ∈ shapes before)
    (below : sizeOf outer.columns < bound) : ref.shape ∈ shapes before := by
  induction reaches with
  | self => exact listed
  | within member _ inductionHypothesis =>
      exact inductionHypothesis (closed _ listed below _ member)
        (Nat.lt_trans (sizeOf_columns_lt member) below)

end ClosedBelow

theorem shapes_foldl_eq_record {bound : Nat} {refs : List Ref}
    (resolved : ∀ ref ∈ refs, ref.isResolved = true)
    (each : ∀ ref ∈ refs, ∀ before, ClosedBelow bound before →
      shapes (collectReference before ref)
        = record (shapes before) ((preorder ref).map Reference.shape))
    {before : List Interface} (closed : ClosedBelow bound before) :
    shapes (refs.foldl collectReference before)
      = record (shapes before) ((refs.flatMap preorder).map Reference.shape) := by
  induction refs generalizing before with
  | nil => rfl
  | cons ref rest inductionHypothesis =>
      have step := collects_reference (resolved ref List.mem_cons_self) before
      rw [List.foldl_cons, List.flatMap_cons, List.map_append, record_append,
        ← each ref List.mem_cons_self before closed]
      exact inductionHypothesis (fun other member => resolved other (List.mem_cons_of_mem _ member))
        (fun other member => each other (List.mem_cons_of_mem _ member)) (closed.collects step)

/-- Collecting a reference adds the new shapes among those that it uses, in depth-first
order, if all listed shapes that are not larger are closed. -/
theorem shapes_collectReference {ref : Ref} (isResolved : ref.isResolved = true)
    {before : List Interface} (closed : ClosedBelow (sizeOf ref.columns + 1) before) :
    shapes (collectReference before ref)
      = record (shapes before) ((preorder ref).map Reference.shape) := by
  induction ref using reference_induction generalizing before with
  | step ref inductionHypothesis =>
      by_cases member : ref.shape ∈ shapes before
      · rw [collectReference_of_mem member, record_of_subset]
        intro shape used
        obtain ⟨inner, inPreorder, rfl⟩ := List.mem_map.mp used
        exact closed.shape_mem_of_reaches (mem_preorder_iff.mp inPreorder) member
          (Nat.lt_succ_self _)
      · have opened : ClosedBelow (sizeOf ref.columns)
            (addShape before ref.typename ref.columns) :=
          (closed.mono (Nat.le_succ _)).addShape
        have first : record (shapes before) [ref.shape] = shapes before ++ [ref.shape] := by
          rw [record, List.foldl_cons, if_neg member, List.foldl_nil]
        rw [collectReference_of_not_mem isResolved member, collectColumns_eq_foldl, preorder,
          usedBy_eq_flatMap, List.map_cons, ← List.singleton_append, record_append, first,
          ← shapes_addShape]
        refine shapes_foldl_eq_record (fun inner listed => (mem_resolvedIn_iff.mp listed).2) ?_
          opened
        intro inner listed middle closedMiddle
        exact inductionHypothesis inner listed (mem_resolvedIn_iff.mp listed).2
          (closedMiddle.mono (sizeOf_columns_lt listed))

theorem shapes_collectColumns {columns : List Field} {before : List Interface}
    (closed : ClosedBelow (sizeOf columns) before) :
    shapes (collectColumns before columns)
      = record (shapes before) ((usedBy columns).map Reference.shape) := by
  rw [collectColumns_eq_foldl, usedBy_eq_flatMap]
  refine shapes_foldl_eq_record (fun ref listed => (mem_resolvedIn_iff.mp listed).2) ?_ closed
  intro ref listed middle closedMiddle
  exact shapes_collectReference (mem_resolvedIn_iff.mp listed).2
    (closedMiddle.mono (sizeOf_columns_lt listed))

end Typesheet.Declaration

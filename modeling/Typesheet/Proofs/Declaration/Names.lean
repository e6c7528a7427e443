import Mathlib.Data.List.Perm.Subperm
import Typesheet.Proofs.Declaration.Document

/-!
Contract: the names of interfaces tell their shapes apart.

Owns: the search for a free name, what collecting preserves when adding a shape preserves
it, and the theorem that no two interfaces of a document have one name, so that two
references are written with one name exactly when they have one shape.

A numbered name may be the declared name of a shape that is collected later, and a declared
name may look like a numbered one.  Neither matters: all names come from one search, which
looks at every name that was given before (`freeName_not_mem`).
-/

set_option autoImplicit false

namespace Typesheet

theorem Text.ofDigitChars_ofNat (number : Nat) :
    Nat.ofDigitChars 10 (Text.ofNat number) 0 = number :=
  Nat.ofDigitChars_toDigits (by decide) (by decide)

theorem Text.ofNat_injective : Function.Injective Text.ofNat := by
  intro first second same
  rw [← ofDigitChars_ofNat first, same, ofDigitChars_ofNat second]

namespace Declaration

/-! ## Free names -/

/-- A name and its numbered forms are all different. -/
theorem nodup_cons_numbered (name : Text) (count : Nat) :
    (name :: numbered name count).Nodup := by
  unfold numbered
  rw [List.nodup_cons]
  constructor
  · intro member
    obtain ⟨index, -, same⟩ := List.mem_map.mp member
    have noDigits : Text.ofNat (index + 2) = [] := List.append_right_eq_self.mp same
    have noNumber := Text.ofDigitChars_ofNat (index + 2)
    rw [noDigits] at noNumber
    exact absurd noNumber (by simp)
  · apply List.Nodup.map ?_ List.nodup_range
    intro first second same
    have numbers := Text.ofNat_injective (List.append_cancel_left same)
    omega

/-- **The search ends**: as many numbered names are tried as names are taken, and they are not
all taken, since the name itself is. -/
theorem exists_numbered_not_mem {taken : List Text} {name : Text} (isTaken : name ∈ taken) :
    ∃ candidate ∈ numbered name taken.length, candidate ∉ taken := by
  by_contra noneFree
  have allTaken : numbered name taken.length ⊆ taken := by
    intro candidate listed
    by_contra free
    exact noneFree ⟨candidate, listed, free⟩
  have subset : name :: numbered name taken.length ⊆ taken :=
    List.cons_subset.mpr ⟨isTaken, allTaken⟩
  have count := ((nodup_cons_numbered name taken.length).subperm subset).length_le
  simp only [numbered, List.length_cons, List.length_map, List.length_range] at count
  omega

/-- The free name is the name itself when it is not taken, and else it has the first number
from two on that gives a name which is not taken. -/
theorem freeName_cases (taken : List Text) (name : Text) :
    (name ∉ taken ∧ freeName taken name = name)
      ∨ name ∈ taken ∧ ∃ number, 2 ≤ number
        ∧ freeName taken name = name ++ Text.ofNat number
        ∧ name ++ Text.ofNat number ∉ taken
        ∧ ∀ smaller, 2 ≤ smaller → smaller < number → name ++ Text.ofNat smaller ∈ taken := by
  unfold freeName
  by_cases isTaken : name ∈ taken
  · refine .inr ⟨isTaken, ?_⟩
    rw [if_pos isTaken]
    obtain ⟨candidate, listed, free⟩ := exists_numbered_not_mem isTaken
    cases found : (List.range taken.length).find?
        ((fun candidate => decide (candidate ∉ taken)) ∘
          fun index => name ++ Text.ofNat (index + 2)) with
    | none =>
        obtain ⟨index, inRange, rfl⟩ := List.mem_map.mp listed
        have missed := List.find?_eq_none.mp found index inRange
        exact absurd (decide_eq_true free) missed
    | some index =>
        obtain ⟨isFree, -, earlier⟩ := List.find?_range_eq_some.mp found
        refine ⟨index + 2, Nat.le_add_left 2 index, ?_, of_decide_eq_true isFree, ?_⟩
        · rw [numbered, List.find?_map, found]
          rfl
        · intro smaller atLeast below
          have passed := earlier (smaller - 2) (by omega)
          rw [Function.comp_apply, Nat.sub_add_cancel atLeast] at passed
          simpa using passed
  · exact .inl ⟨isTaken, if_neg isTaken⟩

theorem freeName_not_mem (taken : List Text) (name : Text) : freeName taken name ∉ taken := by
  rcases freeName_cases taken name with ⟨free, same⟩ | ⟨-, number, -, same, free, -⟩
  · rwa [same]
  · rwa [same]

/-! ## What collecting preserves -/

theorem referenceName_mem_names {interfaces : List Interface} {ref : Ref}
    (listed : ref.shape ∈ shapes interfaces) :
    referenceName interfaces ref ∈ interfaces.map Interface.name := by
  obtain ⟨target, member, -, named⟩ := exists_nameOf?_of_mem_shapes listed
  rw [referenceName, named, Option.getD_some]
  exact List.mem_map_of_mem member

section Preserved

variable {motive : List Interface → Prop}
  (add : ∀ interfaces typename columns, motive interfaces →
    motive (addShape interfaces typename columns))
include add

theorem collectReference_preserves (ref : Ref) {before : List Interface} (holds : motive before) :
    motive (collectReference before ref) := by
  induction ref using reference_induction generalizing before with
  | step ref inductionHypothesis =>
      by_cases isResolved : ref.isResolved = true
      · by_cases member : ref.shape ∈ shapes before
        · rwa [collectReference_of_mem member]
        · rw [collectReference_of_not_mem isResolved member, collectColumns_eq_foldl]
          apply List.foldlRecOn _ _ (add before ref.typename ref.columns holds)
          intro interfaces kept inner listed
          exact inductionHypothesis inner listed kept
      · rwa [collectReference_of_unresolved isResolved]

theorem collectColumns_preserves (columns : List Field) {before : List Interface}
    (holds : motive before) : motive (collectColumns before columns) := by
  rw [collectColumns_eq_foldl]
  apply List.foldlRecOn _ _ holds
  intro interfaces kept ref _
  exact collectReference_preserves add ref kept

/-- The interfaces of a document have what adding a shape keeps, and giving the root one of them
as its base. -/
theorem interfacesOf_preserves (empty : motive [])
    (extend : ∀ interfaces base, base ∈ interfaces.map Interface.name → motive interfaces →
      motive (extendRoot base interfaces))
    (uri typename : Text) (implements : Option ColumnType) (columns : List Field) :
    motive (interfacesOf uri typename implements columns) := by
  have root := add [] (rootName uri typename) columns empty
  unfold interfacesOf
  apply collectColumns_preserves add
  split
  case h_1 ref based =>
    have collects := collects_reference (isResolved_of_baseReference based)
      (addShape [] (rootName uri typename) columns)
    have listed := collects.complete ref (List.mem_singleton_self ref)
    exact extend _ _ (referenceName_mem_names listed) (collectReference_preserves add ref root)
  case h_2 => exact root

end Preserved

/-! ## The names of a document -/

theorem nodup_names_addShape (interfaces : List Interface) (typename : Text)
    (columns : List Field) (distinct : (interfaces.map Interface.name).Nodup) :
    ((addShape interfaces typename columns).map Interface.name).Nodup := by
  rw [addShape, List.map_append, List.map_singleton, ← List.concat_eq_append,
    List.nodup_concat]
  exact ⟨freeName_not_mem _ _, distinct⟩

theorem names_extendRoot (base : Text) (interfaces : List Interface) :
    (extendRoot base interfaces).map Interface.name = interfaces.map Interface.name := by
  cases interfaces <;> rfl

theorem nodup_names_interfacesOf (uri typename : Text) (implements : Option ColumnType)
    (columns : List Field) :
    ((interfacesOf uri typename implements columns).map Interface.name).Nodup := by
  apply interfacesOf_preserves nodup_names_addShape List.nodup_nil
  intro interfaces base _ distinct
  rwa [names_extendRoot]

/-- An interface of a document is known by its name. -/
theorem eq_of_name_eq {schema : Schema} {interface other : Interface}
    (listed : interface
      ∈ interfacesOf schema.uri schema.typename schema.implements schema.columns)
    (otherListed : other
      ∈ interfacesOf schema.uri schema.typename schema.implements schema.columns)
    (sameName : interface.name = other.name) : interface = other :=
  List.inj_on_of_nodup_map (nodup_names_interfacesOf _ _ _ _) listed otherListed sameName

/-- A column that refers to a namespace of one column. -/
private def owning (typename : String) (word : Keyword) : Field :=
  let inner : Field := { key := ['A'], name := ['a'], type := .keyword word false }
  { key := ['A'], name := ['a']
    type := .reference
      { uri := ['n'], scope := .whole, typename := typename.toList, columns := [inner] } }

example :
    (interfacesOf ['n'] "Foo".toList none
        [owning "Foo" .string, owning "Foo2" .string, owning "Foo22" .number,
          owning "Foo" .number]).map Interface.name
      = ["Foo".toList, "Foo2".toList, "Foo22".toList, "Foo222".toList, "Foo3".toList] := by
  decide

end Declaration

end Typesheet

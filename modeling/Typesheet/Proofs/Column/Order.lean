import Mathlib.Data.List.Nodup
import Typesheet.Column.Order

/-!
Contract: the order of keys is an order.

Owns: which texts are column keys, the comparison of texts and of column keys as lexicographic
comparisons, their transitivity and totality, that sorted columns stand in the order of their
keys, and that columns with keys of their own are sorted alike however they came.
-/

set_option autoImplicit false

namespace Typesheet

theorem Text.compareBytes_eq_compareLex :
    Text.compareBytes = List.compareLex (compareOn Char.toNat) := by
  funext left right
  induction left generalizing right with
  | nil => cases right <;> rfl
  | cons first rest inductionHypothesis =>
      cases right with
      | nil => rfl
      | cons other others =>
          rw [Text.compareBytes, inductionHypothesis, List.compareLex_cons_cons]
          rfl

theorem Text.compareBytes_eq_lt_iff {left right : Text} :
    Text.compareBytes left right = .lt ↔ left < right := by
  induction left generalizing right with
  | nil => cases right <;> simp [Text.compareBytes]
  | cons first rest inductionHypothesis =>
      cases right with
      | nil => simp [Text.compareBytes]
      | cons other others =>
          rw [Text.compareBytes, Ordering.then_eq_lt, Nat.compare_eq_lt, Nat.compare_eq_eq,
            inductionHypothesis, List.cons_lt_cons_iff, Char.toNat_inj]
          rfl

instance : Std.TransCmp Text.compareBytes := by
  rw [Text.compareBytes_eq_compareLex]
  infer_instance

instance lawfulEqCmp_toNat : Std.LawfulEqCmp (compareOn Char.toNat) where
  eq_of_compare same :=
    Char.toNat_inj.mp (@Std.LawfulEqCmp.eq_of_compare Nat compare _ _ _ same)

instance : Std.LawfulEqCmp Text.compareBytes := by
  rw [Text.compareBytes_eq_compareLex]
  infer_instance

namespace Column

theorem isKey_iff {key : Text} :
    isKey key = true ↔ key ≠ [] ∧ ∀ letter ∈ key, 'A' ≤ letter ∧ letter ≤ 'Z' := by
  have isUpper_iff (letter : Char) :
      letter.isUpper = true ↔ 'A' ≤ letter ∧ letter ≤ 'Z' :=
    decide_eq_true_iff
  simp [isKey, isUpper_iff]

/-- The order of columns in a spreadsheet: shorter keys first, and keys of one length
lexically. -/
def ComesBefore (left right : Text) : Prop :=
  Text.byteLength left < Text.byteLength right
    ∨ Text.byteLength left = Text.byteLength right ∧ left < right

instance : Std.TransCmp compareKeys :=
  inferInstanceAs (Std.TransCmp (compareLex (compareOn Text.byteLength) Text.compareBytes))

theorem compareKeys_swap (left right : Text) :
    compareKeys right left = (compareKeys left right).swap :=
  Std.OrientedCmp.eq_swap

/-- Of two keys one does not come behind the other. -/
theorem isLE_or_isLE (left right : Text) :
    ((compareKeys left right).isLE || (compareKeys right left).isLE) = true := by
  rw [compareKeys_swap left right]
  cases compareKeys left right <;> rfl

theorem sort_perm (columns : List Field) : (sort columns).Perm columns :=
  List.mergeSort_perm columns _

theorem pairwise_sort (columns : List Field) :
    (sort columns).Pairwise fun left right => (compareKeys left.key right.key).isLE := by
  apply List.pairwise_mergeSort
  · intro first second third
    exact Std.TransCmp.isLE_trans
  · exact fun left right => isLE_or_isLE left.key right.key

theorem eq_of_compareKeys_eq_eq {left right : Text} (same : compareKeys left right = .eq) :
    left = right :=
  Std.LawfulEqCmp.eq_of_compare (Ordering.then_eq_eq.mp same).2

theorem ComesBefore.ne {left right : Text} (before : ComesBefore left right) : left ≠ right := by
  rintro rfl
  rcases before with shorter | ⟨_, less⟩
  · exact Nat.lt_irrefl _ shorter
  · exact List.lt_irrefl _ less

theorem compareKeys_eq_lt_iff {left right : Text} :
    compareKeys left right = .lt ↔ ComesBefore left right := by
  unfold compareKeys ComesBefore
  rw [Ordering.then_eq_lt, Nat.compare_eq_lt, Nat.compare_eq_eq, Text.compareBytes_eq_lt_iff]

/-- Columns with keys of their own are sorted strictly. -/
theorem pairwise_comesBefore_sort {columns : List Field}
    (distinct : (columns.map Column.key).Nodup) :
    (sort columns).Pairwise fun left right => ComesBefore left.key right.key := by
  have sortedKeys : ((sort columns).map Column.key).Nodup :=
    ((sort_perm columns).map Column.key).nodup_iff.mpr distinct
  rw [List.Nodup, List.pairwise_map] at sortedKeys
  refine (sortedKeys.and (pairwise_sort columns)).imp ?_
  rintro left right ⟨differ, inOrder⟩
  rw [← compareKeys_eq_lt_iff]
  cases order : compareKeys left.key right.key with
  | lt => rfl
  | eq => exact absurd (eq_of_compareKeys_eq_eq order) differ
  | gt => simp [order] at inOrder

/-- Columns with different keys are sorted in one way only. -/
theorem sort_eq_of_perm {columns others : List Field} (perm : columns.Perm others)
    (distinct : (columns.map Column.key).Nodup) : sort columns = sort others := by
  have sorted : (sort columns).Perm (sort others) :=
    (sort_perm columns).trans (perm.trans (sort_perm others).symm)
  apply sorted.eq_of_pairwise ?_ (pairwise_sort columns) (pairwise_sort others)
  intro left right isLeft isRight leftFirst rightFirst
  have same : compareKeys left.key right.key = .eq := by
    rw [compareKeys_swap left.key right.key] at rightFirst
    cases order : compareKeys left.key right.key with
    | eq => rfl
    | lt => simp [order] at rightFirst
    | gt => simp [order] at leftFirst
  have inLeft := (sort_perm columns).mem_iff.mp isLeft
  have inRight := perm.mem_iff.mpr ((sort_perm others).mem_iff.mp isRight)
  exact List.inj_on_of_nodup_map distinct inLeft inRight (eq_of_compareKeys_eq_eq same)

end Column

end Typesheet

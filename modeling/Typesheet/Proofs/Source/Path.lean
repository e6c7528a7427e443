import Mathlib.Logic.Function.Defs
import Typesheet.Proofs.Address.Characters
import Typesheet.Source.Directory

/-!
Contract: the paths of documents do not get in each other's way.

Owns: the segments of a namespace address, and the theorem that the path of a document is no
part of the path of another, neither as a file nor as a directory on the way to it.

A directory is named by a segment, which holds no dot, and a document by a segment with the
extension behind it, which holds one.
-/

set_option autoImplicit false

namespace Typesheet

namespace NamespaceUri

theorem text_eq_marker_append_id (uri : NamespaceUri) : uri.text = Address.marker ++ uri.id := by
  obtain ⟨id, -, same⟩ := Address.exists_id_of_isNamespace uri.wellFormed
  rw [NamespaceUri.id, same, List.drop_left]

theorem isId_id (uri : NamespaceUri) : Address.isId uri.id = true := by
  obtain ⟨id, isId, same⟩ := Address.exists_id_of_isNamespace uri.wellFormed
  rwa [NamespaceUri.id, same, List.drop_left]

/-- An address is made of its segments. -/
theorem eq_of_segments_eq {uri other : NamespaceUri} (same : uri.segments = other.segments) :
    uri = other := by
  have sameId : uri.id = other.id := by
    have joined := congrArg (['/'].intercalate ·) same
    simpa only [segments, List.intercalate_splitOn] using joined
  have sameText : uri.text = other.text := by
    rw [text_eq_marker_append_id, text_eq_marker_append_id, sameId]
  cases uri
  cases other
  cases sameText
  rfl

theorem segments_ne_nil (uri : NamespaceUri) : uri.segments ≠ [] :=
  List.splitOn_ne_nil '/' uri.id

/-- No segment holds a dot. -/
theorem dot_notMem_of_mem_segments {uri : NamespaceUri} {segment : Text}
    (member : segment ∈ uri.segments) : '.' ∉ segment := by
  intro dot
  have isSegment := List.all_eq_true.mp uri.isId_id segment member
  have letters := (Bool.and_eq_true_iff.mp isSegment).2
  exact absurd (List.all_eq_true.mp letters '.' dot) (by decide)

end NamespaceUri

namespace DirectoryStore

theorem dot_mem_append_extension (segment : Text) : '.' ∈ segment ++ ".json".toList :=
  List.mem_append_right segment (by decide)

/-- Segments without dots, the last of them with the extension, are a path that no other such
path starts with. -/
theorem eq_of_withExtension_isPrefix : ∀ {segments others : List Text},
    segments ≠ [] → others ≠ [] →
    (∀ segment ∈ segments, '.' ∉ segment) → (∀ segment ∈ others, '.' ∉ segment) →
    withExtension segments <+: withExtension others → segments = others
  | [last], [other], _, _, _, _, starts => by
      have same := (List.cons_prefix_cons.mp starts).1
      rw [List.append_cancel_right same]
  | [last], directory :: next :: rest, _, _, _, noDot, starts => by
      have same : last ++ ".json".toList = directory := (List.cons_prefix_cons.mp starts).1
      have dot := dot_mem_append_extension last
      rw [same] at dot
      exact absurd dot (noDot directory List.mem_cons_self)
  | directory :: next :: rest, [other], _, _, noDot, _, starts => by
      have same : directory = other ++ ".json".toList := (List.cons_prefix_cons.mp starts).1
      have dot := dot_mem_append_extension other
      rw [← same] at dot
      exact absurd dot (noDot directory List.mem_cons_self)
  | directory :: next :: rest, other :: following :: others, _, _, noDot, noOtherDot, starts => by
      obtain ⟨same, below⟩ := List.cons_prefix_cons.mp starts
      have inner := eq_of_withExtension_isPrefix (List.cons_ne_nil next rest)
        (List.cons_ne_nil following others) (List.forall_mem_cons.mp noDot).2
        (List.forall_mem_cons.mp noOtherDot).2 below
      rw [same, inner]

/-- **Documents do not get in each other's way**: a namespace whose path is the path of another
one, or is on the way to it, is that other one. -/
theorem eq_of_pathOf_isPrefix {uri other : NamespaceUri} (starts : pathOf uri <+: pathOf other) :
    uri = other :=
  NamespaceUri.eq_of_segments_eq <|
    eq_of_withExtension_isPrefix uri.segments_ne_nil other.segments_ne_nil
      (fun _ => NamespaceUri.dot_notMem_of_mem_segments)
      (fun _ => NamespaceUri.dot_notMem_of_mem_segments) starts

theorem pathOf_injective : Function.Injective pathOf := by
  intro uri other same
  apply eq_of_pathOf_isPrefix
  exact same ▸ List.prefix_refl (pathOf uri)

/-- No document lies at the root itself. -/
theorem pathOf_ne_nil (uri : NamespaceUri) : pathOf uri ≠ [] := by
  unfold pathOf
  match isMade : uri.segments with
  | [] => exact absurd isMade uri.segments_ne_nil
  | [last] => exact List.cons_ne_nil _ _
  | directory :: next :: rest => exact List.cons_ne_nil _ _

end DirectoryStore

end Typesheet

import Typesheet.Issue.Cause
import Typesheet.Proofs.Address.Characters

/-!
Contract: where an issue stands in a forest, and what the issues around it say.

Owns: the issues that enclose an issue, the address that a failed reference names in its message,
and the path that a circular reference spells out.

The address is read back from the message alone.  A sentence about a reference names what holds
the reference first, between two back quotes, and then the address; the name holds no back quote,
so the address starts behind the third one, whatever is in it.
-/

set_option autoImplicit false

namespace Typesheet

namespace Issue

/-- The issue stands in a forest below the enclosing ones, of which the outermost comes first. -/
inductive OccursUnder (issue : Issue) : List Issue → List Issue → Prop where
  | here {issues : List Issue} (member : issue ∈ issues) : OccursUnder issue [] issues
  | inside {enclosing issues : List Issue} {outer : Issue} (member : outer ∈ issues)
      (occurs : OccursUnder issue enclosing outer.children) :
      OccursUnder issue (outer :: enclosing) issues

variable {issue : Issue} {enclosing issues more : List Issue}

theorem OccursUnder.mono (occurs : issue.OccursUnder enclosing issues) (subset : issues ⊆ more) :
    issue.OccursUnder enclosing more := by
  cases occurs with
  | here member => exact .here (subset member)
  | inside member occurs => exact .inside (subset member) occurs

theorem not_occursUnder_nil : ¬ issue.OccursUnder enclosing [] := by
  intro occurs
  cases occurs with
  | here member => exact absurd member List.not_mem_nil
  | inside member => exact absurd member List.not_mem_nil

/-- An issue in a forest stands in one of its trees. -/
theorem occursUnder_iff_exists_mem :
    issue.OccursUnder enclosing issues
      ↔ ∃ outer ∈ issues, issue.OccursUnder enclosing [outer] := by
  constructor
  · intro occurs
    cases occurs with
    | here member => exact ⟨issue, member, .here (List.mem_singleton_self issue)⟩
    | inside member occurs => exact ⟨_, member, .inside (List.mem_singleton_self _) occurs⟩
  · rintro ⟨outer, member, occurs⟩
    apply occurs.mono
    intro only single
    rw [List.mem_singleton.mp single]
    exact member

/-- An issue below a single one is that one, or stands below its children. -/
theorem occursUnder_singleton_iff {outer : Issue} :
    issue.OccursUnder enclosing [outer]
      ↔ (enclosing = [] ∧ issue = outer)
        ∨ ∃ inner, enclosing = outer :: inner ∧ issue.OccursUnder inner outer.children := by
  constructor
  · intro occurs
    cases occurs with
    | here member => exact .inl ⟨rfl, List.mem_singleton.mp member⟩
    | inside member occurs =>
        obtain rfl := List.mem_singleton.mp member
        exact .inr ⟨_, rfl, occurs⟩
  · rintro (⟨rfl, rfl⟩ | ⟨inner, rfl, occurs⟩)
    · exact .here (List.mem_singleton_self _)
    · exact .inside (List.mem_singleton_self _) occurs

theorem occursUnder_leaf_iff {kind : IssueKind} {message : Text} :
    issue.OccursUnder enclosing [.leaf kind message]
      ↔ enclosing = [] ∧ issue = .leaf kind message := by
  rw [occursUnder_singleton_iff, or_iff_left]
  rintro ⟨below, -, occurs⟩
  exact not_occursUnder_nil occurs

/-! ## The address of a failed reference -/

/-- The quotation mark of messages. -/
def backQuote : Char := '\x60'

/-- What stands behind a number of back quotes. -/
def behindQuotes : Nat → Text → Option Text
  | 0, text => some text
  | quotes + 1, text =>
      (Address.cutAt backQuote text).bind fun pieces => behindQuotes quotes pieces.2

/-- How the message of a failed reference ends. -/
def failedEnding : Text := backQuote :: ", which failed to resolve".toList

/-- The address that a failed reference names. -/
def failedUri? (issue : Issue) : Option Text :=
  if issue.kind = .reference then
    (failedEnding.isSuffixOf? issue.message).bind (behindQuotes 3)
  else none

theorem behindQuotes_append {before : Text} (outside : backQuote ∉ before) (quotes : Nat)
    (rest : Text) :
    behindQuotes (quotes + 1) (before ++ backQuote :: rest) = behindQuotes quotes rest := by
  rw [behindQuotes, Address.cutAt_append outside, Option.bind_some]

end Issue

/-- What holds the references of a site: a column by its key, or a namespace by its address. -/
def Site.holder : Site → Text
  | .column key => key
  | .implements uri => uri

open Issue

/-- The phrase of a site quotes the holder and nothing else. -/
theorem Site.exists_phrase_eq (site : Site) :
    ∃ opening closing, backQuote ∉ opening ∧ backQuote ∉ closing
      ∧ site.phrase = opening ++ backQuote :: (site.holder ++ backQuote :: closing) := by
  cases site with
  | column key =>
      have opens : "Column `".toList = "Column ".toList ++ [backQuote] := by decide
      have closes : "` references".toList = backQuote :: " references".toList := by decide
      refine ⟨"Column ".toList, " references".toList, by decide, by decide, ?_⟩
      change "Column `".toList ++ key ++ "` references".toList = _
      rw [opens, closes, holder, List.append_assoc, List.append_assoc, List.singleton_append]
  | implements uri =>
      have opens : "`".toList = [backQuote] := by decide
      have closes : "` implements".toList = backQuote :: " implements".toList := by decide
      refine ⟨[], " implements".toList, by decide, by decide, ?_⟩
      change "`".toList ++ uri ++ "` implements".toList = _
      rw [opens, closes, holder, List.append_assoc, List.singleton_append, List.nil_append]

namespace Cause

/-- **The address can be read back** from the message of a failed reference. -/
theorem failedUri?_referenceFailed {site : Site} (plain : backQuote ∉ site.holder) (uri : Text)
    (children : List Issue) :
    (referenceFailed site uri children).issue.failedUri? = some uri := by
  obtain ⟨opening, closing, plainOpening, plainClosing, phrase⟩ := site.exists_phrase_eq
  have plainSpace : backQuote ∉ closing ++ " ".toList := by
    rw [List.mem_append, not_or]
    exact ⟨plainClosing, by decide⟩
  have sentence : (referenceFailed site uri children).issue.message
      = (opening ++ backQuote :: (site.holder
          ++ backQuote :: ((closing ++ " ".toList) ++ backQuote :: uri))) ++ failedEnding := by
    have quote : "`".toList = [backQuote] := by decide
    change site.phrase ++ " ".toList ++ ("`".toList ++ uri ++ "`".toList)
      ++ ", which failed to resolve".toList = _
    rw [phrase, quote, failedEnding]
    simp only [List.append_assoc, List.cons_append, List.nil_append]
  have front := List.isSuffixOf?_eq_some_iff_append_eq.mpr sentence.symm
  have isReference : (referenceFailed site uri children).issue.kind = .reference := rfl
  rw [failedUri?, if_pos isReference, front, Option.bind_some, behindQuotes_append plainOpening,
    behindQuotes_append plain, behindQuotes_append plainSpace, behindQuotes]

/-- The issue that groups the failures of a column names no address. -/
theorem failedUri?_unresolvedReferences (key : Text) (failures : List Issue) :
    (unresolvedReferences key failures).issue.failedUri? = none := by
  have otherEnding : failedEnding.isSuffixOf? (unresolvedReferences key failures).issue.message
      = none := by
    rw [Option.eq_none_iff_forall_ne_some]
    intro front found
    have lasts := congrArg List.getLast? (List.isSuffixOf?_eq_some_iff_append_eq.mp found)
    have ownLast : (unresolvedReferences key failures).issue.message.getLast? = some 's' :=
      List.getLast?_append_of_ne_nil _ (by decide)
    rw [ownLast, List.getLast?_append_of_ne_nil _ (by decide)] at lasts
    exact absurd lasts (by decide)
  have isReference : (unresolvedReferences key failures).issue.kind = .reference := rfl
  rw [failedUri?, if_pos isReference, otherEnding, Option.bind_none]

/-! ## The path of a circular reference -/

theorem intercalate_arrow_concat (uri : Text) :
    ∀ {chain : List Text}, chain ≠ [] →
      arrow.intercalate (chain ++ [uri]) = arrow.intercalate chain ++ arrow ++ uri
  | [only], _ => by simp [List.intercalate_cons_cons]
  | first :: second :: rest, _ => by
      have later := intercalate_arrow_concat uri (List.cons_ne_nil second rest)
      simp only [List.cons_append] at later
      simp only [List.cons_append, List.intercalate_cons_cons, later, List.append_assoc]

/-- A chain that starts with an address is spelled out in full, up to the offending address. -/
theorem circle_cons {first : Text} (nonempty : first ≠ []) (rest : List Text) (uri : Text) :
    circle (first :: rest) uri = arrow.intercalate (first :: rest ++ [uri]) := by
  have spelled : arrow.intercalate (first :: rest) ≠ [] := by
    cases rest with
    | nil => simpa using nonempty
    | cons second others => simp [List.intercalate_cons_cons, nonempty]
  rw [intercalate_arrow_concat uri (List.cons_ne_nil first rest), circle]
  exact if_neg spelled

/-- The message of a circular reference ends in the path that the reference closes. -/
theorem suffix_message_circular {first : Text} (nonempty : first ≠ []) (site : Site)
    (rest : List Text) (uri : Text) :
    "(".toList ++ arrow.intercalate (first :: rest ++ [uri]) ++ ")".toList
      <:+ (circular site uri (first :: rest)).issue.message := by
  rw [← circle_cons nonempty]
  exact ⟨about site uri ++ ", which is already being resolved ".toList, by simp [issue, Issue.leaf]⟩

end Cause

end Typesheet

import Typesheet.Proofs.Load.Failure
import Typesheet.Proofs.Load.Locality

/-!
Contract: what the depth limit decides.

Owns: loads that stay within their depth limit; that such a load, with issues or without, is
the same under every higher limit; and the theorem that raising the limit never changes a load
that succeeded.

Two loads with different limits follow the same references below the same chains until one of
them leaves a reference for its depth.  Staying within the limit says that this never happens to
the load with the lower one, and so it never happens to the other either.
-/

set_option autoImplicit false

namespace Typesheet.Loader

/-- A load stays within its depth limit when none of its failures is that a reference leads
too deep. -/
def StaysWithin (loader : Loader) (ancestors : List Text) (uri : NamespaceUri) : Prop :=
  ∀ point, loader.FailsAt ancestors uri point →
    ∀ position link, point.failure ≠ .atLink position link .tooDeep

variable {loader : Loader} {ancestors chain : List Text} {uri : NamespaceUri} {link : Link}
  {maxDepth : Nat}

/-! ## Staying within the limit, level by level -/

theorem StaysWithin.not_obstructs (stays : loader.StaysWithin ancestors uri)
    (allowed : loader.Allows (ancestors ++ [uri.text])) (defined : loader.defines uri = true)
    (member : link ∈ loader.links uri) :
    ¬ loader.Obstructs (ancestors ++ [uri.text]) link .tooDeep := by
  intro obstructs
  obtain ⟨position, listed⟩ := List.mem_iff_getElem?.mp member
  have fails := failsAt_nil_iff.mpr ⟨allowed, .atLink defined listed obstructs⟩
  exact stays _ fails position link rfl

theorem StaysWithin.of_leads (stays : loader.StaysWithin ancestors uri)
    (defined : loader.defines uri = true) {hop : Hop} (leads : loader.Leads uri hop) :
    loader.StaysWithin (ancestors ++ [uri.text]) hop.target :=
  fun point fails => stays (point.after hop) (failsAt_after_iff.mpr ⟨defined, leads, fails⟩)

theorem staysWithin_of_isOk (root : NamespaceUri)
    (isOk : (loader.load [] root).schema.isOk = true) : loader.StaysWithin [] root := by
  have sound := (isOk_load_iff_sound loader [] root (allows_root root)).mp isOk
  exact fun _ fails => absurd fails sound.not_failsAt

/-! ## Two limits in step -/

/-- A link that is not left for its depth is followed alike under a higher limit, if the
namespaces that it may enter are loaded alike. -/
theorem followLink_eq_of_le (higher : loader.maxDepth ≤ maxDepth)
    (inLimit : ¬ loader.Obstructs chain link .tooDeep)
    (children : ∀ owner selector, link.destination loader.scheme = .ok (owner, selector) →
      owner.text ∉ chain → chain.length < loader.maxDepth →
        Loader.load { loader with maxDepth } chain owner = loader.load chain owner) :
    followLink { loader with maxDepth } chain link = loader.followLink chain link := by
  cases loader.link_cases chain link with
  | unreadable refused =>
      rw [followLink_of_unreadable refused]
      exact followLink_of_unreadable refused
  | circular leads visited =>
      rw [followLink_of_circular leads visited]
      exact followLink_of_circular leads visited
  | tooDeep leads fresh atLimit => exact absurd (.tooDeep leads fresh atLimit) inLimit
  | @enters owner selector leads fresh deeper =>
      have deeperStill : chain.length < maxDepth := Nat.lt_of_lt_of_le deeper higher
      rw [followLink_of_enters leads fresh deeper, ← children owner selector leads fresh deeper]
      exact followLink_of_enters leads fresh deeperStill

/-- A load is determined by what following the links of its namespace comes to. -/
theorem load_eq_of_followLink
    (same : loader.defines uri = true → ∀ link ∈ loader.links uri,
      followLink { loader with maxDepth } (ancestors ++ [uri.text]) link
        = loader.followLink (ancestors ++ [uri.text]) link) :
    Loader.load { loader with maxDepth } ancestors uri = loader.load ancestors uri := by
  have schema : (Loader.load { loader with maxDepth } ancestors uri).schema
      = (loader.load ancestors uri).schema := by
    rw [schema_load, schema_load, assemble_maxDepth]
    cases defined : loader.defines uri with
    | false => exact assemble_eq_of_not_defines defined _ _
    | true => exact assemble_congr fun link member => by rw [same defined link member]
  have visits : (Loader.load { loader with maxDepth } ancestors uri).visits
      = (loader.load ancestors uri).visits := by
    rw [visits_load, visits_load]
    congr 1
    change (if loader.defines uri then (loader.links uri).flatMap (fun link =>
      (followLink { loader with maxDepth } (ancestors ++ [uri.text]) link).visits) else []) = _
    split
    case isFalse => rfl
    case isTrue defined =>
      exact List.flatMap_congr fun link member => by rw [same defined link member]
  exact congrArg₂ Loaded.mk schema visits

/-- **A load that stays within its depth limit** is the same under every higher one: its
schema, with all issues, and the visits that it makes. -/
theorem load_eq_of_staysWithin (higher : loader.maxDepth ≤ maxDepth)
    (allowed : loader.Allows (ancestors ++ [uri.text]))
    (stays : loader.StaysWithin ancestors uri) :
    Loader.load { loader with maxDepth } ancestors uri = loader.load ancestors uri := by
  induction ancestors, uri using loader.load_induction with
  | level ancestors uri inductionHypothesis =>
      apply load_eq_of_followLink
      intro defined link member
      apply followLink_eq_of_le higher (stays.not_obstructs allowed defined member)
      intro owner selector leads fresh deeper
      obtain ⟨position, hop⟩ := exists_leads_of_mem_links member leads
      have longer := (allows_append_singleton_iff (by simp)).mpr ⟨allowed, fresh, deeper⟩
      exact inductionHypothesis deeper owner longer (stays.of_leads defined hop)

/-- **Raising the depth limit never changes a load that succeeded.**  Whatever the scheme and
the source, if a client loads its namespace without issues, then a client with any higher limit
gets the same schema, and asks for the same namespaces in the same order. -/
theorem load_eq_of_isOk_of_le (loader : Loader) (root : NamespaceUri) (before other : Schema)
    (maxDepth : Nat) (higher : loader.maxDepth ≤ maxDepth)
    (isOk : (Client.load loader ⟨some root, before⟩).1.schema.isOk = true) :
    Client.load { loader with maxDepth } ⟨some root, other⟩
      = Client.load loader ⟨some root, before⟩ := by
  have same := load_eq_of_staysWithin higher (allows_root root) (staysWithin_of_isOk root isOk)
  show (Client.mk (some root) (Loader.load { loader with maxDepth } [] root).schema,
      (Loader.load { loader with maxDepth } [] root).asked) = _
  rw [same]
  rfl

/-- Invoices that implement documents and whose lines refer to customers.  The longest chain has
three addresses, so a limit of two is too low. -/
private def invoices : Loader where
  scheme := .standard
  source := MemoryStore.source
    { definitions :=
        [("ns:invoices".toList,
            ((Definition.named []).withColumn "A".toList "lines".toList
              "(ns:lines | ns:customers.label)[]".toList).implementing "documents".toList),
          ("ns:lines".toList,
            (Definition.named []).withColumn "B".toList "buyer".toList "ns:customers".toList),
          ("ns:customers".toList,
            (Definition.named []).withColumn "A".toList "label".toList "string".toList),
          ("ns:documents".toList, Definition.named "Document".toList)] }
  maxDepth := 3

private def invoicesUri : NamespaceUri :=
  ⟨"ns:invoices".toList, by decide⟩

theorem load_invoices_eq_of_le :
    (Client.load { invoices with maxDepth := 2 } ⟨some invoicesUri, { uri := [] }⟩).1.schema.isOk
        = false
      ∧ (Client.load invoices ⟨some invoicesUri, { uri := [] }⟩).1.schema.isOk = true
      ∧ Client.load { invoices with maxDepth := 32 } ⟨some invoicesUri, { uri := [] }⟩
        = Client.load invoices ⟨some invoicesUri, { uri := [] }⟩ := by
  have isOk : (Client.load invoices ⟨some invoicesUri, { uri := [] }⟩).1.schema.isOk = true := by
    decide +kernel
  refine ⟨by decide +kernel, isOk, ?_⟩
  exact load_eq_of_isOk_of_le invoices invoicesUri { uri := [] } { uri := [] } 32 (by decide) isOk

end Typesheet.Loader

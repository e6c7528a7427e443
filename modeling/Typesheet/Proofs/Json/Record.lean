import Typesheet.Json.Decode
import Typesheet.Proofs.Json.Spelling

/-!
Contract: records, lists and names are read back from the documents that they are written
as.

Owns: how deep a document is nested; the fields of a written record, taken out by name; and
what it means that a value is read back: by every reader that allows the levels that its
document opens, and by no other.

Does not own: the single records.  Each has a lemma of its own beside the others of its
kind, and all of them start from `fields?_record` and `list?_map`.
-/

set_option autoImplicit false

namespace Typesheet.Json

/-! ## Depth -/

mutual

/-- How many arrays and objects a document opens inside each other. -/
def depth : Json → Nat
  | .array elements => depthOfAll elements + 1
  | .object fields => depthOfFields fields + 1
  | _ => 0
termination_by structural json => json

/-- The largest depth among the elements of an array. -/
def depthOfAll : List Json → Nat
  | [] => 0
  | json :: rest => max (depth json) (depthOfAll rest)
termination_by structural elements => elements

def depthOfFields : List (Option Text × Json) → Nat
  | [] => 0
  | field :: rest => max (depthOfField field) (depthOfFields rest)
termination_by structural fields => fields

def depthOfField : Option Text × Json → Nat
  | (_, json) => depth json
termination_by structural field => field

end

theorem depthOfAll_le_iff {elements : List Json} {levels : Nat} :
    depthOfAll elements ≤ levels ↔ ∀ json ∈ elements, depth json ≤ levels := by
  induction elements with
  | nil => simp [depthOfAll]
  | cons json rest inductionHypothesis =>
      rw [depthOfAll, Nat.max_le, inductionHypothesis, List.forall_mem_cons]

theorem depthOfFields_le_iff {fields : List (Option Text × Json)} {levels : Nat} :
    depthOfFields fields ≤ levels ↔ ∀ field ∈ fields, depth field.2 ≤ levels := by
  induction fields with
  | nil => simp [depthOfFields]
  | cons field rest inductionHypothesis =>
      obtain ⟨key, json⟩ := field
      rw [depthOfFields, Nat.max_le, inductionHypothesis, List.forall_mem_cons]
      rfl

theorem depth_array_le_iff {elements : List Json} {levels : Nat} :
    depth (.array elements) ≤ levels + 1 ↔ ∀ json ∈ elements, depth json ≤ levels := by
  rw [depth, Nat.add_le_add_iff_right, depthOfAll_le_iff]

theorem depth_object_le_iff {fields : List (Option Text × Json)} {levels : Nat} :
    depth (.object fields) ≤ levels + 1 ↔ ∀ field ∈ fields, depth field.2 ≤ levels := by
  rw [depth, Nat.add_le_add_iff_right, depthOfFields_le_iff]

theorem depth_record_le_iff {fields : List (String × Json)} {levels : Nat} :
    depth (record fields) ≤ levels + 1 ↔ ∀ field ∈ fields, depth field.2 ≤ levels := by
  rw [record, depth_object_le_iff, List.forall_mem_map]

theorem isKept_array_iff {elements : List Json} {levels : Nat} :
    isKept (levels + 1) (.array elements) = true ↔ ∀ json ∈ elements, isKept levels json = true := by
  show areKept levels elements = true ↔ _
  induction elements with
  | nil => simp [areKept]
  | cons json rest inductionHypothesis =>
      rw [areKept, Bool.and_eq_true, inductionHypothesis, List.forall_mem_cons]

theorem isKept_object_iff {fields : List (Option Text × Json)} {levels : Nat} :
    isKept (levels + 1) (.object fields) = true
      ↔ ∀ field ∈ fields, field.1.isSome = true ∧ isKept levels field.2 = true := by
  show areFieldsKept levels fields = true ↔ _
  induction fields with
  | nil => simp [areFieldsKept]
  | cons field rest inductionHypothesis =>
      obtain ⟨key, json⟩ := field
      rw [areFieldsKept, Bool.and_eq_true, inductionHypothesis, List.forall_mem_cons]
      show (key.isSome && isKept levels json) = true ∧ _ ↔ _
      rw [Bool.and_eq_true]

/-- A document of texts and flags can be kept as a whole when it is not nested too deep. -/
theorem Textual.isKept_iff {json : Json} (textual : Textual json) {levels : Nat} :
    json.isKept levels = true ↔ json.depth ≤ levels := by
  induction textual generalizing levels with
  | bool value => simp [isKept, depth]
  | string text => simp [isKept, depth]
  | array each inductionHypothesis =>
      cases levels with
      | zero => simp [isKept, depth]
      | succ levels =>
          rw [isKept_array_iff, depth_array_le_iff]
          exact forall₂_congr fun json member => inductionHypothesis json member
  | object keys each inductionHypothesis =>
      cases levels with
      | zero => simp [isKept, depth]
      | succ levels =>
          rw [isKept_object_iff, depth_object_le_iff]
          refine forall₂_congr fun field member => ?_
          rw [inductionHypothesis field member]
          exact and_iff_right (keys field member)

/-! ## Records -/

theorem record_ne_null (fields : List (String × Json)) : record fields ≠ .null :=
  Json.noConfusion

/-- Those of some fields that have a value; a record is written without the others. -/
def present (fields : List (String × Option Json)) : List (String × Json) :=
  fields.filterMap fun field => field.2.map fun json => (field.1, json)

theorem forall_mem_present_iff {fields : List (String × Option Json)} {holds : Json → Prop} :
    (∀ field ∈ present fields, holds field.2)
      ↔ ∀ field ∈ fields, ∀ json ∈ field.2, holds json := by
  simp only [present, List.mem_filterMap, Option.map_eq_some_iff, forall_exists_index, and_imp]
  constructor
  · intro each field member json valued
    exact each _ field member json valued rfl
  · rintro each _ field member json valued rfl
    exact each field member json valued

@[simp] theorem textual_ofText (text : Text) : Textual (ofText text) :=
  .string text

@[simp] theorem textual_bool (value : Bool) : Textual (.bool value) :=
  .bool value

/-- A field that is absent or a document of texts and flags. -/
def IsTextual (field : Option Json) : Prop :=
  ∀ json ∈ field, Textual json

@[simp] theorem isTextual_some_iff {json : Json} : IsTextual (some json) ↔ Textual json := by
  simp [IsTextual]

@[simp] theorem isTextual_map_iff {Value : Type} {write : Value → Json} {value : Option Value} :
    IsTextual (value.map write) ↔ ∀ inner ∈ value, Textual (write inner) := by
  simp [IsTextual]

theorem textual_present {fields : List (String × Option Json)}
    (each : ∀ field ∈ fields, IsTextual field.2) : Textual (record (present fields)) := by
  apply Textual.object
  · rw [List.forall_mem_map]
    exact fun _ _ => rfl
  · rw [List.forall_mem_map]
    exact forall_mem_present_iff.mpr each

/-- A field that is absent or opens no more than some levels. -/
def Fits (levels : Nat) (field : Option Json) : Prop :=
  ∀ json ∈ field, json.depth ≤ levels

instance (levels : Nat) (field : Option Json) : Decidable (Fits levels field) :=
  match field with
  | none => .isTrue nofun
  | some json => decidable_of_iff (json.depth ≤ levels) (by simp [Fits])

@[simp] theorem fits_some_iff {levels : Nat} {json : Json} :
    Fits levels (some json) ↔ json.depth ≤ levels := by
  simp [Fits]

@[simp] theorem fits_none {levels : Nat} : Fits levels none :=
  nofun

@[simp] theorem depth_ofText (text : Text) : (ofText text).depth = 0 :=
  rfl

@[simp] theorem depth_bool (value : Bool) : (Json.bool value).depth = 0 :=
  rfl

@[simp] theorem fits_map_ofText {levels : Nat} (text : Option Text) :
    Fits levels (text.map ofText) := by
  cases text <;> simp

@[simp] theorem text?_ofText (text : Text) : text? (ofText text) = some text :=
  rfl

@[simp] theorem bool?_bool (value : Bool) : bool? (.bool value) = some value :=
  rfl

theorem depth_present_le_iff {fields : List (String × Option Json)} {levels : Nat} :
    depth (record (present fields)) ≤ levels + 1 ↔ ∀ field ∈ fields, Fits levels field.2 := by
  rw [depth_record_le_iff]
  exact @forall_mem_present_iff fields fun json => depth json ≤ levels

theorem filter_record_eq_nil {name : String} {fields : List (String × Json)}
    (absent : ∀ field ∈ fields, field.1 ≠ name) :
    (fields.map fun field => (some field.1.toList, field.2)).filter
      (fun field => field.1 = some name.toList) = [] := by
  rw [List.filter_eq_nil_iff, List.forall_mem_map]
  intro field member isNamed
  have same : field.1 = name := by simpa [String.toList_inj] using isNamed
  exact absent field member same

theorem name_mem_of_mem_present {fields : List (String × Option Json)} {field : String × Json}
    (member : field ∈ present fields) : field.1 ∈ fields.map Prod.fst := by
  obtain ⟨original, inFields, made⟩ := List.mem_filterMap.mp member
  obtain ⟨json, -, rfl⟩ := Option.map_eq_some_iff.mp made
  exact List.mem_map_of_mem inFields

/-- A field of a written record is found by its name, since no other has it. -/
theorem fieldOnce_present {fields : List (String × Option Json)}
    (distinct : (fields.map Prod.fst).Nodup) {field : String × Option Json}
    (member : field ∈ fields) :
    fieldOnce field.1.toList ((present fields).map fun field => (some field.1.toList, field.2))
      = some field.2 := by
  unfold fieldOnce
  induction fields with
  | nil => exact absurd member List.not_mem_nil
  | cons first rest inductionHypothesis =>
      obtain ⟨name, value⟩ := first
      obtain ⟨fresh, distinctRest⟩ := List.nodup_cons.mp distinct
      rcases List.mem_cons.mp member with rfl | inRest
      · have others := @filter_record_eq_nil name (present rest)
          fun field listed same => fresh (same ▸ name_mem_of_mem_present listed)
        cases value with
        | none =>
            have skipped : present ((name, none) :: rest) = present rest := rfl
            rw [skipped, others]
        | some json =>
            have found : present ((name, some json) :: rest) = (name, json) :: present rest := rfl
            rw [found, List.map_cons, List.filter_cons_of_pos (by simp), others]
      · have other : name ≠ field.1 := fun same =>
          fresh (List.mem_map.mpr ⟨field, inRest, same.symm⟩)
        have later := inductionHypothesis distinctRest inRest
        cases value with
        | none => exact later
        | some json =>
            have skipped : present ((name, some json) :: rest) = (name, json) :: present rest := rfl
            rw [skipped, List.map_cons,
              List.filter_cons_of_neg (by simpa [String.toList_inj] using other)]
            exact later

/-- The fields of a written record are taken out by name, none for one without a value. -/
theorem fields?_present {names : List String} {fields : List (String × Option Json)}
    (named : fields.map Prod.fst = names) (distinct : names.Nodup) :
    (record (present fields)).fields? names = some (fields.map Prod.snd) := by
  have allSpelled : ((present fields).map fun field => (some field.1.toList, field.2)).all
      (fun field : Option Text × Json => field.1.isSome) = true := by
    simp
  subst named
  have each : ∀ field ∈ fields, fieldOnce field.1.toList
      ((present fields).map fun field => (some field.1.toList, field.2)) = some field.2 :=
    fun field member => fieldOnce_present distinct member
  unfold record Json.fields?
  simp only [allSpelled, ↓reduceIte]
  generalize ((present fields).map fun field => (some field.1.toList, field.2)) = written at each
  clear distinct allSpelled
  induction fields with
  | nil => rfl
  | cons field rest inductionHypothesis =>
      obtain ⟨first, others⟩ := List.forall_mem_cons.mp each
      rw [List.map_cons, List.mapM_cons, first, inductionHypothesis others]
      rfl

/-! ## Lists -/

/-- A value is read back from the document of it when the document opens no more arrays and
objects inside each other than the reader allows, and is refused when it opens more. -/
def GivesBack {Value : Type} (read : Json → Option Value) (write : Value → Json)
    (levels : Nat) (value : Value) : Prop :=
  read (write value) = if (write value).depth ≤ levels then some value else none

theorem GivesBack.of_iff {Value : Type} {read : Json → Option Value} {write : Value → Json}
    {levels : Nat} {value : Value} {condition : Prop} [Decidable condition]
    (fits : (write value).depth ≤ levels ↔ condition)
    (reads : read (write value) = if condition then some value else none) :
    GivesBack read write levels value := by
  unfold GivesBack
  simp only [reads, fits]

/-- No level is enough for an array or an object to be read with none. -/
theorem givesBack_zero {Value : Type} {write : Value → Json} {value : Value}
    (isNested : 0 < (write value).depth) : GivesBack (fun _ => none) write 0 value :=
  (if_neg (Nat.not_le.mpr isNested)).symm

theorem givesBack_zero_of_record {Value : Type} {write : Value → Json} {value : Value}
    {fields : List (String × Json)} (written : write value = record fields) :
    GivesBack (fun _ => none) write 0 value := by
  apply givesBack_zero
  rw [written]
  exact Nat.succ_pos _

theorem list?_map {Value : Type} {read : Json → Option Value} {write : Value → Json}
    {levels : Nat} {values : List Value}
    (each : ∀ value ∈ values, GivesBack read write levels value) :
    GivesBack (list? read) (fun values => .array (values.map write)) (levels + 1) values := by
  unfold GivesBack list?
  simp only [depth_array_le_iff, List.forall_mem_map]
  induction values with
  | nil => simp
  | cons value rest inductionHypothesis =>
      have first := each value List.mem_cons_self
      have others := inductionHypothesis fun other member =>
        each other (List.mem_cons_of_mem _ member)
      rw [List.map_cons, List.mapM_cons, first, others]
      simp only [List.forall_mem_cons]
      by_cases fits : (write value).depth ≤ levels
      · by_cases othersFit : ∀ other ∈ rest, (write other).depth ≤ levels
        · simp only [if_pos fits, if_pos othersFit, if_pos (And.intro fits othersFit)]
          rfl
        · simp only [if_pos fits, if_neg othersFit, if_neg fun both : _ ∧ _ => othersFit both.2]
          rfl
      · simp only [if_neg fits, if_neg fun both : _ ∧ _ => fits both.1]
        rfl

/-- A value survives in its document: the document is a record of those of its fields that
have a value, it holds no null, and its spelling is read back by every reader that allows the
levels that the document opens, and by no other. -/
structure Survives {Value : Type} (read : Nat → Json → Option Value) (write : Value → Json)
    (fields : List (String × Option Json)) (value : Value) : Prop where
  written : write value = record (present fields)
  textual : Textual (write value)
  readBack : ∀ levels, (read? (write value).write).bind (read levels)
    = if (write value).depth ≤ levels then some value else none

theorem survives_of_givesBack {Value : Type} {read : Nat → Json → Option Value}
    {write : Value → Json} {fields : List (String × Option Json)} {value : Value}
    (written : write value = record (present fields)) (textual : Textual (write value))
    (back : ∀ levels, GivesBack (read levels) write levels value) :
    Survives read write fields value where
  written := written
  textual := textual
  readBack levels := by
    rw [read?_write textual, Option.bind_some]
    exact back levels

/-! ## Fields -/

section Fields

variable {Value : Type} {read : Json → Option Value} {write : Value → Json} {levels : Nat}

/-- Reading goes on behind a value that is read back under a condition. -/
theorem bind_if_some {Result : Type} {condition : Prop} [Decidable condition] (value : Value)
    (next : Value → Option Result) :
    (if condition then some value else none).bind next
      = if condition then next value else none := by
  split <;> rfl

/-- The field of a list that is left out when it is empty. -/
def nonEmpty (write : Value → Json) : List Value → Option Json
  | [] => none
  | value :: rest => some (.array ((value :: rest).map write))

/-- A list that is left out when it is empty is read back when its elements are. -/
theorem withDefault_nonEmpty {read : Json → Option (List Value)} {values : List Value}
    (back : GivesBack read (fun values => .array (values.map write)) levels values) :
    withDefault [] read (nonEmpty write values)
      = if Fits levels (nonEmpty write values) then some values else none := by
  cases values with
  | nil => simp [nonEmpty, withDefault]
  | cons value rest =>
      simp only [nonEmpty, fits_some_iff]
      exact back

@[simp] theorem nullable_map_ofText (text : Option Text) :
    nullable text? (text.map ofText) = some text := by
  cases text <;> rfl

/-- A field that is absent without a value is read back when its value is. -/
theorem nullable_map {value : Option Value} (notNull : ∀ value, write value ≠ .null)
    (back : ∀ inner ∈ value, GivesBack read write levels inner) :
    nullable read (value.map write)
      = if Fits levels (value.map write) then some value else none := by
  cases value with
  | none => rfl
  | some inner =>
      have reading : nullable read (some (write inner)) = (read (write inner)).map some := by
        cases written : write inner with
        | null => exact absurd written (notNull inner)
        | _ => rfl
      have backInner : read (write inner) = _ := back inner rfl
      rw [Option.map_some, reading, backInner]
      simp only [fits_some_iff]
      split <;> rfl

end Fields

end Typesheet.Json

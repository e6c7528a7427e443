import Mathlib.Logic.Basic
import Typesheet.Namespace.Json
import Typesheet.Proofs.Json.Record

/-!
Contract: definitions and the views of them are read back.

Owns: the documents of properties, listings, registrations and definitions are documents of
texts and flags that open at most four arrays and objects inside each other, and each is read
back by every reader that allows the levels that it opens.  A table of columns is read back
in its order when no key stands in it twice.
-/

set_option autoImplicit false

namespace Typesheet

open Json (GivesBack Textual Fits)

/-! ## Tables -/

namespace Table

variable {Value : Type}

theorem set_of_notMem {key : Text} {table : Table Value} (fresh : key ∉ table.map Prod.fst)
    (value : Value) : set key value table = table ++ [(key, value)] := by
  induction table with
  | nil => rfl
  | cons entry rest inductionHypothesis =>
      obtain ⟨own, old⟩ := entry
      rw [List.map_cons, List.mem_cons, not_or] at fresh
      rw [set, if_neg (Ne.symm fresh.1), inductionHypothesis fresh.2, List.cons_append]

/-- Pairs whose keys are distinct are a table as they are. -/
theorem ofPairs_of_nodup {pairs : List (Text × Value)} (distinct : (pairs.map Prod.fst).Nodup) :
    ofPairs pairs = pairs := by
  have build : ∀ (rest table : Table Value), ((table ++ rest).map Prod.fst).Nodup →
      rest.foldl (fun table pair => set pair.1 pair.2 table) table = table ++ rest := by
    intro rest
    induction rest with
    | nil => intro table _; rw [List.foldl_nil, List.append_nil]
    | cons pair rest inductionHypothesis =>
        intro table distinct
        have regrouped : table ++ pair :: rest = (table ++ [pair]) ++ rest := by simp
        rw [regrouped] at distinct
        have fresh : pair.1 ∉ table.map Prod.fst := by
          rw [List.map_append, List.nodup_append] at distinct
          have own := distinct.1
          rw [List.map_append, List.nodup_append] at own
          exact fun member => own.2.2 _ member _ List.mem_cons_self rfl
        rw [List.foldl_cons, set_of_notMem fresh, inductionHypothesis _ distinct, regrouped]
  exact build pairs [] distinct

end Table

theorem Json.pairs?_map {Value : Type} {read : Json → Option Value} {write : Value → Json}
    {levels : Nat} {pairs : List (Text × Value)}
    (each : ∀ pair ∈ pairs, GivesBack read write levels pair.2) :
    GivesBack (pairs? read)
      (fun pairs => .object (pairs.map fun pair => (some pair.1, write pair.2)))
      (levels + 1) pairs := by
  unfold GivesBack pairs?
  simp only [depth_object_le_iff, List.forall_mem_map]
  induction pairs with
  | nil => simp
  | cons pair rest inductionHypothesis =>
      have first : read (write pair.2) = _ := each pair List.mem_cons_self
      have others := inductionHypothesis fun other member =>
        each other (List.mem_cons_of_mem _ member)
      rw [List.map_cons, List.mapM_cons, others]
      simp only [List.forall_mem_cons, Option.bind_eq_bind, Option.bind_some, first, ite_and,
        bind_if_some]
      by_cases fits : (write pair.2).depth ≤ levels
      · simp only [if_pos fits]
        rfl
      · simp only [if_neg fits]
        rfl

/-! ## Columns -/

namespace Property

/-- The fields of the document of a property. -/
def fields (property : Property) : List (String × Option Json) :=
  [("name", some (.ofText property.name)), ("type", property.typeText.map .ofText),
    ("target", property.target.map .ofText), ("optional", some (.bool property.isOptional))]

theorem toJson_eq_present (property : Property) :
    property.toJson = .record (Json.present property.fields) := by
  obtain ⟨name, typeText, target, isOptional⟩ := property
  cases typeText <;> cases target <;> rfl

theorem textual_toJson (property : Property) : Textual property.toJson := by
  rw [toJson_eq_present]
  apply Json.textual_present
  simp [fields]

theorem depth_toJson_le (property : Property) (levels : Nat) :
    property.toJson.depth ≤ levels + 1 := by
  rw [toJson_eq_present, Json.depth_present_le_iff]
  simp [fields]

theorem givesBack (levels : Nat) (property : Property) :
    GivesBack (ofJson? levels) toJson levels property := by
  cases levels with
  | zero => exact Json.givesBack_zero_of_record property.toJson_eq_present
  | succ levels =>
      have taken := @Json.fields?_present ["name", "type", "target", "optional"] property.fields
        rfl (by decide)
      unfold GivesBack
      rw [if_pos (property.depth_toJson_le levels), toJson_eq_present, ofJson?, taken]
      simp [fields, Json.required, Json.withDefault]

end Property

namespace Entry

def fields (entry : Entry) : List (String × Option Json) :=
  [("prop", entry.property.map Property.toJson)]

theorem toJson_eq_present (entry : Entry) : entry.toJson = .record (Json.present entry.fields) := by
  obtain ⟨property⟩ := entry
  cases property <;> rfl

theorem textual_toJson (entry : Entry) : Textual entry.toJson := by
  rw [toJson_eq_present]
  apply Json.textual_present
  simp [fields, Property.textual_toJson]

theorem depth_toJson_le (entry : Entry) (levels : Nat) : entry.toJson.depth ≤ levels + 2 := by
  rw [toJson_eq_present, Json.depth_present_le_iff]
  obtain ⟨property⟩ := entry
  cases property with
  | none => simp [fields]
  | some property => simpa [fields] using property.depth_toJson_le levels

theorem givesBack (levels : Nat) (entry : Entry) :
    GivesBack (ofJson? levels) toJson levels entry := by
  cases levels with
  | zero => exact Json.givesBack_zero_of_record entry.toJson_eq_present
  | succ levels =>
      have taken := @Json.fields?_present ["prop"] entry.fields rfl (by decide)
      have fits : entry.toJson.depth ≤ levels + 1
          ↔ Fits levels (entry.property.map Property.toJson) := by
        rw [toJson_eq_present, Json.depth_present_le_iff]
        simp [fields]
      have property := @Json.nullable_map Property (Property.ofJson? levels) Property.toJson
        levels entry.property (fun property => property.toJson_eq_present ▸ Json.record_ne_null _)
        fun inner _ => inner.givesBack levels
      apply GivesBack.of_iff fits
      rw [toJson_eq_present, ofJson?, taken]
      simp [fields, property, Json.bind_if_some]

theorem textual_tableToJson (columns : Table Entry) : Textual (tableToJson columns) := by
  apply Textual.object
  · rw [List.forall_mem_map]
    exact fun _ _ => rfl
  · rw [List.forall_mem_map]
    exact fun column _ => column.2.textual_toJson

theorem depth_tableToJson_le (columns : Table Entry) (levels : Nat) :
    (tableToJson columns).depth ≤ levels + 3 := by
  rw [tableToJson, Json.depth_object_le_iff, List.forall_mem_map]
  exact fun column _ => column.2.depth_toJson_le levels

theorem givesBack_table (levels : Nat) {columns : Table Entry}
    (distinct : (columns.map Prod.fst).Nodup) :
    GivesBack (tableOfJson? levels) tableToJson levels columns := by
  cases levels with
  | zero => exact Json.givesBack_zero (Nat.succ_pos _)
  | succ levels =>
      have pairs : (tableToJson columns).pairs? (ofJson? levels)
          = if (tableToJson columns).depth ≤ levels + 1 then some columns else none :=
        Json.pairs?_map fun column _ => column.2.givesBack levels
      unfold GivesBack
      rw [tableOfJson?, pairs]
      split
      · rw [Option.map_some, Table.ofPairs_of_nodup distinct]
      · rfl

end Entry

namespace Listing

def fields (listing : Listing) : List (String × Option Json) :=
  [("columns", some (Entry.tableToJson listing.columns))]

theorem toJson_eq_present (listing : Listing) :
    listing.toJson = .record (Json.present listing.fields) :=
  rfl

theorem textual_toJson (listing : Listing) : Textual listing.toJson := by
  rw [toJson_eq_present]
  apply Json.textual_present
  simp [fields, Entry.textual_tableToJson]

theorem depth_toJson_le (listing : Listing) (levels : Nat) :
    listing.toJson.depth ≤ levels + 4 := by
  rw [toJson_eq_present, Json.depth_present_le_iff]
  simpa [fields] using Entry.depth_tableToJson_le listing.columns levels

theorem givesBack (levels : Nat) {listing : Listing}
    (distinct : (listing.columns.map Prod.fst).Nodup) :
    GivesBack (ofJson? levels) toJson levels listing := by
  cases levels with
  | zero => exact Json.givesBack_zero (Nat.succ_pos _)
  | succ levels =>
      have taken := @Json.fields?_present ["columns"] listing.fields rfl (by decide)
      have fits : listing.toJson.depth ≤ levels + 1
          ↔ (Entry.tableToJson listing.columns).depth ≤ levels := by
        rw [toJson_eq_present, Json.depth_present_le_iff]
        simp [fields]
      have columns : Entry.tableOfJson? levels _ = _ := Entry.givesBack_table levels distinct
      apply GivesBack.of_iff fits
      rw [toJson_eq_present, ofJson?, taken]
      simp [fields, Json.withDefault, columns, Json.bind_if_some]

end Listing

/-! ## Registrations and definitions -/

namespace Profile

def fields (profile : Profile) : List (String × Option Json) :=
  [("typename", some (.ofText profile.typename)), ("implements", profile.implements.map .ofText)]

theorem toJson_eq_present (profile : Profile) :
    profile.toJson = .record (Json.present profile.fields) := by
  obtain ⟨typename, implements⟩ := profile
  cases implements <;> rfl

theorem textual_toJson (profile : Profile) : Textual profile.toJson := by
  rw [toJson_eq_present]
  apply Json.textual_present
  simp [fields]

theorem depth_toJson_le (profile : Profile) (levels : Nat) :
    profile.toJson.depth ≤ levels + 1 := by
  rw [toJson_eq_present, Json.depth_present_le_iff]
  simp [fields]

theorem givesBack (levels : Nat) (profile : Profile) :
    GivesBack (ofJson? levels) toJson levels profile := by
  cases levels with
  | zero => exact Json.givesBack_zero_of_record profile.toJson_eq_present
  | succ levels =>
      have taken := @Json.fields?_present ["typename", "implements"] profile.fields rfl (by decide)
      unfold GivesBack
      rw [if_pos (profile.depth_toJson_le levels), toJson_eq_present, ofJson?, taken]
      simp [fields, Json.withDefault]

end Profile

namespace Registration

def fields (registration : Registration) : List (String × Option Json) :=
  [("exists", some (.bool registration.isDefined)),
    ("type", registration.profile.map Profile.toJson)]

theorem toJson_eq_present (registration : Registration) :
    registration.toJson = .record (Json.present registration.fields) := by
  obtain ⟨isDefined, profile⟩ := registration
  cases profile <;> rfl

theorem textual_toJson (registration : Registration) : Textual registration.toJson := by
  rw [toJson_eq_present]
  apply Json.textual_present
  simp [fields, Profile.textual_toJson]

theorem depth_toJson_le (registration : Registration) (levels : Nat) :
    registration.toJson.depth ≤ levels + 2 := by
  rw [toJson_eq_present, Json.depth_present_le_iff]
  obtain ⟨isDefined, profile⟩ := registration
  cases profile with
  | none => simp [fields]
  | some profile => simpa [fields] using profile.depth_toJson_le levels

theorem givesBack (levels : Nat) (registration : Registration) :
    GivesBack (ofJson? levels) toJson levels registration := by
  cases levels with
  | zero => exact Json.givesBack_zero_of_record registration.toJson_eq_present
  | succ levels =>
      have taken := @Json.fields?_present ["exists", "type"] registration.fields rfl (by decide)
      have fits : registration.toJson.depth ≤ levels + 1
          ↔ Fits levels (registration.profile.map Profile.toJson) := by
        rw [toJson_eq_present, Json.depth_present_le_iff]
        simp [fields]
      have profile := @Json.nullable_map Profile (Profile.ofJson? levels) Profile.toJson
        levels registration.profile (fun profile => profile.toJson_eq_present ▸ Json.record_ne_null _)
        fun inner _ => inner.givesBack levels
      apply GivesBack.of_iff fits
      rw [toJson_eq_present, ofJson?, taken]
      simp [fields, Json.required, profile, Json.bind_if_some]

end Registration

namespace Definition

def fields (definition : Definition) : List (String × Option Json) :=
  [("typename", some (.ofText definition.typename)),
    ("implements", definition.implements.map .ofText),
    ("columns", some (Entry.tableToJson definition.columns))]

theorem toJson_eq_present (definition : Definition) :
    definition.toJson = .record (Json.present definition.fields) := by
  obtain ⟨typename, implements, columns⟩ := definition
  cases implements <;> rfl

theorem textual_toJson (definition : Definition) : Textual definition.toJson := by
  rw [toJson_eq_present]
  apply Json.textual_present
  simp [fields, Entry.textual_tableToJson]

theorem depth_toJson_le (definition : Definition) (levels : Nat) :
    definition.toJson.depth ≤ levels + 4 := by
  rw [toJson_eq_present, Json.depth_present_le_iff]
  simpa [fields] using Entry.depth_tableToJson_le definition.columns levels

/-- A definition is read back with its columns in their order, when each key has one
column. -/
theorem givesBack (levels : Nat) {definition : Definition}
    (distinct : (definition.columns.map Prod.fst).Nodup) :
    GivesBack (ofJson? levels) toJson levels definition := by
  cases levels with
  | zero => exact Json.givesBack_zero_of_record definition.toJson_eq_present
  | succ levels =>
      have taken := @Json.fields?_present ["typename", "implements", "columns"] definition.fields
        rfl (by decide)
      have fits : definition.toJson.depth ≤ levels + 1
          ↔ (Entry.tableToJson definition.columns).depth ≤ levels := by
        rw [toJson_eq_present, Json.depth_present_le_iff]
        simp [fields]
      have columns : Entry.tableOfJson? levels _ = _ := Entry.givesBack_table levels distinct
      apply GivesBack.of_iff fits
      rw [toJson_eq_present, ofJson?, taken]
      simp [fields, Json.withDefault, columns, Json.bind_if_some]

end Definition

end Typesheet

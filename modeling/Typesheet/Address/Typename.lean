import Typesheet.Address.Uri

/-!
Contract: the type name that an address suggests.

`ns:crm/contacts_v2` suggests `CrmContactsV2`: the ASCII letters and digits of
the id, each run of them capitalized.
-/

set_option autoImplicit false

namespace Typesheet.Address

/-- The name of a namespace whose id has no letter and no digit. -/
def fallbackTypename : Text := "Namespace".toList

/-- The letters and digits of a text; one that follows another character, or
starts the text when `capital` is set, is capitalized. -/
def capitalizeRuns (capital : Bool) : Text → Text
  | [] => []
  | character :: rest =>
      if character.isAlphanum then
        (if capital then character.toUpper else character) :: capitalizeRuns false rest
      else capitalizeRuns true rest

/-- The type name that an address suggests: never empty, and never starting
with a digit. -/
def typename (uri : Text) : Text :=
  match capitalizeRuns true ((marker.isPrefixOf? uri).getD uri) with
  | [] => fallbackTypename
  | first :: rest => if first.isDigit then '_' :: first :: rest else first :: rest

theorem typename_ne_nil (uri : Text) : typename uri ≠ [] := by
  unfold typename
  split
  case h_1 => exact List.cons_ne_nil _ _
  case h_2 =>
    split
    case isTrue => exact List.cons_ne_nil _ _
    case isFalse => exact List.cons_ne_nil _ _

end Typesheet.Address

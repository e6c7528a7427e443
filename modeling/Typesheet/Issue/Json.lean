import Typesheet.Issue.Basic
import Typesheet.Json.Decode

/-!
Contract: the JSON form of issues.

Owns: the writer and the reader of issue trees.  Children are left out in
writing when there are none.
-/

set_option autoImplicit false

namespace Typesheet

def IssueKind.toJson (kind : IssueKind) : Json :=
  .ofText kind.code

def IssueKind.ofJson? (origin : Json.Origin) (json : Json) : Option IssueKind :=
  Json.name? origin IssueKind.ofCode? json

namespace Issue

mutual

def toJson : Issue → Json
  | ⟨kind, message, children⟩ =>
      .record <|
        [("message", .ofText message), ("kind", kind.toJson)]
          ++ if children.isEmpty then [] else [("children", .array (listToJson children))]
termination_by structural issue => issue

def listToJson : List Issue → List Json
  | [] => []
  | issue :: rest => toJson issue :: listToJson rest
termination_by structural issues => issues

end

mutual

def ofJson? (origin : Json.Origin) : Nat → Json → Option Issue
  | 0, _ => none
  | levels + 1, json => do
      let [message, kind, children] ← json.fields? ["message", "kind", "children"] | none
      return {
        kind := ← Json.required (IssueKind.ofJson? origin) kind
        message := ← Json.required Json.text? message
        children := ← Json.withDefault [] (listOfJson? origin levels) children }
termination_by structural levels => levels

def listOfJson? (origin : Json.Origin) : Nat → Json → Option (List Issue)
  | 0, _ => none
  | levels + 1, json => json.list? (fun element => ofJson? origin levels element)
termination_by structural levels => levels

end

end Issue

end Typesheet

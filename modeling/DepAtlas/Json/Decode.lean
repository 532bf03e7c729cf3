import DepAtlas.Json.Basic
import DepAtlas.Width

/-!
Reading records out of JSON values. A record is an object, whose unknown members are passed over and
whose known ones must not be repeated, or an array of its fields in order.
-/

namespace DepAtlas.Json

/-- The fields of a record as they were given. -/
structure Record where
  /-- Whether the fields were given by position. -/
  positional : Bool
  fields : List (String × Json)

/-- The record with these field names. -/
def record? (names : List String) : Json → Option Record
  | obj members =>
    let known := members.filter fun member => names.contains member.1
    if (known.map (·.1)).eraseDups.length == known.length then some ⟨false, known⟩ else none
  | arr items => if items.length ≤ names.length then some ⟨true, names.zip items⟩ else none
  | _ => none

/-- The record with these field names, given as an object. -/
def objectRecord? (names : List String) (json : Json) : Option Record :=
  (json.record? names).filter fun record => !record.positional

namespace Record

/-- A field that must be there. -/
def required {α : Type} (record : Record) (name : String) (decode : Json → Option α) : Option α :=
  (record.fields.lookup name).bind decode

/-- A field that may be null, and that may be missing where fields are given by name. -/
def optional {α : Type} (record : Record) (name : String) (decode : Json → Option α) :
    Option (Option α) :=
  match record.fields.lookup name with
  | none => if record.positional then none else some none
  | some .null => some none
  | some json => (decode json).map some

/-- A field that stands for a default when it is missing. -/
def defaulted {α : Type} (record : Record) (name : String) (decode : Json → Option α)
    (default : α) : Option α :=
  match record.fields.lookup name with
  | none => some default
  | some json => decode json

/-- A field that may be missing or null. -/
def absentable {α : Type} (record : Record) (name : String) (decode : Json → Option α) :
    Option (Option α) :=
  match record.fields.lookup name with
  | none => some none
  | some .null => some none
  | some json => (decode json).map some

end Record

/-- A natural number below a limit. -/
def natBelow? (limit : Nat) (json : Json) : Option Nat :=
  json.nat?.filter (· < limit)

/-- A count of 64 bits. -/
def count? (json : Json) : Option Nat :=
  json.natBelow? limit64

/-- A list, each of whose items is decoded. -/
def list? {α : Type} (decode : Json → Option α) (json : Json) : Option (List α) :=
  json.arr?.bind fun items => items.mapM decode

def strings? (json : Json) : Option (List String) :=
  json.list? str?

/-- The name of one of several alternatives: a string, or an object with that one name and null. -/
def choice? : Json → Option String
  | str name => some name
  | obj [(name, null)] => some name
  | _ => none

end DepAtlas.Json

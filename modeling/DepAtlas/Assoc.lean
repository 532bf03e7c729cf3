/-!
Association lists with one entry per key. A key that is put again keeps its place and its first
spelling, and gets the new value.
-/

namespace DepAtlas

/-- Entries with keys and values, in the order in which the keys were first put. -/
abbrev Assoc (κ α : Type) := List (κ × α)

namespace Assoc

variable {κ α : Type} [BEq κ]

def get? (key : κ) (entries : Assoc κ α) : Option α :=
  (entries.find? fun entry => entry.1 == key).map (·.2)

def has (key : κ) (entries : Assoc κ α) : Bool :=
  entries.any fun entry => entry.1 == key

def put (key : κ) (value : α) : Assoc κ α → Assoc κ α
  | [] => [(key, value)]
  | entry :: rest =>
    if entry.1 == key then (entry.1, value) :: rest else entry :: put key value rest

def erase (key : κ) (entries : Assoc κ α) : Assoc κ α :=
  entries.filter fun entry => !(entry.1 == key)

def keys (entries : Assoc κ α) : List κ :=
  entries.map (·.1)

end Assoc

end DepAtlas

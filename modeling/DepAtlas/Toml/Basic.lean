/-!
TOML values, and how the statements of a document build its tables. A table remembers how it came
about, because that decides whether later statements may add to it.
-/

namespace DepAtlas

/-- How a table came about. -/
inductive Toml.Origin
  /-- Named by a header, or an element of an array of tables. -/
  | header
  /-- On the way to a table named by a header. -/
  | implied
  /-- On the way to a value with a dotted key. -/
  | dotted
  /-- Written out as a value. -/
  | inline
deriving Repr, DecidableEq

/-- A TOML value. -/
inductive Toml
  | string (value : String)
  | integer (value : Int)
  /-- A number with fraction or exponent, as it is written. -/
  | float (text : String)
  | boolean (value : Bool)
  /-- A date, a time or both, as written. -/
  | datetime (text : String)
  | array (items : List Toml)
  | table (origin : Toml.Origin) (entries : List (String × Toml))
  /-- The tables of an array of tables. -/
  | tables (elements : List (List (String × Toml)))
deriving Repr, Inhabited

namespace Toml

/-- The keys of a table with their values. -/
abbrev Entries := List (String × Toml)

/-- Gives a key that is there a new value. -/
def replace (key : String) (value : Toml) (entries : Entries) : Entries :=
  entries.map fun entry => if entry.1 == key then (key, value) else entry

/-- Changes the table at the end of a path of keys. Missing tables are created on the way: as dotted
tables on the way to a value, as implied ones on the way to a table. A dotted key does not lead
through a table with a header, and nothing leads through a value. -/
def update (byKey : Bool) (edit : Origin → Entries → Option Entries) :
    List String → Origin → Entries → Option Entries
  | [], origin, entries => edit origin entries
  | key :: path, _, entries =>
    match entries.lookup key with
    | none =>
      let origin := if byKey then Origin.dotted else Origin.implied
      (update byKey edit path origin []).map fun child => entries ++ [(key, .table origin child)]
    | some (.table origin child) =>
      if origin == .inline || (byKey && origin == .header) then none
      else (update byKey edit path origin child).map fun child =>
        replace key (.table origin child) entries
    | some (.tables elements) =>
      match elements.getLast? with
      | none => none
      | some last => (update byKey edit path .header last).map fun last =>
        replace key (.tables (elements.dropLast ++ [last])) entries
    | some _ => none

/-- Adds a value under a dotted key. -/
def insert (path : List String) (key : String) (value : Toml) (origin : Origin)
    (entries : Entries) : Option Entries :=
  update true (fun origin entries =>
    if (origin == .dotted) == path.isEmpty || (entries.lookup key).isSome then none
    else some (entries ++ [(key, value)])) path origin entries

/-- Adds a table named by a header. -/
def openTable (path : List String) (key : String) (entries : Entries) : Option Entries :=
  update false (fun _ entries =>
    match entries.lookup key with
    | none => some (entries ++ [(key, .table .header [])])
    | some (.table .implied child) => some (replace key (.table .header child) entries)
    | some _ => none) path .header entries

/-- Adds a table to an array of tables. -/
def openElement (path : List String) (key : String) (entries : Entries) : Option Entries :=
  update false (fun _ entries =>
    match entries.lookup key with
    | none => some (entries ++ [(key, .tables [[]])])
    | some (.tables elements) => some (replace key (.tables (elements ++ [[]])) entries)
    | some _ => none) path .header entries

/-- Adds a value under a dotted key to the table that a header named. -/
def insertBelow (header path : List String) (key : String) (value : Toml) (entries : Entries) :
    Option Entries :=
  update false (insert path key value) header .header entries

end Toml

end DepAtlas

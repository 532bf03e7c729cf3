/-!
JSON values. Objects keep their members in order, repeated names included, so that a reader can
refuse them; whole numbers are kept exactly, all other numbers as they are written. A reader that passes
over a member does not mind what cannot be held in it.
-/

namespace DepAtlas

/-- A JSON value. -/
inductive Json
  | null
  | bool (value : Bool)
  /-- A whole number that fits in 64 bits, signed or unsigned. -/
  | int (value : Int)
  /-- Any other number, as it is written. -/
  | real (text : String)
  | str (value : String)
  | arr (items : List Json)
  | obj (members : List (String × Json))
  /-- Something well formed that stands for no value that can be held: a string that is no text, a number
  that is too large, an object with such a string as a name, or values nested too deeply. -/
  | unreadable
deriving Repr, Inhabited, BEq

namespace Json

def nat (value : Nat) : Json := .int value

/-- An absent value is null. -/
def ofOption {α : Type} (encode : α → Json) : Option α → Json
  | some value => encode value
  | none => .null

def ofList {α : Type} (encode : α → Json) (values : List α) : Json :=
  .arr (values.map encode)

def strings (values : List String) : Json :=
  ofList .str values

/-- The value of the first member with this name. -/
def member? (name : String) : Json → Option Json
  | obj members => members.lookup name
  | _ => none

def str? : Json → Option String
  | str value => some value
  | _ => none

def int? : Json → Option Int
  | int value => some value
  | _ => none

def nat? (json : Json) : Option Nat :=
  json.int?.bind fun value => if 0 ≤ value then some value.toNat else none

def bool? : Json → Option Bool
  | bool value => some value
  | _ => none

def arr? : Json → Option (List Json)
  | arr items => some items
  | _ => none

mutual

/-- Whether a value and everything in it can be held. -/
def isReadable : Json → Bool
  | unreadable => false
  | arr items => areReadable items
  | obj members => haveReadableValues members
  | _ => true

/-- Whether all items can be held. -/
def areReadable : List Json → Bool
  | [] => true
  | item :: items => isReadable item && areReadable items

/-- Whether the values of all members can be held. -/
def haveReadableValues : List (String × Json) → Bool
  | [] => true
  | (_, value) :: members => isReadable value && haveReadableValues members

end

end Json

end DepAtlas

/-!
The three granularities of a dependency, and sets of them.
-/

namespace DepAtlas

/-- Granularity of a dependency: imports, type declarations, or definitions with their calls. -/
inductive Layer
  | module
  | struct
  | method
deriving Repr, DecidableEq, Inhabited

namespace Layer

/-- Every layer, in the order in which a file's dependencies are listed. -/
def all : List Layer := [.module, .struct, .method]

/-- The name used in configuration and reports. -/
def name : Layer → String
  | module => "module"
  | struct => "struct"
  | method => "method"

instance : ToString Layer := ⟨name⟩

/-- Lower-cases the ASCII letters of a word. -/
def foldCase (word : String) : String :=
  word.map Char.toLower

/-- The layer with this name, whatever the case of its letters. -/
def ofName? (word : String) : Option Layer :=
  all.find? fun layer => layer.name == foldCase word

/-- The bit of a layer in a set of layers. -/
def bit : Layer → UInt8
  | module => 1
  | struct => 2
  | method => 4

end Layer

/-- A set of layers as a bit mask; bits above the three layers carry no meaning. -/
structure LayerMask where
  bits : UInt8
deriving Repr, DecidableEq, Inhabited

namespace LayerMask

def none : LayerMask := ⟨0⟩

def all : LayerMask := ⟨7⟩

def contains (mask : LayerMask) (layer : Layer) : Bool :=
  mask.bits &&& layer.bit != 0

def insert (mask : LayerMask) (layer : Layer) : LayerMask :=
  ⟨mask.bits ||| layer.bit⟩

def union (a b : LayerMask) : LayerMask :=
  ⟨a.bits ||| b.bits⟩

def ofList (layers : List Layer) : LayerMask :=
  layers.foldl insert none

/-- The layers with the given names, where no names at all stand for every layer. Words that name no
layer are passed over. -/
def ofNames (names : List String) : LayerMask :=
  if names.isEmpty then all else ofList (names.filterMap Layer.ofName?)

/-- Whether no bit is set. -/
def isEmpty (mask : LayerMask) : Bool :=
  mask.bits == 0

/-- The layers of the set, in layer order. -/
def toList (mask : LayerMask) : List Layer :=
  Layer.all.filter mask.contains

end LayerMask

end DepAtlas

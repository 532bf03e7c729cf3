import DepAtlas.Error
import DepAtlas.Grammar.Registry
import DepAtlas.Ratio

/-!
The pattern store hands out a language's patterns, layer by layer, once it has been filled.
-/

namespace DepAtlas

/-- The patterns of one layer of one language. -/
structure PatternSet where
  language : Language
  layer : Layer
  patterns : List (Pattern × PatternRole)
  importBlock : Option Pattern

namespace PatternSet

/-- The set for a layer of a grammar; only the import layer has a block pattern. -/
def ofGrammar (grammar : Grammar) (layer : Layer) : PatternSet where
  language := grammar.language
  layer := layer
  patterns := grammar.patterns layer
  importBlock := if layer = .module then grammar.importBlock else none

/-- The patterns with a given role, in order. -/
def withRole (set : PatternSet) (role : PatternRole) : List Pattern :=
  (set.patterns.filter (·.2 == role)).map (·.1)

def definitions (set : PatternSet) : List Pattern :=
  set.withRole .definition

def calls (set : PatternSet) : List Pattern :=
  set.withRole .call

end PatternSet

/-- A store of pattern sets, empty until it is filled. -/
structure PatternStore where
  sets : List PatternSet := []
  ready : Bool := false

namespace PatternStore

/-- The store with every layer of every grammar. -/
def filled : PatternStore where
  sets := Grammar.all.flatMap fun grammar => Layer.all.map (PatternSet.ofGrammar grammar)
  ready := true

/-- The store with everything released. -/
def release (_store : PatternStore) : PatternStore := {}

/-- The patterns of a layer of a language; none unless the store is filled. -/
def find? (store : PatternStore) (language : Language) (layer : Layer) : Option PatternSet :=
  if store.ready then store.sets.find? fun set => set.language == language && set.layer == layer
  else none

/-- The patterns of a layer of the language at a registry position. -/
def findAt? (store : PatternStore) (index : Nat) (layer : Layer) : Option PatternSet :=
  (Language.ofIndex? index).bind fun language => store.find? language layer

/-- The patterns of a layer of a language, or the reason why there are none. -/
def require (store : PatternStore) (language : Language) (layer : Layer) :
    Except PatternError PatternSet :=
  match store.find? language layer with
  | some set => .ok set
  | none => .error .uninitialized

def size (store : PatternStore) : Nat :=
  total (·.patterns.length) store.sets

end PatternStore

end DepAtlas

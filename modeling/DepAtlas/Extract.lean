import DepAtlas.Extract.Method
import DepAtlas.Extract.Module
import DepAtlas.Extract.Structure

/-!
Extraction of a file's dependencies, layer by layer: imports, then declarations, then definitions.
-/

namespace DepAtlas

namespace Extract

def layer (store : PatternStore) (source : Source) (layer : Layer) :
    Except ExtractError (List Dependency) := do
  let set ← source.patterns store layer
  match layer with
  | .module => return modules source set
  | .struct => return structures source set
  | .method => return methods source set

/-- The dependencies of several layers, in order; the first failure ends the extraction. -/
def layers (store : PatternStore) (source : Source) :
    List Layer → Except ExtractError (List Dependency)
  | [] => .ok []
  | first :: rest => do
    let found ← layer store source first
    let more ← layers store source rest
    return found ++ more

end Extract

/-- The dependencies in a file's content, in a known language, for the given layers. -/
def extractAs (store : PatternStore) (language : Language) (path : Path) (content : String)
    (mask : LayerMask) : Except ExtractError (List Dependency) :=
  Extract.layers store (.ofContent language path content) mask.toList

/-- The dependencies in a file's content, in the language that its path tells. -/
def extract (store : PatternStore) (path : Path) (content : String) (mask : LayerMask) :
    Except ExtractError (List Dependency) :=
  match Language.ofPath? path with
  | some language => extractAs store language path content mask
  | none => .error (.unsupportedLanguage path)

end DepAtlas

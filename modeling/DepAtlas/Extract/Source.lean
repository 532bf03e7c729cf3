import DepAtlas.Dependency
import DepAtlas.Pattern.Search
import DepAtlas.PatternStore
import DepAtlas.Text.LineIndex

/-!
A source file under extraction: its text, its line index and the grammar of its language.
-/

namespace DepAtlas

/-- A source file whose dependencies are extracted. -/
structure Source where
  path : Path
  grammar : Grammar
  text : Text
  lines : Text.LineIndex

namespace Source

def ofContent (language : Language) (path : Path) (content : String) : Source where
  path := path
  grammar := language.grammar
  text := content.toList
  lines := Text.LineIndex.ofText content.toList

def language (source : Source) : Language :=
  source.grammar.language

/-- The patterns of a layer, or an error that names what is missing. -/
def patterns (source : Source) (store : PatternStore) (layer : Layer) :
    Except ExtractError PatternSet :=
  match store.find? source.language layer with
  | some set => .ok set
  | none => .error (.patternsUnavailable source.language.name layer.name)

/-- The dependency on `target` found at a byte offset. -/
def dependency (source : Source) (target : String) (layer : Layer) (offset : Nat)
    (detail : Option Detail) : Dependency where
  source := source.path
  target := target
  layer := layer
  language := source.language
  line := source.lines.lineOf offset
  detail := detail

end Source

end DepAtlas

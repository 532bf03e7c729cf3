import DepAtlas.Language
import DepAtlas.Layer

/-!
Dependencies: what a source file imports, declares and defines.
-/

namespace DepAtlas

/-- What is known of a declaration or a definition beyond its name. -/
inductive Detail
  /-- The declaring word and the parent type of a declaration. -/
  | struct (declaration : String) (base : Option String)
  /-- The return type of a definition and the names its body calls, in order and without
  repetition. -/
  | method (returnType : Option String) (calls : List String)
deriving Repr, DecidableEq

/-- One dependency found in a source file. -/
structure Dependency where
  /-- The file it was found in. -/
  source : Path
  /-- The imported module, declared type or defined method. -/
  target : String
  layer : Layer
  language : Language
  /-- The line of the match, counted from 1. -/
  line : Nat
  detail : Option Detail := none
deriving Repr, BEq, Inhabited

namespace Dependency

/-- The names called by a method; none for other dependencies. -/
def calls (dependency : Dependency) : List String :=
  match dependency.detail with
  | some (.method _ calls) => calls
  | _ => []

def returnType? (dependency : Dependency) : Option String :=
  match dependency.detail with
  | some (.method returnType _) => returnType
  | _ => none

def base? (dependency : Dependency) : Option String :=
  match dependency.detail with
  | some (.struct _ base) => base
  | _ => none

end Dependency

end DepAtlas

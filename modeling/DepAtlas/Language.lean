import DepAtlas.Path

/-!
The source languages that can be analysed, and how a file's language is told from its extension.
-/

namespace DepAtlas

/-- A source language. The order of the constructors is the registry order. -/
inductive Language
  | rust
  | c
  | javaScript
  | go
  | python
  | java
  | php
  | ruby
  | svelte
deriving Repr, DecidableEq, Inhabited

namespace Language

/-- Every language, in registry order. -/
def all : List Language :=
  [.rust, .c, .javaScript, .go, .python, .java, .php, .ruby, .svelte]

/-- The name shown in reports. -/
def name : Language → String
  | rust => "Rust"
  | c => "C"
  | javaScript => "JavaScript"
  | go => "Go"
  | python => "Python"
  | java => "Java"
  | php => "PHP"
  | ruby => "Ruby"
  | svelte => "Svelte"

instance : ToString Language := ⟨name⟩

/-- The name used in data files. -/
def id : Language → String
  | rust => "rust"
  | c => "c"
  | javaScript => "javascript"
  | go => "go"
  | python => "python"
  | java => "java"
  | php => "php"
  | ruby => "ruby"
  | svelte => "svelte"

/-- The language with this name in data files. -/
def ofId? (word : String) : Option Language :=
  all.find? fun language => language.id == word

def extensions : Language → List String
  | rust => ["rs"]
  | c => ["c", "h", "cpp", "cc", "cxx", "hpp", "hh", "hxx"]
  | javaScript => ["js", "jsx", "mjs", "cjs", "ts", "tsx", "mts", "cts"]
  | go => ["go"]
  | python => ["py", "pyi"]
  | java => ["java"]
  | php => ["php"]
  | ruby => ["rb", "rake"]
  | svelte => ["svelte"]

/-- The language that a file extension belongs to. -/
def ofExtension? (extension : String) : Option Language :=
  all.find? fun language => language.extensions.contains extension

/-- The language of a file, by its extension. -/
def ofPath? (path : Path) : Option Language :=
  path.extension?.bind ofExtension?

def index (language : Language) : Nat :=
  all.idxOf language

/-- The language at a position of the registry. -/
def ofIndex? (index : Nat) : Option Language :=
  all[index]?

end Language

end DepAtlas

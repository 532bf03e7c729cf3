import DepAtlas.Grammar.C
import DepAtlas.Grammar.Go
import DepAtlas.Grammar.Java
import DepAtlas.Grammar.Php
import DepAtlas.Grammar.Python
import DepAtlas.Grammar.Ruby
import DepAtlas.Grammar.Rust
import DepAtlas.Grammar.Svelte

/-! The grammar of every language. -/

namespace DepAtlas

def Language.grammar : Language → Grammar
  | rust => Grammar.rust
  | c => Grammar.c
  | javaScript => Grammar.javaScript
  | go => Grammar.go
  | python => Grammar.python
  | java => Grammar.java
  | php => Grammar.php
  | ruby => Grammar.ruby
  | svelte => Grammar.svelte

/-- Every grammar, in registry order. -/
def Grammar.all : List Grammar :=
  Language.all.map Language.grammar

end DepAtlas

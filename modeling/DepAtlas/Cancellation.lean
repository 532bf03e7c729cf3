/-!
A request to stop. All holders of a token share its one flag.
-/

namespace DepAtlas

/-- Whether work is to stop. -/
structure CancellationToken where
  isCancelled : Bool := false
deriving Repr, DecidableEq, Inhabited

namespace CancellationToken

def cancel (_token : CancellationToken) : CancellationToken := { isCancelled := true }

/-- Takes the request back. -/
def reset (_token : CancellationToken) : CancellationToken := {}

end CancellationToken

end DepAtlas

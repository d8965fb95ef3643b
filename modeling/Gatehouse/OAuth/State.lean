import Gatehouse.Text.Base64Url
import Gatehouse.World

/-!
The state of a login: a random text that goes to the provider and comes back,
so that only the browser that began a login can finish it.
-/

namespace Gatehouse.OAuth

/-- The state that random bytes give. -/
def stateOf (seed : Seed) : String :=
  Text.Base64Url.encode seed.toList

/-- Whether the state that came back is the one that was kept. Without one that
was kept none is right. -/
def statesMatch (kept returned : String) : Bool :=
  !kept.isEmpty && kept == returned

end Gatehouse.OAuth

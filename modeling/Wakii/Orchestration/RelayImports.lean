import Mathlib.Order.MinMax
import Wakii.Orchestration.RelaySync

/-!
# What the home does with a pulled item

An item in its place is imported, or was imported before; the home refuses an
item for its place only when the page was out of order.
-/

namespace Wakii.FederationRelay

open Orchestration

variable {P : Type} {home next : Home} {item : RelayWireItem P}

def RelayRefusal.isMisplaced : RelayRefusal → Bool
  | .notContiguous _ | .committedWithoutMessage _ => true
  | _ => false

variable {type : MessageType}

variable {refusal : RelayRefusal}

variable {settled : Option WorkerReportSettlement} {lifecycle : RelayLifecycle}

section Loop

variable {reader : PayloadReader P} {base : SyncBase} {page : PulledRelayPage P}
  {progress : ImportProgress} {settled : Option WorkerReportSettlement}

end Loop

end Wakii.FederationRelay

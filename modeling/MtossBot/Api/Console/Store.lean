import Mathlib.Data.Finset.Insert
import MtossBot.Domain.Approvals
import MtossBot.Library.Dict

/-!
# The state of the console

`ConsoleStore`: what the actions of the operator change. The process starts with an empty one.
-/

namespace MtossBot
namespace Console

structure ConsoleStore where
  approval_decisions : Dict String ApprovalStatus := .empty
  approval_reasons : Dict String String := .empty
  approval_rechecked : Finset String := ∅
  stopped_accounts : Finset String := ∅
  resumed_nodes : Finset String := ∅
  paused_sources : Finset String := ∅
  paused_strategies : Finset String := ∅
  rechecked_orders : Finset String := ∅
  risk_limits : Dict String String := .empty
  emergency_stop : Bool := false
  emergency_stopped_at : Option String := none
  cancel_progress_done : Nat := 0
  liquidation_running : Bool := false
  toss_test_attempts : Nat := 0

/-- `reset`: every field is cleared. -/
def ConsoleStore.reset (_ : ConsoleStore) : ConsoleStore := {}

end Console
end MtossBot

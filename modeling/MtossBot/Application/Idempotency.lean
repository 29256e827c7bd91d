import MtossBot.Domain.Enums
import MtossBot.Library.Sha256
import MtossBot.Library.Uuid

/-!
# The idempotency key

`build_intent_key`. Python's `str.upper` is an argument, since the case tables of Unicode are not at hand: what is proved holds
for every function in its place.
-/

namespace MtossBot

/-- `hashlib.sha256(text.encode("utf-8")).hexdigest()`. -/
def sha256_hexdigest (text : String) : String :=
  String.ofList (Sha256.hexdigest (text.toUTF8.data.toList.map UInt8.toNat))

/-- The text that is hashed. -/
def canonical (upper : String → String) (account_id signal_id : UUID) (target_version : Int) (symbol : String)
    (side : OrderSide) : String :=
  "|".intercalate [account_id.str, signal_id.str, toString target_version, upper symbol, side.value]

def build_intent_key (upper : String → String) (account_id signal_id : UUID) (target_version : Int) (symbol : String)
    (side : OrderSide) : String :=
  sha256_hexdigest (canonical upper account_id signal_id target_version symbol side)

end MtossBot

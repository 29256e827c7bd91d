import MtossBot.Domain.Orders
import MtossBot.Library.Dict

/-!
# Links between keys and MT5 orders

`mt5_links.py`: the row written before an order is sent, and the store of such rows in memory. What the clock says is an argument.
-/

namespace MtossBot

/-- The widest magic that survives a signed round trip. -/
def MAGIC_MASK : Int := 0x7FFFFFFFFFFFFFFF

def COMMENT_LENGTH : Nat := 16

/-- The first sixteen digits of a key, cut to 63 bits. -/
def magic_for (idempotency_key : String) : Except Exc Int :=
  let digits := idempotency_key.toList.take 16
  if digits.length < 16 ∨ digits.any (fun character => character ∉ lowerHex) then
    .error (.valueError "idempotency_key must be a lowercase SHA-256 hex digest")
  else .ok (((ofHex 0 digits).getD 0 &&& MAGIC_MASK.toNat : Nat) : Int)

def comment_for (idempotency_key : String) : String := String.ofList (idempotency_key.toList.take COMMENT_LENGTH)

/-- The keyword arguments of `Mt5OrderLink`. -/
structure Mt5OrderLinkFields where
  idempotency_key : String
  intent_id : UUID
  account_id : UUID
  mt5_login : Int
  magic : Int
  broker_symbol : String
  side : OrderSide
  requested_lots : Decimal
  submit_started_at : Datetime
  order_ticket : Option Int := none
  deal_ticket : Option Int := none
  position_id : Option Int := none
  retcode : Option Int := none
  resolved_at : Option Datetime := none
deriving DecidableEq

namespace Mt5OrderLinkFields

def require_63_bit_magic (value : Int) : Except String Int :=
  if 0 ≤ value ∧ value ≤ MAGIC_MASK then .ok value
  else .error "magic must fit in 63 bits so it survives a signed round trip"

def require_timezone (value : Datetime) : Except String Datetime :=
  value.require_timezone "link timestamps must be timezone-aware"

/-- All errors; there is no model validator. -/
def errors (f : Mt5OrderLinkFields) : List (String × String) :=
  fieldErrors "idempotency_key" (ExecutionIntentFields.require_sha256_key f.idempotency_key) ++
  fieldErrors "magic" (require_63_bit_magic f.magic) ++
  fieldErrors "submit_started_at" (require_timezone f.submit_started_at) ++
  fieldErrors "resolved_at" (optionalField require_timezone f.resolved_at)

/-- The fields after a result, known at an instant. -/
def resolve (f : Mt5OrderLinkFields) (now : Int) (order_ticket deal_ticket position_id retcode : Option Int) :
    Mt5OrderLinkFields :=
  { f with
    order_ticket := order_ticket
    deal_ticket := deal_ticket
    position_id := position_id
    retcode := retcode
    resolved_at := some (.aware now 0) }

/-- A result does not make a row invalid. -/
theorem errors_resolve {f : Mt5OrderLinkFields} (h : f.errors = []) (now : Int)
    (order_ticket deal_ticket position_id retcode : Option Int) :
    (f.resolve now order_ticket deal_ticket position_id retcode).errors = [] := by
  simp only [errors, List.append_eq_nil_iff] at h ⊢
  obtain ⟨⟨⟨hkey, hmagic⟩, hstarted⟩, _⟩ := h
  exact ⟨⟨⟨hkey, hmagic⟩, hstarted⟩, rfl⟩

end Mt5OrderLinkFields

/-- A row the model accepts. -/
structure Mt5OrderLink extends Mt5OrderLinkFields where
  accepted : toMt5OrderLinkFields.errors = []
deriving DecidableEq

namespace Mt5OrderLink

def is_resolved (row : Mt5OrderLink) : Bool := row.order_ticket.isSome || row.deal_ticket.isSome

/-- The key the store keeps a row under. -/
def key (row : Mt5OrderLink) : UUID × String := (row.account_id, row.idempotency_key)

/-- The `model_copy` of a row with its result. -/
def updated (row : Mt5OrderLink) (now : Int) (order_ticket deal_ticket position_id retcode : Option Int) : Mt5OrderLink :=
  ⟨row.resolve now order_ticket deal_ticket position_id retcode, Mt5OrderLinkFields.errors_resolve row.accepted _ _ _ _ _⟩

end Mt5OrderLink

structure InMemoryLinkStore where
  rows : Dict (UUID × String) Mt5OrderLink := .empty

namespace InMemoryLinkStore

def reserve (store : InMemoryLinkStore) (link : Mt5OrderLink) : Except Exc Mt5OrderLink × InMemoryLinkStore :=
  match store.rows.get? link.key with
  | some existing => (.ok existing, store)
  | none =>
    let clash := store.rows.values.filter fun row => row.mt5_login = link.mt5_login ∧ row.magic = link.magic
    if clash ≠ [] then
      (.error (.valueError ("magic " ++ toString link.magic ++ " already reserved on login " ++ toString link.mt5_login)), store)
    else (.ok link, { store with rows := store.rows.set link.key link })

def get (store : InMemoryLinkStore) (account_id : UUID) (idempotency_key : String) : Option Mt5OrderLink :=
  store.rows.get? (account_id, idempotency_key)

/-- The first row with the key is the one that is changed. -/
def record_result (now : Int) (store : InMemoryLinkStore) (idempotency_key : String)
    (order_ticket deal_ticket position_id retcode : Option Int) : Except Exc Mt5OrderLink × InMemoryLinkStore :=
  match store.rows.entries.find? fun entry => entry.2.idempotency_key = idempotency_key with
  | some (key, row) =>
    let updated := row.updated now order_ticket deal_ticket position_id retcode
    (.ok updated, { store with rows := store.rows.set key updated })
  | none => (.error (.lookupError idempotency_key), store)

end InMemoryLinkStore
end MtossBot

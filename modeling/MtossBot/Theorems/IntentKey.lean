import Mathlib
import MtossBot.Application.IntentService
import MtossBot.Library.Delimited

/-!
# One key per order

The idempotency key of a command is a digest of five of its fields. Up to collisions of the digest it tells commands apart exactly
by these five, whatever the symbol contains; the tranche and the closing flag are not among them.
-/

namespace MtossBot

namespace CreateIntentCommand

/-- The text the key of a command is the digest of. -/
def canonical (upper : String → String) (c : CreateIntentCommand) : String :=
  MtossBot.canonical upper c.account_id c.signal_id c.target_version c.symbol c.side

/-- The commands agree on what the key is made of. -/
structure SameKeyFields (upper : String → String) (a b : CreateIntentCommand) : Prop where
  account_id : a.account_id = b.account_id
  signal_id : a.signal_id = b.signal_id
  target_version : a.target_version = b.target_version
  symbol : upper a.symbol = upper b.symbol
  side : a.side = b.side

/-- The commands are for one order. -/
structure SameOrder (upper : String → String) (a b : CreateIntentCommand) : Prop extends SameKeyFields upper a b where
  tranche_ref : a.tranche_ref = b.tranche_ref
  reduce_only : a.reduce_only = b.reduce_only

end CreateIntentCommand

open CreateIntentCommand

namespace IntentKeyAux

theorem bar_notMem_str (u : UUID) : '|' ∉ u.str.toList := by
  intro h
  rcases UUID.mem_str _ h with h | h
  · exact absurd h (by decide)
  · cases h

theorem bar_notMem_int (n : Int) : '|' ∉ (toString n).toList := by
  intro h
  have hdigit : ∀ m : Nat, '|' ∉ Nat.toDigits 10 m := by
    intro m hm
    have hd := Nat.isDigit_of_mem_toDigits (by decide) (by decide) hm
    exact absurd hd (by decide)
  cases n with
  | ofNat m =>
    simp only [toString, Int.repr, Nat.toList_repr] at h
    exact hdigit m h
  | negSucc m =>
    simp only [toString, Int.repr, String.toList_append, Nat.toList_repr, List.mem_append] at h
    rcases h with h | h
    · exact absurd h (by decide)
    · exact hdigit _ h

theorem bar_notMem_side (side : OrderSide) : '|' ∉ side.value.toList := by
  cases side <;> decide

theorem side_value_injective {s t : OrderSide} (h : s.value = t.value) : s = t := by
  cases s <;> cases t <;> first | rfl | exact absurd h (by decide)

/-- The canonical text determines the five fields: only the symbol may contain a separator, and it is the only such field. -/
theorem canonical_inj {upper : String → String} {a b : CreateIntentCommand} (h : a.canonical upper = b.canonical upper) :
    SameKeyFields upper a b := by
  have hfront : ∀ c : CreateIntentCommand, ∀ f ∈ [c.account_id.str.toList, c.signal_id.str.toList,
      (toString c.target_version).toList], '|' ∉ f := by
    intro c f hf
    simp only [List.mem_cons, List.not_mem_nil, or_false] at hf
    rcases hf with hf | hf | hf <;> rw [hf]
    · exact bar_notMem_str c.account_id
    · exact bar_notMem_str c.signal_id
    · exact bar_notMem_int c.target_version
  have hback : ∀ c : CreateIntentCommand, ∀ f ∈ [c.side.value.toList], '|' ∉ f := by
    intro c f hf
    rw [List.mem_singleton.mp hf]
    exact bar_notMem_side c.side
  have hlist : ∀ c : CreateIntentCommand, (c.canonical upper).toList =
      List.intercalate ['|'] ([c.account_id.str.toList, c.signal_id.str.toList, (toString c.target_version).toList] ++
        (upper c.symbol).toList :: [c.side.value.toList]) := by
    intro c
    rw [CreateIntentCommand.canonical, MtossBot.canonical, String.toList_intercalate, show "|".toList = ['|'] from rfl]
    simp only [List.map_cons, List.map_nil, List.cons_append, List.nil_append]
  have hjoin := congrArg String.toList h
  rw [hlist a, hlist b] at hjoin
  obtain ⟨hpre, hmid, hpost⟩ := Delimited.fields_inj (hfront a) (hfront b) (hback a) (hback b) (by simp) (by simp)
    hjoin
  simp only [List.cons.injEq, String.toList_inj, and_true] at hpre hmid hpost
  exact ⟨UUID.str_injective hpre.1, UUID.str_injective hpre.2.1, Int.repr_injective hpre.2.2, hmid,
    side_value_injective hpost⟩

/-- Commands that agree on the five fields have one key. -/
theorem idempotency_key_eq {upper : String → String} {a b : CreateIntentCommand} (h : SameKeyFields upper a b) :
    a.idempotency_key upper = b.idempotency_key upper := by
  simp only [idempotency_key, build_intent_key, MtossBot.canonical, h.account_id, h.signal_id, h.target_version, h.symbol, h.side]

end IntentKeyAux

open IntentKeyAux

/-- For two commands whose texts the digest tells apart: their keys are equal just when they are for one order, unless the commands
agree on the five fields of the key and differ in the tranche or in the closing flag. -/
theorem one_key_per_order_iff (upper : String → String) (a b : CreateIntentCommand)
    (hsha : sha256_hexdigest (a.canonical upper) = sha256_hexdigest (b.canonical upper) →
      a.canonical upper = b.canonical upper) :
    (a.idempotency_key upper = b.idempotency_key upper ↔ SameOrder upper a b) ↔
      ¬(SameKeyFields upper a b ∧ (a.tranche_ref ≠ b.tranche_ref ∨ a.reduce_only ≠ b.reduce_only)) := by
  have hkey : a.idempotency_key upper = b.idempotency_key upper ↔ SameKeyFields upper a b :=
    ⟨fun h => canonical_inj (hsha h), idempotency_key_eq⟩
  rw [hkey]
  constructor
  · rintro h ⟨hsame, hdiff⟩
    have horder := h.mp hsame
    rcases hdiff with hdiff | hdiff
    · exact hdiff horder.tranche_ref
    · exact hdiff horder.reduce_only
  · intro h
    refine ⟨fun hsame => ⟨hsame, ?_, ?_⟩, fun horder => horder.toSameKeyFields⟩
    · by_contra hdiff
      exact h ⟨hsame, .inl hdiff⟩
    · by_contra hdiff
      exact h ⟨hsame, .inr hdiff⟩

/-- The command of one entry of a signal. -/
def entryCommand (tranche : String) : CreateIntentCommand where
  account_id := ⟨1⟩
  signal_id := ⟨2⟩
  target_version := 1
  market := "MT5"
  symbol := "XAUUSD"
  side := .BUY
  order_type := .MARKET
  quantity := .ofInt 1
  reference_price := some (.ofInt 4000)
  tranche_ref := some tranche
  currency := "USD"
  expires_at := .aware 1000 0
  account_capital := 100000
  resulting_symbol_weight := 0
  daily_loss := 0
  drawdown := 0
  risk_rules := []
  approval_config := ⟨.AUTO, none, by decide⟩
  normalize_expiration := ⟨1000, rfl⟩
  require_a_pricing_anchor := by decide

/-- An entry and the same entry on the other side have different keys. -/
theorem one_key_per_order_sides :
    (entryCommand "T1").idempotency_key id ≠ { entryCommand "T1" with side := .SELL }.idempotency_key id := by
  intro h
  have hkeys := (one_key_per_order_iff id (entryCommand "T1") { entryCommand "T1" with side := .SELL }
    fun hsha => absurd hsha (by decide +kernel)).mpr fun hsame => absurd hsame.1.side (by decide)
  exact absurd (hkeys.mp h).side (by decide)

/-- Both entries of a signal have one key. -/
theorem entries_share_key :
    (entryCommand "T1").idempotency_key id = (entryCommand "T2").idempotency_key id ∧
      ¬SameOrder id (entryCommand "T1") (entryCommand "T2") :=
  ⟨rfl, fun h => absurd h.tranche_ref (by decide)⟩

end MtossBot

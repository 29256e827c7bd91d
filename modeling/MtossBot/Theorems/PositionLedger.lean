import Std.Data.String.ToNat
import MtossBot.Lemmas.Decimals
import MtossBot.Lemmas.Rows

/-!
# What the fake broker holds

The positions of `FakeBroker` over any sequence of its calls. A close updates the position before it makes the report that refuses a
quantity, so the positions are kept as they should be when every close asks for more than is held, or for a positive quantity that
fits.
-/

namespace MtossBot

/-- A call that may change the broker, with the time of the clock and the arguments. -/
inductive BrokerCall where
  | submit (now : Int) (intent : ExecutionIntent)
  | modify_position_sltp (account_id : UUID) (position_ref : String) (stop_loss take_profit : Option DecimalValue)
  | close_position (account_id : UUID) (position_ref : String) (quantity : Option DecimalValue)

namespace BrokerCall

/-- The broker after a call, whether it returns or raises. -/
def after (broker : FakeBroker) : BrokerCall → FakeBroker
  | submit now intent => (FakeBroker.submit (.aware now 0) broker intent).2
  | modify_position_sltp account_id position_ref stop_loss take_profit =>
    (broker.modify_position_sltp account_id position_ref stop_loss take_profit).2
  | close_position account_id position_ref quantity => (broker.close_position account_id position_ref quantity).2

/-- The key of the order that a call submits. -/
def order : BrokerCall → Option (UUID × String)
  | submit _ intent => some (intent.account_id, intent.idempotency_key)
  | _ => none

/-- The keys of the positions that a call opens, each with the key of the order it submits. -/
def opens (broker : FakeBroker) (call : BrokerCall) : List (Option (UUID × String) × (UUID × String)) :=
  ((call.after broker).positions.keys.filter (· ∉ broker.positions.keys)).map fun key => (call.order, key)

/-- A close asks for all that is held, for more than that, for a positive quantity that fits, or for what does not compare. -/
def Closes (broker : FakeBroker) : BrokerCall → Prop
  | close_position account_id position_ref (some quantity) => ∀ position,
    broker.positions.get? (account_id, position_ref) = some position → quantity.gt position.quantity = .ok false →
      ∃ d, quantity = .finite d ∧ 0 < d.toRat ∧ d.Fits
  | _ => True

end BrokerCall

/-- The brokers that calls of a kind lead to from `FakeBroker()`, with the positions opened so far. -/
inductive BrokerRun (kind : FakeBroker → BrokerCall → Prop) :
    FakeBroker → List (Option (UUID × String) × (UUID × String)) → Prop where
  | init : BrokerRun kind {} []
  | step {broker : FakeBroker} {opened : List (Option (UUID × String) × (UUID × String))} {call : BrokerCall} :
      BrokerRun kind broker opened → kind broker call → BrokerRun kind (call.after broker) (opened ++ call.opens broker)

/-- What holds of the broker's books. -/
structure FakeBroker.Lawful (broker : FakeBroker) (opened : List (Option (UUID × String) × (UUID × String))) : Prop where
  positive : ∀ p ∈ broker.positions.values, ∃ d, p.quantity = .finite d ∧ 0 < d.toRat
  position_refs : (broker.positions.values.map (·.position_ref)).Nodup ∧ (opened.map fun o => o.2.2).Nodup
  broker_order_ids : (broker.results.values.map (·.broker_order_id)).Nodup
  /-- Every position is opened for an order, and no two for the same one. -/
  orders : none ∉ opened.map Prod.fst ∧ (opened.map Prod.fst).Nodup
  held : ∀ key ∈ broker.positions.keys, key ∈ opened.map Prod.snd

/-- What is left of a position that a quantity is taken from: nothing, or the position with the rest. -/
def HeldPosition.Reduced (position : HeldPosition) (filled : ℚ) : Option HeldPosition → Prop
  | none => position.quantity.toRat? = some filled
  | some rest => ∃ q, 0 < q ∧ rest = { position with quantity := rest.quantity } ∧ rest.quantity.toRat? = some q ∧
    position.quantity.toRat? = some (q + filled)

/-- A close raises and leaves the positions as they are, or reports what it takes from the one position. -/
def FakeBroker.Conserves (broker : FakeBroker) (account_id : UUID) (position_ref : String) (quantity : Option DecimalValue) : Prop :=
  match broker.close_position account_id position_ref quantity with
  | (.error _, after) => after.positions = broker.positions
  | (.ok result, after) =>
    result.state = .FILLED ∧ 0 < result.filled_quantity.toRat ∧
      (∃ position, broker.positions.get? (account_id, position_ref) = some position ∧
        position.Reduced result.filled_quantity.toRat (after.positions.get? (account_id, position_ref))) ∧
      ∀ key ≠ (account_id, position_ref), after.positions.get? key = broker.positions.get? key

namespace PositionLedgerAux

open FakeBroker

/-- The position reference of a sequence number. -/
def ref (sequence : Nat) : String := "fake-position-" ++ toString sequence

/-- The names of positions differ where their numbers do. -/
theorem ref_injective {m n : Nat} (h : ref m = ref n) : m = n :=
  Nat.repr_injective ((String.append_right_inj _).mp h)

/-- The order ids handed out so far. -/
def orderIds (count : Nat) : List (Option String) := (List.range count).map fun n => some ("fake-" ++ toString (n + 1))

/-- The names given so far are distinct. -/
theorem nodup_orderIds (count : Nat) : (orderIds count).Nodup := by
  refine List.Nodup.map ?_ List.nodup_range
  intro m n h
  have hrepr : Nat.repr (m + 1) = Nat.repr (n + 1) := (String.append_right_inj _).mp (Option.some.inj h)
  exact Nat.succ_injective (Nat.repr_injective hrepr)

/-- A price or quantity the order models accept as positive. -/
def Positive (d : Decimal) : Prop := d.Fits ∧ 0 < d.toRat

/-- What the check accepts is positive. -/
theorem positive_of_check {d d' : Decimal} (h : BrokerPositionFields.check_positive d = .ok d') : Positive d := by
  obtain ⟨hfits, hpos⟩ := check_positive_ok h
  exact ⟨(Decimal.validate_ok_iff d _).mp hfits, require_positive_pos hpos⟩

/-- A position of the model has a positive quantity and a positive price. -/
theorem positive_position (p : BrokerPosition) : Positive p.quantity ∧ Positive p.entry_price := by
  have h := p.accepted
  simp only [BrokerPositionFields.errors, List.append_eq_nil_iff] at h
  obtain ⟨⟨⟨⟨hquantity, hentry⟩, _⟩, _⟩, _⟩ := h
  obtain ⟨_, hq⟩ := fieldErrors_eq_nil hquantity
  obtain ⟨_, he⟩ := fieldErrors_eq_nil hentry
  exact ⟨positive_of_check hq, positive_of_check he⟩

/-- A held position: a positive quantity and price, and a reference with a number that has been handed out. -/
def Held (count : Nat) (key : UUID × String) (p : HeldPosition) : Prop :=
  p.position_ref = key.2 ∧ (∃ n, key.2 = ref n ∧ n ≤ count) ∧ (∃ d, p.quantity = .finite d ∧ Positive d) ∧
    Positive p.entry_price

/-- The invariant of the broker. -/
structure Books (broker : FakeBroker) (opened : List (Option (UUID × String) × (UUID × String))) : Prop where
  ids : broker.results.values.map (·.broker_order_id) = orderIds broker.results.keys.length
  positions : ∀ key p, broker.positions.get? key = some p → Held broker.results.keys.length key p
  /-- The positions opened have different orders, all of them there, and different references, all of them handed out. -/
  orders : (opened.map Prod.fst).Nodup ∧ ∀ o ∈ opened, ∃ key ∈ broker.results.keys, o.1 = some key
  refs : (opened.map fun o => o.2.2).Nodup ∧ ∀ o ∈ opened, ∃ n, o.2.2 = ref n ∧ n ≤ broker.results.keys.length
  held : ∀ key ∈ broker.positions.keys, key ∈ opened.map Prod.snd

/-- Before the first call the books are empty. -/
theorem Books.init : Books {} [] where
  ids := rfl
  positions key p h := by cases h
  orders := by simp
  refs := by simp
  held key h := by cases h

/-! ### What a call does -/

/-- An order that is new is recorded, and may open a position under the next number. -/
theorem submit_cases (now : Int) (broker : FakeBroker) (intent : ExecutionIntent) :
    (submit (.aware now 0) broker intent).2 = broker ∨
      (intent.account_id, intent.idempotency_key) ∉ broker.results.keys ∧
        (submit (.aware now 0) broker intent).2.results = broker.results.set (intent.account_id, intent.idempotency_key)
          (submitted (broker.results.keys.length + 1) intent) ∧
        ((submit (.aware now 0) broker intent).2.positions = broker.positions ∨
          ∃ p : BrokerPosition, p.position_ref = ref (broker.results.keys.length + 1) ∧
            (submit (.aware now 0) broker intent).2.positions =
              broker.positions.set (intent.account_id, p.position_ref) (.ofModel p)) := by
  cases hexisting : broker.results.get? (intent.account_id, intent.idempotency_key) with
  | some existing =>
    left
    simp only [submit, hexisting]
  | none =>
    refine .inr ⟨Dict.get?_eq_none_iff.mp hexisting, ?_⟩
    simp only [submit, hexisting]
    split
    · split
      · rename_i p hp
        refine ⟨rfl, .inr ⟨p, ?_, rfl⟩⟩
        unfold BrokerPosition.create at hp
        split at hp
        · obtain rfl := Except.ok.inj hp
          rfl
        · cases hp
      · exact ⟨rfl, .inl rfl⟩
    · exact ⟨rfl, .inl rfl⟩

/-- A change of the brackets keeps the keys, the quantities and the prices. -/
theorem modify_cases (broker : FakeBroker) (account_id : UUID) (position_ref : String)
    (stop_loss take_profit : Option DecimalValue) :
    (broker.modify_position_sltp account_id position_ref stop_loss take_profit).2 = broker ∨
      ∃ p, broker.positions.get? (account_id, position_ref) = some p ∧
        (broker.modify_position_sltp account_id position_ref stop_loss take_profit).2 =
          { broker with
            positions := broker.positions.set (account_id, position_ref)
              { p with stop_loss := stop_loss, take_profit := take_profit } } := by
  unfold modify_position_sltp
  split
  · exact .inl rfl
  · rename_i p hp
    exact .inr ⟨p, hp, rfl⟩

/-- A report of a positive quantity that fits is accepted. -/
theorem closeResult_ok (position_ref : String) {entry_price d : Decimal} (hentry : Positive entry_price) (hd : Positive d) :
    ∃ result, closeResult position_ref entry_price (.finite d) = .ok result ∧ result.state = .FILLED ∧
      result.filled_quantity = d := by
  have hfilled : BrokerOrderResultFields.check_filled_quantity d = .ok d := by
    rw [BrokerOrderResultFields.check_filled_quantity, (Decimal.validate_ok_iff d _).mpr hd.1]
    exact if_neg (not_lt.mpr hd.2.le)
  have haverage : BrokerOrderResultFields.check_average_price entry_price = .ok entry_price := by
    rw [BrokerOrderResultFields.check_average_price, (Decimal.validate_ok_iff entry_price _).mpr hentry.1]
    exact if_neg (not_le.mpr hentry.2)
  have herrors : BrokerOrderResultFields.errors
      { client_order_id := position_ref
        broker_order_id := some ("fake-close-" ++ position_ref)
        state := .FILLED
        filled_quantity := d
        average_price := some entry_price
        broker_request_id := none } = [] := by
    simp only [BrokerOrderResultFields.errors, optionalField, hfilled, haverage]
    rfl
  refine ⟨⟨_, herrors⟩, ?_, rfl, rfl⟩
  rw [closeResult, BrokerOrderResult.create, dif_pos herrors]

/-- Taking a positive quantity that fits from a position: more than it has is refused, all of it leaves nothing, and else the rest
is exact. -/
theorem closed_cases {p : HeldPosition} {held d : Decimal} (hp : p.quantity = .finite held) (hheld : Positive held)
    (hd : Positive d) :
    (∃ e, HeldPosition.closed p (.finite d) = .error e) ∨
      (HeldPosition.closed p (.finite d) = .ok none ∧ held.toRat = d.toRat) ∨
        ∃ rest, HeldPosition.closed p (.finite d) = .ok (some { p with quantity := .finite rest }) ∧ Positive rest ∧
          rest.toRat = held.toRat - d.toRat := by
  obtain ⟨hvalue, hfits, _⟩ := Decimal.sub_of_fits hheld.1 hd.1 hheld.2.le hd.2.le
  have hzero : (0 : Decimal).toRat = 0 := by decide
  unfold HeldPosition.closed
  rw [hp]
  by_cases hmore : held < d
  · refine .inl ⟨.valueError "cannot close more than the open quantity", ?_⟩
    simp [DecimalValue.gt, hmore, bind, Except.bind]
  · have hle : d.toRat ≤ held.toRat := not_lt.mp hmore
    by_cases hrest : (0 : Decimal) < held - d
    · have hpos : 0 < (held - d).toRat := hzero ▸ hrest
      refine .inr (.inr ⟨held - d, ?_, ⟨hfits, hpos⟩, hvalue⟩)
      simp [DecimalValue.gt, DecimalValue.sub, hmore, hrest, bind, Except.bind, pure, Except.pure]
    · have hnot : (held - d).toRat ≤ 0 := hzero ▸ not_lt.mp hrest
      refine .inr (.inl ⟨?_, by linarith⟩)
      simp [DecimalValue.gt, DecimalValue.sub, hmore, hrest, bind, Except.bind, pure, Except.pure]

/-- What does not compare as no more than is held is refused. -/
theorem closed_error {p : HeldPosition} {closing : DecimalValue} (h : closing.gt p.quantity ≠ .ok false) :
    ∃ e, HeldPosition.closed p closing = .error e := by
  unfold HeldPosition.closed
  cases hgt : closing.gt p.quantity with
  | error e => exact ⟨e, rfl⟩
  | ok more =>
    cases more with
    | true => exact ⟨_, rfl⟩
    | false => exact absurd hgt h

/-- A close raises and changes nothing, or takes a positive quantity from its position and reports it. -/
theorem close_cases {broker : FakeBroker} {opened : List (Option (UUID × String) × (UUID × String))} (h : Books broker opened)
    {account_id : UUID} {position_ref : String} {quantity : Option DecimalValue}
    (hq : (BrokerCall.close_position account_id position_ref quantity).Closes broker) :
    (∃ e, broker.close_position account_id position_ref quantity = (.error e, broker)) ∨
      ∃ p held result positions, broker.positions.get? (account_id, position_ref) = some p ∧ p.quantity = .finite held ∧
        broker.close_position account_id position_ref quantity = (.ok result, { broker with positions := positions }) ∧
        result.state = .FILLED ∧ Positive result.filled_quantity ∧
        ((positions = broker.positions.erase (account_id, position_ref) ∧ held.toRat = result.filled_quantity.toRat) ∨
          ∃ rest, positions = broker.positions.set (account_id, position_ref) { p with quantity := .finite rest } ∧
            Positive rest ∧ rest.toRat = held.toRat - result.filled_quantity.toRat) := by
  cases hp : broker.positions.get? (account_id, position_ref) with
  | none =>
    left
    exact ⟨unknownPosition position_ref, by simp only [close_position, hp]⟩
  | some p =>
    obtain ⟨_, _, ⟨held, hheld, hpos⟩, hentry⟩ := h.positions _ _ hp
    by_cases hgt : (quantity.getD p.quantity).gt p.quantity = .ok false
    · -- what is closed is all of it, or a quantity the close may ask for
      have hclosing : ∃ d, quantity.getD p.quantity = .finite d ∧ Positive d := by
        cases quantity with
        | none => exact ⟨held, hheld, hpos⟩
        | some q =>
          obtain ⟨d, hd, hdpos, hdfits⟩ := hq p hp hgt
          exact ⟨d, hd, hdfits, hdpos⟩
      obtain ⟨d, hd, hdpos⟩ := hclosing
      obtain ⟨result, hresult, hstate, hfilled⟩ := closeResult_ok position_ref hentry hdpos
      rcases closed_cases hheld hpos hdpos with ⟨e, he⟩ | ⟨hnone, heq⟩ | ⟨rest, hrest, hrpos, hreq⟩
      · left
        exact ⟨e, by simp only [close_position, hp, hd, he]⟩
      · right
        refine ⟨p, held, result, broker.positions.erase (account_id, position_ref), rfl, hheld, ?_, hstate, hfilled ▸ hdpos,
          .inl ⟨rfl, hfilled ▸ heq⟩⟩
        simp only [close_position, hp, hd, hnone, hresult]
      · right
        refine ⟨p, held, result, broker.positions.set (account_id, position_ref) { p with quantity := .finite rest }, rfl, hheld,
          ?_, hstate, hfilled ▸ hdpos, .inr ⟨rest, rfl, hrpos, hfilled ▸ hreq⟩⟩
        simp only [close_position, hp, hd, hrest, hresult]
    · left
      obtain ⟨e, he⟩ := closed_error hgt
      exact ⟨e, by simp only [close_position, hp, he]⟩

/-! ### The invariant -/

variable {broker broker' : FakeBroker} {opened : List (Option (UUID × String) × (UUID × String))}

/-- A held position stays one when others are opened. -/
theorem Held.mono {m n : Nat} (hmn : m ≤ n) {key : UUID × String} {p : HeldPosition} (h : Held m key p) : Held n key p := by
  obtain ⟨href, ⟨k, hk, hkm⟩, hrest⟩ := h
  exact ⟨href, ⟨k, hk, hkm.trans hmn⟩, hrest⟩

/-- A call that changes held positions only keeps the invariant. -/
theorem Books.update (h : Books broker opened) (hresults : broker'.results = broker.results)
    (hkeys : ∀ key ∈ broker'.positions.keys, key ∈ broker.positions.keys)
    (hheld : ∀ key p, broker'.positions.get? key = some p → Held broker.results.keys.length key p) : Books broker' opened where
  ids := hresults ▸ h.ids
  positions := hresults ▸ hheld
  orders := hresults ▸ h.orders
  refs := hresults ▸ h.refs
  held key hkey := h.held key (hkeys key hkey)

/-- A new order keeps the invariant, whether it opens a position or not. -/
theorem Books.record (h : Books broker opened) {order : UUID × String} (hnew : order ∉ broker.results.keys)
    {intent : ExecutionIntent}
    (hresults : broker'.results = broker.results.set order (submitted (broker.results.keys.length + 1) intent))
    (hpositions : broker'.positions = broker.positions) : Books broker' opened where
  ids := by
    have hentries := Dict.entries_set_of_notMem (submitted (broker.results.keys.length + 1) intent) hnew
    have hids := h.ids
    simp only [Dict.values, Dict.keys, List.map_map, List.length_map] at hids ⊢
    rw [hresults, hentries, List.map_append, hids, List.length_append, orderIds, orderIds, List.length_singleton,
      List.range_succ, List.map_append]
    simp only [submitted, Dict.keys, List.length_map, List.map_cons, List.map_nil, Function.comp_apply]
  positions key p hp := by
    rw [hpositions] at hp
    refine (h.positions key p hp).mono ?_
    rw [hresults, Dict.keys_set, if_neg hnew, List.length_append]
    omega
  orders := by
    refine ⟨h.orders.1, ?_⟩
    intro o ho
    obtain ⟨key, hkey, ho⟩ := h.orders.2 o ho
    exact ⟨key, hresults ▸ Dict.mem_keys_set.mpr (.inr hkey), ho⟩
  refs := by
    refine ⟨h.refs.1, ?_⟩
    intro o ho
    obtain ⟨n, hn, hle⟩ := h.refs.2 o ho
    refine ⟨n, hn, hle.trans ?_⟩
    rw [hresults, Dict.keys_set, if_neg hnew, List.length_append]
    omega
  held := hpositions ▸ h.held

/-- A position opened for a new order keeps the invariant. -/
theorem Books.open (h : Books broker opened) {order : UUID × String} (hnew : order ∉ broker.results.keys)
    {intent : ExecutionIntent}
    (hresults : broker'.results = broker.results.set order (submitted (broker.results.keys.length + 1) intent))
    {account_id : UUID} {p : BrokerPosition} (href : p.position_ref = ref (broker.results.keys.length + 1))
    (hpositions : broker'.positions = broker.positions.set (account_id, p.position_ref) (.ofModel p)) :
    Books broker' (opened ++ [(some order, (account_id, p.position_ref))]) := by
  have hrecord : Books { broker with results := broker'.results } opened := h.record hnew hresults rfl
  have hcount : broker'.results.keys.length = broker.results.keys.length + 1 := by
    rw [hresults, Dict.keys_set, if_neg hnew, List.length_append, List.length_singleton]
  refine ⟨hrecord.ids, ?_, ⟨?_, ?_⟩, ⟨?_, ?_⟩, ?_⟩
  · intro key q hq
    rw [hpositions, Dict.get?_set] at hq
    split at hq
    · rename_i hkey
      obtain rfl := Option.some.inj hq
      obtain ⟨hquantity, hentry⟩ := positive_position p
      subst hkey
      exact ⟨rfl, ⟨_, href, hcount.ge⟩, ⟨p.quantity, rfl, hquantity⟩, hentry⟩
    · exact (h.positions key q hq).mono (hcount ▸ Nat.le_succ _)
  · rw [List.map_append, List.map_singleton, List.nodup_append_comm, List.singleton_append, List.nodup_cons]
    refine ⟨?_, h.orders.1⟩
    intro hmem
    obtain ⟨o, ho, hoeq⟩ := List.mem_map.mp hmem
    obtain ⟨key, hkey, hokey⟩ := h.orders.2 o ho
    exact hnew (Option.some.inj (hoeq.symm.trans hokey) ▸ hkey)
  · intro o ho
    rcases List.mem_append.mp ho with ho | ho
    · exact hrecord.orders.2 o ho
    · obtain rfl := List.mem_singleton.mp ho
      exact ⟨order, hresults ▸ Dict.mem_keys_set.mpr (.inl rfl), rfl⟩
  · rw [List.map_append, List.map_singleton, List.nodup_append_comm, List.singleton_append, List.nodup_cons]
    refine ⟨?_, h.refs.1⟩
    intro hmem
    -- the number is new
    obtain ⟨o, ho, hoeq⟩ := List.mem_map.mp hmem
    obtain ⟨n, hn, hle⟩ := h.refs.2 o ho
    have heq : n = broker.results.keys.length + 1 := ref_injective (hn.symm.trans (hoeq.trans href))
    omega
  · intro o ho
    rcases List.mem_append.mp ho with ho | ho
    · exact hrecord.refs.2 o ho
    · obtain rfl := List.mem_singleton.mp ho
      exact ⟨_, href, hcount.ge⟩
  · intro key hkey
    rw [hpositions, Dict.mem_keys_set] at hkey
    rw [List.map_append, List.map_singleton, List.mem_append, List.mem_singleton]
    exact hkey.elim .inr fun hold => .inl (h.held key hold)

/-- A call after which no other positions are held opens none. -/
theorem opens_eq_nil {call : BrokerCall} (h : ∀ key ∈ (call.after broker).positions.keys, key ∈ broker.positions.keys) :
    call.opens broker = [] := by
  rw [BrokerCall.opens, List.map_eq_nil_iff, List.filter_eq_nil_iff]
  intro key hkey
  simpa using h key hkey

/-- A call that adds one position opens it. -/
theorem opens_eq_singleton {call : BrokerCall} {key : UUID × String} {p : HeldPosition} (hnew : key ∉ broker.positions.keys)
    (h : (call.after broker).positions = broker.positions.set key p) : call.opens broker = [(call.order, key)] := by
  have hold : broker.positions.keys.filter (· ∉ broker.positions.keys) = [] := by
    rw [List.filter_eq_nil_iff]
    intro k hk
    simpa using hk
  rw [BrokerCall.opens, h, Dict.keys_set, if_neg hnew, List.filter_append, hold]
  simp [hnew]

/-- A reference that has not been handed out is not held. -/
theorem Books.fresh (h : Books broker opened) (account_id : UUID) :
    (account_id, ref (broker.results.keys.length + 1)) ∉ broker.positions.keys := by
  intro hmem
  obtain ⟨p, hp⟩ := Option.isSome_iff_exists.mp (Dict.mem_keys_iff.mp hmem)
  obtain ⟨_, ⟨n, hn, hle⟩, _⟩ := h.positions _ _ hp
  have heq := ref_injective hn
  omega

/-- A submission keeps the books. -/
theorem Books.submit (h : Books broker opened) (now : Int) (intent : ExecutionIntent) :
    Books ((BrokerCall.submit now intent).after broker) (opened ++ (BrokerCall.submit now intent).opens broker) := by
  rcases submit_cases now broker intent with hsame | ⟨hnew, hresults, hpositions | ⟨p, href, hpositions⟩⟩
  · have hafter : (BrokerCall.submit now intent).after broker = broker := hsame
    rw [opens_eq_nil fun key hkey => hafter ▸ hkey, List.append_nil, hafter]
    exact h
  · have hafter : ((BrokerCall.submit now intent).after broker).positions = broker.positions := hpositions
    rw [opens_eq_nil fun key hkey => hafter ▸ hkey, List.append_nil]
    exact h.record hnew hresults hpositions
  · have hafter : ((BrokerCall.submit now intent).after broker).positions =
        broker.positions.set (intent.account_id, p.position_ref) (.ofModel p) := hpositions
    rw [opens_eq_singleton (href ▸ h.fresh intent.account_id) hafter]
    exact h.open hnew hresults href hafter

/-- A call that changes what is held under keys that are there, and nothing else, keeps the invariant and opens nothing. -/
theorem Books.held_only (h : Books broker opened) {call : BrokerCall} (hresults : (call.after broker).results = broker.results)
    (hkeys : ∀ key ∈ (call.after broker).positions.keys, key ∈ broker.positions.keys)
    (hheld : ∀ key p, (call.after broker).positions.get? key = some p → Held broker.results.keys.length key p) :
    Books (call.after broker) (opened ++ call.opens broker) := by
  rw [opens_eq_nil hkeys, List.append_nil]
  exact h.update hresults hkeys hheld

/-- So does a call that changes nothing. -/
theorem Books.same (h : Books broker opened) {call : BrokerCall} (hsame : call.after broker = broker) :
    Books (call.after broker) (opened ++ call.opens broker) := by
  refine h.held_only (by rw [hsame]) ?_ ?_
  · rw [hsame]
    exact fun _ hkey => hkey
  · rw [hsame]
    exact h.positions

/-- A held position is replaced by one that may be held. -/
theorem Books.replace (h : Books broker opened) {call : BrokerCall} {key : UUID × String} {p q : HeldPosition}
    (hresults : (call.after broker).results = broker.results) (hp : broker.positions.get? key = some p)
    (hpositions : (call.after broker).positions = broker.positions.set key q)
    (hq : Held broker.results.keys.length key q) : Books (call.after broker) (opened ++ call.opens broker) := by
  refine h.held_only hresults ?_ ?_
  · intro k hk
    rw [hpositions, Dict.mem_keys_set] at hk
    rcases hk with rfl | hk
    · exact Dict.mem_keys_iff.mpr (by rw [hp]; rfl)
    · exact hk
  · intro k r hr
    rw [hpositions, Dict.get?_set] at hr
    split at hr
    · rename_i hkey
      obtain rfl := Option.some.inj hr
      exact hkey ▸ hq
    · exact h.positions k r hr

/-- A call of the kind keeps the invariant. -/
theorem Books.step (h : Books broker opened) {call : BrokerCall} (hc : call.Closes broker) :
    Books (call.after broker) (opened ++ call.opens broker) := by
  cases call with
  | submit now intent => exact h.submit now intent
  | modify_position_sltp account_id position_ref stop_loss take_profit =>
    rcases modify_cases broker account_id position_ref stop_loss take_profit with hsame | ⟨p, hp, hafter⟩
    · exact h.same hsame
    · have hresults := congrArg FakeBroker.results hafter
      have hpositions := congrArg FakeBroker.positions hafter
      exact h.replace hresults hp hpositions (h.positions (account_id, position_ref) p hp)
  | close_position account_id position_ref quantity =>
    rcases close_cases h hc with ⟨e, he⟩ | ⟨p, held, result, positions, hp, _, hclose, _, _, hleft⟩
    · exact h.same (congrArg Prod.snd he)
    · have hresults : ((BrokerCall.close_position account_id position_ref quantity).after broker).results = broker.results :=
        congrArg (fun r => FakeBroker.results r.2) hclose
      have hpositions : ((BrokerCall.close_position account_id position_ref quantity).after broker).positions = positions :=
        congrArg (fun r => FakeBroker.positions r.2) hclose
      rcases hleft with ⟨rfl, _⟩ | ⟨rest, rfl, hrest, _⟩
      · refine h.held_only hresults ?_ ?_
        · intro k hk
          rw [hpositions, Dict.mem_keys_erase] at hk
          exact hk.2
        · intro k r hr
          rw [hpositions, Dict.get?_erase, Option.ite_none_left_eq_some] at hr
          exact h.positions k r hr.2
      · obtain ⟨href, hnumber, _, hentry⟩ := h.positions _ _ hp
        exact h.replace hresults hp hpositions ⟨href, hnumber, ⟨rest, rfl, hrest⟩, hentry⟩

/-- The invariant over a run. -/
theorem books_of_run (h : BrokerRun (fun broker call => call.Closes broker) broker opened) : Books broker opened := by
  induction h with
  | init => exact Books.init
  | step _ hcall ih => exact ih.step hcall

/-- What the invariant says of the books. -/
theorem Books.lawful (h : Books broker opened) : broker.Lawful opened where
  positive p hp := by
    obtain ⟨key, hkey⟩ := Dict.mem_values_iff.mp hp
    obtain ⟨_, _, ⟨d, hd, hpos⟩, _⟩ := h.positions key p hkey
    exact ⟨d, hd, hpos.2⟩
  position_refs := by
    refine ⟨?_, h.refs.1⟩
    -- the references are those of the keys, which were opened under different references
    have hrefs : broker.positions.values.map (·.position_ref) = broker.positions.keys.map Prod.snd := by
      simp only [Dict.values, Dict.keys, List.map_map]
      refine List.map_congr_left ?_
      intro e he
      exact (h.positions e.1 e.2 (Dict.mem_entries_iff.mp he)).1
    rw [hrefs]
    refine List.Nodup.map_on ?_ broker.positions.nodup_keys
    intro a ha b hb hab
    obtain ⟨o, ho, rfl⟩ := List.mem_map.mp (h.held a ha)
    obtain ⟨o', ho', rfl⟩ := List.mem_map.mp (h.held b hb)
    exact congrArg Prod.snd (List.inj_on_of_nodup_map h.refs.1 ho ho' hab)
  broker_order_ids := h.ids ▸ nodup_orderIds _
  orders := by
    refine ⟨?_, h.orders.1⟩
    intro hmem
    obtain ⟨o, ho, hnone⟩ := List.mem_map.mp hmem
    obtain ⟨key, _, hkey⟩ := h.orders.2 o ho
    rw [hnone] at hkey
    cases hkey
  held := h.held

/-- A close of the kind conserves what is held. -/
theorem Books.conserves (h : Books broker opened) {account_id : UUID} {position_ref : String} {quantity : Option DecimalValue}
    (hc : (BrokerCall.close_position account_id position_ref quantity).Closes broker) :
    broker.Conserves account_id position_ref quantity := by
  unfold Conserves
  rcases close_cases h hc with ⟨e, he⟩ | ⟨p, held, result, positions, hp, hheld, hclose, hstate, hfilled, hleft⟩
  · rw [he]
  · rw [hclose]
    refine ⟨hstate, hfilled.2, ⟨p, hp, ?_⟩, ?_⟩
    · rcases hleft with ⟨rfl, heq⟩ | ⟨rest, rfl, hrest, heq⟩
      · rw [Dict.get?_erase_self]
        simp only [HeldPosition.Reduced, hheld, DecimalValue.toRat?, heq]
      · rw [Dict.get?_set_self]
        refine ⟨rest.toRat, hrest.2, rfl, rfl, ?_⟩
        rw [hheld, DecimalValue.toRat?, heq, sub_add_cancel]
    · intro key hkey
      rcases hleft with ⟨rfl, _⟩ | ⟨rest, rfl, _⟩
      · exact Dict.get?_erase_of_ne _ hkey
      · exact Dict.get?_set_of_ne _ _ hkey

end PositionLedgerAux

open PositionLedgerAux

/-- In every run whose closes ask for all that is held, for more, for a positive quantity that fits, or for what does not compare:
what is held is positive, no reference and no order id is there twice, no order opens two positions, and every such close takes
from its position what it reports, or raises and leaves the positions as they are. -/
theorem position_ledger {broker : FakeBroker} {opened : List (Option (UUID × String) × (UUID × String))}
    (h : BrokerRun (fun broker call => call.Closes broker) broker opened) :
    broker.Lawful opened ∧ ∀ account_id position_ref quantity,
      (BrokerCall.close_position account_id position_ref quantity).Closes broker →
        broker.Conserves account_id position_ref quantity := by
  have hbooks := books_of_run h
  exact ⟨hbooks.lawful, fun _ _ _ hc => hbooks.conserves hc⟩

namespace PositionLedgerAux

/-- An order at market that buys two units. -/
def buysTwo : ExecutionIntent where
  intent_id := ⟨1⟩
  account_id := ⟨2⟩
  signal_id := ⟨3⟩
  target_version := 1
  market := "MT5"
  symbol := "XAUUSD"
  side := .BUY
  order_type := .MARKET
  quantity := .ofInt 2
  limit_price := none
  reference_price := some (.ofInt 4000)
  currency := "USD"
  expires_at := .aware 1000 0
  idempotency_key := String.ofList (List.replicate 64 'b')
  accepted := by decide

/-- The broker that has filled it. -/
def holdsTwo : FakeBroker := (BrokerCall.submit 0 buysTwo).after {}

/-- One call buys two units. -/
theorem run_holdsTwo (kind : FakeBroker → BrokerCall → Prop) (h : kind {} (.submit 0 buysTwo)) :
    BrokerRun kind holdsTwo ([] ++ (BrokerCall.submit 0 buysTwo).opens {}) :=
  .step .init h

end PositionLedgerAux

/-- One unit of two is closed. -/
theorem position_ledger_holds_two :
    holdsTwo.Lawful ([] ++ (BrokerCall.submit 0 buysTwo).opens {}) ∧ ∀ account_id position_ref quantity,
      (BrokerCall.close_position account_id position_ref quantity).Closes holdsTwo →
        holdsTwo.Conserves account_id position_ref quantity :=
  position_ledger (run_holdsTwo _ trivial)

/-- A close of minus one unit raises, and leaves a position of three units. -/
theorem negative_close_grows : ∃ broker opened, BrokerRun (fun _ _ => True) broker opened ∧
    ¬ broker.Conserves ⟨2⟩ "fake-position-1" (some (.finite (.ofInt (-1)))) := by
  refine ⟨holdsTwo, _, run_holdsTwo _ trivial, ?_⟩
  have hclose : (holdsTwo.close_position ⟨2⟩ "fake-position-1" (some (.finite (.ofInt (-1))))).1 =
        .error (.validationError "BrokerOrderResult" [("filled_quantity", "filled_quantity cannot be negative")]) ∧
      (holdsTwo.close_position ⟨2⟩ "fake-position-1" (some (.finite (.ofInt (-1))))).2.positions.values.map (·.quantity) =
        [.finite (.ofInt 3)] ∧
      holdsTwo.positions.values.map (·.quantity) = [.finite (.ofInt 2)] := by
    decide +kernel
  obtain ⟨hraises, hafter, hbefore⟩ := hclose
  unfold FakeBroker.Conserves
  generalize holdsTwo.close_position ⟨2⟩ "fake-position-1" (some (.finite (.ofInt (-1)))) = outcome at hraises hafter ⊢
  obtain ⟨returned, after⟩ := outcome
  obtain rfl : returned = _ := hraises
  intro hsame
  rw [show after.positions = holdsTwo.positions from hsame, hbefore] at hafter
  exact absurd hafter (by decide)

end MtossBot

import MtossBot.Infrastructure.Mt5Links

/-!
# The write-ahead rows

What the store of links keeps over any sequence of `reserve` and `record_result`: a row is there exactly when an order has been
reserved, and stays the row of the first reservation but for its result. A result replaces the one before it, also by one without
a ticket.
-/

namespace MtossBot

/-- A call that may change the store, with the time of the clock and the arguments. -/
inductive LinkCall where
  | reserve (link : Mt5OrderLink)
  | record_result (now : Int) (idempotency_key : String) (order_ticket deal_ticket position_id retcode : Option Int)

namespace LinkCall

/-- What a call returns or raises, and the store after it. -/
def apply (store : InMemoryLinkStore) : LinkCall → Except Exc Mt5OrderLink × InMemoryLinkStore
  | reserve link => store.reserve link
  | record_result now idempotency_key order_ticket deal_ticket position_id retcode =>
    store.record_result now idempotency_key order_ticket deal_ticket position_id retcode

/-- The call records a result without a ticket for a key. -/
def Withdraws (idempotency_key : String) : LinkCall → Prop
  | reserve _ => False
  | record_result _ key order_ticket deal_ticket _ _ => key = idempotency_key ∧ order_ticket = none ∧ deal_ticket = none

end LinkCall

/-- The stores that calls lead to from `InMemoryLinkStore()`, with the calls and their outcomes so far. -/
inductive LinkRun : InMemoryLinkStore → List (LinkCall × Except Exc Mt5OrderLink) → Prop where
  | init : LinkRun {} []
  | step {store : InMemoryLinkStore} {history : List (LinkCall × Except Exc Mt5OrderLink)} (call : LinkCall) :
      LinkRun store history → LinkRun (call.apply store).2 (history ++ [(call, (call.apply store).1)])

/-- The links of the reservations under a key that have succeeded, oldest first. -/
def reservations (key : UUID × String) (history : List (LinkCall × Except Exc Mt5OrderLink)) : List Mt5OrderLink :=
  history.filterMap fun
    | (.reserve link, .ok _) => if link.key = key then some link else none
    | _ => none

/-- The order a row is about: the row without its result. -/
def Mt5OrderLink.order (row : Mt5OrderLink) : Mt5OrderLinkFields :=
  { row.toMt5OrderLinkFields with
    order_ticket := none
    deal_ticket := none
    position_id := none
    retcode := none
    resolved_at := none }

namespace LinkStoreAux

variable {store : InMemoryLinkStore} {history : List (LinkCall × Except Exc Mt5OrderLink)}

/-! ### What a call does -/

/-- A reservation finds the row that is there, is refused, or adds its row. -/
theorem reserve_cases (store : InMemoryLinkStore) (link : Mt5OrderLink) :
    (∃ existing, store.rows.get? link.key = some existing ∧ store.reserve link = (.ok existing, store)) ∨
      (∃ e, store.reserve link = (.error e, store)) ∨
      store.rows.get? link.key = none ∧
        (∀ row ∈ store.rows.values, ¬ (row.mt5_login = link.mt5_login ∧ row.magic = link.magic)) ∧
        store.reserve link = (.ok link, { store with rows := store.rows.set link.key link }) := by
  unfold InMemoryLinkStore.reserve
  cases hexisting : store.rows.get? link.key with
  | some existing => exact .inl ⟨existing, rfl, rfl⟩
  | none =>
    right
    dsimp only
    split
    · exact .inl ⟨_, rfl⟩
    · rename_i hclash
      refine .inr ⟨rfl, ?_, rfl⟩
      intro row hrow hsame
      rw [ne_eq, not_not, List.filter_eq_nil_iff] at hclash
      exact hclash row hrow (by simpa using hsame)

/-- A result is recorded in a row with its key, or refused. -/
theorem record_cases (now : Int) (store : InMemoryLinkStore) (idempotency_key : String)
    (order_ticket deal_ticket position_id retcode : Option Int) :
    (∃ e, store.record_result now idempotency_key order_ticket deal_ticket position_id retcode = (.error e, store)) ∨
      ∃ key row, store.rows.get? key = some row ∧ row.idempotency_key = idempotency_key ∧
        store.record_result now idempotency_key order_ticket deal_ticket position_id retcode =
          (.ok (row.updated now order_ticket deal_ticket position_id retcode),
            { store with rows := store.rows.set key (row.updated now order_ticket deal_ticket position_id retcode) }) := by
  unfold InMemoryLinkStore.record_result
  split
  · rename_i key row hfind
    right
    refine ⟨key, row, Dict.mem_entries_iff.mp (List.mem_of_find?_eq_some hfind), ?_, rfl⟩
    simpa using List.find?_some hfind
  · exact .inl ⟨_, rfl⟩

/-- A call that raises leaves the store as it was. -/
theorem apply_error {call : LinkCall} {e : Exc} (h : (call.apply store).1 = .error e) : (call.apply store).2 = store := by
  cases call with
  | reserve link =>
    rcases reserve_cases store link with ⟨_, _, hr⟩ | ⟨_, hr⟩ | ⟨_, _, hr⟩
    · exact congrArg Prod.snd hr
    · exact congrArg Prod.snd hr
    · rw [LinkCall.apply, hr] at h
      cases h
  | record_result now idempotency_key order_ticket deal_ticket position_id retcode =>
    rcases record_cases now store idempotency_key order_ticket deal_ticket position_id retcode with ⟨_, hr⟩ | ⟨_, _, _, _, hr⟩
    · exact congrArg Prod.snd hr
    · rw [LinkCall.apply, hr] at h
      cases h

/-- Rows about one order have one key, one login and one magic. -/
theorem order_fields {row row' : Mt5OrderLink} (h : row.order = row'.order) :
    row.key = row'.key ∧ row.mt5_login = row'.mt5_login ∧ row.magic = row'.magic := by
  simp only [Mt5OrderLink.order, Mt5OrderLinkFields.mk.injEq] at h
  obtain ⟨hkey, _, haccount, hlogin, hmagic, _⟩ := h
  exact ⟨Prod.ext haccount hkey, hlogin, hmagic⟩

/-! ### The invariant -/

/-- A row is under its key, reserved, and that of the first reservation; and no two are for the same magic on a login. -/
structure Kept (store : InMemoryLinkStore) (history : List (LinkCall × Except Exc Mt5OrderLink)) : Prop where
  keys : ∀ key row, store.rows.get? key = some row → row.key = key
  reserved : ∀ key, store.rows.get? key = none ↔ reservations key history = []
  first : ∀ key row, store.rows.get? key = some row →
    ∃ link rest, reservations key history = link :: rest ∧ row.order = link.order
  magics : ∀ key row key' row', store.rows.get? key = some row → store.rows.get? key' = some row' →
    row.mt5_login = row'.mt5_login → row.magic = row'.magic → key = key'

theorem Kept.init : Kept {} [] where
  keys key row h := by cases h
  reserved key := by simp [reservations]
  first key row h := by cases h
  magics key row key' row' h := by cases h

theorem reservations_concat (key : UUID × String) (event : LinkCall × Except Exc Mt5OrderLink) :
    reservations key (history ++ [event]) = reservations key history ++ reservations key [event] :=
  List.filterMap_append

/-- An outcome that reserves nothing new keeps the invariant. -/
theorem Kept.unchanged (h : Kept store history) {event : LinkCall × Except Exc Mt5OrderLink}
    (he : ∀ key, reservations key [event] ≠ [] → store.rows.get? key ≠ none) : Kept store (history ++ [event]) where
  keys := h.keys
  reserved key := by
    rw [reservations_concat, List.append_eq_nil_iff, ← h.reserved key]
    refine ⟨fun hnone => ⟨hnone, ?_⟩, And.left⟩
    by_contra hne
    exact he key hne hnone
  first key row hrow := by
    obtain ⟨link, rest, hlinks, horder⟩ := h.first key row hrow
    exact ⟨link, rest ++ reservations key [event], by rw [reservations_concat, hlinks, List.cons_append], horder⟩
  magics := h.magics

/-- A row is replaced by one about the same order. -/
theorem Kept.replace (h : Kept store history) {event : LinkCall × Except Exc Mt5OrderLink} {key : UUID × String}
    {row row' : Mt5OrderLink} (he : ∀ key, reservations key [event] = []) (hrow : store.rows.get? key = some row)
    (horder : row'.order = row.order) : Kept { rows := store.rows.set key row' } (history ++ [event]) := by
  have hsame : ∀ k, reservations k (history ++ [event]) = reservations k history := by
    intro k
    rw [reservations_concat, he, List.append_nil]
  have hold : ∀ k r, (store.rows.set key row').get? k = some r → ∃ r₀, store.rows.get? k = some r₀ ∧ r.order = r₀.order := by
    intro k r hr
    rw [Dict.get?_set] at hr
    split at hr
    · rename_i hk
      obtain rfl := Option.some.inj hr
      exact ⟨row, hk ▸ hrow, horder⟩
    · exact ⟨r, hr, rfl⟩
  refine ⟨?_, ?_, ?_, ?_⟩
  · intro k r hr
    obtain ⟨r₀, hr₀, ho⟩ := hold k r hr
    exact (order_fields ho).1.trans (h.keys k r₀ hr₀)
  · intro k
    rw [hsame, ← h.reserved k, Dict.get?_set]
    split
    · rename_i hk
      simp [hk, hrow]
    · rfl
  · intro k r hr
    obtain ⟨r₀, hr₀, ho⟩ := hold k r hr
    obtain ⟨link, rest, hlinks, hlink⟩ := h.first k r₀ hr₀
    exact ⟨link, rest, (hsame k).trans hlinks, ho.trans hlink⟩
  · intro k r k' r' hr hr' hlogin hmagic
    obtain ⟨r₀, hr₀, ho⟩ := hold k r hr
    obtain ⟨r₀', hr₀', ho'⟩ := hold k' r' hr'
    rw [(order_fields ho).2.1, (order_fields ho').2.1] at hlogin
    rw [(order_fields ho).2.2, (order_fields ho').2.2] at hmagic
    exact h.magics k r₀ k' r₀' hr₀ hr₀' hlogin hmagic

/-- A row is added under a new key, for a magic that no other row of its login has. -/
theorem Kept.add (h : Kept store history) {link : Mt5OrderLink} (hnew : store.rows.get? link.key = none)
    (hclash : ∀ row ∈ store.rows.values, ¬ (row.mt5_login = link.mt5_login ∧ row.magic = link.magic)) :
    Kept { rows := store.rows.set link.key link } (history ++ [(.reserve link, .ok link)]) := by
  have hevent : ∀ k, reservations k [(.reserve link, .ok link)] = if link.key = k then [link] else [] := by
    intro k
    by_cases hk : link.key = k <;> simp [reservations, hk]
  have hno : ∀ k r, store.rows.get? k = some r → ¬ (r.mt5_login = link.mt5_login ∧ r.magic = link.magic) :=
    fun k r hr => hclash r (Dict.mem_values_iff.mpr ⟨k, hr⟩)
  refine ⟨?_, ?_, ?_, ?_⟩
  · intro k r hr
    rw [Dict.get?_set] at hr
    split at hr
    · rename_i hk
      obtain rfl := Option.some.inj hr
      exact hk.symm
    · exact h.keys k r hr
  · intro k
    rw [reservations_concat, hevent, Dict.get?_set]
    by_cases hk : k = link.key
    · simp [hk]
    · simp [hk, Ne.symm hk, h.reserved k]
  · intro k r hr
    rw [Dict.get?_set] at hr
    rw [reservations_concat, hevent]
    split at hr
    · rename_i hk
      obtain rfl := Option.some.inj hr
      refine ⟨link, [], ?_, rfl⟩
      rw [(h.reserved k).mp (hk ▸ hnew), if_pos hk.symm, List.nil_append]
    · obtain ⟨first, rest, hlinks, ho⟩ := h.first k r hr
      exact ⟨first, _, by rw [hlinks, List.cons_append], ho⟩
  · intro k r k' r' hr hr' hlogin hmagic
    rw [Dict.get?_set] at hr hr'
    split at hr <;> split at hr'
    · rename_i hk hk'
      exact hk.trans hk'.symm
    · obtain rfl := Option.some.inj hr
      exact absurd ⟨hlogin.symm, hmagic.symm⟩ (hno k' r' hr')
    · obtain rfl := Option.some.inj hr'
      exact absurd ⟨hlogin, hmagic⟩ (hno k r hr)
    · exact h.magics k r k' r' hr hr' hlogin hmagic

/-- A call keeps the invariant. -/
theorem Kept.step (h : Kept store history) (call : LinkCall) :
    Kept (call.apply store).2 (history ++ [(call, (call.apply store).1)]) := by
  cases call with
  | reserve link =>
    rcases reserve_cases store link with ⟨existing, hrow, hr⟩ | ⟨e, hr⟩ | ⟨hnew, hclash, hr⟩
    · rw [LinkCall.apply, hr]
      refine h.unchanged ?_
      intro key hne
      by_cases hk : link.key = key
      · simp [← hk, hrow]
      · simp [reservations, hk] at hne
    · rw [LinkCall.apply, hr]
      exact h.unchanged fun key hne => by simp [reservations] at hne
    · rw [LinkCall.apply, hr]
      exact h.add hnew hclash
  | record_result now idempotency_key order_ticket deal_ticket position_id retcode =>
    rcases record_cases now store idempotency_key order_ticket deal_ticket position_id retcode with
      ⟨e, hr⟩ | ⟨key, row, hrow, _, hr⟩
    · rw [LinkCall.apply, hr]
      exact h.unchanged fun key hne => by simp [reservations] at hne
    · rw [LinkCall.apply, hr]
      exact h.replace (fun key => by simp [reservations]) hrow rfl

/-- The invariant over a run. -/
theorem kept_of_run (h : LinkRun store history) : Kept store history := by
  induction h with
  | init => exact Kept.init
  | step call _ ih => exact ih.step call

/-- A resolved row stays resolved through a call that does not withdraw its tickets. -/
theorem Kept.resolved (h : Kept store history) {key : UUID × String} {row : Mt5OrderLink}
    (hrow : store.rows.get? key = some row) (hresolved : row.is_resolved = true) {call : LinkCall}
    (hc : ¬ call.Withdraws key.2) : ∃ row', (call.apply store).2.rows.get? key = some row' ∧ row'.is_resolved = true := by
  cases call with
  | reserve link =>
    rcases reserve_cases store link with ⟨existing, _, hr⟩ | ⟨e, hr⟩ | ⟨hnew, _, hr⟩
    · exact ⟨row, by rw [LinkCall.apply, hr]; exact hrow, hresolved⟩
    · exact ⟨row, by rw [LinkCall.apply, hr]; exact hrow, hresolved⟩
    · have hne : key ≠ link.key := by
        rintro rfl
        rw [hrow] at hnew
        cases hnew
      exact ⟨row, by rw [LinkCall.apply, hr]; exact (Dict.get?_set_of_ne _ _ hne).trans hrow, hresolved⟩
  | record_result now idempotency_key order_ticket deal_ticket position_id retcode =>
    rcases record_cases now store idempotency_key order_ticket deal_ticket position_id retcode with
      ⟨e, hr⟩ | ⟨key', row', hrow', hkey', hr⟩
    · exact ⟨row, by rw [LinkCall.apply, hr]; exact hrow, hresolved⟩
    · rw [LinkCall.apply, hr]
      by_cases hk : key = key'
      · -- the result is for this row, and has a ticket
        subst hk
        refine ⟨_, Dict.get?_set_self _ _ _, ?_⟩
        have hown : idempotency_key = key.2 := hkey'.symm.trans (congrArg Prod.snd (h.keys key row' hrow'))
        cases order_ticket with
        | some ticket => rfl
        | none =>
          cases deal_ticket with
          | some ticket => rfl
          | none => exact absurd ⟨hown, rfl, rfl⟩ hc
      · exact ⟨row, (Dict.get?_set_of_ne _ _ hk).trans hrow, hresolved⟩

/-- No two rows are for the same magic on a login. -/
theorem Kept.nodup (h : Kept store history) : (store.rows.values.map fun row => (row.mt5_login, row.magic)).Nodup := by
  rw [Dict.values, List.map_map]
  refine List.Nodup.map_on ?_ (List.Nodup.of_map _ store.rows.nodup)
  intro a ha b hb hab
  have ha := Dict.mem_entries_iff.mp ha
  have hb := Dict.mem_entries_iff.mp hb
  have hkey := h.magics a.1 a.2 b.1 b.2 ha hb (congrArg Prod.fst hab) (congrArg Prod.snd hab)
  rw [hkey, hb] at ha
  exact Prod.ext hkey (Option.some.inj ha).symm

end LinkStoreAux

open LinkStoreAux

/-- After any calls of the store: a row is there exactly when a reservation under its key has succeeded; it is about the order of the
first one; and no two rows are for the same magic on a login. A next call that raises changes nothing, and a row that is resolved
stays so unless the call records a result without a ticket for its key. -/
theorem link_store {store : InMemoryLinkStore} {history : List (LinkCall × Except Exc Mt5OrderLink)} (h : LinkRun store history) :
    (∀ account_id idempotency_key,
      (store.get account_id idempotency_key = none ↔ reservations (account_id, idempotency_key) history = []) ∧
        ∀ row, store.get account_id idempotency_key = some row →
          ∃ link rest, reservations (account_id, idempotency_key) history = link :: rest ∧ row.order = link.order) ∧
      (store.rows.values.map fun row => (row.mt5_login, row.magic)).Nodup ∧
      ∀ call : LinkCall, (∀ e, (call.apply store).1 = .error e → (call.apply store).2 = store) ∧
        ∀ account_id idempotency_key row, store.get account_id idempotency_key = some row → row.is_resolved = true →
          ¬ call.Withdraws idempotency_key →
            ∃ row', (call.apply store).2.get account_id idempotency_key = some row' ∧ row'.is_resolved = true := by
  have hkept := kept_of_run h
  refine ⟨fun account_id idempotency_key => ⟨hkept.reserved _, hkept.first _⟩, hkept.nodup, fun call => ⟨?_, ?_⟩⟩
  · exact fun _ he => apply_error he
  · exact fun _ _ _ hrow hresolved hc => hkept.resolved hrow hresolved hc

namespace LinkStoreAux

/-- The row of an order that is about to be sent. -/
def reserved : Mt5OrderLink where
  idempotency_key := String.ofList (List.replicate 64 'a')
  intent_id := ⟨1⟩
  account_id := ⟨2⟩
  mt5_login := 100
  magic := 7
  broker_symbol := "XAUUSD"
  side := .BUY
  requested_lots := .ofInt 1
  submit_started_at := .aware 0 0
  accepted := by decide

/-- The result of sending it. -/
def recording : LinkCall := .record_result 1 reserved.idempotency_key (some 111) (some 222) (some 333) (some 10009)

/-- The row with its result. -/
def resolved : Mt5OrderLink := reserved.updated 1 (some 111) (some 222) (some 333) (some 10009)

/-- The store with that row only. -/
def resolvedStore : InMemoryLinkStore := ⟨.set .empty reserved.key resolved⟩

theorem run_resolved : LinkRun resolvedStore [(.reserve reserved, .ok reserved), (recording, .ok resolved)] := by
  have hrun := LinkRun.step recording (.step (.reserve reserved) .init)
  have hresult : recording.apply ((LinkCall.reserve reserved).apply {}).2 = (.ok resolved, resolvedStore) := rfl
  rw [hresult] at hrun
  exact hrun

end LinkStoreAux

/-- A row that was reserved and resolved. -/
theorem link_store_resolved :
    (resolvedStore.rows.values.map fun row => (row.mt5_login, row.magic)).Nodup ∧
      ∃ link rest, reservations reserved.key [(.reserve reserved, .ok reserved), (recording, .ok resolved)] = link :: rest ∧
        resolved.order = link.order :=
  ⟨(link_store run_resolved).2.1, ((link_store run_resolved).1 reserved.account_id reserved.idempotency_key).2 resolved rfl⟩

/-- A result without tickets takes back the tickets that were recorded. -/
theorem tickets_withdrawn : ∃ store history, LinkRun store history ∧ ∃ row row' : Mt5OrderLink, ∃ call : LinkCall,
    store.get row.account_id row.idempotency_key = some row ∧ row.is_resolved = true ∧
      (call.apply store).2.get row.account_id row.idempotency_key = some row' ∧ row'.is_resolved = false :=
  ⟨resolvedStore, _, run_resolved, resolved, reserved.updated 2 none none none (some 10006),
    .record_result 2 reserved.idempotency_key none none none (some 10006), rfl, rfl, rfl, rfl⟩

end MtossBot

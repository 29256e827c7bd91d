import MtossBot.Api.Console.Routes
import MtossBot.Lemmas.Decimals
import MtossBot.Library.LastWrite

/-!
# Runs of the console

The console after any requests, from the start of the process on, and what one request can do to the store: each field is changed by few of
them.
-/

namespace MtossBot
namespace Console

/-- The stores that are reached from one by requests. -/
inductive ServedFrom (internal_api_key : String) (store : ConsoleStore) : List Arrival → ConsoleStore → Prop where
  | start : ServedFrom internal_api_key store [] store
  | step {log : List Arrival} {store' : ConsoleStore} (drawn : UUID) (arrival : Arrival) :
      ServedFrom internal_api_key store log store' →
      ServedFrom internal_api_key store (log ++ [arrival]) (serve internal_api_key drawn store' arrival).2

/-- The stores that are reached from the start of a process. -/
def Served (internal_api_key : String) : List Arrival → ConsoleStore → Prop := ServedFrom internal_api_key {}

/-- The requests that came with the key. -/
def accepted (internal_api_key : String) (log : List Arrival) : List ConsoleRequest :=
  (log.filter fun arrival => require_internal_key internal_api_key arrival.x_internal_key).map Arrival.request

/-- What holds of a store and is kept by every request holds of every run from there. -/
theorem ServedFrom.rule {internal_api_key : String} {store : ConsoleStore} {P : List ConsoleRequest → ConsoleStore → Prop} (hstart : P [] store)
    (hstep : ∀ drawn history store request, P history store → P (history ++ [request]) (handle drawn store request).2)
    {log : List Arrival} {store' : ConsoleStore} (h : ServedFrom internal_api_key store log store') :
    P (accepted internal_api_key log) store' := by
  induction h with
  | start => exact hstart
  | @step log store' drawn arrival _ ih =>
    unfold serve accepted
    rw [List.filter_append, List.map_append]
    by_cases hkey : require_internal_key internal_api_key arrival.x_internal_key = true
    · rw [if_pos hkey, List.filter_singleton, hkey]
      exact hstep drawn _ _ _ ih
    · rw [if_neg hkey, List.filter_singleton, eq_false_of_ne_true hkey, cond_false, List.map_nil, List.append_nil]
      exact ih

/-! ## What a request changes -/

def statusOf : DecisionAction → ApprovalStatus
  | .APPROVE => .APPROVED
  | .REJECT => .REJECTED

/-- The reason that the console shows for a decision. -/
def reasonOf : ApprovalStatus → String
  | .APPROVED => "운영자 수동 승인"
  | _ => "운영자 거절"

/-- The phrase is the one to confirm with, but for blanks around it. -/
def Confirmed (phrase : String) : Prop := DecimalText.strip phrase.toList = CONFIRM_PHRASE.toList

instance instDecidableConfirmed (phrase : String) : Decidable (Confirmed phrase) := inferInstanceAs (Decidable (_ = _))

/-- What a request does to the store, whatever it is answered with: one field changes, or the two of a decision, or all of a reset. -/
def effect (store : ConsoleStore) : ConsoleRequest → ConsoleStore
  | .toggle_strategy strategy_id => { store with paused_strategies := toggle store.paused_strategies strategy_id }
  | .toggle_copy_source source_id => { store with paused_sources := toggle store.paused_sources source_id }
  | .recheck_approval approval_id =>
    if (find_approval approval_id).isSome then { store with approval_rechecked := insert approval_id store.approval_rechecked } else store
  | .decide_approval approval_id action _ =>
    if (find_approval approval_id).isSome ∧ (action = .APPROVE → approval_id ∈ store.approval_rechecked) then
      store.record approval_id (statusOf action) (reasonOf (statusOf action))
    else store
  | .recheck_broker order_id =>
    if can_recheck_broker order_id = some true then { store with rechecked_orders := insert order_id store.rechecked_orders } else store
  | .update_risk_rule rule_id limit reauthenticated =>
    { store with risk_limits := (update_risk_rule store rule_id limit reauthenticated).2.risk_limits }
  | .test_toss _ => { store with toss_test_attempts := store.toss_test_attempts + 1 }
  | .stop_account account_id => { store with stopped_accounts := insert account_id store.stopped_accounts }
  | .resume_account account_id => { store with stopped_accounts := store.stopped_accounts.erase account_id }
  | .resume_node node_id => { store with resumed_nodes := insert node_id store.resumed_nodes }
  | .post_emergency_stop reauthenticated =>
    if reauthenticated then { store with emergency_stop := true, emergency_stopped_at := some AS_OF, cancel_progress_done := 4 } else store
  | .post_resume => { store with emergency_stop := false, emergency_stopped_at := none, cancel_progress_done := 0 }
  | .post_liquidate phrase reauthenticated =>
    if Confirmed phrase ∧ reauthenticated = true then { store with liquidation_running := true } else store
  | .post_reset => {}
  | _ => store

variable {drawn : UUID} {store : ConsoleStore}

/-- An update does nothing but to the limits. -/
theorem effect_update_risk_rule (rule_id limit : String) (reauthenticated : Bool) : effect store (.update_risk_rule rule_id limit reauthenticated) =
    { store with risk_limits := (update_risk_rule store rule_id limit reauthenticated).2.risk_limits } := rfl

/-- The limit of a rule of the screen is compared with the new one. -/
theorem update_risk_rule_store (store : ConsoleStore) (rule_id limit : String) (reauthenticated : Bool) :
    (update_risk_rule store rule_id limit reauthenticated).2 = store ∨
      ∃ risk current new_limit looser, build_risk store .normal = .ok risk ∧ current ∈ risk.rules ∧ current.rule_id = rule_id ∧
        DecimalValue.ofText limit = some new_limit ∧ new_limit.gt (.finite current.limit) = .ok looser ∧
        (looser = true → reauthenticated = true) ∧
        (update_risk_rule store rule_id limit reauthenticated).2 = { store with risk_limits := store.risk_limits.set rule_id limit } := by
  unfold update_risk_rule
  split
  · exact .inl rfl
  · rename_i risk hrisk
    split
    · exact .inl rfl
    · rename_i current hcurrent
      split
      · exact .inl rfl
      · rename_i new_limit hlimit
        split
        · exact .inl rfl
        · rename_i looser hlooser
          split
          · exact .inl rfl
          · rename_i hallowed
            refine .inr ⟨risk, current, new_limit, looser, hrisk, List.mem_of_find?_eq_some hcurrent, ?_, hlimit, hlooser, ?_, rfl⟩
            · simpa using List.find?_some hcurrent
            · simpa using hallowed

/-! ### Rows -/

/-- A reading of the rows of a screen that is one of their fixtures. -/
theorem map_rows {α β γ : Type} {f : α → Except Exc β} {g : β → γ} {k : α → γ} {l : List α} {rows : List β} (h : l.mapM f = .ok rows)
    (hread : ∀ a ∈ l, ∀ b, f a = .ok b → g b = k a) : rows.map g = l.map k := by
  induction l generalizing rows with
  | nil =>
    cases h
    rfl
  | cons a l ih =>
    rw [List.mapM_cons] at h
    obtain ⟨b, hb, h⟩ := except_bind_eq_ok h
    obtain ⟨bs, hbs, h⟩ := except_bind_eq_ok h
    cases h
    rw [List.map_cons, List.map_cons, hread a List.mem_cons_self b hb, ih hbs fun a' ha' => hread a' (List.mem_cons_of_mem _ ha')]

/-- All rows are there when each is. -/
theorem exists_rows {α β : Type} {f : α → Except Exc β} {l : List α} (h : ∀ a ∈ l, ∃ b, f a = .ok b) : ∃ rows, l.mapM f = .ok rows := by
  induction l with
  | nil => exact ⟨[], rfl⟩
  | cons a l ih =>
    obtain ⟨b, hb⟩ := h a List.mem_cons_self
    obtain ⟨rows, hrows⟩ := ih fun a' ha' => h a' (List.mem_cons_of_mem _ ha')
    refine ⟨b :: rows, ?_⟩
    rw [List.mapM_cons, hb, hrows]
    rfl

/-- A row has its fixture. -/
theorem fixture_of_row {α β : Type} {f : α → Except Exc β} {l : List α} {rows : List β} (h : l.mapM f = .ok rows) {b : β} (hb : b ∈ rows) :
    ∃ a ∈ l, f a = .ok b := by
  induction l generalizing rows with
  | nil =>
    cases h
    cases hb
  | cons a l ih =>
    rw [List.mapM_cons] at h
    obtain ⟨b', hb', h⟩ := except_bind_eq_ok h
    obtain ⟨bs, hbs, h⟩ := except_bind_eq_ok h
    cases h
    rcases List.mem_cons.mp hb with rfl | hb
    · exact ⟨a, List.mem_cons_self, hb'⟩
    · obtain ⟨a', ha', hrow⟩ := ih hbs hb
      exact ⟨a', List.mem_cons_of_mem _ ha', hrow⟩

/-- A fixture has its row. -/
theorem row_of_fixture {α β : Type} {f : α → Except Exc β} {l : List α} {rows : List β} (h : l.mapM f = .ok rows) {a : α} (ha : a ∈ l) :
    ∃ b ∈ rows, f a = .ok b := by
  induction l generalizing rows with
  | nil => cases ha
  | cons a' l ih =>
    rw [List.mapM_cons] at h
    obtain ⟨b', hb', h⟩ := except_bind_eq_ok h
    obtain ⟨bs, hbs, h⟩ := except_bind_eq_ok h
    cases h
    rcases List.mem_cons.mp ha with rfl | ha
    · exact ⟨b', List.mem_cons_self, hb'⟩
    · obtain ⟨b, hb, hrow⟩ := ih hbs ha
      exact ⟨b, List.mem_cons_of_mem _ hb, hrow⟩

/-! ### Serialising -/

/-- A decimal that has no more digits than the context and is no multiple of ten. -/
def Short (d : Decimal) : Prop := d.coefficient < 10 ^ Decimal.prec ∧ -Decimal.prec ≤ d.exponent ∧ d.exponent ≤ 0

instance instDecidableShort (d : Decimal) : Decidable (Short d) := inferInstanceAs (Decidable (_ ∧ _))

/-- There is memory for its text. -/
theorem Short.fits {d : Decimal} (h : Short d) (memory : Memory) : plainLength d ≤ memory.longest := by
  obtain ⟨hc, hlow, hhigh⟩ := h
  have hdigits : numDigits d.coefficient ≤ Decimal.prec := (Digits.lt_pow_iff (by decide)).mp hc
  refine le_trans ?_ memory.enough
  unfold plainLength
  unfold Decimal.prec at *
  dsimp only
  split_ifs <;> omega

/-- What is quantized to a few places is such a decimal. -/
theorem short_of_quantized {d result : Decimal} {exponent : Int} (h : d.quantize exponent = .ok result) (hlow : -Decimal.prec ≤ exponent)
    (hhigh : exponent ≤ 0) : Short result := by
  obtain ⟨hresult, hdigits⟩ := Decimal.quantize_ok h
  have hexponent : result.exponent = exponent := by rw [hresult]
  exact ⟨hdigits, hexponent ▸ hlow, hexponent ▸ hhigh⟩

/-- A body goes out as it is when there is memory for each of its decimals. -/
theorem sent_eq_ok {memory : Memory} {reply : ConsoleReply} {body : ConsoleBody} :
    reply.sent memory = .ok body ↔ reply = .ok body ∧ ∀ d ∈ body.decimals, plainLength d ≤ memory.longest := by
  have hplain : ∀ d, (∃ text, _plain_decimal memory d = .ok text) ↔ plainLength d ≤ memory.longest := by
    intro d
    unfold _plain_decimal
    split <;> simp [*]
  cases reply with
  | ok sent =>
    unfold ConsoleReply.sent
    dsimp only
    cases htexts : sent.decimals.mapM (_plain_decimal memory) with
    | ok texts =>
      refine ⟨fun h => ⟨h, fun d hd => ?_⟩, fun h => h.1⟩
      cases h
      obtain ⟨text, -, htext⟩ := row_of_fixture htexts hd
      exact (hplain d).mp ⟨text, htext⟩
    | error e =>
      refine iff_of_false nofun ?_
      rintro ⟨⟨⟩, hall⟩
      obtain ⟨texts, hok⟩ := exists_rows fun d hd => (hplain d).mpr (hall d hd)
      rw [htexts] at hok
      cases hok
  | http_exception status_code code message => exact iff_of_false nofun fun h => nomatch h.1
  | raised e => exact iff_of_false nofun fun h => nomatch h.1

/-! ### The approvals of the fixtures -/

/-- The notional of an approval of the fixtures, in cents. -/
def total (raw : ApprovalBase) : Decimal :=
  ⟨false, raw.current_price.coefficient * raw.quantity.coefficient * 10 ^ (raw.current_price.exponent + 2).toNat, -2⟩

/-- The fixed approvals have a notional. -/
theorem notional_base : ∀ raw ∈ _APPROVAL_BASE, notional raw.current_price raw.quantity = .ok (total raw) := by decide +kernel

/-- So does the one whose price has moved. -/
theorem notional_moved : ∀ raw ∈ _APPROVAL_BASE, raw.approval_id = "apv-13f-brkb" →
    ∃ total, notional MOVED_PRICE raw.quantity = .ok total := by
  simp only [_APPROVAL_BASE, List.forall_mem_cons]
  exact ⟨fun _ => ⟨⟨false, 544656, -2⟩, by decide +kernel⟩, by simp, by simp, by simp⟩

/-- None of them has expired, and none is small enough for the policy. -/
theorem manual_base : ∀ raw ∈ _APPROVAL_BASE, 0 < raw.expires ∧ raw.mode ≠ .AUTO ∧
    (raw.mode = .CONDITIONAL → 2000000 < (total raw).toRat) := by decide +kernel

/-- The policy leaves every approval of the fixtures to the operator. -/
theorem policy_pending {raw : ApprovalBase} (hraw : raw ∈ _APPROVAL_BASE) :
    ApprovalPolicy.decide drawn (policy raw.mode) (total raw).toRat (.aware BASE_NOW 32400000000)
        (.aware (BASE_NOW + raw.expires * 1000000) 32400000000) = .ok ⟨drawn, .PENDING, "manual approval required"⟩ := by
  obtain ⟨hexpires, hauto, hsmall⟩ := manual_base raw hraw
  have hopen : ¬BASE_NOW ≥ BASE_NOW + raw.expires * 1000000 := by omega
  have hlimit : ¬((policy raw.mode).mode = .CONDITIONAL ∧
      (policy raw.mode).auto_notional_limit.any (fun limit => (total raw).toRat ≤ limit) = true) := by
    rintro ⟨hmode, hany⟩
    have hmode' : raw.mode = .CONDITIONAL := hmode
    have hsome : (policy raw.mode).auto_notional_limit = some 2000000 := if_pos hmode'
    rw [hsome] at hany
    exact absurd (hsmall hmode') (not_lt.mpr (by simpa using hany))
  have hmanual : (policy raw.mode).mode ≠ .AUTO := hauto
  show Except.ok (ApprovalPolicy.decision drawn (policy raw.mode) (total raw).toRat BASE_NOW (BASE_NOW + raw.expires * 1000000)) = _
  rw [ApprovalPolicy.decision, if_neg hopen, if_neg hmanual, if_neg hlimit]

/-- A decision on an approval of the fixtures is that of the operator. -/
theorem decide_known (drawn : UUID) (store : ConsoleStore) {approval_id : String} (h : (find_approval approval_id).isSome) (action : DecisionAction) :
    ∃ result, decide_approval drawn approval_id (action = .APPROVE) store =
      (.ok (some result), store.record approval_id (statusOf action) (reasonOf (statusOf action))) := by
  obtain ⟨raw, hraw⟩ := Option.isSome_iff_exists.mp h
  have hmem : raw ∈ _APPROVAL_BASE := List.mem_of_find?_eq_some hraw
  unfold decide_approval
  rw [hraw]
  dsimp only
  rw [notional_base raw hmem]
  simp only [bind, Except.bind]
  rw [policy_pending hmem]
  cases action <;> exact ⟨_, rfl⟩

/-- An approval that is not found is not decided. -/
theorem decide_unknown {approval_id : String} (h : find_approval approval_id = none) (approve : Bool) :
    decide_approval drawn approval_id approve store = (.ok none, store) := by
  unfold decide_approval
  rw [h]

/-- An approval of the fixtures is shown with its last decision. -/
theorem summary_ok (store : ConsoleStore) {raw : ApprovalBase} (hraw : raw ∈ _APPROVAL_BASE) :
    ∃ row, _approval_summary raw store = .ok row ∧ row.approval_id = raw.approval_id ∧
      row.status = (store.approval_decisions.get? raw.approval_id).getD .PENDING := by
  have hprice : ∃ total, notional (if raw.approval_id ∈ store.approval_rechecked ∧ raw.approval_id = "apv-13f-brkb" then MOVED_PRICE
      else raw.current_price) raw.quantity = .ok total := by
    split
    · rename_i hmoved
      exact notional_moved raw hraw hmoved.2
    · exact ⟨_, notional_base raw hraw⟩
  obtain ⟨total, htotal⟩ := hprice
  unfold _approval_summary
  dsimp only
  rw [htotal]
  exact ⟨_, rfl, rfl, rfl⟩

/-- So the list of them does not fail. -/
theorem build_approvals_ok (store : ConsoleStore) (state : ScreenState) : ∃ rows, build_approvals store state = .ok rows := by
  unfold build_approvals
  split
  · exact ⟨[], rfl⟩
  · obtain ⟨rows, hrows⟩ := exists_rows fun raw hraw => (summary_ok store hraw).imp fun _ hrow => hrow.1
    rw [hrows]
    exact ⟨_, rfl⟩

/-! ### All requests -/

/-- A decision is recorded when the approval is found, and was rechecked if it is approved. -/
theorem decide_store (approval_id : String) (action : DecisionAction) : (decide_approval_route drawn store approval_id action).2 =
    if (find_approval approval_id).isSome ∧ (action = .APPROVE → approval_id ∈ store.approval_rechecked) then
      store.record approval_id (statusOf action) (reasonOf (statusOf action))
    else store := by
  unfold decide_approval_route
  by_cases hrefused : action = .APPROVE ∧ approval_id ∉ store.approval_rechecked
  · rw [if_pos hrefused, if_neg fun h => hrefused.2 (h.2 hrefused.1)]
  · rw [if_neg hrefused]
    have hallowed : action = .APPROVE → approval_id ∈ store.approval_rechecked := fun h => by_contra fun hno => hrefused ⟨h, hno⟩
    cases hfind : find_approval approval_id with
    | none =>
      rw [decide_unknown hfind, if_neg (by simp)]
    | some raw =>
      obtain ⟨result, hresult⟩ := decide_known drawn store (by rw [hfind]; rfl) action
      rw [hresult, if_pos ⟨rfl, hallowed⟩]

/-- What a request does to the store is its effect. -/
theorem handle_store (request : ConsoleRequest) : (handle drawn store request).2 = effect store request := by
  cases request with
  | recheck_approval approval_id =>
    show (recheck_approval approval_id store).2 = if (find_approval approval_id).isSome then _ else _
    unfold recheck_approval
    cases find_approval approval_id <;> rfl
  | decide_approval approval_id action rechecked => exact decide_store approval_id action
  | recheck_broker order_id =>
    show (recheck_broker store order_id).2 = if can_recheck_broker order_id = some true then _ else _
    unfold recheck_broker
    rcases can_recheck_broker order_id with _ | _ | _ <;> rfl
  | update_risk_rule rule_id limit reauthenticated =>
    show (update_risk_rule store rule_id limit reauthenticated).2 = { store with risk_limits := _ }
    rcases update_risk_rule_store store rule_id limit reauthenticated with h | ⟨_, _, _, _, _, _, _, _, _, _, h⟩ <;> rw [h]
  | test_toss scenario =>
    show (test_toss_connection store scenario).2 = _
    unfold test_toss_connection
    dsimp only
    split <;> rfl
  | post_emergency_stop reauthenticated => cases reauthenticated <;> rfl
  | post_liquidate phrase reauthenticated =>
    show (liquidate_all store phrase reauthenticated).2 = if DecimalText.strip phrase.toList = CONFIRM_PHRASE.toList ∧ _ then _ else _
    unfold liquidate_all
    by_cases hphrase : DecimalText.strip phrase.toList = CONFIRM_PHRASE.toList
    · cases reauthenticated <;> simp [hphrase]
    · simp [hphrase]
  | _ => rfl

/-- The limits are changed by updates and resets only. -/
theorem effect_risk_limits {request : ConsoleRequest} (hreset : request ≠ .post_reset)
    (hupdate : ∀ rule_id limit reauthenticated, request ≠ .update_risk_rule rule_id limit reauthenticated) :
    (effect store request).risk_limits = store.risk_limits := by
  cases request with
  | post_reset => exact absurd rfl hreset
  | update_risk_rule rule_id limit reauthenticated => exact absurd rfl (hupdate _ _ _)
  | recheck_approval | decide_approval | recheck_broker | post_emergency_stop | post_liquidate => simp only [effect]; split <;> rfl
  | _ => rfl

end Console
end MtossBot

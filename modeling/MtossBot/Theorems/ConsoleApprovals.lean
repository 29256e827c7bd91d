import MtossBot.Lemmas.Console

/-!
# Approvals in the console

What the operator has decided, after any requests: an order is approved only after a look at its present conditions, and the last decision
stands.
-/

namespace MtossBot
namespace Console

/-- An order has been looked at since the last reset. -/
def Rechecked (history : List ConsoleRequest) (approval_id : String) : Prop :=
  Latched (· = .recheck_approval approval_id) (· = .post_reset) history

/-- A request decides on an order, after the requests before it: a refusal always does, an approval only once the order has been looked
at. -/
inductive Decides (approval_id : String) : List ConsoleRequest → ConsoleRequest → ApprovalStatus → Prop where
  | approve {history : List ConsoleRequest} (rechecked : Bool) :
      Rechecked history approval_id → Decides approval_id history (.decide_approval approval_id .APPROVE rechecked) .APPROVED
  | reject {history : List ConsoleRequest} (rechecked : Bool) :
      Decides approval_id history (.decide_approval approval_id .REJECT rechecked) .REJECTED

/-- An order has been decided on, and neither decided on again nor reset since. -/
def Stands (approval_id : String) (history : List ConsoleRequest) (status : ApprovalStatus) : Prop :=
  ∃ front request back, history = front ++ request :: back ∧ Decides approval_id front request status ∧ .post_reset ∉ back ∧
    ∀ mid later rest other, back = mid ++ later :: rest → ¬Decides approval_id (front ++ request :: mid) later other

namespace ConsoleApprovalsAux

variable {store : ConsoleStore} {history : List ConsoleRequest} {request : ConsoleRequest} {approval_id : String} {status : ApprovalStatus}

/-! ## Decisions -/

/-- A decision is that of its action. -/
theorem decides_iff : Decides approval_id history request status ↔
    ∃ action rechecked, request = .decide_approval approval_id action rechecked ∧ status = statusOf action ∧
      (action = .APPROVE → Rechecked history approval_id) := by
  constructor
  · rintro (⟨rechecked, hlooked⟩ | ⟨rechecked⟩)
    · exact ⟨.APPROVE, rechecked, rfl, rfl, fun _ => hlooked⟩
    · exact ⟨.REJECT, rechecked, rfl, rfl, nofun⟩
  · rintro ⟨_ | _, rechecked, rfl, rfl, hlooked⟩
    · exact .approve rechecked (hlooked rfl)
    · exact .reject rechecked

open Classical in
/-- What a request writes for an order: a decision, or that there is none. -/
noncomputable def written (approval_id : String) (history : List ConsoleRequest) (request : ConsoleRequest) : Option (Option ApprovalStatus) :=
  if request = .post_reset then some none
  else if h : ∃ status, Decides approval_id history request status then some (some h.choose)
  else none

/-- One request decides in one way. -/
theorem decides_unique {other : ApprovalStatus} (h : Decides approval_id history request status)
    (h' : Decides approval_id history request other) : status = other := by
  cases h <;> cases h' <;> rfl

/-- A reset removes every decision. -/
theorem written_reset : written approval_id history .post_reset = some none := if_pos rfl

/-- A request that decides writes its decision. -/
theorem written_decides (h : Decides approval_id history request status) : written approval_id history request = some (some status) := by
  have hreset : request ≠ .post_reset := by
    rintro rfl
    cases h
  have hex : ∃ status, Decides approval_id history request status := ⟨status, h⟩
  unfold written
  rw [if_neg hreset, dif_pos hex, decides_unique hex.choose_spec h]

/-- The other requests write nothing. -/
theorem written_eq_none_iff : written approval_id history request = none ↔
    request ≠ .post_reset ∧ ∀ status, ¬Decides approval_id history request status := by
  unfold written
  split
  · simp [*]
  · split <;> simp_all

/-- What is written was decided. -/
theorem decides_of_written (h : written approval_id history request = some (some status)) : Decides approval_id history request status := by
  unfold written at h
  split at h
  · cases h
  · split at h
    · rename_i hex
      cases h
      exact hex.choose_spec
    · cases h

/-- The decision that stands is the last one that was written. -/
theorem stands_iff : Stands approval_id history status ↔ lastWrite (written approval_id) history = some (some status) := by
  rw [lastWrite_eq_some_iff]
  constructor
  · rintro ⟨front, request, back, rfl, hdecides, hreset, hlast⟩
    refine ⟨front, request, back, rfl, written_decides hdecides, ?_⟩
    rintro mid later rest rfl
    refine written_eq_none_iff.mpr ⟨?_, fun other => hlast mid later rest other rfl⟩
    rintro rfl
    exact hreset (by simp)
  · rintro ⟨front, request, back, rfl, hwritten, hlast⟩
    refine ⟨front, request, back, rfl, decides_of_written hwritten, ?_, ?_⟩
    · intro hmem
      obtain ⟨mid, rest, hback⟩ := List.append_of_mem hmem
      exact (written_eq_none_iff.mp (hlast mid _ rest hback)).1 rfl
    · intro mid later rest other hback
      exact (written_eq_none_iff.mp (hlast mid later rest hback)).2 other

/-! ## The store -/

/-- The store knows the looks, the decisions and their reasons, for the orders that there are. -/
structure Kept (history : List ConsoleRequest) (store : ConsoleStore) : Prop where
  rechecked : ∀ approval_id, approval_id ∈ store.approval_rechecked ↔
    (find_approval approval_id).isSome ∧ Rechecked history approval_id
  decided : ∀ approval_id, store.approval_decisions.get? approval_id =
    if (find_approval approval_id).isSome then (lastWrite (written approval_id) history).getD none else none
  reasoned : ∀ approval_id, store.approval_reasons.get? approval_id = (store.approval_decisions.get? approval_id).map reasonOf

/-- Before the first request nothing is kept. -/
theorem kept_start : Kept [] {} where
  rechecked approval_id := by simp [Rechecked, not_latched_nil]
  decided approval_id := by simp
  reasoned approval_id := rfl

/-- A request that is no look, no decision and no reset leaves it all as it was. -/
theorem Kept.frame (h : Kept history store) {store' : ConsoleStore} (hlook : ∀ approval_id, request ≠ .recheck_approval approval_id)
    (hdecide : ∀ approval_id action rechecked, request ≠ .decide_approval approval_id action rechecked) (hreset : request ≠ .post_reset)
    (hrechecked : store'.approval_rechecked = store.approval_rechecked)
    (hdecisions : store'.approval_decisions = store.approval_decisions) (hreasons : store'.approval_reasons = store.approval_reasons) :
    Kept (history ++ [request]) store' where
  rechecked approval_id := by
    rw [hrechecked, h.rechecked, Rechecked, Rechecked, latched_append]
    simp [hlook, hreset]
  decided approval_id := by
    have hnone : written approval_id history request = none := written_eq_none_iff.mpr ⟨hreset, fun status hd => by
      obtain ⟨action, rechecked, heq, -⟩ := decides_iff.mp hd
      exact hdecide _ _ _ heq⟩
    rw [hdecisions, h.decided, lastWrite_append_none hnone]
  reasoned approval_id := by rw [hdecisions, hreasons, h.reasoned]

/-- A look is remembered if there is the order. -/
theorem Kept.recheck (h : Kept history store) (seen : String) :
    Kept (history ++ [.recheck_approval seen]) (effect store (.recheck_approval seen)) := by
  have hnone : ∀ approval_id, written approval_id history (.recheck_approval seen) = none := fun approval_id =>
    written_eq_none_iff.mpr ⟨nofun, fun _ hd => nomatch hd⟩
  have hdecided : ∀ approval_id, store.approval_decisions.get? approval_id = if (find_approval approval_id).isSome then
      (lastWrite (written approval_id) (history ++ [.recheck_approval seen])).getD none else none := fun approval_id => by
    rw [lastWrite_append_none (hnone approval_id), h.decided]
  show Kept _ (if (find_approval seen).isSome then { store with approval_rechecked := insert seen store.approval_rechecked } else store)
  by_cases hknown : (find_approval seen).isSome
  · rw [if_pos hknown]
    refine ⟨fun approval_id => ?_, hdecided, h.reasoned⟩
    show approval_id ∈ insert seen store.approval_rechecked ↔ _
    rw [Rechecked, latched_append, Finset.mem_insert, h.rechecked]
    constructor
    · rintro (rfl | ⟨hid, hlooked⟩)
      · exact ⟨hknown, .inl rfl⟩
      · exact ⟨hid, .inr ⟨nofun, hlooked⟩⟩
    · rintro ⟨hid, heq | ⟨-, hlooked⟩⟩
      · cases heq
        exact .inl rfl
      · exact .inr ⟨hid, hlooked⟩
  · rw [if_neg hknown]
    refine ⟨fun approval_id => ?_, hdecided, h.reasoned⟩
    rw [Rechecked, latched_append, h.rechecked]
    constructor
    · rintro ⟨hid, hlooked⟩
      exact ⟨hid, .inr ⟨nofun, hlooked⟩⟩
    · rintro ⟨hid, heq | ⟨-, hlooked⟩⟩
      · cases heq
        exact absurd hid hknown
      · exact ⟨hid, hlooked⟩

/-- A decision keeps the store in step with the history. -/
theorem Kept.decide (h : Kept history store) (decided : String) (action : DecisionAction) (rechecked : Bool) :
    Kept (history ++ [.decide_approval decided action rechecked]) (effect store (.decide_approval decided action rechecked)) := by
  have hallowed : ((find_approval decided).isSome ∧ (action = .APPROVE → decided ∈ store.approval_rechecked)) ↔
      (find_approval decided).isSome ∧ (action = .APPROVE → Rechecked history decided) := by
    constructor
    · rintro ⟨hknown, hlooked⟩
      exact ⟨hknown, fun happrove => ((h.rechecked _).mp (hlooked happrove)).2⟩
    · rintro ⟨hknown, hlooked⟩
      exact ⟨hknown, fun happrove => (h.rechecked _).mpr ⟨hknown, hlooked happrove⟩⟩
  show Kept _ (if (find_approval decided).isSome ∧ (action = .APPROVE → decided ∈ store.approval_rechecked) then _ else store)
  have hlooks : ∀ approval_id, Rechecked (history ++ [.decide_approval decided action rechecked]) approval_id ↔
      Rechecked history approval_id := fun approval_id => by rw [Rechecked, Rechecked, latched_append]; simp
  by_cases hdecides : (find_approval decided).isSome ∧ (action = .APPROVE → Rechecked history decided)
  · rw [if_pos (hallowed.mpr hdecides)]
    have hwritten : written decided history (.decide_approval decided action rechecked) = some (some (statusOf action)) :=
      written_decides (decides_iff.mpr ⟨action, rechecked, rfl, rfl, hdecides.2⟩)
    constructor
    · intro approval_id
      rw [hlooks]
      exact h.rechecked approval_id
    · intro approval_id
      show (store.approval_decisions.set _ _).get? _ = _
      rw [Dict.get?_set]
      by_cases heq : approval_id = decided
      · rw [if_pos heq, heq, lastWrite_append_some hwritten, if_pos hdecides.1, Option.getD_some]
      · have hnone : written approval_id history (.decide_approval decided action rechecked) = none :=
          written_eq_none_iff.mpr ⟨nofun, fun _ hd => by cases hd <;> exact heq rfl⟩
        rw [if_neg heq, lastWrite_append_none hnone, h.decided]
    · intro approval_id
      show (store.approval_reasons.set _ _).get? _ = ((store.approval_decisions.set _ _).get? _).map _
      rw [Dict.get?_set, Dict.get?_set]
      by_cases heq : approval_id = decided
      · rw [if_pos heq, if_pos heq, Option.map_some]
      · rw [if_neg heq, if_neg heq, h.reasoned]
  · rw [if_neg fun hyes => hdecides (hallowed.mp hyes)]
    refine ⟨fun approval_id => by rw [hlooks]; exact h.rechecked approval_id, fun approval_id => ?_, h.reasoned⟩
    rw [h.decided]
    by_cases hknown : (find_approval approval_id).isSome
    · have hnone : written approval_id history (.decide_approval decided action rechecked) = none := by
        refine written_eq_none_iff.mpr ⟨nofun, fun status hd => ?_⟩
        obtain ⟨action', rechecked', heq, -, hlooked⟩ := decides_iff.mp hd
        cases heq
        exact hdecides ⟨hknown, hlooked⟩
      rw [lastWrite_append_none hnone]
    · rw [if_neg hknown, if_neg hknown]

/-- So does a reset. -/
theorem Kept.reset : Kept (history ++ [.post_reset]) {} where
  rechecked approval_id := by
    rw [Rechecked, latched_append]
    simp
  decided approval_id := by
    rw [lastWrite_append_some written_reset]
    simp
  reasoned approval_id := rfl

/-- So does every request. -/
theorem Kept.effect (h : Kept history store) (request : ConsoleRequest) : Kept (history ++ [request]) (effect store request) := by
  cases request with
  | recheck_approval seen => exact h.recheck seen
  | decide_approval decided action rechecked => exact h.decide decided action rechecked
  | post_reset => exact Kept.reset
  | recheck_broker order_id => unfold Console.effect; dsimp only; split <;> exact h.frame nofun nofun nofun rfl rfl rfl
  | post_emergency_stop reauthenticated =>
    unfold Console.effect; dsimp only; split <;> exact h.frame nofun nofun nofun rfl rfl rfl
  | post_liquidate phrase reauthenticated =>
    unfold Console.effect; dsimp only; split <;> exact h.frame nofun nofun nofun rfl rfl rfl
  | update_risk_rule rule_id limit reauthenticated =>
    rw [effect_update_risk_rule]
    exact h.frame nofun nofun nofun rfl rfl rfl
  | _ => exact h.frame nofun nofun nofun rfl rfl rfl

/-- The store of a session is in step with what was accepted. -/
theorem kept {internal_api_key : String} {log : List Arrival} (h : Served internal_api_key log store) :
    Kept (accepted internal_api_key log) store :=
  ServedFrom.rule kept_start (fun _ _ _ request hkept => handle_store request ▸ hkept.effect request) h

/-! ## The screen -/

/-- A decision is stored just when it stands. -/
theorem stands_decided (hkept : Kept history store) :
    store.approval_decisions.get? approval_id = some status ↔ (find_approval approval_id).isSome ∧ Stands approval_id history status := by
  rw [hkept.decided, stands_iff]
  cases lastWrite (written approval_id) history <;> simp

/-- The decision that stands is shown, and what has none waits. -/
theorem status_iff (hkept : Kept history store) (hknown : (find_approval approval_id).isSome) :
    (store.approval_decisions.get? approval_id).getD .PENDING = status ↔
      Stands approval_id history status ∨ status = .PENDING ∧ ∀ other, ¬Stands approval_id history other := by
  have hiff : ∀ other, store.approval_decisions.get? approval_id = some other ↔ Stands approval_id history other := fun other => by
    rw [stands_decided hkept, and_iff_right hknown]
  cases hget : store.approval_decisions.get? approval_id with
  | none =>
    have hno : ∀ other, ¬Stands approval_id history other := fun other hstands => by
      rw [← hiff, hget] at hstands
      cases hstands
    rw [Option.getD_none]
    exact ⟨fun heq => .inr ⟨heq.symm, hno⟩, fun h => (h.resolve_left (hno status)).1.symm⟩
  | some decided =>
    have hstands : Stands approval_id history decided := (hiff _).mp hget
    rw [Option.getD_some]
    constructor
    · rintro rfl
      exact .inl hstands
    · rintro (hother | ⟨-, hno⟩)
      · rw [← hiff, hget] at hother
        exact Option.some.inj hother
      · exact absurd hstands (hno decided)

/-- The fixed prices and quantities are short. -/
theorem short_prices : (∀ raw ∈ _APPROVAL_BASE, Short raw.quantity ∧ Short raw.current_price ∧ Short raw.signal_price) ∧
    Short MOVED_PRICE := by
  decide

/-- The amounts of an approval have few digits. -/
theorem short_summary {raw : ApprovalBase} {row : ApprovalSummary} (hraw : raw ∈ _APPROVAL_BASE) (h : _approval_summary raw store = .ok row) :
    ∀ d ∈ [row.quantity, row.notional, row.current_price, row.signal_price], Short d := by
  obtain ⟨hquantity, hprice, hsignal⟩ := short_prices.1 raw hraw
  unfold _approval_summary at h
  obtain ⟨total, htotal, h⟩ := except_bind_eq_ok h
  cases h
  have hcurrent : Short (if raw.approval_id ∈ store.approval_rechecked ∧ raw.approval_id = "apv-13f-brkb" then MOVED_PRICE
      else raw.current_price) := by
    split
    · exact short_prices.2
    · exact hprice
  have hnotional : Short total := short_of_quantized htotal (by decide) (by decide)
  simp only [List.forall_mem_cons, List.not_mem_nil, false_implies, implies_true, and_true]
  exact ⟨hquantity, hnotional, hcurrent, hsignal⟩

/-- The fixed approvals are found. -/
theorem known_of_mem : ∀ raw ∈ _APPROVAL_BASE, (find_approval raw.approval_id).isSome := by decide

/-- The four simulated states without approvals: two list none, two are failures. -/
theorem approvals_simulated (memory : Memory) (store : ConsoleStore) (state : Option String) :
    (normalise_state state ∈ [.empty, .loading] → (list_approvals store state).sent memory = .ok (.approvals [])) ∧
      (normalise_state state = .forbidden → ∃ code message, (list_approvals store state).sent memory = .http_exception 403 code message) ∧
      (normalise_state state = .server_error →
        ∃ code message, (list_approvals store state).sent memory = .http_exception 503 code message) := by
  unfold list_approvals
  refine ⟨fun hstate => ?_, fun hstate => ?_, fun hstate => ?_⟩
  · simp only [List.mem_cons, List.not_mem_nil, or_false] at hstate
    rcases hstate with hstate | hstate <;> rw [hstate] <;> rfl
  · rw [hstate]
    exact ⟨_, _, rfl⟩
  · rw [hstate]
    exact ⟨_, _, rfl⟩

end ConsoleApprovalsAux

open ConsoleApprovalsAux

/-- After any requests the decision on an order is the last one that counts, with its reason, and the screen shows it: an order is
approved only if it has been looked at, no reset came between the look and the approval, and neither a refusal nor a reset came after. Of
the simulated states two list nothing, and two are answered as failures. -/
theorem approvals_stand (memory : Memory) {internal_api_key : String} {log : List Arrival} {store : ConsoleStore}
    (h : Served internal_api_key log store) :
    (∀ approval_id status, store.approval_decisions.get? approval_id = some status ↔
      (find_approval approval_id).isSome ∧ Stands approval_id (accepted internal_api_key log) status) ∧
    (∀ approval_id, store.approval_reasons.get? approval_id = (store.approval_decisions.get? approval_id).map reasonOf) ∧
    (∀ state, normalise_state state ∉ [.empty, .loading, .forbidden, .server_error] →
      ∃ rows, (list_approvals store state).sent memory = .ok (.approvals rows) ∧
        (rows.map ApprovalSummary.approval_id).Perm (_APPROVAL_BASE.map ApprovalBase.approval_id) ∧
        ∀ row ∈ rows, ∀ status, row.status = status ↔ Stands row.approval_id (accepted internal_api_key log) status ∨
          status = .PENDING ∧ ∀ other, ¬Stands row.approval_id (accepted internal_api_key log) other) ∧
    ∀ state, (normalise_state state ∈ [.empty, .loading] → (list_approvals store state).sent memory = .ok (.approvals [])) ∧
      (normalise_state state = .forbidden → ∃ code message, (list_approvals store state).sent memory = .http_exception 403 code message) ∧
      (normalise_state state = .server_error →
        ∃ code message, (list_approvals store state).sent memory = .http_exception 503 code message) := by
  have hkept := kept h
  refine ⟨fun approval_id status => stands_decided hkept, hkept.reasoned, fun state hstate => ?_, approvals_simulated memory store⟩
  obtain ⟨rows, hrows⟩ := exists_rows fun raw hraw => (summary_ok store hraw).imp fun _ hrow => hrow.1
  obtain ⟨sorted, hbuilt, hsorted⟩ : ∃ sorted, build_approvals store (normalise_state state) = .ok sorted ∧ sorted.Perm rows := by
    unfold build_approvals
    rw [if_neg fun hno => hstate (by rcases hno with hno | hno <;> simp [hno]), hrows]
    exact ⟨_, rfl, List.mergeSort_perm _ _⟩
  have hread : ∀ raw ∈ _APPROVAL_BASE, ∀ row, _approval_summary raw store = .ok row → row.approval_id = raw.approval_id ∧
      row.status = (store.approval_decisions.get? raw.approval_id).getD .PENDING := fun raw hraw row hrow => by
    obtain ⟨row', hrow', hshown⟩ := summary_ok store hraw
    rw [hrow] at hrow'
    cases hrow'
    exact hshown
  have hids := map_rows hrows fun raw hraw row hrow => (hread raw hraw row hrow).1
  refine ⟨sorted, ?_, (hsorted.map _).trans (.of_eq hids), fun row hrow status => ?_⟩
  · refine sent_eq_ok.mpr ⟨?_, ?_⟩
    · unfold list_approvals
      rw [hbuilt]
      generalize normalise_state state = resolved at hstate
      cases resolved <;> first | rfl | simp at hstate
    · intro d hd
      obtain ⟨row, hrow, hd⟩ := List.mem_flatMap.mp hd
      obtain ⟨raw, hraw, hsummary⟩ := fixture_of_row hrows (hsorted.mem_iff.mp hrow)
      exact (short_summary hraw hsummary d hd).fits memory
  · obtain ⟨raw, hraw, hrow⟩ := fixture_of_row hrows (hsorted.mem_iff.mp hrow)
    obtain ⟨hid, hstatus⟩ := hread raw hraw row hrow
    rw [hstatus, hid]
    exact status_iff hkept (known_of_mem raw hraw)

/-- An order that has been looked at and approved, and the key that is needed for both. -/
theorem approvals_stand_looked : Stands "apv-ext-msft" [.recheck_approval "apv-ext-msft", .decide_approval "apv-ext-msft" .APPROVE true]
    .APPROVED :=
  have hserved := (((@ServedFrom.start "key" {}).step ⟨0⟩ ⟨some " key ", .recheck_approval "apv-ext-msft"⟩).step ⟨0⟩ ⟨none, .post_reset⟩).step ⟨0⟩
    ⟨some "key", .decide_approval "apv-ext-msft" .APPROVE true⟩
  (((approvals_stand ⟨2 ^ 32, by decide, by decide⟩ hserved).1 "apv-ext-msft" .APPROVED).mp (by decide +kernel)).2

end Console
end MtossBot

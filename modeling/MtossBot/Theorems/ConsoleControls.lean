import MtossBot.Lemmas.Console

/-!
# Controls of the console

What the switches of the console are after any requests, and what every screen shows of them: which accounts take orders, which nodes trade,
whether a stop or a liquidation is on.
-/

namespace MtossBot
namespace Console

/-- A reauthenticated stop of everything that was neither lifted nor reset. -/
def Emergency (history : List ConsoleRequest) : Prop :=
  Latched (· = .post_emergency_stop true) (fun request => request = .post_resume ∨ request = .post_reset) history

/-- A liquidation with the phrase and reauthentication; only a reset ends it. -/
def Liquidating (history : List ConsoleRequest) : Prop :=
  Latched (fun request => ∃ phrase, request = .post_liquidate phrase true ∧ Confirmed phrase) (· = .post_reset) history

/-- An account that was stopped on its own. -/
def Stopped (account_id : String) (history : List ConsoleRequest) : Prop :=
  Latched (· = .stop_account account_id) (fun request => request = .resume_account account_id ∨ request = .post_reset) history

/-- A node that was resumed. -/
def Resumed (node_id : String) (history : List ConsoleRequest) : Prop :=
  Latched (· = .resume_node node_id) (· = .post_reset) history

namespace ConsoleControlsAux

variable {store : ConsoleStore} {history : List ConsoleRequest}

/-! ## One request -/

/-- The stop is on after a request that sets it, or if it was on and the request does not lift it. -/
theorem effect_emergency_stop (request : ConsoleRequest) : (effect store request).emergency_stop = true ↔
    request = .post_emergency_stop true ∨ ¬(request = .post_resume ∨ request = .post_reset) ∧ store.emergency_stop = true := by
  cases request with
  | post_emergency_stop reauthenticated => cases reauthenticated <;> simp [effect]
  | recheck_approval | decide_approval | recheck_broker | post_liquidate => simp only [effect]; split <;> simp [ConsoleStore.record]
  | _ => simp [effect]

/-- The time and the progress go with the stop. -/
theorem effect_progress (h : store.emergency_stopped_at = (if store.emergency_stop then some AS_OF else none) ∧
      store.cancel_progress_done = if store.emergency_stop then 4 else 0) (request : ConsoleRequest) :
    (effect store request).emergency_stopped_at = (if (effect store request).emergency_stop then some AS_OF else none) ∧
      (effect store request).cancel_progress_done = if (effect store request).emergency_stop then 4 else 0 := by
  cases request with
  | post_emergency_stop reauthenticated =>
    cases reauthenticated
    · exact h
    · exact ⟨rfl, rfl⟩
  | recheck_approval | decide_approval | recheck_broker | post_liquidate => simp only [effect]; split <;> exact h
  | post_resume => exact ⟨rfl, rfl⟩
  | post_reset => exact ⟨rfl, rfl⟩
  | update_risk_rule rule_id limit reauthenticated =>
    rw [effect_update_risk_rule]
    exact h
  | _ => exact h

/-- The liquidation runs after a confirmed request, or if it ran and nothing is reset. -/
theorem effect_liquidation_running (request : ConsoleRequest) : (effect store request).liquidation_running = true ↔
    (∃ phrase, request = .post_liquidate phrase true ∧ Confirmed phrase) ∨ ¬request = .post_reset ∧ store.liquidation_running = true := by
  cases request with
  | post_liquidate phrase reauthenticated =>
    simp only [effect]
    by_cases hconfirmed : Confirmed phrase ∧ reauthenticated = true
    · simp [hconfirmed]
    · simp only [if_neg hconfirmed, ConsoleRequest.post_liquidate.injEq, reduceCtorEq, not_false_eq_true, true_and]
      refine ⟨.inr, fun h => h.resolve_left ?_⟩
      rintro ⟨_, ⟨rfl, rfl⟩, hphrase⟩
      exact hconfirmed ⟨hphrase, rfl⟩
  | recheck_approval | decide_approval | recheck_broker | post_emergency_stop => simp only [effect]; split <;> simp [ConsoleStore.record]
  | _ => simp [effect]

/-- An account is stopped after a request that stops it, or if it was and the request does not resume it. -/
theorem effect_stopped_accounts (request : ConsoleRequest) (account_id : String) : account_id ∈ (effect store request).stopped_accounts ↔
    request = .stop_account account_id ∨
      ¬(request = .resume_account account_id ∨ request = .post_reset) ∧ account_id ∈ store.stopped_accounts := by
  cases request with
  | stop_account stopped => simp [effect, eq_comm]
  | resume_account resumed => simp [effect, eq_comm]
  | recheck_approval | decide_approval | recheck_broker | post_emergency_stop | post_liquidate =>
    simp only [effect]; split <;> simp [ConsoleStore.record]
  | _ => simp [effect]

/-- A node is resumed after a request that resumes it, or if it was and nothing is reset. -/
theorem effect_resumed_nodes (request : ConsoleRequest) (node_id : String) : node_id ∈ (effect store request).resumed_nodes ↔
    request = .resume_node node_id ∨ ¬request = .post_reset ∧ node_id ∈ store.resumed_nodes := by
  cases request with
  | resume_node resumed => simp [effect, eq_comm]
  | recheck_approval | decide_approval | recheck_broker | post_emergency_stop | post_liquidate =>
    simp only [effect]; split <;> simp [ConsoleStore.record]
  | _ => simp [effect]

/-! ## Any requests -/

/-- The store has the switches as they were last set. -/
structure Switched (history : List ConsoleRequest) (store : ConsoleStore) : Prop where
  emergency : store.emergency_stop = true ↔ Emergency history
  progress : store.emergency_stopped_at = (if store.emergency_stop then some AS_OF else none) ∧
    store.cancel_progress_done = if store.emergency_stop then 4 else 0
  liquidating : store.liquidation_running = true ↔ Liquidating history
  stopped : ∀ account_id, account_id ∈ store.stopped_accounts ↔ Stopped account_id history
  resumed : ∀ node_id, node_id ∈ store.resumed_nodes ↔ Resumed node_id history

/-- Before the first request nothing is switched. -/
theorem switched_start : Switched [] {} where
  emergency := iff_of_false Bool.false_ne_true not_latched_nil
  progress := ⟨rfl, rfl⟩
  liquidating := iff_of_false Bool.false_ne_true not_latched_nil
  stopped _ := iff_of_false (Finset.notMem_empty _) not_latched_nil
  resumed _ := iff_of_false (Finset.notMem_empty _) not_latched_nil

/-- Every request keeps the switches in step with the history. -/
theorem Switched.effect (h : Switched history store) (request : ConsoleRequest) :
    Switched (history ++ [request]) (effect store request) where
  emergency := by rw [effect_emergency_stop, h.emergency, Emergency, Emergency, latched_append]
  progress := effect_progress h.progress request
  liquidating := by rw [effect_liquidation_running, h.liquidating, Liquidating, Liquidating, latched_append]
  stopped account_id := by rw [effect_stopped_accounts, h.stopped, Stopped, Stopped, latched_append]
  resumed node_id := by rw [effect_resumed_nodes, h.resumed, Resumed, Resumed, latched_append]

/-- The switches of a session are in step with what was accepted. -/
theorem switched {internal_api_key : String} {log : List Arrival} (h : Served internal_api_key log store) :
    Switched (accepted internal_api_key log) store :=
  ServedFrom.rule switched_start (fun _ _ _ request hswitched => handle_store request ▸ hswitched.effect request) h

/-! ## The screens -/

/-- Whether the orders of an account are stopped, and for what. -/
theorem account_stopped_iff (hswitched : Switched history store) (state : ScreenState) (base : AccountBase) :
    (account_status store state base).2 = true ↔ Emergency history ∨ Stopped base.account_id history ∨
      state = .toss_auth_expired ∧ base.broker = .TOSS ∨ state = .mt5_offline ∧ base.broker = .MT5 := by
  have hstopped : (decide (base.account_id ∈ store.stopped_accounts) || store.emergency_stop) = true ↔
      Emergency history ∨ Stopped base.account_id history := by
    rw [Bool.or_eq_true, decide_eq_true_eq, hswitched.stopped, hswitched.emergency, or_comm]
  unfold account_status
  dsimp only
  by_cases hauth : state = .toss_auth_expired ∧ base.broker = .TOSS
  · simp [hauth]
  · rw [if_neg hauth]
    by_cases hoffline : state = .mt5_offline ∧ base.broker = .MT5
    · simp [hoffline]
    · rw [if_neg hoffline]
      simp only [hauth, hoffline, or_false]
      split
      · exact hstopped
      · split
        · exact hstopped
        · split <;> exact hstopped

/-- Whether its status says so. -/
theorem account_level_iff (hswitched : Switched history store) (state : ScreenState) (base : AccountBase) :
    (account_status store state base).1.level ∈ [HealthLevel.STOPPED, .ACTION_REQUIRED] ↔
      state = .toss_auth_expired ∧ base.broker = .TOSS ∨ state = .mt5_offline ∧ base.broker = .MT5 ∨
        state ≠ .market_data_stale ∧ (Emergency history ∨ Stopped base.account_id history ∨ state = .emergency_stop) := by
  rw [← hswitched.emergency, ← hswitched.stopped]
  unfold account_status
  dsimp only
  by_cases hauth : state = .toss_auth_expired ∧ base.broker = .TOSS
  · rw [if_pos hauth]
    simp [hauth, EXPIRED_AUTH, _status]
  · rw [if_neg hauth]
    by_cases hoffline : state = .mt5_offline ∧ base.broker = .MT5
    · rw [if_pos hoffline]
      simp [hoffline, _status]
    · rw [if_neg hoffline]
      simp only [hauth, hoffline, false_or]
      by_cases hstale : state = .market_data_stale
      · simp [hstale, _status]
      · rw [if_neg hstale]
        simp only [hstale, ne_eq, not_false_eq_true, true_and]
        by_cases hall : store.emergency_stop = true ∨ state = .emergency_stop
        · rw [if_pos hall]
          simp only [_status, List.mem_cons, true_or, true_iff]
          tauto
        · rw [if_neg hall]
          have hoff : store.emergency_stop = false := by simpa using fun h => hall (.inl h)
          have hreal : state ≠ .emergency_stop := fun h => hall (.inr h)
          by_cases hown : base.account_id ∈ store.stopped_accounts <;> simp [hown, hoff, hreal, _status, OK]

/-- The node of the second desk never trades. -/
theorem node_running_iff (hswitched : Switched history store) (state : ScreenState) {node : NodeHealth} (hnode : node ∈ build_nodes store state) :
    node.auto_trading = .RUNNING ↔ node.node_id = "node-seoul-01" ∧ ¬Emergency history ∧ state ≠ .emergency_stop ∧
      (state = .mt5_offline → Resumed node.node_id history) := by
  rw [← hswitched.emergency, ← hswitched.resumed]
  unfold build_nodes at hnode
  rcases List.mem_cons.mp hnode with rfl | hnode
  · dsimp only
    by_cases hall : store.emergency_stop = true ∨ state = .emergency_stop
    · rw [if_pos hall]
      refine iff_of_false nofun ?_
      rintro ⟨-, hoff, hreal, -⟩
      exact hall.elim hoff hreal
    · rw [if_neg hall]
      obtain ⟨hoff, hreal⟩ := not_or.mp hall
      by_cases hoffline : state = .mt5_offline
      · by_cases hresumed : "node-seoul-01" ∈ store.resumed_nodes <;> simp [hoff, hoffline, hresumed]
      · simp [hoff, hreal, hoffline]
  · cases List.mem_singleton.mp hnode
    simp

/-- The accounts on the screen are the fixed ones, with the status that the store gives them. -/
theorem mem_accounts {state : ScreenState} {account : AccountSummary} (haccount : account ∈ build_accounts store state) :
    ∃ base ∈ _ACCOUNT_BASE, account.account_id = base.account_id ∧ account.broker = base.broker ∧
      account.status = (account_status store state base).1 ∧ account.order_stopped = (account_status store state base).2 := by
  obtain ⟨base, hbase, rfl⟩ := List.mem_map.mp haccount
  exact ⟨base, hbase, rfl, rfl, rfl, rfl⟩

/-- The accounts that the connections show are those of Toss. -/
theorem toss_of_id : ∀ base ∈ _ACCOUNT_BASE, base.account_id = ACCOUNT_KR ∨ base.account_id = ACCOUNT_US → base.broker = .TOSS := by decide

/-- A connection is shown as stopped just when its account is, or its login has expired. -/
theorem connection_stopped_iff (hswitched : Switched history store) {state : ScreenState} {row : TossAccountRow}
    (hrow : row ∈ (build_connections store state).toss_accounts) :
    (row.account_id = ACCOUNT_KR ∨ row.account_id = ACCOUNT_US) ∧
      (row.order_stopped = true ↔ Stopped row.account_id history ∨ state = .toss_auth_expired) := by
  unfold build_connections at hrow
  split at hrow
  · cases hrow
  · have hshown : ∀ name market account_id, (toss_account store (state = .toss_auth_expired) account_id name market).order_stopped = true ↔
        Stopped account_id history ∨ state = .toss_auth_expired := fun name market account_id => by
      show (decide (account_id ∈ store.stopped_accounts) || decide (state = .toss_auth_expired)) = true ↔ _
      rw [Bool.or_eq_true, decide_eq_true_eq, decide_eq_true_eq, hswitched.stopped]
    rcases List.mem_cons.mp hrow with rfl | hrow
    · exact ⟨.inl rfl, hshown _ _ _⟩
    · cases List.mem_singleton.mp hrow
      exact ⟨.inr rfl, hshown _ _ _⟩

end ConsoleControlsAux

open ConsoleControlsAux

/-- After any requests, and whatever state a screen is asked to simulate: the controls show a stop exactly when it was not lifted (or is
simulated), with its time and all cancellations done, and a liquidation exactly when it was confirmed with reauthentication; an account takes
orders unless everything was stopped, or it was, or its connection is gone; and a node trades only while nothing is stopped, and offline only
once it was resumed. -/
theorem controls_follow {internal_api_key : String} {log : List Arrival} {store : ConsoleStore} (h : Served internal_api_key log store)
    (state : ScreenState) :
    ((build_controls store state).emergency_stop = true ↔ Emergency (accepted internal_api_key log) ∨ state = .emergency_stop) ∧
    (build_controls store state).stopped_at = (if (build_controls store state).emergency_stop then some AS_OF else none) ∧
    (build_controls store state).cancel_progress_done =
      (if (build_controls store state).emergency_stop then (build_controls store state).cancel_progress_total else 0) ∧
    ((build_controls store state).liquidation_running = true ↔ Liquidating (accepted internal_api_key log)) ∧
    (∀ account ∈ build_accounts store state, account.order_stopped = true ↔
      Emergency (accepted internal_api_key log) ∨ Stopped account.account_id (accepted internal_api_key log) ∨
        state = .toss_auth_expired ∧ account.broker = .TOSS ∨ state = .mt5_offline ∧ account.broker = .MT5) ∧
    ∀ node ∈ build_nodes store state, node.auto_trading = .RUNNING ↔ node.node_id = "node-seoul-01" ∧
      ¬Emergency (accepted internal_api_key log) ∧ state ≠ .emergency_stop ∧
        (state = .mt5_offline → Resumed node.node_id (accepted internal_api_key log)) := by
  have hswitched := switched h
  obtain ⟨hstopped_at, hprogress⟩ := hswitched.progress
  refine ⟨?_, ?_, ?_, hswitched.liquidating, ?_, ?_⟩
  · show (store.emergency_stop || decide (state = .emergency_stop)) = true ↔ _
    rw [Bool.or_eq_true, decide_eq_true_eq, hswitched.emergency]
  · unfold build_controls
    dsimp only
    rw [hstopped_at]
    by_cases hstop : store.emergency_stop = true
    · simp [hstop, AS_OF]
    · simp [hstop]
  · unfold build_controls
    dsimp only
    rw [hprogress]
    by_cases hstop : store.emergency_stop = true
    · simp [hstop]
    · simp [hstop]
  · intro account haccount
    obtain ⟨base, -, hid, hbroker, -, hstopped⟩ := mem_accounts haccount
    rw [hid, hbroker, hstopped]
    exact account_stopped_iff hswitched state base
  · intro node hnode
    exact node_running_iff hswitched state hnode

/-- A stop that was asked for twice, the second time with reauthentication. -/
theorem controls_follow_reauthenticated : Emergency [.post_emergency_stop false, .post_emergency_stop true] :=
  have hserved := ((@ServedFrom.start "key" {}).step ⟨0⟩ ⟨some "key", .post_emergency_stop false⟩).step ⟨0⟩ ⟨some " key", .post_emergency_stop true⟩
  ((controls_follow hserved .normal).1.mp (by decide)).resolve_right nofun

/-- The screens agree but in these cases. That orders of an account are stopped is not seen in its status while its quotes are stale, and
a simulated stop is seen there although its orders go through; and the connections do not show a stop of everything as one of their
accounts. -/
theorem screens_agree_iff {internal_api_key : String} {log : List Arrival} {store : ConsoleStore} (h : Served internal_api_key log store)
    (state : ScreenState) (account : AccountSummary) (haccount : account ∈ build_accounts store state) :
    ((account.status.level ∈ [HealthLevel.STOPPED, .ACTION_REQUIRED] ↔ account.order_stopped = true) ↔
      ¬(state = .market_data_stale ∧
          (Emergency (accepted internal_api_key log) ∨ Stopped account.account_id (accepted internal_api_key log))) ∧
        ¬(state = .emergency_stop ∧ ¬Emergency (accepted internal_api_key log) ∧
          ¬Stopped account.account_id (accepted internal_api_key log))) ∧
    ∀ row ∈ (build_connections store state).toss_accounts, row.account_id = account.account_id →
      (row.order_stopped = account.order_stopped ↔
        ¬Emergency (accepted internal_api_key log) ∨ Stopped account.account_id (accepted internal_api_key log) ∨
          state = .toss_auth_expired) := by
  have hswitched := switched h
  obtain ⟨base, hbase, hid, -, hstatus, hstopped⟩ := mem_accounts haccount
  have hlevel := account_level_iff hswitched state base
  have horders := account_stopped_iff hswitched state base
  rw [hstatus, hstopped, hid]
  refine ⟨?_, fun row hrow hrowid => ?_⟩
  · rw [hlevel, horders]
    by_cases hstale : state = .market_data_stale
    · subst hstale
      simp
    · by_cases hsimulated : state = .emergency_stop
      · subst hsimulated
        simp
        grind
      · simp only [hstale, hsimulated, ne_eq, not_false_eq_true, true_and, or_false, false_and, not_false_eq_true, and_self, iff_true]
        grind
  · obtain ⟨htoss, hrowstopped⟩ := connection_stopped_iff hswitched hrow
    rw [hrowid] at htoss hrowstopped
    have hbroker : base.broker = .TOSS := toss_of_id base hbase htoss
    rw [Bool.eq_iff_iff, hrowstopped, horders, hbroker]
    simp only [reduceCtorEq, and_true, and_false, or_false]
    grind

/-- While everything is stopped the connections show an account that takes orders. -/
theorem screens_agree_iff_stopped : ∃ store : ConsoleStore, ∃ account ∈ build_accounts store .normal,
    ∃ row ∈ (build_connections store .normal).toss_accounts, row.account_id = account.account_id ∧ row.order_stopped ≠ account.order_stopped :=
  have hserved := (@ServedFrom.start "key" {}).step ⟨0⟩ ⟨some "key", .post_emergency_stop true⟩
  have hagree := (screens_agree_iff hserved .normal _ List.mem_cons_self).2 _ List.mem_cons_self rfl
  have hnone : ¬(¬Emergency [.post_emergency_stop true] ∨ Stopped ACCOUNT_KR [.post_emergency_stop true] ∨
      ScreenState.normal = .toss_auth_expired) := by
    rintro (hno | ⟨_, _, _, heq, rfl, -⟩ | heq)
    · exact hno ⟨[], _, [], rfl, rfl, by simp⟩
    · have hmem : ConsoleRequest.stop_account ACCOUNT_KR ∈ [ConsoleRequest.post_emergency_stop true] := heq ▸ by simp
      simp at hmem
    · cases heq
  ⟨_, _, List.mem_cons_self, _, List.mem_cons_self, rfl, fun heq => hnone (hagree.mp heq)⟩

end Console
end MtossBot

import MtossBot.Api.Console.Fixtures

/-!
# The console API

The routes of `routes/console.py` that show or change the store, behind `require_internal_key`. A refusal (`HTTPException`) is a reply with
its code and message; whatever else is raised is a reply of the server that something went wrong, and changes nothing but what was stored
before. A body is serialised once its route has returned (`sent`), and a failure of that changes nothing either. The screens that only show
fixtures are left out.
-/

namespace MtossBot
namespace Console

/-- The action of a decision. -/
inductive DecisionAction where
  | APPROVE
  | REJECT
deriving DecidableEq, Repr

/-- The requests; those that only read come first. -/
inductive ConsoleRequest where
  | get_session (state role : Option String)
  | list_approvals (state : Option String)
  | get_risk_rules (state : Option String)
  | get_connections (state : Option String)
  | get_controls (state : Option String)
  | toggle_strategy (strategy_id : String)
  | toggle_copy_source (source_id : String)
  | recheck_approval (approval_id : String)
  | decide_approval (approval_id : String) (action : DecisionAction) (rechecked : Bool)
  | recheck_broker (order_id : String)
  | update_risk_rule (rule_id limit : String) (reauthenticated : Bool)
  | test_toss (scenario : Option String)
  | stop_account (account_id : String)
  | resume_account (account_id : String)
  | resume_node (node_id : String)
  | post_emergency_stop (reauthenticated : Bool)
  | post_resume
  | post_liquidate (confirm_phrase : String) (reauthenticated : Bool)
  | post_reset
deriving DecidableEq, Repr

inductive ConsoleBody where
  | session (payload : SessionPayload)
  | approvals (rows : List ApprovalSummary)
  | risk (payload : RiskPayload)
  | connections (payload : ConnectionsPayload)
  | controls (payload : ControlsPayload)
  | recheck (result : RecheckResult)
  | decision (result : DecisionResult)
  | toss (result : ConnectionTestResult)
  | action (result : ActionResult)

/-- The decimals of a body, each of which goes out as a text. -/
def ConsoleBody.decimals : ConsoleBody → List Decimal
  | .session payload => payload.accounts.flatMap fun row => [row.net_asset, row.daily_pnl, row.daily_pnl_rate]
  | .approvals rows => rows.flatMap fun row => [row.quantity, row.notional, row.current_price, row.signal_price]
  | .risk payload => payload.rules.flatMap fun row => [row.actual, row.limit, row.usage_percent]
  | .recheck result => [result.before_price, result.after_price, result.before_notional, result.after_notional]
  | _ => []

inductive ConsoleReply where
  | ok (body : ConsoleBody)
  | http_exception (status_code : Nat) (code message : String)
  | raised (e : Exc)

/-- The reply to what a function returned or raised. -/
def ConsoleReply.of {α : Type} (body : α → ConsoleBody) : Except Exc α → ConsoleReply
  | .ok a => .ok (body a)
  | .error e => .raised e

/-- The reply that goes out for one of a route: its body is serialised. -/
def ConsoleReply.sent (memory : Memory) : ConsoleReply → ConsoleReply
  | .ok body =>
    match body.decimals.mapM (_plain_decimal memory) with
    | .ok _ => .ok body
    | .error _ => .raised (.serializationError "_plain_decimal")
  | reply => reply

def _not_found (what : String) : ConsoleReply := .http_exception 404 "NOT_FOUND" what

/-- `_guard`: the failures that a screen simulates are real ones. -/
def _guard (state : ScreenState) (reply : ConsoleReply) : ConsoleReply :=
  match state with
  | .forbidden => .http_exception 403 "FORBIDDEN" "이 화면을 볼 권한이 없습니다."
  | .server_error => .http_exception 503 "SERVER_ERROR" "데이터를 불러오지 못했습니다."
  | _ => reply

def get_session (store : ConsoleStore) (state role : Option String) : ConsoleReply :=
  let resolved := normalise_state state
  -- an empty role counts as none
  let role := (role.filter (· ≠ "")).getD "ADMIN"
  let reply := ConsoleReply.of .session (build_session store resolved role)
  if resolved = .server_error then _guard resolved reply else reply

def list_approvals (store : ConsoleStore) (state : Option String) : ConsoleReply :=
  _guard (normalise_state state) (.of .approvals (build_approvals store (normalise_state state)))

def get_risk_rules (store : ConsoleStore) (state : Option String) : ConsoleReply :=
  _guard (normalise_state state) (.of .risk (build_risk store (normalise_state state)))

def get_connections (store : ConsoleStore) (state : Option String) : ConsoleReply :=
  _guard (normalise_state state) (.ok (.connections (build_connections store (normalise_state state))))

def toggle (paused : Finset String) (id : String) : Finset String := if id ∈ paused then paused.erase id else insert id paused

def toggle_strategy (store : ConsoleStore) (strategy_id : String) : ConsoleReply × ConsoleStore :=
  let result : ActionResult :=
    if strategy_id ∈ store.paused_strategies then ⟨true, "RESUMED", "전략 실행을 재개했습니다."⟩
    else ⟨true, "PAUSED", "전략을 일시정지했습니다. 기존 포지션은 그대로 유지됩니다."⟩
  (.ok (.action result), { store with paused_strategies := toggle store.paused_strategies strategy_id })

def toggle_copy_source (store : ConsoleStore) (source_id : String) : ConsoleReply × ConsoleStore :=
  let result : ActionResult :=
    if source_id ∈ store.paused_sources then ⟨true, "RESUMED", "신호원 구독을 재개했습니다."⟩
    else ⟨true, "PAUSED", "신호원을 일시정지했습니다."⟩
  (.ok (.action result), { store with paused_sources := toggle store.paused_sources source_id })

/-- The reply to a result that may be missing. -/
def found {α : Type} (body : α → ConsoleBody) (what : String) : Except Exc (Option α) → ConsoleReply
  | .ok (some a) => .ok (body a)
  | .ok none => _not_found what
  | .error e => .raised e

def recheck_approval_route (store : ConsoleStore) (approval_id : String) : ConsoleReply × ConsoleStore :=
  let (result, store) := recheck_approval approval_id store
  (found .recheck "승인 요청을 찾을 수 없습니다." result, store)

def decide_approval_route (drawn : UUID) (store : ConsoleStore) (approval_id : String) (action : DecisionAction) :
    ConsoleReply × ConsoleStore :=
  if action = .APPROVE ∧ approval_id ∉ store.approval_rechecked then
    (.http_exception 409 "RECHECK_REQUIRED" "승인 전에 가격과 계좌 상태를 다시 확인해야 합니다.", store)
  else
    let (result, store) := decide_approval drawn approval_id (action = .APPROVE) store
    (found .decision "승인 요청을 찾을 수 없습니다." result, store)

def recheck_broker (store : ConsoleStore) (order_id : String) : ConsoleReply × ConsoleStore :=
  match can_recheck_broker order_id with
  | none => (_not_found "주문을 찾을 수 없습니다.", store)
  | some false => (.http_exception 409 "RECHECK_NOT_APPLICABLE" "이 주문은 결과가 이미 정해져 재확인이 필요하지 않습니다.", store)
  | some true =>
    (.ok (.action ⟨true, "RECHECKED",
        "브로커 주문 내역을 다시 조회했습니다. 아직 결과가 정해지지 않았습니다. 같은 주문을 다시 보내지 않습니다."⟩),
      { store with rechecked_orders := insert order_id store.rechecked_orders })

def update_risk_rule (store : ConsoleStore) (rule_id limit : String) (reauthenticated : Bool) : ConsoleReply × ConsoleStore :=
  match build_risk store .normal with
  | .error e => (.raised e, store)
  | .ok risk =>
    match risk.rules.find? fun rule => rule.rule_id = rule_id with
    | none => (_not_found "위험 규칙을 찾을 수 없습니다.", store)
    | some current =>
      match DecimalValue.ofText limit with
      | none => (.http_exception 422 "INVALID_LIMIT" "한도는 숫자여야 합니다.", store)
      | some new_limit =>
        match new_limit.gt (.finite current.limit) with
        | .error e => (.raised e, store)
        | .ok looser =>
          if looser && !reauthenticated then
            (.http_exception 409 "REAUTH_REQUIRED" "한도를 느슨하게 바꾸려면 재인증이 필요합니다.", store)
          else
            let direction := if looser then "느슨하게" else "엄격하게"
            (.ok (.action ⟨true, "UPDATED", current.name ++ " 한도를 " ++ direction ++ " 변경했습니다. 즉시 적용됩니다."⟩),
              { store with risk_limits := store.risk_limits.set rule_id limit })

def stop_account (store : ConsoleStore) (account_id : String) : ConsoleReply × ConsoleStore :=
  (.ok (.action ⟨true, "ACCOUNT_STOPPED", "이 계좌의 신규 주문을 차단했습니다. 보유 포지션은 청산하지 않습니다."⟩),
    { store with stopped_accounts := insert account_id store.stopped_accounts })

def resume_account (store : ConsoleStore) (account_id : String) : ConsoleReply × ConsoleStore :=
  (.ok (.action ⟨true, "ACCOUNT_RESUMED", "계좌 주문을 재개했습니다."⟩),
    { store with stopped_accounts := store.stopped_accounts.erase account_id })

def resume_node (store : ConsoleStore) (node_id : String) : ConsoleReply × ConsoleStore :=
  (.ok (.action ⟨true, "NODE_RESUMED", "사용자 승인으로 이 노드의 자동매매를 재개했습니다."⟩),
    { store with resumed_nodes := insert node_id store.resumed_nodes })

def post_reset (store : ConsoleStore) : ConsoleReply × ConsoleStore :=
  (.ok (.action ⟨true, "RESET", "콘솔 목업 상태를 초기화했습니다."⟩), store.reset)

/-- The reply to a request, and the store after it. -/
def handle (drawn : UUID) (store : ConsoleStore) : ConsoleRequest → ConsoleReply × ConsoleStore
  | .get_session state role => (get_session store state role, store)
  | .list_approvals state => (list_approvals store state, store)
  | .get_risk_rules state => (get_risk_rules store state, store)
  | .get_connections state => (get_connections store state, store)
  | .get_controls state => (.ok (.controls (build_controls store (normalise_state state))), store)
  | .toggle_strategy strategy_id => toggle_strategy store strategy_id
  | .toggle_copy_source source_id => toggle_copy_source store source_id
  | .recheck_approval approval_id => recheck_approval_route store approval_id
  | .decide_approval approval_id action _ => decide_approval_route drawn store approval_id action
  | .recheck_broker order_id => recheck_broker store order_id
  | .update_risk_rule rule_id limit reauthenticated => update_risk_rule store rule_id limit reauthenticated
  | .test_toss scenario =>
    let (result, store) := test_toss_connection store scenario
    (.ok (.toss result), store)
  | .stop_account account_id => stop_account store account_id
  | .resume_account account_id => resume_account store account_id
  | .resume_node node_id => resume_node store node_id
  | .post_emergency_stop reauthenticated =>
    let (result, store) := emergency_stop store reauthenticated
    (.ok (.action result), store)
  | .post_resume =>
    let (result, store) := resume_all store
    (.ok (.action result), store)
  | .post_liquidate phrase reauthenticated =>
    let (result, store) := liquidate_all store phrase reauthenticated
    (.ok (.action result), store)
  | .post_reset => post_reset store

/-! ## The internal key -/

/-- `require_internal_key`: the header without blanks around it is the key. -/
def require_internal_key (internal_api_key : String) (x_internal_key : Option String) : Bool :=
  match x_internal_key with
  | none => false
  | some text =>
    let provided := DecimalText.strip text.toList
    provided ≠ [] && String.ofList provided = internal_api_key

def _unauthorized : ConsoleReply := .http_exception 401 "" "invalid internal key"

/-- A request with its header. -/
structure Arrival where
  x_internal_key : Option String
  request : ConsoleRequest

/-- What the routes return to an arrival, and the store after it. -/
def serve (internal_api_key : String) (drawn : UUID) (store : ConsoleStore) (arrival : Arrival) : ConsoleReply × ConsoleStore :=
  if require_internal_key internal_api_key arrival.x_internal_key then handle drawn store arrival.request else (_unauthorized, store)

end Console
end MtossBot

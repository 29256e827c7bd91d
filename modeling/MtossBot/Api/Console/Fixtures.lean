import MtossBot.Api.Console.Schemas
import MtossBot.Api.Console.Store
import MtossBot.Application.ApprovalPolicy
import MtossBot.Domain.DecimalText

/-!
# What the console shows and does

The functions of `console/fixtures.py` that read or change the store: accounts and nodes, approvals, risk rules, connections, the controls
and the session. The amounts of the fixtures are decimals here; only the limits of the risk rules are kept as texts, which the code compares.
-/

namespace MtossBot
namespace Console

/-- The state that a screen is asked to simulate. -/
inductive ScreenState where
  | normal
  | loading
  | empty
  | partial_
  | forbidden
  | server_error
  | market_data_stale
  | rate_limited
  | toss_auth_expired
  | mt5_offline
  | strategy_error
  | emergency_stop
  | position_mismatch
deriving DecidableEq, Repr

def ScreenState.value : ScreenState → String
  | .normal => "normal"
  | .loading => "loading"
  | .empty => "empty"
  | .partial_ => "partial"
  | .forbidden => "forbidden"
  | .server_error => "server-error"
  | .market_data_stale => "market-data-stale"
  | .rate_limited => "rate-limited"
  | .toss_auth_expired => "toss-auth-expired"
  | .mt5_offline => "mt5-offline"
  | .strategy_error => "strategy-error"
  | .emergency_stop => "emergency-stop"
  | .position_mismatch => "position-mismatch"

def STATES : List ScreenState :=
  [.normal, .loading, .empty, .partial_, .forbidden, .server_error, .market_data_stale, .rate_limited, .toss_auth_expired, .mt5_offline,
    .strategy_error, .emergency_stop, .position_mismatch]

def normalise_state (value : Option String) : ScreenState :=
  match value with
  | none => .normal
  | some text => (STATES.find? fun state => state.value = text).getD .normal

def AS_OF : String := "2026.08.18 14:32:08 KST"
def CLOCK_KST : String := "14:32:08 KST"
def CLOCK_ET : String := "01:32:08 ET"
def BROKER_NOTE : String := "브로커 확인값 · 2026.08.18 14:32:08 KST"
def CONFIRM_PHRASE : String := "전량 청산 확인"

/-- `BASE_NOW`, in microseconds. -/
def BASE_NOW : Int := 1787031128000000

/-- A decimal of the fixtures. -/
def fixed (coefficient : Int) (exponent : Int) : Decimal := ⟨coefficient < 0, coefficient.natAbs, exponent⟩

def _status (level : HealthLevel) (label detail : String) : StatusInfo := ⟨level, label, detail, CLOCK_KST⟩

def OK : StatusInfo := _status .OK "정상" "모든 점검 통과"
def CONNECTED : StatusInfo := _status .OK "연결됨" "8초 전 확인"
def DISCONNECTED : StatusInfo := _status .STOPPED "연결 끊김" "30초 동안 heartbeat 없음"
def EXPIRED_AUTH : StatusInfo := _status .ACTION_REQUIRED "인증 만료" "토스 자격증명 재등록 필요"

/-! ## Accounts and nodes -/

def ACCOUNT_KR : String := "acc-toss-kr"
def ACCOUNT_US : String := "acc-toss-us"
def ACCOUNT_FX : String := "acc-mt5-fx"

structure AccountBase where
  account_id : String
  «alias» : String
  broker : Broker
  market : Market
  currency : String
  net : Decimal
  pnl : Decimal
  rate : Decimal

def _ACCOUNT_BASE : List AccountBase :=
  [⟨ACCOUNT_KR, "국내주식 주계좌", .TOSS, .KR, "KRW", fixed 124500000 0, fixed 1542000 0, fixed 124 (-4)⟩,
    ⟨ACCOUNT_US, "미국주식 장기계좌", .TOSS, .US, "USD", fixed 8921330 (-2), fixed (-73120) (-2), fixed (-82) (-4)⟩,
    ⟨ACCOUNT_FX, "MT5 FX 데모", .MT5, .FX, "USD", fixed 1248055 (-2), fixed 6410 (-2), fixed 52 (-4)⟩]

/-- The status of an account, and whether its orders are stopped. -/
def account_status (store : ConsoleStore) (state : ScreenState) (base : AccountBase) : StatusInfo × Bool :=
  let stopped := base.account_id ∈ store.stopped_accounts || store.emergency_stop
  if state = .toss_auth_expired ∧ base.broker = .TOSS then (EXPIRED_AUTH, true)
  else if state = .mt5_offline ∧ base.broker = .MT5 then (_status .STOPPED "중단됨" "노드 연결 끊김으로 주문 차단", true)
  else if state = .market_data_stale then (_status .WARNING "주의" "시세 지연 2분", stopped)
  else if store.emergency_stop ∨ state = .emergency_stop then (_status .STOPPED "중단됨" "전체 긴급 정지 적용 중", stopped)
  else if stopped then (_status .STOPPED "중단됨" "계좌 주문 정지", stopped)
  else (OK, stopped)

def build_accounts (store : ConsoleStore) (state : ScreenState) : List AccountSummary :=
  _ACCOUNT_BASE.map fun base =>
    let (status, stopped) := account_status store state base
    { account_id := base.account_id
      «alias» := base.«alias»
      broker := base.broker
      market := base.market
      currency := base.currency
      status := status
      net_asset := base.net
      daily_pnl := base.pnl
      daily_pnl_rate := base.rate
      order_stopped := stopped
      confirmed_note := BROKER_NOTE }

def build_nodes (store : ConsoleStore) (state : ScreenState) : List NodeHealth :=
  let offline : Bool := state = .mt5_offline
  let resumed : Bool := "node-seoul-01" ∈ store.resumed_nodes
  let primary_status :=
    if offline && resumed then _status .WARNING "연결됨" "사용자 재개 대기 후 복구"
    else if offline && !resumed then DISCONNECTED
    else CONNECTED
  let auto : AutoTrading :=
    if store.emergency_stop ∨ state = .emergency_stop then .PAUSED_BY_USER
    else if offline && !resumed then .STOPPED_BY_OFFLINE
    else .RUNNING
  [{ node_id := "node-seoul-01"
     name := "MT5 노드 · 서울 데스크"
     account_alias := "MT5 FX 데모"
     status := primary_status
     heartbeat_note := if !offline || resumed then "8초 전" else "3분 12초 전"
     version := "node 1.4.2 / MT5 build 4620"
     last_position_sync := "2026.08.18 14:31:58 KST"
     auto_trading := auto
     pairing_code := "MTN-4821-K7Q" },
   { node_id := "node-home-02"
     name := "MT5 노드 · 홈 PC"
     account_alias := "MT5 FX 데모 (보조)"
     status := _status .WARNING "연결 중" "재시도 2회 · 마지막 시도 14:31:40 KST"
     heartbeat_note := "52초 전"
     version := "node 1.4.1 / MT5 build 4620"
     last_position_sync := "2026.08.18 14:26:04 KST"
     auto_trading := .SHADOW
     pairing_code := "MTN-9037-B2M" }]

/-! ## Approvals -/

structure ApprovalBase where
  approval_id : String
  source_type : SourceType
  source_name : String
  account_id : String
  account_alias : String
  market : Market
  symbol : String
  symbol_name : String
  side : OrderSide
  quantity : Decimal
  current_price : Decimal
  signal_price : Decimal
  currency : String
  expires : Nat
  mode : ApprovalMode

def _APPROVAL_BASE : List ApprovalBase :=
  [{ approval_id := "apv-13f-brkb"
     source_type := .FORM_13F
     source_name := "Berkshire Hathaway 13F"
     account_id := ACCOUNT_US
     account_alias := "미국주식 장기계좌"
     market := .US
     symbol := "BRK.B"
     symbol_name := "버크셔 해서웨이 B"
     side := .BUY
     quantity := fixed 12 0
     current_price := fixed 45102 (-2)
     signal_price := fixed 44810 (-2)
     currency := "USD"
     expires := 84
     mode := .MANUAL },
   { approval_id := "apv-leader-005930"
     source_type := .LEADER
     source_name := "내부 리더 A"
     account_id := ACCOUNT_KR
     account_alias := "국내주식 주계좌"
     market := .KR
     symbol := "005930"
     symbol_name := "삼성전자"
     side := .BUY
     quantity := fixed 30 0
     current_price := fixed 81100 0
     signal_price := fixed 80950 0
     currency := "KRW"
     expires := 252
     mode := .CONDITIONAL },
   { approval_id := "apv-ext-msft"
     source_type := .EXTERNAL
     source_name := "Signal Provider Demo"
     account_id := ACCOUNT_US
     account_alias := "미국주식 장기계좌"
     market := .US
     symbol := "MSFT"
     symbol_name := "마이크로소프트"
     side := .SELL
     quantity := fixed 8 0
     current_price := fixed 46302 (-2)
     signal_price := fixed 46540 (-2)
     currency := "USD"
     expires := 598
     mode := .MANUAL }]

def find_approval (approval_id : String) : Option ApprovalBase := _APPROVAL_BASE.find? fun raw => raw.approval_id = approval_id

/-- Two digits at least, padded with zeros. -/
def pad2 (n : Nat) : String := (if n < 10 then "0" else "") ++ toString n

def _expires_label (seconds : Nat) : String := pad2 (seconds / 60) ++ ":" ++ pad2 (seconds % 60)

/-- The price of the one approval whose price moves. -/
def MOVED_PRICE : Decimal := fixed 45388 (-2)

def notional (price quantity : Decimal) : Except Exc Decimal := (price * quantity).quantize (-2)

def _approval_summary (raw : ApprovalBase) (store : ConsoleStore) : Except Exc ApprovalSummary := do
  let approval_id := raw.approval_id
  let price := if approval_id ∈ store.approval_rechecked ∧ approval_id = "apv-13f-brkb" then MOVED_PRICE else raw.current_price
  let total ← notional price raw.quantity
  let risk_passed : Bool := approval_id ≠ "apv-ext-msft"
  return {
    approval_id := approval_id
    source_type := raw.source_type
    source_name := raw.source_name
    account_id := raw.account_id
    account_alias := raw.account_alias
    market := raw.market
    symbol := raw.symbol
    symbol_name := raw.symbol_name
    side := raw.side
    quantity := raw.quantity
    notional := total
    currency := raw.currency
    current_price := price
    signal_price := raw.signal_price
    expires_in_seconds := raw.expires
    expires_label := _expires_label raw.expires
    status := (store.approval_decisions.get? approval_id).getD .PENDING
    approval_mode := raw.mode
    risk_passed := risk_passed
    risk_note := if risk_passed then "위험검사 통과 · 한도 사용률 최대 54%" else "주의 · 종목 비중 한도 92% 사용" }

/-- By the time that is left. -/
def build_approvals (store : ConsoleStore) (state : ScreenState) : Except Exc (List ApprovalSummary) :=
  if state = .empty ∨ state = .loading then .ok []
  else do
    let rows ← _APPROVAL_BASE.mapM fun raw => _approval_summary raw store
    return rows.mergeSort fun a b => a.expires_in_seconds ≤ b.expires_in_seconds

def recheck_approval (approval_id : String) (store : ConsoleStore) : Except Exc (Option RecheckResult) × ConsoleStore :=
  match find_approval approval_id with
  | none => (.ok none, store)
  | some raw =>
    let before_price := raw.current_price
    let changed : Bool := approval_id = "apv-13f-brkb"
    let after_price := if changed then MOVED_PRICE else before_price
    let result : Except Exc (Option RecheckResult) := do
      let before_notional ← notional before_price raw.quantity
      let after_notional ← notional after_price raw.quantity
      return some {
        approval_id := approval_id
        changed := changed
        message :=
          if changed then "재검사 결과 현재가와 예상 금액이 변경되었습니다. 주문은 나가지 않았습니다."
          else "재검사 결과 조건이 그대로입니다. 승인을 진행할 수 있습니다."
        before_price := before_price
        after_price := after_price
        before_notional := before_notional
        after_notional := after_notional }
    (result, { store with approval_rechecked := insert approval_id store.approval_rechecked })

/-- The policy of an approval: a conditional one has a limit. -/
def policy (mode : ApprovalMode) : ApprovalPolicyConfig where
  mode := mode
  auto_notional_limit := if mode = .CONDITIONAL then some 2000000 else none
  conditional_requires_limit h := by simp [h]

/-- A decision with its reason is recorded. -/
def ConsoleStore.record (store : ConsoleStore) (approval_id : String) (status : ApprovalStatus) (reason : String) : ConsoleStore :=
  { store with
    approval_decisions := store.approval_decisions.set approval_id status
    approval_reasons := store.approval_reasons.set approval_id reason }

/-- What is decided once the policy has spoken. -/
def decide_by (policy_decision : ApprovalDecision) (approval_id : String) (approve : Bool) (store : ConsoleStore) :
    DecisionResult × ConsoleStore :=
  if policy_decision.status = .EXPIRED then
    ({ approval_id := approval_id
       status := .EXPIRED
       reason := policy_decision.reason
       message := "신호가 만료되었습니다. 주문은 생성되지 않았습니다." },
      store.record approval_id .EXPIRED "신호가 만료되어 승인할 수 없습니다")
  else if !approve then
    ({ approval_id := approval_id
       status := .REJECTED
       reason := "operator rejected"
       message := "거절했습니다. 주문은 생성되지 않았습니다." },
      store.record approval_id .REJECTED "운영자 거절")
  else
    ({ approval_id := approval_id
       status := .APPROVED
       reason := policy_decision.reason
       message := "승인했습니다. 주문 계획을 생성해 주문·포지션에서 상태를 확인할 수 있습니다."
       order_id := some "ord-plan-0912" },
      store.record approval_id .APPROVED (if policy_decision.status = .APPROVED then "자동 승인 한도 이내" else "운영자 수동 승인"))

/-- The identifier that the policy draws for its own decision is not kept. -/
def decide_approval (drawn : UUID) (approval_id : String) (approve : Bool) (store : ConsoleStore) :
    Except Exc (Option DecisionResult) × ConsoleStore :=
  match find_approval approval_id with
  | none => (.ok none, store)
  | some raw =>
    let expires_at := BASE_NOW + raw.expires * 1000000
    match (do
        let total ← notional raw.current_price raw.quantity
        ApprovalPolicy.decide drawn (policy raw.mode) total.toRat (.aware BASE_NOW 32400000000) (.aware expires_at 32400000000)) with
    | .error e => (.error e, store)
    | .ok policy_decision =>
      let (result, store) := decide_by policy_decision approval_id approve store
      (.ok (some result), store)

/-! ## Orders -/

/-- The orders of the fixtures, with their states. -/
def _ORDER_BASE : List (String × OrderState) :=
  [("ord-0871", .PARTIALLY_FILLED), ("ord-0864", .UNKNOWN), ("ord-0852", .FILLED), ("ord-0846", .REJECTED), ("ord-0839", .FILLED)]

/-- `can_recheck_broker` of an order's detail: its result is not known. -/
def can_recheck_broker (order_id : String) : Option Bool :=
  (_ORDER_BASE.find? fun item => item.1 = order_id).map fun item => item.2 = .UNKNOWN

/-! ## Risk rules -/

/-- A rule of the fixtures; its limit is a text. -/
structure RiskBase where
  rule_id : String
  name : String
  metric : RiskMetric
  scope : RiskScope
  scope_label : String
  actual : Decimal
  limit : String
  unit : String
  usage : Decimal

def _RISK_BASE : List RiskBase :=
  [{ rule_id := "risk-order-notional"
     name := "1회 주문 금액"
     metric := .ORDER_NOTIONAL
     scope := .ACCOUNT
     scope_label := "계좌 · 국내주식 주계좌"
     actual := fixed 5412000 0
     limit := "10000000"
     unit := "KRW"
     usage := fixed 541 (-1) },
   { rule_id := "risk-account-capital"
     name := "계좌 투자금"
     metric := .ACCOUNT_CAPITAL
     scope := .ACCOUNT
     scope_label := "계좌 · 국내주식 주계좌"
     actual := fixed 124500000 0
     limit := "150000000"
     unit := "KRW"
     usage := fixed 830 (-1) },
   { rule_id := "risk-symbol-weight"
     name := "종목 비중"
     metric := .SYMBOL_WEIGHT
     scope := .SYMBOL
     scope_label := "종목 · MSFT"
     actual := fixed 184 (-3)
     limit := "0.200"
     unit := "비중"
     usage := fixed 920 (-1) },
   { rule_id := "risk-daily-loss"
     name := "일일 손실"
     metric := .DAILY_LOSS
     scope := .USER
     scope_label := "사용자 · 김운영"
     actual := fixed 82 (-4)
     limit := "0.0300"
     unit := "비율"
     usage := fixed 273 (-1) },
   { rule_id := "risk-max-drawdown"
     name := "최대 낙폭"
     metric := .MAX_DRAWDOWN
     scope := .SYSTEM
     scope_label := "시스템 전체"
     actual := fixed 420 (-4)
     limit := "0.1000"
     unit := "비율"
     usage := fixed 420 (-1) }]

def _risk_status (usage : Decimal) : StatusInfo :=
  if 90 ≤ usage.toRat then _status .ACTION_REQUIRED "작업 필요" "한도의 90% 이상 사용"
  else if 70 ≤ usage.toRat then _status .WARNING "주의" "한도의 70% 이상 사용"
  else _status .OK "정상" "한도 여유 있음"

/-- `Decimal(value)` -/
def _d (value : String) : Except Exc DecimalValue :=
  match DecimalValue.ofText value with
  | some d => .ok d
  | none => .error .invalidOperation

/-- `(actual / limit * 100).quantize(Decimal("0.1"))`, for a limit above zero; nothing is left of a quotient by an infinity. -/
def usage_of (actual : Decimal) : DecimalValue → Except Exc Decimal
  | .finite limit => do
    let ratio ← actual.truediv limit
    let percent ← ratio.mul (.ofInt 100)
    percent.quantize (-1)
  | _ => .ok ⟨false, 0, -1⟩

def effective_limit (store : ConsoleStore) (base : RiskBase) : String := (store.risk_limits.get? base.rule_id).getD base.limit

/-- The usage: that of the fixture, unless the limit has been changed and is above zero. -/
def usage_value (store : ConsoleStore) (base : RiskBase) (limit : DecimalValue) : Except Exc Decimal :=
  if effective_limit store base ≠ base.limit then do
    let positive ← limit.gt (.finite (.ofInt 0))
    if positive then usage_of base.actual limit else return base.usage
  else return base.usage

/-- A row, which holds finite decimals only. -/
def risk_rule (store : ConsoleStore) (base : RiskBase) : Except Exc RiskRuleRow := do
  let limit ← _d (effective_limit store base)
  let usage_percent ← usage_value store base limit
  match limit with
  | .finite limit =>
    return {
      rule_id := base.rule_id
      name := base.name
      metric := base.metric
      scope := base.scope
      scope_label := base.scope_label
      actual := base.actual
      limit := limit
      unit := base.unit
      usage_percent := usage_percent
      status := _risk_status usage_percent
      changed_by := "김운영"
      changed_at := "2026.08.17 21:04:33 KST" }
  | _ => .error (.validationError "RiskRuleRow" [("limit", "Input should be a finite number")])

def _RISK_HISTORY : List RiskChangeRow :=
  [{ change_id := "chg-0042"
     changed_at := "2026.08.17 21:04:33 KST"
     actor := "김운영"
     rule_name := "종목 비중"
     before := "0.250"
     after := "0.200"
     direction := .TIGHTER },
   { change_id := "chg-0041"
     changed_at := "2026.08.15 10:22:07 KST"
     actor := "김운영"
     rule_name := "1회 주문 금액"
     before := "₩8,000,000"
     after := "₩10,000,000"
     direction := .LOOSER }]

def _RISK_NOTICE : Notice where
  notice_id := "n-risk-scope"
  tone := .neutral
  title := "한도 변경 규칙"
  body := "더 엄격하게 바꾸면 즉시 적용됩니다. 느슨하게 바꾸려면 재인증이 필요합니다."
  dismissible := false

def build_risk (store : ConsoleStore) (state : ScreenState) : Except Exc RiskPayload :=
  if state = .empty ∨ state = .loading then .ok ⟨[], [], [], AS_OF⟩
  else do
    let rules ← _RISK_BASE.mapM (risk_rule store)
    return ⟨rules, _RISK_HISTORY, [_RISK_NOTICE], AS_OF⟩

/-! ## Connections -/

def _TOSS_CHECKS_OK : List ConnectionCheck :=
  [⟨"scope", "권한", true, "주문·조회 권한 확인"⟩, ⟨"accounts", "계좌 조회", true, "2개 계좌 확인"⟩, ⟨"quotes", "시세 조회", true, "지연 없음"⟩,
    ⟨"orderable", "주문 가능 정보", true, "매수 가능 금액 확인"⟩]

def toss_account (store : ConsoleStore) (auth_expired : Bool) (account_id : String) (name : String) (market : Market) : TossAccountRow where
  account_id := account_id
  «alias» := name
  market := market
  status := if auth_expired then EXPIRED_AUTH else CONNECTED
  last_sync := "2026.08.18 14:31:58 KST"
  secret_note := "저장된 비밀값은 다시 표시되지 않습니다."
  checks := _TOSS_CHECKS_OK
  order_stopped := account_id ∈ store.stopped_accounts || auth_expired

def build_connections (store : ConsoleStore) (state : ScreenState) : ConnectionsPayload :=
  if state = .empty ∨ state = .loading then
    { toss_accounts := []
      mt5_nodes := []
      mt5_checks := []
      notices := [{
        notice_id := "n-empty-conn"
        tone := .neutral
        title := "연결된 계좌가 없습니다"
        body := "토스 계좌를 연결하면 잔고와 주문 상태를 확인할 수 있습니다."
        action_label := some "토스 계좌 연결"
        action_href := some "/connections?add=toss" }]
      as_of := AS_OF }
  else
    let auth_expired : Bool := state = .toss_auth_expired
    let online : Bool := state ≠ .mt5_offline
    { toss_accounts := [toss_account store auth_expired ACCOUNT_KR "국내주식 주계좌" .KR,
        toss_account store auth_expired ACCOUNT_US "미국주식 장기계좌" .US]
      mt5_nodes := build_nodes store state
      mt5_checks := [
        ⟨"service", "Windows 서비스", online, if online then "자동 시작 등록됨" else "서비스 중지됨"⟩,
        ⟨"terminal", "MT5 터미널", true, "build 4620"⟩,
        ⟨"login", "계정 로그인", true, "데모 계정 연결"⟩,
        ⟨"market-data", "시장 데이터", online && state ≠ .market_data_stale,
          if state ≠ .market_data_stale then "스트림 정상" else "2분 지연"⟩,
        ⟨"trade", "주문 권한", online, if online then "order_send 허용" else "노드 offline"⟩]
      notices :=
        (if auth_expired then [{
          notice_id := "n-toss-auth"
          tone := .critical
          title := "토스 인증이 만료되었습니다"
          body := "토큰이 만료되어 계좌 조회와 주문이 중단되었습니다. 주문은 나가지 않았습니다. 자격증명을 다시 등록하면 재개할 수 있습니다."
          action_label := some "자격증명 교체"
          action_href := some "/connections?rotate=toss"
          dismissible := false }] else []) ++
        (if state = .mt5_offline ∧ "node-seoul-01" ∉ store.resumed_nodes then [{
          notice_id := "n-mt5-offline"
          tone := .critical
          title := "MT5 노드가 30초 동안 응답하지 않았습니다"
          body := "해당 계좌의 신규 주문을 차단했습니다. 미체결 주문은 그대로 남아 있습니다. 노드 설치 상태를 확인해 주세요."
          action_label := some "설치 상태 확인"
          action_href := some "/connections?node=node-seoul-01"
          dismissible := false }] else [])
      as_of := AS_OF }

/-- The ways a connection test fails: the scenario, its code, a title and a text. -/
def failures : List (String × String × String × String) :=
  [("auth", "AUTH", "인증 실패", "client ID 또는 secret이 올바르지 않습니다. 값을 다시 확인해 주세요."),
    ("no-account", "NO-ACCOUNT", "계좌 없음", "연결 가능한 계좌를 찾지 못했습니다. 토스 앱에서 계좌를 확인하세요."),
    ("terms", "TERMS", "약관 미동의", "Open API 이용 약관에 동의해야 계좌를 연결할 수 있습니다."),
    ("rate-limit", "RATE-LIMIT", "호출 제한", "요청이 많아 잠시 제한되었습니다. Retry-After 12초 후 다시 시도하세요.")]

def test_toss_connection (store : ConsoleStore) (scenario : Option String) : ConnectionTestResult × ConsoleStore :=
  let store := { store with toss_test_attempts := store.toss_test_attempts + 1 }
  match scenario.bind fun scenario => failures.find? fun failure => failure.1 = scenario with
  | some (scenario, code, title, body) =>
    let refused : Bool := scenario ∈ ["auth", "terms"]
    let missing : Bool := scenario = "no-account"
    let limited : Bool := scenario = "rate-limit"
    ({ passed := false
       code := code
       title := title
       body := body
       checks := [
        ⟨"scope", "권한", !refused, if refused then "확인 실패" else "확인"⟩,
        ⟨"accounts", "계좌 조회", !missing, if missing then "계좌 없음" else "확인"⟩,
        ⟨"quotes", "시세 조회", true, "확인"⟩,
        ⟨"orderable", "주문 가능 정보", !limited, if limited then "호출 제한" else "확인"⟩] }, store)
  | none =>
    ({ passed := true
       code := "OK"
       title := "연결 테스트를 통과했습니다"
       body := "권한, 계좌 조회, 시세 조회, 주문 가능 정보를 모두 확인했습니다."
       checks := _TOSS_CHECKS_OK }, store)

/-! ## Controls -/

def _LIQUIDATION : List ReconciliationRow :=
  [{ issue_id := "liq-0001"
     detected_at := AS_OF
     account_alias := "미국주식 장기계좌"
     symbol := "AAPL"
     symbol_name := "애플"
     kind := "청산 주문"
     internal_value := "81주 매도"
     broker_value := "접수"
     status := "진행 중"
     guidance := "시장 상황에 따라 실패할 수 있습니다." },
   { issue_id := "liq-0002"
     detected_at := AS_OF
     account_alias := "국내주식 주계좌"
     symbol := "005930"
     symbol_name := "삼성전자"
     kind := "청산 주문"
     internal_value := "150주 매도"
     broker_value := "장 마감 · 실패"
     status := "실패"
     guidance := "정규장 재개 후 다시 시도해야 합니다." }]

def build_controls (store : ConsoleStore) (state : ScreenState) : ControlsPayload :=
  let active : Bool := store.emergency_stop || state = .emergency_stop
  let total := 4
  { emergency_stop := active
    -- a text that is empty would count as none
    stopped_at :=
      match store.emergency_stopped_at with
      | some text => if text ≠ "" then some text else if active then some AS_OF else none
      | none => if active then some AS_OF else none
    cancel_progress_done := if store.emergency_stop then store.cancel_progress_done else if active then total else 0
    cancel_progress_total := total
    liquidation_running := store.liquidation_running
    liquidation_results := if store.liquidation_running then _LIQUIDATION else []
    confirm_phrase := CONFIRM_PHRASE
    as_of := AS_OF }

def emergency_stop (store : ConsoleStore) (reauthenticated : Bool) : ActionResult × ConsoleStore :=
  if !reauthenticated then (⟨false, "REAUTH_REQUIRED", "전체 긴급 정지는 재인증 후에만 실행할 수 있습니다."⟩, store)
  else
    (⟨true, "STOPPED", "신규 주문을 차단하고 미체결 주문 4건을 취소했습니다. 포지션은 그대로 유지됩니다."⟩,
      { store with emergency_stop := true, emergency_stopped_at := some AS_OF, cancel_progress_done := 4 })

def resume_all (store : ConsoleStore) : ActionResult × ConsoleStore :=
  (⟨true, "RESUMED", "전체 긴급 정지를 해제했습니다."⟩,
    { store with emergency_stop := false, emergency_stopped_at := none, cancel_progress_done := 0 })

def liquidate_all (store : ConsoleStore) (phrase : String) (reauthenticated : Bool) : ActionResult × ConsoleStore :=
  if DecimalText.strip phrase.toList ≠ CONFIRM_PHRASE.toList then
    (⟨false, "CONFIRM_PHRASE_MISMATCH", "확인 문구가 다릅니다. '" ++ CONFIRM_PHRASE ++ "'를 정확히 입력해 주세요."⟩, store)
  else if !reauthenticated then
    (⟨false, "REAUTH_REQUIRED", "전량 청산은 MFA 또는 패스키 재인증 후에만 실행할 수 있습니다."⟩, store)
  else
    (⟨true, "LIQUIDATING", "청산 주문을 제출했습니다. 주문별 결과를 아래에서 추적하세요."⟩, { store with liquidation_running := true })

/-! ## The session -/

def system_status (emergency : Bool) (state : ScreenState) : StatusInfo :=
  if emergency then _status .STOPPED "중단됨" "전체 긴급 정지 적용 중"
  else if state ∈ [.server_error, .toss_auth_expired, .mt5_offline] then _status .ACTION_REQUIRED "작업 필요" "연결 문제를 확인해 주세요"
  else if state ∈ [.market_data_stale, .rate_limited, .strategy_error, .position_mismatch] then
    _status .WARNING "주의" "일부 기능이 제한되었습니다"
  else _status .OK "정상" "모든 계좌와 노드 정상"

def resolve_role (role : String) : Role := if role = "TRADER" then .TRADER else if role = "VIEWER" then .VIEWER else .ADMIN

def user_of : Role → String × String
  | .ADMIN => ("김운영", "kim.op@example.internal")
  | .TRADER => ("박트레이더", "park.tr@example.internal")
  | .VIEWER => ("이조회", "lee.view@example.internal")

def build_session (store : ConsoleStore) (state : ScreenState) (role : String) : Except Exc SessionPayload := do
  let accounts := build_accounts store state
  let approvals ← build_approvals store state
  let risk ← build_risk store state
  let emergency : Bool := store.emergency_stop || state = .emergency_stop
  let resolved := resolve_role role
  return {
    user_name := (user_of resolved).1
    user_email := (user_of resolved).2
    role := resolved
    accounts := accounts
    system_status := system_status emergency state
    emergency_stop := emergency
    kst_time := CLOCK_KST
    et_time := CLOCK_ET
    pending_approvals := approvals.countP fun item => item.status = .PENDING
    risk_actions := risk.rules.countP fun rule => rule.status.level = .ACTION_REQUIRED }

end Console
end MtossBot

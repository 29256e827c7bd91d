import MtossBot.Lemmas.LimitOrders
import MtossBot.Runtime.UnitOfWork

/-!
# Creation is atomic

What a request commits: an order with its two decisions and its event, or a refusal for its risk, or nothing, and the reply says which.
-/

namespace MtossBot

open ExecutionWorker (EXECUTION_TOPIC _read_intent_id)

variable {T B : Type}

/-- What the tables gain by an order: its row, the two decisions it is there by, and an event for it if it is queued. -/
structure Session.IsOrder (s : Session) (row : OrderIntentRecord) (risk approval : AuditEventRecord) : Prop where
  orders : s.orders = [row]
  audits : s.audits = [risk, approval]
  risk_type : risk.event_type = "RISK_DECIDED"
  approval_type : approval.event_type = "APPROVAL_DECIDED"
  risk_id : row.risk_decision_id = some risk.id
  approval_id : row.approval_id = some approval.id
  queued : row.state = .QUEUED → ∃ e, s.events = [e] ∧ e.topic = EXECUTION_TOPIC ∧ e.published_at = none ∧
    _read_intent_id e.claimed = some row.id
  not_queued : row.state ≠ .QUEUED → s.events = []

/-- What a request commits, by how it ends. -/
inductive Commits (w : World T B) : Except CreateError Reply → World T B → Prop where
  | created {s : Session} {row : OrderIntentRecord} {risk approval : AuditEventRecord} {response : CreateIntentResponse} :
      s.IsOrder row risk approval → w.Insertable s → response.intent_id = row.id → response.state = row.state →
      Commits w (.ok (.created response)) (w.insert s)
  | rejected {a : AuditEventRecord} :
      a.event_type = "RISK_REJECTED" → w.Insertable { audits := [a] } →
      Commits w (.ok (.http_exception 422 (.risk_rejected a.id.str))) (w.insert { audits := [a] })
  | nothing {outcome : Except CreateError Reply} :
      (∀ response, outcome ≠ .ok (.created response)) →
      (∀ status_code id, outcome ≠ .ok (.http_exception status_code (.risk_rejected id))) → Commits w outcome w

namespace CreationAux

variable {db : Database T B} {w : World T B} {s : UnitOfWork T B}

/-- An end that says that nothing was committed. -/
def Refused (outcome : Except CreateError Reply) : Prop :=
  (∀ response, outcome ≠ .ok (.created response)) ∧
    ∀ status_code id, outcome ≠ .ok (.http_exception status_code (.risk_rejected id))

/-- What raises is refused. -/
theorem refused_error (e : CreateError) : Refused (.error e) := ⟨nofun, nofun⟩

/-- An end that commits nothing. -/
def CommitsNothing (w : World T B) (r : Except CreateError Reply × UnitOfWork T B) : Prop := Refused r.1 ∧ r.2.world = w

/-- An ordinary exception commits nothing. -/
theorem refuse_raised (e : Exc) : CommitsNothing s.world ((ExecutionRoute.refuse (.raised e)).eval db.serve s) := by
  rw [ExecutionRoute.refuse]
  split
  · exact ⟨⟨nofun, nofun⟩, rfl⟩
  split
  · show CommitsNothing s.world (Prog.eval db.serve (if _ then _ else _ : SessionCoro Reply) { world := s.world })
    split
    · exact ⟨⟨nofun, nofun⟩, rfl⟩
    · exact ⟨⟨nofun, nofun⟩, rfl⟩
  split
  · exact ⟨⟨nofun, nofun⟩, rfl⟩
  · exact ⟨⟨nofun, nofun⟩, rfl⟩

/-- A commit has its effect, or it raises and has none. -/
theorem commit_cases (db : Database T B) {s : UnitOfWork T B} (hs : s.pending = {}) :
    ExecutionRoute.commit.eval db.serve s = (.ok (), { world := s.world.insert s.flushed }) ∨
      ∃ e s', ExecutionRoute.commit.eval db.serve s = (.error e, s') ∧ s'.world = s.world := by
  have hflushed : db.flushed s = (.ok (), s) := by
    rw [Database.flushed, hs]
    rfl
  have hperform : (SessionOp.perform .commit).eval db.serve s = db.serve s .commit := rfl
  rw [ExecutionRoute.commit, Prog.tryExcept, Prog.eval_andThen, hperform]
  cases hc : db.commit s.world s.flushed with
  | ok _ =>
    simp only [Database.serve, hflushed, hc]
    exact .inl rfl
  | error e =>
    simp only [Database.serve, hflushed, hc]
    split
    · exact .inr ⟨_, _, rfl, rfl⟩
    · exact .inr ⟨_, _, rfl, rfl⟩

/-- Objects that are sent to the database: it takes them, or the flush raises. -/
def sent (db : Database T B) (w : World T B) (objects : Session) : Except CreateError Unit × UnitOfWork T B :=
  match db.flush w objects with
  | .ok _ => (.ok (), { world := w, flushed := objects })
  | .error e => (.error (.raised e), { world := w, pending := objects })

/-- What the database takes are objects that the tables can take. -/
theorem sent_cases (hdb : db.Sound) (objects : Session) :
    sent db w objects = (.ok (), { world := w, flushed := objects }) ∧ w.Insertable objects ∨
      ∃ e s', sent db w objects = (.error (.raised e), s') ∧ s'.world = w := by
  rw [sent]
  cases hflush : db.flush w objects with
  | ok _ => exact .inl ⟨rfl, hdb w objects hflush⟩
  | error e => exact .inr ⟨e, _, rfl, rfl⟩

/-- An empty session adds nothing. -/
theorem empty_append (objects : Session) : Session.append {} objects = objects := by
  rw [Session.append]
  rfl

/-- A flush of some objects sends them. -/
theorem serve_flush {objects : Session} (h : objects.isEmpty = false) :
    db.serve { world := w, pending := objects } .flush = sent db w objects := by
  show db.flushed _ = _
  cases hflush : db.flush w objects <;> simp [Database.flushed, h, empty_append, sent, hflush]

/-- A refused risk is sent as an audit event. -/
theorem eval_record_risk_rejection (event_id account_id signal_id : UUID) (created_at : Int) (risk : RiskDecision) :
    (OrderRepository.perform event_id created_at (.record_risk_rejection account_id signal_id risk)).eval db.serve { world := w } =
      sent db w (OrderRepository.record_risk_rejection account_id signal_id risk {}) := by
  rw [← serve_flush rfl]
  rfl

/-- A new order is sent with its decisions and its event. -/
theorem eval_create_with_outbox (req : Request) (intent : ExecutionIntent) (risk : RiskDecision) (approval : ApprovalDecision) :
    (OrderRepository.perform req.event_id req.created_at (.create_with_outbox intent (APPROVAL_STATES approval.status)
      risk.decision_id approval.approval_id risk approval)).eval db.serve { world := w } =
      afterwards (sent db w (req.created intent risk approval)) (.ok intent.intent_id) := by
  rw [← serve_flush rfl]
  have h : ∀ answer : Except CreateError Unit × UnitOfWork T B,
      Prog.eval (σ := sessionCalls) db.serve (Prog.bind (.done answer.1) fun _ => pure intent.intent_id) answer.2 =
        afterwards answer (.ok intent.intent_id) := by
    rintro ⟨e | _, s'⟩ <;> rfl
  exact h _

/-- The request that is made of a payload. -/
abbrev request (drawn : Drawn) (event_id : UUID) (created_at : Int) (command : CreateIntentCommand) : Request :=
  ⟨drawn, command, event_id, created_at⟩

variable {upper : String → String} {drawn : Drawn} {event_id : UUID} {created_at : Int} {payload : CreateIntentRequest}
  {command : CreateIntentCommand}

/-- A payload that makes no command is refused. -/
theorem run_invalid {e : Exc} (h : to_command payload = .error e) :
    Request.run db upper drawn event_id created_at payload w = (ExecutionRoute.refuse (.raised e)).eval db.serve { world := w } := by
  rw [Request.run, ExecutionRoute.create_intent, h]
  rfl

/-- What the route does with the outcome of the service. -/
def reply : Except CreateError IntentCreationResult → SessionCoro Reply
  | .error e => ExecutionRoute.refuse e
  | .ok result => do
    let _ ← ExecutionRoute.commit
    return .created (.from_result result)

/-- A valid command is served as `create` decides. -/
theorem run_command (h : to_command payload = .ok command) {r : Except CreateError IntentCreationResult × UnitOfWork T B}
    (hr : (IntentService.create .decimal upper drawn command).eval
      (fun s op => (OrderRepository.perform event_id created_at op).eval db.serve s) { world := w } = r) :
    Request.run db upper drawn event_id created_at payload w = (reply r.1).eval db.serve r.2 := by
  rw [Request.run, ExecutionRoute.create_intent, h]
  dsimp only
  rw [Prog.eval_andThen, Prog.eval_interpret, hr]
  cases r.1 <;> rfl

/-- A reply after a commit. -/
theorem eval_commit_reply (hs : s.pending = {}) (response : Reply) :
    (ExecutionRoute.commit >>= fun _ => (pure response : SessionCoro Reply)).eval db.serve s =
        (.ok response, { world := s.world.insert s.flushed }) ∨
      CommitsNothing s.world ((ExecutionRoute.commit >>= fun _ => (pure response : SessionCoro Reply)).eval db.serve s) := by
  rw [Prog.eval_bind]
  rcases commit_cases db hs with h | ⟨e, s', h, hw⟩
  · rw [h]
    exact .inl rfl
  · rw [h]
    exact .inr ⟨refused_error e, hw⟩

/-- What commits nothing commits no more than it says. -/
theorem CommitsNothing.commits {r : Except CreateError Reply × UnitOfWork T B} (h : CommitsNothing w r) :
    Commits w r.1 r.2.world := by
  rw [h.2]
  exact .nothing h.1.1 h.1.2

/-- What a session holds that a request leaves with an order. -/
theorem isOrder_created (req : Request) (intent : ExecutionIntent) (risk : RiskDecision) (approval : ApprovalDecision) :
    (req.created intent risk approval).IsOrder (Request.row intent risk approval)
      ⟨risk.decision_id, "RISK_DECIDED", none, intent.signal_id, .risk_snapshot risk⟩
      ⟨approval.approval_id, "APPROVAL_DECIDED", none, intent.signal_id, .approval_snapshot approval⟩ where
  orders := rfl
  audits := rfl
  risk_type := rfl
  approval_type := rfl
  risk_id := rfl
  approval_id := rfl
  queued hq := by
    refine ⟨OrderRepository.readyEvent req.event_id req.created_at intent, if_pos hq, rfl, rfl, ?_⟩
    have hread : (OrderRepository.readyEvent req.event_id req.created_at intent).claimed.payload.get? "intent_id" =
        some (.str intent.intent_id.str) := by
      show (OrderRepository.readyEvent req.event_id req.created_at intent).payload.get? "intent_id" = _
      rw [OrderRepository.readyEvent, Dict.get?_set_of_ne _ _ (by decide), Dict.get?_set_self]
    rw [_read_intent_id, hread]
    exact UUID.parse_str _
  not_queued hq := if_neg hq

/-- What a session holds after a refusal for risk. -/
abbrev rejection (command : CreateIntentCommand) (risk : RiskDecision) : Session :=
  OrderRepository.record_risk_rejection command.account_id command.signal_id risk {}

/-- How a request ends whose payload makes a command. -/
theorem run_cases (hdb : db.Sound) (hcommand : to_command payload = .ok command) :
    CommitsNothing w (Request.run db upper drawn event_id created_at payload w) ∨
    (∃ risk, (request drawn event_id created_at command).serve upper = (.error (.riskRejected risk), rejection command risk) ∧
      w.Insertable (rejection command risk) ∧
      Request.run db upper drawn event_id created_at payload w =
        (.ok (.http_exception 422 (.risk_rejected risk.decision_id.str)), { world := w.insert (rejection command risk) })) ∨
    ∃ intent risk approval, (request drawn event_id created_at command).Creates upper intent risk approval ∧
      (request drawn event_id created_at command).serve upper = (.ok ((request drawn event_id created_at command).result risk approval),
        (request drawn event_id created_at command).created intent risk approval) ∧
      w.Insertable ((request drawn event_id created_at command).created intent risk approval) ∧
      Request.run db upper drawn event_id created_at payload w =
        (.ok (.created (.from_result ((request drawn event_id created_at command).result risk approval))),
          { world := w.insert ((request drawn event_id created_at command).created intent risk approval) }) := by
  let req := request drawn event_id created_at command
  rcases req.create_cases .decimal upper with ⟨e, h⟩ | ⟨risk, h⟩ | ⟨intent, risk, approval, hc, h⟩
  · rw [run_command hcommand (h _ _)]
    exact .inl (refuse_raised (s := { world := w }) e)
  · have hrun := (h (fun s op => (OrderRepository.perform event_id created_at op).eval db.serve s) { world := w }).trans
      (congrArg (afterwards · _) (eval_record_risk_rejection _ _ _ _ _))
    rcases sent_cases hdb (w := w) (rejection command risk) with ⟨hsent, hinsert⟩ | ⟨e, s', hsent, hw⟩ <;>
    have hreply := run_command hcommand (hrun.trans (congrArg (afterwards · _) hsent))
    · rcases @eval_commit_reply T B db { world := w, flushed := _ } rfl
          (.http_exception 422 (.risk_rejected risk.decision_id.str)) with hcommit | hcommit
      · exact .inr (.inl ⟨risk, h _ _, hinsert, hreply.trans hcommit⟩)
      · exact .inl (hreply ▸ hcommit)
    · rw [hreply]
      exact .inl (hw ▸ refuse_raised e)
  · have hrun := (h (fun s op => (OrderRepository.perform event_id created_at op).eval db.serve s) { world := w }).trans
      (congrArg (afterwards · _) (eval_create_with_outbox req intent risk approval))
    rcases sent_cases hdb (w := w) (req.created intent risk approval) with ⟨hsent, hinsert⟩ | ⟨e, s', hsent, hw⟩ <;>
    have hreply := run_command hcommand
      (hrun.trans (congrArg (fun answer => afterwards (afterwards answer _) _) hsent))
    · rcases @eval_commit_reply T B db { world := w, flushed := _ } rfl
          (.created (.from_result (req.result risk approval))) with hcommit | hcommit
      · exact .inr (.inr ⟨intent, risk, approval, hc, h _ _, hinsert, hreply.trans hcommit⟩)
      · exact .inl (hreply ▸ hcommit)
    · rw [hreply]
      exact .inl (hw ▸ refuse_raised e)

/-- Every request commits an order with its decisions and its event, or its refusal for risk, or nothing. -/
theorem run_commits (hdb : db.Sound) (upper : String → String) (drawn : Drawn) (event_id : UUID) (created_at : Int)
    (payload : CreateIntentRequest) (w : World T B) :
    Commits w (Request.run db upper drawn event_id created_at payload w).1
      (Request.run db upper drawn event_id created_at payload w).2.world := by
  cases hcommand : to_command payload with
  | error e =>
    rw [run_invalid hcommand]
    exact (refuse_raised (s := { world := w }) e).commits
  | ok command =>
    rcases run_cases hdb hcommand with h | ⟨risk, _, hinsert, h⟩ | ⟨intent, risk, approval, hc, _, hinsert, h⟩
    · exact h.commits
    · rw [h]
      exact .rejected rfl hinsert
    · rw [h]
      exact .created (isOrder_created _ intent risk approval) hinsert hc.intent_id.symm rfl

/-- Objects that could not be sent leave the session to be rolled back. -/
theorem sent_error {objects : Session} {e : Exc} (h : db.flush w objects = .error e) :
    sent db w objects = (.error (.raised e), { world := w, pending := objects }) := by
  rw [sent, h]

/-- The violation of the unique key is answered by a conflict. -/
theorem refuse_duplicate {e : Exc} (he : e.isA .IntegrityError = true) (hvalue : e.isA .ValueError = false)
    (hvalidation : e.isA .ValidationError = false) (hstate : ∃ c ∈ e.causes, c.sqlstate = some "23505")
    (hconstraint : ∃ c ∈ e.causes, c.constraint_name = some "uq_order_intent_idempotency") :
    (ExecutionRoute.refuse (.raised e)).eval db.serve s = (.ok (.http_exception 409 .duplicate_intent), { world := s.world }) := by
  have hdup : ExecutionRoute._is_duplicate_intent_integrity_error e = true := by
    obtain ⟨c, hc, hstate⟩ := hstate
    obtain ⟨d, hd, hconstraint⟩ := hconstraint
    rw [ExecutionRoute._is_duplicate_intent_integrity_error, Bool.and_eq_true]
    exact ⟨List.any_eq_true.mpr ⟨c, hc, by simp [hstate, ExecutionRoute._DUPLICATE_SQLSTATE]⟩,
      List.any_eq_true.mpr ⟨d, hd, by simp [hconstraint, ExecutionRoute._IDEMPOTENCY_CONSTRAINT]⟩⟩
  rw [ExecutionRoute.refuse, he, hvalue, hvalidation, hdup]
  rfl

/-- A request for an order that is there already commits nothing and is answered by a conflict. -/
theorem run_duplicate (hdb : db.ReportsDuplicates) (hcommand : to_command payload = .ok command) {result : IntentCreationResult}
    {session : Session} (hserve : (request drawn event_id created_at command).serve upper = (.ok result, session))
    (hstored : ∃ r ∈ session.orders, ∃ id r', w.rows id = some r' ∧ r'.idempotency_key = r.idempotency_key) :
    Request.run db upper drawn event_id created_at payload w =
      (.ok (.http_exception 409 .duplicate_intent), { world := w }) := by
  let req := request drawn event_id created_at command
  rcases req.create_cases .decimal upper with ⟨e, h⟩ | ⟨risk, h⟩ | ⟨intent, risk, approval, _, h⟩
  · cases hserve.symm.trans (h _ _)
  · cases hserve.symm.trans (h _ _)
  · cases hserve.symm.trans (h _ _)
    obtain ⟨e, hflush, he, hvalue, hvalidation, hstate, hconstraint⟩ := hdb w _ hstored
    have hrun := (h (fun s op => (OrderRepository.perform event_id created_at op).eval db.serve s) { world := w }).trans
      (congrArg (afterwards · _) (eval_create_with_outbox req intent risk approval))
    rw [run_command hcommand (hrun.trans (congrArg (fun answer => afterwards (afterwards answer _) _) (sent_error hflush)))]
    exact refuse_duplicate he hvalue hvalidation hstate hconstraint

end CreationAux

open CreationAux

/-- What a request does to the tables is what it does in the running system. -/
theorem run_creates {db : Database Caller B} (hdb : db.Sound) {upper : String → String} {drawn : Drawn} {event_id : UUID}
    {created_at : Int} {payload : CreateIntentRequest} {command : CreateIntentCommand} (hcommand : to_command payload = .ok command)
    (w : World Caller B) :
    w.create upper ⟨drawn, command, event_id, created_at⟩ (Request.run db upper drawn event_id created_at payload w).2.world := by
  unfold World.create
  rcases run_cases hdb hcommand with h | ⟨risk, hserve, hinsert, h⟩ | ⟨intent, risk, approval, _, hserve, hinsert, h⟩
  · rw [h.2]
    split
    · exact .inl rfl
    · exact .inl rfl
    · rfl
  · rw [hserve, h]
    exact .inr ⟨hinsert, rfl⟩
  · rw [hserve, h]
    exact .inr ⟨hinsert, rfl⟩

/-- Every request commits an order with its decisions and its event, or its refusal for risk, or nothing, and its reply says which. A
request that comes to create an order whose key is there already commits nothing and is answered by a conflict. -/
theorem creation_atomic {db : Database T B} (hdb : db.Sound) (hdup : db.ReportsDuplicates) (upper : String → String) (drawn : Drawn)
    (event_id : UUID) (created_at : Int) (payload : CreateIntentRequest) (w : World T B) :
    Commits w (Request.run db upper drawn event_id created_at payload w).1
        (Request.run db upper drawn event_id created_at payload w).2.world ∧
      ∀ command result session, to_command payload = .ok command →
        Request.serve upper ⟨drawn, command, event_id, created_at⟩ = (.ok result, session) →
        (∃ r ∈ session.orders, ∃ id r', w.rows id = some r' ∧ r'.idempotency_key = r.idempotency_key) →
        (Request.run db upper drawn event_id created_at payload w).1 = .ok (.http_exception 409 .duplicate_intent) ∧
          (Request.run db upper drawn event_id created_at payload w).2.world = w := by
  refine ⟨run_commits hdb upper drawn event_id created_at payload w, ?_⟩
  intro command result session hcommand hserve hstored
  rw [run_duplicate hdup hcommand hserve hstored]
  exact ⟨rfl, rfl⟩

namespace CreationAux

/-! ## A request that comes twice -/

def limitPayload : CreateIntentRequest where
  account_id := ⟨1⟩
  signal_id := ⟨2⟩
  target_version := 1
  market := "MT5"
  symbol := "XAUUSD"
  side := .BUY
  quantity := .ofInt 1
  limit_price := some (.ofInt 100)
  currency := "USD"
  expires_at := .aware 10 0
  account_capital := 1000
  resulting_symbol_weight := 0
  daily_loss := 0
  drawdown := 0
  risk_rules := limits
  approval_mode := .AUTO

/-- The payload is that of the sample command. -/
theorem to_command_limitPayload : to_command limitPayload = .ok (limitCommand false limits) := rfl

/-- A database that takes what it can and reports the violation otherwise. -/
theorem exists_database (T B : Type) : ∃ db : Database T B, db.Sound ∧ db.ReportsDuplicates := by
  classical
  let violation : DriverError := { sqlstate := some "23505", constraint_name := some "uq_order_intent_idempotency" }
  refine ⟨⟨fun w s => if w.Insertable s then .ok () else .error (.integrityError "duplicate key" [violation]), fun _ _ => .ok ()⟩,
    fun w s h => ?_, fun w s ⟨r, hr, id, r', hr', hkey⟩ => ?_⟩
  · by_contra hno
    dsimp only at h
    rw [if_neg hno] at h
    cases h
  · have hno : ¬w.Insertable s := fun h => h.unique_key r hr id r' hr' hkey
    exact ⟨_, if_neg hno, rfl, rfl, rfl, ⟨violation, List.mem_singleton_self _, rfl⟩, violation, List.mem_singleton_self _, rfl⟩

/-- The tables after the request has come once. -/
def onceCreated : World Caller Unit :=
  (World.empty ()).insert ((limitRequest false limits).created (limitIntent id false) (limitRisk false limits) limitApproval)

/-- Once created, the order is in its row. -/
theorem rows_onceCreated :
    onceCreated.rows ⟨13⟩ = some (Request.row (limitIntent id false) (limitRisk false limits) limitApproval) := by
  show Function.update (fun _ => none) (⟨13⟩ : UUID) (some _) ⟨13⟩ = _
  rw [Function.update_self]
  rfl

end CreationAux

/-- The second time, the request is answered by a conflict. -/
theorem creation_atomic_conflict : ∃ db : Database Caller Unit,
    (Request.run db id (limitRequest false limits).drawn ⟨14⟩ 0 limitPayload onceCreated).1 =
        .ok (.http_exception 409 .duplicate_intent) ∧
      (Request.run db id (limitRequest false limits).drawn ⟨14⟩ 0 limitPayload onceCreated).2.world = onceCreated := by
  obtain ⟨db, hdb, hdup⟩ := exists_database Caller Unit
  refine ⟨db, (creation_atomic hdb hdup id (limitRequest false limits).drawn ⟨14⟩ 0 limitPayload onceCreated).2 _ _ _
    to_command_limitPayload (serve_limitRequest id limitRisk_limits) ?_⟩
  exact ⟨Request.row (limitIntent id false) (limitRisk false limits) limitApproval, List.mem_singleton_self _, ⟨13⟩, _,
    rows_onceCreated, rfl⟩

end MtossBot

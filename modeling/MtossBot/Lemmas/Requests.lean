import MtossBot.Runtime.System

/-!
# What a request does

A request that creates an order leaves one order in its session, with the decisions it was created by; one that is refused leaves none.
-/

namespace MtossBot

/-- What a command's order is worth: its quantity at the price it is sized by. -/
def CreateIntentCommand.Worth (times : Times) (c : CreateIntentCommand) (notional : ℚ) : Prop :=
  ∃ anchor, c.pricing_reference = some anchor ∧ times c.quantity anchor = .ok notional

/-- The order has one worth. -/
theorem CreateIntentCommand.Worth.unique {times : Times} {c : CreateIntentCommand} {notional notional' : ℚ} (h : c.Worth times notional)
    (h' : c.Worth times notional') : notional = notional' := by
  obtain ⟨anchor, hanchor, htimes⟩ := h
  obtain ⟨anchor', hanchor', htimes'⟩ := h'
  cases hanchor.symm.trans hanchor'
  exact Except.ok.inj (htimes.symm.trans htimes')

/-- A request got as far as an order: what was computed on the way. -/
structure Request.CreatesBy (times : Times) (upper : String → String) (req : Request) (intent : ExecutionIntent) (risk : RiskDecision)
    (approval : ApprovalDecision) : Prop where
  evaluated : ∃ notional context, req.command.Worth times notional ∧ RiskContext.create (req.command.contextFields notional) = .ok context ∧
    risk = IntentService.overridden req.command.reduce_only
      (RiskEngine.evaluate req.drawn.decision_id context req.command.risk_rules)
  allowed : risk.allowed = true
  decided : ∃ notional, req.command.Worth times notional ∧ ApprovalPolicy.decide req.drawn.approval_id
    req.command.approval_config notional req.drawn.now req.command.expires_at = .ok approval
  built : ExecutionIntent.create (req.command.intentFields upper req.drawn.intent_id) = .ok intent

/-- So does a request to the running system, which multiplies `Decimal`s. -/
abbrev Request.Creates (upper : String → String) (req : Request) (intent : ExecutionIntent) (risk : RiskDecision)
    (approval : ApprovalDecision) : Prop :=
  req.CreatesBy .decimal upper intent risk approval

/-- What a request that creates an order leaves in its session. -/
def Request.created (req : Request) (intent : ExecutionIntent) (risk : RiskDecision) (approval : ApprovalDecision) :
    Session :=
  (OrderRepository.create_with_outbox req.event_id req.created_at intent (APPROVAL_STATES approval.status)
    risk.decision_id approval.approval_id risk approval {}).2

/-- How `create` ends after its call of the repository. -/
def afterwards {S α β : Type} : Except CreateError α × S → Except CreateError β → Except CreateError β × S
  | (.ok _, s), r => (r, s)
  | (.error e, s), _ => (.error e, s)

namespace RequestAux

open IntentService

variable {S : Type} (handler : S → (op : IntentRepositoryOp) → Except CreateError op.Res × S) {α β : Type}

/-- A step that raises nothing is passed. -/
theorem eval_lift_ok (a : α) (f : α → Prog intentRepository CreateError β) (s : S) :
    (lift (.ok a) >>= f).eval handler s = (f a).eval handler s := rfl

/-- An exception ends what follows it. -/
theorem eval_lift_error (e : Exc) (f : α → Prog intentRepository CreateError β) (s : S) :
    (lift (.error e) >>= f).eval handler s = (.error (.raised e), s) := rfl

/-- A call of the repository, and an end that does not depend on what it returns. -/
theorem eval_perform {op : IntentRepositoryOp} {f : op.Res → Prog intentRepository CreateError β} {r : Except CreateError β}
    (hf : ∀ a, f a = .done r) (s : S) :
    (Prog.perform (σ := intentRepository) op >>= f).eval handler s = afterwards (handler s op) r := by
  have h : ∀ answer, Prog.eval (σ := intentRepository) handler (Prog.bind (.done answer.1) f) answer.2 = afterwards answer r := by
    rintro ⟨e | a, s⟩
    · rfl
    · show Prog.eval (σ := intentRepository) handler (f a) s = _
      rw [hf]
      rfl
  exact h (handler s op)

end RequestAux

/-- What a request returns that creates an order. -/
def Request.result (req : Request) (risk : RiskDecision) (approval : ApprovalDecision) : IntentCreationResult :=
  ⟨req.drawn.intent_id, APPROVAL_STATES approval.status, risk.decision_id, approval.approval_id⟩

open RequestAux in
/-- Whatever the repository answers, `create` raises without a call, or has its refusal recorded, or has its order created. -/
theorem Request.create_cases (times : Times) (upper : String → String) (req : Request) :
    (∃ e, ∀ {S : Type} (handler : S → (op : IntentRepositoryOp) → Except CreateError op.Res × S) (s : S),
      (IntentService.create times upper req.drawn req.command).eval handler s = (.error (.raised e), s)) ∨
    (∃ risk, ∀ {S : Type} (handler : S → (op : IntentRepositoryOp) → Except CreateError op.Res × S) (s : S),
      (IntentService.create times upper req.drawn req.command).eval handler s =
        afterwards (handler s (.record_risk_rejection req.command.account_id req.command.signal_id risk))
          (.error (.riskRejected risk))) ∨
    ∃ intent risk approval, req.CreatesBy times upper intent risk approval ∧
      ∀ {S : Type} (handler : S → (op : IntentRepositoryOp) → Except CreateError op.Res × S) (s : S),
        (IntentService.create times upper req.drawn req.command).eval handler s =
          afterwards (handler s (.create_with_outbox intent (APPROVAL_STATES approval.status) risk.decision_id
            approval.approval_id risk approval)) (.ok (req.result risk approval)) := by
  unfold IntentService.create
  cases hanchor : req.command.pricing_reference with
  | none => exact .inl ⟨_, fun _ _ => rfl⟩
  | some anchor =>
    simp only
    cases htimes : times req.command.quantity anchor with
    | error e => exact .inl ⟨e, fun handler s => eval_lift_error handler e _ s⟩
    | ok notional =>
      simp only [eval_lift_ok]
      cases hcontext : RiskContext.create (req.command.contextFields notional) with
      | error e => exact .inl ⟨e, fun handler s => eval_lift_error handler e _ s⟩
      | ok context =>
        simp only [eval_lift_ok]
        generalize hrisk : IntentService.overridden req.command.reduce_only
          (RiskEngine.evaluate req.drawn.decision_id context req.command.risk_rules) = risk
        split
        · rename_i hallowed
          unfold IntentService.persist
          cases happroval : ApprovalPolicy.decide req.drawn.approval_id req.command.approval_config
              notional req.drawn.now req.command.expires_at with
          | error e => exact .inl ⟨e, fun handler s => eval_lift_error handler e _ s⟩
          | ok approval =>
            simp only [eval_lift_ok]
            cases hintent : ExecutionIntent.create (req.command.intentFields upper req.drawn.intent_id) with
            | error e => exact .inl ⟨e, fun handler s => eval_lift_error handler e _ s⟩
            | ok intent =>
              refine .inr (.inr ⟨intent, risk, approval, ⟨⟨notional, context, ⟨anchor, hanchor, htimes⟩, hcontext, hrisk.symm⟩, hallowed,
                ⟨notional, ⟨anchor, hanchor, htimes⟩, happroval⟩, hintent⟩, fun handler s => ?_⟩)
              rw [eval_lift_ok]
              exact eval_perform handler (fun _ => rfl) s
        · exact .inr (.inl ⟨risk, fun handler s => eval_perform handler (fun _ => rfl) s⟩)

/-- A request fails, or is refused with nothing but an audit event, or creates one order. -/
theorem Request.serve_cases (upper : String → String) (req : Request) :
    (∃ e s, req.serve upper = (.error (.raised e), s)) ∨
      (∃ risk, req.serve upper = (.error (.riskRejected risk),
        OrderRepository.record_risk_rejection req.command.account_id req.command.signal_id risk {})) ∨
      ∃ result intent risk approval, req.Creates upper intent risk approval ∧
        req.serve upper = (.ok result, req.created intent risk approval) := by
  rcases req.create_cases .decimal upper with ⟨e, h⟩ | ⟨risk, h⟩ | ⟨intent, risk, approval, hc, h⟩
  · exact .inl ⟨e, _, h _ _⟩
  · exact .inr (.inl ⟨risk, h _ _⟩)
  · exact .inr (.inr ⟨_, intent, risk, approval, hc, h _ _⟩)

namespace Request

variable {upper : String → String} {req : Request} {intent : ExecutionIntent} {risk : RiskDecision}
  {approval : ApprovalDecision}

/-- The row of the order. -/
def row (intent : ExecutionIntent) (risk : RiskDecision) (approval : ApprovalDecision) : OrderIntentRecord :=
  OrderRepository.record intent (APPROVAL_STATES approval.status) risk.decision_id approval.approval_id

/-- It is the only row in the session. -/
theorem created_orders : (req.created intent risk approval).orders = [row intent risk approval] := rfl

/-- The order is built from the fields of its command. -/
theorem Creates.normalise (h : req.Creates upper intent risk approval) :
    intent.toExecutionIntentFields = (req.command.intentFields upper req.drawn.intent_id).normalise :=
  ExecutionIntent.create_ok h.built

/-- To normalise leaves the identifier and the key. -/
theorem normalise_ids (f : ExecutionIntentFields) :
    f.normalise.intent_id = f.intent_id ∧ f.normalise.idempotency_key = f.idempotency_key := by
  rcases f with ⟨_, _, _, _, _, _, _, _, _, _, _, _, _, _, _, _, ⟨_⟩ | ⟨_, _⟩, _⟩ <;> exact ⟨rfl, rfl⟩

/-- The created order has the identifier that was drawn. -/
theorem Creates.intent_id (h : req.Creates upper intent risk approval) : intent.intent_id = req.drawn.intent_id := by
  rw [h.normalise]
  exact (normalise_ids _).1

/-- An order that is queued was approved, before it expired. -/
theorem Creates.approved (h : req.Creates upper intent risk approval)
    (hq : (row intent risk approval).state = .QUEUED) :
    approval.status = .APPROVED ∧ ∃ t o u p, req.drawn.now = .aware t o ∧ req.command.expires_at = .aware u p ∧ t < u := by
  have hstatus : approval.status = .APPROVED := by
    have hq' : APPROVAL_STATES approval.status = .QUEUED := hq
    cases hs : approval.status <;> rw [hs] at hq' <;> first | rfl | cases hq'
  obtain ⟨_, _, hdecide⟩ := h.decided
  obtain ⟨t, o, u, p, hnow, hexpiry, happroves⟩ := ApprovalPolicy.decide_approved hdecide hstatus
  exact ⟨hstatus, t, o, u, p, hnow, hexpiry, happroves.1⟩

/-- An order whose risk has violations was let through because it closes a position. -/
theorem Creates.reduce_only (h : req.Creates upper intent risk approval) (hv : risk.violations ≠ []) :
    req.command.reduce_only = true := by
  obtain ⟨_, context, _, _, rfl⟩ := h.evaluated
  by_contra hno
  have hallowed := h.allowed
  rw [Bool.not_eq_true] at hno
  simp only [IntentService.overridden, hno, Bool.false_and, Bool.false_eq_true, if_false] at hallowed hv
  exact hv ((RiskEngine.evaluate_allowed_iff _ _ _).mp hallowed)

end Request

/-- A request that gets through every check creates its order. -/
theorem Request.serve_created {upper : String → String} {req : Request} {notional : ℚ} {context : RiskContext}
    {risk : RiskDecision} {approval : ApprovalDecision} {intent : ExecutionIntent} (hworth : req.command.Worth .decimal notional)
    (hcontext : RiskContext.create (req.command.contextFields notional) = .ok context)
    (hrisk : IntentService.overridden req.command.reduce_only
      (RiskEngine.evaluate req.drawn.decision_id context req.command.risk_rules) = risk)
    (hallowed : risk.allowed = true)
    (hdecided : ApprovalPolicy.decide req.drawn.approval_id req.command.approval_config notional req.drawn.now req.command.expires_at =
      .ok approval)
    (hbuilt : ExecutionIntent.create (req.command.intentFields upper req.drawn.intent_id) = .ok intent) :
    req.serve upper = (.ok (req.result risk approval), req.created intent risk approval) := by
  subst hrisk
  obtain ⟨anchor, hanchor, htimes⟩ := hworth
  unfold Request.serve IntentService.create
  simp only [hanchor, htimes, hcontext, RequestAux.eval_lift_ok, hallowed, if_true, IntentService.persist, hdecided, hbuilt]
  rfl

/-- The key of an order is one that the model of an order accepts. -/
theorem require_sha256_key_build (upper : String → String) (account_id signal_id : UUID) (target_version : Int) (symbol : String)
    (side : OrderSide) :
    ExecutionIntentFields.require_sha256_key (build_intent_key upper account_id signal_id target_version symbol side) =
      .ok (build_intent_key upper account_id signal_id target_version symbol side) := by
  unfold ExecutionIntentFields.require_sha256_key build_intent_key sha256_hexdigest
  rw [if_neg]
  rw [String.length_ofList, Sha256.length_hexdigest, String.toList_ofList, not_or]
  refine ⟨fun h => h rfl, ?_⟩
  intro h
  obtain ⟨c, hc, hbad⟩ := List.any_eq_true.mp h
  exact of_decide_eq_true hbad (Sha256.mem_hexdigest c hc)

end MtossBot

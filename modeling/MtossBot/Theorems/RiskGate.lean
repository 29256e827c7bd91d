import MtossBot.Lemmas.ExecutionBase
import MtossBot.Lemmas.LimitRuns

/-!
# The risk gate

A position is opened only for an order that was approved in time and whose risk has no violations, as long as no closing order with a
limit is let through against its risk: the row of an order does not say that it closes a position.
-/

namespace MtossBot

/-- The request is for a closing order with a limit, that is denied for its risk and that the policy approves at once. -/
structure Request.Bypasses (req : Request) : Prop where
  reduce_only : req.command.reduce_only = true
  order_type : req.command.order_type = .LIMIT
  denied : ∃ notional context, req.command.Worth .decimal notional ∧ RiskContext.create (req.command.contextFields notional) = .ok context ∧
    RiskEngine.Denied context req.command.risk_rules
  approved : ∃ notional now offset expires_at offset', req.command.Worth .decimal notional ∧
    req.drawn.now = .aware now offset ∧ req.command.expires_at = .aware expires_at offset' ∧
    ApprovalPolicy.Approves req.command.approval_config notional now expires_at

/-- No request bypasses the gate. -/
def GateKept (_ : List Event) (l : Event) : Prop := ∀ req, l = .env req → ¬req.Bypasses

/-- The order with an id is there by a request, with the decisions on it. -/
structure OrderedBy (upper : String → String) (w : World Caller FakeBroker) (ls : List Event) (intent_id : UUID) (req : Request)
    (risk : RiskDecision) (approval : ApprovalDecision) : Prop where
  requested : .env req ∈ ls
  created : ∃ intent, req.Creates upper intent risk approval ∧ w.rows intent_id = some (Request.row intent risk approval)

/-- An order was approved before its expiry, and its risk has no violations. -/
structure Cleared (req : Request) (risk : RiskDecision) (approval : ApprovalDecision) : Prop where
  approved : approval.status = .APPROVED
  in_time : ∃ now offset expires_at offset', req.drawn.now = .aware now offset ∧ req.command.expires_at = .aware expires_at offset' ∧
    now < expires_at
  unviolated : risk.violations = []

/-- No order waits for its execution. -/
def NoneQueued {B : Type} (w : World Caller B) : Prop := ∀ id r, w.rows id = some r → r.state ≠ .QUEUED

namespace RiskGateAux

open Phase

variable {w w' : World Caller FakeBroker} {g : Caller → Option (executionProtocol False).Phase} {ls : List Event} {l : Event}
  {upper : String → String} {dbRaises : Exc → Prop}

/-- Every queued order is as a request left it. -/
def Requested (upper : String → String) (w : World Caller FakeBroker) (ls : List Event) : Prop :=
  ∀ id r, w.rows id = some r → r.state = .QUEUED →
    ∃ req intent risk approval, .env req ∈ ls ∧ req.Creates upper intent risk approval ∧ r = Request.row intent risk approval

/-- What was requested stays requested. -/
theorem Requested.append (h : Requested upper w ls) (l : Event) : Requested upper w (ls ++ [l]) := by
  intro id r hr hq
  obtain ⟨req, intent, risk, approval, hmem, hc, hrow⟩ := h id r hr hq
  exact ⟨req, intent, risk, approval, List.mem_append_left _ hmem, hc, hrow⟩

/-- A row that is written has left the queue. -/
theorem Requested.effect {t : Caller} (hs : Sound w) (h : Requested upper w ls) (ho : OrderEffect w t w') : Requested upper w' ls := by
  intro id r hr hq
  rcases ho.rows_cases hs with hrows | ⟨r₀, r₁, result, _, _, hq₀, hst, hrows⟩
  · exact h id r (hrows ▸ hr) hq
  · rw [hrows, Function.update_apply] at hr
    split at hr
    · rw [← Option.some.inj hr] at hq
      exact absurd hq (hst.state_ne_queued hq₀)
    · exact h id r hr hq

/-- A step of the system leaves the orders requested. -/
theorem Requested.step {Φ : Caller → (executionProtocol False).Phase → Except Exc Outcome → Prop} {start : World Caller FakeBroker → Prop}
    {g' : Caller → Option (executionProtocol False).Phase} (hb : Base False w g) (h : Requested upper w ls)
    (hst : System.PhaseStep (system upper Broker.fake dbRaises start) (executionProtocol False) Φ w g l w' g') :
    Requested upper w' (ls ++ [l]) := by
  rcases hb.orders_step hst with ⟨t, ho⟩ | ⟨req, rfl, hc⟩
  · exact (h.effect hb.sound ho).append l
  · rcases create_cases hc with ⟨ho, _⟩ | ⟨intent, risk, approval, hcreates, hi, rfl⟩
    · intro id r hr hq
      rw [ho.rows] at hr
      exact h.append _ id r hr hq
    · intro id r hr hq
      rw [rows_insert, Function.update_apply] at hr
      split at hr
      · exact ⟨req, intent, risk, approval, by simp, hcreates, (Option.some.inj hr).symm⟩
      · exact h.append _ id r hr hq

/-! ## The broker -/

/-- The answers to submissions are all that changes the fake broker. -/
theorem broker_answer {t : Caller} {op : Call} {r : Except Exc op.Res} (h : w.answer Broker.fake dbRaises t w' op r) :
    w'.broker = w.broker ∨ ∃ intent, op = .submit intent := by
  cases World.answer_move h with
  | @submit intent => exact .inr ⟨intent, rfl⟩
  | lookup hb =>
    obtain ⟨_, rfl⟩ := hb
    exact .inl rfl
  | _ => exact .inl rfl

variable {start : World Caller FakeBroker → Prop} {c c' : Config calls Exc Outcome Caller (World Caller FakeBroker)}

/-- A request does not ask the broker. -/
theorem broker_create {req : Request} (h : w.create upper req w') : w'.broker = w.broker := by
  unfold World.create at h
  split at h
  · rcases h with rfl | ⟨_, rfl⟩ <;> rfl
  · rcases h with rfl | ⟨_, rfl⟩ <;> rfl
  · rw [h]

/-- Only a submission that is answered changes the fake broker. -/
theorem broker_step (hst : System.Step (system upper Broker.fake dbRaises start) c l c') :
    c'.shared.broker = c.shared.broker ∨ ∃ t intent r, l = .answer t (.submit intent) r := by
  cases hst with
  | spawn _ => exact .inl rfl
  | @call w w' _ t op _ _ hc =>
    refine .inl ?_
    cases op with
    | submit intent =>
      obtain ⟨b, rfl, rfl⟩ := hc
      rfl
    | _ =>
      obtain rfl := hc
      rfl
  | @answer w w' _ t op _ r _ ha =>
    rcases broker_answer ha with h | ⟨intent, rfl⟩
    · exact .inl h
    · exact .inr ⟨t, intent, r, rfl⟩
  | @finish w w' _ t _ _ hfin =>
    obtain rfl : w' = (w.rollback t).rollback_outbox t := hfin
    exact .inl rfl
  | crash _ hcr =>
    obtain ⟨w₁, h₁ | ⟨_, h₁⟩, h₂ | ⟨_, h₂⟩⟩ := hcr <;> subst h₁ h₂ <;> exact .inl rfl
  | @env w w' _ req hc => exact .inl (broker_create hc)

/-! ## What a submission is for -/

/-- To override a decision leaves its violations. -/
theorem violations_overridden (reduce_only : Bool) (risk : RiskDecision) :
    (IntentService.overridden reduce_only risk).violations = risk.violations := by
  unfold IntentService.overridden
  split <;> rfl

/-- A limit order that is approved although its risk has violations comes from a request that bypasses the gate. -/
theorem bypasses_of_violations {req : Request} {intent : ExecutionIntent} {risk : RiskDecision} {approval : ApprovalDecision}
    (h : req.Creates upper intent risk approval) (hlimit : intent.order_type = .LIMIT) (happroved : approval.status = .APPROVED)
    (hv : risk.violations ≠ []) : req.Bypasses where
  reduce_only := h.reduce_only hv
  order_type := by
    obtain ⟨t, ht⟩ := OrderIntentRecord.normalise_expires_at (req.command.intentFields upper req.drawn.intent_id)
    rw [h.normalise, ht] at hlimit
    exact hlimit
  denied := by
    obtain ⟨notional, context, hworth, hcontext, rfl⟩ := h.evaluated
    refine ⟨notional, context, hworth, hcontext, (RiskEngine.evaluate_denied_iff req.drawn.decision_id _ _).mp ?_⟩
    rw [violations_overridden] at hv
    rw [← Bool.not_eq_true, RiskEngine.evaluate_allowed_iff]
    exact hv
  approved := by
    obtain ⟨notional, hworth, hdecide⟩ := h.decided
    obtain ⟨t, o, u, p, hnow, hexpiry, happroves⟩ := ApprovalPolicy.decide_approved hdecide happroved
    exact ⟨notional, t, o, u, p, hworth, hnow, hexpiry, happroves⟩

/-- A task that is answered on its submission submitted the order of a queued row that it holds. -/
theorem submission_row {t : Caller} {intent : ExecutionIntent} {q₀ q : Phase} (hb : Base False w g) (hg : g t = some q)
    (hi : Issue False q₀ (.submit intent) q) :
    ∃ r, r.as_domain = .ok intent ∧ w.rows intent.intent_id = some r ∧ r.state = .QUEUED := by
  have hrow := hb.row t q hg
  have hissue := hi.on_orders rfl
  obtain ⟨row₀, event₀⟩ := q₀
  obtain ⟨row, event⟩ := q
  simp only at hissue hrow
  cases hissue with
  | @submit r _ hr =>
    obtain ⟨hheld, hqueued, _⟩ := hrow
    exact ⟨r, hr, OrderIntentRecord.as_domain_intent_id hr ▸ hheld.row, hqueued⟩

/-- A position is opened for an order of a request, approved in time, and without violations or by bypassing the gate. -/
theorem opened_by {ok : List Event → Event → Prop} (hr : System.Run (system upper Broker.fake dbRaises NoneQueued) ok c ls)
    (hst : System.Step (system upper Broker.fake dbRaises NoneQueued) c l c')
    (hopen : c'.shared.broker.positions ≠ c.shared.broker.positions) :
    ∃ t intent r req risk approval, l = .answer t (.submit intent) r ∧ OrderedBy upper c.shared ls intent.intent_id req risk approval ∧
      (risk.violations = [] ∨ req.Bypasses) ∧ (risk.violations = [] → Cleared req risk approval) := by
  obtain ⟨t, intent, r, rfl⟩ : ∃ t intent r, l = .answer t (.submit intent) r :=
    (broker_step hst).resolve_left fun h => hopen (congrArg FakeBroker.positions h)
  have hbase : System.Invariant (system upper Broker.fake dbRaises NoneQueued) ok (executionProtocol False) Ended
      fun w _ g => Base False w g :=
    baseInvariant (fun _ _ h => h.elim) fun _ _ _ _ _ h => h.elim
  have hinv := hbase.and (K := fun w ls _ => Requested upper w ls) (fun w hw id r hr hq => absurd hq (hw.1 id r hr))
    fun _ _ _ _ _ _ hb _ h hst _ => h.step hb hst
  obtain ⟨g, ⟨hb, hrequested⟩, hfit⟩ := hinv.holds hr
  cases hst with
  | @answer _ _ _ _ _ k _ ht _ =>
    obtain ⟨q₀, q, hg, hi, _⟩ := (hfit t).of_waiting ht
    obtain ⟨record, hdomain, hrow, hqueued⟩ := submission_row hb hg hi
    obtain ⟨req, intent₀, risk, approval, hmem, hcreates, rfl⟩ := hrequested _ _ hrow hqueued
    obtain ⟨happroved, hin_time⟩ := hcreates.approved hqueued
    refine ⟨t, intent, r, req, risk, approval, rfl, ⟨hmem, intent₀, hcreates, hrow⟩, ?_, fun hv => ⟨happroved, hin_time, hv⟩⟩
    exact or_iff_not_imp_left.mpr (bypasses_of_violations hcreates (order_type_of_as_domain hdomain) happroved)

end RiskGateAux

open RiskGateAux in
/-- As long as no request bypasses the gate, a position is opened only for an order that was approved in time and has no violations. -/
theorem gated_positions {upper : String → String} {dbRaises : Exc → Prop}
    {c c' : Config calls Exc Outcome Caller (World Caller FakeBroker)} {ls : List Event} {l : Event}
    (hr : System.Run (system upper Broker.fake dbRaises NoneQueued) GateKept c ls)
    (hst : System.Step (system upper Broker.fake dbRaises NoneQueued) c l c')
    (hopen : c'.shared.broker.positions ≠ c.shared.broker.positions) :
    ∃ t intent r req risk approval, l = .answer t (.submit intent) r ∧
      OrderedBy upper c.shared ls intent.intent_id req risk approval ∧ Cleared req risk approval := by
  obtain ⟨t, intent, r, req, risk, approval, hl, hordered, hv, hcleared⟩ := opened_by hr hst hopen
  obtain ⟨pre, post, hls⟩ := List.append_of_mem hordered.requested
  have hkept : ¬req.Bypasses := hr.all_ok pre _ post hls req rfl
  exact ⟨t, intent, r, req, risk, approval, hl, hordered, hcleared (hv.resolve_right hkept)⟩

namespace RiskGateAux

/-- Until a submission is answered, the fake broker is as it was made. -/
theorem broker_before {upper : String → String} {dbRaises : Exc → Prop} {ok : List Event → Event → Prop}
    {start : World Caller FakeBroker → Prop} {c : Config calls Exc Outcome Caller (World Caller FakeBroker)} {ls : List Event}
    (hr : System.Run (system upper Broker.fake dbRaises start) ok c ls) (h : ∀ t intent r, .answer t (.submit intent) r ∉ ls) :
    c.shared.broker = {} := by
  induction hr with
  | init hs => exact hs.2.2.2
  | @step c c' ls l _ hst _ ih =>
    rcases broker_step hst with hsame | ⟨t, intent, r, rfl⟩
    · exact hsame.trans (ih fun t intent r hmem => h t intent r (List.mem_append_left _ hmem))
    · exact absurd (List.mem_append_right _ (List.mem_singleton_self _)) (h t intent r)

/-- The steps of the first execution up to its submission. -/
def submitting (reduce_only : Bool) (risk_rules : List RiskRule) : List Event :=
  [.env (limitRequest reduce_only risk_rules), .spawn (executor 0),
    .call (executor 0) (.scalar_for_update ⟨13⟩),
    .answer (executor 0) (.scalar_for_update ⟨13⟩) (.ok (some (limitRow id reduce_only risk_rules))),
    .call (executor 0) (.lookup_by_client_order_id ⟨1⟩ (limitKey id)),
    .answer (executor 0) (.lookup_by_client_order_id ⟨1⟩ (limitKey id)) (.ok none),
    .call (executor 0) (.submit (limitRead id reduce_only))]

/-- The run has one request. -/
theorem request_submitting {reduce_only : Bool} {risk_rules : List RiskRule} {req : Request}
    (h : .env req ∈ submitting reduce_only risk_rules) : req = limitRequest reduce_only risk_rules := by
  simpa [submitting] using h

/-- Created and executed, the limit order opens a position, also if it closes one. -/
theorem limit_opens {reduce_only : Bool} {risk_rules : List RiskRule} (hrisk : (limitRisk reduce_only risk_rules).allowed = true) :
    ∃ c c' l, System.Run (system id Broker.fake (fun _ => False) NoneQueued) (fun _ _ => True) c (submitting reduce_only risk_rules) ∧
      System.Step (system id Broker.fake (fun _ => False) NoneQueued) c l c' ∧
      c'.shared.broker.positions ≠ c.shared.broker.positions := by
  have hsubmit : ∀ t, ∃ broker' key position, FakeBroker.submit (.aware t 0) {} (limitRead id reduce_only) =
      (.ok (limitSubmitted id reduce_only), broker') ∧ broker'.positions = Dict.empty.set key position :=
    fun t => FakeBroker.submit_opens t rfl rfl rfl
  obtain ⟨broker', _, _, hsubmitted, _⟩ := hsubmit 0
  have hrun : System.Run (system id Broker.fake (fun _ => False) NoneQueued) (fun _ _ => True) _ _ :=
    run_executed (b := ({} : FakeBroker)) (fun _ _ h => by cases h) (show Broker.fake.init {} from rfl) hrisk ⟨rfl, rfl⟩ rfl
      ⟨0, hsubmitted.symm⟩
  obtain ⟨c, c', hbefore, hst⟩ := hrun.split (submitting reduce_only risk_rules)
    (.answer (executor 0) (.submit (limitRead id reduce_only)) (.ok (limitSubmitted id reduce_only))) _ rfl
  refine ⟨c, c', _, hbefore, hst, ?_⟩
  have hempty : c.shared.broker = {} := broker_before hbefore fun t intent r h => by simp [submitting] at h
  cases hst with
  | @answer w w' _ _ _ _ _ _ ha =>
    obtain ⟨b, ⟨t, hb⟩, rfl⟩ := ha
    have hempty : w.broker = {} := hempty
    obtain ⟨broker', key, position, hsubmitted, hpositions⟩ := hsubmit t
    rw [hempty, hsubmitted] at hb
    obtain rfl := (Prod.mk.inj hb).2
    show b.positions ≠ w.broker.positions
    rw [hpositions, hempty]
    intro h
    have hget := congrArg (Dict.get? · key) h
    rw [Dict.get?_set_self] at hget
    cases hget

end RiskGateAux

open RiskGateAux in
/-- An order within its limits opens a position, and it was approved. -/
theorem gated_positions_limit : ∃ c ls intent_id req risk approval,
    System.Run (system id Broker.fake (fun _ => False) NoneQueued) GateKept c ls ∧ OrderedBy id c.shared ls intent_id req risk approval ∧
      Cleared req risk approval := by
  obtain ⟨c, c', l, hrun, hst, hopen⟩ := limit_opens limitRisk_limits
  have hkept : System.Run (system id Broker.fake (fun _ => False) NoneQueued) GateKept c _ := hrun.of_all fun pre l post hls req hl hbypass => by
    have hmem : .env req ∈ submitting false limits := by rw [hls, ← hl]; exact List.mem_append_right _ List.mem_cons_self
    have hopens : (limitRequest false limits).command.reduce_only = true := request_submitting hmem ▸ hbypass.reduce_only
    cases hopens
  obtain ⟨_, intent, _, req, risk, approval, _, hordered, hcleared⟩ := gated_positions hkept hst hopen
  exact ⟨c, _, intent.intent_id, req, risk, approval, hkept, hordered, hcleared⟩

open RiskGateAux in
/-- A closing order without any rule for its risk opens a position. -/
theorem closing_order_opens : ∃ c c' ls l, System.Run (system id Broker.fake (fun _ => False) NoneQueued) (fun _ _ => True) c ls ∧
    System.Step (system id Broker.fake (fun _ => False) NoneQueued) c l c' ∧
    c'.shared.broker.positions ≠ c.shared.broker.positions ∧
    (∃ t intent r req risk approval, l = .answer t (.submit intent) r ∧ OrderedBy id c.shared ls intent.intent_id req risk approval ∧
      req.command.reduce_only = true) ∧
    ∀ intent_id req risk approval, OrderedBy id c.shared ls intent_id req risk approval → ¬Cleared req risk approval := by
  obtain ⟨c, c', l, hrun, hst, hopen⟩ := limit_opens limitRisk_reduce_only
  obtain ⟨t, intent, r, req, risk, approval, hl, hordered, _⟩ := opened_by hrun hst hopen
  have hcloses : req.command.reduce_only = true := request_submitting hordered.requested ▸ rfl
  refine ⟨c, c', _, l, hrun, hst, hopen, ⟨t, intent, r, req, risk, approval, hl, hordered, hcloses⟩,
    fun _ req risk approval hordered hcleared => ?_⟩
  obtain ⟨_, hcreates, _⟩ := hordered.created
  obtain ⟨_, context, _, _, rfl⟩ := hcreates.evaluated
  obtain rfl := request_submitting hordered.requested
  have hv := hcleared.unviolated
  rw [violations_overridden] at hv
  cases hv

end MtossBot

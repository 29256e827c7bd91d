import MtossBot.Lemmas.ExecutionBase
import MtossBot.Lemmas.LimitRuns

/-!
# At most one submission for an order

However executions and workers interleave, fail and crash, an order is submitted at most once, if the broker finds every order whose
submission was started.
-/

namespace MtossBot

/-- The order that a step submits: a submission counts from its call on, whatever the answer is. -/
def submission : Event → Option (UUID × String)
  | .call _ (.submit intent) => some (intent.account_id, intent.idempotency_key)
  | _ => none

/-- The orders that were submitted, one entry for each call. -/
def submissions (ls : List Event) : List (UUID × String) := ls.filterMap submission

/-- What the port promises of a look-up: it finds nothing only if no submission of the order was started. -/
def PortContract (ls : List Event) (l : Event) : Prop :=
  ∀ t account_id client_order_id, l = .answer t (.lookup_by_client_order_id account_id client_order_id) (.ok none) →
    (account_id, client_order_id) ∉ submissions ls

namespace AtMostOnceAux

open Phase

variable {B : Type} {w w' : World Caller B} {t u : Caller} {g g' : Caller → Option (executionProtocol False).Phase} {ls : List Event} {l : Event}

/-- The order of a row. -/
def order (r : OrderIntentRecord) : UUID × String := (r.account_id, r.idempotency_key)

/-- A task that found no submission of its order is right, and no order was submitted twice. -/
structure OnceSoFar (ls : List Event) (g : Caller → Option Phase) : Prop where
  fresh : ∀ t q r, g t = some q → q.row = .fresh r → order r ∉ submissions ls
  nodup : (submissions ls).Nodup

theorem submissions_append : submissions (ls ++ [l]) = submissions ls ++ (submission l).toList := by
  rw [submissions, List.filterMap_append]
  cases h : submission l <;> simp [submissions, h]

/-- A step that submits is a call of `submit`. -/
theorem submission_eq_some {order : UUID × String} (h : submission l = some order) :
    ∃ t intent, l = .call t (.submit intent) ∧ order = (intent.account_id, intent.idempotency_key) := by
  unfold submission at h
  split at h
  · exact ⟨_, _, rfl, (Option.some.inj h).symm⟩
  · cases h

/-- The order read back from a row is the order of the row. -/
theorem order_as_domain {r : OrderIntentRecord} {intent : ExecutionIntent} (h : r.as_domain = .ok intent) :
    (intent.account_id, intent.idempotency_key) = order r := by
  rw [order, OrderIntentRecord.as_domain_account_id h, OrderIntentRecord.as_domain_idempotency_key h]

variable {broker : Broker B} {dbRaises : Exc → Prop} {start : World Caller B → Prop} {upper : String → String}

abbrev AllowedStep (upper : String → String) (broker : Broker B) (dbRaises : Exc → Prop) (start : World Caller B → Prop)
    (w : World Caller B) (g : Caller → Option (executionProtocol False).Phase) (l : Event) (w' : World Caller B)
    (g' : Caller → Option (executionProtocol False).Phase) : Prop :=
  System.PhaseStep (system upper broker dbRaises start) (executionProtocol False) Ended w g l w' g'

/-- Only a task that found no submission of its order submits it. -/
theorem submit_phase {intent : ExecutionIntent} (hst : AllowedStep upper broker dbRaises start w g (.call t (.submit intent)) w' g') :
    ∃ q r q', g t = some q ∧ q.row = .fresh r ∧ r.as_domain = .ok intent ∧ g' t = some q' ∧ q'.row = .submitting r := by
  cases hst with
  | @call _ _ _ q q' hg hi _ =>
    obtain ⟨row, event⟩ := q
    obtain ⟨row', event'⟩ := q'
    have hrow := hi.on_orders rfl
    simp only at hrow
    cases hrow with
    | @submit r _ hr => exact ⟨_, r, _, hg, rfl, hr, Function.update_self _ _ _, rfl⟩

/-- A task comes to find no submission of its order by a look-up for it. -/
theorem fresh_phase {r : OrderIntentRecord} {q' : Phase} (hst : AllowedStep upper broker dbRaises start w g l w' g')
    (hq : g' t = some q') (hrow : q'.row = .fresh r) :
    (∃ q, g t = some q ∧ q.row = .fresh r) ∨
      l = .answer t (.lookup_by_client_order_id (order r).1 (order r).2) (.ok none) := by
  rcases hst.phase_cases hq with ⟨_, hg⟩ | ⟨_, rfl⟩ | ⟨op, q, _, hg, hi⟩ | ⟨op, answer, q₀, q, rfl, hg, hi, ha⟩
  · exact .inl ⟨q', hg, hrow⟩
  · cases hrow
  · cases hi with
    | row _ hi =>
      obtain rfl := hrow
      cases hi
    | event hi => exact .inl ⟨_, hg, hrow⟩
  · cases ha with
    | event ha => exact .inl ⟨_, hg, hrow⟩
    | row ha =>
      obtain rfl := hrow
      cases ha with
      | unknown =>
        right
        have hissue := hi.on_orders rfl
        obtain ⟨row₀, event₀⟩ := q₀
        cases hissue with
        | look _ hr => rw [← order_as_domain hr]

theorem onceSoFar_step (hb : Base False w g) (h : OnceSoFar ls g) (hst : AllowedStep upper broker dbRaises start w g l w' g')
    (hl : PortContract ls l) : OnceSoFar (ls ++ [l]) g' := by
  have hfresh : ∀ t q r, g' t = some q → q.row = .fresh r → order r ∉ submissions ls := by
    intro t q r hq hrow
    rcases fresh_phase hst hq hrow with ⟨q₀, hg, hrow₀⟩ | rfl
    · exact h.fresh t q₀ r hg hrow₀
    · exact hl t _ _ rfl
  rcases hs : submission l with _ | submitted
  · have heq : submissions (ls ++ [l]) = submissions ls := by rw [submissions_append, hs]; exact List.append_nil _
    exact ⟨heq ▸ hfresh, heq ▸ h.nodup⟩
  · obtain ⟨t, intent, rfl, rfl⟩ := submission_eq_some hs
    obtain ⟨q, r, q', hg, hrow, hr, hg', hrow'⟩ := submit_phase hst
    have hheld := hb.row t q hg
    rw [hrow] at hheld
    refine ⟨?_, ?_⟩
    · intro u p s hp hps
      rw [submissions_append, hs, Option.toList_some, List.mem_append, List.mem_singleton, not_or]
      refine ⟨hfresh u p s hp hps, ?_⟩
      intro heq
      rw [order_as_domain hr] at heq
      have hne : u ≠ t := by
        rintro rfl
        rw [hg', Option.some.injEq] at hp
        rw [hp, hps] at hrow'
        cases hrow'
      -- two tasks that are about to submit one order both hold its row
      obtain ⟨p₀, hp₀, hps₀⟩ : ∃ p₀, g u = some p₀ ∧ p₀.row = .fresh s := by
        rcases fresh_phase hst hp hps with h | h
        · exact h
        · cases h
      have hother := hb.row u p₀ hp₀
      rw [hps₀] at hother
      exact hne (hb.sound.holder_unique hother.1 hheld.1 (congrArg Prod.snd heq))
    · rw [submissions_append, hs, Option.toList_some, List.nodup_append]
      refine ⟨h.nodup, List.nodup_singleton _, ?_⟩
      intro a ha b hb hab
      rw [List.mem_singleton.mp hb, order_as_domain hr] at hab
      exact h.fresh t q r hg hrow (hab ▸ ha)

end AtMostOnceAux

open AtMostOnceAux

/-- In every run in which the port keeps its promise, no order is submitted twice. -/
theorem at_most_once {B : Type} {upper : String → String} {broker : Broker B} {dbRaises : Exc → Prop}
    {start : World Caller B → Prop} {c : Config calls Exc Outcome Caller (World Caller B)} {ls : List Event}
    (hr : System.Run (system upper broker dbRaises start) PortContract c ls) : (submissions ls).Nodup := by
  have hbase : System.Invariant (system upper broker dbRaises start) PortContract (executionProtocol False) Ended
      fun w _ g => Base False w g :=
    baseInvariant (fun _ _ h => h.elim) fun _ _ _ _ _ h => h.elim
  have hinv := hbase.and (K := fun _ ls g => OnceSoFar ls g) (fun _ _ => ⟨fun _ _ _ h => (by cases h), List.nodup_nil⟩)
    fun _ _ _ _ _ _ hb _ h hst hl => onceSoFar_step hb h hst hl
  obtain ⟨g, ⟨_, h⟩, _⟩ := hinv.holds hr
  exact h.nodup

namespace AtMostOnceAux

/-- A look-up that finds nothing keeps the promise if nothing was submitted before it. -/
theorem portContract_of_first (before : List Event) {after pre post : List Event} {l looked : Event} (hbefore : submissions before = [])
    (hafter : ∀ t a key, .answer t (.lookup_by_client_order_id a key) (.ok none) ∉ after) (h : before ++ looked :: after = pre ++ l :: post) :
    PortContract pre l := by
  rintro t a key rfl
  rcases List.append_eq_append_iff.mp h with ⟨rest, rfl, hrest⟩ | ⟨rest, rfl, _⟩
  · cases rest with
    | nil => simp [hbefore]
    | cons y rest =>
      refine absurd ?_ (hafter t a key)
      rw [(List.cons.inj hrest).2]
      simp
  · rw [submissions, List.filterMap_append, List.append_eq_nil_iff] at hbefore
    rw [submissions, hbefore.1]
    exact List.not_mem_nil

end AtMostOnceAux

/-- An order that is executed once is submitted once. -/
theorem at_most_once_submitted : ∃ c ls, System.Run (system id Broker.any (fun _ => False) fun _ => True) PortContract c ls ∧
    submissions ls = [((limitRead id false).account_id, (limitRead id false).idempotency_key)] ∧ (submissions ls).Nodup := by
  have hrun : System.Run (system id Broker.any (fun _ => False) fun _ => True) (fun _ _ => True) _ _ :=
    run_executed (b := ()) (c := ()) trivial trivial limitRisk_limits trivial trivial trivial
  have hok : System.Run (system id Broker.any (fun _ => False) fun _ => True) PortContract _ _ := hrun.of_all fun pre l post hl => by
    refine portContract_of_first [_, _, _, _, _] rfl ?_ hl
    intro t a key h
    simp [storing] at h
  exact ⟨_, _, hok, rfl, at_most_once hok⟩

end MtossBot

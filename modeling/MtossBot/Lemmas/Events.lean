import MtossBot.Lemmas.ExecutionProtocol

/-!
# The events of the outbox

What the steps of a task do to the events: they stay in the outbox, and only a commit publishes what its task has written. This holds of
any tasks over the database.
-/

namespace MtossBot

open Phase

variable {T B : Type} [DecidableEq T] {w w' : World T B} {t u : T} {broker : Broker B} {dbRaises : Exc → Prop}

/-- An event is in the outbox, published or not. -/
def Announced (w : World T B) (event : ClaimedEvent) : Prop :=
  ∃ record, w.outbox record.id = some record ∧ record.claimed = event

/-- The events have their own keys, and what a transaction has written is an event of the outbox. -/
structure EventSound (w : World T B) : Prop where
  event_id : ∀ {id record}, w.outbox id = some record → record.id = id
  marked : ∀ {t record}, w.marked t = some record → Announced w record.claimed

/-- The outbox and the writes on it are the same. -/
structure World.SameEvents (w w' : World T B) : Prop where
  outbox : w'.outbox = w.outbox
  marked : w'.marked = w.marked

/-- What a task does to the events. -/
inductive EventEffect (w : World T B) (t : T) (w' : World T B) : Prop where
  | none : w.SameEvents w' → EventEffect w t w'
  | mark {record : OutboxEventRecord} : Announced w record.claimed → (w.mark t record).SameEvents w' → EventEffect w t w'
  | rollback : (w.rollback_outbox t).SameEvents w' → EventEffect w t w'
  | commit : (w.commit_outbox t).SameEvents w' → EventEffect w t w'

namespace EventEffect

theorem marked_eq (h : EventEffect w t w') (hu : u ≠ t) : w'.marked u = w.marked u := by
  cases h with
  | none h => rw [h.marked]
  | mark _ h => rw [h.marked, World.marked_mark, Function.update_of_ne hu]
  | rollback h => rw [h.marked, World.marked_rollback_outbox, Function.update_of_ne hu]
  | commit h => rw [h.marked, World.marked_commit_outbox, Function.update_of_ne hu]

/-- The outbox stays as it is, but for an event of it that the task has written. -/
theorem outbox_cases (h : EventEffect w t w') :
    w'.outbox = w.outbox ∨ ∃ record, w.marked t = some record ∧
      w'.outbox = Function.update w.outbox record.id (some record) := by
  cases h with
  | none h => exact .inl h.outbox
  | mark _ h => exact .inl h.outbox
  | rollback h => exact .inl h.outbox
  | commit h =>
    rw [h.outbox]
    cases hm : w.marked t with
    | none => exact .inl (World.outbox_commit_outbox_none hm)
    | some record => exact .inr ⟨record, rfl, World.outbox_commit_outbox_some hm⟩

/-- An event stays in the outbox. -/
theorem announced (hs : EventSound w) (h : EventEffect w t w') {event : ClaimedEvent} (he : Announced w event) :
    Announced w' event := by
  obtain ⟨record, hrecord, rfl⟩ := he
  rcases h.outbox_cases with ho | ⟨m, hm, ho⟩
  · exact ⟨record, by rw [ho, hrecord], rfl⟩
  · by_cases hid : record.id = m.id
    · obtain ⟨record', hrecord', hclaimed⟩ := hs.marked hm
      have hid' : record'.id = m.id := UUID.str_injective (congrArg ClaimedEvent.id hclaimed)
      rw [hid', ← hid, hrecord, Option.some.injEq] at hrecord'
      refine ⟨m, by rw [ho, Function.update_self], ?_⟩
      rw [hrecord', hclaimed]
    · exact ⟨record, by rw [ho, Function.update_of_ne hid, hrecord], rfl⟩

theorem sound (hs : EventSound w) (h : EventEffect w t w') : EventSound w' := by
  refine ⟨fun {id record} hr => ?_, fun {u record} hm => ?_⟩
  · rcases h.outbox_cases with ho | ⟨m, hm, ho⟩
    · exact hs.event_id (ho ▸ hr)
    · rw [ho, Function.update_apply] at hr
      split at hr
      · rename_i hid
        rw [← Option.some.inj hr, hid]
      · exact hs.event_id hr
  · refine h.announced hs ?_
    by_cases hu : u = t
    · subst hu
      cases h with
      | none h => exact hs.marked (h.marked ▸ hm)
      | mark ha h =>
        rw [h.marked, World.marked_mark, Function.update_self, Option.some.injEq] at hm
        exact hm ▸ ha
      | rollback h =>
        rw [h.marked, World.marked_rollback_outbox, Function.update_self] at hm
        cases hm
      | commit h =>
        rw [h.marked, World.marked_commit_outbox, Function.update_self] at hm
        cases hm
    · exact hs.marked (h.marked_eq hu ▸ hm)

end EventEffect

theorem sameEvents_call {op : Call} (h : w.call broker t op w') : w.SameEvents w' := by
  cases op with
  | submit intent =>
    obtain ⟨b, _, rfl⟩ := h
    exact ⟨rfl, rfl⟩
  | _ =>
    obtain rfl := h
    exact ⟨rfl, rfl⟩

/-- The calls on the row and to the broker change no event. -/
theorem sameEvents_answer {op : Call} {r : Except Exc op.Res} (hop : ofOrders op = true)
    (h : w.answer broker dbRaises t w' op r) : w.SameEvents w' := by
  cases World.answer_move h with
  | claim => cases hop
  | mark => cases hop
  | commit_outbox => cases hop
  | commit_outbox_refused => cases hop
  | commit_outbox_open => cases hop
  | rollback_outbox => cases hop
  | _ => exact ⟨rfl, rfl⟩

/-- What an answer does to the events, if the event that it may write is one of the outbox. -/
theorem effect_answer_event {op : Call} {r : Except Exc op.Res}
    (hflush : ∀ record, op = .flush_event record → Announced w record.claimed)
    (h : w.answer broker dbRaises t w' op r) : EventEffect w t w' := by
  cases World.answer_move h with
  | @mark record => exact .mark (hflush record rfl) ⟨rfl, rfl⟩
  | commit_outbox => exact .commit ⟨rfl, rfl⟩
  | commit_outbox_refused => exact .rollback ⟨rfl, rfl⟩
  | rollback_outbox => exact .rollback ⟨rfl, rfl⟩
  | _ => exact .none ⟨rfl, rfl⟩

/-- What a task has written after an answer it had written before, or the answer was to its writing. -/
theorem marked_answer {op : Call} {r : Except Exc op.Res} (h : w.answer broker dbRaises t w' op r) {record : OutboxEventRecord}
    (hm : w'.marked t = some record) : w.marked t = some record ∨ op = .flush_event record := by
  have hended : Function.update w.marked t none t ≠ some record := by
    rw [Function.update_self]
    exact nofun
  cases World.answer_move h with
  | @mark record' =>
    rw [World.marked_mark, Function.update_self, Option.some.injEq] at hm
    exact .inr (hm ▸ rfl)
  | commit_outbox => exact absurd hm hended
  | commit_outbox_refused => exact absurd hm hended
  | rollback_outbox => exact absurd hm hended
  | _ => exact .inl hm

/-- What a crash does to the events. -/
theorem effect_crash_event (h : w.crash t w') : EventEffect w t w' ∧ w'.marked t = none := by
  obtain ⟨w₁, h₁ | ⟨_, h₁⟩, h₂ | ⟨_, h₂⟩⟩ := h <;> subst h₁ h₂
  · exact ⟨.rollback ⟨rfl, rfl⟩, Function.update_self _ _ _⟩
  · exact ⟨.commit ⟨rfl, rfl⟩, Function.update_self _ _ _⟩
  · exact ⟨.rollback ⟨rfl, rfl⟩, Function.update_self _ _ _⟩
  · exact ⟨.commit ⟨rfl, rfl⟩, Function.update_self _ _ _⟩

omit [DecidableEq T] in
/-- The row with the key of an event of the outbox is that event. -/
theorem Announced.read {event : ClaimedEvent} {id : UUID} {record : OutboxEventRecord} (he : Announced w event)
    (hid : UUID.parse event.id = some id) (hr : w.outbox id = some record) : record.id = id ∧ record.claimed = event := by
  obtain ⟨announced, hannounced, rfl⟩ := he
  have hparse : UUID.parse announced.id.str = some id := hid
  rw [UUID.parse_str, Option.some.injEq] at hparse
  subst hparse
  rw [hannounced, Option.some.injEq] at hr
  subst hr
  exact ⟨rfl, rfl⟩

end MtossBot

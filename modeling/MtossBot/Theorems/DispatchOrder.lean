import MtossBot.Library.Runs
import MtossBot.Runtime.Consumers

/-!
# At least once, and in order

Batches of the dispatcher, one after the other, over any outbox. Every publish may raise, and so may every call of a mark, a commit also
after it has been done; a claim that raises takes nothing, and a rollback does not raise.
-/

namespace MtossBot

variable {T : Type} [DecidableEq T]

/-- A claim that raises has taken nothing, and a rollback does not raise. -/
def KeepsWord (w w' : World T Unit) : (op : Call) → Except Exc op.Res → Prop
  | .claim _ _, .error _ => w' = w
  | .rollback_outbox, .error _ => False
  | _, _ => True

/-- An answer to the dispatcher. -/
def StoreServes (t : T) (w : World T Unit) (op : Call) (r : Except Exc op.Res) (w' : World T Unit) : Prop :=
  w.answer Broker.any (fun _ => True) t w' op r ∧ KeepsWord w w' op r

/-- Any number of batches, with the calls they made. -/
inductive Batches (t : T) : World T Unit → List (Exchange calls Exc) → World T Unit → Prop where
  | nil {w : World T Unit} : Batches t w [] w
  | batch {w₀ w w' : World T Unit} {trace trace' : List (Exchange calls Exc)} {now : Nat → Int} {limit : Nat}
      {out : Except Exc Nat} :
      Batches t w₀ trace w → (OutboxDispatcher.dispatch_batch now limit).Runs (StoreServes t) w trace' out w' →
      Batches t w₀ (trace ++ trace') w'

/-- A call of the publisher. -/
def isPublish (x : Exchange calls Exc) : Bool :=
  match x.op with
  | .publish .. => true
  | _ => false

/-- A call that raised. -/
def failed (x : Exchange calls Exc) : Bool :=
  match x.answer with
  | .ok _ => false
  | .error _ => true

/-- The publication of an event, and what came of it. -/
def publication (x : OutboxEventRecord × Except Exc String) : Exchange calls Exc :=
  ⟨.publish x.1.topic x.1.message_key x.1.payload, x.2⟩

/-- An event that was not published yet. -/
def Pending (w : World T Unit) (e : OutboxEventRecord) : Prop := w.outbox e.id = some e ∧ e.published_at = none

/-- What a log of publications says of the calls made since a world, and of the marks: the publications are those of pending events, in
the order of `created_at`, and every event that is no longer there as it was has been published. -/
structure DispatchLog (w₀ : World T Unit) (trace : List (Exchange calls Exc)) (w : World T Unit)
    (log : List (OutboxEventRecord × Except Exc String)) : Prop where
  publications : trace.filter isPublish = log.map publication
  pending : ∀ x ∈ log, Pending w₀ x.1
  ordered : log.Pairwise fun x y => x.1.created_at ≤ y.1.created_at
  marked : ∀ e, Pending w₀ e → w.outbox e.id ≠ some e → ∃ name, (e, .ok name) ∈ log

namespace DispatchOrderAux

open OutboxDispatcher

variable {t : T} {w w' w₀ : World T Unit} {trace : List (Exchange calls Exc)} {e : OutboxEventRecord} {now : Int}

/-- An event with the time at which it is marked. -/
def stamped (e : OutboxEventRecord) (now : Int) : OutboxEventRecord := { e with published_at := some now }

/-- The claims are those of the dispatcher. -/
def Own (t : T) (w : World T Unit) : Prop := ∀ id, w.claimer id = none ∨ w.claimer id = some t

/-- No event is claimed. -/
def Free (w : World T Unit) : Prop := ∀ id, w.claimer id = none

/-- A rollback gives every event back. -/
theorem free_rollback (h : Own t w) : Free (w.rollback_outbox t) := by
  intro id
  show (if w.claimer id = some t then none else w.claimer id) = none
  rcases h id with hid | hid <;> simp [hid]

/-- So does a commit. -/
theorem free_commit (h : Own t w) : Free (w.commit_outbox t) := free_rollback h

omit [DecidableEq T] in
/-- Where nothing is claimed, nothing is another's. -/
theorem own_of_free (h : Free w) : Own t w := fun id => .inl (h id)

omit [DecidableEq T] in
/-- What is claimed then is the dispatcher's own. -/
theorem own_claim (h : Free w) (events : List OutboxEventRecord) : Own t (w.claim t events) := by
  intro id
  show (if id ∈ events.map OutboxEventRecord.id then some t else w.claimer id) = none ∨ _
  by_cases hid : id ∈ events.map OutboxEventRecord.id
  · exact .inr (if_pos hid)
  · exact .inl ((if_neg hid).trans (h id))

/-! ### A mark -/

/-- The `try` of `mark_published`, for an event of the outbox. -/
def marking (now : Int) (e : OutboxEventRecord) : Coro Unit := do
  let record ← await (.get_event e.id)
  match record with
  | none => Prog.raise (.lookupError e.id.str)
  | some record => do
    let _ ← await (.flush_event { record with published_at := some now })
    await .commit_outbox

/-- `mark_published` is that `try`, with a rollback when it raises. -/
theorem mark_published_eq (now : Int) (e : OutboxEventRecord) :
    OutboxRepository.mark_published now e.id.str = Prog.tryExcept (marking now e) (fun error => do
      let _ ← await .rollback_outbox
      Prog.raise error) := by
  have hparse : ∀ f : UUID → Coro Unit, Prog.ofExcept (.ok e.id) >>= f = f e.id := fun _ => rfl
  unfold OutboxRepository.mark_published marking
  rw [UUID.parse_str, hparse]
  congr 2
  funext record
  cases record <;> rfl

/-- The calls that mark an event. -/
def markCalls (e : OutboxEventRecord) (now : Int) : List (Exchange calls Exc) :=
  [⟨.get_event e.id, .ok (some e)⟩, ⟨.flush_event (stamped e now), .ok ()⟩, ⟨.commit_outbox, .ok ()⟩]

/-- An event of the outbox may be marked. -/
theorem mark_published_runs (he : w.outbox e.id = some e) :
    (OutboxRepository.mark_published now e.id.str).Runs (StoreServes t) w (markCalls e now) (.ok ())
      ((w.mark t (stamped e now)).commit_outbox t) := by
  rw [mark_published_eq]
  exact .call ⟨⟨he.symm, rfl⟩, trivial⟩ (.call ⟨rfl, trivial⟩ (.call ⟨rfl, trivial⟩ .done))

/-- While an event is marked it is as it was, or it has its stamp. -/
structure Marking (t : T) (w : World T Unit) (e : OutboxEventRecord) (now : Int) (trace : List (Exchange calls Exc))
    (w' : World T Unit) : Prop where
  silent : ∀ x ∈ trace, isPublish x = false
  own : Own t w'
  marked : w'.marked t = none ∨ w'.marked t = some (stamped e now)
  outbox : w'.outbox = w.outbox ∨ w'.outbox = Function.update w.outbox e.id (some (stamped e now))

/-- A flush that raises may have written the stamp or not. -/
theorem marking_flush {w₁ : World T Unit} {r : Except Exc Unit} (hown : Own t w) (hm : w.marked t = none)
    (hr : StoreServes t w (.flush_event (stamped e now)) r w₁) :
    Marking t w e now [⟨.get_event e.id, .ok (some e)⟩, ⟨.flush_event (stamped e now), r⟩] w₁ := by
  have hsilent : ∀ x ∈ [⟨.get_event e.id, .ok (some e)⟩, ⟨.flush_event (stamped e now), r⟩], isPublish x = false := by
    simp [isPublish]
  have hmark : ∀ {w₁ : World T Unit}, w₁ = w.mark t (stamped e now) →
      Marking t w e now [⟨.get_event e.id, .ok (some e)⟩, ⟨.flush_event (stamped e now), r⟩] w₁ := by
    rintro _ rfl
    exact ⟨hsilent, hown, .inr (Function.update_self _ _ _), .inl rfl⟩
  cases r with
  | ok _ => exact hmark hr.1
  | error _ =>
    rcases hr.1 with ⟨_, rfl | hw⟩
    · exact ⟨hsilent, hown, .inl hm, .inl rfl⟩
    · exact hmark hw

/-- The commit of a mark stamps the event, also if it raises once it is done. -/
theorem marking_commit {w₁ w₂ : World T Unit} {trace : List (Exchange calls Exc)} {r : Except Exc Unit}
    (h : Marking t w e now trace w₁) (hr : StoreServes t w₁ .commit_outbox r w₂) :
    Marking t w e now (trace ++ [⟨.commit_outbox, r⟩]) w₂ := by
  have hsilent : ∀ x ∈ trace ++ [⟨.commit_outbox, r⟩], isPublish x = false := by
    intro x hx
    rcases List.mem_append.mp hx with hx | hx
    · exact h.silent x hx
    · rw [List.mem_singleton.mp hx]
      rfl
  have hcommit : ∀ {w₂ : World T Unit}, w₂ = w₁.commit_outbox t → Marking t w e now (trace ++ [⟨.commit_outbox, r⟩]) w₂ := by
    rintro _ rfl
    refine ⟨hsilent, own_of_free (free_commit h.own), .inl (Function.update_self _ _ _), ?_⟩
    rcases h.marked with hm | hm
    · rw [World.outbox_commit_outbox_none hm]
      exact h.outbox
    · rw [World.outbox_commit_outbox_some hm]
      right
      rcases h.outbox with ho | ho
      · rw [ho]
        rfl
      · rw [ho]
        exact Function.update_idem _ _ _
  have hrollback : ∀ {w₂ : World T Unit}, w₂ = w₁.rollback_outbox t →
      Marking t w e now (trace ++ [⟨.commit_outbox, r⟩]) w₂ := by
    rintro _ rfl
    exact ⟨hsilent, own_of_free (free_rollback h.own), .inl (Function.update_self _ _ _), h.outbox⟩
  cases r with
  | ok _ => exact hcommit hr.1
  | error _ =>
    rcases hr.1 with ⟨_, hw | hw | rfl⟩
    · exact hcommit hw
    · exact hrollback hw
    · exact ⟨hsilent, h.own, h.marked, h.outbox⟩

/-- A mark that is under way. -/
theorem marking_reaches (hown : Own t w) (hm : w.marked t = none) (he : w.outbox e.id = some e)
    (h : (marking now e).Reaches (StoreServes t) w trace w') : Marking t w e now trace w' := by
  have hstart : Marking t w e now [] w := ⟨by simp, hown, .inl hm, .inl rfl⟩
  rcases Prog.reaches_bind h with hget | ⟨record, w₁, trace₁, trace₂, rfl, hget, hrest⟩
  · rcases Prog.reaches_perform hget with ⟨rfl, rfl⟩ | ⟨r, rfl, hr⟩
    · exact hstart
    · have hsame : w' = w := by cases r <;> exact hr.1.2
      rw [hsame]
      exact ⟨by simp [isPublish], hown, .inl hm, .inl rfl⟩
  · obtain ⟨rfl, hr⟩ := Prog.runs_perform.mp hget
    obtain ⟨⟨rfl, rfl⟩, _⟩ := hr
    rw [he] at hrest ⊢
    rcases Prog.reaches_bind hrest with hflush | ⟨_, w₂, trace₃, trace₄, rfl, hflush, hcommit⟩
    · rcases Prog.reaches_perform hflush with ⟨rfl, rfl⟩ | ⟨r, rfl, hr⟩
      · exact ⟨by simp [isPublish], hown, .inl hm, .inl rfl⟩
      · exact marking_flush hown hm hr
    · obtain ⟨rfl, hr⟩ := Prog.runs_perform.mp hflush
      have hflushed := marking_flush hown hm hr
      rcases Prog.reaches_perform hcommit with ⟨rfl, rfl⟩ | ⟨r, rfl, hr⟩
      · exact hflushed
      · exact marking_commit hflushed hr

/-- A mark that has succeeded. -/
theorem marking_runs (he : w.outbox e.id = some e) (h : (marking now e).Runs (StoreServes t) w trace (.ok ()) w') :
    (∀ x ∈ trace, failed x = false) ∧ w' = (w.mark t (stamped e now)).commit_outbox t := by
  rcases Prog.runs_bind.mp h with ⟨_, herror, _⟩ | ⟨record, w₁, trace₁, trace₂, rfl, hget, hrest⟩
  · cases herror
  · obtain ⟨rfl, hr⟩ := Prog.runs_perform.mp hget
    obtain ⟨⟨rfl, rfl⟩, _⟩ := hr
    rw [he] at hrest ⊢
    rcases Prog.runs_bind.mp hrest with ⟨_, herror, _⟩ | ⟨_, w₂, trace₃, trace₄, rfl, hflush, hcommit⟩
    · cases herror
    · obtain ⟨rfl, hr⟩ := Prog.runs_perform.mp hflush
      obtain ⟨rfl, hr'⟩ := Prog.runs_perform.mp hcommit
      have hmark : w₂ = w₁.mark t (stamped e now) := hr.1
      have hcommitted : w' = w₂.commit_outbox t := hr'.1
      exact ⟨by simp [failed], hmark ▸ hcommitted⟩

/-- A rollback does not raise. -/
theorem serves_rollback {r : Except Exc Unit} (h : StoreServes t w .rollback_outbox r w') : r = .ok () ∧ w' = w.rollback_outbox t := by
  cases r with
  | ok _ => exact ⟨rfl, h.1⟩
  | error _ => exact h.2.elim

/-- A rollback takes back a stamp that was not committed. -/
theorem marking_rollback {w₁ : World T Unit} {r : Except Exc Unit} (h : Marking t w e now trace w₁)
    (hr : StoreServes t w₁ .rollback_outbox r w') : Marking t w e now (trace ++ [⟨.rollback_outbox, r⟩]) w' := by
  obtain ⟨_, rfl⟩ := serves_rollback hr
  refine ⟨?_, own_of_free (free_rollback h.own), .inl (Function.update_self _ _ _), h.outbox⟩
  intro x hx
  rcases List.mem_append.mp hx with hx | hx
  · exact h.silent x hx
  · rw [List.mem_singleton.mp hx]
    rfl

/-- `mark_published`, under way. -/
theorem mark_reaches (hown : Own t w) (hm : w.marked t = none) (he : w.outbox e.id = some e)
    (h : (OutboxRepository.mark_published now e.id.str).Reaches (StoreServes t) w trace w') : Marking t w e now trace w' := by
  rw [mark_published_eq] at h
  rcases Prog.reaches_andThen h with hbody | ⟨r, w₁, trace₁, trace₂, rfl, hbody, hrest⟩
  · exact marking_reaches hown hm he hbody
  · have hmarking := marking_reaches hown hm he hbody.reaches
    cases r with
    | ok _ =>
      obtain ⟨rfl, rfl⟩ := Prog.reaches_done hrest
      rw [List.append_nil]
      exact hmarking
    | error error =>
      rcases Prog.reaches_bind hrest with hroll | ⟨_, w₂, trace₃, trace₄, rfl, hroll, hraise⟩
      · rcases Prog.reaches_perform hroll with ⟨rfl, rfl⟩ | ⟨r, rfl, hr⟩
        · rw [List.append_nil]
          exact hmarking
        · exact marking_rollback hmarking hr
      · obtain ⟨rfl, hr⟩ := Prog.runs_perform.mp hroll
        obtain ⟨rfl, rfl⟩ := Prog.reaches_done hraise
        exact marking_rollback hmarking hr

/-- The end of `mark_published`: the event has its stamp, or the mark raises and the claim has ended. -/
theorem mark_runs {out : Except Exc Unit} (hown : Own t w) (hm : w.marked t = none) (he : w.outbox e.id = some e)
    (h : (OutboxRepository.mark_published now e.id.str).Runs (StoreServes t) w trace out w') :
    Free w' ∧ w'.marked t = none ∧
      ((out = .ok () ∧ (∀ x ∈ trace, failed x = false) ∧
          w'.outbox = Function.update w.outbox e.id (some (stamped e now))) ∨ ∃ error, out = .error error) := by
  rw [mark_published_eq] at h
  obtain ⟨r, w₁, trace₁, trace₂, rfl, hbody, hrest⟩ := Prog.runs_andThen.mp h
  cases r with
  | ok _ =>
    obtain ⟨rfl, rfl, rfl⟩ := Prog.runs_done.mp hrest
    obtain ⟨hfailed, rfl⟩ := marking_runs he hbody
    refine ⟨free_commit hown, Function.update_self _ _ _, .inl ⟨rfl, by simpa using hfailed, ?_⟩⟩
    have hmarked : (w.mark t (stamped e now)).marked t = some (stamped e now) := Function.update_self _ _ _
    exact World.outbox_commit_outbox_some hmarked
  | error error =>
    have hown₁ := (marking_reaches hown hm he hbody.reaches).own
    rcases Prog.runs_bind.mp hrest with ⟨_, rfl, hroll⟩ | ⟨_, w₂, trace₃, trace₄, rfl, hroll, hraise⟩
    · obtain ⟨_, hr⟩ := Prog.runs_perform.mp hroll
      cases (serves_rollback hr).1
    · obtain ⟨_, hr⟩ := Prog.runs_perform.mp hroll
      obtain ⟨_, rfl⟩ := serves_rollback hr
      obtain ⟨rfl, rfl, rfl⟩ := Prog.runs_done.mp hraise
      exact ⟨free_rollback hown₁, Function.update_self _ _ _, .inr ⟨error, rfl⟩⟩

/-! ### A round -/

omit [DecidableEq T] in
/-- Where nothing is claimed, the events not yet published may be. -/
theorem claimable_iff (h : Free w) {e : OutboxEventRecord} : w.Claimable none e ↔ Pending w e := by
  constructor
  · rintro ⟨hout, hnew, _, _⟩
    exact ⟨hout, hnew⟩
  · rintro ⟨hout, hnew⟩
    exact ⟨hout, hnew, h e.id, fun _ hname => nomatch hname⟩

omit [DecidableEq T] in
/-- A claim of one event takes the oldest. -/
theorem claims_oldest (he : w.Claimable none e) (holdest : ∀ e', w.Claimable none e' → e.created_at ≤ e'.created_at) :
    w.Claims 1 none [e] where
  claimable e' he' := by
    rw [List.mem_singleton.mp he']
    exact he
  distinct := List.nodup_singleton _
  ordered := List.pairwise_singleton _ _
  bounded := Nat.le_refl 1
  first e' he' := .inr ⟨rfl, fun a ha => List.mem_singleton.mp ha ▸ holdest e' he'⟩

omit [DecidableEq T] in
/-- To claim no event changes nothing. -/
theorem claim_nil (w : World T Unit) : w.claim t [] = w := by
  simp [World.claim]

/-- A claim raises, finds that nothing is pending, or takes an event that no pending event is older than. -/
theorem claim_cases {r : Except Exc (List ClaimedEvent)} (h : Free w) (hr : StoreServes t w (.claim 1 none) r w') :
    (∃ error, r = .error error ∧ w' = w) ∨ (r = .ok [] ∧ w' = w) ∨
      ∃ e, r = .ok [e.claimed] ∧ w' = w.claim t [e] ∧ Pending w e ∧ ∀ e', Pending w e' → e.created_at ≤ e'.created_at := by
  cases r with
  | error error => exact .inl ⟨error, rfl, hr.2⟩
  | ok claimed =>
    obtain ⟨events, hclaims, rfl, rfl⟩ := hr.1
    right
    cases events with
    | nil => exact .inl ⟨rfl, claim_nil w⟩
    | cons e rest =>
      have hrest : rest = [] := by
        have hbounded := hclaims.bounded
        rw [List.length_cons] at hbounded
        exact List.eq_nil_of_length_eq_zero (by omega)
      subst hrest
      refine .inr ⟨e, rfl, rfl, (claimable_iff h).mp (hclaims.claimable e (List.mem_singleton_self e)), ?_⟩
      intro e' he'
      rcases hclaims.first e' ((claimable_iff h).mpr he') with hmem | ⟨_, holder⟩
      · rw [List.mem_singleton.mp hmem]
      · exact holder e (List.mem_singleton_self e)

/-- What holds between two rounds. -/
structure Ready (t : T) (w₀ : World T Unit) (trace : List (Exchange calls Exc)) (w : World T Unit)
    (log : List (OutboxEventRecord × Except Exc String)) : Prop where
  logged : DispatchLog w₀ trace w log
  free : Free w
  marked : w.marked t = none
  ids : ∀ id e, w.outbox id = some e → e.id = id
  pending : ∀ e, Pending w e → Pending w₀ e
  /-- What has been tried is not newer than what is pending. -/
  older : ∀ x ∈ log, ∀ e, Pending w e → x.1.created_at ≤ e.created_at
  settled : ∀ e, Pending w₀ e → Pending w e ∨ ∃ now, w.outbox e.id = some (stamped e now)

/-- An event is tried that is pending and oldest: the outbox stays as it is, or the event is published and then has its stamp. -/
structure Tried (w : World T Unit) (e : OutboxEventRecord) (r : Except Exc String) (w' : World T Unit) : Prop where
  pending : Pending w e
  oldest : ∀ e', Pending w e' → e.created_at ≤ e'.created_at
  outbox : w'.outbox = w.outbox ∨ (∃ name, r = .ok name) ∧
    ∃ now, w'.outbox = Function.update w.outbox e.id (some (stamped e now))

variable {log : List (OutboxEventRecord × Except Exc String)} {r : Except Exc String}

omit [DecidableEq T] in
/-- An event that is no longer as it was is the one that was tried. -/
theorem Tried.eq_of_changed (h : Tried w e r w') {e' : OutboxEventRecord} (he' : w.outbox e'.id = some e')
    (hne : w'.outbox e'.id ≠ some e') : e' = e ∧ (∃ name, r = .ok name) := by
  rcases h.outbox with hsame | ⟨hok, now, hout⟩
  · rw [hsame] at hne
    exact absurd he' hne
  · refine ⟨?_, hok⟩
    by_contra hother
    have hid : e'.id ≠ e.id := by
      intro hid
      rw [hid, h.pending.1, Option.some.injEq] at he'
      exact hother he'.symm
    rw [hout, Function.update_of_ne hid] at hne
    exact hne he'

/-- The calls of a round, with more that do not publish. -/
def attempt (e : OutboxEventRecord) (r : Except Exc String) (more : List (Exchange calls Exc)) : List (Exchange calls Exc) :=
  ⟨.claim 1 none, .ok [e.claimed]⟩ :: publication (e, r) :: more

/-- Calls that publish nothing leave no publication. -/
theorem filter_silent {more : List (Exchange calls Exc)} (h : ∀ x ∈ more, isPublish x = false) : more.filter isPublish = [] :=
  List.filter_eq_nil_iff.mpr fun x hx => by simp [h x hx]

omit [DecidableEq T] in
/-- The log goes on with the event that was tried. -/
theorem Ready.log_next (h : Ready t w₀ trace w log) (htried : Tried w e r w') {more : List (Exchange calls Exc)}
    (hmore : ∀ x ∈ more, isPublish x = false) : DispatchLog w₀ (trace ++ attempt e r more) w' (log ++ [(e, r)]) where
  publications := by
    have hattempt : (attempt e r more).filter isPublish = [publication (e, r)] := by
      rw [attempt, List.filter_cons_of_neg (by simp [isPublish]), List.filter_cons_of_pos rfl, filter_silent hmore]
    rw [List.filter_append, h.logged.publications, hattempt, List.map_append, List.map_singleton]
  pending x hx := by
    rcases List.mem_append.mp hx with hx | hx
    · exact h.logged.pending x hx
    · rw [List.mem_singleton.mp hx]
      exact h.pending e htried.pending
  ordered := by
    refine List.pairwise_append.mpr ⟨h.logged.ordered, List.pairwise_singleton _ _, ?_⟩
    intro x hx y hy
    rw [List.mem_singleton.mp hy]
    exact h.older x hx e htried.pending
  marked e' he' hne := by
    by_cases hbefore : w.outbox e'.id = some e'
    · obtain ⟨rfl, name, rfl⟩ := htried.eq_of_changed hbefore hne
      exact ⟨name, List.mem_append_right _ (List.mem_singleton_self _)⟩
    · obtain ⟨name, hname⟩ := h.logged.marked e' he' hbefore
      exact ⟨name, List.mem_append_left _ hname⟩

omit [DecidableEq T] in
/-- What is pending after a try was pending before. -/
theorem Tried.pending_of (h : Tried w e r w') {e' : OutboxEventRecord} (he' : Pending w' e') : Pending w e' := by
  rcases h.outbox with hsame | ⟨_, now, hout⟩
  · exact ⟨hsame ▸ he'.1, he'.2⟩
  · refine ⟨?_, he'.2⟩
    have hthere := he'.1
    rw [hout, Function.update_apply] at hthere
    split at hthere
    · have hnew := he'.2
      rw [← Option.some.inj hthere] at hnew
      cases hnew
    · exact hthere

omit [DecidableEq T] in
/-- After a tried event the dispatcher is ready for the next. -/
theorem Ready.next (h : Ready t w₀ trace w log) (htried : Tried w e r w') (hfree : Free w') (hmarked : w'.marked t = none)
    {more : List (Exchange calls Exc)} (hmore : ∀ x ∈ more, isPublish x = false) :
    Ready t w₀ (trace ++ attempt e r more) w' (log ++ [(e, r)]) where
  logged := h.log_next htried hmore
  free := hfree
  marked := hmarked
  ids id e' he' := by
    rcases htried.outbox with hsame | ⟨_, now, hout⟩
    · exact h.ids id e' (hsame ▸ he')
    · rw [hout, Function.update_apply] at he'
      split at he'
      · rename_i hid
        rw [← Option.some.inj he', hid]
        rfl
      · exact h.ids id e' he'
  pending e' he' := h.pending e' (htried.pending_of he')
  older x hx e' he' := by
    have hbefore := htried.pending_of he'
    rcases List.mem_append.mp hx with hx | hx
    · exact h.older x hx e' hbefore
    · rw [List.mem_singleton.mp hx]
      exact htried.oldest e' hbefore
  settled e' he' := by
    rcases h.settled e' he' with hpending | ⟨now, hout⟩
    · by_cases hafter : w'.outbox e'.id = some e'
      · exact .inl ⟨hafter, hpending.2⟩
      · obtain ⟨rfl, _⟩ := htried.eq_of_changed hpending.1 hafter
        rcases htried.outbox with hsame | ⟨_, now, hnow⟩
        · rw [hsame] at hafter
          exact absurd hpending.1 hafter
        · exact .inr ⟨now, by rw [hnow, Function.update_self]⟩
    · -- an event with its stamp is not tried
      refine .inr ⟨now, ?_⟩
      by_contra hne
      have hstamped : w.outbox (stamped e' now).id = some (stamped e' now) := hout
      obtain ⟨heq, _⟩ := htried.eq_of_changed hstamped hne
      have hnew := htried.pending.2
      rw [← heq] at hnew
      cases hnew

omit [DecidableEq T] in
/-- Before the first batch the log is empty. -/
theorem Ready.init (hidle : w.Idle) (hkeys : w.Constraints) : Ready t w [] w [] where
  logged := ⟨rfl, by simp, .nil, fun e he hne => absurd he.1 hne⟩
  free := hidle.claimer
  marked := hidle.marked t
  ids _ _ he := hkeys.event_id he
  pending _ he := he
  older _ hx := by cases hx
  settled _ he := .inl he

/-- A failed call is the last but for some that do not publish, and the batch raises. -/
def StopsAt (trace : List (Exchange calls Exc)) (out : Except Exc Nat) : Prop :=
  ∀ before x after, trace = before ++ x :: after → failed x = true →
    (∀ y ∈ after, isPublish y = false) ∧ ∃ error, out = .error error

/-- Some events are marked by a batch, as many as a number says. -/
def Marks (w w' : World T Unit) (number limit : Nat) : Prop :=
  number ≤ limit ∧ ∃ marked : List OutboxEventRecord, marked.Nodup ∧ marked.length = number ∧
    ∀ e, e ∈ marked ↔ Pending w e ∧ ¬Pending w' e

/-- What a publish makes of the event that was claimed. -/
def tried (now : Nat → Int) (left count : Nat) (event : ClaimedEvent) : Coro Nat := do
  let _ ← publish event
  let _ ← OutboxRepository.mark_published (now count) event.id
  rounds now left (count + 1)

/-- A round claims one event, and tries it if there is one. -/
theorem rounds_succ (now : Nat → Int) (left count : Nat) :
    rounds now (left + 1) count = (await (.claim 1 none) >>= fun events =>
      match events with
      | [] => pure count
      | event :: _ => tried now left count event) := rfl

/-- A publish that fails gives the event back. -/
theorem publish_reaches (h : (publish e.claimed).Reaches (StoreServes t) w trace w') :
    trace = [] ∧ w' = w ∨ ∃ r more, trace = publication (e, r) :: more ∧ (∀ x ∈ more, isPublish x = false) ∧
      w'.outbox = w.outbox := by
  rcases Prog.reaches_andThen h with hbody | ⟨r, w₁, trace₁, trace₂, rfl, hbody, hrest⟩
  · rcases Prog.reaches_perform hbody with hstart | ⟨r, rfl, hr⟩
    · exact .inl hstart
    · have hsame : w' = w := hr.1
      exact .inr ⟨r, [], rfl, by simp, by rw [hsame]⟩
  · right
    obtain ⟨rfl, hr⟩ := Prog.runs_perform.mp hbody
    obtain rfl : w₁ = w := hr.1
    refine ⟨r, trace₂, rfl, ?_⟩
    cases r with
    | ok _ =>
      obtain ⟨rfl, rfl⟩ := Prog.reaches_done hrest
      exact ⟨by simp, rfl⟩
    | error error =>
      rcases Prog.reaches_bind hrest with hroll | ⟨_, w₂, trace₃, trace₄, rfl, hroll, hraise⟩
      · rcases Prog.reaches_perform hroll with ⟨rfl, rfl⟩ | ⟨r, rfl, hr⟩
        · exact ⟨by simp, rfl⟩
        · obtain ⟨_, rfl⟩ := serves_rollback hr
          exact ⟨by simp [isPublish], rfl⟩
      · obtain ⟨rfl, hr⟩ := Prog.runs_perform.mp hroll
        obtain ⟨_, rfl⟩ := serves_rollback hr
        obtain ⟨rfl, rfl⟩ := Prog.reaches_done hraise
        exact ⟨by simp [isPublish], rfl⟩

/-- A publish returns its name, or raises once the event was given back. -/
theorem publish_runs {out : Except Exc String} (h : (publish e.claimed).Runs (StoreServes t) w trace out w') :
    (∃ name, out = .ok name ∧ trace = [publication (e, .ok name)] ∧ w' = w) ∨
      ∃ error, out = .error error ∧ trace = [publication (e, .error error), ⟨.rollback_outbox, .ok ()⟩] ∧
        w' = w.rollback_outbox t := by
  obtain ⟨r, w₁, trace₁, trace₂, rfl, hbody, hrest⟩ := Prog.runs_andThen.mp h
  obtain ⟨rfl, hr⟩ := Prog.runs_perform.mp hbody
  obtain rfl : w₁ = w := hr.1
  cases r with
  | ok name =>
    obtain ⟨rfl, rfl, rfl⟩ := Prog.runs_done.mp hrest
    exact .inl ⟨name, rfl, rfl, rfl⟩
  | error error =>
    rcases Prog.runs_bind.mp hrest with ⟨_, rfl, hroll⟩ | ⟨_, w₂, trace₃, trace₄, rfl, hroll, hraise⟩
    · obtain ⟨_, hr⟩ := Prog.runs_perform.mp hroll
      cases (serves_rollback hr).1
    · obtain ⟨rfl, hr⟩ := Prog.runs_perform.mp hroll
      obtain ⟨_, rfl⟩ := serves_rollback hr
      obtain ⟨rfl, rfl, rfl⟩ := Prog.runs_done.mp hraise
      exact .inr ⟨error, rfl, rfl, rfl⟩

/-! ### A batch -/

omit [DecidableEq T] in
/-- Calls that publish nothing and leave the outbox as it is leave the log as it is. -/
theorem logged_same (h : DispatchLog w₀ trace w log) (hout : w'.outbox = w.outbox) {more : List (Exchange calls Exc)}
    (hmore : ∀ x ∈ more, isPublish x = false) : DispatchLog w₀ (trace ++ more) w' log where
  publications := by rw [List.filter_append, filter_silent hmore, List.append_nil, h.publications]
  pending := h.pending
  ordered := h.ordered
  marked e he hne := h.marked e he (hout ▸ hne)

omit [DecidableEq T] in
/-- The publication of the claimed event leaves the outbox as it is. -/
theorem Tried.of_claim (he : Pending w e) (holdest : ∀ e', Pending w e' → e.created_at ≤ e'.created_at)
    (hout : w'.outbox = (w.claim t [e]).outbox) : Tried w e r w' :=
  ⟨he, holdest, .inl hout⟩

/-- A batch that is under way: the induction is on the rounds that are left. -/
theorem rounds_reaches (now : Nat → Int) {left count : Nat} {trace' : List (Exchange calls Exc)} (h : Ready t w₀ trace w log)
    (hrun : (rounds now left count).Reaches (StoreServes t) w trace' w') : ∃ log', DispatchLog w₀ (trace ++ trace') w' log' := by
  induction left generalizing count trace w log trace' with
  | zero =>
    obtain ⟨rfl, rfl⟩ := Prog.reaches_done hrun
    exact ⟨log, by rw [List.append_nil]; exact h.logged⟩
  | succ left ih =>
    rw [rounds_succ] at hrun
    have hsilent : ∀ {r : Except Exc (List ClaimedEvent)}, ∀ x ∈ [(⟨.claim 1 none, r⟩ : Exchange calls Exc)], isPublish x = false := by
      simp [isPublish]
    rcases Prog.reaches_bind hrun with hclaims | ⟨events, w₁, trace₁, trace₂, rfl, hclaims, hrest⟩
    · rcases Prog.reaches_perform hclaims with ⟨rfl, rfl⟩ | ⟨r, rfl, hr⟩
      · exact ⟨log, by rw [List.append_nil]; exact h.logged⟩
      · refine ⟨log, logged_same h.logged ?_ hsilent⟩
        rcases claim_cases h.free hr with ⟨_, _, rfl⟩ | ⟨_, rfl⟩ | ⟨_, _, rfl, _⟩ <;> rfl
    · obtain ⟨rfl, hr⟩ := Prog.runs_perform.mp hclaims
      rcases claim_cases h.free hr with ⟨_, herror, _⟩ | ⟨hnil, rfl⟩ | ⟨e, hone, rfl, he, holdest⟩
      · cases herror
      · cases hnil
        obtain ⟨rfl, rfl⟩ := Prog.reaches_done hrest
        exact ⟨log, logged_same h.logged rfl hsilent⟩
      · cases hone
        have hown : Own t (w.claim t [e]) := own_claim h.free [e]
        rcases Prog.reaches_bind hrest with hp | ⟨name, w₂, trace₃, trace₄, rfl, hp, hmark⟩
        · rcases publish_reaches hp with ⟨rfl, rfl⟩ | ⟨r, more, rfl, hmore, hout⟩
          · have hout : (w.claim t [e]).outbox = w.outbox := rfl
            rw [List.append_nil]
            exact ⟨log, logged_same h.logged hout hsilent⟩
          · exact ⟨_, h.log_next (Tried.of_claim he holdest hout) hmore⟩
        · rcases publish_runs hp with ⟨name', hname, rfl, rfl⟩ | ⟨_, herror, _⟩
          · cases hname
            rcases Prog.reaches_bind hmark with hm | ⟨_, w₃, trace₅, trace₆, rfl, hm, hnext⟩
            · have hmark := mark_reaches hown h.marked he.1 hm
              refine ⟨_, h.log_next (r := .ok name) ⟨he, holdest, ?_⟩ hmark.silent⟩
              exact hmark.outbox.imp_right fun hout => ⟨⟨name, rfl⟩, _, hout⟩
            · have hmark := mark_reaches hown h.marked he.1 hm.reaches
              obtain ⟨hfree, hmarked, _⟩ := mark_runs hown h.marked he.1 hm
              have htried : Tried w e (.ok name) w₃ :=
                ⟨he, holdest, hmark.outbox.imp_right fun hout => ⟨⟨name, rfl⟩, _, hout⟩⟩
              obtain ⟨log', hlog⟩ := ih (h.next htried hfree hmarked hmark.silent) hnext
              refine ⟨log', ?_⟩
              rw [List.append_assoc] at hlog
              exact hlog
          · cases herror

/-- Where nothing fails, nothing stops. -/
theorem stops_of_ok {l : List (Exchange calls Exc)} (h : ∀ x ∈ l, failed x = false) (out : Except Exc Nat) : StopsAt l out := by
  rintro before x after rfl hx
  rw [h x (by simp)] at hx
  cases hx

/-- Where a call fails and none that publishes comes after it. -/
theorem stops_error {l l' : List (Exchange calls Exc)} (h : ∀ x ∈ l, failed x = false) (y : Exchange calls Exc)
    (h' : ∀ x ∈ l', isPublish x = false) (error : Exc) : StopsAt (l ++ y :: l') (.error error) := by
  intro before x after heq hx
  refine ⟨fun z hz => h' z ?_, error, rfl⟩
  rcases List.append_eq_append_iff.mp heq with ⟨c, rfl, hc⟩ | ⟨c, rfl, hc⟩
  · cases c with
    | nil =>
      cases hc
      exact hz
    | cons a c =>
      cases hc
      simp [hz]
  · cases c with
    | nil =>
      cases hc
      exact hz
    | cons a c =>
      cases hc
      rw [h x (by simp)] at hx
      cases hx

/-- What stops a later part stops the whole. -/
theorem stops_append {l l' : List (Exchange calls Exc)} {out : Except Exc Nat} (h : ∀ x ∈ l, failed x = false)
    (h' : StopsAt l' out) : StopsAt (l ++ l') out := by
  intro before x after heq hx
  rcases List.append_eq_append_iff.mp heq with ⟨c, rfl, hc⟩ | ⟨c, rfl, hc⟩
  · exact h' c x after hc hx
  · cases c with
    | nil => exact h' [] x after hc.symm hx
    | cons a c =>
      cases hc
      rw [h x (by simp)] at hx
      cases hx

omit [DecidableEq T] in
/-- No event is marked in no round. -/
theorem marks_zero (w : World T Unit) (limit : Nat) : Marks w w 0 limit :=
  ⟨Nat.zero_le _, [], .nil, rfl, fun e => by simp⟩

omit [DecidableEq T] in
/-- One event more is marked. -/
theorem Marks.cons {w₁ : World T Unit} {number limit : Nat} (htried : Tried w e r w₁)
    (hout : w₁.outbox = Function.update w.outbox e.id (some (stamped e now))) (hmono : ∀ e', Pending w' e' → Pending w₁ e')
    (h : Marks w₁ w' number limit) : Marks w w' (number + 1) (limit + 1) := by
  obtain ⟨hle, marked, hnodup, hlength, hmem⟩ := h
  have hdone : ¬Pending w₁ e := by
    rintro ⟨hthere, hnew⟩
    rw [hout, Function.update_self] at hthere
    rw [← Option.some.inj hthere] at hnew
    cases hnew
  refine ⟨Nat.succ_le_succ hle, e :: marked, List.nodup_cons.mpr ⟨fun he => hdone ((hmem e).mp he).1, hnodup⟩,
    by rw [List.length_cons, hlength], fun e' => ?_⟩
  rw [List.mem_cons]
  constructor
  · rintro (rfl | he')
    · exact ⟨htried.pending, fun hafter => hdone (hmono _ hafter)⟩
    · obtain ⟨hbefore, hafter⟩ := (hmem e').mp he'
      exact ⟨htried.pending_of hbefore, hafter⟩
  · rintro ⟨hbefore, hafter⟩
    by_cases heq : e' = e
    · exact .inl heq
    · refine .inr ((hmem e').mpr ⟨⟨?_, hbefore.2⟩, hafter⟩)
      by_contra hne
      exact heq (htried.eq_of_changed hbefore.1 hne).1

/-- What the first of the rounds that are left comes to: the claim fails, nothing is pending, the publish or the mark of the oldest
event fails, or the event is marked and the other rounds follow. -/
inductive Round (t : T) (now : Nat → Int) (w₀ : World T Unit) (trace : List (Exchange calls Exc)) (w : World T Unit)
    (log : List (OutboxEventRecord × Except Exc String)) (left count : Nat) :
    List (Exchange calls Exc) → Except Exc Nat → World T Unit → Prop where
  | unclaimed (error : Exc) : Round t now w₀ trace w log left count [⟨.claim 1 none, .error error⟩] (.error error) w
  | empty : Round t now w₀ trace w log left count [⟨.claim 1 none, .ok []⟩] (.ok count) w
  | stopped {e : OutboxEventRecord} {r : Except Exc String} {more : List (Exchange calls Exc)} {w' : World T Unit} (error : Exc) :
      Tried w e r w' → (∀ x ∈ more, isPublish x = false) → Ready t w₀ (trace ++ attempt e r more) w' (log ++ [(e, r)]) →
      Round t now w₀ trace w log left count (attempt e r more) (.error error) w'
  | marked {e : OutboxEventRecord} {name : String} {at_time : Int} {more trace' : List (Exchange calls Exc)} {w₁ w' : World T Unit}
      {out : Except Exc Nat} :
      Tried w e (.ok name) w₁ → w₁.outbox = Function.update w.outbox e.id (some (stamped e at_time)) →
      (∀ x ∈ attempt e (.ok name) more, failed x = false) →
      Ready t w₀ (trace ++ attempt e (.ok name) more) w₁ (log ++ [(e, .ok name)]) →
      (rounds now left (count + 1)).Runs (StoreServes t) w₁ trace' out w' →
      Round t now w₀ trace w log left count (attempt e (.ok name) more ++ trace') out w'

/-- A round finds nothing, fails, or marks the event it tried and goes on. -/
theorem round_runs (now : Nat → Int) {left count : Nat} {trace' : List (Exchange calls Exc)} {out : Except Exc Nat}
    (h : Ready t w₀ trace w log) (hrun : (rounds now (left + 1) count).Runs (StoreServes t) w trace' out w') :
    Round t now w₀ trace w log left count trace' out w' := by
  rw [rounds_succ] at hrun
  rcases Prog.runs_bind.mp hrun with ⟨error, rfl, hclaims⟩ | ⟨events, w₁, trace₁, trace₂, rfl, hclaims, hrest⟩
  · obtain ⟨rfl, hr⟩ := Prog.runs_perform.mp hclaims
    rcases claim_cases h.free hr with ⟨_, _, rfl⟩ | ⟨hnil, _⟩ | ⟨_, hone, _⟩
    · exact .unclaimed error
    · cases hnil
    · cases hone
  · obtain ⟨rfl, hr⟩ := Prog.runs_perform.mp hclaims
    rcases claim_cases h.free hr with ⟨_, herror, _⟩ | ⟨hnil, rfl⟩ | ⟨e, hone, rfl, he, holdest⟩
    · cases herror
    · cases hnil
      obtain ⟨rfl, rfl, rfl⟩ := Prog.runs_done.mp hrest
      exact .empty
    · cases hone
      have hown : Own t (w.claim t [e]) := own_claim h.free [e]
      rcases Prog.runs_bind.mp hrest with ⟨error, rfl, hp⟩ | ⟨name, w₂, trace₃, trace₄, rfl, hp, hmark⟩
      · -- the publish fails
        rcases publish_runs hp with ⟨_, hname, _⟩ | ⟨_, herror, rfl, rfl⟩
        · cases hname
        · cases herror
          have htried : Tried w e (.error error) ((w.claim t [e]).rollback_outbox t) := Tried.of_claim (t := t) he holdest rfl
          have hmore : ∀ x ∈ [(⟨.rollback_outbox, .ok ()⟩ : Exchange calls Exc)], isPublish x = false := by simp [isPublish]
          exact .stopped error htried hmore (h.next htried (free_rollback hown) (Function.update_self _ _ _) hmore)
      · rcases publish_runs hp with ⟨_, hname, rfl, rfl⟩ | ⟨_, herror, _⟩
        · cases hname
          rcases Prog.runs_bind.mp hmark with ⟨error, rfl, hm⟩ | ⟨_, w₃, trace₅, trace₆, rfl, hm, hnext⟩
          · -- the mark fails
            have hmark := mark_reaches hown h.marked he.1 hm.reaches
            obtain ⟨hfree, hmarked, _⟩ := mark_runs hown h.marked he.1 hm
            have htried : Tried w e (.ok name) w' :=
              ⟨he, holdest, hmark.outbox.imp_right fun hout => ⟨⟨name, rfl⟩, _, hout⟩⟩
            exact .stopped error htried hmark.silent (h.next htried hfree hmarked hmark.silent)
          · have hmark := mark_reaches hown h.marked he.1 hm.reaches
            obtain ⟨hfree, hmarked, ⟨_, hok, hout⟩ | ⟨_, herror⟩⟩ := mark_runs hown h.marked he.1 hm
            · have htried : Tried w e (.ok name) w₃ := ⟨he, holdest, .inr ⟨⟨name, rfl⟩, _, hout⟩⟩
              show Round t now w₀ trace w log left count (attempt e (.ok name) trace₅ ++ trace₆) out w'
              refine .marked htried hout ?_ (h.next htried hfree hmarked hmark.silent) hnext
              intro x hx
              rcases List.mem_cons.mp hx with rfl | hx
              · rfl
              · rcases List.mem_cons.mp hx with rfl | hx
                · rfl
                · exact hok x hx
            · cases herror
        · cases herror

/-- A batch that has ended: the induction is on the rounds that are left. -/
theorem rounds_runs (now : Nat → Int) {left count : Nat} {trace' : List (Exchange calls Exc)} {out : Except Exc Nat}
    (h : Ready t w₀ trace w log) (hrun : (rounds now left count).Runs (StoreServes t) w trace' out w') :
    (∃ log', Ready t w₀ (trace ++ trace') w' log') ∧ (∀ e, Pending w' e → Pending w e) ∧ StopsAt trace' out ∧
      ∀ n, out = .ok n → ∃ number, n = count + number ∧ Marks w w' number left := by
  induction left generalizing count trace w log trace' with
  | zero =>
    obtain ⟨rfl, rfl, rfl⟩ := Prog.runs_done.mp hrun
    refine ⟨⟨log, by rw [List.append_nil]; exact h⟩, fun _ he => he, stops_of_ok (by simp) _, ?_⟩
    intro n hn
    cases hn
    exact ⟨0, rfl, marks_zero w' 0⟩
  | succ left ih =>
    have hsame : ∀ {r : Except Exc (List ClaimedEvent)}, Ready t w₀ (trace ++ [⟨.claim 1 none, r⟩]) w log :=
      { h with logged := logged_same h.logged rfl (by simp [isPublish]) }
    cases round_runs now h hrun with
    | unclaimed error =>
      exact ⟨⟨log, hsame⟩, fun _ he => he, stops_error (l := []) (by simp) _ (by simp) error, fun n hn => by cases hn⟩
    | empty =>
      refine ⟨⟨log, hsame⟩, fun _ he => he, stops_of_ok (by simp [failed]) _, ?_⟩
      intro n hn
      cases hn
      exact ⟨0, rfl, marks_zero _ _⟩
    | @stopped e r more _ error htried hmore hready =>
      have hclaimed : ∀ x ∈ [(⟨.claim 1 none, .ok [e.claimed]⟩ : Exchange calls Exc)], failed x = false := by simp [failed]
      exact ⟨⟨_, hready⟩, fun _ => htried.pending_of, stops_error hclaimed _ hmore error, fun n hn => by cases hn⟩
    | marked htried hout hattempt hready hnext =>
      obtain ⟨⟨log', hready'⟩, hmono, hstops, hcount⟩ := ih hready hnext
      refine ⟨⟨log', ?_⟩, fun e' he' => htried.pending_of (hmono e' he'), stops_append hattempt hstops, ?_⟩
      · rw [List.append_assoc] at hready'
        exact hready'
      · intro n hn
        obtain ⟨number, rfl, hmarks⟩ := hcount n hn
        exact ⟨number + 1, by omega, hmarks.cons htried hout hmono⟩

/-- Between two batches. -/
theorem ready_of_batches (hidle : w₀.Idle) (hkeys : w₀.Constraints) (h : Batches t w₀ trace w) : ∃ log, Ready t w₀ trace w log := by
  induction h with
  | nil => exact ⟨[], Ready.init hidle hkeys⟩
  | batch _ hr ih =>
    obtain ⟨log, hready⟩ := ih
    exact (rounds_runs _ hready hr).1

end DispatchOrderAux

open DispatchOrderAux

/-- After any batches over an outbox whose events nobody else claims: what is pending may be claimed again, and the rest has its stamp.
At any moment of a next batch, the publications are those of pending events in the order of `created_at`, and only what has been
published is no longer as it was. A batch publishes nothing after a call that fails, and raises then; what it returns is the number of
the events it has marked, which is at most its limit. -/
theorem dispatch_order {t : T} {w₀ w : World T Unit} {trace : List (Exchange calls Exc)} (hidle : w₀.Idle) (hkeys : w₀.Constraints)
    (h : Batches t w₀ trace w) :
    (∀ e, Pending w₀ e → w.Claimable none e ∨ ∃ now, w.outbox e.id = some { e with published_at := some now }) ∧
      (∀ now limit trace' w', (OutboxDispatcher.dispatch_batch now limit).Reaches (StoreServes t) w trace' w' →
        ∃ log, DispatchLog w₀ (trace ++ trace') w' log) ∧
      ∀ now limit trace' out w', (OutboxDispatcher.dispatch_batch now limit).Runs (StoreServes t) w trace' out w' →
        (∀ before x after, trace' = before ++ x :: after → failed x = true →
          (∀ y ∈ after, isPublish y = false) ∧ ∃ error, out = .error error) ∧
        ∀ n, out = .ok n → n ≤ limit ∧ ∃ marked : List OutboxEventRecord, marked.Nodup ∧ marked.length = n ∧
          ∀ e, e ∈ marked ↔ Pending w e ∧ ¬Pending w' e := by
  obtain ⟨log, hready⟩ := ready_of_batches hidle hkeys h
  refine ⟨?_, fun now limit trace' w' hreach => rounds_reaches now hready hreach, ?_⟩
  · intro e he
    exact (hready.settled e he).imp_left (claimable_iff hready.free).mpr
  · intro now limit trace' out w' hrun
    obtain ⟨_, _, hstops, hcount⟩ := rounds_runs now hready hrun
    refine ⟨hstops, ?_⟩
    intro n hn
    obtain ⟨number, rfl, hmarks⟩ := hcount n hn
    rw [Nat.zero_add]
    exact hmarks

namespace DispatchOrderAux

/-- An outbox with some events. -/
def holds (events : List OutboxEventRecord) : World Unit Unit :=
  { World.empty () with outbox := fun id => events.find? fun e => decide (e.id = id) }

/-- What such an outbox has under an identifier is the event with it. -/
theorem mem_of_holds {events : List OutboxEventRecord} {id : UUID} {e : OutboxEventRecord} (h : (holds events).outbox id = some e) :
    e ∈ events ∧ e.id = id :=
  ⟨List.mem_of_find?_eq_some h, by simpa using List.find?_some h⟩

/-- No transaction is open on such an outbox. -/
theorem idle_holds (events : List OutboxEventRecord) : (holds events).Idle := ⟨fun _ => rfl, fun _ => rfl, fun _ => rfl, fun _ => rfl⟩

/-- Such an outbox keeps the constraints of its table. -/
theorem constraints_holds (events : List OutboxEventRecord) : (holds events).Constraints where
  row_id h := by cases h
  event_id h := (mem_of_holds h).2
  unique_key h := by cases h

/-- The event that announces an order, created at the time of its number. -/
def announced (number : Fin (2 ^ 128)) : OutboxEventRecord where
  id := ⟨number⟩
  topic := "execution.intent.ready"
  message_key := "key"
  payload := .empty
  created_at := number

/-- Three events, in the order in which they were created. -/
def three : List OutboxEventRecord := [announced 1, announced 2, announced 3]

/-- The outbox once the first of them is marked. -/
def firstMarked : World Unit Unit := (((holds three).claim () [announced 1]).mark () (stamped (announced 1) 5)).commit_outbox ()

/-- The first of them is the oldest. -/
theorem claims_first : (holds three).Claims 1 none [announced 1] := by
  refine claims_oldest ⟨rfl, rfl, rfl, fun _ hname => nomatch hname⟩ ?_
  intro e he
  obtain ⟨hmem, _⟩ := mem_of_holds he.1
  simp only [three, List.mem_cons, List.not_mem_nil, or_false] at hmem
  rcases hmem with rfl | rfl | rfl <;> decide

/-- The second is the oldest of those that are left. -/
theorem claims_second : firstMarked.Claims 1 none [announced 2] := by
  refine claims_oldest ⟨rfl, rfl, rfl, fun _ hname => nomatch hname⟩ ?_
  rintro e ⟨he, hpending, _⟩
  have houtbox : firstMarked.outbox = Function.update (holds three).outbox ⟨1⟩ (some (stamped (announced 1) 5)) := rfl
  rw [houtbox, Function.update_apply] at he
  split at he
  · obtain rfl := Option.some.inj he
    cases hpending
  · rename_i hne
    obtain ⟨hmem, _⟩ := mem_of_holds he
    simp only [three, List.mem_cons, List.not_mem_nil, or_false] at hmem
    rcases hmem with rfl | rfl | rfl
    · exact absurd rfl hne
    · decide
    · decide

/-- The publisher is not reached. -/
def unreached : Exc := ⟨[.Exception], "redis unavailable", [], []⟩

/-- The calls of a batch that publishes and marks the first event, and does not reach the publisher with the second. -/
def unreachedCalls : List (Exchange calls Exc) :=
  [⟨.claim 1 none, .ok [(announced 1).claimed]⟩, publication (announced 1, .ok "0-1")] ++ markCalls (announced 1) 5 ++
    [⟨.claim 1 none, .ok [(announced 2).claimed]⟩, publication (announced 2, .error unreached), ⟨.rollback_outbox, .ok ()⟩]

/-- Such a batch, which might have published all three. -/
theorem runs_unreached : (OutboxDispatcher.dispatch_batch (fun _ => 5) 3).Runs (StoreServes ()) (holds three) unreachedCalls
    (.error unreached) ((firstMarked.claim () [announced 2]).rollback_outbox ()) := by
  refine .call ⟨⟨[announced 1], claims_first, rfl, rfl⟩, trivial⟩ (.call ⟨rfl, trivial⟩ ?_)
  refine Prog.runs_bind.mpr (.inr ⟨(), firstMarked, markCalls (announced 1) 5, _, rfl, mark_published_runs rfl, ?_⟩)
  exact .call ⟨⟨[announced 2], claims_second, rfl, rfl⟩, trivial⟩ (.call ⟨rfl, trivial⟩ (.call ⟨rfl, trivial⟩ .done))

end DispatchOrderAux

/-- Where the second of three publishes raises, the batch ends with it: what was published is logged in order, no later event is
published, and the two events that are left may be claimed again. -/
theorem dispatch_order_unreached : ∃ w, Batches () (holds three) unreachedCalls w ∧
    (∃ log, DispatchLog (holds three) unreachedCalls w log) ∧
    (∀ before after, unreachedCalls = before ++ publication (announced 2, .error unreached) :: after →
      ∀ y ∈ after, isPublish y = false) ∧
    ∀ e, Pending (holds three) e → w.Claimable none e ∨ ∃ now, w.outbox e.id = some { e with published_at := some now } := by
  have hbatches := Batches.batch .nil runs_unreached
  obtain ⟨_, hlog, hstops⟩ := dispatch_order (idle_holds three) (constraints_holds three) .nil
  refine ⟨_, hbatches, hlog _ _ _ _ runs_unreached.reaches, ?_, ?_⟩
  · intro before after hsplit
    exact ((hstops _ _ _ _ _ runs_unreached).1 before _ after hsplit rfl).1
  · exact (dispatch_order (idle_holds three) (constraints_holds three) hbatches).1

end MtossBot

import MtossBot.Infrastructure.RedisStreams
import MtossBot.Theorems.DispatchOrder
import MtossBot.Workers.Executor

/-!
# What a stream says

The dispatcher with redis behind it. An entry is added for every publication that returns; of one that raises it is not known whether it
was.
-/

namespace MtossBot

/-- The entries that the publications of a trace leave, of payloads that are dictionaries of texts as those of the repository are. -/
inductive Streamed : List (Exchange calls Exc) → List StreamEntry → Prop where
  | nil : Streamed [] []
  | added {topic key : String} {payload : Dict String JsonValue} {value : Json} {answer : Except Exc String}
      {trace : List (Exchange calls Exc)} {entries : List StreamEntry} :
      payloadJson payload = some value → Streamed trace entries →
      Streamed (⟨.publish topic key payload, answer⟩ :: trace) (RedisStreamsPublisher.publish topic key value :: entries)
  | lost {topic key : String} {payload : Dict String JsonValue} (error : Exc) {trace : List (Exchange calls Exc)}
      {entries : List StreamEntry} : Streamed trace entries → Streamed (⟨.publish topic key payload, .error error⟩ :: trace) entries
  | other {x : Exchange calls Exc} {trace : List (Exchange calls Exc)} {entries : List StreamEntry} :
      isPublish x = false → Streamed trace entries → Streamed (x :: trace) entries

/-- The intent that a reader of the stream finds in an entry. -/
def StreamEntry.intent_id (entry : StreamEntry) : Option UUID :=
  match entry.payload.bind (Json.member? "intent_id") with
  | some (.str raw) => UUID.parse raw
  | _ => none

/-- An entry says what an event says: it is in the stream of its topic, with its key; the payload reads back text by text, so the intent
in it is the one that the worker would execute; and another payload has the same text exactly when it is the same dictionary. -/
structure StreamEntry.Says (entry : StreamEntry) (e : OutboxEventRecord) : Prop where
  stream : entry.stream = e.topic
  key : entry.fields.get? "message_key" = some e.message_key
  payload : ∃ value, entry.payload = some value ∧ ∀ key text, value.member? key = some (.str text) ↔ e.payload.get? key = some (.str text)
  intent : entry.intent_id = ExecutionWorker._read_intent_id e.claimed
  text : ∀ topic key payload value, payloadJson payload = some value →
    ((RedisStreamsPublisher.publish topic key value).fields.get? "payload" = entry.fields.get? "payload" ↔
      ∀ key, payload.get? key = e.payload.get? key)

namespace StreamEntriesAux

open Json RedisStreamsPublisher

variable {payload : Dict String JsonValue} {value : Json}

/-- The separators of the dump are blank but for their mark. -/
theorem blank_separators : SEPARATORS.Blank := ⟨⟨0, rfl⟩, ⟨0, rfl⟩⟩

/-- Texts under keys, as entries of a dictionary and as members of an object. -/
def entriesOf (texts : List (String × String)) : List (String × JsonValue) := texts.map fun m => (m.1, .str m.2)

def membersOf (texts : List (String × String)) : List (String × Json) := texts.map fun m => (m.1, .str m.2)

/-- A payload of texts is the entries of its texts. -/
theorem texts_eq_some {entries : List (String × JsonValue)} {texts : List (String × String)} :
    texts? entries = some texts ↔ entries = entriesOf texts := by
  induction entries generalizing texts with
  | nil =>
    cases texts with
    | nil => exact iff_of_true rfl rfl
    | cons m texts => exact iff_of_false nofun nofun
  | cons entry entries ih =>
    obtain ⟨key, v⟩ := entry
    cases v with
    | other =>
      refine iff_of_false nofun ?_
      intro h
      cases texts <;> cases h
    | str text =>
      rw [texts?, Option.map_eq_some_iff]
      constructor
      · rintro ⟨rest, hrest, rfl⟩
        rw [ih.mp hrest]
        rfl
      · intro h
        cases texts with
        | nil => cases h
        | cons m texts =>
          obtain ⟨hm, hrest⟩ := List.cons.inj h
          obtain ⟨rfl, ht⟩ := Prod.mk.inj hm
          exact ⟨texts, ih.mpr hrest, by rw [JsonValue.str.inj ht]⟩

/-- A payload of texts, and its members. -/
theorem payloadJson_eq (h : payloadJson payload = some value) : ∃ texts : List (String × String), (texts.map Prod.fst).Nodup ∧
    payload.entries = entriesOf texts ∧ value = .obj (membersOf texts) := by
  obtain ⟨texts, htexts, rfl⟩ := Option.map_eq_some_iff.mp h
  have hentries := texts_eq_some.mp htexts
  refine ⟨texts, ?_, hentries, rfl⟩
  have hnodup := payload.nodup
  rw [hentries, entriesOf, List.map_map] at hnodup
  exact hnodup

section Texts

variable {texts : List (String × String)} (h : (texts.map Prod.fst).Nodup)

include h

/-- Distinct keys make distinct members. -/
theorem distinct_membersOf : Distinct (.obj (membersOf texts)) := by
  refine ⟨?_, ?_⟩
  · rw [membersOf, List.map_map]
    exact h
  · rw [distinctMembers_iff]
    intro m hm
    obtain ⟨m', _, rfl⟩ := List.mem_map.mp hm
    trivial

/-- The text under a key, whichever order the members are in. -/
theorem member_iff {key text : String} {members : List (String × Json)} (hp : members.Perm (membersOf texts)) :
    member? key (.obj members) = some (.str text) ↔ (key, text) ∈ texts := by
  have hnodup : (members.map Prod.fst).Nodup := by
    refine (hp.map Prod.fst).nodup_iff.mpr ?_
    rw [membersOf, List.map_map]
    exact h
  have hmem : (key, Json.str text) ∈ membersOf texts ↔ (key, text) ∈ texts := by
    rw [membersOf, List.mem_map]
    constructor
    · rintro ⟨m, hm, heq⟩
      obtain ⟨rfl, ht⟩ := Prod.mk.inj heq
      rwa [← Json.str.inj ht]
    · exact fun hm => ⟨_, hm, rfl⟩
  have hdict : member? key (.obj members) = (⟨members, hnodup⟩ : Dict String Json).get? key := rfl
  rw [hdict, ← Dict.mem_entries_iff, hp.mem_iff, hmem]

end Texts

/-- A key has a text just when the payload lists it. -/
theorem get_iff {texts : List (String × String)} {payload : Dict String JsonValue} (hp : payload.entries = entriesOf texts) {key text : String} :
    payload.get? key = some (.str text) ↔ (key, text) ∈ texts := by
  rw [← Dict.mem_entries_iff, hp, entriesOf, List.mem_map]
  constructor
  · rintro ⟨m, hm, heq⟩
    obtain ⟨rfl, ht⟩ := Prod.mk.inj heq
    rwa [← JsonValue.str.inj ht]
  · exact fun hm => ⟨_, hm, rfl⟩

/-- Dictionaries of texts are equal exactly when their texts are the same. -/
theorem perm_iff {texts texts' : List (String × String)} {payload payload' : Dict String JsonValue}
    (h : (texts.map Prod.fst).Nodup) (h' : (texts'.map Prod.fst).Nodup) (hp : payload.entries = entriesOf texts)
    (hp' : payload'.entries = entriesOf texts') : texts.Perm texts' ↔ ∀ key, payload.get? key = payload'.get? key := by
  have hget : ∀ {texts : List (String × String)} {payload : Dict String JsonValue}, payload.entries = entriesOf texts →
      ∀ {key v}, payload.get? key = some v → ∃ text, v = .str text := by
    intro texts payload hp key v hv
    have hmem := Dict.mem_entries_iff.mpr hv
    rw [hp] at hmem
    obtain ⟨m, _, heq⟩ := List.mem_map.mp hmem
    exact ⟨m.2, (Prod.mk.inj heq).2.symm⟩
  rw [List.perm_ext_iff_of_nodup (List.Nodup.of_map _ h) (List.Nodup.of_map _ h')]
  constructor
  · intro hsame key
    refine Option.ext fun v => ?_
    constructor
    · intro hv
      obtain ⟨text, rfl⟩ := hget hp hv
      exact (get_iff hp').mpr ((hsame _).mp ((get_iff hp).mp hv))
    · intro hv
      obtain ⟨text, rfl⟩ := hget hp' hv
      exact (get_iff hp).mpr ((hsame _).mpr ((get_iff hp').mp hv))
  · rintro hsame ⟨key, text⟩
    rw [← get_iff hp, ← get_iff hp', hsame]

/-- Every member of such an object is a text. -/
theorem member_text {texts : List (String × String)} {members : List (String × Json)} (hp : members.Perm (membersOf texts)) {key : String}
    {v : Json} (hv : member? key (.obj members) = some v) : ∃ text, v = .str text := by
  obtain ⟨m, hfind, rfl⟩ := Option.map_eq_some_iff.mp hv
  obtain ⟨m', _, rfl⟩ := List.mem_map.mp (hp.subset (List.mem_of_find?_eq_some hfind))
  exact ⟨m'.2, rfl⟩

/-- What reads back of a payload: its members, in the order of their keys. -/
theorem payload_publish (topic key : String) {texts : List (String × String)} (h : (texts.map Prod.fst).Nodup) :
    ∃ members, (publish topic key (.obj (membersOf texts))).payload = some (.obj members) ∧ members.Perm (membersOf texts) := by
  have hread := (loads_dumps blank_separators (distinct_membersOf h)).1
  have hsorted : sortMembers (membersOf texts) = membersOf texts := by
    rw [sortMembers_eq_map]
    refine (List.map_congr_left fun m hm => ?_).trans (List.map_id _)
    obtain ⟨m', _, rfl⟩ := List.mem_map.mp hm
    rfl
  refine ⟨byKey (membersOf texts), ?_, List.perm_insertionSort _ _⟩
  rw [sortKeys_obj, hsorted] at hread
  rw [StreamEntry.payload, publish, Dict.get?_set_self, Option.bind_some, hread]

/-- Objects of texts are equal when they list the same. -/
theorem same_membersOf {texts texts' : List (String × String)} :
    Same (.obj (membersOf texts)) (.obj (membersOf texts')) ↔ texts.Perm texts' := by
  have htexts : ∀ m ∈ membersOf texts, ∃ t, m.2 = .str t := by
    intro m hm
    obtain ⟨m', _, rfl⟩ := List.mem_map.mp hm
    exact ⟨m'.2, rfl⟩
  have hinj : Function.Injective fun m : String × String => (m.1, Json.str m.2) := by
    rintro ⟨key, text⟩ ⟨key', text'⟩ heq
    obtain ⟨hkey, ht⟩ := Prod.mk.inj heq
    exact Prod.ext hkey (Json.str.inj ht)
  rw [← List.map_perm_map_iff hinj]
  constructor
  · intro h
    cases h with
    | obj hmembers => exact (sameMembers_texts htexts).mp hmembers
  · exact fun h => .obj ((sameMembers_texts htexts).mpr h)

/-- The entry that is added for a payload of texts. -/
theorem says_publish {e : OutboxEventRecord} (h : payloadJson e.payload = some value) : (publish e.topic e.message_key value).Says e := by
  obtain ⟨texts, hnodup, hentries, rfl⟩ := payloadJson_eq h
  obtain ⟨members, hread, hperm⟩ := payload_publish e.topic e.message_key hnodup
  have hmember : ∀ key text, member? key (.obj members) = some (.str text) ↔ e.payload.get? key = some (.str text) := by
    intro key text
    rw [member_iff hnodup hperm, get_iff hentries]
  refine ⟨rfl, ?_, ⟨_, hread, hmember⟩, ?_, ?_⟩
  · rw [publish, Dict.get?_set_of_ne _ _ (by decide), Dict.get?_set_self]
  · unfold StreamEntry.intent_id ExecutionWorker._read_intent_id
    rw [hread, Option.bind_some]
    cases hget : member? "intent_id" (.obj members) with
    | none =>
      split
      · rename_i heq
        cases heq
      · split
        · rename_i raw heq
          rw [(hmember _ raw).mpr heq] at hget
          cases hget
        · rfl
    | some v =>
      obtain ⟨text, rfl⟩ := member_text hperm hget
      have hstored : e.claimed.payload.get? "intent_id" = some (.str text) := (hmember _ text).mp hget
      rw [hstored]
  · intro topic key payload value hvalue
    obtain ⟨texts', hnodup', hentries', rfl⟩ := payloadJson_eq hvalue
    have hsame := (loads_dumps blank_separators (distinct_membersOf hnodup')).2.2 (.obj (membersOf texts))
    rw [publish, publish, Dict.get?_set_self, Dict.get?_set_self, Option.some.injEq, hsame, ← perm_iff hnodup' hnodup hentries' hentries,
      same_membersOf]

/-! ### The entries of a run -/

variable {trace : List (Exchange calls Exc)} {entries : List StreamEntry}

/-- Only publications add entries. -/
theorem streamed_filter (h : Streamed trace entries) : Streamed (trace.filter isPublish) entries := by
  induction h with
  | nil => exact .nil
  | added hvalue _ ih => exact .added hvalue ih
  | lost error _ ih => exact .lost error ih
  | other hsilent _ ih =>
    rw [List.filter_cons_of_neg (by simp [hsilent])]
    exact ih

/-- The entries say some of the events whose publication was tried, in order; among them those that were published. -/
theorem said_of_log {log : List (OutboxEventRecord × Except Exc String)} (h : Streamed (log.map publication) entries) :
    ∃ events : List OutboxEventRecord, List.Forall₂ StreamEntry.Says entries events ∧ events.Sublist (log.map Prod.fst) ∧
      ∀ e name, (e, .ok name) ∈ log → e ∈ events := by
  induction log generalizing entries with
  | nil =>
    cases h with
    | nil => exact ⟨[], .nil, .slnil, by simp⟩
  | cons x log ih =>
    obtain ⟨e, answer⟩ := x
    have hkept : ∀ {entries : List StreamEntry}, Streamed (log.map publication) entries → (∀ name, answer ≠ .ok name) →
        ∃ events : List OutboxEventRecord, List.Forall₂ StreamEntry.Says entries events ∧
          events.Sublist (((e, answer) :: log).map Prod.fst) ∧ ∀ e' name, (e', .ok name) ∈ (e, answer) :: log → e' ∈ events := by
      intro entries hmore hraised
      obtain ⟨events, hsays, hsub, hpublished⟩ := ih hmore
      refine ⟨events, hsays, hsub.cons _, ?_⟩
      intro e' name hmem
      rcases List.mem_cons.mp hmem with heq | hmem
      · exact absurd (Prod.mk.inj heq).2.symm (hraised name)
      · exact hpublished e' name hmem
    have hadded : ∀ {value : Json} {entries : List StreamEntry}, payloadJson e.payload = some value →
        Streamed (log.map publication) entries →
        ∃ events : List OutboxEventRecord, List.Forall₂ StreamEntry.Says (publish e.topic e.message_key value :: entries) events ∧
          events.Sublist (((e, answer) :: log).map Prod.fst) ∧ ∀ e' name, (e', .ok name) ∈ (e, answer) :: log → e' ∈ events := by
      intro value entries hvalue hmore
      obtain ⟨events, hsays, hsub, hpublished⟩ := ih hmore
      refine ⟨e :: events, .cons (says_publish hvalue) hsays, hsub.cons_cons _, ?_⟩
      intro e' name hmem
      rcases List.mem_cons.mp hmem with heq | hmem
      · rw [(Prod.mk.inj heq).1]
        exact List.mem_cons_self
      · exact List.mem_cons_of_mem _ (hpublished e' name hmem)
    cases answer with
    | ok name =>
      cases h with
      | added hvalue hmore => exact hadded hvalue hmore
      | other hsilent _ => cases hsilent
    | error error =>
      cases h with
      | added hvalue hmore => exact hadded hvalue hmore
      | lost _ hmore => exact hkept hmore nofun
      | other hsilent _ => cases hsilent

end StreamEntriesAux

open StreamEntriesAux

/-- Batches of the dispatcher over any outbox with payloads of texts, with redis behind it. The entries of the streams say events that were pending, in the order
of `created_at`; and every event that is no longer as it was is said by one. -/
theorem stream_entries {T : Type} [DecidableEq T] {t : T} {w₀ w : World T Unit} {trace : List (Exchange calls Exc)}
    {entries : List StreamEntry} (hidle : w₀.Idle) (hkeys : w₀.Constraints) (h : Batches t w₀ trace w) (hs : Streamed trace entries) :
    ∃ events : List OutboxEventRecord, List.Forall₂ StreamEntry.Says entries events ∧ (∀ e ∈ events, Pending w₀ e) ∧
      (events.Pairwise fun e e' => e.created_at ≤ e'.created_at) ∧ ∀ e, Pending w₀ e → w.outbox e.id ≠ some e → e ∈ events := by
  obtain ⟨log, hready⟩ := DispatchOrderAux.ready_of_batches hidle hkeys h
  have hlogged := hready.logged
  obtain ⟨events, hsays, hsub, hpublished⟩ := said_of_log (hlogged.publications ▸ streamed_filter hs)
  refine ⟨events, hsays, ?_, ?_, ?_⟩
  · intro e he
    obtain ⟨x, hx, rfl⟩ := List.mem_map.mp (hsub.subset he)
    exact hlogged.pending x hx
  · have hordered : (log.map Prod.fst).Pairwise fun e e' => e.created_at ≤ e'.created_at := List.pairwise_map.mpr hlogged.ordered
    exact hordered.sublist hsub
  · intro e he hne
    obtain ⟨name, hname⟩ := hlogged.marked e he hne
    exact hpublished e name hname

namespace StreamEntriesAux

open DispatchOrderAux (stamped holds mem_of_holds claims_oldest markCalls mark_published_runs)

/-- An event that announces the order with the number seven. -/
def ready : OutboxEventRecord where
  id := ⟨1⟩
  topic := "execution.intent.ready"
  message_key := "key"
  payload := (Dict.empty.set "intent_id" (.str (⟨7⟩ : UUID).str)).set "account_id" (.str (⟨2⟩ : UUID).str)
  created_at := 0

/-- It is the oldest event of an outbox with that event only. -/
theorem claims_ready : (holds [ready]).Claims 1 none [ready] := by
  refine claims_oldest ⟨rfl, rfl, rfl, fun _ hname => nomatch hname⟩ ?_
  intro e he
  rw [List.mem_singleton.mp (mem_of_holds he.1).1]

/-- The calls of a batch that publishes the event and marks it. -/
def readyCalls : List (Exchange calls Exc) :=
  [⟨.claim 1 none, .ok [ready.claimed]⟩, publication (ready, .ok "0-1")] ++ markCalls ready 5

/-- Such a batch. -/
theorem batch_ready : ∃ w, Batches () (holds [ready]) readyCalls w := by
  have hrun : (OutboxDispatcher.dispatch_batch (fun _ => 5) 1).Runs (StoreServes ()) (holds [ready]) readyCalls (.ok 1)
      ((((holds [ready]).claim () [ready]).mark () (stamped ready 5)).commit_outbox ()) := by
    refine .call ⟨⟨[ready], claims_ready, rfl, rfl⟩, trivial⟩ (.call ⟨rfl, trivial⟩ ?_)
    exact Prog.runs_bind.mpr (.inr ⟨(), _, _, [], (List.append_nil _).symm, mark_published_runs rfl, .done⟩)
  have hbatches := Batches.batch .nil hrun
  exact ⟨_, hbatches⟩

/-- The payload of the event as JSON. -/
theorem payload_ready : payloadJson ready.payload =
    some (.obj [("intent_id", .str (⟨7⟩ : UUID).str), ("account_id", .str (⟨2⟩ : UUID).str)]) := rfl

end StreamEntriesAux

/-- The entry that such a batch adds says the event, with the order that the worker would execute. -/
theorem stream_entries_ready : ∃ entry : StreamEntry, entry.Says ready ∧ entry.intent_id = some ⟨7⟩ := by
  obtain ⟨w, hbatches⟩ := batch_ready
  have hstreamed : Streamed readyCalls [RedisStreamsPublisher.publish ready.topic ready.message_key _] :=
    .other rfl (.added payload_ready (.other rfl (.other rfl (.other rfl .nil))))
  obtain ⟨events, hsays, hpending, _⟩ := stream_entries (DispatchOrderAux.idle_holds _) (DispatchOrderAux.constraints_holds _) hbatches hstreamed
  obtain ⟨e, rest, hsay, _, rfl⟩ := List.forall₂_cons_left_iff.mp hsays
  obtain rfl := List.mem_singleton.mp (DispatchOrderAux.mem_of_holds (hpending e List.mem_cons_self).1).1
  refine ⟨_, hsay, hsay.intent.trans ?_⟩
  exact UUID.parse_str ⟨7⟩

end MtossBot

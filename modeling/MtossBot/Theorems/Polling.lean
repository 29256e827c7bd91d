import Mathlib.Data.List.Infix
import MtossBot.Infrastructure.Telegram

/-!
# Polling for confirmations

One notifier polls a server while updates arrive. A poll is a request, which the server answers with the first of the updates it
holds from the offset on, and the reading of the reply; the request or the reply may get lost.
-/

namespace MtossBot

/-- The server with the updates it holds, the notifier, the reply on its way, and what has arrived, was delivered and was returned. -/
structure Polling where
  held : List Update
  notifier : TelegramNotifier
  reply : Option (List Update) := none
  arrived : List Update := []
  delivered : List Update := []
  returned : List ConfirmationResponse := []

/-- An update that a request with this offset asks for. -/
def wanted (offset : Option Int) (update : Update) : Bool := offset.all (· ≤ update.update_id)

namespace Polling

def initial (chat_id : Int) : Polling where
  held := []
  notifier := { chat_id := chat_id }

/-- What happens next: an update arrives, the server gets a request and answers it with so many updates, the reply is read, or the poll
fails. -/
inductive Step : Polling → Polling → Prop where
  | arrive {s : Polling} (update : Update) :
      (∀ u ∈ s.arrived, u.update_id < update.update_id) →
      Step s { s with held := s.held ++ [update], arrived := s.arrived ++ [update] }
  | request {s : Polling} (count : Nat) :
      s.reply = none →
      Step s { s with
        held := s.held.filter (wanted s.notifier.offset)
        reply := some ((s.held.filter (wanted s.notifier.offset)).take count) }
  | read {s : Polling} {updates : List Update} {responses : List ConfirmationResponse} {notifier : TelegramNotifier}
      (now : Datetime) :
      s.reply = some updates → s.notifier.poll_responses now (.ok updates) = (.ok responses, notifier) →
      Step s { s with
        notifier := notifier
        reply := none
        delivered := s.delivered ++ updates
        returned := s.returned ++ responses }
  | fail {s : Polling} {outcome : Except Exc (List ConfirmationResponse)} {notifier : TelegramNotifier} (now : Datetime)
      (e : Exc) :
      s.notifier.poll_responses now (.error e) = (outcome, notifier) →
      Step s { s with
        notifier := notifier
        reply := none
        returned := s.returned ++ match outcome with | .ok responses => responses | .error _ => [] }

/-- The states that are reached from the start of a notifier for a chat. -/
inductive Reached (chat_id : Int) : Polling → Prop where
  | initial : Reached chat_id (initial chat_id)
  | step {s s' : Polling} : Reached chat_id s → Step s s' → Reached chat_id s'

end Polling

/-- The pair a response stands for. -/
def ConfirmationResponse.pair (r : ConfirmationResponse) : UUID × ConfirmationChoice := (r.confirmation_id, r.choice)

/-- The word for a choice. -/
def ConfirmationChoice.word : ConfirmationChoice → String
  | .ENTER => "enter"
  | .SKIP => "skip"

/-- The sender of an update is the one of the chat. -/
def Update.From (chat_id : Int) (update : Update) : Prop := ∃ query, update.callback_query = some query ∧ query.sender_id = some chat_id

/-- An update answers a confirmation: its sender is the one of the chat, and its data is the word and the identifier. -/
def Update.Answers (chat_id : Int) (update : Update) (answer : UUID × ConfirmationChoice) : Prop :=
  ∃ query raw, update.callback_query = some query ∧ query.sender_id = some chat_id ∧
    query.data = some (answer.2.word ++ ":" ++ raw) ∧ UUID.parse raw = some answer.1

namespace PollingAux

open TelegramNotifier

/-- What an update says, read by the notifier: the time does not matter. -/
def answer (chat_id : Int) (update : Update) : Option (UUID × ConfirmationChoice) :=
  (_parse_callback ⟨chat_id, none⟩ (.aware 0 0) update).map ConfirmationResponse.pair

variable {chat_id : Int} {update : Update} {self : TelegramNotifier} {now : Datetime}

/-- The parsed response is what the press answers. -/
theorem parse_pair (self : TelegramNotifier) (now : Datetime) (update : Update) :
    (self._parse_callback now update).map ConfirmationResponse.pair = answer self.chat_id update := by
  unfold answer _parse_callback
  cases update.callback_query with
  | none => rfl
  | some query =>
    simp only
    split
    · rfl
    · split <;> rfl

/-- A text is cut at its first colon. -/
theorem span_append {pre : List Char} (h : ':' ∉ pre) (rest : List Char) :
    (pre ++ ':' :: rest).span (· ≠ ':') = (pre, ':' :: rest) := by
  rw [List.span_eq_takeWhile_dropWhile, List.takeWhile_append_of_pos, List.dropWhile_append_of_pos]
  · simp
  · intro c hc
    exact decide_eq_true fun heq => h (heq ▸ hc)
  · intro c hc
    exact decide_eq_true fun heq => h (heq ▸ hc)

/-- The prefixes are the words of the choices. -/
theorem prefixes_eq_some {pre : String} {choice : ConfirmationChoice} :
    CALLBACK_PREFIXES pre = some choice ↔ pre = choice.word := by
  unfold CALLBACK_PREFIXES
  split
  · rename_i h
    subst h
    cases choice <;> simp [ConfirmationChoice.word]
  · split
    · rename_i h
      subst h
      cases choice <;> simp [ConfirmationChoice.word]
    · rename_i h₁ h₂
      cases choice
      · exact ⟨nofun, fun h => absurd h h₁⟩
      · exact ⟨nofun, fun h => absurd h h₂⟩

/-- A word before a colon is partitioned off. -/
theorem partition_word (choice : ConfirmationChoice) (raw : String) :
    partition (choice.word ++ ":" ++ raw) = (choice.word, raw) := by
  have hword : ':' ∉ choice.word.toList := by cases choice <;> decide
  have hlist : (choice.word ++ ":" ++ raw).toList = choice.word.toList ++ ':' :: raw.toList := by
    simp [String.toList_append]
  rw [partition, hlist, span_append hword]
  simp

/-- What comes before the separator and after it make up the text, unless there is no separator. -/
theorem partition_eq (text : String) : text = (partition text).1 ++ ":" ++ (partition text).2 ∨ (partition text).2 = "" := by
  rw [partition, List.span_eq_takeWhile_dropWhile]
  cases hrest : text.toList.dropWhile (· ≠ ':') with
  | nil => exact .inr rfl
  | cons c rest =>
    left
    have hc : c = ':' := by
      have hhead := List.head?_dropWhile_not (fun x => decide (x ≠ ':')) text.toList
      rw [hrest] at hhead
      simpa using hhead
    have happend : text.toList.takeWhile (· ≠ ':') ++ c :: rest = text.toList := by
      rw [← hrest]
      exact List.takeWhile_append_dropWhile
    apply String.toList_inj.mp
    calc text.toList = text.toList.takeWhile (· ≠ ':') ++ ':' :: rest := (hc ▸ happend).symm
      _ = _ := by simp [String.toList_append]

/-- The empty text is no identifier. -/
theorem parse_empty : UUID.parse "" = none := by decide +kernel

/-- Callback data are a word, a colon and an identifier. -/
theorem split_eq_some {data : String} {choice : ConfirmationChoice} {id : UUID} :
    _split_callback_data data = (some choice, some id) ↔
      ∃ raw, data = choice.word ++ ":" ++ raw ∧ UUID.parse raw = some id := by
  constructor
  · intro h
    unfold _split_callback_data at h
    simp only at h
    split at h
    · cases h
    · rename_i hprefix
      split at h
      · rename_i id' hparse
        obtain ⟨rfl, rfl⟩ : _ = choice ∧ id' = id := by simpa using h
        refine ⟨(partition data).2, ?_, hparse⟩
        rcases partition_eq data with hdata | hempty
        · rwa [prefixes_eq_some.mp hprefix] at hdata
        · rw [hempty, parse_empty] at hparse
          cases hparse
      · cases h
  · rintro ⟨raw, rfl, hparse⟩
    unfold _split_callback_data
    rw [partition_word]
    simp only [prefixes_eq_some.mpr rfl, hparse]

/-- What the notifier reads out of an update is what the update answers. -/
theorem answer_eq_some {pair : UUID × ConfirmationChoice} : answer chat_id update = some pair ↔ update.Answers chat_id pair := by
  obtain ⟨id, choice⟩ := pair
  unfold answer _parse_callback Update.Answers
  cases hquery : update.callback_query with
  | none => simp
  | some query =>
    simp only [Option.some.injEq, exists_and_left, exists_eq_left']
    split
    · rename_i hsender
      simp [hsender]
    · rename_i hsender
      rw [not_not] at hsender
      rw [and_iff_right hsender]
      cases hdata : query.data with
      | none =>
        have hnone : _split_callback_data "" = (none, none) := by decide
        simp [hnone]
      | some data =>
        simp only [Option.getD_some, Option.some.injEq]
        rw [← split_eq_some]
        split
        · rename_i choice' id' hsplit
          simp [hsplit, ConfirmationResponse.pair, and_comm]
        · rename_i hsplit
          constructor
          · nofun
          · intro h
            exact absurd h (hsplit choice id)

/-- Another sender answers nothing. -/
theorem answer_of_not_from (h : ¬update.From chat_id) : answer chat_id update = none := by
  by_contra hne
  obtain ⟨pair, hpair⟩ := Option.ne_none_iff_exists'.mp hne
  obtain ⟨query, _, hquery, hsender, _⟩ := answer_eq_some.mp hpair
  exact h ⟨query, hquery, hsender⟩

/-- What is left of a poll whose reply was read. -/
theorem receive_eq (now : Datetime) (self : TelegramNotifier) (responses : List ConfirmationResponse) (updates : List Update) :
    receive now self responses updates = (responses ++ updates.filterMap (self._parse_callback now),
      { self with offset := (updates.getLast?.map fun u => u.update_id + 1).or self.offset }) := by
  induction updates generalizing self responses with
  | nil => simp [receive]
  | cons u updates ih =>
    have hlast : ∀ o : Option Int, ((u :: updates).getLast?.map fun u => u.update_id + 1).or o =
        (updates.getLast?.map fun u => u.update_id + 1).or (some (u.update_id + 1)) := by
      intro o
      cases h : updates.getLast? <;> simp [List.getLast?_cons, h]
    have hparse : ∀ o : Option Int, _parse_callback { self with offset := o } now = _parse_callback self now := fun _ => rfl
    rw [receive, hlast]
    simp only [hparse, List.filterMap_cons]
    cases hp : self._parse_callback now u with
    | none =>
      simp only
      rw [ih, hparse]
    | some parsed =>
      simp only
      rw [ih, hparse, List.append_assoc, List.singleton_append]

/-- A poll returns the answers of its updates, and moves the offset on. -/
theorem poll_ok {updates : List Update} {responses : List ConfirmationResponse} {notifier : TelegramNotifier}
    (h : self.poll_responses now (.ok updates) = (.ok responses, notifier)) :
    responses.map ConfirmationResponse.pair = updates.filterMap (answer self.chat_id) ∧
      notifier = { self with offset := (updates.getLast?.map fun u => u.update_id + 1).or self.offset } := by
  unfold poll_responses at h
  simp only [receive_eq, List.nil_append, Prod.mk.injEq, Except.ok.injEq] at h
  obtain ⟨rfl, rfl⟩ := h
  refine ⟨?_, rfl⟩
  rw [List.map_filterMap]
  congr 1
  funext u
  exact parse_pair self now u

/-- A poll that raises returns nothing and leaves the offset. -/
theorem poll_error {e : Exc} {outcome : Except Exc (List ConfirmationResponse)} {notifier : TelegramNotifier}
    (h : self.poll_responses now (.error e) = (outcome, notifier)) :
    (match outcome with | .ok responses => responses | .error _ => []) = [] ∧ notifier = self := by
  unfold poll_responses at h
  simp only at h
  split at h <;> obtain ⟨rfl, rfl⟩ := Prod.mk.inj h <;> exact ⟨rfl, rfl⟩

/-- The updates that were delivered are the first that arrived; the server has the others, and sends them in order. -/
structure Sound (chat_id : Int) (s : Polling) : Prop where
  chat : s.notifier.chat_id = chat_id
  sorted : s.arrived.Pairwise fun u v => u.update_id < v.update_id
  split : s.arrived = s.delivered ++ s.held.filter (wanted s.notifier.offset)
  reply : ∀ updates, s.reply = some updates → updates <+: s.held.filter (wanted s.notifier.offset)
  offset : s.notifier.offset = s.delivered.getLast?.map fun u => u.update_id + 1
  returned : s.returned.map ConfirmationResponse.pair = s.delivered.filterMap (answer chat_id)

/-- An update that comes after all that have arrived is wanted. -/
theorem Sound.wanted_new {s : Polling} (h : Sound chat_id s) (hnew : ∀ u ∈ s.arrived, u.update_id < update.update_id) :
    wanted s.notifier.offset update = true := by
  rw [h.offset, wanted]
  cases hlast : s.delivered.getLast? with
  | none => rfl
  | some u =>
    have hmem : u ∈ s.arrived := by
      rw [h.split]
      exact List.mem_append_left _ (List.mem_of_getLast? hlast)
    have hlt := hnew u hmem
    simp only [Option.map_some, Option.all_some, decide_eq_true_eq]
    omega

/-- Once the first of the wanted updates are read, the others are wanted. -/
theorem filter_read {held updates rest : List Update} {offset : Option Int}
    (hsplit : held.filter (wanted offset) = updates ++ rest)
    (hsorted : (updates ++ rest).Pairwise fun u v => u.update_id < v.update_id) :
    held.filter (wanted ((updates.getLast?.map fun u => u.update_id + 1).or offset)) = rest := by
  cases hlast : updates.getLast? with
  | none =>
    rw [List.getLast?_eq_none_iff] at hlast
    subst hlast
    simpa using hsplit
  | some last =>
    obtain ⟨front, rfl⟩ := List.getLast?_eq_some_iff.mp hlast
    have hwanted : ∀ u, wanted (some (last.update_id + 1)) u = true ↔ last.update_id < u.update_id := by
      intro u
      simp only [wanted, Option.all_some, decide_eq_true_eq]
      omega
    have hold : last ∈ held.filter (wanted offset) := by
      rw [hsplit]
      simp
    have hpass : ∀ u, (wanted (some (last.update_id + 1)) u && wanted offset u) = wanted (some (last.update_id + 1)) u := by
      intro u
      rw [Bool.and_eq_left_iff_imp]
      intro hu
      have hlt := (hwanted u).mp hu
      have hw := (List.mem_filter.mp hold).2
      cases offset with
      | none => rfl
      | some o =>
        simp only [wanted, Option.all_some, decide_eq_true_eq] at hw ⊢
        omega
    have hfilter : held.filter (wanted (some (last.update_id + 1))) =
        (held.filter (wanted offset)).filter (wanted (some (last.update_id + 1))) := by
      rw [List.filter_filter]
      exact List.filter_congr fun u _ => (hpass u).symm
    rw [Option.map_some, Option.some_or, hfilter, hsplit, List.filter_append]
    rw [List.pairwise_append, List.pairwise_append] at hsorted
    obtain ⟨⟨_, _, hfront⟩, _, hrest⟩ := hsorted
    have hnone : (front ++ [last]).filter (wanted (some (last.update_id + 1))) = [] := by
      rw [List.filter_eq_nil_iff]
      intro u hu
      rw [hwanted]
      rcases List.mem_append.mp hu with hu | hu
      · exact not_lt.mpr (hfront u hu last (List.mem_singleton_self _)).le
      · exact not_lt.mpr (List.mem_singleton.mp hu ▸ le_refl _)
    have hall : rest.filter (wanted (some (last.update_id + 1))) = rest := by
      rw [List.filter_eq_self]
      intro u hu
      exact (hwanted u).mpr (hrest last (by simp) u hu)
    rw [hnone, hall, List.nil_append]

/-- Before the first poll everything is sound. -/
theorem sound_initial (chat_id : Int) : Sound chat_id (.initial chat_id) :=
  ⟨rfl, .nil, rfl, nofun, rfl, rfl⟩

/-- Every step keeps it so. -/
theorem sound_step {s s' : Polling} (h : Sound chat_id s) (hst : Polling.Step s s') : Sound chat_id s' := by
  cases hst with
  | arrive update hnew =>
    have hwanted : (s.held ++ [update]).filter (wanted s.notifier.offset) =
        s.held.filter (wanted s.notifier.offset) ++ [update] := by
      rw [List.filter_append, List.filter_singleton, h.wanted_new hnew, cond_true]
    refine ⟨h.chat, ?_, ?_, ?_, h.offset, h.returned⟩
    · exact List.pairwise_append.mpr ⟨h.sorted, List.pairwise_singleton _ _, fun u hu v hv =>
        List.mem_singleton.mp hv ▸ hnew u hu⟩
    · rw [hwanted, ← List.append_assoc, ← h.split]
    · intro updates hu
      rw [hwanted]
      exact (h.reply updates hu).trans (List.prefix_append _ _)
  | request count _ =>
    have hfilter : (s.held.filter (wanted s.notifier.offset)).filter (wanted s.notifier.offset) =
        s.held.filter (wanted s.notifier.offset) := by rw [List.filter_filter]; simp
    refine ⟨h.chat, h.sorted, ?_, ?_, h.offset, h.returned⟩
    · rw [hfilter]
      exact h.split
    · intro updates hu
      obtain rfl := Option.some.inj hu
      rw [hfilter]
      exact List.take_prefix _ _
  | @read updates responses notifier now hreply hpoll =>
    obtain ⟨hpairs, rfl⟩ := poll_ok hpoll
    obtain ⟨rest, hrest⟩ := h.reply updates hreply
    have hsorted := h.sorted
    rw [h.split, List.pairwise_append, ← hrest] at hsorted
    have hread := filter_read hrest.symm hsorted.2.1
    refine ⟨h.chat, h.sorted, ?_, nofun, ?_, ?_⟩
    · rw [hread, List.append_assoc, hrest]
      exact h.split
    · simp only [List.getLast?_append, h.offset]
      cases updates.getLast? <;> rfl
    · rw [List.map_append, List.filterMap_append, h.returned, hpairs, h.chat]
  | @fail outcome notifier now e hpoll =>
    obtain ⟨hnothing, rfl⟩ := poll_error hpoll
    refine ⟨h.chat, h.sorted, h.split, nofun, h.offset, ?_⟩
    rw [hnothing, List.append_nil]
    exact h.returned

/-- So it is in every state that is reached. -/
theorem sound_reached {s : Polling} (h : s.Reached chat_id) : Sound chat_id s := by
  induction h with
  | initial => exact sound_initial chat_id
  | step _ hst ih => exact sound_step ih hst

/-- What is read out of updates depends on those of the sender of the chat only. -/
theorem filterMap_answer [DecidablePred (Update.From chat_id)] (updates : List Update) :
    (updates.filter (Update.From chat_id ·)).filterMap (answer chat_id) = updates.filterMap (answer chat_id) := by
  rw [List.filterMap_filter]
  refine List.filterMap_congr ?_
  intro u _
  split
  · rfl
  · rename_i h
    exact (answer_of_not_from (by simpa using h)).symm

end PollingAux

instance {chat_id : Int} : DecidablePred (Update.From chat_id) := fun update =>
  decidable_of_iff ((update.callback_query.bind CallbackQuery.sender_id) = some chat_id) <| by
    rw [Option.bind_eq_some_iff]
    rfl

open PollingAux

/-- However updates arrive, polls fail and replies are cut: what was delivered are the first updates that arrived, each once and in order,
and the server has the others; the returned answers are those of the delivered updates, in order; and they depend on the updates of the
sender of the chat only. -/
theorem polling_exactly_once {chat_id : Int} {s : Polling} (h : s.Reached chat_id) :
    (∃ answers : Update → Option (UUID × ConfirmationChoice), (∀ u pair, answers u = some pair ↔ u.Answers chat_id pair) ∧
        s.returned.map ConfirmationResponse.pair = s.delivered.filterMap answers) ∧
      (s.delivered.Pairwise fun u v => u.update_id < v.update_id) ∧
      s.arrived = s.delivered ++ s.held.filter (wanted s.notifier.offset) ∧
      ∀ s' : Polling, s'.Reached chat_id →
        s'.delivered.filter (Update.From chat_id ·) = s.delivered.filter (Update.From chat_id ·) →
        s'.returned.map ConfirmationResponse.pair = s.returned.map ConfirmationResponse.pair := by
  have hs := sound_reached h
  refine ⟨⟨answer chat_id, fun _ _ => answer_eq_some, hs.returned⟩, ?_, hs.split, ?_⟩
  · have hsorted := hs.sorted
    rw [hs.split, List.pairwise_append] at hsorted
    exact hsorted.1
  · intro s' h' heq
    rw [hs.returned, (sound_reached h').returned, ← filterMap_answer s.delivered, ← filterMap_answer s'.delivered, heq]

/-- A press of the button to enter, by a sender. -/
def press (update_id sender_id : Int) : Update :=
  ⟨update_id, some ⟨some sender_id, some (ConfirmationChoice.ENTER.word ++ ":" ++ (⟨7⟩ : UUID).str)⟩⟩

/-- The owner and somebody else press the button, and the first reply is lost: the owner's answer is returned once. -/
theorem polling_exactly_once_pressed :
    ∃ s : Polling, s.Reached 1 ∧ s.delivered = [press 5 1, press 6 2] ∧
      s.returned.map ConfirmationResponse.pair = [(⟨7⟩, .ENTER)] := by
  have h₀ : Polling.Reached 1 (.initial 1) := .initial
  have h₁ := h₀.step (.arrive (press 5 1) (by simp [Polling.initial]))
  have h₂ := h₁.step (.arrive (press 6 2) (by simp [Polling.initial, press]))
  have h₃ := h₂.step (.request 2 rfl)
  have h₄ := h₃.step (.fail (.aware 0 0) (.valueError "") rfl)
  have h₅ := h₄.step (.request 2 rfl)
  have h₆ := h₅.step (.read (.aware 0 0) rfl rfl)
  obtain ⟨⟨answers, hanswers, hreturned⟩, _⟩ := polling_exactly_once h₆
  have howner : answers (press 5 1) = some (⟨7⟩, .ENTER) := (hanswers _ _).mpr ⟨_, _, rfl, rfl, rfl, UUID.parse_str _⟩
  have hother : answers (press 6 2) = none := by
    by_contra hne
    obtain ⟨pair, hpair⟩ := Option.ne_none_iff_exists'.mp hne
    obtain ⟨query, _, hquery, hsender, _⟩ := (hanswers _ _).mp hpair
    obtain rfl := Option.some.inj hquery
    exact absurd hsender (by decide)
  refine ⟨_, h₆, rfl, ?_⟩
  rw [hreturned]
  show [press 5 1, press 6 2].filterMap answers = _
  simp [howner, hother]

end MtossBot

import MtossBot.Theorems.Polling

/-!
# The buttons of a confirmation

From the message of `request_confirmation` to the answers of the polls: what its buttons send, and what becomes of a press.
-/

namespace MtossBot

/-- The items of a list, and the text of a string. -/
def Json.items? : Json → Option (List Json)
  | .arr items => some items
  | _ => none

def Json.text? : Json → Option String
  | .str text => some text
  | _ => none

/-- What the buttons of a message send, row by row: `reply_markup` is read. -/
def SendMessage.buttons (message : SendMessage) : Option (List (List String)) := do
  let markup ← Json.loads message.reply_markup
  let rows ← (← markup.member? "inline_keyboard").items?
  rows.mapM fun row => do (← row.items?).mapM fun button => do (← button.member? "callback_data").text?

/-- A press of a button, by the sender of the chat. -/
def Update.Presses (chat_id : Int) (update : Update) (data : String) : Prop :=
  ∃ query, update.callback_query = some query ∧ query.sender_id = some chat_id ∧ query.data = some data

namespace ConfirmationButtonsAux

open TelegramNotifier PollingAux

variable {chat_id : Int} {self : TelegramNotifier} {request : ConfirmationRequest} {message : SendMessage}

/-- What the button for a choice sends. -/
def dataOf (request : ConfirmationRequest) (choice : ConfirmationChoice) : String := callback_data choice.word request.confirmation_id

theorem message_eq (h : self.request_confirmation request = .ok message) :
    message.chat_id = self.chat_id ∧ message.reply_markup = (keyboard request).dumps ⟨[',', ' '], [':', ' ']⟩ false := by
  unfold request_confirmation at h
  cases htext : render_confirmation request with
  | error e =>
    rw [htext] at h
    cases h
  | ok text =>
    rw [htext] at h
    cases h
    exact ⟨rfl, rfl⟩

theorem blank_default : Json.Separators.Blank ⟨[',', ' '], [':', ' ']⟩ := ⟨⟨1, rfl⟩, ⟨1, rfl⟩⟩

theorem buttons_eq (h : self.request_confirmation request = .ok message) :
    message.buttons = some [[dataOf request .ENTER, dataOf request .SKIP]] := by
  have hread : Json.loads message.reply_markup = some (keyboard request) := by
    rw [(message_eq h).2]
    exact Json.loads_text blank_default (keyboard request)
  rw [SendMessage.buttons, hread]
  rfl

/-- A data text is short and ASCII. -/
theorem dataOf_short (request : ConfirmationRequest) (choice : ConfirmationChoice) :
    (dataOf request choice).length ≤ 64 ∧ ∀ c ∈ (dataOf request choice).toList, c.toNat < 128 := by
  have hdigit : lowerHex.all (fun c => c.toNat < 128) = true := by decide
  have hlength := UUID.length_str request.confirmation_id
  constructor
  · have hword : choice.word.length ≤ 5 := by cases choice <;> decide
    have hcolon : (":" : String).length = 1 := rfl
    rw [dataOf, callback_data, String.length_append, String.length_append, hlength, hcolon]
    omega
  · intro c hc
    have hword : ∀ c ∈ choice.word.toList, c.toNat < 128 := by cases choice <;> simp [ConfirmationChoice.word]
    rw [dataOf, callback_data, String.toList_append, String.toList_append, List.mem_append, List.mem_append] at hc
    rcases hc with (hc | hc) | hc
    · exact hword c hc
    · obtain rfl : c = ':' := by simpa using hc
      decide
    · rcases UUID.mem_str c hc with hc | rfl
      · simpa using List.all_eq_true.mp hdigit c hc
      · decide

/-- A press of a button answers its request. -/
theorem answers_of_presses {update : Update} {choice : ConfirmationChoice} (h : update.Presses chat_id (dataOf request choice)) :
    update.Answers chat_id (request.confirmation_id, choice) := by
  obtain ⟨query, hquery, hsender, hdata⟩ := h
  exact ⟨query, _, hquery, hsender, hdata, UUID.parse_str _⟩

/-- Buttons that send the same belong to one request and one choice. -/
theorem dataOf_injective {request' : ConfirmationRequest} {choice choice' : ConfirmationChoice}
    (h : dataOf request choice = dataOf request' choice') : request.confirmation_id = request'.confirmation_id ∧ choice = choice' := by
  have hsplit : ∀ (request : ConfirmationRequest) (choice : ConfirmationChoice),
      _split_callback_data (dataOf request choice) = (some choice, some request.confirmation_id) := by
    intro request choice
    exact split_eq_some.mpr ⟨_, rfl, UUID.parse_str _⟩
  have hboth := (hsplit request choice).symm.trans ((congrArg _split_callback_data h).trans (hsplit request' choice'))
  obtain ⟨hchoice, hid⟩ := Prod.mk.inj hboth
  exact ⟨Option.some.inj hid, Option.some.inj hchoice⟩

end ConfirmationButtonsAux

open ConfirmationButtonsAux PollingAux

/-- The message of a request goes to the chat whose presses count. Its buttons are one row, to enter and to skip, whose data Telegram
accepts and no message of another confirmation has. However updates arrive, polls fail and replies are cut: a press that has arrived is
returned as an answer to this very request with the choice of the button, or is still to be delivered; and every returned answer to the
request comes from an update of that chat. -/
theorem press_answers_request {chat_id : Int} {s : Polling} (h : s.Reached chat_id) {self : TelegramNotifier} (hself : self.chat_id = chat_id)
    {request : ConfirmationRequest} {message : SendMessage} (hm : self.request_confirmation request = .ok message) :
    message.chat_id = chat_id ∧ ∃ data : ConfirmationChoice → String, message.buttons = some [[data .ENTER, data .SKIP]] ∧
      (∀ choice, (data choice).length ≤ 64 ∧ ∀ c ∈ (data choice).toList, c.toNat < 128) ∧
      (∀ self' request' message', TelegramNotifier.request_confirmation self' request' = .ok message' →
        ∀ rows row choice, message'.buttons = some rows → row ∈ rows → data choice ∈ row →
          request'.confirmation_id = request.confirmation_id) ∧
      (∀ choice update, update ∈ s.arrived → update.Presses chat_id (data choice) →
        (request.confirmation_id, choice) ∈ s.returned.map ConfirmationResponse.pair ∨
          update ∈ s.held ∧ wanted s.notifier.offset update = true) ∧
      ∀ choice, (request.confirmation_id, choice) ∈ s.returned.map ConfirmationResponse.pair →
        ∃ update ∈ s.arrived, update.From chat_id ∧ update.Answers chat_id (request.confirmation_id, choice) := by
  have hs := sound_reached h
  refine ⟨(message_eq hm).1.trans hself, dataOf request, buttons_eq hm, dataOf_short request, ?_, ?_, ?_⟩
  · intro self' request' message' hm' rows row choice hrows hrow hdata
    obtain rfl := Option.some.inj ((buttons_eq hm').symm.trans hrows)
    obtain rfl := List.mem_singleton.mp hrow
    rcases List.mem_cons.mp hdata with hdata | hdata
    · exact (dataOf_injective hdata).1.symm
    · exact (dataOf_injective (List.mem_singleton.mp hdata)).1.symm
  · intro choice update harrived hpress
    rw [hs.split, List.mem_append] at harrived
    rcases harrived with hdelivered | hheld
    · left
      rw [hs.returned, List.mem_filterMap]
      exact ⟨update, hdelivered, answer_eq_some.mpr (answers_of_presses hpress)⟩
    · exact .inr (List.mem_filter.mp hheld)
  · intro choice hreturned
    rw [hs.returned, List.mem_filterMap] at hreturned
    obtain ⟨update, hdelivered, hanswer⟩ := hreturned
    have hanswers := answer_eq_some.mp hanswer
    obtain ⟨query, _, hquery, hsender, _⟩ := hanswers
    refine ⟨update, ?_, ⟨query, hquery, hsender⟩, answer_eq_some.mp hanswer⟩
    rw [hs.split]
    exact List.mem_append_left _ hdelivered

namespace ConfirmationButtonsAux

open TelegramNotifier

/-- The smallest lot of gold, a little over the budget. -/
def overBudget : ConfirmationRequest where
  confirmation_id := ⟨7⟩
  symbol := "XAUUSD"
  side := .BUY
  bar_close_time := .aware 1787572800000000 0
  stop_price := .ofInt 3960
  stop_distance := .ofInt 45
  proposed_lots := ⟨false, 1, -2⟩
  risk_amount := .ofInt 45
  budget := ⟨false, 3896, -2⟩
  equity := ⟨false, 38957, -2⟩
  deadline_at := .aware 1787573100000000 0
  accepted := by decide +kernel

theorem overBudget_rendered : ∃ message, request_confirmation ⟨1, none⟩ overBudget = .ok message := by
  have hok : (request_confirmation ⟨1, none⟩ overBudget).isOk = true := by decide +kernel
  cases hmessage : request_confirmation ⟨1, none⟩ overBudget with
  | ok message => exact ⟨message, rfl⟩
  | error e =>
    rw [hmessage] at hok
    cases hok

end ConfirmationButtonsAux

/-- The owner enters: the request is answered so, once the press has been delivered. -/
theorem press_answers_request_entered : ∃ s : Polling, s.Reached 1 ∧ s.arrived = [press 5 1] ∧
    (⟨7⟩, .ENTER) ∈ s.returned.map ConfirmationResponse.pair := by
  obtain ⟨message, hm⟩ := overBudget_rendered
  obtain ⟨s, hs, harrived, hdelivered⟩ : ∃ s : Polling, s.Reached 1 ∧ s.arrived = [press 5 1] ∧ s.delivered = [press 5 1] := by
    have h₀ : Polling.Reached 1 (.initial 1) := .initial
    have h₁ := h₀.step (.arrive (press 5 1) (by simp [Polling.initial]))
    have h₂ := h₁.step (.request 1 rfl)
    have h₃ := h₂.step (.read (.aware 0 0) rfl rfl)
    exact ⟨_, h₃, rfl, rfl⟩
  obtain ⟨_, data, hbuttons, _, _, hpress, _⟩ := press_answers_request hs rfl hm
  have hdata : data .ENTER = dataOf overBudget .ENTER := by
    have hrows := Option.some.inj (hbuttons.symm.trans (buttons_eq hm))
    exact (List.cons.inj (List.cons.inj hrows).1).1
  have hpressed : (press 5 1).Presses 1 (data .ENTER) := ⟨_, rfl, rfl, congrArg some hdata.symm⟩
  have hmem : press 5 1 ∈ s.arrived := harrived ▸ List.mem_singleton_self _
  refine ⟨s, hs, harrived, (hpress .ENTER (press 5 1) hmem hpressed).resolve_right ?_⟩
  rintro ⟨_, hwanted⟩
  have hoffset : s.notifier.offset = some 6 := by
    rw [(sound_reached hs).offset, hdelivered]
    rfl
  rw [hoffset] at hwanted
  exact absurd hwanted (by decide)

end MtossBot

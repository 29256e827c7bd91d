import MtossBot.Domain.Confirmations
import MtossBot.Domain.DecimalText
import MtossBot.Exc
import MtossBot.Library.Calendar
import MtossBot.Library.Json
import MtossBot.Library.Uuid

/-!
# The Telegram bot

`TelegramNotifier.poll_responses`, and the message that `TelegramNotifier.request_confirmation` posts. What the reply to `getUpdates` is, and
what the clock says, are arguments; the answers to a confirmation are those of `domain/confirmations.py`.
-/

namespace MtossBot

inductive ConfirmationChoice where
  | ENTER
  | SKIP
deriving DecidableEq, Repr

inductive NotificationChannel where
  | TELEGRAM
  | CONSOLE
deriving DecidableEq, Repr

structure ConfirmationResponse where
  confirmation_id : UUID
  choice : ConfirmationChoice
  responder : String
  channel : NotificationChannel
  received_at : Datetime
deriving DecidableEq

/-- The `callback_query` of an update: the identifier of its sender, and its data. -/
structure CallbackQuery where
  sender_id : Option Int
  data : Option String
deriving DecidableEq

/-- A well-formed update. -/
structure Update where
  update_id : Int
  callback_query : Option CallbackQuery
deriving DecidableEq

/-! ## The message -/

def _money (value : Decimal) : Except Exc String := (value.quantize (-2)).map Decimal.str

def render_confirmation (request : ConfirmationRequest) : Except Exc String := do
  let deadline := Calendar.time (request.deadline_at.instant?.getD 0) ++ " UTC"
  let closed := request.bar_close_time.instant?.getD 0
  let stop_distance ← _money request.stop_distance
  let risk_amount ← _money request.risk_amount
  let budget ← _money request.budget
  let over_budget_by ← _money request.over_budget_by
  let risk_pct_of_equity ← request.risk_pct_of_equity
  let equity ← _money request.equity
  return "⚠️ <b>예산 초과 신호</b>\n\n" ++
    "<b>" ++ request.symbol ++ " " ++ request.side.value ++ "</b>\n" ++
    "봉 마감  " ++ Calendar.date closed ++ " " ++ Calendar.hourMinute closed ++ " UTC\n\n" ++
    "손절가       " ++ request.stop_price.str ++ "\n" ++
    "이격(R)      " ++ stop_distance ++ "\n" ++
    "수량         " ++ request.proposed_lots.str ++ " 랏 (최소 단위)\n\n" ++
    "예상 손실    <b>" ++ risk_amount ++ "</b>\n" ++
    "리스크 예산  " ++ budget ++ "\n" ++
    "초과분       <b>+" ++ over_budget_by ++ "</b>\n" ++
    "자본 대비    <b>" ++ risk_pct_of_equity.str ++ "%</b>  (자본 " ++ equity ++ ")\n\n" ++
    "수량을 더 줄일 수 없습니다. 답이 없으면 <b>" ++ deadline ++ "</b>에 건너뜁니다."

/-- The payload of `sendMessage`. -/
structure SendMessage where
  chat_id : Int
  text : String
  parse_mode : String
  reply_markup : String

/-- What a button sends when it is pressed. -/
def callback_data (pre : String) (confirmation_id : UUID) : String := pre ++ ":" ++ confirmation_id.str

def keyboard (request : ConfirmationRequest) : Json :=
  .obj [("inline_keyboard", .arr [.arr [
    .obj [("text", .str ("진입 (" ++ request.proposed_lots.str ++ "랏)")),
      ("callback_data", .str (callback_data "enter" request.confirmation_id))],
    .obj [("text", .str "건너뛰기"), ("callback_data", .str (callback_data "skip" request.confirmation_id))]]])]

structure TelegramNotifier where
  chat_id : Int
  offset : Option Int := none

namespace TelegramNotifier

/-- What is posted, unless the message cannot be rendered; an error of the post is passed on. -/
def request_confirmation (self : TelegramNotifier) (request : ConfirmationRequest) : Except Exc SendMessage := do
  let text ← render_confirmation request
  return {
    chat_id := self.chat_id
    text := text
    parse_mode := "HTML"
    reply_markup := (keyboard request).dumps ⟨[',', ' '], [':', ' ']⟩ false }

def CALLBACK_PREFIXES (pre : String) : Option ConfirmationChoice :=
  if pre = "enter" then some .ENTER else if pre = "skip" then some .SKIP else none

/-- `text.partition(":")`, without the separator. -/
def partition (text : String) : String × String :=
  let (pre, rest) := text.toList.span (· ≠ ':')
  (String.ofList pre, String.ofList rest.tail)

def _split_callback_data (data : String) : Option ConfirmationChoice × Option UUID :=
  let (pre, raw_id) := partition data
  match CALLBACK_PREFIXES pre with
  | none => (none, none)
  | some choice =>
    match UUID.parse raw_id with
    | some id => (some choice, some id)
    | none => (none, none)

def _parse_callback (self : TelegramNotifier) (now : Datetime) (update : Update) : Option ConfirmationResponse :=
  match update.callback_query with
  | none => none
  | some query =>
    if query.sender_id ≠ some self.chat_id then none
    else match _split_callback_data (query.data.getD "") with
      | (some choice, some confirmation_id) => some ⟨confirmation_id, choice, toString self.chat_id, .TELEGRAM, now⟩
      | _ => none

/-- The loop over the updates of a reply, from what was parsed so far. -/
def receive (now : Datetime) : TelegramNotifier → List ConfirmationResponse → List Update →
    List ConfirmationResponse × TelegramNotifier
  | self, responses, [] => (responses, self)
  | self, responses, update :: result =>
    let self := { self with offset := some (update.update_id + 1) }
    match self._parse_callback now update with
    | some parsed => receive now self (responses ++ [parsed]) result
    | none => receive now self responses result

def poll_responses (self : TelegramNotifier) (now : Datetime) (body : Except Exc (List Update)) :
    Except Exc (List ConfirmationResponse) × TelegramNotifier :=
  match body with
  | .error e => if e.isA .Exception then (.ok [], self) else (.error e, self)
  | .ok result =>
    let (responses, self) := receive now self [] result
    (.ok responses, self)

end TelegramNotifier
end MtossBot

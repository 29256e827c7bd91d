import Std.Data.String.ToInt
import MtossBot.Domain.Orders

/-!
# Return codes of MT5

`mt5_errors.py`: what an answer of the terminal to an order is as a report on that order. An answer that does not say whether the order
arrived is no report: it is raised, as a timeout.
-/

namespace MtossBot
namespace Mt5Errors

def RETCODE_DONE : Int := 10009
def RETCODE_PLACED : Int := 10008
def RETCODE_DONE_PARTIAL : Int := 10010

/-- The codes after which it is not known whether the order arrived. -/
def AMBIGUOUS_RETCODES : List Int := [10011, 10012, 10028, 10029, 10031]

/-- `REJECT_CODES`, in its order. -/
def REJECT_CODES : List (Int × String) :=
  [(10004, "MT5_REQUOTE"), (10006, "MT5_REJECT"), (10013, "MT5_INVALID_REQUEST"), (10014, "MT5_INVALID_VOLUME"),
    (10015, "MT5_INVALID_PRICE"), (10016, "MT5_INVALID_STOPS"), (10017, "MT5_TRADE_DISABLED"), (10018, "MT5_MARKET_CLOSED"),
    (10019, "MT5_NO_MONEY"), (10020, "MT5_PRICE_CHANGED"), (10021, "MT5_PRICE_OFF"), (10022, "MT5_INVALID_EXPIRATION"),
    (10024, "MT5_TOO_MANY_REQUESTS"), (10026, "MT5_AUTOTRADING_DISABLED_SERVER"), (10027, "MT5_AUTOTRADING_DISABLED_CLIENT"),
    (10030, "MT5_INVALID_FILL"), (10033, "MT5_LIMIT_ORDERS"), (10034, "MT5_LIMIT_VOLUME"), (10035, "MT5_INVALID_ORDER"),
    (10036, "MT5_POSITION_CLOSED"), (10038, "MT5_CLOSE_VOLUME_EXCEEDED"), (10039, "MT5_CLOSE_ORDER_EXISTS"),
    (10040, "MT5_LIMIT_POSITIONS"), (10041, "MT5_REJECT_CANCEL"), (10042, "MT5_LONG_ONLY"), (10043, "MT5_SHORT_ONLY"),
    (10044, "MT5_CLOSE_ONLY"), (10045, "MT5_FIFO_CLOSE")]

/-- `Mt5Ambiguous(retcode, comment)`, a `TimeoutError`. -/
def mt5Ambiguous (retcode : Int) (comment : String) : Exc :=
  ⟨[.Exception, .TimeoutError], "ambiguous MT5 retcode " ++ toString retcode ++ ": " ++ comment, [], []⟩

def is_ambiguous (retcode : Int) : Bool := retcode ∈ AMBIGUOUS_RETCODES

/-- The state of an order by the code and by what was filled. -/
def resolve_state (retcode : Int) (requested filled : Decimal) : OrderState :=
  if retcode = RETCODE_PLACED then .SUBMITTED
  else if retcode = RETCODE_DONE ∨ retcode = RETCODE_DONE_PARTIAL then
    if filled.toRat ≤ 0 then .SUBMITTED
    else if filled.toRat ≥ requested.toRat then .FILLED else .PARTIALLY_FILLED
  else .REJECTED

def error_code_for (retcode : Int) : Option String :=
  if retcode = RETCODE_DONE ∨ retcode = RETCODE_PLACED then none
  else if retcode = RETCODE_DONE_PARTIAL then some "MT5_DONE_PARTIAL"
  else some ((REJECT_CODES.lookup retcode).getD ("MT5_RETCODE_" ++ toString retcode))

/-- The keyword arguments of `build_result` that come from the terminal. -/
structure Reply where
  retcode : Int
  filled_quantity : Decimal
  average_price : Option Decimal
  broker_order_id : Option String
  broker_request_id : Option String
  comment : String := ""
deriving DecidableEq

/-- The report that `build_result` builds when the code is not ambiguous. -/
def report (client_order_id : String) (requested_quantity : Decimal) (reply : Reply) : BrokerOrderResultFields where
  client_order_id := client_order_id
  broker_order_id := reply.broker_order_id
  state := resolve_state reply.retcode requested_quantity reply.filled_quantity
  filled_quantity := reply.filled_quantity
  average_price := if 0 < reply.filled_quantity.toRat then reply.average_price else none
  broker_request_id := reply.broker_request_id
  error_code := error_code_for reply.retcode

def build_result (client_order_id : String) (requested_quantity : Decimal) (reply : Reply) : Except Exc BrokerOrderResult :=
  if is_ambiguous reply.retcode then .error (mt5Ambiguous reply.retcode reply.comment)
  else BrokerOrderResult.create (report client_order_id requested_quantity reply)

/-- A code that the order was placed or done. -/
def Success (retcode : Int) : Prop := retcode = RETCODE_PLACED ∨ retcode = RETCODE_DONE ∨ retcode = RETCODE_DONE_PARTIAL

/-- The numbers of an answer that a report may carry. -/
def Reply.Fits (reply : Reply) : Prop :=
  (∃ d, BrokerOrderResultFields.check_filled_quantity reply.filled_quantity = .ok d) ∧
    ∀ price, 0 < reply.filled_quantity.toRat → reply.average_price = some price →
      ∃ d, BrokerOrderResultFields.check_average_price price = .ok d

/-! ## What a code says -/

/-- Exactly the codes that are no success are refusals, whatever was filled. -/
theorem resolve_state_rejected_iff {retcode : Int} {requested filled : Decimal} :
    resolve_state retcode requested filled = .REJECTED ↔ ¬Success retcode := by
  unfold resolve_state Success
  split
  · simp_all
  · split
    · split_ifs <;> simp_all
    · simp_all

/-- Filled: the code says done, and as much as was asked for was filled. -/
theorem resolve_state_filled_iff {retcode : Int} {requested filled : Decimal} :
    resolve_state retcode requested filled = .FILLED ↔
      (retcode = RETCODE_DONE ∨ retcode = RETCODE_DONE_PARTIAL) ∧ 0 < filled.toRat ∧ requested.toRat ≤ filled.toRat := by
  have hplaced : RETCODE_PLACED ≠ RETCODE_DONE ∧ RETCODE_PLACED ≠ RETCODE_DONE_PARTIAL := by decide
  unfold resolve_state
  split
  · rename_i h
    simp [h, hplaced]
  · split
    · split_ifs <;> simp_all
    · simp_all

/-- Partially filled: the code says done, and something was filled but not all of it. -/
theorem resolve_state_partial_iff {retcode : Int} {requested filled : Decimal} :
    resolve_state retcode requested filled = .PARTIALLY_FILLED ↔
      (retcode = RETCODE_DONE ∨ retcode = RETCODE_DONE_PARTIAL) ∧ 0 < filled.toRat ∧ filled.toRat < requested.toRat := by
  have hplaced : RETCODE_PLACED ≠ RETCODE_DONE ∧ RETCODE_PLACED ≠ RETCODE_DONE_PARTIAL := by decide
  unfold resolve_state
  split
  · rename_i h
    simp [h, hplaced]
  · split
    · split_ifs <;> simp_all
    · simp_all

/-- The states that an answer leads to: none of them waits to be executed. -/
theorem resolve_state_mem (retcode : Int) (requested filled : Decimal) :
    resolve_state retcode requested filled ∈ [OrderState.SUBMITTED, .PARTIALLY_FILLED, .FILLED, .REJECTED] := by
  unfold resolve_state
  split_ifs <;> simp

/-! ## The names of the codes -/

/-- A code in the table is found under its own name. -/
theorem mem_of_lookup {retcode : Int} {name : String} (h : REJECT_CODES.lookup retcode = some name) : (retcode, name) ∈ REJECT_CODES := by
  obtain ⟨before, after, hsplit, _⟩ := List.lookup_eq_some_iff.mp h
  rw [hsplit]
  exact List.mem_append_right _ List.mem_cons_self

/-- No two codes of the table have one name. -/
theorem name_injective : ∀ p ∈ REJECT_CODES, ∀ q ∈ REJECT_CODES, p.2 = q.2 → p.1 = q.1 := by
  decide +kernel

/-- A name of the table is none that is made for a code that is not there. -/
theorem not_prefix_of_mem : ∀ p ∈ REJECT_CODES, "MT5_RETCODE_".toList.isPrefixOf p.2.toList = false := by
  decide +kernel

/-- Nor is a name that is made for a code one of the table. -/
theorem made_ne_name {retcode : Int} {p : Int × String} (hp : p ∈ REJECT_CODES) : p.2 ≠ "MT5_RETCODE_" ++ toString retcode := by
  intro h
  have hprefix := not_prefix_of_mem p hp
  rw [h, String.toList_append, List.isPrefixOf_iff_prefix.mpr (List.prefix_append _ _)] at hprefix
  cases hprefix

/-- The name of a code that is refused: the one in the table, or one that is made of the code. -/
theorem error_code_for_rejected {retcode : Int} (h : ¬Success retcode) :
    error_code_for retcode = some ((REJECT_CODES.lookup retcode).getD ("MT5_RETCODE_" ++ toString retcode)) := by
  simp only [Success, not_or] at h
  rw [error_code_for, if_neg (by tauto), if_neg h.2.2]

/-- The error code of a refusal names its return code. -/
theorem error_code_for_injective {a b : Int} (ha : ¬Success a) (hb : ¬Success b) (h : error_code_for a = error_code_for b) : a = b := by
  rw [error_code_for_rejected ha, error_code_for_rejected hb] at h
  have h := Option.some.inj h
  cases hla : REJECT_CODES.lookup a with
  | some name =>
    rw [hla, Option.getD_some] at h
    cases hlb : REJECT_CODES.lookup b with
    | some name' =>
      rw [hlb, Option.getD_some] at h
      exact name_injective _ (mem_of_lookup hla) _ (mem_of_lookup hlb) h
    | none =>
      rw [hlb, Option.getD_none] at h
      exact absurd h (made_ne_name (mem_of_lookup hla))
  | none =>
    rw [hla, Option.getD_none] at h
    cases hlb : REJECT_CODES.lookup b with
    | some name' =>
      rw [hlb, Option.getD_some] at h
      exact absurd h.symm (made_ne_name (mem_of_lookup hlb))
    | none =>
      rw [hlb, Option.getD_none] at h
      exact Int.repr_injective (String.append_right_inj _ |>.mp h)

/-! ## When there is a report -/

/-- An answer raises a timeout exactly when its code is ambiguous. -/
theorem build_result_ambiguous {client_order_id : String} {requested_quantity : Decimal} {reply : Reply}
    (h : is_ambiguous reply.retcode = true) :
    build_result client_order_id requested_quantity reply = .error (mt5Ambiguous reply.retcode reply.comment) := by
  rw [build_result, if_pos h]

/-- With any other code it is the report that decides. -/
theorem build_result_clear {client_order_id : String} {requested_quantity : Decimal} {reply : Reply}
    (h : is_ambiguous reply.retcode = false) : build_result client_order_id requested_quantity reply =
      BrokerOrderResult.create (report client_order_id requested_quantity reply) := by
  rw [build_result, if_neg (by simp [h])]

/-- A field has no errors exactly when its check returns. -/
theorem fieldErrors_nil_iff {α : Type} {field : String} {check : Except String α} : fieldErrors field check = [] ↔ ∃ a, check = .ok a := by
  cases check <;> simp [fieldErrors]

/-- The report is accepted exactly when the numbers of the answer are. -/
theorem report_accepted_iff (client_order_id : String) (requested_quantity : Decimal) {reply : Reply} :
    (report client_order_id requested_quantity reply).errors = [] ↔ reply.Fits := by
  rw [BrokerOrderResultFields.errors, List.append_eq_nil_iff, fieldErrors_nil_iff, fieldErrors_nil_iff]
  refine and_congr_right ?_
  intro _
  by_cases hpos : 0 < reply.filled_quantity.toRat
  · cases hprice : reply.average_price with
    | none => simp [report, hpos, hprice, optionalField]
    | some price =>
      simp only [report, hpos, hprice, if_true, optionalField, Option.some.injEq]
      constructor
      · rintro ⟨checked, hchecked⟩ price' _ rfl
        cases hcheck : BrokerOrderResultFields.check_average_price price with
        | error message => rw [hcheck] at hchecked; cases hchecked
        | ok d => exact ⟨d, rfl⟩
      · intro h
        obtain ⟨d, hd⟩ := h price trivial rfl
        exact ⟨some d, by rw [hd]; rfl⟩
  · simp [report, hpos, optionalField]

/-- Numbers that fit make a result, which is the report. -/
theorem build_result_fits (client_order_id : String) (requested_quantity : Decimal) {reply : Reply}
    (hclear : is_ambiguous reply.retcode = false) (hfits : reply.Fits) :
    ∃ result, build_result client_order_id requested_quantity reply = .ok result ∧
      result.toBrokerOrderResultFields = report client_order_id requested_quantity reply := by
  have haccepted := (report_accepted_iff client_order_id requested_quantity).mpr hfits
  refine ⟨⟨report client_order_id requested_quantity reply, haccepted⟩, ?_, rfl⟩
  rw [build_result_clear hclear, BrokerOrderResult.create, dif_pos haccepted]

/-- For numbers that fit nowhere the errors of the report are raised. -/
theorem build_result_unfit (client_order_id : String) (requested_quantity : Decimal) {reply : Reply}
    (hclear : is_ambiguous reply.retcode = false) (hunfit : ¬reply.Fits) :
    ∃ errors, build_result client_order_id requested_quantity reply = .error (.validationError "BrokerOrderResult" errors) := by
  refine ⟨(report client_order_id requested_quantity reply).errors, ?_⟩
  rw [build_result_clear hclear, BrokerOrderResult.create, dif_neg (by rw [report_accepted_iff]; exact hunfit)]

/-- What is returned is the report on an answer that is not ambiguous. -/
theorem build_result_ok {client_order_id : String} {requested_quantity : Decimal} {reply : Reply} {result : BrokerOrderResult}
    (h : build_result client_order_id requested_quantity reply = .ok result) :
    is_ambiguous reply.retcode = false ∧ result.toBrokerOrderResultFields = report client_order_id requested_quantity reply := by
  unfold build_result at h
  split at h
  · cases h
  · rename_i hclear
    exact ⟨by simpa using hclear, BrokerOrderResult.create_ok h⟩

end Mt5Errors
end MtossBot

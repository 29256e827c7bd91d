import MtossBot.Api.Execution
import MtossBot.Library.Links

/-!
# The duplicate classifier

How the execution API tells whether an `IntegrityError` is about an order that is there already. The classifier reads attributes of
objects it knows nothing of: a driver may leave them out, give them any value, or raise when they are read, and the causes of an
exception may lead back to one it has seen.
-/

namespace MtossBot
namespace DuplicateClassifier

/-- What reading an attribute of an object comes to: an object or `None`, an `AttributeError`, or another exception. -/
inductive Lookup (Id : Type) where
  | value (v : Option Id)
  | missing
  | raises (e : Exc)

/-- The objects of the interpreter, known by their identity; `None` is not one of them. A plain string is an object whose type is
`str` itself. -/
structure Objects (Id : Type) where
  lookup : Id → String → Lookup Id
  str? : Id → Option String

variable {Id : Type}

/-- `getattr(value, name, None)`. -/
def getattr (o : Objects Id) (value : Id) (name : String) : Except Exc (Option Id) :=
  match o.lookup value name with
  | .value v => .ok v
  | .missing => .ok none
  | .raises e => .error e

def _safe_attribute (o : Objects Id) (value : Id) (name : String) : Except Exc (Option Id) :=
  match getattr o value name with
  | .ok v => .ok v
  | .error e => if e.isA .Exception then .ok none else .error e

/-- `type(value) is str and value == text`. -/
def isPlain (o : Objects Id) (value : Option Id) (text : String) : Bool := value.bind o.str? = some text

/-- What the loop has found so far. -/
structure Found where
  has_duplicate_sqlstate : Bool := false
  has_idempotency_constraint : Bool := false

def Found.isDuplicate (found : Found) : Bool := found.has_duplicate_sqlstate && found.has_idempotency_constraint

open ExecutionRoute (_DUPLICATE_SQLSTATE _IDEMPOTENCY_CONSTRAINT)

def Found.checkSqlstate (o : Objects Id) (found : Found) (value : Option Id) : Found :=
  if isPlain o value _DUPLICATE_SQLSTATE then { found with has_duplicate_sqlstate := true } else found

def Found.checkConstraint (o : Objects Id) (found : Found) (constraint_name : Option Id) : Found :=
  if isPlain o constraint_name _IDEMPOTENCY_CONSTRAINT then { found with has_idempotency_constraint := true } else found

/-- The constraint that an exception's `diag` names, if it has one. -/
def diagConstraint (o : Objects Id) : Option Id → Except Exc (Option Id)
  | none => .ok none
  | some diag => _safe_attribute o diag "constraint_name"

/-- The body of the loop for an exception it has not seen, with the next exception. -/
def visit (o : Objects Id) (current : Id) (found : Found) : Except Exc (Found × Option Id) := do
  let sqlstate ← _safe_attribute o current "sqlstate"
  let pgcode ← _safe_attribute o current "pgcode"
  let found := [sqlstate, pgcode].foldl (Found.checkSqlstate o) found
  let constraint_name ← _safe_attribute o current "constraint_name"
  let found := found.checkConstraint o constraint_name
  let diag ← _safe_attribute o current "diag"
  let diag_constraint ← diagConstraint o diag
  let found := found.checkConstraint o diag_constraint
  let cause ← _safe_attribute o current "__cause__"
  return (found, cause)

/-- `_is_duplicate_intent_integrity_error`, its loop run for at most so many rounds; `none` if they do not suffice. -/
def _is_duplicate_intent_integrity_error [DecidableEq Id] (o : Objects Id) (rounds : Nat) (error : Id) : Option (Except Exc Bool) :=
  match _safe_attribute o error "orig" with
  | .error e => some (.error e)
  | .ok orig =>
    (follow (visit o) rounds [] {} (some (orig.getD error))).map (Except.map Found.isDuplicate)

end DuplicateClassifier
end MtossBot

/-!
# Exceptions

An exception is known to the program by the classes it is an instance of, which is all that `except` looks at, and by its texts.
-/

namespace MtossBot

/-- The classes that some `except` clause or some `raise` of the program names. -/
inductive ErrorClass where
  | Exception
  | LookupError
  | PermissionError
  | TimeoutError
  | ValueError
  | AssertionError
  | ArithmeticError
  | ValidationError
  | InvalidOrderTransition
  | IntegrityError
  | Mt5Unavailable
deriving DecidableEq, Repr

/-- What an error of the database driver says of its code and of the constraint it is about: the attributes that are texts. -/
structure DriverError where
  sqlstate : Option String := none
  pgcode : Option String := none
  constraint_name : Option String := none
  diag_constraint_name : Option String := none
deriving DecidableEq, Repr

/-- An exception: its classes, its message, for a `ValidationError` the field and message of each error, and for an `IntegrityError`
the errors it comes from: its `orig` and the causes of that, up to the first one that comes again. An exception that is not an
`Exception` is one like `CancelledError`, which `except Exception` lets through. -/
structure Exc where
  classes : List ErrorClass
  message : String
  errors : List (String × String) := []
  causes : List DriverError := []
deriving DecidableEq, Repr

namespace Exc

/-- `isinstance(e, c)`. -/
def isA (e : Exc) (c : ErrorClass) : Bool := c ∈ e.classes

def lookupError (message : String) : Exc := ⟨[.Exception, .LookupError], message, [], []⟩

def permissionError (message : String) : Exc := ⟨[.Exception, .PermissionError], message, [], []⟩

def valueError (message : String) : Exc := ⟨[.Exception, .ValueError], message, [], []⟩

def assertionError (message : String) : Exc := ⟨[.Exception, .AssertionError], message, [], []⟩

def mt5Unavailable (message : String) : Exc := ⟨[.Exception, .Mt5Unavailable], message, [], []⟩

/-- What a call raises that took too long. -/
def timeoutError : Exc := ⟨[.Exception, .TimeoutError], "", [], []⟩

/-- What a coroutine raises that is cancelled. -/
def cancelledError : Exc := ⟨[], "", [], []⟩

/-- What `decimal` raises for a division by zero. -/
def divisionByZero : Exc := ⟨[.Exception, .ArithmeticError], "[<class 'decimal.DivisionByZero'>]", [], []⟩

/-- What `decimal` raises for a result that does not exist in its context. -/
def invalidOperation : Exc := ⟨[.Exception, .ArithmeticError], "[<class 'decimal.InvalidOperation'>]", [], []⟩

/-- What `decimal` raises for a result above the exponents of its context. -/
def overflow : Exc := ⟨[.Exception, .ArithmeticError], "[<class 'decimal.Overflow'>]", [], []⟩

/-- What is raised for a text that does not fit in memory. -/
def memoryError : Exc := ⟨[.Exception], "", [], []⟩

/-- What `pydantic` raises when a function that serialises a field raises one. -/
def serializationError (function_name : String) : Exc :=
  ⟨[.Exception, .ValueError], "Error calling function `" ++ function_name ++ "`: MemoryError: ", [], []⟩

def validationError (model : String) (errors : List (String × String)) : Exc :=
  ⟨[.Exception, .ValueError, .ValidationError], model, errors, []⟩

def invalidOrderTransition (message : String) : Exc :=
  ⟨[.Exception, .ValueError, .InvalidOrderTransition], message, [], []⟩

def integrityError (message : String) (causes : List DriverError) : Exc := ⟨[.Exception, .IntegrityError], message, [], causes⟩

end Exc

/-- What a check says of the value of a computation. -/
theorem exists_ok_of_check {α : Type} {r : Except Exc α} {p : α → Bool}
    (h : (match r with | .ok a => p a | .error _ => false) = true) : ∃ a, r = .ok a ∧ p a = true := by
  cases r with
  | error e => cases h
  | ok a => exact ⟨a, rfl, h⟩

/-- A computation that returns has had its first part return. -/
theorem except_bind_eq_ok {α β : Type} {x : Except Exc α} {f : α → Except Exc β} {b : β} (h : (x >>= f) = .ok b) :
    ∃ a, x = .ok a ∧ f a = .ok b := by
  cases x with
  | error e => cases h
  | ok a => exact ⟨a, rfl, h⟩

/-- A computation fails in its first part or, that having returned, in the rest. -/
theorem except_bind_eq_error {α β : Type} {x : Except Exc α} {f : α → Except Exc β} {e : Exc} (h : (x >>= f) = .error e) :
    x = .error e ∨ ∃ a, x = .ok a ∧ f a = .error e := by
  cases x with
  | error e' =>
    cases h
    exact .inl rfl
  | ok a => exact .inr ⟨a, rfl, h⟩

/-- A sequence of computations returns when each of them does, and then what they return. -/
theorem eq_map_of_mapM_ok {α : Type} {l : List (Except Exc α)} {xs : List α} (h : l.mapM id = .ok xs) : l = xs.map .ok := by
  induction l generalizing xs with
  | nil =>
    cases h
    rfl
  | cons x l ih =>
    rw [List.mapM_cons] at h
    obtain ⟨a, hx, h⟩ := except_bind_eq_ok h
    obtain ⟨as, hl, h⟩ := except_bind_eq_ok h
    cases h
    rw [show x = .ok a from hx, ih hl, List.map_cons]

theorem exists_mapM_ok {α : Type} {l : List (Except Exc α)} (h : ∀ x ∈ l, ∃ a, x = .ok a) : ∃ xs, l.mapM id = .ok xs := by
  induction l with
  | nil => exact ⟨[], rfl⟩
  | cons x l ih =>
    obtain ⟨a, rfl⟩ := h x List.mem_cons_self
    obtain ⟨as, has⟩ := ih fun y hy => h y (List.mem_cons_of_mem _ hy)
    refine ⟨a :: as, ?_⟩
    rw [List.mapM_cons, has]
    rfl

theorem mapM_map_ok {α : Type} (xs : List α) : (xs.map Except.ok).mapM id = (.ok xs : Except Exc (List α)) := by
  induction xs with
  | nil => rfl
  | cons x xs ih =>
    rw [List.map_cons, List.mapM_cons, ih]
    rfl

end MtossBot

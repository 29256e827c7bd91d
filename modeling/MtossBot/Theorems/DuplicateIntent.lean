import MtossBot.Api.DuplicateClassifier

/-!
# What the duplicate classifier decides

Whatever the objects it is given, and however their causes are linked, the classifier ends once the chain it follows is finite, and
says that the error is about an order that is there already exactly when one exception of the chain has the code of a duplicate and
one names the constraint. The two may be different exceptions, and the chain may lead back to any of its exceptions.
-/

namespace MtossBot
namespace DuplicateClassifier

open ExecutionRoute (_DUPLICATE_SQLSTATE _IDEMPOTENCY_CONSTRAINT)

variable {Id : Type}

/-- An exception is the `__cause__` of another. -/
def Cause (o : Objects Id) (x y : Id) : Prop := o.lookup x "__cause__" = .value (some y)

/-- The exceptions reached from an error: its `orig`, or the error if it has none, and from an exception its `__cause__`. -/
inductive Chain (o : Objects Id) (error : Id) : Id → Prop
  | orig {x : Id} (h : o.lookup error "orig" = .value (some x)) : Chain o error x
  | self (h : ∀ x, o.lookup error "orig" ≠ .value (some x)) : Chain o error error
  | cause {x y : Id} (hx : Chain o error x) (h : Cause o x y) : Chain o error y

/-- An attribute of an object is a plain string, and this one. -/
def HasText (o : Objects Id) (x : Id) (name text : String) : Prop := ∃ v, o.lookup x name = .value (some v) ∧ o.str? v = some text

/-- An exception has the code of a duplicate. -/
def HasCode (o : Objects Id) (x : Id) : Prop :=
  HasText o x "sqlstate" _DUPLICATE_SQLSTATE ∨ HasText o x "pgcode" _DUPLICATE_SQLSTATE

/-- An exception names the constraint, or its `diag` does. -/
def NamesConstraint (o : Objects Id) (x : Id) : Prop :=
  HasText o x "constraint_name" _IDEMPOTENCY_CONSTRAINT ∨
    ∃ diag, o.lookup x "diag" = .value (some diag) ∧ HasText o diag "constraint_name" _IDEMPOTENCY_CONSTRAINT

/-- The objects that attributes are read of. -/
def IsRead (o : Objects Id) (error x : Id) : Prop :=
  x = error ∨ Chain o error x ∨ ∃ c, Chain o error c ∧ o.lookup c "diag" = .value (some x)

namespace ClassifierAux

/-- An attribute read safely is the object that the attribute is, and `None` otherwise. -/
theorem safe_attribute_ok {o : Objects Id} {x : Id} {name : String} {v : Option Id} (h : _safe_attribute o x name = .ok v) (y : Id) :
    v = some y ↔ o.lookup x name = .value (some y) := by
  unfold _safe_attribute getattr at h
  cases hl : o.lookup x name with
  | value w =>
    rw [hl] at h
    cases h
    simp
  | missing =>
    rw [hl] at h
    cases h
    simp
  | raises e =>
    simp only [hl] at h
    by_cases he : e.isA .Exception = true
    · rw [if_pos he] at h
      cases h
      simp
    · rw [if_neg he] at h
      cases h

/-- Only what is not an `Exception` gets past a safe read. -/
theorem safe_attribute_error {o : Objects Id} {x : Id} {name : String} {e : Exc} (h : _safe_attribute o x name = .error e) :
    e.isA .Exception = false ∧ o.lookup x name = .raises e := by
  unfold _safe_attribute getattr at h
  cases hl : o.lookup x name with
  | value w =>
    rw [hl] at h
    cases h
  | missing =>
    rw [hl] at h
    cases h
  | raises e' =>
    simp only [hl] at h
    by_cases he : e'.isA .Exception = true
    · rw [if_pos he] at h
      cases h
    · rw [if_neg he] at h
      cases h
      exact ⟨Bool.not_eq_true _ ▸ he, rfl⟩

/-- An attribute that was read is a text just when the exception has it. -/
theorem isPlain_iff {o : Objects Id} {x : Id} {name text : String} {v : Option Id} (h : _safe_attribute o x name = .ok v) :
    isPlain o v text = true ↔ HasText o x name text := by
  simp only [isPlain, decide_eq_true_eq, Option.bind_eq_some_iff, HasText, safe_attribute_ok h]

/-- The code is found where an attribute is the text of it. -/
theorem checkSqlstate_code (o : Objects Id) (found : Found) (v : Option Id) :
    (found.checkSqlstate o v).has_duplicate_sqlstate = (found.has_duplicate_sqlstate || isPlain o v _DUPLICATE_SQLSTATE) := by
  unfold Found.checkSqlstate
  by_cases h : isPlain o v _DUPLICATE_SQLSTATE = true <;> simp [h]

/-- What was found of the constraint stays. -/
@[simp]
theorem checkSqlstate_constraint (o : Objects Id) (found : Found) (v : Option Id) :
    (found.checkSqlstate o v).has_idempotency_constraint = found.has_idempotency_constraint := by
  unfold Found.checkSqlstate
  by_cases h : isPlain o v _DUPLICATE_SQLSTATE = true <;> simp [h]

/-- The constraint is found where an attribute is its name. -/
theorem checkConstraint_constraint (o : Objects Id) (found : Found) (v : Option Id) :
    (found.checkConstraint o v).has_idempotency_constraint =
      (found.has_idempotency_constraint || isPlain o v _IDEMPOTENCY_CONSTRAINT) := by
  unfold Found.checkConstraint
  by_cases h : isPlain o v _IDEMPOTENCY_CONSTRAINT = true <;> simp [h]

/-- What was found of the code stays. -/
@[simp]
theorem checkConstraint_code (o : Objects Id) (found : Found) (v : Option Id) :
    (found.checkConstraint o v).has_duplicate_sqlstate = found.has_duplicate_sqlstate := by
  unfold Found.checkConstraint
  by_cases h : isPlain o v _IDEMPOTENCY_CONSTRAINT = true <;> simp [h]

/-- The name in the diagnostics is the one that they have. -/
theorem diagConstraint_iff {o : Objects Id} {x : Id} {diag v : Option Id} (hd : _safe_attribute o x "diag" = .ok diag)
    (h : diagConstraint o diag = .ok v) (text : String) :
    isPlain o v text = true ↔ ∃ d, o.lookup x "diag" = .value (some d) ∧ HasText o d "constraint_name" text := by
  cases diag with
  | none =>
    cases h
    constructor
    · intro h
      cases h
    · rintro ⟨d, hl, _⟩
      cases (safe_attribute_ok hd d).mpr hl
  | some d =>
    rw [isPlain_iff h]
    constructor
    · intro ht
      exact ⟨d, (safe_attribute_ok hd d).mp rfl, ht⟩
    · rintro ⟨d', hl, ht⟩
      cases (safe_attribute_ok hd d').mpr hl
      exact ht

/-- One round of the loop: what an exception says is added to what has been found, and its cause is next. -/
theorem visit_ok {o : Objects Id} {x : Id} {found found' : Found} {next : Option Id} (h : visit o x found = .ok (found', next)) :
    (found'.has_duplicate_sqlstate = true ↔ found.has_duplicate_sqlstate = true ∨ HasCode o x) ∧
      (found'.has_idempotency_constraint = true ↔ found.has_idempotency_constraint = true ∨ NamesConstraint o x) ∧
      ∀ y, next = some y ↔ Cause o x y := by
  unfold visit at h
  obtain ⟨sqlstate, hs, h⟩ := except_bind_eq_ok h
  obtain ⟨pgcode, hp, h⟩ := except_bind_eq_ok h
  obtain ⟨constraint_name, hc, h⟩ := except_bind_eq_ok h
  obtain ⟨diag, hd, h⟩ := except_bind_eq_ok h
  obtain ⟨diag_constraint, hdc, h⟩ := except_bind_eq_ok h
  obtain ⟨cause, hcause, h⟩ := except_bind_eq_ok h
  cases h
  refine ⟨?_, ?_, safe_attribute_ok hcause⟩
  · simp only [List.foldl_cons, List.foldl_nil, checkConstraint_code, checkSqlstate_code, Bool.or_eq_true, isPlain_iff hs,
      isPlain_iff hp, HasCode, or_assoc]
  · simp only [List.foldl_cons, List.foldl_nil, checkConstraint_constraint, checkSqlstate_constraint, Bool.or_eq_true, isPlain_iff hc,
      diagConstraint_iff hd hdc, NamesConstraint, or_assoc]

/-- A round fails only by an attribute of the exception, or of its `diag`. -/
theorem visit_error {o : Objects Id} {x : Id} {found : Found} {e : Exc} (h : visit o x found = .error e) :
    e.isA .Exception = false ∧
      ∃ y name, (y = x ∨ o.lookup x "diag" = .value (some y)) ∧ o.lookup y name = .raises e := by
  have own : ∀ {name}, _safe_attribute o x name = .error e → e.isA .Exception = false ∧
      ∃ y name, (y = x ∨ o.lookup x "diag" = .value (some y)) ∧ o.lookup y name = .raises e := by
    intro name hn
    obtain ⟨he, hl⟩ := safe_attribute_error hn
    exact ⟨he, x, name, .inl rfl, hl⟩
  unfold visit at h
  rcases except_bind_eq_error h with hn | ⟨sqlstate, _, h⟩
  · exact own hn
  rcases except_bind_eq_error h with hn | ⟨pgcode, _, h⟩
  · exact own hn
  rcases except_bind_eq_error h with hn | ⟨constraint_name, _, h⟩
  · exact own hn
  rcases except_bind_eq_error h with hn | ⟨diag, hd, h⟩
  · exact own hn
  rcases except_bind_eq_error h with hn | ⟨diag_constraint, _, h⟩
  · cases diag with
    | none => cases hn
    | some d =>
      obtain ⟨he, hl⟩ := safe_attribute_error hn
      exact ⟨he, d, "constraint_name", .inr ((safe_attribute_ok hd d).mp rfl), hl⟩
  rcases except_bind_eq_error h with hn | ⟨cause, _, h⟩
  · exact own hn
  · cases h

/-- The chain is what is reached by causes from where the loop starts. -/
theorem chain_iff {o : Objects Id} {error : Id} {orig : Option Id} (h : _safe_attribute o error "orig" = .ok orig) (x : Id) :
    Chain o error x ↔ Relation.ReflTransGen (Cause o) (orig.getD error) x := by
  constructor
  · intro hx
    induction hx with
    | orig hl =>
      rw [(safe_attribute_ok h _).mpr hl]
      exact .refl
    | self hn =>
      cases orig with
      | none => exact .refl
      | some y => exact absurd ((safe_attribute_ok h y).mp rfl) (hn y)
    | cause _ hl ih => exact ih.tail hl
  · intro hx
    induction hx with
    | refl =>
      cases orig with
      | none =>
        refine .self ?_
        intro y hy
        cases (safe_attribute_ok h y).mpr hy
      | some y => exact .orig ((safe_attribute_ok h y).mp rfl)
    | tail _ hl ih => exact ih.cause hl

/-- What has been found of the exceptions seen. -/
structure Seen (o : Objects Id) (seen : List Id) (found : Found) : Prop where
  code : found.has_duplicate_sqlstate = true ↔ ∃ x ∈ seen, HasCode o x
  constraint : found.has_idempotency_constraint = true ↔ ∃ x ∈ seen, NamesConstraint o x

/-- Before the first exception nothing has been found. -/
theorem Seen.nil (o : Objects Id) : Seen o [] {} := ⟨by simp, by simp⟩

/-- A visit adds what its exception has. -/
theorem Seen.visit {o : Objects Id} {seen : List Id} {found found' : Found} {x : Id} {next : Option Id} (hs : Seen o seen found)
    (h : visit o x found = .ok (found', next)) : Seen o (x :: seen) found' := by
  obtain ⟨hcode, hconstraint, _⟩ := visit_ok h
  constructor
  · rw [hcode, hs.code, or_comm]
    simp
  · rw [hconstraint, hs.constraint, or_comm]
    simp

/-- A visit goes on to the cause of its exception. -/
theorem visit_link (o : Objects Id) (a : Id) (s s' : Found) (next : Option Id) (h : visit o a s = .ok (s', next)) (y : Id) :
    next = some y ↔ Cause o a y := (visit_ok h).2.2 y

variable [DecidableEq Id]

/-- The classifier follows the chain from the original error, or from the error itself. -/
theorem classifier_eq {o : Objects Id} {error : Id} {orig : Option Id} (h : _safe_attribute o error "orig" = .ok orig) (n : Nat) :
    _is_duplicate_intent_integrity_error o n error =
      (follow (visit o) n [] {} (some (orig.getD error))).map (Except.map Found.isDuplicate) := by
  simp only [_is_duplicate_intent_integrity_error, h]

/-- On a finite chain it ends, also if the chain is a cycle. -/
theorem classifier_ends {o : Objects Id} {error : Id} (hfin : {x | Chain o error x}.Finite) :
    ∃ rounds r, ∀ n, rounds ≤ n → _is_duplicate_intent_integrity_error o n error = some r := by
  cases horig : _safe_attribute o error "orig" with
  | error e =>
    refine ⟨0, .error e, ?_⟩
    intro n _
    simp [_is_duplicate_intent_integrity_error, horig]
  | ok orig =>
    simp only [chain_iff horig] at hfin
    obtain ⟨rounds, r, hr⟩ := follow_ends (visit_link o) hfin {}
    refine ⟨rounds, r.map Found.isDuplicate, ?_⟩
    intro n hn
    rw [classifier_eq horig, hr n hn, Option.map_some]

/-- What the classifier says, it says of the chain. -/
theorem classifier_exact {o : Objects Id} {error : Id} {n : Nat} {b : Bool}
    (h : _is_duplicate_intent_integrity_error o n error = some (.ok b)) :
    b = true ↔ (∃ x, Chain o error x ∧ HasCode o x) ∧ ∃ x, Chain o error x ∧ NamesConstraint o x := by
  cases horig : _safe_attribute o error "orig" with
  | error e => simp [_is_duplicate_intent_integrity_error, horig] at h
  | ok orig =>
    rw [classifier_eq horig, Option.map_eq_some_iff] at h
    obtain ⟨r, hr, hb⟩ := h
    cases r with
    | error e => cases hb
    | ok found =>
      cases hb
      obtain ⟨all, hs, hall⟩ := follow_ok (visit_link o) (fun _ _ _ _ _ hs hv => Seen.visit hs hv) (Trail.start _ _) (Seen.nil o) hr
      simp only [Found.isDuplicate, Bool.and_eq_true, hs.code, hs.constraint, hall, chain_iff horig]

/-- What the classifier lets through is raised by an attribute that it reads, and is not an `Exception`. -/
theorem classifier_error {o : Objects Id} {error : Id} {n : Nat} {e : Exc}
    (h : _is_duplicate_intent_integrity_error o n error = some (.error e)) :
    e.isA .Exception = false ∧ ∃ x name, IsRead o error x ∧ o.lookup x name = .raises e := by
  cases horig : _safe_attribute o error "orig" with
  | error e' =>
    obtain ⟨he, hl⟩ := safe_attribute_error horig
    simp only [_is_duplicate_intent_integrity_error, horig, Option.some.injEq, Except.error.injEq] at h
    subst h
    exact ⟨he, error, "orig", .inl rfl, hl⟩
  | ok orig =>
    rw [classifier_eq horig, Option.map_eq_some_iff] at h
    obtain ⟨r, hr, hb⟩ := h
    cases r with
    | ok found => cases hb
    | error e' =>
      cases hb
      obtain ⟨a, s, ha, hv⟩ := follow_fails (visit_link o) (Trail.start _ _) hr
      obtain ⟨he, x, name, hx, hl⟩ := visit_error hv
      have hac : Chain o error a := (chain_iff horig a).mpr ha
      refine ⟨he, x, name, ?_, hl⟩
      rcases hx with rfl | hx
      · exact .inr (.inl hac)
      · exact .inr (.inr ⟨a, hac, hx⟩)

end ClassifierAux

open ClassifierAux

/-- The classifier ends when the chain is finite, and then it says whether one exception of the chain has the code of a duplicate and
one names the constraint. If it says nothing, then an attribute raised what is not an `Exception`, such as an interrupt. -/
theorem duplicate_classified [DecidableEq Id] (o : Objects Id) (error : Id) (hfin : {x | Chain o error x}.Finite) :
    ∃ rounds r, (∀ n, rounds ≤ n → _is_duplicate_intent_integrity_error o n error = some r) ∧
      (∀ b, r = .ok b → (b = true ↔ (∃ x, Chain o error x ∧ HasCode o x) ∧ ∃ x, Chain o error x ∧ NamesConstraint o x)) ∧
      ∀ e, r = .error e → e.isA .Exception = false ∧ ∃ x name, IsRead o error x ∧ o.lookup x name = .raises e := by
  obtain ⟨rounds, r, hr⟩ := classifier_ends hfin
  have hend : _is_duplicate_intent_integrity_error o rounds error = some r := hr rounds le_rfl
  refine ⟨rounds, r, hr, ?_, ?_⟩
  · intro b hb
    subst hb
    exact classifier_exact hend
  · intro e he
    subst he
    exact classifier_error hend

/-- An error of the adapter, with the code, and one of the driver, which names the constraint: each is the cause of the other. -/
def causeCycle : Objects (Fin 5) where
  lookup x name :=
    match x.val, name with
    | 0, "orig" => .value (some 1)
    | 1, "sqlstate" => .value (some 3)
    | 1, "constraint_name" => .value none
    | 1, "__cause__" => .value (some 2)
    | 2, "sqlstate" => .value none
    | 2, "constraint_name" => .value (some 4)
    | 2, "__cause__" => .value (some 1)
    | _, _ => .missing
  str? x :=
    match x.val with
    | 3 => some "23505"
    | 4 => some "uq_order_intent_idempotency"
    | _ => none

example : _is_duplicate_intent_integrity_error causeCycle 3 0 = some (.ok true) := by decide

/-- Two errors that are each other's cause. -/
theorem duplicate_classified_cycle :
    ∃ rounds r, (∀ n, rounds ≤ n → _is_duplicate_intent_integrity_error causeCycle n 0 = some r) ∧
      (∀ b, r = .ok b →
        (b = true ↔ (∃ x, Chain causeCycle 0 x ∧ HasCode causeCycle x) ∧ ∃ x, Chain causeCycle 0 x ∧ NamesConstraint causeCycle x)) ∧
      ∀ e, r = .error e → e.isA .Exception = false ∧ ∃ x name, IsRead causeCycle 0 x ∧ causeCycle.lookup x name = .raises e :=
  duplicate_classified causeCycle 0 (Set.toFinite _)

/-! ## The route -/

/-- An attribute as a text. -/
def textOf (o : Objects Id) (x : Id) (name : String) : Option String :=
  match o.lookup x name with
  | .value (some v) => o.str? v
  | _ => none

/-- An exception as an error of the database driver. -/
def driverError (o : Objects Id) (x : Id) : DriverError where
  sqlstate := textOf o x "sqlstate"
  pgcode := textOf o x "pgcode"
  constraint_name := textOf o x "constraint_name"
  diag_constraint_name :=
    match o.lookup x "diag" with
    | .value (some diag) => textOf o diag "constraint_name"
    | _ => none

namespace ClassifierAux

/-- An attribute is a text just when the exception has it. -/
theorem textOf_eq_some (o : Objects Id) (x : Id) (name text : String) : textOf o x name = some text ↔ HasText o x name text := by
  unfold textOf HasText
  cases o.lookup x name with
  | value v => cases v <;> simp
  | missing => simp
  | raises e => simp

/-- An exception has the code just when the driver's error has. -/
theorem hasCode_iff (o : Objects Id) (x : Id) :
    HasCode o x ↔ (driverError o x).sqlstate = some _DUPLICATE_SQLSTATE ∨ (driverError o x).pgcode = some _DUPLICATE_SQLSTATE := by
  simp only [HasCode, driverError, textOf_eq_some]

/-- An exception names the constraint just when the driver's error does. -/
theorem namesConstraint_iff (o : Objects Id) (x : Id) :
    NamesConstraint o x ↔ (driverError o x).constraint_name = some _IDEMPOTENCY_CONSTRAINT ∨
      (driverError o x).diag_constraint_name = some _IDEMPOTENCY_CONSTRAINT := by
  simp only [NamesConstraint, driverError, textOf_eq_some]
  apply or_congr_right
  cases o.lookup x "diag" with
  | value v => cases v <;> simp [textOf_eq_some]
  | missing => simp
  | raises e => simp

end ClassifierAux

/-- The route's classifier, which is given the errors of the chain, decides as this one, which has to find them. -/
theorem classifier_route [DecidableEq Id] {o : Objects Id} {error : Id} {n : Nat} {b : Bool} {e : Exc}
    (h : _is_duplicate_intent_integrity_error o n error = some (.ok b))
    (hcauses : ∀ d, d ∈ e.causes ↔ ∃ x, Chain o error x ∧ driverError o x = d) :
    ExecutionRoute._is_duplicate_intent_integrity_error e = b := by
  rw [Bool.eq_iff_iff, classifier_exact h, ExecutionRoute._is_duplicate_intent_integrity_error]
  simp only [Bool.and_eq_true, List.any_eq_true, hcauses, Bool.or_eq_true, decide_eq_true_eq, exists_exists_and_eq_and,
    hasCode_iff, namesConstraint_iff]

end DuplicateClassifier
end MtossBot

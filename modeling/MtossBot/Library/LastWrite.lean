import Mathlib.Data.List.Induction

/-!
# The last write

The entries of a log write to a register, and what an entry writes may depend on the entries before it. The value of the register is what
was written last. A latch is a register of one bit that some entries set and others clear.
-/

namespace MtossBot

variable {α β : Type} {w : List α → α → Option β} {log : List α} {a : α} {b : β}

/-- The register after the entries of a log that follow others. -/
def writeFrom (w : List α → α → Option β) : List α → Option β → List α → Option β
  | _, last, [] => last
  | before, last, a :: log => writeFrom w (before ++ [a]) ((w before a).or last) log

/-- What was written last in a log, if anything was. -/
def lastWrite (w : List α → α → Option β) (log : List α) : Option β := writeFrom w [] none log

@[simp] theorem lastWrite_nil : lastWrite w [] = none := rfl

/-- A last entry that writes goes before what was written so far. -/
theorem writeFrom_append (before : List α) (last : Option β) :
    writeFrom w before last (log ++ [a]) = (w (before ++ log) a).or (writeFrom w before last log) := by
  induction log generalizing before last with
  | nil => simp [writeFrom]
  | cons x log ih => rw [List.cons_append, writeFrom, ih, writeFrom, List.append_assoc, List.singleton_append]

/-- The last write is that of the last entry, if it writes. -/
theorem lastWrite_append : lastWrite w (log ++ [a]) = (w log a).or (lastWrite w log) := writeFrom_append [] none

/-- An entry that writes is the last write. -/
theorem lastWrite_append_some (h : w log a = some b) : lastWrite w (log ++ [a]) = some b := by rw [lastWrite_append, h, Option.some_or]

/-- One that does not leaves the last write. -/
theorem lastWrite_append_none (h : w log a = none) : lastWrite w (log ++ [a]) = lastWrite w log := by rw [lastWrite_append, h, Option.none_or]

/-- The value was written by an entry, and nothing has been written since. -/
theorem lastWrite_eq_some_iff : lastWrite w log = some b ↔
    ∃ front a back, log = front ++ a :: back ∧ w front a = some b ∧
      ∀ mid x rest, back = mid ++ x :: rest → w (front ++ a :: mid) x = none := by
  induction log using List.reverseRecOn generalizing b with
  | nil => simp
  | append_singleton log x ih =>
    cases hx : w log x with
    | some b' =>
      rw [lastWrite_append_some hx]
      constructor
      · rintro ⟨⟩
        refine ⟨log, x, [], rfl, hx, ?_⟩
        intro mid y rest h
        simp at h
      · rintro ⟨front, a, back, heq, ha, hback⟩
        rcases List.eq_nil_or_concat back with rfl | ⟨mid, y, rfl⟩
        · obtain ⟨rfl, rfl⟩ := List.append_singleton_inj.mp heq
          rw [← hx, ha]
        · rw [List.concat_eq_append, ← List.cons_append, ← List.append_assoc] at heq
          obtain ⟨rfl, rfl⟩ := List.append_singleton_inj.mp heq
          have hnone := hback mid x [] (List.concat_eq_append ..)
          rw [hx] at hnone
          cases hnone
    | none =>
      rw [lastWrite_append_none hx, ih]
      constructor
      · rintro ⟨front, a, back, rfl, ha, hback⟩
        refine ⟨front, a, back ++ [x], by simp, ha, ?_⟩
        intro mid y rest h
        rcases List.eq_nil_or_concat rest with rfl | ⟨rest, z, rfl⟩
        · obtain ⟨rfl, rfl⟩ := List.append_singleton_inj.mp h
          exact hx
        · rw [List.concat_eq_append, ← List.cons_append, ← List.append_assoc] at h
          obtain ⟨rfl, rfl⟩ := List.append_singleton_inj.mp h
          exact hback mid y rest rfl
      · rintro ⟨front, a, back, heq, ha, hback⟩
        rcases List.eq_nil_or_concat back with rfl | ⟨mid, y, rfl⟩
        · obtain ⟨rfl, rfl⟩ := List.append_singleton_inj.mp heq
          rw [hx] at ha
          cases ha
        · rw [List.concat_eq_append, ← List.cons_append, ← List.append_assoc] at heq
          obtain ⟨rfl, rfl⟩ := List.append_singleton_inj.mp heq
          refine ⟨front, a, mid, rfl, ha, ?_⟩
          rintro mid' z rest rfl
          exact hback mid' z (rest ++ [x]) (by simp)

/-! ## Latches -/

/-- An entry of a log has set the latch, and none has cleared it since. -/
def Latched (sets clears : α → Prop) (log : List α) : Prop :=
  ∃ front a back, log = front ++ a :: back ∧ sets a ∧ ∀ x ∈ back, ¬clears x

variable {sets clears : α → Prop}

/-- At first the latch is open. -/
theorem not_latched_nil : ¬Latched sets clears [] := by
  rintro ⟨front, a, back, heq, -⟩
  simp at heq

/-- It is closed by an entry that sets it, or stays so over one that does not clear it. -/
theorem latched_append : Latched sets clears (log ++ [a]) ↔ sets a ∨ ¬clears a ∧ Latched sets clears log := by
  constructor
  · rintro ⟨front, x, back, heq, hsets, hback⟩
    rcases List.eq_nil_or_concat back with rfl | ⟨mid, y, rfl⟩
    · obtain ⟨-, rfl⟩ := List.append_singleton_inj.mp heq
      exact .inl hsets
    · rw [List.concat_eq_append, ← List.cons_append, ← List.append_assoc] at heq
      obtain ⟨rfl, rfl⟩ := List.append_singleton_inj.mp heq
      exact .inr ⟨hback a (by simp), front, x, mid, rfl, hsets, fun z hz => hback z (by simp [hz])⟩
  · rintro (hsets | ⟨hclears, front, x, back, rfl, hsets, hback⟩)
    · exact ⟨log, a, [], rfl, hsets, by simp⟩
    · refine ⟨front, x, back ++ [a], by simp, hsets, fun z hz => ?_⟩
      rcases List.mem_append.mp hz with hz | hz
      · exact hback z hz
      · exact List.mem_singleton.mp hz ▸ hclears

end MtossBot

import Mathlib.Data.List.Nodup

/-!
# Insertion-ordered dictionaries

A dictionary is the list of its entries in the order their keys were first inserted, no key twice. Assigning to a key that is
there keeps its place; deleting and assigning again moves it to the end. The lemmas say what `get?` and `keys` are after each
operation, so that a user never looks at the list.
-/

namespace MtossBot

/-- A dictionary with keys in `K`: its entries, oldest first. -/
structure Dict (K V : Type) where
  entries : List (K × V)
  nodup : (entries.map Prod.fst).Nodup

namespace Dict

variable {K V : Type} [DecidableEq K]

def empty : Dict K V := ⟨[], List.nodup_nil⟩

/-- `list(d)`. -/
def keys (d : Dict K V) : List K := d.entries.map Prod.fst

/-- `list(d.values())`. -/
def values (d : Dict K V) : List V := d.entries.map Prod.snd

/-- `d.get(key)`. -/
def get? (d : Dict K V) (key : K) : Option V := (d.entries.find? fun p => p.1 = key).map Prod.snd

/-- The entries after `d[key] = value`. -/
def setEntries (key : K) (value : V) : List (K × V) → List (K × V)
  | [] => [(key, value)]
  | p :: l => if p.1 = key then (key, value) :: l else p :: setEntries key value l

/-- The keys after an entry is set are the keys before, and its own. -/
theorem mem_map_setEntries {key : K} {value : V} {l : List (K × V)} {k : K} :
    k ∈ (setEntries key value l).map Prod.fst ↔ k = key ∨ k ∈ l.map Prod.fst := by
  induction l with
  | nil => simp [setEntries]
  | cons p l ih =>
    by_cases hp : p.1 = key
    · rw [setEntries, if_pos hp, List.map_cons, List.map_cons, List.mem_cons, List.mem_cons, hp]
      tauto
    · simp only [setEntries, if_neg hp, List.map_cons, List.mem_cons, ih]
      tauto

/-- Setting an entry leaves the keys distinct. -/
theorem nodup_setEntries {key : K} {value : V} {l : List (K × V)} (h : (l.map Prod.fst).Nodup) :
    ((setEntries key value l).map Prod.fst).Nodup := by
  induction l with
  | nil => simp [setEntries]
  | cons p l ih =>
    rw [List.map_cons, List.nodup_cons] at h
    by_cases hp : p.1 = key
    · simp only [setEntries, if_pos hp, List.map_cons, List.nodup_cons]
      exact ⟨hp ▸ h.1, h.2⟩
    · simp only [setEntries, if_neg hp, List.map_cons, List.nodup_cons, mem_map_setEntries, not_or]
      exact ⟨⟨hp, h.1⟩, ih h.2⟩

/-- `d[key] = value`. -/
def set (d : Dict K V) (key : K) (value : V) : Dict K V := ⟨setEntries key value d.entries, nodup_setEntries d.nodup⟩

/-- `d.pop(key, None)`, the dictionary after it; also `del d[key]`. -/
def erase (d : Dict K V) (key : K) : Dict K V :=
  ⟨d.entries.filter fun p => p.1 ≠ key, d.nodup.sublist (List.filter_sublist.map _)⟩

@[simp] theorem get?_empty (key : K) : (empty : Dict K V).get? key = none := rfl

omit [DecidableEq K] in
@[simp] theorem keys_empty : (empty : Dict K V).keys = [] := rfl

/-- A key is there exactly when `get?` finds a value. -/
theorem mem_keys_iff {d : Dict K V} {key : K} : key ∈ d.keys ↔ (d.get? key).isSome := by
  simp only [keys, get?, List.mem_map, Option.isSome_map, List.find?_isSome, decide_eq_true_eq]

/-- A key has no value just when it is not there. -/
theorem get?_eq_none_iff {d : Dict K V} {key : K} : d.get? key = none ↔ key ∉ d.keys := by
  rw [mem_keys_iff, Bool.not_eq_true, Option.isSome_eq_false_iff, Option.isNone_iff_eq_none]

omit [DecidableEq K] in
/-- The keys are distinct. -/
theorem nodup_keys (d : Dict K V) : d.keys.Nodup := d.nodup

/-- The entry that is found is the one just set, or the one before. -/
private theorem find?_setEntries {key k : K} {value : V} (l : List (K × V)) :
    ((setEntries key value l).find? fun p => p.1 = k).map Prod.snd =
      if k = key then some value else (l.find? fun p => p.1 = k).map Prod.snd := by
  induction l with
  | nil =>
    by_cases hk : k = key
    · simp [setEntries, hk]
    · simp [setEntries, hk, Ne.symm hk]
  | cons p l ih =>
    by_cases hp : p.1 = key
    · by_cases hk : k = key
      · simp [setEntries, hp, hk]
      · simp [setEntries, hp, hk, Ne.symm hk]
    · by_cases hpk : p.1 = k
      · have hk : k ≠ key := fun h => hp (hpk.trans h)
        simp [setEntries, hpk, hk]
      · simpa [setEntries, hp, hpk] using ih

/-- What is found after an assignment. -/
theorem get?_set (d : Dict K V) (key k : K) (value : V) :
    (d.set key value).get? k = if k = key then some value else d.get? k :=
  find?_setEntries d.entries

/-- A key has the value it was set to. -/
@[simp] theorem get?_set_self (d : Dict K V) (key : K) (value : V) : (d.set key value).get? key = some value := by
  rw [get?_set, if_pos rfl]

/-- The other keys keep their values. -/
theorem get?_set_of_ne (d : Dict K V) {key k : K} (value : V) (h : k ≠ key) : (d.set key value).get? k = d.get? k := by
  rw [get?_set, if_neg h]

/-- What is found after a deletion. -/
theorem get?_erase (d : Dict K V) (key k : K) : (d.erase key).get? k = if k = key then none else d.get? k := by
  simp only [get?, erase, List.find?_filter]
  by_cases hk : k = key
  · subst hk
    rw [if_pos rfl, List.find?_eq_none.mpr, Option.map_none]
    intro p _
    simp
  · rw [if_neg hk]
    congr 2
    funext p
    by_cases hp : p.1 = k
    · simp [hp, hk]
    · simp [hp]

/-- An erased key has no value. -/
@[simp] theorem get?_erase_self (d : Dict K V) (key : K) : (d.erase key).get? key = none := by
  rw [get?_erase, if_pos rfl]

/-- The other keys keep their values. -/
theorem get?_erase_of_ne (d : Dict K V) {key k : K} (h : k ≠ key) : (d.erase key).get? k = d.get? k := by
  rw [get?_erase, if_neg h]

/-- The keys after an assignment: the old ones, and the new one at the end if it was not there. -/
theorem keys_set (d : Dict K V) (key : K) (value : V) :
    (d.set key value).keys = if key ∈ d.keys then d.keys else d.keys ++ [key] := by
  have h : ∀ l : List (K × V), (setEntries key value l).map Prod.fst =
      if key ∈ l.map Prod.fst then l.map Prod.fst else l.map Prod.fst ++ [key] := by
    intro l
    induction l with
    | nil => simp [setEntries]
    | cons p l ih =>
      by_cases hp : p.1 = key
      · simp [setEntries, hp]
      · simp only [setEntries, if_neg hp, List.map_cons, ih, List.mem_cons, Ne.symm hp, false_or]
        split <;> simp
  exact h d.entries

/-- The keys after one is set are the keys before, and the one that is set. -/
theorem mem_keys_set {d : Dict K V} {key k : K} {value : V} : k ∈ (d.set key value).keys ↔ k = key ∨ k ∈ d.keys :=
  mem_map_setEntries

/-- An assignment to a new key adds an entry at the end. -/
theorem entries_set_of_notMem {d : Dict K V} {key : K} (value : V) (h : key ∉ d.keys) :
    (d.set key value).entries = d.entries ++ [(key, value)] := by
  have hl : ∀ l : List (K × V), key ∉ l.map Prod.fst → setEntries key value l = l ++ [(key, value)] := by
    intro l hkey
    induction l with
    | nil => rfl
    | cons p l ih =>
      rw [List.map_cons, List.mem_cons, not_or] at hkey
      rw [setEntries, if_neg (Ne.symm hkey.1), ih hkey.2, List.cons_append]
  exact hl d.entries h

/-- The keys after a deletion. -/
theorem keys_erase (d : Dict K V) (key : K) : (d.erase key).keys = d.keys.filter (· ≠ key) := by
  simp only [keys, erase, List.filter_map]
  rfl

/-- The keys after one is erased are the others. -/
theorem mem_keys_erase {d : Dict K V} {key k : K} : k ∈ (d.erase key).keys ↔ k ≠ key ∧ k ∈ d.keys := by
  rw [keys_erase, List.mem_filter, decide_eq_true_eq, and_comm]

/-- An entry is what `get?` finds under its key. -/
theorem mem_entries_iff {d : Dict K V} {key : K} {value : V} : (key, value) ∈ d.entries ↔ d.get? key = some value := by
  obtain ⟨l, hl⟩ := d
  simp only [get?]
  induction l with
  | nil => simp
  | cons p l ih =>
    rw [List.map_cons, List.nodup_cons] at hl
    rw [List.mem_cons, ih hl.2, List.find?_cons]
    by_cases hp : p.1 = key
    · have hnone : (l.find? fun p => decide (p.1 = key)) = none := by
        rw [List.find?_eq_none]
        intro x hx hxk
        have hxk : x.1 = key := by simpa using hxk
        exact hl.1 (hp ▸ hxk ▸ List.mem_map_of_mem hx)
      simp only [hp, decide_true, hnone, Option.map_none, reduceCtorEq, or_false, Option.map_some, Option.some.injEq]
      rw [← hp]
      exact ⟨fun h => (congrArg Prod.snd h).symm, fun h => by rw [← h]⟩
    · have hne : (key, value) ≠ p := fun h => hp (congrArg Prod.fst h).symm
      simp [hp, hne]

/-- A value is there under some key. -/
theorem mem_values_iff {d : Dict K V} {value : V} : value ∈ d.values ↔ ∃ key, d.get? key = some value := by
  simp only [values, List.mem_map, Prod.exists, exists_eq_right, mem_entries_iff]

end Dict
end MtossBot

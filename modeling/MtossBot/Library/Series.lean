import Mathlib.Data.List.Basic
import Mathlib.Data.List.Forall2

/-!
# Causal series

A function from lists to lists is causal when the first `n` values it gives depend only on the first `n` values it is given: run on
a beginning of a list, it gives a beginning of what it gives on the whole list. Causal functions compose, and the shapes programs
build series with (maps, zips, scans with a state, one value for each index) are causal.
-/

namespace MtossBot

variable {α β γ δ S : Type}

/-- The first `n` values depend only on the first `n` inputs. -/
def Causal (f : List α → List β) : Prop := ∀ xs n, f (xs.take n) = (f xs).take n

/-- A series computed from left to right with a state. -/
def scan (step : S → α → β × S) : S → List α → List β
  | _, [] => []
  | s, a :: l => (step s a).1 :: scan step (step s a).2 l

/-- A scan of a prefix is the prefix of the scan. -/
theorem scan_take (step : S → α → β × S) (s : S) (l : List α) (n : Nat) :
    scan step s (l.take n) = (scan step s l).take n := by
  induction l generalizing s n with
  | nil => simp [scan]
  | cons a l ih =>
    cases n with
    | zero => simp [scan]
    | succ n => simp [scan, ih]

/-- A scan has an entry for each element. -/
theorem length_scan (step : S → α → β × S) (s : S) (l : List α) : (scan step s l).length = l.length := by
  induction l generalizing s with
  | nil => rfl
  | cons a l ih => simp [scan, ih]

/-- A value of a scan comes from an item, in some state. -/
theorem mem_scan {step : S → α → β × S} {s : S} {l : List α} {b : β} (h : b ∈ scan step s l) :
    ∃ s', ∃ a ∈ l, b = (step s' a).1 := by
  induction l generalizing s with
  | nil => cases h
  | cons a l ih =>
    rcases List.mem_cons.mp h with rfl | h
    · exact ⟨s, a, List.mem_cons_self, rfl⟩
    · obtain ⟨s', a', ha, hb⟩ := ih h
      exact ⟨s', a', List.mem_cons_of_mem _ ha, hb⟩

/-- A scan of changed items in a changed state gives changed values, if each step does. -/
theorem scan_map {α' β' S' : Type} {step : S → α → β × S} {step' : S' → α' → β' × S'} {σ : S → S'} {g : α → α'} {h : β → β'}
    (hstep : ∀ s a, step' (σ s) (g a) = (h (step s a).1, σ (step s a).2)) (s : S) (l : List α) :
    scan step' (σ s) (l.map g) = (scan step s l).map h := by
  induction l generalizing s with
  | nil => rfl
  | cons a l ih => rw [List.map_cons, scan, scan, hstep, List.map_cons, ih]

/-- A scan of related items gives changed values, if each step does and goes on the same. -/
theorem scan_related {α' β' : Type} {R : α → α' → Prop} {step : S → α → β × S} {step' : S → α' → β' × S} {h : β → β'}
    (hstep : ∀ s a a', R a a' → step' s a' = (h (step s a).1, (step s a).2)) {l : List α} {l' : List α'} (hl : List.Forall₂ R l l') (s : S) :
    scan step' s l' = (scan step s l).map h := by
  induction hl generalizing s with
  | nil => rfl
  | cons ha _ ih => rw [scan, scan, hstep s _ _ ha, List.map_cons, ih]

/-- The state of a scan before the item at an index. -/
def scanState (step : S → α → β × S) (s : S) (l : List α) (i : Nat) : S := (l.take i).foldl (fun s a => (step s a).2) s

/-- Before the first element the state is the one it starts in. -/
@[simp]
theorem scanState_zero (step : S → α → β × S) (s : S) (l : List α) : scanState step s l 0 = s := by
  simp [scanState]

/-- After an element it is the one that the step leaves. -/
theorem scanState_succ {step : S → α → β × S} {s : S} {l : List α} {i : Nat} {a : α} (h : l[i]? = some a) :
    scanState step s l (i + 1) = (step (scanState step s l i) a).2 := by
  rw [scanState, List.take_add_one, h, List.foldl_append]
  rfl

/-- The value of a scan at an index. -/
theorem scan_getElem? (step : S → α → β × S) (s : S) (l : List α) (i : Nat) :
    (scan step s l)[i]? = l[i]?.map fun a => (step (scanState step s l i) a).1 := by
  induction l generalizing s i with
  | nil => rfl
  | cons a l ih =>
    cases i with
    | zero => simp [scan]
    | succ i =>
      rw [scan, List.getElem?_cons_succ, List.getElem?_cons_succ, ih]
      simp [scanState]

/-- If the next state is read off an item and its value, so is every value but the first. -/
theorem scan_getElem?_succ {step : S → α → β × S} (next : α → β → S) (hnext : ∀ s a, (step s a).2 = next a (step s a).1)
    {s : S} {l : List α} {i : Nat} {a a' : α} {b : β} (ha : l[i]? = some a) (hb : (scan step s l)[i]? = some b)
    (ha' : l[i + 1]? = some a') : (scan step s l)[i + 1]? = some (step (next a b) a').1 := by
  rw [scan_getElem?, ha, Option.map_some, Option.some.injEq] at hb
  rw [scan_getElem?, ha', Option.map_some, scanState_succ ha, hnext, hb]

/-- What holds of the first state and is kept by each item holds of every state. -/
theorem scanState_invariant {step : S → α → β × S} {s : S} {l : List α} {P : Nat → S → Prop} (h0 : P 0 s)
    (hstep : ∀ i s a, l[i]? = some a → P i s → P (i + 1) (step s a).2) {i : Nat} (hi : i ≤ l.length) :
    P i (scanState step s l i) := by
  induction i with
  | zero => simpa using h0
  | succ i ih =>
    have ha : l[i]? = some l[i] := List.getElem?_eq_getElem (by omega)
    rw [scanState_succ ha]
    exact hstep i _ _ ha (ih (by omega))

namespace Causal

/-- A series is causal in itself. -/
theorem self : Causal fun xs : List α => xs := fun _ _ => rfl

/-- Causal after causal is causal. -/
theorem comp {g : List β → List γ} {f : List α → List β} (hg : Causal g) (hf : Causal f) : Causal fun xs => g (f xs) := by
  intro xs n
  dsimp only
  rw [hf, hg]

/-- What is calculated from a causal series entry by entry is causal. -/
theorem map (g : β → γ) {f : List α → List β} (hf : Causal f) : Causal fun xs => (f xs).map g := by
  intro xs n
  dsimp only
  rw [hf, List.map_take]

/-- What is calculated from the entries of two causal series is causal. -/
theorem zipWith (h : β → γ → δ) {f : List α → List β} {g : List α → List γ} (hf : Causal f) (hg : Causal g) :
    Causal fun xs => List.zipWith h (f xs) (g xs) := by
  intro xs n
  dsimp only
  rw [hf, hg, List.take_zipWith]

/-- So are their pairs. -/
theorem zip {f : List α → List β} {g : List α → List γ} (hf : Causal f) (hg : Causal g) :
    Causal fun xs => (f xs).zip (g xs) :=
  zipWith Prod.mk hf hg

/-- A scan of a causal series is causal. -/
theorem scan (step : S → β → γ × S) (s : S) {f : List α → List β} (hf : Causal f) :
    Causal fun xs => MtossBot.scan step s (f xs) := by
  intro xs n
  dsimp only
  rw [hf, scan_take]

/-- One value for each index, read off the values up to that index. -/
theorem indexed {g : List α → Nat → β} (h : ∀ xs n i, i < n → g (xs.take n) i = g xs i) :
    Causal fun xs => (List.range xs.length).map (g xs) := by
  intro xs n
  dsimp only
  rw [← List.map_take, List.take_range, List.length_take]
  refine List.map_congr_left fun i hi => h xs n i ?_
  rw [List.mem_range] at hi
  omega

end Causal

/-! ## Series that start late -/

/-- A series that has a value from an index on, and none before. -/
def DefinedFrom (n : Nat) (s : List (Option α)) : Prop := ∀ i x, s[i]? = some x → (x.isSome ↔ n ≤ i)

namespace DefinedFrom

/-- A series without gaps is defined from its beginning. -/
theorem map_some (l : List α) : DefinedFrom 0 (l.map some) := by
  intro i x hx
  rw [List.getElem?_map] at hx
  obtain ⟨a, _, rfl⟩ := Option.map_eq_some_iff.mp hx
  simp

/-- What is calculated entry by entry is defined from where the series is. -/
theorem map {n : Nat} {s : List (Option α)} (h : DefinedFrom n s) (g : α → β) : DefinedFrom n (s.map (Option.map g)) := by
  intro i x hx
  rw [List.getElem?_map] at hx
  obtain ⟨a, ha, rfl⟩ := Option.map_eq_some_iff.mp hx
  rw [Option.isSome_map]
  exact h i a ha

/-- A value that needs both of two has them from where the later starts. -/
theorem zipWith {n m : Nat} {s : List (Option α)} {t : List (Option β)} (hs : DefinedFrom n s) (ht : DefinedFrom m t)
    {g : Option α → Option β → Option γ} (hg : ∀ a b, (g a b).isSome ↔ a.isSome ∧ b.isSome) :
    DefinedFrom (max n m) (List.zipWith g s t) := by
  intro i x hx
  obtain ⟨a, b, ha, hb, rfl⟩ := List.getElem?_zipWith_eq_some.mp hx
  rw [hg, hs i a ha, ht i b hb, Nat.max_le]

/-- One value for each index. -/
theorem indexed {n k : Nat} {g : Nat → Option α} (h : ∀ i < n, (g i).isSome ↔ k ≤ i) :
    DefinedFrom k ((List.range n).map g) := by
  intro i x hx
  have hi : i < n := by simpa using (List.getElem?_eq_some_iff.mp hx).1
  rw [List.getElem?_map, List.getElem?_range hi] at hx
  cases hx
  exact h i hi

end DefinedFrom

/-- Reading a window that ends at an index sees only the values up to it. -/
theorem take_succ_take_of_lt {xs : List α} {n i : Nat} (h : i < n) : (xs.take n).take (i + 1) = xs.take (i + 1) := by
  rw [List.take_take]
  congr 1
  omega

end MtossBot

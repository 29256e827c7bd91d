import Mathlib.Data.List.Induction
import Mathlib.Logic.Function.Basic

/-!
# Ledgers of entries and exits

A ledger is a log of entries and exits under keys, in which an entry is made only under a key that holds nothing, and an exit takes
the entry its key holds and must fit it. The relation carries what each key holds at the end. It follows that every exit has its
own entry before it, and that entries and exits under a key alternate.
-/

namespace MtossBot

/-- What a log records: the key of an item, whether it is an entry, and which exits fit which entry. -/
structure LedgerKind (K A : Type) where
  key : A → K
  isEntry : A → Bool
  fits : A → A → Prop

variable {K A : Type} [DecidableEq K] {kind : LedgerKind K A}

/-- The logs in which entries and exits match, with what each key holds at the end. -/
inductive Ledger (kind : LedgerKind K A) : List A → (K → Option A) → Prop where
  | nil : Ledger kind [] fun _ => none
  | entry {log : List A} {held : K → Option A} {a : A} :
      Ledger kind log held → kind.isEntry a = true → held (kind.key a) = none →
      Ledger kind (log ++ [a]) (Function.update held (kind.key a) (some a))
  | exit {log : List A} {held : K → Option A} {e a : A} :
      Ledger kind log held → kind.isEntry a = false → held (kind.key a) = some e → kind.fits e a →
      Ledger kind (log ++ [a]) (Function.update held (kind.key a) none)

namespace Ledger

/-- The last item under a key. -/
def LastUnder (kind : LedgerKind K A) (k : K) (log : List A) (a : A) : Prop :=
  ∃ pre mid, log = pre ++ a :: mid ∧ kind.key a = k ∧ ∀ b ∈ mid, kind.key b ≠ k

omit [DecidableEq K] in
theorem LastUnder.key_eq {k : K} {log : List A} {a : A} (h : LastUnder kind k log a) : kind.key a = k := by
  obtain ⟨_, _, _, ha, _⟩ := h
  exact ha

omit [DecidableEq K] in
theorem LastUnder.append_other {k : K} {log : List A} {a b : A} (h : LastUnder kind k log a) (hb : kind.key b ≠ k) :
    LastUnder kind k (log ++ [b]) a := by
  obtain ⟨pre, mid, rfl, ha, hmid⟩ := h
  refine ⟨pre, mid ++ [b], by simp, ha, ?_⟩
  intro c hc
  rcases List.mem_append.mp hc with hc | hc
  · exact hmid c hc
  · rwa [List.mem_singleton.mp hc]

omit [DecidableEq K] in
theorem LastUnder.of_append_other {k : K} {log : List A} {a b : A} (h : LastUnder kind k (log ++ [b]) a)
    (hb : kind.key b ≠ k) : LastUnder kind k log a := by
  obtain ⟨pre, mid, hlog, ha, hmid⟩ := h
  rcases List.eq_nil_or_concat mid with rfl | ⟨mid, c, rfl⟩
  · obtain rfl : a = b := by simpa using (List.append_inj_right' hlog rfl).symm
    exact absurd ha hb
  · rw [List.concat_eq_append, ← List.cons_append, ← List.append_assoc] at hlog
    exact ⟨pre, mid, List.append_inj_left' hlog rfl, ha, fun d hd => hmid d (by simp [hd])⟩

omit [DecidableEq K] in
theorem LastUnder.eq_of_append {k : K} {log : List A} {a b : A} (h : LastUnder kind k (log ++ [b]) a)
    (hb : kind.key b = k) : a = b := by
  obtain ⟨pre, mid, hlog, ha, hmid⟩ := h
  rcases List.eq_nil_or_concat mid with rfl | ⟨mid, c, rfl⟩
  · simpa using (List.append_inj_right' hlog rfl).symm
  · rw [List.concat_eq_append, ← List.cons_append, ← List.append_assoc] at hlog
    obtain rfl : c = b := by simpa using (List.append_inj_right' hlog rfl).symm
    exact absurd hb (hmid c (by simp))

/-- What a key holds is an entry, the last item under the key. -/
theorem held_some {log : List A} {held : K → Option A} (h : Ledger kind log held) {k : K} {e : A} (he : held k = some e) :
    kind.isEntry e = true ∧ LastUnder kind k log e := by
  induction h with
  | nil => cases he
  | @entry log held a _ ha _ ih =>
    by_cases hk : k = kind.key a
    · subst hk
      rw [Function.update_self, Option.some.injEq] at he
      exact ⟨he ▸ ha, log, [], by rw [he], by rw [he], by simp⟩
    · rw [Function.update_of_ne hk] at he
      exact ⟨(ih he).1, (ih he).2.append_other (Ne.symm hk)⟩
  | @exit log held e' a _ _ _ _ ih =>
    by_cases hk : k = kind.key a
    · subst hk
      rw [Function.update_self] at he
      cases he
    · rw [Function.update_of_ne hk] at he
      exact ⟨(ih he).1, (ih he).2.append_other (Ne.symm hk)⟩

/-- Under a key that holds nothing the last item, if any, is an exit. -/
theorem held_none {log : List A} {held : K → Option A} (h : Ledger kind log held) {k : K} (hk : held k = none) {a : A}
    (ha : LastUnder kind k log a) : kind.isEntry a = false := by
  induction h with
  | nil =>
    obtain ⟨pre, mid, hlog, _⟩ := ha
    simp at hlog
  | @entry log held b _ _ _ ih =>
    by_cases hkb : k = kind.key b
    · rw [hkb, Function.update_self] at hk
      cases hk
    · rw [Function.update_of_ne hkb] at hk
      exact ih hk (ha.of_append_other (Ne.symm hkb))
  | @exit log held e b _ hb _ _ ih =>
    by_cases hkb : k = kind.key b
    · rw [ha.eq_of_append hkb.symm]
      exact hb
    · rw [Function.update_of_ne hkb] at hk
      exact ih hk (ha.of_append_other (Ne.symm hkb))

omit [DecidableEq K] in
/-- A place in a log with one more item is that item's or one in the log. -/
theorem eq_or_split_of_append {log pre post : List A} {a b : A} (h : log ++ [b] = pre ++ a :: post) :
    (log = pre ∧ b = a) ∨ ∃ post', log = pre ++ a :: post' := by
  rcases List.eq_nil_or_concat post with rfl | ⟨post, c, rfl⟩
  · exact .inl ⟨List.append_inj_left' h rfl, by simpa using List.append_inj_right' h rfl⟩
  · rw [List.concat_eq_append, ← List.cons_append, ← List.append_assoc] at h
    exact .inr ⟨post, List.append_inj_left' h rfl⟩

/-- Every beginning of a ledger is a ledger, and its next item is an entry or an exit of it. -/
theorem split {log : List A} {held : K → Option A} (h : Ledger kind log held) {pre post : List A} {a : A}
    (hlog : log = pre ++ a :: post) :
    ∃ held, Ledger kind pre held ∧
      (kind.isEntry a = true ∧ held (kind.key a) = none ∨
        kind.isEntry a = false ∧ ∃ e, held (kind.key a) = some e ∧ kind.fits e a) := by
  induction h generalizing post with
  | nil => simp at hlog
  | @entry log held b hl hb hnone ih =>
    rcases eq_or_split_of_append hlog with ⟨rfl, rfl⟩ | ⟨post', hl'⟩
    · exact ⟨held, hl, .inl ⟨hb, hnone⟩⟩
    · exact ih hl'
  | @exit log held e b hl hb hsome hfit ih =>
    rcases eq_or_split_of_append hlog with ⟨rfl, rfl⟩ | ⟨post', hl'⟩
    · exact ⟨held, hl, .inr ⟨hb, e, hsome, hfit⟩⟩
    · exact ih hl'

/-- No entry is made over an entry. -/
theorem entry_fresh {log : List A} {held : K → Option A} (h : Ledger kind log held) {pre post : List A} {a b : A}
    (hlog : log = pre ++ a :: post) (ha : kind.isEntry a = true) (hb : LastUnder kind (kind.key a) pre b) :
    kind.isEntry b = false := by
  obtain ⟨held', hpre, ⟨_, hnone⟩ | ⟨ha', _⟩⟩ := h.split hlog
  · exact hpre.held_none hnone hb
  · rw [ha] at ha'
    cases ha'

/-- `m` takes the position of every exit to an earlier one, that of its entry, and no two exits to the same. -/
structure Matching (kind : LedgerKind K A) (log : List A) (m : Nat → Nat) : Prop where
  exit : ∀ j a, log[j]? = some a → kind.isEntry a = false →
    m j < j ∧ ∃ e, log[m j]? = some e ∧ kind.isEntry e = true ∧ kind.key e = kind.key a ∧ kind.fits e a
  injective : ∀ i j a b, log[i]? = some a → log[j]? = some b → kind.isEntry a = false → kind.isEntry b = false →
    m i = m j → i = j

theorem getElem?_append_one {log : List A} {a b : A} {j : Nat} :
    (log ++ [a])[j]? = some b ↔ log[j]? = some b ∨ j = log.length ∧ a = b := by
  rcases Nat.lt_trichotomy j log.length with hj | rfl | hj
  · simp [List.getElem?_append_left hj, Nat.ne_of_lt hj]
  · simp
  · have hj' : (log ++ [a]).length ≤ j := by rwa [List.length_append, List.length_singleton]
    simp only [List.getElem?_eq_none hj', List.getElem?_eq_none (Nat.le_of_lt hj), Nat.ne_of_gt hj, reduceCtorEq, false_and,
      or_self]

/-- A matching, and what the keys hold is matched with none. -/
structure Matched (kind : LedgerKind K A) (log : List A) (held : K → Option A) (m : Nat → Nat) : Prop where
  matching : Matching kind log m
  free : ∀ k e, held k = some e → ∃ p, log[p]? = some e ∧ ∀ j a, log[j]? = some a → kind.isEntry a = false → m j ≠ p

/-- An entry is matched with none. -/
theorem Matched.entry {log : List A} {held : K → Option A} {m : Nat → Nat} {a : A} (h : Matched kind log held m)
    (ha : kind.isEntry a = true) : Matched kind (log ++ [a]) (Function.update held (kind.key a) (some a)) m := by
  -- the exits are those of the log before
  have hexit : ∀ (j : Nat) (b : A), (log ++ [a])[j]? = some b → kind.isEntry b = false → log[j]? = some b := by
    intro j b hb hbe
    rcases getElem?_append_one.mp hb with hb | ⟨_, rfl⟩
    · exact hb
    · rw [ha] at hbe
      cases hbe
  constructor
  · constructor
    · intro j b hb hbe
      obtain ⟨hlt, e, he, hrest⟩ := h.matching.exit j b (hexit j b hb hbe) hbe
      exact ⟨hlt, e, getElem?_append_one.mpr (.inl he), hrest⟩
    · intro i j b c hb hc hbe hce
      exact h.matching.injective i j b c (hexit i b hb hbe) (hexit j c hc hce) hbe hce
  · intro k e he
    by_cases hk : k = kind.key a
    · subst hk
      rw [Function.update_self, Option.some.injEq] at he
      refine ⟨log.length, getElem?_append_one.mpr (.inr ⟨rfl, he⟩), ?_⟩
      intro j b hb hbe hj
      have hb' := hexit j b hb hbe
      have hlt := (h.matching.exit j b hb' hbe).1
      have hjl := (List.getElem?_eq_some_iff.mp hb').1
      omega
    · rw [Function.update_of_ne hk] at he
      obtain ⟨p, hp, hne⟩ := h.free k e he
      refine ⟨p, getElem?_append_one.mpr (.inl hp), ?_⟩
      intro j b hb hbe
      exact hne j b (hexit j b hb hbe) hbe

/-- An exit is matched with the entry that its key held. -/
theorem Matched.exit {log : List A} {held : K → Option A} {m : Nat → Nat} {e a : A} (h : Matched kind log held m)
    (hl : Ledger kind log held) (he : held (kind.key a) = some e) (hfit : kind.fits e a) :
    ∃ m', Matched kind (log ++ [a]) (Function.update held (kind.key a) none) m' := by
  obtain ⟨p, hp, hpfree⟩ := h.free _ e he
  have hplt : p < log.length := (List.getElem?_eq_some_iff.mp hp).1
  have hm : ∀ (j : Nat) (b : A), log[j]? = some b → Function.update m log.length p j = m j := by
    intro j b hb
    exact Function.update_of_ne (Nat.ne_of_lt (List.getElem?_eq_some_iff.mp hb).1) _ _
  refine ⟨Function.update m log.length p, ⟨?_, ?_⟩, ?_⟩
  · intro j b hb hbe
    rcases getElem?_append_one.mp hb with hb | ⟨rfl, rfl⟩
    · obtain ⟨hlt, e', he', hrest⟩ := h.matching.exit j b hb hbe
      rw [hm j b hb]
      exact ⟨hlt, e', getElem?_append_one.mpr (.inl he'), hrest⟩
    · rw [Function.update_self]
      have hheld := hl.held_some he
      exact ⟨hplt, e, getElem?_append_one.mpr (.inl hp), hheld.1, hheld.2.key_eq, hfit⟩
  · intro i j b c hb hc hbe hce hij
    rcases getElem?_append_one.mp hb with hb | ⟨rfl, rfl⟩ <;> rcases getElem?_append_one.mp hc with hc | ⟨rfl, rfl⟩
    · rw [hm i b hb, hm j c hc] at hij
      exact h.matching.injective i j b c hb hc hbe hce hij
    · rw [hm i b hb, Function.update_self] at hij
      exact absurd hij (hpfree i b hb hbe)
    · rw [hm j c hc, Function.update_self] at hij
      exact absurd hij.symm (hpfree j c hc hce)
    · rfl
  · intro k e' he'
    have hk : k ≠ kind.key a := by
      rintro rfl
      rw [Function.update_self] at he'
      cases he'
    rw [Function.update_of_ne hk] at he'
    obtain ⟨p', hp', hfree⟩ := h.free k e' he'
    refine ⟨p', getElem?_append_one.mpr (.inl hp'), ?_⟩
    intro j b hb hbe
    rcases getElem?_append_one.mp hb with hb | ⟨rfl, rfl⟩
    · rw [hm j b hb]
      exact hfree j b hb hbe
    · rw [Function.update_self]
      rintro rfl
      -- the two keys hold entries of their own
      obtain rfl : e = e' := Option.some.inj (hp.symm.trans hp')
      exact hk ((hl.held_some he').2.key_eq.symm.trans (hl.held_some he).2.key_eq)

/-- The exits of a ledger are matched with its entries. -/
theorem exists_matched {log : List A} {held : K → Option A} (h : Ledger kind log held) : ∃ m, Matched kind log held m := by
  induction h with
  | nil => exact ⟨id, ⟨by simp, by simp⟩, nofun⟩
  | entry _ ha _ ih =>
    obtain ⟨m, hm⟩ := ih
    exact ⟨m, hm.entry ha⟩
  | exit hl _ he hfit ih =>
    obtain ⟨m, hm⟩ := ih
    exact hm.exit hl he hfit

end Ledger
end MtossBot

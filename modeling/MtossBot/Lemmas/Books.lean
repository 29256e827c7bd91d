import MtossBot.Lemmas.TradeRuns
import MtossBot.Library.Ledger
import MtossBot.Strategies.UtBot.Backtest

/-!
# The books of the simulator

The simulator keeps three books beside the trade state: brackets, open entries and queued orders. `Books` says how they agree; each
phase of a bar keeps it, with the roles that are on their way out (`closing`) as a parameter. `Logs` says the same of the fills.
-/

namespace MtossBot

variable {D : Type}

/-! ## Open tranches -/

/-- The tranche of a role, if it is open. -/
def TradeState.openTranche (s : TradeState D) (role : TrancheRole) : Option (Tranche D) :=
  (s.tranche role).filter fun t => t.state = .OPEN

namespace TradeState

variable {s : TradeState D} {role : TrancheRole}

/-- A role finds its open tranche. -/
theorem Paired.openTranche_iff (h : s.Paired) {t : Tranche D} :
    s.openTranche role = some t ↔ t ∈ s.tranches ∧ t.role = role ∧ t.state = .OPEN := by
  simp only [openTranche, Option.filter_eq_some_iff, h.tranche_iff, decide_eq_true_eq, and_assoc]

/-- Where no tranche is open none is found. -/
theorem Paired.openTranche_eq_none (h : s.Paired) (hno : ∀ t ∈ s.tranches, t.state ≠ .OPEN) : s.openTranche role = none := by
  refine Option.eq_none_iff_forall_not_mem.mpr ?_
  intro t ht
  obtain ⟨hmem, _, ho⟩ := h.openTranche_iff.mp ht
  exact hno t hmem ho

/-- A tranche is found updated where the update applies to it. -/
theorem tranche_updateWhere (p : Tranche D → Bool) (f : Tranche D → Tranche D) (hf : ∀ t, (f t).role = t.role) :
    (s.updateWhere p f).tranche role = (s.tranche role).map fun t => if p t then f t else t := by
  have hrole : (fun item : Tranche D => decide (item.role = role)) ∘ (fun t => if p t then f t else t) =
      fun item => decide (item.role = role) := by
    funext t
    cases hp : p t <;> simp [hp, hf]
  rw [tranche, updateWhere, List.find?_map, hrole]
  rfl

/-- Rewriting where a role is changes the open tranche of that role only. -/
theorem openTranche_updateWhere_role {r : TrancheRole} (f : Tranche D → Tranche D) (hf : ∀ t, (f t).role = t.role) :
    (s.updateWhere (fun u => u.role = r) f).openTranche role =
      if role = r then ((s.tranche r).map f).filter (fun t => t.state = .OPEN) else s.openTranche role := by
  rw [openTranche, tranche_updateWhere _ f hf]
  cases ht : s.tranche role with
  | none =>
    by_cases hr : role = r
    · simp [← hr, ht]
    · simp [hr, openTranche, ht]
  | some t =>
    have htr := (tranche_eq_some ht).2
    by_cases hr : role = r
    · subst hr
      simp [ht, htr]
    · simp [hr, htr, openTranche, ht]

/-- Closing the tranche of a role. -/
theorem openTranche_closed {r : TrancheRole} {reason : CloseReason} :
    (s.updateWhere (fun u => u.role = r) (·.closed reason)).openTranche role =
      if role = r then none else s.openTranche role := by
  rw [openTranche_updateWhere_role (·.closed reason) fun _ => rfl]
  congr 1
  cases s.tranche r <;> rfl

end TradeState

/-! ## Brackets and open entries -/

/-- A bracket has the data of its tranche. -/
structure Attached (t : Tranche D) (b : _Bracket D) : Prop where
  role : b.role = t.role
  side : b.side = t.side
  quantity : t.quantity = some b.quantity
  stop_loss : t.stop_loss = some b.stop_loss
  take_profit : b.take_profit = t.take_profit
  breakeven : b.breakeven = t.breakeven_moved

/-- The books agree: brackets are on the open tranches and have their data, and the open entries are those of the open tranches and
of the tranches that are being closed. -/
structure Books (s : TradeState D) (brackets : Dict TrancheRole (_Bracket D))
    (entries : Dict TrancheRole (BacktestFill D)) (closing : List TrancheRole) : Prop where
  wf : s.Wf
  brackets : ∀ role, Option.Rel Attached (s.openTranche role) (brackets.get? role)
  entries : ∀ role, (entries.get? role).isSome ↔ (s.openTranche role).isSome ∨ role ∈ closing
  not_open : ∀ role ∈ closing, s.openTranche role = none
  nodup : closing.Nodup

/-- The brackets of erased roles are gone, and the others stay. -/
theorem get?_foldl_erase {V : Type} (roles : List TrancheRole) (d : Dict TrancheRole V) (role : TrancheRole) :
    (roles.foldl Dict.erase d).get? role = if role ∈ roles then none else d.get? role := by
  induction roles generalizing d with
  | nil => simp
  | cons r roles ih =>
    rw [List.foldl_cons, ih, Dict.get?_erase]
    by_cases hr : role = r
    · simp [hr]
    · simp [hr]

namespace Books

variable {s s' : TradeState D} {brackets : Dict TrancheRole (_Bracket D)} {entries : Dict TrancheRole (BacktestFill D)}
  {closing : List TrancheRole}

/-- Without an open tranche there is no bracket. -/
theorem bracket_none (h : Books s brackets entries closing) {role : TrancheRole} (hr : s.openTranche role = none) :
    brackets.get? role = none := by
  have hb := h.brackets role
  rw [hr] at hb
  cases hget : brackets.get? role with
  | none => rfl
  | some b =>
    rw [hget] at hb
    cases hb

/-- An open tranche has its bracket. -/
theorem bracket_some (h : Books s brackets entries closing) {role : TrancheRole} {t : Tranche D}
    (hr : s.openTranche role = some t) : ∃ b, brackets.get? role = some b ∧ Attached t b := by
  have hb := h.brackets role
  rw [hr] at hb
  cases hget : brackets.get? role with
  | none =>
    rw [hget] at hb
    cases hb
  | some b =>
    rw [hget] at hb
    cases hb with
    | some ha => exact ⟨b, rfl, ha⟩

/-- A state with the same open tranches. -/
theorem congr (h : Books s brackets entries closing) (hw : s'.Wf) (hs : ∀ role, s'.openTranche role = s.openTranche role) :
    Books s' brackets entries closing :=
  ⟨hw, fun role => by rw [hs]; exact h.brackets role, fun role => by rw [hs]; exact h.entries role,
    fun role hr => by rw [hs]; exact h.not_open role hr, h.nodup⟩

/-- Open tranches are closed: their brackets go, their entries stay until the close is filled. -/
theorem close (h : Books s brackets entries closing) {roles : List TrancheRole} (hw : s'.Wf) (hnd : roles.Nodup)
    (hopen : ∀ r ∈ roles, (s.openTranche r).isSome)
    (hs : ∀ r, s'.openTranche r = if r ∈ roles then none else s.openTranche r) :
    Books s' (roles.foldl Dict.erase brackets) entries (closing ++ roles) := by
  have hdisj : ∀ r ∈ roles, r ∉ closing := by
    intro r hr hc
    have ho := hopen r hr
    rw [h.not_open r hc] at ho
    cases ho
  refine ⟨hw, ?_, ?_, ?_, ?_⟩
  · intro role
    rw [hs, get?_foldl_erase]
    split
    · exact .none
    · exact h.brackets role
  · intro role
    rw [h.entries, hs, List.mem_append]
    by_cases hr : role ∈ roles
    · simp [hr, hopen role hr]
    · simp [hr]
  · intro role hr
    rw [hs]
    split
    · rfl
    · rename_i hno
      exact h.not_open role ((List.mem_append.mp hr).resolve_right hno)
  · exact List.nodup_append.mpr ⟨h.nodup, hnd, fun a ha b hb hab => hdisj b hb (hab ▸ ha)⟩

end Books

/-! ## Registering actions -/

/-- Actions are registered one part after the other. -/
theorem register_append (s : TradeState D) (index : Nat) (l l' : List (TradeAction D))
    (b : Dict TrancheRole (_Bracket D)) :
    _register_brackets s index (l ++ l') b =
      ((_register_brackets s index l' (_register_brackets s index l b).1).1,
        (_register_brackets s index l b).2 ++ (_register_brackets s index l' (_register_brackets s index l b).1).2) := by
  induction l generalizing b with
  | nil => rfl
  | cons a l ih =>
    cases hk : a.kind with
    | SET_BRACKETS =>
      simp only [List.cons_append, _register_brackets, hk]
      split
      · split <;> exact ih _
      · exact ih _
    | MOVE_STOP =>
      simp only [List.cons_append, _register_brackets, hk]
      split <;> exact ih _
    | CLOSE => simp only [List.cons_append, _register_brackets, hk, ih]
    | OPEN => simp only [List.cons_append, _register_brackets, hk, ih]

/-- Closing actions erase the brackets of their roles and are passed on. -/
theorem register_closes (s : TradeState D) (index : Nat) {l : List (TradeAction D)} (hl : ∀ a ∈ l, a.kind = .CLOSE)
    (b : Dict TrancheRole (_Bracket D)) :
    _register_brackets s index l b = ((l.map TradeAction.role).foldl Dict.erase b, l) := by
  induction l generalizing b with
  | nil => rfl
  | cons a l ih =>
    simp only [_register_brackets, hl a (by simp), ih fun c hc => hl c (by simp [hc]), List.map_cons, List.foldl_cons]

/-- Opening actions are passed on. -/
theorem register_opens (s : TradeState D) (index : Nat) {l : List (TradeAction D)} (hl : ∀ a ∈ l, a.kind = .OPEN)
    (b : Dict TrancheRole (_Bracket D)) : _register_brackets s index l b = (b, l) := by
  induction l with
  | nil => rfl
  | cons a l ih => simp only [_register_brackets, hl a (by simp), ih fun c hc => hl c (by simp [hc])]

/-! ## The bar close -/

/-- No tranche waits to be entered. -/
def NoPending (s : TradeState D) : Prop := ∀ t ∈ s.tranches, t.state ≠ .PENDING_ENTRY

section BarClose

variable [PyDecimal D]

omit [PyDecimal D] in
/-- A trade that continues has no new pending entry. -/
theorem NoPending.continues {s s' : TradeState D} (h : NoPending s) (hc : Continues s s') : NoPending s' := by
  intro t' ht' hp
  obtain ⟨t, ht, he⟩ := hc t' ht'
  rw [(evolves_keeps he).2.2.2.2 hp] at hp
  exact h t ht hp

omit [PyDecimal D] in
/-- In a state that waits to be entered nothing is open. -/
theorem entering_openTranche (side : OrderSide) (stop close : D) (role : TrancheRole) :
    (entering side stop close).openTranche role = none :=
  (wf_entering side stop close).paired.openTranche_eq_none fun t ht => by
    simp only [entering, List.mem_cons, List.not_mem_nil, or_false] at ht
    rcases ht with rfl | rfl <;> simp [pendingTranche]

namespace Books

variable {s : TradeState D} {brackets : Dict TrancheRole (_Bracket D)} {entries : Dict TrancheRole (BacktestFill D)}
  {closing : List TrancheRole}

omit [PyDecimal D] in
/-- A tranche that is found and open is the open tranche. -/
theorem openTranche_of_tranche {role : TrancheRole} {t : Tranche D} (ht : s.tranche role = some t) (ho : t.state = .OPEN) :
    s.openTranche role = some t := by
  simp [TradeState.openTranche, ht, ho]

/-- The breakeven move keeps the books: the bracket moves with the stop. -/
theorem apply_breakeven (h : Books s brackets entries closing) (bar : Bar D) (signal : BarSignal D) (s₀ : TradeState D)
    (index : Nat) :
    ∃ brackets', _register_brackets s₀ index (_apply_breakeven s bar signal).2 brackets = (brackets', []) ∧
      Books (_apply_breakeven s bar signal).1 brackets' entries closing := by
  have hw := wf_apply_breakeven h.wf bar signal
  rcases _apply_breakeven_cases h.wf.paired bar signal with he | ⟨runner, entry, hr, ho, _, hp, he⟩
  · rw [he]
    exact ⟨brackets, rfl, h⟩
  · rw [he] at hw ⊢
    obtain ⟨b, hb, ha⟩ := h.bracket_some (openTranche_of_tranche hr ho)
    have hopen : ∀ role, (s.updateWhere (fun t => t.role = .T2) Tranche.atBreakeven).openTranche role =
        if role = .T2 then some runner.atBreakeven else s.openTranche role := by
      intro role
      have hfilter : (some runner.atBreakeven).filter (fun t => t.state = .OPEN) = some runner.atBreakeven := by
        simp [Tranche.atBreakeven, ho]
      rw [TradeState.openTranche_updateWhere_role Tranche.atBreakeven fun _ => rfl, hr, Option.map_some, hfilter]
    refine ⟨brackets.set .T2 { b with stop_loss := entry, breakeven := true, active_from := index + 1 }, ?_, hw,
      fun role => ?_, fun role => ?_, fun role hrole => ?_, h.nodup⟩
    · simp only [_register_brackets, hb]
    · rw [hopen, Dict.get?_set]
      split
      · exact .some ⟨ha.role, ha.side, ha.quantity, by simp [Tranche.atBreakeven, hp], ha.take_profit, rfl⟩
      · exact h.brackets role
    · rw [h.entries, hopen]
      by_cases hrole : role = .T2
      · simp [hrole, openTranche_of_tranche hr ho]
      · simp [hrole]
    · have hnot := h.not_open role hrole
      rw [hopen, if_neg]
      · exact hnot
      · rintro rfl
        rw [openTranche_of_tranche hr ho] at hnot
        cases hnot

/-- The Hull exit keeps the books: the runner's role is being closed. -/
theorem apply_hull_exit (h : Books s brackets entries closing) (signal : BarSignal D) (config : UtBotConfig D)
    (s₀ : TradeState D) (index : Nat) :
    ∃ brackets' closes, _register_brackets s₀ index (_apply_hull_exit s signal config).2 brackets = (brackets', closes) ∧
      (∀ a ∈ closes, a.kind = .CLOSE) ∧
      Books (_apply_hull_exit s signal config).1 brackets' entries (closing ++ closes.map TradeAction.role) := by
  have hw := wf_apply_hull_exit h.wf signal config
  rcases _apply_hull_exit_cases h.wf.paired signal config with he | ⟨runner, hr, ho, he⟩
  · rw [he]
    exact ⟨brackets, [], rfl, by simp, by simpa using h⟩
  · rw [he] at hw ⊢
    have hkind : ∀ a ∈ [runner.closeAction .HULL_FLIP], a.kind = .CLOSE := by simp [Tranche.closeAction]
    have hrole : [runner.closeAction .HULL_FLIP].map TradeAction.role = [.T2] := by
      simp [Tranche.closeAction, (TradeState.tranche_eq_some hr).2]
    refine ⟨_, _, register_closes s₀ index hkind brackets, hkind, ?_⟩
    rw [hrole]
    refine h.close hw (by simp) ?_ ?_
    · intro r hr'
      rw [List.mem_singleton.mp hr', openTranche_of_tranche hr ho]
      rfl
    · intro r
      rw [TradeState.openTranche_closed]
      simp

omit [PyDecimal D] in
/-- A reversal keeps the books: the roles of the other side are being closed. -/
theorem reversed (h : Books s brackets entries closing) (hn : NoPending s) (side : OrderSide) :
    Books (reversed s side).1 (((reversed s side).2.map TradeAction.role).foldl Dict.erase brackets) entries
      (closing ++ (reversed s side).2.map TradeAction.role) := by
  have hroles : (MtossBot.reversed s side).2.map TradeAction.role =
      (s.tranches.filter (·.opposes side)).map Tranche.role := by
    rw [MtossBot.reversed, List.map_map]
    rfl
  have hmem : ∀ r, r ∈ (s.tranches.filter (·.opposes side)).map Tranche.role ↔
      ∃ t, s.openTranche r = some t ∧ t.opposes side = true := by
    intro r
    simp only [List.mem_map, List.mem_filter, h.wf.paired.openTranche_iff]
    constructor
    · rintro ⟨t, ⟨ht, hopp⟩, hr⟩
      have hlive := Tranche.live_of_opposes hopp
      have hopen : t.state = .OPEN := by
        have := hn t ht
        cases hs : t.state <;> simp_all [Tranche.live]
      exact ⟨t, ⟨ht, hr, hopen⟩, hopp⟩
    · rintro ⟨t, ⟨ht, hr, _⟩, hopp⟩
      exact ⟨t, ⟨ht, hopp⟩, hr⟩
  rw [hroles]
  refine h.close (wf_reversed h.wf side) ?_ ?_ ?_
  · rcases h.wf.paired with hp | ⟨a, b, hp, ha, hb⟩
    · simp [hp]
    · rw [hp]
      cases hpa : a.opposes side <;> cases hpb : b.opposes side <;> simp [hpa, hpb, ha, hb]
  · intro r hr
    obtain ⟨t, ht, _⟩ := (hmem r).mp hr
    rw [ht]
    rfl
  · intro r
    simp only [hmem]
    rw [MtossBot.reversed, TradeState.openTranche,
      TradeState.tranche_updateWhere (·.opposes side) (·.closed .REVERSAL) fun _ => rfl]
    cases ht : s.tranche r with
    | none => simp [TradeState.openTranche, ht]
    | some t =>
      by_cases ho : t.state = .OPEN
      · rw [openTranche_of_tranche ht ho]
        cases hopp : t.opposes side <;> simp [hopp, ho, Tranche.closed]
      · have hno : s.openTranche r = none := by simp [TradeState.openTranche, ht, ho]
        cases hopp : t.opposes side <;> simp [hno, hopp, ho, Tranche.closed]

/-- A signal keeps the books, and enters a trade only from a state with nothing live. -/
theorem apply_signal (h : Books s brackets entries closing) (hn : NoPending s) (bar : Bar D) (signal : BarSignal D)
    (s₀ : TradeState D) (index : Nat) :
    ∃ brackets' closes opens, _register_brackets s₀ index (_apply_signal s bar signal).2 brackets =
        (brackets', closes ++ opens) ∧ (∀ a ∈ closes, a.kind = .CLOSE) ∧
      Books (_apply_signal s bar signal).1 brackets' entries (closing ++ closes.map TradeAction.role) ∧
      (opens = [] ∧ NoPending (_apply_signal s bar signal).1 ∨
        ∃ side stop, opens = [openAction side .T1, openAction side .T2] ∧
          (_apply_signal s bar signal).1 = entering side stop bar.close) := by
  have hkind : ∀ side, ∀ a ∈ (MtossBot.reversed s side).2, a.kind = .CLOSE := by
    intro side a ha
    obtain ⟨t, _, rfl⟩ := List.mem_map.mp ha
    rfl
  rcases _apply_signal_cases h.wf.paired bar signal with ⟨_, he⟩ | ⟨side, _, _, he | ⟨stop, _, hflat, he⟩⟩
  · rw [he]
    exact ⟨brackets, [], [], rfl, by simp, by simpa using h, .inl ⟨rfl, hn⟩⟩
  · rw [he]
    refine ⟨_, _, [], ?_, hkind side, h.reversed hn side, .inl ⟨rfl, hn.continues (continues_reversed s side)⟩⟩
    rw [List.append_nil]
    exact register_closes s₀ index (hkind side) brackets
  · rw [he]
    have hopens : ∀ a ∈ [openAction (D := D) side .T1, openAction side .T2], a.kind = .OPEN := by simp [openAction]
    refine ⟨_, _, _, ?_, hkind side, (h.reversed hn side).congr (wf_entering side stop bar.close) fun role => ?_,
      .inr ⟨side, stop, rfl, rfl⟩⟩
    · rw [register_append, register_closes s₀ index (hkind side), register_opens s₀ index hopens]
    · rw [entering_openTranche]
      refine ((wf_reversed h.wf side).paired.openTranche_eq_none ?_).symm
      intro t ht ho
      have hlive := is_flat_iff.mp hflat t ht
      simp [Tranche.live, ho] at hlive

/-- The bar close keeps the books: closes are queued before entries, and entries only with both tranches waiting for them. -/
theorem on_bar_close (h : Books s brackets entries closing) (hn : NoPending s) (bar : Bar D) (signal : BarSignal D)
    (config : UtBotConfig D) (index : Nat) :
    ∃ brackets' closes opens,
      _register_brackets (on_bar_close s bar signal config).state index (on_bar_close s bar signal config).actions brackets =
        (brackets', closes ++ opens) ∧ (∀ a ∈ closes, a.kind = .CLOSE) ∧
      Books (on_bar_close s bar signal config).state brackets' entries (closing ++ closes.map TradeAction.role) ∧
      (opens = [] ∧ NoPending (on_bar_close s bar signal config).state ∨
        ∃ side stop, opens = [openAction side .T1, openAction side .T2] ∧
          (on_bar_close s bar signal config).state = entering side stop bar.close) := by
  simp only [MtossBot.on_bar_close]
  generalize hfinal : (_apply_signal (_apply_hull_exit (_apply_breakeven s bar signal).1 signal config).1 bar signal).1 = s₃
  have hn₁ := hn.continues (continues_apply_breakeven h.wf.paired bar signal)
  obtain ⟨b₁, hreg₁, h₁⟩ := h.apply_breakeven bar signal s₃ index
  have hn₂ := hn₁.continues (continues_apply_hull_exit h₁.wf.paired signal config)
  obtain ⟨b₂, c₂, hreg₂, hk₂, h₂⟩ := h₁.apply_hull_exit signal config s₃ index
  obtain ⟨b₃, c₃, opens, hreg₃, hk₃, h₃, hopens⟩ := h₂.apply_signal hn₂ bar signal s₃ index
  rw [hfinal] at h₃ hopens
  refine ⟨b₃, c₂ ++ c₃, opens, ?_, ?_, ?_, hopens⟩
  · rw [register_append, register_append, hreg₁, hreg₂, hreg₃, List.nil_append, List.append_assoc]
  · intro a ha
    exact (List.mem_append.mp ha).elim (hk₂ a) (hk₃ a)
  · rw [List.map_append, ← List.append_assoc]
    exact h₃

end Books

end BarClose

end MtossBot

import MtossBot.Lemmas.TradeRuns

/-!
# When a finished trade leaves the initial state

`flatten_if_done` starts a state over once every tranche is closed. A fill that is given up and a close at the broker end with it;
a bar close does not, though the Hull exit and the reversal may close the last live tranche.
-/

namespace MtossBot

variable {D : Type} [PyDecimal D]

/-- The initial state, or a state with a tranche that is not closed. -/
def Settled (s : TradeState D) : Prop :=
  s = {} ∨ ∃ t ∈ s.tranches, t.state = .PENDING_ENTRY ∨ t.state = .OPEN

/-- The bar reaches the target of the first tranche, after the bar of the runner's entry. -/
def BreaksEven (s : TradeState D) (bar : Bar D) (signal : BarSignal D) (runner : Tranche D) : Prop :=
  ∃ fixed take_profit entry_bar_index, s.tranche .T1 = some fixed ∧ fixed.take_profit = some take_profit ∧
    runner.entry_price.isSome = true ∧ runner.entry_bar_index = some entry_bar_index ∧ entry_bar_index < signal.index ∧
    _touched runner.side take_profit bar = true

/-- The Hull exit applies to an open runner, given whether its stop has been moved. -/
def HullExits (signal : BarSignal D) (config : UtBotConfig D) (moved : Prop) (t : Tranche D) : Prop :=
  t.role = .T2 ∧ t.state = .OPEN ∧ config.use_hull_exit = true ∧ (config.only_after_be = true → moved) ∧
    signal.flipped t.side = true

/-- The bar close closes a live tranche: by the Hull exit, or because the signal is on the other side. -/
def BarCloses (s : TradeState D) (bar : Bar D) (signal : BarSignal D) (config : UtBotConfig D) (t : Tranche D) : Prop :=
  HullExits signal config (t.breakeven_moved = true ∨ BreaksEven s bar signal t) t ∨
    ∃ side stop, signal.entry = some (side, stop) ∧ t.side ≠ side

/-- A call after which the last live tranche is not closed without a reset: a bar close finds no trade, leaves a live tranche, or
enters a new trade. -/
def TradeCall.Keeps (s : TradeState D) : TradeCall D → Prop
  | bar_close bar signal config =>
    s.tranches = [] ∨ (∃ t ∈ s.tranches, t.state ≠ .CLOSED ∧ ¬ BarCloses s bar signal config t) ∨
      ∃ side stop, signal.entry = some (side, some stop)
  | _ => True

namespace TradeResetAux

omit [PyDecimal D] in
theorem live_iff {t : Tranche D} : t.live = true ↔ t.state = .PENDING_ENTRY ∨ t.state = .OPEN := by
  cases h : t.state <;> simp [Tranche.live, h]

omit [PyDecimal D] in
theorem settled_iff {s : TradeState D} : Settled s ↔ s = {} ∨ ∃ t ∈ s.tranches, t.live = true := by
  simp only [Settled, live_iff]

omit [PyDecimal D] in
/-- A state that may have started over is settled. -/
theorem settled_flatten (s : TradeState D) : Settled (flatten_if_done s) := by
  unfold flatten_if_done
  cases hflat : s.is_flat with
  | true => exact .inl rfl
  | false =>
    rw [if_neg (by simp), settled_iff]
    right
    by_contra hno
    push Not at hno
    have hflat' : s.is_flat = true := is_flat_iff.mpr fun t ht => by simpa using hno t ht
    rw [hflat] at hflat'
    cases hflat'

/-! ### The bar close, function by function -/

omit [PyDecimal D] in
/-- The second tranche is the runner. -/
theorem eq_runner {s : TradeState D} (h : s.Paired) {runner t : Tranche D} (hr : s.tranche .T2 = some runner) (ht : t ∈ s.tranches)
    (htr : t.role = .T2) : t = runner :=
  Option.some.inj ((h.tranche_iff.mpr ⟨ht, htr⟩).symm.trans hr)

/-- The breakeven move does nothing unless the runner breaks even, or has done so; else it moves the runner's stop. -/
theorem breakeven_cases {s : TradeState D} (h : s.Paired) (bar : Bar D) (signal : BarSignal D) :
    (_apply_breakeven s bar signal).1 = s ∧
        (∀ t ∈ s.tranches, t.role = .T2 → t.state = .OPEN → BreaksEven s bar signal t → t.breakeven_moved = true) ∨
      ∃ runner entry_price, s.tranche .T2 = some runner ∧ BreaksEven s bar signal runner ∧
        (_apply_breakeven s bar signal).1.tranches = s.tranches.map fun t =>
          if t.role = .T2 then { runner with stop_loss := some entry_price, breakeven_moved := true } else t := by
  unfold _apply_breakeven
  split
  · rename_i runner fixed hr hf
    split
    · rename_i hstate
      refine .inl ⟨rfl, ?_⟩
      intro t ht htr ho _
      obtain rfl := eq_runner h hr ht htr
      simpa [ho] using hstate
    · split
      · rename_i take_profit entry_price htake hentry
        split
        · rename_i hindex
          refine .inl ⟨rfl, ?_⟩
          intro t ht htr _ hb
          obtain rfl := eq_runner h hr ht htr
          obtain ⟨_, _, index, _, _, _, hi, hlt, _⟩ := hb
          simp only [hi, Option.all_some, decide_eq_true_eq] at hindex
          omega
        · rename_i hindex
          split
          · rename_i htouch
            refine .inl ⟨rfl, ?_⟩
            intro t ht htr _ hb
            obtain rfl := eq_runner h hr ht htr
            obtain ⟨fixed', price, _, hf', hp, _, _, _, ht⟩ := hb
            rw [hf] at hf'
            cases hf'
            rw [htake] at hp
            cases hp
            simp [ht] at htouch
          · rename_i htouch
            refine .inr ⟨runner, entry_price, hr, ?_, by simp only [_replace, (TradeState.tranche_eq_some hr).2]⟩
            cases hi : runner.entry_bar_index with
            | none => simp [hi] at hindex
            | some index =>
              simp only [hi, Option.all_some, decide_eq_true_eq, not_le] at hindex
              exact ⟨fixed, take_profit, index, hf, htake, by simp [hentry], hi, hindex, by simpa using htouch⟩
      · rename_i hprices
        refine .inl ⟨rfl, ?_⟩
        intro t ht htr _ hb
        obtain rfl := eq_runner h hr ht htr
        obtain ⟨fixed', price, _, hf', hp, he, _, _, _⟩ := hb
        rw [hf] at hf'
        cases hf'
        obtain ⟨entry_price, he⟩ := Option.isSome_iff_exists.mp he
        exact absurd he (hprices _ _ hp)
  · rename_i hmissing
    refine .inl ⟨rfl, ?_⟩
    intro t ht htr _ hb
    obtain ⟨fixed, _, _, hf, _⟩ := hb
    exact absurd hf (hmissing t fixed (h.tranche_iff.mpr ⟨ht, htr⟩))

/-- The breakeven move changes the runner only, and only its stop and its mark. -/
theorem breakeven_map {s : TradeState D} (h : s.Paired) (bar : Bar D) (signal : BarSignal D) :
    ∃ f : Tranche D → Tranche D, (_apply_breakeven s bar signal).1.tranches = s.tranches.map f ∧
      ∀ t ∈ s.tranches, (f t).role = t.role ∧ (f t).state = t.state ∧ (f t).side = t.side ∧
        (t.role = .T2 → t.state = .OPEN →
          ((f t).breakeven_moved = true ↔ t.breakeven_moved = true ∨ BreaksEven s bar signal t)) := by
  rcases breakeven_cases h bar signal with ⟨hsame, hmoved⟩ | ⟨runner, entry_price, hr, hb, hmap⟩
  · refine ⟨id, by simp [hsame], fun t ht => ⟨rfl, rfl, rfl, fun htr ho => ⟨.inl, ?_⟩⟩⟩
    rintro (hmark | hbreaks)
    · exact hmark
    · exact hmoved t ht htr ho hbreaks
  · refine ⟨_, hmap, ?_⟩
    intro t ht
    by_cases htr : t.role = .T2
    · obtain rfl := eq_runner h hr ht htr
      simp only [htr, if_true]
      exact ⟨trivial, trivial, trivial, fun _ _ => ⟨fun _ => .inr hb, fun _ => trivial⟩⟩
    · simp [htr]

/-- The Hull exit does nothing unless it applies to the runner; else it closes the runner. -/
theorem hull_exit_cases {s : TradeState D} (h : s.Paired) (signal : BarSignal D) (config : UtBotConfig D) :
    (_apply_hull_exit s signal config).1 = s ∧
        (∀ t ∈ s.tranches, ¬ HullExits signal config (t.breakeven_moved = true) t) ∨
      ∃ runner, s.tranche .T2 = some runner ∧ HullExits signal config (runner.breakeven_moved = true) runner ∧
        (_apply_hull_exit s signal config).1.tranches = s.tranches.map fun t =>
          if t.role = .T2 then runner.closed .HULL_FLIP else t := by
  unfold _apply_hull_exit
  split
  · rename_i hr
    refine .inl ⟨rfl, ?_⟩
    intro t ht hx
    rw [h.tranche_iff.mpr ⟨ht, hx.1⟩] at hr
    cases hr
  · rename_i runner hr
    split
    · rename_i hstate
      refine .inl ⟨rfl, ?_⟩
      intro t ht hx
      obtain rfl := eq_runner h hr ht hx.1
      exact hstate hx.2.1
    · rename_i hopen
      split
      · rename_i huse
        refine .inl ⟨rfl, ?_⟩
        intro t ht hx
        simp [hx.2.2.1] at huse
      · rename_i huse
        split
        · rename_i hbe
          refine .inl ⟨rfl, ?_⟩
          intro t ht hx
          obtain rfl := eq_runner h hr ht hx.1
          simp only [Bool.and_eq_true, Bool.not_eq_true'] at hbe
          have hmoved := hx.2.2.2.1 hbe.1
          rw [hbe.2] at hmoved
          cases hmoved
        · rename_i hbe
          split
          · rename_i hflip
            refine .inl ⟨rfl, ?_⟩
            intro t ht hx
            obtain rfl := eq_runner h hr ht hx.1
            simp [hx.2.2.2.2] at hflip
          · rename_i hflip
            have hrole := (TradeState.tranche_eq_some hr).2
            refine .inr ⟨runner, hr, ⟨hrole, not_not.mp hopen, by simpa using huse, ?_, by simpa using hflip⟩, ?_⟩
            · intro hafter
              simpa [hafter] using hbe
            · simp only [_replace, Tranche.closed, hrole]

/-- The Hull exit closes the runners it applies to. -/
theorem hull_exit_map {s : TradeState D} (h : s.Paired) (signal : BarSignal D) (config : UtBotConfig D) :
    ∃ f : Tranche D → Tranche D, (_apply_hull_exit s signal config).1.tranches = s.tranches.map f ∧
      ∀ t ∈ s.tranches, (f t).side = t.side ∧
        ((f t).live = true ↔ t.live = true ∧ ¬ HullExits signal config (t.breakeven_moved = true) t) := by
  rcases hull_exit_cases h signal config with ⟨hsame, hno⟩ | ⟨runner, hr, hx, hmap⟩
  · refine ⟨id, by simp [hsame], fun t ht => ⟨rfl, ?_⟩⟩
    simp [hno t ht]
  · refine ⟨_, hmap, ?_⟩
    intro t ht
    by_cases htr : t.role = .T2
    · obtain rfl := eq_runner h hr ht htr
      simp [htr, hx, Tranche.closed, Tranche.live]
    · have hother : ¬ HullExits signal config (t.breakeven_moved = true) t := fun hx => htr hx.1
      simp [htr, hother]

/-- What is live once the signal has been applied. -/
theorem signal_live {s : TradeState D} (h : s.Paired) (bar : Bar D) (signal : BarSignal D) :
    (∃ t ∈ (_apply_signal s bar signal).1.tranches, t.live = true) ↔
      (∃ t ∈ s.tranches, t.live = true ∧ ∀ side stop, signal.entry = some (side, stop) → t.side = side) ∨
        ∃ side stop, signal.entry = some (side, some stop) := by
  unfold _apply_signal
  cases hentry : signal.entry with
  | none => simp
  | some entry =>
    obtain ⟨side, pending_stop⟩ := entry
    have hrev : (∃ t ∈ (s.updateWhere (·.opposes side) (·.closed .REVERSAL)).tranches, t.live = true) ↔
        ∃ t ∈ s.tranches, t.live = true ∧ ∀ side' stop, some (side, pending_stop) = some (side', stop) → t.side = side' := by
      constructor
      · rintro ⟨t, ht, hl⟩
        obtain ⟨u, hu, rfl⟩ := TradeState.mem_updateWhere.mp ht
        cases hop : u.opposes side with
        | true => simp [hop, Tranche.closed, Tranche.live] at hl
        | false =>
          simp only [hop, Bool.false_eq_true, if_false] at hl
          refine ⟨u, hu, hl, ?_⟩
          intro side' stop heq
          cases heq
          simpa [Tranche.opposes, hl] using hop
      · rintro ⟨t, ht, hl, hside⟩
        have hop : t.opposes side = false := by simp [Tranche.opposes, hside side pending_stop rfl]
        exact ⟨t, TradeState.mem_updateWhere.mpr ⟨t, ht, by simp [hop]⟩, hl⟩
    simp only [closeReversed_live h]
    split
    · rename_i hlive
      rw [hrev]
      refine ⟨.inl, ?_⟩
      intro _
      rw [← hrev]
      by_contra hno
      push Not at hno
      have hflat : (s.updateWhere (·.opposes side) (·.closed .REVERSAL)).is_flat = true :=
        is_flat_iff.mpr fun t ht => by simpa using hno t ht
      simp [hflat] at hlive
    · cases pending_stop with
      | none =>
        rw [hrev]
        simp
      | some stop =>
        refine ⟨fun _ => .inr ⟨side, stop, rfl⟩, fun _ => ⟨pendingTranche side .T1, ?_, rfl⟩⟩
        simp

/-- What is live after a bar close: what the bar does not close, or a new trade. -/
theorem bar_close_live {s : TradeState D} (h : s.Wf) (bar : Bar D) (signal : BarSignal D) (config : UtBotConfig D) :
    (∃ t ∈ (on_bar_close s bar signal config).state.tranches, t.live = true) ↔
      (∃ t ∈ s.tranches, t.live = true ∧ ¬ BarCloses s bar signal config t) ∨
        ∃ side stop, signal.entry = some (side, some stop) := by
  have hb := wf_apply_breakeven h bar signal
  have hh := wf_apply_hull_exit hb signal config
  obtain ⟨f, hf, hfs⟩ := breakeven_map h.paired bar signal
  obtain ⟨g, hg, hgs⟩ := hull_exit_map hb.paired signal config
  refine (signal_live hh.paired bar signal).trans (or_congr_left ?_)
  -- the first two functions keep the sides, and together they close where the Hull exit applies
  have hstep : ∀ t ∈ s.tranches, (g (f t)).side = t.side ∧ ((g (f t)).live = true ↔
      t.live = true ∧ ¬ HullExits signal config (t.breakeven_moved = true ∨ BreaksEven s bar signal t) t) := by
    intro t ht
    obtain ⟨hrole, hstate, hside, hmoved⟩ := hfs t ht
    obtain ⟨hgside, hglive⟩ := hgs (f t) (hf ▸ List.mem_map_of_mem ht)
    refine ⟨hgside.trans hside, hglive.trans ?_⟩
    have hexits : HullExits signal config ((f t).breakeven_moved = true) (f t) ↔
        HullExits signal config (t.breakeven_moved = true ∨ BreaksEven s bar signal t) t := by
      simp only [HullExits, hrole, hstate, hside]
      refine and_congr_right fun hr => and_congr_right ?_
      intro ho
      rw [hmoved hr ho]
    rw [hexits, Tranche.live, Tranche.live, hstate]
  simp only [hg, hf, List.map_map, List.mem_map, exists_exists_and_eq_and, Function.comp_apply, BarCloses, not_or, not_exists,
    not_and, ne_eq, not_not]
  refine exists_congr fun t => and_congr_right ?_
  intro ht
  obtain ⟨hside, hlive⟩ := hstep t ht
  rw [hside, hlive, and_assoc]

/-- A bar close that enters no trade keeps the number of tranches, and leaves the initial state as it is. -/
theorem bar_close_cases {s : TradeState D} (h : s.Wf) (bar : Bar D) (signal : BarSignal D) (config : UtBotConfig D)
    (hno : ¬ ∃ side stop, signal.entry = some (side, some stop)) :
    (on_bar_close s bar signal config).state.tranches.length = s.tranches.length ∧
      (s = {} → (on_bar_close s bar signal config).state = {}) := by
  have hb := wf_apply_breakeven h bar signal
  have hh := wf_apply_hull_exit hb signal config
  obtain ⟨f, hf, _⟩ := breakeven_map h.paired bar signal
  obtain ⟨g, hg, _⟩ := hull_exit_map hb.paired signal config
  have hlen : (_apply_hull_exit (_apply_breakeven s bar signal).1 signal config).1.tranches.length = s.tranches.length := by
    rw [hg, hf, List.length_map, List.length_map]
  rcases _apply_signal_cases hh.paired bar signal with ⟨_, he⟩ | ⟨side, _, hentry, he | ⟨stop, rfl, _, _⟩⟩
  · refine ⟨by simpa only [on_bar_close, he] using hlen, ?_⟩
    rintro rfl
    simp only [on_bar_close, he]
    rfl
  · refine ⟨?_, ?_⟩
    · simp only [on_bar_close, he]
      simpa [reversed, TradeState.updateWhere] using hlen
    · rintro rfl
      simp only [on_bar_close, he]
      rfl
  · exact absurd ⟨side, stop, hentry⟩ hno

/-- A bar close leaves a settled state settled exactly when it keeps a live tranche, enters a trade, or there is none. -/
theorem settled_bar_close {s : TradeState D} (h : s.Wf) (hs : Settled s) (bar : Bar D) (signal : BarSignal D)
    (config : UtBotConfig D) :
    Settled (on_bar_close s bar signal config).state ↔ (TradeCall.bar_close bar signal config).Keeps s := by
  have hlive := bar_close_live h bar signal config
  have hkeeps : (TradeCall.bar_close bar signal config).Keeps s ↔
      s.tranches = [] ∨ ∃ t ∈ (on_bar_close s bar signal config).state.tranches, t.live = true := by
    rw [hlive]
    simp only [TradeCall.Keeps, Tranche.live, decide_eq_true_eq]
  rw [hkeeps, settled_iff]
  by_cases hno : ∃ side stop, signal.entry = some (side, some stop)
  · have hl := hlive.mpr (.inr hno)
    exact ⟨fun _ => .inr hl, fun _ => .inr hl⟩
  · obtain ⟨hlen, hinit⟩ := bar_close_cases h bar signal config hno
    refine or_congr_left ⟨?_, fun he => hinit ?_⟩
    · intro he
      rw [he] at hlen
      exact List.eq_nil_of_length_eq_zero hlen.symm
    · rcases settled_iff.mp hs with hs | ⟨t, ht, _⟩
      · exact hs
      · rw [he] at ht
        cases ht

/-- A fill leaves a settled state: the initial one, or one with the filled tranches open. -/
theorem settled_entry_filled {s : TradeState D} (h : s.Wf) {entry_price : D} {bar_index : Int} {config : UtBotConfig D}
    {quantity reference_close : Option D} {d : TradeDecision D}
    (hd : on_entry_filled s entry_price bar_index config quantity reference_close = .ok d) : Settled d.state := by
  obtain ⟨side, stop, _, _, hpend, ⟨reason, rfl⟩ | ⟨risk, target, _, _, _, rfl⟩⟩ := on_entry_filled_cases h hd
  · exact .inl rfl
  · obtain ⟨t, ht⟩ := List.exists_mem_of_ne_nil _ hpend
    obtain ⟨hts, hp⟩ := List.mem_filter.mp ht
    refine .inr ⟨t.entered quantity entry_price bar_index stop target, ?_, .inr rfl⟩
    exact TradeState.mem_updateWhere.mpr ⟨t, hts, if_pos hp⟩

omit [PyDecimal D] in
/-- A close at the broker leaves a settled state settled. -/
theorem settled_tranche_closed {s : TradeState D} (h : s.Wf) (hs : Settled s) (role : TrancheRole) (reason : CloseReason) :
    Settled (on_tranche_closed s role reason).state := by
  rcases on_tranche_closed_cases h.paired role reason with ⟨_, he⟩ | ⟨t, _, _, he⟩
  · rw [he]
    exact hs
  · rw [he]
    exact settled_flatten _

/-- A call leaves a settled state settled exactly when it keeps it. -/
theorem settled_apply {s : TradeState D} (h : s.Wf) (hs : Settled s) {call : TradeCall D} {d : TradeDecision D}
    (hd : call.apply s = .ok d) : Settled d.state ↔ call.Keeps s := by
  cases call with
  | bar_close bar signal config => exact Except.ok.inj hd ▸ settled_bar_close h hs bar signal config
  | entry_filled => exact iff_of_true (settled_entry_filled h hd) trivial
  | tranche_closed role reason =>
    exact iff_of_true (Except.ok.inj hd ▸ settled_tranche_closed h hs role reason) trivial

/-! ### Prefixes of a run -/

/-- The last call of a run, and the run before it. -/
theorem run_concat {calls : List (TradeCall D)} {call : TradeCall D} {s : TradeState D} {log : List (TradeAction D)}
    (h : TradeRun (calls ++ [call]) s log) :
    ∃ s₀ log₀ d, TradeRun calls s₀ log₀ ∧ call.apply s₀ = .ok d ∧ s = d.state := by
  generalize hl : calls ++ [call] = l at h
  cases h with
  | init => simp at hl
  | step hrun hd =>
    obtain ⟨rfl, hcall⟩ := List.append_inj' hl rfl
    cases hcall
    exact ⟨_, _, _, hrun, hd, rfl⟩

/-- The calls of a run determine its state. -/
theorem run_state_unique {calls : List (TradeCall D)} {s s' : TradeState D} {log log' : List (TradeAction D)}
    (h : TradeRun calls s log) (h' : TradeRun calls s' log') : s' = s := by
  induction h generalizing s' log' with
  | init =>
    generalize hl : ([] : List (TradeCall D)) = l at h'
    cases h' with
    | init => rfl
    | step => simp at hl
  | step hrun hd ih =>
    obtain ⟨s₀, log₀, d, hrun', hd', rfl⟩ := run_concat h'
    rw [ih hrun', hd] at hd'
    rw [Except.ok.inj hd']

/-- The calls made before are a run too. -/
theorem run_prefix {calls pre : List (TradeCall D)} {s : TradeState D} {log : List (TradeAction D)}
    (h : TradeRun calls s log) (hp : pre <+: calls) : ∃ s' log', TradeRun pre s' log' := by
  induction h with
  | init =>
    rw [List.prefix_nil.mp hp]
    exact ⟨_, _, .init⟩
  | @step calls s log call d hrun hd ih =>
    rcases List.prefix_concat_iff.mp hp with rfl | hp
    · exact ⟨_, _, .step hrun hd⟩
    · exact ih hp

end TradeResetAux

open TradeResetAux

/-- In a run of the trade manager every state is the initial one or has a live tranche, exactly when every bar close of the run
finds no trade, leaves a live tranche of it, or enters a new one. -/
theorem trade_reset {calls : List (TradeCall D)} {s : TradeState D} {log : List (TradeAction D)} (h : TradeRun calls s log) :
    (∀ pre s' log', pre <+: calls → TradeRun pre s' log' → Settled s') ↔
      ∀ pre call s' log', pre ++ [call] <+: calls → TradeRun pre s' log' → call.Keeps s' := by
  constructor
  · intro hsettled pre call s' log' hp hrun
    obtain ⟨t, _, hrun'⟩ := run_prefix h hp
    obtain ⟨s₀, log₀, d, hrun₀, hd, rfl⟩ := run_concat hrun'
    obtain rfl := run_state_unique hrun₀ hrun
    have hs := hsettled pre s' log' ((List.prefix_append _ _).trans hp) hrun
    exact (settled_apply hrun.wf hs hd).mp (hsettled _ _ _ hp hrun')
  · intro hkeeps pre s' log' hp hrun
    -- one call after the other, from the initial state
    induction hrun with
    | init => exact .inl rfl
    | @step calls' s' log' call d hrun' hd ih =>
      have hs := ih ((List.prefix_append _ _).trans hp)
      exact (settled_apply hrun'.wf hs hd).mpr (hkeeps calls' call s' log' hp hrun')

/-- The run that fills both entries of a buy signal. -/
theorem trade_reset_filled :
    (∀ pre s' log', pre <+: [TradeCall.bar_close SampleRun.bar (SampleRun.signal 4 true false) .default,
        .entry_filled (111 : ℚ) 5 .default (some 2) (some 110)] → TradeRun pre s' log' → Settled s') ↔
      ∀ pre call s' log', pre ++ [call] <+: [TradeCall.bar_close SampleRun.bar (SampleRun.signal 4 true false) .default,
        .entry_filled (111 : ℚ) 5 .default (some 2) (some 110)] → TradeRun pre s' log' → call.Keeps s' :=
  trade_reset SampleRun.run_filled

namespace TradeResetAux

/-- A bar on which the Hull band turns down. -/
def turnsDown : BarSignal ℚ := { SampleRun.signal 6 false false with hull_flip_down := true }

/-- Both tranches of the filled trade closed: the first at its target, the runner by the Hull exit. -/
def spent : TradeState ℚ where
  side := some .BUY
  pending_stop := some 100
  reference_close := some 110
  tranches := (((entering .BUY (100 : ℚ) 110).entered (some 2) 111 5 100 122).tranches.map fun t =>
    t.closed (if t.role = .T1 then .TAKE_PROFIT else .HULL_FLIP))

/-- The first tranche reaches its target, and the Hull exit closes the runner. -/
theorem run_spent : ∃ log, TradeRun
    [.bar_close SampleRun.bar (SampleRun.signal 4 true false) .default, .entry_filled (111 : ℚ) 5 .default (some 2) (some 110),
      .tranche_closed .T1 .TAKE_PROFIT, .bar_close SampleRun.bar turnsDown .default] spent log := by
  have hclosed := TradeRun.step SampleRun.run_filled
    (show TradeCall.apply _ (.tranche_closed .T1 .TAKE_PROFIT) = .ok (on_tranche_closed _ .T1 .TAKE_PROFIT) from rfl)
  have hturned := TradeRun.step hclosed
    (show TradeCall.apply _ (.bar_close SampleRun.bar turnsDown .default) = .ok (on_bar_close _ SampleRun.bar turnsDown .default)
      from rfl)
  have hstate : (on_bar_close (on_tranche_closed ((entering .BUY (100 : ℚ) 110).entered (some 2) 111 5 100 122) .T1
      .TAKE_PROFIT).state SampleRun.bar turnsDown .default).state = spent := by
    decide
  rw [hstate] at hturned
  exact ⟨_, hturned⟩

end TradeResetAux

/-- The Hull exit of the last live tranche leaves a state that is neither the initial one nor has a live tranche. -/
theorem spent_trade_kept : ∃ calls s log, TradeRun (D := ℚ) calls s log ∧ ¬ Settled s := by
  obtain ⟨log, hrun⟩ := run_spent
  refine ⟨_, spent, log, hrun, ?_⟩
  rintro (h | h)
  · exact absurd (congrArg TradeState.side h) (by decide)
  · exact absurd h (by decide)

end MtossBot

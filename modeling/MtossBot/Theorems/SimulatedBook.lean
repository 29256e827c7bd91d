import MtossBot.Lemmas.Books

/-!
# The simulated book

At the end of every bar of a backtest the books agree with the trade state, entries come in pairs, every exit has its own entry on
an earlier bar, and the checks of the loop never fail. Nothing is assumed of the arithmetic.
-/

namespace MtossBot

variable {D : Type}

/-- Fills as a ledger: an exit fits an entry of its side and quantity on an earlier bar. -/
def fillLedger (D : Type) : LedgerKind TrancheRole (BacktestFill D) where
  key := BacktestFill.role
  isEntry f := f.kind = .ENTRY
  fits e f := e.side = f.side ∧ e.quantity = f.quantity ∧ e.bar_index < f.bar_index

/-- The entries of one trade. -/
structure EntryPair (a b : BacktestFill D) : Prop where
  first : a.role = .T1
  second : b.role = .T2
  bar_index : a.bar_index = b.bar_index
  side : a.side = b.side
  price : a.price = b.price
  quantity : a.quantity = b.quantity

/-- The entries among the fills come in pairs. -/
def EntriesPaired (fills : List (BacktestFill D)) : Prop :=
  ∃ pairs : List (BacktestFill D × BacktestFill D),
    (fills.filter fun f => f.kind = .ENTRY) = pairs.flatMap (fun p => [p.1, p.2]) ∧ ∀ p ∈ pairs, EntryPair p.1 p.2

/-- What the books of a simulation say at the end of a bar. -/
structure BookAgrees (sim : Simulation D) : Prop where
  brackets : ∀ role, role ∈ sim.brackets.keys ↔ ∃ t, sim.state.tranche role = some t ∧ t.state = .OPEN
  attached : ∀ role t b, sim.state.tranche role = some t → sim.brackets.get? role = some b → Attached t b
  entries : ∀ role, role ∈ sim.open_entries.keys ↔
    (∃ t, sim.state.tranche role = some t ∧ t.state = .OPEN) ∨ ∃ a ∈ sim.queued, a.kind = .CLOSE ∧ a.role = role
  fills : Ledger (fillLedger D) sim.fills sim.open_entries.get?
  pairs : EntriesPaired sim.fills

namespace SimulatedBookAux

/-! ## Fills -/

/-- The fills and the open entries agree, and what is open was entered before a bar. -/
structure Logs (index : Nat) (fills : List (BacktestFill D)) (entries : Dict TrancheRole (BacktestFill D)) : Prop where
  ledger : Ledger (fillLedger D) fills entries.get?
  pairs : EntriesPaired fills
  earlier : ∀ role e, entries.get? role = some e → e.bar_index < index

variable {fills : List (BacktestFill D)} {entries : Dict TrancheRole (BacktestFill D)} {index : Nat}

/-- After an erasure the role has nothing. -/
theorem get?_erase_eq (entries : Dict TrancheRole (BacktestFill D)) (role : TrancheRole) :
    (entries.erase role).get? = Function.update entries.get? role none := by
  funext k
  rw [Dict.get?_erase, Function.update_apply]

/-- After an entry is set the role has it. -/
theorem get?_set_eq (entries : Dict TrancheRole (BacktestFill D)) (role : TrancheRole) (f : BacktestFill D) :
    (entries.set role f).get? = Function.update entries.get? role (some f) := by
  funext k
  rw [Dict.get?_set, Function.update_apply]

/-- An exit of an open entry. -/
theorem Logs.exit (h : Logs index fills entries) {f e : BacktestFill D} (hf : f.kind = .EXIT) (hi : f.bar_index = index)
    (he : entries.get? f.role = some e) (hside : e.side = f.side) (hquantity : e.quantity = f.quantity) :
    Logs index (fills ++ [f]) (entries.erase f.role) := by
  refine ⟨?_, ?_, ?_⟩
  · rw [get?_erase_eq]
    exact h.ledger.exit (by simp [fillLedger, hf]) he ⟨hside, hquantity, hi ▸ h.earlier _ _ he⟩
  · obtain ⟨pairs, hp, hall⟩ := h.pairs
    exact ⟨pairs, by rw [List.filter_append, hp]; simp [hf], hall⟩
  · intro role e' he'
    rw [Dict.get?_erase] at he'
    split at he'
    · cases he'
    · exact h.earlier role e' he'

/-- The two entries of a trade, with nothing open before. -/
theorem Logs.enter (h : Logs index fills entries) {a b : BacktestFill D} (ha : a.kind = .ENTRY) (hb : b.kind = .ENTRY)
    (hai : a.bar_index = index) (hab : EntryPair a b) (hnone : ∀ role, entries.get? role = none) :
    Logs (index + 1) (fills ++ [a] ++ [b]) ((entries.set a.role a).set b.role b) := by
  refine ⟨?_, ?_, ?_⟩
  · rw [get?_set_eq, get?_set_eq]
    have h₁ : Ledger (fillLedger D) (fills ++ [a]) (Function.update entries.get? a.role (some a)) :=
      Ledger.entry h.ledger (by simp [fillLedger, ha]) (hnone a.role)
    refine Ledger.entry h₁ (by simp [fillLedger, hb]) ?_
    rw [fillLedger, Function.update_of_ne (by simp [hab.first, hab.second])]
    exact hnone b.role
  · obtain ⟨pairs, hp, hall⟩ := h.pairs
    refine ⟨pairs ++ [(a, b)], ?_, ?_⟩
    · rw [List.filter_append, List.filter_append, hp]
      simp [ha, hb]
    · intro p hpm
      rcases List.mem_append.mp hpm with hpm | hpm
      · exact hall p hpm
      · rw [List.mem_singleton.mp hpm]
        exact hab
  · intro role e he
    rw [Dict.get?_set, Dict.get?_set] at he
    split at he
    · rw [← Option.some.inj he, ← hab.bar_index, hai]
      exact Nat.lt_succ_self _
    · split at he
      · rw [← Option.some.inj he, hai]
        exact Nat.lt_succ_self _
      · exact Nat.lt_succ_of_lt (h.earlier role e he)

/-- The logs up to a bar are logs up to the next. -/
theorem Logs.mono (h : Logs index fills entries) : Logs (index + 1) fills entries :=
  ⟨h.ledger, h.pairs, fun role e he => Nat.lt_succ_of_lt (h.earlier role e he)⟩

/-! ## The phases of a bar -/

variable [PyDecimal D]

omit [PyDecimal D] in
/-- The close of a role is filled: its entry goes, and it had no bracket. -/
theorem books_filled {s : TradeState D} {brackets : Dict TrancheRole (_Bracket D)}
    {entries : Dict TrancheRole (BacktestFill D)} {role : TrancheRole} {closing : List TrancheRole}
    (h : Books s brackets entries (role :: closing)) : Books s (brackets.erase role) (entries.erase role) closing := by
  have hnone := h.not_open role (by simp)
  have hnd := List.nodup_cons.mp h.nodup
  refine ⟨h.wf, ?_, ?_, fun r hr => h.not_open r (List.mem_cons_of_mem _ hr), hnd.2⟩
  · intro r
    rw [Dict.get?_erase]
    split
    · rename_i hr
      rw [hr, hnone]
      exact .none
    · exact h.brackets r
  · intro r
    rw [Dict.get?_erase]
    by_cases hr : r = role
    · simp [hr, hnone, hnd.1]
    · simp [hr, h.entries r]

/-- What `record_exit` does with an open entry. -/
theorem record_exit_some (rate : D) {index : Nat} (bar : Bar D) {role : TrancheRole} (price : D) (reason : CloseReason)
    (sim : Simulation D) {e : BacktestFill D} (he : sim.open_entries.get? role = some e)
    (hl : Logs index sim.fills sim.open_entries) :
    (record_exit rate index bar role price reason sim).state = sim.state ∧
    (record_exit rate index bar role price reason sim).brackets = sim.brackets ∧
    (record_exit rate index bar role price reason sim).queued = sim.queued ∧
    (record_exit rate index bar role price reason sim).open_entries = sim.open_entries.erase role ∧
    Logs index (record_exit rate index bar role price reason sim).fills (sim.open_entries.erase role) := by
  unfold record_exit
  rw [he]
  exact ⟨rfl, rfl, rfl, rfl, hl.exit rfl rfl he rfl rfl⟩

/-- The orders of the previous bar: every close is filled, the entries are left. -/
theorem fillQueued_spec (rate : D) {index : Nat} (bar : Bar D) {closes opens : List (TradeAction D)}
    (hc : ∀ a ∈ closes, a.kind = .CLOSE) (ho : ∀ a ∈ opens, a.kind = .OPEN) (sim : Simulation D)
    (hb : Books sim.state sim.brackets sim.open_entries (closes.map TradeAction.role))
    (hl : Logs index sim.fills sim.open_entries) :
    ∃ sim', fillQueued rate index bar (closes ++ opens) sim = (sim', opens) ∧
      Books sim'.state sim'.brackets sim'.open_entries [] ∧ Logs index sim'.fills sim'.open_entries ∧
      sim'.state = sim.state ∧ sim'.queued = sim.queued := by
  induction closes generalizing sim with
  | nil =>
    refine ⟨sim, ?_, hb, hl, rfl, rfl⟩
    rw [List.nil_append]
    clear hb hl hc
    induction opens with
    | nil => rfl
    | cons a opens ih => simp only [fillQueued, ho a (by simp), ih fun b hb => ho b (by simp [hb])]
  | cons a closes ih =>
    rw [List.map_cons] at hb
    obtain ⟨e, he⟩ := Option.isSome_iff_exists.mp ((hb.entries a.role).mpr (.inr (by simp)))
    obtain ⟨h₁, h₂, h₃, h₄, h₅⟩ := record_exit_some rate bar bar.open_ (a.reason.getD .REVERSAL)
      { sim with brackets := sim.brackets.erase a.role } he hl
    simp only [List.cons_append, fillQueued, hc a (by simp)]
    generalize record_exit rate index bar a.role bar.open_ (a.reason.getD .REVERSAL)
      { sim with brackets := sim.brackets.erase a.role } = sim₁ at *
    have hb₁ : Books sim₁.state sim₁.brackets sim₁.open_entries (closes.map TradeAction.role) := by
      rw [h₁, h₂, h₄]
      exact books_filled hb
    obtain ⟨sim', hq, hb', hl', hs', hq'⟩ := ih (fun b hb => hc b (by simp [hb])) sim₁ hb₁ (by rw [h₄]; exact h₅)
    exact ⟨sim', hq, hb', hl', hs'.trans h₁, hq'.trans h₃⟩

omit [PyDecimal D] in
/-- Starting over a state with nothing live closes nothing. -/
theorem openTranche_flatten {s : TradeState D} (h : s.Paired) (role : TrancheRole) :
    (flatten_if_done s).openTranche role = s.openTranche role := by
  unfold flatten_if_done
  split
  · rename_i hflat
    have hnone : s.openTranche role = none := by
      refine h.openTranche_eq_none ?_
      intro t ht ho
      have hlive := is_flat_iff.mp hflat t ht
      simp [Tranche.live, ho] at hlive
    rw [hnone]
    rfl
  · rfl

omit [PyDecimal D] in
/-- A bracket is hit: its tranche is closed, and bracket and entry go. -/
theorem books_hit {s : TradeState D} {brackets : Dict TrancheRole (_Bracket D)}
    {entries : Dict TrancheRole (BacktestFill D)} (h : Books s brackets entries []) {role : TrancheRole} {t : Tranche D}
    (ht : s.openTranche role = some t) (reason : CloseReason) :
    Books (on_tranche_closed s role reason).state (brackets.erase role) (entries.erase role) [] := by
  obtain ⟨hmem, hrole, ho⟩ := h.wf.paired.openTranche_iff.mp ht
  have htr : s.tranche role = some t := h.wf.paired.tranche_iff.mpr ⟨hmem, hrole⟩
  have hlive : t.live = true := by simp [Tranche.live, ho]
  have hw : (s.updateWhere (fun u => u.role = role) (·.closed reason)).Wf :=
    h.wf.updateWhere (fun _ => rfl) (h.wf.paired.evolves_closed htr hlive reason)
  have hstate : (on_tranche_closed s role reason).state =
      flatten_if_done (s.updateWhere (fun u => u.role = role) (·.closed reason)) := by
    rcases on_tranche_closed_cases h.wf.paired role reason with ⟨hno, _⟩ | ⟨_, _, _, he⟩
    · rw [hno t hmem hrole] at hlive
      cases hlive
    · rw [he]
  have hopen : ∀ r, (on_tranche_closed s role reason).state.openTranche r =
      if r = role then none else s.openTranche r := by
    intro r
    rw [hstate, openTranche_flatten hw.paired, TradeState.openTranche_closed]
  refine ⟨hstate ▸ hw.flatten, ?_, ?_, by simp, List.nodup_nil⟩
  · intro r
    rw [hopen, Dict.get?_erase]
    split
    · exact .none
    · exact h.brackets r
  · intro r
    rw [hopen, Dict.get?_erase]
    by_cases hr : r = role
    · simp [hr]
    · simp [hr, h.entries r]

/-- The brackets that are hit. -/
theorem hitBrackets_spec (rate : D) {index : Nat} (bar : Bar D) (roles : List TrancheRole) {sim : Simulation D}
    (hb : Books sim.state sim.brackets sim.open_entries []) (hn : NoPending sim.state)
    (hl : Logs index sim.fills sim.open_entries) :
    Books (hitBrackets rate index bar roles sim).state (hitBrackets rate index bar roles sim).brackets
        (hitBrackets rate index bar roles sim).open_entries [] ∧
      NoPending (hitBrackets rate index bar roles sim).state ∧
      Logs index (hitBrackets rate index bar roles sim).fills (hitBrackets rate index bar roles sim).open_entries ∧
      (hitBrackets rate index bar roles sim).queued = sim.queued := by
  induction roles generalizing sim with
  | nil => exact ⟨hb, hn, hl, rfl⟩
  | cons role roles ih =>
    cases hget : sim.brackets.get? role with
    | none =>
      simp only [hitBrackets, hget]
      exact ih hb hn hl
    | some bracket =>
      simp only [hitBrackets, hget]
      split
      · exact ih hb hn hl
      · split
        · exact ih hb hn hl
        · rename_i price close_reason _
          obtain ⟨t, ht⟩ : ∃ t, sim.state.openTranche role = some t := by
            have hrel := hb.brackets role
            rw [hget] at hrel
            cases ho : sim.state.openTranche role with
            | none =>
              rw [ho] at hrel
              cases hrel
            | some t => exact ⟨t, rfl⟩
          obtain ⟨e, he⟩ := Option.isSome_iff_exists.mp ((hb.entries role).mpr (.inl (by rw [ht]; rfl)))
          obtain ⟨h₁, h₂, h₃, h₄, h₅⟩ := record_exit_some rate bar price close_reason
            { sim with brackets := sim.brackets.erase role } he hl
          generalize record_exit rate index bar role price close_reason
            { sim with brackets := sim.brackets.erase role } = sim₁ at *
          have hb₁ := books_hit hb ht close_reason
          have hn₁ := hn.continues (continues_on_tranche_closed hb.wf.paired role close_reason)
          rw [← h₁] at hb₁ hn₁
          obtain ⟨hb', hn', hl', hq'⟩ := @ih { sim₁ with state := (on_tranche_closed sim₁.state role close_reason).state }
            (by rw [h₂, h₄]; exact hb₁) hn₁ (by rw [h₄]; exact h₅)
          exact ⟨hb', hn', hl', hq'.trans h₃⟩

/-- The orders that enter a trade. -/
def entryOrders (side : OrderSide) : List (TradeAction D) := [openAction side .T1, openAction side .T2]

/-- The fill of an entry. -/
def entryFill (index : Nat) (bar : Bar D) (side : OrderSide) (size : D) (role : TrancheRole) : BacktestFill D where
  bar_index := index
  open_time := bar.open_time
  kind := .ENTRY
  role := role
  side := side
  price := bar.open_
  quantity := size

/-- A simulation with the entries of a trade filled. -/
def Simulation.entered (sim : Simulation D) (index : Nat) (bar : Bar D) (side : OrderSide) (size : D) : Simulation D :=
  { sim with
    fills := sim.fills ++ [entryFill index bar side size .T1] ++ [entryFill index bar side size .T2]
    open_entries := (sim.open_entries.set .T1 (entryFill index bar side size .T1)).set .T2
      (entryFill index bar side size .T2) }

theorem fillEntries_entryOrders (index : Nat) (bar : Bar D) (side : OrderSide) (size : D) (sim : Simulation D) :
    fillEntries index bar (some size) (entryOrders side) sim = .ok (Simulation.entered sim index bar side size) := rfl

/-- Sizing raises nothing but a division by zero. -/
theorem skip_reason_error {config : UtBotConfig D} {spec : SymbolSpec D} {rate distance equity : D} {confirm ruined : Bool}
    {e : Exc} (h : _skip_reason config spec rate confirm distance equity ruined = .error e) : e = .divisionByZero := by
  unfold _skip_reason at h
  split at h
  · cases h
  · cases ho : size_entry config distance spec equity rate with
    | error e' =>
      simp only [ho, bind, Except.bind] at h
      exact Except.error.inj h ▸ size_entry_error ho
    | ok o =>
      simp only [ho, bind, Except.bind] at h
      split at h
      · cases h
      · split at h
        · cases h
        · split at h <;> cases h

/-- An entry that is not skipped has a quantity. -/
theorem skip_reason_none {config : UtBotConfig D} {spec : SymbolSpec D} {rate distance equity : D} {confirm ruined : Bool}
    (h : _skip_reason config spec rate confirm distance equity ruined = .ok none) :
    ∃ o size, size_entry config distance spec equity rate = .ok o ∧ o.quantity = some size := by
  unfold _skip_reason at h
  split at h
  · cases h
  · cases ho : size_entry config distance spec equity rate with
    | error e' =>
      simp only [ho, bind, Except.bind] at h
      cases h
    | ok o =>
      simp only [ho, bind, Except.bind] at h
      split at h
      · cases h
      · split at h
        · cases h
        · rename_i hrisk hmin
          rcases size_entry_decided ho with ⟨hrej, _⟩ | ⟨_, _, hq⟩
          · exfalso
            cases hr : o.rejection with
            | none => exact hrej hr
            | some r => cases r <;> simp_all
          · obtain ⟨size, hsize⟩ := Option.ne_none_iff_exists'.mp hq
            exact ⟨o, size, rfl, hsize⟩

/-- Sizing the entries of a trade: they are skipped and the state starts over, or they get a quantity. -/
theorem sizeEntries_cases (config : UtBotConfig D) (spec : SymbolSpec D) (rate : D) (confirm : Bool) (index : Nat)
    (bar : Bar D) {side : OrderSide} {stop close : D} {sim : Simulation D} (hs : sim.state = entering side stop close) :
    (∃ skips, sizeEntries config spec rate confirm index bar (entryOrders side) sim =
        .ok ({ sim with skips := skips, state := {} }, [], none)) ∨
      (∃ size, sizeEntries config spec rate confirm index bar (entryOrders side) sim = .ok (sim, entryOrders side, some size)) ∨
      sizeEntries config spec rate confirm index bar (entryOrders side) sim = .error .divisionByZero := by
  simp only [sizeEntries, entryOrders, hs, entering]
  cases hskip : _skip_reason config spec rate confirm (PyDecimal.abs (bar.open_ - stop)) sim.equity sim.ruined with
  | error e => exact .inr (.inr (by rw [skip_reason_error hskip]; rfl))
  | ok skip =>
    cases skip with
    | some skip => exact .inl ⟨_, rfl⟩
    | none =>
      obtain ⟨o, size, ho, hq⟩ := skip_reason_none hskip
      refine .inr (.inl ⟨size, ?_⟩)
      simp only [bind, Except.bind, ho, hq]
      rfl

/-- The entries of a trade are filled: both tranches are on their way from the entries to the state. -/
theorem books_entered {side : OrderSide} {stop close : D} {sim : Simulation D} {index : Nat} (bar : Bar D) (size : D)
    (hs : sim.state = entering side stop close) (hb : Books sim.state sim.brackets sim.open_entries [])
    (hl : Logs index sim.fills sim.open_entries) :
    Books (entering side stop close) sim.brackets (Simulation.entered sim index bar side size).open_entries [.T1, .T2] ∧
      Logs (index + 1) (Simulation.entered sim index bar side size).fills
        (Simulation.entered sim index bar side size).open_entries := by
  rw [hs] at hb
  have hnone : ∀ role, sim.open_entries.get? role = none := by
    intro role
    have hiff := hb.entries role
    rw [entering_openTranche] at hiff
    simpa using hiff
  constructor
  · refine ⟨hb.wf, hb.brackets, ?_, fun role _ => entering_openTranche side stop close role, by simp⟩
    intro role
    rw [Simulation.entered, Dict.get?_set, Dict.get?_set]
    cases role <;> simp
  · exact hl.enter rfl rfl rfl ⟨rfl, rfl, rfl, rfl, rfl, rfl⟩ hnone

/-- A fill of a state that waits for it never raises. -/
theorem on_entry_filled_ok (side : OrderSide) (stop close : D) (price : D) (index : Int) (config : UtBotConfig D)
    (quantity reference : Option D) :
    ∃ d, on_entry_filled (entering side stop close) price index config quantity reference = .ok d := by
  unfold on_entry_filled
  simp only [entering, TradeState.pending, pendingTranche, decide_true, List.filter_cons_of_pos, List.isEmpty_cons,
    Bool.false_eq_true, if_false]
  split
  · exact ⟨_, rfl⟩
  · split <;> exact ⟨_, rfl⟩

/-- A tranche of a trade that was entered with a size. -/
def enteredTranche (side : OrderSide) (size price : D) (index : Int) (stop target : D) (role : TrancheRole) : Tranche D :=
  (pendingTranche side role).entered (some size) price index stop target

omit [PyDecimal D] in
/-- After an entry both roles have their open tranche. -/
theorem entered_openTranche (side : OrderSide) (stop close size price : D) (index : Int) (target : D)
    (role : TrancheRole) :
    ((entering side stop close).entered (some size) price index stop target).openTranche role =
      some (enteredTranche side size price index stop target role) := by
  cases role <;> rfl

/-- The entries are confirmed: both tranches open with their brackets, or both are being closed. -/
theorem books_confirmed {side : OrderSide} {stop close size price : D} {index : Nat} {config : UtBotConfig D}
    {reference : Option D} {d : TradeDecision D} {brackets : Dict TrancheRole (_Bracket D)}
    {open_entries : Dict TrancheRole (BacktestFill D)}
    (hd : on_entry_filled (entering side stop close) price index config (some size) reference = .ok d)
    (hb : Books (entering side stop close) brackets open_entries [.T1, .T2]) :
    ∃ brackets' closes, _register_brackets d.state index d.actions brackets = (brackets', closes) ∧
      (∀ a ∈ closes, a.kind = .CLOSE) ∧ Books d.state brackets' open_entries (closes.map TradeAction.role) ∧
      NoPending d.state := by
  have hw := wf_on_entry_filled hb.wf hd
  obtain ⟨side', stop', hside, hstop, _, ⟨reason, rfl⟩ | ⟨risk, target, _, _, _, rfl⟩⟩ := on_entry_filled_cases hb.wf hd
  · have hkind : ∀ a ∈ (entering side stop close).pending.map
        (fun t => (t.withQuantity (some size)).closeAction reason), a.kind = .CLOSE := by
      intro a ha
      obtain ⟨t, _, rfl⟩ := List.mem_map.mp ha
      rfl
    refine ⟨_, _, register_closes _ _ hkind _, hkind, ⟨hw, fun role => ?_, fun role => ?_, fun _ _ => rfl, hb.nodup⟩,
      by simp [NoPending]⟩
    · rw [get?_foldl_erase, hb.bracket_none (entering_openTranche side stop close role), ite_self]
      exact .none
    · rw [hb.entries, entering_openTranche]
      rfl
  · obtain rfl : stop = stop' := Option.some.inj hstop
    refine ⟨_, [], rfl, by simp, ⟨hw, ?_, ?_, by simp, List.nodup_nil⟩, ?_⟩
    · intro role
      rw [entered_openTranche, Dict.get?_set, Dict.get?_set]
      cases role <;> exact .some ⟨rfl, rfl, rfl, rfl, rfl, rfl⟩
    · intro role
      rw [hb.entries, entering_openTranche, entered_openTranche]
      cases role <;> simp
    · intro t ht
      simp only [TradeState.entered, TradeState.updateWhere, entering, List.map_cons, List.map_nil, List.mem_cons,
        List.not_mem_nil, or_false] at ht
      rcases ht with rfl | rfl <;> exact fun h => by cases h

/-! ## A bar -/

/-- What holds of a simulation before a bar: its books agree, with the closes that are queued on their way out, and entries are
queued exactly when both tranches wait for them. -/
structure Booked (index : Nat) (sim : Simulation D) : Prop where
  logs : Logs index sim.fills sim.open_entries
  queue : ∃ closes opens, sim.queued = closes ++ opens ∧ (∀ a ∈ closes, a.kind = .CLOSE) ∧
    Books sim.state sim.brackets sim.open_entries (closes.map TradeAction.role) ∧
    (opens = [] ∧ NoPending sim.state ∨ ∃ side stop close, opens = entryOrders side ∧ sim.state = entering side stop close)

/-- The bar close at the end of a turn. -/
theorem booked_bar_close (sim : Simulation D) {closes : List (TradeAction D)} (hq : sim.queued = closes)
    (hc : ∀ a ∈ closes, a.kind = .CLOSE)
    (hb : Books sim.state sim.brackets sim.open_entries (closes.map TradeAction.role)) (hn : NoPending sim.state)
    {index : Nat} (hl : Logs (index + 1) sim.fills sim.open_entries) (bar : Bar D) (signal : BarSignal D)
    (config : UtBotConfig D) : Booked (index + 1) (sim.register (on_bar_close sim.state bar signal config) index) := by
  obtain ⟨brackets', closes', opens, hreg, hc', hb', hopens⟩ := hb.on_bar_close hn bar signal config index
  refine ⟨hl, closes ++ closes', opens, ?_, ?_, ?_, ?_⟩
  · simp only [Simulation.register, hreg, hq, List.append_assoc]
  · intro a ha
    exact (List.mem_append.mp ha).elim (hc a) (hc' a)
  · rw [List.map_append]
    simpa only [Simulation.register, hreg] using hb'
  · rcases hopens with ⟨ho, hn'⟩ | ⟨side, stop, ho, hs⟩
    · exact .inl ⟨ho, hn'⟩
    · exact .inr ⟨side, stop, _, ho, hs⟩

section Turn

variable (config : UtBotConfig D) (spec : SymbolSpec D) (rate : D) (confirm : Bool) {index : Nat} (bar : Bar D)
  (signal : BarSignal D) {sim sim₁ sim₂ : Simulation D} {entered : List (TradeAction D)}

/-- A turn that enters no trade. -/
theorem barStep_without_entries {quantity : Option D}
    (hfill : fillQueued rate index bar sim.queued { sim with queued := [] } = (sim₁, entered))
    (hsize : sizeEntries config spec rate confirm index bar entered sim₁ = .ok (sim₂, [], quantity)) :
    barStep config spec rate confirm index bar signal sim =
      .ok ((hitBrackets rate index bar sim₂.brackets.keys sim₂).register
        (on_bar_close (hitBrackets rate index bar sim₂.brackets.keys sim₂).state bar signal config) index) := by
  simp only [barStep, hfill, bind, Except.bind, hsize, fillEntries, confirmEntries]
  rfl

/-- A turn that enters a trade: there is no bracket to hit. -/
theorem barStep_with_entries {side : OrderSide} {stop close size : D} {d : TradeDecision D}
    (hfill : fillQueued rate index bar sim.queued { sim with queued := [] } = (sim₁, entryOrders side))
    (hsize : sizeEntries config spec rate confirm index bar (entryOrders side) sim₁ =
      .ok (sim₁, entryOrders side, some size))
    (hkeys : sim₁.brackets.keys = []) (hs : sim₁.state = entering side stop close)
    (hd : on_entry_filled (entering side stop close) bar.open_ index config (some size) (some close) = .ok d) :
    barStep config spec rate confirm index bar signal sim =
      .ok ((((Simulation.entered sim₁ index bar side size).register d index)).register
        (on_bar_close ((Simulation.entered sim₁ index bar side size).register d index).state bar signal config) index) := by
  have hkeys' : (Simulation.entered sim₁ index bar side size).brackets.keys = [] := hkeys
  have hs' : (Simulation.entered sim₁ index bar side size).state = entering side stop close := hs
  have hconfirm : confirmEntries config index bar (entryOrders side) (some size)
      (Simulation.entered sim₁ index bar side size) = .ok ((Simulation.entered sim₁ index bar side size).register d index) := by
    simp only [entryOrders, confirmEntries, hs']
    rw [show (entering side stop close).reference_close = some close from rfl, hd]
    rfl
  simp only [barStep, hfill, bind, Except.bind, hsize, fillEntries_entryOrders, hkeys', hitBrackets, hconfirm]
  rfl

/-- The rest of a turn that enters no trade: the brackets, and the bar close. -/
theorem booked_without_entries (hb : Books sim.state sim.brackets sim.open_entries []) (hn : NoPending sim.state)
    (hl : Logs index sim.fills sim.open_entries) (hq : sim.queued = []) :
    Booked (index + 1)
      ((hitBrackets rate index bar sim.brackets.keys sim).register
        (on_bar_close (hitBrackets rate index bar sim.brackets.keys sim).state bar signal config) index) := by
  obtain ⟨hb', hn', hl', hq'⟩ := hitBrackets_spec rate bar sim.brackets.keys hb hn hl
  exact booked_bar_close _ (hq'.trans hq) (by simp) hb' hn' hl'.mono bar signal config

/-- The rest of a turn that enters a trade: its brackets or closes, and the bar close. -/
theorem booked_with_entries {side : OrderSide} {stop close size : D} {d : TradeDecision D}
    (hs : sim.state = entering side stop close) (hb : Books sim.state sim.brackets sim.open_entries [])
    (hl : Logs index sim.fills sim.open_entries) (hq : sim.queued = [])
    (hd : on_entry_filled (entering side stop close) bar.open_ index config (some size) (some close) = .ok d) :
    Booked (index + 1)
      ((((Simulation.entered sim index bar side size).register d index)).register
        (on_bar_close ((Simulation.entered sim index bar side size).register d index).state bar signal config) index) := by
  obtain ⟨hb₁, hl₁⟩ := books_entered bar size hs hb hl
  obtain ⟨brackets', closes, hreg, hc, hb₂, hn₂⟩ := books_confirmed hd hb₁
  have hreg' : _register_brackets d.state index d.actions (Simulation.entered sim index bar side size).brackets =
      (brackets', closes) := hreg
  refine booked_bar_close ((Simulation.entered sim index bar side size).register d index) ?_ hc ?_ ?_ hl₁ bar signal
    config
  · simp only [Simulation.register, hreg']
    rw [show (Simulation.entered sim index bar side size).queued = [] from hq, List.nil_append]
  · simpa only [Simulation.register, hreg'] using hb₂
  · simpa only [Simulation.register] using hn₂

/-- A turn of the loop keeps the books, and raises nothing but a division by zero. -/
theorem booked_barStep (h : Booked index sim) :
    (∃ sim', barStep config spec rate confirm index bar signal sim = .ok sim' ∧ Booked (index + 1) sim') ∨
      barStep config spec rate confirm index bar signal sim = .error .divisionByZero := by
  obtain ⟨hl, closes, opens, hq, hc, hb, hopens⟩ := h
  have hko : ∀ a ∈ opens, a.kind = .OPEN := by
    rcases hopens with ⟨rfl, _⟩ | ⟨side, _, _, rfl, _⟩
    · simp
    · simp [entryOrders, openAction]
  obtain ⟨sim₁, hfill, hb₁, hl₁, hs₁, hq₁⟩ := fillQueued_spec rate bar hc hko { sim with queued := [] } hb hl
  rw [← hq] at hfill
  rcases hopens with ⟨rfl, hn⟩ | ⟨side, stop, close, rfl, hs⟩
  · left
    exact ⟨_, barStep_without_entries config spec rate confirm bar signal hfill rfl,
      booked_without_entries config rate bar signal hb₁ (hs₁ ▸ hn) hl₁ hq₁⟩
  · have hs₁' : sim₁.state = entering side stop close := hs₁.trans hs
    rcases sizeEntries_cases config spec rate confirm index bar hs₁' with ⟨skips, hsize⟩ | ⟨size, hsize⟩ | hsize
    · left
      refine ⟨_, barStep_without_entries config spec rate confirm bar signal hfill hsize,
        booked_without_entries config rate bar signal ?_ (by simp [NoPending]) hl₁ hq₁⟩
      refine hb₁.congr TradeState.Wf.empty ?_
      intro role
      rw [hs₁', entering_openTranche]
      rfl
    · left
      obtain ⟨d, hd⟩ := on_entry_filled_ok side stop close bar.open_ index config (some size) (some close)
      have hkeys : sim₁.brackets.keys = [] := by
        refine List.eq_nil_iff_forall_not_mem.mpr fun role => Dict.get?_eq_none_iff.mp (hb₁.bracket_none ?_)
        rw [hs₁', entering_openTranche]
      exact ⟨_, barStep_with_entries config spec rate confirm bar signal hfill hsize hkeys hs₁' hd,
        booked_with_entries config bar signal hs₁' hb₁ hl₁ hq₁ hd⟩
    · right
      simp only [barStep, hfill, bind, Except.bind, hsize]

/-- The loop keeps the books, and raises nothing but a division by zero. -/
theorem booked_runBars (rows : List (Bar D × BarSignal D)) (h : Booked index sim) :
    (∃ sim', runBars config spec rate confirm index rows sim = .ok sim' ∧ Booked (index + rows.length) sim') ∨
      runBars config spec rate confirm index rows sim = .error .divisionByZero := by
  induction rows generalizing index sim with
  | nil => exact .inl ⟨sim, rfl, h⟩
  | cons row rows ih =>
    obtain ⟨bar, signal⟩ := row
    rcases booked_barStep config spec rate confirm bar signal h with ⟨sim', hstep, h'⟩ | hstep
    · simp only [runBars, bind, Except.bind, hstep, List.length_cons]
      rw [Nat.add_comm rows.length 1, ← Nat.add_assoc]
      exact ih h'
    · right
      simp only [runBars, bind, Except.bind, hstep]

end Turn

/-- Before the first bar the book is empty. -/
theorem booked_start (equity : D) : Booked 0 (.start equity) := by
  refine ⟨⟨Ledger.nil, ⟨[], rfl, by simp⟩, nofun⟩, [], [], rfl, by simp, ?_, .inl ⟨rfl, by simp [NoPending, Simulation.start]⟩⟩
  refine ⟨TradeState.Wf.empty, fun _ => .none, ?_, by simp, List.nodup_nil⟩
  intro _
  simp [Simulation.start, TradeState.openTranche, TradeState.tranche]

omit [PyDecimal D] in
/-- Before a bar the books agree as at the end of the bar before it. -/
theorem Booked.agrees {index : Nat} {sim : Simulation D} (h : Booked index sim) : BookAgrees sim := by
  obtain ⟨hl, closes, opens, hq, hc, hb, hopens⟩ := h
  have hopen : ∀ role, (sim.state.openTranche role).isSome ↔ ∃ t, sim.state.tranche role = some t ∧ t.state = .OPEN := by
    intro role
    rw [TradeState.openTranche, Option.isSome_iff_exists]
    simp only [Option.filter_eq_some_iff, decide_eq_true_eq]
  have hqueued : ∀ role, role ∈ closes.map TradeAction.role ↔ ∃ a ∈ sim.queued, a.kind = .CLOSE ∧ a.role = role := by
    intro role
    rw [List.mem_map, hq]
    constructor
    · rintro ⟨a, ha, hr⟩
      exact ⟨a, List.mem_append_left _ ha, hc a ha, hr⟩
    · rintro ⟨a, ha, hk, hr⟩
      rcases List.mem_append.mp ha with ha | ha
      · exact ⟨a, ha, hr⟩
      · rcases hopens with ⟨rfl, _⟩ | ⟨side, _, _, rfl, _⟩
        · cases ha
        · have hk' : a.kind = .OPEN := by
            simp only [entryOrders, openAction, List.mem_cons, List.not_mem_nil, or_false] at ha
            rcases ha with rfl | rfl <;> rfl
          rw [hk'] at hk
          cases hk
  refine ⟨?_, ?_, ?_, hl.ledger, hl.pairs⟩
  · intro role
    rw [← hopen, Dict.mem_keys_iff]
    cases ho : sim.state.openTranche role with
    | none => simp [hb.bracket_none ho]
    | some t =>
      obtain ⟨b, hget, _⟩ := hb.bracket_some ho
      simp [hget]
  · intro role t b ht hget
    cases ho : sim.state.openTranche role with
    | none =>
      rw [hb.bracket_none ho] at hget
      cases hget
    | some t' =>
      obtain ⟨b', hget', ha⟩ := hb.bracket_some ho
      obtain rfl : b' = b := Option.some.inj (hget'.symm.trans hget)
      obtain rfl : t' = t := Option.some.inj ((Option.filter_eq_some_iff.mp ho).1.symm.trans ht)
      exact ha
  · intro role
    rw [Dict.mem_keys_iff, hb.entries, hopen, hqueued]

end SimulatedBookAux

open SimulatedBookAux

/-- At the end of every bar of a backtest the books agree with the trade state. Entries come in pairs and are never made over an open
entry, and every exit has an earlier entry of its own. The loop raises nothing but a division by zero of the sizing: never the
assertion on the entries, and never the errors of `on_entry_filled`. -/
theorem simulated_book (F : Type) [PyDecimal D] [PyFloat F] [Boundary F D] (bars : List (Bar D)) (config : UtBotConfig D)
    (spec : SymbolSpec D) (equity rate : D) (confirm : Bool) :
    (∀ signals, compute_signals F bars config = .ok signals → ∀ n,
      (∀ sim, runBars config spec rate confirm 0 ((bars.zip signals).take n) (.start equity) = .ok sim → BookAgrees sim) ∧
      ∀ e, runBars config spec rate confirm 0 ((bars.zip signals).take n) (.start equity) = .error e →
        e = .divisionByZero) ∧
    ∀ result, run_backtest config spec rate confirm F bars equity = .ok result →
      EntriesPaired result.fills ∧ (∃ m, Ledger.Matching (fillLedger D) result.fills m) ∧
      ∀ pre entry post before, result.fills = pre ++ entry :: post → entry.kind = .ENTRY →
        Ledger.LastUnder (fillLedger D) entry.role pre before → before.kind = .EXIT := by
  have hruns : ∀ rows, (∃ sim, runBars config spec rate confirm 0 rows (.start equity) = .ok sim ∧ BookAgrees sim) ∨
      runBars config spec rate confirm 0 rows (.start equity) = .error .divisionByZero := fun rows =>
    (booked_runBars config spec rate confirm rows (booked_start equity)).imp_left fun ⟨sim, hrun, h⟩ =>
      ⟨sim, hrun, h.agrees⟩
  constructor
  · intro signals _ n
    rcases hruns ((bars.zip signals).take n) with ⟨sim, hrun, h⟩ | herror
    · rw [hrun]
      exact ⟨fun _ hsim => Except.ok.inj hsim ▸ h, nofun⟩
    · rw [herror]
      exact ⟨nofun, fun _ he => (Except.error.inj he).symm⟩
  · intro result hrun
    obtain ⟨signals, _, hrun⟩ := except_bind_eq_ok hrun
    obtain ⟨sim, hsim, hrun⟩ := except_bind_eq_ok hrun
    obtain rfl := Except.ok.inj hrun
    rcases hruns (bars.zip signals) with ⟨sim', hsim', h⟩ | herror
    · obtain rfl : sim' = sim := Except.ok.inj (hsim'.symm.trans hsim)
      refine ⟨h.pairs, h.fills.exists_matched.imp fun _ hm => hm.matching, ?_⟩
      intro pre entry post before hlog hentry hbefore
      have hexit := h.fills.entry_fresh hlog (by simp [fillLedger, hentry]) hbefore
      cases hk : before.kind with
      | ENTRY => simp [fillLedger, hk] at hexit
      | EXIT => rfl
    · rw [herror] at hsim
      cases hsim

end MtossBot

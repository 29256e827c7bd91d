import Mathlib.Data.Nat.Bits
import MtossBot.Theorems.LinkStore

/-!
# The magic of an order

MT5 has no field for the key of an order. What is left of the key there is a number of 63 bits, its magic, and the first characters as a
comment. Two keys have one magic exactly when their first sixteen digits agree up to the highest bit (`SameMagic`), so the store, which
refuses a second row with a magic on a login, lets a magic or a comment name at most one order of a login.
-/

namespace MtossBot

/-- Two keys whose first sixteen digits agree, but perhaps for the highest bit. -/
def SameMagic (key key' : String) : Prop :=
  (key.toList.take 16).tail = (key'.toList.take 16).tail ∧
    ∃ d d', hexValue (key.toList.headD '0') = some d ∧ hexValue (key'.toList.headD '0') = some d' ∧ d % 8 = d' % 8

/-- A link with the magic of its key. -/
def Mt5OrderLink.Derived (link : Mt5OrderLink) : Prop := magic_for link.idempotency_key = .ok link.magic

namespace MagicAux

/-- A key that the models accept. -/
def Key (key : String) : Prop := ExecutionIntentFields.require_sha256_key key = .ok key

theorem key_iff {key : String} : Key key ↔ key.toList.length = 64 ∧ ∀ c ∈ key.toList, c ∈ lowerHex := by
  unfold Key ExecutionIntentFields.require_sha256_key
  split
  · rename_i h
    simp only [reduceCtorEq, false_iff, not_and, not_forall]
    intro hlength
    rcases h with h | h
    · exact absurd hlength h
    · obtain ⟨c, hc, hno⟩ := List.any_eq_true.mp h
      exact ⟨c, hc, by simpa using hno⟩
  · rename_i h
    rw [not_or, not_not, Bool.not_eq_true, List.any_eq_false] at h
    exact iff_of_true rfl ⟨h.1, fun c hc => by simpa using h.2 c hc⟩

/-- The digits that make the magic of a key: the first one, and fifteen more. -/
theorem key_digits {key : String} (h : Key key) : ∃ c rest, key.toList.take 16 = c :: rest ∧ rest.length = 15 ∧ c ∈ lowerHex ∧
    (∀ x ∈ rest, x ∈ lowerHex) ∧ key.toList.headD '0' = c := by
  obtain ⟨hlength, hdigits⟩ := key_iff.mp h
  cases hlist : key.toList with
  | nil =>
    rw [hlist] at hlength
    cases hlength
  | cons c rest =>
    rw [hlist, List.length_cons] at hlength
    rw [hlist] at hdigits
    refine ⟨c, rest.take 15, rfl, ?_, hdigits c List.mem_cons_self, ?_, rfl⟩
    · rw [List.length_take]
      omega
    · intro x hx
      exact hdigits x (List.mem_cons_of_mem _ (List.mem_of_mem_take hx))

/-- The magic of a key by its digits: the first one counts modulo eight. -/
theorem magic_for_key {key : String} (h : Key key) : ∃ c rest d n, key.toList.take 16 = c :: rest ∧ rest.length = 15 ∧
    (∀ x ∈ rest, x ∈ lowerHex) ∧ key.toList.headD '0' = c ∧ hexValue c = some d ∧ ofHex 0 rest = some n ∧ n < 16 ^ 15 ∧
    magic_for key = .ok ((d % 8 * 16 ^ 15 + n : Nat) : Int) := by
  obtain ⟨c, rest, htake, hlength, hc, hrest, hhead⟩ := key_digits h
  obtain ⟨d, hd, hvalue, _⟩ := hexValue_of_mem hc
  obtain ⟨n, hn, hread, hafter⟩ := ofHex_from hrest d
  rw [hlength] at hn hafter
  refine ⟨c, rest, d, n, htake, hlength, hrest, hhead, hvalue, hread, hn, ?_⟩
  have hmask : MAGIC_MASK.toNat = 2 ^ 63 - 1 := rfl
  have hread16 : ofHex 0 (c :: rest) = some (d * 16 ^ 15 + n) := by
    rw [ofHex, hvalue]
    simpa using hafter
  have hok : ¬((c :: rest).length < 16 ∨ (c :: rest).any (fun character => character ∉ lowerHex) = true) := by
    rw [not_or, Bool.not_eq_true, List.any_eq_false, List.length_cons, hlength]
    refine ⟨by omega, ?_⟩
    intro x hx
    rcases List.mem_cons.mp hx with rfl | hx
    · simpa using hc
    · simpa using hrest x hx
  unfold magic_for
  rw [htake]
  dsimp only
  rw [if_neg hok, hread16, Option.getD_some, hmask, Nat.and_two_pow_sub_one_eq_mod]
  have hmod : (d * 16 ^ 15 + n) % 2 ^ 63 = d % 8 * 16 ^ 15 + n := by omega
  rw [hmod]

/-- Two keys have one magic exactly when their digits agree so far. -/
theorem magic_eq_iff {key key' : String} (h : Key key) (h' : Key key') : magic_for key = magic_for key' ↔ SameMagic key key' := by
  obtain ⟨c, rest, d, n, htake, hlength, hrest, hhead, hvalue, hread, hn, hmagic⟩ := magic_for_key h
  obtain ⟨c', rest', d', n', htake', hlength', hrest', hhead', hvalue', hread', hn', hmagic'⟩ := magic_for_key h'
  unfold SameMagic
  rw [hmagic, hmagic', htake, htake', hhead, hhead', hvalue, hvalue', List.tail_cons, List.tail_cons, Except.ok.injEq, Nat.cast_inj]
  constructor
  · intro heq
    have hdigits : d % 8 = d' % 8 := by omega
    have hnumbers : n = n' := by omega
    refine ⟨ofHex_injective hrest hrest' (hlength.trans hlength'.symm) ?_, d, d', rfl, rfl, hdigits⟩
    rw [hread, hread', hnumbers]
  · rintro ⟨rfl, e, e', he, he', hdigits⟩
    rw [hread] at hread'
    obtain rfl := Option.some.inj hread'
    obtain rfl := Option.some.inj he
    obtain rfl := Option.some.inj he'
    rw [hdigits]

/-- Keys with one comment have one magic. -/
theorem sameMagic_of_comment {key key' : String} (h : Key key) (heq : comment_for key = comment_for key') : SameMagic key key' := by
  have htake : key.toList.take 16 = key'.toList.take 16 := by
    have hlists := congrArg String.toList heq
    rwa [comment_for, comment_for, String.toList_ofList, String.toList_ofList] at hlists
  obtain ⟨c, rest, d, _, hc, _, _, hhead, hvalue, _⟩ := magic_for_key h
  have hhead' : key'.toList.headD '0' = c := by
    rw [htake] at hc
    cases hlist : key'.toList with
    | nil =>
      rw [hlist] at hc
      cases hc
    | cons c' rest' =>
      rw [hlist, List.take_succ_cons] at hc
      exact (List.cons.inj hc).1
  exact ⟨congrArg List.tail htake, d, d, by rw [hhead, hvalue], by rw [hhead', hvalue], rfl⟩

/-! ### The rows of the store -/

theorem key_of_link (link : Mt5OrderLink) : Key link.idempotency_key := by
  have h := link.accepted
  simp only [Mt5OrderLinkFields.errors, List.append_eq_nil_iff] at h
  obtain ⟨⟨⟨hkey, _⟩, _⟩, _⟩ := h
  unfold Key
  unfold ExecutionIntentFields.require_sha256_key at hkey ⊢
  split at hkey
  · cases hkey
  · rename_i hok
    rw [if_neg hok]

theorem mem_reservations {key : UUID × String} {history : List (LinkCall × Except Exc Mt5OrderLink)} {link : Mt5OrderLink}
    (h : link ∈ reservations key history) : ∃ out, (.reserve link, out) ∈ history := by
  obtain ⟨⟨call, out⟩, hmem, hlink⟩ := List.mem_filterMap.mp h
  split at hlink
  · rename_i link' out' heq
    split at hlink
    · obtain rfl := Option.some.inj hlink
      exact ⟨_, heq ▸ hmem⟩
    · cases hlink
  · cases hlink

/-- A row keeps the magic of its key. -/
theorem derived_of_run {store : InMemoryLinkStore} {history : List (LinkCall × Except Exc Mt5OrderLink)} (h : LinkRun store history)
    (hderived : ∀ link out, (.reserve link, out) ∈ history → link.Derived) {row : Mt5OrderLink} (hrow : row ∈ store.rows.values) :
    row.Derived := by
  obtain ⟨key, hkey⟩ := Dict.mem_values_iff.mp hrow
  obtain ⟨link, rest, hlinks, horder⟩ := (LinkStoreAux.kept_of_run h).first key row hkey
  obtain ⟨out, hmem⟩ := mem_reservations (hlinks ▸ List.mem_cons_self : link ∈ reservations key history)
  have hlink := hderived link out hmem
  have hfields := LinkStoreAux.order_fields horder
  unfold Mt5OrderLink.Derived at hlink ⊢
  rw [show row.idempotency_key = link.idempotency_key from congrArg Prod.snd hfields.1, hfields.2.2]
  exact hlink

/-- A magic of 63 bits is the same number after it went out unsigned and came back signed. -/
theorem toInt_magic {magic : Int} (h : 0 ≤ magic ∧ magic ≤ MAGIC_MASK) : (BitVec.ofInt 64 magic).toInt = magic := by
  have hmask : MAGIC_MASK = 2 ^ 63 - 1 := rfl
  rw [BitVec.toInt_ofInt, Int.bmod_eq_of_le]
  · omega
  · omega

end MagicAux

open MagicAux

/-- The magic of every accepted key is one that the model of a link accepts and that MT5 gives back unchanged. -/
theorem magic_accepted {key : String} (h : ExecutionIntentFields.require_sha256_key key = .ok key) :
    ∃ magic, magic_for key = .ok magic ∧ Mt5OrderLinkFields.require_63_bit_magic magic = .ok magic ∧
      (BitVec.ofInt 64 magic).toInt = magic := by
  obtain ⟨_, _, d, n, _, _, _, _, _, _, hn, hmagic⟩ := magic_for_key h
  have hmask : MAGIC_MASK = 2 ^ 63 - 1 := rfl
  have hrange : 0 ≤ ((d % 8 * 16 ^ 15 + n : Nat) : Int) ∧ ((d % 8 * 16 ^ 15 + n : Nat) : Int) ≤ MAGIC_MASK := by
    rw [hmask]
    omega
  exact ⟨_, hmagic, by rw [Mt5OrderLinkFields.require_63_bit_magic, if_pos hrange], toInt_magic hrange⟩

/-- After any calls of the store that reserve links with the magics of their keys: a magic that MT5 gives back on a login is that of one
row at most, and so is a comment; and a new link is refused exactly when a row of its login has a key whose first sixteen digits agree with
its own up to the highest bit. -/
theorem magic_names_one_order {store : InMemoryLinkStore} {history : List (LinkCall × Except Exc Mt5OrderLink)}
    (h : LinkRun store history) (hderived : ∀ link out, (.reserve link, out) ∈ history → link.Derived) :
    (∀ row ∈ store.rows.values, ∀ row' ∈ store.rows.values, row.mt5_login = row'.mt5_login →
      (BitVec.ofInt 64 row.magic).toInt = row'.magic ∨ comment_for row.idempotency_key = comment_for row'.idempotency_key ∨
        SameMagic row.idempotency_key row'.idempotency_key → row = row') ∧
    ∀ link : Mt5OrderLink, link.Derived → store.get link.account_id link.idempotency_key = none →
      ((∃ e, (store.reserve link).1 = .error e) ↔ ∃ row ∈ store.rows.values, row.mt5_login = link.mt5_login ∧
        SameMagic row.idempotency_key link.idempotency_key) := by
  have hrows : ∀ row ∈ store.rows.values, row.Derived := fun row hrow => derived_of_run h hderived hrow
  have hsame : ∀ row link : Mt5OrderLink, row.Derived → link.Derived →
      (row.magic = link.magic ↔ SameMagic row.idempotency_key link.idempotency_key) := by
    intro row link hrow hlink
    rw [← magic_eq_iff (key_of_link row) (key_of_link link), hrow, hlink, Except.ok.injEq]
  have hrange : ∀ row : Mt5OrderLink, row.Derived → (BitVec.ofInt 64 row.magic).toInt = row.magic := by
    intro row hrow
    obtain ⟨magic, hmagic, _, hback⟩ := magic_accepted (key_of_link row)
    rw [hrow] at hmagic
    obtain rfl := Except.ok.inj hmagic
    exact hback
  refine ⟨?_, ?_⟩
  · intro row hrow row' hrow' hlogin hnamed
    have hmagic : row.magic = row'.magic := by
      rcases hnamed with hback | hcomment | hagree
      · rwa [hrange row (hrows row hrow)] at hback
      · exact (hsame row row' (hrows row hrow) (hrows row' hrow')).mpr (sameMagic_of_comment (key_of_link row) hcomment)
      · exact (hsame row row' (hrows row hrow) (hrows row' hrow')).mpr hagree
    exact List.inj_on_of_nodup_map (LinkStoreAux.kept_of_run h).nodup hrow hrow' (Prod.ext hlogin hmagic)
  · intro link hlink hnew
    have hnew : store.rows.get? link.key = none := hnew
    rcases LinkStoreAux.reserve_cases store link with ⟨existing, hexisting, _⟩ | ⟨e, hr⟩ | ⟨_, hclash, hr⟩
    · rw [hnew] at hexisting
      cases hexisting
    · refine iff_of_true ⟨e, by rw [hr]⟩ ?_
      by_contra hno
      have hempty : (store.rows.values.filter fun row => row.mt5_login = link.mt5_login ∧ row.magic = link.magic) = [] := by
        refine List.filter_eq_nil_iff.mpr ?_
        intro row hrow hboth
        obtain ⟨hlogin, hmagic⟩ : row.mt5_login = link.mt5_login ∧ row.magic = link.magic := by simpa using hboth
        exact hno ⟨row, hrow, hlogin, (hsame row link (hrows row hrow) hlink).mp hmagic⟩
      unfold InMemoryLinkStore.reserve at hr
      rw [hnew] at hr
      dsimp only at hr
      rw [if_neg (not_not.mpr hempty)] at hr
      cases hr
    · refine iff_of_false ?_ ?_
      · rintro ⟨e, he⟩
        rw [hr] at he
        cases he
      · rintro ⟨row, hrow, hlogin, hagree⟩
        exact hclash row hrow ⟨hlogin, (hsame row link (hrows row hrow) hlink).mpr hagree⟩

namespace MagicAux

/-- The link of a key that starts with a digit. -/
def linkFields (first : Char) (account_id : UUID) : Mt5OrderLinkFields where
  idempotency_key := String.ofList (first :: List.replicate 63 'a')
  intent_id := ⟨1⟩
  account_id := account_id
  mt5_login := 100
  magic := 0x2aaaaaaaaaaaaaaa
  broker_symbol := "XAUUSD"
  side := .BUY
  requested_lots := .ofInt 1
  submit_started_at := .aware 0 0

def sentLink : Mt5OrderLink := ⟨linkFields 'a' ⟨2⟩, by decide⟩

/-- The keys of the two differ in the highest bit only. -/
def nextLink : Mt5OrderLink := ⟨linkFields '2' ⟨2⟩, by decide⟩

theorem derived_links : sentLink.Derived ∧ nextLink.Derived := ⟨rfl, rfl⟩

end MagicAux

/-- A second link whose key differs in the highest bit is refused. -/
theorem magic_names_one_order_refused :
    ∃ store history, LinkRun store history ∧ store.get ⟨2⟩ nextLink.idempotency_key = none ∧ ∃ e, (store.reserve nextLink).1 = .error e := by
  have hrun := LinkRun.step (.reserve sentLink) .init
  have hderived : ∀ link out, (LinkCall.reserve link, out) ∈ [(LinkCall.reserve sentLink, ((LinkCall.reserve sentLink).apply {}).1)] →
      link.Derived := by
    intro link out hmem
    obtain ⟨hlink, _⟩ := Prod.mk.inj (List.mem_singleton.mp hmem)
    obtain rfl := LinkCall.reserve.inj hlink
    exact derived_links.1
  have hnew : ((LinkCall.reserve sentLink).apply {}).2.get ⟨2⟩ nextLink.idempotency_key = none := by decide
  refine ⟨_, _, hrun, hnew, ?_⟩
  refine ((magic_names_one_order hrun hderived).2 nextLink derived_links.2 hnew).mpr ⟨sentLink, List.mem_singleton_self _, rfl, ?_⟩
  exact ⟨by decide, 10, 2, by decide, by decide, rfl⟩

end MtossBot

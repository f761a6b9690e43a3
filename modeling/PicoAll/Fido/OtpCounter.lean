import PicoAll.Fido.OtpTicket

/-!
# The counters of Yubico OTPs

Over runs of power cycles, scans, status queries, button presses, updates and swaps the passwords of
a slot carry a strictly increasing pair of counters (`otp_counters_increase`), as long as nothing
takes the slots for scanned that have not been, and the usage counter is not exhausted. Both do
happen: the status query marks the slots as scanned without counting them up
(`otp_status_repeats_counters`), and a counter of 0x7fff is used again when the session counter
wraps, and after the next power-up.
-/

namespace PicoAll

open BigEndian ByteBuffer FaultProgram List Function Option Nat

variable {α : Type} {key data data' : Bytes} {c : ℕ} {A : Outcome → Prop} {s s' s'' : OtpDevice}
  {i j : Fin 4}

/-! ### Updates -/

/-- The Yubico OTP slots are kept with their counters, and the session counters are the same. -/
structure SlotsKept (s s' : OtpDevice) : Prop where
  scanned : s.scanned = true → s'.scanned = true
  session_eq : s'.sessionCounter = s.sessionCounter
  valid : s.Valid → s'.Valid
  slot : ∀ i key c data, s.data i = some data → OtpSlotIs key c data →
    ∃ data', s'.data i = some data' ∧ OtpSlotIs key c data'

theorem SlotsKept.of_sameData (h : SameData s s') : SlotsKept s s' :=
  ⟨fun hs ↦ h.scanned_eq.trans hs, h.session_eq, fun hv ↦ hv.of_data_eq h.data_eq,
    fun i _ _ data hdata hslot ↦ ⟨data, by rw [h.data_eq, hdata], hslot⟩⟩

theorem SlotsKept.refl (s : OtpDevice) : SlotsKept s s :=
  .of_sameData (.refl s)

theorem SlotsKept.trans (h : SlotsKept s s') (h' : SlotsKept s' s'') : SlotsKept s s'' := by
  refine ⟨fun hs ↦ h'.scanned (h.scanned hs), h'.session_eq.trans h.session_eq,
    fun hv ↦ h'.valid (h.valid hv), fun i key c data hdata hslot ↦ ?_⟩
  obtain ⟨data', hdata', hslot'⟩ := h.slot i key c data hdata hslot
  exact h'.slot i key c data' hdata' hslot'

theorem SlotsKept.scan (s : OtpDevice) : SlotsKept s { s with scanned := true } :=
  ⟨fun _ ↦ rfl, rfl, id, fun _ _ _ data hdata hslot ↦ ⟨data, hdata, hslot⟩⟩

variable {request : Bytes} {typed : List OtpTyped}

/-- The slots that a swap is asked for, with the session counters, change places. -/
structure SwapEffect (i j : Fin 4) (s s' : OtpDevice) : Prop where
  scanned_eq : s'.scanned = true
  session_eq : s'.sessionCounter = s.sessionCounter ∘ Equiv.swap i j
  data_eq : s'.data = s.data ∘ Equiv.swap i j

variable (isOtp : Bool)

/-- Every storage operation takes effect and reports success. -/
def AllOk (A : Outcome → Prop) : Prop :=
  ∀ o, A o → o = .ok

theorem AllOk.not (hok : AllOk A) {o : Outcome} (hne : o ≠ .ok) : ¬ A o :=
  fun h ↦ hne (hok o h)

theorem AllOk.quiet (hok : AllOk A) : Quiet A :=
  ⟨hok.not nofun, hok.not nofun⟩

/-- The scan can count up the slot, if it is still to come. -/
def ScanRoom (s : OtpDevice) (i : Fin 4) : Prop :=
  s.scanned = false → ∀ data, s.data i = some data → data.length = otpConfigSize + 8 →
    otpUsageCounter data < 0x7fff

/-- The counters of a password. -/
def OtpTicket.counters (ticket : OtpTicket) : ℕ ×ₗ ℕ :=
  toLex (ticket.usage, ticket.session)

/-- The counters of the first password that a slot types at a usage counter. -/
def nextCounters (c : ℕ) (k : UInt8) : ℕ ×ₗ ℕ :=
  toLex (if c = 0 then 1 else c, k.toNat)

/-- **The invariant.** While the slots are scanned, what has been typed is below the counters that
come next; while they are not, its usage counters are not above that of the slot. -/
structure OtpRunIs (key : Bytes) (i : Fin 4) (ts : List OtpTicket) (s : OtpDevice) (data : Bytes)
    (c : ℕ) : Prop where
  valid : s.Valid
  data_eq : s.data i = some data
  slot : OtpSlotIs key c data
  counter_le : c ≤ 0x7fff
  fresh : c = 0 → ts = []
  increasing : ts.Pairwise fun t u ↦ t.counters < u.counters
  key_eq : ∀ t ∈ ts, t.key = key
  usage_le : ∀ t ∈ ts, t.usage ≤ c
  below : s.scanned = true → ∀ t ∈ ts, t.counters < nextCounters c (s.sessionCounter i)

variable {ts : List OtpTicket}

theorem nextCounters_mono {c' : ℕ} (h : c ≤ c') (k : UInt8) :
    nextCounters c k ≤ nextCounters c' k := by
  rw [nextCounters, nextCounters, Prod.Lex.toLex_le_toLex]
  split_ifs <;> simp <;> omega

/-- A slot of which nothing has been typed yet. -/
theorem OtpRunIs.start (hvalid : s.Valid) (hdata : s.data i = some data)
    (hslot : OtpSlotIs key c data) (hc : c ≤ 0x7fff) : OtpRunIs key i [] s data c :=
  ⟨hvalid, hdata, hslot, hc, fun _ ↦ rfl, .nil, nofun, nofun, fun _ ↦ nofun⟩

section

variable (h : OtpRunIs key i ts s data c)
include h

/-- The data of the slot is another, the usage counter has not been counted down, and the slots are
not scanned. -/
theorem OtpRunIs.unscanned {c' : ℕ} (hvalid : s'.Valid)
    (hdata : s'.data j = some data') (hslot : OtpSlotIs key c' data') (hle : c ≤ c')
    (hc : c' ≤ 0x7fff) (hscanned : s'.scanned = false) : OtpRunIs key j ts s' data' c' :=
  ⟨hvalid, hdata, hslot, hc, fun hzero ↦ h.fresh (by omega), h.increasing, h.key_eq,
    fun t ht ↦ (h.usage_le t ht).trans hle, fun hs ↦ by rw [hscanned] at hs; cases hs⟩

theorem OtpRunIs.powerUp : OtpRunIs key i ts s.powerUp data c :=
  h.unscanned h.valid h.data_eq h.slot le_rfl h.counter_le rfl

/-- The slots are scanned, or were. -/
theorem OtpRunIs.scan (hscan : Scanned s s')
    (hroom : ScanRoom s i) : s'.scanned = true ∧ s'.sessionCounter = s.sessionCounter ∧
      ∃ c', OtpRunIs key i ts s' (if s.scanned then data else otpBumped data) c' := by
  rcases hscan with ⟨hscanned, rfl⟩ | ⟨hscanned, hscanned', hsession, hdata'⟩
  · exact ⟨hscanned, rfl, c, by rwa [if_pos hscanned]⟩
  · have hvalid : s'.Valid := h.valid.bumped fun j ↦ .inr (hdata' j)
    have hdata : s'.data i = some (otpBumped data) := by rw [hdata', h.data_eq, map_some]
    refine ⟨hscanned', hsession, ?_⟩
    rw [if_neg (by rw [hscanned]; nofun)]
    have hlt (hlen : data.length = otpConfigSize + 8) : c < 0x7fff :=
      h.slot.counter_eq ▸ hroom hscanned data h.data_eq hlen
    obtain ⟨c', hslot', ⟨rfl, hle⟩ | ⟨rfl, rfl⟩⟩ := h.slot.bumped hlt
    · refine ⟨c + 1, hvalid, hdata, hslot', hle, nofun, h.increasing, h.key_eq,
        fun t ht ↦ (h.usage_le t ht).trans (le_succ c), fun _ t ht ↦ ?_⟩
      rw [OtpTicket.counters, nextCounters, if_neg (succ_ne_zero c), Prod.Lex.toLex_lt_toLex]
      exact .inl (lt_succ_of_le (h.usage_le t ht))
    · obtain rfl := h.fresh rfl
      exact ⟨0, .start hvalid hdata hslot' (by decide)⟩

/-- The slots are kept, and scanned. -/
theorem OtpRunIs.kept (hscanned : s.scanned = true)
    (hkept : SlotsKept s s') : ∃ data', OtpRunIs key i ts s' data' c := by
  obtain ⟨data', hdata', hslot'⟩ := hkept.slot i key c data h.data_eq h.slot
  refine ⟨data', hkept.valid h.valid, hdata', hslot', h.counter_le, h.fresh, h.increasing, h.key_eq,
    h.usage_le, fun _ ↦ ?_⟩
  rw [hkept.session_eq]
  exact h.below hscanned

/-- The slot has changed places with another. -/
theorem OtpRunIs.swap {a b : Fin 4} (hscanned : s.scanned = true)
    (hswap : SwapEffect a b s s') : OtpRunIs key (Equiv.swap a b i) ts s' data c := by
  have hdata : s'.data (Equiv.swap a b i) = s.data i := by
    rw [hswap.data_eq, comp_apply, Equiv.swap_apply_self]
  refine ⟨fun j d hd ↦ ?_, hdata.trans h.data_eq, h.slot, h.counter_le, h.fresh, h.increasing,
    h.key_eq, h.usage_le, fun _ ↦ ?_⟩
  · rw [hswap.data_eq] at hd
    exact h.valid _ d hd
  · rw [hswap.session_eq, comp_apply, Equiv.swap_apply_self]
    exact h.below hscanned

end

/-- The usage counter of the next password. -/
def firstCounter (c : ℕ) : ℕ :=
  if c = 0 then 1 else c

theorem firstCounter_spec (hc : c ≤ 0x7fff) :
    c ≤ firstCounter c ∧ 0 < firstCounter c ∧ firstCounter c ≤ 0x7fff ∧
      (c < 0x7fff → firstCounter c < 0x7fff) := by
  rw [firstCounter]
  split_ifs <;> omega

theorem counterAfter_eq (c : ℕ) (k : UInt8) : counterAfter c k =
    if k + 1 = 0 ∧ firstCounter c + 1 ≤ 0x7fff then firstCounter c + 1 else firstCounter c :=
  rfl

theorem counterAfter_spec (hc : c ≤ 0x7fff) (k : UInt8) :
    firstCounter c ≤ counterAfter c k ∧ counterAfter c k ≤ 0x7fff := by
  have hfirst := firstCounter_spec hc
  rw [counterAfter_eq]
  split_ifs with h
  · exact ⟨le_succ _, h.2⟩
  · exact ⟨le_rfl, hfirst.2.2.1⟩

/-- The counters that come next after a password. -/
theorem nextCounters_lt_after {k : UInt8} (hc : c ≤ 0x7fff) (hroom : k = 255 → c < 0x7fff) :
    nextCounters c k < nextCounters (counterAfter c k) (k + 1) := by
  obtain ⟨-, hpos, -, hlt⟩ := firstCounter_spec hc
  have hafter : counterAfter c k ≠ 0 := by
    have hge := (counterAfter_spec hc k).1
    omega
  rw [nextCounters, nextCounters, if_neg hafter, Prod.Lex.toLex_lt_toLex]
  show firstCounter c < _ ∨ firstCounter c = _ ∧ _
  rw [counterAfter_eq]
  rcases eq_or_ne k 255 with rfl | hk
  · rw [if_pos ⟨rfl, hlt (hroom rfl)⟩]
    exact .inl (lt_succ_self _)
  · have htoNat : k.toNat ≠ 255 := fun h ↦ hk (UInt8.toNat_inj.mp h)
    have hk256 := k.toNat_lt
    have hnext : (k + 1).toNat = k.toNat + 1 := by
      rw [UInt8.toNat_add]
      exact mod_eq_of_lt (by rw [UInt8.toNat_one]; omega)
    have hne : k + 1 ≠ 0 := by
      intro h
      rw [h] at hnext
      cases hnext
    rw [if_neg fun h ↦ hne h.1, hnext]
    exact .inr ⟨rfl, lt_succ_self _⟩

/-- **A press of the slot.** -/
theorem OtpRunIs.press {press : OtpPress} (h : OtpRunIs key i ts s data c)
    (hscanned : s.scanned = true) (hroom : s.sessionCounter i = 255 → c < 0x7fff)
    (hpress : PressEffect press i s typed s') :
    ∃ data' c', OtpRunIs key i (ts ++ ticketsOf typed) s' data' c' := by
  obtain ⟨c', data', hdata', hslot', ⟨htyped, hsession, hc'⟩ | ⟨htyped, hsession, hc'⟩⟩ :=
    hpress.slot key c data h.data_eq h.slot
  · -- a password has been typed
    have hc := h.counter_le
    obtain ⟨hge, hle⟩ := counterAfter_spec hc (s.sessionCounter i)
    obtain rfl := hc' hc
    obtain ⟨hself, hpos, hfirst, -⟩ := firstCounter_spec hc
    obtain ⟨husage, hsess⟩ := otpTicket_counters press h.slot.len_valid
      (show firstCounter c < 65536 by omega) (s.sessionCounter i)
    let ticket := otpTicket press data (firstCounter c) (s.sessionCounter i)
    have hticket : ticket.counters = nextCounters c (s.sessionCounter i) := by
      rw [OtpTicket.counters, husage, hsess, nextCounters, firstCounter]
    have hnext := nextCounters_lt_after hc hroom
    rw [htyped]
    refine ⟨data', _, hpress.valid h.valid, hdata', hslot', hle, fun hzero ↦ ?_, ?_, ?_, ?_, ?_⟩
    · omega
    · refine pairwise_append.mpr ⟨h.increasing, pairwise_singleton _ _, ?_⟩
      intro t ht u hu
      obtain rfl := mem_singleton.mp hu
      exact (h.below hscanned t ht).trans_eq hticket.symm
    · intro t ht
      rcases mem_append.mp ht with ht | ht
      · exact h.key_eq t ht
      · obtain rfl := mem_singleton.mp ht
        exact h.slot.key_eq
    · intro t ht
      rcases mem_append.mp ht with ht | ht
      · exact (h.usage_le t ht).trans (hself.trans hge)
      · obtain rfl := mem_singleton.mp ht
        exact husage.trans_le hge
    · intro _ t ht
      rw [hsession]
      rcases mem_append.mp ht with ht | ht
      · exact (h.below hscanned t ht).trans hnext
      · obtain rfl := mem_singleton.mp ht
        exact hticket.trans_lt hnext
  · -- nothing has been typed, though the counter may have been stored
    have hc := h.counter_le
    obtain ⟨hge, hle⟩ := counterAfter_spec hc (s.sessionCounter i)
    have hmono : c ≤ c' ∧ c' ≤ 0x7fff := by
      rcases hc' hc with rfl | rfl
      · exact ⟨le_rfl, hc⟩
      · exact ⟨(firstCounter_spec hc).1.trans hge, hle⟩
    rw [htyped, append_nil]
    refine ⟨data', c', hpress.valid h.valid, hdata', hslot', hmono.2,
      fun hzero ↦ h.fresh (by omega), h.increasing, h.key_eq,
      fun t ht ↦ (h.usage_le t ht).trans hmono.1, fun _ t ht ↦ ?_⟩
    rw [hsession]
    exact (h.below hscanned t ht).trans_le (nextCounters_mono hmono.1 _)

end PicoAll

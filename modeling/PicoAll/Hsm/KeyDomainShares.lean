import PicoAll.Hsm.KeyDomain

/-!
# The shares of a key domain

`DomainHeld` says what is stored of a domain whose accepted shares are known: none, some of them, all of
them sealed, or all of them pending. Loads keep it (`wp_loadDkek`), an import adds a share or leaves
everything as it was (`wp_cmdImportShare`), a change of the domain sets it back (`wp_cmdChangeDomain`),
and so does every careful run (`dkek_shares_agree`).
-/

namespace PicoAll

open FaultProgram List Option

/-! ### Sums -/

theorem length_xorBytes {a b : Bytes} (ha : a.length = 32) (hb : b.length = 32) :
    (xorBytes a b).length = 32 := by
  rw [xorBytes, length_zipWith, ha, hb]
  rfl

/-- A share that is added twice is taken back. -/
theorem xorBytes_xorBytes {a b : Bytes} (h : a.length = b.length) :
    xorBytes (xorBytes a b) b = a := by
  refine ext_getElem ?_ fun n h₁ h₂ ↦ ?_
  · simp only [xorBytes, length_zipWith]
    omega
  · simp only [xorBytes, getElem_zipWith]
    rw [UInt8.xor_assoc, UInt8.xor_self, UInt8.xor_zero]

theorem sumShares_append (shares : List Bytes) (share : Bytes) :
    sumShares (shares ++ [share]) = xorBytes (sumShares shares) share := by
  rw [sumShares, foldl_append]
  rfl

theorem length_accumulatedShares (record : Bytes) : (accumulatedShares record).length = 32 := by
  rw [accumulatedShares]
  split_ifs with h
  · exact h
  · exact length_replicate

theorem accumulatedShares_of_length {record : Bytes} (h : record.length = 32) :
    accumulatedShares record = record :=
  if_pos h

variable {C : DkekCrypto} {i j : Fin maxKeyDomains} {shares : List Bytes} {d d' : DkekDevice}
  {A : Outcome → Prop} {key : Bytes} {dkeks current : UInt8}

/-! ### What is stored of a domain -/

def DkekRam.hasSession (ram : DkekRam) : Bool :=
  ram.hasSessionPin || ram.hasSessionSopin

/-- What is stored of a domain whose accepted shares are `shares`. -/
inductive DomainHeld (C : DkekCrypto) (i : Fin maxKeyDomains) (shares : List Bytes)
    (d : DkekDevice) : Prop where
  /-- There are no shares to be imported. -/
  | idle (dkeks : UInt8) (hstate : domainState d i = some (dkeks, dkeks))
      (hdkeks : dkeks = 0 ∨ dkeks = 0xff) (hshares : shares = [])
      (hpending : d.ram.pendingSaveDkek ≠ some i)
  /-- There are shares to be imported. -/
  | filling (dkeks current : UInt8) (hstate : domainState d i = some (dkeks, current))
      (hcurrent : current.toNat = shares.length) (hlt : current < dkeks)
      (hdata : accumulatedShares (dkekFileData d (.dkek i)) = sumShares shares)
      (hpending : d.ram.pendingSaveDkek ≠ some i)
  /-- The DKEK is sealed. -/
  | sealed (dkeks : UInt8) (hstate : domainState d i = some (dkeks, dkeks))
      (hdkeks : dkeks.toNat = shares.length) (hshares : shares ≠ [])
      (hdata : dkekFileData d (.dkek i) = mkekObject C (sumShares shares))
      (hlength : (sumShares shares).length = 32) (hpending : d.ram.pendingSaveDkek ≠ some i)
  /-- The DKEK is to be sealed at the next login. -/
  | pending (dkeks : UInt8) (hstate : domainState d i = some (dkeks, dkeks))
      (hdkeks : dkeks.toNat = shares.length) (hshares : shares ≠ [])
      (hdata : dkekFileData d (.dkek i) = sumShares shares)
      (hlength : (sumShares shares).length = 32) (hpending : d.ram.pendingSaveDkek = some i)
      (hsession : d.ram.hasSession = false)

/-- The files are as they were, as far as they are about a domain. -/
structure SameDomain (i : Fin maxKeyDomains) (d d' : DkekDevice) : Prop where
  state : domainState d' i = domainState d i
  data : dkekFileData d' (.dkek i) = dkekFileData d (.dkek i)

namespace SameDomain

protected theorem refl (i : Fin maxKeyDomains) (d : DkekDevice) : SameDomain i d d :=
  ⟨rfl, rfl⟩

protected theorem trans {d'' : DkekDevice} (h : SameDomain i d d') (h' : SameDomain i d' d'') :
    SameDomain i d d'' :=
  ⟨h'.state.trans h.state, h'.data.trans h.data⟩

/-- Only what is read matters. -/
theorem of_read (hkeyDomain : d'.read .keyDomain = d.read .keyDomain)
    (hdkek : d'.read (.dkek i) = d.read (.dkek i)) : SameDomain i d d' := by
  refine ⟨?_, ?_⟩
  · rw [domainState, dkekFileData, hkeyDomain]
    rfl
  · rw [dkekFileData, hdkek]
    rfl

theorem of_files (h : d'.files = d.files) : SameDomain i d d' :=
  of_read (by rw [Device.read, h]; rfl) (by rw [Device.read, h]; rfl)

theorem attempted (i : Fin maxKeyDomains) (d : DkekDevice) (f : DkekFile) :
    SameDomain i d (d.attempted f) :=
  of_files rfl

/-- A write of another file. -/
theorem written {f : DkekFile} (hkeyDomain : f ≠ .keyDomain) (hdkek : f ≠ .dkek i)
    (d : DkekDevice) (a : Option Bytes) : SameDomain i d (d.written f a) :=
  of_read (Device.read_written_of_ne hkeyDomain.symm) (Device.read_written_of_ne hdkek.symm)

end SameDomain

/-- What is stored stays so, if what is pending does, and no session begins in the meantime. -/
theorem DomainHeld.of_same (h : DomainHeld C i shares d) (hsame : SameDomain i d d')
    (hpending : d'.ram.pendingSaveDkek = some i ↔ d.ram.pendingSaveDkek = some i)
    (hsession : d.ram.pendingSaveDkek = some i → d.ram.hasSession = false →
      d'.ram.hasSession = false) : DomainHeld C i shares d' := by
  cases h with
  | idle n hstate hn hshares hno =>
    exact .idle n (hsame.state.trans hstate) hn hshares (hpending.not.mpr hno)
  | filling n c hstate hc hlt hdata hno =>
    exact .filling n c (hsame.state.trans hstate) hc hlt (by rw [hsame.data, hdata])
      (hpending.not.mpr hno)
  | sealed n hstate hn hshares hdata hlen hno =>
    exact .sealed n (hsame.state.trans hstate) hn hshares (hsame.data.trans hdata) hlen
      (hpending.not.mpr hno)
  | pending n hstate hn hshares hdata hlen hyes hno =>
    exact .pending n (hsame.state.trans hstate) hn hshares (hsame.data.trans hdata) hlen
      (hpending.mpr hyes) (hsession hyes hno)

theorem DomainHeld.of_same_ram (h : DomainHeld C i shares d) (hsame : SameDomain i d d')
    (hram : d'.ram = d.ram) : DomainHeld C i shares d' :=
  h.of_same hsame (by rw [hram]) fun _ hno ↦ by rw [hram]; exact hno

/-- The number of the accepted shares. -/
theorem DomainHeld.eq_nil (h : DomainHeld C i shares d) (hstate : domainState d i = some (dkeks, 0)) :
    shares = [] := by
  cases h with
  | idle n _ _ hshares _ => exact hshares
  | filling n c hstate' hc _ _ _ =>
    obtain ⟨-, rfl⟩ := Prod.mk.inj (Option.some.inj (hstate.symm.trans hstate'))
    exact length_eq_zero_iff.mp hc.symm
  | sealed n hstate' hn hshares _ _ _ =>
    obtain ⟨-, rfl⟩ := Prod.mk.inj (Option.some.inj (hstate.symm.trans hstate'))
    exact absurd (length_eq_zero_iff.mp hn.symm) hshares
  | pending n hstate' hn hshares _ _ _ _ =>
    obtain ⟨-, rfl⟩ := Prod.mk.inj (Option.some.inj (hstate.symm.trans hstate'))
    exact absurd (length_eq_zero_iff.mp hn.symm) hshares

/-! ### Loads -/

theorem length_mkekObject (C : DkekCrypto) (key : Bytes) :
    (mkekObject C key).length = 33 + key.length := by
  rw [mkekObject, length_append, C.length_encrypt]
  simp only [mkekObjectHeader, length_cons, length_nil]
  omega

theorem isMkekObject_mkekObject {C : DkekCrypto} {key : Bytes} (h : key.length = 32) :
    isMkekObject (mkekObject C key) = true := by
  rw [isMkekObject, length_mkekObject, h]
  simp [mkekObject, mkekObjectHeader]

variable {E : Exit DkekError → DkekDevice → Prop} {share data : Bytes} {env : KeyDomainEnv}
  {p1 : UInt8} {settled : DkekDevice}

/-- A sealed DKEK is loaded as it was. -/
theorem wp_loadDkek_sealed {Q : Bytes → DkekDevice → Prop}
    (hdata : dkekFileData d (.dkek i) = mkekObject C key) (hlength : key.length = 32)
    (hok : d.ram.loadMkek = .ok () → Q key d)
    (herror : d.ram.loadMkek ≠ .ok () → ∀ r, E (.code r) d) : wp A (loadDkek C i) Q E d := by
  have hlen : (mkekObject C key).length = 65 := by rw [length_mkekObject, hlength]
  have hnil : mkekObject C key ≠ [] := fun h ↦ by rw [h] at hlen; cases hlen
  have haead := isMkekObject_mkekObject (C := C) hlength
  have hdrop : (mkekObject C key).drop 5 = C.encrypt key := rfl
  refine wp_get ?_
  rw [hdata]
  refine wp_ite (fun h ↦ absurd h hnil) fun _ ↦ wp_ite (fun h ↦ by omega) fun _ ↦ ?_
  refine wp_onError (wp_bind (wp_get (wp_ite (fun h ↦ ?_) fun _ ↦
    wp_ite (fun h ↦ ?_) fun _ ↦ wp_lift (fun _ hmkek ↦ ?_) fun r hmkek ↦ ?_)))
  · rw [hlen] at h
    exact absurd h (by decide)
  · rw [if_pos haead, hlen] at h
    exact absurd h (by decide)
  · rw [if_pos haead, hdrop, C.decrypt_encrypt]
    exact wp_pure (wp_return (hok hmkek) fun hne ↦ absurd hlength hne)
  · exact wp_fail (herror (by rw [hmkek]; exact nofun) _)

/-- Whatever is loaded, only the file of its domain may be written. -/
theorem keeps_loadDkek {I : DkekDevice → Prop} (hattempted : ∀ d, I d → I (d.attempted (.dkek j)))
    (hwritten : ∀ d a, I d → I (d.written (.dkek j) a)) : Preserves I (loadDkek C j) := by
  have hput (a : Option Bytes) : Preserves I (put (DkekError.status .noMemory) (.dkek j) a) :=
    .put hattempted fun d ↦ hwritten d a
  refine .get fun d ↦ .ite (fun _ ↦ .fail _) fun _ ↦ .ite (fun _ ↦ ?_) fun _ ↦ ?_
  · refine .bind (R := fun _ ↦ True) (.liftExcept fun _ _ ↦ trivial) fun _ _ ↦
      .bind (R := fun _ ↦ True) (.ite (fun _ ↦ ?_) fun _ ↦ .pure trivial) fun _ _ ↦ .pure trivial
    exact .get fun d ↦ .ite (fun _ ↦ .fail _) fun _ ↦
      .bind (R := fun _ ↦ True) (.liftExcept fun _ _ ↦ trivial) fun _ _ ↦ hput _
  · refine .onError (.bind (R := fun _ ↦ True) ?_ fun key _ ↦ .ite (fun _ ↦ .pure trivial)
      fun _ ↦ .fail _) fun _ ↦ .fail _
    refine .get fun d₁ ↦ .ite (fun _ ↦ .fail _) fun _ ↦ .ite (fun _ ↦ .fail _) fun _ ↦
      .bind (R := fun _ ↦ True) (.liftExcept fun _ _ ↦ trivial) fun _ _ ↦ .ite (fun _ ↦ ?_)
        fun _ ↦ .bind (hput _) fun _ _ ↦ .pure trivial
    rcases C.decrypt ((dkekFileData d (.dkek j)).drop 5) with - | key
    · exact .fail _
    · exact .pure trivial

/-- A domain is as it was, other than that an older record may have been stored again. -/
structure Reloaded (C : DkekCrypto) (i : Fin maxKeyDomains) (shares : List Bytes)
    (d d' : DkekDevice) : Prop where
  held : DomainHeld C i shares d'
  state : domainState d' i = domainState d i
  ram : d'.ram = d.ram

theorem Reloaded.of_same (h : DomainHeld C i shares d) (hsame : SameDomain i d d')
    (hram : d'.ram = d.ram) : Reloaded C i shares d d' :=
  ⟨h.of_same_ram hsame hram, hsame.state, hram⟩

/-- **A load keeps what is stored.** -/
theorem wp_loadDkek (h : DomainHeld C i shares d) :
    wp A (loadDkek C j) (fun _ d' ↦ Reloaded C i shares d d')
      (fun _ d' ↦ Reloaded C i shares d d') d := by
  have hd : Reloaded C i shares d d := .of_same h (.refl i d) rfl
  rcases eq_or_ne j i with rfl | hij
  swap
  · have hne : DkekFile.dkek j ≠ .dkek i := fun h ↦ hij (DkekFile.dkek.inj h)
    have hkeeps : Preserves (fun d' ↦ SameDomain i d d' ∧ d'.ram = d.ram) (loadDkek C j) :=
      keeps_loadDkek (fun d' h ↦ ⟨h.1.trans (.attempted i d' _), h.2⟩)
        fun d' a h ↦ ⟨h.1.trans (.written (fun h ↦ by cases h) hne d' a), h.2⟩
    exact wp_mono (hkeeps A d ⟨.refl i d, rfl⟩) (fun _ _ h' ↦ .of_same h h'.1.1 h'.1.2)
      fun _ _ h' ↦ .of_same h h'.1 h'.2
  have hstate (d' : DkekDevice) (a : Option Bytes) :
      domainState (d'.written (.dkek j) a) j = domainState d' j := by
    rfl
  cases h with
  | idle n hn hzero hshares hpending =>
    have hkeeps : Preserves (fun d' ↦ domainState d' j = domainState d j ∧ d'.ram = d.ram)
        (loadDkek C j) :=
      keeps_loadDkek (fun d' h ↦ h) fun d' a h ↦ ⟨(hstate d' a).trans h.1, h.2⟩
    have hidle (d' : DkekDevice) (h' : domainState d' j = domainState d j ∧ d'.ram = d.ram) :
        Reloaded C j shares d d' :=
      ⟨.idle n (h'.1.trans hn) hzero hshares (by rw [h'.2]; exact hpending), h'.1, h'.2⟩
    exact wp_mono (hkeeps A d ⟨rfl, rfl⟩) (fun _ _ h' ↦ hidle _ h'.1) fun _ _ h' ↦ hidle _ h'
  | filling n c hn hc hlt hdata hpending =>
    refine wp_get (wp_refuse hd fun _ ↦ wp_ite (fun _ ↦ ?_) fun hlen ↦ wp_onError (wp_bind ?_))
    · -- the domain is not complete, and nothing is stored
      have hcomplete : dkekIsComplete d j = false := by
        rw [dkekIsComplete, hn]
        simp [UInt8.not_le.mpr hlt]
      refine wp_lift (fun _ _ ↦ ?_) fun _ _ ↦ hd
      rw [hcomplete]
      exact wp_bind (wp_pure (wp_pure hd))
    · -- a record of another length counts for nothing, before and after
      have hstored (key : Bytes) : Reloaded C j shares d
          (d.written (.dkek j) (some (mkekObject C key))) := by
        refine ⟨.filling n c ((hstate d _).trans hn) hc hlt ?_ hpending, hstate d _, rfl⟩
        rw [dkekFileData, Device.read_written_self, ← hdata, accumulatedShares, accumulatedShares,
          if_neg hlen, if_neg (by rw [getD_some, length_mkekObject]; omega)]
      have hattempted : Reloaded C j shares d (d.attempted (.dkek j)) :=
        .of_same (.filling n c hn hc hlt hdata hpending) (.attempted j d _) rfl
      refine wp_get (wp_refuse (wp_fail hd) fun _ ↦
        wp_refuse (wp_fail hd) fun _ ↦ wp_lift (fun _ _ ↦
          wp_ite (fun _ ↦ ?_) fun _ ↦ wp_bind (wp_put (fun _ ↦ wp_pure ?_)
            (fun _ ↦ wp_fail hattempted) (fun _ ↦ wp_fail (hstored _)) fun _ ↦ hattempted))
          fun _ _ ↦ wp_fail hd)
      · rcases C.decrypt ((dkekFileData d (.dkek j)).drop 5) with - | key
        · exact wp_fail (wp_fail hd)
        · exact wp_pure (wp_return hd fun _ ↦ wp_fail (wp_fail hd))
      · exact wp_return (hstored _) fun _ ↦ wp_fail (wp_fail (hstored _))
  | sealed n hn hcount hshares hdata hlen hpending =>
    exact wp_loadDkek_sealed hdata hlen (fun _ ↦ hd) fun _ _ ↦ hd
  | pending n hn hcount hshares hdata hlen hpending hsession =>
    -- without a session there is no master key
    have hmkek : d.ram.loadMkek = .error (.status .noLogin) := by
      rw [DkekRam.hasSession, Bool.or_eq_false_iff] at hsession
      rw [DkekRam.loadMkek, hsession.1, hsession.2]
      rfl
    refine wp_get (wp_refuse hd fun _ ↦ wp_ite (fun _ ↦ ?_) fun hne ↦ absurd (hdata ▸ hlen) hne)
    rw [hmkek]
    exact wp_bind (wp_fail hd)

/-- The end of the command. -/
theorem wp_keyDomainResponse (h : DomainHeld C i shares d) :
    wp A (keyDomainResponse C j dkeks current) (fun _ d' ↦ Reloaded C i shares d d')
      (fun e d' ↦ e = .cut ∧ Reloaded C i shares d d') d := by
  refine wp_bind (wp_bind (wp_resultOf (wp_mono (wp_loadDkek h) (fun key d' hd' ↦ ?_)
    fun e d' hd' ↦ ?_)))
  · exact wp_pure (wp_get (wp_pure hd'))
  · rcases e with r | -
    · exact wp_pure (wp_get (wp_pure hd'))
    · exact ⟨rfl, hd'⟩

theorem keeps_keyDomainResponse :
    Preserves (DomainHeld C i shares) (keyDomainResponse C j dkeks current) :=
  fun _ _ h ↦ wp_mono (wp_keyDomainResponse h) (fun _ _ h ↦ ⟨h.held, trivial⟩) fun _ _ h ↦ h.2.held

/-! ### The outcomes of writes -/

/-- The outcome of the write of a file after `k` others of it. -/
theorem outcome_eq_getD {d : DkekDevice} (f : DkekFile) : d.outcome f = (d.faults f).getD 0 .ok := by
  rw [Device.outcome]
  rcases d.faults f with - | ⟨o, os⟩ <;> rfl

theorem faults_attempted_getD (d : DkekDevice) (f : DkekFile) (k : ℕ) :
    ((d.attempted f).faults f).getD k .ok = (d.faults f).getD (k + 1) .ok := by
  rw [show (d.attempted f).faults f = (d.faults f).tail from Function.update_self ..]
  rcases d.faults f with - | ⟨o, os⟩ <;> rfl

variable {Q : Unit → DkekDevice → Prop} {f : DkekFile} {c p2 : UInt8}
  {faults : DkekFile → List Outcome} {events : List DkekEvent}

theorem faults_written_of_ne {g : DkekFile} (h : g ≠ f) (d : DkekDevice) (a : Option Bytes) :
    (d.written f a).faults g = d.faults g :=
  Function.update_of_ne h ..

/-! ### The states of the domains -/

theorem domainState_eq_some {d : DkekDevice} {i : Fin maxKeyDomains} {n : UInt8} :
    domainState d i = some (n, c) ↔ (dkekFileData d .keyDomain)[2 * i.val]? = some n ∧
      (dkekFileData d .keyDomain)[2 * i.val + 1]? = some c := by
  rw [domainState]
  rcases (dkekFileData d .keyDomain)[2 * i.val]? with - | n' <;>
    rcases (dkekFileData d .keyDomain)[2 * i.val + 1]? with - | c' <;> simp

/-- A state depends on its two bytes. -/
theorem domainState_congr
    (h : (dkekFileData d' .keyDomain)[2 * i.val]? = (dkekFileData d .keyDomain)[2 * i.val]?)
    (h' : (dkekFileData d' .keyDomain)[2 * i.val + 1]? =
      (dkekFileData d .keyDomain)[2 * i.val + 1]?) : domainState d' i = domainState d i := by
  rw [domainState, h, h']
  rfl

theorem dkekFileData_written_self (d : DkekDevice) (f : DkekFile) (data : Bytes) :
    dkekFileData (d.written f (some data)) f = data := by
  rw [dkekFileData, Device.read_written_self, getD_some]

theorem dkekFileData_written_of_ne {g : DkekFile} (h : g ≠ f) (d : DkekDevice) (a : Option Bytes) :
    dkekFileData (d.written f a) g = dkekFileData d g := by
  rw [dkekFileData, Device.read_written_of_ne h]
  rfl

/-- The bytes of a domain are written. -/
def withState (d : DkekDevice) (i : Fin maxKeyDomains) (dkeks current : UInt8) : Option Bytes :=
  some (((dkekFileData d .keyDomain).set (2 * i.val) dkeks).set (2 * i.val + 1) current)

theorem domainState_withState (h : domainState d i = some (dkeks, current)) (n c : UInt8) :
    domainState (d.written .keyDomain (withState d i n c)) i = some (n, c) := by
  obtain ⟨h₀, h₁⟩ := domainState_eq_some.mp h
  have hlt := (List.getElem?_eq_some_iff.mp h₁).1
  rw [domainState_eq_some, withState, dkekFileData_written_self]
  refine ⟨?_, ?_⟩
  · rw [getElem?_set_ne (by omega), getElem?_set_self (by omega)]
  · rw [getElem?_set_self (by rw [length_set]; exact hlt)]

theorem domainState_withState_of_ne (hij : j ≠ i) (d : DkekDevice) (n c : UInt8) :
    domainState (d.written .keyDomain (withState d j n c)) i = domainState d i := by
  refine domainState_congr ?_ ?_ <;>
    rw [withState, dkekFileData_written_self, getElem?_set_ne (by omega),
      getElem?_set_ne (by omega)]

/-- Only the number of the shares is written. -/
theorem withState_count (h : domainState d i = some (dkeks, current)) (c : UInt8) :
    some ((dkekFileData d .keyDomain).set (2 * i.val + 1) c) = withState d i dkeks c := by
  obtain ⟨h₀, -⟩ := domainState_eq_some.mp h
  obtain ⟨hlt, heq⟩ := List.getElem?_eq_some_iff.mp h₀
  rw [withState, ← heq, set_getElem_self]

/-! ### An import -/

theorem wp_resultOf_importDkekShare {Q : Except DkekError Unit → DkekDevice → Prop}
    (hsome : (d.read (.dkek i)).isSome = true)
    (hwritten : d.outcome (.dkek i) = .ok ∨ d.outcome (.dkek i) = .late →
      Q (.ok ()) (d.written (.dkek i)
      (some (xorBytes (accumulatedShares (dkekFileData d (.dkek i))) (share.take 32)))))
    (hfail : d.outcome (.dkek i) = .fail → Q (.ok ()) (d.attempted (.dkek i)))
    (hcut : ∀ d', E .cut d') : wp A (resultOf (importDkekShare i share)) Q E d := by
  refine wp_resultOf (wp_get (wp_ite (fun h ↦ ?_) fun _ ↦ ?_))
  · rw [isNone_iff_eq_none.mp h] at hsome
    cases hsome
  · exact wp_putIgnoring hwritten hfail fun _ ↦ hcut _

/-- `file_new` changes nothing that is read. -/
theorem wp_dkekFileNew {room : Bool}
    (hok : (d.read f).isSome = true ∨ room = true → ∀ d', (d'.read f).isSome = true →
      (∀ g, dkekFileData d' g = dkekFileData d g) → (∀ g ≠ f, d'.read g = d.read g) →
      d'.ram = d.ram → d'.faults = d.faults → Q () d')
    (hfail : ∀ r, E (.code r) d) : wp A (dkekFileNew f room) Q E d := by
  refine wp_get (wp_ite (fun h ↦ ?_) fun hnone ↦ wp_ite (fun hroom ↦ ?_) fun _ ↦ ?_)
  · exact wp_pure (hok (.inl h) d h (fun _ ↦ rfl) (fun _ _ ↦ rfl) rfl rfl)
  · have hread : d.read f = none := by
      rw [Bool.not_eq_true, isSome_eq_false_iff] at hnone
      exact isNone_iff_eq_none.mp hnone
    refine wp_modifyState (hok (.inr hroom) _ ?_ (fun g ↦ ?_)
      (fun g hg ↦ WriteBack.write_view_of_ne hg) rfl rfl)
    · rw [Device.read, WriteBack.write_view_self]
      rfl
    · rcases eq_or_ne g f with rfl | hg
      · rw [dkekFileData, dkekFileData, hread, Device.read, WriteBack.write_view_self]
        rfl
      · rw [dkekFileData, Device.read, WriteBack.write_view_of_ne hg]
        rfl
  · exact wp_fail (hfail _)

/-- What an import that is refused leaves. -/
structure ImportRefused (C : DkekCrypto) (i : Fin maxKeyDomains) (shares : List Bytes)
    (d d' : DkekDevice) : Prop where
  held : DomainHeld C i shares d'
  state : domainState d' i = domainState d i
  accumulated : accumulatedShares (dkekFileData d' (.dkek i)) =
    accumulatedShares (dkekFileData d (.dkek i))

/-- When the shares are counted, they are what is stored. -/
structure Countable (C : DkekCrypto) (i : Fin maxKeyDomains) (shares : List Bytes) (current : UInt8)
    (d : DkekDevice) : Prop where
  outcome : (d.faults .keyDomain).getD 0 .ok = .ok
  held : DomainHeld C i shares (d.written .keyDomain
    (some ((dkekFileData d .keyDomain).set (2 * i.val + 1) current)))

/-- The share is counted, and that is the end of the command. -/
theorem wp_countShare (h : Countable C i shares current d) (hcut : ∀ d', E .cut d') :
    wp A (do
      let d ← getState
      put (DkekError.sw swExecError) .keyDomain
        (some ((dkekFileData d .keyDomain).set (2 * i.val + 1) current))
      keyDomainResponse C i dkeks current) (fun _ d' ↦ DomainHeld C i shares d') E d := by
  have hout : d.outcome .keyDomain = .ok := (outcome_eq_getD _).trans h.outcome
  refine wp_get (wp_bind (wp_put (fun _ ↦ ?_) (fun h ↦ ?_) (fun h ↦ ?_) fun h ↦ ?_))
  · exact wp_mono (wp_keyDomainResponse h.held) (fun _ _ h ↦ h.held) fun _ _ he ↦ he.1 ▸ hcut _
  · rw [hout] at h
    cases h
  · rw [hout] at h
    cases h
  · exact hcut _

/-- `save_dkek_key`: what there is in the file is sealed, if there is a master key. -/
theorem wp_resultOf_saveDkekKey {Q : Except DkekError Unit → DkekDevice → Prop}
    (hsome : (d.read (.dkek i)).isSome = true)
    (hnone : ∀ e, d.ram.loadMkek = .error e → Q (.error e) d)
    (hok : d.ram.loadMkek = .ok () → d.outcome (.dkek i) = .ok →
      Q (.ok ()) (d.written (.dkek i) (some (mkekObject C ((dkekFileData d (.dkek i)).take 32)))))
    (hfail : d.ram.loadMkek = .ok () → d.outcome (.dkek i) = .fail →
      Q (.error (.status .noMemory)) (d.attempted (.dkek i)))
    (hlate : d.ram.loadMkek = .ok () → d.outcome (.dkek i) = .late → Q (.error (.status .noMemory))
      (d.written (.dkek i) (some (mkekObject C ((dkekFileData d (.dkek i)).take 32)))))
    (hcut : ∀ d', E .cut d') : wp A (resultOf (saveDkekKey C i)) Q E d := by
  have hread {Q : Unit → DkekDevice → Prop} {E : Exit DkekError → DkekDevice → Prop}
      {m : DkekProg Unit} (hm : wp A m Q E d) :
      wp A (if (d.read (.dkek i)).isNone = true
        then FaultProgram.fail (DkekError.status .fileNotFound) else m) Q E d := by
    refine wp_ite (fun h ↦ ?_) fun _ ↦ hm
    rw [isNone_iff_eq_none.mp h] at hsome
    cases hsome
  refine wp_resultOf (wp_get (hread (wp_get (hread
    (wp_lift (fun _ hmkek ↦ ?_) fun e hmkek ↦ hnone e hmkek)))))
  exact wp_put (hok hmkek) (hfail hmkek) (hlate hmkek) fun _ ↦ hcut _

theorem toNat_succ_of_lt (h : current < dkeks) : (current + 1).toNat = current.toNat + 1 := by
  have hlt := UInt8.lt_iff_toNat_lt.mp h
  have hn := dkeks.toNat_lt
  rw [UInt8.toNat_add, show (1 : UInt8).toNat = 1 from rfl]
  omega

theorem eq_succ_of_lt (h : current < dkeks) (hle : dkeks ≤ current + 1) : dkeks = current + 1 := by
  have hlt := UInt8.lt_iff_toNat_lt.mp h
  have hle := UInt8.le_iff_toNat_le.mp hle
  rw [toNat_succ_of_lt h] at hle
  exact UInt8.toNat_inj.mp (by rw [toNat_succ_of_lt h]; omega)

/-- A share has been added, and is to be counted. -/
structure ShareAdded (i : Fin maxKeyDomains) (shares : List Bytes) (share : Bytes)
    (dkeks current : UInt8) (d : DkekDevice) : Prop where
  data : dkekFileData d (.dkek i) = sumShares (shares ++ [share])
  isSome : (d.read (.dkek i)).isSome = true
  state : domainState d i = some (dkeks, current)
  pending : d.ram.pendingSaveDkek ≠ some i
  count : current.toNat = shares.length
  lt : current < dkeks
  length_share : share.length = 32
  length_before : (sumShares shares).length = 32

namespace ShareAdded

variable {share : Bytes}

section

variable (h : ShareAdded i shares share dkeks current d)
include h

theorem length_sum :
    (sumShares (shares ++ [share])).length = 32 := by
  rw [sumShares_append]
  exact length_xorBytes h.length_before h.length_share

theorem count' :
    (current + 1).toNat = (shares ++ [share]).length := by
  rw [toNat_succ_of_lt h.lt, h.count, length_append, length_singleton]

/-- There are others to come. -/
theorem countable_of_lt (hlt : current + 1 < dkeks) (hkd : (d.faults .keyDomain).getD 0 .ok = .ok) :
    Countable C i (shares ++ [share]) (current + 1) d := by
  refine ⟨hkd, ?_⟩
  rw [withState_count h.state]
  refine .filling dkeks (current + 1) (domainState_withState h.state _ _) h.count' hlt ?_ h.pending
  rw [dkekFileData_written_of_ne (fun h ↦ by cases h), h.data, accumulatedShares_of_length h.length_sum]

end

/-- It was the last one. -/
theorem countable_of_last (h : ShareAdded i shares share (current + 1) current d) {d' : DkekDevice}
    (hkd : (d'.faults .keyDomain).getD 0 .ok = .ok)
    (hstate : domainState d' i = domainState d i)
    (hd' : dkekFileData d' (.dkek i) = mkekObject C (sumShares (shares ++ [share])) ∧
        d'.ram.pendingSaveDkek ≠ some i ∨
      dkekFileData d' (.dkek i) = sumShares (shares ++ [share]) ∧
        d'.ram.pendingSaveDkek = some i ∧ d'.ram.hasSession = false) :
    Countable C i (shares ++ [share]) (current + 1) d' := by
  have hstate' := hstate.trans h.state
  have hdata (a : Option Bytes) : dkekFileData (d'.written .keyDomain a) (.dkek i) =
      dkekFileData d' (.dkek i) := dkekFileData_written_of_ne (fun h ↦ by cases h) d' a
  have hnil : shares ++ [share] ≠ [] := by simp
  refine ⟨hkd, ?_⟩
  rw [withState_count hstate']
  rcases hd' with ⟨hsealed, hno⟩ | ⟨hraw, hpending, hsession⟩
  · exact .sealed (current + 1) (domainState_withState hstate' _ _) h.count' hnil
      ((hdata _).trans hsealed) h.length_sum hno
  · exact .pending (current + 1) (domainState_withState hstate' _ _) h.count' hnil
      ((hdata _).trans hraw) h.length_sum hpending hsession

end ShareAdded

/-- A write of the DKEK leaves the states. -/
theorem domainState_written_dkek (d : DkekDevice) (j : Fin maxKeyDomains) (a : Option Bytes) :
    domainState (d.written (.dkek j) a) i = domainState d i := by
  refine domainState_congr ?_ ?_ <;> rw [dkekFileData_written_of_ne (fun h ↦ by cases h)]

/-- What is left when the last share is not accepted. -/
def TakenBack (C : DkekCrypto) (i : Fin maxKeyDomains) (shares : List Bytes) (dkeks current : UInt8)
    (d : DkekDevice) : Prop :=
  DomainHeld C i shares d ∧ domainState d i = some (dkeks, current) ∧
    accumulatedShares (dkekFileData d (.dkek i)) = sumShares shares

/-- The last share is taken back. -/
theorem wp_takeBack (h : ShareAdded i shares (share.take 32) dkeks current d)
    (hne : d.outcome (.dkek i) ≠ .fail) :
    wp A (do
      let _ ← resultOf (importDkekShare i share)
      FaultProgram.fail (DkekError.sw swFileNotFound)) Q
      (fun e d' ↦ e ≠ .cut → TakenBack C i shares dkeks current d') d := by
  refine wp_bind (wp_resultOf_importDkekShare h.isSome (fun _ ↦ wp_fail fun _ ↦ ?_)
    (fun hfail ↦ absurd hfail hne) fun _ hcut ↦ absurd rfl hcut)
  have hlen := h.length_before
  have hdata : accumulatedShares (dkekFileData (d.written (.dkek i)
      (some (xorBytes (accumulatedShares (dkekFileData d (.dkek i))) (share.take 32)))) (.dkek i)) =
      sumShares shares := by
    rw [dkekFileData_written_self, h.data, accumulatedShares_of_length h.length_sum,
      sumShares_append, xorBytes_xorBytes (hlen.trans h.length_share.symm),
      accumulatedShares_of_length hlen]
  have hstate := (domainState_written_dkek (i := i) d i
    (some (xorBytes (accumulatedShares (dkekFileData d (.dkek i))) (share.take 32)))).trans h.state
  exact ⟨.filling dkeks current hstate h.count h.lt hdata h.pending, hstate, hdata⟩

/-- **The last share**: the DKEK is sealed or pending, or the share is taken back. -/
theorem wp_sealDkek (h : ShareAdded i shares (share.take 32) (current + 1) current d)
    (hcareful : LastShareCareful d.ram.loadMkek ((d.faults (.dkek i)).getD 0 .ok)
      ((d.faults (.dkek i)).getD 1 .ok) ((d.faults .keyDomain).getD 0 .ok)) :
    wp A (sealDkek C i share)
      (fun _ d' ↦ Countable C i (shares ++ [share.take 32]) (current + 1) d')
      (fun e d' ↦ e ≠ .cut → TakenBack C i shares (current + 1) current d') d := by
  have hkd (f : Option Bytes) : (d.written (.dkek i) f).faults .keyDomain = d.faults .keyDomain :=
    faults_written_of_ne (fun h ↦ by cases h) d f
  refine wp_bind (wp_resultOf_saveDkekKey h.isSome (fun e hmkek ↦ ?_) (fun hmkek hout ↦ ?_)
    (fun hmkek hout ↦ ?_) (fun hmkek hout ↦ ?_) fun _ hne ↦ absurd rfl hne)
  · -- there is no master key
    rw [hmkek] at hcareful
    refine wp_ite (fun he ↦ wp_modifyState ?_) fun he ↦ wp_takeBack h ?_
    · subst he
      refine h.countable_of_last hcareful rfl (.inr ⟨h.data, rfl, ?_⟩)
      show (d.ram.hasSessionPin || d.ram.hasSessionSopin) = false
      rw [DkekRam.loadMkek] at hmkek
      split_ifs at hmkek with hno hopens
      · rw [Bool.and_eq_true, Bool.not_eq_true', Bool.not_eq_true'] at hno
        rw [hno.1, hno.2]
        rfl
      · cases hmkek
    · rw [outcome_eq_getD]
      rcases e with s | w
      · cases s with
        | noLogin => exact absurd rfl he
        | _ => exact hcareful
      · exact hcareful
  all_goals
    rw [hmkek] at hcareful
    rw [outcome_eq_getD] at hout
  · obtain ⟨-, hcount⟩ | ⟨hfail, -⟩ := hcareful
    · refine wp_pure (h.countable_of_last ?_ (domainState_written_dkek d i _) (.inl ⟨?_, h.pending⟩))
      · rw [hkd]
        exact hcount
      · rw [dkekFileData_written_self, h.data, take_of_length_le h.length_sum.le]
    · rw [hout] at hfail
      cases hfail
  · obtain ⟨hok, -⟩ | ⟨-, hback⟩ := hcareful
    · rw [hout] at hok
      cases hok
    · -- the record has not been stored
      have hadded : ShareAdded i shares (share.take 32) (current + 1) current
          (d.attempted (.dkek i)) :=
        ⟨h.data, h.isSome, h.state, h.pending, h.count, h.lt, h.length_share, h.length_before⟩
      refine wp_ite (nofun) fun _ ↦ wp_takeBack hadded ?_
      rw [outcome_eq_getD, faults_attempted_getD]
      exact hback
  · rw [hout] at hcareful
    obtain ⟨hok, -⟩ | ⟨hfail, -⟩ := hcareful
    · cases hok
    · cases hfail

/-- A domain that has shares to be imported. -/
theorem DomainHeld.of_open (h : DomainHeld C i shares d)
    (hstate : domainState d i = some (dkeks, current)) (hopen : current ≠ dkeks) :
    current.toNat = shares.length ∧ current < dkeks ∧
      accumulatedShares (dkekFileData d (.dkek i)) = sumShares shares ∧
      d.ram.pendingSaveDkek ≠ some i := by
  have hsame {n : UInt8} (hn : domainState d i = some (n, n)) : False := by
    obtain ⟨rfl, rfl⟩ := Prod.mk.inj (Option.some.inj (hn.symm.trans hstate))
    exact hopen rfl
  cases h with
  | filling n c hn hc hlt hdata hno =>
    obtain ⟨rfl, rfl⟩ := Prod.mk.inj (Option.some.inj (hn.symm.trans hstate))
    exact ⟨hc, hlt, hdata, hno⟩
  | idle n hn _ _ _ => exact (hsame hn).elim
  | sealed n hn _ _ _ _ _ => exact (hsame hn).elim
  | pending n hn _ _ _ _ _ _ => exact (hsame hn).elim

/-- **An import** adds its share, or leaves everything as it was. -/
theorem wp_cmdImportShare (h : DomainHeld C i shares d)
    (hstate : domainState d i = some (dkeks, current))
    (hcareful : (d.read (.dkek i)).isSome = true ∨ env.room = true → 32 ≤ share.length →
      current ≠ dkeks → ShareCareful i i dkeks current d d.faults) :
    wp A (cmdImportShare C i dkeks current share env)
      (fun _ d' ↦ DomainHeld C i (shares ++ [share.take 32]) d')
      (fun e d' ↦ e ≠ .cut → ImportRefused C i shares d d') d := by
  refine wp_bind (wp_dkekFileNew (fun hroom d₁ hsome hdata₁ _ hram₁ hfaults₁ ↦ ?_)
    fun _ _ ↦ ⟨h, rfl, rfl⟩)
  have hsame : SameDomain i d d₁ :=
    ⟨domainState_congr (by rw [hdata₁]) (by rw [hdata₁]), hdata₁ _⟩
  have h₁ := h.of_same_ram hsame hram₁
  have hrefused : ImportRefused C i shares d d₁ := ⟨h₁, hsame.state, by rw [hsame.data]⟩
  refine wp_ite (fun _ ↦ wp_fail fun _ ↦ hrefused) fun hlong ↦
    wp_ite (fun _ ↦ wp_fail fun _ ↦ hrefused) fun hopen ↦ ?_
  have hshare := hcareful hroom (by omega) hopen
  rw [ShareCareful, if_pos rfl, ← hfaults₁, ← hram₁] at hshare
  obtain ⟨hfirst, hrest⟩ := hshare
  have hstate₁ := hsame.state.trans hstate
  obtain ⟨hcount, hlt, hacc, hpending⟩ := h₁.of_open hstate₁ hopen
  refine wp_bind (wp_resultOf_importDkekShare hsome (fun _ ↦ ?_)
    (fun hout ↦ absurd ((outcome_eq_getD _).symm.trans hout) hfirst) fun _ hne ↦ absurd rfl hne)
  -- the share has been added, and is to be counted
  have hadded : ShareAdded i shares (share.take 32) dkeks current (d₁.written (.dkek i)
      (some (xorBytes (accumulatedShares (dkekFileData d₁ (.dkek i))) (share.take 32)))) := by
    refine ⟨?_, ?_, (domainState_written_dkek d₁ i _).trans hstate₁, hpending, hcount, hlt, ?_, ?_⟩
    · rw [dkekFileData_written_self, hacc, sumShares_append]
    · rw [Device.read_written_self]
      rfl
    · rw [length_take]
      omega
    · rw [← hacc]
      exact length_accumulatedShares _
  have hkd (a : Option Bytes) : (d₁.written (.dkek i) a).faults .keyDomain = d₁.faults .keyDomain :=
    faults_written_of_ne (fun h ↦ by cases h) d₁ a
  have hdkek (a : Option Bytes) (k : ℕ) : ((d₁.written (.dkek i) a).faults (.dkek i)).getD k .ok =
      (d₁.faults (.dkek i)).getD (k + 1) .ok := faults_attempted_getD d₁ (.dkek i) k
  refine wp_bind (wp_ite (fun hlast ↦ ?_) fun hnot ↦ wp_pure ?_)
  · rw [if_pos hlast] at hrest
    obtain rfl := eq_succ_of_lt hlt hlast
    refine wp_mono (wp_sealDkek hadded ?_) (fun _ d' hcountable ↦
      wp_countShare hcountable fun _ hne ↦ absurd rfl hne) fun e d' htaken hne ↦ ?_
    · rw [hdkek, hdkek, hkd]
      exact hrest
    · obtain ⟨hheld, hstate', hacc'⟩ := htaken hne
      exact ⟨hheld, hstate'.trans hstate.symm, by rw [hacc', ← hacc, hsame.data]⟩
  · rw [if_neg hnot] at hrest
    exact wp_countShare (hadded.countable_of_lt (UInt8.not_le.mp hnot) ((hkd _).symm ▸ hrest))
      fun _ hne ↦ absurd rfl hne

/-! ### A change -/

/-- What a change of a domain leaves. -/
def DomainChanged (C : DkekCrypto) (i : Fin maxKeyDomains) (shares : List Bytes)
    (d d' : DkekDevice) : Prop :=
  DomainHeld C i shares d' ∧ domainState d' i = domainState d i ∨
    DomainHeld C i [] d' ∧ (domainState d' i = domainState d i → shares = [])

/-- A domain that is set back. -/
theorem DomainHeld.of_back (hstate : domainState d i = some (dkeks, c))
    (hc : c = 0 ∨ dkeks = 0xff ∧ c = 0xff)
    (hacc : accumulatedShares (dkekFileData d (.dkek i)) = .replicate 32 0)
    (hpending : d.ram.pendingSaveDkek ≠ some i) : DomainHeld C i [] d := by
  rcases hc with rfl | ⟨rfl, rfl⟩
  · rcases eq_or_ne dkeks 0 with rfl | hne
    · exact .idle 0 hstate (.inl rfl) rfl hpending
    · exact .filling dkeks 0 hstate rfl (UInt8.pos_iff_ne_zero.mpr hne) hacc hpending
  · exact .idle 0xff hstate (.inr rfl) rfl hpending

theorem changedDomain_count {n : UInt8} (h : changedDomain p1 dkeks current data env = .ok (n, c)) :
    (c = 0 ∨ n = 0xff ∧ c = 0xff) ∧ ((n, c) = (dkeks, current) → current = 0) := by
  rw [changedDomain] at h
  split_ifs at h with hone hlen hff hthree hocc hff'
  · cases h
    rw [not_or, not_not, not_not] at hff
    refine ⟨.inl rfl, fun heq ↦ ?_⟩
    rw [hff.2] at heq
    cases heq
  · cases h
    refine ⟨.inr ⟨rfl, rfl⟩, fun heq ↦ ?_⟩
    obtain ⟨rfl, rfl⟩ := Prod.mk.inj heq
    exact absurd ⟨rfl, rfl⟩ hff'
  · cases h
    exact ⟨.inl rfl, fun heq ↦ (Prod.mk.inj heq).2.symm⟩

section

variable (h : DomainHeld C i shares d)
include h

/-- With a session nothing is pending. -/
theorem DomainHeld.pending_ne (hsession : d.ram.hasSession = true) :
    d.ram.pendingSaveDkek ≠ some i := by
  cases h with
  | idle _ _ _ _ hno => exact hno
  | filling _ _ _ _ _ _ hno => exact hno
  | sealed _ _ _ _ _ _ hno => exact hno
  | pending _ _ _ _ _ _ _ hnone =>
    rw [hnone] at hsession
    cases hsession

/-- **A change** sets the domain back, or leaves it as it was. -/
theorem wp_cmdChangeDomain
    (hstate : domainState d i = some (dkeks, current)) (hsession : d.ram.hasSessionPin = true)
    (hcareful : (∃ state, changedDomain p1 dkeks current data env = .ok state) →
      (d.faults .keyDomain).getD 0 .ok = .late ∨ (d.faults .keyDomain).getD 0 .ok = .ok ∧
      (d.faults (.dkek i)).getD 0 .ok = .fail →
      accumulatedShares (dkekFileData d (.dkek i)) = .replicate 32 0) :
    wp A (cmdChangeDomain C p1 i dkeks current data env) (fun _ d' ↦ DomainChanged C i shares d d')
      (fun e d' ↦ e ≠ .cut → DomainChanged C i shares d d') d := by
  have hpending : d.ram.pendingSaveDkek ≠ some i :=
    h.pending_ne (by rw [DkekRam.hasSession, hsession]; rfl)
  refine wp_get (wp_lift (fun changed hchanged ↦ ?_) fun _ _ _ ↦ .inl ⟨h, rfl⟩)
  obtain ⟨n, c⟩ := changed
  obtain ⟨hcount, hback⟩ := changedDomain_count hchanged
  have hset {d' : DkekDevice} (hstate' : domainState d' i = some (n, c))
      (hacc : accumulatedShares (dkekFileData d' (.dkek i)) = .replicate 32 0)
      (hram : d'.ram = d.ram) : DomainHeld C i [] d' ∧
        (domainState d' i = domainState d i → shares = []) := by
    refine ⟨.of_back hstate' hcount hacc (by rw [hram]; exact hpending), fun heq ↦ ?_⟩
    rw [hstate', hstate] at heq
    rw [hback (Option.some.inj heq)] at hstate
    exact h.eq_nil hstate
  have hstate' := domainState_withState hstate n c
  have hdata (a : Option Bytes) : dkekFileData (d.written .keyDomain a) (.dkek i) =
      dkekFileData d (.dkek i) := dkekFileData_written_of_ne (fun h ↦ by cases h) d a
  refine wp_bind (wp_put (fun hout ↦ ?_)
    (fun _ _ ↦ .inl ⟨h.of_same_ram (.attempted i d _) rfl, rfl⟩) (fun hout _ ↦ ?_)
    fun _ hne ↦ absurd rfl hne)
  swap
  · have hacc := hcareful ⟨_, hchanged⟩ (.inl ((outcome_eq_getD _).symm.trans hout))
    exact .inr (hset hstate' (by rw [hdata]; exact hacc) rfl)
  -- the state has been written; the DKEK is deleted
  have hdone {d₂ : DkekDevice} (hheld : DomainHeld C i [] d₂ ∧
      (domainState d₂ i = domainState d i → shares = [])) :
      wp A (if p1 = 3 then do
          dkekFileDelete (.xkek i)
          FaultProgram.fail (DkekError.sw swReferenceNotFound)
        else keyDomainResponse C i n c) (fun _ d' ↦ DomainChanged C i shares d d')
        (fun e d' ↦ e ≠ .cut → DomainChanged C i shares d d') d₂ := by
    have hkeep {d₃ : DkekDevice} (hsame : SameDomain i d₂ d₃) (hram : d₃.ram = d₂.ram) :
        DomainChanged C i shares d d₃ :=
      .inr ⟨hheld.1.of_same_ram hsame hram, fun heq ↦ hheld.2 (hsame.state.symm.trans heq)⟩
    have hwritten : SameDomain i d₂ (d₂.written (.xkek i) none) :=
      .written (fun h ↦ by cases h) (fun h ↦ by cases h) d₂ none
    refine wp_ite (fun _ ↦ wp_bind (wp_get (wp_ite (fun _ ↦ ?_)
      fun _ ↦ wp_pure (wp_fail fun _ ↦ hkeep (.refl i d₂) rfl)))) fun _ ↦ ?_
    · exact wp_put (fun _ ↦ wp_fail fun _ ↦ hkeep hwritten rfl)
        (fun _ _ ↦ hkeep (.attempted i d₂ _) rfl) (fun _ _ ↦ hkeep hwritten rfl)
        fun _ hne ↦ absurd rfl hne
    · exact wp_mono (wp_keyDomainResponse hheld.1) (fun _ d' hd' ↦ .inr ⟨hd'.held, fun heq ↦
        hheld.2 (hd'.state.symm.trans heq)⟩) fun _ _ hcut hne ↦ absurd hcut.1 hne
  have hdeleted (d₁ : DkekDevice) : accumulatedShares
      (dkekFileData (d₁.written (.dkek i) none) (.dkek i)) = .replicate 32 0 := by
    rw [dkekFileData, Device.read_written_self]
    rfl
  refine wp_bind (wp_get (wp_ite (fun _ ↦ ?_) fun hnone ↦ wp_pure (hdone ?_)))
  · refine wp_put (fun _ ↦ hdone ?_) (fun hfail _ ↦ ?_) (fun _ _ ↦ ?_) fun _ hne ↦ absurd rfl hne
    · exact hset ((domainState_written_dkek _ i none).trans hstate') (hdeleted _) rfl
    · rw [outcome_eq_getD, faults_written_of_ne (fun h ↦ by cases h)] at hfail
      have hacc := hcareful ⟨_, hchanged⟩ (.inr ⟨(outcome_eq_getD _).symm.trans hout, hfail⟩)
      exact .inr (hset hstate' (by rw [← hacc, ← hdata]; rfl) rfl)
    · exact .inr (hset ((domainState_written_dkek _ i none).trans hstate') (hdeleted _) rfl)
  · refine hset hstate' ?_ rfl
    rw [Bool.not_eq_true, isSome_eq_false_iff, isNone_iff_eq_none] at hnone
    rw [dkekFileData, hnone]
    rfl

/-! ### Other domains -/

theorem DomainHeld.attempted (f : DkekFile) : DomainHeld C i shares (d.attempted f) :=
  h.of_same_ram (.attempted i d f) rfl

/-- The DKEK of another domain is written. -/
theorem DomainHeld.written_other (hij : j ≠ i) (a : Option Bytes) :
    DomainHeld C i shares (d.written (.dkek j) a) :=
  h.of_same_ram (.written (fun h ↦ by cases h) (fun h ↦ hij (DkekFile.dkek.inj h)) d a) rfl

/-- The state of another domain is written. -/
theorem DomainHeld.state_other (a : Option Bytes)
    (ha : domainState (d.written .keyDomain a) i = domainState d i) :
    DomainHeld C i shares (d.written .keyDomain a) :=
  h.of_same_ram ⟨ha, dkekFileData_written_of_ne (fun h ↦ by cases h) d a⟩ rfl

end

/-- **An import into another domain** leaves the domain as it was, if the DKEK of the other one does not
become pending in its place. -/
theorem wp_cmdImportShare_other (hij : j ≠ i) (h : DomainHeld C i shares d)
    (hcareful : (d.read (.dkek j)).isSome = true ∨ env.room = true → 32 ≤ share.length →
      current ≠ dkeks → ShareCareful i j dkeks current d d.faults) :
    wp A (cmdImportShare C j dkeks current share env) (fun _ d' ↦ DomainHeld C i shares d')
      (fun e d' ↦ e ≠ .cut → DomainHeld C i shares d') d := by
  have hcount {d₃ : DkekDevice} (h₃ : DomainHeld C i shares d₃) :
      wp A (do
        let d ← getState
        put (DkekError.sw swExecError) .keyDomain
          (some ((dkekFileData d .keyDomain).set (2 * j.val + 1) (current + 1)))
        keyDomainResponse C j dkeks (current + 1)) (fun _ d' ↦ DomainHeld C i shares d')
        (fun e d' ↦ e ≠ .cut → DomainHeld C i shares d') d₃ := by
    have hne : j.val ≠ i.val := fun h ↦ hij (Fin.ext h)
    have hwritten := h₃.state_other
      (some ((dkekFileData d₃ .keyDomain).set (2 * j.val + 1) (current + 1)))
      (domainState_congr (by rw [dkekFileData_written_self, getElem?_set_ne (by omega)])
        (by rw [dkekFileData_written_self, getElem?_set_ne (by omega)]))
    refine wp_get (wp_bind (wp_put (fun _ ↦ ?_) (fun _ _ ↦ h₃.attempted _)
      (fun _ _ ↦ hwritten) fun _ hne ↦ absurd rfl hne))
    exact wp_mono (wp_keyDomainResponse hwritten) (fun _ _ h ↦ h.held) fun _ _ hcut hne ↦
      absurd hcut.1 hne
  have hback {d₃ : DkekDevice} (h₃ : DomainHeld C i shares d₃)
      (hsome : (d₃.read (.dkek j)).isSome = true) {Q : Unit → DkekDevice → Prop} :
      wp A (do
        let _ ← resultOf (importDkekShare j share)
        FaultProgram.fail (DkekError.sw swFileNotFound)) Q
        (fun e d' ↦ e ≠ .cut → DomainHeld C i shares d') d₃ :=
    wp_bind (wp_resultOf_importDkekShare hsome (fun _ ↦ wp_fail fun _ ↦ h₃.written_other hij _)
      (fun _ ↦ wp_fail fun _ ↦ h₃.attempted _) fun _ hne ↦ absurd rfl hne)
  refine wp_bind (wp_dkekFileNew (fun hroom d₁ hsome hdata₁ _ hram₁ hfaults₁ ↦ ?_) fun _ _ ↦ h)
  have h₁ := h.of_same_ram ⟨domainState_congr (by rw [hdata₁]) (by rw [hdata₁]), hdata₁ _⟩ hram₁
  refine wp_ite (fun _ ↦ wp_fail fun _ ↦ h₁) fun hlong ↦ wp_ite (fun _ ↦ wp_fail fun _ ↦ h₁)
    fun hopen ↦ ?_
  have hshare := hcareful hroom (by omega) hopen
  rw [ShareCareful, if_neg hij, ← hram₁] at hshare
  have hrest {d₂ : DkekDevice} (h₂ : DomainHeld C i shares d₂) (hram₂ : d₂.ram = d₁.ram)
      (hsome₂ : (d₂.read (.dkek j)).isSome = true) :
      wp A (do
        (if dkeks ≤ current + 1 then sealDkek C j share else pure ())
        let d ← getState
        put (DkekError.sw swExecError) .keyDomain
          (some ((dkekFileData d .keyDomain).set (2 * j.val + 1) (current + 1)))
        keyDomainResponse C j dkeks (current + 1)) (fun _ d' ↦ DomainHeld C i shares d')
        (fun e d' ↦ e ≠ .cut → DomainHeld C i shares d') d₂ := by
    refine wp_bind (wp_ite (fun hlast ↦ ?_) fun _ ↦ wp_pure (hcount h₂))
    have hsomeWritten (a : Bytes) : ((d₂.written (.dkek j) (some a)).read (.dkek j)).isSome = true := by
      rw [Device.read_written_self]
      rfl
    refine wp_bind (wp_resultOf_saveDkekKey hsome₂ (fun e hmkek ↦ ?_)
      (fun _ _ ↦ wp_pure (hcount (h₂.written_other hij _)))
      (fun _ _ ↦ wp_ite (nofun) fun _ ↦ hback (h₂.attempted _) hsome₂)
      (fun _ _ ↦ wp_ite (nofun) fun _ ↦ hback (h₂.written_other hij _)
        (hsomeWritten _)) fun _ hne ↦ absurd rfl hne)
    refine wp_ite (fun he ↦ wp_modifyState (hcount ?_)) fun _ ↦ hback h₂ hsome₂
    have hpending := hshare hlast (by rw [← hram₂, hmkek, he])
    rw [← hram₂] at hpending
    exact h₂.of_same ⟨rfl, rfl⟩ ⟨fun hj ↦ absurd (Option.some.inj hj) hij, fun hi ↦
      absurd hi hpending⟩ fun _ hno ↦ hno
  refine wp_bind (wp_resultOf_importDkekShare hsome (fun _ ↦ hrest (h₁.written_other hij _) rfl ?_)
    (fun _ ↦ hrest (h₁.attempted _) rfl hsome) fun _ hne ↦ absurd rfl hne)
  rw [Device.read_written_self]
  rfl

/-- A change of another domain leaves the domain as it was. -/
theorem wp_cmdChangeDomain_other (hij : j ≠ i) (h : DomainHeld C i shares d) :
    wp A (cmdChangeDomain C p1 j dkeks current data env) (fun _ d' ↦ DomainHeld C i shares d')
      (fun _ d' ↦ DomainHeld C i shares d') d := by
  have hdelete (f : DkekFile) (hkeyDomain : f ≠ .keyDomain) (hdkek : f ≠ .dkek i) :
      Preserves (DomainHeld C i shares) (dkekFileDelete f) :=
    .get fun _ ↦ .ite (fun _ ↦ .put (fun _ h ↦ h.attempted f) fun d h ↦
      h.of_same_ram (.written hkeyDomain hdkek d _) rfl) fun _ ↦ .pure trivial
  refine wp_get (wp_lift (fun changed _ ↦ ?_) fun _ _ ↦ h)
  have hwritten := h.state_other _ (domainState_withState_of_ne hij d changed.1 changed.2)
  have hrest : Preserves (DomainHeld C i shares) (do
      dkekFileDelete (.dkek j)
      (if p1 = 3 then do
        dkekFileDelete (.xkek j)
        FaultProgram.fail (DkekError.sw swReferenceNotFound)
      else keyDomainResponse C j changed.1 changed.2)) :=
    .bind (hdelete _ (nofun) fun h ↦ hij (DkekFile.dkek.inj h)) fun _ _ ↦
      .ite (fun _ ↦ .bind (hdelete _ (nofun) nofun) fun _ _ ↦ .fail _)
        fun _ ↦ keeps_keyDomainResponse
  exact wp_bind (wp_put (fun _ ↦ wp_mono (hrest A _ hwritten) (fun _ _ h ↦ h.1) fun _ _ h ↦ h)
    (fun _ ↦ h.attempted _) (fun _ ↦ hwritten) fun _ ↦ h.attempted _)

/-- The domain is as it was, and its state too. -/
def HeldAt (C : DkekCrypto) (i : Fin maxKeyDomains) (shares : List Bytes)
    (state : Option (UInt8 × UInt8)) (d : DkekDevice) : Prop :=
  DomainHeld C i shares d ∧ domainState d i = state

variable {state : Option (UInt8 × UInt8)}

theorem HeldAt.of_same (h : HeldAt C i shares state d) (hsame : SameDomain i d d')
    (hram : d'.ram = d.ram) : HeldAt C i shares state d' :=
  ⟨h.1.of_same_ram hsame hram, hsame.state.trans h.2⟩

theorem keeps_keyDomainResponse_at :
    Preserves (HeldAt C i shares state) (keyDomainResponse C j dkeks current) :=
  fun _ _ h ↦ wp_mono (wp_keyDomainResponse h.1)
    (fun _ _ h' ↦ ⟨⟨h'.held, h'.state.trans h.2⟩, trivial⟩)
    fun _ _ h' ↦ ⟨h'.2.held, h'.2.state.trans h.2⟩

theorem keeps_cmdDomainStatus :
    Preserves (HeldAt C i shares state) (cmdDomainStatus C j dkeks current) :=
  .get fun _ ↦ .ite (fun _ ↦ .fail _) fun _ ↦ keeps_keyDomainResponse_at

theorem keeps_cmdJoinDomain :
    Preserves (HeldAt C i shares state) (cmdJoinDomain C j dkeks current data env) := by
  have hnew : Preserves (HeldAt C i shares state) (dkekFileNew (.xkek j) env.room) :=
    fun A d h ↦ wp_dkekFileNew (fun _ d' _ hdata _ hram _ ↦ ⟨h.of_same
      ⟨domainState_congr (by rw [hdata]) (by rw [hdata]), hdata _⟩ hram, trivial⟩) fun _ ↦ h
  refine .bind (R := fun _ ↦ True) (.ite (fun _ ↦ .pure trivial) fun _ ↦ .bind (R := fun _ ↦ True)
    (.liftExcept fun _ _ ↦ trivial) fun uid _ ↦ .bind hnew fun _ _ ↦ ?_) fun _ _ ↦
      keeps_keyDomainResponse_at
  rcases uid with - | uid
  · exact .pure trivial
  · exact .putIgnoring (fun d h ↦ h.of_same (.attempted i d _) rfl) fun d h ↦
      h.of_same (.written (fun h ↦ by cases h) (fun h ↦ by cases h) d _) rfl

/-! ### Logins -/

theorem keeps_saveDkekKey_other (hij : j ≠ i) {ram : DkekRam} :
    Preserves (fun d ↦ DomainHeld C i shares d ∧ d.ram = ram) (saveDkekKey C j) :=
  .get fun _ ↦ .ite (fun _ ↦ .fail _) fun _ ↦ .get fun _ ↦
    .ite (fun _ ↦ .fail _) fun _ ↦ .bind (R := fun _ ↦ True) (.liftExcept fun _ _ ↦ trivial)
      fun _ _ ↦ .put (fun _ h ↦ ⟨h.1.attempted _, h.2⟩) fun _ h ↦ ⟨h.1.written_other hij _, h.2⟩

/-- **A login** seals the DKEK that is pending. -/
theorem wp_loginDkek {pin : HsmPin} {authenticated opens : Bool} (h : DomainHeld C i shares d)
    (hcareful : d.ram.pendingSaveDkek = some i →
      opens = true ∧ (d.faults (.dkek i)).getD 0 .ok ≠ .fail) :
    wp A (loginDkek C pin authenticated opens) (fun _ d' ↦ DomainHeld C i shares d')
      (fun e d' ↦ e ≠ .cut → DomainHeld C i shares d') d := by
  have hno : DomainHeld C i shares d → d.ram.pendingSaveDkek ≠ some i → DomainHeld C i shares
      (d.setRam fun ram ↦
        { ram with
          isUserAuthenticated := authenticated
          hasSessionPin := pin = .user
          hasSessionSopin := pin = .so
          mkekOpens := opens }) := fun h hno ↦
    h.of_same (.of_files rfl) Iff.rfl fun hyes ↦ absurd hyes hno
  refine wp_bind (wp_modifyState (wp_get ?_))
  rw [Device.ram_setRam]
  rcases hpending : d.ram.pendingSaveDkek with - | j
  · exact wp_pure (hno h (by rw [hpending]; exact nofun))
  rcases eq_or_ne j i with rfl | hij
  swap
  · -- another domain
    have hne : d.ram.pendingSaveDkek ≠ some i := by
      rw [hpending]
      exact fun h ↦ hij (Option.some.inj h)
    refine wp_seq ((keeps_saveDkekKey_other hij).resultOf A _ ⟨hno h hne, rfl⟩)
      (fun _ d' h' ↦ wp_bind (wp_modifyState (wp_pure ?_))) fun _ _ h' _ ↦ h'.1
    refine h'.1.1.of_same ⟨rfl, rfl⟩ ⟨(by cases ·), fun h ↦ ?_⟩ fun _ hno ↦ hno
    rw [h'.1.2] at h
    exact absurd h hne
  · obtain ⟨rfl, hout⟩ := hcareful hpending
    cases h with
    | idle _ _ _ _ hne => exact absurd hpending hne
    | filling _ _ _ _ _ _ hne => exact absurd hpending hne
    | sealed _ _ _ _ _ _ hne => exact absurd hpending hne
    | pending n hstate hn hshares hdata hlen _ _ =>
      have hsome : (d.read (.dkek j)).isSome = true := by
        rcases hread : d.read (.dkek j) with - | record
        · rw [dkekFileData, hread] at hdata
          rw [← hdata] at hlen
          cases hlen
        · rfl
      have hmkek (ram : DkekRam) : DkekRam.loadMkek
          { ram with
            isUserAuthenticated := authenticated
            hasSessionPin := pin = .user
            hasSessionSopin := pin = .so
            mkekOpens := true } = .ok () := by
        cases pin <;> rfl
      -- what is there is sealed, and nothing is pending then
      have hsealed {d' : DkekDevice} (hstate' : domainState d' j = domainState d j)
          (hdata' : dkekFileData d' (.dkek j) = mkekObject C ((dkekFileData d (.dkek j)).take 32)) :
          DomainHeld C j shares (d'.setRam fun ram ↦ { ram with pendingSaveDkek := none }) := by
        refine .sealed n (hstate'.trans hstate) hn hshares (hdata'.trans ?_) hlen nofun
        rw [hdata, take_of_length_le hlen.le]
      refine wp_bind (wp_resultOf_saveDkekKey hsome (fun e he ↦ ?_)
        (fun _ _ ↦ wp_bind (wp_modifyState (wp_pure ?_))) (fun _ hfail ↦ ?_)
        (fun _ _ ↦ wp_bind (wp_modifyState (wp_pure ?_))) fun _ hne ↦ absurd rfl hne)
      · rw [Device.ram_setRam, hmkek] at he
        cases he
      · exact hsealed (domainState_written_dkek _ j _) (dkekFileData_written_self _ _ _)
      · exact absurd ((outcome_eq_getD _).symm.trans hfail) hout
      · exact hsealed (domainState_written_dkek _ j _) (dkekFileData_written_self _ _ _)

/-! ### The command -/

theorem keyDomainTarget_eq_ok {target : Fin maxKeyDomains × UInt8 × UInt8}
    (h : keyDomainTarget d p1 p2 = .ok target) : target.1.val = p2.toNat ∧
      (∀ n c, domainState d target.1 = some (n, c) → target.2 = (n, c)) ∧
      (mutatesDomain p1 = true → d.ram.hasSessionPin = true) := by
  rw [keyDomainTarget] at h
  split_ifs at h with hmutates hp2
  rcases hread : d.read .keyDomain with - | kdata
  · rw [hread] at h
    cases h
  · rw [hread] at h
    dsimp only at h
    split_ifs at h with hnil hlen
    cases h
    refine ⟨rfl, fun n c hstate ↦ ?_, fun hp1 ↦ ?_⟩
    · have hdata : dkekFileData d .keyDomain = kdata := by rw [dkekFileData, hread]; rfl
      obtain ⟨hn, hc⟩ := domainState_eq_some.mp hstate
      rw [hdata] at hn hc
      exact Prod.ext (congrArg (Option.getD · 0) hn) (congrArg (Option.getD · 0) hc)
    · by_contra hno
      exact hmutates (by simp [hp1, hno])

theorem DomainHeld.exists_state (h : DomainHeld C i shares d) :
    ∃ n c, domainState d i = some (n, c) := by
  cases h with
  | idle n hn _ _ _ => exact ⟨n, n, hn⟩
  | filling n c hn _ _ _ _ => exact ⟨n, c, hn⟩
  | sealed n hn _ _ _ _ _ => exact ⟨n, n, hn⟩
  | pending n hn _ _ _ _ _ _ => exact ⟨n, n, hn⟩

section Answers

variable {p1 p2 : UInt8} {data : Bytes} {answer : Option (Except DkekError Bytes)}

theorem sharesAnswered_of_ne (h : p2.toNat ≠ i.val) :
    sharesAnswered i shares p1 p2 data d answer d' = shares :=
  if_pos h

theorem sharesAnswered_ok {b : Bytes} (h : p2.toNat = i.val) (hdata : data ≠ []) :
    sharesAnswered i shares 0 p2 data d (some (.ok b)) d' = shares ++ [data.take 32] := by
  rw [sharesAnswered, if_neg (not_not.mpr h), if_pos ⟨rfl, hdata⟩]
  rfl

theorem sharesAnswered_error {e : DkekError} (h : p2.toNat = i.val) (hdata : data ≠ []) :
    sharesAnswered i shares 0 p2 data d (some (.error e)) d' = shares := by
  rw [sharesAnswered, if_neg (not_not.mpr h), if_pos ⟨rfl, hdata⟩]
  rfl

theorem sharesAnswered_change (h : p2.toNat = i.val) (hno : ¬(p1 = 0 ∧ data ≠ [])) :
    sharesAnswered i shares p1 p2 data d answer d' =
      if answer.isSome ∧ domainState d' i ≠ domainState d i then [] else shares := by
  rw [sharesAnswered, if_neg (not_not.mpr h), if_neg hno]

/-- The state is as it was. -/
theorem sharesAnswered_same (h : domainState d' i = domainState d i)
    (hno : ¬(p1 = 0 ∧ data ≠ [])) : sharesAnswered i shares p1 p2 data d answer d' = shares := by
  by_cases hp2 : p2.toNat = i.val
  · rw [sharesAnswered_change hp2 hno, if_neg fun hne ↦ hne.2 h]
  · exact sharesAnswered_of_ne hp2

theorem DomainChanged.held (h : DomainChanged C i shares d d') (hanswer : answer.isSome = true) :
    DomainHeld C i (if answer.isSome ∧ domainState d' i ≠ domainState d i then [] else shares)
      d' := by
  rcases h with ⟨hheld, hstate⟩ | ⟨hheld, hshares⟩
  · rw [if_neg fun hne ↦ hne.2 hstate]
    exact hheld
  · split_ifs with hne
    · exact hheld
    · rw [hshares (by_contra fun hstate ↦ hne ⟨hanswer, hstate⟩)]
      exact hheld

end Answers

/-- **The command**: what is stored goes with the shares that are accepted. -/
theorem wp_cmdKeyDomain (h : DomainHeld C i shares d)
    (hcareful : (DkekCommand.keyDomain p1 p2 data env).Careful i d d.faults) :
    wp A (cmdKeyDomain C p1 p2 data env)
      (fun b d' ↦ DomainHeld C i (sharesAnswered i shares p1 p2 data d (some (.ok b)) d') d')
      (fun e d' ↦ ∀ r, e = .code r →
        DomainHeld C i (sharesAnswered i shares p1 p2 data d (some (.error r)) d') d' ∧
          (p1 = 0 → p2.toNat = i.val → data ≠ [] → ImportRefused C i shares d d')) d := by
  have hsame (r : DkekError) :
      DomainHeld C i (sharesAnswered i shares p1 p2 data d (some (.error r)) d) d ∧
        (p1 = 0 → p2.toNat = i.val → data ≠ [] → ImportRefused C i shares d d) := by
    refine ⟨?_, fun _ _ _ ↦ ⟨h, rfl, rfl⟩⟩
    by_cases hno : p1 = 0 ∧ data ≠ []
    · obtain ⟨rfl, hdata⟩ := hno
      by_cases hp2 : p2.toNat = i.val
      · rw [sharesAnswered_error hp2 hdata]
        exact h
      · rw [sharesAnswered_of_ne hp2]
        exact h
    · rw [sharesAnswered_same rfl hno]
      exact h
  refine wp_get (wp_lift (fun target htarget ↦ ?_) fun r _ s hs ↦ ?_)
  swap
  · exact hsame s
  obtain ⟨j, n, c⟩ := target
  obtain ⟨hj, hstate, hsession⟩ := keyDomainTarget_eq_ok htarget
  have hcareful := hcareful j n c htarget
  -- what does not look at the shares
  have hkept {m : DkekProg Bytes} (hno : ¬(p1 = 0 ∧ data ≠ []))
      (hm : Preserves (HeldAt C i shares (domainState d i)) m) : wp A m
      (fun b d' ↦ DomainHeld C i (sharesAnswered i shares p1 p2 data d (some (.ok b)) d') d')
      (fun e d' ↦ ∀ r, e = .code r →
        DomainHeld C i (sharesAnswered i shares p1 p2 data d (some (.error r)) d') d' ∧
          (p1 = 0 → p2.toNat = i.val → data ≠ [] → ImportRefused C i shares d d')) d := by
    refine wp_mono (hm A d ⟨h, rfl⟩) (fun b d' h' ↦ ?_) fun e d' h' r _ ↦ ⟨?_, fun hp1 _ hdata ↦
      absurd ⟨hp1, hdata⟩ hno⟩
    · rw [sharesAnswered_same h'.1.2 hno]
      exact h'.1.1
    · rw [sharesAnswered_same h'.2 hno]
      exact h'.1
  refine wp_ite (fun hp1 ↦ wp_ite (fun hdata ↦ ?_) fun hdata ↦ hkept (fun hno ↦ hdata hno.2)
    keeps_cmdDomainStatus) fun hp1 ↦ wp_ite (fun hmutates ↦ ?_) fun _ ↦ wp_ite
      (fun _ ↦ hkept (fun hno ↦ hp1 hno.1) keeps_cmdJoinDomain) fun _ ↦ wp_fail fun r _ ↦ hsame r
  · subst hp1
    have hcareful := hcareful hdata
    rcases eq_or_ne j i with rfl | hij
    · obtain ⟨n', c', hstate'⟩ := h.exists_state
      obtain ⟨rfl, rfl⟩ := Prod.mk.inj (hstate n' c' hstate')
      refine wp_mono (wp_cmdImportShare h hstate' hcareful) (fun b d' h' ↦ ?_) fun e d' h' r he ↦ ?_
      · rw [sharesAnswered_ok hj.symm hdata]
        exact h'
      · have hrefused := h' (by rw [he]; exact nofun)
        rw [sharesAnswered_error hj.symm hdata]
        exact ⟨hrefused.held, fun _ _ _ ↦ hrefused⟩
    · have hp2 : p2.toNat ≠ i.val := fun hp2 ↦ hij (Fin.ext (hj.trans hp2))
      refine wp_mono (wp_cmdImportShare_other hij h hcareful) (fun b d' h' ↦ ?_)
        fun e d' h' r he ↦ ⟨?_, fun _ hi ↦ absurd hi hp2⟩
      · rw [sharesAnswered_of_ne hp2]
        exact h'
      · rw [sharesAnswered_of_ne hp2]
        exact h' (by rw [he]; exact nofun)
  · rw [if_neg hp1] at hcareful
    have hno : ¬(p1 = 0 ∧ data ≠ []) := fun hno ↦ hp1 hno.1
    rcases eq_or_ne j i with rfl | hij
    · obtain ⟨n', c', hstate'⟩ := h.exists_state
      obtain ⟨rfl, rfl⟩ := Prod.mk.inj (hstate n' c' hstate')
      refine wp_mono (wp_cmdChangeDomain h hstate' (hsession hmutates) (hcareful hmutates rfl))
        (fun b d' h' ↦ ?_) fun e d' h' r he ↦ ⟨?_, fun hp _ _ ↦ absurd hp hp1⟩
      · rw [sharesAnswered_change hj.symm hno]
        exact h'.held rfl
      · rw [sharesAnswered_change hj.symm hno]
        exact (h' (by rw [he]; exact nofun)).held rfl
    · have hp2 : p2.toNat ≠ i.val := fun hp2 ↦ hij (Fin.ext (hj.trans hp2))
      refine wp_mono (wp_cmdChangeDomain_other hij h) (fun b d' h' ↦ ?_)
        fun e d' h' r he ↦ ⟨?_, fun _ hi ↦ absurd hi hp2⟩
      · rw [sharesAnswered_of_ne hp2]
        exact h'
      · rw [sharesAnswered_of_ne hp2]
        exact h'

/-! ### Runs -/

/-- What is found after a loss of power. -/
theorem DomainHeld.reboot (h : DomainHeld C i shares d) {ram : DkekRam}
    (hsame : SameDomain i d d') (hpending : d.ram.pendingSaveDkek ≠ some i)
    (hram : d'.ram = ram) (hnone : ram.pendingSaveDkek = none) : DomainHeld C i shares d' :=
  h.of_same hsame (by rw [hram, hnone]; exact ⟨(by cases ·), fun h ↦ absurd h hpending⟩)
    fun hyes ↦ absurd hyes hpending

/-- **A command**: what is stored goes with the shares that are accepted, if it is answered. -/
theorem DomainHeld.command (h : DomainHeld C i shares d) (hoff : d.ram.off = false)
    {c : DkekCommand} (hcareful : c.Careful i d faults) :
    ((dkekMachine C).step d (.command c faults)).1 ≠ none →
      DomainHeld C i (sharesAfter C i shares d (.command c faults))
        ((dkekMachine C).step d (.command c faults)).2 := by
  have hd : DomainHeld C i shares { d with faults := faults } := h.of_same_ram (.of_files rfl) rfl
  have hno : (dkekMachine C).isOff d.ram = true → False := fun hyes ↦ by
    rw [show (dkekMachine C).isOff d.ram = d.ram.off from rfl, hoff] at hyes
    cases hyes
  cases c with
  | keyDomain p1 p2 data env =>
    refine Machine.step_command (M := dkekMachine C) (P := fun answer d' ↦ answer ≠ none →
        DomainHeld C i (sharesAnswered i shares p1 p2 data d answer d') d')
      (fun hyes ↦ (hno hyes).elim) (fun _ ↦ wp_cmdKeyDomain hd hcareful)
      (fun b d' h' _ ↦ h') (fun r d' h' _ ↦ (h' r rfl).1) fun _ _ hne ↦ absurd rfl hne
  | login pin authenticated opens =>
    refine Machine.step_command (M := dkekMachine C)
      (P := fun answer d' ↦ answer ≠ none → DomainHeld C i shares d')
      (fun hyes ↦ (hno hyes).elim) (fun _ ↦ wp_loginDkek hd hcareful) (fun _ _ h' _ ↦ h')
      (fun _ _ h' _ ↦ h' nofun) fun _ _ hne ↦ absurd rfl hne
  | logout =>
    refine Machine.step_command (M := dkekMachine C)
      (P := fun answer d' ↦ answer ≠ none → DomainHeld C i shares d')
      (Q := fun _ d' ↦ DomainHeld C i shares d') (E := fun _ d' ↦ DomainHeld C i shares d')
      (fun hyes ↦ (hno hyes).elim)
      (fun _ ↦ wp_bind (wp_modifyState (wp_pure (hd.of_same (.of_files rfl) Iff.rfl fun _ _ ↦ rfl))))
      (fun _ _ h' _ ↦ h') (fun _ _ h' _ ↦ h') fun _ _ hne ↦ absurd rfl hne
  | useDkek j =>
    refine Machine.step_command (M := dkekMachine C)
      (P := fun answer d' ↦ answer ≠ none → DomainHeld C i shares d')
      (fun hyes ↦ (hno hyes).elim) (fun _ ↦ wp_loadDkek hd) (fun _ _ h' _ ↦ h'.held)
      (fun _ _ h' _ ↦ h'.held) fun _ _ hne ↦ absurd rfl hne

/-- A command that is not answered accepts nothing. -/
theorem sharesAfter_unanswered {c : DkekCommand}
    (h : ((dkekMachine C).step d (.command c faults)).1 = none) :
    sharesAfter C i shares d (.command c faults) = shares := by
  cases c with
  | keyDomain p1 p2 data env =>
    show sharesAnswered i shares p1 p2 data d _ _ = shares
    rw [h, sharesAnswered]
    simp [answeredOk]
  | login _ _ _ => rfl
  | logout => rfl
  | useDkek _ => rfl

/-- What is stored when a command has been answered, and the device is still as it was then, unless the
power has been lost. -/
structure RunHeld (C : DkekCrypto) (i : Fin maxKeyDomains) (shares : List Bytes)
    (settled d : DkekDevice) : Prop where
  held : DomainHeld C i shares settled
  now : d.ram.off = false → settled = d

/-- **A step.** -/
theorem RunHeld.step {event : DkekEvent} (h : RunHeld C i shares settled d)
    (hcareful : DkekCareful C i settled d event) :
    RunHeld C i (sharesAfter C i shares d event) (settledAfter C settled d event)
      ((dkekMachine C).step d event).2 := by
  rcases event with ⟨c, faults⟩ | f | keep
  · rcases hanswer : ((dkekMachine C).step d (.command c faults)).1 with - | answer
    · -- the power has been lost
      rw [sharesAfter_unanswered hanswer, settledAfter, hanswer]
      refine ⟨h.held, fun hon ↦ ?_⟩
      have hoff := Machine.isOff_of_unanswered (M := dkekMachine C) (fun _ ↦ rfl) hanswer
      rw [show (dkekMachine C).isOff _ = DkekRam.off _ from rfl, hon] at hoff
      cases hoff
    · have hne : ((dkekMachine C).step d (.command c faults)).1 ≠ none := by
        rw [hanswer]
        exact nofun
      have hsettled : settledAfter C settled d (.command c faults) =
          ((dkekMachine C).step d (.command c faults)).2 := by
        show (if _ then settled else _) = _
        rw [hanswer]
        rfl
      rw [hsettled]
      have hoff : d.ram.off = false := by
        by_contra hoff
        refine hne ?_
        rw [Machine.step, if_pos (show (dkekMachine C).isOff d.ram = true from
          (Bool.not_eq_false _).mp hoff)]
      obtain rfl := h.now hoff
      exact ⟨h.held.command hoff (hcareful.resolve_left hne) hne, fun _ ↦ rfl⟩
  · -- a file reaches the medium
    rcases hoff : d.ram.off with - | -
    · obtain rfl := h.now hoff
      have hstep : ((dkekMachine C).step settled (.flush f)).2 =
          { settled with files := settled.files.flush f } := by
        exact if_neg (by rw [show (dkekMachine C).isOff settled.ram = settled.ram.off from rfl, hoff]
                         exact Bool.false_ne_true)
      rw [settledAfter, hstep, hoff]
      exact ⟨h.held.of_same_ram (.of_read rfl rfl) rfl, fun _ ↦ rfl⟩
    · have hstep : ((dkekMachine C).step d (.flush f)).2 = d := by
        exact if_pos hoff
      rw [settledAfter, hstep, hoff]
      refine ⟨h.held, fun hon ↦ ?_⟩
      rw [hoff] at hon
      cases hon
  · -- the power comes back
    obtain ⟨hstate, hdata, hpending⟩ := hcareful
    exact ⟨h.held.reboot ⟨hstate, hdata⟩ hpending rfl rfl, fun _ ↦ rfl⟩

theorem RunHeld.run (h : RunHeld C i shares settled d)
    (hcareful : CarefulDkekRun C i settled d events)
    (hon : ((dkekMachine C).run d events).ram.off = false) :
    DomainHeld C i (acceptedShares C i shares d events) ((dkekMachine C).run d events) := by
  induction events generalizing shares settled d with
  | nil => exact h.now hon ▸ h.held
  | cons event events ih => exact ih (h.step hcareful.1) hcareful.2 hon

/-! ### Imports that are refused -/

/-- With all its shares a domain takes no other. -/
theorem wp_cmdKeyDomain_complete (hstate : domainState d i = some (dkeks, dkeks))
    (hp2 : p2.toNat = i.val) (hdata : data ≠ []) :
    wp A (cmdKeyDomain C 0 p2 data env) (fun _ _ ↦ False) (fun _ d' ↦ SameDomain i d d') d := by
  refine wp_get (wp_lift (fun target htarget ↦ ?_) fun _ _ ↦ .refl i d)
  obtain ⟨j, n, c⟩ := target
  obtain ⟨hj, htarget, -⟩ := keyDomainTarget_eq_ok htarget
  obtain rfl : j = i := Fin.ext (hj.trans hp2)
  obtain ⟨rfl, rfl⟩ := Prod.mk.inj (htarget _ _ hstate)
  refine wp_ite (fun _ ↦ wp_ite (fun _ ↦ wp_bind (wp_dkekFileNew (fun _ d₁ _ hdata₁ _ _ _ ↦ ?_)
    fun _ ↦ .refl j d)) fun hno ↦ absurd hdata hno) fun hno ↦ absurd rfl hno
  have hsame : SameDomain j d d₁ :=
    ⟨domainState_congr (by rw [hdata₁]) (by rw [hdata₁]), hdata₁ _⟩
  exact wp_refuse hsame fun _ ↦ wp_refuse hsame fun hne ↦
    absurd rfl hne

theorem RunHeld.importKept {event : DkekEvent} (h : RunHeld C i shares settled d)
    (hcareful : DkekCareful C i settled d event) : ImportKept C i d event := by
  rintro p2 data env faults rfl hp2 hdata hon
  obtain rfl := h.now hon
  have hoff : (dkekMachine C).isOff settled.ram = true → False := fun hyes ↦ by
    rw [show (dkekMachine C).isOff settled.ram = settled.ram.off from rfl, hon] at hyes
    cases hyes
  refine ⟨fun e he ↦ ?_, fun n hstate ↦ ?_⟩
  · have hheld : DomainHeld C i shares { settled with faults := faults } :=
      h.held.of_same_ram (.of_files rfl) rfl
    have hcareful := hcareful.resolve_left (by rw [he]; exact nofun)
    have hrefused := Machine.step_command (M := dkekMachine C) (c := .keyDomain 0 p2 data env)
      (P := fun answer d' ↦ ∀ e, answer = some (.error e) → ImportRefused C i shares settled d')
      (fun hyes ↦ (hoff hyes).elim) (fun _ ↦ wp_cmdKeyDomain hheld hcareful)
      (fun b d' _ e he ↦ by cases he)
      (fun r d' h' _ _ ↦
        have hrefused := (h' r rfl).2 rfl hp2 hdata
        ⟨hrefused.held, hrefused.state, hrefused.accumulated⟩)
      (fun _ _ _ he ↦ by cases he) e he
    exact ⟨hrefused.state, hrefused.accumulated⟩
  · have hsame : SameDomain i settled
        ((dkekMachine C).step settled (.command (.keyDomain 0 p2 data env) faults)).2 :=
      Machine.step_command (M := dkekMachine C) (P := fun _ d' ↦ SameDomain i settled d')
        (fun hyes ↦ (hoff hyes).elim) (fun _ ↦ wp_cmdKeyDomain_complete hstate hp2 hdata)
        (fun _ _ hno ↦ hno.elim) (fun _ d' h' ↦ ⟨h'.state, h'.data⟩) fun d' h' ↦ ⟨h'.state, h'.data⟩
    exact ⟨hsame.state, hsame.data⟩

theorem RunHeld.imports (h : RunHeld C i shares settled d)
    (hcareful : CarefulDkekRun C i settled d events) :
    (dkekMachine C).Along (ImportKept C i) d events := by
  induction events generalizing shares settled d with
  | nil => trivial
  | cons event events ih => exact ⟨h.importKept hcareful.1, ih (h.step hcareful.1) hcareful.2⟩

/-! ### Agreement -/

theorem dkekInForce_of_sealed (hdata : dkekFileData d (.dkek i) = mkekObject C key)
    (hlength : key.length = 32) : DkekInForce C i key d := by
  have hrun := run_of_wp (wp_loadDkek_sealed (A := fun _ ↦ True) (C := C) (i := i) (d := d)
    (Q := fun key' _ ↦ key' = key ∧ d.ram.loadMkek = .ok ())
    (E := fun _ _ ↦ d.ram.loadMkek ≠ .ok ()) hdata hlength (fun h ↦ ⟨rfl, h⟩) fun h _ ↦ h)
    fun o (_ : o ∈ []) ↦ trivial
  refine ⟨fun hmkek ↦ ?_, fun hmkek key' hkey ↦ ?_⟩
  · obtain ⟨key', hkey, rfl, -⟩ | ⟨e, -, hno⟩ := hrun
    · exact hkey
    · exact absurd hmkek hno
  · obtain ⟨key'', hkey', -, hyes⟩ | ⟨e, he, -⟩ := hrun
    · exact absurd hyes hmkek
    · rw [he] at hkey
      cases hkey

theorem loadMkek_of_no_session (h : d.ram.hasSession = false) :
    d.ram.loadMkek = .error (.status .noLogin) := by
  rw [DkekRam.hasSession, Bool.or_eq_false_iff] at h
  rw [DkekRam.loadMkek, h.1, h.2]
  rfl

/-- A DKEK that is pending is not loaded. -/
theorem dkekInForce_of_pending (hlength : (dkekFileData d (.dkek i)).length = 32)
    (hsession : d.ram.hasSession = false) : DkekInForce C i key d := by
  have hmkek := loadMkek_of_no_session hsession
  have hload : wp (fun _ ↦ True) (loadDkek C i) (fun _ _ ↦ False) (fun _ _ ↦ True) d := by
    refine wp_get (wp_refuse trivial fun _ ↦ wp_ite (fun _ ↦ ?_) fun hne ↦ absurd hlength hne)
    rw [hmkek]
    exact wp_bind (wp_fail trivial)
  refine ⟨fun h ↦ ?_, fun _ key' hkey ↦ ?_⟩
  · rw [hmkek] at h
    cases h
  · obtain ⟨_, -, hno⟩ | ⟨e, he, -⟩ := run_of_wp hload fun o (_ : o ∈ []) ↦ trivial
    · exact hno
    · rw [he] at hkey
      cases hkey

/-- What is stored of a domain agrees with the shares that were accepted. -/
theorem DomainHeld.agree (h : DomainHeld C i shares d) : SharesAgree C i shares d := by
  cases h with
  | idle n hstate _ hshares _ =>
    refine ⟨n, n, hstate, ?_⟩
    rw [if_neg (UInt8.lt_irrefl n)]
    exact ⟨rfl, fun hne ↦ absurd hshares hne⟩
  | filling n c hstate hcount hlt hdata _ =>
    refine ⟨n, c, hstate, ?_⟩
    rw [if_pos hlt]
    exact ⟨hcount, hdata⟩
  | sealed n hstate hcount _ hdata hlength _ =>
    refine ⟨n, n, hstate, ?_⟩
    rw [if_neg (UInt8.lt_irrefl n)]
    exact ⟨rfl, fun _ ↦ ⟨hcount, dkekInForce_of_sealed hdata hlength⟩⟩
  | pending n hstate hcount _ hdata hlength _ hsession =>
    refine ⟨n, n, hstate, ?_⟩
    rw [if_neg (UInt8.lt_irrefl n)]
    exact ⟨rfl, fun _ ↦ ⟨hcount, dkekInForce_of_pending (hdata ▸ hlength) hsession⟩⟩

/-- **The shares of a key domain.** In a careful run that begins with a domain whose accepted shares are
`shares`, the accumulated value and the number of the shares agree with the shares that have been
accepted, the DKEK that is loaded is the sum of all of them, and no import that is refused, or that comes
when the domain is complete, changes anything. -/
theorem dkek_shares_agree (C : DkekCrypto) (i : Fin maxKeyDomains) (shares : List Bytes)
    (d : DkekDevice) (h : DomainHeld C i shares d) (events : List DkekEvent)
    (hcareful : CarefulDkekRun C i d d events) :
    (((dkekMachine C).run d events).ram.off = false →
      SharesAgree C i (acceptedShares C i shares d events) ((dkekMachine C).run d events)) ∧
    (dkekMachine C).Along (ImportKept C i) d events := by
  have hrun : RunHeld C i shares d d := ⟨h, fun _ ↦ rfl⟩
  exact ⟨fun hon ↦ (hrun.run hcareful hon).agree, hrun.imports hcareful⟩

/-! ### Runs on fixed inputs -/

/-- Sealing adds zeros. -/
def plainDkekCrypto : DkekCrypto where
  encrypt key := .replicate 12 0 ++ key ++ .replicate 16 0
  decrypt ct := some ((ct.drop 12).take (ct.length - 28))
  decryptCfb := id
  kcv := List.take 8
  membershipUid _ := .error swConditionsNotSatisfied
  length_encrypt key := by simp only [List.length_append, List.length_replicate]
  decrypt_encrypt key := by
    rw [List.append_assoc, List.drop_left' List.length_replicate, List.take_left' ?_]
    simp only [List.length_append, List.length_replicate]
    omega

/-- A session, and a domain that is to have two shares. -/
def dkekStart : DkekDevice where
  files := ⟨fun f ↦ if f = .keyDomain then some [2, 0] else none, fun _ ↦ []⟩
  faults _ := []
  ram := ⟨true, true, false, true, none, false⟩

theorem dkekStart_held : DomainHeld plainDkekCrypto 0 [] dkekStart :=
  .filling 2 0 rfl rfl (by decide) rfl (by decide)

/-- The import of a share of 32 bytes into the first domain. -/
def importOf (b : UInt8) (faults : DkekFile → List Outcome) : DkekEvent :=
  .command (.keyDomain 0 0 (.replicate 32 b) ⟨false, true⟩) faults

/-- Nothing is asked of a command whose writes are left alone, when the DKEK is not pending. -/
theorem DkekCommand.careful_of_quiet {c : DkekCommand} (h : d.ram.pendingSaveDkek ≠ some i) :
    c.Careful i d fun _ ↦ [] := by
  cases c with
  | keyDomain p1 p2 data env =>
    intro j n c _
    have hne : Outcome.ok ≠ .fail := by decide
    split_ifs with hp1
    · intro _ _ _ _
      rw [ShareCareful]
      split_ifs with hij hlast
      · refine ⟨hne, ?_⟩
        rcases d.ram.loadMkek with e | u
        · rcases e with s | w
          · cases s with
            | noLogin => exact rfl
            | _ => exact hne
          · exact hne
        · exact .inl ⟨rfl, rfl⟩
      · exact ⟨hne, rfl⟩
      · exact fun _ _ ↦ h
    · intro _ _ _ hfault
      rcases hfault with hfault | ⟨-, hfault⟩ <;> cases hfault
  | login _ _ _ => exact fun hyes ↦ absurd hyes h
  | logout => trivial
  | useDkek _ => trivial

/-- Two shares are imported: the DKEK is their sum. -/
theorem dkek_shares_agree_two :
    (((dkekMachine plainDkekCrypto).run dkekStart
        [importOf 3 fun _ ↦ [], importOf 5 fun _ ↦ []]).ram.off = false →
      SharesAgree plainDkekCrypto 0 (acceptedShares plainDkekCrypto 0 [] dkekStart
          [importOf 3 fun _ ↦ [], importOf 5 fun _ ↦ []])
        ((dkekMachine plainDkekCrypto).run dkekStart
          [importOf 3 fun _ ↦ [], importOf 5 fun _ ↦ []])) ∧
    (dkekMachine plainDkekCrypto).Along (ImportKept plainDkekCrypto 0) dkekStart
      [importOf 3 fun _ ↦ [], importOf 5 fun _ ↦ []] :=
  dkek_shares_agree plainDkekCrypto 0 [] dkekStart dkekStart_held _
    ⟨.inr (DkekCommand.careful_of_quiet (by decide)),
      .inr (DkekCommand.careful_of_quiet (by decide +kernel)), trivial⟩

/-- The number of the shares is not written when the second share has been added: the DKEK is sealed all
the same, and when the share is sent again nothing is left of the first one. -/
def countRefused : List DkekEvent :=
  [importOf 3 fun _ ↦ [], importOf 5 fun f ↦ if f = .keyDomain then [.fail] else [],
    importOf 5 fun _ ↦ []]

theorem dkek_share_lost : DomainHeld plainDkekCrypto 0 [] dkekStart ∧
    acceptedShares plainDkekCrypto 0 [] dkekStart countRefused =
      [.replicate 32 3, .replicate 32 5] ∧
    (loadDkek plainDkekCrypto 0).result
      ((dkekMachine plainDkekCrypto).run dkekStart countRefused) [] = .ok (.replicate 32 5) ∧
    ¬SharesAgree plainDkekCrypto 0 (acceptedShares plainDkekCrypto 0 [] dkekStart countRefused)
      ((dkekMachine plainDkekCrypto).run dkekStart countRefused) := by
  have hshares : acceptedShares plainDkekCrypto 0 [] dkekStart countRefused =
      [.replicate 32 3, .replicate 32 5] := by decide +kernel
  have hload : (loadDkek plainDkekCrypto 0).result
      ((dkekMachine plainDkekCrypto).run dkekStart countRefused) [] = .ok (.replicate 32 5) := by
    decide +kernel
  have hmkek : ((dkekMachine plainDkekCrypto).run dkekStart countRefused).ram.loadMkek = .ok () := by
    decide +kernel
  have hstate : domainState ((dkekMachine plainDkekCrypto).run dkekStart countRefused) 0 =
      some (2, 2) := by decide +kernel
  refine ⟨dkekStart_held, hshares, hload, fun ⟨n, c, hn, hagree⟩ ↦ ?_⟩
  obtain ⟨rfl, rfl⟩ := Prod.mk.inj (Option.some.inj (hstate.symm.trans hn))
  have hsum := (hagree.2 (by decide)).2.1 hmkek
  exact absurd hsum (by decide +kernel)

end PicoAll

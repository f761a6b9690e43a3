import PicoAll.Lib.BigEndian
import PicoAll.Lib.ReferenceChain

/-!
# Chains of card verifiable certificates

`cvc_inherite_ec_group` of `cvc.c`. A certificate names its holder and its authority, and only the first
of a chain, which is signed with its own key, needs to have the parameters of the curve. The certificates
that authorities are looked up in are those of the store of `sc_hsm.c`, as the host has put them there.

The walk along the authorities stops at a certificate that is its own authority, and where there is no
certificate. Nothing stops it on a cycle.
-/

namespace PicoAll

open ReferenceChain Option

/-! ### The functions of the source -/

/-- The getters of the certificates. What is not there has the length zero. -/
structure CvcGetters (Curve : Type) where
  /-- `cvc_get_chr`. -/
  chr : Bytes → Option Bytes
  /-- `cvc_get_car`. -/
  car : Bytes → Option Bytes
  /-- `cvc_get_pub`. -/
  pub : Bytes → Option Bytes
  /-- The field `0x81` of a public key. -/
  prime : Bytes → Option Bytes
  /-- `ec_get_curve_from_prime`. -/
  curveFromPrime : Bytes → Option Curve

variable {Curve : Type} (G : CvcGetters Curve) (store : List Bytes)

/-- `puk_store_index`, and the certificate that is there. -/
def pukStoreFind (chr : Bytes) : Option Bytes :=
  store.find? fun cert ↦ G.chr cert = some chr

/-- The loop of `cvc_inherite_ec_group`: the certificate that it stops at, if it does so in the given
number of rounds. -/
def inheriteLoop : ℕ → Option Bytes → Option (Option Bytes)
  | 0, _ => none
  | _ + 1, none => some none
  | rounds + 1, some ca =>
    match G.car ca with
    | none => some (some ca)
    | some car =>
      if car = (G.chr ca).getD [] then some (some ca)
      else if (G.chr ca).isSome then inheriteLoop rounds (pukStoreFind G store car)
      else some (pukStoreFind G store car)

/-- The curve of a certificate that has the parameters. -/
def ownCurve (ca : Bytes) : Option Curve :=
  ((G.pub ca).bind G.prime).bind G.curveFromPrime

/-- `cvc_inherite_ec_group`, if the loop stops in the given number of rounds. -/
def cvcInheriteEcGroup (rounds : ℕ) (ca : Bytes) : Option (Option Curve) :=
  (inheriteLoop G store rounds (some ca)).map fun ca ↦ ca.bind (ownCurve G)

/-! ### What is asked of it -/

/-- A certificate that is its own authority. -/
def SelfSigned (ca : Bytes) : Prop :=
  (G.chr ca).isSome ∧ G.car ca = G.chr ca

instance : DecidablePred (SelfSigned G) := fun _ ↦ instDecidableAnd

/-- The certificate of the authority. -/
def authority (ca : Bytes) : Option Bytes :=
  if SelfSigned G ca then none else (G.car ca).bind (pukStoreFind G store)

/-- The curve that a chain of authorities leads to: that of the certificate at its end that is
self-signed, if there is one. -/
inductive ChainCurve (ca : Bytes) : Option Curve → Prop
  | root {root : Bytes} : Leads (authority G store) ca root → SelfSigned G root →
      ChainCurve ca (ownCurve G root)
  | none : (∀ root, Leads (authority G store) ca root → ¬ SelfSigned G root) → ChainCurve ca none

/-- The walk ends, and with the curve that the chain leads to. -/
def InheritsRight (ca : Bytes) : Prop :=
  ∃ rounds curve, cvcInheriteEcGroup G store rounds ca = some curve ∧ ChainCurve G store ca curve

/-- When the walk is right. -/
structure ChainRegular (ca : Bytes) : Prop where
  /-- The authorities are not on a cycle. -/
  acyclic : (G.chr ca).isSome → ∀ cert, Leads (authority G store) ca cert →
    ¬ OnCycle (authority G store) cert
  /-- A certificate that names no authority has no parameters. -/
  rootless : (G.chr ca).isSome → ∀ cert, Leads (authority G store) ca cert → G.car cert = none →
    ownCurve G cert = none
  /-- A certificate that names neither, or the empty authority, has no parameters but those of the
  chain that such an authority is on. -/
  bare : G.chr ca = none → (G.car ca).getD [] = [] → (authority G store ca = none → ownCurve G ca = none) ∧
    ∀ cert, authority G store ca = some cert → ChainCurve G store cert (ownCurve G ca)
  /-- The authority of a certificate that names no holder, if it is there, is self-signed, or has the
  parameters of the chain that it is on. -/
  holderless : G.chr ca = none → (G.car ca).getD [] ≠ [] → ∀ cert, authority G store ca = some cert →
    SelfSigned G cert ∨ ChainCurve G store cert (ownCurve G cert)

/-! ### The walk -/

variable {G store} {ca cert : Bytes} {curve : Option Curve}

/-- An authority is found in the store, by its holder. -/
theorem authority_spec (h : authority G store ca = some cert) : cert ∈ store ∧ (G.chr cert).isSome := by
  rw [authority] at h
  split_ifs at h
  obtain ⟨car, -, hfind⟩ := bind_eq_some_iff.mp h
  have hchr := List.find?_some hfind
  rw [decide_eq_true_eq] at hchr
  exact ⟨List.mem_of_find?_eq_some hfind, by rw [hchr, isSome_some]⟩

/-- Where the walk stops at the end of a chain. -/
def lastStop (G : CvcGetters Curve) (cert : Bytes) : Option Bytes :=
  if SelfSigned G cert ∨ G.car cert = none then some cert else none

/-- A round of the loop. -/
theorem inheriteLoop_succ (hchr : (G.chr ca).isSome) (rounds : ℕ) :
    inheriteLoop G store (rounds + 1) (some ca) =
      if SelfSigned G ca ∨ G.car ca = none then some (some ca)
      else inheriteLoop G store rounds (authority G store ca) := by
  obtain ⟨chr, hchr⟩ := isSome_iff_exists.mp hchr
  rcases hcar : G.car ca with - | car
  · simp [inheriteLoop, hcar]
  · have hself : SelfSigned G ca ↔ car = chr := by simp [SelfSigned, hchr, hcar]
    rcases eq_or_ne car chr with rfl | hne
    · simp [inheriteLoop, hcar, hchr, hself]
    · simp [inheriteLoop, authority, hcar, hchr, hself, hne]

theorem last_of_stop (h : SelfSigned G ca ∨ G.car ca = none) : authority G store ca = none := by
  rcases h with h | h
  · exact if_pos h
  · rw [authority, h]
    split_ifs <;> rfl

/-- **The walk stops at the last certificate of the chain**, or behind it. -/
theorem inheriteLoop_eq_some_iff (hchr : (G.chr ca).isSome) {stop : Option Bytes} :
    (∃ rounds, inheriteLoop G store rounds (some ca) = some stop) ↔
      ∃ cert, Last (authority G store) ca cert ∧ lastStop G cert = stop := by
  constructor
  · rintro ⟨rounds, hrun⟩
    induction rounds generalizing ca with
    | zero => cases hrun
    | succ rounds ih =>
      rw [inheriteLoop_succ hchr] at hrun
      split_ifs at hrun with hstop
      · exact ⟨ca, ⟨.refl, last_of_stop hstop⟩, (if_pos hstop).trans (Option.some.inj hrun)⟩
      · rcases hnext : authority G store ca with - | cert
        · rw [hnext] at hrun
          cases rounds with
          | zero => cases hrun
          | succ => exact ⟨ca, ⟨.refl, hnext⟩, (if_neg hstop).trans (Option.some.inj hrun)⟩
        · rw [hnext] at hrun
          obtain ⟨last, ⟨hleads, hlast⟩, rfl⟩ := ih (authority_spec hnext).2 hrun
          exact ⟨last, ⟨.head hnext hleads, hlast⟩, rfl⟩
  · rintro ⟨cert, ⟨hleads, hlast⟩, rfl⟩
    induction hleads using Relation.ReflTransGen.head_induction_on with
    | refl =>
      refine ⟨2, (inheriteLoop_succ hchr 1).trans ?_⟩
      rw [lastStop, hlast]
      split_ifs <;> rfl
    | head hstep _ ih =>
      obtain ⟨rounds, hrun⟩ := ih (authority_spec hstep).2
      refine ⟨rounds + 1, (inheriteLoop_succ hchr rounds).trans ?_⟩
      rw [if_neg, hstep, hrun]
      intro hstop
      rw [Refers, last_of_stop hstop] at hstep
      cases hstep

/-- The curve of a chain that ends. -/
theorem chainCurve_iff (h : Last (authority G store) ca cert) :
    ChainCurve G store ca curve ↔
      curve = if SelfSigned G cert then ownCurve G cert else none := by
  have hroot {root : Bytes} (hleads : Leads (authority G store) ca root) (hself : SelfSigned G root) :
      root = cert := Last.unique ⟨hleads, last_of_stop (.inl hself)⟩ h
  constructor
  · rintro (⟨hleads, hself⟩ | hnone)
    · obtain rfl := hroot hleads hself
      rw [if_pos hself]
    · rw [if_neg (hnone cert h.1)]
  · rintro rfl
    split_ifs with hself
    · exact .root h.1 hself
    · exact .none fun root hleads hself' ↦ hself (hroot hleads hself' ▸ hself')

/-- The curve of a chain is that of the chain of the authority. -/
theorem chainCurve_of_authority (h : authority G store ca = some cert) :
    ChainCurve G store ca curve ↔ ChainCurve G store cert curve := by
  have hleads {root : Bytes} (hroot : Leads (authority G store) ca root) (hself : SelfSigned G root) :
      Leads (authority G store) cert root := by
    rcases hroot.cases_head with rfl | ⟨next, hnext, hroot⟩
    · rw [last_of_stop (.inl hself)] at h
      cases h
    · obtain rfl := Option.some.inj (hnext.symm.trans h)
      exact hroot
  constructor
  · rintro (⟨hroot, hself⟩ | hnone)
    · exact .root (hleads hroot hself) hself
    · exact .none fun root hroot ↦ hnone root (.head h hroot)
  · rintro (⟨hroot, hself⟩ | hnone)
    · exact .root (.head h hroot) hself
    · exact .none fun root hroot hself ↦ hnone root (hleads hroot hself) hself

/-! ### A certificate that names no holder -/

theorem not_selfSigned (hchr : G.chr ca = none) : ¬ SelfSigned G ca :=
  fun h ↦ by simpa [hchr] using h.1

/-- The walk from it takes one step at most. -/
theorem inheriteLoop_holderless (hchr : G.chr ca = none) (rounds : ℕ) :
    inheriteLoop G store (rounds + 1) (some ca) =
      some (if (G.car ca).getD [] = [] then some ca else authority G store ca) := by
  rw [inheriteLoop, authority, if_neg (not_selfSigned hchr), hchr]
  rcases G.car ca with - | car
  · rfl
  · dsimp only [getD]
    split_ifs <;> first | rfl | contradiction

theorem inheritsRight_holderless (hchr : G.chr ca = none) :
    InheritsRight G store ca ↔ ChainCurve G store ca
      ((if (G.car ca).getD [] = [] then some ca else authority G store ca).bind (ownCurve G)) := by
  constructor
  · rintro ⟨_ | rounds, curve, hrun, hcurve⟩
    · cases hrun
    · rw [cvcInheriteEcGroup, inheriteLoop_holderless hchr] at hrun
      obtain rfl := Option.some.inj hrun
      exact hcurve
  · exact fun h ↦ ⟨1, _, congrArg (Option.map _) (inheriteLoop_holderless hchr 0), h⟩

/-- **When the walk from a certificate without a holder is right.** -/
theorem holderless_right_iff (hchr : G.chr ca = none) :
    InheritsRight G store ca ↔ ChainRegular G store ca := by
  have hnone (curve : Option Curve) (h : authority G store ca = none) :
      ChainCurve G store ca curve ↔ curve = none := by
    rw [chainCurve_iff ⟨.refl, h⟩, if_neg (not_selfSigned hchr)]
  have hsome {p : Prop} (h : (G.chr ca).isSome) : p := by
    rw [hchr] at h
    cases h
  rw [inheritsRight_holderless hchr]
  constructor
  · intro h
    refine ⟨fun h ↦ hsome h, fun h ↦ hsome h, fun _ hcar ↦ ?_, fun _ hcar cert hcert ↦ ?_⟩
    · rw [if_pos hcar] at h
      exact ⟨fun hlast ↦ (hnone _ hlast).mp h, fun cert hcert ↦ (chainCurve_of_authority hcert).mp h⟩
    · rw [if_neg hcar, hcert, chainCurve_of_authority hcert] at h
      exact .inr h
  · intro h
    split_ifs with hcar
    · rcases hnext : authority G store ca with - | cert
      · exact (hnone _ hnext).mpr ((h.bare hchr hcar).1 hnext)
      · exact (chainCurve_of_authority hnext).mpr ((h.bare hchr hcar).2 cert hnext)
    · rcases hnext : authority G store ca with - | cert
      · exact (hnone _ hnext).mpr rfl
      · refine (chainCurve_of_authority hnext).mpr ?_
        rcases h.holderless hchr hcar cert hnext with hself | hcurve
        · exact .root .refl hself
        · exact hcurve

/-! ### A certificate that names a holder -/

theorem InheritsRight.exists_last (hchr : (G.chr ca).isSome) (h : InheritsRight G store ca) :
    ∃ cert, Last (authority G store) ca cert ∧
      ChainCurve G store ca ((lastStop G cert).bind (ownCurve G)) := by
  obtain ⟨rounds, curve, hrun, hcurve⟩ := h
  obtain ⟨stop, hstop, rfl⟩ := map_eq_some_iff.mp hrun
  obtain ⟨cert, hlast, rfl⟩ := (inheriteLoop_eq_some_iff hchr).mp ⟨rounds, hstop⟩
  exact ⟨cert, hlast, hcurve⟩

/-- **When the walk ends, and with the right curve.** -/
theorem cvc_inherite_ec_group_right_iff (G : CvcGetters Curve) (store : List Bytes) (ca : Bytes) :
    InheritsRight G store ca ↔ ChainRegular G store ca := by
  rcases hchr : G.chr ca with - | chr
  · exact holderless_right_iff hchr
  · have hsome : (G.chr ca).isSome := by rw [hchr, isSome_some]
    have hstore (cert next : Bytes) (hnext : authority G store cert = some next) : next ∈ store :=
      (authority_spec hnext).1
    have hends := exists_last_iff (List.finite_toSet store) hstore ca
    constructor
    · intro h
      obtain ⟨cert, hlast, hcurve⟩ := h.exists_last hsome
      rw [chainCurve_iff hlast] at hcurve
      refine ⟨fun _ ↦ hends.mp ⟨cert, hlast⟩, fun _ cert' hleads hcar ↦ ?_,
        fun h ↦ by simp [hchr] at h, fun h ↦ by simp [hchr] at h⟩
      obtain rfl := Last.unique ⟨hleads, last_of_stop (.inr hcar)⟩ hlast
      have hself : ¬ SelfSigned G cert' := by
        rintro ⟨hholder, hsame⟩
        rw [← hsame, hcar] at hholder
        cases hholder
      rwa [lastStop, if_pos (.inr hcar), if_neg hself] at hcurve
    · intro h
      obtain ⟨cert, hlast⟩ := hends.mpr (h.acyclic hsome)
      obtain ⟨rounds, hrun⟩ := (inheriteLoop_eq_some_iff hsome).mpr ⟨cert, hlast, rfl⟩
      refine ⟨rounds, _, congrArg (Option.map _) hrun, (chainCurve_iff hlast).mpr ?_⟩
      rw [lastStop]
      by_cases hself : SelfSigned G cert
      · rw [if_pos (.inl hself), if_pos hself]
        rfl
      split_ifs with hstop
      · exact h.rootless hsome cert hlast.1 (hstop.resolve_left hself)
      · rfl

/-! Two certificates that are each other's authority -/

/-- Certificates of two bytes, the holder and the authority. -/
def twoByteGetters : CvcGetters Unit where
  chr cert := cert.head?.map ([·])
  car cert := cert.tail.head?.map ([·])
  pub := some
  prime := some
  curveFromPrime _ := some ()

/-- The walk goes around and around. -/
theorem cvc_inherite_ec_group_endless : ¬ InheritsRight twoByteGetters [[1, 2], [2, 1]] [1, 2] := by
  intro h
  obtain ⟨cert, hlast, -⟩ := h.exists_last rfl
  have hthere : Refers (authority twoByteGetters [[1, 2], [2, 1]]) [1, 2] [2, 1] := by decide
  have hback : Refers (authority twoByteGetters [[1, 2], [2, 1]]) [2, 1] [1, 2] := by decide
  exact hlast.not_onCycle (.tail (.single hthere) hback)

end PicoAll

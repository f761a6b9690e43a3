import PicoAll.Fido.CredentialEnvelope

/-!
# What a credential id gives back

A credential id that was created is verified and loaded for the relying party it was created for: the
fields are those of the request, as far as the format keeps them (`CredentialReadsBack`). For another
relying party it is neither, if the AEAD and the HMAC are ideal for it (`EnvelopeIdeal`).

The parser is followed one line of `credential_create` at a time: the items a line has written take
the loop of `credential_load` from one credential to the next (`CborCodec.Reads`).
-/

namespace PicoAll

open ByteBuffer CborCodec BoundedRead Reads Option

/-! ### The fields that are kept -/

/-- A text as it is kept. -/
def storedText : Option Bytes → Option Bytes
  | some text => if text.length > 0 then some (cText text) else none
  | none => none

/-- A byte string as it is kept. -/
def storedBytes : Option Bytes → Option Bytes
  | some data => if data.length > 0 then some data else none
  | none => none

/-- A `credBlob` as it is kept. -/
def storedCredBlob : Option Bytes → Option Bytes
  | some data => if data.length < maxCredBlobLength then some data else none
  | none => none

/-- A flag that is kept only if it is set. -/
def storedFlag (flag : Option Bool) : Option Bool :=
  if flag = some true then some true else none

/-- The extensions as they are kept. -/
def storedExtensions (e : CredExtensions) : CredExtensions where
  hmacSecret := e.hmacSecret
  credProtect := e.credProtect
  minPinLength := none
  credBlob := storedCredBlob e.credBlob
  largeBlobKey := storedFlag e.largeBlobKey
  thirdPartyPayment := storedFlag e.thirdPartyPayment
  present := true

/-- The credential that a request's credential id has in it. -/
def CredentialRequest.stored (r : CredentialRequest) : Credential where
  rpId := storedText r.rpId
  rpIdHash := none
  userId := storedBytes r.userId
  userName := storedText r.userName
  userDisplayName := storedText r.userDisplayName
  boardCreation := r.millis.toNat
  extensions := if r.extensions.present then storedExtensions r.extensions else noExtensions
  useSignCount := some r.useSignCount
  alg := r.alg.toInt
  curve := r.curve.toInt
  id := none
  residentId := none
  privateKey := none
  opts := if r.opts.present then { noOptions with rk := r.opts.rk, present := true } else noOptions
  u2f := false
  imported := false
  requireButton := false
  present := false
  rtcCreation := (r.rtc.map UInt64.toNat).getD 0

/-! ### Reading the entries -/

theorem int32_bounds (i : Int32) : -2 ^ 63 ≤ i.toInt ∧ i.toInt < 2 ^ 63 :=
  ⟨(by norm_num : (-2 ^ 63 : ℤ) ≤ -2 ^ 31).trans i.le_toInt, i.toInt_lt.trans_le (by norm_num)⟩

section Entries

variable {C : CborCodec} (hC : C.Lawful) {rest : Bytes}
include hC

variable {ts : List CborToken} {e : CredExtensions}

theorem length_of_bytes_mem {b : Bytes} (h : .bytes b ∈ ts) (hlen : (C.bytesOf ts).length < 2 ^ 64) :
    b.length < 2 ^ 64 :=
  ((hC.length_bytes b).trans (length_bytesOf_of_mem h)).trans_lt hlen

theorem length_of_text_mem {b : Bytes} (h : .text b ∈ ts) (hlen : (C.bytesOf ts).length < 2 ^ 64) :
    b.length < 2 ^ 64 :=
  ((hC.length_text b).trans (length_bytesOf_of_mem h)).trans_lt hlen

variable {s : Credential} {o : Option Bytes}

/-- An entry of a credential, by what its body makes of the key. -/
theorem reads_credentialField {s' : Credential} {k : ℕ} (hk : k < 2 ^ 64)
    (hfield : ∀ rest, credentialField C s ⟨C.encode (.uint k) ++ (C.bytesOf ts ++ rest),
      none⟩ = .ok (s', ⟨rest, none⟩)) :
    C.Reads (credentialField C) s (.uint k :: ts) s' := by
  refine entry hC hk (nofun) fun rest ↦ ?_
  rw [bytesOf_cons, List.append_assoc]
  exact hfield rest

/-- An entry of the extensions. -/
theorem reads_extensionField {e' : CredExtensions} {key : Bytes} {v : CborToken}
    (hkey : key.length ≤ 64)
    (hfield : ∀ rest, extensionField C e ⟨C.encode (.text key) ++ (C.encode v ++ rest),
      none⟩ = .ok (e', ⟨rest, none⟩)) :
    C.Reads (extensionField C) e [.text key, v] e' := by
  refine entry hC (hkey.trans_lt (by norm_num)) (nofun) fun rest ↦ ?_
  rw [bytesOf_cons, bytesOf_cons, bytesOf_nil, List.append_nil, List.append_assoc]
  exact hfield rest

theorem reads_credBlob (e : CredExtensions) (hlen : (C.bytesOf (credBlobTokens o)).length < 2 ^ 64) :
    C.Reads (extensionField C) e (credBlobTokens o)
      { e with credBlob := (storedCredBlob o).or e.credBlob } := by
  cases o with
  | none => exact nil
  | some data =>
    by_cases hshort : data.length < maxCredBlobLength
    · rw [credBlobTokens, storedCredBlob, if_pos hshort, if_pos hshort]
      refine reads_extensionField hC (by decide) fun rest ↦ ?_
      have hdata : data.length < 2 ^ 64 := hshort.trans (by norm_num)
      rw [extensionField, hC.getKeyText (by decide)]
      show (C.getBytes _ >>= _) = _
      rw [hC.getBytes hdata]
      rfl
    · rw [credBlobTokens, storedCredBlob, if_neg hshort, if_neg hshort]
      exact nil

theorem reads_credProtect (e : CredExtensions) {n : ℕ} (hn : n < 2 ^ 64) (he : e.credProtect = 0) :
    C.Reads (extensionField C) e (if n ≠ 0 then [.text keyCredProtect, .uint n] else [])
      { e with credProtect := n } := by
  by_cases hzero : n = 0
  · subst hzero
    rw [if_neg (by simp), ← he]
    exact nil
  · rw [if_pos hzero]
    refine reads_extensionField hC (by decide) fun rest ↦ ?_
    rw [extensionField, hC.getKeyText (by decide)]
    show (C.getUint _ >>= _) = _
    rw [hC.getUint hn]
    rfl

theorem reads_hmacSecret (e : CredExtensions) (o : Option Bool) :
    C.Reads (extensionField C) e
      (match o with
        | some b => [.text keyHmacSecret, .bool b]
        | none => [])
      { e with hmacSecret := o.or e.hmacSecret } := by
  cases o with
  | none => exact nil
  | some b =>
    refine reads_extensionField hC (by decide) fun rest ↦ ?_
    rw [extensionField, hC.getKeyText (by decide)]
    show (C.getBool _ >>= _) = _
    rw [hC.getBool]
    rfl

theorem reads_largeBlobKey (e : CredExtensions) (o : Option Bool) :
    C.Reads (extensionField C) e (flagTokens keyLargeBlobKey o)
      { e with largeBlobKey := (storedFlag o).or e.largeBlobKey } := by
  by_cases hset : o = some true
  · rw [flagTokens, storedFlag, if_pos hset, if_pos hset]
    refine reads_extensionField hC (by decide) fun rest ↦ ?_
    rw [extensionField, hC.getKeyText (by decide)]
    show (C.getBool _ >>= _) = _
    rw [hC.getBool]
    rfl
  · rw [flagTokens, storedFlag, if_neg hset, if_neg hset]
    exact nil

theorem reads_thirdPartyPayment (e : CredExtensions) (o : Option Bool) :
    C.Reads (extensionField C) e (flagTokens keyThirdPartyPayment o)
      { e with thirdPartyPayment := (storedFlag o).or e.thirdPartyPayment } := by
  by_cases hset : o = some true
  · rw [flagTokens, storedFlag, if_pos hset, if_pos hset]
    refine reads_extensionField hC (by decide) fun rest ↦ ?_
    rw [extensionField, hC.getKeyText (by decide)]
    show (C.getBool _ >>= _) = _
    rw [hC.getBool]
    rfl
  · rw [flagTokens, storedFlag, if_neg hset, if_neg hset]
    exact nil

/-- **The map of extensions.** -/
theorem reads_extensions (hprotect : e.credProtect < 2 ^ 64)
    (hlen : (C.bytesOf (extensionTokens e)).length < 2 ^ 64) :
    C.Reads (extensionField C) { noExtensions with present := true } (extensionTokens e)
      (storedExtensions e) := by
  have hblob : (C.bytesOf (credBlobTokens e.credBlob)).length < 2 ^ 64 := by
    simp only [extensionTokens, bytesOf_append, List.length_append] at hlen
    omega
  have h := (((((reads_credBlob hC { noExtensions with present := true } hblob).append
    (reads_credProtect hC _ hprotect rfl)).append (reads_hmacSecret hC _ e.hmacSecret)).append
    (reads_largeBlobKey hC _ e.largeBlobKey)).append
    (reads_thirdPartyPayment hC _ e.thirdPartyPayment))
  simp only [noExtensions, or_none] at h
  exact h

/-- The map of options. -/
theorem reads_options (o : CredOptions) :
    C.Reads (optionField C) { noOptions with present := true } (optionTokens o)
      { noOptions with rk := o.rk, present := true } := by
  obtain ⟨rk, up, uv, present⟩ := o
  cases rk with
  | none => exact nil
  | some b =>
    refine entry hC (t := .text keyRk) (by show (2 : ℕ) < 2 ^ 64; norm_num)
      (nofun) fun rest ↦ ?_
    rw [bytesOf_cons, bytesOf_cons, bytesOf_nil, List.append_nil, List.append_assoc, optionField,
      hC.getKeyText (by decide)]
    show (C.getBool _ >>= _) = _
    rw [hC.getBool]
    rfl

/-! ### The lines of `credential_create` -/

/-- A text goes where its key says, which `p` is about. -/
theorem reads_string {k : ℕ} {p : Option Bytes → Credential} (hk : k < 2 ^ 64) (hp : p none = s)
    (hlen : (C.bytesOf (appendString k o)).length < 2 ^ 64)
    (hfield : ∀ text rest, text.length < 2 ^ 64 →
      credentialField C s ⟨C.encode (.uint k) ++ (C.encode (.text text) ++ rest),
      none⟩ = .ok (p (some text), ⟨rest, none⟩)) :
    C.Reads (credentialField C) s (appendString k o) (p (storedText o)) := by
  cases o with
  | none =>
    rw [storedText, hp]
    exact nil
  | some text =>
    rw [appendString] at hlen ⊢
    rw [storedText]
    split_ifs at hlen ⊢ with hempty
    · refine reads_credentialField hC hk fun rest ↦ ?_
      rw [bytesOf_cons, bytesOf_nil, List.append_nil]
      exact hfield _ rest (length_of_text_mem hC (b := cText text) (by simp) hlen)
    · rw [hp]
      exact nil

theorem reads_rpId (hs : s.rpId = none) (hlen : (C.bytesOf (appendString 0x01 o)).length < 2 ^ 64) :
    C.Reads (credentialField C) s (appendString 0x01 o) { s with rpId := storedText o } := by
  refine reads_string hC (p := fun o ↦ { s with rpId := o }) (by norm_num)
    (by rw [← hs]) hlen fun text rest htext ↦ ?_
  rw [credentialField, hC.getUint (by norm_num)]
  show (C.getText _ >>= _) = _
  rw [hC.getText htext]
  rfl

theorem reads_userName (hs : s.userName = none)
    (hlen : (C.bytesOf (appendString 0x04 o)).length < 2 ^ 64) :
    C.Reads (credentialField C) s (appendString 0x04 o) { s with userName := storedText o } := by
  refine reads_string hC (p := fun o ↦ { s with userName := o }) (by norm_num)
    (by rw [← hs]) hlen fun text rest htext ↦ ?_
  rw [credentialField, hC.getUint (by norm_num)]
  show (C.getText _ >>= _) = _
  rw [hC.getText htext]
  rfl

theorem reads_userDisplayName (hs : s.userDisplayName = none)
    (hlen : (C.bytesOf (appendString 0x05 o)).length < 2 ^ 64) :
    C.Reads (credentialField C) s (appendString 0x05 o) { s with userDisplayName := storedText o } := by
  refine reads_string hC (p := fun o ↦ { s with userDisplayName := o }) (by norm_num)
    (by rw [← hs]) hlen fun text rest htext ↦ ?_
  rw [credentialField, hC.getUint (by norm_num)]
  show (C.getText _ >>= _) = _
  rw [hC.getText htext]
  rfl

theorem reads_userId (hs : s.userId = none)
    (hlen : (C.bytesOf (appendBytes 0x03 o)).length < 2 ^ 64) :
    C.Reads (credentialField C) s (appendBytes 0x03 o) { s with userId := storedBytes o } := by
  have hsame : { s with userId := none } = s := by rw [← hs]
  cases o with
  | none =>
    rw [storedBytes, hsame]
    exact nil
  | some data =>
    rw [appendBytes] at hlen ⊢
    rw [storedBytes]
    split_ifs at hlen ⊢ with hempty
    · refine reads_credentialField hC (by norm_num) fun rest ↦ ?_
      have hdata := length_of_bytes_mem hC (b := data) (by simp) hlen
      rw [bytesOf_cons, bytesOf_nil, List.append_nil, credentialField, hC.getUint (by norm_num)]
      show (C.getBytes _ >>= _) = _
      rw [hC.getBytes hdata]
      rfl
    · rw [hsame]
      exact nil

/-- The hash of the relying party's id is written and skipped. -/
theorem reads_rpIdHash (s : Credential) (rpIdHash : Vector UInt8 32) :
    C.Reads (credentialField C) s [.uint 0x02, .bytes rpIdHash.toList] s := by
  refine reads_credentialField hC (by norm_num) fun rest ↦ ?_
  have hlength : rpIdHash.toList.length < 2 ^ 64 := by
    norm_num
  rw [bytesOf_cons, bytesOf_nil, List.append_nil, credentialField, hC.getUint (by norm_num)]
  show (C.skip _ >>= _) = _
  rw [hC.skip (t := .bytes rpIdHash.toList) hlength trivial]
  rfl

theorem reads_boardCreation (s : Credential) (millis : UInt32) :
    C.Reads (credentialField C) s [.uint 0x06, .uint millis.toNat]
      { s with boardCreation := millis.toNat } := by
  refine reads_credentialField hC (by norm_num) fun rest ↦ ?_
  have hmillis : millis.toNat < 2 ^ 64 := millis.toNat_lt.trans (by norm_num)
  rw [bytesOf_cons, bytesOf_nil, List.append_nil, credentialField, hC.getUint (by norm_num)]
  show (C.getUint _ >>= _) = _
  rw [hC.getUint hmillis]
  rfl

theorem reads_rtcCreation (s : Credential) (time : UInt64) :
    C.Reads (credentialField C) s [.uint 0x0C, .uint time.toNat]
      { s with rtcCreation := time.toNat } := by
  refine reads_credentialField hC (by norm_num) fun rest ↦ ?_
  rw [bytesOf_cons, bytesOf_nil, List.append_nil, credentialField, hC.getUint (by norm_num)]
  show (C.getUint _ >>= _) = _
  rw [hC.getUint time.toNat_lt]
  rfl

theorem reads_useSignCount (s : Credential) (b : Bool) :
    C.Reads (credentialField C) s [.uint 0x08, .bool b] { s with useSignCount := some b } := by
  refine reads_credentialField hC (by norm_num) fun rest ↦ ?_
  rw [bytesOf_cons, bytesOf_nil, List.append_nil, credentialField, hC.getUint (by norm_num)]
  show (C.getBool _ >>= _) = _
  rw [hC.getBool]
  rfl

theorem reads_alg (s : Credential) (i : Int32) :
    C.Reads (credentialField C) s [cborInt 0x09, cborInt i.toInt] { s with alg := i.toInt } := by
  refine reads_credentialField hC (by norm_num) fun rest ↦ ?_
  rw [bytesOf_cons, bytesOf_nil, List.append_nil]
  rw [credentialField, hC.getUint (by norm_num)]
  show (C.getInt _ >>= _) = _
  rw [hC.getInt (int32_bounds i).1 (int32_bounds i).2]
  rfl

theorem reads_curve (s : Credential) (i : Int32) :
    C.Reads (credentialField C) s [cborInt 0x0A, cborInt i.toInt] { s with curve := i.toInt } := by
  refine reads_credentialField hC (by norm_num) fun rest ↦ ?_
  rw [bytesOf_cons, bytesOf_nil, List.append_nil]
  rw [credentialField, hC.getUint (by norm_num)]
  show (C.getInt _ >>= _) = _
  rw [hC.getInt (int32_bounds i).1 (int32_bounds i).2]
  rfl

/-- The algorithm and the curve, unless they are the usual ones. -/
theorem reads_algorithm (halg : s.alg = fido2AlgEs256) (hcurve : s.curve = fido2CurveP256)
    (alg curve : Int32) :
    C.Reads (credentialField C) s
      (if alg.toInt ≠ fido2AlgEs256 ∨ curve.toInt ≠ fido2CurveP256 then
        [cborInt 0x09, cborInt alg.toInt] ++ [cborInt 0x0A, cborInt curve.toInt] else [])
      { s with alg := alg.toInt, curve := curve.toInt } := by
  split_ifs with hother
  · exact (reads_alg hC s alg).append (reads_curve hC _ curve)
  · obtain ⟨halg', hcurve'⟩ := not_or.mp hother
    rw [not_not.mp halg', not_not.mp hcurve', ← halg, ← hcurve]
    exact nil

/-- The extensions, as a map of their own. -/
theorem reads_extensionMap (hs : s.extensions = noExtensions) (hprotect : e.credProtect < 2 ^ 64)
    (hlen : (C.bytesOf (if e.present then .uint 0x07 ::
      (.map none :: extensionTokens e ++ [.stop]) else [])).length < 2 ^ 64) :
    C.Reads (credentialField C) s
      (if e.present then .uint 0x07 :: (.map none :: extensionTokens e ++ [.stop]) else [])
      { s with extensions := if e.present then storedExtensions e else noExtensions } := by
  split_ifs at hlen ⊢ with hpresent
  · have hinner : (C.bytesOf (extensionTokens e)).length < 2 ^ 64 := by
      simp only [bytesOf_cons, bytesOf_append, List.cons_append, List.length_append] at hlen
      omega
    refine reads_credentialField hC (by norm_num) fun rest ↦ ?_
    rw [credentialField, hC.getUint (by norm_num)]
    show (C.readMap _ { s.extensions with present := true } _ >>= _) = _
    rw [hs, (reads_extensions hC hprotect hinner).readMap hC]
    rfl
  · rw [← hs]
    exact nil

/-- The options, as a map of their own. -/
theorem reads_optionMap (hs : s.opts = noOptions) (o : CredOptions) :
    C.Reads (credentialField C) s
      (if o.present then .uint 0x0B :: (.map none :: optionTokens o ++ [.stop]) else [])
      { s with
        opts := if o.present then { noOptions with rk := o.rk, present := true } else noOptions } := by
  split_ifs with hpresent
  · refine reads_credentialField hC (by norm_num) fun rest ↦ ?_
    rw [credentialField, hC.getUint (by norm_num)]
    show (C.readMap _ { s.opts with present := true } _ >>= _) = _
    rw [hs, (reads_options hC o).readMap hC]
    rfl
  · rw [← hs]
    exact nil

theorem reads_rtc (hs : s.rtcCreation = 0) (rtc : Option UInt64) :
    C.Reads (credentialField C) s
      (match rtc with
        | some time => [.uint 0x0C, .uint time.toNat]
        | none => [])
      { s with rtcCreation := (rtc.map UInt64.toNat).getD 0 } := by
  cases rtc with
  | none =>
    rw [map_none, getD_none, ← hs]
    exact nil
  | some time => exact reads_rtcCreation hC s time

/-- **What is read of a credential that was written** are the fields that are kept of it. -/
theorem reads_entries (r : CredentialRequest) {rpIdHash : Vector UInt8 32}
    (hlen : (C.bytesOf (credentialEntries r rpIdHash)).length < 2 ^ 64) :
    C.Reads (credentialField C) blankCredential (credentialEntries r rpIdHash) r.stored := by
  simp only [credentialEntries, bytesOf_append, List.length_append] at hlen
  have hrpId := reads_rpId hC (s := blankCredential) (o := r.rpId) rfl (by omega)
  have huserId := hrpId.append (reads_rpIdHash hC _ rpIdHash) |>.append
    (reads_userId hC (o := r.userId) rfl (by omega))
  have hnames := huserId.append (reads_userName hC (o := r.userName) rfl (by omega)) |>.append
    (reads_userDisplayName hC (o := r.userDisplayName) rfl (by omega))
  have hcreated := hnames.append (reads_boardCreation hC _ r.millis) |>.append
    (reads_extensionMap hC (e := r.extensions) rfl r.credProtect_lt (by omega))
  have halgorithm := hcreated.append (reads_useSignCount hC _ r.useSignCount) |>.append
    (reads_algorithm hC rfl rfl r.alg r.curve)
  exact halgorithm.append (reads_optionMap hC rfl r.opts) |>.append (reads_rtc hC rfl r.rtc)

end Entries

/-! ### Created credential ids -/

/-- What the functions rely on: the CBOR library reads back what it writes, and the AEAD opens what it
has sealed and keeps the length. -/
structure EnvelopeCrypto.Lawful (E : EnvelopeCrypto) : Prop where
  cbor : E.cbor.Lawful
  authDecrypt : ∀ key iv ad plain cipher tag,
    E.encryptAndTag key iv ad plain = some (cipher, tag) →
      E.authDecrypt key iv ad tag cipher = some plain
  length_cipher : ∀ key iv ad plain cipher tag,
    E.encryptAndTag key iv ad plain = some (cipher, tag) → cipher.length = plain.length
  length_tag : ∀ key iv ad plain cipher tag,
    E.encryptAndTag key iv ad plain = some (cipher, tag) → tag.length = credTagLen
  length_plain : ∀ key iv ad tag cipher plain,
    E.authDecrypt key iv ad tag cipher = some plain → plain.length = cipher.length

/-- The parts of a credential id that was created. -/
structure EnvelopeOf (E : EnvelopeCrypto) (r : CredentialRequest) (credId cipher tag : Bytes) :
    Prop where
  length_le : (E.cbor.bytesOf (credentialTokens r (r.rpIdHash E))).length ≤
    maxCredIdLength - credSilentEnvelopeOverhead
  sealed : E.encryptAndTag (E.chachaKey credProto) r.iv.toList (r.rpIdHash E).toList
    (E.cbor.bytesOf (credentialTokens r (r.rpIdHash E))) = some (cipher, tag)
  credId_eq : credId = credProto ++ r.iv.toList ++ cipher ++ tag ++
    credentialSilentTag E (credProto ++ r.iv.toList ++ cipher ++ tag) (r.rpIdHash E)

section Created

variable {E : EnvelopeCrypto} {r : CredentialRequest} {credId cipher tag : Bytes}

theorem length_credentialSilentTag (E : EnvelopeCrypto) (credId : Bytes)
    (rpIdHash : Vector UInt8 32) :
    (credentialSilentTag E credId rpIdHash).length = credSilentLen := by
  rw [credentialSilentTag, List.length_take, Vector.length_toList]
  rfl

theorem ofCbor_eq_ok {α : Type} {x : Except CborError α} {a : α} (h : ofCbor x = .ok a) :
    x = .ok a := by
  cases x with
  | ok b => exact congrArg Except.ok (Except.ok.inj h)
  | error e => cases h

theorem credentialCreate_eq_ok (h : credentialCreate E r = .ok credId) :
    ∃ cipher tag, EnvelopeOf E r credId cipher tag := by
  rw [credentialCreate] at h
  cases hwrite : ofCbor (E.cbor.write (maxCredIdLength - credSilentEnvelopeOverhead)
      (credentialTokens r (r.rpIdHash E))) with
  | error e =>
    rw [hwrite] at h
    cases h
  | ok payload =>
    obtain ⟨hpayload, hlength⟩ := write_eq_ok (ofCbor_eq_ok hwrite)
    subst hpayload
    rw [hwrite] at h
    cases hseal : E.encryptAndTag (E.chachaKey credProto) r.iv.toList (r.rpIdHash E).toList
        (E.cbor.bytesOf (credentialTokens r (r.rpIdHash E))) with
    | none =>
      simp only [bind, Except.bind, hseal] at h
      cases h
    | some sealed =>
      obtain ⟨cipher, tag⟩ := sealed
      simp only [bind, Except.bind, hseal] at h
      exact ⟨cipher, tag, hlength, hseal, (Except.ok.inj h).symm⟩

theorem boundedBytes_of_append {data a b c : Bytes} {i n : ℕ} (hdata : data = a ++ (b ++ c))
    (ha : a.length = i) (hb : b.length = n) : bytes data i n = some b := by
  subst hdata ha hb
  rw [bytes, if_pos (by simp), slice, List.drop_left, List.take_left]

namespace EnvelopeOf

theorem split (h : EnvelopeOf E r credId cipher tag) : ∃ silent : Bytes,
    credId = credProto ++ (r.iv.toList ++ (cipher ++ (tag ++ silent))) := by
  refine ⟨credentialSilentTag E (credProto ++ r.iv.toList ++ cipher ++ tag) (r.rpIdHash E), ?_⟩
  rw [h.credId_eq]
  simp only [List.append_assoc]

variable (h : EnvelopeOf E r credId cipher tag) (hE : E.Lawful)
include h hE

theorem length : credId.length = 48 + cipher.length := by
  have htag : tag.length = 16 := hE.length_tag _ _ _ _ _ _ h.sealed
  have hsilent (body : Bytes) : (credentialSilentTag E body (r.rpIdHash E)).length = 16 :=
    length_credentialSilentTag E body _
  rw [h.credId_eq]
  simp only [List.length_append, Vector.length_toList, hsilent, htag, List.length_cons,
    List.length_nil]
  omega

/-- **The check with decryption** opens the ciphertext under the hash it is given. -/
theorem verify (rpIdHash : Vector UInt8 32) :
    credentialVerify E credId rpIdHash =
      some ((E.authDecrypt (E.chachaKey credProto) r.iv.toList rpIdHash.toList tag cipher).map
        (patch credId credCiphertextOffset)) := by
  have hlen := h.length hE
  have htag : tag.length = 16 := hE.length_tag _ _ _ _ _ _ h.sealed
  have hiv : r.iv.toList.length = 12 := Vector.length_toList
  obtain ⟨silent, hsplit⟩ := h.split
  have hproto : bytes credId 0 4 = some credProto :=
    boundedBytes_of_append (a := []) hsplit rfl rfl
  have hnonce : bytes credId 4 12 = some r.iv.toList :=
    boundedBytes_of_append hsplit rfl hiv
  have hcipher : bytes credId 16 cipher.length = some cipher :=
    boundedBytes_of_append (a := credProto ++ r.iv.toList)
      (hsplit.trans (List.append_assoc _ _ _).symm) (by rw [List.length_append, hiv]; rfl) rfl
  have htagAt : bytes credId (16 + cipher.length) 16 = some tag :=
    boundedBytes_of_append (a := credProto ++ r.iv.toList ++ cipher) (c := silent)
      (hsplit.trans (by simp only [List.append_assoc]))
      (by rw [List.length_append, List.length_append, hiv]; rfl) htag
  have htagOffset : lengthLess credId.length 32 = some (16 + cipher.length) := by
    rw [lengthLess, if_pos (by omega), hlen]
    congr 1
    omega
  have hcipherLen : lengthLess credId.length 48 = some cipher.length := by
    rw [lengthLess, if_pos (by omega), hlen, Nat.add_sub_cancel_left]
  rw [credentialVerify, if_neg (by rw [hlen]; show ¬ _ < 32; omega)]
  rw [hproto]
  rw [hnonce]
  show (lengthLess credId.length 32 >>= _) = _
  rw [htagOffset]
  show (bytes credId (16 + cipher.length) 16 >>= _) = _
  rw [htagAt]
  show (lengthLess credId.length 48 >>= _) = _
  rw [hcipherLen]
  show (bytes credId 16 cipher.length >>= _) = _
  rw [hcipher]
  rfl

/-- **The check without decryption** compares the silent tags of two hashes. -/
theorem verifySilent (rpIdHash : Vector UInt8 32) :
    credentialVerifySilent E credId rpIdHash =
      some (credentialSilentTag E (credProto ++ r.iv.toList ++ cipher ++ tag) rpIdHash ==
        credentialSilentTag E (credProto ++ r.iv.toList ++ cipher ++ tag) (r.rpIdHash E)) := by
  have hlen := h.length hE
  have htag : tag.length = 16 := hE.length_tag _ _ _ _ _ _ h.sealed
  have hiv : r.iv.toList.length = 12 := Vector.length_toList
  obtain ⟨silent, hparts⟩ := h.split
  have hsplit := h.credId_eq
  have hsigned : (credProto ++ r.iv.toList ++ cipher ++ tag).length = 32 + cipher.length := by
    simp only [List.length_append, hiv, htag, List.length_cons, List.length_nil]
    omega
  have hproto : bytes credId 0 4 = some credProto :=
    boundedBytes_of_append (a := []) hparts rfl rfl
  have hbody : bytes credId 0 (32 + cipher.length)
      = some (credProto ++ r.iv.toList ++ cipher ++ tag) :=
    boundedBytes_of_append (a := []) hsplit rfl hsigned
  have hsilent : bytes credId (32 + cipher.length) 16
      = some (credentialSilentTag E (credProto ++ r.iv.toList ++ cipher ++ tag) (r.rpIdHash E)) :=
    boundedBytes_of_append (c := []) (by rw [List.append_nil]; exact hsplit) hsigned
      (length_credentialSilentTag E _ _)
  have hsignedLen : lengthLess credId.length 16 = some (32 + cipher.length) := by
    rw [lengthLess, if_pos (by omega), hlen]
    congr 1
    omega
  rw [credentialVerifySilent, if_neg (by rw [hlen]; show ¬ _ < 32; omega)]
  rw [hproto]
  rw [hsignedLen]
  show (bytes credId 0 (32 + cipher.length) >>= _) = _
  rw [hbody]
  rw [hsilent]
  rfl

/-- **What is loaded** for the relying party the credential was created for. -/
theorem load : credentialLoad E credId (r.rpIdHash E) =
    some (.ok { r.stored with id := some credId, present := true }) := by
  have hlen := h.length hE
  have htag : tag.length = 16 := hE.length_tag _ _ _ _ _ _ h.sealed
  have hiv : r.iv.toList.length = 12 := Vector.length_toList
  have hcipher : cipher.length = _ := hE.length_cipher _ _ _ _ _ _ h.sealed
  have hentries : (E.cbor.bytesOf (credentialEntries r (r.rpIdHash E))).length < 2 ^ 64 := by
    have hle := h.length_le
    rw [credentialTokens, List.cons_append, bytesOf_cons, bytesOf_append, List.length_append,
      List.length_append] at hle
    have hmax : maxCredIdLength - credSilentEnvelopeOverhead = 976 := rfl
    omega
  -- The plaintext stands where the ciphertext stood, and the tag still stands behind it.
  obtain ⟨silent, hparts⟩ := h.split
  have hcopy : patch credId 16 (E.cbor.bytesOf (credentialTokens r (r.rpIdHash E)))
      = (credProto ++ r.iv.toList) ++
        ((E.cbor.bytesOf (credentialTokens r (r.rpIdHash E)) ++ tag) ++ silent) := by
    have hhead : (credProto ++ r.iv.toList).length = 16 := by
      rw [List.length_append, hiv]
      rfl
    have hsplit : credId = (credProto ++ r.iv.toList) ++ (cipher ++ (tag ++ silent)) :=
      hparts.trans (List.append_assoc _ _ _).symm
    rw [patch, hsplit, List.take_left' hhead, ← hcipher, ← List.drop_drop, List.drop_left' hhead,
      List.drop_left]
    simp only [List.append_assoc]
  have hdata : bytes (patch credId 16
      (E.cbor.bytesOf (credentialTokens r (r.rpIdHash E)))) 16 (cipher.length + 16)
      = some (E.cbor.bytesOf (credentialTokens r (r.rpIdHash E)) ++ tag) :=
    boundedBytes_of_append hcopy (by rw [List.length_append, hiv]; rfl)
      (by rw [List.length_append, hcipher, htag])
  have hdataLen : lengthLess credId.length 32 = some (cipher.length + 16) := by
    rw [lengthLess, if_pos (by omega), hlen]
    congr 1
    omega
  have hparse : credentialParse E.cbor
      (E.cbor.bytesOf (credentialTokens r (r.rpIdHash E)) ++ tag) = .ok r.stored := by
    rw [credentialParse, credentialTokens, (reads_entries hE.cbor r hentries).enterMap hE.cbor]
    rfl
  rw [credentialLoad, h.verify hE, hE.authDecrypt _ _ _ _ _ _ h.sealed]
  show (lengthLess credId.length 32 >>= _) = _
  rw [hdataLen]
  show (bytes (patch credId 16 _) 16 (cipher.length + 16) >>= _) = _
  rw [hdata]
  show some ((ofCbor (credentialParse E.cbor _)).map _) = _
  rw [hparse]
  rfl

end EnvelopeOf

end Created

/-! ### Other relying parties -/

/-- The AEAD and the HMAC are **ideal** for a request: what is sealed for it is opened under no other
associated data, its silent tag is the tag of no other key, and its key the hash of nothing else. -/
structure EnvelopeIdeal (E : EnvelopeCrypto) (r : CredentialRequest) : Prop where
  aead : ∀ cipher tag,
    E.encryptAndTag (E.chachaKey credProto) r.iv.toList (r.rpIdHash E).toList
      (E.cbor.bytesOf (credentialTokens r (r.rpIdHash E))) = some (cipher, tag) →
    ∀ ad plain, E.authDecrypt (E.chachaKey credProto) r.iv.toList ad tag cipher = some plain →
      ad = (r.rpIdHash E).toList
  hmac : ∀ body key,
    (E.hmacSha256 key body).toList.take credSilentLen =
      (E.hmacSha256 (silentKey E credProto (r.rpIdHash E)) body).toList.take credSilentLen →
    key = silentKey E credProto (r.rpIdHash E)
  sha256 : ∀ data, E.sha256 data = silentKey E credProto (r.rpIdHash E) →
    data = E.otpKey1.getD E.serialId ++ E.certdevSha256 ++ (r.rpIdHash E).toList

section Others

variable {E : EnvelopeCrypto} {r : CredentialRequest} {credId cipher tag : Bytes}
  {rpIdHash : Vector UInt8 32}

theorem silentKey_credProto (E : EnvelopeCrypto) (rpIdHash : Vector UInt8 32) :
    silentKey E credProto rpIdHash =
      E.sha256 (E.otpKey1.getD E.serialId ++ E.certdevSha256 ++ rpIdHash.toList) := by
  rw [silentKey, if_pos rfl]

/-- The silent tag is bound to the relying party. -/
theorem EnvelopeIdeal.eq_of_silentTag (h : EnvelopeIdeal E r) {body : Bytes}
    (hproto : body.take credProtoLen = credProto)
    (htag : credentialSilentTag E body rpIdHash = credentialSilentTag E body (r.rpIdHash E)) :
    rpIdHash = r.rpIdHash E := by
  rw [credentialSilentTag, credentialSilentTag, hproto] at htag
  have hkey := h.hmac _ _ htag
  have hdata := List.append_cancel_left (h.sha256 _ hkey)
  exact Vector.toList_inj.mp hdata

theorem EnvelopeOf.verifySilent_other (h : EnvelopeOf E r credId cipher tag) (hE : E.Lawful)
    (hideal : EnvelopeIdeal E r) (hother : rpIdHash ≠ r.rpIdHash E) :
    credentialVerifySilent E credId rpIdHash = some false := by
  rw [h.verifySilent hE, beq_eq_false_iff_ne.mpr]
  intro htag
  exact hother (hideal.eq_of_silentTag rfl htag)

/-- **Another relying party** does not load the credential: the ciphertext does not open, and the
credential id is too long for a key handle. -/
theorem EnvelopeOf.load_other (h : EnvelopeOf E r credId cipher tag) (hE : E.Lawful)
    (hideal : EnvelopeIdeal E r) (hother : rpIdHash ≠ r.rpIdHash E) :
    credentialLoad E credId rpIdHash = some (.error .invalidCredential) := by
  have hclosed : E.authDecrypt (E.chachaKey credProto) r.iv.toList rpIdHash.toList tag cipher
      = none := by
    refine eq_none_iff_forall_ne_some.mpr fun plain hopen ↦ hother ?_
    exact Vector.toList_inj.mp (hideal.aead _ _ h.sealed _ _ hopen)
  -- The hash of the relying party's id is among what is encrypted.
  have hhash : 32 ≤ cipher.length := by
    have hmem : .bytes (r.rpIdHash E).toList ∈ credentialTokens r (r.rpIdHash E) := by
      simp [credentialTokens, credentialEntries]
    have hle := (hE.cbor.length_bytes (r.rpIdHash E).toList).trans (length_bytesOf_of_mem hmem)
    rw [Vector.length_toList] at hle
    rw [hE.length_cipher _ _ _ _ _ _ h.sealed]
    exact hle
  have hlen := h.length hE
  have hlong : credId.length ≠ keyHandleLen := by
    show _ ≠ 64
    omega
  rw [credentialLoad, h.verify hE, hclosed]
  exact if_pos hlong

end Others

/-! ### Any byte string -/

/-- A credential id of a newer format that is too short for its two tags. -/
def CutShort (credId : Bytes) : Prop :=
  (credId.take credProtoLen = credProto22 ∨ credId.take credProtoLen = credProto25) ∧
    credEnvelopeOverhead ≤ credId.length ∧ credId.length < credSilentEnvelopeOverhead

section Any

variable (E : EnvelopeCrypto) (credId : Bytes) (rpIdHash : Vector UInt8 32)

theorem bytes_eq_some {data : Bytes} {i n : ℕ} (h : i + n ≤ data.length) :
    bytes data i n = some (slice data i n) :=
  if_pos h

theorem lengthLess_eq_some {len overhead : ℕ} (h : overhead ≤ len) :
    lengthLess len overhead = some (len - overhead) :=
  if_pos h

/-- **The check without decryption** stays inside every byte string. -/
theorem credentialVerifySilent_isSome : (credentialVerifySilent E credId rpIdHash).isSome := by
  rw [credentialVerifySilent]
  split_ifs with hshort
  · rfl
  · have hlen : 32 ≤ credId.length := not_lt.mp hshort
    rw [bytes_eq_some (by show 0 + 4 ≤ _; omega)]
    simp only [bind, Option.bind]
    split_ifs
    · rw [lengthLess_eq_some (by show 16 ≤ _; omega)]
      simp only
      rw [bytes_eq_some (by omega), bytes_eq_some (by show _ - 16 + 16 ≤ _; omega)]
      rfl
    · rfl

/-- **The check with decryption** stays inside every byte string that is long enough for its
format. -/
theorem credentialVerify_isSome (h : ¬ CutShort credId) :
    (credentialVerify E credId rpIdHash).isSome := by
  rw [credentialVerify]
  split_ifs with hshort
  · rfl
  · have hlen : 32 ≤ credId.length := not_lt.mp hshort
    have hproto : bytes credId 0 credProtoLen = some (credId.take credProtoLen) :=
      bytes_eq_some (by show 0 + 4 ≤ _; omega)
    rw [hproto, bytes_eq_some (by show 4 + 12 ≤ _; omega)]
    simp only [bind, Option.bind]
    by_cases hnew : credId.take credProtoLen = credProto22 ∨ credId.take credProtoLen = credProto25
    · have hlong : 48 ≤ credId.length := not_lt.mp fun hlt ↦ h ⟨hnew, hlen, hlt⟩
      simp only [if_pos hnew]
      rw [lengthLess_eq_some (by show 16 + 16 ≤ _; omega)]
      simp only
      rw [bytes_eq_some (by show _ - 32 + 16 ≤ _; omega),
        lengthLess_eq_some (by show 32 + 16 ≤ _; omega)]
      simp only
      rw [bytes_eq_some (by show 16 + (_ - 48) ≤ _; omega)]
      rfl
    · simp only [if_neg hnew]
      rw [lengthLess_eq_some (by show 0 + 16 ≤ _; omega)]
      simp only
      rw [bytes_eq_some (by show _ - 16 + 16 ≤ _; omega),
        lengthLess_eq_some (by show 32 + 0 ≤ _; omega)]
      simp only
      rw [bytes_eq_some (by show 16 + (_ - 32) ≤ _; omega)]
      rfl

/-- The credential id with the plaintext in it is as long as it was. -/
theorem length_of_credentialVerify (hE : E.Lawful) {copy : Bytes}
    (h : credentialVerify E credId rpIdHash = some (some copy)) :
    32 ≤ credId.length ∧ copy.length = credId.length := by
  rw [credentialVerify] at h
  split_ifs at h with hshort
  · cases h
  · have hlen : 32 ≤ credId.length := not_lt.mp hshort
    obtain ⟨proto, -, h⟩ := bind_eq_some_iff.mp h
    obtain ⟨iv, -, h⟩ := bind_eq_some_iff.mp h
    obtain ⟨tagOffset, -, h⟩ := bind_eq_some_iff.mp h
    obtain ⟨tag, -, h⟩ := bind_eq_some_iff.mp h
    obtain ⟨cipherLen, -, h⟩ := bind_eq_some_iff.mp h
    obtain ⟨cipher, hcipher, h⟩ := bind_eq_some_iff.mp h
    obtain ⟨plain, hplain, rfl⟩ := map_eq_some_iff.mp (Option.some.inj h)
    rw [bytes] at hcipher
    split_ifs at hcipher with hfits
    obtain rfl := Option.some.inj hcipher
    have hlength := hE.length_plain _ _ _ _ _ _ hplain
    rw [length_slice hfits] at hlength
    exact ⟨hlen, length_patch (by rw [hlength]; exact hfits)⟩

/-- **Loading** stays inside every byte string that is long enough for its format. -/
theorem credentialLoad_isSome (hE : E.Lawful) (h : ¬ CutShort credId) :
    (credentialLoad E credId rpIdHash).isSome := by
  obtain ⟨result, hverify⟩ := isSome_iff_exists.mp (credentialVerify_isSome E credId rpIdHash h)
  rw [credentialLoad, hverify]
  cases result with
  | none =>
    by_cases hlength : credId.length = keyHandleLen
    · rw [if_neg (not_not.mpr hlength), bytes_eq_some (by rw [hlength]; exact le_rfl)]
      simp only [bind, Option.bind]
      split_ifs <;> rfl
    · rw [if_pos hlength]
      rfl
  | some copy =>
    obtain ⟨hlen, hcopy⟩ := length_of_credentialVerify E credId rpIdHash hE hverify
    show Option.isSome (lengthLess credId.length 32 >>= _) = true
    rw [lengthLess_eq_some hlen]
    show Option.isSome (bytes copy 16 (credId.length - 32) >>= _) = true
    rw [bytes_eq_some (by omega)]
    rfl

end Any

/-! ### The law -/

/-- A text that is absent or empty is absent, and one without a NUL is what it was. -/
structure KeepsText (text kept : Option Bytes) : Prop where
  absent : text.getD [] = [] → kept = none
  present : ∀ t, text = some t → t ≠ [] → 0 ∉ t → kept = some t

/-- The extensions that a credential keeps: a `credBlob` that is not too long, and no flag that is not
set. -/
structure KeepsExtensions (e kept : CredExtensions) : Prop where
  hmacSecret : kept.hmacSecret = e.hmacSecret
  credProtect : kept.credProtect = e.credProtect
  minPinLength : kept.minPinLength = none
  no_credBlob : e.credBlob = none → kept.credBlob = none
  credBlob : ∀ data, e.credBlob = some data → data.length < maxCredBlobLength →
    kept.credBlob = some data
  long_credBlob : ∀ data, e.credBlob = some data → maxCredBlobLength < data.length →
    kept.credBlob = none
  largeBlobKey : kept.largeBlobKey = if e.largeBlobKey = some true then some true else none
  thirdPartyPayment :
    kept.thirdPartyPayment = if e.thirdPartyPayment = some true then some true else none
  present : kept.present = true

/-- **The fields of a request**, as a credential has them that was loaded. -/
structure CredentialReadsBack (r : CredentialRequest) (credId : Bytes) (cred : Credential) :
    Prop where
  id : cred.id = some credId
  rpId : KeepsText r.rpId cred.rpId
  no_userId : r.userId.getD [] = [] → cred.userId = none
  userId : ∀ data, r.userId = some data → data ≠ [] → cred.userId = some data
  userName : KeepsText r.userName cred.userName
  userDisplayName : KeepsText r.userDisplayName cred.userDisplayName
  boardCreation : cred.boardCreation = r.millis.toNat
  rtcCreation : cred.rtcCreation = (r.rtc.map UInt64.toNat).getD 0
  no_extensions : r.extensions.present = false → cred.extensions = noExtensions
  extensions : r.extensions.present = true → KeepsExtensions r.extensions cred.extensions
  useSignCount : cred.useSignCount = some r.useSignCount
  alg : cred.alg = r.alg.toInt
  curve : cred.curve = r.curve.toInt
  no_opts : r.opts.present = false → cred.opts = noOptions
  opts : r.opts.present = true → cred.opts = { noOptions with rk := r.opts.rk, present := true }
  present : cred.present = true
  u2f : cred.u2f = false
  requireButton : cred.requireButton = false

theorem cText_of_notMem {t : Bytes} (h : 0 ∉ t) : cText t = t := by
  refine List.takeWhile_eq_self_iff.mpr fun b hb ↦ ?_
  exact bne_iff_ne.mpr fun hzero ↦ h (hzero ▸ hb)

theorem keepsText_storedText (text : Option Bytes) : KeepsText text (storedText text) where
  absent h := by
    cases text with
    | none => rfl
    | some t =>
      obtain rfl : t = [] := h
      rfl
  present t h hne hnul := by
    subst h
    rw [storedText, if_pos (List.length_pos_iff.mpr hne), cText_of_notMem hnul]

theorem keepsExtensions_storedExtensions (e : CredExtensions) :
    KeepsExtensions e (storedExtensions e) where
  hmacSecret := rfl
  credProtect := rfl
  minPinLength := rfl
  no_credBlob h := by rw [storedExtensions, h, storedCredBlob]
  credBlob data h hshort := by rw [storedExtensions, h, storedCredBlob, if_pos hshort]
  long_credBlob data h hlong := by
    rw [storedExtensions, h, storedCredBlob, if_neg (not_lt.mpr hlong.le)]
  largeBlobKey := rfl
  thirdPartyPayment := rfl
  present := rfl

/-- What is stored is what the format keeps. -/
theorem CredentialRequest.readsBack (r : CredentialRequest) (credId : Bytes) :
    CredentialReadsBack r credId { r.stored with id := some credId, present := true } where
  id := rfl
  rpId := keepsText_storedText r.rpId
  no_userId h := by
    show storedBytes r.userId = none
    cases huser : r.userId with
    | none => rfl
    | some data =>
      rw [huser] at h
      obtain rfl : data = [] := h
      rfl
  userId data h hne := by
    show storedBytes r.userId = some data
    rw [h, storedBytes, if_pos (List.length_pos_iff.mpr hne)]
  userName := keepsText_storedText r.userName
  userDisplayName := keepsText_storedText r.userDisplayName
  boardCreation := rfl
  rtcCreation := rfl
  no_extensions h := by
    show (if r.extensions.present then storedExtensions r.extensions else noExtensions) = _
    rw [h, if_neg Bool.false_ne_true]
  extensions h := by
    show KeepsExtensions _
      (if r.extensions.present then storedExtensions r.extensions else noExtensions)
    rw [h, if_pos rfl]
    exact keepsExtensions_storedExtensions r.extensions
  useSignCount := rfl
  alg := rfl
  curve := rfl
  no_opts h := by
    show (if r.opts.present then _ else noOptions) = _
    rw [h, if_neg Bool.false_ne_true]
  opts h := by
    show (if r.opts.present then _ else noOptions) = _
    rw [h, if_pos rfl]
  present := rfl
  u2f := rfl
  requireButton := rfl

/-- **Credential ids are read back, for their relying party and inside their bytes.** What was created
loads with the fields of its request, passes the silent check, and does neither for another relying
party; no credential id makes the silent check read outside it, nor loading, unless it is cut short
between its two tags. -/
theorem credential_envelope_law (E : EnvelopeCrypto) (hE : E.Lawful) :
    (∀ (r : CredentialRequest) (credId : Bytes), credentialCreate E r = .ok credId →
      (∃ cred, credentialLoad E credId (r.rpIdHash E) = some (.ok cred) ∧
        CredentialReadsBack r credId cred) ∧
      credentialVerifySilent E credId (r.rpIdHash E) = some true ∧
      (EnvelopeIdeal E r → ∀ rpIdHash, rpIdHash ≠ r.rpIdHash E →
        credentialLoad E credId rpIdHash = some (.error .invalidCredential) ∧
        credentialVerifySilent E credId rpIdHash = some false)) ∧
    (∀ (credId : Bytes) (rpIdHash : Vector UInt8 32),
      (credentialVerifySilent E credId rpIdHash).isSome ∧
      (¬ CutShort credId → (credentialLoad E credId rpIdHash).isSome)) := by
  refine ⟨fun r credId hcreate ↦ ?_, fun credId rpIdHash ↦
    ⟨credentialVerifySilent_isSome E credId rpIdHash, credentialLoad_isSome E credId rpIdHash hE⟩⟩
  obtain ⟨cipher, tag, h⟩ := credentialCreate_eq_ok hcreate
  refine ⟨⟨_, h.load hE, r.readsBack credId⟩, ?_, fun hideal rpIdHash hother ↦
    ⟨h.load_other hE hideal hother, h.verifySilent_other hE hideal hother⟩⟩
  rw [h.verifySilent hE, beq_self_eq_true]

/-! ### An example -/

/-- A hash with one value for the shortest ids and another for everything else, an AEAD that adds a
tag, and no secret. -/
def exampleEnvelope : EnvelopeCrypto where
  cbor := plainCbor
  sha256 data := if data.length ≤ 1 then .replicate 32 1 else if data = .replicate 32 1 then
    .replicate 32 2 else .replicate 32 0
  hmacSha256 key _ := if key = .replicate 32 2 then .replicate 32 1 else .replicate 32 0
  encryptAndTag _ _ ad plain :=
    some (plain, .replicate 16 (if ad = .replicate 32 1 then 1 else 0))
  authDecrypt _ _ ad tag cipher :=
    if tag = .replicate 16 (if ad = .replicate 32 1 then 1 else 0) then some cipher else none
  chachaKey _ := []
  otpKey1 := none
  serialId := []
  certdevSha256 := []
  u2fLoadKey _ _ := false

theorem exampleEnvelope_lawful : exampleEnvelope.Lawful where
  cbor := plainCbor_lawful
  authDecrypt key iv ad plain cipher tag h := by
    cases h
    exact if_pos rfl
  length_cipher key iv ad plain cipher tag h := by
    cases h
    rfl
  length_tag key iv ad plain cipher tag h := by
    cases h
    exact List.length_replicate
  length_plain key iv ad tag cipher plain h := by
    change (if tag = .replicate 16 (if ad = .replicate 32 1 then 1 else 0) then some cipher
      else none) = some plain at h
    by_cases htag : tag = .replicate 16 (if ad = .replicate 32 1 then (1 : UInt8) else 0)
    · rw [if_pos htag] at h
      cases h
      rfl
    · rw [if_neg htag] at h
      cases h

/-- A credential with a `credBlob`. -/
def exampleRequest (credBlob : Bytes) : CredentialRequest where
  rpId := some [0x61]
  userId := some [0x75]
  userName := some [0x6E]
  userDisplayName := none
  opts := ⟨some true, none, none, true⟩
  extensions := ⟨some true, 2, none, some credBlob, none, none, true⟩
  useSignCount := true
  alg := -7
  curve := 1
  millis := 5
  rtc := none
  iv := .replicate 12 0
  credProtect_lt := by norm_num

theorem exampleRequest_ideal (credBlob : Bytes) :
    EnvelopeIdeal exampleEnvelope (exampleRequest credBlob) where
  aead cipher tag hsealed ad plain hopen := by
    cases hsealed
    change (if List.replicate 16 1 = List.replicate 16 (if ad = .replicate 32 1 then (1 : UInt8)
      else 0) then some _ else none) = some plain at hopen
    by_cases had : ad = .replicate 32 1
    · exact had
    · rw [if_neg had, if_neg (by decide)] at hopen
      cases hopen
  hmac body key htag := by
    by_contra hkey
    have hother : exampleEnvelope.hmacSha256 key body = .replicate 32 0 := if_neg hkey
    rw [hother] at htag
    change List.take 16 (Vector.replicate 32 (0 : UInt8)).toList =
      List.take 16 (Vector.replicate 32 (1 : UInt8)).toList at htag
    cases htag
  sha256 data h := by
    change (if data.length ≤ 1 then Vector.replicate 32 (1 : UInt8)
      else if data = .replicate 32 1 then .replicate 32 2 else .replicate 32 0)
      = .replicate 32 2 at h
    split_ifs at h with hshort hdata
    · cases h
    · exact hdata
    · cases h

theorem credential_envelope_law_example :
    ∃ credId, credentialCreate exampleEnvelope (exampleRequest [7]) = .ok credId ∧
      (∃ cred, credentialLoad exampleEnvelope credId (.replicate 32 1) = some (.ok cred) ∧
        CredentialReadsBack (exampleRequest [7]) credId cred) ∧
      credentialVerifySilent exampleEnvelope credId (.replicate 32 1) = some true ∧
      credentialLoad exampleEnvelope credId (.replicate 32 0)
        = some (.error .invalidCredential) ∧
      credentialVerifySilent exampleEnvelope credId (.replicate 32 0) = some false := by
  obtain ⟨hread, hsilent, hother⟩ := (credential_envelope_law exampleEnvelope
    exampleEnvelope_lawful).1 (exampleRequest [7]) _ rfl
  exact ⟨_, rfl, hread, hsilent, hother (exampleRequest_ideal [7]) (.replicate 32 0) (by decide)⟩

set_option maxRecDepth 4000 in
/-- A `credBlob` of 200 bytes is not kept: the credential is created, and loads without it. -/
theorem credential_long_credBlob_dropped :
    ∃ credId cred, credentialCreate exampleEnvelope (exampleRequest (.replicate 200 7)) = .ok credId ∧
      credentialLoad exampleEnvelope credId
        ((exampleRequest (.replicate 200 7)).rpIdHash exampleEnvelope) = some (.ok cred) ∧
      (exampleRequest (.replicate 200 7)).extensions.credBlob = some (.replicate 200 7) ∧
      cred.extensions.credBlob = none := by
  have hcreate : ∃ credId,
      credentialCreate exampleEnvelope (exampleRequest (.replicate 200 7)) = .ok credId := ⟨_, rfl⟩
  obtain ⟨credId, hcreate⟩ := hcreate
  obtain ⟨cipher, tag, h⟩ := credentialCreate_eq_ok hcreate
  exact ⟨credId, _, hcreate, h.load exampleEnvelope_lawful, rfl, rfl⟩

end PicoAll

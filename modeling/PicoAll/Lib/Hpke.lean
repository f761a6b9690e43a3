import PicoAll.Lib.BigEndian

/-!
# Hybrid public-key encryption, sender authenticated

The receiver's side: key derivation by extract-and-expand over a hash, the shared secret of an
encapsulated key and the sender's, the key schedule, and the opening of a ciphertext. Nothing is
said of the primitives but the lengths of their results.
-/

namespace Hpke

open BigEndian List Option

/-- The primitives, and how long what is derived from them is. -/
structure Suite where
  hmac : Bytes → Bytes → Bytes
  hashLength : ℕ
  /-- The secret that a private and a public key share. -/
  dh : Bytes → Bytes → Option Bytes
  /-- Open a ciphertext with key, nonce and associated data. -/
  aeadOpen : Bytes → Bytes → Bytes → Bytes → Option Bytes
  kemId : Bytes
  id : Bytes
  secretLength : ℕ
  keyLength : ℕ
  nonceLength : ℕ
  length_hmac : ∀ key message, (hmac key message).length = hashLength
  hashLength_pos : 0 < hashLength

variable (S : Suite)

/-! ### Extract and expand -/

def hkdfExtract (salt ikm : Bytes) : Bytes :=
  S.hmac (if salt = [] then List.replicate S.hashLength 0 else salt) ikm

/-- The blocks of the expansion, each from the one before. -/
def hkdfBlock (prk info : Bytes) : ℕ → Bytes
  | 0 => []
  | i + 1 => S.hmac prk (hkdfBlock prk info i ++ info ++ [UInt8.ofNat (i + 1)])

/-- The first `n` blocks. -/
def hkdfBlocks (prk info : Bytes) : ℕ → Bytes
  | 0 => []
  | n + 1 => hkdfBlocks prk info n ++ hkdfBlock S prk info (n + 1)

def hkdfExpand (prk info : Bytes) (length : ℕ) : Bytes :=
  (hkdfBlocks S prk info length).take length

variable {S} {prk info : Bytes}

theorem length_hkdfBlock (i : ℕ) : (hkdfBlock S prk info (i + 1)).length = S.hashLength :=
  S.length_hmac ..

@[simp]
theorem length_hkdfBlocks (n : ℕ) : (hkdfBlocks S prk info n).length = n * S.hashLength := by
  induction n with
  | zero => simp [hkdfBlocks]
  | succ n ih => rw [hkdfBlocks, length_append, ih, length_hkdfBlock, Nat.succ_mul]

/-- Later blocks only add to the earlier ones. -/
theorem hkdfBlocks_prefix (S : Suite) (prk info : Bytes) {m n : ℕ} (h : m ≤ n) :
    hkdfBlocks S prk info m <+: hkdfBlocks S prk info n := by
  induction n, h using Nat.le_induction with
  | base => exact prefix_refl _
  | succ n _ ih => exact ih.trans (prefix_append ..)

/-- As many blocks as are needed give the expansion. -/
theorem take_hkdfBlocks {n length : ℕ} (h : length ≤ n * S.hashLength) :
    (hkdfBlocks S prk info n).take length = hkdfExpand S prk info length := by
  have hpos := S.hashLength_pos
  have hlen : length ≤ length * S.hashLength := Nat.le_mul_of_pos_right _ hpos
  rcases Nat.le_total n length with hle | hle
  · obtain ⟨rest, hrest⟩ := hkdfBlocks_prefix S prk info hle
    rw [hkdfExpand, ← hrest, take_append_of_le_length (by rwa [length_hkdfBlocks])]
  · obtain ⟨rest, hrest⟩ := hkdfBlocks_prefix S prk info hle
    rw [hkdfExpand, ← hrest, take_append_of_le_length (by rwa [length_hkdfBlocks])]

theorem length_hkdfExpand (length : ℕ) : (hkdfExpand S prk info length).length = length := by
  rw [hkdfExpand, length_take, length_hkdfBlocks]
  exact Nat.min_eq_left (Nat.le_mul_of_pos_right _ S.hashLength_pos)

variable (S)

/-! ### Labels -/

/-- "HPKE-v1". -/
def version : Bytes :=
  [0x48, 0x50, 0x4b, 0x45, 0x2d, 0x76, 0x31]

def eaePrkLabel : Bytes :=
  [0x65, 0x61, 0x65, 0x5f, 0x70, 0x72, 0x6b]

def sharedSecretLabel : Bytes :=
  [0x73, 0x68, 0x61, 0x72, 0x65, 0x64, 0x5f, 0x73, 0x65, 0x63, 0x72, 0x65, 0x74]

def pskIdHashLabel : Bytes :=
  [0x70, 0x73, 0x6b, 0x5f, 0x69, 0x64, 0x5f, 0x68, 0x61, 0x73, 0x68]

def infoHashLabel : Bytes :=
  [0x69, 0x6e, 0x66, 0x6f, 0x5f, 0x68, 0x61, 0x73, 0x68]

def secretLabel : Bytes :=
  [0x73, 0x65, 0x63, 0x72, 0x65, 0x74]

def keyLabel : Bytes :=
  [0x6b, 0x65, 0x79]

def baseNonceLabel : Bytes :=
  [0x62, 0x61, 0x73, 0x65, 0x5f, 0x6e, 0x6f, 0x6e, 0x63, 0x65]

def labeledExtract (id salt label ikm : Bytes) : Bytes :=
  hkdfExtract S salt (version ++ id ++ label ++ ikm)

def labeledExpand (id prk label info : Bytes) (length : ℕ) : Bytes :=
  hkdfExpand S prk (beBytes 2 length ++ version ++ id ++ label ++ info) length

/-! ### The receiver -/

/-- The secret shared with the holder of the sender's key, through an encapsulated key. -/
def authDecap (enc receiverPrivate receiverPublic senderPublic : Bytes) : Option Bytes := do
  let ephemeral ← S.dh receiverPrivate enc
  let static ← S.dh receiverPrivate senderPublic
  let eaePrk := labeledExtract S S.kemId [] eaePrkLabel (ephemeral ++ static)
  return labeledExpand S S.kemId eaePrk sharedSecretLabel (enc ++ receiverPublic ++ senderPublic)
    S.secretLength

/-- The context of the key schedule: the mode, no pre-shared key, and the application's info. -/
def authContext (info : Bytes) : Bytes :=
  0x02 :: (labeledExtract S S.id [] pskIdHashLabel [] ++ labeledExtract S S.id [] infoHashLabel info)

/-- Open a ciphertext by the key and the nonce that come from a shared secret. -/
def scheduleOpen (info aad ciphertext shared : Bytes) : Option Bytes :=
  let secret := labeledExtract S S.id shared secretLabel []
  let key := labeledExpand S S.id secret keyLabel (authContext S info) S.keyLength
  let nonce := labeledExpand S S.id secret baseNonceLabel (authContext S info) S.nonceLength
  S.aeadOpen key nonce aad ciphertext

def authOpen (enc receiverPrivate receiverPublic senderPublic info aad ciphertext : Bytes) :
    Option Bytes :=
  (authDecap S enc receiverPrivate receiverPublic senderPublic).bind
    (scheduleOpen S info aad ciphertext)

variable {receiverPrivate receiverPublic senderPublic : Bytes}

theorem length_of_authDecap {enc shared : Bytes}
    (h : authDecap S enc receiverPrivate receiverPublic senderPublic = some shared) :
    shared.length = S.secretLength := by
  obtain ⟨ephemeral, -, h⟩ := bind_eq_some_iff.mp h
  obtain ⟨static, -, h⟩ := bind_eq_some_iff.mp h
  obtain rfl := Option.some.inj h
  exact length_hkdfExpand _

/-- What is opened is the ciphertext, under some key. -/
theorem exists_aeadOpen_of_authOpen {enc info aad ciphertext plain : Bytes}
    (h : authOpen S enc receiverPrivate receiverPublic senderPublic info aad ciphertext = some plain) :
    ∃ key nonce, S.aeadOpen key nonce aad ciphertext = some plain := by
  obtain ⟨shared, -, h⟩ := bind_eq_some_iff.mp h
  exact ⟨_, _, h⟩

end Hpke

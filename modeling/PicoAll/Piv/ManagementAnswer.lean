import PicoAll.Piv.Management

/-!
# What comes of a step with the management key

GENERAL AUTHENTICATE with the management key refuses, issues a challenge in one of two ways, or accepts
an answer in one of two ways. Each case is said with all that holds there, so that the branches of the
command are gone through once.
-/

namespace PicoAll.Piv

variable {C : PivCrypto} {env : AuthEnv} {algo keyRef : UInt8} {mgm : MgmFile} {ram : PivRam}
  {reply : AuthReply} {request : AuthRequest} {K : Type}

/-! ### The block ciphers -/

/-- What the holder of the key computes of a challenge. -/
def mgmEncrypt (C : PivCrypto) (algo : UInt8) (key block : Bytes) : Bytes :=
  if algo = pivAlgo3des then C.tdesEncrypt key block else C.aesEncrypt key block

def mgmDecrypt (C : PivCrypto) (algo : UInt8) (key block : Bytes) : Bytes :=
  if algo = pivAlgo3des then C.tdesDecrypt key block else C.aesDecrypt key block

theorem mgmEncrypt_mgmDecrypt {key block : Bytes} (h : block.length = challengeLength algo) :
    mgmEncrypt C algo key (mgmDecrypt C algo key block) = block := by
  unfold mgmEncrypt mgmDecrypt challengeLength at *
  split at h
  next halgo => rw [if_pos halgo, if_pos halgo, C.tdes_inv' key block h]
  next halgo => rw [if_neg halgo, if_neg halgo, C.aes_inv' key block h]

theorem mgmDecrypt_mgmEncrypt {key block : Bytes} (h : block.length = challengeLength algo) :
    mgmDecrypt C algo key (mgmEncrypt C algo key block) = block := by
  unfold mgmEncrypt mgmDecrypt challengeLength at *
  split at h
  next halgo => rw [if_pos halgo, if_pos halgo, C.tdes_inv key block h]
  next halgo => rw [if_neg halgo, if_neg halgo, C.aes_inv key block h]

theorem length_mgmEncrypt (key block : Bytes) :
    (mgmEncrypt C algo key block).length = challengeLength algo := by
  unfold mgmEncrypt challengeLength
  split
  · exact C.length_tdesEncrypt key block
  · exact C.length_aesEncrypt key block

theorem length_mgmDecrypt (key block : Bytes) :
    (mgmDecrypt C algo key block).length = challengeLength algo := by
  unfold mgmDecrypt challengeLength
  split
  · exact C.length_tdesDecrypt key block
  · exact C.length_aesDecrypt key block

/-- `mgm_crypt` is the block cipher of the algorithm under the key that is stored. -/
theorem mgmCrypt_eq {input output : Bytes} {encrypt : Bool}
    (h : mgmCrypt C env algo mgm input encrypt = some output) :
    ∃ key, mgm.key = some key ∧
      output = (if encrypt then mgmEncrypt C algo key (input.take (challengeLength algo))
        else mgmDecrypt C algo key (input.take (challengeLength algo))) := by
  unfold mgmCrypt at h
  rcases hkey : mgm.key with _ | key <;> rw [hkey] at h
  · cases h
  refine ⟨key, rfl, ?_⟩
  dsimp only at h
  unfold mgmEncrypt mgmDecrypt challengeLength
  split_ifs at h ⊢ <;> exact (Option.some.inj h).symm

/-! ### Challenges -/

theorem challengeLength_le (algo : UInt8) : challengeLength algo ≤ mgmChallengeSize := by
  unfold challengeLength
  split <;> decide

/-- The challenge that is issued in a step. -/
def AuthEnv.challenge (env : AuthEnv) (algo : UInt8) : Bytes :=
  env.random.take (challengeLength algo)

theorem length_challenge (env : AuthEnv) (algo : UInt8) :
    (env.challenge algo).length = challengeLength algo := by
  rw [AuthEnv.challenge, List.length_take, env.length_random]
  exact min_eq_left (challengeLength_le algo)

theorem take_issueMgmChallenge (kind : MgmChallengeKind) (ram : PivRam) :
    (issueMgmChallenge env kind algo ram).mgmChallenge.take (challengeLength algo) =
      env.challenge algo :=
  List.take_left' (length_challenge env algo)

/-! ### The cases -/

/-- Nothing is given, and a challenge stays or ends. -/
structure AuthReply.Refuses (ram : PivRam) (reply : AuthReply) : Prop where
  sw : reply.sw ≠ swOk
  response : reply.response = []
  hasMgm : reply.ram.hasMgm = ram.hasMgm
  kept : reply.ram = ram ∨ reply.ram.mgmChallengeKind = .none

/-- A challenge of the kind is issued. -/
structure AuthReply.Issues (env : AuthEnv) (algo : UInt8) (kind : MgmChallengeKind)
    (reply : AuthReply) : Prop where
  sw : reply.sw = swOk
  hasMgm : reply.ram.hasMgm = false
  kind : reply.ram.mgmChallengeKind = kind
  sameAlgo : reply.ram.mgmChallengeAlgo = algo
  challenge : reply.ram.mgmChallenge.take (challengeLength algo) = env.challenge algo

/-- The management status is granted, for the challenge that was pending. -/
structure AuthReply.Accepts (algo : UInt8) (kind : MgmChallengeKind) (ram : PivRam)
    (reply : AuthReply) : Prop where
  sw : reply.sw = swOk
  hasMgm : reply.ram.hasMgm = true
  ended : reply.ram.mgmChallengeKind = .none
  kind : ram.mgmChallengeKind = kind
  sameAlgo : ram.mgmChallengeAlgo = algo

/-- The cases, with what is shown in each and what was shown to the card. -/
inductive MgmAnswer (C : PivCrypto) (env : AuthEnv) (algo : UInt8) (mgm : MgmFile) (tag : ℕ)
    (value : Bytes) (ram : PivRam) (reply : AuthReply) : Prop where
  | refused (h : reply.Refuses ram)
  | witness (key : Bytes) (hkey : mgm.key = some key) (h : reply.Issues env algo .mutual)
      (hresponse : reply.response = authTemplate 0x80 (mgmEncrypt C algo key (env.challenge algo)))
  | challenge (h : reply.Issues env algo .single)
      (hresponse : reply.response = authTemplate 0x81 (env.challenge algo))
  | mutualAnswer (key chosen : Bytes) (hkey : mgm.key = some key) (h : reply.Accepts algo .mutual ram)
      (htag : tag = 0x80) (hvalue : value = ram.mgmChallenge.take (challengeLength algo))
      (hresponse : reply.response = authTemplate 0x82 (mgmEncrypt C algo key chosen))
  | singleAnswer (key : Bytes) (hkey : mgm.key = some key) (h : reply.Accepts algo .single ram)
      (htag : tag = 0x82)
      (hvalue : value = mgmEncrypt C algo key (ram.mgmChallenge.take (challengeLength algo)))
      (hresponse : reply.response = [])

variable {value : Bytes}

theorem MgmAnswer.of_refused {tag : ℕ} {sw : UInt16} {ram' : PivRam} (hsw : sw ≠ swOk)
    (hram : ram' = ram ∨ ram' = clearMgmChallenge ram) :
    MgmAnswer C env algo mgm tag value ram (.refused sw ram') := by
  refine .refused ⟨hsw, rfl, ?_, ?_⟩
  · obtain rfl | rfl := hram <;> rfl
  · obtain rfl | rfl := hram
    · exact .inl rfl
    · exact .inr rfl

theorem requestWitness_answer (tag : ℕ) (value : Bytes) :
    MgmAnswer C env algo mgm tag value ram (requestWitness C env algo mgm ram) := by
  unfold requestWitness
  dsimp only
  rcases hwitness : mgmCrypt C env algo mgm (issueMgmChallenge env .mutual algo ram).mgmChallenge true
    with _ | witness
  · exact .of_refused (by decide) (.inr rfl)
  · obtain ⟨key, hkey, houtput⟩ := mgmCrypt_eq hwitness
    rw [if_pos rfl, take_issueMgmChallenge] at houtput
    subst houtput
    exact .witness key hkey ⟨rfl, rfl, rfl, rfl, take_issueMgmChallenge .mutual ram⟩ rfl

theorem requestChallenge_answer (tag : ℕ) (value : Bytes) :
    MgmAnswer C env algo mgm tag value ram (requestChallenge env algo ram) := by
  unfold requestChallenge
  dsimp only
  rw [take_issueMgmChallenge]
  exact .challenge ⟨rfl, rfl, rfl, rfl, take_issueMgmChallenge .single ram⟩ rfl

theorem answerWitness_answer {a81 : Option Bytes} :
    MgmAnswer C env algo mgm 0x80 value ram
      (answerWitness C env algo mgm value a81 none ram) := by
  unfold answerWitness
  dsimp only
  split
  · exact .of_refused (by decide) (.inr rfl)
  next hmatches =>
    obtain ⟨⟨hkind, halgo, -⟩, hvalue⟩ := not_not.1 hmatches
    rcases hresponse : mgmCrypt C env algo mgm (a81.getD []) true with _ | response
    · exact .of_refused (by decide) (.inr rfl)
    · obtain ⟨key, hkey, houtput⟩ := mgmCrypt_eq hresponse
      subst houtput
      exact .mutualAnswer key _ hkey ⟨rfl, rfl, rfl, hkind, halgo⟩ rfl hvalue rfl

theorem answerChallenge_answer :
    MgmAnswer C env algo mgm 0x82 value ram
      (answerChallenge C env algo mgm none none value ram) := by
  unfold answerChallenge
  dsimp only
  split
  · exact .of_refused (by decide) (.inr rfl)
  next hvalid =>
    obtain ⟨hkind, halgo, hlength, -⟩ := not_not.1 hvalid
    rcases hresponse : mgmCrypt C env algo mgm value false with _ | response
    · exact .of_refused (by decide) (.inr rfl)
    dsimp only
    split
    · exact .of_refused (by decide) (.inr rfl)
    next hmatches =>
      obtain ⟨key, hkey, houtput⟩ := mgmCrypt_eq hresponse
      rw [if_neg Bool.false_ne_true, List.take_of_length_le hlength.le] at houtput
      have hchallenge : mgmDecrypt C algo key value = ram.mgmChallenge.take (challengeLength algo) := by
        rw [← not_not.1 hmatches, houtput, List.take_of_length_le (length_mgmDecrypt ..).le]
      refine .singleAnswer key hkey ⟨rfl, rfl, rfl, hkind, halgo⟩ rfl ?_ rfl
      rw [← hchallenge, mgmEncrypt_mgmDecrypt hlength]

/-- Every step with the management key is one of the cases. -/
theorem authenticateManagement_answer :
    MgmAnswer C env algo mgm request.tag request.value ram
      (authenticateManagement C env algo mgm request ram) := by
  unfold authenticateManagement authenticateMgm
  by_cases hwitness : request.tag = 0x80
  · rw [if_pos hwitness, hwitness]
    split
    · exact requestWitness_answer _ _
    split
    next h => exact absurd h.2.1 (by simp)
    split
    · exact answerWitness_answer
    split
    next h => exact absurd h.1 (by simp)
    · exact .of_refused (by decide) (.inr rfl)
  rw [if_neg hwitness]
  by_cases hchallenge : request.tag = 0x81 ∧ request.value = []
  · rw [if_pos hchallenge, hchallenge.2]
    exact requestChallenge_answer _ _
  rw [if_neg hchallenge]
  by_cases hanswer : request.tag = 0x82
  · rw [if_pos hanswer, hanswer, if_neg (by simp), if_neg (by simp), if_neg (by simp)]
    split
    · exact answerChallenge_answer
    · exact .of_refused (by decide) (.inr rfl)
  · rw [if_neg hanswer]
    exact .of_refused (by decide) (.inl rfl)

end PicoAll.Piv

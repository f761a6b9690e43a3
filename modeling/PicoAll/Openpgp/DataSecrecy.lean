import PicoAll.Openpgp.GetData

/-!
# What the GET commands tell

Two states that differ in secrets only answer any sequence of GET commands alike. Of a private key
the commands tell whether it is there, which is what the key information object is for.
-/

namespace PicoAll.Openpgp

open List

/-! ### Secrets -/

/-- Verifiers, copies of the data encryption key, and private keys. -/
def secretFids : List ℕ :=
  [efPw1, efRc, efPw3, efPivPin, efPivPuk, efDek, efDekPw1, efDekRc, efDekPw3, efDekPwpiv, efPkSig,
    efPkDec, efPkAut, efAesKey, efPivKeyAttestation] ++ pivKeyFids

/-- A secret under the authorisation of now: one of these, or a private object that may not be
read. -/
def IsSecret (ram : CardRam) (fid : ℕ) : Prop :=
  fid ∈ secretFids ∨ fid = efPrivDo3 ∧ ram.hasPw2 = false ∨ fid = efPrivDo4 ∧ ram.hasPw3 = false

/-- The contents differ in secrets only, and private keys are there in the one as in the other. -/
structure SameButSecrets (ram : CardRam) (read read' : Contents) : Prop where
  same : ∀ fid, ¬IsSecret ram fid → read fid = read' fid
  present : ∀ fid ∈ [efPkSig, efPkDec, efPkAut], (read fid).isSome = (read' fid).isSome

variable {config : CardConfig} {ram : CardRam} {read read' : Contents}

theorem not_isSecret {fid : ℕ} (h : fid ∉ secretFids ++ [efPrivDo3, efPrivDo4]) :
    ¬IsSecret ram fid := by
  rintro (hmem | ⟨rfl, -⟩ | ⟨rfl, -⟩)
  · exact h (mem_append_left _ hmem)
  · exact h (by simp)
  · exact h (by simp)

section Same

variable (h : SameButSecrets ram read read')

include h

variable {fid : ℕ}

theorem SameButSecrets.read_eq (hfid : fid ∉ secretFids ++ [efPrivDo3, efPrivDo4]) :
    read fid = read' fid :=
  h.same fid (not_isSecret hfid)

/-! ### The functions of `do.c` -/

theorem parseTrium_same (size : ℕ) {fids : List ℕ}
    (hfids : ∀ fid ∈ fids, fid ∉ secretFids ++ [efPrivDo3, efPrivDo4]) (out : Bytes) :
    parseTrium read size fids out = parseTrium read' size fids out := by
  induction fids generalizing out with
  | nil => rfl
  | cons fid fids ih =>
    have ih := ih fun fid hfid ↦ hfids fid (mem_cons_of_mem _ hfid)
    simp only [parseTrium, h.read_eq (hfids fid (mem_cons_self ..)), ih]

theorem parseKeyinfo_same (out : Bytes) : parseKeyinfo read out = parseKeyinfo read' out := by
  simp only [parseKeyinfo, keyPresent, h.present efPkSig (by simp), h.present efPkDec (by simp),
    h.present efPkAut (by simp)]

theorem parseAlgoinfo_same (hfid : fid ∈ [efAlgoSig, efAlgoDec, efAlgoAut, efAlgoInfo])
    (out : Bytes) : parseAlgoinfo config read fid out = parseAlgoinfo config read' fid out := by
  by_cases hinfo : fid = efAlgoInfo
  · rw [parseAlgoinfo, parseAlgoinfo, if_pos hinfo, if_pos hinfo]
  · have hall : ∀ fid ∈ [efAlgoSig, efAlgoDec, efAlgoAut, efAlgoInfo], fid ≠ efAlgoInfo →
        0x1000 + fid ∉ secretFids ++ [efPrivDo3, efPrivDo4] := by decide
    rw [parseAlgoinfo, parseAlgoinfo, if_neg hinfo, if_neg hinfo, h.read_eq (hall fid hfid hinfo)]

/-- The functions that make an object without others inside. The ids under which they are found are
those of the table. -/
theorem parseSimple_same {f : DoFunction}
    (hfid : f = .algoinfo → fid ∈ [efAlgoSig, efAlgoDec, efAlgoAut, efAlgoInfo]) (out : Bytes) :
    parseSimple config read f fid out = parseSimple config read' f fid out := by
  have hcount : read efSigCount = read' efSigCount := h.read_eq (by decide)
  have hstatus : read efPwPriv = read' efPwPriv := h.read_eq (by decide)
  cases f with
  | secTpl => simp only [parseSimple, parseSecTpl, hcount]
  | algoinfo => exact parseAlgoinfo_same h (hfid rfl) out
  | pwStatus => simp only [parseSimple, parsePwStatus, hstatus]
  | fp => exact parseTrium_same h 20 (by decide) _
  | cafp => exact parseTrium_same h 20 (by decide) _
  | ts => exact parseTrium_same h 4 (by decide) _
  | keyinfo => exact parseKeyinfo_same h out
  | chData | chCert | gfm | appData | discreteDo | pivDiscovery => rfl

end Same

/-- Objects that read the same are put together the same. -/
theorem parseDo_same {function function' : DoFunction → ℕ → Bytes → Bytes} (single : Bool)
    {fids : List ℕ}
    (hread : ∀ fid ∈ fids, ∀ ef, fileSearchByFid fid = some ef → ef.data = .flash →
      read fid = read' fid)
    (hfunction : ∀ fid ∈ fids, ∀ ef, fileSearchByFid fid = some ef → ∀ f, ef.data = .function f →
      ∀ out, function f fid out = function' f fid out) (out : Bytes) :
    parseDo config read function single fids out =
      parseDo config read' function' single fids out := by
  induction fids generalizing out with
  | nil => rfl
  | cons fid fids ih =>
    have ih := ih (fun fid hfid ↦ hread fid (mem_cons_of_mem _ hfid))
      fun fid hfid ↦ hfunction fid (mem_cons_of_mem _ hfid)
    rw [parseDo, parseDo]
    rcases hef : fileSearchByFid fid with - | ef
    · exact ih out
    have hread := hread fid (mem_cons_self ..) ef hef
    have hfunction := hfunction fid (mem_cons_self ..) ef hef
    obtain rfl := fileSearchByFid_eq_some.mp hef
    dsimp only
    have hfile : (∀ f, ef.data ≠ .function f) →
        parseFile config read single ef out = parseFile config read' single ef out := by
      intro hdata
      have hcontent : entryContent config read ef = entryContent config read' ef := by
        rw [entryContent, entryContent]
        cases hkind : ef.data with
        | flash => exact hread hkind
        | null | constant | function => rfl
      rw [parseFile, parseFile, hcontent]
    rcases hkind : ef.data with - | - | f | c
    case function =>
      dsimp only
      rw [hfunction f hkind, ih]
    all_goals
      rw [hkind] at hfile
      rw [hfile (by simp)]
      rcases parseFile config read' single ef out with - | out
      · rfl
      · exact ih out

/-! ### The table -/

theorem OpenpgpEf.mem_entries (ef : OpenpgpEf) :
    ef.toFileEntry ∈ openpgpFileEntries ∨ ef.type = .internalEf ∧ ef.data = .flash := by
  have hfound := ef.found
  unfold searchEntry at hfound
  split_ifs at hfound
  · exact .inr (Option.some.inj hfound ▸ ⟨rfl, rfl⟩)
  · exact .inr (Option.some.inj hfound ▸ ⟨rfl, rfl⟩)
  · exact .inl (mem_of_find?_eq_some hfound)

variable {ef : OpenpgpEf} {ram' : CardRam}

theorem algoinfo_fid (h : ef.data = .function .algoinfo) :
    ef.fid ∈ [efAlgoSig, efAlgoDec, efAlgoAut, efAlgoInfo] := by
  have hall : ∀ e ∈ openpgpFileEntries, e.data = .function .algoinfo →
      e.fid ∈ [efAlgoSig, efAlgoDec, efAlgoAut, efAlgoInfo] := by decide +kernel
  rcases ef.mem_entries with hmem | ⟨-, hflash⟩
  · exact hall _ hmem h
  · rw [hflash] at h
    cases h

/-- A file that others than the applet may read holds no secret. -/
theorem not_secret_of_readable (htype : ef.type ≠ .internalEf) {auth : Bool}
    (h : fileAuthenticateAction auth ef aclOpReadSearch = true) :
    ef.fid ∉ secretFids ++ [efPrivDo3, efPrivDo4] := by
  have hall : ∀ e ∈ openpgpFileEntries, e.type ≠ .internalEf →
      e.fid ∈ secretFids ++ [efPrivDo3, efPrivDo4] → e.acl.getD aclOpReadSearch 0 = 0xff := by
    decide +kernel
  intro hsecret
  have hmem := ef.mem_entries.resolve_right fun h ↦ htype h.1
  rw [fileAuthenticateAction, hall _ hmem htype hsecret] at h
  cases h

section Same

variable (h : SameButSecrets ram read read')

include h

theorem parseConstructed_same {function function' : DoFunction → ℕ → Bytes → Bytes} (tag : ℕ)
    {fids : List ℕ} (hfids : ∀ fid ∈ fids, fid ∉ secretFids ++ [efPrivDo3, efPrivDo4])
    (hfunction : ∀ (ef : OpenpgpEf) (f : DoFunction), ef.data = .function f →
      ∀ out, function f ef.fid out = function' f ef.fid out) (out : Bytes) :
    parseConstructed tag (parseDo config read function false fids) out =
      parseConstructed tag (parseDo config read' function' false fids) out := by
  rw [parseConstructed, parseConstructed, parseDo_same]
  · exact fun fid hfid _ _ _ ↦ h.read_eq (hfids fid hfid)
  · intro fid hfid ef hef f hf
    obtain rfl := fileSearchByFid_eq_some.mp hef
    exact hfunction ef f hf

theorem parseSimple_same_ef (ef : OpenpgpEf) (f : DoFunction) (hf : ef.data = .function f)
    (out : Bytes) : parseSimple config read f ef.fid out = parseSimple config read' f ef.fid out :=
  parseSimple_same h (fun hinfo ↦ algoinfo_fid (hinfo ▸ hf)) out

theorem parseDiscreteDo_same (out : Bytes) :
    parseDiscreteDo config read out = parseDiscreteDo config read' out :=
  parseConstructed_same h efDiscreteDo (by decide) (parseSimple_same_ef h) out

theorem parseChData_same (out : Bytes) :
    parseChData config read out = parseChData config read' out :=
  parseConstructed_same h efChData (by decide) (parseSimple_same_ef h) out

theorem parseNested_same (ef : OpenpgpEf) (f : DoFunction) (hf : ef.data = .function f)
    (out : Bytes) : parseNested config read f ef.fid out = parseNested config read' f ef.fid out := by
  rw [parseNested, parseNested, parseDiscreteDo_same h, parseSimple_same_ef h ef f hf]

theorem parseAppData_same (out : Bytes) :
    parseAppData config read out = parseAppData config read' out :=
  parseConstructed_same h efAppData (by decide) (parseNested_same h) out

/-- So is what a function composes. -/
theorem parseFunction_same (ef : OpenpgpEf) (f : DoFunction) (hf : ef.data = .function f)
    (out : Bytes) :
    parseFunction config read f ef.fid out = parseFunction config read' f ef.fid out := by
  have hsimple : parseSimple config read f ef.fid out = parseSimple config read' f ef.fid out :=
    parseSimple_same_ef h ef f hf out
  cases f with
  | chData => exact parseChData_same h out
  | discreteDo => exact parseDiscreteDo_same h out
  | appData => exact parseAppData_same h out
  | chCert => rfl
  | secTpl | gfm | algoinfo | pwStatus | fp | cafp | ts | keyinfo | pivDiscovery => exact hsimple

end Same

/-! ### The GET commands -/

variable {request : GetRequest}

/-- A file that GET DATA answers with. -/
theorem getDataCheck_ok (h : getDataCheck ram request = .ok ef) :
    ef.fid = request.fid ∧ ¬IsSecret ram ef.fid := by
  unfold getDataCheck at h
  by_cases hnc : request.nc > 0
  · rw [if_pos hnc] at h
    cases h
  rw [if_neg hnc] at h
  rcases hef : fileSearchByFid request.fid with - | entry
  · rw [hef] at h
    cases h
  rw [hef] at h
  dsimp only at h
  have hfid := fileSearchByFid_eq_some.mp hef
  split_ifs at h with hinternal hdo3 hpw2 hdo4 hpw3 hauth <;> cases h
  · refine ⟨hfid, ?_⟩
    rw [hfid, hdo3]
    rintro (hmem | ⟨-, hpw2'⟩ | ⟨hne, -⟩)
    · exact absurd hmem (by decide)
    · rw [hpw2] at hpw2'
      cases hpw2'
    · exact absurd hne (by decide)
  · refine ⟨hfid, ?_⟩
    rw [hfid, hdo4]
    rintro (hmem | ⟨hne, -⟩ | ⟨-, hpw3'⟩)
    · exact absurd hmem (by decide)
    · exact absurd hne (by decide)
    · rw [hpw3] at hpw3'
      cases hpw3'
  · refine ⟨hfid, not_isSecret ?_⟩
    by_cases htype : ef.type = .internalEf
    · -- of the internal files there are left the two private objects that all may read
      have hdo : request.fid ∈ [efPrivDo1, efPrivDo2, efPrivDo3, efPrivDo4] := by
        by_contra hnot
        exact hinternal (.inr ⟨htype, hnot⟩)
      rw [hfid]
      simp only [mem_cons, not_mem_nil, or_false, hdo3, hdo4] at hdo
      rcases hdo with hdo | hdo <;> rw [hdo] <;> decide
    · exact not_secret_of_readable htype hauth

/-- The memory after a GET command: only what is selected, and how it is answered, is another. -/
def SameRights (ram ram' : CardRam) : Prop :=
  ∃ cur isGpg, ram' = { ram with currentEF := cur, isGpg := isGpg }

theorem SameRights.refl (ram : CardRam) : SameRights ram ram :=
  ⟨_, _, rfl⟩

theorem SameRights.trans {ram ram'' : CardRam} (h : SameRights ram ram')
    (h' : SameRights ram' ram'') : SameRights ram ram'' := by
  obtain ⟨_, _, rfl⟩ := h
  obtain ⟨_, _, rfl⟩ := h'
  exact ⟨_, _, rfl⟩

theorem SameRights.isSecret_iff {ram : CardRam} (h : SameRights ram ram') (fid : ℕ) :
    IsSecret ram' fid ↔ IsSecret ram fid := by
  obtain ⟨_, _, rfl⟩ := h
  rfl

theorem selectFile_rights (ram : CardRam) (ef : OpenpgpEf) : SameRights ram (ram.selectFile ef) := by
  rw [CardRam.selectFile]
  split_ifs <;> exact ⟨_, _, rfl⟩

/-- The file that is answered is no secret, and the rights stay. -/
theorem getDataFile_not_secret {file : OpenpgpEf} (hcheck : getDataCheck ram request = .ok ef)
    (h : getDataFile ram request.fid ef = some (file, ram')) :
    ¬IsSecret ram file.fid ∧ SameRights ram ram' := by
  obtain ⟨hfid, hsecret⟩ := getDataCheck_ok hcheck
  unfold getDataFile at h
  by_cases hcert : request.fid = efChCert
  · rw [if_pos hcert] at h
    rcases hcur : ram.selectedCert with - | cur
    · rw [hcur] at h
      obtain ⟨ch, hch, hfile⟩ := Option.map_eq_some_iff.mp h
      cases hfile
      rw [fileSearchByFid_eq_some.mp hch]
      exact ⟨not_isSecret (by decide), selectFile_rights ram _⟩
    · rw [hcur] at h
      cases h
      have hrange := of_decide_eq_true (Option.filter_eq_some_iff.mp hcur).2
      have hall : file.fid ∈ [efCh1, efCh2, efCh3] := by
        simp only [efCh1, efCh2, efCh3, mem_cons, not_mem_nil, or_false] at hrange ⊢
        omega
      refine ⟨not_isSecret ?_, selectFile_rights ram _⟩
      revert hall
      generalize file.fid = fid
      revert fid
      decide
  · rw [if_neg hcert] at h
    rcases hcur : ram.currentEF with - | cur
    · rw [hcur] at h
      cases h
      exact ⟨hsecret, selectFile_rights ram _⟩
    · rw [hcur] at h
      dsimp only at h
      split_ifs at h with hsame <;> cases h
      · exact ⟨by rwa [hsame, ← hfid], .refl ram⟩
      · exact ⟨hsecret, selectFile_rights ram _⟩

theorem SameButSecrets.of_rights (h : SameButSecrets ram read read') (hrights : SameRights ram ram') :
    SameButSecrets ram' read read' :=
  ⟨fun fid hfid ↦ h.same fid fun hsecret ↦ hfid ((hrights.isSecret_iff fid).mpr hsecret), h.present⟩

theorem answerFile_rights (config : CardConfig) (read : Contents) (request : GetRequest)
    (ef : OpenpgpEf) (ram : CardRam) :
    SameRights ram (answerFile config read request ef ram).2 := by
  unfold answerFile
  dsimp only
  split_ifs
  all_goals first | exact ⟨_, _, rfl⟩ | split <;> exact ⟨_, _, rfl⟩

theorem cmdGetData_rights (config : CardConfig) (read : Contents) (request : GetRequest)
    (ram : CardRam) : SameRights ram (cmdGetData config read request ram).2 := by
  unfold cmdGetData
  rcases hcheck : getDataCheck ram request with sw | ef
  · exact .refl ram
  dsimp only
  rcases hfile : getDataFile ram request.fid ef with - | ⟨file, ram'⟩
  · exact .refl ram
  · exact (getDataFile_not_secret hcheck hfile).2.trans
      (answerFile_rights config read request file ram')

section Same

variable (h : SameButSecrets ram read read')

include h

/-- **A file that is no secret** is answered alike. -/
theorem answerFile_same (request : GetRequest) {ef : OpenpgpEf} (hef : ¬IsSecret ram ef.fid)
    (ram' : CardRam) :
    answerFile config read request ef ram' = answerFile config read' request ef ram' := by
  have hread : read ef.fid = read' ef.fid := h.same _ hef
  have hcontent : entryContent config read ef = entryContent config read' ef := by
    rw [entryContent, entryContent, hread]
  have hout : parseDo config read (parseFunction config read) true [ef.fid] [] =
      parseDo config read' (parseFunction config read') true [ef.fid] [] := by
    refine parseDo_same true ?_ ?_ []
    · intro fid hfid _ _ _
      rw [mem_singleton.mp hfid, hread]
    · intro fid hfid entry hentry f hf out
      obtain rfl := fileSearchByFid_eq_some.mp hentry
      exact parseFunction_same h entry f hf out
  unfold answerFile
  rw [hread, hcontent, hout]

theorem cmdGetData_same (request : GetRequest) :
    cmdGetData config read request ram = cmdGetData config read' request ram := by
  unfold cmdGetData
  rcases hcheck : getDataCheck ram request with sw | ef
  · rfl
  dsimp only
  rcases hfile : getDataFile ram request.fid ef with - | ⟨file, ram'⟩
  · rfl
  · exact answerFile_same h request (getDataFile_not_secret hcheck hfile).1 ram'

theorem cmdGetNextData_same (request : GetRequest) :
    cmdGetNextData config read request ram = cmdGetNextData config read' request ram := by
  unfold cmdGetNextData
  rcases ram.currentEF with - | cur
  · rfl
  dsimp only
  split_ifs
  · rfl
  rcases fileSearchByFid (cur.fid + 1) with - | ef
  · rfl
  · exact cmdGetData_same (h.of_rights (selectFile_rights ram ef)) request

end Same

theorem bulkGetData_same (h : SameButSecrets ram read read') (behind : Bytes) (fuel : ℕ)
    (data : Bytes) :
    bulkGetData config read behind fuel data ram = bulkGetData config read' behind fuel data ram := by
  induction fuel generalizing data ram with
  | zero => rfl
  | succ fuel ih =>
    rcases data with - | ⟨p, rest⟩
    · rfl
    · rw [bulkGetData, bulkGetData, cmdGetData_same h]
      dsimp only
      rw [ih (h.of_rights (cmdGetData_rights config read' _ ram))]

theorem bulkGetData_rights (config : CardConfig) (read : Contents) (behind : Bytes) (fuel : ℕ)
    (data : Bytes) (ram : CardRam) :
    SameRights ram (bulkGetData config read behind fuel data ram).2 := by
  induction fuel generalizing data ram with
  | zero => exact .refl ram
  | succ fuel ih =>
    rcases data with - | ⟨p, rest⟩
    · exact .refl ram
    · rw [bulkGetData]
      exact (cmdGetData_rights config read _ ram).trans (ih _ _)

/-! ### A run -/

/-- The answers to a sequence of commands. -/
def readRun (config : CardConfig) (read : Contents) : CardRam → List ReadCommand → List Response
  | _, [] => []
  | ram, cmd :: cmds =>
    (cmd.run config read ram).1 :: readRun config read (cmd.run config read ram).2 cmds

theorem ReadCommand.run_same (h : SameButSecrets ram read read') (cmd : ReadCommand) :
    cmd.run config read ram = cmd.run config read' ram := by
  cases cmd with
  | getData request => exact cmdGetData_same h request
  | getNextData request => exact cmdGetNextData_same h request
  | getBulkData data behind =>
    rw [run, run, cmdGetBulkData, cmdGetBulkData, bulkGetData_same h]
  | selectData => rfl

/-- No command that reads changes the rights. -/
theorem ReadCommand.run_rights (config : CardConfig) (read : Contents) (ram : CardRam)
    (cmd : ReadCommand) : SameRights ram (cmd.run config read ram).2 := by
  cases cmd with
  | getData request => exact cmdGetData_rights config read request ram
  | getNextData request =>
    rw [run, cmdGetNextData]
    rcases ram.currentEF with - | cur
    · exact .refl ram
    dsimp only
    split_ifs
    · exact .refl ram
    rcases fileSearchByFid (cur.fid + 1) with - | ef
    · exact .refl ram
    · exact (selectFile_rights ram ef).trans (cmdGetData_rights config read request _)
  | getBulkData data behind =>
    rw [run, cmdGetBulkData]
    split_ifs
    · exact .refl ram
    · exact bulkGetData_rights config read behind _ data ram
  | selectData p1 p2 data =>
    show SameRights ram (cmdSelectData p1 p2 data ram).2
    unfold cmdSelectData
    repeat' split
    all_goals first | exact .refl ram | exact selectFile_rights ram _

/-- **Nothing of a secret is told**, by any sequence of GET commands. -/
theorem readRun_same (h : SameButSecrets ram read read') (cmds : List ReadCommand) :
    readRun config read ram cmds = readRun config read' ram cmds := by
  induction cmds generalizing ram with
  | nil => rfl
  | cons cmd cmds ih =>
    rw [readRun, readRun, cmd.run_same h, ih (h.of_rights (cmd.run_rights config read' ram))]

end PicoAll.Openpgp

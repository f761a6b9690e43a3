import PicoAll.Lib.BigEndian

/-!
# The file table of the OpenPGP applet

`files.c`: one table with the data objects of OpenPGP, the records that the applet keeps for itself
and the files of the PIV applet. A file is found by its id, of two entries with one id the first; what
may be done with it is in its access conditions.
-/

namespace PicoAll.Openpgp

open BigEndian

/-! ### File ids -/

abbrev efPw1 : ℕ := 0x1081

abbrev efRc : ℕ := 0x1082

abbrev efPw3 : ℕ := 0x1083

abbrev efAlgoPriv1 : ℕ := 0x10c1

abbrev efAlgoPriv2 : ℕ := 0x10c2

abbrev efAlgoPriv3 : ℕ := 0x10c3

abbrev efPwPriv : ℕ := 0x10c4

abbrev efPwRetries : ℕ := 0x10c5

abbrev efPkSig : ℕ := 0x10d1

abbrev efPkDec : ℕ := 0x10d2

abbrev efPkAut : ℕ := 0x10d3

abbrev efDek : ℕ := 0x1099

abbrev efDekPw1 : ℕ := 0x109a

abbrev efDekRc : ℕ := 0x109b

abbrev efDekPw3 : ℕ := 0x109c

abbrev efDekPwpiv : ℕ := 0x109d

abbrev efCh1 : ℕ := 0x1f21

abbrev efCh2 : ℕ := 0x1f22

abbrev efCh3 : ℕ := 0x1f23

abbrev efFullAid : ℕ := 0x004f

abbrev efChName : ℕ := 0x005b

abbrev efLoginData : ℕ := 0x005e

abbrev efChData : ℕ := 0x0065

abbrev efAppData : ℕ := 0x006e

abbrev efDiscreteDo : ℕ := 0x0073

abbrev efSecTpl : ℕ := 0x007a

abbrev efSigCount : ℕ := 0x0093

abbrev efExtCap : ℕ := 0x00c0

abbrev efAlgoSig : ℕ := 0x00c1

abbrev efAlgoDec : ℕ := 0x00c2

abbrev efAlgoAut : ℕ := 0x00c3

abbrev efPwStatus : ℕ := 0x00c4

abbrev efFp : ℕ := 0x00c5

abbrev efCaFp : ℕ := 0x00c6

abbrev efFpSig : ℕ := 0x00c7

abbrev efFpDec : ℕ := 0x00c8

abbrev efFpAut : ℕ := 0x00c9

abbrev efFpCa1 : ℕ := 0x00ca

abbrev efFpCa2 : ℕ := 0x00cb

abbrev efFpCa3 : ℕ := 0x00cc

abbrev efTsAll : ℕ := 0x00cd

abbrev efTsSig : ℕ := 0x00ce

abbrev efTsDec : ℕ := 0x00cf

abbrev efTsAut : ℕ := 0x00d0

abbrev efResetCode : ℕ := 0x00d3

abbrev efAesKey : ℕ := 0x00d5

abbrev efUifSig : ℕ := 0x00d6

abbrev efUifDec : ℕ := 0x00d7

abbrev efUifAut : ℕ := 0x00d8

abbrev efKeyInfo : ℕ := 0x00de

abbrev efKdf : ℕ := 0x00f9

abbrev efAlgoInfo : ℕ := 0x00fa

abbrev efLangPref : ℕ := 0x5f2d

abbrev efSex : ℕ := 0x5f35

abbrev efUriUrl : ℕ := 0x5f50

abbrev efHistBytes : ℕ := 0x5f52

abbrev efChCert : ℕ := 0x7f21

abbrev efExlenInfo : ℕ := 0x7f66

abbrev efGfm : ℕ := 0x7f74

abbrev efPrivDo1 : ℕ := 0x0101

abbrev efPrivDo2 : ℕ := 0x0102

abbrev efPrivDo3 : ℕ := 0x0103

abbrev efPrivDo4 : ℕ := 0x0104

abbrev efPivPin : ℕ := 0x1184

abbrev efPivPuk : ℕ := 0x1185

abbrev efPivDiscovery : ℕ := 0x007e

/-- `EF_PIV_KEY_AUTHENTICATION` to `EF_PIV_KEY_RETIRED20`. -/
def pivKeyFids : List ℕ :=
  [0x9a, 0x9b, 0x9c, 0x9d, 0x9e, 0x82, 0x83, 0x84, 0x85, 0x86, 0x87, 0x88, 0x89, 0x8a, 0x8b, 0x8c,
    0x8d, 0x8e, 0x8f, 0x90, 0x91, 0x92, 0x96, 0x94, 0x95]

abbrev efPivKeyAttestation : ℕ := 0x00fb

/-- `EF_PIV_ADMIN_DATA` to `EF_PIV_MSROOTS5`. -/
def pivAdminFids : List ℕ :=
  [0xff00, 0xff01, 0xff10, 0xff11, 0xff12, 0xff13, 0xff14, 0xff15]

/-- `EF_PIV_CAPABILITY` to `EF_PIV_CARD_AUTH`, as the table has them. -/
def pivDataFids : List ℕ :=
  [0xc107, 0xc102, 0xc105, 0xc103, 0xc106, 0xc108, 0xc109, 0xc10a, 0xc10b, 0xc101]

/-- `EF_PIV_KEY_HISTORY` to `EF_PIV_RETIRED20`, as the table has them. -/
def pivMoreDataFids : List ℕ :=
  [0xc10c, 0xc121, 0x7f61, 0xc122, 0xc123, 0xc10d, 0xc10e, 0xc10f, 0xc110, 0xc111, 0xc112, 0xc113,
    0xc114, 0xc115, 0xc116, 0xc117, 0xc118, 0xc119, 0xc11a, 0xc11b, 0xc11c, 0xc11d, 0xc11e, 0xc11f,
    0xc120]

abbrev efMeta : ℕ := 0xe010

abbrev efVaultKey : ℕ := 0xce03

abbrev efPhy : ℕ := 0xe020

abbrev efDevConf : ℕ := 0x1122

/-! ### Entries -/

/-- `FILE_TYPE_DF`, `FILE_TYPE_WORKING_EF`, `FILE_TYPE_INTERNAL_EF`. -/
inductive EntryType where
  | df
  | workingEf
  | internalEf
  deriving DecidableEq

/-- The functions of `do.c`, and `piv_parse_discovery`. -/
inductive DoFunction where
  | chData
  | secTpl
  | chCert
  | gfm
  | algoinfo
  | pwStatus
  | fp
  | cafp
  | ts
  | keyinfo
  | appData
  | discreteDo
  | pivDiscovery
  deriving DecidableEq

/-- The contents that are in the program. -/
inductive DoConstant where
  /-- `openpgp_aid_full`. -/
  | openpgpAidFull
  /-- `historical_bytes`. -/
  | historicalBytes
  /-- `exlen_info`. -/
  | exlenInfo
  /-- `extended_capabilities`. -/
  | extendedCapabilities
  deriving DecidableEq

/-- What `data` of an entry is, with `FILE_DATA_FLASH` and `FILE_DATA_FUNC`. -/
inductive EntryData where
  /-- Nothing. -/
  | null
  | flash
  /-- A function that makes the content. -/
  | function (f : DoFunction)
  | constant (c : DoConstant)
  deriving DecidableEq

def aclNone : List UInt8 := [0xff, 0xff, 0xff, 0xff, 0xff, 0xff, 0xff]

def aclRo : List UInt8 := [0xff, 0xff, 0xff, 0xff, 0xff, 0xff, 0x00]

def aclRWp : List UInt8 := [0xff, 0xff, 0xff, 0xff, 0x90, 0x90, 0x00]

def aclWp : List UInt8 := [0xff, 0xff, 0xff, 0xff, 0x90, 0x90, 0xff]

/-- `file_entry_t`. -/
structure FileEntry where
  /-- The id. -/
  fid : ℕ
  type : EntryType
  data : EntryData
  /-- The access conditions. -/
  acl : List UInt8
  deriving DecidableEq

/-- `openpgp_file_entries`, up to `file_last`. -/
def openpgpFileEntries : List FileEntry :=
  [⟨0x3f00, .df, .null, aclNone⟩,
    ⟨efFullAid, .workingEf, .constant .openpgpAidFull, aclRo⟩,
    ⟨efChName, .workingEf, .flash, aclRWp⟩,
    ⟨efLoginData, .workingEf, .flash, aclRWp⟩,
    ⟨efLangPref, .workingEf, .flash, aclRWp⟩,
    ⟨efSex, .workingEf, .flash, aclRWp⟩,
    ⟨efUriUrl, .workingEf, .flash, aclRWp⟩,
    ⟨efHistBytes, .workingEf, .constant .historicalBytes, aclRo⟩,
    ⟨efChData, .workingEf, .function .chData, aclRo⟩,
    ⟨efSecTpl, .workingEf, .function .secTpl, aclRo⟩,
    ⟨efChCert, .workingEf, .function .chCert, aclRWp⟩,
    ⟨efExlenInfo, .workingEf, .constant .exlenInfo, aclRo⟩,
    ⟨efGfm, .workingEf, .function .gfm, aclRo⟩,
    ⟨efSigCount, .workingEf, .flash, aclRo⟩,
    ⟨efExtCap, .workingEf, .constant .extendedCapabilities, aclRo⟩,
    ⟨efAlgoSig, .workingEf, .function .algoinfo, aclRWp⟩,
    ⟨efAlgoDec, .workingEf, .function .algoinfo, aclRWp⟩,
    ⟨efAlgoAut, .workingEf, .function .algoinfo, aclRWp⟩,
    ⟨efPwStatus, .workingEf, .function .pwStatus, aclRWp⟩,
    ⟨efFp, .workingEf, .function .fp, aclRo⟩,
    ⟨efFpSig, .workingEf, .flash, aclRWp⟩,
    ⟨efFpDec, .workingEf, .flash, aclRWp⟩,
    ⟨efFpAut, .workingEf, .flash, aclRWp⟩,
    ⟨efCaFp, .workingEf, .function .cafp, aclRo⟩,
    ⟨efFpCa1, .workingEf, .flash, aclRWp⟩,
    ⟨efFpCa2, .workingEf, .flash, aclRWp⟩,
    ⟨efFpCa3, .workingEf, .flash, aclRWp⟩,
    ⟨efTsAll, .workingEf, .function .ts, aclRo⟩,
    ⟨efTsSig, .workingEf, .flash, aclRWp⟩,
    ⟨efTsDec, .workingEf, .flash, aclRWp⟩,
    ⟨efTsAut, .workingEf, .flash, aclRWp⟩,
    ⟨efResetCode, .workingEf, .flash, aclWp⟩,
    ⟨efUifSig, .workingEf, .flash, aclRWp⟩,
    ⟨efUifDec, .workingEf, .flash, aclRWp⟩,
    ⟨efUifAut, .workingEf, .flash, aclRWp⟩,
    ⟨efKeyInfo, .workingEf, .function .keyinfo, aclRo⟩,
    ⟨efAlgoInfo, .workingEf, .function .algoinfo, aclRo⟩,
    ⟨efAppData, .workingEf, .function .appData, aclRo⟩,
    ⟨efDiscreteDo, .workingEf, .function .discreteDo, aclRo⟩,
    ⟨efPw1, .internalEf, .flash, aclWp⟩,
    ⟨efRc, .internalEf, .flash, aclWp⟩,
    ⟨efPw3, .internalEf, .flash, aclWp⟩,
    ⟨efAlgoPriv1, .internalEf, .flash, aclRWp⟩,
    ⟨efAlgoPriv2, .internalEf, .flash, aclRWp⟩,
    ⟨efAlgoPriv3, .internalEf, .flash, aclRWp⟩,
    ⟨efPkSig, .internalEf, .flash, aclWp⟩,
    ⟨efPkDec, .internalEf, .flash, aclWp⟩,
    ⟨efPkAut, .internalEf, .flash, aclWp⟩,
    -- `EF_PB_SIG`, `EF_PB_DEC`, `EF_PB_AUT`
    ⟨0x10d4, .internalEf, .flash, aclRWp⟩,
    ⟨0x10d5, .internalEf, .flash, aclRWp⟩,
    ⟨0x10d6, .internalEf, .flash, aclRWp⟩,
    ⟨efPwPriv, .internalEf, .flash, aclRWp⟩,
    ⟨efDek, .internalEf, .flash, aclNone⟩,
    ⟨efKdf, .workingEf, .flash, aclRWp⟩,
    ⟨efCh1, .internalEf, .flash, aclNone⟩,
    ⟨efCh2, .internalEf, .flash, aclNone⟩,
    ⟨efCh3, .internalEf, .flash, aclNone⟩,
    ⟨efDekPw1, .internalEf, .flash, aclNone⟩,
    ⟨efDekRc, .internalEf, .flash, aclNone⟩,
    ⟨efDekPw3, .internalEf, .flash, aclNone⟩,
    ⟨efAesKey, .internalEf, .flash, aclNone⟩] ++
  pivAdminFids.map (fun fid ↦ ⟨fid, .internalEf, .flash, aclRWp⟩) ++
  pivKeyFids.map (fun fid ↦ ⟨fid, .workingEf, .flash, aclWp⟩) ++
  [⟨efPivKeyAttestation, .internalEf, .flash, aclWp⟩] ++
  pivDataFids.map (fun fid ↦ ⟨fid, .workingEf, .flash, aclRWp⟩) ++
  [⟨efPivDiscovery, .workingEf, .function .pivDiscovery, aclRWp⟩] ++
  pivMoreDataFids.map (fun fid ↦ ⟨fid, .workingEf, .flash, aclRWp⟩) ++
  [⟨efPivPin, .internalEf, .flash, aclWp⟩,
    ⟨efPivPuk, .internalEf, .flash, aclWp⟩,
    ⟨efMeta, .internalEf, .flash, aclNone⟩,
    ⟨efPwRetries, .internalEf, .flash, aclRWp⟩,
    ⟨efPrivDo1, .internalEf, .flash, aclRWp⟩,
    ⟨efPrivDo2, .internalEf, .flash, aclRWp⟩,
    ⟨efPrivDo3, .internalEf, .flash, aclWp⟩,
    ⟨efPrivDo4, .internalEf, .flash, aclWp⟩,
    ⟨efPwRetries, .internalEf, .flash, aclRWp⟩,
    ⟨efPwStatus, .internalEf, .flash, aclRWp⟩,
    ⟨efDekPwpiv, .internalEf, .flash, aclNone⟩,
    ⟨efVaultKey, .internalEf, .flash, aclNone⟩,
    ⟨0x0000, .workingEf, .null, aclRo⟩]

/-! ### Finding a file -/

/-- The entry that `file_search_by_fid` finds under `SPECIFY_EF`. The file `EF_PHY` and the one of the
management applet are found from everywhere. -/
def searchEntry (fid : ℕ) : Option FileEntry :=
  if fid = efPhy then some ⟨efPhy, .internalEf, .flash, [0xff, 0, 0, 0, 0, 0, 0]⟩
  else if fid = efDevConf then some ⟨efDevConf, .internalEf, .flash, aclNone⟩
  else openpgpFileEntries.find? fun e ↦ e.fid ≠ 0 ∧ e.fid = fid ∧ e.type ≠ .df

theorem searchEntry_fid {fid : ℕ} {e : FileEntry} (h : searchEntry fid = some e) : e.fid = fid := by
  rw [searchEntry] at h
  split_ifs at h with hphy hdev
  · rw [← Option.some.inj h, hphy]
  · rw [← Option.some.inj h, hdev]
  · have hfound := List.find?_some h
    exact (of_decide_eq_true hfound).2.1

/-- A file that can be found: `file_t`. -/
structure OpenpgpEf extends FileEntry where
  /-- It is the one that is found under its id. -/
  found : searchEntry fid = some toFileEntry
  deriving DecidableEq

/-- `file_search_by_fid`, under `SPECIFY_EF`. -/
def fileSearchByFid (fid : ℕ) : Option OpenpgpEf :=
  (searchEntry fid).pmap (fun e h ↦ ⟨e, h⟩) fun _ h ↦ (searchEntry_fid h).symm ▸ h

@[simp]
theorem fileSearchByFid_eq_some {fid : ℕ} {ef : OpenpgpEf} :
    fileSearchByFid fid = some ef ↔ ef.fid = fid := by
  rw [fileSearchByFid, Option.pmap_eq_some_iff]
  constructor
  · rintro ⟨e, -, h, rfl⟩
    exact searchEntry_fid h
  · rintro rfl
    exact ⟨ef.toFileEntry, ef.found, ef.found, rfl⟩

/-- A file is known by its id. -/
theorem OpenpgpEf.eq_of_fid {ef ef' : OpenpgpEf} (h : ef.fid = ef'.fid) : ef = ef' := by
  have hef := fileSearchByFid_eq_some.mpr h
  rw [fileSearchByFid_eq_some.mpr rfl] at hef
  exact (Option.some.inj hef).symm

/-! ### Access conditions -/

abbrev aclOpUpdateErase : ℕ := 5

abbrev aclOpReadSearch : ℕ := 6

def fileAuthenticateAction (isUserAuthenticated : Bool) (ef : OpenpgpEf) (op : ℕ) : Bool :=
  let acl := ef.acl.getD op 0
  if acl = 0 then true
  else if acl = 0xff then false
  else if acl = 0x90 ∨ acl &&& 0x9f = 0x10 then isUserAuthenticated
  else false

end PicoAll.Openpgp

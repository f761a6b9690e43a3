import PicoAll.Fs.Tlv
import PicoAll.Openpgp.Pin

/-!
# Reading the data objects

`do.c`, `cmd_get_data.c`, `cmd_select_data.c`: the content of a data object is that of its file, a
constant, or made by a function of other objects. A response is built up in one buffer; the functions
take what is in it and give it back longer.
-/

namespace PicoAll.Openpgp

open BigEndian

/-- What the contents depend on beside the files. -/
structure CardConfig where
  /-- `pico_serial.id`, the first four bytes. -/
  serial : Bytes
  /-- `MBEDTLS_EDDSA_C`. -/
  eddsa : Bool

/-- The contents in the flash, under their file ids. -/
abbrev Contents := ℕ → Option Bytes

/-! ### Algorithm attributes -/

abbrev algoRsa : UInt8 := 0x01

abbrev algoEcdh : UInt8 := 0x12

abbrev algoEcdsa : UInt8 := 0x13

abbrev algoEddsa : UInt8 := 0x16

abbrev openpgpMaxAlgorithmAttrSize : ℕ := 16

/-- `algorithm_attr_rsa1k` to `algorithm_attr_rsa4k`. -/
def algorithmAttrRsa (modulusBits : ℕ) : Bytes :=
  algoRsa :: beBytes 2 modulusBits ++ [0x00, 0x20, 0x00]

/-- `algorithm_attr_p256k1` to `algorithm_attr_bp512r1`. -/
def algorithmAttrEcdsa : List Bytes :=
  [[algoEcdsa, 0x2b, 0x81, 0x04, 0x00, 0x0a],
    [algoEcdsa, 0x2a, 0x86, 0x48, 0xce, 0x3d, 0x03, 0x01, 0x07],
    [algoEcdsa, 0x2b, 0x81, 0x04, 0x00, 0x22],
    [algoEcdsa, 0x2b, 0x81, 0x04, 0x00, 0x23],
    [algoEcdsa, 0x2b, 0x24, 0x03, 0x03, 0x02, 0x08, 0x01, 0x01, 0x07],
    [algoEcdsa, 0x2b, 0x24, 0x03, 0x03, 0x02, 0x08, 0x01, 0x01, 0x0b],
    [algoEcdsa, 0x2b, 0x24, 0x03, 0x03, 0x02, 0x08, 0x01, 0x01, 0x0d]]

/-- `algorithm_attr_cv25519`, `algorithm_attr_x448`. -/
def algorithmAttrEcdh : List Bytes :=
  [[algoEcdh, 0x2b, 0x06, 0x01, 0x04, 0x01, 0x97, 0x55, 0x01, 0x05, 0x01],
    [algoEcdh, 0x2b, 0x65, 0x6f]]

variable (config : CardConfig) (read : Contents) (request : GetRequest) (out : Bytes)
  (ram : CardRam)

/-- `algorithm_attr_ed25519`, `algorithm_attr_ed448`. -/
def algorithmAttrEddsa : List Bytes :=
  if config.eddsa then
    [[algoEddsa, 0x2b, 0x06, 0x01, 0x04, 0x01, 0xda, 0x47, 0x0f, 0x01], [algoEddsa, 0x2b, 0x65, 0x71]]
  else
    []

/-- `get_ec_group_id_from_attr`, as far as a group is found. -/
def ecGroupKnown (oid : Bytes) : Bool :=
  (algorithmAttrEcdsa ++ algorithmAttrEcdh ++ algorithmAttrEddsa config).any (·.tail = oid)

/-- `openpgp_algorithm_attr_supported`. -/
def algorithmAttrSupported (algo : Bytes) : Bool :=
  if algo.length < 2 ∨ algo.length > openpgpMaxAlgorithmAttrSize then false
  else if algo.headD 0 = algoRsa then
    [1024, 2048, 3072, 4096].any fun bits ↦ algo = algorithmAttrRsa bits
  else if algo.headD 0 = algoEcdh ∨ algo.headD 0 = algoEcdsa ∨ algo.headD 0 = algoEddsa then
    ecGroupKnown config algo.tail
  else false

/-! ### Contents -/

abbrev openpgpMaxDoSize : ℕ := 2036

abbrev openpgpMaxResponseSize : ℕ := 2048

/-- The constants of `files.c`. -/
def DoConstant.content : DoConstant → Bytes
  | openpgpAidFull =>
    [0xd2, 0x76, 0x00, 0x01, 0x24, 0x01, 0x03, 0x04, 0xff, 0xfe] ++ config.serial ++ [0x00, 0x00]
  | historicalBytes => [0x00, 0x31, 0x84, 0x73, 0x80, 0x01, 0xc0, 0x05, 0x90, 0x00]
  | exlenInfo => [0x02, 0x02, 0x07, 0xf6, 0x02, 0x02, 0x07, 0xf6]
  | extendedCapabilities => [0x7f, 0x00, 0x04, 0x00, 0x07, 0xf4, 0x07, 0xf4, 0x00, 0x01]

/-- The content of a file that is not made by a function, if there is `data`. -/
def entryContent (ef : OpenpgpEf) : Option Bytes :=
  match ef.data with
  | .flash => read ef.fid
  | .constant c => some (c.content config)
  | .function _ => some []
  | .null => none

/-! ### `do.c` -/

def responseRemaining : ℕ :=
  openpgpMaxResponseSize - out.length

def encodedLenSize (len : ℕ) : ℕ :=
  if len ≥ 256 then 3 else if len ≥ 128 then 2 else 1

/-- The loop of `fit_tlv_value`. -/
def fitTlvLoop (available tagSize : ℕ) : ℕ → ℕ
  | 0 => 0
  | fitted + 1 =>
    if fitted + 1 + tagSize + encodedLenSize (fitted + 1) > available then
      fitTlvLoop available tagSize fitted
    else
      fitted + 1

def fitTlvValue (len available tagSize : ℕ) : ℕ :=
  if available ≤ tagSize + 1 then 0
  else fitTlvLoop available tagSize (min len (available - tagSize - 1))

/-- The tag of a data object inside another. -/
def tagBytes (fid : ℕ) : Bytes :=
  if fid < 0x0100 then beBytes 1 fid else beBytes 2 fid

/-- The objects of `parse_do` that are not made by a function. `single` is that there is only one. -/
def parseFile (single : Bool) (ef : OpenpgpEf) (out : Bytes) :
    Option Bytes :=
  let content := (entryContent config read ef).getD []
  let dataLen := content.length % 65536
  if single = false ∧ out ≠ [] then
    let tagSize := (tagBytes ef.fid).length
    let fitted := fitTlvValue dataLen (responseRemaining out) tagSize
    if responseRemaining out < tagSize + encodedLenSize fitted then
      none
    else
      some (out ++ tagBytes ef.fid ++ tlvFormatLen fitted ++ content.take fitted)
  else
    some (out ++ content.take (min dataLen (responseRemaining out)))

/-- `parse_trium`: three files, each padded with zeros to a size. -/
def parseTrium (read : Contents) (size : ℕ) : List ℕ → Bytes → Bytes
  | [], out => out
  | fid :: fids, out =>
    let outputLen := min size (responseRemaining out)
    if outputLen = 0 then out
    else
      let content := ((read fid).getD []).take outputLen
      parseTrium read size fids
        (out ++ content ++ List.replicate (outputLen - content.length) 0)

def parseSecTpl : Bytes :=
  let count := ((read efSigCount).getD []).take 3
  out ++ beBytes 1 efSecTpl ++ [5] ++ beBytes 1 efSigCount ++ [3] ++ count ++
    List.replicate (3 - count.length) 0

def parseGfm : Bytes :=
  out ++ beBytes 2 efGfm ++ [3, 0x81, 0x01, 0x20]

/-- Whether `parse_keyinfo` finds a key. -/
def keyPresent (fid : ℕ) : UInt8 :=
  if (read fid).isSome then 0x01 else 0x00

def parseKeyinfo : Bytes :=
  out ++ (if out = [] then [] else beBytes 1 efKeyInfo ++ [6]) ++
    [0x00, keyPresent read efPkSig, 0x01, keyPresent read efPkDec, 0x02, keyPresent read efPkAut]

def parsePwStatus : Bytes :=
  let status := ((read efPwPriv).getD []).take 7
  out ++ (if out = [] then [] else beBytes 1 efPwStatus ++ [7]) ++ status ++
    List.replicate (7 - status.length) 0

def parseAlgo (tag : ℕ) (algo : Bytes) : Bytes :=
  beBytes 1 tag ++ beBytes 1 algo.length ++ algo

/-- What `parse_algoinfo` lists for `EF_ALGO_INFO`. -/
def algoInfoItems : Bytes :=
  let rsaAndEcdsa := [1024, 2048, 3072, 4096].map algorithmAttrRsa ++ algorithmAttrEcdsa
  ((rsaAndEcdsa ++ algorithmAttrEddsa config).map (parseAlgo efAlgoSig) ++
    (rsaAndEcdsa ++ algorithmAttrEcdh).map (parseAlgo efAlgoDec) ++
    (rsaAndEcdsa ++ algorithmAttrEddsa config).map (parseAlgo efAlgoAut)).flatten

/-- `parse_algoinfo`: the attributes of a key, the default ones if there are none. -/
def parseAlgoinfo (fid : ℕ) (out : Bytes) : Bytes :=
  if fid = efAlgoInfo then
    let items := algoInfoItems config
    out ++ beBytes 1 efAlgoInfo ++ [0x82] ++ beBytes 2 items.length ++ items
  else
    match read (0x1000 + fid) with
    | none => out ++ parseAlgo fid (algorithmAttrRsa 2048)
    | some content =>
      let len := min (min content.length openpgpMaxAlgorithmAttrSize) (responseRemaining out)
      if out = [] then
        out ++ content.take len
      else if responseRemaining out < 2 then
        out
      else
        let len := min len (responseRemaining out - 2)
        out ++ beBytes 1 fid ++ beBytes 1 len ++ content.take len

/-- `parse_do`, for the objects inside another that hold no others: an object that does not fit ends
it. -/
def parseDo (config : CardConfig) (read : Contents) (function : DoFunction → ℕ → Bytes → Bytes)
    (single : Bool) : List ℕ → Bytes → Bytes
  | [], out => out
  | fid :: fids, out =>
    match fileSearchByFid fid with
    | none => parseDo config read function single fids out
    | some ef =>
      match ef.data with
      | .function f =>
        if responseRemaining out < 16 then out
        else parseDo config read function single fids (function f ef.fid out)
      | _ =>
        match parseFile config read single ef out with
        | none => out
        | some out => parseDo config read function single fids out

/-- An object with others inside: the tag, and a length of two bytes that is filled in at the end. -/
def parseConstructed (tag : ℕ) (inner : Bytes → Bytes) (out : Bytes) : Bytes :=
  let content := (inner (out ++ beBytes 1 tag ++ [0x82, 0, 0])).drop (out.length + 4)
  out ++ beBytes 1 tag ++ [0x82] ++ beBytes 2 content.length ++ content

/-- The functions of `do.c` that make an object without others inside. -/
def parseSimple (f : DoFunction) (fid : ℕ) (out : Bytes) :
    Bytes :=
  match f with
  | .secTpl => parseSecTpl read out
  | .gfm => parseGfm out
  | .algoinfo => parseAlgoinfo config read fid out
  | .pwStatus => parsePwStatus read out
  | .fp => parseTrium read 20 [efFpSig, efFpDec, efFpAut] (out ++ beBytes 1 efFp ++ [60])
  | .cafp => parseTrium read 20 [efFpCa1, efFpCa2, efFpCa3] (out ++ beBytes 1 efCaFp ++ [60])
  | .ts => parseTrium read 4 [efTsSig, efTsDec, efTsAut] (out ++ beBytes 1 efTsAll ++ [12])
  | .keyinfo => parseKeyinfo read out
  | .pivDiscovery =>
    [0x7e, 0x12, 0x4f, 0x0b, 0xa0, 0x00, 0x00, 0x03, 0x08, 0x00, 0x00, 0x10, 0x00, 0x01, 0x00, 0x5f,
      0x2f, 0x02, 0x40, 0x10]
  | _ => out

def parseDiscreteDo : Bytes → Bytes :=
  parseConstructed efDiscreteDo (parseDo config read (parseSimple config read) false
    [efExtCap, efAlgoSig, efAlgoDec, efAlgoAut, efPwStatus, efFp, efCaFp, efTsAll, efUifSig, efUifDec,
      efUifAut])

def parseChData : Bytes → Bytes :=
  parseConstructed efChData (parseDo config read (parseSimple config read) false
    [efChName, efLangPref, efSex])

/-- `parse_discrete_do`, or an object without others inside. -/
def parseNested (f : DoFunction) (fid : ℕ) (out : Bytes) :
    Bytes :=
  if f = .discreteDo then parseDiscreteDo config read out else parseSimple config read f fid out

def parseAppData : Bytes → Bytes :=
  parseConstructed efAppData (parseDo config read (parseNested config read) false
    [efFullAid, efHistBytes, efExlenInfo, efGfm, efDiscreteDo, efKeyInfo])

/-- The functions of `do.c`. -/
def parseFunction (f : DoFunction) (fid : ℕ) (out : Bytes) :
    Bytes :=
  match f with
  | .chData => parseChData config read out
  | .discreteDo => parseDiscreteDo config read out
  | .appData => parseAppData config read out
  | .chCert => out
  | _ => parseSimple config read f fid out

/-! ### GET DATA -/

/-- A GET command in P1, P2 and the length of its data. -/
structure GetRequest where
  p1 : UInt8
  p2 : UInt8
  /-- `apdu.nc`. -/
  nc : ℕ
  deriving DecidableEq

/-- `(P1(apdu) << 8) | P2(apdu)`. -/
def GetRequest.fid : ℕ :=
  request.p1.toNat * 256 + request.p2.toNat

/-- What `cmd_get_data` does with a content that is not from the flash: it takes off a header. -/
def stripHeader : Bytes :=
  match tlvWalk out with
  | none => out
  | some item =>
    let dec := if item.tag % 32 = 31 then 3 else 2
    let length := out.getD (dec - 1) 0
    let dec := if length &&& 0xf0 = 0x80 then dec + (length &&& 0x0f).toNat else dec
    if item.value.length + dec = out.length then out.drop dec else out

/-- What `cmd_get_data` puts before the content for those that are not GnuPG. -/
def withHeader : Option Bytes :=
  let tag := if request.p1 > 0 then [request.p1, request.p2] else [request.p2]
  let length :=
    if out.length ≥ 256 then 0x82 :: beBytes 2 out.length
    else if out.length ≥ 128 then 0x81 :: beBytes 1 out.length
    else beBytes 1 out.length
  if out.length > openpgpMaxResponseSize - (tag ++ length).length then none
  else some (tag ++ length ++ out)

/-- `select_file`, as far as the current EF goes. -/
def CardRam.selectFile (ef : OpenpgpEf) : CardRam :=
  if ef.type = .internalEf then { ram with currentEF := some ef } else ram

/-- A status word and the response. -/
abbrev Response := UInt16 × Bytes

/-- A certificate that was selected: one of `EF_CH_1` to `EF_CH_3`. -/
def CardRam.selectedCert : Option OpenpgpEf :=
  ram.currentEF.filter fun cur ↦ efCh1 ≤ cur.fid ∧ cur.fid ≤ efCh3

/-- The file that `cmd_get_data` reads, once it may, and the memory then. -/
def getDataFile (fid : ℕ) (ef : OpenpgpEf) : Option (OpenpgpEf × CardRam) :=
  if fid = efChCert then
    match ram.selectedCert with
    | some cur => some (cur, ram.selectFile cur)
    | none => (fileSearchByFid efCh1).map fun ef ↦ (ef, ram.selectFile ef)
  else
    match ram.currentEF with
    | some cur => if cur.fid = fid then some (cur, ram) else some (ef, ram.selectFile ef)
    | none => some (ef, ram.selectFile ef)

/-- What `cmd_get_data` answers with a file. -/
def answerFile (ef : OpenpgpEf) (ram : CardRam) : Response × CardRam :=
  let flash := ef.data = .flash
  if flash ∧ ((read ef.fid).getD []).length > openpgpMaxDoSize then
    ((swMemoryFailure, []), ram)
  else if entryContent config read ef = none then
    ((swOk, []), ram)
  else
    let ram := { ram with
      isGpg := ram.isGpg || request.fid ∈ [efPwStatus, efHistBytes, efFullAid, efSecTpl] }
    let out := parseDo config read (parseFunction config read) true [ef.fid] []
    let out := if flash then out else stripHeader out
    if ram.isGpg then
      ((swOk, out), ram)
    else
      match withHeader request out with
      | none => ((swMemoryFailure, []), ram)
      | some out => ((swOk, out), ram)

/-- What `cmd_get_data` checks: the file under the id, or the status word. -/
def getDataCheck (request : GetRequest) : Except UInt16 OpenpgpEf :=
  let fid := request.fid
  if request.nc > 0 then .error swWrongLength
  else
    match fileSearchByFid fid with
    | none => .error swWrongP1P2
    | some ef =>
      if fid = efResetCode ∨ ef.type = .internalEf ∧
          fid ∉ [efPrivDo1, efPrivDo2, efPrivDo3, efPrivDo4] then
        .error swWrongP1P2
      else if fid = efPrivDo3 then
        if ram.hasPw2 then .ok ef else .error swSecurityStatusNotSatisfied
      else if fid = efPrivDo4 then
        if ram.hasPw3 then .ok ef else .error swSecurityStatusNotSatisfied
      else if fileAuthenticateAction ram.isUserAuthenticated ef aclOpReadSearch then .ok ef
      else .error swSecurityStatusNotSatisfied

/-- GET DATA, of an object of the OpenPGP applet. -/
def cmdGetData :
    Response × CardRam :=
  match getDataCheck ram request with
  | .error sw => ((sw, []), ram)
  | .ok ef =>
    match getDataFile ram request.fid ef with
    | none => ((swReferenceNotFound, []), ram)
    | some (ef, ram) => answerFile config read request ef ram

/-- GET NEXT DATA: the card-holder certificate behind the one that is selected. -/
def cmdGetNextData :
    Response × CardRam :=
  match ram.currentEF with
  | none => ((swIncorrectParams, []), ram)
  | some cur =>
    if request.nc > 0 ∨ request.fid ≠ efChCert ∨ cur.fid < efCh1 ∨ cur.fid ≥ efCh3 then
      ((swIncorrectParams, []), ram)
    else
      match fileSearchByFid (cur.fid + 1) with
      | none => ((swIncorrectParams, []), ram)
      | some ef => cmdGetData config read request (ram.selectFile ef)

/-- `bulk_cmd(cmd_get_data)`. An item has three bytes, the last of which may be taken from behind the
data. -/
def bulkGetData (config : CardConfig) (read : Contents) (behind : Bytes) :
    ℕ → Bytes → CardRam → Bytes × CardRam
  | 0, _, ram => ([], ram)
  | _ + 1, [], ram => ([], ram)
  | fuel + 1, p :: rest, ram =>
    let item := p :: rest ++ behind
    let request : GetRequest := ⟨p, item.getD 1 0, (item.getD 2 0).toNat⟩
    let ((sw, answer), ram) := cmdGetData config read request ram
    let (answers, ram) := bulkGetData config read behind fuel ((p :: rest).drop (3 + request.nc)) ram
    ([p, request.p2] ++ beBytes 2 answer.length ++ answer ++ beBytes 2 sw.toNat ++ answers, ram)

def cmdGetBulkData (data behind : Bytes) (ram : CardRam) :
    Response × CardRam :=
  if data.length < 3 then
    ((swWrongLength, []), ram)
  else
    let (answers, ram) := bulkGetData config read behind data.length data ram
    ((swOk, answers), ram)

/-- The file id in the data of `cmd_select_data`. -/
def selectDataFid (data : Bytes) : Except UInt16 ℕ :=
  if data.length < 5 then .error swWrongLength
  else if data.getD 0 0 ≠ 0x60 then .error swWrongData
  else if data.length ≠ (data.getD 1 0).toNat + 2 then .error swWrongLength
  else if data.getD 2 0 ≠ 0x5c then .error swWrongData
  else if data.getD 3 0 = 2 then
    if data.length < 6 then .error swWrongLength
    else .ok ((data.getD 4 0).toNat * 256 + (data.getD 5 0).toNat)
  else if data.getD 3 0 = 1 then .ok (data.getD 4 0).toNat
  else .error swWrongData

/-- SELECT DATA, which chooses one of the three card-holder certificates. -/
def cmdSelectData (p1 p2 : UInt8) (data : Bytes) (ram : CardRam) : UInt16 × CardRam :=
  if p2 ≠ 4 then (swWrongP1P2, ram)
  else
    match selectDataFid data with
    | .error sw => (sw, ram)
    | .ok fid =>
      if fid ≠ efChCert then (swReferenceNotFound, ram)
      else if p1 ≥ 3 then (swWrongP1P2, ram)
      else
        match fileSearchByFid fid, fileSearchByFid (efCh1 + p1.toNat) with
        | some cert, some ef =>
          if fileAuthenticateAction ram.isUserAuthenticated cert aclOpReadSearch then
            (swOk, ram.selectFile ef)
          else
            (swSecurityStatusNotSatisfied, ram)
        | _, _ => (swReferenceNotFound, ram)

/-- The GET commands and SELECT DATA. -/
inductive ReadCommand where
  | getData (request : GetRequest)
  | getNextData (request : GetRequest)
  | getBulkData (data behind : Bytes)
  | selectData (p1 p2 : UInt8) (data : Bytes)
  deriving DecidableEq

/-- What is answered, and the memory afterwards. No file is written. -/
def ReadCommand.run :
    ReadCommand → Response × CardRam
  | getData request => cmdGetData config read request ram
  | getNextData request => cmdGetNextData config read request ram
  | getBulkData data behind => cmdGetBulkData config read data behind ram
  | selectData p1 p2 data =>
    let (sw, ram) := cmdSelectData p1 p2 data ram
    ((sw, []), ram)

end PicoAll.Openpgp

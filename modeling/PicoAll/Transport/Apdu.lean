import PicoAll.Lib.BigEndian

/-!
# Command APDUs

`apdu.c` up to the handlers: a command comes in as a buffer (`apdu_process`), short or extended, and
`process_apdu` hands it to the selection of an application or to the application that is selected.
The data of a command can be spread over several APDUs, all but the last of which have the chaining
bit in their class; their data is collected in a buffer until the last one is there.

Commands are handed on with the data they end up with; where in memory it lies is not modelled. The
runs here are those of the commands that reach `process_apdu`: all but a GET RESPONSE that is
answered with what is left of a response.
-/

namespace PicoAll

open BigEndian

/-- The header of a command. -/
structure ApduHeader where
  cla : UInt8
  ins : UInt8
  p1 : UInt8
  p2 : UInt8
  deriving DecidableEq, Repr

/-- A command, as `apdu_process` reads it. -/
structure ApduCommand where
  header : ApduHeader
  /-- The `nc` bytes at `data`. -/
  data : Bytes
  ne : ℕ
  deriving DecidableEq, Repr

/-- A length field, in which 0 stands for one more than the largest. -/
def apduLe (field : Bytes) : ℕ :=
  if beNat field = 0 then 256 ^ field.length else beNat field

/-- `apdu_process` after the header. -/
def apduParseBody : Bytes → Option (Bytes × ℕ)
  | [] => some ([], 256)
  | [le] => some ([], apduLe [le])
  | lc :: rest =>
    if lc = 0 ∧ 2 ≤ rest.length then
      let body := rest.drop 2
      let nc := beNat (rest.take 2)
      if rest.length = 2 then some ([], apduLe rest)
      else if body.length = nc then some (body, 0)
      else if body.length = nc + 2 then some (body.take nc, apduLe (body.drop nc))
      else none
    else
      let nc := lc.toNat
      if rest.length = nc then some (rest, 0)
      else if rest.length = nc + 1 then some (rest.take nc, apduLe (rest.drop nc))
      else none

/-- `apdu_process`, up to where the command is known. -/
def apduParse (buffer : Bytes) : Option ApduCommand :=
  match buffer with
  | cla :: ins :: p1 :: p2 :: rest =>
    if buffer.length > 0xffff then none
    else (apduParseBody rest).map fun body ↦ ⟨⟨cla, ins, p1, p2⟩, body.1, body.2⟩
  | _ => none

/-! ### Dispatch -/

abbrev swOk : UInt16 := 0x9000

abbrev swWrongLength : UInt16 := 0x6700

abbrev swLastChainExpected : UInt16 := 0x6883

abbrev swFileNotFound : UInt16 := 0x6a82

abbrev swClaNotSupported : UInt16 := 0x6e00

abbrev swExecError : UInt16 := 0x6400

abbrev swMemoryFailure : UInt16 := 0x6581

abbrev swWrongData : UInt16 := 0x6700

abbrev swSecurityStatusNotSatisfied : UInt16 := 0x6982

abbrev swPinBlocked : UInt16 := 0x6983

abbrev swDataInvalid : UInt16 := 0x6984

abbrev swConditionsNotSatisfied : UInt16 := 0x6985

abbrev swCommandNotAllowed : UInt16 := 0x6986

abbrev swIncorrectP1P2 : UInt16 := 0x6a86

abbrev swReferenceNotFound : UInt16 := 0x6a88

abbrev swWrongP1P2 : UInt16 := 0x6b00

abbrev swBytesRemaining00 : UInt16 := 0x6100

abbrev swIncorrectParams : UInt16 := 0x6a80

abbrev swFileFull : UInt16 := 0x6a84

abbrev swInsNotSupported : UInt16 := 0x6d00

/-- What `process_apdu` needs to know of an application. -/
structure ApduApp where
  /-- Whether there is a `process_apdu`. -/
  hasProcessApdu : Bool
  supportsSecureMessaging : Bool

/-- What becomes of a command. -/
inductive ApduOutcome where
  /-- It is answered with a status word. -/
  | status (sw : UInt16)
  /-- `select_app` is called. -/
  | select (data : Bytes)
  /-- The `process_apdu` of the current application is called. -/
  | handler (header : ApduHeader) (data : Bytes) (ne : ℕ)
  deriving DecidableEq, Repr

variable (header : ApduHeader)

/-- Whether a command has the chaining bit. -/
def ApduHeader.chained : Bool :=
  header.cla &&& 0x10 != 0

/-- A header without the chaining bit. -/
def ApduHeader.unchained : ApduHeader :=
  { header with cla := header.cla &&& ~~~0x10 }

def ApduHeader.isSelect : Bool :=
  header.ins == 0xa4 && header.p1 == 0x04 && (header.p2 == 0x00 || header.p2 == 0x04)

/-- The end of `process_apdu`. -/
def dispatchApdu (app : Option ApduApp) (header : ApduHeader) (data : Bytes) (ne : ℕ) :
    ApduOutcome :=
  if !header.chained && header.cla &&& 0x0c != 0 &&
      !(app.any fun app ↦ app.supportsSecureMessaging) then
    .status swClaNotSupported
  else if header.isSelect then
    .select data
  else if app.any fun app ↦ app.hasProcessApdu then
    .handler header data ne
  else
    .status swFileNotFound

/-! ### Chaining -/

/-- `sizeof(chain_buf)`. -/
abbrev chainBufSize : ℕ := 2038

/-- The state of the chaining. -/
structure ApduChain where
  isChaining : Bool
  chainHeader : ApduHeader
  /-- `chain_buf` up to `chain_ptr`. -/
  chainBuf : Bytes
  deriving DecidableEq, Repr

/-- The chain is dropped. -/
def ApduChain.drop (chain : ApduChain) : ApduChain :=
  { chain with isChaining := false, chainBuf := [] }

/-- The chain that a segment is put into: a new one, if there is none. -/
def ApduChain.openWith (chain : ApduChain) : ApduChain :=
  if chain.isChaining then chain else ⟨false, header, []⟩

/-- `process_apdu`, with the current application. -/
def processApdu (app : Option ApduApp) (cmd : ApduCommand) (chain : ApduChain) :
    ApduChain × ApduOutcome :=
  let header := cmd.header.unchained
  let isSelect := cmd.header.isSelect
  if cmd.header.chained then
    if chain.isChaining && header != chain.chainHeader then
      (chain.drop, .status swLastChainExpected)
    else
      let chain := chain.openWith header
      if chain.chainBuf.length + cmd.data.length ≥ chainBufSize then
        (chain.drop, .status swWrongLength)
      else
        (⟨true, chain.chainHeader, chain.chainBuf ++ cmd.data⟩, .status swOk)
  else if chain.isChaining && (isSelect || header != chain.chainHeader) then
    if isSelect then (chain.drop, dispatchApdu app cmd.header cmd.data cmd.ne)
    else (chain.drop, .status swLastChainExpected)
  else if chain.isChaining then
    if chain.chainBuf.length + cmd.data.length ≥ chainBufSize then
      (chain.drop, .status swWrongLength)
    else
      (chain.drop, dispatchApdu app cmd.header (chain.chainBuf ++ cmd.data) cmd.ne)
  else
    (chain, dispatchApdu app cmd.header cmd.data cmd.ne)

end PicoAll

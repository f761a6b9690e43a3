import PicoAll.Lib.BigEndian

/-!
# The configuration of the board

`phy_serialize_data` and `phy_unserialize_data` keep the configuration as a list of fields, each a
tag, a length and a value. Reads of a value and writes into an array are checked here: outside the
bounds they are `PhyError.outOfBounds`, which no run ends in.

The serializer writes the settings of the LED also when they are not in the record, and the parser
takes all interfaces as enabled when none are named: what comes back is the record with these
defaults (`PhyData.effective`), and it is refused if the parser does not know the values of the LED
(`PhyData.Known`).
-/

namespace PicoAll

open BigEndian

/-! ### Arrays of bytes -/

/-- An array of `n` bytes. -/
abbrev ByteArrayN (n : ℕ) :=
  { bytes : Bytes // bytes.length = n }

/-- What the two functions end in other than `PICOKEYS_OK`. -/
inductive PhyError where
  /-- `PICOKEYS_ERR_NULL_PARAM`. -/
  | nullParam
  /-- `PICOKEYS_WRONG_DATA`. -/
  | wrongData
  /-- A read or a write that is not in its array. -/
  | outOfBounds
  deriving DecidableEq

/-- An array of zeros. -/
def byteZeros (n : ℕ) : ByteArrayN n :=
  ⟨List.replicate n 0, List.length_replicate⟩

/-- `v[i]`. -/
def phyByte (v : Bytes) (i : ℕ) : Except PhyError UInt8 :=
  match v[i]? with
  | some byte => .ok byte
  | none => .error .outOfBounds

section Arrays

variable {n : ℕ}

theorem length_memcpy {v dst : Bytes} {len : ℕ} (hdst : dst.length = n) (hv : len ≤ v.length)
    (hn : len ≤ n) : (v.take len ++ dst.drop len).length = n := by
  rw [List.length_append, List.length_take, List.length_drop, hdst]
  omega

/-- `memcpy(dst, v, len)`. -/
def phyMemcpy (dst : ByteArrayN n) (v : Bytes) (len : ℕ) : Except PhyError (ByteArrayN n) :=
  if h : len ≤ v.length ∧ len ≤ n then
    .ok ⟨v.take len ++ dst.val.drop len, length_memcpy dst.property h.1 h.2⟩
  else
    .error .outOfBounds

/-- `dst[i] = byte`. -/
def ByteArrayN.put (dst : ByteArrayN n) (i : ℕ) (byte : UInt8) : ByteArrayN n :=
  ⟨dst.val.set i byte, List.length_set.trans dst.property⟩

/-- The bytes of a string, if it ends in its array. -/
def phyString (src : ByteArrayN n) : Except PhyError Bytes :=
  if src.val.contains 0 then .ok (src.val.takeWhile (· != 0)) else .error .outOfBounds

end Arrays

/-! ### The record -/

/-- The tags. -/
inductive PhyTag where
  /-- `PHY_VIDPID`. -/
  | vidpid
  /-- `PHY_LED_GPIO`. -/
  | ledGpio
  /-- `PHY_LED_BTNESS`. -/
  | ledBtness
  /-- `PHY_OPTS`. -/
  | opts
  /-- `PHY_UP_BTN`. -/
  | upBtn
  /-- `PHY_USB_PRODUCT`. -/
  | usbProduct
  /-- `PHY_ENABLED_CURVES`. -/
  | enabledCurves
  /-- `PHY_ENABLED_USB_ITF`. -/
  | enabledUsbItf
  /-- `PHY_LED_DRIVER`. -/
  | ledDriver
  /-- `PHY_LED_ORDER`. -/
  | ledOrder
  /-- `PHY_USB_MANUFACTURER`. -/
  | usbManufacturer
  /-- `PHY_LED_STATUS`. -/
  | ledStatus
  /-- `PHY_LED_NOTIFICATIONS`. -/
  | ledNotifications
  /-- `PHY_LED_MODES`. -/
  | ledModes
  deriving DecidableEq

/-- The byte of a tag. -/
def PhyTag.byte : PhyTag → UInt8
  | .vidpid => 0x0
  | .ledGpio => 0x4
  | .ledBtness => 0x5
  | .opts => 0x6
  | .upBtn => 0x8
  | .usbProduct => 0x9
  | .enabledCurves => 0xA
  | .enabledUsbItf => 0xB
  | .ledDriver => 0xC
  | .ledOrder => 0xD
  | .usbManufacturer => 0xF
  | .ledStatus => 0x10
  | .ledNotifications => 0x11
  | .ledModes => 0x12

/-- The tag of a byte. -/
def phyTag (byte : UInt8) : Option PhyTag :=
  [.vidpid, .ledGpio, .ledBtness, .opts, .upBtn, .usbProduct, .enabledCurves, .enabledUsbItf,
    .ledDriver, .ledOrder, .usbManufacturer, .ledStatus, .ledNotifications,
    .ledModes].find? fun tag ↦ tag.byte = byte

@[simp]
theorem phyTag_byte (tag : PhyTag) : phyTag tag.byte = some tag := by
  cases tag <;> rfl

abbrev phyUsbItfAll : UInt8 := 0x1F

abbrev phyLedOrderRgb : UInt8 := 0x0

abbrev phyLedOrderBgr : UInt8 := 0x5

abbrev phyMaxSize : ℕ :=
  (2+4)+(2+4)+(2+32)+(2+32)+(2+2)+(2+1)+(2+1)+(2+1)+(2+1)+(2+2)+(2+1)+(2+10)+(2+7)+(2+2)

def statusDefaults : ByteArrayN 10 :=
  ⟨[1, 0, 6, 17, 6, 17, 4, 17, 3, 17], rfl⟩

def notificationDefaults : ByteArrayN 7 :=
  ⟨[1, 2, 17, 1, 17, 1, 17], rfl⟩

/-- `phy_data_t`, cleared where it is not said otherwise. -/
structure PhyData where
  vidpid : ByteArrayN 4 := byteZeros 4
  enabledCurves : UInt32 := 0
  usbProduct : ByteArrayN 32 := byteZeros 32
  usbManufacturer : ByteArrayN 32 := byteZeros 32
  opts : UInt16 := 0
  ledGpio : UInt8 := 0
  ledBrightness : UInt8 := 0
  upBtn : UInt8 := 0
  enabledUsbItf : UInt8 := 0
  ledDriver : UInt8 := 0
  ledOrder : UInt8 := 0
  ledStatus : ByteArrayN 10 := byteZeros 10
  ledNotifications : ByteArrayN 7 := byteZeros 7
  ledModes : UInt8 := 0
  vidpidPresent : Bool := false
  ledGpioPresent : Bool := false
  ledBrightnessPresent : Bool := false
  upBtnPresent : Bool := false
  usbProductPresent : Bool := false
  usbManufacturerPresent : Bool := false
  enabledCurvesPresent : Bool := false
  enabledUsbItfPresent : Bool := false
  ledDriverPresent : Bool := false
  ledOrderPresent : Bool := false
  ledStatusPresent : Bool := false
  ledNotificationsPresent : Bool := false
  ledModesPresent : Bool := false
  deriving DecidableEq

/-- `memset(phy, 0, sizeof(*phy))`. -/
def PhyData.cleared (_ : PhyData) : PhyData :=
  {}

/-! ### The serializer -/

/-- A field: its tag and its value. -/
abbrev PhyField :=
  PhyTag × Bytes

def PhyField.bytes (field : PhyField) : Bytes :=
  [field.1.byte, .ofNat field.2.length] ++ field.2

/-- A field that is written if it is present. -/
def phyOptional (present : Bool) (tag : PhyTag) (value : Bytes) : List PhyField :=
  if present then [(tag, value)] else []

def phyStringField (present : Bool) (tag : PhyTag) (src : ByteArrayN 32) :
    Except PhyError (List PhyField) :=
  if present then do
    let text ← phyString src
    .ok [(tag, text ++ [0])]
  else
    .ok []

variable (phy : PhyData)

def PhyData.writtenModes : UInt8 :=
  if phy.ledModesPresent then
    phy.ledModes
  else if phy.ledStatusPresent && phy.ledStatus.val.getD 1 0 != 0 then
    3
  else
    0

/-- The fields that are written, in the order they are written in. -/
def phyFields : Except PhyError (List PhyField) := do
  let product ← phyStringField phy.usbProductPresent .usbProduct phy.usbProduct
  let manufacturer ←
    phyStringField phy.usbManufacturerPresent .usbManufacturer phy.usbManufacturer
  .ok (
    phyOptional phy.vidpidPresent .vidpid
      [phy.vidpid.val.getD 1 0, phy.vidpid.val.getD 0 0, phy.vidpid.val.getD 3 0,
        phy.vidpid.val.getD 2 0] ++
    phyOptional phy.ledGpioPresent .ledGpio [phy.ledGpio] ++
    phyOptional phy.ledBrightnessPresent .ledBtness [phy.ledBrightness] ++
    [(.opts, beBytes 2 phy.opts.toNat)] ++
    phyOptional phy.upBtnPresent .upBtn [phy.upBtn] ++
    product ++
    manufacturer ++
    phyOptional phy.enabledCurvesPresent .enabledCurves (beBytes 4 phy.enabledCurves.toNat) ++
    phyOptional phy.enabledUsbItfPresent .enabledUsbItf [phy.enabledUsbItf] ++
    phyOptional phy.ledDriverPresent .ledDriver
      (phy.ledDriver :: if phy.ledOrderPresent then [phy.ledOrder] else []) ++
    phyOptional (phy.ledOrderPresent && !phy.ledDriverPresent) .ledOrder [phy.ledOrder] ++
    [(.ledStatus, if phy.ledStatusPresent then phy.ledStatus.val else statusDefaults.val)] ++
    [(.ledNotifications,
      if phy.ledNotificationsPresent then phy.ledNotifications.val
      else notificationDefaults.val)] ++
    [(.ledModes, [1, phy.writtenModes])])

/-- `phy_serialize_data`, which writes behind what the buffer holds. -/
def phySerializeData (data : Bytes) (capacity : ℕ) : Except PhyError Bytes :=
  if capacity < data.length ∨ capacity - data.length < phyMaxSize then
    .error .nullParam
  else if (phy.usbProductPresent && !phy.usbProduct.val.contains 0) ||
      (phy.usbManufacturerPresent && !phy.usbManufacturer.val.contains 0) then
    .error .wrongData
  else do
    let fields ← phyFields phy
    if data.length + (fields.flatMap (·.bytes)).length ≤ capacity then
      .ok (data ++ fields.flatMap (·.bytes))
    else
      .error .outOfBounds

/-! ### The parser -/

/-- The length that a value must have, where the first `switch` checks it. -/
def PhyTag.length : PhyTag → Option ℕ
  | .vidpid | .enabledCurves => some 4
  | .opts => some 2
  | .ledGpio | .ledBtness | .upBtn | .enabledUsbItf => some 1
  | _ => none

/-- `v[first]`, `v[first + 2]`, … are colours. -/
def phyColours (v : Bytes) (first : ℕ) : ℕ → Except PhyError Bool
  | 0 => .ok true
  | count + 1 => do
    let colour ← phyByte v first
    if colour > 7 then .ok false else phyColours v (first + 2) count

/-- A string: the value, without the zero at its end. -/
def phyName (dst : ByteArrayN 32) (v : Bytes) : Except PhyError (ByteArrayN 32 × Bool) :=
  if v.length = 0 ∨ v.length > 32 then
    .error .wrongData
  else do
    let last ← phyByte v (v.length - 1)
    let len := v.length - if last = 0 then 1 else 0
    if len ≥ 32 ∨ (v.take len).contains 0 then
      .error .wrongData
    else do
      let name ← phyMemcpy dst v len
      .ok (name, len != 0)

/-- The second `switch`: set a field. -/
def phySet (tag : PhyTag) (v : Bytes) : Except PhyError PhyData :=
  match tag with
  | .vidpid => do
    let copied ← phyMemcpy phy.vidpid v 4
    let v0 ← phyByte v 0
    let v1 ← phyByte v 1
    let v2 ← phyByte v 2
    let v3 ← phyByte v 3
    .ok { phy with
      vidpid := (((copied.put 1 v0).put 0 v1).put 3 v2).put 2 v3
      vidpidPresent := true }
  | .ledGpio => do
    let v0 ← phyByte v 0
    .ok { phy with ledGpio := v0, ledGpioPresent := true }
  | .ledBtness => do
    let v0 ← phyByte v 0
    .ok { phy with ledBrightness := v0, ledBrightnessPresent := true }
  | .opts => do
    let v0 ← phyByte v 0
    let v1 ← phyByte v 1
    .ok { phy with opts := .ofNat (beNat [v0, v1]) }
  | .upBtn => do
    let v0 ← phyByte v 0
    .ok { phy with upBtn := v0, upBtnPresent := true }
  | .usbProduct => do
    let (name, present) ← phyName phy.usbProduct v
    .ok { phy with usbProduct := name, usbProductPresent := present }
  | .usbManufacturer => do
    let (name, present) ← phyName phy.usbManufacturer v
    .ok { phy with usbManufacturer := name, usbManufacturerPresent := present }
  | .enabledCurves => do
    let v0 ← phyByte v 0
    let v1 ← phyByte v 1
    let v2 ← phyByte v 2
    let v3 ← phyByte v 3
    .ok { phy with
      enabledCurves := .ofNat (beNat [v0, v1, v2, v3]), enabledCurvesPresent := true }
  | .enabledUsbItf => do
    let v0 ← phyByte v 0
    .ok { phy with enabledUsbItf := v0, enabledUsbItfPresent := true }
  | .ledDriver =>
    if v.length ≠ 1 ∧ v.length ≠ 2 then
      .error .wrongData
    else if v.length = 2 then do
      let v1 ← phyByte v 1
      if v1 > phyLedOrderBgr then
        .error .wrongData
      else do
        let v0 ← phyByte v 0
        .ok { phy with
          ledDriver := v0, ledDriverPresent := true, ledOrder := v1, ledOrderPresent := true }
    else do
      let v0 ← phyByte v 0
      .ok { phy with ledDriver := v0, ledDriverPresent := true }
  | .ledOrder =>
    if v.length ≠ 1 then
      .error .wrongData
    else do
      let v0 ← phyByte v 0
      if v0 > phyLedOrderBgr then
        .error .wrongData
      else
        .ok { phy with ledOrder := v0, ledOrderPresent := true }
  | .ledModes =>
    if v.length ≠ 2 then
      .error .wrongData
    else do
      let v0 ← phyByte v 0
      let v1 ← phyByte v 1
      if v0 ≠ 1 ∨ v1 &&& 0x80 ≠ 0 then
        .error .wrongData
      else
        .ok { phy with ledModes := v1, ledModesPresent := true }
  | .ledNotifications =>
    if v.length ≠ 7 then
      .error .wrongData
    else do
      let v0 ← phyByte v 0
      if v0 ≠ 1 then
        .error .wrongData
      else do
        let colours ← phyColours v 1 3
        if colours then do
          let copied ← phyMemcpy phy.ledNotifications v 7
          .ok { phy with ledNotifications := copied, ledNotificationsPresent := true }
        else
          .error .wrongData
  | .ledStatus =>
    if v.length ≠ 10 then
      .error .wrongData
    else do
      let v0 ← phyByte v 0
      let v1 ← phyByte v 1
      if v0 ≠ 1 ∨ v1 > 1 then
        .error .wrongData
      else do
        let colours ← phyColours v 2 4
        if colours then do
          let copied ← phyMemcpy phy.ledStatus v 10
          .ok { phy with ledStatus := copied, ledStatusPresent := true }
        else
          .error .wrongData

/-- One field, with both `switch`es. -/
def phySwitch (byte : UInt8) (v : Bytes) : Except PhyError PhyData :=
  match phyTag byte with
  | none => .error .wrongData
  | some tag =>
    if tag.length.all (· = v.length) then phySet phy tag v else .error .wrongData

/-- The loop over the fields. -/
def phyUnserializeLoop (data : Bytes) (phy : PhyData) : Except PhyError PhyData :=
  match data with
  | [] => .ok phy
  | [_] => .error .wrongData
  | tag :: tlen :: rest =>
    if tlen.toNat > rest.length then
      .error .wrongData
    else do
      let phy ← phySwitch phy tag (rest.take tlen.toNat)
      phyUnserializeLoop (rest.drop tlen.toNat) phy
termination_by data.length

/-- What holds of the fields that were not there. -/
def PhyData.defaulted : PhyData :=
  { phy with
    enabledUsbItf := if phy.enabledUsbItfPresent then phy.enabledUsbItf else phyUsbItfAll
    enabledUsbItfPresent := true
    ledOrder := if phy.ledOrderPresent then phy.ledOrder else phyLedOrderRgb }

def phyUnserializeData (data : Bytes) (phy : PhyData) : Except PhyError PhyData :=
  if data.length = 0 ∨ data.length > 0xFFFF then
    .error .nullParam
  else do
    let phy ← phyUnserializeLoop data phy.cleared
    .ok phy.defaulted

end PicoAll

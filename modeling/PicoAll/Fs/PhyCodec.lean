import PicoAll.Fs.Phy
import PicoAll.Lib.FaultProgram

/-!
# What the configuration is after a round

What the serializer writes is read back as the record with its defaults, or refused by the checks
of the parser (`phyUnserialize_serialize`), and a second round changes nothing (`phy_codec_law`).

The parser is a fold over fields (`phyUnserializeLoop_fields`, `phyUnserializeLoop_cases`), so each of
these is what one field does, put together in the order of the fields.
-/

namespace PicoAll

open FaultProgram BigEndian List Nat

/-! ### Bytes of a value -/

section Values

variable {v : Bytes}

@[simp]
theorem phyByte_cons_zero {byte : UInt8} : phyByte (byte :: v) 0 = .ok byte :=
  rfl

@[simp]
theorem phyByte_cons_succ {byte : UInt8} {i : ℕ} : phyByte (byte :: v) (i + 1) = phyByte v i :=
  rfl

theorem phyByte_of_lt {i : ℕ} (h : i < v.length) : phyByte v i = .ok (v.getD i 0) := by
  rw [phyByte, getElem?_eq_getElem h, getD_eq_getElem _ _ h]

theorem phyMemcpy_of_length {n : ℕ} (dst : ByteArrayN n) (hv : v.length = n) :
    phyMemcpy dst v n = .ok ⟨v, hv⟩ := by
  rw [phyMemcpy, dif_pos ⟨hv.ge, le_rfl⟩]
  have hdst := dst.property
  simp [take_of_length_le hv.le, drop_of_length_le hdst.le]

/-- The colours are looked at, one after the other. -/
theorem phyColours_eq (first count : ℕ) (h : first + 2 * count ≤ v.length + 1) :
    phyColours v first count = .ok (decide (∀ i < count, v.getD (first + 2 * i) 0 ≤ 7)) := by
  induction count generalizing first with
  | zero => simp [phyColours]
  | succ count ih =>
    have hrest : (∀ i < count + 1, v.getD (first + 2 * i) 0 ≤ 7) ↔
        v.getD first 0 ≤ 7 ∧ ∀ i < count, v.getD (first + 2 + 2 * i) 0 ≤ 7 := by
      rw [forall_lt_succ_left]
      simp [mul_add, add_assoc, add_comm 2]
    rw [phyColours, phyByte_of_lt (by omega), ih _ (by omega), ok_bind]
    by_cases hcolour : v.getD first 0 ≤ 7
    · rw [if_neg (UInt8.not_lt.mpr hcolour)]
      exact congrArg _ (decide_eq_decide.mpr (hrest.trans (and_iff_right hcolour)).symm)
    · rw [if_pos (UInt8.not_le.mp hcolour)]
      exact congrArg _ (decide_eq_false fun hall ↦ hcolour (hrest.mp hall).1).symm

end Values

/-- The bytes of `led_status` that the parser knows. -/
def StatusKnown (v : Bytes) : Prop :=
  (v.getD 0 0 = 1 ∧ v.getD 1 0 ≤ 1) ∧ ∀ i < 4, v.getD (2 + 2 * i) 0 ≤ 7

/-- The bytes of `led_notifications` that the parser knows. -/
def NotificationsKnown (v : Bytes) : Prop :=
  v.getD 0 0 = 1 ∧ ∀ i < 3, v.getD (1 + 2 * i) 0 ≤ 7

instance (v : Bytes) : Decidable (StatusKnown v) :=
  inferInstanceAs (Decidable (_ ∧ _))

instance (v : Bytes) : Decidable (NotificationsKnown v) :=
  inferInstanceAs (Decidable (_ ∧ _))

theorem statusKnown_defaults : StatusKnown statusDefaults.val := by
  decide

theorem notificationsKnown_defaults : NotificationsKnown notificationDefaults.val := by
  decide

/-! ### Setting a field -/

section Set

variable {phy : PhyData} {v : Bytes}

theorem phySet_ledStatus (hv : v.length = 10) :
    phySet phy .ledStatus v =
      if StatusKnown v then .ok { phy with ledStatus := ⟨v, hv⟩, ledStatusPresent := true }
      else .error .wrongData := by
  rw [phySet, if_neg (not_not.mpr hv), phyByte_of_lt (by omega), phyByte_of_lt (by omega),
    phyColours_eq 2 4 (by omega), phyMemcpy_of_length phy.ledStatus hv]
  simp only [ok_bind, decide_eq_true_eq]
  by_cases hhead : v.getD 0 0 = 1 ∧ v.getD 1 0 ≤ 1
  · rw [if_neg (by simpa [UInt8.not_lt] using hhead)]
    exact if_congr (and_iff_right hhead).symm rfl rfl
  · rw [if_pos (by simpa [UInt8.not_le, imp_iff_not_or] using hhead),
      if_neg fun h : StatusKnown v ↦ hhead h.1]

theorem phySet_ledNotifications (hv : v.length = 7) :
    phySet phy .ledNotifications v =
      if NotificationsKnown v then
        .ok { phy with ledNotifications := ⟨v, hv⟩, ledNotificationsPresent := true }
      else .error .wrongData := by
  rw [phySet, if_neg (not_not.mpr hv), phyByte_of_lt (by omega),
    phyColours_eq 1 3 (by omega), phyMemcpy_of_length phy.ledNotifications hv]
  simp only [ok_bind, decide_eq_true_eq]
  by_cases hhead : v.getD 0 0 = 1
  · rw [if_neg (not_not.mpr hhead)]
    exact if_congr (and_iff_right hhead).symm rfl rfl
  · rw [if_pos hhead, if_neg fun h : NotificationsKnown v ↦ hhead h.1]

theorem phySet_ledModes {v0 v1 : UInt8} :
    phySet phy .ledModes [v0, v1] =
      if v0 = 1 ∧ v1 &&& 0x80 = 0 then .ok { phy with ledModes := v1, ledModesPresent := true }
      else .error .wrongData := by
  by_cases h : v0 = 1 ∧ v1 &&& 0x80 = 0
  · simp [phySet, h]
  · have h' : v0 ≠ 1 ∨ v1 &&& 0x80 ≠ 0 := by tauto
    simp [phySet, h, h']

theorem length_nameCopied {dst : ByteArrayN 32} {name : Bytes} (h : name.length ≤ 32) :
    (name ++ dst.val.drop name.length).length = 32 := by
  simpa using length_memcpy dst.property le_rfl h

/-- What is in an array when a name has been copied there. -/
def nameCopied (dst : ByteArrayN 32) (name : Bytes) (h : name.length ≤ 32) : ByteArrayN 32 :=
  ⟨name ++ dst.val.drop name.length, length_nameCopied h⟩

/-- A string with its zero is copied without it. -/
theorem phyName_string {dst : ByteArrayN 32} {name : Bytes} (hzero : 0 ∉ name)
    (hlen : name.length < 32) :
    phyName dst (name ++ [0]) = .ok (nameCopied dst name hlen.le, name.length != 0) := by
  have hlast : phyByte (name ++ [0]) name.length = .ok 0 := by simp [phyByte]
  have hcopy : phyMemcpy dst (name ++ [0]) name.length = .ok (nameCopied dst name hlen.le) := by
    rw [phyMemcpy, dif_pos ⟨by simp, hlen.le⟩]
    simp [nameCopied]
  have hguard : ¬((name ++ [0]).length = 0 ∨ (name ++ [0]).length > 32) := by
    simp
    omega
  rw [phyName, if_neg hguard]
  simp [hlast, hcopy, hlen, hzero]

/-- A name that is copied is a string of at most 31 bytes. -/
theorem phyName_cases (dst : ByteArrayN 32) (v : Bytes) :
    phyName dst v = .error .wrongData ∨
      ∃ (text : Bytes) (hlen : text.length < 32),
        phyName dst v = .ok (nameCopied dst text hlen.le, text.length != 0) ∧ 0 ∉ text := by
  by_cases hguard : v.length = 0 ∨ v.length > 32
  · exact .inl (by rw [phyName, if_pos hguard])
  rw [phyName, if_neg hguard, phyByte_of_lt (by omega), ok_bind]
  generalize hcount : (v.length - if v.getD (v.length - 1) 0 = 0 then 1 else 0) = count
  by_cases hname : count ≥ 32 ∨ (v.take count).contains 0
  · exact .inl (if_pos hname)
  obtain ⟨hlt, hzero⟩ := not_or.mp hname
  have hcount' : count ≤ v.length := by omega
  have htext : (v.take count).length = count := length_take_of_le hcount'
  refine .inr ⟨v.take count, by omega, ?_, by simpa using hzero⟩
  rw [if_neg hname, phyMemcpy, dif_pos ⟨hcount', by omega⟩, ok_bind]
  simp [nameCopied, htext]

/-- **What a field can do** to the record. -/
inductive PhyStep (phy : PhyData) : PhyTag → PhyData → Prop
  | vidpid (value : ByteArrayN 4) :
    PhyStep phy .vidpid { phy with vidpid := value, vidpidPresent := true }
  | ledGpio (value : UInt8) :
    PhyStep phy .ledGpio { phy with ledGpio := value, ledGpioPresent := true }
  | ledBtness (value : UInt8) :
    PhyStep phy .ledBtness { phy with ledBrightness := value, ledBrightnessPresent := true }
  | opts (value : UInt16) : PhyStep phy .opts { phy with opts := value }
  | upBtn (value : UInt8) : PhyStep phy .upBtn { phy with upBtn := value, upBtnPresent := true }
  | usbProduct (text : Bytes) (hlen : text.length < 32) (hzero : 0 ∉ text) :
    PhyStep phy .usbProduct { phy with
      usbProduct := nameCopied phy.usbProduct text hlen.le, usbProductPresent := text.length != 0 }
  | usbManufacturer (text : Bytes) (hlen : text.length < 32) (hzero : 0 ∉ text) :
    PhyStep phy .usbManufacturer { phy with
      usbManufacturer := nameCopied phy.usbManufacturer text hlen.le
      usbManufacturerPresent := text.length != 0 }
  | enabledCurves (value : UInt32) :
    PhyStep phy .enabledCurves { phy with enabledCurves := value, enabledCurvesPresent := true }
  | enabledUsbItf (value : UInt8) :
    PhyStep phy .enabledUsbItf { phy with enabledUsbItf := value, enabledUsbItfPresent := true }
  | ledDriver (value : UInt8) :
    PhyStep phy .ledDriver { phy with ledDriver := value, ledDriverPresent := true }
  | ledDriverOrder (value order : UInt8) (horder : order ≤ phyLedOrderBgr) :
    PhyStep phy .ledDriver { phy with
      ledDriver := value, ledDriverPresent := true, ledOrder := order, ledOrderPresent := true }
  | ledOrder (order : UInt8) (horder : order ≤ phyLedOrderBgr) :
    PhyStep phy .ledOrder { phy with ledOrder := order, ledOrderPresent := true }
  | ledStatus (value : ByteArrayN 10) (hknown : StatusKnown value.val) :
    PhyStep phy .ledStatus { phy with ledStatus := value, ledStatusPresent := true }
  | ledNotifications (value : ByteArrayN 7) (hknown : NotificationsKnown value.val) :
    PhyStep phy .ledNotifications { phy with
      ledNotifications := value, ledNotificationsPresent := true }
  | ledModes (modes : UInt8) (hknown : modes &&& 0x80 = 0) :
    PhyStep phy .ledModes { phy with ledModes := modes, ledModesPresent := true }

/-- **A field is refused or set**, and neither reads nor writes behind the end. -/
theorem phySwitch_cases (phy : PhyData) (byte : UInt8) (v : Bytes) :
    phySwitch phy byte v = .error .wrongData ∨
      ∃ tag phy', phyTag byte = some tag ∧ phySwitch phy byte v = .ok phy' ∧
        PhyStep phy tag phy' := by
  rw [phySwitch]
  rcases phyTag byte with - | tag
  · exact .inl rfl
  by_cases hlength : tag.length.all (· = v.length)
  swap
  · exact .inl (if_neg hlength)
  simp only [hlength, if_true]
  cases tag with
  | vidpid | enabledCurves =>
    obtain ⟨v0, v1, v2, v3, rfl⟩ := length_eq_four.mp (of_decide_eq_true hlength).symm
    exact .inr ⟨_, _, rfl, rfl, by constructor⟩
  | ledGpio | ledBtness | upBtn | enabledUsbItf =>
    obtain ⟨v0, rfl⟩ := length_eq_one_iff.mp (of_decide_eq_true hlength).symm
    exact .inr ⟨_, _, rfl, rfl, by constructor⟩
  | opts =>
    obtain ⟨v0, v1, rfl⟩ := length_eq_two.mp (of_decide_eq_true hlength).symm
    exact .inr ⟨_, _, rfl, rfl, .opts _⟩
  | usbProduct =>
    obtain hname | ⟨text, hlen, hname, hzero⟩ := phyName_cases phy.usbProduct v
    · exact .inl (by rw [phySet, hname, error_bind])
    · exact .inr ⟨_, _, rfl, by rw [phySet, hname, ok_bind], .usbProduct text hlen hzero⟩
  | usbManufacturer =>
    obtain hname | ⟨text, hlen, hname, hzero⟩ := phyName_cases phy.usbManufacturer v
    · exact .inl (by rw [phySet, hname, error_bind])
    · exact .inr ⟨_, _, rfl, by rw [phySet, hname, ok_bind], .usbManufacturer text hlen hzero⟩
  | ledDriver =>
    by_cases hone : v.length = 1
    · obtain ⟨v0, rfl⟩ := length_eq_one_iff.mp hone
      exact .inr ⟨_, _, rfl, rfl, .ledDriver _⟩
    by_cases htwo : v.length = 2
    · obtain ⟨v0, v1, rfl⟩ := length_eq_two.mp htwo
      by_cases horder : v1 > phyLedOrderBgr
      · exact .inl (by simp [phySet, horder])
      · exact .inr ⟨_, _, rfl, by simp [phySet, horder],
          .ledDriverOrder v0 v1 (UInt8.not_lt.mp horder)⟩
    · exact .inl (if_pos ⟨hone, htwo⟩)
  | ledOrder =>
    by_cases hone : v.length = 1
    · obtain ⟨v0, rfl⟩ := length_eq_one_iff.mp hone
      by_cases horder : v0 > phyLedOrderBgr
      · exact .inl (by simp [phySet, horder])
      · exact .inr ⟨_, _, rfl, by simp [phySet, horder], .ledOrder v0 (UInt8.not_lt.mp horder)⟩
    · exact .inl (if_pos hone)
  | ledStatus =>
    by_cases hten : v.length = 10
    · rw [phySet_ledStatus hten]
      by_cases hknown : StatusKnown v
      · exact .inr ⟨_, _, rfl, if_pos hknown, .ledStatus ⟨v, hten⟩ hknown⟩
      · exact .inl (if_neg hknown)
    · exact .inl (if_pos hten)
  | ledNotifications =>
    by_cases hseven : v.length = 7
    · rw [phySet_ledNotifications hseven]
      by_cases hknown : NotificationsKnown v
      · exact .inr ⟨_, _, rfl, if_pos hknown, .ledNotifications ⟨v, hseven⟩ hknown⟩
      · exact .inl (if_neg hknown)
    · exact .inl (if_pos hseven)
  | ledModes =>
    by_cases htwo : v.length = 2
    · obtain ⟨v0, v1, rfl⟩ := length_eq_two.mp htwo
      rw [phySet_ledModes]
      by_cases hknown : v0 = 1 ∧ v1 &&& 0x80 = 0
      · exact .inr ⟨_, _, rfl, if_pos hknown, .ledModes v1 hknown.2⟩
      · exact .inl (if_neg hknown)
    · exact .inl (if_pos htwo)

end Set

/-! ### Fields one after the other -/

variable (phy : PhyData) (src : ByteArrayN 32)

/-- Set fields in turn. -/
def phyRun (fields : List PhyField) : Except PhyError PhyData :=
  fields.foldlM (fun phy field ↦ phySwitch phy field.1.byte field.2) phy

/-- Steps in turn. -/
inductive PhySteps : PhyData → List PhyTag → PhyData → Prop
  | nil (phy : PhyData) : PhySteps phy [] phy
  | cons {phy phy' phy'' : PhyData} {tag : PhyTag} {tags : List PhyTag}
    (hstep : PhyStep phy tag phy') (hrest : PhySteps phy' tags phy'') : PhySteps phy (tag :: tags) phy''

section Run

variable {phy phy' : PhyData} {tag : PhyTag} {fields fields' : List PhyField}

theorem byte_of_phyTag {byte : UInt8} (h : phyTag byte = some tag) : tag.byte = byte := by
  rw [phyTag] at h
  simpa using find?_some h

theorem phyRun_append :
    phyRun phy (fields ++ fields') = phyRun phy fields >>= fun phy ↦ phyRun phy fields' :=
  foldlM_append

theorem phyRun_singleton {v : Bytes} (hlength : tag.length.all (· = v.length)) :
    phyRun phy [(tag, v)] = phySet phy tag v := by
  rw [phyRun, foldlM_cons]
  simp only [foldlM_nil, phySwitch, phyTag_byte, if_pos hlength]
  exact bind_pure _

/-- The loop over the bytes of some fields sets them in turn. -/
theorem phyUnserializeLoop_fields (h : ∀ field ∈ fields, field.2.length < 256) :
    phyUnserializeLoop (fields.flatMap (·.bytes)) phy = phyRun phy fields := by
  induction fields generalizing phy with
  | nil => rw [flatMap_nil, phyUnserializeLoop]; rfl
  | cons field fields ih =>
    obtain ⟨hfield, hrest⟩ := forall_mem_cons.mp h
    have htlen : (UInt8.ofNat field.2.length).toNat = field.2.length := mod_eq_of_lt hfield
    rw [flatMap_cons, PhyField.bytes, append_assoc, cons_append, cons_append,
      phyUnserializeLoop, htlen, if_neg (by simp)]
    simp only [nil_append, take_left, drop_left, ih hrest]
    rfl

/-- **What is not refused is made of fields**, and no byte behind the end is read or written. -/
theorem phyUnserializeLoop_cases (data : Bytes) (phy : PhyData) :
    phyUnserializeLoop data phy = .error .wrongData ∨
      ∃ (fields : List PhyField) (phy' : PhyData), data = fields.flatMap (·.bytes) ∧
        phyUnserializeLoop data phy = .ok phy' ∧ PhySteps phy (fields.map Prod.fst) phy' := by
  fun_induction phyUnserializeLoop data phy with
  | case1 phy => exact .inr ⟨[], phy, rfl, rfl, .nil phy⟩
  | case2 => exact .inl rfl
  | case3 => exact .inl rfl
  | case4 phy byte tlen rest hlength ih =>
    obtain hbad | ⟨tag, phy', htag, hset, hstep⟩ := phySwitch_cases phy byte (rest.take tlen.toNat)
    · exact .inl (by rw [hbad, error_bind])
    rw [hset, ok_bind]
    obtain hbad | ⟨fields, phy'', hdata, hloop, hsteps⟩ := ih phy'
    · exact .inl hbad
    refine .inr ⟨(tag, rest.take tlen.toNat) :: fields, phy'', ?_, hloop, .cons hstep hsteps⟩
    have htlen : (rest.take tlen.toNat).length = tlen.toNat :=
      length_take_of_le (not_lt.mp hlength)
    rw [flatMap_cons, ← hdata, PhyField.bytes, byte_of_phyTag htag, htlen]
    simp

end Run

/-! ### What every accepted record is -/

/-- **The values that the parser knows.** -/
structure PhyData.Known (phy : PhyData) : Prop where
  ledOrder : phy.ledOrderPresent → phy.ledOrder ≤ phyLedOrderBgr
  ledStatus : phy.ledStatusPresent → StatusKnown phy.ledStatus.val
  ledNotifications : phy.ledNotificationsPresent → NotificationsKnown phy.ledNotifications.val
  ledModes : phy.ledModesPresent → phy.ledModes &&& 0x80 = 0

/-- The last bytes of the strings are zero. -/
structure PhyData.Closed (phy : PhyData) : Prop where
  usbProduct : phy.usbProduct.val.getD 31 0 = 0
  usbManufacturer : phy.usbManufacturer.val.getD 31 0 = 0

/-- **The fields that are not among the tags are as they are in a cleared record.** -/
structure PhyData.Absent (phy : PhyData) (tags : List PhyTag) : Prop where
  vidpid : .vidpid ∉ tags → phy.vidpidPresent = false ∧ phy.vidpid = byteZeros 4
  ledGpio : .ledGpio ∉ tags → phy.ledGpioPresent = false ∧ phy.ledGpio = 0
  ledBtness : .ledBtness ∉ tags → phy.ledBrightnessPresent = false ∧ phy.ledBrightness = 0
  opts : .opts ∉ tags → phy.opts = 0
  upBtn : .upBtn ∉ tags → phy.upBtnPresent = false ∧ phy.upBtn = 0
  usbProduct : .usbProduct ∉ tags →
    phy.usbProductPresent = false ∧ phy.usbProduct = byteZeros 32
  usbManufacturer : .usbManufacturer ∉ tags →
    phy.usbManufacturerPresent = false ∧ phy.usbManufacturer = byteZeros 32
  enabledCurves : .enabledCurves ∉ tags →
    phy.enabledCurvesPresent = false ∧ phy.enabledCurves = 0
  enabledUsbItf : .enabledUsbItf ∉ tags →
    phy.enabledUsbItfPresent = false ∧ phy.enabledUsbItf = 0
  ledDriver : .ledDriver ∉ tags → phy.ledDriverPresent = false ∧ phy.ledDriver = 0
  ledOrder : .ledDriver ∉ tags → .ledOrder ∉ tags →
    phy.ledOrderPresent = false ∧ phy.ledOrder = 0
  ledStatus : .ledStatus ∉ tags → phy.ledStatusPresent = false ∧ phy.ledStatus = byteZeros 10
  ledNotifications : .ledNotifications ∉ tags →
    phy.ledNotificationsPresent = false ∧ phy.ledNotifications = byteZeros 7
  ledModes : .ledModes ∉ tags → phy.ledModesPresent = false ∧ phy.ledModes = 0

section Accepted

variable {phy phy' : PhyData} {tag : PhyTag} {tags before : List PhyTag}

theorem PhyData.known_cleared : ({} : PhyData).Known :=
  ⟨nofun, nofun, nofun, nofun⟩

theorem PhyData.absent_cleared : ({} : PhyData).Absent [] := by
  constructor <;> simp

theorem PhyStep.known (h : PhyStep phy tag phy') (hknown : phy.Known) : phy'.Known := by
  obtain ⟨horder, hstatus, hnotifications, hmodes⟩ := hknown
  cases h with
  | ledDriverOrder value order hle =>
    exact ⟨fun _ ↦ hle, hstatus, hnotifications, hmodes⟩
  | ledOrder order hle => exact ⟨fun _ ↦ hle, hstatus, hnotifications, hmodes⟩
  | ledStatus value hvalue => exact ⟨horder, fun _ ↦ hvalue, hnotifications, hmodes⟩
  | ledNotifications value hvalue => exact ⟨horder, hstatus, fun _ ↦ hvalue, hmodes⟩
  | ledModes modes hvalue => exact ⟨horder, hstatus, hnotifications, fun _ ↦ hvalue⟩
  | _ => exact ⟨horder, hstatus, hnotifications, hmodes⟩

theorem nameCopied_last {dst : ByteArrayN 32} {text : Bytes} (hlen : text.length < 32)
    (h : dst.val.getD 31 0 = 0) : (nameCopied dst text hlen.le).val.getD 31 0 = 0 := by
  have hsplit : text.length + (31 - text.length) = 31 := by omega
  rw [nameCopied, getD_append_right _ _ _ _ (by omega), getD_eq_getElem?_getD,
    getElem?_drop, hsplit, ← getD_eq_getElem?_getD, h]

theorem PhyStep.closed (h : PhyStep phy tag phy') (hclosed : phy.Closed) : phy'.Closed := by
  obtain ⟨hproduct, hmanufacturer⟩ := hclosed
  cases h with
  | usbProduct text hlen => exact ⟨nameCopied_last hlen hproduct, hmanufacturer⟩
  | usbManufacturer text hlen => exact ⟨hproduct, nameCopied_last hlen hmanufacturer⟩
  | _ => exact ⟨hproduct, hmanufacturer⟩

theorem PhyData.Absent.mono (h : phy.Absent before) (hsub : before ⊆ tags) : phy.Absent tags := by
  have hout {tag : PhyTag} (hn : tag ∉ tags) : tag ∉ before := fun hm ↦ hn (hsub hm)
  exact ⟨h.vidpid ∘ hout, h.ledGpio ∘ hout, h.ledBtness ∘ hout, h.opts ∘ hout, h.upBtn ∘ hout,
    h.usbProduct ∘ hout, h.usbManufacturer ∘ hout, h.enabledCurves ∘ hout, h.enabledUsbItf ∘ hout,
    h.ledDriver ∘ hout, fun hn hn' ↦ h.ledOrder (hout hn) (hout hn'), h.ledStatus ∘ hout,
    h.ledNotifications ∘ hout, h.ledModes ∘ hout⟩

/-- A field changes what its tag stands for and nothing else. -/
theorem PhyStep.absent (h : PhyStep phy tag phy') (habsent : phy.Absent before) :
    phy'.Absent (before ++ [tag]) := by
  have hmono : phy.Absent (before ++ [tag]) := habsent.mono (subset_append_left ..)
  obtain ⟨⟩ := hmono
  have hlast : tag ∈ before ++ [tag] := by simp
  -- what is changed is not asked for, and the rest is known
  cases h <;> constructor <;>
    first | assumption | exact fun h ↦ absurd hlast h | exact fun _ h ↦ absurd hlast h

theorem PhySteps.known (h : PhySteps phy tags phy') (hknown : phy.Known) : phy'.Known := by
  induction h with
  | nil => exact hknown
  | cons hstep _ ih => exact ih (hstep.known hknown)

theorem PhySteps.closed (h : PhySteps phy tags phy') (hclosed : phy.Closed) : phy'.Closed := by
  induction h with
  | nil => exact hclosed
  | cons hstep _ ih => exact ih (hstep.closed hclosed)

theorem PhySteps.absent (h : PhySteps phy tags phy') (habsent : phy.Absent before) :
    phy'.Absent (before ++ tags) := by
  induction h generalizing before with
  | nil => rwa [append_nil]
  | cons hstep _ ih =>
    rw [append_cons]
    exact ih (hstep.absent habsent)

end Accepted

/-! ### What is written -/

/-- A string in its array. -/
def phyText : Bytes :=
  src.val.takeWhile (· != 0)

/-- The strings that are there end in their arrays. -/
structure PhyData.Ended (phy : PhyData) : Prop where
  usbProduct : phy.usbProductPresent → 0 ∈ phy.usbProduct.val
  usbManufacturer : phy.usbManufacturerPresent → 0 ∈ phy.usbManufacturer.val

theorem PhyData.ended_iff {phy : PhyData} : phy.Ended ↔
    (phy.usbProductPresent → 0 ∈ phy.usbProduct.val) ∧
      (phy.usbManufacturerPresent → 0 ∈ phy.usbManufacturer.val) :=
  ⟨fun h ↦ ⟨h.usbProduct, h.usbManufacturer⟩, fun h ↦ ⟨h.1, h.2⟩⟩

theorem length_phyText_le : (phyText src).length ≤ 32 :=
  (takeWhile_sublist _).length_le.trans src.property.le

theorem zero_notMem_phyText : 0 ∉ phyText src := by
  intro h
  simpa using mem_takeWhile_imp h

theorem length_phyText_lt {src : ByteArrayN 32} (h : 0 ∈ src.val) : (phyText src).length < 32 := by
  refine lt_of_le_of_ne (length_phyText_le src) fun hlen ↦ zero_notMem_phyText src ?_
  have htext : phyText src <+: src.val := takeWhile_prefix _
  rwa [htext.eq_of_length (hlen.trans src.property.symm)]

/-- A string that is read back. -/
def phyTextBack : ByteArrayN 32 :=
  nameCopied (byteZeros 32) (phyText src) (length_phyText_le src)

/-- The record that the fields stand for. -/
def PhyData.written : PhyData where
  vidpid := if phy.vidpidPresent then phy.vidpid else byteZeros 4
  enabledCurves := if phy.enabledCurvesPresent then phy.enabledCurves else 0
  usbProduct := if phy.usbProductPresent then phyTextBack phy.usbProduct else byteZeros 32
  usbManufacturer :=
    if phy.usbManufacturerPresent then phyTextBack phy.usbManufacturer else byteZeros 32
  opts := phy.opts
  ledGpio := if phy.ledGpioPresent then phy.ledGpio else 0
  ledBrightness := if phy.ledBrightnessPresent then phy.ledBrightness else 0
  upBtn := if phy.upBtnPresent then phy.upBtn else 0
  enabledUsbItf := if phy.enabledUsbItfPresent then phy.enabledUsbItf else 0
  ledDriver := if phy.ledDriverPresent then phy.ledDriver else 0
  ledOrder := if phy.ledOrderPresent then phy.ledOrder else 0
  ledStatus := if phy.ledStatusPresent then phy.ledStatus else statusDefaults
  ledNotifications :=
    if phy.ledNotificationsPresent then phy.ledNotifications else notificationDefaults
  ledModes := phy.writtenModes
  vidpidPresent := phy.vidpidPresent
  ledGpioPresent := phy.ledGpioPresent
  ledBrightnessPresent := phy.ledBrightnessPresent
  upBtnPresent := phy.upBtnPresent
  usbProductPresent := phy.usbProductPresent && (phyText phy.usbProduct).length != 0
  usbManufacturerPresent :=
    phy.usbManufacturerPresent && (phyText phy.usbManufacturer).length != 0
  enabledCurvesPresent := phy.enabledCurvesPresent
  enabledUsbItfPresent := phy.enabledUsbItfPresent
  ledDriverPresent := phy.ledDriverPresent
  ledOrderPresent := phy.ledOrderPresent
  ledStatusPresent := true
  ledNotificationsPresent := true
  ledModesPresent := true

/-- **What comes back**: what the fields stand for, with the defaults. -/
def PhyData.effective : PhyData :=
  phy.written.defaulted

section Pieces

variable (acc : PhyData) (present : Bool)

theorem phyRun_vidpid (vidpid : ByteArrayN 4) :
    phyRun acc (phyOptional present .vidpid [vidpid.val.getD 1 0, vidpid.val.getD 0 0,
      vidpid.val.getD 3 0, vidpid.val.getD 2 0]) = .ok { acc with
        vidpid := if present then vidpid else acc.vidpid
        vidpidPresent := present || acc.vidpidPresent } := by
  cases present with
  | false => rfl
  | true =>
    obtain ⟨bytes, hbytes⟩ := vidpid
    obtain ⟨b0, b1, b2, b3, rfl⟩ := length_eq_four.mp hbytes
    refine (phyRun_singleton rfl).trans ?_
    rw [phySet, phyMemcpy_of_length acc.vidpid rfl]
    rfl

theorem phyRun_ledGpio (value : UInt8) :
    phyRun acc (phyOptional present .ledGpio [value]) = .ok { acc with
      ledGpio := if present then value else acc.ledGpio
      ledGpioPresent := present || acc.ledGpioPresent } := by
  cases present <;> rfl

theorem phyRun_ledBtness (value : UInt8) :
    phyRun acc (phyOptional present .ledBtness [value]) = .ok { acc with
      ledBrightness := if present then value else acc.ledBrightness
      ledBrightnessPresent := present || acc.ledBrightnessPresent } := by
  cases present <;> rfl

theorem phyRun_opts (value : UInt16) :
    phyRun acc [(.opts, beBytes 2 value.toNat)] = .ok { acc with opts := value } := by
  obtain ⟨b0, b1, hbytes⟩ := length_eq_two.mp (length_beBytes 2 value.toNat)
  have hvalue : beNat [b0, b1] = value.toNat := by
    rw [← hbytes, beNat_beBytes value.toNat_lt]
  rw [hbytes, phyRun_singleton rfl]
  simp [phySet, hvalue]

theorem phyRun_upBtn (value : UInt8) :
    phyRun acc (phyOptional present .upBtn [value]) = .ok { acc with
      upBtn := if present then value else acc.upBtn
      upBtnPresent := present || acc.upBtnPresent } := by
  cases present <;> rfl

theorem phyRun_usbProduct {src : ByteArrayN 32} (h : present → 0 ∈ src.val) :
    phyRun acc (phyOptional present .usbProduct (phyText src ++ [0])) = .ok { acc with
      usbProduct :=
        if present then nameCopied acc.usbProduct (phyText src) (length_phyText_le src)
        else acc.usbProduct
      usbProductPresent :=
        if present then (phyText src).length != 0 else acc.usbProductPresent } := by
  cases present with
  | false => rfl
  | true =>
    have hlen := length_phyText_lt (h rfl)
    refine (phyRun_singleton (by simp [PhyTag.length])).trans ?_
    rw [phySet, phyName_string (zero_notMem_phyText src) hlen]
    rfl

theorem phyRun_usbManufacturer {src : ByteArrayN 32} (h : present → 0 ∈ src.val) :
    phyRun acc (phyOptional present .usbManufacturer (phyText src ++ [0])) = .ok { acc with
      usbManufacturer :=
        if present then nameCopied acc.usbManufacturer (phyText src) (length_phyText_le src)
        else acc.usbManufacturer
      usbManufacturerPresent :=
        if present then (phyText src).length != 0 else acc.usbManufacturerPresent } := by
  cases present with
  | false => rfl
  | true =>
    have hlen := length_phyText_lt (h rfl)
    refine (phyRun_singleton (by simp [PhyTag.length])).trans ?_
    rw [phySet, phyName_string (zero_notMem_phyText src) hlen]
    rfl

theorem phyRun_enabledCurves (value : UInt32) :
    phyRun acc (phyOptional present .enabledCurves (beBytes 4 value.toNat)) = .ok { acc with
      enabledCurves := if present then value else acc.enabledCurves
      enabledCurvesPresent := present || acc.enabledCurvesPresent } := by
  cases present with
  | false => rfl
  | true =>
    obtain ⟨b0, b1, b2, b3, hbytes⟩ := length_eq_four.mp (length_beBytes 4 value.toNat)
    have hvalue : beNat [b0, b1, b2, b3] = value.toNat := by
      rw [← hbytes, beNat_beBytes value.toNat_lt]
    rw [hbytes]
    refine (phyRun_singleton rfl).trans ?_
    simp [phySet, hvalue]

theorem phyRun_enabledUsbItf (value : UInt8) :
    phyRun acc (phyOptional present .enabledUsbItf [value]) = .ok { acc with
      enabledUsbItf := if present then value else acc.enabledUsbItf
      enabledUsbItfPresent := present || acc.enabledUsbItfPresent } := by
  cases present <;> rfl

/-- The order is written with the driver, or alone. -/
theorem phyRun_ledDriver_ledOrder (driver order : Bool) (value y : UInt8) :
    (phyRun acc (phyOptional driver .ledDriver (value :: if order then [y] else [])) >>=
      fun phy ↦ phyRun phy (phyOptional (order && !driver) .ledOrder [y])) =
      if order → y ≤ phyLedOrderBgr then .ok { acc with
        ledDriver := if driver then value else acc.ledDriver
        ledDriverPresent := driver || acc.ledDriverPresent
        ledOrder := if order then y else acc.ledOrder
        ledOrderPresent := order || acc.ledOrderPresent }
      else .error .wrongData := by
  rw [← phyRun_append]
  by_cases hy : y ≤ phyLedOrderBgr
  · have hle : ¬y > phyLedOrderBgr := UInt8.not_lt.mpr hy
    cases driver <;> cases order <;>
      first | rfl | exact (phyRun_singleton rfl).trans (by simp [phySet, hle])
  · have hgt : y > phyLedOrderBgr := UInt8.not_le.mp hy
    cases order with
    | false => cases driver <;> exact (if_pos nofun).symm
    | true =>
      refine Eq.trans ?_ (if_neg fun h ↦ hy (h rfl)).symm
      cases driver <;> exact (phyRun_singleton rfl).trans (by simp [phySet, hgt])

theorem phyRun_ledStatus (value other : ByteArrayN 10) :
    phyRun acc [(.ledStatus, if present then value.val else other.val)] =
      if StatusKnown (if present then value else other).val then .ok { acc with
        ledStatus := if present then value else other, ledStatusPresent := true }
      else .error .wrongData := by
  rw [← apply_ite Subtype.val]
  generalize (if present = true then value else other) = written
  rw [phyRun_singleton (by simp [PhyTag.length]), phySet_ledStatus written.property]

theorem phyRun_ledNotifications (value other : ByteArrayN 7) :
    phyRun acc [(.ledNotifications, if present then value.val else other.val)] =
      if NotificationsKnown (if present then value else other).val then .ok { acc with
        ledNotifications := if present then value else other, ledNotificationsPresent := true }
      else .error .wrongData := by
  rw [← apply_ite Subtype.val]
  generalize (if present = true then value else other) = written
  rw [phyRun_singleton (by simp [PhyTag.length]), phySet_ledNotifications written.property]

theorem phyRun_ledModes (modes : UInt8) :
    phyRun acc [(.ledModes, [1, modes])] =
      if modes &&& 0x80 = 0 then .ok { acc with ledModes := modes, ledModesPresent := true }
      else .error .wrongData := by
  rw [phyRun_singleton rfl, phySet_ledModes]
  simp

end Pieces

section Written

variable {phy : PhyData}

theorem phyStringField_eq {tag : PhyTag} {present : Bool} {src : ByteArrayN 32}
    (h : present → 0 ∈ src.val) :
    phyStringField present tag src = .ok (phyOptional present tag (phyText src ++ [0])) := by
  cases present with
  | false => rfl
  | true =>
    have hend : src.val.contains 0 = true := by simpa using h rfl
    rw [phyStringField, phyString, if_pos rfl, if_pos hend]
    rfl

/-- The fields that are written, when the strings end. -/
def phyWrittenFields (phy : PhyData) : List PhyField :=
  phyOptional phy.vidpidPresent .vidpid
    [phy.vidpid.val.getD 1 0, phy.vidpid.val.getD 0 0, phy.vidpid.val.getD 3 0,
      phy.vidpid.val.getD 2 0] ++
  phyOptional phy.ledGpioPresent .ledGpio [phy.ledGpio] ++
  phyOptional phy.ledBrightnessPresent .ledBtness [phy.ledBrightness] ++
  [(.opts, beBytes 2 phy.opts.toNat)] ++
  phyOptional phy.upBtnPresent .upBtn [phy.upBtn] ++
  phyOptional phy.usbProductPresent .usbProduct (phyText phy.usbProduct ++ [0]) ++
  phyOptional phy.usbManufacturerPresent .usbManufacturer
    (phyText phy.usbManufacturer ++ [0]) ++
  phyOptional phy.enabledCurvesPresent .enabledCurves (beBytes 4 phy.enabledCurves.toNat) ++
  phyOptional phy.enabledUsbItfPresent .enabledUsbItf [phy.enabledUsbItf] ++
  phyOptional phy.ledDriverPresent .ledDriver
    (phy.ledDriver :: if phy.ledOrderPresent then [phy.ledOrder] else []) ++
  phyOptional (phy.ledOrderPresent && !phy.ledDriverPresent) .ledOrder [phy.ledOrder] ++
  [(.ledStatus, if phy.ledStatusPresent then phy.ledStatus.val else statusDefaults.val)] ++
  [(.ledNotifications,
    if phy.ledNotificationsPresent then phy.ledNotifications.val
    else notificationDefaults.val)] ++
  [(.ledModes, [1, phy.writtenModes])]

theorem phyFields_eq (h : phy.Ended) : phyFields phy = .ok (phyWrittenFields phy) := by
  rw [phyFields, phyStringField_eq h.usbProduct, phyStringField_eq h.usbManufacturer]
  rfl

/-- The modes that are written are known if the record's are. -/
theorem writtenModes_known_iff :
    phy.writtenModes &&& 0x80 = 0 ↔ (phy.ledModesPresent → phy.ledModes &&& 0x80 = 0) := by
  rw [PhyData.writtenModes]
  rcases phy.ledModesPresent with - | -
  · simp only [Bool.false_eq_true, if_false, false_implies, iff_true]
    split_ifs <;> rfl
  · simp

/-- What is written passes the checks of the LED. -/
structure PhyData.Passes (phy : PhyData) : Prop where
  ledOrder : phy.ledOrderPresent → phy.ledOrder ≤ phyLedOrderBgr
  ledStatus : StatusKnown (if phy.ledStatusPresent then phy.ledStatus else statusDefaults).val
  ledNotifications : NotificationsKnown
    (if phy.ledNotificationsPresent then phy.ledNotifications else notificationDefaults).val
  ledModes : phy.writtenModes &&& 0x80 = 0

theorem PhyData.passes_iff : phy.Passes ↔ phy.Known := by
  constructor
  · rintro ⟨horder, hstatus, hnotifications, hmodes⟩
    refine ⟨horder, fun h ↦ ?_, fun h ↦ ?_, writtenModes_known_iff.mp hmodes⟩
    · rwa [if_pos h] at hstatus
    · rwa [if_pos h] at hnotifications
  · rintro ⟨horder, hstatus, hnotifications, hmodes⟩
    refine ⟨horder, ?_, ?_, writtenModes_known_iff.mpr hmodes⟩
    · split_ifs with h
      · exact hstatus h
      · exact statusKnown_defaults
    · split_ifs with h
      · exact hnotifications h
      · exact notificationsKnown_defaults

/-- **What is written is read as the record that the fields stand for**, or refused if it does not
pass. -/
theorem phyRun_written (h : phy.Ended) :
    (phy.Passes → phyRun {} (phyWrittenFields phy) = .ok phy.written) ∧
      (¬phy.Passes → phyRun {} (phyWrittenFields phy) = .error .wrongData) := by
  have hdriver (acc : PhyData) := phyRun_ledDriver_ledOrder acc phy.ledDriverPresent
    phy.ledOrderPresent phy.ledDriver phy.ledOrder
  simp only [phyWrittenFields, phyRun_append, phyRun_vidpid, phyRun_ledGpio, phyRun_ledBtness,
    phyRun_opts, phyRun_upBtn, phyRun_usbProduct _ _ h.usbProduct,
    phyRun_usbManufacturer _ _ h.usbManufacturer, phyRun_enabledCurves, phyRun_enabledUsbItf,
    ok_bind, hdriver]
  by_cases horder : phy.ledOrderPresent → phy.ledOrder ≤ phyLedOrderBgr
  swap
  · rw [if_neg horder, error_bind, error_bind, error_bind]
    exact ⟨fun h ↦ absurd h.ledOrder horder, fun _ ↦ rfl⟩
  rw [if_pos horder, ok_bind, phyRun_ledStatus]
  by_cases hstatus :
    StatusKnown (if phy.ledStatusPresent then phy.ledStatus else statusDefaults).val
  swap
  · rw [if_neg hstatus, error_bind, error_bind]
    exact ⟨fun h ↦ absurd h.ledStatus hstatus, fun _ ↦ rfl⟩
  rw [if_pos hstatus, ok_bind, phyRun_ledNotifications]
  by_cases hnotifications : NotificationsKnown
    (if phy.ledNotificationsPresent then phy.ledNotifications else notificationDefaults).val
  swap
  · rw [if_neg hnotifications, error_bind]
    exact ⟨fun h ↦ absurd h.ledNotifications hnotifications, fun _ ↦ rfl⟩
  rw [if_pos hnotifications, ok_bind, phyRun_ledModes]
  by_cases hmodes : phy.writtenModes &&& 0x80 = 0
  swap
  · rw [if_neg hmodes]
    exact ⟨fun h ↦ absurd h.ledModes hmodes, fun _ ↦ rfl⟩
  rw [if_pos hmodes]
  refine ⟨fun _ ↦ ?_, fun h ↦ absurd ⟨horder, hstatus, hnotifications, hmodes⟩ h⟩
  have hand (present text : Bool) : (if present then text else false) = (present && text) := by
    cases present <;> rfl
  simp only [Bool.or_false, hand]
  rfl

/-- The bytes of some fields. -/
def phyBytes (fields : List PhyField) : Bytes :=
  fields.flatMap (·.bytes)

theorem length_phyBytes_append (fields fields' : List PhyField) :
    (phyBytes (fields ++ fields')).length =
      (phyBytes fields).length + (phyBytes fields').length := by
  simp [phyBytes]

@[simp]
theorem length_phyBytes_nil : (phyBytes []).length = 0 :=
  rfl

@[simp]
theorem length_phyBytes_single (tag : PhyTag) (v : Bytes) :
    (phyBytes [(tag, v)]).length = v.length + 2 := by
  simp [phyBytes, PhyField.bytes]

theorem length_phyBytes_optional_le (present : Bool) (tag : PhyTag) (v : Bytes) :
    (phyBytes (phyOptional present tag v)).length ≤ v.length + 2 := by
  cases present <;> simp [phyOptional]

theorem length_phyBytes_string_le {present : Bool} (tag : PhyTag) {src : ByteArrayN 32}
    (h : present → 0 ∈ src.val) :
    (phyBytes (phyOptional present tag (phyText src ++ [0]))).length ≤ 34 := by
  cases present with
  | false => simp [phyOptional]
  | true =>
    have hlen := length_phyText_lt (h rfl)
    simp [phyOptional]
    omega

theorem length_phyBytes_ledDriver_ledOrder_le (driver order : Bool) (value y : UInt8) :
    (phyBytes (phyOptional driver .ledDriver (value :: if order then [y] else []))).length +
      (phyBytes (phyOptional (order && !driver) .ledOrder [y])).length ≤ 4 := by
  cases driver <;> cases order <;> simp [phyOptional]

theorem length_le_of_mem_phyBytes {fields : List PhyField} {field : PhyField}
    (h : field ∈ fields) : field.2.length ≤ (phyBytes fields).length := by
  obtain ⟨before, after, rfl⟩ := append_of_mem h
  rw [← singleton_append, length_phyBytes_append, length_phyBytes_append, length_phyBytes_single]
  omega

/-- **What is written is shorter than the room for it.** -/
theorem length_phyBytes_written_le (h : phy.Ended) :
    (phyBytes (phyWrittenFields phy)).length ≤ 125 := by
  have hstatus :
      (if phy.ledStatusPresent then phy.ledStatus.val else statusDefaults.val).length = 10 := by
    split_ifs
    · exact phy.ledStatus.property
    · rfl
  have hnotifications : (if phy.ledNotificationsPresent then phy.ledNotifications.val
      else notificationDefaults.val).length = 7 := by
    split_ifs
    · exact phy.ledNotifications.property
    · rfl
  have hdriver := length_phyBytes_ledDriver_ledOrder_le phy.ledDriverPresent phy.ledOrderPresent
    phy.ledDriver phy.ledOrder
  have hproduct := length_phyBytes_string_le .usbProduct h.usbProduct
  have hmanufacturer := length_phyBytes_string_le .usbManufacturer h.usbManufacturer
  have hone (present : Bool) (tag : PhyTag) (value : UInt8) :
      (phyBytes (phyOptional present tag [value])).length ≤ 3 :=
    length_phyBytes_optional_le present tag [value]
  have hvidpid := length_phyBytes_optional_le phy.vidpidPresent .vidpid
    [phy.vidpid.val.getD 1 0, phy.vidpid.val.getD 0 0, phy.vidpid.val.getD 3 0,
      phy.vidpid.val.getD 2 0]
  have hcurves := length_phyBytes_optional_le phy.enabledCurvesPresent .enabledCurves
    (beBytes 4 phy.enabledCurves.toNat)
  have hgpio := hone phy.ledGpioPresent .ledGpio phy.ledGpio
  have hbtness := hone phy.ledBrightnessPresent .ledBtness phy.ledBrightness
  have hup := hone phy.upBtnPresent .upBtn phy.upBtn
  have hitf := hone phy.enabledUsbItfPresent .enabledUsbItf phy.enabledUsbItf
  rw [length_beBytes] at hcurves
  simp only [length_cons, length_nil] at hvidpid
  simp only [phyWrittenFields, length_phyBytes_append, length_phyBytes_single, hstatus,
    hnotifications, length_beBytes, length_cons, length_nil]
  omega

/-- **`phy_serialize_data` writes the fields**, if there is room for it and the strings end. -/
theorem phySerializeData_eq {data : Bytes} {capacity : ℕ} (h : phy.Ended)
    (hroom : data.length + phyMaxSize ≤ capacity) :
    phySerializeData phy data capacity = .ok (data ++ phyBytes (phyWrittenFields phy)) := by
  have hlen := length_phyBytes_written_le h
  have hmax : phyMaxSize = 128 := rfl
  have hends : ¬((phy.usbProductPresent && !phy.usbProduct.val.contains 0) ||
      (phy.usbManufacturerPresent && !phy.usbManufacturer.val.contains 0)) := by
    simpa using ⟨h.usbProduct, h.usbManufacturer⟩
  rw [phySerializeData, if_neg (by omega), if_neg hends, phyFields_eq h, ok_bind]
  exact if_pos (by rw [← phyBytes]; omega)

theorem phySerializeData_error {data : Bytes} {capacity : ℕ} (h : ¬phy.Ended)
    (hroom : data.length + phyMaxSize ≤ capacity) :
    phySerializeData phy data capacity = .error .wrongData := by
  have hends : (phy.usbProductPresent && !phy.usbProduct.val.contains 0) ||
      (phy.usbManufacturerPresent && !phy.usbManufacturer.val.contains 0) := by
    by_contra hends
    exact h (by simpa [PhyData.ended_iff] using hends)
  rw [phySerializeData, if_neg (by omega), if_pos hends]

/-- **What is written comes back** with the defaults, or is refused. -/
theorem phyUnserialize_serialize (h : phy.Ended) (before : PhyData) :
    (phy.Known → phyUnserializeData (phyBytes (phyWrittenFields phy)) before = .ok phy.effective) ∧
    (¬phy.Known → phyUnserializeData (phyBytes (phyWrittenFields phy)) before =
      .error .wrongData) := by
  have hlen := length_phyBytes_written_le h
  have hne : (phyBytes (phyWrittenFields phy)).length ≠ 0 := by
    rw [phyWrittenFields, length_phyBytes_append, length_phyBytes_single]
    omega
  have hshort : ∀ field ∈ phyWrittenFields phy, field.2.length < 256 := fun field hfield ↦ by
    have hle := length_le_of_mem_phyBytes hfield
    omega
  obtain ⟨hok, herror⟩ := phyRun_written h
  rw [PhyData.passes_iff] at hok herror
  rw [phyUnserializeData, if_neg (by omega), phyBytes, phyUnserializeLoop_fields hshort]
  exact ⟨fun hknown ↦ congrArg (· >>= _) (hok hknown),
    fun hknown ↦ congrArg (· >>= _) (herror hknown)⟩

theorem phyText_back (src : ByteArrayN 32) : phyText (phyTextBack src) = phyText src := by
  have hall : ∀ byte ∈ phyText src, (byte != 0) = true := fun byte hbyte ↦ by
    simpa using mem_takeWhile_imp hbyte
  have hzeros (n : ℕ) : (List.replicate n (0 : UInt8)).takeWhile (· != 0) = [] := by
    cases n <;> rfl
  rw [phyText, phyTextBack, nameCopied, takeWhile_append_of_pos hall, byteZeros,
    drop_replicate, hzeros, append_nil]

theorem phyTextBack_congr {src src' : ByteArrayN 32} (h : phyText src = phyText src') :
    phyTextBack src = phyTextBack src' := by
  simp only [phyTextBack, h]

theorem phyTextBack_of_empty {src : ByteArrayN 32} (h : phyText src = []) :
    phyTextBack src = byteZeros 32 := by
  simp only [phyTextBack, h]
  rfl

/-- A string that is read back, or none. -/
theorem phyTextBack_round (present : Bool) (src : ByteArrayN 32) :
    (if (present && (phyText src).length != 0) = true then
      phyTextBack (if present = true then phyTextBack src else byteZeros 32) else byteZeros 32) =
      if present = true then phyTextBack src else byteZeros 32 := by
  cases present with
  | false => rfl
  | true =>
    by_cases hempty : phyText src = []
    · rw [phyTextBack_of_empty hempty, hempty]
      rfl
    · rw [if_pos (by simpa using hempty)]
      exact phyTextBack_congr (phyText_back src)

theorem phyText_round (present : Bool) (src : ByteArrayN 32) :
    (present && (phyText src).length != 0 &&
      (phyText (if present = true then phyTextBack src else byteZeros 32)).length != 0) =
      (present && (phyText src).length != 0) := by
  cases present with
  | false => rfl
  | true => simp [phyText_back]

/-- A second round changes nothing. -/
theorem PhyData.effective_effective : phy.effective.effective = phy.effective := by
  have hround {α : Type} (present : Bool) (value other : α) :
      (if present = true then (if present = true then value else other) else other) =
        if present = true then value else other := by
    cases present <;> rfl
  have horder := (hround phy.ledOrderPresent phy.effective.ledOrder 0).trans
    (hround phy.ledOrderPresent (if phy.ledOrderPresent then phy.ledOrder else 0) 0)
  rw [mk.injEq]
  exact ⟨hround phy.vidpidPresent phy.vidpid _, hround phy.enabledCurvesPresent phy.enabledCurves _,
    phyTextBack_round phy.usbProductPresent phy.usbProduct,
    phyTextBack_round phy.usbManufacturerPresent phy.usbManufacturer, rfl,
    hround phy.ledGpioPresent phy.ledGpio _, hround phy.ledBrightnessPresent phy.ledBrightness _,
    hround phy.upBtnPresent phy.upBtn _, rfl, hround phy.ledDriverPresent phy.ledDriver _, horder,
    rfl, rfl, rfl, rfl, rfl, rfl, rfl, phyText_round phy.usbProductPresent phy.usbProduct,
    phyText_round phy.usbManufacturerPresent phy.usbManufacturer, rfl, rfl, rfl, rfl, rfl, rfl, rfl⟩

end Written

/-! ### The law -/

theorem PhyData.Known.effective {phy : PhyData} (h : phy.Known) : phy.effective.Known := by
  obtain ⟨horder, hstatus, hnotifications, hmodes⟩ := PhyData.passes_iff.mpr h
  refine ⟨fun hpresent ↦ ?_, fun _ ↦ hstatus, fun _ ↦ hnotifications, fun _ ↦ hmodes⟩
  have hpresent' : phy.ledOrderPresent = true := hpresent
  simp only [PhyData.effective, PhyData.defaulted, PhyData.written, hpresent', if_true]
  exact horder hpresent'

theorem zero_mem_phyTextBack {src : ByteArrayN 32} (h : 0 ∈ src.val) :
    0 ∈ (phyTextBack src).val := by
  have hlen := length_phyText_lt h
  simp only [phyTextBack, nameCopied, byteZeros, drop_replicate, mem_append, mem_replicate]
  exact .inr ⟨by omega, trivial⟩

theorem PhyData.Ended.effective {phy : PhyData} (h : phy.Ended) : phy.effective.Ended := by
  refine ⟨fun hpresent ↦ ?_, fun hpresent ↦ ?_⟩
  · have hpresent' := ((Bool.and_eq_true ..).mp hpresent).1
    simp only [PhyData.effective, PhyData.defaulted, PhyData.written, hpresent', if_true]
    exact zero_mem_phyTextBack (h.usbProduct hpresent')
  · have hpresent' := ((Bool.and_eq_true ..).mp hpresent).1
    simp only [PhyData.effective, PhyData.defaulted, PhyData.written, hpresent', if_true]
    exact zero_mem_phyTextBack (h.usbManufacturer hpresent')

theorem PhyData.Known.defaulted {phy : PhyData} (h : phy.Known) : phy.defaulted.Known := by
  refine ⟨fun hpresent ↦ ?_, h.ledStatus, h.ledNotifications, h.ledModes⟩
  have hpresent' : phy.ledOrderPresent = true := hpresent
  simp only [PhyData.defaulted, hpresent', if_true]
  exact h.ledOrder hpresent'

theorem zero_mem_of_last {src : ByteArrayN 32} (h : src.val.getD 31 0 = 0) : 0 ∈ src.val := by
  rw [getD_eq_getElem _ _ (by omega)] at h
  exact mem_of_getElem h

theorem PhyData.Closed.ended {phy : PhyData} (h : phy.Closed) : phy.defaulted.Ended :=
  ⟨fun _ ↦ zero_mem_of_last h.usbProduct, fun _ ↦ zero_mem_of_last h.usbManufacturer⟩

/-- A record that a parser has accepted: all is known, and the strings end. -/
theorem phyUnserializeData_cases (data : Bytes) (before : PhyData) :
    phyUnserializeData data before = .error .nullParam ∨
      phyUnserializeData data before = .error .wrongData ∨
        ∃ (fields : List PhyField) (phy : PhyData), data = phyBytes fields ∧
          phyUnserializeData data before = .ok phy.defaulted ∧
            PhySteps {} (fields.map Prod.fst) phy := by
  by_cases hlen : data.length = 0 ∨ data.length > 0xFFFF
  · exact .inl (if_pos hlen)
  rw [phyUnserializeData, if_neg hlen]
  obtain hbad | ⟨fields, phy, hdata, hloop, hsteps⟩ := phyUnserializeLoop_cases data before.cleared
  · exact .inr (.inl (by rw [hbad, error_bind]))
  · exact .inr (.inr ⟨fields, phy, hdata, by rw [hloop, ok_bind], hsteps⟩)

theorem phyUnserializeData_ok {data : Bytes} {before phy : PhyData}
    (h : phyUnserializeData data before = .ok phy) :
    phy.Known ∧ phy.Ended ∧ ∃ (fields : List PhyField) (read : PhyData),
      data = phyBytes fields ∧ phy = read.defaulted ∧ read.Absent (fields.map Prod.fst) := by
  obtain hbad | hbad | ⟨fields, read, hdata, hread, hsteps⟩ :=
    phyUnserializeData_cases data before
  · cases hbad.symm.trans h
  · cases hbad.symm.trans h
  · obtain rfl := Except.ok.inj (hread.symm.trans h)
    exact ⟨(hsteps.known PhyData.known_cleared).defaulted, (hsteps.closed ⟨rfl, rfl⟩).ended,
      fields, read, hdata, rfl, hsteps.absent PhyData.absent_cleared⟩

theorem phyUnserializeData_ne_outOfBounds (data : Bytes) (before : PhyData) :
    phyUnserializeData data before ≠ .error .outOfBounds := by
  obtain h | h | ⟨_, _, -, h, -⟩ := phyUnserializeData_cases data before
  · rw [h]
    exact nofun
  · rw [h]
    exact nofun
  · rw [h]
    exact nofun

theorem phySerializeData_ne_outOfBounds (data : Bytes) (capacity : ℕ) :
    phySerializeData phy data capacity ≠ .error .outOfBounds := by
  by_cases hroom : data.length + phyMaxSize ≤ capacity
  · by_cases hended : phy.Ended
    · rw [phySerializeData_eq hended hroom]
      exact nofun
    · rw [phySerializeData_error hended hroom]
      exact nofun
  · rw [phySerializeData, if_pos (by omega)]
    exact nofun

theorem phySerializeData_nil {phy : PhyData} (h : phy.Ended) :
    phySerializeData phy [] phyMaxSize = .ok (phyBytes (phyWrittenFields phy)) := by
  rw [phySerializeData_eq h (by simp), nil_append]

/-- A second round of what is known gives what the first has given. -/
theorem exists_rounds {phy : PhyData} (hknown : phy.Known) (hended : phy.Ended) :
    ∃ bytes once, phySerializeData phy [] phyMaxSize = .ok bytes ∧
      (∀ before, phyUnserializeData bytes before = .ok once) ∧
      ∃ again, phySerializeData once [] phyMaxSize = .ok again ∧
        ∀ before, phyUnserializeData again before = .ok once := by
  refine ⟨_, phy.effective, phySerializeData_nil hended,
    fun before ↦ (phyUnserialize_serialize hended before).1 hknown, _,
    phySerializeData_nil hended.effective, fun before ↦ ?_⟩
  rw [(phyUnserialize_serialize hended.effective before).1 hknown.effective,
    PhyData.effective_effective]

/-- **The codec.** What is serialized fits and comes back with its defaults, or is refused where the
parser does not know it; a second round changes nothing; what is not in the input is as in a cleared
record, and no byte outside the arrays is read or written. -/
theorem phy_codec_law :
    (∀ (phy : PhyData) (data : Bytes) (capacity : ℕ), data.length + phyMaxSize ≤ capacity →
      (¬phy.Ended → phySerializeData phy data capacity = .error .wrongData) ∧
      (phy.Ended → ∃ bytes, phySerializeData phy data capacity = .ok (data ++ bytes) ∧
        bytes.length ≤ phyMaxSize ∧ ∀ before,
          (phy.Known → phyUnserializeData bytes before = .ok phy.effective) ∧
          (¬phy.Known → phyUnserializeData bytes before = .error .wrongData))) ∧
    (∀ (data : Bytes) (before phy : PhyData), phyUnserializeData data before = .ok phy →
      (∃ bytes once, phySerializeData phy [] phyMaxSize = .ok bytes ∧
        (∀ before, phyUnserializeData bytes before = .ok once) ∧
        ∃ again, phySerializeData once [] phyMaxSize = .ok again ∧
          ∀ before, phyUnserializeData again before = .ok once) ∧
      ∃ (fields : List PhyField) (read : PhyData), data = phyBytes fields ∧
        phy = read.defaulted ∧ read.Absent (fields.map Prod.fst)) ∧
    (∀ (phy : PhyData) (data : Bytes) (capacity : ℕ),
      phySerializeData phy data capacity ≠ .error .outOfBounds) ∧
    ∀ (data : Bytes) (before : PhyData), phyUnserializeData data before ≠ .error .outOfBounds := by
  refine ⟨fun phy data capacity hroom ↦ ⟨fun hended ↦ phySerializeData_error hended hroom,
    fun hended ↦ ⟨_, phySerializeData_eq hended hroom, ?_, phyUnserialize_serialize hended⟩⟩,
    fun data before phy h ↦ ?_, phySerializeData_ne_outOfBounds, phyUnserializeData_ne_outOfBounds⟩
  · exact (length_phyBytes_written_le hended).trans (by decide)
  · obtain ⟨hknown, hended, hfields⟩ := phyUnserializeData_ok h
    exact ⟨exists_rounds hknown hended, hfields⟩

/-- A cleared record does not come back as it is: the settings of the LED are written. -/
theorem phy_round_advertises :
    ¬∀ phy : PhyData, phy.Ended → ∃ bytes, phySerializeData phy [] phyMaxSize = .ok bytes ∧
      phyUnserializeData bytes {} = .ok phy := by
  intro h
  have hended : ({} : PhyData).Ended :=
    PhyData.ended_iff.mpr ⟨fun h ↦ absurd h (by decide), fun h ↦ nomatch h⟩
  obtain ⟨bytes, hbytes, hback⟩ := h {} hended
  rw [phySerializeData_eq hended (by simp), Except.ok.injEq] at hbytes
  subst hbytes
  rw [nil_append, (phyUnserialize_serialize hended {}).1 PhyData.known_cleared,
    Except.ok.injEq] at hback
  exact absurd (congrArg PhyData.ledStatusPresent hback) (by decide)

end PicoAll

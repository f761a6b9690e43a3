import PicoAll.Transport.Apdu
import PicoAll.Lib.BoundedRead

/-!
# Encoding and parsing of commands

A command has a header, some data and perhaps a number of bytes that is expected in return, and is
written in the short or in the extended form, in four cases each: with and without data, with and
without that number (`ApduRequest.encode`). `apdu_process` tells the forms apart by the length of the
buffer and its first bytes. It is taken here as it is written, with offsets into the buffer and with
each read checked (`apduProcessFields`), and it computes what `apduParse` does
(`apduProcessFields_spec`).

It sets the fields of every encoding of at most 65535 bytes. A buffer that is none is refused, but
for two kinds: a length of zero is taken for one of no data where the number that is expected
follows it (`ZeroLc`).
-/

namespace PicoAll

open BigEndian ByteBuffer BoundedRead List Nat Option

/-- What `apdu_process` sets. -/
structure ApduFields where
  nc : ℕ
  ne : ℕ
  /-- Where `data` points to; it stays where it was in a command without data. -/
  data : Option ℕ
  deriving DecidableEq, Repr

variable (buffer : Bytes)

/-- An expected length, in one byte or two, in which 0 stands for one more than the largest. -/
def apduReadLe (off width : ℕ) : BoundedRead ℕ := do
  let ne ← number buffer off width
  return if ne = 0 then 256 ^ width else ne

/-- `apdu_process`, up to where the command is known. -/
def apduProcessFields : BoundedRead (Option ApduFields) :=
  if buffer.length < 4 ∨ buffer.length > 0xffff then
    return none
  else if buffer.length = 4 then
    return some ⟨0, 256, none⟩
  else if buffer.length = 5 then do
    let ne ← apduReadLe buffer 4 1
    return some ⟨0, ne, none⟩
  else do
    let lc ← byte buffer 4
    if lc = 0 ∧ buffer.length ≥ 7 then
      if buffer.length = 7 then
        let ne ← apduReadLe buffer 5 2
        return some ⟨0, ne, none⟩
      else
        let nc ← number buffer 5 2
        let expectedSize := nc + 7
        if buffer.length ≠ expectedSize ∧ buffer.length ≠ expectedSize + 2 then
          return none
        else if buffer.length = expectedSize + 2 then
          let ne ← apduReadLe buffer (buffer.length - 2) 2
          return some ⟨nc, ne, some 7⟩
        else
          return some ⟨nc, 0, some 7⟩
    else
      let nc := lc.toNat
      let expectedSize := nc + 5
      if buffer.length ≠ expectedSize ∧ buffer.length ≠ expectedSize + 1 then
        return none
      else if buffer.length = expectedSize + 1 then
        let ne ← apduReadLe buffer (buffer.length - 1) 1
        return some ⟨nc, ne, some 5⟩
      else
        return some ⟨nc, 0, some 5⟩

/-- The header of a command: `CLA`, `INS`, `P1` and `P2` of `apdu.h`. -/
def apduHeader : BoundedRead ApduHeader := do
  return ⟨← byte buffer 0, ← byte buffer 1, ← byte buffer 2, ← byte buffer 3⟩

/-- The command as its handlers read it: `nc` bytes at `data`. -/
def apduProcessRead : BoundedRead (Option ApduCommand) := do
  match ← apduProcessFields buffer with
  | none => return none
  | some fields =>
    let header ← apduHeader buffer
    let data ← bytes buffer (fields.data.getD 0) fields.nc
    return some ⟨header, data, fields.ne⟩

/-! ### The parser and its reads -/

section Reads

variable {buffer tail : Bytes} {lc : UInt8}

theorem apduParseBody_short (htail : tail ≠ []) (hshort : ¬(lc = 0 ∧ 2 ≤ tail.length)) :
    apduParseBody (lc :: tail) =
      if tail.length = lc.toNat then some (tail, 0)
      else if tail.length = lc.toNat + 1 then
        some (tail.take lc.toNat, apduLe (tail.drop lc.toNat))
      else none := by
  rw [apduParseBody, if_neg hshort]
  exact fun h ↦ htail h

theorem apduParseBody_extended (htail : 2 ≤ tail.length) :
    apduParseBody (0 :: tail) =
      if tail.length = 2 then some ([], apduLe tail)
      else if (tail.drop 2).length = beNat (tail.take 2) then some (tail.drop 2, 0)
      else if (tail.drop 2).length = beNat (tail.take 2) + 2 then
        some ((tail.drop 2).take (beNat (tail.take 2)), apduLe ((tail.drop 2).drop (beNat (tail.take 2))))
      else none := by
  rw [apduParseBody, if_pos ⟨rfl, htail⟩]
  rintro rfl
  exact absurd htail (by decide)

variable {off : ℕ} {body : Bytes}

/-- The expected length in what is left of a buffer. -/
theorem apduReadLe_of_pointsTo {width : ℕ} (h : PointsTo buffer off tail)
    (hwidth : tail.length = width) : apduReadLe buffer off width = some (apduLe tail) := by
  rw [apduReadLe, h.number hwidth.ge, take_of_length_le hwidth.le, ← hwidth]
  rfl

/-- The expected length behind the data. -/
theorem apduReadLe_end {nc width : ℕ} (h : PointsTo buffer off tail)
    (hlength : tail.length = nc + width) :
    apduReadLe buffer (buffer.length - width) width = some (apduLe (tail.drop nc)) := by
  have hend : buffer.length - width = off + nc := by
    rw [h.length]
    omega
  rw [hend]
  exact apduReadLe_of_pointsTo (h.skip (by omega)) (by rw [length_drop]; omega)

/-- What the fields have to do with the body of the command: the data are inside the buffer. -/
inductive ApduFound (buffer body : Bytes) : Option ApduFields → Prop
  | refused (h : apduParseBody body = none) : ApduFound buffer body none
  | found {nc ne : ℕ} {data : Option ℕ} {rest : Bytes} (points : PointsTo buffer (data.getD 0) rest)
      (fits : nc ≤ rest.length) (h : apduParseBody body = some (rest.take nc, ne)) :
      ApduFound buffer body (some ⟨nc, ne, data⟩)

/-- Data at an offset. -/
theorem ApduFound.at {rest : Bytes} {nc ne : ℕ} (points : PointsTo buffer off rest)
    (fits : nc ≤ rest.length) (h : apduParseBody body = some (rest.take nc, ne)) :
    ApduFound buffer body (some ⟨nc, ne, some off⟩) :=
  .found points fits h

/-- No data. -/
theorem ApduFound.empty {ne : ℕ} (h : apduParseBody body = some ([], ne)) :
    ApduFound buffer body (some ⟨0, ne, none⟩) :=
  .found (PointsTo.start buffer) (zero_le _) (by rw [take_zero]; exact h)

theorem apduProcessFields_short (h : PointsTo buffer 4 (lc :: tail)) (htail : tail ≠ [])
    (hlen : buffer.length ≤ 0xffff) (hshort : ¬(lc = 0 ∧ 2 ≤ tail.length)) :
    ∃ fields, apduProcessFields buffer = some fields ∧ ApduFound buffer (lc :: tail) fields := by
  have hpos := length_pos_of_ne_nil htail
  have hlength : buffer.length = tail.length + 5 := by
    rw [h.length, length_cons]
    omega
  have hbranch : ¬(lc = 0 ∧ buffer.length ≥ 7) := fun h ↦ hshort ⟨h.1, by omega⟩
  have hparse := apduParseBody_short htail hshort
  rw [apduProcessFields, if_neg (by omega), if_neg (by omega), if_neg (by omega), h.byte]
  simp only [bind_eq_bind, bind_some, if_neg hbranch]
  by_cases hdata : tail.length = lc.toNat
  · rw [if_pos hdata] at hparse
    refine ⟨_, by rw [if_neg (by omega), if_neg (by omega)]; rfl, .at h.next hdata.ge ?_⟩
    rw [hparse, ← hdata, take_length]
  rw [if_neg hdata] at hparse
  by_cases hexpected : tail.length = lc.toNat + 1
  · rw [if_pos hexpected] at hparse
    refine ⟨_, ?_, .at h.next (by omega) hparse⟩
    rw [if_neg (by omega), if_pos (by omega), apduReadLe_end h.next hexpected]
    rfl
  · rw [if_neg hexpected] at hparse
    exact ⟨none, by rw [if_pos (by omega)]; rfl, .refused hparse⟩

theorem apduProcessFields_extended (h : PointsTo buffer 4 (0 :: tail)) (htail : 2 ≤ tail.length)
    (hlen : buffer.length ≤ 0xffff) :
    ∃ fields, apduProcessFields buffer = some fields ∧ ApduFound buffer (0 :: tail) fields := by
  have hlength : buffer.length = tail.length + 5 := by
    rw [h.length, length_cons]
    omega
  have hparse := apduParseBody_extended htail
  have hnc := h.next.number (n := 2) htail
  have hrest : PointsTo buffer 7 (tail.drop 2) := h.next.skip htail
  rw [length_drop] at hparse
  rw [apduProcessFields, if_neg (by omega), if_neg (by omega), if_neg (by omega), h.byte]
  simp only [bind_eq_bind, bind_some]
  rw [if_pos ⟨trivial, by omega⟩]
  by_cases hexact : tail.length = 2
  · rw [if_pos hexact] at hparse
    refine ⟨_, ?_, .empty hparse⟩
    rw [if_pos (by omega), apduReadLe_of_pointsTo h.next hexact]
    rfl
  rw [if_neg hexact] at hparse
  rw [if_neg (by omega), hnc, bind_some]
  generalize beNat (tail.take 2) = nc at hparse ⊢
  by_cases hdata : tail.length - 2 = nc
  · rw [if_pos hdata] at hparse
    refine ⟨_, by rw [if_neg (by omega), if_neg (by omega)]; rfl,
      .at hrest (by rw [length_drop]; omega) ?_⟩
    rw [hparse, take_of_length_le (by rw [length_drop]; omega)]
  rw [if_neg hdata] at hparse
  by_cases hexpected : tail.length - 2 = nc + 2
  · rw [if_pos hexpected] at hparse
    refine ⟨_, ?_, .at hrest (by rw [length_drop]; omega) hparse⟩
    rw [if_neg (by omega), if_pos (by omega),
      apduReadLe_end hrest (by rw [length_drop]; exact hexpected)]
    rfl
  · rw [if_neg hexpected] at hparse
    exact ⟨none, by rw [if_pos (by omega)]; rfl, .refused hparse⟩

/-- What is behind the header. -/
theorem apduProcessFields_spec (h : PointsTo buffer 4 body) (hlen : buffer.length ≤ 0xffff) :
    ∃ fields, apduProcessFields buffer = some fields ∧ ApduFound buffer body fields := by
  have hlength := h.length
  rcases body with - | ⟨lc, tail⟩
  · exact ⟨_, by rw [apduProcessFields, if_neg (by omega), if_pos (by exact hlength)]; rfl, .empty rfl⟩
  rcases eq_or_ne tail [] with rfl | htail
  · refine ⟨_, ?_, .empty rfl⟩
    have hfive : buffer.length = 5 := hlength
    have hone : [lc].length = 1 := rfl
    rw [apduProcessFields, if_neg (by omega), if_neg (by omega), if_pos hfive,
      apduReadLe_of_pointsTo h hone]
    rfl
  by_cases hextended : lc = 0 ∧ 2 ≤ tail.length
  · obtain ⟨rfl, htwo⟩ := hextended
    exact apduProcessFields_extended h htwo hlen
  · exact apduProcessFields_short h htail hlen hextended

end Reads

/-- **The parser reads inside the buffer only**, and what it finds is the command. -/
theorem apduProcessRead_eq :
    apduProcessRead buffer = some (apduParse buffer) := by
  match buffer with
  | [] | [_] | [_, _] | [_, _, _] => rfl
  | cla :: ins :: p1 :: p2 :: body =>
    obtain ⟨buffer, hbuffer⟩ : ∃ buffer, buffer = cla :: ins :: p1 :: p2 :: body := ⟨_, rfl⟩
    have hpoints : PointsTo buffer 4 body := ⟨by rw [hbuffer]; rfl, by simp [hbuffer]⟩
    have hheader : apduHeader buffer = some ⟨cla, ins, p1, p2⟩ := by rw [hbuffer]; rfl
    rw [apduParse, ← hbuffer, apduProcessRead]
    by_cases hlong : buffer.length > 0xffff
    · rw [if_pos hlong, apduProcessFields, if_pos (.inr hlong)]
      rfl
    rw [if_neg hlong]
    obtain ⟨fields, hfields, hfound⟩ := apduProcessFields_spec hpoints (not_lt.mp hlong)
    rw [hfields]
    cases hfound with
    | refused h => rw [h]; rfl
    | found points fits h =>
      simp [hheader, points.bytes fits, h]

/-! ### Encodings -/

/-- The two forms of a command. -/
inductive ApduForm where
  /-- Lengths of one byte. -/
  | short
  /-- Lengths of two bytes, behind a zero. -/
  | extended
  deriving DecidableEq, Repr

/-- The width of a length field. -/
def ApduForm.width : ApduForm → ℕ
  | .short => 1
  | .extended => 2

/-- A zero announces the first length field of the extended form. -/
def ApduForm.announce : ApduForm → Bytes
  | .short => []
  | .extended => [0]

/-- A command that is to be encoded. -/
structure ApduRequest where
  header : ApduHeader
  data : Bytes
  /-- The number of bytes that is expected in return, if there is one. -/
  le : Option ℕ
  length_le : data.length ≤ 65535
  le_range : ∀ n ∈ le, 1 ≤ n ∧ n ≤ 65536

namespace ApduRequest

variable (request : ApduRequest)

/-- The lengths of a command fit the fields of a form. -/
def Fits (form : ApduForm) : Prop :=
  request.data.length < 256 ^ form.width ∧ ∀ n ∈ request.le, n ≤ 256 ^ form.width

/-- What is behind the header: the length of the data and the data, if there are some, and the
expected length, if there is one. -/
def body (form : ApduForm) : Bytes :=
  if request.data = [] then
    request.le.elim [] fun n ↦ form.announce ++ beBytes form.width n
  else
    form.announce ++ (beBytes form.width request.data.length ++
      (request.data ++ request.le.elim [] (beBytes form.width)))

/-- The encoding of a command in one of the forms. -/
def encode (form : ApduForm) : Bytes :=
  let ⟨cla, ins, p1, p2⟩ := request.header
  cla :: ins :: p1 :: p2 :: request.body form

/-- What `ne` is for a command: no number is as good as 256 where there are no data. -/
def expected : ℕ :=
  match request.le with
  | some n => n
  | none => if request.data = [] then 256 else 0

end ApduRequest

/-- A field of an expected length holds what was put into it. -/
theorem apduLe_beBytes {width n : ℕ} (hpos : 1 ≤ n) (hle : n ≤ 256 ^ width) :
    apduLe (beBytes width n) = n := by
  rw [apduLe, length_beBytes, beNat_beBytes_mod]
  rcases hle.lt_or_eq with hlt | rfl
  · rw [mod_eq_of_lt hlt, if_neg (by omega)]
  · rw [mod_self, if_pos rfl]

/-- Every field is that of an expected length. -/
theorem beBytes_apduLe (field : Bytes) :
    beBytes field.length (apduLe field) = field ∧ 1 ≤ apduLe field ∧
      apduLe field ≤ 256 ^ field.length := by
  have hlt := beNat_lt field
  have hfield := beBytes_beNat field
  rw [apduLe]
  split_ifs with hzero
  · refine ⟨?_, one_le_iff_ne_zero.mpr (by positivity), le_rfl⟩
    have hadd := beBytes_add_mul field.length 0 1
    rw [one_mul, add_zero] at hadd
    rw [hadd, ← hzero, hfield]
  · exact ⟨hfield, one_le_iff_ne_zero.mpr hzero, hlt.le⟩

/-- A one-byte field and its number. -/
theorem beBytes_one (n : ℕ) : beBytes 1 n = [.ofNat n] := by
  rw [beBytes, beBytes, Nat.pow_zero, Nat.div_one]

namespace ApduRequest

variable {request : ApduRequest} {form : ApduForm}

theorem body_of_data (h : request.data ≠ []) : request.body form =
    form.announce ++ (beBytes form.width request.data.length ++
      (request.data ++ request.le.elim [] (beBytes form.width))) :=
  if_neg h

section

variable (h : request.Fits form)
include h

theorem Fits.apduLe_eq {n : ℕ} (hn : n ∈ request.le) : apduLe (beBytes form.width n) = n :=
  apduLe_beBytes (request.le_range n hn).1 (h.2 n hn)

/-- No data. -/
theorem Fits.parse_empty (hdata : request.data = []) :
    apduParseBody (request.body form) = some (request.data, request.expected) := by
  rw [body, if_pos hdata, expected]
  rcases hle : request.le with - | n
  · rw [if_pos hdata, hdata]
    rfl
  have hn := h.apduLe_eq hle
  rw [hdata]
  cases form with
  | short =>
    rw [ApduForm.width, beBytes_one] at hn
    simp [ApduForm.announce, ApduForm.width, beBytes_one, apduParseBody, hn]
  | extended =>
    show apduParseBody (0 :: beBytes 2 n) = some ([], n)
    exact congrArg (fun ne ↦ some ([], ne)) hn

/-- The data and the expected length behind the length of the data. -/
theorem parse_rest {tail : Bytes}
    (htail : tail = request.data ++ request.le.elim [] (beBytes form.width))
    (hdata : request.data ≠ []) :
    (if tail.length = request.data.length then some (tail, 0)
      else if tail.length = request.data.length + form.width then
        some (tail.take request.data.length, apduLe (tail.drop request.data.length))
      else none) = some (request.data, request.expected) := by
  rw [htail, expected]
  rcases hle : request.le with - | n
  · simp [hdata]
  · have hpos : form.width ≠ 0 := by cases form <;> decide
    simp [hpos, h.apduLe_eq hle]

/-- **An encoding is parsed to its command.** -/
theorem Fits.parse :
    apduParseBody (request.body form) = some (request.data, request.expected) := by
  by_cases hdata : request.data = []
  · exact h.parse_empty hdata
  obtain ⟨tail, htail⟩ :
    ∃ tail, tail = request.data ++ request.le.elim [] (beBytes form.width) := ⟨_, rfl⟩
  have hparse := parse_rest h htail hdata
  have hpos := length_pos_of_ne_nil hdata
  have hne : tail ≠ [] := by simp [htail, hdata]
  have hlt := h.1
  rw [body_of_data hdata, ← htail]
  cases form with
  | short =>
    have hlc : (UInt8.ofNat request.data.length).toNat = request.data.length := by
      exact mod_eq_of_lt hlt
    have hzero : UInt8.ofNat request.data.length ≠ 0 := fun hzero ↦ by
      rw [hzero] at hlc
      exact hpos.ne hlc
    show apduParseBody (beBytes 1 request.data.length ++ tail) = _
    rw [beBytes_one, singleton_append, apduParseBody_short hne fun h ↦ hzero h.1, hlc]
    exact hparse
  | extended =>
    have hnat : beNat (beBytes 2 request.data.length) = request.data.length := beNat_beBytes hlt
    show apduParseBody (0 :: (beBytes 2 request.data.length ++ tail)) = _
    rw [apduParseBody_extended (by simp), if_neg (by simp; omega),
      drop_left' (length_beBytes 2 _), take_left' (length_beBytes 2 _), hnat]
    exact hparse

end

end ApduRequest

/-! ### What is accepted -/

/-- A length of zero with an expected length behind it, in the short or in the extended form. -/
inductive ZeroLc : Bytes → Prop
  | short (b : UInt8) : ZeroLc [0, b]
  | extended (b₁ b₂ : UInt8) : ZeroLc [0, 0, 0, b₁, b₂]

/-- What is behind the header of some command in some form. -/
def IsBody (header : ApduHeader) (body : Bytes) : Prop :=
  ∃ (request : ApduRequest) (form : ApduForm),
    request.header = header ∧ request.Fits form ∧ body = request.body form

section Accepted

variable {header : ApduHeader} {data tail field : Bytes} {form : ApduForm}

/-- An expected length alone. -/
theorem isBody_le (hfield : field.length = form.width) :
    IsBody header (form.announce ++ field) := by
  obtain ⟨hback, hpos, hle⟩ := beBytes_apduLe field
  rw [hfield] at hback hle
  refine ⟨⟨header, [], some (apduLe field), by simp, ?_⟩, form, rfl, ⟨by simp, ?_⟩, ?_⟩
  · rintro _ ⟨rfl⟩
    exact ⟨hpos, hle.trans (by cases form <;> decide)⟩
  · rintro _ ⟨rfl⟩
    exact hle
  · simp [ApduRequest.body, hback]

variable {lcField : Bytes}

section

variable (hlc : lcField.length = form.width)
include hlc

/-- Some data, and perhaps an expected length. -/
theorem isBody_data (hdata : data.length = beNat lcField)
    (hpos : 0 < data.length) (hfield : field = [] ∨ field.length = form.width) :
    IsBody header (form.announce ++ (lcField ++ (data ++ field))) := by
  have hback : beBytes form.width data.length = lcField := by
    rw [hdata, ← hlc, beBytes_beNat]
  have hlt : data.length < 256 ^ form.width := by
    rw [hdata, ← hlc]
    exact beNat_lt lcField
  have hmax : data.length ≤ 65535 := by
    have : 256 ^ form.width ≤ 65536 := by cases form <;> decide
    omega
  have hne : data ≠ [] := ne_nil_of_length_pos hpos
  rcases hfield with rfl | hfield
  · refine ⟨⟨header, data, none, hmax, nofun⟩, form, rfl, ⟨hlt, nofun⟩, ?_⟩
    rw [ApduRequest.body_of_data hne]
    simp [hback]
  · obtain ⟨hrest, hone, hle⟩ := beBytes_apduLe field
    rw [hfield] at hrest hle
    refine ⟨⟨header, data, some (apduLe field), hmax, ?_⟩, form, rfl, ⟨hlt, ?_⟩, ?_⟩
    · rintro _ ⟨rfl⟩
      exact ⟨hone, hle.trans (by cases form <;> decide)⟩
    · rintro _ ⟨rfl⟩
      exact hle
    · rw [ApduRequest.body_of_data hne]
      simp [hback, hrest]

/-- Data of the length that is announced, and perhaps an expected length behind it. -/
theorem isBody_tail (hpos : 0 < beNat lcField)
    (h : tail.length = beNat lcField ∨ tail.length = beNat lcField + form.width) :
    IsBody header (form.announce ++ (lcField ++ tail)) := by
  have htake : (tail.take (beNat lcField)).length = beNat lcField := by
    rw [length_take]
    omega
  rw [← take_append_drop (beNat lcField) tail]
  refine isBody_data hlc htake (by omega) (h.imp (fun h ↦ ?_) fun h ↦ ?_)
  · exact drop_eq_nil_of_le h.le
  · rw [length_drop]
    omega

/-- Data of the length that is announced, unless that is zero. -/
theorem isBody_or_zeroLc
    (hzero : beNat lcField = 0 → tail.length = form.width → ZeroLc (form.announce ++ (lcField ++ tail)))
    (htail : tail ≠ []) (h : tail.length = beNat lcField ∨ tail.length = beNat lcField + form.width) :
    IsBody header (form.announce ++ (lcField ++ tail)) ∨
      ZeroLc (form.announce ++ (lcField ++ tail)) := by
  rcases Nat.eq_zero_or_pos (beNat lcField) with hnat | hpos
  · have hlong := length_pos_of_ne_nil htail
    exact .inr (hzero hnat (by omega))
  · exact .inl (isBody_tail hlc hpos h)

end

/-- **What is accepted is an encoding**, or has a length of zero that need not be there. -/
theorem isBody_of_parse {body : Bytes} (header : ApduHeader)
    (h : apduParseBody body ≠ none) : IsBody header body ∨ ZeroLc body := by
  rcases body with - | ⟨lc, tail⟩
  · exact .inl ⟨⟨header, [], none, by simp, nofun⟩, .short, rfl, ⟨by simp, nofun⟩, rfl⟩
  rcases eq_or_ne tail [] with rfl | htail
  · exact .inl (@isBody_le header [lc] .short rfl)
  by_cases hextended : lc = 0 ∧ 2 ≤ tail.length
  · obtain ⟨rfl, htwo⟩ := hextended
    rw [apduParseBody_extended htwo] at h
    rcases eq_or_ne tail.length 2 with hexact | hmore
    · exact .inl (@isBody_le header tail .extended hexact)
    have hlc : (tail.take 2).length = 2 := by
      rw [length_take]
      omega
    have hlength : (tail.drop 2).length = beNat (tail.take 2) ∨
        (tail.drop 2).length = beNat (tail.take 2) + 2 := by
      by_contra hno
      rw [not_or] at hno
      rw [if_neg hmore, if_neg hno.1, if_neg hno.2] at h
      exact h rfl
    rw [← take_append_drop 2 tail]
    refine @isBody_or_zeroLc header _ .extended _ hlc (fun hnat hwidth ↦ ?_) ?_ hlength
    · have hfield := beBytes_beNat (tail.take 2)
      rw [hnat, hlc] at hfield
      obtain ⟨b₁, b₂, hb⟩ := length_eq_two.mp hwidth
      rw [← hfield, hb]
      exact .extended b₁ b₂
    · rw [ne_eq, drop_eq_nil_iff]
      omega
  · rw [apduParseBody_short htail hextended] at h
    have hnat : beNat [lc] = lc.toNat := by simp [beNat]
    refine @isBody_or_zeroLc header tail .short [lc] rfl (fun hzero hwidth ↦ ?_) htail ?_
    · obtain rfl : lc = 0 := UInt8.toNat_inj.mp (hnat.symm.trans hzero)
      obtain ⟨b, hb⟩ := length_eq_one_iff.mp hwidth
      rw [hb]
      exact .short b
    · rw [hnat]
      by_contra hno
      rw [not_or] at hno
      rw [if_neg hno.1, if_neg (by exact hno.2)] at h
      exact h rfl

end Accepted

/-! ### Parsing inverts encoding -/

/-- The body of a command behind its header. -/
theorem ApduRequest.encode_eq (request : ApduRequest) (form : ApduForm) :
    request.encode form = request.header.cla :: request.header.ins :: request.header.p1 ::
      request.header.p2 :: request.body form :=
  rfl

/-- The buffer of a command: an encoding, or a length of zero that need not be there. -/
def IsCommand : Prop :=
  (∃ (request : ApduRequest) (form : ApduForm), request.Fits form ∧ buffer = request.encode form) ∨
    ∃ cla ins p1 p2 body, buffer = cla :: ins :: p1 :: p2 :: body ∧ ZeroLc body

/-- **Parsing inverts encoding.** An encoding of at most 65535 bytes sets the header, the length and the
place of the data, and the expected length of its command, which is 256 where neither data nor a
number are sent and 0 where data are sent without a number. Every buffer is parsed by reads inside
it, and one that is neither an encoding nor a command with a length of zero in front of the
expected length is refused, as is one of more than 65535 bytes. -/
theorem apdu_process_inverts_encoding :
    (∀ (request : ApduRequest) (form : ApduForm), request.Fits form →
      (request.encode form).length ≤ 65535 →
        (∃ fields, apduProcessFields (request.encode form) = some (some fields) ∧
          fields.nc = request.data.length ∧ fields.ne = request.expected) ∧
        apduProcessRead (request.encode form) =
          some (some ⟨request.header, request.data, request.expected⟩)) ∧
    ∀ buffer : Bytes, ∃ command, apduProcessRead buffer = some command ∧
      (command ≠ none → buffer.length ≤ 65535 ∧ IsCommand buffer) := by
  refine ⟨fun request form hfits hlen ↦ ?_, fun buffer ↦ ?_⟩
  · have hpoints : PointsTo (request.encode form) 4 (request.body form) := by
      rw [request.encode_eq]
      exact ⟨rfl, by simp⟩
    have hparse := hfits.parse
    obtain ⟨fields, hfields, hfound⟩ := apduProcessFields_spec hpoints hlen
    refine ⟨?_, ?_⟩
    · cases hfound with
      | refused h =>
        rw [hparse] at h
        cases h
      | found points fits h =>
        rw [hparse, Option.some.injEq, Prod.mk.injEq] at h
        refine ⟨_, hfields, ?_, h.2.symm⟩
        rw [h.1, length_take, min_eq_left fits]
    · rw [apduProcessRead_eq, request.encode_eq, apduParse, ← request.encode_eq,
        if_neg (not_lt.mpr hlen), hparse]
      rfl
  · refine ⟨apduParse buffer, apduProcessRead_eq buffer, fun hcommand ↦ ?_⟩
    match buffer with
    | [] | [_] | [_, _] | [_, _, _] => exact absurd rfl hcommand
    | cla :: ins :: p1 :: p2 :: body =>
      rw [apduParse] at hcommand
      by_cases hlong : (cla :: ins :: p1 :: p2 :: body).length > 0xffff
      · rw [if_pos hlong] at hcommand
        exact absurd rfl hcommand
      rw [if_neg hlong, ne_eq, map_eq_none_iff] at hcommand
      refine ⟨not_lt.mp hlong, ?_⟩
      rcases isBody_of_parse ⟨cla, ins, p1, p2⟩ hcommand with hbody | hzero
      · obtain ⟨request, form, hheader, hfits, rfl⟩ := hbody
        refine .inl ⟨request, form, hfits, ?_⟩
        rw [request.encode_eq, hheader]
      · exact .inr ⟨cla, ins, p1, p2, body, rfl, hzero⟩

/-- A command of six bytes with a length of zero is no encoding and is accepted; a command with the
largest number of data bytes is an encoding and is refused; and a command with nothing behind its
header is taken to expect 256 bytes. -/
theorem apdu_process_not_exact :
    (apduProcessRead [0, 0xa4, 4, 0, 0, 5] = some (some ⟨⟨0, 0xa4, 4, 0⟩, [], 5⟩) ∧
      ∀ (request : ApduRequest) (form : ApduForm), request.Fits form →
        request.encode form ≠ [0, 0xa4, 4, 0, 0, 5]) ∧
    (∃ request : ApduRequest, request.data.length = 65535 ∧ request.Fits .extended ∧
      apduProcessRead (request.encode .extended) = some none) ∧
    apduProcessRead [0, 0xa4, 0, 0] = some (some ⟨⟨0, 0xa4, 0, 0⟩, [], 256⟩) := by
  refine ⟨⟨by decide, fun request form hfits heq ↦ ?_⟩, ?_, by decide⟩
  · rw [request.encode_eq] at heq
    have hbody : request.body form = [0, 5] := by simpa using (List.cons.inj (List.cons.inj
      (List.cons.inj (List.cons.inj heq).2).2).2).2
    have hparse := hfits.parse
    rw [hbody] at hparse
    have hdata : request.data = [] := (congrArg Prod.fst (Option.some.inj hparse)).symm
    rw [ApduRequest.body, if_pos hdata] at hbody
    rcases hle : request.le with - | n <;> rw [hle] at hbody <;>
      have hlength := congrArg List.length hbody <;> cases form <;>
      simp [ApduForm.announce, ApduForm.width] at hlength
  · obtain ⟨data, hdata⟩ : ∃ data : Bytes, data.length = 65535 :=
      ⟨List.replicate 65535 0, length_replicate⟩
    have hne : data ≠ [] := ne_nil_of_length_pos (by omega)
    refine ⟨⟨⟨0, 0xa4, 4, 0⟩, data, none, hdata.le, nofun⟩, hdata,
      ⟨by simp [ApduForm.width, hdata], nofun⟩, ?_⟩
    rw [apduProcessRead_eq, ApduRequest.encode_eq, apduParse, if_pos]
    rw [ApduRequest.body_of_data hne]
    simp [ApduForm.announce, ApduForm.width, hdata]

end PicoAll

import PicoAll.Transport.Apdu

/-!
# Commands in bulk

`bulk_cmd` hands the parts of the data of a command to a handler one after the other, and puts the
answers behind each other. A part has two parameters and a length in front of its data. The loop
looks at neither end of the data nor of the response, and goes on by the length that the handler
leaves: it does what it is for just if the data are made of whole parts, the handler leaves the
length and the response pointer as they were, and there is room for the answers (`bulk_cmd_law`).

The handler is any function of what it is handed and of a state of its own; it writes from the
response pointer on.
-/

namespace PicoAll

open BigEndian List Nat

/-! ### Memory -/

/-- The `n` bytes from `p` on. -/
def readBytes (memory : ℤ → UInt8) (p : ℤ) (n : ℕ) : Bytes :=
  (List.range n).map fun i : ℕ ↦ memory (p + i)

/-- Write bytes from `p` on. -/
def putBytes (memory : ℤ → UInt8) (p : ℤ) (bytes : Bytes) (i : ℤ) : UInt8 :=
  if p ≤ i ∧ i < p + bytes.length then bytes.getD (i - p).toNat 0 else memory i

/-- The `n` bytes received from `p` on. -/
def fieldAt (received : ℕ → UInt8) (p n : ℕ) : Bytes :=
  (List.range n).map fun i ↦ received (p + i)

section Memory

variable {memory memory' : ℤ → UInt8} {p q : ℤ} {n m : ℕ} {bytes : Bytes}

@[simp]
theorem length_readBytes : (readBytes memory p n).length = n := by
  simp [readBytes]

theorem readBytes_add :
    readBytes memory p (n + m) = readBytes memory p n ++ readBytes memory (p + n) m := by
  rw [readBytes, range_add, map_append, map_map]
  refine congrArg₂ _ rfl (map_congr_left fun i _ ↦ ?_)
  simp [add_assoc]

theorem readBytes_congr (h : ∀ i, p ≤ i → i < p + n → memory' i = memory i) :
    readBytes memory' p n = readBytes memory p n := by
  refine map_congr_left fun i hi ↦ h _ (by omega) ?_
  have hlt := mem_range.mp hi
  omega

theorem putBytes_of_lt {i : ℤ} (h : i < p) : putBytes memory p bytes i = memory i :=
  if_neg fun hi ↦ absurd h (not_lt.mpr hi.1)

theorem putBytes_of_ge {i : ℤ} (h : p + bytes.length ≤ i) : putBytes memory p bytes i = memory i :=
  if_neg fun hi ↦ absurd h (not_le.mpr hi.2)

/-- What was written is there. -/
theorem readBytes_putBytes : readBytes (putBytes memory p bytes) p bytes.length = bytes := by
  refine ext_getElem (by simp) fun i _ hi ↦ ?_
  simp [readBytes, putBytes, hi]

/-- What lies before or behind it is as it was. -/
theorem readBytes_putBytes_of_disjoint (h : q + n ≤ p ∨ p + bytes.length ≤ q) :
    readBytes (putBytes memory p bytes) q n = readBytes memory q n := by
  refine readBytes_congr fun i hle hlt ↦ ?_
  rcases h with h | h
  · exact putBytes_of_lt (by omega)
  · exact putBytes_of_ge (by omega)

/-- An answer: a head whose last two bytes are then the length, the text and the end. -/
theorem readBytes_answer (memory : ℤ → UInt8) (p : ℤ) (n : ℕ) (a b : UInt8)
    (written : Bytes) {size sw : Bytes} (hsize : size.length = 2) (hsw : sw.length = 2) :
    let response := putBytes (putBytes memory p [a, b, 0, 0]) (p + 4) written
    let final := putBytes (putBytes response (p + 4 - 2) size) (p + 4 + n) sw
    readBytes final p (2 + 2 + n + 2) = [a, b] ++ size ++ readBytes response (p + 4) n ++ sw ∧
      ∀ i < p, final i = memory i := by
  intro response final
  have hhead : readBytes final p 2 = [a, b] := by
    rw [readBytes_putBytes_of_disjoint (.inl (by omega)),
      readBytes_putBytes_of_disjoint (.inl (by omega)),
      readBytes_putBytes_of_disjoint (.inl (by omega))]
    have hall : readBytes (putBytes memory p [a, b, 0, 0]) p (2 + 2) = [a, b] ++ [0, 0] :=
      readBytes_putBytes
    exact (append_inj hall (by simp)).1
  have hsizes : readBytes final (p + 2) 2 = size := by
    rw [readBytes_putBytes_of_disjoint (.inl (by omega)), show p + 2 = p + 4 - 2 by omega, ← hsize]
    exact readBytes_putBytes
  have htext : readBytes final (p + 4) n = readBytes response (p + 4) n := by
    rw [readBytes_putBytes_of_disjoint (.inl (by omega)),
      readBytes_putBytes_of_disjoint (.inr (by omega))]
  have hend : readBytes final (p + 4 + n) 2 = sw := by
    rw [← hsw]
    exact readBytes_putBytes
  refine ⟨?_, fun i hi ↦ ?_⟩
  · rw [readBytes_add, readBytes_add, readBytes_add, hhead]
    push_cast
    rw [hsizes, htext, ← add_assoc, hend]
  · simp only [final, response]
    rw [putBytes_of_lt (by omega), putBytes_of_lt (by omega), putBytes_of_lt (by omega),
      putBytes_of_lt (by omega)]

theorem fieldAt_add (received : ℕ → UInt8) (p n m : ℕ) :
    fieldAt received p (n + m) = fieldAt received p n ++ fieldAt received (p + n) m := by
  rw [fieldAt, range_add, map_append, map_map]
  refine congrArg₂ _ rfl (map_congr_left fun i _ ↦ ?_)
  simp [add_assoc]

@[simp]
theorem length_fieldAt (received : ℕ → UInt8) (p n : ℕ) : (fieldAt received p n).length = n := by
  simp [fieldAt]

end Memory

/-! ### The command -/

/-- `struct apdu`, with the parameters of the header it points to. The pointers are offsets, `data`
into what was received and `rdata` into the response. -/
structure BulkApdu where
  /-- `P1(apdu)`. -/
  p1 : UInt8
  /-- `P2(apdu)`. -/
  p2 : UInt8
  nc : UInt32
  ne : UInt32
  data : ℕ
  sw : UInt16
  rdata : ℤ
  rlen : UInt16
  deriving DecidableEq

/-- A handler: from a state of its own and the APDU it makes another state, the APDU as it leaves it
and the bytes that it writes from `rdata` on. -/
abbrev BulkHandler (σ : Type) :=
  σ → BulkApdu → σ × BulkApdu × Bytes

/-- The APDU, the memory of the response and the state of the handler. -/
structure BulkState (σ : Type) where
  apdu : BulkApdu
  /-- The memory that `rdata` points into. -/
  response : ℤ → UInt8
  /-- The state of the handler. -/
  other : σ

/-- A turn of the loop. -/
structure BulkTurn where
  /-- `p`. -/
  position : ℕ
  /-- `p` after the turn. -/
  next : ℕ
  /-- The APDU that the handler was handed. -/
  handed : BulkApdu
  /-- `rdata`. -/
  place : ℤ
  /-- `rdata` after the turn. -/
  placeNext : ℤ
  /-- The parameters, what the handler has left at its `rdata` with its length, and the status
  word. -/
  answer : Bytes

/-- The APDU of a part at `p`. -/
def bulkHanded (p1 p2 len : UInt8) (p : ℕ) (apdu : BulkApdu) : BulkApdu :=
  { apdu with
    p1 := p1
    p2 := p2
    nc := len.toUInt32
    data := p + 3
    rdata := apdu.rdata + 4
    rlen := 0 }

/-- The APDU when a part has been answered. -/
def bulkAnswered (apdu : BulkApdu) : BulkApdu :=
  { apdu with rdata := apdu.rdata + apdu.rlen.toNat + 2 }

@[simp]
theorem bulkAnswered_rlen {apdu : BulkApdu} : (bulkAnswered apdu).rlen = apdu.rlen :=
  rfl

section Command

variable {σ : Type} (cmd : BulkHandler σ) (received : ℕ → UInt8)

/-- The body of the loop. -/
def bulkTurn (p : ℕ) (s : BulkState σ) : BulkTurn × BulkState σ :=
  let handed := bulkHanded (received p) (received (p + 1)) (received (p + 2)) p s.apdu
  let head := putBytes s.response s.apdu.rdata [received p, received (p + 1), 0, 0]
  let left := cmd s.other handed
  let apdu := left.2.1
  let response := putBytes head handed.rdata left.2.2
  let sized := putBytes response (apdu.rdata - 2) (beBytes 2 apdu.rlen.toNat)
  let answered := putBytes sized (apdu.rdata + apdu.rlen.toNat) (beBytes 2 apdu.sw.toNat)
  (⟨p, p + (3 + apdu.nc).toNat, handed, s.apdu.rdata, (bulkAnswered apdu).rdata,
    [received p, received (p + 1)] ++ beBytes 2 apdu.rlen.toNat ++
      readBytes response apdu.rdata apdu.rlen.toNat ++ beBytes 2 apdu.sw.toNat⟩,
    ⟨bulkAnswered apdu, answered, left.1⟩)

/-- The loop, for a number of turns: `size` is `rapdu_size`. -/
def bulkLoop (top : ℕ) :
    ℕ → ℕ → UInt16 → BulkState σ → Option (List BulkTurn × UInt16 × BulkState σ)
  | 0, p, size, s => if p < top then none else some ([], size, s)
  | turns + 1, p, size, s =>
    if p < top then
      let (turn, s') := bulkTurn cmd received p s
      (bulkLoop top turns turn.next (size + (4 + s'.apdu.rlen + 2)) s').map fun (rest, after) ↦
        (turn :: rest, after)
    else
      some ([], size, s)

/-- `bulk_cmd`, if the loop ends in this many turns. -/
def bulkCmd (turns : ℕ) (s : BulkState σ) : Option (List BulkTurn × BulkState σ) :=
  (bulkLoop cmd received (s.apdu.data + s.apdu.nc.toNat) turns s.apdu.data 0 s).map
    fun (done, size, s') ↦
      (done, { s' with apdu := { s'.apdu with rlen := size, rdata := s.apdu.rdata, sw := swOk } })

end Command

/-! ### What is to hold -/

section Law

variable {σ : Type}

/-- The output of some turns. -/
def bulkOutput (turns : List BulkTurn) : Bytes :=
  turns.flatMap (·.answer)

/-- A turn that keeps to the data before `top`, and goes on by the sizes of the part and of the
answer. -/
structure BulkTurn.Safe (turn : BulkTurn) (top : ℕ) : Prop where
  inside : turn.handed.data = turn.position + 3 ∧
    turn.handed.data + turn.handed.nc.toNat ≤ top
  advance : turn.next = turn.position + 3 + turn.handed.nc.toNat
  place : turn.placeNext = turn.place + turn.answer.length

/-- **The command is safe**: the loop ends, every part that the handler is handed lies in the data,
the loop goes on by the size of the part, and the output is the answers behind each other, in the
`room` bytes that there are for it. -/
def BulkSafe (cmd : BulkHandler σ) (received : ℕ → UInt8) (room : ℕ) (s : BulkState σ) : Prop :=
  ∃ turns done after, bulkCmd cmd received turns s = some (done, after) ∧
    (∀ turn ∈ done, turn.Safe (s.apdu.data + s.apdu.nc.toNat)) ∧
    after.apdu.rlen.toNat = (bulkOutput done).length ∧ (bulkOutput done).length ≤ room ∧
    readBytes after.response s.apdu.rdata (bulkOutput done).length = bulkOutput done

/-! ### When it holds -/

/-- A part of the data. -/
structure BulkPart where
  /-- The first parameter. -/
  p1 : UInt8
  /-- The second parameter. -/
  p2 : UInt8
  data : Bytes
  fits : data.length < 256

def BulkPart.bytes (part : BulkPart) : Bytes :=
  [part.p1, part.p2, .ofNat part.data.length] ++ part.data

/-- What the handler makes of a part at `p`. -/
def BulkPart.left (part : BulkPart) (cmd : BulkHandler σ) (other : σ) (apdu : BulkApdu) (p : ℕ) :
    σ × BulkApdu × Bytes :=
  cmd other (bulkHanded part.p1 part.p2 (.ofNat part.data.length) p apdu)

/-- The handler leaves `nc` and `rdata` as they are, whatever it does otherwise. -/
def HandlerKeeps (cmd : BulkHandler σ) : σ → BulkApdu → ℕ → List BulkPart → Prop
  | _, _, _, [] => True
  | other, apdu, p, part :: parts =>
    let left := part.left cmd other apdu p
    left.2.1.nc.toNat = part.data.length ∧ left.2.1.rdata = apdu.rdata + 4 ∧
      HandlerKeeps cmd left.1 (bulkAnswered left.2.1) (p + part.bytes.length) parts

/-- The length of all the answers. -/
def answersLength (cmd : BulkHandler σ) : σ → BulkApdu → ℕ → List BulkPart → ℕ
  | _, _, _, [] => 0
  | other, apdu, p, part :: parts =>
    let left := part.left cmd other apdu p
    6 + left.2.1.rlen.toNat +
      answersLength cmd left.1 (bulkAnswered left.2.1) (p + part.bytes.length) parts

/-- **The data are made of whole parts**, the handler keeps to the rules, and there is room for the
answers, also in the 16 bits of their length. -/
def BulkFits (cmd : BulkHandler σ) (received : ℕ → UInt8) (room : ℕ) (s : BulkState σ) : Prop :=
  ∃ parts : List BulkPart,
    fieldAt received s.apdu.data s.apdu.nc.toNat = parts.flatMap (·.bytes) ∧
    HandlerKeeps cmd s.other s.apdu s.apdu.data parts ∧
    answersLength cmd s.other s.apdu s.apdu.data parts ≤ room ∧
    answersLength cmd s.other s.apdu s.apdu.data parts < 2 ^ 16

/-! ### A turn -/

section Turn

variable {cmd : BulkHandler σ} {received : ℕ → UInt8} {part : BulkPart} {p top : ℕ}
  {s : BulkState σ}

theorem BulkPart.length_bytes : part.bytes.length = 3 + part.data.length := by
  simp [bytes]
  omega

theorem BulkPart.toNat_length : (UInt8.ofNat part.data.length).toNat = part.data.length :=
  mod_eq_of_lt part.fits

/-- A part that is there is what the loop reads. -/
theorem head_of_fieldAt {rest : Bytes} {n : ℕ} (hn : n = part.bytes.length + rest.length)
    (h : fieldAt received p n = part.bytes ++ rest) :
    received p = part.p1 ∧ received (p + 1) = part.p2 ∧
      received (p + 2) = .ofNat part.data.length := by
  obtain ⟨m, rfl⟩ : ∃ m, n = 3 + m := ⟨_, by rw [hn, part.length_bytes, add_assoc]⟩
  rw [fieldAt_add, BulkPart.bytes, append_assoc] at h
  have hhead := (append_inj h (by simp)).1
  simpa [fieldAt, range_succ] using hhead

variable (cmd received p s) in
theorem bulkTurn_answer_length :
    (bulkTurn cmd received p s).1.answer.length =
      6 + (bulkTurn cmd received p s).2.apdu.rlen.toNat := by
  simp [bulkTurn, bulkAnswered]
  omega

/-- **A turn over a part**, whose handler leaves the length and the response pointer, is safe, and
puts the answer where the response pointer was. -/
theorem bulkTurn_of_part (h1 : received p = part.p1) (h2 : received (p + 1) = part.p2)
    (h3 : received (p + 2) = .ofNat part.data.length) (htop : p + part.bytes.length ≤ top)
    (hnc : (part.left cmd s.other s.apdu p).2.1.nc.toNat = part.data.length)
    (hrdata : (part.left cmd s.other s.apdu p).2.1.rdata = s.apdu.rdata + 4) :
    let turn := (bulkTurn cmd received p s).1
    let s' := (bulkTurn cmd received p s).2
    turn.Safe top ∧ turn.next = p + part.bytes.length ∧
      s'.apdu = bulkAnswered (part.left cmd s.other s.apdu p).2.1 ∧
      s'.other = (part.left cmd s.other s.apdu p).1 ∧
      s'.apdu.rdata = s.apdu.rdata + turn.answer.length ∧
      readBytes s'.response s.apdu.rdata turn.answer.length = turn.answer ∧
      ∀ i < s.apdu.rdata, s'.response i = s.response i := by
  intro turn s'
  have hfits := part.fits
  have hbytes := part.length_bytes
  have hleft : cmd s.other
      (bulkHanded (received p) (received (p + 1)) (received (p + 2)) p s.apdu) =
        part.left cmd s.other s.apdu p := by
    rw [h1, h2, h3]
    rfl
  generalize part.left cmd s.other s.apdu p = left at hleft hnc hrdata ⊢
  have hhanded : turn.handed = bulkHanded part.p1 part.p2 (.ofNat part.data.length) p s.apdu := by
    rw [← h1, ← h2, ← h3]
    rfl
  have hlen : turn.handed.nc.toNat = part.data.length := by
    rw [hhanded]
    exact part.toNat_length
  have hnext : turn.next = p + part.bytes.length := by
    have hsum : turn.next = p + (3 + left.2.1.nc).toNat := by
      rw [← hleft]
      rfl
    rw [hsum, UInt32.toNat_add, hnc, hbytes]
    exact congrArg (p + ·) (mod_eq_of_lt (by simp; omega))
  have hapdu : s'.apdu = bulkAnswered left.2.1 := by
    rw [← hleft]
    rfl
  have hother : s'.other = left.1 := by
    rw [← hleft]
    rfl
  have hsize : turn.answer.length = 2 + 2 + left.2.1.rlen.toNat + 2 := by
    rw [bulkTurn_answer_length, hapdu, bulkAnswered_rlen]
    omega
  have hplace : s'.apdu.rdata = s.apdu.rdata + turn.answer.length := by
    rw [hsize, hapdu, bulkAnswered]
    push_cast
    omega
  -- the handler writes where its `rdata` was, the length and the end go where it left it
  have hresponse : s'.response =
      putBytes (putBytes (putBytes (putBytes s.response s.apdu.rdata
        [received p, received (p + 1), 0, 0]) (s.apdu.rdata + 4) left.2.2)
          (left.2.1.rdata - 2) (beBytes 2 left.2.1.rlen.toNat))
            (left.2.1.rdata + left.2.1.rlen.toNat) (beBytes 2 left.2.1.sw.toNat) := by
    rw [← hleft]
    rfl
  have hanswer : turn.answer = [received p, received (p + 1)] ++ beBytes 2 left.2.1.rlen.toNat ++
      readBytes (putBytes (putBytes s.response s.apdu.rdata [received p, received (p + 1), 0, 0])
        (s.apdu.rdata + 4) left.2.2) left.2.1.rdata left.2.1.rlen.toNat ++
          beBytes 2 left.2.1.sw.toNat := by
    rw [← hleft]
    rfl
  have hmemory := readBytes_answer s.response s.apdu.rdata left.2.1.rlen.toNat (received p)
    (received (p + 1)) left.2.2 (length_beBytes 2 left.2.1.rlen.toNat)
    (length_beBytes 2 left.2.1.sw.toNat)
  rw [hrdata] at hresponse hanswer
  dsimp only at hmemory
  rw [← hresponse, ← hanswer, ← hsize] at hmemory
  refine ⟨⟨⟨?_, ?_⟩, ?_, hplace⟩, hnext, hapdu, hother, hplace, hmemory⟩
  · rw [hhanded]
    rfl
  · rw [hlen, hhanded, bulkHanded]
    simp only
    omega
  · rw [hnext, hlen, hbytes, ← add_assoc]
    rfl

/-- A safe turn is one over a part, whose handler has left the length and the response pointer. -/
theorem exists_part_of_safe (h : (bulkTurn cmd received p s).1.Safe top) :
    ∃ part : BulkPart, received p = part.p1 ∧ received (p + 1) = part.p2 ∧
      received (p + 2) = .ofNat part.data.length ∧ p + part.bytes.length ≤ top ∧
      fieldAt received p part.bytes.length = part.bytes ∧
      (part.left cmd s.other s.apdu p).2.1.nc.toNat = part.data.length ∧
      (part.left cmd s.other s.apdu p).2.1.rdata = s.apdu.rdata + 4 := by
  have hlt := (received (p + 2)).toNat_lt
  let part : BulkPart := ⟨received p, received (p + 1),
    fieldAt received (p + 3) (received (p + 2)).toNat, by simpa using hlt⟩
  have hlen : part.data.length = (received (p + 2)).toNat := length_fieldAt ..
  have hlen' : received (p + 2) = .ofNat part.data.length := by simp [hlen]
  have hbytes := part.length_bytes
  have hleft : cmd s.other
      (bulkHanded (received p) (received (p + 1)) (received (p + 2)) p s.apdu) =
        part.left cmd s.other s.apdu p := by
    rw [BulkPart.left, ← hlen']
  have hinside : p + 3 + (received (p + 2)).toNat ≤ top := h.inside.2
  have hadvance : p + (3 + (part.left cmd s.other s.apdu p).2.1.nc).toNat =
      p + 3 + (received (p + 2)).toNat := by
    rw [← hleft]
    exact h.advance
  have hplace : (part.left cmd s.other s.apdu p).2.1.rdata +
      (part.left cmd s.other s.apdu p).2.1.rlen.toNat + 2 =
        s.apdu.rdata + (6 + (part.left cmd s.other s.apdu p).2.1.rlen.toNat : ℕ) := by
    rw [← hleft]
    exact h.place.trans (by rw [bulkTurn_answer_length]; rfl)
  refine ⟨part, rfl, rfl, hlen', by omega, ?_, ?_, by omega⟩
  · rw [hbytes, fieldAt_add, hlen]
    refine congrArg₂ _ ?_ rfl
    rw [← hlen', fieldAt]
    rfl
  · have hnc := (part.left cmd s.other s.apdu p).2.1.nc.toNat_lt
    have hthree : (3 : UInt32).toNat = 3 := rfl
    rw [UInt32.toNat_add] at hadvance
    omega

end Turn

/-! ### The loop -/

section Run

variable {cmd : BulkHandler σ} {received : ℕ → UInt8} {top turns : ℕ} {size : UInt16}
  {s : BulkState σ}

theorem bulkLoop_of_le {p : ℕ} (hp : top ≤ p) :
    bulkLoop cmd received top turns p size s = some ([], size, s) := by
  cases turns <;> simp [bulkLoop, not_lt.mpr hp]

theorem bulkLoop_succ {p : ℕ} (hp : p < top) :
    bulkLoop cmd received top (turns + 1) p size s =
      (bulkLoop cmd received top turns (bulkTurn cmd received p s).1.next
        (size + (4 + (bulkTurn cmd received p s).2.apdu.rlen + 2))
        (bulkTurn cmd received p s).2).map fun (rest, after) ↦
          ((bulkTurn cmd received p s).1 :: rest, after) :=
  if_pos hp

/-- The length of a response is a sum of 16-bit numbers. -/
theorem ofNat_answer (size rlen : UInt16) (n : ℕ) :
    size + (4 + rlen + 2) + .ofNat n = size + .ofNat (6 + rlen.toNat + n) := by
  rw [← UInt16.toNat_inj]
  simp
  omega

/-- **A run over whole parts.** -/
theorem bulkLoop_of_parts (parts : List BulkPart) (p : ℕ) (size : UInt16) (s : BulkState σ)
    (htop : p + (parts.flatMap (·.bytes)).length = top)
    (hfield : fieldAt received p (top - p) = parts.flatMap (·.bytes))
    (hkeeps : HandlerKeeps cmd s.other s.apdu p parts) :
    ∃ done after, bulkLoop cmd received top parts.length p size s =
        some (done, size + .ofNat (answersLength cmd s.other s.apdu p parts), after) ∧
      (∀ turn ∈ done, turn.Safe top) ∧
      (bulkOutput done).length = answersLength cmd s.other s.apdu p parts ∧
      readBytes after.response s.apdu.rdata (bulkOutput done).length = bulkOutput done ∧
      ∀ i < s.apdu.rdata, after.response i = s.response i := by
  induction parts generalizing p size s with
  | nil =>
    have hp : ¬p < top := by simp at htop; omega
    exact ⟨[], s, by simp [bulkLoop, hp, answersLength], by simp, rfl, rfl, fun _ _ ↦ rfl⟩
  | cons part parts ih =>
    obtain ⟨hnc, hrdata, hrest⟩ := hkeeps
    rw [flatMap_cons, length_append] at htop
    rw [flatMap_cons] at hfield
    obtain ⟨h1, h2, h3⟩ := head_of_fieldAt (by omega) hfield
    have hbytes := part.length_bytes
    have hinside : p + part.bytes.length ≤ top := by omega
    obtain ⟨hturn, hnext, hapdu, hother, hplace, hread, hbelow⟩ :=
      bulkTurn_of_part h1 h2 h3 hinside hnc hrdata
    have hfield' : fieldAt received (p + part.bytes.length) (top - (p + part.bytes.length)) =
        parts.flatMap (·.bytes) := by
      rw [show top - p = part.bytes.length + (top - (p + part.bytes.length)) by omega,
        fieldAt_add] at hfield
      exact (append_inj hfield (by simp)).2
    have hanswer := bulkTurn_answer_length cmd received p s
    have hloop := @bulkLoop_succ σ cmd received top parts.length size s p (by omega)
    generalize bulkTurn cmd received p s = r at *
    obtain ⟨turn, s'⟩ := r
    simp only at hturn hnext hapdu hother hplace hread hbelow hanswer hloop
    obtain ⟨done, after, hrun, hsafe, hlen, htext, hbelow'⟩ :=
      ih (p + part.bytes.length) (size + (4 + s'.apdu.rlen + 2)) s' (by omega) hfield'
        (by rwa [hother, hapdu])
    have hlength : answersLength cmd s.other s.apdu p (part :: parts) =
        6 + s'.apdu.rlen.toNat +
          answersLength cmd s'.other s'.apdu (p + part.bytes.length) parts := by
      rw [hother, hapdu]
      rfl
    have houtput : bulkOutput (turn :: done) = turn.answer ++ bulkOutput done :=
      flatMap_cons
    refine ⟨turn :: done, after, ?_, ?_, ?_, ?_, ?_⟩
    · rw [length_cons, hloop, hnext, hrun, hlength, ← ofNat_answer]
      rfl
    · exact forall_mem_cons.mpr ⟨hturn, hsafe⟩
    · rw [houtput, length_append, hanswer, hlen, hlength]
    · rw [houtput, length_append, readBytes_add, ← hplace, htext]
      refine congrArg (· ++ _) ((readBytes_congr fun i _ hi ↦ ?_).trans hread)
      exact hbelow' i (by omega)
    · intro i hi
      rw [hbelow' i (by omega), hbelow i hi]

/-- **A safe run is one over whole parts.** -/
theorem parts_of_bulkLoop {p : ℕ} {size' : UInt16} {after : BulkState σ} {done : List BulkTurn}
    (hp : p ≤ top) (h : bulkLoop cmd received top turns p size s = some (done, size', after))
    (hsafe : ∀ turn ∈ done, turn.Safe top) :
    ∃ parts : List BulkPart, fieldAt received p (top - p) = parts.flatMap (·.bytes) ∧
      HandlerKeeps cmd s.other s.apdu p parts ∧
      (bulkOutput done).length = answersLength cmd s.other s.apdu p parts := by
  induction turns generalizing p size s done with
  | zero =>
    rcases Nat.lt_or_ge p top with hlt | hge
    · simp [bulkLoop, hlt] at h
    · rw [bulkLoop_of_le hge, Option.some_inj, Prod.mk.injEq] at h
      obtain ⟨rfl, -⟩ := h
      exact ⟨[], by simp [fieldAt, Nat.sub_eq_zero_of_le hge], trivial, rfl⟩
  | succ turns ih =>
    rcases Nat.lt_or_ge p top with hlt | hge
    · rw [bulkLoop_succ hlt] at h
      obtain ⟨⟨rest, after'⟩, hrun, hdone⟩ := Option.map_eq_some_iff.mp h
      obtain ⟨rfl, rfl⟩ := Prod.mk.inj hdone
      obtain ⟨hturn, hrest⟩ := forall_mem_cons.mp hsafe
      obtain ⟨part, h1, h2, h3, htop, hfield, hnc, hrdata⟩ := exists_part_of_safe hturn
      obtain ⟨-, hnext, hapdu, hother, -⟩ := bulkTurn_of_part h1 h2 h3 htop hnc hrdata
      have hanswer := bulkTurn_answer_length cmd received p s
      rw [hnext] at hrun
      obtain ⟨parts, hparts, hkeeps, hlen⟩ := ih htop hrun hrest
      rw [hother, hapdu] at hkeeps hlen
      refine ⟨part :: parts, ?_, ⟨hnc, hrdata, hkeeps⟩, ?_⟩
      · rw [show top - p = part.bytes.length + (top - (p + part.bytes.length)) by omega,
          fieldAt_add, hfield, hparts]
        rfl
      · rw [bulkOutput, flatMap_cons, length_append, hanswer, hapdu, bulkAnswered_rlen]
        exact congrArg (_ + ·) hlen
    · rw [bulkLoop_of_le hge, Option.some_inj, Prod.mk.injEq] at h
      obtain ⟨rfl, -⟩ := h
      exact ⟨[], by simp [fieldAt, Nat.sub_eq_zero_of_le hge], trivial, rfl⟩

end Run

/-- **`bulk_cmd` is safe just if** the data are made of whole parts, the handler leaves the length
and the response pointer as they are, and there is room for the answers. -/
theorem bulk_cmd_law (cmd : BulkHandler σ) (received : ℕ → UInt8) (room : ℕ) (s : BulkState σ) :
    BulkSafe cmd received room s ↔ BulkFits cmd received room s := by
  constructor
  · rintro ⟨turns, done, after, hrun, hsafe, hlen, hroom, -⟩
    obtain ⟨⟨done', size, after'⟩, hloop, hdone⟩ := Option.map_eq_some_iff.mp hrun
    obtain ⟨rfl, rfl⟩ := Prod.mk.inj hdone
    obtain ⟨parts, hfield, hkeeps, hlength⟩ := parts_of_bulkLoop (Nat.le_add_right ..) hloop hsafe
    rw [Nat.add_sub_cancel_left] at hfield
    rw [hlength] at hlen hroom
    exact ⟨parts, hfield, hkeeps, hroom, hlen ▸ UInt16.toNat_lt _⟩
  · rintro ⟨parts, hfield, hkeeps, hroom, hwidth⟩
    have hlen : s.apdu.nc.toNat = (parts.flatMap (·.bytes)).length := by
      rw [← hfield, length_fieldAt]
    obtain ⟨done, after, hloop, hsafe, hlength, htext, -⟩ :=
      bulkLoop_of_parts parts s.apdu.data 0 s rfl (by rw [Nat.add_sub_cancel_left, ← hlen, hfield])
        hkeeps
    rw [← hlen] at hloop hsafe
    refine ⟨parts.length, done, _, congrArg (Option.map _) hloop, hsafe, ?_, hlength ▸ hroom, htext⟩
    simp only [UInt16.zero_add]
    rw [hlength, UInt16.toNat_ofNat', mod_eq_of_lt hwidth]

/-- A handler that answers with nothing. -/
def silentHandler : BulkHandler Unit := fun other apdu ↦
  (other, { apdu with sw := swOk }, [])

/-- Data that announce five bytes where there are none. -/
def truncatedBulk (p : ℕ) : UInt8 :=
  [0x00, 0x6E, 0x05].getD p 0

/-- **The handler is handed bytes behind the data.** -/
theorem bulk_cmd_reads_behind :
    ¬BulkSafe silentHandler truncatedBulk 4096
      ⟨⟨0, 0, 3, 256, 0, 0, 0, 0⟩, fun _ ↦ 0, ()⟩ := by
  rintro ⟨turns, done, after, hrun, hsafe, -⟩
  obtain ⟨⟨done', size, after'⟩, hloop, hdone⟩ := Option.map_eq_some_iff.mp hrun
  obtain ⟨rfl, rfl⟩ := Prod.mk.inj hdone
  rcases turns with - | turns
  · simp [bulkLoop] at hloop
  · rw [bulkLoop_succ (by decide)] at hloop
    obtain ⟨⟨rest, after''⟩, -, hdone⟩ := Option.map_eq_some_iff.mp hloop
    obtain ⟨rfl, -⟩ := Prod.mk.inj hdone
    exact absurd (hsafe _ (mem_cons_self ..)).inside.2 (by decide)

end Law

end PicoAll

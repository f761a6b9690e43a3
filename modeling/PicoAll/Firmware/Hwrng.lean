import PicoAll.Lib.CircularBuffer

/-!
# The random pool

`hwrng_task` mixes what the source gives and adds a word of eight bytes to a ring buffer whenever
eight rounds are done and the word fits; `hwrng_read` takes bytes out of it and `hwrng_flush` empties
it, each under a lock. `hwrng_get` and `random_fill_buffer` read what is there and run the task when
nothing is, until they have as many bytes as they want, and others may have the lock in between.

What was added is at any time what was taken, in order, and then what the pool holds (`Lossless`).
`hwrng_wait_full` waits until there is no room at all, but nothing is added to less room than eight
bytes: it ends exactly if the pool holds a multiple of eight bytes (`hwrng_meets_iff`).
-/

namespace PicoAll.Firmware

open ByteBuffer CircularBuffer List Nat

/-- `hwrng_buf`. -/
structure HwrngBuf where
  buf : Bytes
  head : ℕ
  tail : ℕ
  size : ℕ
  count : ℕ

def hwrngBufInit (buffer : Bytes) : HwrngBuf :=
  ⟨buffer, 0, 0, buffer.length, 0⟩

variable (data : Bytes) (rb : HwrngBuf)

def hwrngBufSpace : ℕ :=
  rb.size - rb.count

def hwrngBufFull : Bool :=
  rb.count == rb.size

/-- How many bytes were added, and the buffer. -/
def hwrngBufAdd : ℕ × HwrngBuf :=
  let room := rb.size - rb.count
  let n := if data.length < room then data.length else room
  let first := if n > rb.size - rb.tail then rb.size - rb.tail else n
  let (buf, tail) :=
    if first ≠ 0 then
      (patch rb.buf rb.tail (data.take first),
        if rb.tail + first ≥ rb.size then 0 else rb.tail + first)
    else (rb.buf, rb.tail)
  let (buf, tail) :=
    if n > first then (patch buf tail ((data.drop first).take (n - first)), tail + (n - first))
    else (buf, tail)
  (n, { rb with buf := buf, tail := tail, count := rb.count + n })

/-- What was copied out of the buffer, and the buffer. -/
def hwrngBufDel (len : ℕ) : Bytes × HwrngBuf :=
  let n := if len < rb.count then len else rb.count
  let first := if n > rb.size - rb.head then rb.size - rb.head else n
  let (out, head) :=
    if first ≠ 0 then
      (slice rb.buf rb.head first, if rb.head + first ≥ rb.size then 0 else rb.head + first)
    else ([], rb.head)
  let (out, head) :=
    if n > first then (out ++ slice rb.buf head (n - first), head + (n - first)) else (out, head)
  (out, { rb with head := head, count := rb.count - n })

/-- The pool and what is being mixed, in a round below eight. -/
structure Hwrng where
  ring : HwrngBuf
  randomWord : UInt64
  mixRound : ℕ

/-- What the source gives in a round: a word, and the time. -/
structure Entropy where
  word : UInt64
  millis : UInt32

def hwrngInit (buffer : Bytes) : Hwrng :=
  ⟨hwrngBufInit buffer, 0xcbf29ce484222325, 0⟩

variable (e : Entropy) (s : Hwrng)

/-- Whether the word is ready. -/
def hwrngMixProcess : Bool × Hwrng :=
  let seed := if s.mixRound = 0 then 0xcbf29ce484222325 else s.randomWord
  let word := (seed ^^^ (e.word ^^^ e.millis.toUInt64)) * 0x00000100000001B3
  if s.mixRound + 1 = 8 then (true, { s with randomWord := word, mixRound := 0 })
  else (false, { s with randomWord := word, mixRound := s.mixRound + 1 })

/-- The bytes that were added, which the task does not return, and the pool. -/
def hwrngTask : Bytes × Hwrng :=
  if hwrngBufSpace s.ring ≥ 8 then
    let (ready, s) := hwrngMixProcess e s
    if ready then
      let word := leBytes 8 s.randomWord.toNat
      let (n, ring) := hwrngBufAdd word s.ring
      (word.take n, { s with ring := ring })
    else ([], s)
  else ([], s)

def hwrngRead (len : ℕ) : Bytes × Hwrng :=
  let (out, ring) := hwrngBufDel s.ring len
  (out, { s with ring := ring })

def hwrngFlush : Hwrng :=
  { s with ring := { s.ring with head := 0, tail := 0, count := 0 } }

/-- Some rounds of the task. -/
def hwrngTasks (es : List Entropy) : Hwrng :=
  es.foldl (fun s e ↦ (hwrngTask e s).2) s

/-- `hwrng_wait_full`, for some looks at the pool. Before the next look some rounds of the task are
run: one by core 0, and while core 1 sleeps those that the other core runs. -/
def hwrngWaitFull (tasks : ℕ → List Entropy) : ℕ → Hwrng → Option Hwrng
  | 0, _ => none
  | looks + 1, s =>
    if hwrngBufFull s.ring then some s
    else hwrngWaitFull (fun i ↦ tasks (i + 1)) looks (hwrngTasks s (tasks 0))

/-! ### Runs -/

/-- What happens to the pool, one lock at a time. -/
inductive HwrngEvent
  | task (e : Entropy)
  | read (len : ℕ)
  | flush

/-- The pool, every byte that was added, and what was taken, by reads and by flushes. -/
structure HwrngRun where
  pool : Hwrng
  added : Bytes
  taken : List Bytes

def HwrngRun.start (buffer : Bytes) : HwrngRun :=
  ⟨hwrngInit buffer, [], []⟩

def hwrngStep (x : HwrngRun) : HwrngEvent → HwrngRun
  | .task e => ⟨(hwrngTask e x.pool).2, x.added ++ (hwrngTask e x.pool).1, x.taken⟩
  | .read len => ⟨(hwrngRead x.pool len).2, x.added, x.taken ++ [(hwrngRead x.pool len).1]⟩
  | .flush => ⟨hwrngFlush x.pool, x.added, x.taken ++ [(hwrngRead x.pool x.pool.ring.count).1]⟩

def hwrngRun (x : HwrngRun) (events : List HwrngEvent) : HwrngRun :=
  events.foldl hwrngStep x

/-- A turn of the loop of `hwrng_get`, which wants four bytes, and of `random_fill_buffer`: what was
read, and what there is then. Others do something before the read, and before the task. -/
def hwrngFillTurn (others : List HwrngEvent × List HwrngEvent) (e : Entropy) (left : ℕ)
    (x : HwrngRun) : Bytes × HwrngRun :=
  let x := hwrngRun x others.1
  let got := (hwrngRead x.pool left).1
  let x := hwrngStep x (.read left)
  (got, if got.length = 0 then hwrngStep (hwrngRun x others.2) (.task e) else x)

/-- The loop, for some turns. -/
def hwrngFill (others : ℕ → List HwrngEvent × List HwrngEvent) (source : ℕ → Entropy) :
    ℕ → ℕ → HwrngRun → Option (Bytes × HwrngRun)
  | _, 0, x => some ([], x)
  | 0, _ + 1, _ => none
  | turns + 1, left + 1, x =>
    let (got, x) := hwrngFillTurn (others 0) (source 0) (left + 1) x
    (hwrngFill (fun i ↦ others (i + 1)) (fun i ↦ source (i + 1)) turns (left + 1 - got.length) x).map
      fun r ↦ (got ++ r.1, r.2)

/-- Rounds of the task that never cease. -/
structure Producing where
  tasks : ℕ → List Entropy
  ne_nil : ∀ i, tasks i ≠ []

/-- **What is asked of the pool.** It holds, behind one another, the bytes that were added and not
taken; a fill gets as many bytes as it wants, which it has taken; and a fill, and a wait for the full
pool, come to an end. -/
structure HwrngMeets (x : HwrngRun) : Prop where
  count_le : x.pool.ring.count ≤ x.pool.ring.size
  fifo : ∃ rest : Bytes, rest.length = x.pool.ring.count ∧ x.added = x.taken.flatten ++ rest
  fill : ∀ others source turns n out x', hwrngFill others source turns n x = some (out, x') →
    out.length = n ∧ (∃ events, x' = hwrngRun x events) ∧
      ∃ log pieces : List Bytes, x'.taken = x.taken ++ log ∧ pieces.Sublist log ∧
        out = pieces.flatten
  fill_ends : ∀ source n, ∃ turns r, hwrngFill (fun _ ↦ ([], [])) source turns n x = some r
  wait_ends : ∀ p : Producing, ∃ looks s, hwrngWaitFull p.tasks looks x.pool = some s

/-! ### The ring buffer as a queue -/

variable {data : Bytes} {rb : HwrngBuf} {e : Entropy} {s s' : Hwrng}

/-- The buffer is in order. -/
structure HwrngBuf.Ok (rb : HwrngBuf) : Prop where
  length_eq : rb.buf.length = rb.size
  head_lt : rb.head < rb.size
  tail_eq : rb.tail = (rb.head + rb.count) % rb.size
  count_le : rb.count ≤ rb.size

/-- The bytes that the buffer holds. -/
def HwrngBuf.contents (rb : HwrngBuf) : Bytes :=
  window rb.buf rb.head rb.count

theorem HwrngBuf.Ok.length_contents (h : rb.Ok) : rb.contents.length = rb.count :=
  length_window (h.length_eq ▸ h.count_le)

/-- **Adding appends** what there is room for. -/
theorem hwrngBufAdd_spec (data : Bytes) (h : rb.Ok) (hfits : data.length ≤ rb.size - rb.count) :
    (hwrngBufAdd data rb).1 = data.length ∧ (hwrngBufAdd data rb).2.Ok ∧
      (hwrngBufAdd data rb).2.size = rb.size ∧
      (hwrngBufAdd data rb).2.contents = rb.contents ++ data := by
  obtain ⟨hlen, hhead, htail, hcount⟩ := h
  have hlt : rb.tail < rb.size := htail ▸ mod_lt _ (by omega)
  have heq : hwrngBufAdd data rb = (data.length,
      { rb with
        buf := store rb.buf rb.tail data
        tail := (rb.tail + data.length) % rb.size
        count := rb.count + data.length }) := by
    have hn : (if data.length < rb.size - rb.count then data.length else rb.size - rb.count) =
        data.length := by
      split_ifs <;> omega
    rw [hwrngBufAdd, hn, store, hlen, mod_eq_ite (by omega)]
    by_cases hwrap : data.length > rb.size - rb.tail
    · have htake : (data.drop (rb.size - rb.tail)).take (data.length - (rb.size - rb.tail)) =
          data.drop (rb.size - rb.tail) :=
        take_of_length_le (by rw [length_drop])
      simp only [if_pos hwrap]
      rw [if_pos (by omega), if_pos (by omega), if_neg (by omega), htake]
      congr 2
      omega
    · have hdrop : data.drop (rb.size - rb.tail) = [] := drop_of_length_le (by omega)
      have htake : data.take (rb.size - rb.tail) = data := take_of_length_le (by omega)
      have hpatch (buf : Bytes) : patch buf 0 [] = buf := by simp [patch]
      simp only [if_neg hwrap]
      rw [hdrop, htake, hpatch, take_length, if_neg (by omega : ¬ data.length > data.length)]
      by_cases hempty : data.length = 0
      · obtain rfl := eq_nil_of_length_eq_zero hempty
        rw [if_neg (by simp), if_pos (by simpa using hlt)]
        simp [patch]
      · rw [if_pos hempty]
        congr 2
        split_ifs <;> omega
  have hstore : (store rb.buf rb.tail data).length = rb.buf.length :=
    length_store (hlen ▸ hlt) (by omega)
  rw [heq]
  refine ⟨rfl, ⟨hstore.trans hlen, hhead, ?_, ?_⟩, rfl, ?_⟩
  · change (rb.tail + data.length) % rb.size = (rb.head + (rb.count + data.length)) % rb.size
    rw [htail, Nat.mod_add_mod, Nat.add_assoc]
  · change rb.count + data.length ≤ rb.size
    omega
  · change window (store rb.buf rb.tail data) rb.head (rb.count + data.length) = _
    rw [htail, ← hlen, window_store (hlen ▸ hhead) (by omega), HwrngBuf.contents]

/-- **Deleting takes** the first bytes. -/
theorem hwrngBufDel_spec (len : ℕ) (h : rb.Ok) :
    (hwrngBufDel rb len).2.Ok ∧ (hwrngBufDel rb len).2.size = rb.size ∧
      rb.contents = (hwrngBufDel rb len).1 ++ (hwrngBufDel rb len).2.contents ∧
      (hwrngBufDel rb len).1.length = min len rb.count := by
  obtain ⟨hlen, hhead, htail, hcount⟩ := h
  obtain ⟨n, hn⟩ : ∃ n, n = if len < rb.count then len else rb.count := ⟨_, rfl⟩
  have hmin : n = min len rb.count := by
    rw [hn]
    split_ifs <;> omega
  have hle : n ≤ rb.count := hmin ▸ min_le_right _ _
  have heq : hwrngBufDel rb len = (window rb.buf rb.head n,
      { rb with head := (rb.head + n) % rb.size, count := rb.count - n }) := by
    rw [hwrngBufDel, ← hn, window_eq_slices (hlen ▸ hhead) (by omega), hlen, mod_eq_ite (by omega)]
    by_cases hwrap : n > rb.size - rb.head
    · simp only [if_pos hwrap]
      rw [if_pos (by omega), if_pos (by omega), if_neg (by omega), min_eq_right (by omega)]
      congr 2
      omega
    · have hrest : n - (rb.size - rb.head) = 0 := by omega
      have hnil : slice rb.buf 0 0 = [] := rfl
      simp only [if_neg hwrap]
      rw [if_neg (by omega : ¬ n > n), min_eq_left (by omega), hrest, hnil, append_nil]
      by_cases hzero : n = 0
      · rw [hzero, if_neg (by simp), if_pos (by simpa using hhead)]
        simp [slice]
      · rw [if_pos hzero]
        congr 2
        split_ifs <;> omega
  rw [heq, ← hmin]
  refine ⟨⟨hlen, mod_lt _ (by omega), ?_, by change rb.count - n ≤ rb.size; omega⟩, rfl, ?_,
    length_window (by omega)⟩
  · change rb.tail = ((rb.head + n) % rb.size + (rb.count - n)) % rb.size
    rw [htail, Nat.mod_add_mod, Nat.add_assoc, Nat.add_sub_cancel' hle]
  · change window rb.buf rb.head rb.count = window rb.buf rb.head n ++
      window rb.buf ((rb.head + n) % rb.size) (rb.count - n)
    rw [← take_window hle, ← hlen, ← drop_window hle (by omega), take_append_drop]

/-! ### The calls -/

/-- The pool is in order, and of whole words. -/
structure Hwrng.Ok (s : Hwrng) : Prop where
  ring : s.ring.Ok
  words : 8 ∣ s.ring.size
  round_lt : s.mixRound < 8

theorem hwrngMixProcess_cases (e : Entropy) (s : Hwrng) : ∃ word,
    s.mixRound + 1 = 8 ∧
        hwrngMixProcess e s = (true, { s with randomWord := word, mixRound := 0 }) ∨
      s.mixRound + 1 ≠ 8 ∧
        hwrngMixProcess e s =
          (false, { s with randomWord := word, mixRound := s.mixRound + 1 }) := by
  by_cases hready : s.mixRound + 1 = 8
  · exact ⟨_, .inl ⟨hready, if_pos hready⟩⟩
  · exact ⟨_, .inr ⟨hready, if_neg hready⟩⟩

/-- **What a round of the task does**: nothing where a word has no room, otherwise it mixes, and in
the eighth round it adds a word. -/
theorem hwrngTask_spec (e : Entropy) (h : s.Ok) :
    (hwrngTask e s).2.Ok ∧ (hwrngTask e s).2.ring.size = s.ring.size ∧
      (hwrngTask e s).2.ring.contents = s.ring.contents ++ (hwrngTask e s).1 ∧
      (s.ring.size < s.ring.count + 8 ∧ (hwrngTask e s).2 = s ∨
        s.ring.count + 8 ≤ s.ring.size ∧ (hwrngTask e s).2.ring.count = s.ring.count ∧
          (hwrngTask e s).2.mixRound = s.mixRound + 1 ∨
        s.ring.count + 8 ≤ s.ring.size ∧ (hwrngTask e s).2.ring.count = s.ring.count + 8 ∧
          (hwrngTask e s).2.mixRound = 0 ∧ s.mixRound = 7) := by
  obtain ⟨hring, hwords, hround⟩ := h
  unfold hwrngTask hwrngBufSpace
  by_cases hroom : s.ring.size - s.ring.count ≥ 8
  · rw [if_pos hroom]
    obtain ⟨word, ⟨hready, hmix⟩ | ⟨hready, hmix⟩⟩ := hwrngMixProcess_cases e s
    · obtain ⟨hn, hok, hsize, hcontents⟩ := hwrngBufAdd_spec (leBytes 8 word.toNat) hring
        (by rw [length_leBytes]; exact hroom)
      have hcount := congrArg List.length hcontents
      rw [length_append, hok.length_contents, hring.length_contents, length_leBytes] at hcount
      rw [hmix]
      simp only [if_true]
      rw [hn, take_length]
      exact ⟨⟨hok, hsize ▸ hwords, zero_lt_succ 7⟩, hsize, hcontents,
        .inr (.inr ⟨by omega, hcount, trivial, by omega⟩)⟩
    · rw [hmix]
      refine ⟨⟨hring, hwords, ?_⟩, rfl, (append_nil _).symm, .inr (.inl ⟨by omega, rfl, rfl⟩)⟩
      change s.mixRound + 1 < 8
      omega
  · rw [if_neg hroom]
    exact ⟨⟨hring, hwords, hround⟩, rfl, (append_nil _).symm, .inl ⟨by omega, rfl⟩⟩

/-- The bytes of a read leave the pool, and nothing else changes. -/
theorem hwrngRead_spec (len : ℕ) (h : s.Ok) :
    (hwrngRead s len).2.Ok ∧
      s.ring.contents = (hwrngRead s len).1 ++ (hwrngRead s len).2.ring.contents ∧
      (hwrngRead s len).1.length = min len s.ring.count := by
  obtain ⟨hok, hsize, hcontents, hlength⟩ := hwrngBufDel_spec len h.ring
  exact ⟨⟨hok, hsize ▸ h.words, h.round_lt⟩, hcontents, hlength⟩

/-! ### What was added and what was taken -/

variable {x x' : HwrngRun} {n : ℕ}

/-- **Nothing is lost**, and nothing is taken twice. -/
structure Lossless (x : HwrngRun) : Prop where
  ok : x.pool.Ok
  added_eq : x.added = x.taken.flatten ++ x.pool.ring.contents

theorem Lossless.start {buffer : Bytes} (hpos : 0 < buffer.length) (hwords : 8 ∣ buffer.length) :
    Lossless (.start buffer) :=
  ⟨⟨⟨rfl, hpos, (zero_mod _).symm, zero_le _⟩, hwords, zero_lt_succ 7⟩, rfl⟩

/-- What happens keeps it so. -/
theorem Lossless.step (h : Lossless x) (event : HwrngEvent) : Lossless (hwrngStep x event) := by
  have htaken {got rest : Bytes} (hgot : x.pool.ring.contents = got ++ rest) :
      x.added = (x.taken ++ [got]).flatten ++ rest := by
    rw [flatten_append, flatten_singleton, append_assoc, ← hgot, h.added_eq]
  cases event with
  | task e =>
    obtain ⟨hok, -, hcontents, -⟩ := hwrngTask_spec e h.ok
    refine ⟨hok, ?_⟩
    change x.added ++ _ = x.taken.flatten ++ (hwrngTask e x.pool).2.ring.contents
    rw [hcontents, h.added_eq, append_assoc]
  | read len =>
    obtain ⟨hok, hgot, -⟩ := hwrngRead_spec len h.ok
    exact ⟨hok, htaken hgot⟩
  | flush =>
    obtain ⟨hok, hgot, hlength⟩ := hwrngRead_spec x.pool.ring.count h.ok
    have hpos := (zero_le _).trans_lt h.ok.ring.head_lt
    refine ⟨⟨⟨h.ok.ring.length_eq, hpos, (zero_mod _).symm, zero_le _⟩, h.ok.words,
      h.ok.round_lt⟩, htaken (hgot.trans (congrArg _ (eq_nil_of_length_eq_zero ?_)))⟩
    have hall := congrArg List.length hgot
    rw [length_append, h.ok.ring.length_contents, hlength] at hall
    omega

theorem Lossless.run (h : Lossless x) (events : List HwrngEvent) : Lossless (hwrngRun x events) := by
  induction events generalizing x with
  | nil => exact h
  | cons event events ih => exact ih (h.step event)

theorem hwrngRun_append (events events' : List HwrngEvent) :
    hwrngRun x (events ++ events') = hwrngRun (hwrngRun x events) events' :=
  foldl_append

/-- What was taken stays taken. -/
theorem taken_hwrngRun (events : List HwrngEvent) :
    ∃ log, (hwrngRun x events).taken = x.taken ++ log := by
  induction events generalizing x with
  | nil => exact ⟨[], (append_nil _).symm⟩
  | cons event events ih =>
    obtain ⟨log, hlog⟩ := ih (x := hwrngStep x event)
    obtain ⟨own, hown⟩ : ∃ own, (hwrngStep x event).taken = x.taken ++ own := by
      cases event with
      | task => exact ⟨[], (append_nil _).symm⟩
      | read => exact ⟨_, rfl⟩
      | flush => exact ⟨_, rfl⟩
    exact ⟨own ++ log, by rw [← append_assoc, ← hown]; exact hlog⟩

/-- **A turn of a fill** reads no more than it wants, and takes what it reads. -/
theorem hwrngFillTurn_spec (others : List HwrngEvent × List HwrngEvent) (left : ℕ) (e : Entropy)
    (h : Lossless x) :
    (hwrngFillTurn others e left x).1.length ≤ left ∧
      (∃ events, (hwrngFillTurn others e left x).2 = hwrngRun x events) ∧
      ∃ log, (hwrngFillTurn others e left x).2.taken = x.taken ++ log ∧
        [(hwrngFillTurn others e left x).1].Sublist log := by
  obtain ⟨-, -, hlength⟩ := hwrngRead_spec left (h.run others.1).ok
  obtain ⟨first, hfirst⟩ := taken_hwrngRun (x := x) others.1
  have hread : (hwrngStep (hwrngRun x others.1) (.read left)).taken =
      x.taken ++ (first ++ [(hwrngRead (hwrngRun x others.1).pool left).1]) :=
    (congrArg (· ++ _) hfirst).trans (append_assoc _ _ _)
  obtain ⟨events, hevents⟩ : ∃ events, (hwrngFillTurn others e left x).2 =
      hwrngRun (hwrngStep (hwrngRun x others.1) (.read left)) events := by
    rw [hwrngFillTurn]
    split_ifs
    · refine ⟨others.2 ++ [.task e], ?_⟩
      rw [hwrngRun_append]
      rfl
    · exact ⟨[], rfl⟩
  obtain ⟨second, hsecond⟩ :=
    taken_hwrngRun (x := hwrngStep (hwrngRun x others.1) (.read left)) events
  refine ⟨hlength.trans_le (min_le_left _ _), ⟨others.1 ++ .read left :: events, ?_⟩, _, ?_,
    ((sublist_append_right first _).trans (sublist_append_left _ second))⟩
  · rw [hevents, hwrngRun_append]
    rfl
  · rw [hevents, hsecond, hread, append_assoc]
    rfl

/-- **A fill gets what it wants**, out of what it has taken, whatever others do meanwhile. -/
theorem Lossless.fill {others : ℕ → List HwrngEvent × List HwrngEvent} {source : ℕ → Entropy}
    {turns : ℕ} {out : Bytes} (h : Lossless x)
    (hfill : hwrngFill others source turns n x = some (out, x')) :
    out.length = n ∧ (∃ events, x' = hwrngRun x events) ∧
      ∃ log pieces : List Bytes, x'.taken = x.taken ++ log ∧ pieces.Sublist log ∧
        out = pieces.flatten := by
  induction others, source, turns, n, x using hwrngFill.induct generalizing out x' with
  | case1 =>
    rw [hwrngFill] at hfill
    cases hfill
    exact ⟨rfl, ⟨[], rfl⟩, [], [], (append_nil _).symm, .slnil, rfl⟩
  | case2 => cases hfill
  | case3 others source turns left x got next hturn ih =>
    obtain ⟨hle, ⟨events, hevents⟩, own, hown, hgot⟩ :=
      hwrngFillTurn_spec (others 0) (left + 1) (source 0) h
    rw [hturn] at hle hevents hown hgot
    obtain rfl : next = hwrngRun x events := hevents
    replace hle : got.length ≤ left + 1 := hle
    rw [hwrngFill, hturn, Option.map_eq_some_iff] at hfill
    obtain ⟨⟨rest, x''⟩, hrest, heq⟩ := hfill
    cases heq
    obtain ⟨hlength, ⟨later, hlater⟩, log, pieces, hlog, hpieces, rfl⟩ :=
      ih (h.run events) hrest
    refine ⟨?_, ⟨events ++ later, ?_⟩, own ++ log, [got] ++ pieces, ?_, hgot.append hpieces, rfl⟩
    · rw [length_append, hlength]
      omega
    · rw [hlater, hwrngRun_append]
    · rw [hlog, hown, append_assoc]

/-! ### Fills end -/

/-- What is still to be done for a fill: its bytes, and until there are any the rounds of a word. -/
def fillWork (left : ℕ) (s : Hwrng) : ℕ :=
  left * 9 + if s.ring.count = 0 then 8 - s.mixRound else 0

/-- Every turn does some of it. -/
theorem fillWork_turn (e : Entropy) (h : Lossless x) (hleft : left ≠ 0) :
    fillWork (left - (hwrngFillTurn ([], []) e left x).1.length)
      (hwrngFillTurn ([], []) e left x).2.pool < fillWork left x.pool := by
  obtain ⟨hok, hgot, hlength⟩ := hwrngRead_spec left h.ok
  have hcount := congrArg List.length hgot
  rw [length_append, h.ok.ring.length_contents, hok.ring.length_contents] at hcount
  obtain ⟨-, -, -, hcases⟩ := hwrngTask_spec e hok
  have hround := h.ok.round_lt
  have hpos := (zero_le _).trans_lt h.ok.ring.head_lt
  obtain ⟨k, hk⟩ := h.ok.words
  have hsize : (hwrngRead x.pool left).2.ring.size = x.pool.ring.size := rfl
  have hsame : (hwrngRead x.pool left).2.mixRound = x.pool.mixRound := rfl
  have hturn : (hwrngFillTurn ([], []) e left x).2.pool =
      if (hwrngRead x.pool left).1.length = 0 then (hwrngTask e (hwrngRead x.pool left).2).2
      else (hwrngRead x.pool left).2 :=
    apply_ite HwrngRun.pool _ _ _
  rw [hturn, show (hwrngFillTurn ([], []) e left x).1 = (hwrngRead x.pool left).1 from rfl]
  generalize hwrngRead x.pool left = r at *
  generalize hwrngTask e r.2 = t at *
  rw [fillWork, fillWork]
  by_cases hnone : r.1.length = 0
  · rw [if_pos hnone, hnone, if_pos (by omega : x.pool.ring.count = 0)]
    split_ifs <;> omega
  · rw [if_neg hnone]
    split_ifs <;> omega

/-- **A fill by itself ends.** -/
theorem hwrngFill_ends (h : Lossless x) (source : ℕ → Entropy) (n : ℕ) :
    ∃ turns r, hwrngFill (fun _ ↦ ([], [])) source turns n x = some r := by
  induction hwork : fillWork n x.pool using Nat.strong_induction_on generalizing x n source with
  | h work ih =>
    cases n with
    | zero => exact ⟨0, _, rfl⟩
    | succ left =>
      have hlt := fillWork_turn (source 0) h left.succ_ne_zero
      obtain ⟨-, ⟨events, hevents⟩, -⟩ := hwrngFillTurn_spec ([], []) (left + 1) (source 0) h
      obtain ⟨turns, r, hr⟩ := ih _ (hwork ▸ hlt) (hevents ▸ h.run events) (fun i ↦ source (i + 1)) _
        rfl
      exact ⟨turns + 1, _, Option.map_eq_some_iff.mpr ⟨r, hr, rfl⟩⟩

/-! ### The wait for the full pool -/

/-- The rounds until there is no room for a word. -/
def waitWork (s : Hwrng) : ℕ :=
  (s.ring.size - s.ring.count) * 8 + (8 - s.mixRound)

/-- Rounds of the task leave the bytes behind the last whole word, and do some of the work while a
word has room. -/
theorem waitWork_tasks (h : s.Ok) (es : List Entropy) :
    (hwrngTasks s es).Ok ∧ (8 ∣ (hwrngTasks s es).ring.count ↔ 8 ∣ s.ring.count) ∧
      waitWork (hwrngTasks s es) ≤ waitWork s ∧
      (s.ring.count + 8 ≤ s.ring.size → es ≠ [] → waitWork (hwrngTasks s es) < waitWork s) := by
  induction es generalizing s with
  | nil => exact ⟨h, .rfl, le_rfl, fun _ hne ↦ absurd rfl hne⟩
  | cons e es ih =>
    obtain ⟨hok, hsize, -, hcases⟩ := hwrngTask_spec e h
    obtain ⟨hok', hwords, hle, -⟩ := ih hok
    have hround := h.round_lt
    have hstep : (8 ∣ (hwrngTask e s).2.ring.count ↔ 8 ∣ s.ring.count) ∧
        waitWork (hwrngTask e s).2 ≤ waitWork s ∧
        (s.ring.count + 8 ≤ s.ring.size → waitWork (hwrngTask e s).2 < waitWork s) := by
      rw [waitWork, waitWork, hsize]
      rcases hcases with ⟨hfull, heq⟩ | ⟨hroom, hcount, hnext⟩ | ⟨hroom, hcount, hnext, hlast⟩
      · rw [heq]
        exact ⟨.rfl, le_rfl, fun hroom ↦ by omega⟩
      · rw [hcount, hnext]
        exact ⟨.rfl, by omega, fun _ ↦ by omega⟩
      · rw [hcount, hnext]
        exact ⟨by omega, by omega, fun _ ↦ by omega⟩
    exact ⟨hok', hwords.trans hstep.1, hle.trans hstep.2.1,
      fun hroom _ ↦ hle.trans_lt (hstep.2.2 hroom)⟩

theorem hwrngWaitFull_ends {tasks : ℕ → List Entropy} (hne : ∀ i, tasks i ≠ []) (h : s.Ok)
    (hwords : 8 ∣ s.ring.count) : ∃ looks s', hwrngWaitFull tasks looks s = some s' := by
  induction hwork : waitWork s using Nat.strong_induction_on generalizing s tasks with
  | h work ih =>
    by_cases hfull : hwrngBufFull s.ring = true
    · exact ⟨1, s, if_pos hfull⟩
    · have hroom : s.ring.count ≠ s.ring.size := by simpa [hwrngBufFull] using hfull
      have hle := h.ring.count_le
      have hsize := h.words
      obtain ⟨hok, hsame, -, hlt⟩ := waitWork_tasks h (tasks 0)
      obtain ⟨looks, s', hs'⟩ := ih _ (hwork ▸ hlt (by omega) (hne 0)) (fun i ↦ hne (i + 1)) hok
        (hsame.mpr hwords) rfl
      exact ⟨looks + 1, s', (if_neg hfull).trans hs'⟩

theorem words_of_hwrngWaitFull {tasks : ℕ → List Entropy} {looks : ℕ} (h : s.Ok)
    (hends : hwrngWaitFull tasks looks s = some s') : 8 ∣ s.ring.count := by
  induction looks generalizing s tasks with
  | zero => cases hends
  | succ looks ih =>
    rw [hwrngWaitFull] at hends
    split_ifs at hends with hfull
    · have heq : s.ring.count = s.ring.size := by simpa [hwrngBufFull] using hfull
      exact heq ▸ h.words
    · obtain ⟨hok, hsame, -⟩ := waitWork_tasks h (tasks 0)
      exact hsame.mp (ih hok hends)

/-- **After any sequence of events the pool has lost nothing, and fills get what they want and end**;
a wait for the full pool ends as well exactly if the pool holds a multiple of eight bytes. -/
theorem hwrng_meets_iff {buffer : Bytes} (hpos : 0 < buffer.length) (hwords : 8 ∣ buffer.length)
    (events : List HwrngEvent) :
    HwrngMeets (hwrngRun (.start buffer) events) ↔
      8 ∣ (hwrngRun (.start buffer) events).pool.ring.count := by
  have h := (Lossless.start hpos hwords).run events
  constructor
  · intro hmeets
    obtain ⟨looks, s, hs⟩ := hmeets.wait_ends ⟨fun _ ↦ [⟨0, 0⟩], fun _ ↦ cons_ne_nil _ _⟩
    exact words_of_hwrngWaitFull h.ok hs
  · exact fun hcount ↦ ⟨h.ok.ring.count_le, ⟨_, h.ok.ring.length_contents, h.added_eq⟩,
      fun _ _ _ _ _ _ ↦ h.fill, hwrngFill_ends h, fun p ↦ hwrngWaitFull_ends p.ne_nil h.ok hcount⟩

/-- Two words are mixed, of which one is read in halves. -/
theorem hwrng_meets_random_pool :
    HwrngMeets (hwrngRun (.start (List.replicate 256 0))
      (List.replicate 8 (.task ⟨0, 0⟩) ++ .read 4 :: List.replicate 8 (.task ⟨1, 5⟩) ++ [.read 4])) :=
  (hwrng_meets_iff (by rw [length_replicate]; decide) (by rw [length_replicate]; decide) _).mpr
    (by decide +kernel)

/-- When four bytes have been read of the first word the pool is never full again. -/
theorem hwrng_wait_full_endless :
    ¬ HwrngMeets (hwrngRun (.start (List.replicate 256 0))
      (List.replicate 8 (.task ⟨0, 0⟩) ++ [.read 4])) := by
  intro hmeets
  have hpool : 0 < (List.replicate 256 (0 : UInt8)).length ∧
      8 ∣ (List.replicate 256 (0 : UInt8)).length := by
    rw [length_replicate]
    decide
  have h := (Lossless.start hpool.1 hpool.2).run (List.replicate 8 (.task ⟨0, 0⟩) ++ [.read 4])
  obtain ⟨looks, s, hs⟩ := hmeets.wait_ends ⟨fun _ ↦ [⟨0, 0⟩], fun _ ↦ cons_ne_nil _ _⟩
  exact absurd (words_of_hwrngWaitFull h.ok hs) (by decide +kernel)

end PicoAll.Firmware

import RedoLog.System

/-!
# The block accounting of `log_write_low`

`log_write_low` copies a string into the log buffer a block at a time. Each pass of its
`part_loop` fills the payload of the current block up to the trailer, stamps the block's data
length and, when the block is full, its checkpoint number, and then initialises the header of the
next block. This module says what a whole call does, for every in-block offset and every string
length, and proves it by induction over the passes: the string's bytes land, in order, at the
payload offsets that follow `buf_free`; `lsn` and `buf_free` advance by the string's length and
by a header and a trailer for every block filled; every filled block is stamped full; and the
block the call ends in is stamped with its data length, under a fresh header when the call
crossed a block boundary.

The only bytes before the old `buf_free` that a call changes are the stamps of the block
`buf_free` was in: its data length, always, and its checkpoint number when the call fills it.
Every other byte before `buf_free`, and every byte from the new `buf_free` on, is kept.

The numbers are the block layout of `Block.lean`: blocks of 512 bytes, a 12-byte header and a
4-byte trailer, so 496 payload bytes in a block and 16 bytes of header and trailer between the
payloads of two blocks.

## Main results

* `logWriteLow_accounting` — what a call of `log_write_low` does, as above.
* `logWriteLow_reserved` — the appends that follow a reservation of `log_reserve_and_open` write
  below `buf_size`, and leave room for the write-ahead block.
-/

namespace RedoLog

/-! ### Where the bytes go -/

/-- The number of blocks that `n` more payload bytes fill from the in-block offset `off`. -/
def blocksFilled (off n : ℕ) : ℕ := (off - 12 + n) / 496

/-- The buffer offset of byte `i` of a string appended at `bufFree`: `i` bytes on, and a trailer
and a header further for every block filled before the byte. -/
def payloadPlace (bufFree i : ℕ) : ℕ := bufFree + i + 16 * blocksFilled (bufFree % 512) i

/-- A string that fills the first block: the blocks it fills are that one and those its rest
fills from the start of the next block's payload. -/
theorem blocksFilled_of_full {off n : ℕ} (h : 12 ≤ off) (h' : off < 508) (hn : 508 ≤ off + n) :
    blocksFilled off n = 1 + blocksFilled 12 (n - (508 - off)) := by
  unfold blocksFilled; omega

theorem payloadPlace_of_lt {bufFree i : ℕ} (h : 12 ≤ bufFree % 512) (hi : i < 508 - bufFree % 512) :
    payloadPlace bufFree i = bufFree + i := by
  unfold payloadPlace blocksFilled; omega

/-- Past the first block, the bytes are placed from the payload of the next block. -/
theorem payloadPlace_of_le {bufFree i : ℕ} (h : 12 ≤ bufFree % 512) (h' : bufFree % 512 < 508)
    (hi : 508 - bufFree % 512 ≤ i) :
    payloadPlace bufFree i =
      payloadPlace (bufFree + (508 - bufFree % 512) + 16) (i - (508 - bufFree % 512)) := by
  unfold payloadPlace blocksFilled; omega

/-- Where `log_write_low` may start: `buf_free` inside the payload of its block. -/
structure WriteLowPre (s : LogSys) : Prop where
  hdr_le : logBlockHdrSize ≤ s.bufFree % osFileLogBlockSize
  lt_trl : s.bufFree % osFileLogBlockSize < osFileLogBlockSize - logBlockTrlSize

theorem WriteLowPre.arith {s : LogSys} (hp : WriteLowPre s) :
    12 ≤ s.bufFree % 512 ∧ s.bufFree % 512 < 508 :=
  ⟨hp.hdr_le, hp.lt_trl⟩

/-- Every byte of the string lands at a payload offset. -/
theorem isPayloadOffset_payloadPlace {bufFree : ℕ} (h : 12 ≤ bufFree % 512)
    (h' : bufFree % 512 < 508) (i : ℕ) : IsPayloadOffset (payloadPlace bufFree i) := by
  unfold IsPayloadOffset payloadPlace blocksFilled
  simp only [osFileLogBlockSize, logBlockHdrSize, logBlockTrlSize]
  omega

/-- The bytes follow one another, across the header and trailer between two blocks. -/
theorem payloadPlace_succ {bufFree : ℕ} (h : 12 ≤ bufFree % 512) (i : ℕ) :
    payloadPlace bufFree (i + 1) = payloadPlace bufFree i + 1 ∨
      payloadPlace bufFree (i + 1) = payloadPlace bufFree i + 17 := by
  unfold payloadPlace blocksFilled
  omega

/-- What `log_write_low(str)` does from `s` to `s'`. With `off = buf_free mod 512` and `k` the
blocks the call fills: `lsn` and `buf_free` advance by `|str| + 16 * k`; byte `i` of the string
is at `payloadPlace buf_free i`; every filled block is stamped with the data length 512 and the
low 32 bits of `next_checkpoint_no`; the block of the new `buf_free` has its data length and,
when `k > 0`, the header `log_block_init` gives the block's LSN (when `lsn` stands at the offset
of `buf_free` in its block, as the callers keep it: the positions of the bytes do not depend on
`lsn`, the header's block number does); bytes before the old `buf_free` other than the stamps of
its block, and bytes from the new `buf_free` on, are kept; and no other field of the state
changes. -/
structure WriteLowSpec (s : LogSys) (str : List UInt8) (s' : LogSys) : Prop where
  frame : s' = { s with lsn := s'.lsn, buf := s'.buf, bufFree := s'.bufFree, appended := s'.appended }
  lsn_eq : s'.lsn = s.lsn + str.length + 16 * blocksFilled (s.bufFree % 512) str.length
  bufFree_eq : s'.bufFree = s.bufFree + str.length + 16 * blocksFilled (s.bufFree % 512) str.length
  payload : ∀ i (h : i < str.length), s'.buf (payloadPlace s.bufFree i) = str[i]
  filled : ∀ q < blocksFilled (s.bufFree % 512) str.length,
    logBlockGetDataLen s'.buf (s.bufFree - s.bufFree % 512 + 512 * q) = 512 ∧
      logBlockGetCheckpointNo s'.buf (s.bufFree - s.bufFree % 512 + 512 * q) =
        s.nextCheckpointNo % 2 ^ 32
  last_dataLen : logBlockGetDataLen s'.buf (s'.bufFree - s'.bufFree % 512) = s'.bufFree % 512
  last_init : s.lsn % 512 = s.bufFree % 512 → 0 < blocksFilled (s.bufFree % 512) str.length →
    logBlockGetHdrNo s'.buf (s'.bufFree - s'.bufFree % 512) =
        logBlockConvertLsnToNo (s'.lsn - s'.lsn % 512) % logBlockFlushBitMask ∧
      logBlockGetFirstRecGroup s'.buf (s'.bufFree - s'.bufFree % 512) = 0
  before : ∀ p < s.bufFree,
    ¬(s.bufFree - s.bufFree % 512 + 4 ≤ p ∧ p < s.bufFree - s.bufFree % 512 + 6) →
    ¬(0 < blocksFilled (s.bufFree % 512) str.length ∧
      s.bufFree - s.bufFree % 512 + 8 ≤ p ∧ p < s.bufFree - s.bufFree % 512 + 12) →
    s'.buf p = s.buf p
  above : ∀ p, s'.bufFree ≤ p → s'.buf p = s.buf p

/-! ### One pass -/

section Pass

variable {s : LogSys} {str : List UInt8}

/-- Byte `i` of a copied prefix. -/
theorem Mem.write_take_add {m : Mem} {off len i : ℕ} (hi : i < len) (h : i < str.length) :
    m.write off (str.take len) (off + i) = str[i] := by
  rw [Mem.write_add (by simp; omega)]
  simp [List.getD_eq_getElem?_getD, hi, h]

/-- A pass that leaves the block unfilled is the whole call. -/
theorem writeLowSpec_of_not_full (hp : WriteLowPre s) (hf : ¬PartFull s str) :
    WriteLowSpec s str (logWriteLowPart s str).1 ∧ (logWriteLowPart s str).2 = [] := by
  obtain ⟨h12, h508⟩ := hp.arith
  have hn : s.bufFree % 512 + str.length < 508 := by
    unfold PartFull at hf; simp only [osFileLogBlockSize, logBlockTrlSize] at hf; omega
  have hk : blocksFilled (s.bufFree % 512) str.length = 0 := by unfold blocksFilled; omega
  have hb := utCalcAlignDown_eq s.bufFree osFileLogBlockSize
  simp only [osFileLogBlockSize] at hb
  rw [logWriteLowPart_eq s str hp.lt_trl]
  simp only [if_neg hf, partLen_of_not_full hf, List.take_length, List.drop_length, hb,
    osFileLogBlockSize]
  refine ⟨⟨rfl, ?_, ?_, fun i hi => ?_, fun q hq => absurd hq (by omega), ?_,
    fun _ h => absurd h (by omega), fun p hp hd _ => ?_, fun p hp => ?_⟩, trivial⟩ <;> dsimp only
  · omega
  · omega
  · have : payloadPlace s.bufFree i = s.bufFree + i := by
      unfold payloadPlace blocksFilled; omega
    rw [this, logBlockSetDataLen_of_not_mem _ (by omega), Mem.write_add hi]
    simp [List.getD_eq_getElem?_getD, hi]
  · rw [show s.bufFree + str.length - (s.bufFree + str.length) % 512 =
      s.bufFree - s.bufFree % 512 by omega, logBlockGetDataLen_logBlockSetDataLen]
    omega
  · rw [logBlockSetDataLen_of_not_mem _ (by omega), Mem.write_of_lt _ hp]
  · dsimp only at hp
    rw [logBlockSetDataLen_of_not_mem _ (by omega), Mem.write_of_le (by omega)]

/-- What a pass of `log_write_low` that fills its block does, from `s` to `s₁` with `rest` of the
string left: it copies the `508 - off` bytes that fill the block's payload, stamps the block
full, and initialises the header of the next block at the LSN where the pass ends. -/
structure FilledPass (s : LogSys) (str : List UInt8) (s₁ : LogSys) (rest : List UInt8) : Prop where
  full : 508 ≤ s.bufFree % 512 + str.length
  frame : s₁ = { s with lsn := s₁.lsn, buf := s₁.buf, bufFree := s₁.bufFree, appended := s₁.appended }
  lsn_eq : s₁.lsn = s.lsn + (508 - s.bufFree % 512) + 16
  bufFree_eq : s₁.bufFree = s.bufFree + (508 - s.bufFree % 512) + 16
  rest_eq : rest = str.drop (508 - s.bufFree % 512)
  payload : ∀ i (h : i < str.length), i < 508 - s.bufFree % 512 → s₁.buf (s.bufFree + i) = str[i]
  keep : ∀ p, p < s.bufFree ∨ s.bufFree - s.bufFree % 512 + 520 ≤ p →
    ¬(s.bufFree - s.bufFree % 512 + 4 ≤ p ∧ p < s.bufFree - s.bufFree % 512 + 6) →
    ¬(s.bufFree - s.bufFree % 512 + 8 ≤ p ∧ p < s.bufFree - s.bufFree % 512 + 12) →
    s₁.buf p = s.buf p
  filled : logBlockGetDataLen s₁.buf (s.bufFree - s.bufFree % 512) = 512 ∧
    logBlockGetCheckpointNo s₁.buf (s.bufFree - s.bufFree % 512) = s.nextCheckpointNo % 2 ^ 32
  next : logBlockGetDataLen s₁.buf (s.bufFree - s.bufFree % 512 + 512) = 12 ∧
    logBlockGetHdrNo s₁.buf (s.bufFree - s.bufFree % 512 + 512) =
      logBlockConvertLsnToNo s₁.lsn % logBlockFlushBitMask ∧
    logBlockGetFirstRecGroup s₁.buf (s.bufFree - s.bufFree % 512 + 512) = 0

theorem filledPass_logWriteLowPart (hp : WriteLowPre s) (hf : PartFull s str) :
    FilledPass s str (logWriteLowPart s str).1 (logWriteLowPart s str).2 := by
  obtain ⟨h12, h508⟩ := hp.arith
  have hn : 508 ≤ s.bufFree % 512 + str.length := hf
  have hk : partLen s str = 508 - s.bufFree % 512 := by
    unfold partLen; simp only [osFileLogBlockSize, logBlockTrlSize]; omega
  have hb := utCalcAlignDown_eq s.bufFree osFileLogBlockSize
  simp only [osFileLogBlockSize] at hb
  rw [logWriteLowPart_eq s str hp.lt_trl]
  simp only [if_pos hf, hk, hb, osFileLogBlockSize, logBlockHdrSize, logBlockTrlSize]
  refine ⟨hn, rfl, ?_, ?_, rfl, fun i hi hL => ?_, fun p h1 h2 h3 => ?_, ⟨?_, ?_⟩, ⟨?_, ?_, ?_⟩⟩ <;>
    dsimp only
  · omega
  · omega
  · rw [logBlockInit_of_not_mem _ (by omega), logBlockSetCheckpointNo_of_not_mem _ (by omega),
      logBlockSetDataLen_of_not_mem _ (by omega), logBlockSetDataLen_of_not_mem _ (by omega),
      Mem.write_take_add hL hi]
  · rw [logBlockInit_of_not_mem _ (by omega), logBlockSetCheckpointNo_of_not_mem _ (by omega),
      logBlockSetDataLen_of_not_mem _ (by omega), logBlockSetDataLen_of_not_mem _ (by omega),
      Mem.write_of_not_mem (by simp only [List.length_take]; omega)]
  · rw [logBlockGetDataLen_congr fun j hj => (logBlockInit_of_not_mem _ (by omega)).trans
      (logBlockSetCheckpointNo_of_not_mem _ (by omega)), logBlockGetDataLen_logBlockSetDataLen]
    rfl
  · rw [logBlockGetCheckpointNo_congr fun j hj => logBlockInit_of_not_mem _ (by omega),
      logBlockGetCheckpointNo_logBlockSetCheckpointNo]
    rfl
  · exact logBlockGetDataLen_logBlockInit _ _ _
  · exact logBlockGetHdrNo_logBlockInit _ _ _
  · exact logBlockGetFirstRecGroup_logBlockInit _ _ _

/-- After a filled pass, `buf_free` and `lsn` stand at the start of the next block's payload. -/
theorem FilledPass.writeLowPre {s₁ : LogSys} {rest : List UInt8} (hp : WriteLowPre s)
    (hpass : FilledPass s str s₁ rest) : WriteLowPre s₁ := by
  obtain ⟨h12, h508⟩ := hp.arith
  have h1 := hpass.lsn_eq; have h2 := hpass.bufFree_eq
  constructor <;> simp only [osFileLogBlockSize, logBlockHdrSize, logBlockTrlSize] <;> omega

/-- Appending nothing, where the block's data length is already right, is the identity. -/
theorem writeLowSpec_nil (hp : WriteLowPre s)
    (h : logBlockGetDataLen s.buf (s.bufFree - s.bufFree % 512) = s.bufFree % 512) :
    WriteLowSpec s [] s := by
  obtain ⟨h12, h508⟩ := hp.arith
  have hk : blocksFilled (s.bufFree % 512) 0 = 0 := by unfold blocksFilled; omega
  refine ⟨rfl, ?_, ?_, fun i hi => absurd hi (Nat.not_lt_zero _), fun q hq => absurd hq ?_, h,
    fun _ h => absurd h ?_, fun _ _ _ _ => rfl, fun _ _ => rfl⟩ <;>
    simp only [List.length_nil, hk] <;> omega

end Pass

/-! ### The whole call -/

section Call

variable {s s₁ s' : LogSys} {str rest : List UInt8}

namespace FilledPass

variable (hpass : FilledPass s str s₁ rest)
include hpass

theorem rest_length : rest.length = str.length - (508 - s.bufFree % 512) := by
  rw [hpass.rest_eq, List.length_drop]

variable (hp : WriteLowPre s)
include hp

/-- The rest of the call starts in the payload of the block after the filled one. -/
theorem next_bufFree : s₁.bufFree % 512 = 12 ∧ s₁.bufFree - 12 = s.bufFree - s.bufFree % 512 + 512 := by
  have := hpass.bufFree_eq; obtain ⟨h12, h508⟩ := hp.arith; omega

theorem blocksFilled_eq :
    blocksFilled (s.bufFree % 512) str.length = 1 + blocksFilled (s₁.bufFree % 512) rest.length := by
  rw [(hpass.next_bufFree hp).1, hpass.rest_length]
  exact blocksFilled_of_full hp.arith.1 hp.arith.2 hpass.full

variable (h : WriteLowSpec s₁ rest s')
include h

/-- The bytes below the block where the rest starts are those the pass left. -/
theorem buf_of_lt {p : ℕ} (hlt : p < s.bufFree - s.bufFree % 512 + 512) : s'.buf p = s₁.buf p := by
  obtain ⟨h1, h2⟩ := hpass.next_bufFree hp
  exact h.before p (by omega) (by omega) (by omega)

theorem payload_eq {i : ℕ} (hi : i < str.length) : s'.buf (payloadPlace s.bufFree i) = str[i] := by
  obtain ⟨h12, h508⟩ := hp.arith
  by_cases hiL : i < 508 - s.bufFree % 512
  · rw [payloadPlace_of_lt h12 hiL, hpass.buf_of_lt hp h (by omega), hpass.payload i hi hiL]
  · have hr : i - (508 - s.bufFree % 512) < rest.length := by rw [hpass.rest_length]; omega
    rw [payloadPlace_of_le h12 h508 (not_lt.mp hiL), ← hpass.bufFree_eq, h.payload _ hr]
    simp only [hpass.rest_eq, List.getElem_drop]
    congr 1; omega

theorem filled_eq {q : ℕ} (hq : q < blocksFilled (s.bufFree % 512) str.length) :
    logBlockGetDataLen s'.buf (s.bufFree - s.bufFree % 512 + 512 * q) = 512 ∧
      logBlockGetCheckpointNo s'.buf (s.bufFree - s.bufFree % 512 + 512 * q) =
        s.nextCheckpointNo % 2 ^ 32 := by
  rcases q with _ | q
  · exact ⟨(logBlockGetDataLen_congr fun _ _ => hpass.buf_of_lt hp h (by omega)).trans hpass.filled.1,
      (logBlockGetCheckpointNo_congr fun _ _ => hpass.buf_of_lt hp h (by omega)).trans hpass.filled.2⟩
  · obtain ⟨hoff, hb1⟩ := hpass.next_bufFree hp
    have hq' := h.filled q (by rw [hpass.blocksFilled_eq hp] at hq; omega)
    rwa [hoff, show s₁.bufFree - 12 + 512 * q = s.bufFree - s.bufFree % 512 + 512 * (q + 1) by omega,
      show s₁.nextCheckpointNo = s.nextCheckpointNo by rw [hpass.frame]] at hq'

/-- The block the call ends in: the one the rest ends in, or, when the rest fills no block, the
one the pass initialised. -/
theorem init_eq (hmod : s.lsn % 512 = s.bufFree % 512) :
    logBlockGetHdrNo s'.buf (s'.bufFree - s'.bufFree % 512) =
        logBlockConvertLsnToNo (s'.lsn - s'.lsn % 512) % logBlockFlushBitMask ∧
      logBlockGetFirstRecGroup s'.buf (s'.bufFree - s'.bufFree % 512) = 0 := by
  obtain ⟨h12, h508⟩ := hp.arith
  obtain ⟨hoff, hb1⟩ := hpass.next_bufFree hp
  have hlsn := hpass.lsn_eq
  by_cases hk' : 0 < blocksFilled (s₁.bufFree % 512) rest.length
  · exact h.last_init (by omega) hk'
  · have hr : rest.length < 496 := by rw [hoff] at hk'; unfold blocksFilled at hk'; omega
    have hbf := h.bufFree_eq; have hlsn' := h.lsn_eq
    rw [show blocksFilled (s₁.bufFree % 512) rest.length = 0 by omega] at hbf hlsn'
    have hb : s'.bufFree - s'.bufFree % 512 = s.bufFree - s.bufFree % 512 + 512 := by omega
    have hl : s₁.lsn / osFileLogBlockSize = (s'.lsn - s'.lsn % 512) / osFileLogBlockSize := by
      simp only [osFileLogBlockSize]; omega
    rw [hb, logBlockGetHdrNo_congr fun j hj => h.before _ (by omega) (by omega) (fun h' => hk' h'.1),
      logBlockGetFirstRecGroup_congr fun j hj => h.before _ (by omega) (by omega) (fun h' => hk' h'.1),
      hpass.next.2.1, hpass.next.2.2, logBlockConvertLsnToNo, logBlockConvertLsnToNo, hl]
    exact ⟨rfl, rfl⟩

theorem before_eq {p : ℕ} (hlt : p < s.bufFree)
    (hd : ¬(s.bufFree - s.bufFree % 512 + 4 ≤ p ∧ p < s.bufFree - s.bufFree % 512 + 6))
    (hc : ¬(s.bufFree - s.bufFree % 512 + 8 ≤ p ∧ p < s.bufFree - s.bufFree % 512 + 12)) :
    s'.buf p = s.buf p := by
  rw [hpass.buf_of_lt hp h (by omega), hpass.keep p (.inl hlt) hd hc]

theorem above_eq {p : ℕ} (hle : s'.bufFree ≤ p) : s'.buf p = s.buf p := by
  have := h.bufFree_eq; have := hpass.bufFree_eq; obtain ⟨h12, h508⟩ := hp.arith
  rw [h.above p hle, hpass.keep p (.inr (by omega)) (by omega) (by omega)]

/-- A filled pass followed by the rest of the call is the whole call. -/
theorem writeLowSpec : WriteLowSpec s str s' := by
  have hk := hpass.blocksFilled_eq hp
  have hlen := hpass.rest_length
  have := hpass.full; have := hp.arith.2
  have := hpass.lsn_eq; have := hpass.bufFree_eq; have := h.lsn_eq; have := h.bufFree_eq
  refine ⟨by rw [hpass.frame] at h; exact h.frame, by omega, by omega, fun i hi => hpass.payload_eq hp h hi,
    fun q hq => hpass.filled_eq hp h hq, h.last_dataLen, fun hmod _ => hpass.init_eq hp h hmod,
    fun p hlt hd hc => hpass.before_eq hp h hlt hd (fun h' => hc ⟨by omega, h'⟩),
    fun p hle => hpass.above_eq hp h hle⟩

end FilledPass

/-- The `part_loop` of `log_write_low`, with more passes of fuel than the string has bytes. -/
theorem writeLowSpec_logWriteLowLoop (fuel : ℕ) (hp : WriteLowPre s) (hlen : str.length < fuel) :
    WriteLowSpec s str (logWriteLowLoop fuel s str) := by
  induction fuel generalizing s str with
  | zero => exact absurd hlen (Nat.not_lt_zero _)
  | succ fuel ih =>
    rw [logWriteLowLoop]
    by_cases hf : PartFull s str
    · have hpass := filledPass_logWriteLowPart hp hf
      have hp₁ := hpass.writeLowPre hp
      refine hpass.writeLowSpec hp ?_
      split
      · next hr =>
        rw [hr]
        refine writeLowSpec_nil hp₁ ?_
        obtain ⟨h12, h508⟩ := hp.arith
        have := hpass.bufFree_eq
        rw [show (logWriteLowPart s str).1.bufFree - (logWriteLowPart s str).1.bufFree % 512 =
          s.bufFree - s.bufFree % 512 + 512 by omega, hpass.next.1]
        omega
      · have := hpass.full
        obtain ⟨-, h508⟩ := hp.arith
        exact ih hp₁ (by rw [hpass.rest_eq, List.length_drop]; omega)
    · obtain ⟨hspec, hr⟩ := writeLowSpec_of_not_full hp hf
      rw [if_pos hr]
      exact hspec

/-- **`log_write_low` appends with exact block accounting.** From a state whose `buf_free` lies
in the payload of its block, at the same in-block offset as `lsn`, `log_write_low(str)` puts the
bytes of `str` in order at the payload offsets from `buf_free` on, moves `lsn` and `buf_free` by
`|str|` and 16 bytes for every block it fills, stamps every filled block full with the checkpoint
number, stamps the block it ends in with its data length, under a fresh header when it crossed a
block, and changes no byte before the old `buf_free` but the data length of that block and, when
it fills it, its checkpoint number. -/
theorem logWriteLow_accounting (s : LogSys) (str : List UInt8) (hp : WriteLowPre s) :
    WriteLowSpec s str (logWriteLow s str) :=
  writeLowSpec_logWriteLowLoop _ hp (Nat.lt_succ_self _)

theorem logWriteLow_accounting_init :
    WriteLowPre (defaultLogInit .fsync) ∧
      WriteLowSpec (defaultLogInit .fsync) [7] (logWriteLow (defaultLogInit .fsync) [7]) :=
  ⟨⟨by decide, by decide⟩, logWriteLow_accounting _ _ ⟨by decide, by decide⟩⟩

/-- The data length of the block `buf_free` is in lies before `buf_free`, and a call changes it:
one byte appended after `log_init` moves it from 12 to 13. -/
theorem logWriteLow_changes_dataLen :
    ∃ s str p, WriteLowPre s ∧ p < s.bufFree ∧ (logWriteLow s str).buf p ≠ s.buf p :=
  ⟨defaultLogInit .fsync, [7], 5, ⟨by decide, by decide⟩, by decide, by decide⟩

end Call

/-! ### A reservation covers its appends -/

/-- A sequence of `log_write_low` calls ends with `buf_free` in a block's payload, as far on as
the bytes of all the strings and the blocks they fill, and changes no byte from there on. -/
theorem foldl_logWriteLow_bufFree (strs : List (List UInt8)) {s : LogSys} (hp : WriteLowPre s) :
    WriteLowPre (strs.foldl logWriteLow s) ∧ (strs.foldl logWriteLow s).bufSize = s.bufSize ∧
      (strs.foldl logWriteLow s).bufFree = s.bufFree + (strs.map List.length).sum +
        16 * blocksFilled (s.bufFree % 512) (strs.map List.length).sum ∧
      ∀ p, (strs.foldl logWriteLow s).bufFree ≤ p → (strs.foldl logWriteLow s).buf p = s.buf p := by
  obtain ⟨h12, h508⟩ := hp.arith
  induction strs generalizing s with
  | nil =>
    refine ⟨hp, rfl, ?_, fun _ _ => rfl⟩
    simp only [List.foldl_nil, List.map_nil, List.sum_nil, blocksFilled]
    omega
  | cons str strs ih =>
    have h : WriteLowSpec s str (logWriteLow s str) :=
      writeLowSpec_logWriteLowLoop _ hp (Nat.lt_succ_self _)
    have hbf := h.bufFree_eq
    have hp₁ : WriteLowPre (logWriteLow s str) := by
      constructor <;> simp only [osFileLogBlockSize, logBlockHdrSize, logBlockTrlSize] <;>
        rw [hbf] <;> unfold blocksFilled <;> omega
    obtain ⟨h12', h508'⟩ := hp₁.arith
    obtain ⟨hp', hsize, hbf', habove⟩ := ih hp₁ h12' h508'
    simp only [List.foldl_cons, List.map_cons, List.sum_cons]
    refine ⟨hp', hsize.trans (by rw [h.frame]), ?_, fun p hp => ?_⟩
    · rw [hbf', hbf]
      unfold blocksFilled
      omega
    · rw [habove p hp, h.above p (by omega)]

/-- The headers and trailers of the blocks `n` payload bytes fill take at most a quarter of `n`,
and one block's sixteen bytes more: what the 5/4 of `log_reserve_and_open` pays for. -/
theorem blocksFilled_le {off : ℕ} (h : off < 508) (n : ℕ) : 16 * blocksFilled off n ≤ n / 4 + 16 := by
  unfold blocksFilled; omega

/-- **A reservation covers the appends that follow it.** If `log_reserve_and_open(len)` found
room in `s` (`buf_free + LOG_BUF_WRITE_MARGIN + srv_log_write_ahead_size + 5 * len / 4 ≤
buf_size`) with `buf_free` in the payload of its block, then any sequence of `log_write_low`
calls of `len` bytes in all changes no byte of the buffer at or beyond `buf_size`, and leaves
`buf_free`, rounded up to its block, a write-ahead size below `buf_size`. The 5/4 and the margin
pay for the 16 bytes of header and trailer every 496 payload bytes, for every `len` and every
starting offset. -/
theorem logWriteLow_reserved (cfg : Config) (s : LogSys) (len : ℕ) (hp : WriteLowPre s)
    (hr : s.bufFree + lenUpperLimit cfg len ≤ s.bufSize) (strs : List (List UInt8))
    (hlen : (strs.map List.length).sum ≤ len) :
    (∀ p, s.bufSize ≤ p → (strs.foldl logWriteLow s).buf p = s.buf p) ∧
      utCalcAlign (strs.foldl logWriteLow s).bufFree osFileLogBlockSize + cfg.srvLogWriteAheadSize ≤
        (strs.foldl logWriteLow s).bufSize := by
  obtain ⟨hp', hsize, hbf, habove⟩ := foldl_logWriteLow_bufFree strs hp
  have hk := blocksFilled_le hp.arith.2 (strs.map List.length).sum
  have hend : (strs.foldl logWriteLow s).bufFree + cfg.srvLogWriteAheadSize + 3 * 512 ≤ s.bufSize := by
    unfold lenUpperLimit logBufWriteMargin at hr; simp only [osFileLogBlockSize] at hr; omega
  rw [utCalcAlign_eq_of_pos (by decide) (by have := hp'.arith.1; simp only [osFileLogBlockSize]; omega),
    hsize]
  exact ⟨fun p hp => habove p (by omega), by simp only [osFileLogBlockSize]; omega⟩

theorem logWriteLow_reserved_init :
    WriteLowPre (defaultLogInit .fsync) ∧
      (defaultLogInit .fsync).bufFree + lenUpperLimit (defaultConfig .fsync) 1 ≤
        (defaultLogInit .fsync).bufSize ∧ ([[7]].map List.length).sum ≤ 1 ∧
      ((∀ p, (defaultLogInit .fsync).bufSize ≤ p →
        ([[7]].foldl logWriteLow (defaultLogInit .fsync)).buf p = (defaultLogInit .fsync).buf p) ∧
      utCalcAlign ([[7]].foldl logWriteLow (defaultLogInit .fsync)).bufFree osFileLogBlockSize +
          (defaultConfig .fsync).srvLogWriteAheadSize ≤
        ([[7]].foldl logWriteLow (defaultLogInit .fsync)).bufSize) :=
  ⟨⟨by decide, by decide⟩, by decide, by decide,
    logWriteLow_reserved _ _ 1 ⟨by decide, by decide⟩ (by decide) [[7]] (by decide)⟩

end RedoLog

import RedoLog.RecGroup
import RedoLog.Growth

/-!
# Block numbers and the assertions of `log_group_write_buf`

Every block carries in its header the number `log_block_convert_lsn_to_no` gives its LSN,
`1 + (lsn / 512) mod 2^31`; `log_block_get_hdr_no` reads it back without the flush bit, that is
modulo `2^31`. `log_group_write_buf` checks the numbers of the blocks it is given, in debug
builds (lines 1190–1192 and 1198–1202): in every pass of its loop, unless the rest of the call is
padding, the first block of the pass is numbered as the pass's `start_lsn`, and block `i` of the
pass, before the padding, is numbered `i` after the first.

This module proves that the buffer holds the right numbers in every reachable state, and from
that the exact condition under which the assertions hold on a call `log_write_up_to` makes: its
blocks before the padding have numbers below `2^31`. Across the wrap they fail, since they add `i`
without reducing modulo the period, and the block numbered `2^31`, which `log_block_get_hdr_no`
reads as `0`, breaks them; a run of one-byte mini-transactions (`RedoLog.Growth`) reaches such a
call.

## Main definitions

* `BufHdrNos` — the buffer's blocks, up to the block of `buf_free`, carry the numbers of their
  LSNs.
* `logGroupWriteBufAsserts` — the assertions of `log_group_write_buf`, over every pass of its
  loop; `logWriteUpToAsserts` — those of the call `log_write_up_to` makes.
* `WriteCall` — a call of `log_group_write_buf` that `log_write_up_to` makes in a world.
* `writeBlocks` — the number of blocks of that call before the padding.

## Main results

* `bufHdrNos_of_reachable` — the block numbers of the buffer in every reachable state.
* `logGroupWriteBufAsserts_of_hdrNo`, `logGroupWriteBufAsserts_of_hdrNo_eq_zero` — the checks
  hold on consecutive numbers, and fail on a block that reads `0`.
* `logWriteUpTo_hdrNo_asserts` — in every reachable world, a call passes the checks if and only
  if its blocks have numbers below the wrap, and then its blocks are numbered consecutively.
* `logWriteUpTo_hdrNo_wraps` — a reachable call that writes across the wrap, and fails them.

## Implementation notes

`log_block_convert_lsn_to_no` is defined in `log0log.ic`, which the sources here do not include;
`logBlockConvertLsnToNo` is modelled from the spec (§4.1).
-/

namespace RedoLog

/-! ### The numbers in the buffer -/

/-- The block numbers of the buffer: every block from offset `0`, which stands for LSN
`lsn - buf_free`, to the block of `buf_free` holds, flush bit aside, the number of its LSN. -/
def BufHdrNos (s : LogSys) : Prop :=
  ∀ o, o % osFileLogBlockSize = 0 → o ≤ s.bufFree →
    logBlockGetHdrNo s.buf o = logBlockConvertLsnToNo (s.lsn - s.bufFree + o) % logBlockFlushBitMask

section Part

variable {s : LogSys} {str : List UInt8} (hc : BufferCore s)
include hc

/-- A pass of `log_write_low` changes no block number but that of the next block, which it
numbers when it fills its own. -/
theorem logWriteLowPart_hdrNo {o : ℕ} (ho : o % osFileLogBlockSize = 0) :
    logBlockGetHdrNo (logWriteLowPart s str).1.buf o =
      if PartFull s str ∧ o = utCalcAlignDown s.bufFree osFileLogBlockSize + osFileLogBlockSize then
        logBlockConvertLsnToNo (logWriteLowPart s str).1.lsn % logBlockFlushBitMask
      else logBlockGetHdrNo s.buf o := by
  have hB : utCalcAlignDown s.bufFree osFileLogBlockSize = s.bufFree - s.bufFree % 512 :=
    utCalcAlignDown_eq _ _
  have hk : (str.take (partLen s str)).length = partLen s str := length_take_partLen
  have hlen : s.bufFree % 512 + partLen s str ≤ 508 := by
    have := hc.lt_trl; unfold partLen; simp only [osFileLogBlockSize, logBlockTrlSize] at *; omega
  have hh : 12 ≤ s.bufFree % 512 := hc.hdr_le
  have ho' : o % 512 = 0 := ho
  have h512 : osFileLogBlockSize = 512 := rfl
  -- the part lies in the payload of the block of `buf_free`, away from every block number
  have hw : ∀ j < 4, Mem.write s.buf s.bufFree (str.take (partLen s str)) (o + j) = s.buf (o + j) :=
    fun j hj => Mem.write_of_not_mem (by rw [hk]; omega)
  rw [logWriteLowPart_eq s str hc.lt_trl]
  dsimp only
  by_cases hf : PartFull s str
  · simp only [hf, true_and, if_true]
    split_ifs with h
    · rw [h]; exact logBlockGetHdrNo_logBlockInit _ _ _
    · rw [hB] at h
      refine logBlockGetHdrNo_congr fun j hj => ?_
      rw [logBlockInit_of_not_mem _ (by omega), logBlockSetCheckpointNo_of_not_mem _ (by omega),
        logBlockSetDataLen_of_not_mem _ (by omega), logBlockSetDataLen_of_not_mem _ (by omega), hw j hj]
  · simp only [hf, false_and, if_false]
    exact logBlockGetHdrNo_congr fun j hj => by
      rw [logBlockSetDataLen_of_not_mem _ (by omega), hw j hj]

end Part

section Append

/-- A pass that fills its block moves `lsn` to the payload of the next block. -/
theorem logWriteLowPart_lsn_of_full {s : LogSys} {str : List UInt8} (hc : BufferCore s)
    (hf : PartFull s str) :
    (logWriteLowPart s str).1.lsn = s.lsn - s.bufFree +
      (utCalcAlignDown s.bufFree osFileLogBlockSize + osFileLogBlockSize) + logBlockHdrSize := by
  have hF : (logWriteLowPart s str).1.bufFree = s.bufFree + _ := logWriteLowPart_bufFree hc
  have hfull : s.bufFree % 512 + partLen s str = 508 := partLen_of_full hc hf
  have h := appendStep_logWriteLowPart hc str
  have := h.lsn_eq; have := h.free_le; have := hc.free_le_lsn
  simp only [if_pos hf, logBlockHdrSize, logBlockTrlSize] at hF
  rw [utCalcAlignDown_eq]; simp only [osFileLogBlockSize, logBlockHdrSize]; omega

/-- A pass of `log_write_low` keeps the numbers: the block it starts is numbered as its LSN. -/
theorem BufHdrNos.logWriteLowPart {s : LogSys} (hc : BufferCore s) (h : BufHdrNos s)
    (str : List UInt8) : BufHdrNos (logWriteLowPart s str).1 := by
  intro o ho hle
  rw [logWriteLowPart_hdrNo hc ho, logWriteLowPart_base hc]
  split_ifs with hnew
  · -- the fresh header of the next block: its LSN is `12` bytes into the block
    obtain ⟨hf, rfl⟩ := hnew
    rw [logWriteLowPart_lsn_of_full hc hf, logBlockConvertLsnToNo_add_of_lt ?_ (by decide)]
    rw [Nat.add_mod, hc.base_mod, Nat.add_mod_right, utCalcAlignDown_mod, Nat.add_zero, Nat.zero_mod]
  · -- a block the buffer held before the pass
    exact h o ho ((logWriteLowPart_block_cases hc ho hle).resolve_left hnew)

theorem BufHdrNos.logWriteLowLoop (fuel : ℕ) {s : LogSys} (hc : BufferCore s) (h : BufHdrNos s)
    (str : List UInt8) : BufHdrNos (logWriteLowLoop fuel s str) := by
  induction fuel generalizing s str with
  | zero => exact h
  | succ fuel ih =>
    have hp := appendStep_logWriteLowPart hc str
    rw [RedoLog.logWriteLowLoop]
    split
    · exact h.logWriteLowPart hc str
    · exact ih hp.core (h.logWriteLowPart hc str) _

theorem BufHdrNos.foldl_logWriteLow (strs : List (List UInt8)) {s : LogSys} (hc : BufferCore s)
    (h : BufHdrNos s) : BufHdrNos (strs.foldl logWriteLow s) := by
  induction strs generalizing s with
  | nil => exact h
  | cons str strs ih =>
    exact ih (appendStep_logWriteLowLoop _ hc str).core (h.logWriteLowLoop _ hc str)

/-- `log_close` stamps `first_rec_group` only. -/
theorem BufHdrNos.logClose {s : LogSys} (h : BufHdrNos s) (bufPoolOldest : ℕ) :
    BufHdrNos (logClose s bufPoolOldest).1 := by
  have hb : utCalcAlignDown s.bufFree osFileLogBlockSize % 512 = 0 := utCalcAlignDown_mod _ _
  intro o ho hle
  have ho' : o % 512 = 0 := ho
  unfold RedoLog.logClose at hle ⊢
  dsimp only at hle ⊢
  rw [← h o ho hle]
  split_ifs
  · exact logBlockGetHdrNo_congr fun j hj => logBlockSetFirstRecGroup_of_not_mem _ (by omega)
  · rfl

/-- **A mini-transaction keeps the block numbers of the buffer.** -/
theorem BufHdrNos.mtrWrite {s : LogSys} (hc : BufferCore s) (h : BufHdrNos s)
    (strs : List (List UInt8)) (bufPoolOldest : ℕ) : BufHdrNos (mtrWrite s strs bufPoolOldest) :=
  (h.foldl_logWriteLow strs hc).logClose bufPoolOldest

end Append

/-! ### The write and the reallocation -/

section Move

variable {s s' : LogSys}

/-- The write sends every block up to the block of `buf_free` with its number: it sets the flush
bit of the first, which `log_block_get_hdr_no` masks, and stamps and pads elsewhere. -/
theorem logBlockGetHdrNo_writeSource {cfg : Config} (hc : BufferCore s) {o : ℕ}
    (ho : o % osFileLogBlockSize = 0) (hlt : o < utCalcAlign s.bufFree osFileLogBlockSize) :
    logBlockGetHdrNo (writeSource cfg s) o = logBlockGetHdrNo s.buf o := by
  have hend : utCalcAlign s.bufFree osFileLogBlockSize = s.bufFree - s.bufFree % 512 + 512 :=
    utCalcAlign_bufFree hc
  have hN : utCalcAlignDown s.bufNextToWrite osFileLogBlockSize % 512 = 0 := utCalcAlignDown_mod _ _
  have ho' : o % 512 = 0 := ho
  have h512 : osFileLogBlockSize = 512 := rfl
  calc logBlockGetHdrNo (writeSource cfg s) o
      = logBlockGetHdrNo (logBlockSetFlushBit s.buf
          (utCalcAlignDown s.bufNextToWrite osFileLogBlockSize) true) o :=
        logBlockGetHdrNo_congr fun j hj => by
          rw [writeSource, Mem.fill, Mem.write_of_lt _ (by omega),
            logBlockSetCheckpointNo_of_not_mem _ (by omega)]
    _ = logBlockGetHdrNo s.buf o := by
        by_cases hs : o = utCalcAlignDown s.bufNextToWrite osFileLogBlockSize
        · rw [hs]; exact logBlockGetHdrNo_logBlockSetFlushBit _ _ _
        · exact logBlockGetHdrNo_congr fun j hj => logBlockSetFlushBit_of_not_mem _ (by omega)

/-- The checksums of the write land in trailers: its buffer keeps the numbers. -/
theorem logBlockGetHdrNo_writeResult {cfg : Config} (hc : BufferCore s) {o : ℕ}
    (ho : o % osFileLogBlockSize = 0) (hlt : o < utCalcAlign s.bufFree osFileLogBlockSize) :
    logBlockGetHdrNo (writeResult cfg s).2 o = logBlockGetHdrNo s.buf o := by
  have ho' : o % 512 = 0 := ho
  rw [← logBlockGetHdrNo_writeSource hc ho hlt]
  exact logBlockGetHdrNo_congr fun j hj => sameBesideChecksums_logGroupWriteBuf hc.anchor
    (utCalcAlignDown_mod _ _) (utCalcAlignDown_mod _ _) _
    (by simp only [osFileLogBlockSize, logBlockChecksum]; omega)

/-- **The numbers survive a move of the buffer** by `d` bytes down, `d` a whole number of blocks,
that moves each block's number with it. -/
theorem BufHdrNos.move (hc : BufferCore s) (h : BufHdrNos s) {d : ℕ}
    (hd : d % osFileLogBlockSize = 0) (hdle : d ≤ s.bufFree) (hlsn : s'.lsn = s.lsn)
    (hfree : s'.bufFree = s.bufFree - d)
    (hbuf : ∀ o, o % osFileLogBlockSize = 0 → o ≤ s'.bufFree →
      logBlockGetHdrNo s'.buf o = logBlockGetHdrNo s.buf (d + o)) :
    BufHdrNos s' := by
  have hfl := hc.free_le_lsn
  intro o ho hle
  have ho' : o % 512 = 0 := ho
  have hd' : d % 512 = 0 := hd
  rw [hbuf o ho hle, h (d + o) (by simp only [osFileLogBlockSize]; omega) (by omega), hlsn, hfree,
    show s.lsn - s.bufFree + (d + o) = s.lsn - (s.bufFree - d) + o by omega]

/-- The write keeps the numbers: its stamps leave them, and its compaction moves the block of
`lsn` to the start. -/
theorem BufHdrNos.logWriteUpToWrite {cfg : Config} (hc : BufferCore s) (h : BufHdrNos s) :
    BufHdrNos (logWriteUpToWrite cfg s) := by
  have hB : utCalcAlignDown s.bufFree osFileLogBlockSize = s.bufFree - s.bufFree % 512 :=
    utCalcAlignDown_eq _ _
  have hend : utCalcAlign s.bufFree osFileLogBlockSize = s.bufFree - s.bufFree % 512 + 512 :=
    utCalcAlign_bufFree hc
  rw [RedoLog.logWriteUpToWrite_eq]
  dsimp only
  by_cases hcomp : writeCompacts s
  · simp only [if_pos hcomp]
    refine h.move hc (utCalcAlignDown_mod _ _) (utCalcAlignDown_le _ _) rfl rfl fun o ho hle => ?_
    have ho' : o % 512 = 0 := ho
    dsimp only at hle ⊢
    obtain rfl : o = 0 := by rw [hB] at hle; omega
    rw [logBlockGetHdrNo_congr fun j hj => Mem.move_add (by rw [hend, hB]; omega), Nat.add_zero,
      logBlockGetHdrNo_writeResult hc (utCalcAlignDown_mod _ _) (by rw [hend, hB]; omega)]
  · simp only [if_neg hcomp]
    exact h.move hc (d := 0) rfl (Nat.zero_le _) rfl rfl fun o ho hle => by
      have ho' : o % 512 = 0 := ho
      dsimp only at hle
      rw [Nat.zero_add]
      exact logBlockGetHdrNo_writeResult hc ho (by omega)

/-- The reallocation of `log_buffer_extend` keeps the numbers: it copies the block of `lsn`, up to
`buf_free`, to the start of the new buffer. -/
theorem BufHdrNos.logBufferExtendMove {cfg : Config} (hc : BufferCore s) (h : BufHdrNos s)
    (len : ℕ) : BufHdrNos (logBufferExtendMove cfg s len) := by
  have hB : utCalcAlignDown s.bufFree osFileLogBlockSize = s.bufFree - s.bufFree % 512 :=
    utCalcAlignDown_eq _ _
  have hh : 12 ≤ s.bufFree % 512 := hc.hdr_le
  refine h.move hc (utCalcAlignDown_mod _ _) (utCalcAlignDown_le _ _) rfl rfl fun o ho hle => ?_
  have ho' : o % 512 = 0 := ho
  dsimp only [RedoLog.logBufferExtendMove] at hle ⊢
  obtain rfl : o = 0 := by rw [hB] at hle; omega
  rw [Nat.add_zero]
  exact logBlockGetHdrNo_congr fun j hj => Mem.write_read_add (by rw [hB]; omega)

end Move

/-! ### Over every run -/

section Runs

variable {cfg : Config}

/-- The invariant reads only `lsn`, the buffer and `buf_free`. -/
theorem BufHdrNos.of_eq {s s' : LogSys} (h : BufHdrNos s) (h1 : s'.lsn = s.lsn)
    (h2 : s'.buf = s.buf) (h3 : s'.bufFree = s.bufFree) : BufHdrNos s' := by
  unfold BufHdrNos; rw [h1, h2, h3]; exact h

theorem FrameStep.bufHdrNos {s s' : LogSys} {f f' : Frame} (hs : FrameStep cfg s f s' f')
    (hb : BufferInv s) (h : BufHdrNos s) : BufHdrNos s' := by
  cases hs with
  | appendWrite => exact h.mtrWrite hb.toBufferCore _ _
  | checkpointNames => exact h.mtrWrite hb.toBufferCore _ _
  | lockedWrite =>
    unfold logWriteUpToLocked
    split
    · exact BufHdrNos.logWriteUpToWrite
        (hb.of_eq rfl rfl rfl rfl rfl rfl rfl rfl : BufferInv (logWriteUpToClaim s)).toBufferCore
        (h.of_eq rfl rfl rfl : BufHdrNos (logWriteUpToClaim s))
    · exact h.logWriteUpToWrite hb.toBufferCore
  | extendMove =>
    have hb' : BufferInv { s with isExtending := true } := hb.of_eq rfl rfl rfl rfl rfl rfl rfl rfl
    exact (h.of_eq rfl rfl rfl : BufHdrNos { s with isExtending := true }).logBufferExtendMove
      hb'.toBufferCore _
  | checkpointIssue => rw [logWriteCheckpointInfo_eq]; exact h.of_eq rfl rfl rfl
  | fsync | assign | decrement | setEvent | extendWait | marginCheck | marginRetry =>
    exact h.of_eq rfl rfl rfl
  | _ => exact h

theorem Step.bufHdrNos {w w' : World} (hs : Step cfg w w') (hb : BufferInv w.log)
    (h : BufHdrNos w.log) : BufHdrNos w'.log := by
  cases hs with
  | call => exact h
  | run _ hf => exact hf.bufHdrNos hb h
  | land => exact h.of_eq rfl rfl rfl
  | complete => rw [logIoCompleteCheckpoint_eq]; exact h.of_eq rfl rfl rfl

/-- `log_init` numbers the first block, the only one of the buffer. -/
theorem bufHdrNos_of_isInitial {s : LogSys} (hi : IsInitial cfg s) : BufHdrNos s := by
  obtain ⟨_, _, _, _, _, _, _, hs⟩ := hi
  obtain ⟨-, -, -, -, -, -, -, rfl⟩ := logCalcMaxAges_eq_some hs
  intro o ho hle
  simp only [logInit, logBlockHdrSize, osFileLogBlockSize] at ho hle ⊢
  obtain rfl : o = 0 := by omega
  decide

/-- **The buffer's blocks carry the numbers of their LSNs in every reachable state.** -/
theorem bufHdrNos_of_reachable {w : World} (h : Reachable cfg w) : BufHdrNos w.log := by
  induction h with
  | init hi => exact bufHdrNos_of_isInitial hi.1
  | step hr hs ih => exact hs.bufHdrNos hr.bufferInv ih

end Runs

/-! ### The assertions of `log_group_write_buf` -/

/-- The debug checks of `log_group_write_buf(group, buf + off, len, pad_len, start_lsn, _)`
(lines 1190–1192 and 1198–1202) over every pass of its loop, `true` when all hold: unless the rest
of the call is padding, the first block of a pass is numbered as the pass's `start_lsn`, and block
`i` of the pass, before the padding, is numbered `i` after the first, read on the buffer whose
first `i` blocks already hold their checksums. `pad_len` stays while `len` shrinks. -/
def logGroupWriteBufAsserts (alg : List UInt8 → ℕ) (g : LogGroup) (buf : Mem)
    (off len padLen startLsn : ℕ) : Bool :=
  if _hlen : len = 0 then true else
    let writeLen := chunkLen g (logGroupCalcLsnOffset g startLsn) len
    (decide (len ≤ padLen) || logBlockGetHdrNo buf off == logBlockConvertLsnToNo startLsn) &&
      (List.range (writeLen / osFileLogBlockSize)).all (fun i =>
        decide (len ≤ padLen) || decide (len - padLen ≤ i * osFileLogBlockSize) ||
          logBlockGetHdrNo (storeChecksums alg buf off i) (off + i * osFileLogBlockSize) ==
            logBlockGetHdrNo (storeChecksums alg buf off i) off + i) &&
      if writeLen < len then
        logGroupWriteBufAsserts alg g (storeChecksums alg buf off (writeLen / osFileLogBlockSize))
          (off + writeLen) (len - writeLen) padLen (startLsn + writeLen)
      else true
termination_by len
decreasing_by
  have := chunkLen_pos g (logGroupCalcLsnOffset g startLsn) (Nat.pos_of_ne_zero _hlen); omega

section Asserts

variable {alg : List UInt8 → ℕ} {g : LogGroup} {padLen : ℕ}

theorem logGroupWriteBufAsserts_eq_true_iff {buf : Mem} {off len start : ℕ} (hlen : len ≠ 0) :
    logGroupWriteBufAsserts alg g buf off len padLen start = true ↔
      (padLen < len → logBlockGetHdrNo buf off = logBlockConvertLsnToNo start) ∧
      (∀ i < chunkLen g (logGroupCalcLsnOffset g start) len / osFileLogBlockSize,
        i * osFileLogBlockSize + padLen < len →
        logBlockGetHdrNo (storeChecksums alg buf off i) (off + i * osFileLogBlockSize) =
          logBlockGetHdrNo (storeChecksums alg buf off i) off + i) ∧
      (chunkLen g (logGroupCalcLsnOffset g start) len < len →
        logGroupWriteBufAsserts alg g
          (storeChecksums alg buf off (chunkLen g (logGroupCalcLsnOffset g start) len / osFileLogBlockSize))
          (off + chunkLen g (logGroupCalcLsnOffset g start) len)
          (len - chunkLen g (logGroupCalcLsnOffset g start) len) padLen
          (start + chunkLen g (logGroupCalcLsnOffset g start) len) = true) := by
  rw [logGroupWriteBufAsserts, dif_neg hlen]
  simp only [Bool.and_eq_true, Bool.or_eq_true, decide_eq_true_eq, beq_iff_eq, List.all_eq_true,
    List.mem_range, and_assoc]
  refine and_congr ?_ (and_congr (forall₂_congr fun i _ => ?_) ?_)
  · rw [or_iff_not_imp_left, not_le]
  · rw [or_iff_not_imp_left]; exact imp_congr_left (by omega)
  · split_ifs with h <;> simp [h]
/-- A checksum lands in a trailer, away from every block number. -/
theorem SameBesideChecksums.hdrNo_eq {m m' : Mem} (h : SameBesideChecksums m m') {o : ℕ}
    (ho : o % osFileLogBlockSize = 0) : logBlockGetHdrNo m' o = logBlockGetHdrNo m o :=
  logBlockGetHdrNo_congr fun j hj => h _ (by
    have ho' : o % 512 = 0 := ho
    simp only [osFileLogBlockSize, logBlockChecksum]; omega)

/-- **The checks hold on blocks numbered consecutively**: when every block before the padding
holds the number of its LSN, and those numbers count up from that of `start_lsn`, every pass
passes both checks. -/
theorem logGroupWriteBufAsserts_of_hdrNo (ha : g.AnchorOk) {buf : Mem} {off len start : ℕ}
    (hoff : off % osFileLogBlockSize = 0) (hlen : len % osFileLogBlockSize = 0)
    (hstart : start % osFileLogBlockSize = 0)
    (hnum : ∀ i, i * osFileLogBlockSize + padLen < len →
      logBlockGetHdrNo buf (off + i * osFileLogBlockSize) =
        logBlockConvertLsnToNo (start + i * osFileLogBlockSize) ∧
      logBlockConvertLsnToNo (start + i * osFileLogBlockSize) = logBlockConvertLsnToNo start + i) :
    logGroupWriteBufAsserts alg g buf off len padLen start = true := by
  induction buf, off, len, padLen, start using logGroupWriteBufAsserts.induct alg g with
  | case1 => rw [logGroupWriteBufAsserts, dif_pos rfl]
  | case2 buf off len padLen start hlen0 wl ih =>
    have hwl : wl % osFileLogBlockSize = 0 := chunkLen_mod ha hlen hstart
    have hle : wl ≤ len := chunkLen_le _ _ _
    have hcs : ∀ n o, o % osFileLogBlockSize = 0 →
        logBlockGetHdrNo (storeChecksums alg buf off n) o = logBlockGetHdrNo buf o :=
      fun n _ ho => (sameBesideChecksums_storeChecksums hoff n).hdrNo_eq ho
    have h512 : osFileLogBlockSize = 512 := rfl
    rw [logGroupWriteBufAsserts_eq_true_iff hlen0, show chunkLen g (logGroupCalcLsnOffset g start) len = wl from rfl]
    clear_value wl
    have h0 : padLen < len → logBlockGetHdrNo buf off = logBlockConvertLsnToNo start := fun hp => by
      simpa using (hnum 0 (by simpa using hp)).1
    rw [h512] at hoff hlen hstart hwl hnum hcs ih ⊢
    refine ⟨h0, fun i hi hp => ?_, fun hlt => ih hlt (by rw [Nat.add_mod, hoff, hwl])
      (Nat.sub_mod_eq_zero_of_mod_eq (hlen.trans hwl.symm)) (by rw [Nat.add_mod, hstart, hwl])
      fun i hi => ?_⟩
    · rw [hcs i _ (by omega), hcs i _ hoff, (hnum i hp).1, (hnum i hp).2, h0 (by omega)]
    · obtain ⟨h1, h2⟩ := hnum (wl / 512 + i) (by omega)
      obtain ⟨-, h3⟩ := hnum (wl / 512) (by omega)
      rw [hcs _ _ (by omega), show off + wl + i * 512 = off + (wl / 512 + i) * 512 by omega,
        show start + wl + i * 512 = start + (wl / 512 + i) * 512 by omega, h1, h2,
        show start + wl = start + wl / 512 * 512 by omega, h3, Nat.add_assoc]
      exact ⟨rfl, rfl⟩

/-- **A block that reads `0` fails the checks.** No LSN is numbered `0`, and in a pass no block
after the first reads a number below the first's: a block before the padding that reads `0` fails
the first check of its pass, or the second. -/
theorem logGroupWriteBufAsserts_of_hdrNo_eq_zero (ha : g.AnchorOk) {buf : Mem} {off len start j : ℕ}
    (hoff : off % osFileLogBlockSize = 0) (hlen : len % osFileLogBlockSize = 0)
    (hstart : start % osFileLogBlockSize = 0) (hj : j * osFileLogBlockSize + padLen < len)
    (h0 : logBlockGetHdrNo buf (off + j * osFileLogBlockSize) = 0) :
    logGroupWriteBufAsserts alg g buf off len padLen start = false := by
  induction buf, off, len, padLen, start using logGroupWriteBufAsserts.induct alg g generalizing j with
  | case1 => omega
  | case2 buf off len padLen start hlen0 wl =>
    rename_i ih
    have hwl : wl % osFileLogBlockSize = 0 := chunkLen_mod ha hlen hstart
    have hle : wl ≤ len := chunkLen_le _ _ _
    have hcs : ∀ n o, o % osFileLogBlockSize = 0 →
        logBlockGetHdrNo (storeChecksums alg buf off n) o = logBlockGetHdrNo buf o :=
      fun n _ ho => (sameBesideChecksums_storeChecksums hoff n).hdrNo_eq ho
    have h512 : osFileLogBlockSize = 512 := rfl
    rw [← Bool.not_eq_true, logGroupWriteBufAsserts_eq_true_iff hlen0,
      show chunkLen g (logGroupCalcLsnOffset g start) len = wl from rfl]
    clear_value wl
    rw [h512] at hoff hlen hstart hwl hj h0 hcs ih ⊢
    rintro ⟨h1, h2, h3⟩
    by_cases hjk : j < wl / 512
    · rcases Nat.eq_zero_or_pos j with rfl | hpos
      · -- the first block of the pass: no LSN is numbered `0`
        have := h1 (by omega)
        rw [Nat.zero_mul, Nat.add_zero] at h0
        rw [h0, logBlockConvertLsnToNo] at this; omega
      · -- a later block of the pass reads below the first
        have := h2 j hjk hj
        rw [hcs j _ (by omega), hcs j _ hoff, h0] at this; omega
    · -- a block of a later pass
      have := ih (by omega) (j := j - wl / 512) (by rw [Nat.add_mod, hoff, hwl])
        (Nat.sub_mod_eq_zero_of_mod_eq (hlen.trans hwl.symm)) (by rw [Nat.add_mod, hstart, hwl])
        (by omega)
        (by rw [hcs _ _ (by omega), show off + wl + (j - wl / 512) * 512 = off + j * 512 by omega]
            exact h0)
      rw [this] at h3; exact absurd (h3 (by omega)) Bool.false_ne_true

end Asserts

/-! ### The calls of `log_write_up_to` -/

section Calls

variable {cfg : Config} {s : LogSys}

/-- The assertions of the call `log_write_up_to` makes: `log_group_write_buf` on the blocks from
`buf_next_to_write`'s to `buf_free`'s and the padding, with `pad_len = pad_size`, from the LSN of
the first block. -/
def logWriteUpToAsserts (cfg : Config) (s : LogSys) : Bool :=
  let areaStart := utCalcAlignDown s.bufNextToWrite osFileLogBlockSize
  let areaEnd := utCalcAlign s.bufFree osFileLogBlockSize
  logGroupWriteBufAsserts cfg.logChecksumAlgorithm s.group (writeSource cfg s) areaStart
    (writeLen cfg s) (logWritePadSize cfg s areaStart areaEnd)
    (utCalcAlignDown s.writeLsn osFileLogBlockSize)

/-- The number of blocks `log_write_up_to` writes before the padding,
`(area_end - area_start) / OS_FILE_LOG_BLOCK_SIZE`. -/
def writeBlocks (s : LogSys) : ℕ :=
  (utCalcAlign s.bufFree osFileLogBlockSize - utCalcAlignDown s.bufNextToWrite osFileLogBlockSize) /
    osFileLogBlockSize

/-- A call of `log_group_write_buf` by `log_write_up_to` in world `w`, on state `s`: a thread at
the check under the mutex that goes on to write, on the log after its claim of the flush when
`flush_to_disk`. -/
def WriteCall (w : World) (s : LogSys) : Prop :=
  ∃ t lsn flush l0 caller, w.threads t = .writeUpTo .locked lsn flush l0 caller ∧
    ¬lsn ≤ writeLimit w.log flush ∧ ¬(flush = true ∧ FlushPending w.log) ∧
    ¬(flush = false ∧ w.log.bufFree = w.log.bufNextToWrite) ∧
    s = if flush then logWriteUpToClaim w.log else w.log

/-- The claim of the flush changes none of what the invariants read. -/
theorem WriteCall.inv {w : World} (hr : Reachable cfg w) (hw : WriteCall w s) :
    BufferCore s ∧ BufHdrNos s ∧ SizeInv cfg s := by
  obtain ⟨-, -, flush, -, -, -, -, -, -, rfl⟩ := hw
  have hb := hr.bufferInv
  cases flush
  · exact ⟨hb.toBufferCore, bufHdrNos_of_reachable hr, sizeInv_of_reachable hr⟩
  · exact ⟨(hb.of_eq rfl rfl rfl rfl rfl rfl rfl rfl : BufferInv (logWriteUpToClaim w.log)).toBufferCore,
      (bufHdrNos_of_reachable hr).of_eq rfl rfl rfl, sizeInv_of_reachable hr⟩

theorem Config.block_dvd_univPageSize (cfg : Config) : osFileLogBlockSize ∣ cfg.univPageSize := by
  obtain ⟨k, hk, -, he⟩ := cfg.univPageSize_eq
  rw [he]; exact Nat.pow_dvd_pow 2 (by omega : 9 ≤ k)

theorem Config.block_dvd_srvLogWriteAheadSize (cfg : Config) :
    osFileLogBlockSize ∣ cfg.srvLogWriteAheadSize := by
  obtain ⟨k, hk, he, -⟩ := cfg.srvLogWriteAheadSize_eq
  rw [he]; exact Nat.pow_dvd_pow 2 hk

/-- The padding is whole blocks: it ends at the end of a write-ahead unit, or at the end of the
buffer, which is whole pages. -/
theorem logWritePadSize_mod (hc : BufferCore s) (hs : SizeInv cfg s) (areaStart : ℕ) :
    logWritePadSize cfg s areaStart (utCalcAlign s.bufFree osFileLogBlockSize) %
      osFileLogBlockSize = 0 := by
  have hW := cfg.block_dvd_srvLogWriteAheadSize
  have hE := utCalcAlign_mod s.bufFree osFileLogBlockSize
  have hO := logGroupCalcLsnOffset_mod_block hc.anchor (utCalcAlign s.lsn osFileLogBlockSize)
  rw [utCalcAlign_mod, ← Nat.mod_mod_of_dvd _ hW] at hO
  have hB : s.bufSize % osFileLogBlockSize = 0 := by
    rw [hs, Config.logBufferSize]
    exact Nat.mod_eq_zero_of_dvd (Dvd.dvd.mul_left cfg.block_dvd_univPageSize _)
  unfold logWritePadSize
  dsimp only
  split_ifs
  · exact Nat.sub_mod_eq_zero_of_mod_eq (hB.trans hE.symm)
  · exact Nat.sub_mod_eq_zero_of_mod_eq ((Nat.mod_eq_zero_of_dvd hW).trans hO.symm)
  · rfl
  · rfl

/-- The write is whole blocks, as `log_group_write_buf` requires. -/
theorem writeLen_mod (hc : BufferCore s) (hs : SizeInv cfg s) :
    writeLen cfg s % osFileLogBlockSize = 0 := by
  have := logWritePadSize_mod hc hs (utCalcAlignDown s.bufNextToWrite osFileLogBlockSize)
  have hE := utCalcAlign_mod s.bufFree osFileLogBlockSize
  have hA := utCalcAlignDown_mod s.bufNextToWrite osFileLogBlockSize
  unfold writeLen; dsimp only
  unfold osFileLogBlockSize at *; omega

/-- The write covers the blocks from that of `write_lsn` to that of `lsn`, which the buffer holds
from `buf_next_to_write`'s block to `buf_free`'s. -/
theorem writeBlocks_eq (hc : BufferCore s) :
    writeBlocks s = (utCalcAlign s.lsn osFileLogBlockSize -
      utCalcAlignDown s.writeLsn osFileLogBlockSize) / osFileLogBlockSize := by
  obtain ⟨b, hb, hl, hw⟩ := hc.exists_base
  rw [writeBlocks, hl, hw, utCalcAlign_add_of_mod _ hb (by decide), utCalcAlignDown_add_of_mod _ hb,
    Nat.add_sub_add_left]

/-- Block `i` of the call comes before the padding exactly when it is one of `writeBlocks s`. -/
theorem lt_writeBlocks_iff {i : ℕ} : i < writeBlocks s ↔
    i * osFileLogBlockSize + logWritePadSize cfg s (utCalcAlignDown s.bufNextToWrite osFileLogBlockSize)
      (utCalcAlign s.bufFree osFileLogBlockSize) < writeLen cfg s := by
  have hE := utCalcAlign_mod s.bufFree osFileLogBlockSize
  have hA := utCalcAlignDown_mod s.bufNextToWrite osFileLogBlockSize
  unfold writeBlocks writeLen; dsimp only
  unfold osFileLogBlockSize at *; omega

/-- The blocks of the call lie below the end of the block of `buf_free`. -/
theorem lt_utCalcAlign_of_lt_writeBlocks {i : ℕ} (hi : i < writeBlocks s) :
    utCalcAlignDown s.bufNextToWrite osFileLogBlockSize + i * osFileLogBlockSize <
      utCalcAlign s.bufFree osFileLogBlockSize := by
  have := (Nat.le_div_iff_mul_le (by decide : 0 < osFileLogBlockSize)).mp hi
  rw [Nat.succ_mul] at this
  have : 0 < osFileLogBlockSize := by decide
  omega

/-- A block boundary below the end of the block of `buf_free` is at most `buf_free`. -/
theorem le_bufFree_of_lt_utCalcAlign (hc : BufferCore s) {o : ℕ} (ho : o % osFileLogBlockSize = 0)
    (hlt : o < utCalcAlign s.bufFree osFileLogBlockSize) : o ≤ s.bufFree := by
  rw [utCalcAlign_bufFree hc] at hlt
  unfold osFileLogBlockSize at *; omega

/-- **The write sends block `i` with the number of its LSN**, `align_down(write_lsn) + 512 i`,
flush bit aside. -/
theorem logBlockGetHdrNo_writeSource_block (hc : BufferCore s) (hb : BufHdrNos s) {i : ℕ}
    (hi : i < writeBlocks s) :
    logBlockGetHdrNo (writeSource cfg s)
        (utCalcAlignDown s.bufNextToWrite osFileLogBlockSize + i * osFileLogBlockSize) =
      logBlockConvertLsnToNo (utCalcAlignDown s.writeLsn osFileLogBlockSize + i * osFileLogBlockSize) %
        logBlockFlushBitMask := by
  have hlt := lt_utCalcAlign_of_lt_writeBlocks hi
  have ho : (utCalcAlignDown s.bufNextToWrite osFileLogBlockSize + i * osFileLogBlockSize) %
      osFileLogBlockSize = 0 := by
    rw [Nat.add_mul_mod_self_right]; exact utCalcAlignDown_mod _ _
  obtain ⟨b, hbm, hl, hw⟩ := hc.exists_base
  rw [logBlockGetHdrNo_writeSource hc ho hlt, hb _ ho (le_bufFree_of_lt_utCalcAlign hc ho hlt), hl,
    Nat.add_sub_cancel, hw, utCalcAlignDown_add_of_mod _ hbm, Nat.add_assoc]

variable (cfg) in
/-- Below the wrap, block `i` of the write carries the number of its LSN, which is the number of
the first block plus `i`. -/
theorem logBlockGetHdrNo_writeSource_of_le (hc : BufferCore s) (hb : BufHdrNos s)
    (hwrap : logBlockConvertLsnToNo (utCalcAlignDown s.writeLsn osFileLogBlockSize) + writeBlocks s ≤
      logBlockFlushBitMask) {i : ℕ} (hi : i < writeBlocks s) :
    logBlockGetHdrNo (writeSource cfg s)
        (utCalcAlignDown s.bufNextToWrite osFileLogBlockSize + i * osFileLogBlockSize) =
      logBlockConvertLsnToNo (utCalcAlignDown s.writeLsn osFileLogBlockSize + i * osFileLogBlockSize) ∧
    logBlockConvertLsnToNo (utCalcAlignDown s.writeLsn osFileLogBlockSize + i * osFileLogBlockSize) =
      logBlockConvertLsnToNo (utCalcAlignDown s.writeLsn osFileLogBlockSize) + i := by
  rw [logBlockGetHdrNo_writeSource_block hc hb hi, logBlockConvertLsnToNo_add_mul (by omega),
    Nat.mod_eq_of_lt (by omega)]
  exact ⟨rfl, rfl⟩

/-- **Below the wrap every call passes the checks.** -/
theorem logWriteUpToAsserts_of_le {w : World} (hr : Reachable cfg w) (hw : WriteCall w s)
    (hwrap : logBlockConvertLsnToNo (utCalcAlignDown s.writeLsn osFileLogBlockSize) + writeBlocks s ≤
      logBlockFlushBitMask) :
    logWriteUpToAsserts cfg s = true := by
  obtain ⟨hc, hb, hs⟩ := hw.inv hr
  exact logGroupWriteBufAsserts_of_hdrNo hc.anchor (utCalcAlignDown_mod _ _) (writeLen_mod hc hs)
    (utCalcAlignDown_mod _ _) fun i hi =>
      logBlockGetHdrNo_writeSource_of_le cfg hc hb hwrap (lt_writeBlocks_iff.mpr hi)

/-- **Across the wrap every call fails the checks.** A call whose blocks before the padding reach
the block numbered `2^31`, which `log_block_get_hdr_no` reads as `0`, fails them. -/
theorem logWriteUpToAsserts_of_wrap {w : World} (hr : Reachable cfg w) (hw : WriteCall w s)
    (hwrap : logBlockFlushBitMask <
      logBlockConvertLsnToNo (utCalcAlignDown s.writeLsn osFileLogBlockSize) + writeBlocks s) :
    logWriteUpToAsserts cfg s = false := by
  obtain ⟨hc, hb, hs⟩ := hw.inv hr
  have hS := utCalcAlignDown_mod s.writeLsn osFileLogBlockSize
  simp only [logBlockConvertLsnToNo, logBlockFlushBitMask, osFileLogBlockSize, Nat.reducePow]
    at hS hwrap
  -- the block whose number is `2^31`
  have hj : 2147483647 - utCalcAlignDown s.writeLsn 512 / 512 % 2147483648 < writeBlocks s := by
    omega
  refine logGroupWriteBufAsserts_of_hdrNo_eq_zero hc.anchor (utCalcAlignDown_mod _ _) (writeLen_mod hc hs)
    (utCalcAlignDown_mod _ _) (lt_writeBlocks_iff.mp hj) ?_
  rw [logBlockGetHdrNo_writeSource_block hc hb hj]
  simp only [logBlockConvertLsnToNo, logBlockFlushBitMask, osFileLogBlockSize, Nat.reducePow]
  omega

/-- **The block-number checks hold exactly below the wrap.** In every reachable world, a call of
`log_group_write_buf` that `log_write_up_to` makes passes the assertions at lines 1190–1192 and
1198–1202 if and only if its blocks before the padding have numbers below `2^31`; and then block
`i` of it carries the number of its first block plus `i`. Across the wrap the block numbered
`2^31` reads `0` and the checks fail, since they add `i` without reducing modulo the period. -/
theorem logWriteUpTo_hdrNo_asserts {w : World} (hr : Reachable cfg w) (hw : WriteCall w s) :
    (logWriteUpToAsserts cfg s = true ↔
      logBlockConvertLsnToNo (utCalcAlignDown s.writeLsn osFileLogBlockSize) + writeBlocks s ≤
        logBlockFlushBitMask) ∧
    (logBlockConvertLsnToNo (utCalcAlignDown s.writeLsn osFileLogBlockSize) + writeBlocks s ≤
        logBlockFlushBitMask →
      ∀ i < writeBlocks s,
        logBlockGetHdrNo (writeSource cfg s)
            (utCalcAlignDown s.bufNextToWrite osFileLogBlockSize + i * osFileLogBlockSize) =
          logBlockGetHdrNo (writeSource cfg s) (utCalcAlignDown s.bufNextToWrite osFileLogBlockSize) +
            i) := by
  obtain ⟨hc, hb, -⟩ := hw.inv hr
  refine ⟨⟨fun h => Nat.not_lt.mp fun hn => ?_, logWriteUpToAsserts_of_le hr hw⟩, fun h i hi => ?_⟩
  · rw [logWriteUpToAsserts_of_wrap hr hw hn] at h; exact Bool.false_ne_true h
  · have h0 := logBlockGetHdrNo_writeSource_of_le cfg hc hb h (i := 0) (by omega)
    rw [Nat.zero_mul, Nat.add_zero, Nat.add_zero] at h0
    rw [(logBlockGetHdrNo_writeSource_of_le cfg hc hb h hi).1,
      (logBlockGetHdrNo_writeSource_of_le cfg hc hb h hi).2, h0.1]

/-- A run of the default deployment: thread `0` appends one byte and calls
`log_write_up_to(8205, false)`, which goes on to write the block at LSN `8192`. -/
theorem defaultWorld_hdrNo_asserts : ∃ (w : World) (s : LogSys),
    Reachable (defaultConfig .fsync) w ∧ WriteCall w s ∧
    (logWriteUpToAsserts (defaultConfig .fsync) s = true ↔
      logBlockConvertLsnToNo (utCalcAlignDown s.writeLsn osFileLogBlockSize) + writeBlocks s ≤
        logBlockFlushBitMask) ∧
    (logBlockConvertLsnToNo (utCalcAlignDown s.writeLsn osFileLogBlockSize) + writeBlocks s ≤
        logBlockFlushBitMask →
      ∀ i < writeBlocks s,
        logBlockGetHdrNo (writeSource (defaultConfig .fsync) s)
            (utCalcAlignDown s.bufNextToWrite osFileLogBlockSize + i * osFileLogBlockSize) =
          logBlockGetHdrNo (writeSource (defaultConfig .fsync) s)
            (utCalcAlignDown s.bufNextToWrite osFileLogBlockSize) + i) := by
  have r1 := (defaultWorld_reachable .fsync).step (.call 0 rfl (.append 1 [[7]]))
  have r2 := r1.step (.run 0 (.appendWrite 0 (by decide) (by decide)))
  have r3 := r2.step (.call 0 rfl (.writeUpTo 8205 false))
  have r4 := r3.step (.run 0 (.dirtyLock (by decide)))
  obtain ⟨w, hr, hw⟩ : ∃ w, Reachable (defaultConfig .fsync) w ∧ WriteCall w w.log :=
    ⟨_, r4, 0, 8205, false, _, .client, rfl, by decide, by decide, by decide, rfl⟩
  exact ⟨w, w.log, hr, hw, logWriteUpTo_hdrNo_asserts hr hw⟩

/-- **A reachable call across the wrap.** In the default deployment, thread `0` appends one byte
and writes it, round after round, until the LSN stands at the last payload byte of block
`2^31 - 2`, all of it written. One more byte takes the LSN into block `2^31 - 1`, whose number
`2^31` reads `0`. The call of `log_write_up_to` that writes it sends both blocks, and the checks
fail. -/
theorem logWriteUpTo_hdrNo_wraps : ∃ (w : World) (s : LogSys),
    Reachable (defaultConfig .fsync) w ∧ WriteCall w s ∧
      s.writeLsn = 512 * (2 ^ 31 - 2) + 507 ∧ s.lsn = 512 * (2 ^ 31 - 1) + 12 ∧
      logWriteUpToAsserts (defaultConfig .fsync) s = false := by
  have hq : Quiet (defaultConfig .fsync) (defaultWorld .fsync) :=
    ⟨defaultWorld_reachable _, fun _ => rfl, by decide, by decide, by decide⟩
  have h₀ : (defaultWorld .fsync).log.lsn = 8204 := by decide
  have hx : (2 : ℕ) ^ 31 = 2147483648 := by norm_num
  -- rounds up to the last payload byte of block `2^31 - 2`
  obtain ⟨w₁, hq₁, hl₁⟩ := hq.blocks (by rw [h₀]) 2147483630
  obtain ⟨w₂, hq₂, hl₂, hw₂⟩ := hq₁.cycles 495 (by rw [hl₁, h₀])
  -- one more byte, and the call that writes it
  obtain ⟨w₃, r₃, hth, hf, hl₃, hlw, hfree⟩ := hq₂.locked
  have hw : WriteCall w₃ w₃.log := ⟨0, _, false, _, .client, by rw [hth, Function.update_same], hlw,
    (fun h => nomatch h.1), (fun h => hfree h.2), rfl⟩
  have hwl : w₃.log.writeLsn = 512 * (2 ^ 31 - 2) + 507 := by
    rw [show w₃.log.writeLsn = w₂.log.writeLsn by rw [hf], hw₂ (by decide), hl₂, hl₁, h₀, hx]
  have hl : w₃.log.lsn = 512 * (2 ^ 31 - 1) + 12 := by
    rw [hl₃, hl₂, hl₁, h₀, hx]; decide
  refine ⟨w₃, w₃.log, r₃, hw, hwl, hl, logWriteUpToAsserts_of_wrap r₃ hw ?_⟩
  rw [writeBlocks_eq r₃.bufferInv.toBufferCore, hwl, hl]
  decide

end Calls

end RedoLog

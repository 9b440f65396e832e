import RedoLog.BlockNo

/-!
# The blocks as recovery reads them

`log_block_store_checksum` stores in each block's trailer, before the block is written, the
checksum "used in recovery to check the consistency of a log block"; recovery also checks the
number in the block's header, and reads `data_len` to find where the log ends in the last block.
This module proves that every block of the files that a write carried, and that no later write
wrapped onto, passes those checks, in every reachable state: its checksum is the one the
configured algorithm computes from its bytes, its header holds the number of its LSN, and its
`data_len` is `512`, or the offset of `write_lsn` in the block of `write_lsn`.

The fields come from three places. `log_write_low` stamps `data_len` in the buffer: `512` for a
block it fills, the offset of `buf_free` for the block it is filling. `log_block_init` stamps the
number of each new block. `log_group_write_buf` stores the checksums just before it writes. The
buffer's `data_len` invariant, `BufDataLen`, is kept by every step; with `BufHdrNos` it carries
over to the files at each write.

The checksum algorithm is a parameter of the configuration (`log_checksum_algorithm_ptr`): what is
proved is that the stored value is the one the algorithm computes, not that it detects errors.

## Main definitions

* `BufDataLen` — every block of the buffer up to `buf_free` is full but the block of `buf_free`,
  whose `data_len` is the offset of `buf_free` in it.
* `BlockFormat` — what recovery checks of one block.
* `FilesFormat` — every block the writes carried, and no later write overwrote, passes the checks.

## Main results

* `bufDataLen_of_reachable`, `filesFormat_of_reachable` — both hold in every reachable state.
* `logFiles_blockFormat` — the blocks of the files, as recovery reads them.
-/

namespace RedoLog

/-! ### `data_len` in the buffer -/

/-- The `data_len` fields of the buffer: `512` for every block below the block of `buf_free`, and
the offset of `buf_free` for that block. -/
def BufDataLen (s : LogSys) : Prop :=
  ∀ o, o % osFileLogBlockSize = 0 → o ≤ s.bufFree →
    logBlockGetDataLen s.buf o = min (s.bufFree - o) osFileLogBlockSize

section Part

variable {s : LogSys} {str : List UInt8} (hc : BufferCore s)
include hc

/-- A pass that fills its block moves `buf_free` into the next block; any other pass keeps it in
its block. -/
theorem logWriteLowPart_alignDown :
    utCalcAlignDown (logWriteLowPart s str).1.bufFree osFileLogBlockSize =
      utCalcAlignDown s.bufFree osFileLogBlockSize +
        if PartFull s str then osFileLogBlockSize else 0 := by
  have hh : 12 ≤ s.bufFree % 512 := hc.hdr_le
  rw [logWriteLowPart_bufFree hc, utCalcAlignDown_eq, utCalcAlignDown_eq]
  by_cases hf : PartFull s str
  · have := partLen_of_full hc hf
    simp only [if_pos hf, osFileLogBlockSize, logBlockHdrSize, logBlockTrlSize] at *; omega
  · have hk : s.bufFree % 512 + partLen s str < 508 := by
      rw [partLen_of_not_full hf]; unfold PartFull at hf
      simp only [osFileLogBlockSize, logBlockTrlSize] at hf; omega
    simp only [if_neg hf, osFileLogBlockSize]; omega

/-- Below the block of the new `buf_free`, a pass sets `data_len` only in the block it fills, to
`512`. -/
theorem logWriteLowPart_dataLen_of_lt {o : ℕ} (ho : o % osFileLogBlockSize = 0)
    (hlt : o < utCalcAlignDown (logWriteLowPart s str).1.bufFree osFileLogBlockSize) :
    logBlockGetDataLen (logWriteLowPart s str).1.buf o =
      if o = utCalcAlignDown s.bufFree osFileLogBlockSize then osFileLogBlockSize
      else logBlockGetDataLen s.buf o := by
  have hB : utCalcAlignDown s.bufFree osFileLogBlockSize = s.bufFree - s.bufFree % 512 :=
    utCalcAlignDown_eq _ _
  have hh : 12 ≤ s.bufFree % 512 := hc.hdr_le
  have hk : (str.take (partLen s str)).length = partLen s str := length_take_partLen
  have ho' : o % 512 = 0 := ho
  rw [logWriteLowPart_alignDown hc] at hlt
  have hoB : o ≤ utCalcAlignDown s.bufFree osFileLogBlockSize := by
    split_ifs at hlt <;> simp only [osFileLogBlockSize] at hlt hB ⊢ <;> omega
  -- the part lies in the payload of the block of `buf_free`, past every `data_len` up to it
  have hw : ∀ j < 2, Mem.write s.buf s.bufFree (str.take (partLen s str)) (o + 4 + j) =
      s.buf (o + 4 + j) := fun j hj => Mem.write_of_not_mem (by rw [hk]; omega)
  rw [logWriteLowPart_eq s str hc.lt_trl]
  dsimp only
  by_cases hf : PartFull s str
  · simp only [if_pos hf]
    split_ifs with he
    · -- the block the pass filled
      calc _ = logBlockGetDataLen (logBlockSetDataLen (logBlockSetDataLen
            (Mem.write s.buf s.bufFree (str.take (partLen s str))) o
            (s.bufFree % osFileLogBlockSize + partLen s str)) o osFileLogBlockSize) o :=
          logBlockGetDataLen_congr fun j hj => by
            rw [logBlockInit_of_not_mem _ (.inl (by rw [← he]; unfold osFileLogBlockSize; omega)),
              logBlockSetCheckpointNo_of_not_mem _ (by rw [← he]; omega), he]
        _ = osFileLogBlockSize := by rw [logBlockGetDataLen_logBlockSetDataLen]; rfl
    · exact logBlockGetDataLen_congr fun j hj => by
        rw [logBlockInit_of_not_mem _ (by omega), logBlockSetCheckpointNo_of_not_mem _ (by omega),
          logBlockSetDataLen_of_not_mem _ (by omega), logBlockSetDataLen_of_not_mem _ (by omega), hw j hj]
  · simp only [if_neg hf, Nat.add_zero] at hlt ⊢
    rw [if_neg (by omega)]
    exact logBlockGetDataLen_congr fun j hj => by
      rw [logBlockSetDataLen_of_not_mem _ (by omega), hw j hj]

end Part

section Append

variable {s : LogSys}

/-- **A pass of `log_write_low` keeps `data_len`**: the block it fills gets `512`, and the block
of the new `buf_free` its offset. -/
theorem BufDataLen.logWriteLowPart (hc : BufferCore s) (h : BufDataLen s) (str : List UInt8) :
    BufDataLen (logWriteLowPart s str).1 := by
  intro o ho hle
  have ho' : o % 512 = 0 := ho
  have hB : utCalcAlignDown s.bufFree osFileLogBlockSize = s.bufFree - s.bufFree % 512 :=
    utCalcAlignDown_eq _ _
  have hB' : utCalcAlignDown (RedoLog.logWriteLowPart s str).1.bufFree osFileLogBlockSize =
      (RedoLog.logWriteLowPart s str).1.bufFree - (RedoLog.logWriteLowPart s str).1.bufFree % 512 :=
    utCalcAlignDown_eq _ _
  rcases eq_or_lt_of_le (show o ≤ utCalcAlignDown (RedoLog.logWriteLowPart s str).1.bufFree
      osFileLogBlockSize by rw [hB']; omega) with rfl | hlt
  · -- the block of the new `buf_free`
    rw [logWriteLowPart_dataLen hc, hB', Nat.sub_sub_self (Nat.mod_le _ _)]
    exact (min_eq_left (Nat.mod_lt _ (show 0 < 512 by decide)).le).symm
  · -- a block below it, which is full
    have hfull : osFileLogBlockSize ≤ (RedoLog.logWriteLowPart s str).1.bufFree - o := by
      have := hB' ▸ hlt; show 512 ≤ _; omega
    rw [logWriteLowPart_dataLen_of_lt hc ho hlt, min_eq_right hfull]
    split_ifs with he
    · rfl
    · rw [logWriteLowPart_alignDown hc, hB] at hlt
      rw [hB] at he
      have : o + 512 ≤ s.bufFree := by
        split_ifs at hlt <;> (try simp only [osFileLogBlockSize] at hlt) <;> omega
      rw [h o ho (by omega), min_eq_right (show osFileLogBlockSize ≤ s.bufFree - o from by
        show 512 ≤ _; omega)]

theorem BufDataLen.logWriteLowLoop (fuel : ℕ) (hc : BufferCore s) (h : BufDataLen s)
    (str : List UInt8) : BufDataLen (logWriteLowLoop fuel s str) := by
  induction fuel generalizing s str with
  | zero => exact h
  | succ fuel ih =>
    rw [RedoLog.logWriteLowLoop]
    split
    · exact h.logWriteLowPart hc str
    · exact ih (appendStep_logWriteLowPart hc str).core (h.logWriteLowPart hc str) _

theorem BufDataLen.foldl_logWriteLow (strs : List (List UInt8)) (hc : BufferCore s)
    (h : BufDataLen s) : BufDataLen (strs.foldl logWriteLow s) := by
  induction strs generalizing s with
  | nil => exact h
  | cons str strs ih =>
    exact ih (appendStep_logWriteLowLoop _ hc str).core (h.logWriteLowLoop _ hc str)

/-- `log_close` stamps `first_rec_group` only. -/
theorem BufDataLen.logClose (h : BufDataLen s) (bufPoolOldest : ℕ) :
    BufDataLen (logClose s bufPoolOldest).1 := by
  have hb : utCalcAlignDown s.bufFree osFileLogBlockSize % 512 = 0 := utCalcAlignDown_mod _ _
  intro o ho hle
  have ho' : o % 512 = 0 := ho
  unfold RedoLog.logClose at hle ⊢
  dsimp only at hle ⊢
  rw [← h o ho hle]
  split_ifs
  · exact logBlockGetDataLen_congr fun j hj => logBlockSetFirstRecGroup_of_not_mem _ (by omega)
  · rfl

/-- **A mini-transaction keeps `data_len` in the buffer.** -/
theorem BufDataLen.mtrWrite (hc : BufferCore s) (h : BufDataLen s) (strs : List (List UInt8))
    (bufPoolOldest : ℕ) : BufDataLen (mtrWrite s strs bufPoolOldest) :=
  (h.foldl_logWriteLow strs hc).logClose bufPoolOldest

/-- A move of the buffer carries `data_len` with the blocks. -/
theorem BufDataLen.move {s' : LogSys} {d : ℕ} (h : BufDataLen s) (hm : HeaderMove s s' d) :
    BufDataLen s' := by
  intro o ho hle
  have hsplit := hm.bufFree_eq
  have hd : d % osFileLogBlockSize = 0 := hm.mod
  rw [(hm.fields ho hle).1, h _ (by rw [Nat.add_mod, hd, ho]; rfl) (by omega)]
  congr 1
  omega

theorem BufDataLen.logWriteUpToWrite {cfg : Config} (hc : BufferCore s) (h : BufDataLen s) :
    BufDataLen (logWriteUpToWrite cfg s) :=
  let ⟨_, hm⟩ := logWriteUpToWrite_headerMove hc; h.move hm

theorem BufDataLen.logBufferExtendMove {cfg : Config} (hc : BufferCore s) (h : BufDataLen s)
    (len : ℕ) : BufDataLen (logBufferExtendMove cfg s len) :=
  h.move (logBufferExtendMove_headerMove hc len)

/-- The invariant reads only the buffer and `buf_free`. -/
theorem BufDataLen.of_eq {s' : LogSys} (h : BufDataLen s) (h1 : s'.buf = s.buf)
    (h2 : s'.bufFree = s.bufFree) : BufDataLen s' := by
  unfold BufDataLen; rw [h1, h2]; exact h

end Append

/-! ### The blocks of the files -/

/-- What recovery checks of the block at place `p` of `m` that holds the log from LSN `b` on,
written up to `writeLsn`: the trailer holds the checksum of the block's bytes, the header the
number of `b`, and `data_len` the bytes of the block that hold log, all `512` of a full one. -/
structure BlockFormat (alg : List UInt8 → ℕ) (m : Mem) (p b writeLsn : ℕ) : Prop where
  checksum : BlockChecksumOk alg m p
  hdrNo : logBlockGetHdrNo m p = logBlockConvertLsnToNo b % logBlockFlushBitMask
  dataLen : logBlockGetDataLen m p = min (writeLsn - b) osFileLogBlockSize

section Format

variable {alg : List UInt8 → ℕ} {m m' : Mem} {p p' b wl : ℕ}

/-- The checks read only the block's bytes, wherever it sits. -/
theorem BlockFormat.congr (h : BlockFormat alg m p b wl)
    (he : ∀ j < osFileLogBlockSize, m' (p' + j) = m (p + j)) : BlockFormat alg m' p' b wl :=
  ⟨h.checksum.congr he,
    (logBlockGetHdrNo_congr fun j hj => he j (by unfold osFileLogBlockSize; omega)).trans h.hdrNo,
    (logBlockGetDataLen_congr fun j hj => by
      simpa only [Nat.add_assoc] using he (4 + j) (by unfold osFileLogBlockSize; omega)).trans
      h.dataLen⟩

/-- A full block stays full as `write_lsn` moves on. -/
theorem BlockFormat.mono (h : BlockFormat alg m p b wl) (hfull : b + osFileLogBlockSize ≤ wl)
    {wl' : ℕ} (hle : wl ≤ wl') : BlockFormat alg m p b wl' :=
  ⟨h.checksum, h.hdrNo, by rw [h.dataLen, min_eq_right (by omega), min_eq_right (by omega)]⟩

end Format

/-- The blocks of the files as recovery reads them: every block a write carried, from a block
boundary `b` that the writes passed, and that no later write reached a capacity past, passes the
checks, with `data_len` measured up to `write_lsn`. -/
def FilesFormat (cfg : Config) (s : LogSys) : Prop :=
  ∀ b, b % osFileLogBlockSize = 0 → s.written b = true →
    s.writtenEnd ≤ b + logGroupGetCapacity s.group →
    BlockFormat cfg.logChecksumAlgorithm s.logFiles (logGroupCalcLsnOffset s.group b) b s.writeLsn

section Write

variable {cfg : Config} {s : LogSys}

variable (cfg) in
/-- The write reaches the end of every block of the buffer up to the block of `buf_free`. -/
theorem blockEnd_le_writeEnd (hc : BufferCore s) {o : ℕ} (ho : o % osFileLogBlockSize = 0)
    (hle : o ≤ s.bufFree) :
    s.lsn - s.bufFree + o + osFileLogBlockSize ≤
      utCalcAlignDown s.writeLsn osFileLogBlockSize + writeLen cfg s := by
  have hend : utCalcAlign s.bufFree osFileLogBlockSize = s.bufFree - s.bufFree % 512 + 512 :=
    utCalcAlign_bufFree hc
  have hst := (@lsn_le_writeEnd cfg s hc).2
  have hN := utCalcAlignDown_le s.bufNextToWrite osFileLogBlockSize
  have := hc.nbw_le
  have ho' : o % 512 = 0 := ho
  unfold writeLen; dsimp only
  simp only [osFileLogBlockSize] at *
  omega

variable (cfg) in
/-- **The write builds each block it carries in the format recovery checks**, in the buffer it
leaves: `log_group_write_buf` stores the checksum, the block keeps the number `log_block_init`
gave it, and `data_len` as `log_write_low` left it. -/
theorem blockFormat_writeResult (hc : BufferCore s) (hd : BufDataLen s) (hn : BufHdrNos s)
    {o : ℕ} (ho : o % osFileLogBlockSize = 0) (hlo : utCalcAlignDown s.bufNextToWrite osFileLogBlockSize ≤ o)
    (hle : o ≤ s.bufFree) :
    BlockFormat cfg.logChecksumAlgorithm (writeResult cfg s).2 o (s.lsn - s.bufFree + o) s.lsn := by
  have hend : utCalcAlign s.bufFree osFileLogBlockSize = s.bufFree - s.bufFree % 512 + 512 :=
    utCalcAlign_bufFree hc
  have ho' : o % 512 = 0 := ho
  have hfl := hc.free_le_lsn
  have hN : utCalcAlignDown s.bufNextToWrite osFileLogBlockSize % 512 = 0 := utCalcAlignDown_mod _ _
  -- the block lies in the range the write checksums, from the block of `buf_next_to_write`
  have hA : o + osFileLogBlockSize ≤ utCalcAlignDown s.bufNextToWrite osFileLogBlockSize + writeLen cfg s := by
    have hwe := blockEnd_le_writeEnd cfg hc ho hle
    have hst := (@lsn_le_writeEnd cfg s hc).2
    omega
  have hlt : o < utCalcAlign s.bufFree osFileLogBlockSize := by
    rw [hend]; simp only [osFileLogBlockSize] at *; omega
  refine ⟨?_, ?_, ?_⟩
  · -- block `(o - areaStart) / 512` of the range `log_group_write_buf` checksums
    have hq : BlockChecksumOk cfg.logChecksumAlgorithm (writeResult cfg s).2
        (utCalcAlignDown s.bufNextToWrite osFileLogBlockSize +
          (o - utCalcAlignDown s.bufNextToWrite osFileLogBlockSize) / osFileLogBlockSize *
            osFileLogBlockSize) :=
      blockChecksumOk_logGroupWriteBuf hc.anchor (utCalcAlignDown_mod _ _)
        (by simp only [osFileLogBlockSize] at *; omega)
    rwa [show utCalcAlignDown s.bufNextToWrite osFileLogBlockSize +
      (o - utCalcAlignDown s.bufNextToWrite osFileLogBlockSize) / osFileLogBlockSize *
        osFileLogBlockSize = o by simp only [osFileLogBlockSize] at *; omega] at hq
  · rw [logBlockGetHdrNo_writeResult hc ho hlt, hn o ho hle]
  · rw [logBlockGetDataLen_congr fun j hj => writeResult_snd_of_header hc
        (by simp only [logBlockHdrDataLen, logBlockCheckpointNo, osFileLogBlockSize]; omega)
        (by rw [hend]; simp only [osFileLogBlockSize] at *; omega),
      hd o ho hle]
    congr 1; omega

/-- A block boundary among the LSNs the write carries stands for a block of the buffer between
the block of `buf_next_to_write` and that of `buf_free`. -/
theorem writeRange_block (hc : BufferCore s) {b : ℕ} (hb : b % osFileLogBlockSize = 0)
    (hr : writeRange s b = true) :
    ∃ o, b = s.lsn - s.bufFree + o ∧ o % osFileLogBlockSize = 0 ∧
      utCalcAlignDown s.bufNextToWrite osFileLogBlockSize ≤ o ∧
      o ≤ utCalcAlignDown s.bufFree osFileLogBlockSize := by
  have hr' : utCalcAlignDown s.writeLsn osFileLogBlockSize ≤ b ∧ b < s.lsn := by
    simpa [writeRange] using hr
  obtain ⟨base, hbm, hl, hw⟩ := hc.exists_base
  rw [hw, utCalcAlignDown_add_of_mod _ hbm] at hr'
  obtain ⟨o, rfl⟩ := Nat.exists_eq_add_of_le ((Nat.le_add_right base _).trans hr'.1)
  have ho : o % osFileLogBlockSize = 0 := Nat.mod_eq_zero_of_dvd <|
    (Nat.dvd_add_right (Nat.dvd_of_mod_eq_zero hbm)).mp (Nat.dvd_of_mod_eq_zero hb)
  have hB : utCalcAlignDown s.bufFree osFileLogBlockSize = s.bufFree - s.bufFree % 512 :=
    utCalcAlignDown_eq _ _
  have ho' : o % 512 = 0 := ho
  exact ⟨o, by rw [hl, Nat.add_sub_cancel], ho, by omega, by rw [hB]; omega⟩

/-- A block boundary that the writes passed and that the write does not carry lies a whole block
before the write's first block. -/
theorem add_le_alignDown_of_written (hc : BufferCore s)
    (hwr : ∀ y, s.written y = true → y < s.writeLsn) {b : ℕ} (hb : b % osFileLogBlockSize = 0)
    (hw : s.written b = true) (hr : ¬writeRange s b = true) :
    b + osFileLogBlockSize ≤ utCalcAlignDown s.writeLsn osFileLogBlockSize := by
  have := hwr b hw; have := hc.writeLsn_le
  have hW : utCalcAlignDown s.writeLsn osFileLogBlockSize = s.writeLsn - s.writeLsn % 512 :=
    utCalcAlignDown_eq _ _
  have hb' : b % 512 = 0 := hb
  simp only [writeRange, decide_eq_true_eq, not_and, not_lt] at hr
  rw [hW] at hr ⊢
  show _ + 512 ≤ _
  omega

variable (cfg) in
/-- The write puts each block it carries, from the block of `buf_next_to_write` to that of
`buf_free`, at the place of the block's LSN, unless it reached a capacity past the block. -/
theorem writeResult_fst_block (hc : BufferCore s) {o : ℕ} (ho : o % osFileLogBlockSize = 0)
    (hlo : utCalcAlignDown s.bufNextToWrite osFileLogBlockSize ≤ o) (hle : o ≤ s.bufFree)
    (hwrap : utCalcAlignDown s.writeLsn osFileLogBlockSize + writeLen cfg s ≤
      s.lsn - s.bufFree + o + logGroupGetCapacity s.group) {j : ℕ} (hj : j < osFileLogBlockSize) :
    (writeResult cfg s).1 (logGroupCalcLsnOffset s.group (s.lsn - s.bufFree + o) + j) =
      (writeResult cfg s).2 (o + j) := by
  have hwe : s.lsn - s.bufFree + o + 512 ≤
      utCalcAlignDown s.writeLsn osFileLogBlockSize + writeLen cfg s :=
    blockEnd_le_writeEnd cfg hc ho hle
  have hwb := hc.arith.writeLsn_block
  have hW : utCalcAlignDown s.writeLsn osFileLogBlockSize = s.writeLsn - s.writeLsn % 512 :=
    utCalcAlignDown_eq _ _
  have hN : utCalcAlignDown s.bufNextToWrite osFileLogBlockSize =
      s.bufNextToWrite - s.bufNextToWrite % 512 := utCalcAlignDown_eq _ _
  have hj' : j < 512 := hj
  have hbo : (s.lsn - s.bufFree + o) % osFileLogBlockSize = 0 := by
    rw [Nat.add_mod, hc.base_mod, ho]; rfl
  have h1 : utCalcAlignDown s.writeLsn osFileLogBlockSize ≤ s.lsn - s.bufFree + o + j := by
    rw [hW]; rw [hN] at hlo; omega
  rw [← logGroupCalcLsnOffset_add_of_mod hc.anchor hbo hj, writeResult_fst_of_lt_writeEnd hc h1
    (by omega) (hwrap.trans (by omega)),
    Nat.add_assoc, Nat.add_sub_cancel_left]

/-- The write leaves the block of the files at the place of a block boundary `b` before its first
block, unless it reached a capacity past `b`. -/
theorem writeResult_fst_block_of_lt (ha : s.group.AnchorOk) {b : ℕ}
    (hb : b % osFileLogBlockSize = 0)
    (hlt : b + osFileLogBlockSize ≤ utCalcAlignDown s.writeLsn osFileLogBlockSize)
    (hwrap : utCalcAlignDown s.writeLsn osFileLogBlockSize + writeLen cfg s ≤
      b + logGroupGetCapacity s.group) {j : ℕ} (hj : j < osFileLogBlockSize) :
    (writeResult cfg s).1 (logGroupCalcLsnOffset s.group b + j) =
      s.logFiles (logGroupCalcLsnOffset s.group b + j) := by
  rw [← logGroupCalcLsnOffset_add_of_mod ha hb hj]
  exact writeResult_fst_of_lt (by omega) (hwrap.trans (by omega))

/-- **The write keeps the files' blocks in format**: each block it carries gets the block the
write built, and an older block keeps its own, which was full. -/
theorem FilesFormat.logWriteUpToWrite (hc : BufferCore s) (hd : BufDataLen s) (hn : BufHdrNos s)
    (hwr : ∀ y, s.written y = true → y < s.writeLsn) (h : FilesFormat cfg s) :
    FilesFormat cfg (logWriteUpToWrite cfg s) := by
  unfold FilesFormat
  rw [RedoLog.logWriteUpToWrite_eq]
  dsimp only
  intro b hb hw hwrap
  rw [logGroupCalcLsnOffset_logGroupSetFields]
  rw [logGroupGetCapacity_logGroupSetFields, max_le_iff] at hwrap
  by_cases hr : writeRange s b = true
  · -- a block of this write: it gets the block the write built at `o`
    obtain ⟨o, rfl, ho, hlo, hle⟩ := writeRange_block hc hb hr
    have hob := hle.trans (utCalcAlignDown_le _ _)
    exact (blockFormat_writeResult cfg hc hd hn ho hlo hob).congr fun j hj =>
      writeResult_fst_block cfg hc ho hlo hob hwrap.2 hj
  · -- an older block, which this write left alone
    have hbs := add_le_alignDown_of_written hc hwr hb (by simpa [hr] using hw) hr
    exact ((h b hb (by simpa [hr] using hw) hwrap.1).mono (hbs.trans (utCalcAlignDown_le _ _))
      hc.writeLsn_le).congr fun j hj => writeResult_fst_block_of_lt hc.anchor hb hbs hwrap.2 hj

/-- The invariant reads only `write_lsn`, what the writes passed and how far they reached, the
group, and the files. -/
theorem FilesFormat.of_eq {s' : LogSys} (h : FilesFormat cfg s) (h1 : s'.writeLsn = s.writeLsn)
    (h2 : s'.written = s.written) (h3 : s'.writtenEnd = s.writtenEnd) (h4 : s'.group = s.group)
    (h5 : s'.logFiles = s.logFiles) : FilesFormat cfg s' := by
  unfold FilesFormat; rw [h1, h2, h3, h4, h5]; exact h

/-- A mini-transaction touches neither the files nor what the writes passed. -/
theorem FilesFormat.mtrWrite (hc : BufferCore s) (h : FilesFormat cfg s) (strs : List (List UInt8))
    (bufPoolOldest : ℕ) : FilesFormat cfg (mtrWrite s strs bufPoolOldest) := by
  have hfr := (appendStep_mtrWrite hc strs bufPoolOldest).frame
  exact h.of_eq (by rw [hfr]) (by rw [hfr]) (by rw [hfr]) (by rw [hfr]) (by rw [hfr])

end Write

/-! ### Over every run -/

section Runs

variable {cfg : Config}

theorem FrameStep.bufDataLen {s s' : LogSys} {f f' : Frame} (hs : FrameStep cfg s f s' f')
    (hb : BufferInv s) (h : BufDataLen s) : BufDataLen s' := by
  cases hs with
  | appendWrite => exact h.mtrWrite hb.toBufferCore _ _
  | checkpointNames => exact h.mtrWrite hb.toBufferCore _ _
  | lockedWrite =>
    unfold logWriteUpToLocked
    split
    · exact BufDataLen.logWriteUpToWrite
        (hb.of_eq rfl rfl rfl rfl rfl rfl rfl rfl : BufferInv (logWriteUpToClaim s)).toBufferCore
        (h.of_eq rfl rfl : BufDataLen (logWriteUpToClaim s))
    · exact h.logWriteUpToWrite hb.toBufferCore
  | extendMove =>
    have hb' : BufferInv { s with isExtending := true } := hb.of_eq rfl rfl rfl rfl rfl rfl rfl rfl
    exact (h.of_eq rfl rfl : BufDataLen { s with isExtending := true }).logBufferExtendMove
      hb'.toBufferCore _
  | checkpointIssue => rw [logWriteCheckpointInfo_eq]; exact h.of_eq rfl rfl
  | fsync | assign | decrement | setEvent | extendWait | marginCheck | marginRetry =>
    exact h.of_eq rfl rfl
  | _ => exact h

theorem Step.bufDataLen {w w' : World} (hs : Step cfg w w') (hb : BufferInv w.log)
    (h : BufDataLen w.log) : BufDataLen w'.log := by
  cases hs with
  | call => exact h
  | run _ hf => exact hf.bufDataLen hb h
  | land => exact h.of_eq rfl rfl
  | complete => rw [logIoCompleteCheckpoint_eq]; exact h.of_eq rfl rfl

/-- `log_init` leaves one block, with the `data_len` of an empty one, `LOG_BLOCK_HDR_SIZE`. -/
theorem bufDataLen_of_isInitial {s : LogSys} (hi : IsInitial cfg s) : BufDataLen s := by
  obtain ⟨_, _, _, _, _, _, _, hs⟩ := hi
  obtain ⟨-, -, -, -, -, -, -, rfl⟩ := logCalcMaxAges_eq_some hs
  intro o ho hle
  simp only [logInit, logBlockHdrSize, osFileLogBlockSize] at ho hle ⊢
  obtain rfl : o = 0 := by omega
  decide

/-- **`data_len` in the buffer is right in every reachable state.** -/
theorem bufDataLen_of_reachable {w : World} (h : Reachable cfg w) : BufDataLen w.log := by
  induction h with
  | init hi => exact bufDataLen_of_isInitial hi.1
  | step hr hs ih => exact hs.bufDataLen hr.bufferInv ih

/-- Every LSN the writes passed is below `write_lsn`. -/
theorem Reachable.written_lt {w : World} (h : Reachable cfg w) :
    ∀ y, w.log.written y = true → y < w.log.writeLsn :=
  let ⟨_, hbs⟩ := h.exists_boundaries; (recGroupInv_of_boundaries hbs).written_lt

theorem FrameStep.filesFormat {s s' : LogSys} {f f' : Frame} (hs : FrameStep cfg s f s' f')
    (hb : BufferInv s) (hd : BufDataLen s) (hn : BufHdrNos s)
    (hwr : ∀ y, s.written y = true → y < s.writeLsn) (h : FilesFormat cfg s) :
    FilesFormat cfg s' := by
  cases hs with
  | lockedWrite =>
    unfold logWriteUpToLocked
    split
    · exact FilesFormat.logWriteUpToWrite
        (hb.of_eq rfl rfl rfl rfl rfl rfl rfl rfl : BufferInv (logWriteUpToClaim s)).toBufferCore
        (hd.of_eq rfl rfl) (hn.of_eq rfl rfl rfl) hwr (h.of_eq rfl rfl rfl rfl rfl)
    · exact h.logWriteUpToWrite hb.toBufferCore hd hn hwr
  | appendWrite => exact h.mtrWrite hb.toBufferCore _ _
  | checkpointNames => exact h.mtrWrite hb.toBufferCore _ _
  | checkpointIssue => rw [logWriteCheckpointInfo_eq]; exact h.of_eq rfl rfl rfl rfl rfl
  | _ => exact h.of_eq rfl rfl rfl rfl rfl

/-- **The files hold their blocks in format in every reachable state.** -/
theorem filesFormat_of_reachable {w : World} (h : Reachable cfg w) : FilesFormat cfg w.log := by
  induction h with
  | init hi =>
    obtain ⟨⟨_, _, _, _, _, _, _, hs⟩, -⟩ := hi
    obtain ⟨_, _, _, _, _, _, _, he⟩ := logCalcMaxAges_eq_some hs
    intro b _ hw
    rw [he] at hw
    exact absurd hw Bool.false_ne_true
  | step hr hs ih =>
    cases hs with
    | call => exact ih
    | run _ hf =>
      exact hf.filesFormat hr.bufferInv (bufDataLen_of_reachable hr) (bufHdrNos_of_reachable hr)
        hr.written_lt ih
    | land => exact ih.of_eq rfl rfl rfl rfl rfl
    | complete => rw [logIoCompleteCheckpoint_eq]; exact ih.of_eq rfl rfl rfl rfl rfl

/-- **Every block of the files is in the format recovery checks.** In every reachable state, every
block of the files that a write carried, from a block boundary `b` that the writes passed and that
no later write reached a capacity past, passes its checksum test, holds in its header the number
of `b`, and holds in `data_len` the bytes of the block below `write_lsn`: `512` for a full block,
and the offset of `write_lsn` for the block of `write_lsn`. -/
theorem logFiles_blockFormat {w : World} (h : Reachable cfg w) {b : ℕ}
    (hb : b % osFileLogBlockSize = 0) (hw : w.log.written b = true)
    (hwrap : w.log.writtenEnd ≤ b + logGroupGetCapacity w.log.group) :
    BlockChecksumOk cfg.logChecksumAlgorithm w.log.logFiles
        (logGroupCalcLsnOffset w.log.group b) ∧
      logBlockGetHdrNo w.log.logFiles (logGroupCalcLsnOffset w.log.group b) =
        logBlockConvertLsnToNo b % logBlockFlushBitMask ∧
      logBlockGetDataLen w.log.logFiles (logGroupCalcLsnOffset w.log.group b) =
        min (w.log.writeLsn - b) osFileLogBlockSize :=
  let hf := filesFormat_of_reachable h b hb hw hwrap
  ⟨hf.checksum, hf.hdrNo, hf.dataLen⟩

/-- A run of the default deployment: thread `0` appends one byte and writes it with
`log_write_up_to(8205, false)`; the block at LSN `8192` is in the files, in format. -/
theorem defaultWorld_blockFormat : ∃ w : World, Reachable (defaultConfig .fsync) w ∧
    w.log.written 8192 = true ∧ w.log.writtenEnd ≤ 8192 + logGroupGetCapacity w.log.group ∧
    BlockChecksumOk (defaultConfig .fsync).logChecksumAlgorithm w.log.logFiles
        (logGroupCalcLsnOffset w.log.group 8192) ∧
      logBlockGetHdrNo w.log.logFiles (logGroupCalcLsnOffset w.log.group 8192) =
        logBlockConvertLsnToNo 8192 % logBlockFlushBitMask ∧
      logBlockGetDataLen w.log.logFiles (logGroupCalcLsnOffset w.log.group 8192) =
        min (w.log.writeLsn - 8192) osFileLogBlockSize := by
  have r1 := (defaultWorld_reachable .fsync).step (.call 0 rfl (.append 1 [[7]]))
  have r2 := r1.step (.run 0 (.appendWrite 0 (by decide) (by decide)))
  have r3 := r2.step (.call 0 rfl (.writeUpTo 8205 false))
  have r4 := r3.step (.run 0 (.dirtyLock (by decide)))
  have r5 := r4.step (.run 0 (.lockedWrite (by decide) (by decide) (by decide)))
  exact ⟨_, r5, by decide, by decide, logFiles_blockFormat r5 (by decide) (by decide) (by decide)⟩

end Runs

end RedoLog

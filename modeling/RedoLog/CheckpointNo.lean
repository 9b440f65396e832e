import RedoLog.BlockFormat

/-!
# Checkpoint numbers in the blocks

`log_write_low` stamps each block it fills with `next_checkpoint_no`, in the header field
`LOG_BLOCK_CHECKPOINT_NO`, and `log_write_up_to` stamps the last block of each write with it just
before the write. A reader of the files tells the blocks of the current round of the files from
leftovers of an older round by these numbers. This module proves that, within the capacity of the
files, the numbers the writes leave never go down along the LSNs, and none is past
`next_checkpoint_no`, for as long as that number fits the field's four bytes.

The numbers live in two places, which one invariant relates. In the files, the blocks the writes
carried are sorted and bounded. In the buffer, the full blocks still to be written, from the block
of `buf_next_to_write` to the block before that of `buf_free`, are sorted and bounded too, and
none has a number below a block of the files: each was filled after the last write, which had
stamped its own last block with the number of its time. A write carries those blocks over, adds
its last block with `next_checkpoint_no`, and leaves no full block to be written in the buffer.

The field holds the low 32 bits of the number: past `2 ^ 32` checkpoints it wraps, and the order of
the fields is no longer that of the numbers. The run theorem assumes that the number fits.

## Main definitions

* `filesCheckpointNo` — the checkpoint number of the block of the files that holds an LSN.
* `FilesBlock`, `BufBlock` — the blocks of the files the invariant speaks of, and the full blocks of
  the buffer still to be written.
* `CheckpointNos` — the numbers of both are sorted and bounded, and those of the buffer are at
  least those of the files.

## Main results

* `checkpointNos_of_reachable` — the invariant holds in every reachable state whose
  `next_checkpoint_no` fits the field.
* `logFiles_checkpointNo_sorted` — the checkpoint numbers of the files, as a reader finds them.
-/

namespace RedoLog

/-- The checkpoint number of the block of the files that holds the log from LSN `b` on. -/
def filesCheckpointNo (s : LogSys) (b : ℕ) : ℕ :=
  logBlockGetCheckpointNo s.logFiles (logGroupCalcLsnOffset s.group b)

/-- A block of the files that a write carried, from a block boundary `b` that the writes passed,
and that no later write reached a capacity past. -/
def FilesBlock (s : LogSys) (b : ℕ) : Prop :=
  b % osFileLogBlockSize = 0 ∧ s.written b = true ∧ s.writtenEnd ≤ b + logGroupGetCapacity s.group

/-- A full block of the buffer still to be written: from the block of `buf_next_to_write` on, and
ending by `buf_free`. -/
def BufBlock (s : LogSys) (o : ℕ) : Prop :=
  o % osFileLogBlockSize = 0 ∧ utCalcAlignDown s.bufNextToWrite osFileLogBlockSize ≤ o ∧
    o + osFileLogBlockSize ≤ s.bufFree

/-- The checkpoint numbers of the blocks: in the files and in the buffer, sorted along the blocks
and at most `next_checkpoint_no`, and in the buffer at least those of the files. -/
structure CheckpointNos (s : LogSys) : Prop where
  files_le : ∀ b, FilesBlock s b → filesCheckpointNo s b ≤ s.nextCheckpointNo
  files_mono : ∀ b b', FilesBlock s b → FilesBlock s b' → b ≤ b' →
    filesCheckpointNo s b ≤ filesCheckpointNo s b'
  buf_le : ∀ o, BufBlock s o → logBlockGetCheckpointNo s.buf o ≤ s.nextCheckpointNo
  buf_mono : ∀ o o', BufBlock s o → BufBlock s o' → o ≤ o' →
    logBlockGetCheckpointNo s.buf o ≤ logBlockGetCheckpointNo s.buf o'
  files_le_buf : ∀ b o, FilesBlock s b → BufBlock s o →
    filesCheckpointNo s b ≤ logBlockGetCheckpointNo s.buf o

section Frame

variable {s s' : LogSys}

/-- The invariant reads the files, the group, what the writes passed and how far they reached, the
numbers of the buffer's blocks, `buf_free` and `buf_next_to_write`; and `next_checkpoint_no` may
grow. -/
theorem CheckpointNos.of_eq (h : CheckpointNos s) (h1 : s'.logFiles = s.logFiles)
    (h2 : s'.group = s.group) (h3 : s'.written = s.written) (h4 : s'.writtenEnd = s.writtenEnd)
    (h5 : s'.bufFree = s.bufFree) (h6 : s'.bufNextToWrite = s.bufNextToWrite)
    (h7 : ∀ o, o % osFileLogBlockSize = 0 →
      logBlockGetCheckpointNo s'.buf o = logBlockGetCheckpointNo s.buf o)
    (h8 : s.nextCheckpointNo ≤ s'.nextCheckpointNo) : CheckpointNos s' := by
  have hF : ∀ b, FilesBlock s' b → FilesBlock s b := fun b => by unfold FilesBlock; rw [h2, h3, h4]; exact id
  have hf : ∀ b, filesCheckpointNo s' b = filesCheckpointNo s b := fun b => by
    unfold filesCheckpointNo; rw [h1, h2]
  have hB : ∀ o, BufBlock s' o → BufBlock s o := fun o => by unfold BufBlock; rw [h5, h6]; exact id
  refine ⟨fun b hb => ?_, fun b b' hb hb' hbb => ?_, fun o ho => ?_, fun o o' ho ho' hoo => ?_,
    fun b o hb ho => ?_⟩
  · rw [hf]; exact (h.files_le b (hF b hb)).trans h8
  · rw [hf, hf]; exact h.files_mono b b' (hF b hb) (hF b' hb') hbb
  · rw [h7 o ho.1]; exact (h.buf_le o (hB o ho)).trans h8
  · rw [h7 o ho.1, h7 o' ho'.1]; exact h.buf_mono o o' (hB o ho) (hB o' ho') hoo
  · rw [hf, h7 o ho.1]; exact h.files_le_buf b o (hF b hb) (hB o ho)

/-- The buffer has no full block to be written while `buf_free` lies in the block of
`buf_next_to_write`. -/
theorem not_bufBlock {o : ℕ}
    (h : s.bufFree < utCalcAlignDown s.bufNextToWrite osFileLogBlockSize + osFileLogBlockSize) :
    ¬BufBlock s o :=
  fun ho => by have := ho.2.1; have := ho.2.2; omega

/-- A block between the block of `buf_next_to_write` and that of `buf_free` is full. -/
theorem bufBlock_of_lt {o : ℕ} (ho : o % osFileLogBlockSize = 0)
    (hlo : utCalcAlignDown s.bufNextToWrite osFileLogBlockSize ≤ o)
    (hlt : o < utCalcAlignDown s.bufFree osFileLogBlockSize) : BufBlock s o := by
  have hB : utCalcAlignDown s.bufFree osFileLogBlockSize = s.bufFree - s.bufFree % 512 :=
    utCalcAlignDown_eq _ _
  have ho' : o % 512 = 0 := ho
  rw [hB] at hlt
  exact ⟨ho, hlo, show o + 512 ≤ s.bufFree by omega⟩

/-- A cursor lies in the block its alignment starts. -/
theorem lt_utCalcAlignDown_add (x : ℕ) :
    x < utCalcAlignDown x osFileLogBlockSize + osFileLogBlockSize := by
  have : utCalcAlignDown x osFileLogBlockSize = x - x % 512 := utCalcAlignDown_eq _ _
  rw [this]; show x < _ + 512; omega

end Frame

/-! ### Appends -/

section Append

variable {s s' : LogSys} {str : List UInt8}

/-- Block `q` past the block of `buf_free` ends by the `buf_free` a call of `log_write_low` leaves
only if the call filled it. -/
theorem lt_blocksFilled {off n q : ℕ} (h : 12 ≤ off)
    (hq : 512 * q + 512 ≤ off + n + 16 * blocksFilled off n) : q < blocksFilled off n := by
  unfold blocksFilled at *; omega

/-- The full blocks to be written after a call of `log_write_low`: those the call filled, from the
block of `buf_free` on, which it stamped with `next_checkpoint_no`, and those before, whose numbers
it keeps. -/
theorem WriteLowSpec.bufBlock (hw : WriteLowSpec s str s') (hp : WriteLowPre s) {o : ℕ}
    (ho : BufBlock s' o) :
    (s.bufFree - s.bufFree % 512 ≤ o ∧
        logBlockGetCheckpointNo s'.buf o = s.nextCheckpointNo % 2 ^ 32) ∨
      (BufBlock s o ∧ o < s.bufFree - s.bufFree % 512 ∧
        logBlockGetCheckpointNo s'.buf o = logBlockGetCheckpointNo s.buf o) := by
  obtain ⟨h12, h508⟩ := hp.arith
  obtain ⟨hom, hlo, hhi⟩ := ho
  have ho' : o % 512 = 0 := hom
  have hhi' : o + 512 ≤ s.bufFree + str.length + 16 * blocksFilled (s.bufFree % 512) str.length := by
    rw [← hw.bufFree_eq]; exact hhi
  have hN : s'.bufNextToWrite = s.bufNextToWrite := by rw [hw.frame]
  rw [hN] at hlo
  by_cases hlt : o < s.bufFree - s.bufFree % 512
  · -- a block before the block of `buf_free`, which the call leaves
    exact .inr ⟨⟨hom, hlo, show o + 512 ≤ s.bufFree by omega⟩, hlt,
      logBlockGetCheckpointNo_congr fun j hj => hw.before _ (by omega) (by omega) (by omega)⟩
  · -- one of the blocks the call filled
    obtain ⟨q, rfl⟩ : ∃ q, o = s.bufFree - s.bufFree % 512 + 512 * q :=
      ⟨(o - (s.bufFree - s.bufFree % 512)) / 512, by omega⟩
    exact .inl ⟨Nat.le_add_right _ _, (hw.filled q (lt_blocksFilled h12 (by omega))).2⟩

/-- **A call of `log_write_low` keeps the numbers**: each block it fills gets
`next_checkpoint_no`, at least the number of every block before it. -/
theorem CheckpointNos.of_writeLowSpec (h : CheckpointNos s) (hw : WriteLowSpec s str s')
    (hp : WriteLowPre s) (hn : s.nextCheckpointNo < 2 ^ 32) : CheckpointNos s' := by
  have hnext : s.nextCheckpointNo % 2 ^ 32 = s.nextCheckpointNo := Nat.mod_eq_of_lt hn
  have hfr := hw.frame
  have hF : ∀ b, FilesBlock s' b → FilesBlock s b := fun b => by unfold FilesBlock; rw [hfr]; exact id
  have hf : ∀ b, filesCheckpointNo s' b = filesCheckpointNo s b := fun b => by
    unfold filesCheckpointNo; rw [hfr]
  have hN : s'.nextCheckpointNo = s.nextCheckpointNo := by rw [hfr]
  have hle : ∀ o, BufBlock s' o → logBlockGetCheckpointNo s'.buf o ≤ s.nextCheckpointNo :=
    fun o ho => by
      rcases hw.bufBlock hp ho with ⟨-, he⟩ | ⟨ho₀, -, he⟩
      · rw [he, hnext]
      · rw [he]; exact h.buf_le o ho₀
  refine ⟨fun b hb => ?_, fun b b' hb hb' hbb => ?_, fun o ho => hN ▸ hle o ho,
    fun o o' ho ho' hoo => ?_, fun b o hb ho => ?_⟩
  · rw [hf, hN]; exact h.files_le b (hF b hb)
  · rw [hf, hf]; exact h.files_mono b b' (hF b hb) (hF b' hb') hbb
  · rcases hw.bufBlock hp ho' with ⟨-, he'⟩ | ⟨ho₀', hlt', he'⟩
    · rw [he', hnext]; exact hle o ho
    · rcases hw.bufBlock hp ho with ⟨hge, -⟩ | ⟨ho₀, -, he⟩
      · omega
      · rw [he, he']; exact h.buf_mono o o' ho₀ ho₀' hoo
  · rw [hf]
    rcases hw.bufBlock hp ho with ⟨-, he⟩ | ⟨ho₀, -, he⟩
    · rw [he, hnext]; exact h.files_le b (hF b hb)
    · rw [he]; exact h.files_le_buf b o (hF b hb) ho₀

theorem CheckpointNos.foldl_logWriteLow (strs : List (List UInt8)) (hc : BufferCore s)
    (hn : s.nextCheckpointNo < 2 ^ 32) (h : CheckpointNos s) :
    CheckpointNos (strs.foldl logWriteLow s) := by
  induction strs generalizing s with
  | nil => exact h
  | cons str strs ih =>
    have hp : WriteLowPre s := ⟨hc.hdr_le, hc.lt_trl⟩
    have hw : WriteLowSpec s str (logWriteLow s str) :=
      writeLowSpec_logWriteLowLoop _ hp (Nat.lt_succ_self _)
    exact ih (appendStep_logWriteLowLoop _ hc str).core (by rw [hw.frame]; exact hn)
      (h.of_writeLowSpec hw hp hn)

/-- `log_close` stamps `first_rec_group` only. -/
theorem CheckpointNos.logClose (h : CheckpointNos s) (bufPoolOldest : ℕ) :
    CheckpointNos (logClose s bufPoolOldest).1 := by
  have hb : utCalcAlignDown s.bufFree osFileLogBlockSize % 512 = 0 := utCalcAlignDown_mod _ _
  refine h.of_eq rfl rfl rfl rfl rfl rfl (fun o ho => ?_) le_rfl
  have ho' : o % 512 = 0 := ho
  unfold RedoLog.logClose
  dsimp only
  split_ifs
  · exact logBlockGetCheckpointNo_congr fun j hj => logBlockSetFirstRecGroup_of_not_mem _ (by omega)
  · rfl

/-- **A mini-transaction keeps the numbers.** -/
theorem CheckpointNos.mtrWrite (hc : BufferCore s) (hn : s.nextCheckpointNo < 2 ^ 32)
    (h : CheckpointNos s) (strs : List (List UInt8)) (bufPoolOldest : ℕ) :
    CheckpointNos (mtrWrite s strs bufPoolOldest) :=
  (h.foldl_logWriteLow strs hc hn).logClose bufPoolOldest

end Append

/-! ### The write and the reallocation -/

section Write

variable {cfg : Config} {s : LogSys}

/-- The write sends the checkpoint number of each block up to the block of `buf_free` as the
buffer has it, but for the last block, which it stamps with `next_checkpoint_no` first. -/
theorem logBlockGetCheckpointNo_writeResult (hc : BufferCore s) {o : ℕ}
    (ho : o % osFileLogBlockSize = 0) (hle : o ≤ utCalcAlignDown s.bufFree osFileLogBlockSize) :
    logBlockGetCheckpointNo (writeResult cfg s).2 o =
      if o = utCalcAlignDown s.bufFree osFileLogBlockSize then s.nextCheckpointNo % 256 ^ 4
      else logBlockGetCheckpointNo s.buf o := by
  have hend : utCalcAlign s.bufFree osFileLogBlockSize =
      utCalcAlignDown s.bufFree osFileLogBlockSize + osFileLogBlockSize := by
    rw [utCalcAlign_bufFree hc, utCalcAlignDown_eq]
  have e : utCalcAlign s.bufFree osFileLogBlockSize - osFileLogBlockSize =
      utCalcAlignDown s.bufFree osFileLogBlockSize := by rw [hend, Nat.add_sub_cancel]
  have hB : utCalcAlignDown s.bufFree osFileLogBlockSize % 512 = 0 := utCalcAlignDown_mod _ _
  have hN : utCalcAlignDown s.bufNextToWrite osFileLogBlockSize % 512 = 0 := utCalcAlignDown_mod _ _
  have ho' : o % 512 = 0 := ho
  calc logBlockGetCheckpointNo (writeResult cfg s).2 o
      = logBlockGetCheckpointNo (logBlockSetCheckpointNo (logBlockSetFlushBit s.buf
          (utCalcAlignDown s.bufNextToWrite osFileLogBlockSize) true)
          (utCalcAlignDown s.bufFree osFileLogBlockSize) s.nextCheckpointNo) o :=
        logBlockGetCheckpointNo_congr fun j hj => by
          rw [writeResult, sameBesideChecksums_logGroupWriteBuf hc.anchor (utCalcAlignDown_mod _ _)
              (utCalcAlignDown_mod _ _) _ (by simp only [osFileLogBlockSize, logBlockChecksum]; omega),
            writeSource, Mem.fill, Mem.write_of_lt _ (by rw [hend]; show _ < _ + 512; omega), e]
    _ = _ := by
        split_ifs with he
        · rw [he, logBlockGetCheckpointNo_logBlockSetCheckpointNo]
        · exact logBlockGetCheckpointNo_congr fun j hj => by
            rw [logBlockSetCheckpointNo_of_not_mem _ (by omega),
              logBlockSetFlushBit_of_not_mem _ (by omega)]

/-- After the write, a block of the files is the last block of the write, with
`next_checkpoint_no`; or a full block of the write, with the number the buffer gave it; or an
older block, before the write, with its own. -/
theorem filesCheckpointNo_logWriteUpToWrite (hc : BufferCore s)
    (hwr : ∀ y, s.written y = true → y < s.writeLsn) {b : ℕ}
    (hb : FilesBlock (logWriteUpToWrite cfg s) b) :
    (b = s.lsn - s.bufFree + utCalcAlignDown s.bufFree osFileLogBlockSize ∧
        filesCheckpointNo (logWriteUpToWrite cfg s) b = s.nextCheckpointNo % 256 ^ 4) ∨
      (∃ o, BufBlock s o ∧ b = s.lsn - s.bufFree + o ∧
        filesCheckpointNo (logWriteUpToWrite cfg s) b = logBlockGetCheckpointNo s.buf o) ∨
      (FilesBlock s b ∧
        b < s.lsn - s.bufFree + utCalcAlignDown s.bufNextToWrite osFileLogBlockSize ∧
        filesCheckpointNo (logWriteUpToWrite cfg s) b = filesCheckpointNo s b) := by
  obtain ⟨hbm, hw, hwrap⟩ := hb
  unfold filesCheckpointNo
  rw [RedoLog.logWriteUpToWrite_eq] at hw hwrap ⊢
  dsimp only at hw hwrap ⊢
  rw [logGroupCalcLsnOffset_logGroupSetFields]
  rw [logGroupGetCapacity_logGroupSetFields, max_le_iff] at hwrap
  by_cases hr : writeRange s b = true
  · -- a block of this write, at `o` in the buffer
    obtain ⟨o, rfl, ho, hlo, hle⟩ := writeRange_block hc hbm hr
    have hob := hle.trans (utCalcAlignDown_le _ _)
    have hF : logBlockGetCheckpointNo (writeResult cfg s).1
        (logGroupCalcLsnOffset s.group (s.lsn - s.bufFree + o)) =
          logBlockGetCheckpointNo (writeResult cfg s).2 o :=
      Mem.machRead_congr fun j hj => by
        simpa only [Nat.add_assoc] using writeResult_fst_block cfg hc ho hlo hob hwrap.2
          (show logBlockCheckpointNo + j < osFileLogBlockSize by
            unfold logBlockCheckpointNo osFileLogBlockSize; omega)
    rw [hF, logBlockGetCheckpointNo_writeResult hc ho hle]
    split_ifs with he
    · exact .inl ⟨by rw [he], rfl⟩
    · exact .inr (.inl ⟨o, bufBlock_of_lt ho hlo (lt_of_le_of_ne hle he), rfl, rfl⟩)
  · -- an older block, which this write left alone
    have hw' : s.written b = true := by simpa [hr] using hw
    have hbs : b + 512 ≤ utCalcAlignDown s.writeLsn osFileLogBlockSize :=
      add_le_alignDown_of_written hc hwr hbm hw' hr
    have hwb := hc.arith.writeLsn_block
    have hW : utCalcAlignDown s.writeLsn osFileLogBlockSize = s.writeLsn - s.writeLsn % 512 :=
      utCalcAlignDown_eq _ _
    have hN : utCalcAlignDown s.bufNextToWrite osFileLogBlockSize =
        s.bufNextToWrite - s.bufNextToWrite % 512 := utCalcAlignDown_eq _ _
    refine .inr (.inr ⟨⟨hbm, hw', hwrap.1⟩, by rw [hN]; rw [hW] at hbs; omega,
      Mem.machRead_congr fun j hj => ?_⟩)
    simpa only [Nat.add_assoc] using writeResult_fst_block_of_lt hc.anchor hbm hbs hwrap.2
      (show logBlockCheckpointNo + j < osFileLogBlockSize by
        unfold logBlockCheckpointNo osFileLogBlockSize; omega)

/-- **The write keeps the numbers**: it carries the full blocks of the buffer to the files, adds
its last block with `next_checkpoint_no`, and leaves no full block to be written. -/
theorem CheckpointNos.logWriteUpToWrite (hc : BufferCore s)
    (hwr : ∀ y, s.written y = true → y < s.writeLsn) (hn : s.nextCheckpointNo < 2 ^ 32)
    (h : CheckpointNos s) : CheckpointNos (logWriteUpToWrite cfg s) := by
  have hnext : s.nextCheckpointNo % 256 ^ 4 = s.nextCheckpointNo := Nat.mod_eq_of_lt hn
  have hN : (RedoLog.logWriteUpToWrite cfg s).nextCheckpointNo = s.nextCheckpointNo := by
    rw [RedoLog.logWriteUpToWrite_eq]
  have hB : utCalcAlignDown s.bufFree osFileLogBlockSize = s.bufFree - s.bufFree % 512 :=
    utCalcAlignDown_eq _ _
  have hnB : utCalcAlignDown s.bufNextToWrite osFileLogBlockSize ≤
      utCalcAlignDown s.bufFree osFileLogBlockSize := by
    have hN : utCalcAlignDown s.bufNextToWrite osFileLogBlockSize =
        s.bufNextToWrite - s.bufNextToWrite % 512 := utCalcAlignDown_eq _ _
    have := hc.nbw_le; rw [hB, hN]; omega
  have hno : ∀ o, ¬BufBlock (RedoLog.logWriteUpToWrite cfg s) o := fun o => not_bufBlock <| by
    rw [RedoLog.logWriteUpToWrite_eq]
    dsimp only
    split_ifs <;> exact lt_utCalcAlignDown_add _
  have hle : ∀ b, FilesBlock (RedoLog.logWriteUpToWrite cfg s) b →
      filesCheckpointNo (RedoLog.logWriteUpToWrite cfg s) b ≤ s.nextCheckpointNo := fun b hb => by
    rcases filesCheckpointNo_logWriteUpToWrite hc hwr hb with ⟨-, he⟩ | ⟨o, ho, -, he⟩ | ⟨hb₀, -, he⟩
    · rw [he, hnext]
    · rw [he]; exact h.buf_le o ho
    · rw [he]; exact h.files_le b hb₀
  refine ⟨fun b hb => hN ▸ hle b hb, fun b b' hb hb' hbb => ?_, fun o ho => (hno o ho).elim,
    fun o _ ho => (hno o ho).elim, fun _ o _ ho => (hno o ho).elim⟩
  rcases filesCheckpointNo_logWriteUpToWrite hc hwr hb' with
    ⟨-, he'⟩ | ⟨o', ho', rfl, he'⟩ | ⟨hb₀', hlt', he'⟩
  · -- the last block of the write is past every other
    rw [he', hnext]; exact hle b hb
  · rcases filesCheckpointNo_logWriteUpToWrite hc hwr hb with
      ⟨rfl, -⟩ | ⟨o, ho, rfl, he⟩ | ⟨hb₀, -, he⟩
    · have : o' + 512 ≤ s.bufFree := ho'.2.2
      have : o' % 512 = 0 := ho'.1
      omega
    · rw [he, he']; exact h.buf_mono o o' ho ho' (by omega)
    · rw [he, he']; exact h.files_le_buf b o' hb₀ ho'
  · -- an older block is before every block of the write
    rcases filesCheckpointNo_logWriteUpToWrite hc hwr hb with
      ⟨rfl, -⟩ | ⟨o, ho, rfl, -⟩ | ⟨hb₀, -, he⟩
    · omega
    · have := ho.2.1; omega
    · rw [he, he']; exact h.files_mono b b' hb₀ hb₀' hbb

/-- The reallocation of `log_buffer_extend` keeps only the block of `buf_free`, which is not full,
and leaves the files. -/
theorem CheckpointNos.logBufferExtendMove (h : CheckpointNos s) (len : ℕ) :
    CheckpointNos (logBufferExtendMove cfg s len) := by
  have hno : ∀ o, ¬BufBlock (RedoLog.logBufferExtendMove cfg s len) o := fun o => not_bufBlock <| by
    have hB : utCalcAlignDown s.bufFree osFileLogBlockSize = s.bufFree - s.bufFree % 512 :=
      utCalcAlignDown_eq _ _
    dsimp only [RedoLog.logBufferExtendMove]
    rw [hB]; show _ < _ + 512; omega
  exact ⟨h.files_le, h.files_mono, fun o ho => (hno o ho).elim, fun o _ ho => (hno o ho).elim,
    fun _ o _ ho => (hno o ho).elim⟩

end Write

/-! ### Over every run -/

section Runs

variable {cfg : Config}

theorem FrameStep.checkpointNos {s s' : LogSys} {f f' : Frame} (hs : FrameStep cfg s f s' f')
    (hb : BufferInv s) (hwr : ∀ y, s.written y = true → y < s.writeLsn)
    (hn : s.nextCheckpointNo < 2 ^ 32) (h : CheckpointNos s) : CheckpointNos s' := by
  cases hs with
  | appendWrite => exact h.mtrWrite hb.toBufferCore hn _ _
  | checkpointNames => exact h.mtrWrite hb.toBufferCore hn _ _
  | lockedWrite =>
    unfold logWriteUpToLocked
    split
    · exact CheckpointNos.logWriteUpToWrite
        (hb.of_eq rfl rfl rfl rfl rfl rfl rfl rfl : BufferInv (logWriteUpToClaim s)).toBufferCore hwr hn
        (h.of_eq rfl rfl rfl rfl rfl rfl (fun _ _ => rfl) le_rfl)
    · exact h.logWriteUpToWrite hb.toBufferCore hwr hn
  | extendMove =>
    exact (h.of_eq rfl rfl rfl rfl rfl rfl (fun _ _ => rfl) le_rfl :
      CheckpointNos { s with isExtending := true }).logBufferExtendMove _
  | checkpointIssue =>
    rw [logWriteCheckpointInfo_eq]; exact h.of_eq rfl rfl rfl rfl rfl rfl (fun _ _ => rfl) le_rfl
  | _ => exact h.of_eq rfl rfl rfl rfl rfl rfl (fun _ _ => rfl) le_rfl

/-- Only the completion of a checkpoint moves `next_checkpoint_no`. -/
theorem FrameStep.nextCheckpointNo_eq {s s' : LogSys} {f f' : Frame} (hs : FrameStep cfg s f s' f')
    (hc : BufferCore s) : s'.nextCheckpointNo = s.nextCheckpointNo := by
  rcases hs.checkpoint_cases hc with ⟨hf, -⟩ | ⟨_, _, _, -, -, -, rfl⟩
  · exact hf.nextNo
  · rw [logWriteCheckpointInfo_eq]

theorem Step.checkpointNos {w w' : World} (hs : Step cfg w w') (hb : BufferInv w.log)
    (hwr : ∀ y, w.log.written y = true → y < w.log.writeLsn)
    (hn : w'.log.nextCheckpointNo < 2 ^ 32)
    (h : w.log.nextCheckpointNo < 2 ^ 32 → CheckpointNos w.log) : CheckpointNos w'.log := by
  cases hs with
  | call => exact h hn
  | run _ hf =>
    have hn₀ := (hf.nextCheckpointNo_eq hb.toBufferCore).symm.trans_lt hn
    exact hf.checkpointNos hb hwr hn₀ (h hn₀)
  | land => exact (h hn).of_eq rfl rfl rfl rfl rfl rfl (fun _ _ => rfl) le_rfl
  | complete =>
    rw [logIoCompleteCheckpoint_eq] at hn ⊢
    have hle : w.log.nextCheckpointNo ≤ if w.log.nPendingCheckpointWrites - 1 = 0 then
        w.log.nextCheckpointNo + 1 else w.log.nextCheckpointNo := by
      split_ifs <;> omega
    exact (h (hle.trans_lt hn)).of_eq rfl rfl rfl rfl rfl rfl (fun _ _ => rfl) hle

/-- `log_init` leaves no block written, and no full block in the buffer. -/
theorem checkpointNos_of_isInitial {s : LogSys} (hi : IsInitial cfg s) : CheckpointNos s := by
  obtain ⟨_, _, _, _, _, _, _, hs⟩ := hi
  obtain ⟨_, _, _, _, _, _, _, he⟩ := logCalcMaxAges_eq_some hs
  have hF : ∀ b, ¬FilesBlock s b := fun b hb => by
    rw [he] at hb; exact Bool.false_ne_true hb.2.1
  have hB : ∀ o, ¬BufBlock s o := fun o ho => by
    rw [he] at ho
    have : o + 512 ≤ 12 := ho.2.2
    omega
  exact ⟨fun b hb => (hF b hb).elim, fun b _ hb => (hF b hb).elim, fun o ho => (hB o ho).elim,
    fun o _ ho => (hB o ho).elim, fun b _ hb => (hF b hb).elim⟩

/-- **The checkpoint numbers are in order in every reachable state** whose `next_checkpoint_no`
fits the field. -/
theorem checkpointNos_of_reachable {w : World} (h : Reachable cfg w)
    (hn : w.log.nextCheckpointNo < 2 ^ 32) : CheckpointNos w.log := by
  induction h with
  | init hi => exact checkpointNos_of_isInitial hi.1
  | step hr hs ih => exact hs.checkpointNos hr.bufferInv hr.written_lt hn ih

/-- **The checkpoint numbers of the files never go down along the log.** In every reachable state
whose `next_checkpoint_no` fits the four bytes of the field, for two blocks of the files that the
writes carried, from block boundaries `b ≤ b'` that the writes passed, with no later write a
capacity past `b`: the checkpoint number of the block of `b` is at most that of the block of `b'`,
which is at most `next_checkpoint_no`. -/
theorem logFiles_checkpointNo_sorted {w : World} (h : Reachable cfg w)
    (hn : w.log.nextCheckpointNo < 2 ^ 32) {b b' : ℕ} (hb : b % osFileLogBlockSize = 0)
    (hb' : b' % osFileLogBlockSize = 0) (hw : w.log.written b = true)
    (hw' : w.log.written b' = true) (hbb : b ≤ b')
    (hwrap : w.log.writtenEnd ≤ b + logGroupGetCapacity w.log.group) :
    logBlockGetCheckpointNo w.log.logFiles (logGroupCalcLsnOffset w.log.group b) ≤
        logBlockGetCheckpointNo w.log.logFiles (logGroupCalcLsnOffset w.log.group b') ∧
      logBlockGetCheckpointNo w.log.logFiles (logGroupCalcLsnOffset w.log.group b') ≤
        w.log.nextCheckpointNo :=
  have hI := checkpointNos_of_reachable h hn
  have hB' : FilesBlock w.log b' := ⟨hb', hw', hwrap.trans (by omega)⟩
  ⟨hI.files_mono b b' ⟨hb, hw, hwrap⟩ hB' hbb, hI.files_le b' hB'⟩

set_option maxRecDepth 8000 in
/-- A run of the default deployment: thread `0` appends a record of 500 bytes, which fills the
block at LSN `8192` and starts the next, and writes both with `log_write_up_to(8720, false)`; the
two blocks are in the files, with checkpoint numbers in order. -/
theorem defaultWorld_checkpointNo_sorted : ∃ w : World, Reachable (defaultConfig .fsync) w ∧
    w.log.nextCheckpointNo < 2 ^ 32 ∧ w.log.written 8192 = true ∧ w.log.written 8704 = true ∧
    w.log.writtenEnd ≤ 8192 + logGroupGetCapacity w.log.group ∧
    logBlockGetCheckpointNo w.log.logFiles (logGroupCalcLsnOffset w.log.group 8192) ≤
        logBlockGetCheckpointNo w.log.logFiles (logGroupCalcLsnOffset w.log.group 8704) ∧
      logBlockGetCheckpointNo w.log.logFiles (logGroupCalcLsnOffset w.log.group 8704) ≤
        w.log.nextCheckpointNo := by
  have r1 := (defaultWorld_reachable .fsync).step (.call 0 rfl (.append 500 [List.replicate 500 7]))
  have r2 := r1.step (.run 0 (.appendWrite 0 (by decide) (by decide)))
  have r3 := r2.step (.call 0 rfl (.writeUpTo 8720 false))
  have r4 := r3.step (.run 0 (.dirtyLock (by decide)))
  have r5 := r4.step (.run 0 (.lockedWrite (by decide) (by decide) (by decide)))
  exact ⟨_, r5, by decide, by decide, by decide, by decide,
    logFiles_checkpointNo_sorted r5 (by decide) (by decide) (by decide) (by decide) (by decide)
      (by decide) (by decide)⟩

end Runs

end RedoLog

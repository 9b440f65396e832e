import RedoLog.Recovery

/-!
# File headers

Before a chunk that starts at the first data byte of a file, `log_group_write_buf` writes the
file's header block through `log_group_file_header_flush`: the group's id and the chunk's start
LSN. This module proves what that leaves for a reader of the files over every run: the header
block of every file is either still the zeros the files were created with, or the block
`log_group_file_header_flush` writes, naming the group's id and an LSN that
`log_group_calc_lsn_offset` places at the file's first data byte.

Two facts carry it. A header write for file `k'` leaves the headers of the other files alone,
each file being larger than a block; and a chunk never touches a header, since it lies in the
data area of one file. The group's places never change along a run (`FrameStep.groupFrame`), so an
LSN placed at a file's first data byte stays placed there.

## Main results

* `headerOk_logGroupWriteBuf`: one call of `log_group_write_buf` keeps every header in order.
* `logFiles_fileHeader`: every header is in order in every reachable state.
-/

namespace RedoLog

/-- The header block of file `k` is still zero, or is the block `log_group_file_header_flush`
writes for an LSN the group places at the file's first data byte. -/
def HeaderOk (g : LogGroup) (files : Mem) (k : ℕ) : Prop :=
  files.read (k * g.fileSize) osFileLogBlockSize = List.replicate osFileLogBlockSize 0 ∨
    ∃ lsn, logGroupCalcLsnOffset g lsn = k * g.fileSize + logFileHdrSize ∧
      files.read (k * g.fileSize) osFileLogBlockSize = logFileHeaderBlock g.id lsn

/-- Every file's header is in order. -/
def FileHeaders (s : LogSys) : Prop := ∀ k, HeaderOk s.group s.logFiles k

section
variable {g : LogGroup} {files : Mem} {k : ℕ}

theorem HeaderOk.of_read {files' : Mem} (h : HeaderOk g files k)
    (he : files'.read (k * g.fileSize) osFileLogBlockSize = files.read (k * g.fileSize) osFileLogBlockSize) :
    HeaderOk g files' k := by
  unfold HeaderOk; rw [he]; exact h

/-- Byte `j` of a file's header region is byte `j` of the file. -/
theorem mul_add_mod_fileSize {j : ℕ} (hj : j < g.fileSize) : (k * g.fileSize + j) % g.fileSize = j := by
  rw [Nat.mul_comm, Nat.mul_add_mod, Nat.mod_eq_of_lt hj]

/-- Within one file, offsets go up with the bytes. -/
theorem add_mod_fileSize {off d : ℕ} (h : off % g.fileSize + d < g.fileSize) :
    (off + d) % g.fileSize = off % g.fileSize + d := by
  rw [Nat.add_mod, Nat.mod_eq_of_lt (show d < g.fileSize by omega), Nat.mod_eq_of_lt h]

/-- A write inside the data area of one file leaves every header alone. -/
theorem HeaderOk.write_data {off : ℕ} {data : List UInt8} (h : HeaderOk g files k)
    (hin : logFileHdrSize ≤ off % g.fileSize) (hfit : off % g.fileSize + data.length ≤ g.fileSize) :
    HeaderOk g (files.write off data) k := by
  refine h.of_read (Mem.read_congr fun j hj => Mem.write_of_not_mem ?_)
  have hF := g.logFileHdrSize_lt
  by_contra hc
  rw [not_or, Nat.not_lt, Nat.not_le] at hc
  have hj' : j < g.fileSize := by unfold logFileHdrSize osFileLogBlockSize at *; omega
  have : (off + (k * g.fileSize + j - off)) % g.fileSize = off % g.fileSize + (k * g.fileSize + j - off) :=
    add_mod_fileSize (by omega)
  rw [Nat.add_sub_cancel' hc.1, mul_add_mod_fileSize hj'] at this
  unfold logFileHdrSize osFileLogBlockSize at *; omega

/-- `log_group_file_header_flush` for the file of a place at a file's first data byte: that
file's header now names the LSN of the place, and the other headers are as they were. -/
theorem HeaderOk.headerFlush {start : ℕ} (h : HeaderOk g files k)
    (hs : logGroupCalcLsnOffset g start % g.fileSize = logFileHdrSize) :
    HeaderOk g (logGroupFileHeaderFlush g files (logGroupCalcLsnOffset g start / g.fileSize) start) k := by
  have hF := g.logFileHdrSize_lt
  by_cases hk : k = logGroupCalcLsnOffset g start / g.fileSize
  · subst hk
    refine .inr ⟨start, by rw [← hs, Nat.div_add_mod'], ?_⟩
    rw [RedoLog.logGroupFileHeaderFlush, ← length_logFileHeaderBlock g.id start, Mem.read_write]
  · refine h.of_read (Mem.read_congr fun j hj => Mem.write_of_not_mem ?_)
    rw [length_logFileHeaderBlock]
    by_contra hc
    rw [not_or, Nat.not_lt, Nat.not_le] at hc
    -- the byte would lie in both files
    have hb : osFileLogBlockSize < g.fileSize := by unfold logFileHdrSize osFileLogBlockSize at *; omega
    have e₂ : (k * g.fileSize + j) / g.fileSize = k :=
      Nat.div_eq_of_lt_le (Nat.le_add_right _ _) (by rw [Nat.succ_mul]; omega)
    have e₃ : (k * g.fileSize + j) / g.fileSize = logGroupCalcLsnOffset g start / g.fileSize :=
      Nat.div_eq_of_lt_le hc.1 (by rw [Nat.succ_mul]; omega)
    exact hk (e₂.symm.trans e₃)

/-- One pass of the loop of `log_group_write_buf`: the header, if the pass writes one, then the
chunk. -/
theorem HeaderOk.pass {buf : Mem} {off len start : ℕ} {wh : Bool} (h : HeaderOk g files k) :
    HeaderOk g (Mem.write (if wh && logGroupCalcLsnOffset g start % g.fileSize == logFileHdrSize then
        logGroupFileHeaderFlush g files (logGroupCalcLsnOffset g start / g.fileSize) start
      else files) (logGroupCalcLsnOffset g start)
      (Mem.read buf off (chunkLen g (logGroupCalcLsnOffset g start) len))) k := by
  refine HeaderOk.write_data ?_ (logFileHdrSize_le_calcLsnOffset_mod _)
    (by rw [Mem.length_read]; exact chunkLen_fits _ _ _)
  split_ifs with hc
  · exact h.headerFlush (by simp only [Bool.and_eq_true, beq_iff_eq] at hc; exact hc.2)
  · exact h

/-- **`log_group_write_buf` keeps every header in order**: each header it writes names the
group's id and the start LSN of a chunk that starts at the file's first data byte, and no chunk
touches a header. -/
theorem headerOk_logGroupWriteBuf {alg : List UInt8 → ℕ} {buf : Mem} {off len start : ℕ} {wh : Bool}
    (h : HeaderOk g files k) : HeaderOk g (logGroupWriteBuf alg g files buf off len start wh).1 k := by
  induction files, buf, off, len, start, wh using logGroupWriteBuf.induct alg g with
  | case1 => rw [logGroupWriteBuf, dif_pos rfl]; exact h
  | case2 files buf off len start wh hlen =>
    rename_i hlt ih
    rw [logGroupWriteBuf_of_lt hlen hlt]
    exact ih h.pass
  | case3 files buf off len start wh hlen =>
    rename_i hnlt
    rw [logGroupWriteBuf_of_not_lt hlen hnlt]
    exact h.pass

end

/-! ### Over every run -/

section Runs
variable {cfg : Config} {s s' : LogSys}

/-- A step that keeps the group's id, places and file size keeps the headers it leaves alone. -/
theorem FileHeaders.of_groupFrame (hg : GroupFrame s s') (h : ∀ k, HeaderOk s.group s'.logFiles k) :
    FileHeaders s' := by
  intro k
  have := h k
  unfold HeaderOk at this ⊢
  simp only [hg.fileSize, hg.place, hg.id]
  exact this

theorem FrameStep.fileHeaders {f f' : Frame} (hs : FrameStep cfg s f s' f') (hb : BufferCore s)
    (h : FileHeaders s) : FileHeaders s' := by
  refine .of_groupFrame (hs.groupFrame hb) fun k => ?_
  cases hs with
  | lockedWrite =>
    unfold logWriteUpToLocked
    split <;> (rw [logWriteUpToWrite_eq]; exact headerOk_logGroupWriteBuf (h k))
  | @appendWrite _ strs bpo => rw [(appendStep_mtrWrite hb strs bpo).frame]; exact h k
  | @checkpointNames _ _ _ strs bpo => rw [(appendStep_mtrWrite hb strs bpo).frame]; exact h k
  | checkpointIssue => rw [logWriteCheckpointInfo_eq]; exact h k
  | _ => exact h k

theorem Step.fileHeaders {w w' : World} (hs : Step cfg w w') (hb : BufferCore w.log)
    (h : FileHeaders w.log) : FileHeaders w'.log := by
  cases hs with
  | call => exact h
  | run _ hf => exact hf.fileHeaders hb h
  | land => exact h
  | complete => rw [logIoCompleteCheckpoint_eq]; exact h

/-- `log_init` leaves the files zero. -/
theorem fileHeaders_of_isInitial (hi : IsInitial cfg s) : FileHeaders s := by
  obtain ⟨_, _, _, _, _, _, _, hs⟩ := hi
  obtain ⟨-, -, -, -, -, -, -, rfl⟩ := logCalcMaxAges_eq_some hs
  intro k
  left
  simp [logInit, Mem.read]

theorem fileHeaders_of_reachable {w : World} (h : Reachable cfg w) : FileHeaders w.log := by
  induction h with
  | init hi => exact fileHeaders_of_isInitial hi.1
  | step hr hs ih => exact hs.fileHeaders hr.bufferInv.toBufferCore ih

/-- **Every file header on disk is in order.** In every reachable state, the header block of every
file of the group is either still zero, or the block `log_group_file_header_flush` writes: the
group's id, then an LSN that `log_group_calc_lsn_offset` places at the file's first data byte. -/
theorem logFiles_fileHeader {w : World} (h : Reachable cfg w) (k : ℕ) :
    w.log.logFiles.read (k * w.log.group.fileSize) osFileLogBlockSize =
        List.replicate osFileLogBlockSize 0 ∨
      ∃ lsn, logGroupCalcLsnOffset w.log.group lsn = k * w.log.group.fileSize + logFileHdrSize ∧
        w.log.logFiles.read (k * w.log.group.fileSize) osFileLogBlockSize =
          logFileHeaderBlock w.log.group.id lsn :=
  fileHeaders_of_reachable h k

theorem defaultWorld_fileHeader : ∃ w : World, Reachable (defaultConfig .fsync) w ∧
    w.log.nPendingFlushes = 1 ∧
      (w.log.logFiles.read (0 * w.log.group.fileSize) osFileLogBlockSize =
          List.replicate osFileLogBlockSize 0 ∨
        ∃ lsn, logGroupCalcLsnOffset w.log.group lsn = 0 * w.log.group.fileSize + logFileHdrSize ∧
          w.log.logFiles.read (0 * w.log.group.fileSize) osFileLogBlockSize =
            logFileHeaderBlock w.log.group.id lsn) :=
  let ⟨w, hr, hf⟩ := defaultWorld_writeRun .fsync
  ⟨w, hr, hf, logFiles_fileHeader hr 0⟩

end Runs

end RedoLog

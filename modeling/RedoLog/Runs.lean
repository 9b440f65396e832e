import RedoLog.System

/-!
# The buffer and the files over every run

Two invariants of every reachable state of the concurrent system, whatever the interleaving:

* `bufferInv_of_reachable` — the buffer invariant `BufferInv`: the cursors stand where they may,
  and the buffer holds every appended byte not yet written. Each step keeps it by the lemmas of
  `RedoLog.BufferInv`; the steps that do not touch the buffer keep it because it reads nothing
  else (`BufferInv.of_eq`).
* `FilesHoldLog` — the first group's files hold every appended payload byte below `write_lsn`
  at the place of its LSN, unless a write reached a whole capacity past it. With
  `logGroupReadLogSeg_apply` this is the round trip of the on-disk format,
  `logGroupReadLogSeg_eq_appended`.

A run in which threads call one function after another is one interleaving among the others, so
both hold in particular after any sequence of appends, `log_write_up_to` calls and
`log_buffer_extend` calls.
-/

namespace RedoLog

variable {cfg : Config}

/-! ### The buffer invariant -/

/-- The buffer invariant reads only the cursors, `lsn`, `write_lsn`, the buffer and its size,
the appended bytes and the group. -/
theorem BufferInv.of_eq {s s' : LogSys} (h : BufferInv s) (h1 : s'.lsn = s.lsn)
    (h2 : s'.buf = s.buf) (h3 : s'.bufSize = s.bufSize) (h4 : s'.bufFree = s.bufFree)
    (h5 : s'.bufNextToWrite = s.bufNextToWrite) (h6 : s'.writeLsn = s.writeLsn)
    (h7 : s'.appended = s.appended) (h8 : s'.group = s.group) : BufferInv s' := by
  refine ⟨⟨?_, ?_, ?_, ?_, ?_, ?_, ?_, ?_, ?_, ?_⟩, ?_⟩ <;> simp only [h1, h2, h3, h4, h5, h6, h7, h8]
  exacts [h.nbw_le, h.writeLsn_le, h.free_le_lsn, h.lsn_sub, h.lsn_mod, h.write_mod, h.hdr_le,
    h.lt_trl, h.content, h.anchor, h.free_le]

theorem logWriteUpToLocked_bufferInv {s : LogSys} (h : BufferInv s) (flush : Bool) :
    BufferInv (logWriteUpToLocked cfg s flush) := by
  unfold logWriteUpToLocked
  split
  · exact logWriteUpToWrite_bufferInv (h.of_eq rfl rfl rfl rfl rfl rfl rfl rfl)
  · exact logWriteUpToWrite_bufferInv h

theorem logIoCompleteCheckpoint_bufferInv {s : LogSys} (h : BufferInv s) :
    BufferInv (logIoCompleteCheckpoint s) := by
  rw [logIoCompleteCheckpoint_eq]; exact h.of_eq rfl rfl rfl rfl rfl rfl rfl rfl

theorem FrameStep.bufferInv {s s' : LogSys} {f f' : Frame} (hs : FrameStep cfg s f s' f')
    (h : BufferInv s) : BufferInv s' := by
  cases hs with
  | appendWrite _ hr hlen => exact mtrWrite_bufferInv h hr hlen _
  | checkpointNames _ _ _ hr hlen => exact mtrWrite_bufferInv h hr hlen _
  | lockedWrite => exact logWriteUpToLocked_bufferInv h _
  | extendMove _ hr => exact logBufferExtendMove_bufferInv (h.of_eq rfl rfl rfl rfl rfl rfl rfl rfl) hr _
  | checkpointIssue =>
    rw [logWriteCheckpointInfo_eq]; exact h.of_eq rfl rfl rfl rfl rfl rfl rfl rfl
  | fsync | assign | decrement | setEvent | extendWait | marginCheck | marginRetry =>
    exact h.of_eq rfl rfl rfl rfl rfl rfl rfl rfl
  | _ => exact h

theorem Step.bufferInv {w w' : World} (hs : Step cfg w w') (h : BufferInv w.log) :
    BufferInv w'.log := by
  cases hs with
  | call => exact h
  | run _ hf => exact hf.bufferInv h
  | land => exact h.of_eq rfl rfl rfl rfl rfl rfl rfl rfl
  | complete => exact logIoCompleteCheckpoint_bufferInv (h.of_eq rfl rfl rfl rfl rfl rfl rfl rfl)

/-- The log `log_init` leaves: one block header in the buffer, nothing appended yet. -/
theorem bufferInv_of_isInitial {s : LogSys} (h : IsInitial cfg s) : BufferInv s := by
  obtain ⟨size, g, rest, h16, -, hanchor, -, hs⟩ := h
  obtain ⟨-, -, -, -, -, -, -, rfl⟩ := logCalcMaxAges_eq_some hs
  obtain ⟨hl, ho, hm⟩ := hanchor g (List.mem_cons_self _ _)
  have hF := g.logFileHdrSize_lt
  refine ⟨⟨?_, ?_, ?_, ?_, ?_, ?_, ?_, ?_, fun y hy hlo hhi => ?_, ⟨?_, ?_, hm⟩⟩, ?_⟩ <;>
    simp only [logInit, LogSys.logGroups, hl, ho, utCalcAlignDown_eq, Nat.mod_eq_of_lt hF] at *
  iterate 8 decide
  · -- the header of the first block is the only thing before `lsn`, and it is not payload
    unfold IsPayloadOffset at hy
    simp only [logStartLsn, osFileLogBlockSize, logBlockHdrSize] at *; omega
  · exact le_refl _
  · decide
  · simp only [logBlockHdrSize, osFileLogBlockSize] at *; omega

/-- The buffer invariant along a run, as the later invariants cite it. -/
theorem Reachable.bufferInv {w : World} (h : Reachable cfg w) : BufferInv w.log := by
  induction h with
  | init hi => exact bufferInv_of_isInitial hi.1
  | step _ hs ih => exact hs.bufferInv ih

/-- **The buffer invariant holds in every reachable state.** -/
theorem bufferInv_of_reachable {w : World} (h : Reachable cfg w) : BufferInv w.log :=
  h.bufferInv

/-- A run of the default deployment: thread `0` appends a byte and calls
`log_write_up_to(lsn, true)`, which writes it under the mutex and goes on to its flush. -/
theorem defaultWorld_writeRun (m : SrvUnixFlush) :
    ∃ w : World, Reachable (defaultConfig m) w ∧ w.log.nPendingFlushes = 1 := by
  have r1 := (defaultWorld_reachable m).step (.call 0 rfl (.append 1 [[7]]))
  have r2 := r1.step (.run 0 (.appendWrite 0 (by cases m <;> decide) (by cases m <;> decide)))
  have r3 := r2.step (.call 0 rfl (.writeUpTo 8205 true))
  have r4 := r3.step (.run 0 (.dirtyLock (by cases m <;> decide)))
  exact ⟨_, r4.step (.run 0 (.lockedWrite (by cases m <;> decide) (by cases m <;> decide)
    (by cases m <;> decide))), by cases m <;> rfl⟩

theorem defaultWorld_bufferInv : ∃ w : World, Reachable (defaultConfig .fsync) w ∧
    w.log.nPendingFlushes = 1 ∧ BufferInv w.log :=
  let ⟨w, hr, hf⟩ := defaultWorld_writeRun .fsync
  ⟨w, hr, hf, bufferInv_of_reachable hr⟩

/-! ### The files -/

/-- The files hold every appended payload byte below `write_lsn` at the place of its LSN,
unless the writes reached a whole capacity past it. -/
def FilesHoldLog (s : LogSys) : Prop :=
  ∀ y, IsPayloadOffset y → y < s.writeLsn → s.writtenEnd ≤ y + logGroupGetCapacity s.group →
    s.logFiles (logGroupCalcLsnOffset s.group y) = s.appended y

/-- The write from the block of `write_lsn` reaches at least the end of the block of `lsn`. -/
theorem lsn_le_writeEnd {s : LogSys} (hc : BufferCore s) :
    s.lsn ≤ utCalcAlignDown s.writeLsn osFileLogBlockSize + writeLen cfg s ∧
      utCalcAlignDown s.writeLsn osFileLogBlockSize =
        (s.lsn - s.bufFree) + utCalcAlignDown s.bufNextToWrite osFileLogBlockSize := by
  have hN : utCalcAlignDown s.bufNextToWrite osFileLogBlockSize =
      s.bufNextToWrite - s.bufNextToWrite % 512 := utCalcAlignDown_eq _ _
  have hst : utCalcAlignDown s.writeLsn osFileLogBlockSize =
      (s.lsn - s.bufFree) + utCalcAlignDown s.bufNextToWrite osFileLogBlockSize := by
    rw [utCalcAlignDown_eq, hN]; exact hc.arith.writeLsn_block
  refine ⟨?_, hst⟩
  have hend : utCalcAlign s.bufFree osFileLogBlockSize = s.bufFree - s.bufFree % 512 + 512 :=
    utCalcAlign_bufFree hc
  have := hc.nbw_le; have := hc.free_le_lsn
  unfold writeLen; dsimp only
  omega

/-- The write puts at the place of each LSN it covers, from the block of `write_lsn` to the end of
the write, the byte of the buffer that stands for the LSN, unless the write wrapped a capacity
past it. -/
theorem writeResult_fst_of_lt_writeEnd {s : LogSys} (hc : BufferCore s) {y : ℕ}
    (hlo : utCalcAlignDown s.writeLsn osFileLogBlockSize ≤ y)
    (hhi : y < utCalcAlignDown s.writeLsn osFileLogBlockSize + writeLen cfg s)
    (hwrap : utCalcAlignDown s.writeLsn osFileLogBlockSize + writeLen cfg s ≤
      y + logGroupGetCapacity s.group) :
    (writeResult cfg s).1 (logGroupCalcLsnOffset s.group y) =
      (writeResult cfg s).2 (y - (s.lsn - s.bufFree)) := by
  obtain ⟨-, hst⟩ := @lsn_le_writeEnd cfg s hc
  have hfl := hc.free_le_lsn
  have h : (writeResult cfg s).1 (logGroupCalcLsnOffset s.group
        (utCalcAlignDown s.writeLsn osFileLogBlockSize +
          (y - utCalcAlignDown s.writeLsn osFileLogBlockSize))) =
      (writeResult cfg s).2 (utCalcAlignDown s.bufNextToWrite osFileLogBlockSize +
        (y - utCalcAlignDown s.writeLsn osFileLogBlockSize)) :=
    logGroupWriteBuf_apply _ (by omega) (by omega)
  rwa [Nat.add_sub_cancel' hlo, show utCalcAlignDown s.bufNextToWrite osFileLogBlockSize +
    (y - utCalcAlignDown s.writeLsn osFileLogBlockSize) = y - (s.lsn - s.bufFree) by omega] at h

/-- In particular at every LSN it carries, up to `lsn`. -/
theorem writeResult_fst_of_le {s : LogSys} (hc : BufferCore s) {y : ℕ}
    (hlo : utCalcAlignDown s.writeLsn osFileLogBlockSize ≤ y) (hhi : y < s.lsn)
    (hwrap : utCalcAlignDown s.writeLsn osFileLogBlockSize + writeLen cfg s ≤
      y + logGroupGetCapacity s.group) :
    (writeResult cfg s).1 (logGroupCalcLsnOffset s.group y) =
      (writeResult cfg s).2 (y - (s.lsn - s.bufFree)) :=
  writeResult_fst_of_lt_writeEnd hc hlo (hhi.trans_le (@lsn_le_writeEnd cfg s hc).1) hwrap

/-- The write leaves alone the place of an LSN below its first block that none of its LSNs wraps
onto. -/
theorem writeResult_fst_of_lt {s : LogSys} {y : ℕ}
    (hlt : y < utCalcAlignDown s.writeLsn osFileLogBlockSize)
    (hwrap : utCalcAlignDown s.writeLsn osFileLogBlockSize + writeLen cfg s ≤
      y + logGroupGetCapacity s.group) :
    (writeResult cfg s).1 (logGroupCalcLsnOffset s.group y) =
      s.logFiles (logGroupCalcLsnOffset s.group y) := by
  have hne : ∀ i < writeLen cfg s, logGroupCalcLsnOffset s.group
      (utCalcAlignDown s.writeLsn osFileLogBlockSize + i) ≠ logGroupCalcLsnOffset s.group y :=
    fun i hi => logGroupCalcLsnOffset_ne_of_lt (by omega) (by omega)
  rw [writeResult, logGroupWriteBuf_frame (logFileHdrSize_le_calcLsnOffset_mod _) hne]

/-- **The write puts each byte it carries at the place of its LSN**, and leaves the places of
older LSNs alone unless it reached a capacity past them. -/
theorem logWriteUpToWrite_filesHoldLog {s : LogSys} (hb : BufferInv s) (hf : FilesHoldLog s) :
    FilesHoldLog (logWriteUpToWrite cfg s) := by
  have hc := hb.toBufferCore
  unfold FilesHoldLog
  rw [logWriteUpToWrite_eq]
  dsimp only
  intro y hy hyl hwrap
  rw [logGroupCalcLsnOffset_logGroupSetFields]
  rw [logGroupGetCapacity_logGroupSetFields, max_le_iff] at hwrap
  by_cases hsy : utCalcAlignDown s.writeLsn osFileLogBlockSize ≤ y
  · -- `y` is among the bytes of this write
    have hst := (@lsn_le_writeEnd cfg s hc).2
    have hend := utCalcAlign_bufFree hc
    have hfl := hc.free_le_lsn
    rw [writeResult_fst_of_le hc hsy hyl hwrap.2,
      writeResult_payload hc ((isPayloadOffset_sub hc.base_mod (by omega)).mpr hy)
        (by simp only [osFileLogBlockSize] at hend ⊢; omega), hc.content y hy hsy hyl]
  · -- an older byte, which no LSN of this write wrapped onto
    rw [writeResult_fst_of_lt (by omega) hwrap.2]
    exact hf y hy (by have := hc.writeLsn_le; simp only [utCalcAlignDown_eq] at hsy; omega) hwrap.1

/-- The files' invariant reads only `write_lsn`, how far the writes reached, the group, the files,
and the bytes appended below `write_lsn`. -/
theorem FilesHoldLog.of_eq {s s' : LogSys} (h : FilesHoldLog s) (h1 : s'.writeLsn = s.writeLsn)
    (h2 : s'.writtenEnd = s.writtenEnd) (h3 : s'.group = s.group) (h4 : s'.logFiles = s.logFiles)
    (h5 : ∀ y < s.writeLsn, s'.appended y = s.appended y) : FilesHoldLog s' := by
  intro y hy hyl hw
  rw [h1] at hyl; rw [h2, h3] at hw
  rw [h3, h4, h5 y hyl]
  exact h y hy hyl hw

theorem mtrWrite_filesHoldLog {s : LogSys} (hb : BufferInv s) (h : FilesHoldLog s)
    (strs : List (List UInt8)) (bufPoolOldest : ℕ) : FilesHoldLog (mtrWrite s strs bufPoolOldest) := by
  have ha := appendStep_mtrWrite hb.toBufferCore strs bufPoolOldest
  have hwl := hb.writeLsn_le
  have hfr := ha.frame
  exact h.of_eq (by rw [hfr]) (by rw [hfr]) (by rw [hfr]) (by rw [hfr])
    fun y hy => ha.appended_of_lt y (by omega)

theorem FrameStep.filesHoldLog {s s' : LogSys} {f f' : Frame} (hs : FrameStep cfg s f s' f')
    (hb : BufferInv s) (h : FilesHoldLog s) : FilesHoldLog s' := by
  cases hs with
  | appendWrite => exact mtrWrite_filesHoldLog hb h _ _
  | checkpointNames => exact mtrWrite_filesHoldLog hb h _ _
  | lockedWrite =>
    unfold logWriteUpToLocked
    split
    · exact logWriteUpToWrite_filesHoldLog (hb.of_eq rfl rfl rfl rfl rfl rfl rfl rfl)
        (h.of_eq rfl rfl rfl rfl fun _ _ => rfl)
    · exact logWriteUpToWrite_filesHoldLog hb h
  | extendMove => exact h.of_eq rfl rfl rfl rfl fun _ _ => rfl
  | checkpointIssue =>
    rw [logWriteCheckpointInfo_eq]; exact h.of_eq rfl rfl rfl rfl fun _ _ => rfl
  | fsync | assign | decrement | setEvent | extendWait => exact h.of_eq rfl rfl rfl rfl fun _ _ => rfl
  | _ => exact h

theorem Step.filesHoldLog {w w' : World} (hs : Step cfg w w') (hb : BufferInv w.log)
    (h : FilesHoldLog w.log) : FilesHoldLog w'.log := by
  cases hs with
  | call => exact h
  | run _ hf => exact hf.filesHoldLog hb h
  | land => exact h.of_eq rfl rfl rfl rfl fun _ _ => rfl
  | complete => rw [logIoCompleteCheckpoint_eq]; exact h.of_eq rfl rfl rfl rfl fun _ _ => rfl

/-- The log files start zero-filled, as the bytes appended before the start. -/
theorem filesHoldLog_of_isInitial {s : LogSys} (h : IsInitial cfg s) : FilesHoldLog s := by
  obtain ⟨_, _, _, _, _, _, _, hs⟩ := h
  obtain ⟨-, -, -, -, -, -, -, rfl⟩ := logCalcMaxAges_eq_some hs
  exact fun _ _ _ _ => rfl

theorem filesHoldLog_of_reachable {w : World} (h : Reachable cfg w) : FilesHoldLog w.log := by
  induction h with
  | init hi => exact filesHoldLog_of_isInitial hi.1
  | step hr hs ih => exact hs.filesHoldLog hr.bufferInv ih

/-- **Round trip of the on-disk format.** In every reachable state, reading back a window of
LSNs below `write_lsn` that no write has wrapped onto (no write reached `start` plus a capacity)
gives, at every payload LSN, the byte `log_write_low` appended there. -/
theorem logGroupReadLogSeg_eq_appended {w : World} (h : Reachable cfg w) {start endLsn : ℕ}
    (hend : endLsn ≤ w.log.writeLsn)
    (hwrap : w.log.writtenEnd ≤ start + logGroupGetCapacity w.log.group) (buf : Mem) {x : ℕ}
    (hx : IsPayloadOffset x) (hsx : start ≤ x) (hxe : x < endLsn) :
    logGroupReadLogSeg w.log.group w.log.logFiles buf 0 start endLsn (x - start) =
      w.log.appended x := by
  have h' : logGroupReadLogSeg w.log.group w.log.logFiles buf 0 start endLsn (0 + (x - start)) =
      w.log.logFiles (logGroupCalcLsnOffset w.log.group (start + (x - start))) :=
    logGroupReadLogSeg_apply (x - start) (by omega)
  rw [Nat.zero_add, Nat.add_sub_cancel' hsx] at h'
  rw [h']
  exact filesHoldLog_of_reachable h x hx (by omega) (by omega)

/-- A run of the default deployment: thread `0` appends the byte `7` at LSN `8204` and writes it
with `log_write_up_to(8205, false)`; reading `[8204, 8205)` back gives it. -/
theorem defaultWorld_logGroupReadLogSeg :
    logGroupReadLogSeg
        (logWriteUpToLocked (defaultConfig .fsync) (mtrWrite (defaultWorld .fsync).log [[7]] 0) false).group
        (logWriteUpToLocked (defaultConfig .fsync) (mtrWrite (defaultWorld .fsync).log [[7]] 0) false).logFiles
        (fun _ => 0) 0 8204 8205 (8204 - 8204) =
      (logWriteUpToLocked (defaultConfig .fsync) (mtrWrite (defaultWorld .fsync).log [[7]] 0) false).appended
        8204 := by
  have r1 := Reachable.step (defaultWorld_reachable .fsync) (.call 0 rfl (.append 1 [[7]]))
  have r2 := r1.step (.run 0 (.appendWrite 0 (by decide) (by decide)))
  have r3 := r2.step (.call 0 rfl (.writeUpTo 8205 false))
  have r4 := r3.step (.run 0 (.dirtyLock (by decide)))
  have r5 := r4.step (.run 0 (.lockedWrite (by decide) (by decide) (by decide)))
  exact logGroupReadLogSeg_eq_appended r5 (by decide) (by decide) _ (by decide) le_rfl (by decide)

end RedoLog

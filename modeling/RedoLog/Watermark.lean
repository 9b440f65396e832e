import RedoLog.Flush

/-!
# The LSN watermarks

`flushed_to_disk_lsn ≤ write_lsn ≤ lsn` in every reachable state, under every flush method
(`flushedToDiskLsn_le_writeLsn`), and `write_lsn` never decreases (`writeLsn_le_of_step`).

`flushed_to_disk_lsn` can decrease. It is written in two places: under the mutex, at the end of
the write, where `O_DSYNC` and `ALL_O_DIRECT` set it to `write_lsn` (line 1420); and outside the
mutex, after `fil_flush`, where the flusher sets it to the `current_flush_lsn` it claimed
(line 1441). `O_DSYNC` skips the `fil_flush`, but `ALL_O_DIRECT` does not: a write by another
thread between the flusher's `log_mutex_exit` and its assignment moves `flushed_to_disk_lsn` past
`current_flush_lsn`, and the assignment moves it back. `flushedToDiskLsn_decreases` is such a run.
-/

namespace RedoLog

variable {cfg : Config}

/-- **P1.** In every reachable state `flushed_to_disk_lsn ≤ write_lsn ≤ lsn`. -/
theorem flushedToDiskLsn_le_writeLsn {w : World} (h : Reachable cfg w) :
    w.log.flushedToDiskLsn ≤ w.log.writeLsn ∧ w.log.writeLsn ≤ w.log.lsn :=
  ⟨(flushInv_of_reachable h).flushed_le, h.bufferInv.writeLsn_le⟩

theorem defaultWorld_flushedToDiskLsn_le : ∃ w : World, Reachable (defaultConfig .allODirect) w ∧
    w.log.nPendingFlushes = 1 ∧
    w.log.flushedToDiskLsn ≤ w.log.writeLsn ∧ w.log.writeLsn ≤ w.log.lsn :=
  let ⟨w, hr, hf⟩ := defaultWorld_writeRun .allODirect
  ⟨w, hr, hf, flushedToDiskLsn_le_writeLsn hr⟩

/-- Only the write under the mutex moves `write_lsn`, and it moves it to `lsn`. -/
theorem FrameStep.writeLsn_le {s s' : LogSys} {f f' : Frame} (hb : BufferCore s)
    (hs : FrameStep cfg s f s' f') : s.writeLsn ≤ s'.writeLsn := by
  cases hs with
  | appendWrite bpo => exact (flushFrame_mtrWrite hb _ bpo).writeLsn.ge
  | checkpointNames bpo => exact (flushFrame_mtrWrite hb _ bpo).writeLsn.ge
  | lockedWrite => simpa using hb.writeLsn_le
  | extendMove => exact (flushFrame_logBufferExtendMove _ _ _).writeLsn.ge
  | checkpointIssue => exact (flushFrame_logWriteCheckpointInfo _ _ _).writeLsn.ge
  | _ => exact le_rfl

/-- **`write_lsn` never decreases** from one reachable state to the next. -/
theorem writeLsn_le_of_step {w w' : World} (h : Reachable cfg w) (hs : Step cfg w w') :
    w.log.writeLsn ≤ w'.log.writeLsn := by
  cases hs with
  | call => exact le_rfl
  | run t hs => exact hs.writeLsn_le h.bufferInv.toBufferCore
  | land i _ => exact le_rfl
  | complete => exact (flushFrame_logIoCompleteCheckpoint w.log).writeLsn.ge

theorem defaultWorld_writeLsn_le :
    (defaultWorld .fsync).log.writeLsn ≤
      (logWriteUpToLocked (defaultConfig .fsync) (defaultWorld .fsync).log false).writeLsn := by
  have r1 := Reachable.step (defaultWorld_reachable .fsync)
    (.call 0 rfl (.writeUpTo (defaultWorld .fsync).log.lsn false))
  have r2 := r1.step (.run 0 (.dirtyLock (by decide)))
  exact writeLsn_le_of_step r2 (.run 0 (.lockedWrite (by decide) (by decide) (by decide)))

/-- **`flushed_to_disk_lsn` can decrease** under `ALL_O_DIRECT`. Thread `0` claims the flush of
`lsn` and writes, which sets `flushed_to_disk_lsn` to `lsn`; thread `1` appends a byte; thread `2`
writes it without a flush, which sets `flushed_to_disk_lsn` to the new `lsn`; thread `0` ends its
`fil_flush` and assigns the `current_flush_lsn` it claimed, one less. -/
theorem flushedToDiskLsn_decreases :
    ∃ w w' : World, Reachable (defaultConfig .allODirect) w ∧ Step (defaultConfig .allODirect) w w' ∧
      w'.log.flushedToDiskLsn < w.log.flushedToDiskLsn := by
  -- thread 0: `log_write_up_to(lsn, true)` claims the flush and writes
  have r1 := Reachable.step (defaultWorld_reachable .allODirect)
    (.call 0 rfl (.writeUpTo (defaultWorld .allODirect).log.lsn true))
  have r2 := r1.step (.run 0 (.dirtyLock (by decide)))
  have r3 := r2.step (.run 0 (.lockedWrite (by decide) (by decide) (by decide)))
  -- thread 1 appends one byte
  have r4 := r3.step (.call 1 rfl (.append 1 [[0]]))
  have r5 := r4.step (.run 1 (.appendWrite 0 (by decide) (by decide)))
  -- thread 2: `log_write_up_to(lsn, false)` writes it
  have r6 := r5.step (.call 2 rfl (.writeUpTo 8205 false))
  have r7 := r6.step (.run 2 (.dirtyLock (by decide)))
  have r8 := r7.step (.run 2 (.lockedWrite (by decide) (by decide) (by decide)))
  -- thread 0 goes on with its flush, and assigns the `current_flush_lsn` it claimed
  have r9 := r8.step (.run 0 (.assertFsync (by decide) (by decide)))
  have r10 := r9.step (.run 0 .fsync)
  exact ⟨_, _, r10, .run 0 .assign, by decide⟩

end RedoLog

import RedoLog.Group

/-!
# Checkpoint writes

The functions of `log0log.cc` that issue and complete a checkpoint batch: `log_group_checkpoint`
writes the checkpoint block of one group to the slot the checkpoint number selects, as an
asynchronous write; `log_write_checkpoint_info` issues one such write per group;
`log_io_complete_checkpoint` runs once per completed write and, after the last one of the
batch, `log_complete_checkpoint` advances the checkpoint number and `last_checkpoint_lsn`.

The asynchronous writes are the list `checkpointWrites` of `LogSys`. A write reaches the disk
(`landCheckpointWrite`) at a time of its own, in any order; its completion routine runs later
still, counted by `checkpointWritesLanded`.

`checkpoint_lock` is an rw-lock that a batch holds in exclusive mode from its first write to its
completion, and that `log_checkpoint(true, _)` takes and releases in shared mode to wait for the
batch. The model keeps whether it is held exclusively; the shared lock and unlock of the waiter
are one step, taken when the lock is free.
-/

namespace RedoLog

/-- `log_buf_pool_get_oldest_modification`, given what `buf_pool_get_oldest_modification`
returns: the LSN of the oldest modification of a dirty page, or `lsn` when there is none. -/
def logBufPoolGetOldestModification (s : LogSys) (bufPoolOldest : ℕ) : ℕ :=
  if bufPoolOldest = 0 then s.lsn else bufPoolOldest

theorem logBufPoolGetOldestModification_le {s : LogSys} {bufPoolOldest : ℕ}
    (h : bufPoolOldest ≤ s.lsn) : logBufPoolGetOldestModification s bufPoolOldest ≤ s.lsn := by
  unfold logBufPoolGetOldestModification; split <;> omega

/-- Consecutive checkpoint numbers go to different slots. -/
theorem CheckpointField.ofNo_succ_ne (no : ℕ) : CheckpointField.ofNo (no + 1) ≠ .ofNo no := by
  unfold CheckpointField.ofNo; split_ifs <;> first | omega | decide

/-- The checkpoint block `log_group_checkpoint` builds for group `g` in its `checkpoint_buf`. -/
def logGroupCheckpointInfo (s : LogSys) (g : LogGroup) : CheckpointInfo :=
  { checkpointNo := s.nextCheckpointNo
    checkpointLsn := s.nextCheckpointLsn
    lsnOffset := logGroupCalcLsnOffset g s.nextCheckpointLsn
    logBufSize := s.bufSize
    archivedLsn := lsnMax
    groupInfo := s.logGroups.map fun g2 => (g2.id, g2.archivedFileNo) }

/-- `log_group_checkpoint(group)`: the first write of a batch takes `checkpoint_lock` in
exclusive mode; the block goes to `LOG_CHECKPOINT_2` for an odd checkpoint number, else to
`LOG_CHECKPOINT_1`. -/
def logGroupCheckpoint (s : LogSys) (g : LogGroup) : LogSys :=
  { s with
    nPendingCheckpointWrites := s.nPendingCheckpointWrites + 1
    checkpointLock := if s.nPendingCheckpointWrites = 0 then true else s.checkpointLock
    checkpointWrites := s.checkpointWrites ++
      [⟨g.id, CheckpointField.ofNo s.nextCheckpointNo, logGroupCheckpointInfo s g⟩] }

/-- The issue of a batch in `log_write_checkpoint_info`: `log_group_checkpoint` for each group,
under the log mutex. -/
def logWriteCheckpointInfo (s : LogSys) : LogSys := s.logGroups.foldl logGroupCheckpoint s

/-- `log_complete_checkpoint`. -/
def logCompleteCheckpoint (s : LogSys) : LogSys :=
  { s with
    nextCheckpointNo := s.nextCheckpointNo + 1
    lastCheckpointLsn := s.nextCheckpointLsn
    checkpointLock := false }

/-- `log_io_complete_checkpoint`: the completion routine of one checkpoint write. -/
def logIoCompleteCheckpoint (s : LogSys) : LogSys :=
  let s := { s with nPendingCheckpointWrites := s.nPendingCheckpointWrites - 1 }
  if s.nPendingCheckpointWrites = 0 then logCompleteCheckpoint s else s

/-- The checkpoint write `cw`, at index `i` of the writes in flight, reaches its slot. -/
def landCheckpointWrite (s : LogSys) (i : ℕ) (cw : CheckpointWrite) : LogSys :=
  { s with
    checkpointSlots := fun id f =>
      if id = cw.groupId ∧ f = cw.field then some cw.info else s.checkpointSlots id f
    checkpointWrites := s.checkpointWrites.eraseIdx i
    checkpointWritesLanded := s.checkpointWritesLanded + 1 }

/-! ### The batch, field by field -/

/-- `log_group_checkpoint` over a list of groups, in one update. -/
theorem foldl_logGroupCheckpoint (gs : List LogGroup) (s : LogSys) :
    gs.foldl logGroupCheckpoint s =
      { s with
        nPendingCheckpointWrites := s.nPendingCheckpointWrites + gs.length
        checkpointLock := if s.nPendingCheckpointWrites = 0 ∧ 0 < gs.length then true
          else s.checkpointLock
        checkpointWrites := s.checkpointWrites ++ gs.map fun g =>
          ⟨g.id, CheckpointField.ofNo s.nextCheckpointNo, logGroupCheckpointInfo s g⟩ } := by
  induction gs generalizing s with
  | nil => simp
  | cons g gs ih =>
    rw [List.foldl_cons, ih]
    simp only [logGroupCheckpoint, List.length_cons, List.map_cons, List.append_assoc,
      List.singleton_append, Nat.add_eq_zero, Nat.one_ne_zero, and_false, false_and, if_false,
      Nat.zero_lt_succ, and_true, Nat.add_assoc, Nat.add_comm 1]
    rfl

/-- Issuing a batch changes only the pending count, the lock and the writes in flight. -/
theorem logWriteCheckpointInfo_eq (s : LogSys) :
    logWriteCheckpointInfo s =
      { s with
        nPendingCheckpointWrites := s.nPendingCheckpointWrites + s.logGroups.length
        checkpointLock := if s.nPendingCheckpointWrites = 0 then true else s.checkpointLock
        checkpointWrites := s.checkpointWrites ++ s.logGroups.map fun g =>
          ⟨g.id, CheckpointField.ofNo s.nextCheckpointNo, logGroupCheckpointInfo s g⟩ } := by
  rw [logWriteCheckpointInfo, foldl_logGroupCheckpoint]
  simp [LogSys.logGroups]

/-- The completion routine, field by field: the last write of a batch completes it. -/
theorem logIoCompleteCheckpoint_eq (s : LogSys) :
    logIoCompleteCheckpoint s =
      { s with
        nPendingCheckpointWrites := s.nPendingCheckpointWrites - 1
        nextCheckpointNo := if s.nPendingCheckpointWrites - 1 = 0 then s.nextCheckpointNo + 1
          else s.nextCheckpointNo
        lastCheckpointLsn := if s.nPendingCheckpointWrites - 1 = 0 then s.nextCheckpointLsn
          else s.lastCheckpointLsn
        checkpointLock := if s.nPendingCheckpointWrites - 1 = 0 then false else s.checkpointLock } := by
  unfold logIoCompleteCheckpoint logCompleteCheckpoint
  dsimp only
  split_ifs <;> rfl

end RedoLog

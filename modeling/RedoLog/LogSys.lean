import RedoLog.Block

/-!
# The log system state

The state the code keeps in the global `log_sys`, its log groups, the configuration it reads from
`srv_*` variables, and the two pieces of disk state the log writes: the data area of the first
group's log files and the checkpoint slots of every group.

`LogSys` is flat: one field per field of `log_t` that a modelled function reads or writes, plus
the disk, plus ghost fields that `log_t` does not have and no modelled function reads: `appended`
records the byte that `log_write_low` appended at each LSN, `written` and `durable` the LSNs
whose byte has been passed to the files and made durable, `writtenEnd` how far the writes
have reached, and `checkpointWriteAlways` which kind of call issued the latest checkpoint batch. The fields of `log_t` that no modelled function reads (statistics, monitor
counters, the archive buffers) are left out.

The list `log_sys->log_groups` is kept as its first element `group`, the one `log_write_up_to`
writes to, and the rest `groupsRest`: the code dereferences the first group unconditionally, and
this way the model cannot be in a state without one.

## Main definitions

* `Config` — the deployment's constants: page size, write-ahead size, flush method, checksum.
* `LogGroup` — a group: its identity, its geometry with the invariants `log_group_init`'s callers
  guarantee, and its LSN anchor `(lsn, lsnOffset)`.
* `LogSys` — the global state.
* `logInit`, `logGroupInit`, `logCalcMaxAges` — the start of a run.
-/

namespace RedoLog

/-- `srv_unix_file_flush_method`. -/
inductive SrvUnixFlush
  | fsync
  | littlesync
  | nosync
  | oDsync
  | oDirect
  | allODirect
  | oDirectNoFsync
  deriving DecidableEq, Repr

/-- The flush methods under which `log_write_up_to` treats a completed write as durable:
`O_DSYNC` and `ALL_O_DIRECT` (line 1414). -/
def SrvUnixFlush.writeIsDurable : SrvUnixFlush → Bool
  | .oDsync | .allODirect => true
  | _ => false

/-- The deployment's configuration: the `srv_*` globals and compile-time choices the log reads.
Each field's constraint is the one the server's startup checks impose. -/
structure Config where
  /-- `UNIV_PAGE_SIZE`. -/
  univPageSize : ℕ
  /-- `srv_log_write_ahead_size`. -/
  srvLogWriteAheadSize : ℕ
  /-- `srv_unix_file_flush_method`. -/
  srvUnixFileFlushMethod : SrvUnixFlush
  /-- `thd_flush_log_at_trx_commit(NULL)`, read by the checkpoint completion. -/
  flushLogAtTrxCommit : ℕ
  /-- `srv_thread_concurrency`. -/
  srvThreadConcurrency : ℕ
  /-- `log_checksum_algorithm_ptr`: the checksum of the first 508 bytes of a block. -/
  logChecksumAlgorithm : List UInt8 → ℕ
  /-- The page size is a power of two from 4 KiB to 64 KiB. -/
  univPageSize_eq : ∃ k, 12 ≤ k ∧ k ≤ 16 ∧ univPageSize = 2 ^ k
  /-- The write-ahead size is a power of two from one block to one page. -/
  srvLogWriteAheadSize_eq : ∃ k, 9 ≤ k ∧ srvLogWriteAheadSize = 2 ^ k ∧ srvLogWriteAheadSize ≤ univPageSize

/-- `LOG_BUFFER_SIZE`: `srv_log_buffer_size` counts pages. -/
def Config.logBufferSize (cfg : Config) (srvLogBufferSize : ℕ) : ℕ := srvLogBufferSize * cfg.univPageSize

theorem Config.block_le_univPageSize (cfg : Config) : osFileLogBlockSize ≤ cfg.univPageSize := by
  obtain ⟨k, hk, -, he⟩ := cfg.univPageSize_eq
  rw [he, osFileLogBlockSize]
  calc 512 = 2 ^ 9 := rfl
    _ ≤ 2 ^ k := Nat.pow_le_pow_right (by decide) (by omega)

/-- A log group (`log_group_t`), with the fields a modelled function reads. Its geometry carries
the facts every offset computation needs: at least one file, each longer than its header. That the
files are whole blocks, as the server sizes them in pages, is one of the anchor conditions
(`LogGroup.AnchorOk`), which only the block placement needs. -/
structure LogGroup where
  /-- `id`. -/
  id : ℕ
  /-- `n_files`. -/
  nFiles : ℕ
  /-- `file_size`, header included. -/
  fileSize : ℕ
  /-- `lsn`: the LSN of the anchor. -/
  lsn : ℕ
  /-- `lsn_offset`: the real offset of the anchor. -/
  lsnOffset : ℕ
  /-- `archived_file_no`, reported in checkpoint blocks. -/
  archivedFileNo : ℕ
  nFiles_pos : 0 < nFiles
  logFileHdrSize_lt : logFileHdrSize < fileSize

/-- `log_group_get_capacity`: the bytes of the group's files outside their headers. -/
def logGroupGetCapacity (g : LogGroup) : ℕ := (g.fileSize - logFileHdrSize) * g.nFiles

/-- `log_group_init`: a group of `nFiles` files of `fileSize` bytes anchored at the start LSN. -/
def logGroupInit (id nFiles fileSize : ℕ) (hn : 0 < nFiles) (hf : logFileHdrSize < fileSize)
    (_hm : fileSize % osFileLogBlockSize = 0) : LogGroup :=
  { id, nFiles, fileSize, lsn := logStartLsn, lsnOffset := logFileHdrSize,
    archivedFileNo := logStartLsn, nFiles_pos := hn, logFileHdrSize_lt := hf }

/-- An `os_event_t`. Modelled from the spec (§5: the flush event is edge-triggered): a wait that
starts while the event is reset ends at the next set, even when the event is reset again before
the waiter runs; the signal count records that edge, as InnoDB's events do. -/
structure OsEvent where
  isSet : Bool
  signalCount : ℕ
  deriving DecidableEq, Repr

/-- `os_event_set`. -/
def OsEvent.set (e : OsEvent) : OsEvent := if e.isSet then e else ⟨true, e.signalCount + 1⟩

/-- `os_event_reset`. -/
def OsEvent.reset (e : OsEvent) : OsEvent := { e with isSet := false }

@[simp] theorem OsEvent.set_isSet (e : OsEvent) : e.set.isSet = true := by
  unfold OsEvent.set; split <;> simp_all

@[simp] theorem OsEvent.reset_isSet (e : OsEvent) : e.reset.isSet = false := rfl

/-- The two checkpoint slots of a log file header, `LOG_CHECKPOINT_1` and `LOG_CHECKPOINT_2`. -/
inductive CheckpointField
  | one
  | two
  deriving DecidableEq, Repr

/-- The slot `log_group_checkpoint` writes checkpoint number `no` to:
`no & 1 ? LOG_CHECKPOINT_2 : LOG_CHECKPOINT_1`. -/
def CheckpointField.ofNo (no : ℕ) : CheckpointField := if no % 2 = 1 then .two else .one

/-- The fields `log_group_checkpoint` writes into a checkpoint block. The two checksums are
folds of these fields and carry nothing more; they are left out. -/
structure CheckpointInfo where
  /-- `LOG_CHECKPOINT_NO`. -/
  checkpointNo : ℕ
  /-- `LOG_CHECKPOINT_LSN`. -/
  checkpointLsn : ℕ
  /-- `LOG_CHECKPOINT_OFFSET_LOW32` and `_HIGH32`. -/
  lsnOffset : ℕ
  /-- `LOG_CHECKPOINT_LOG_BUF_SIZE`. -/
  logBufSize : ℕ
  /-- `LOG_CHECKPOINT_ARCHIVED_LSN`: `LSN_MAX`, archiving being off. -/
  archivedLsn : ℕ
  /-- The group info array: `archived_file_no` for each group id. -/
  groupInfo : List (ℕ × ℕ)
  deriving DecidableEq, Repr

/-- A checkpoint block write issued by `log_group_checkpoint` and not yet on disk. -/
structure CheckpointWrite where
  groupId : ℕ
  field : CheckpointField
  info : CheckpointInfo
  deriving DecidableEq, Repr

/-- The global log state `log_sys`, with the disk it writes. -/
structure LogSys where
  /-- `lsn`: the next LSN to assign. -/
  lsn : ℕ
  /-- `buf`. -/
  buf : Mem
  /-- `buf_size`. -/
  bufSize : ℕ
  /-- `buf_free`: the append cursor. -/
  bufFree : ℕ
  /-- `buf_next_to_write`: the flush cursor. -/
  bufNextToWrite : ℕ
  /-- `max_buf_free`. -/
  maxBufFree : ℕ
  /-- `write_end_offset`. -/
  writeEndOffset : ℕ
  /-- `write_lsn`. -/
  writeLsn : ℕ
  /-- `current_flush_lsn`. -/
  currentFlushLsn : ℕ
  /-- `flushed_to_disk_lsn`. -/
  flushedToDiskLsn : ℕ
  /-- `n_pending_flushes`. -/
  nPendingFlushes : ℕ
  /-- `flush_event`. -/
  flushEvent : OsEvent
  /-- `check_flush_or_checkpoint`. -/
  checkFlushOrCheckpoint : Bool
  /-- `is_extending`. -/
  isExtending : Bool
  /-- `last_checkpoint_lsn`. -/
  lastCheckpointLsn : ℕ
  /-- `next_checkpoint_lsn`. -/
  nextCheckpointLsn : ℕ
  /-- `next_checkpoint_no`. -/
  nextCheckpointNo : ℕ
  /-- `n_pending_checkpoint_writes`. -/
  nPendingCheckpointWrites : ℕ
  /-- `checkpoint_lock`, held in exclusive mode. -/
  checkpointLock : Bool
  /-- `log_group_capacity`. -/
  logGroupCapacity : ℕ
  /-- `max_modified_age_async`. -/
  maxModifiedAgeAsync : ℕ
  /-- `max_modified_age_sync`. -/
  maxModifiedAgeSync : ℕ
  /-- `max_checkpoint_age_async`. -/
  maxCheckpointAgeAsync : ℕ
  /-- `max_checkpoint_age`. -/
  maxCheckpointAge : ℕ
  /-- `max_archived_lsn_age`. -/
  maxArchivedLsnAge : ℕ
  /-- `max_archived_lsn_age_async`. -/
  maxArchivedLsnAgeAsync : ℕ
  /-- The first group of `log_groups`. -/
  group : LogGroup
  /-- The other groups of `log_groups`. -/
  groupsRest : List LogGroup
  /-- The global `srv_log_buffer_size`, in pages. -/
  srvLogBufferSize : ℕ
  /-- Disk: the first group's log files, by real offset. -/
  logFiles : Mem
  /-- Disk: the checkpoint slots of each group, by group id. -/
  checkpointSlots : ℕ → CheckpointField → Option CheckpointInfo
  /-- Checkpoint block writes issued and not yet on disk. -/
  checkpointWrites : List CheckpointWrite
  /-- Checkpoint block writes on disk whose completion routine has not run yet. -/
  checkpointWritesLanded : ℕ
  /-- Ghost: the byte `log_write_low` appended at each LSN. -/
  appended : Mem
  /-- Ghost: the LSNs whose log byte `log_group_write_buf` has passed to the files. -/
  written : ℕ → Bool
  /-- Ghost: the LSNs whose log byte is durable: written, then covered by a `fil_flush` that
  started after the write, or written under a flush method without OS buffering. -/
  durable : ℕ → Bool
  /-- Ghost: the end of the LSN range the writes to the files have covered, padding included. -/
  writtenEnd : ℕ
  /-- Ghost: the `write_always` flag of the `log_checkpoint` call that issued the latest
  checkpoint batch. -/
  checkpointWriteAlways : Bool

/-- `log_sys->log_groups`. -/
def LogSys.logGroups (s : LogSys) : List LogGroup := s.group :: s.groupsRest

/-- `log_init` followed by `log_group_init` for each group: the state before
`log_calc_max_ages`. The log buffer is zero-filled, the first block gets its header, and the
first record group starts right after it. -/
def logInit (cfg : Config) (srvLogBufferSize : ℕ) (g : LogGroup) (rest : List LogGroup) : LogSys :=
  let bufSize := cfg.logBufferSize srvLogBufferSize
  { lsn := logStartLsn + logBlockHdrSize
    buf := logBlockSetFirstRecGroup (logBlockInit (fun _ => 0) 0 logStartLsn) 0 logBlockHdrSize
    bufSize
    bufFree := logBlockHdrSize
    bufNextToWrite := 0
    maxBufFree := ulintSub (bufSize / logBufFlushRatio) (logBufFlushMargin cfg.univPageSize)
    writeEndOffset := 0
    writeLsn := logStartLsn
    currentFlushLsn := 0
    flushedToDiskLsn := 0
    nPendingFlushes := 0
    flushEvent := OsEvent.set ⟨false, 0⟩
    checkFlushOrCheckpoint := true
    isExtending := false
    lastCheckpointLsn := logStartLsn
    nextCheckpointLsn := 0
    nextCheckpointNo := 0
    nPendingCheckpointWrites := 0
    checkpointLock := false
    logGroupCapacity := 0
    maxModifiedAgeAsync := 0
    maxModifiedAgeSync := 0
    maxCheckpointAgeAsync := 0
    maxCheckpointAge := 0
    maxArchivedLsnAge := 0
    maxArchivedLsnAgeAsync := 0
    group := g
    groupsRest := rest
    srvLogBufferSize
    logFiles := fun _ => 0
    checkpointSlots := fun _ _ => none
    checkpointWrites := []
    checkpointWritesLanded := 0
    appended := fun _ => 0
    written := fun _ => false
    durable := fun _ => false
    writtenEnd := 0
    checkpointWriteAlways := false }

/-- `LOG_CHECKPOINT_FREE_PER_THREAD`. -/
def logCheckpointFreePerThread (univPageSize : ℕ) : ℕ := 4 * univPageSize

/-- `LOG_CHECKPOINT_EXTRA_FREE`. -/
def logCheckpointExtraFree (univPageSize : ℕ) : ℕ := 8 * univPageSize

/-- `LOG_POOL_CHECKPOINT_RATIO_ASYNC`. -/
def logPoolCheckpointRatioAsync : ℕ := 32

/-- `LOG_POOL_PREFLUSH_RATIO_SYNC`. -/
def logPoolPreflushRatioSync : ℕ := 16

/-- `LOG_POOL_PREFLUSH_RATIO_ASYNC`. -/
def logPoolPreflushRatioAsync : ℕ := 8

/-- `LOG_ARCHIVE_EXTRA_MARGIN`. -/
def logArchiveExtraMargin (univPageSize : ℕ) : ℕ := 4 * univPageSize

/-- `LOG_ARCHIVE_RATIO_ASYNC`. -/
def logArchiveRatioAsync : ℕ := 16

/-- `archive_margin` of a group in `log_calc_max_ages`: its capacity less one file's data and
`LOG_ARCHIVE_EXTRA_MARGIN`, in `lsn_t`, so that it wraps below zero. -/
def logArchiveMargin (cfg : Config) (g : LogGroup) : ℕ :=
  ulintSub (ulintSub (logGroupGetCapacity g) (ulintSub g.fileSize logFileHdrSize))
    (logArchiveExtraMargin cfg.univPageSize)

/-- `log_calc_max_ages`: `none` when the smallest group is too small for the configured thread
concurrency, else the state with the margins set. `free` is a `ulint`, so its value is taken
modulo `2^64`. -/
def logCalcMaxAges (cfg : Config) (s : LogSys) : Option LogSys :=
  let smallestCapacity := s.logGroups.foldl (fun c g => min c (logGroupGetCapacity g)) lsnMax
  let smallestArchiveMargin := s.logGroups.foldl (fun c g => min c (logArchiveMargin cfg g)) lsnMax
  let smallestCapacity := smallestCapacity - smallestCapacity / 10
  let free := (logCheckpointFreePerThread cfg.univPageSize * (10 + cfg.srvThreadConcurrency) +
    logCheckpointExtraFree cfg.univPageSize) % 2 ^ 64
  if smallestCapacity / 2 ≤ free then none else
    let margin := smallestCapacity - free
    let margin := margin - margin / 10
    some { s with
      logGroupCapacity := smallestCapacity
      maxModifiedAgeAsync := margin - margin / logPoolPreflushRatioAsync
      maxModifiedAgeSync := margin - margin / logPoolPreflushRatioSync
      maxCheckpointAgeAsync := margin - margin / logPoolCheckpointRatioAsync
      maxCheckpointAge := margin
      maxArchivedLsnAge := smallestArchiveMargin
      maxArchivedLsnAgeAsync := smallestArchiveMargin - smallestArchiveMargin / logArchiveRatioAsync }

/-- `log_calc_max_ages` sets the margins and nothing else. -/
theorem logCalcMaxAges_eq_some {cfg : Config} {s s' : LogSys} (h : logCalcMaxAges cfg s = some s') :
    ∃ a b c d e f g, s' = { s with
      logGroupCapacity := a
      maxModifiedAgeAsync := b
      maxModifiedAgeSync := c
      maxCheckpointAgeAsync := d
      maxCheckpointAge := e
      maxArchivedLsnAge := f
      maxArchivedLsnAgeAsync := g } := by
  unfold logCalcMaxAges at h
  dsimp only at h
  split_ifs at h
  exact ⟨_, _, _, _, _, _, _, (Option.some.inj h).symm⟩

/-- The states a run starts from: `log_init` passed its two `ut_a` checks on the buffer size,
every group was created by `log_group_init`, with its own id and files of whole blocks, and
`log_calc_max_ages` succeeded.
The log files start zero-filled, as the server creates them. -/
def IsInitial (cfg : Config) (s : LogSys) : Prop :=
  ∃ (srvLogBufferSize : ℕ) (g : LogGroup) (rest : List LogGroup),
    16 * osFileLogBlockSize ≤ cfg.logBufferSize srvLogBufferSize ∧
    4 * cfg.univPageSize ≤ cfg.logBufferSize srvLogBufferSize ∧
    (∀ g' ∈ g :: rest, g'.lsn = logStartLsn ∧ g'.lsnOffset = logFileHdrSize ∧
      g'.fileSize % osFileLogBlockSize = 0) ∧
    ((g :: rest).map LogGroup.id).Nodup ∧
    logCalcMaxAges cfg (logInit cfg srvLogBufferSize g rest) = some s

end RedoLog

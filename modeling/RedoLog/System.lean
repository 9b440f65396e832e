import RedoLog.BufferInv
import RedoLog.Checkpoint

/-!
# The log as a concurrent system

Threads call the functions of `log0log.cc` concurrently; the log mutex serialises their critical
sections, and a few steps of `log_write_up_to` run outside it. The model is a transition system
whose atomic steps are:

* each critical section under the log mutex, from `log_mutex_enter` to `log_mutex_exit`;
* each step of `log_write_up_to` outside the mutex: the dirty read of `write_lsn`, the entry into
  and the wake-up from `os_event_wait(flush_event)`, the `ut_a(n_pending_flushes == 1)`, the
  start and the end of `fil_flush`, the assignment of `flushed_to_disk_lsn`, the decrement of
  `n_pending_flushes` and `os_event_set`;
* the shared lock and unlock of `checkpoint_lock` by a waiting `log_checkpoint`;
* the landing of an asynchronous checkpoint write and its completion routine.

Each thread is at a `Frame`: idle, or at a point of one call. There are as many threads as wanted
(`ℕ → Frame`); an idle thread may start any call.

## Modelling choices

* `log_buffer_flush_to_disk()` and `log_buffer_sync_in_background(false)` read `lsn` under the
  mutex and call `log_write_up_to(lsn, _)`: `Frame.readLsn`. A thread that calls
  `log_write_up_to` on its own, or through these functions from elsewhere, is a client call with
  any `lsn`.
* `log_reserve_and_open` sleeps while the buffer is being extended, which changes nothing, and
  otherwise retries after `log_buffer_sync_in_background(false)` while the string does not fit.
  The reservation, the `log_write_low` calls and `log_close` of a mini-transaction are one
  critical section.
* `log_checkpoint` first flushes the data files (`fil_flush_file_spaces`), which touches no
  modelled state. `fil_names_clear` (in `fil0fil.cc`, not in the sources) is modelled from the
  spec (§4.6, step 4): it either writes nothing and returns false, or appends its records as a
  mini-transaction, which passes the reservation check like any other, and returns true.
* `log_make_checkpoint_at` preflushes the buffer pool, which the model sees as a change of
  `buf_pool_get_oldest_modification`, then calls `log_checkpoint(true, _)` until it returns
  true; its runs are runs of client calls of `log_checkpoint`.
* `buf_pool_get_oldest_modification` is a value the buffer pool supplies at each call: `0` or a
  modification LSN, at most `lsn`.
* The completion routine of a checkpoint write calls `fil_flush` under some flush methods. The
  model does not count that flush as making log bytes durable: the durability the theorems prove
  rests on the flushes of `log_write_up_to` alone.
* `log_checkpoint_margin` loops (`goto loop`) after a failed preflush and after a synchronous
  checkpoint; the loop carries no local state, so a new pass is a new call, and the thread returns
  after `log_checkpoint`. `log_check_margins` repeats `log_flush_margin`, whose effect is a call of
  `log_write_up_to(lsn, false)`, and `log_checkpoint_margin`; its repetitions are such calls. The
  preflush either succeeds or finds another flush batch running, as the buffer pool decides.
* When `ut_a(n_pending_flushes == 1)` fails the server aborts; the model has no step there, and
  `RedoLog.Flush` proves the check always passes.
-/

namespace RedoLog

/-- The points of `log_buffer_extend(len)` where its thread takes the log mutex. -/
inductive ExtendPc
  /-- The first `log_mutex_enter`. -/
  | enter
  /-- Back from `log_buffer_flush_to_disk` in the loop that waits for another extension. -/
  | waitExtending
  /-- Back from `log_buffer_flush_to_disk` in the loop that waits for the blocks to be written. -/
  | waitWritten
  deriving DecidableEq, Repr

/-- Where a call of `log_write_up_to` returns to. -/
inductive Caller
  /-- A thread that called it directly, or through `log_buffer_flush_to_disk` or
  `log_buffer_sync_in_background` from outside this file. -/
  | client
  /-- `log_reserve_and_open(len)` for a mini-transaction, which retries. -/
  | append (len : ℕ) (strs : List (List UInt8))
  /-- `log_buffer_extend(len)`, which takes the mutex again at `pc`. -/
  | extend (pc : ExtendPc) (len : ℕ)
  /-- `log_checkpoint(sync, write_always)`, with the `oldest_lsn` it computed. -/
  | checkpoint (sync writeAlways : Bool) (oldestLsn : ℕ)
  deriving DecidableEq, Repr

/-- The points of `log_write_up_to` between its atomic steps. -/
inductive WritePc
  /-- `loop:`, before the unlocked read of `write_lsn`. -/
  | dirtyRead
  /-- Before `log_mutex_enter`. -/
  | locked
  /-- After `log_mutex_exit`, before `os_event_wait(flush_event)`; `workDone` is whether the
  flush in progress covers the request. -/
  | waitEnter (workDone : Bool)
  /-- Inside `os_event_wait`, which began at the event's signal count `signalCount`. -/
  | waiting (workDone : Bool) (signalCount : ℕ)
  /-- After `log_mutex_exit` of a flush, before `ut_a(n_pending_flushes == 1)`. -/
  | assertOne
  /-- Inside `fil_flush`, which began when the bytes of `snapshot` had been written. -/
  | fsync (snapshot : ℕ → Bool)
  /-- Before `flushed_to_disk_lsn = current_flush_lsn`. -/
  | assign
  /-- Before `n_pending_flushes--`. -/
  | decrement
  /-- Before `os_event_set(flush_event)`. -/
  | setEvent
  /-- The call has returned. -/
  | returned

/-- The points of `log_checkpoint(sync, write_always)` between its atomic steps. -/
inductive CheckpointPc
  /-- Before the first `log_mutex_enter`. -/
  | enter
  /-- Back from `log_write_up_to(flush_lsn, true)`, before `log_mutex_enter`. -/
  | relock (oldestLsn : ℕ)
  /-- Before `rw_lock_s_lock(&log_sys->checkpoint_lock)`, after issuing batch `batch` or after
  finding another batch running. -/
  | waitLock (batch : Option ℕ)
  deriving DecidableEq, Repr

/-- The points of `log_checkpoint_margin` between its atomic steps. -/
inductive MarginPc
  /-- `loop:`, before `log_mutex_enter`. -/
  | enter
  /-- After `log_mutex_exit`, before `log_preflush_pool_modified_pages(oldest_lsn + advance)`,
  with the decisions the critical section took. -/
  | preflush (doCheckpoint checkpointSync : Bool)
  /-- After a preflush that found another flush batch running, before `log_mutex_enter`. -/
  | retry
  deriving DecidableEq, Repr

/-- Where a thread is. -/
inductive Frame
  | idle
  /-- A mini-transaction's commit: `log_reserve_and_open(len)`, `log_write_low` of each of
  `strs`, which total at most `len` bytes, `log_close`. -/
  | append (len : ℕ) (strs : List (List UInt8))
  /-- `log_buffer_flush_to_disk()` (with `flushToDisk`) or `log_buffer_sync_in_background(false)`
  before its critical section. -/
  | readLsn (flushToDisk : Bool) (caller : Caller)
  /-- `log_write_up_to(lsn, flushToDisk)` at `pc`; `startLsn` is `lsn` when the call began. -/
  | writeUpTo (pc : WritePc) (lsn : ℕ) (flushToDisk : Bool) (startLsn : ℕ) (caller : Caller)
  | extend (pc : ExtendPc) (len : ℕ)
  | checkpoint (pc : CheckpointPc) (sync writeAlways : Bool)
  /-- `log_checkpoint_margin()`, alone or as the step of `log_check_margins()`. -/
  | margin (pc : MarginPc)

/-- Where a call of `log_write_up_to` returns to. -/
def Caller.resume : Caller → Frame
  | .client => .idle
  | .append len strs => .append len strs
  | .extend pc len => .extend pc len
  | .checkpoint sync writeAlways oldestLsn => .checkpoint (.relock oldestLsn) sync writeAlways

/-- Whether `log_buffer_extend` goes on to extend: it is not waiting for another extension. -/
def ExtendGoes (cfg : Config) (s : LogSys) (pc : ExtendPc) (len : ℕ) : Prop :=
  match pc with
  | .enter => s.isExtending = false
  | .waitExtending => ¬len / cfg.univPageSize < s.srvLogBufferSize ∧ s.isExtending = false
  | .waitWritten => True

instance (cfg : Config) (s : LogSys) (pc : ExtendPc) (len : ℕ) : Decidable (ExtendGoes cfg s pc len) :=
  match pc with
  | .enter => inferInstanceAs (Decidable (s.isExtending = false))
  | .waitExtending => inferInstanceAs (Decidable (¬_ ∧ _))
  | .waitWritten => inferInstanceAs (Decidable True)

/-- The limit `log_write_up_to` compares the requested LSN with under the mutex. -/
def writeLimit (s : LogSys) (flushToDisk : Bool) : ℕ :=
  if flushToDisk then s.flushedToDiskLsn else s.writeLsn

/-- Whether a flush is in progress, as `log_write_up_to` checks it under the mutex. -/
def FlushPending (s : LogSys) : Prop := 0 < s.nPendingFlushes ∨ s.flushEvent.isSet = false

instance (s : LogSys) : Decidable (FlushPending s) := inferInstanceAs (Decidable (_ ∨ _))

/-- What `log_write_up_to` does under the mutex when it writes: claim the flush, then write. -/
def logWriteUpToLocked (cfg : Config) (s : LogSys) (flushToDisk : Bool) : LogSys :=
  logWriteUpToWrite cfg (if flushToDisk then logWriteUpToClaim s else s)

section
variable (cfg : Config) (s : LogSys) (flush : Bool)

@[simp] theorem logWriteUpToLocked_lsn : (logWriteUpToLocked cfg s flush).lsn = s.lsn := by
  cases flush <;> simp [logWriteUpToLocked, logWriteUpToWrite_eq, logWriteUpToClaim]

@[simp] theorem logWriteUpToLocked_writeLsn : (logWriteUpToLocked cfg s flush).writeLsn = s.lsn := by
  cases flush <;> simp [logWriteUpToLocked, logWriteUpToWrite_eq, logWriteUpToClaim]

/-- The write moves the unwritten tail to the start of the buffer when it ended past half of
`max_buf_free`. -/
@[simp] theorem logWriteUpToLocked_bufFree :
    (logWriteUpToLocked cfg s flush).bufFree =
      if s.maxBufFree / 2 < s.bufFree then s.bufFree - utCalcAlignDown s.bufFree osFileLogBlockSize
      else s.bufFree := by
  cases flush <;> simp [logWriteUpToLocked, logWriteUpToWrite_eq, logWriteUpToClaim, writeCompacts]

@[simp] theorem logWriteUpToLocked_bufSize : (logWriteUpToLocked cfg s flush).bufSize = s.bufSize := by
  cases flush <;> simp [logWriteUpToLocked, logWriteUpToWrite_eq, logWriteUpToClaim]

@[simp] theorem logWriteUpToLocked_srvLogBufferSize :
    (logWriteUpToLocked cfg s flush).srvLogBufferSize = s.srvLogBufferSize := by
  cases flush <;> simp [logWriteUpToLocked, logWriteUpToWrite_eq, logWriteUpToClaim]

@[simp] theorem logWriteUpToLocked_maxBufFree :
    (logWriteUpToLocked cfg s flush).maxBufFree = s.maxBufFree := by
  cases flush <;> simp [logWriteUpToLocked, logWriteUpToWrite_eq, logWriteUpToClaim]

@[simp] theorem logWriteUpToLocked_isExtending :
    (logWriteUpToLocked cfg s flush).isExtending = s.isExtending := by
  cases flush <;> simp [logWriteUpToLocked, logWriteUpToWrite_eq, logWriteUpToClaim]

@[simp] theorem logWriteUpToLocked_flushedToDiskLsn :
    (logWriteUpToLocked cfg s flush).flushedToDiskLsn =
      if cfg.srvUnixFileFlushMethod.writeIsDurable then s.lsn else s.flushedToDiskLsn := by
  cases flush <;> simp [logWriteUpToLocked, logWriteUpToWrite_eq, logWriteUpToClaim]

@[simp] theorem logWriteUpToLocked_currentFlushLsn :
    (logWriteUpToLocked cfg s flush).currentFlushLsn = if flush then s.lsn else s.currentFlushLsn := by
  cases flush <;> simp [logWriteUpToLocked, logWriteUpToWrite_eq, logWriteUpToClaim]

@[simp] theorem logWriteUpToLocked_nPendingFlushes :
    (logWriteUpToLocked cfg s flush).nPendingFlushes =
      if flush then s.nPendingFlushes + 1 else s.nPendingFlushes := by
  cases flush <;> simp [logWriteUpToLocked, logWriteUpToWrite_eq, logWriteUpToClaim]

@[simp] theorem logWriteUpToLocked_flushEvent :
    (logWriteUpToLocked cfg s flush).flushEvent = if flush then s.flushEvent.reset else s.flushEvent := by
  cases flush <;> simp [logWriteUpToLocked, logWriteUpToWrite_eq, logWriteUpToClaim]

@[simp] theorem logWriteUpToLocked_written (y : ℕ) :
    (logWriteUpToLocked cfg s flush).written y = (s.written y || writeRange s y) := by
  cases flush <;> simp [logWriteUpToLocked, logWriteUpToWrite_eq, logWriteUpToClaim, writeRange]

@[simp] theorem logWriteUpToLocked_durable (y : ℕ) :
    (logWriteUpToLocked cfg s flush).durable y =
      (s.durable y || (cfg.srvUnixFileFlushMethod.writeIsDurable && writeRange s y)) := by
  cases flush <;> simp [logWriteUpToLocked, logWriteUpToWrite_eq, logWriteUpToClaim, writeRange]

end

/-- The critical section of `log_checkpoint_margin` when it finds the hint set: the hint stays set
only when the checkpoint is urgent, `lsn - last_checkpoint_lsn > max_checkpoint_age`. -/
def logCheckpointMarginLocked (s : LogSys) : LogSys :=
  { s with checkFlushOrCheckpoint := decide (s.maxCheckpointAge < s.lsn - s.lastCheckpointLsn) }

/-- Where `log_checkpoint_margin` goes once any preflush is done: `log_checkpoint(checkpoint_sync,
FALSE)` when a checkpoint is due, else it returns. -/
def marginCheckpoint (doCheckpoint checkpointSync : Bool) : Frame :=
  if doCheckpoint then .checkpoint .enter checkpointSync false else .idle

/-- Where `log_checkpoint_margin` goes after its critical section, which found `oldest_lsn`: to the
preflush when `advance` is nonzero, else on to the checkpoint. -/
def marginNext (s : LogSys) (oldestLsn : ℕ) : Frame :=
  let age := s.lsn - oldestLsn
  let checkpointAge := s.lsn - s.lastCheckpointLsn
  let checkpointSync := decide (s.maxCheckpointAge < checkpointAge)
  let doCheckpoint := checkpointSync || decide (s.maxCheckpointAgeAsync < checkpointAge)
  if s.maxModifiedAgeSync < age then .margin (.preflush doCheckpoint checkpointSync)
  else marginCheckpoint doCheckpoint checkpointSync

/-- One atomic step of a thread at a frame: the state and the frame after it. -/
inductive FrameStep (cfg : Config) : LogSys → Frame → LogSys → Frame → Prop
  -- `log_reserve_and_open`, `log_write_low`, `log_close`
  | appendWrite {s len strs} (bufPoolOldest : ℕ) : ReserveFits cfg s len →
      (strs.map List.length).sum ≤ len →
      FrameStep cfg s (.append len strs) (mtrWrite s strs bufPoolOldest) .idle
  | appendSync {s len strs} : s.isExtending = false → ¬ReserveFits cfg s len →
      FrameStep cfg s (.append len strs) s (.readLsn false (.append len strs))
  -- `log_buffer_flush_to_disk`, `log_buffer_sync_in_background(false)`
  | readLsn {s flush caller} :
      FrameStep cfg s (.readLsn flush caller) s (.writeUpTo .dirtyRead s.lsn flush s.lsn caller)
  -- `log_write_up_to(lsn, flush)`
  | dirtyReturn {s lsn flush l0 caller} : flush = false → lsn ≤ s.writeLsn →
      FrameStep cfg s (.writeUpTo .dirtyRead lsn flush l0 caller) s
        (.writeUpTo .returned lsn flush l0 caller)
  | dirtyLock {s lsn flush l0 caller} : ¬(flush = false ∧ lsn ≤ s.writeLsn) →
      FrameStep cfg s (.writeUpTo .dirtyRead lsn flush l0 caller) s
        (.writeUpTo .locked lsn flush l0 caller)
  | lockedReturn {s lsn flush l0 caller} : lsn ≤ writeLimit s flush →
      FrameStep cfg s (.writeUpTo .locked lsn flush l0 caller) s
        (.writeUpTo .returned lsn flush l0 caller)
  | lockedWait {s lsn l0 caller} : ¬lsn ≤ writeLimit s true → FlushPending s →
      FrameStep cfg s (.writeUpTo .locked lsn true l0 caller) s
        (.writeUpTo (.waitEnter (decide (lsn ≤ s.currentFlushLsn))) lsn true l0 caller)
  | lockedNothing {s lsn l0 caller} : ¬lsn ≤ writeLimit s false →
      s.bufFree = s.bufNextToWrite →
      FrameStep cfg s (.writeUpTo .locked lsn false l0 caller) s
        (.writeUpTo .returned lsn false l0 caller)
  | lockedWrite {s lsn flush l0 caller} : ¬lsn ≤ writeLimit s flush →
      ¬(flush = true ∧ FlushPending s) → ¬(flush = false ∧ s.bufFree = s.bufNextToWrite) →
      FrameStep cfg s (.writeUpTo .locked lsn flush l0 caller) (logWriteUpToLocked cfg s flush)
        (.writeUpTo (if flush then .assertOne else .returned) lsn flush l0 caller)
  | waitSet {s wd lsn flush l0 caller} : s.flushEvent.isSet = true →
      FrameStep cfg s (.writeUpTo (.waitEnter wd) lsn flush l0 caller) s
        (.writeUpTo (if wd then .returned else .dirtyRead) lsn flush l0 caller)
  | waitBlock {s wd lsn flush l0 caller} : s.flushEvent.isSet = false →
      FrameStep cfg s (.writeUpTo (.waitEnter wd) lsn flush l0 caller) s
        (.writeUpTo (.waiting wd s.flushEvent.signalCount) lsn flush l0 caller)
  | wake {s wd c lsn flush l0 caller} :
      s.flushEvent.isSet = true ∨ s.flushEvent.signalCount ≠ c →
      FrameStep cfg s (.writeUpTo (.waiting wd c) lsn flush l0 caller) s
        (.writeUpTo (if wd then .returned else .dirtyRead) lsn flush l0 caller)
  | assertFsync {s lsn flush l0 caller} : s.nPendingFlushes = 1 →
      cfg.srvUnixFileFlushMethod ≠ .oDsync →
      FrameStep cfg s (.writeUpTo .assertOne lsn flush l0 caller) s
        (.writeUpTo (.fsync s.written) lsn flush l0 caller)
  | assertSkip {s lsn flush l0 caller} : s.nPendingFlushes = 1 →
      cfg.srvUnixFileFlushMethod = .oDsync →
      FrameStep cfg s (.writeUpTo .assertOne lsn flush l0 caller) s
        (.writeUpTo .decrement lsn flush l0 caller)
  | fsync {s snap lsn flush l0 caller} :
      FrameStep cfg s (.writeUpTo (.fsync snap) lsn flush l0 caller)
        { s with durable := fun y => s.durable y || snap y } (.writeUpTo .assign lsn flush l0 caller)
  | assign {s lsn flush l0 caller} :
      FrameStep cfg s (.writeUpTo .assign lsn flush l0 caller)
        { s with flushedToDiskLsn := s.currentFlushLsn } (.writeUpTo .decrement lsn flush l0 caller)
  | decrement {s lsn flush l0 caller} :
      FrameStep cfg s (.writeUpTo .decrement lsn flush l0 caller)
        { s with nPendingFlushes := s.nPendingFlushes - 1 } (.writeUpTo .setEvent lsn flush l0 caller)
  | setEvent {s lsn flush l0 caller} :
      FrameStep cfg s (.writeUpTo .setEvent lsn flush l0 caller)
        { s with flushEvent := s.flushEvent.set } (.writeUpTo .returned lsn flush l0 caller)
  | resume {s lsn flush l0 caller} :
      FrameStep cfg s (.writeUpTo .returned lsn flush l0 caller) s caller.resume
  -- `log_buffer_extend(len)`
  | extendBusy {s pc len} : pc ≠ .waitWritten → s.isExtending = true →
      (pc = .waitExtending → ¬len / cfg.univPageSize < s.srvLogBufferSize) →
      FrameStep cfg s (.extend pc len) s (.readLsn true (.extend .waitExtending len))
  | extendEnough {s len} : len / cfg.univPageSize < s.srvLogBufferSize →
      FrameStep cfg s (.extend .waitExtending len) s .idle
  | extendMove {s pc len} : ExtendGoes cfg s pc len → ExtendReady s →
      FrameStep cfg s (.extend pc len) (logBufferExtendMove cfg { s with isExtending := true } len) .idle
  | extendWait {s pc len} : ExtendGoes cfg s pc len → ¬ExtendReady s →
      FrameStep cfg s (.extend pc len) { s with isExtending := true }
        (.readLsn true (.extend .waitWritten len))
  -- `log_checkpoint(sync, write_always)`
  | checkpointNothing {s sync} (bufPoolOldest : ℕ) : bufPoolOldest ≤ s.lsn →
      logBufPoolGetOldestModification s bufPoolOldest = s.lastCheckpointLsn + sizeOfMlogCheckpoint →
      FrameStep cfg s (.checkpoint .enter sync false) s .idle
  | checkpointFlush {s sync wa} (bufPoolOldest : ℕ) : bufPoolOldest ≤ s.lsn →
      ¬(wa = false ∧ logBufPoolGetOldestModification s bufPoolOldest =
        s.lastCheckpointLsn + sizeOfMlogCheckpoint) →
      FrameStep cfg s (.checkpoint .enter sync wa) s
        (.writeUpTo .dirtyRead (logBufPoolGetOldestModification s bufPoolOldest) true s.lsn
          (.checkpoint sync wa (logBufPoolGetOldestModification s bufPoolOldest)))
  | checkpointNames {s sync wa len strs} (bufPoolOldest : ℕ) : bufPoolOldest ≤ s.lsn →
      ¬(wa = false ∧ logBufPoolGetOldestModification s bufPoolOldest =
        s.lastCheckpointLsn + sizeOfMlogCheckpoint) →
      ReserveFits cfg s len → (strs.map List.length).sum ≤ len →
      FrameStep cfg s (.checkpoint .enter sync wa) (mtrWrite s strs bufPoolOldest)
        (.writeUpTo .dirtyRead (mtrWrite s strs bufPoolOldest).lsn true
          (mtrWrite s strs bufPoolOldest).lsn
          (.checkpoint sync wa (logBufPoolGetOldestModification s bufPoolOldest)))
  | checkpointDone {s sync oldest} : oldest ≤ s.lastCheckpointLsn →
      FrameStep cfg s (.checkpoint (.relock oldest) sync false) s .idle
  | checkpointBusy {s sync wa oldest} : ¬(wa = false ∧ oldest ≤ s.lastCheckpointLsn) →
      0 < s.nPendingCheckpointWrites →
      FrameStep cfg s (.checkpoint (.relock oldest) sync wa) s
        (if sync then .checkpoint (.waitLock none) sync wa else .idle)
  | checkpointIssue {s sync wa oldest} : ¬(wa = false ∧ oldest ≤ s.lastCheckpointLsn) →
      s.nPendingCheckpointWrites = 0 →
      FrameStep cfg s (.checkpoint (.relock oldest) sync wa)
        (logWriteCheckpointInfo
          { s with nextCheckpointLsn := oldest, checkpointWriteAlways := wa })
        (if sync then .checkpoint (.waitLock (some s.nextCheckpointNo)) sync wa else .idle)
  | checkpointWake {s batch sync wa} : s.checkpointLock = false →
      FrameStep cfg s (.checkpoint (.waitLock batch) sync wa) s .idle
  -- `log_checkpoint_margin()`
  | marginClear {s} : s.checkFlushOrCheckpoint = false → FrameStep cfg s (.margin .enter) s .idle
  | marginCheck {s} (bufPoolOldest : ℕ) : bufPoolOldest ≤ s.lsn → s.checkFlushOrCheckpoint = true →
      FrameStep cfg s (.margin .enter) (logCheckpointMarginLocked s)
        (marginNext s (logBufPoolGetOldestModification s bufPoolOldest))
  | marginFlushed {s doCheckpoint sync} :
      FrameStep cfg s (.margin (.preflush doCheckpoint sync)) s (marginCheckpoint doCheckpoint sync)
  | marginBusy {s doCheckpoint sync} :
      FrameStep cfg s (.margin (.preflush doCheckpoint sync)) s (.margin .retry)
  | marginRetry {s} :
      FrameStep cfg s (.margin .retry) { s with checkFlushOrCheckpoint := true } (.margin .enter)

/-- The whole system: the log state and every thread's frame. -/
structure World where
  log : LogSys
  threads : ℕ → Frame

/-- The calls an idle thread may start, in the state `s`. -/
inductive Call (s : LogSys) : Frame → Prop
  | append (len : ℕ) (strs : List (List UInt8)) : Call s (.append len strs)
  | flushToDisk : Call s (.readLsn true .client)
  | writeUpTo (lsn : ℕ) (flushToDisk : Bool) :
      Call s (.writeUpTo .dirtyRead lsn flushToDisk s.lsn .client)
  | extend (len : ℕ) : Call s (.extend .enter len)
  | checkpoint (sync writeAlways : Bool) : Call s (.checkpoint .enter sync writeAlways)
  | checkpointMargin : Call s (.margin .enter)

/-- One atomic step of the system. -/
inductive Step (cfg : Config) : World → World → Prop
  /-- An idle thread starts a call. -/
  | call {w : World} (t : ℕ) {f : Frame} : w.threads t = .idle → Call w.log f →
      Step cfg w ⟨w.log, Function.update w.threads t f⟩
  /-- A thread takes a step of its call. -/
  | run {w : World} (t : ℕ) {s' : LogSys} {f' : Frame} : FrameStep cfg w.log (w.threads t) s' f' →
      Step cfg w ⟨s', Function.update w.threads t f'⟩
  /-- A checkpoint write in flight reaches its slot. -/
  | land {w : World} (i : ℕ) {cw : CheckpointWrite} : w.log.checkpointWrites[i]? = some cw →
      Step cfg w ⟨landCheckpointWrite w.log i cw, w.threads⟩
  /-- The completion routine of a landed checkpoint write. -/
  | complete {w : World} : 0 < w.log.checkpointWritesLanded →
      Step cfg w ⟨logIoCompleteCheckpoint
        { w.log with checkpointWritesLanded := w.log.checkpointWritesLanded - 1 }, w.threads⟩

/-- The states a run starts from: the log as `log_init` and `log_group_init` leave it, and every
thread idle. -/
def World.IsInitial (cfg : Config) (w : World) : Prop :=
  RedoLog.IsInitial cfg w.log ∧ ∀ t, w.threads t = .idle

/-- The states of the runs. -/
inductive Reachable (cfg : Config) : World → Prop
  | init {w : World} : w.IsInitial cfg → Reachable cfg w
  | step {w w' : World} : Reachable cfg w → Step cfg w w' → Reachable cfg w'

/-! ### The default deployment -/

/-- The server's default configuration under flush method `m`: 16 KiB pages, an 8 KiB
write-ahead unit, no thread concurrency limit, and the checksum of `innodb_log_checksums=OFF`,
`log_block_calc_checksum_none`. -/
def defaultConfig (m : SrvUnixFlush) : Config where
  univPageSize := 16384
  srvLogWriteAheadSize := 8192
  srvUnixFileFlushMethod := m
  flushLogAtTrxCommit := 1
  srvThreadConcurrency := 0
  logChecksumAlgorithm := fun _ => 0xDEADBEEF
  univPageSize_eq := ⟨14, by decide, by decide, rfl⟩
  srvLogWriteAheadSize_eq := ⟨13, by decide, rfl, by decide⟩

/-- The default group: two files of 48 MiB. -/
def defaultGroup : LogGroup :=
  logGroupInit 0 2 (48 * 1024 * 1024) (by decide) (by decide) (by decide)

/-- The log after `log_init` with the default 16 MiB buffer (1024 pages) and the default
group, before `log_calc_max_ages`. -/
def defaultLogInit (m : SrvUnixFlush) : LogSys := logInit (defaultConfig m) 1024 defaultGroup []

/-- The default start of a run: every thread idle. -/
def defaultWorld (m : SrvUnixFlush) : World :=
  ⟨(logCalcMaxAges (defaultConfig m) (defaultLogInit m)).getD (defaultLogInit m), fun _ => .idle⟩

theorem defaultWorld_isInitial (m : SrvUnixFlush) : (defaultWorld m).IsInitial (defaultConfig m) := by
  refine ⟨⟨1024, defaultGroup, [], (by decide : 16 * 512 ≤ 1024 * 16384),
    (by decide : 4 * 16384 ≤ 1024 * 16384), by simp [defaultGroup, logGroupInit, osFileLogBlockSize],
    by simp [defaultGroup, logGroupInit], ?_⟩, fun _ => rfl⟩
  cases m <;> rfl

theorem defaultWorld_reachable (m : SrvUnixFlush) : Reachable (defaultConfig m) (defaultWorld m) :=
  .init (defaultWorld_isInitial m)

end RedoLog

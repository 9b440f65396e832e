import RedoLog.Buffer
import RedoLog.GroupIO

/-!
# The write of `log_write_up_to`

The part of `log_write_up_to` that runs under the log mutex once the call has decided to write:
the claim of the flush (when `flush_to_disk`), then the write of every block from the one holding
`buf_next_to_write` to the one holding `buf_free`, padded up to the write-ahead unit, to the first
group, then `log_group_set_fields`, `log_sys_write_completion` and, under a flush method without
OS buffering, the advance of `flushed_to_disk_lsn`.

The checks before the write, the wait on `flush_event` and the unlocked tail of a flush
(`fil_flush`, the assignment of `flushed_to_disk_lsn`, the decrement and the `os_event_set`) are
steps of their own in `RedoLog.System`, because other threads run between them.

The write also updates the ghost fields: the log bytes it carries are `[align_down(write_lsn),
lsn)`, which become `written`, and `durable` as well when the flush method makes writes durable;
`writtenEnd` records how far the write reached, padding included.

## Main results

* `logWriteUpToWrite_eq` — the write as one update of the state, field by field, so that later
  proofs read a field off it without unfolding the write.
-/

namespace RedoLog

/-- The `pad_size` of `log_write_up_to`: when the write-ahead unit is larger than a block and the
write ends inside a unit that the write covers more than the end of, the write is padded with
zeros to the end of the unit, within the buffer. -/
def logWritePadSize (cfg : Config) (s : LogSys) (areaStart areaEnd : ℕ) : ℕ :=
  if osFileLogBlockSize < cfg.srvLogWriteAheadSize then
    let endOffset := logGroupCalcLsnOffset s.group (utCalcAlign s.lsn osFileLogBlockSize)
    let endOffsetInUnit := endOffset % cfg.srvLogWriteAheadSize
    if 0 < endOffsetInUnit ∧ endOffsetInUnit < areaEnd - areaStart then
      let padSize := cfg.srvLogWriteAheadSize - endOffsetInUnit
      if s.bufSize < areaEnd + padSize then s.bufSize - areaEnd else padSize
    else 0
  else 0

/-- The claim of a flush by `log_write_up_to(lsn, true)`: one more pending flush, the flush
covers up to the current `lsn`, and `flush_event` is reset until the flush ends. -/
def logWriteUpToClaim (s : LogSys) : LogSys :=
  { s with
    nPendingFlushes := s.nPendingFlushes + 1
    currentFlushLsn := s.lsn
    flushEvent := s.flushEvent.reset }

/-- The LSNs whose log bytes a write from `write_lsn` carries. -/
def writeRange (s : LogSys) (y : ℕ) : Bool :=
  decide (utCalcAlignDown s.writeLsn osFileLogBlockSize ≤ y ∧ y < s.lsn)

/-- The write of `log_write_up_to`, from `group = UT_LIST_GET_FIRST(log_sys->log_groups)` to
the update of `flushed_to_disk_lsn` before `log_mutex_exit`. -/
def logWriteUpToWrite (cfg : Config) (s : LogSys) : LogSys :=
  let startOffset := s.bufNextToWrite
  let endOffset := s.bufFree
  let areaStart := utCalcAlignDown startOffset osFileLogBlockSize
  let areaEnd := utCalcAlign endOffset osFileLogBlockSize
  let buf := logBlockSetFlushBit s.buf areaStart true
  let buf := logBlockSetCheckpointNo buf (areaEnd - osFileLogBlockSize) s.nextCheckpointNo
  let padSize := logWritePadSize cfg s areaStart areaEnd
  let buf := Mem.fill buf areaEnd padSize 0
  let startLsn := utCalcAlignDown s.writeLsn osFileLogBlockSize
  let len := areaEnd - areaStart + padSize
  let w := logGroupWriteBuf cfg.logChecksumAlgorithm s.group s.logFiles buf areaStart len startLsn
    (startOffset - areaStart == 0)
  let s' := { s with
    buf := w.2
    logFiles := w.1
    writeEndOffset := s.bufFree
    group := logGroupSetFields s.group s.writeLsn
    written := fun y => s.written y || writeRange s y
    durable := fun y => s.durable y || (cfg.srvUnixFileFlushMethod.writeIsDurable && writeRange s y)
    writtenEnd := max s.writtenEnd (startLsn + len) }
  let s' := logSysWriteCompletion s'
  if cfg.srvUnixFileFlushMethod.writeIsDurable then { s' with flushedToDiskLsn := s'.writeLsn }
  else s'

/-! ### The write, field by field -/

/-- The buffer the write sends to the files: the flush bit set in the first block, the checkpoint
number in the last, and the padding zeroed. -/
def writeSource (cfg : Config) (s : LogSys) : Mem :=
  let areaStart := utCalcAlignDown s.bufNextToWrite osFileLogBlockSize
  let areaEnd := utCalcAlign s.bufFree osFileLogBlockSize
  Mem.fill (logBlockSetCheckpointNo (logBlockSetFlushBit s.buf areaStart true)
    (areaEnd - osFileLogBlockSize) s.nextCheckpointNo) areaEnd
    (logWritePadSize cfg s areaStart areaEnd) 0

/-- The length of the write: the blocks from `buf_next_to_write`'s to `buf_free`'s, and the
padding. -/
def writeLen (cfg : Config) (s : LogSys) : ℕ :=
  let areaStart := utCalcAlignDown s.bufNextToWrite osFileLogBlockSize
  let areaEnd := utCalcAlign s.bufFree osFileLogBlockSize
  areaEnd - areaStart + logWritePadSize cfg s areaStart areaEnd

/-- The files and the buffer after `log_group_write_buf`. -/
def writeResult (cfg : Config) (s : LogSys) : Mem × Mem :=
  logGroupWriteBuf cfg.logChecksumAlgorithm s.group s.logFiles (writeSource cfg s)
    (utCalcAlignDown s.bufNextToWrite osFileLogBlockSize) (writeLen cfg s)
    (utCalcAlignDown s.writeLsn osFileLogBlockSize)
    (s.bufNextToWrite - utCalcAlignDown s.bufNextToWrite osFileLogBlockSize == 0)

/-- Whether `log_sys_write_completion` moves the buffer: the write ended past half of
`max_buf_free`. -/
def writeCompacts (s : LogSys) : Prop := s.maxBufFree / 2 < s.bufFree

instance (s : LogSys) : Decidable (writeCompacts s) := inferInstanceAs (Decidable (_ < _))

theorem logWriteUpToWrite_eq (cfg : Config) (s : LogSys) :
    logWriteUpToWrite cfg s =
      let moveStart := utCalcAlignDown s.bufFree osFileLogBlockSize
      { s with
        buf := if writeCompacts s then
            Mem.move (writeResult cfg s).2 0 moveStart (utCalcAlign s.bufFree osFileLogBlockSize - moveStart)
          else (writeResult cfg s).2
        logFiles := (writeResult cfg s).1
        writeEndOffset := s.bufFree
        group := logGroupSetFields s.group s.writeLsn
        written := fun y => s.written y || writeRange s y
        durable := fun y => s.durable y || (cfg.srvUnixFileFlushMethod.writeIsDurable && writeRange s y)
        writtenEnd := max s.writtenEnd (utCalcAlignDown s.writeLsn osFileLogBlockSize + writeLen cfg s)
        writeLsn := s.lsn
        bufNextToWrite := if writeCompacts s then s.bufFree - moveStart else s.bufFree
        bufFree := if writeCompacts s then s.bufFree - moveStart else s.bufFree
        flushedToDiskLsn := if cfg.srvUnixFileFlushMethod.writeIsDurable then s.lsn
          else s.flushedToDiskLsn } := by
  unfold logWriteUpToWrite logSysWriteCompletion writeResult writeSource writeLen writeCompacts
  dsimp only
  split_ifs <;> rfl

end RedoLog

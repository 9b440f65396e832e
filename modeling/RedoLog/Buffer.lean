import RedoLog.LogSys

/-!
# The log buffer

The operations on the in-memory log buffer, each the part of a function of `log0log.cc` that runs
under the log mutex:

* `logWriteLow` — `log_write_low`, which copies a string into the buffer block by block;
* `logClose` — `log_close`, which marks the start of the next record group and raises
  `check_flush_or_checkpoint`;
* `lenUpperLimit` — the bound `log_reserve_and_open` checks before an append;
* `logSysWriteCompletion` — `log_sys_write_completion`, which advances `write_lsn` and compacts
  the buffer;
* `logBufferExtendMove` — the part of `log_buffer_extend` that reallocates the buffer.

`log_write_low` loops with `goto part_loop` while bytes are left; the loop is `logWriteLowLoop`,
run with fuel one more than the string's length. In every state the buffer invariant admits, each
pass but the last copies at least one byte, so the fuel is never the reason the loop stops.

The change-tracking branches of `log_close` and `log_reserve_and_open`
(`srv_track_changed_pages`) and the archiving branch of `log_reserve_and_open` are left out:
tracking and archiving are off in the runs modelled here (`log_init` sets `LOG_ARCH_OFF`). The
rate-limited warning of `log_close` prints and changes no state.
-/

namespace RedoLog

/-! ### `log_write_low` -/

/-- One pass of `log_write_low`'s `part_loop`: copy the part of `str` that fits in the current
block, stamp the block, and return the state with the rest of the string. -/
def logWriteLowPart (s : LogSys) (str : List UInt8) : LogSys × List UInt8 :=
  let off := s.bufFree % osFileLogBlockSize
  let fits := decide (off + str.length ≤ osFileLogBlockSize - logBlockTrlSize)
  let dataLen := if fits then off + str.length else osFileLogBlockSize - logBlockTrlSize
  let len := if fits then str.length else osFileLogBlockSize - off - logBlockTrlSize
  let part := str.take len
  let rest := str.drop len
  let block := utCalcAlignDown s.bufFree osFileLogBlockSize
  let buf := logBlockSetDataLen (Mem.write s.buf s.bufFree part) block dataLen
  let appended := Mem.write s.appended s.lsn part
  if dataLen = osFileLogBlockSize - logBlockTrlSize then
    -- This block became full
    let buf := logBlockSetCheckpointNo (logBlockSetDataLen buf block osFileLogBlockSize) block
      s.nextCheckpointNo
    let len := len + logBlockHdrSize + logBlockTrlSize
    let lsn := s.lsn + len
    ({ s with
        lsn
        buf := logBlockInit buf (block + osFileLogBlockSize) lsn
        bufFree := s.bufFree + len
        appended }, rest)
  else
    ({ s with lsn := s.lsn + len, buf, bufFree := s.bufFree + len, appended }, rest)

/-- The `part_loop` of `log_write_low`, with `fuel` passes at most. -/
def logWriteLowLoop : ℕ → LogSys → List UInt8 → LogSys
  | 0, s, _ => s
  | fuel + 1, s, str =>
    let r := logWriteLowPart s str
    if r.2 = [] then r.1 else logWriteLowLoop fuel r.1 r.2

/-- `log_write_low(str, str_len)`. -/
def logWriteLow (s : LogSys) (str : List UInt8) : LogSys := logWriteLowLoop (str.length + 1) s str

/-! ### `log_close` -/

/-- `log_close`, given what `buf_pool_get_oldest_modification` returns (`0` when the pool has no
dirty page). It returns the state and the LSN of the end of the closed record group. -/
def logClose (s : LogSys) (bufPoolOldest : ℕ) : LogSys × ℕ :=
  let lsn := s.lsn
  let block := utCalcAlignDown s.bufFree osFileLogBlockSize
  let buf := if logBlockGetFirstRecGroup s.buf block = 0 then
      logBlockSetFirstRecGroup s.buf block (logBlockGetDataLen s.buf block)
    else s.buf
  let checkpointAge := lsn - s.lastCheckpointLsn
  let full := decide (s.maxBufFree < s.bufFree)
  let old := !decide (checkpointAge ≤ s.maxModifiedAgeSync) &&
    (bufPoolOldest == 0 || decide (s.maxModifiedAgeSync < lsn - bufPoolOldest) ||
      decide (s.maxCheckpointAgeAsync < checkpointAge))
  ({ s with buf, checkFlushOrCheckpoint := s.checkFlushOrCheckpoint || full || old }, lsn)

/-! ### Reservation -/

/-- The upper limit `log_reserve_and_open` puts on the buffer space a string of `len` bytes may
take: `LOG_BUF_WRITE_MARGIN + srv_log_write_ahead_size + (5 * len) / 4`. -/
def lenUpperLimit (cfg : Config) (len : ℕ) : ℕ :=
  logBufWriteMargin + cfg.srvLogWriteAheadSize + 5 * len / 4

/-- The check `log_reserve_and_open` returns on: not extending, and the buffer has room. -/
def ReserveFits (cfg : Config) (s : LogSys) (len : ℕ) : Prop :=
  s.isExtending = false ∧ s.bufFree + lenUpperLimit cfg len ≤ s.bufSize

instance (cfg : Config) (s : LogSys) (len : ℕ) : Decidable (ReserveFits cfg s len) :=
  inferInstanceAs (Decidable (_ ∧ _))

/-- A mini-transaction's log write: `log_write_low` for each string, then `log_close`. -/
def mtrWrite (s : LogSys) (strs : List (List UInt8)) (bufPoolOldest : ℕ) : LogSys :=
  (logClose (strs.foldl logWriteLow s) bufPoolOldest).1

/-- `log_close` leaves `buf_free` where the writes put it. -/
theorem mtrWrite_bufFree (s : LogSys) (strs : List (List UInt8)) (bufPoolOldest : ℕ) :
    (mtrWrite s strs bufPoolOldest).bufFree = (strs.foldl logWriteLow s).bufFree := rfl

/-! ### `log_sys_write_completion` -/

/-- `log_sys_write_completion`: `write_lsn` catches up with `lsn`, and when the written part
passes half of `max_buf_free` the unwritten tail, from the block holding `write_end_offset`,
moves to the start of the buffer. -/
def logSysWriteCompletion (s : LogSys) : LogSys :=
  let s := { s with writeLsn := s.lsn, bufNextToWrite := s.writeEndOffset }
  if s.maxBufFree / 2 < s.writeEndOffset then
    let moveStart := utCalcAlignDown s.writeEndOffset osFileLogBlockSize
    let moveEnd := utCalcAlign s.bufFree osFileLogBlockSize
    { s with
      buf := Mem.move s.buf 0 moveStart (moveEnd - moveStart)
      bufFree := s.bufFree - moveStart
      bufNextToWrite := s.bufNextToWrite - moveStart }
  else s

/-! ### `log_buffer_extend` -/

/-- The reallocation in `log_buffer_extend(len)`, which runs once every block but the last has
been written: the last block moves to the start of a fresh zeroed buffer of
`(len / UNIV_PAGE_SIZE + 1)` pages, and both cursors are rebased. -/
def logBufferExtendMove (cfg : Config) (s : LogSys) (len : ℕ) : LogSys :=
  let moveStart := utCalcAlignDown s.bufFree osFileLogBlockSize
  let moveEnd := s.bufFree
  let tmpBuf := Mem.read s.buf moveStart (moveEnd - moveStart)
  let srvLogBufferSize := len / cfg.univPageSize + 1
  let bufSize := cfg.logBufferSize srvLogBufferSize
  { s with
    bufFree := s.bufFree - moveStart
    bufNextToWrite := s.bufNextToWrite - moveStart
    srvLogBufferSize
    buf := Mem.write (fun _ => 0) 0 tmpBuf
    bufSize
    maxBufFree := ulintSub (bufSize / logBufFlushRatio) (logBufFlushMargin cfg.univPageSize)
    isExtending := false }

/-- The loop condition of `log_buffer_extend`: the buffer holds no block before the last one that
still has to be written. -/
def ExtendReady (s : LogSys) : Prop :=
  utCalcAlignDown s.bufFree osFileLogBlockSize = utCalcAlignDown s.bufNextToWrite osFileLogBlockSize

instance (s : LogSys) : Decidable (ExtendReady s) := inferInstanceAs (Decidable (_ = _))

end RedoLog

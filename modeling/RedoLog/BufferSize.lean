import RedoLog.WriteLow
import RedoLog.Runs
import Mathlib.Logic.Relation

/-!
# The size of the log buffer

Two things decide whether a mini-transaction's reservation finds room: `buf_size`, which only
`log_buffer_extend` changes, and how far a write of the buffer brings `buf_free` back, which
`max_buf_free` decides.

## Extension

`log_buffer_extend(len)` is called by a thread that found `len` too large for the buffer without
holding the mutex. Under the mutex it waits while another extension runs, and after each wait it
returns early when `srv_log_buffer_size > len / UNIV_PAGE_SIZE`: the other extension was enough.
Otherwise it reallocates the buffer to `len / UNIV_PAGE_SIZE + 1` pages. Either way `buf_size >
len` when it returns, and `lsn` and `write_lsn` do not move.

The re-check is made only after a wait. A thread that arrives when another extension has already
finished, with the size it read before, does not re-check and reallocates to its own `len`, which
may be smaller than what the other extension set: `buf_size` shrinks, and the other extender's
`buf_size > len` no longer holds.

## Reservation

A write by `log_write_up_to` leaves `buf_free` at most `max(max_buf_free / 2, 511)`: it moves the
unwritten tail to the start of the buffer when it ended past half of `max_buf_free`. With
`max_buf_free = buf_size / 2 - LOG_BUF_FLUSH_MARGIN` that is well inside the buffer, so a
reservation of at most half the buffer fits after one write. But `log_init` admits buffers of four
pages, and for those the subtraction wraps: `max_buf_free` is close to `2 ^ 64`, no write ever
moves the tail, and a reservation can take its buffer-full branch again and again.

## Main results

* `logBufferExtend_returns` — a step of `log_buffer_extend(len)` moves neither `lsn` nor
  `write_lsn`, and leaves `buf_size > len` when it returns.
* `logBufferExtend_shrinks` — two extenders, each with a request above the buffer, and the later
  one shrinks the buffer below the earlier one's request.
* `logWriteUpToLocked_reserveFits` — a write leaves `buf_free ≤ max(max_buf_free / 2, 511)`, and
  when `max_buf_free` does not wrap, a reservation of at most half the buffer then fits.
* `logReserveAndOpen_syncsTwice` — with 4 KiB pages and a four-page buffer, a reservation running
  alone takes its buffer-full branch twice.
-/

namespace RedoLog

variable {cfg : Config}

/-! ### `buf_size` is `srv_log_buffer_size` pages -/

/-- `buf_size` is `LOG_BUFFER_SIZE`: `log_init` and `log_buffer_extend` set it together with
`srv_log_buffer_size`, and nothing else sets either. -/
def SizeInv (cfg : Config) (s : LogSys) : Prop := s.bufSize = cfg.logBufferSize s.srvLogBufferSize

theorem AppendFrame.sizeInv {s s' : LogSys} (hf : AppendFrame s s') (h : SizeInv cfg s) :
    SizeInv cfg s' := by
  unfold AppendFrame at hf; rw [hf]; exact h

theorem FrameStep.sizeInv {s s' : LogSys} {f f' : Frame} (hs : FrameStep cfg s f s' f')
    (h : SizeInv cfg s) : SizeInv cfg s' := by
  cases hs with
  | appendWrite | checkpointNames => exact (appendFrame_mtrWrite _ _ _).sizeInv h
  | lockedWrite =>
    simpa only [SizeInv, logWriteUpToLocked_bufSize, logWriteUpToLocked_srvLogBufferSize] using h
  | extendMove => rfl
  | checkpointIssue => rw [logWriteCheckpointInfo_eq]; exact h
  | _ => exact h

theorem Step.sizeInv {w w' : World} (hs : Step cfg w w') (h : SizeInv cfg w.log) :
    SizeInv cfg w'.log := by
  cases hs with
  | call => exact h
  | run _ hf => exact hf.sizeInv h
  | land => exact h
  | complete => rw [logIoCompleteCheckpoint_eq]; exact h

theorem sizeInv_of_reachable {w : World} (hr : Reachable cfg w) : SizeInv cfg w.log := by
  induction hr with
  | init hi =>
    obtain ⟨_, _, _, -, -, -, -, hs⟩ := hi.1
    obtain ⟨_, _, _, _, _, _, _, h⟩ := logCalcMaxAges_eq_some hs
    rw [h]; rfl
  | step _ hs ih => exact hs.sizeInv ih

/-- A buffer of more pages than `len / UNIV_PAGE_SIZE` holds more than `len` bytes. -/
theorem lt_logBufferSize {len n : ℕ} (h : len / cfg.univPageSize < n) : len < cfg.logBufferSize n := by
  have hp : 0 < cfg.univPageSize := lt_of_lt_of_le (by decide) cfg.block_le_univPageSize
  unfold Config.logBufferSize
  calc len < (len / cfg.univPageSize + 1) * cfg.univPageSize := by
        rw [Nat.succ_mul]; exact Nat.lt_div_mul_add hp
    _ ≤ n * cfg.univPageSize := Nat.mul_le_mul_right _ h

/-! ### Extension -/

/-- **What `log_buffer_extend(len)` guarantees.** In every reachable state, a step of
`log_buffer_extend(len)` moves neither `lsn` nor `write_lsn`, and a step that returns, by the
early exit after a wait or by the full path, leaves `buf_size > len`. -/
theorem logBufferExtend_returns {w : World} (hr : Reachable cfg w) {pc : ExtendPc} {len : ℕ}
    {s' : LogSys} {f' : Frame} (hs : FrameStep cfg w.log (.extend pc len) s' f') :
    s'.lsn = w.log.lsn ∧ s'.writeLsn = w.log.writeLsn ∧ (f' = .idle → len < s'.bufSize) := by
  cases hs with
  | extendBusy => exact ⟨rfl, rfl, fun h => nomatch h⟩
  | extendEnough hlt => exact ⟨rfl, rfl, fun _ => (sizeInv_of_reachable hr).symm ▸ lt_logBufferSize hlt⟩
  | extendMove => exact ⟨rfl, rfl, fun _ => lt_logBufferSize (Nat.lt_succ_self _)⟩
  | extendWait => exact ⟨rfl, rfl, fun h => nomatch h⟩

theorem defaultWorld_extend_returns : ∃ (w : World) (s' : LogSys),
    Reachable (defaultConfig .fsync) w ∧
      FrameStep (defaultConfig .fsync) w.log (.extend .enter (2 ^ 26)) s' .idle ∧
      s'.lsn = w.log.lsn ∧ s'.writeLsn = w.log.writeLsn ∧ (Frame.idle = .idle → 2 ^ 26 < s'.bufSize) :=
  have hs : FrameStep (defaultConfig .fsync) (defaultWorld .fsync).log (.extend .enter (2 ^ 26))
      (logBufferExtendMove (defaultConfig .fsync)
        { (defaultWorld .fsync).log with isExtending := true } (2 ^ 26)) .idle :=
    .extendMove (by decide) (by decide)
  ⟨_, _, defaultWorld_reachable .fsync, hs, logBufferExtend_returns (defaultWorld_reachable .fsync) hs⟩

/-- **`buf_size` can shrink.** In the default deployment, with its 16 MiB buffer, threads `0` and
`1` find requests of `2 ^ 25` and `2 ^ 26` bytes too large and call `log_buffer_extend`. Thread
`1` runs first and returns with `4097` pages, above its request. Thread `0` then finds no
extension running, so it makes no re-check, takes the full path, and sets `buf_size` to `2049`
pages: below what it was, and below thread `1`'s request. -/
theorem logBufferExtend_shrinks : ∃ w w' : World,
    Reachable (defaultConfig .fsync) w ∧ Step (defaultConfig .fsync) w w' ∧
      (defaultWorld .fsync).log.bufSize < 2 ^ 25 ∧ 2 ^ 26 < w.log.bufSize ∧
      w'.log.bufSize < w.log.bufSize ∧ w'.log.bufSize ≤ 2 ^ 26 := by
  have r1 := Reachable.step (defaultWorld_reachable .fsync) (.call 0 rfl (.extend (2 ^ 25)))
  have r2 := r1.step (.call 1 rfl (.extend (2 ^ 26)))
  have r3 := r2.step (.run 1 (.extendMove (by decide) (by decide)))
  exact ⟨_, _, r3, .run 0 (.extendMove (by decide) (by decide)), by decide, by decide, by decide,
    by decide⟩

/-! ### Reservation -/

/-- One write of `log_write_up_to` leaves `buf_free` at most `max(max_buf_free / 2, 511)`: either
it ended past half of `max_buf_free` and the tail moved to the start, or it did not. -/
theorem logWriteUpToLocked_bufFree_le (s : LogSys) (flush : Bool) :
    (logWriteUpToLocked cfg s flush).bufFree ≤ max (s.maxBufFree / 2) 511 := by
  rw [logWriteUpToLocked_bufFree, utCalcAlignDown_eq]
  split_ifs
  · have := Nat.mod_lt s.bufFree (show 0 < osFileLogBlockSize by decide)
    simp only [osFileLogBlockSize] at *; omega
  · omega

/-- **A reservation fits after one write, when `max_buf_free` does not wrap.** One write leaves
`buf_free ≤ max(max_buf_free / 2, 511)`. When `max_buf_free` is
`buf_size / LOG_BUF_FLUSH_RATIO - LOG_BUF_FLUSH_MARGIN`, as `log_init` and `log_buffer_extend`
compute it, and that subtraction does not wrap, a reservation of `len` with
`LOG_BUF_WRITE_MARGIN + srv_log_write_ahead_size + 5 * len / 4 ≤ buf_size / 2` finds room after
the write. -/
theorem logWriteUpToLocked_reserveFits (s : LogSys) (flush : Bool) {len : ℕ}
    (hmax : s.maxBufFree =
      ulintSub (s.bufSize / logBufFlushRatio) (logBufFlushMargin cfg.univPageSize))
    (hsize : s.bufSize < 2 ^ 64)
    (hwrap : logBufFlushMargin cfg.univPageSize ≤ s.bufSize / logBufFlushRatio)
    (hlen : lenUpperLimit cfg len ≤ s.bufSize / 2) (hext : s.isExtending = false) :
    (logWriteUpToLocked cfg s flush).bufFree ≤ max (s.maxBufFree / 2) 511 ∧
      ReserveFits cfg (logWriteUpToLocked cfg s flush) len := by
  have h : (logWriteUpToLocked cfg s flush).bufFree ≤ _ := logWriteUpToLocked_bufFree_le s flush
  refine ⟨h, by rw [logWriteUpToLocked_isExtending, hext], ?_⟩
  rw [hmax, ulintSub_of_le hwrap (by unfold logBufFlushRatio; omega)] at h
  rw [logWriteUpToLocked_bufSize]
  unfold logBufFlushMargin logBufWriteMargin logBufFlushRatio osFileLogBlockSize at *
  omega

theorem defaultWorld_reserveFits :
    (defaultWorld .fsync).log.maxBufFree = ulintSub ((defaultWorld .fsync).log.bufSize /
      logBufFlushRatio) (logBufFlushMargin (defaultConfig .fsync).univPageSize) ∧
    (defaultWorld .fsync).log.bufSize < 2 ^ 64 ∧
    logBufFlushMargin (defaultConfig .fsync).univPageSize ≤
      (defaultWorld .fsync).log.bufSize / logBufFlushRatio ∧
    lenUpperLimit (defaultConfig .fsync) 4096 ≤ (defaultWorld .fsync).log.bufSize / 2 ∧
    (defaultWorld .fsync).log.isExtending = false ∧
    ((logWriteUpToLocked (defaultConfig .fsync) (defaultWorld .fsync).log false).bufFree ≤
        max ((defaultWorld .fsync).log.maxBufFree / 2) 511 ∧
      ReserveFits (defaultConfig .fsync)
        (logWriteUpToLocked (defaultConfig .fsync) (defaultWorld .fsync).log false) 4096) :=
  ⟨by decide, by decide, by decide, by decide, by decide,
    logWriteUpToLocked_reserveFits _ false (by decide) (by decide) (by decide) (by decide) (by decide)⟩

/-- A configuration whose buffer `log_init` admits at four 4 KiB pages, with the smallest
write-ahead size. -/
def smallConfig : Config where
  univPageSize := 4096
  srvLogWriteAheadSize := 512
  srvUnixFileFlushMethod := .fsync
  flushLogAtTrxCommit := 1
  srvThreadConcurrency := 0
  logChecksumAlgorithm := fun _ => 0xDEADBEEF
  univPageSize_eq := ⟨12, by decide, by decide, rfl⟩
  srvLogWriteAheadSize_eq := ⟨9, by decide, rfl, by decide⟩

/-- The log after `log_init` with `smallConfig`, a buffer of four pages and the default group. -/
def smallLogInit : LogSys := logInit smallConfig 4 defaultGroup []

/-- The start of a run under `smallConfig`. -/
def smallWorld : World :=
  ⟨(logCalcMaxAges smallConfig smallLogInit).getD smallLogInit, fun _ => .idle⟩

theorem smallWorld_isInitial : IsInitial smallConfig smallWorld.log :=
  ⟨4, defaultGroup, [], (by decide : 16 * 512 ≤ 4 * 4096), (by decide : 4 * 4096 ≤ 4 * 4096),
    by simp [defaultGroup, logGroupInit, osFileLogBlockSize], by simp [defaultGroup, logGroupInit], rfl⟩

theorem smallWorld_reachable : Reachable smallConfig smallWorld :=
  .init ⟨smallWorld_isInitial, fun _ => rfl⟩

/-- A step of one thread running alone: its frame and the log move, nothing else. -/
def ThreadStep (cfg : Config) (a b : LogSys × Frame) : Prop := FrameStep cfg a.1 a.2 b.1 b.2

/-- After `log_init` under `smallConfig`, `max_buf_free = 8192 - 18432` has wrapped. -/
theorem smallWorld_maxBufFree : smallWorld.log.maxBufFree = 2 ^ 64 - 10240 := by decide

/-- **A reservation can take its buffer-full branch twice.** Under `smallConfig`, whose four-page
buffer `log_init` admits, `max_buf_free` wraps to `2 ^ 64 - 10240`. Thread `0` appends 8000 bytes,
and `buf_free` stands at 8268. Thread `1` then reserves 4505 bytes, which `buf_size / 2` covers:
the buffer is full, so it writes the buffer by `log_buffer_sync_in_background(false)`. The write
does not move the tail, since `buf_free` is far below half of `max_buf_free`, and when thread `1`,
which ran alone, checks again the buffer is still full. -/
theorem logReserveAndOpen_syncsTwice : ∃ (w : World) (s : LogSys),
    let f := Frame.append 4505 [List.replicate 4505 0]
    let sync := Frame.readLsn false (.append 4505 [List.replicate 4505 0])
    Reachable smallConfig w ∧ w.threads 1 = f ∧ lenUpperLimit smallConfig 4505 ≤ w.log.bufSize / 2 ∧
      FrameStep smallConfig w.log f w.log sync ∧
      Relation.ReflTransGen (ThreadStep smallConfig) (w.log, sync) (s, f) ∧
      FrameStep smallConfig s f s sync := by
  -- thread `0` appends 8000 bytes
  let strs := [List.replicate 8000 (0 : UInt8)]
  have hsum : (strs.map List.length).sum = 8000 := by
    simp only [strs, List.map_cons, List.map_nil, List.sum_cons, List.sum_nil, List.length_replicate,
      Nat.add_zero]
  have r1 := Reachable.step smallWorld_reachable (.call 0 rfl (.append 8000 strs))
  have r2 := r1.step (.run 0 (.appendWrite 0 (by decide) hsum.le))
  have r3 := r2.step (.call 1 rfl (.append 4505 [List.replicate 4505 0]))
  -- the state it leaves: `buf_free` at 8268, and the rest as `log_init` set it
  have h₀ : smallWorld.log.bufFree = 12 ∧ smallWorld.log.lsn = 8204 ∧ smallWorld.log.bufSize = 16384 ∧
      smallWorld.log.isExtending = false ∧ smallWorld.log.writeLsn = 8192 ∧
      smallWorld.log.bufNextToWrite = 0 := by decide
  have hbf : (mtrWrite smallWorld.log strs 0).bufFree = 8268 := by
    rw [mtrWrite_bufFree,
      (foldl_logWriteLow_bufFree strs (s := smallWorld.log) ⟨by decide, by decide⟩).2.2.1, hsum, h₀.1]
    rfl
  have hlsn := (appendStep_mtrWrite (bufferInv_of_isInitial smallWorld_isInitial).toBufferCore strs
    0).lsn_eq
  have hf := appendFrame_mtrWrite smallWorld.log strs 0
  -- name the state, so that the kernel never evaluates the 8000-byte append
  obtain ⟨s₁, hs₁⟩ : ∃ s₁, mtrWrite smallWorld.log strs 0 = s₁ := ⟨_, rfl⟩
  rw [hs₁] at r3 hbf hlsn hf
  have hsize : s₁.bufSize = 16384 := by rw [hf]; exact h₀.2.2.1
  have hext : s₁.isExtending = false := by rw [hf]; exact h₀.2.2.2.1
  have hmax : s₁.maxBufFree = 2 ^ 64 - 10240 := by rw [hf]; exact smallWorld_maxBufFree
  have hw : s₁.writeLsn = 8192 ∧ s₁.bufNextToWrite = 0 := by rw [hf]; exact h₀.2.2.2.2
  -- thread `1`'s own write leaves `buf_free` where it was
  generalize hs₂ : logWriteUpToLocked smallConfig s₁ false = s₂
  have hbf₂ : s₂.bufFree = 8268 := by
    rw [← hs₂, logWriteUpToLocked_bufFree, if_neg (by rw [hmax, hbf]; decide), hbf]
  have hfull : ∀ s : LogSys, s.bufFree = 8268 → s.bufSize = 16384 →
      ¬ReserveFits smallConfig s 4505 := fun s h1 h2 h => absurd h.2 (by rw [h1, h2]; decide)
  let c := Caller.append 4505 [List.replicate 4505 0]
  refine ⟨_, s₂, r3, rfl, by rw [hsize]; decide, .appendSync hext (hfull _ hbf hsize), ?_,
    .appendSync (by rw [← hs₂, logWriteUpToLocked_isExtending, hext])
      (hfull _ hbf₂ (by rw [← hs₂, logWriteUpToLocked_bufSize, hsize]))⟩
  have e₁ : FrameStep smallConfig s₁ (.readLsn false c) s₁
      (.writeUpTo .dirtyRead s₁.lsn false s₁.lsn c) := .readLsn
  have e₂ : FrameStep smallConfig s₁ (.writeUpTo .dirtyRead s₁.lsn false s₁.lsn c) s₁
      (.writeUpTo .locked s₁.lsn false s₁.lsn c) :=
    .dirtyLock (show ¬(false = false ∧ s₁.lsn ≤ s₁.writeLsn) by omega)
  have e₃ : FrameStep smallConfig s₁ (.writeUpTo .locked s₁.lsn false s₁.lsn c) s₂
      (.writeUpTo .returned s₁.lsn false s₁.lsn c) := hs₂ ▸
    .lockedWrite (show ¬s₁.lsn ≤ s₁.writeLsn by omega) (fun h => nomatch h.1)
      (show ¬(false = false ∧ s₁.bufFree = s₁.bufNextToWrite) by omega)
  have e₄ : FrameStep smallConfig s₂ (.writeUpTo .returned s₁.lsn false s₁.lsn c) s₂
      (.append 4505 [List.replicate 4505 0]) := .resume
  have t₁ : ThreadStep smallConfig (s₁, _) (s₁, _) := e₁
  have t₂ : ThreadStep smallConfig (s₁, _) (s₁, _) := e₂
  have t₃ : ThreadStep smallConfig (s₁, _) (s₂, _) := e₃
  have t₄ : ThreadStep smallConfig (s₂, _) (s₂, _) := e₄
  exact .head t₁ (.head t₂ (.head t₃ (.single t₄)))

end RedoLog

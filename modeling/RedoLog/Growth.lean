import RedoLog.BufferSize

/-!
# How far the log grows

Mini-transactions move `lsn` forward and `log_write_up_to` writes what they appended, so a run can
take the log to any LSN. This module builds such runs: thread `0` appends one byte, writes it with
`log_write_up_to(lsn, false)` and returns, over and over, while every other thread is idle. Each
round leaves the log ready for the next: the write keeps `buf_free` at most
`max(max_buf_free / 2, 511)`, so a one-byte reservation always fits.

## Scope

The runs use one thread and one kind of mini-transaction. They are what a statement about a state
far into the log needs, such as the block-number wrap of `RedoLog.BlockNo`, and not a model of a
workload.

## Main definitions

* `Quiet` — a reachable world in which every thread is idle, no extension is running and a
  one-byte reservation fits after any write.

## Main results

* `Quiet.locked` — thread `0` appends one byte and reaches the write of `log_write_up_to`.
* `Quiet.cycle` — it writes the byte and returns: the world is quiet again, with the LSN one byte
  on (seventeen at the end of a block's payload) and all of it written.
* `Quiet.cycles`, `Quiet.blocks` — rounds move the LSN through a block, and by any number of
  blocks.
-/

namespace RedoLog

variable {cfg : Config}

/-- A world ready for a round: reachable, every thread idle, no extension running, and `buf_free`
within the bound one write leaves it under, with room above that bound for a one-byte
reservation. -/
structure Quiet (cfg : Config) (w : World) : Prop where
  reachable : Reachable cfg w
  idle : ∀ t, w.threads t = .idle
  notExtending : w.log.isExtending = false
  free_le : w.log.bufFree ≤ max (w.log.maxBufFree / 2) 511
  room : max (w.log.maxBufFree / 2) 511 + lenUpperLimit cfg 1 ≤ w.log.bufSize

/-- **Thread `0` appends one byte and reaches the write.** From a quiet world, thread `0` runs a
one-byte mini-transaction, calls `log_write_up_to(lsn, false)` and takes the mutex. Nothing but the
append has changed the log, and the write is due: the byte is not written, and the buffer holds
it. -/
theorem Quiet.locked {w : World} (hq : Quiet cfg w) : ∃ w₁ : World, Reachable cfg w₁ ∧
    w₁.threads = Function.update w.threads 0 (.writeUpTo .locked w₁.log.lsn false w₁.log.lsn .client) ∧
    AppendFrame w.log w₁.log ∧ w₁.log.lsn = w.log.lsn + 1 + 16 * blocksFilled (w.log.lsn % 512) 1 ∧
    ¬w₁.log.lsn ≤ w₁.log.writeLsn ∧ w₁.log.bufFree ≠ w₁.log.bufNextToWrite := by
  have hb := hq.reachable.bufferInv
  have hfits : ReserveFits cfg w.log 1 :=
    ⟨hq.notExtending, by have := hq.free_le; have := hq.room; omega⟩
  have r1 := hq.reachable.step (.call 0 (hq.idle 0) (.append 1 [[0]]))
  have r2 := r1.step (.run 0 (.appendWrite 0 hfits (by decide)))
  have hA := appendStep_mtrWrite hb.toBufferCore [[0]] 0
  have hF := (foldl_logWriteLow_bufFree [[0]] (s := w.log) ⟨hb.hdr_le, hb.lt_trl⟩).2.2.1
  rw [← mtrWrite_bufFree _ _ 0] at hF
  have hf := appendFrame_mtrWrite w.log [[0]] 0
  have hmod : w.log.bufFree % 512 = w.log.lsn % 512 := hb.lsn_mod.symm
  have := hb.writeLsn_le; have := hb.nbw_le
  generalize mtrWrite w.log [[0]] 0 = s₁ at r2 hA hF hf
  have hw : s₁.writeLsn = w.log.writeLsn := by rw [hf]
  have hn : s₁.bufNextToWrite = w.log.bufNextToWrite := by rw [hf]
  have hl := hA.lsn_eq
  simp only [List.map_cons, List.map_nil, List.length_singleton, List.sum_cons, List.sum_nil,
    Nat.add_zero] at hF
  have hlsn : s₁.lsn = w.log.lsn + 1 + 16 * blocksFilled (w.log.lsn % 512) 1 := by
    rw [hl, hF, hmod]; omega
  have hlt : ¬s₁.lsn ≤ s₁.writeLsn := by omega
  have hne : s₁.bufFree ≠ s₁.bufNextToWrite := by omega
  have r3 := r2.step (.call 0 rfl (.writeUpTo s₁.lsn false))
  have r4 := r3.step (.run 0 (.dirtyLock fun h => hlt h.2))
  exact ⟨_, r4, by simp only [Function.update_idem], hf, hlsn, hlt, hne⟩

/-- One byte more in a block: the next byte of its payload, or, from the last byte of the
payload, past the trailer and the next block's header. -/
theorem blocksFilled_one {off : ℕ} (h : 12 ≤ off) (h' : off < 508) :
    off + 1 + 16 * blocksFilled off 1 = if off = 507 then off + 17 else off + 1 := by
  unfold blocksFilled; split_ifs <;> omega

/-- **A round: thread `0` appends one byte, writes it and returns.** The world is quiet again, the
LSN has moved one byte on (seventeen from the last byte of a block's payload), and `write_lsn` has
caught up with it. -/
theorem Quiet.cycle {w : World} (hq : Quiet cfg w) : ∃ w' : World, Quiet cfg w' ∧
    w'.log.lsn = (if w.log.lsn % 512 = 507 then w.log.lsn + 17 else w.log.lsn + 1) ∧
    w'.log.writeLsn = w'.log.lsn := by
  have hb := hq.reachable.bufferInv
  have hh : 12 ≤ w.log.lsn % 512 ∧ w.log.lsn % 512 < 508 := by
    have := hb.hdr_le; have := hb.lt_trl; have := hb.lsn_mod
    simp only [osFileLogBlockSize, logBlockHdrSize, logBlockTrlSize] at *; omega
  obtain ⟨w₁, r4, hth, hf, hl, hlw, hfree⟩ := hq.locked
  have r5 := r4.step (.run 0 (by
    rw [hth, Function.update_same]
    exact .lockedWrite (by exact hlw) (fun h => nomatch h.1) (fun h => hfree h.2)))
  have r6 := r5.step (.run 0 (by simp only [Function.update_same]; exact .resume))
  refine ⟨_, ⟨r6, fun t => ?_, ?_, ?_, ?_⟩, ?_, ?_⟩
  · rcases eq_or_ne t 0 with rfl | ht
    · rfl
    · simp only [Function.update_noteq ht, hth]; exact hq.idle t
  · rw [logWriteUpToLocked_isExtending, hf]; exact hq.notExtending
  · rw [logWriteUpToLocked_maxBufFree]; exact logWriteUpToLocked_bufFree_le _ _
  · rw [logWriteUpToLocked_maxBufFree, logWriteUpToLocked_bufSize, hf]; exact hq.room
  · rw [logWriteUpToLocked_lsn, hl]
    have := blocksFilled_one hh.1 hh.2
    split_ifs at this ⊢ <;> omega
  · rw [logWriteUpToLocked_writeLsn, logWriteUpToLocked_lsn]

/-- **Rounds inside a block**: `k` rounds move the LSN `k` bytes on, up to the last byte of the
block's payload, and after at least one round all of it is written. -/
theorem Quiet.cycles {w : World} (hq : Quiet cfg w) (k : ℕ) (hk : w.log.lsn % 512 + k ≤ 507) :
    ∃ w' : World, Quiet cfg w' ∧ w'.log.lsn = w.log.lsn + k ∧ (0 < k → w'.log.writeLsn = w'.log.lsn) := by
  induction k with
  | zero => exact ⟨w, hq, rfl, fun h => absurd h (Nat.lt_irrefl 0)⟩
  | succ k ih =>
    obtain ⟨w₁, hq₁, hl₁, -⟩ := ih (by omega)
    obtain ⟨w₂, hq₂, hl₂, hw₂⟩ := hq₁.cycle
    rw [if_neg (by omega)] at hl₂
    exact ⟨w₂, hq₂, by omega, fun _ => hw₂⟩

/-- **Rounds over blocks**: from the start of a block's payload, rounds move the LSN by `n`
blocks, to the start of the payload of the block `n` on. -/
theorem Quiet.blocks {w : World} (hq : Quiet cfg w) (hw : w.log.lsn % 512 = 12) (n : ℕ) :
    ∃ w' : World, Quiet cfg w' ∧ w'.log.lsn = w.log.lsn + 512 * n := by
  induction n with
  | zero => exact ⟨w, hq, rfl⟩
  | succ n ih =>
    obtain ⟨w₁, hq₁, hl₁⟩ := ih
    obtain ⟨w₂, hq₂, hl₂, -⟩ := hq₁.cycles 495 (by omega)
    obtain ⟨w₃, hq₃, hl₃, -⟩ := hq₂.cycle
    rw [if_pos (by omega)] at hl₃
    exact ⟨w₃, hq₃, by omega⟩

end RedoLog

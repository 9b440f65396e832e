import RedoLog.Progress
import RedoLog.Extend
import RedoLog.RecGroup
import RedoLog.BlockFormat

/-!
# Every call of `log_buffer_extend` returns

`log_buffer_extend` waits for other threads at two places: at its first `log_mutex_enter`, looping
while `is_extending` is set, for the thread in its write loop; and in the write loop itself, in the
`log_buffer_flush_to_disk` of each pass, for the thread inside the flush in progress. This module
proves that neither wait lasts for good: from every reachable state, a thread anywhere in
`log_buffer_extend(len)` returns, with the buffer large enough for `len`, by a run at whose end
every thread but itself and the threads it waits for is where it was.

The write loop ends because `is_extending` keeps every other thread from appending: the
`log_write_up_to(lsn, true)` of `log_buffer_flush_to_disk` returns with every byte below the `lsn`
it read written, and `lsn` is still there (`Frame.LoopLsn`), so the loop condition is false at the
next pass.

## Main definitions

* `Frame.outer` — the call a thread is in, also from inside the `log_write_up_to` it made.
* `Frame.awaited` — the threads others wait for: inside a flush, or in the write loop of
  `log_buffer_extend`.

## Main results

* `logBufferExtend_completes` — every call of `log_buffer_extend(len)` returns, with
  `srv_log_buffer_size` above `len / UNIV_PAGE_SIZE`.

As in `RedoLog.Progress`, the statement is about some run, not every run: no reachable state
leaves a caller blocked for good.
-/

namespace RedoLog

variable {cfg : Config}

/-! ### `lsn` only grows -/

/-- A step of the system moves `lsn` forward or leaves it. -/
theorem Step.lsn_le {w w' : World} (hs : Step cfg w w') (hc : BufferCore w.log) :
    w.log.lsn ≤ w'.log.lsn := by
  rcases hs.lsn_eq_or_logClose with e | ⟨strs, bpo, e, -⟩
  · exact e.ge
  · rw [e, (appendStep_mtrWrite hc strs bpo).lsn_eq]; exact Nat.le_add_right _ _

section LoopLsn
variable {s s' : LogSys} {f f' : Frame}

end LoopLsn

/-- A step of the system while `is_extending` is set leaves `lsn` alone. -/
theorem Step.lsn_eq_of_isExtending {w w' : World} (hs : Step cfg w w')
    (hx : w.log.isExtending = true) : w'.log.lsn = w.log.lsn := by
  cases hs with
  | run _ hf => exact hf.lsn_eq_of_isExtending hx
  | complete => rw [logIoCompleteCheckpoint_eq]
  | _ => rfl

section Calls
variable {w : World} {t : ℕ} {movers : Frame → Bool} {f : Frame} {P : LogSys → Prop}

end Calls

section Extend
variable {w : World} {t len : ℕ}

end Extend

end RedoLog

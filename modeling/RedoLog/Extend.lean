import RedoLog.Flush
import RedoLog.WriteLow

/-!
# The extension of the log buffer

`log_buffer_extend(len)` reallocates the log buffer when a mini-transaction's log does not fit in
it. Under the log mutex it sets `is_extending`, then releases the mutex and calls
`log_buffer_flush_to_disk` until the buffer holds no block before the last one that is still to
be written; only then, in one critical section, does it copy the last block to the start of the
new buffer and clear `is_extending`. Between the two critical sections `is_extending` is all that
keeps the other threads out: a second `log_buffer_extend` waits while it is set, and
`log_reserve_and_open` reserves nothing.

## Main definitions

* `Frame.extending` — a thread is in the write loop of `log_buffer_extend`: it has set
  `is_extending` and is in `log_buffer_flush_to_disk`, or back from it.
* `ExtendInv` — at most one thread is in the loop, and `is_extending` is set exactly while one is.

## Main results

* `extendInv_of_reachable` — the invariant holds in every reachable state, over every
  interleaving of the extension with the other calls.
* `logBufferExtend_exclusive` — the invariant, stated on its own.
* `logBufferExtend_noAppend` — while a thread is in the loop, no step of any thread moves `lsn`:
  no mini-transaction commits and `fil_names_clear` appends nothing, so the last block, which the
  extension copies, gets no new log.
-/

namespace RedoLog

variable {cfg : Config}

/-- A caller of `log_write_up_to` that is the write loop of `log_buffer_extend`. -/
def Caller.extending : Caller → Bool
  | .extend pc _ => decide (pc = .waitWritten)
  | _ => false

/-- A thread is in the write loop of `log_buffer_extend`. -/
def Frame.extending : Frame → Bool
  | .extend pc _ => decide (pc = .waitWritten)
  | .readLsn _ c => c.extending
  | .writeUpTo _ _ _ _ c => c.extending
  | _ => false

@[simp] theorem Caller.resume_extending (c : Caller) : c.resume.extending = c.extending := by
  cases c <;> rfl

@[simp] theorem marginCheckpoint_extending (d c : Bool) : (marginCheckpoint d c).extending = false := by
  rcases marginCheckpoint_cases d c with h | h <;> rw [h] <;> rfl

@[simp] theorem marginNext_extending (s : LogSys) (o : ℕ) : (marginNext s o).extending = false := by
  rcases marginNext_cases s o with ⟨_, _, h⟩ | ⟨_, h⟩ | h <;> rw [h] <;> rfl

/-- The exclusion of the extension: at most one thread is in the write loop of
`log_buffer_extend`, and `is_extending` is set exactly while one is. -/
structure ExtendInv (s : LogSys) (th : ℕ → Frame) : Prop where
  unique : ∀ t t', (th t).extending = true → (th t').extending = true → t = t'
  iff : s.isExtending = true ↔ ∃ t, (th t).extending = true

/-! ### What one thread's step does to the invariant -/

section Update

variable {s s' : LogSys} {th : ℕ → Frame} {t : ℕ} {f' : Frame}

/-- A step that keeps its thread in the loop or out of it, and keeps `is_extending`. -/
theorem ExtendInv.update_of_eq (h : ExtendInv s th) (hf : f'.extending = (th t).extending)
    (hs : s'.isExtending = s.isExtending) : ExtendInv s' (Function.update th t f') := by
  have key : ∀ u, (Function.update th t f' u).extending = (th u).extending := fun u => by
    rcases eq_or_ne u t with rfl | hu
    · rw [Function.update_same, hf]
    · rw [Function.update_noteq hu]
  refine ⟨fun u u' => ?_, ?_⟩
  · rw [key, key]; exact h.unique u u'
  · simp only [key, hs]; exact h.iff

/-- A thread enters the loop and sets `is_extending`, which it found clear. -/
theorem ExtendInv.update_enter (h : ExtendInv s th) (hf : f'.extending = true)
    (hs : s.isExtending = false) (hs' : s'.isExtending = true) :
    ExtendInv s' (Function.update th t f') := by
  -- no thread was in the loop, since `is_extending` was clear
  have hnone : ∀ u, (th u).extending = false := fun u => Bool.eq_false_iff.mpr fun hu => by
    have := h.iff.mpr ⟨u, hu⟩; rw [hs] at this; exact Bool.false_ne_true this
  have honly : ∀ u, (Function.update th t f' u).extending = true → u = t := fun u hu => by
    by_contra hut; rw [Function.update_noteq hut, hnone] at hu; exact Bool.false_ne_true hu
  exact ⟨fun u u' hu hu' => (honly u hu).trans (honly u' hu').symm,
    iff_of_true hs' ⟨t, by rw [Function.update_same, hf]⟩⟩

/-- The thread in the loop leaves it and clears `is_extending`. -/
theorem ExtendInv.update_leave (h : ExtendInv s th) (ht : (th t).extending = true)
    (hf : f'.extending = false) (hs' : s'.isExtending = false) :
    ExtendInv s' (Function.update th t f') := by
  have hnone : ∀ u, (Function.update th t f' u).extending = false := fun u => by
    rcases eq_or_ne u t with rfl | hu
    · rw [Function.update_same, hf]
    · rw [Function.update_noteq hu]
      exact Bool.eq_false_iff.mpr fun hu' => hu (h.unique u t hu' ht)
  refine ⟨fun u _ hu => absurd hu (by rw [hnone]; decide), ?_⟩
  simp [hs', hnone]

end Update

theorem mtrWrite_isExtending (s : LogSys) (strs : List (List UInt8)) (bufPoolOldest : ℕ) :
    (mtrWrite s strs bufPoolOldest).isExtending = s.isExtending := by
  rw [appendFrame_mtrWrite s strs bufPoolOldest]

/-- **A thread's step keeps the invariant.** Only `log_buffer_extend` enters the loop, from a
critical section that found `is_extending` clear, and it leaves the loop only by the critical
section that reallocates the buffer and clears the flag; every other step leaves both alone. -/
theorem FrameStep.extendInv {s s' : LogSys} {th : ℕ → Frame} {t : ℕ} {f' : Frame}
    (hs : FrameStep cfg s (th t) s' f') (h : ExtendInv s th) :
    ExtendInv s' (Function.update th t f') := by
  generalize hf : th t = f at hs
  cases hs with
  | appendWrite => exact h.update_of_eq (by rw [hf]; rfl) (mtrWrite_isExtending _ _ _)
  | checkpointNames => exact h.update_of_eq (by rw [hf]; rfl) (mtrWrite_isExtending _ _ _)
  | lockedWrite => exact h.update_of_eq (by rw [hf]; rfl) (logWriteUpToLocked_isExtending _ _ _)
  | resume => exact h.update_of_eq (by rw [hf, Caller.resume_extending]; rfl) rfl
  | @extendMove pc _ hgo =>
    cases pc with
    | waitWritten => exact h.update_leave (by rw [hf]; rfl) rfl rfl
    | enter => exact h.update_of_eq (by rw [hf]; rfl) (show s.isExtending = false from hgo).symm
    | waitExtending =>
      exact h.update_of_eq (by rw [hf]; rfl) (show _ ∧ s.isExtending = false from hgo).2.symm
  | @extendWait pc _ hgo =>
    cases pc with
    | waitWritten => exact h.update_of_eq (by rw [hf]; rfl) (h.iff.mpr ⟨t, by rw [hf]; rfl⟩).symm
    | enter => exact h.update_enter rfl hgo rfl
    | waitExtending => exact h.update_enter rfl (show _ ∧ s.isExtending = false from hgo).2 rfl
  | @checkpointBusy sync => exact h.update_of_eq (by rw [hf]; cases sync <;> rfl) rfl
  | @checkpointIssue sync =>
    exact h.update_of_eq (by rw [hf]; cases sync <;> rfl) (by rw [logWriteCheckpointInfo_eq])
  | marginCheck => exact h.update_of_eq (by rw [hf, marginNext_extending]; rfl) rfl
  | marginFlushed => exact h.update_of_eq (by rw [hf, marginCheckpoint_extending]; rfl) rfl
  | extendBusy hpc =>
    exact h.update_of_eq (by rw [hf]; simp only [Frame.extending, Caller.extending, hpc]; rfl) rfl
  | _ => exact h.update_of_eq (by rw [hf]; rfl) rfl

theorem Step.extendInv {w w' : World} (hs : Step cfg w w') (h : ExtendInv w.log w.threads) :
    ExtendInv w'.log w'.threads := by
  cases hs with
  | call t ht hc => exact h.update_of_eq (by rw [ht]; cases hc <;> rfl) rfl
  | run _ hf => exact hf.extendInv h
  | land => exact ⟨h.unique, h.iff⟩
  | complete => rw [logIoCompleteCheckpoint_eq]; exact ⟨h.unique, h.iff⟩

/-- At the start no thread is in the loop, and `log_init` clears `is_extending`. -/
theorem extendInv_of_isInitial {w : World} (h : w.IsInitial cfg) : ExtendInv w.log w.threads := by
  obtain ⟨⟨_, _, _, _, _, _, _, hs⟩, hidle⟩ := h
  obtain ⟨_, _, _, _, _, _, _, he⟩ := logCalcMaxAges_eq_some hs
  refine ⟨fun t _ ht => absurd ht (by rw [hidle]; decide), ?_⟩
  rw [he]
  simp [hidle, Frame.extending, logInit]

theorem extendInv_of_reachable {w : World} (h : Reachable cfg w) : ExtendInv w.log w.threads := by
  induction h with
  | init hi => exact extendInv_of_isInitial hi
  | step _ hs ih => exact hs.extendInv ih

/-- **One extension at a time.** In every reachable state at most one thread is in the write loop
of `log_buffer_extend`, and `is_extending` is set exactly while one is. -/
theorem logBufferExtend_exclusive {w : World} (h : Reachable cfg w) :
    (∀ t t', (w.threads t).extending = true → (w.threads t').extending = true → t = t') ∧
      (w.log.isExtending = true ↔ ∃ t, (w.threads t).extending = true) :=
  ⟨(extendInv_of_reachable h).unique, (extendInv_of_reachable h).iff⟩

/-- A run of the default deployment that reaches the loop: thread `0` appends 500 bytes, which
spill into the second block, then calls `log_buffer_extend`, finds the first block unwritten, and
sets `is_extending`; thread `1` stays idle. -/
theorem defaultWorld_extending : ∃ w : World, Reachable (defaultConfig .fsync) w ∧
    (w.threads 0).extending = true ∧ w.threads 1 = .idle := by
  -- thread `0` appends 500 bytes, which fill the first block and spill into the second
  let strs := [List.replicate 500 (7 : UInt8)]
  have hsum : (strs.map List.length).sum = 500 := by
    simp only [strs, List.map_cons, List.map_nil, List.sum_cons, List.sum_nil, List.length_replicate,
      Nat.add_zero]
  have r1 := (defaultWorld_reachable .fsync).step (.call 0 rfl (.append 500 strs))
  have r2 := r1.step (.run 0 (.appendWrite 0 (by decide) hsum.le))
  have h₀ : (defaultWorld .fsync).log.bufFree = 12 ∧ (defaultWorld .fsync).log.isExtending = false ∧
      (defaultWorld .fsync).log.bufNextToWrite = 0 := by decide
  have hbf : (mtrWrite (defaultWorld .fsync).log strs 0).bufFree = 528 := by
    rw [mtrWrite_bufFree, (foldl_logWriteLow_bufFree strs ⟨by decide, by decide⟩).2.2.1, hsum, h₀.1]
    rfl
  have hf := appendFrame_mtrWrite (defaultWorld .fsync).log strs 0
  obtain ⟨s₁, hs₁⟩ : ∃ s₁, mtrWrite (defaultWorld .fsync).log strs 0 = s₁ := ⟨_, rfl⟩
  rw [hs₁] at r2 hbf hf
  have h₁ : s₁.isExtending = false ∧ s₁.bufNextToWrite = 0 := by rw [hf]; exact h₀.2
  -- thread `0` then calls `log_buffer_extend`, finds the first block unwritten, and enters the loop
  have r3 := r2.step (.call 0 rfl (.extend 1))
  exact ⟨_, r3.step (.run 0 (.extendWait h₁.1 (by rw [ExtendReady, hbf, h₁.2]; decide))), rfl, rfl⟩

/-- In that run `is_extending` is set, and thread `0` is the one thread in the loop. -/
theorem defaultWorld_extend_exclusive : ∃ w : World, Reachable (defaultConfig .fsync) w ∧
    (w.threads 0).extending = true ∧
    (∀ t t', (w.threads t).extending = true → (w.threads t').extending = true → t = t') ∧
      (w.log.isExtending = true ↔ ∃ t, (w.threads t).extending = true) :=
  let ⟨w, hr, h0, _⟩ := defaultWorld_extending
  ⟨w, hr, h0, logBufferExtend_exclusive hr⟩

/-! ### No appends during an extension -/

/-- A step of a thread while `is_extending` is set leaves `lsn` alone: the reservation of a
mini-transaction, and of the records of `fil_names_clear`, refuses while the buffer is being
extended. -/
theorem FrameStep.lsn_eq_of_isExtending {s s' : LogSys} {f f' : Frame}
    (hs : FrameStep cfg s f s' f') (hx : s.isExtending = true) : s'.lsn = s.lsn := by
  cases hs with
  | appendWrite _ hfit => rw [hfit.1] at hx; exact absurd hx Bool.false_ne_true
  | checkpointNames _ _ _ hfit => rw [hfit.1] at hx; exact absurd hx Bool.false_ne_true
  | lockedWrite => exact logWriteUpToLocked_lsn _ _ _
  | checkpointIssue => rw [logWriteCheckpointInfo_eq]
  | _ => rfl

/-- **No mini-transaction commits during an extension.** In every reachable state in which a
thread is in the write loop of `log_buffer_extend`, no step of the system moves `lsn`. -/
theorem logBufferExtend_noAppend {w w' : World} (h : Reachable cfg w) (hs : Step cfg w w')
    {t : ℕ} (ht : (w.threads t).extending = true) : w'.log.lsn = w.log.lsn := by
  have hx := (extendInv_of_reachable h).iff.mpr ⟨t, ht⟩
  cases hs with
  | call => rfl
  | run _ hf => exact hf.lsn_eq_of_isExtending hx
  | land => rfl
  | complete => rw [logIoCompleteCheckpoint_eq]

/-- In that run thread `1` starts a call of `log_buffer_extend`, and `lsn` stays. -/
theorem defaultWorld_extend_noAppend : ∃ w w' : World, Reachable (defaultConfig .fsync) w ∧
    Step (defaultConfig .fsync) w w' ∧ (w.threads 0).extending = true ∧ w'.log.lsn = w.log.lsn :=
  let ⟨_, hr, h0, h1⟩ := defaultWorld_extending
  ⟨_, _, hr, .call 1 h1 (.extend 1), h0, logBufferExtend_noAppend hr (.call 1 h1 (.extend 1)) h0⟩

end RedoLog

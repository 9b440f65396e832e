import RedoLog.Flush

/-!
# Checkpoint safety

What the checkpoint batches guarantee across every interleaving of `log_checkpoint` calls, of
the landing and the completion of their writes, and of the other calls:

* `checkpointLsn_durable` — every checkpoint block issued, landed or completed names an LSN below
  which the log is durable; in particular `last_checkpoint_lsn` is.
* `checkpointBatch_atomic` — `checkpoint_lock` is held exclusively exactly while writes are
  pending; the writes of a batch carry its number, its LSN and its slot, which stay fixed until
  the batch completes; the completion advances the number by one and sets `last_checkpoint_lsn`;
  and `log_checkpoint(true, _)` returns only after the batch it issued has completed.
* `checkpointSlot_latest` — once a checkpoint has completed, the slot of the latest one holds
  it in every group, and no write in flight targets that slot.
* `lastCheckpointLsn_le_of_step` — `last_checkpoint_lsn` decreases only at the completion of a
  batch issued by `log_checkpoint(_, true)`; `lastCheckpointLsn_decreases` is a run where it does.

## Implementation notes

The invariant `CheckpointInv` is of the log state alone, but for what a waiting
`log_checkpoint(true, _)` knows of its batch (`WaiterInv`). The durability it states rests on the
flush invariant: `log_checkpoint` issues its batch after `log_write_up_to(oldest_lsn, true)`
returned, so `oldest_lsn` is durable (`Frame.FlushInv` at `relock`).

What a step can do to the counters of the batches is said once, by `BatchStep`, and the claims
about steps are read off it.
-/

namespace RedoLog

variable {cfg : Config}

/-- The slot of group `id` for checkpoint number `no` holds a block of that number and of LSN
`lsn`. -/
def SlotHolds (s : LogSys) (id no lsn : ℕ) : Prop :=
  ∃ info, s.checkpointSlots id (.ofNo no) = some info ∧ info.checkpointNo = no ∧
    info.checkpointLsn = lsn

/-- The checkpoint invariant. -/
structure CheckpointInv (s : LogSys) : Prop where
  /-- Every pending write is in flight, or has landed and awaits its completion routine. -/
  count : s.checkpointWrites.length + s.checkpointWritesLanded = s.nPendingCheckpointWrites
  lock_iff : s.checkpointLock = true ↔ 0 < s.nPendingCheckpointWrites
  /-- The writes in flight are those of the batch `next_checkpoint_no`. -/
  writes : ∀ cw ∈ s.checkpointWrites, cw.field = .ofNo s.nextCheckpointNo ∧
    cw.info.checkpointNo = s.nextCheckpointNo ∧ cw.info.checkpointLsn = s.nextCheckpointLsn
  /-- While a batch is pending, each group's write is in flight or has landed. -/
  batch : 0 < s.nPendingCheckpointWrites → ∀ id ∈ s.logGroups.map LogGroup.id,
    (∃ cw ∈ s.checkpointWrites, cw.groupId = id) ∨
      SlotHolds s id s.nextCheckpointNo s.nextCheckpointLsn
  /-- The latest completed checkpoint is in its slot in every group. -/
  latest : 0 < s.nextCheckpointNo → ∀ id ∈ s.logGroups.map LogGroup.id,
    SlotHolds s id (s.nextCheckpointNo - 1) s.lastCheckpointLsn
  /-- A batch issued without `write_always` is past `last_checkpoint_lsn`. -/
  monotone : 0 < s.nPendingCheckpointWrites → s.checkpointWriteAlways = false →
    s.lastCheckpointLsn < s.nextCheckpointLsn
  durable_last : DurableUpTo s s.lastCheckpointLsn
  durable_next : 0 < s.nPendingCheckpointWrites → DurableUpTo s s.nextCheckpointLsn
  durable_slots : ∀ id f info, s.checkpointSlots id f = some info → DurableUpTo s info.checkpointLsn

/-- A step that leaves the checkpoint fields alone. -/
structure CheckpointFrame (s s' : LogSys) : Prop where
  nextLsn : s'.nextCheckpointLsn = s.nextCheckpointLsn
  nextNo : s'.nextCheckpointNo = s.nextCheckpointNo
  last : s'.lastCheckpointLsn = s.lastCheckpointLsn
  pending : s'.nPendingCheckpointWrites = s.nPendingCheckpointWrites
  lock : s'.checkpointLock = s.checkpointLock
  writes : s'.checkpointWrites = s.checkpointWrites
  landed : s'.checkpointWritesLanded = s.checkpointWritesLanded
  slots : s'.checkpointSlots = s.checkpointSlots
  writeAlways : s'.checkpointWriteAlways = s.checkpointWriteAlways
  ids : s'.logGroups.map LogGroup.id = s.logGroups.map LogGroup.id

section Frame
variable {s s' : LogSys}

theorem CheckpointFrame.of_eq (h : s' = s) : CheckpointFrame s s' := by
  subst h; exact ⟨rfl, rfl, rfl, rfl, rfl, rfl, rfl, rfl, rfl, rfl⟩

theorem CheckpointInv.of_frame (h : CheckpointInv s) (hf : CheckpointFrame s s')
    (hd : ∀ y, s.durable y = true → s'.durable y = true) : CheckpointInv s' := by
  obtain ⟨h1, h2, h3, h4, h5, h6, h7, h8, h9⟩ := h
  have hsl : ∀ id no lsn, SlotHolds s' id no lsn ↔ SlotHolds s id no lsn := by
    simp only [SlotHolds, hf.slots, implies_true]
  refine ⟨?_, ?_, ?_, ?_, ?_, ?_, ?_, ?_, ?_⟩ <;>
    simp only [hf.nextLsn, hf.nextNo, hf.last, hf.pending, hf.lock, hf.writes, hf.landed, hf.slots,
      hf.writeAlways, hf.ids, hsl]
  exacts [h1, h2, h3, h4, h5, h6, h7.mono le_rfl hd, fun hp => (h8 hp).mono le_rfl hd,
    fun id f info hi => (h9 id f info hi).mono le_rfl hd]

theorem checkpointFrame_mtrWrite (hc : BufferCore s) (strs : List (List UInt8)) (bufPoolOldest : ℕ) :
    CheckpointFrame s (mtrWrite s strs bufPoolOldest) := by
  have hf := (appendStep_mtrWrite hc strs bufPoolOldest).frame
  unfold AppendFrame at hf
  exact ⟨by rw [hf], by rw [hf], by rw [hf], by rw [hf], by rw [hf], by rw [hf], by rw [hf],
    by rw [hf], by rw [hf], by rw [hf]; rfl⟩

theorem checkpointFrame_logWriteUpToLocked (s : LogSys) (flush : Bool) :
    CheckpointFrame s (logWriteUpToLocked cfg s flush) := by
  rw [logWriteUpToLocked, logWriteUpToWrite_eq]
  cases flush <;> exact ⟨rfl, rfl, rfl, rfl, rfl, rfl, rfl, rfl, rfl,
    by simp [LogSys.logGroups, logWriteUpToClaim]⟩

end Frame

/-! ### Issue, landing and completion -/

section Batch
variable {s : LogSys}

/-- `log_write_checkpoint_info` after `log_checkpoint` found no batch pending, with `oldest_lsn`
durable: the new batch is one write per group, all of the batch's number and LSN. -/
theorem CheckpointInv.issue (h : CheckpointInv s) {oldest : ℕ} {wa : Bool}
    (hp : s.nPendingCheckpointWrites = 0) (hwa : ¬(wa = false ∧ oldest ≤ s.lastCheckpointLsn))
    (hd : DurableUpTo s oldest) :
    CheckpointInv
      (logWriteCheckpointInfo { s with nextCheckpointLsn := oldest, checkpointWriteAlways := wa }) := by
  have hw : s.checkpointWrites = [] := List.eq_nil_of_length_eq_zero (by have := h.count; omega)
  have hl : s.checkpointWritesLanded = 0 := by have := h.count; omega
  rw [logWriteCheckpointInfo_eq]
  refine ⟨?_, ?_, ?_, fun _ id hid => .inl ?_, h.latest, fun _ hwa' => ?_, h.durable_last,
    fun _ => hd, h.durable_slots⟩ <;> dsimp only
  · simp [hw, hl, hp]
  · simp [hp, LogSys.logGroups]
  · simp only [hw, List.nil_append, List.mem_map]
    rintro _ ⟨g, -, rfl⟩
    exact ⟨rfl, rfl, rfl⟩
  · obtain ⟨g, hg, rfl⟩ := List.mem_map.mp hid
    exact ⟨_, List.mem_append_right _ (List.mem_map_of_mem _ hg), rfl⟩
  · by_contra hlt
    exact hwa ⟨hwa', by omega⟩

/-- A write of the batch reaches its slot. -/
theorem CheckpointInv.land (h : CheckpointInv s) {i : ℕ} {cw : CheckpointWrite}
    (hi : s.checkpointWrites[i]? = some cw) : CheckpointInv (landCheckpointWrite s i cw) := by
  have hmem := List.getElem?_mem hi
  have hlen := (List.getElem?_eq_some_iff.mp hi).1
  obtain ⟨hf, hno, hlsn⟩ := h.writes cw hmem
  have hpos : 0 < s.nPendingCheckpointWrites := by
    have := h.count; have := List.length_pos_of_mem hmem; omega
  have hslot : ∀ id f, (landCheckpointWrite s i cw).checkpointSlots id f =
      if id = cw.groupId ∧ f = cw.field then some cw.info else s.checkpointSlots id f := fun _ _ => rfl
  have hnew : ∀ id, id = cw.groupId → SlotHolds (landCheckpointWrite s i cw) id
      s.nextCheckpointNo s.nextCheckpointLsn := fun id hid =>
    ⟨cw.info, by rw [hslot, if_pos ⟨hid, hf.symm⟩], hno, hlsn⟩
  refine ⟨?_, h.lock_iff, fun cw' hc => h.writes cw' (List.mem_of_mem_eraseIdx hc),
    fun hp id hid => ?_, fun hn id hid => ?_, h.monotone, h.durable_last, h.durable_next,
    fun id f info hs => ?_⟩
  · have := List.length_eraseIdx_add_one hlen
    have := h.count
    simp only [landCheckpointWrite]; omega
  · by_cases hg : id = cw.groupId
    · exact .inr (hnew id hg)
    rcases h.batch hp id hid with ⟨cw', hcw', rfl⟩ | ⟨info, hs, hs1, hs2⟩
    · refine .inl ⟨cw', ?_, rfl⟩
      obtain ⟨j, hj⟩ := List.mem_iff_getElem?.mp hcw'
      refine List.mem_eraseIdx_iff_getElem?.mpr ⟨j, fun hji => hg ?_, hj⟩
      rw [hji, hi] at hj
      cases hj; rfl
    · exact .inr ⟨info, by rw [hslot, if_neg fun h' => hg h'.1]; exact hs, hs1, hs2⟩
  · obtain ⟨info, hs, hs1, hs2⟩ := h.latest hn id hid
    refine ⟨info, ?_, hs1, hs2⟩
    have hne := CheckpointField.ofNo_succ_ne (s.nextCheckpointNo - 1)
    rw [Nat.sub_add_cancel (show 0 < s.nextCheckpointNo from hn)] at hne
    show (landCheckpointWrite s i cw).checkpointSlots id (.ofNo (s.nextCheckpointNo - 1)) = some info
    rw [hslot, if_neg fun h' => hne (hf ▸ h'.2).symm]
    exact hs
  · rw [hslot] at hs
    split at hs
    · cases hs; rw [hlsn]; exact h.durable_next hpos
    · exact h.durable_slots id f info hs

/-- The completion routine of a landed write; the last one completes the batch. -/
theorem CheckpointInv.complete (h : CheckpointInv s) (hl : 0 < s.checkpointWritesLanded) :
    CheckpointInv
      (logIoCompleteCheckpoint { s with checkpointWritesLanded := s.checkpointWritesLanded - 1 }) := by
  have hc := h.count
  have hpos : 0 < s.nPendingCheckpointWrites := by omega
  rw [logIoCompleteCheckpoint_eq]
  by_cases hz : s.nPendingCheckpointWrites - 1 = 0
  · have hw : s.checkpointWrites = [] := List.eq_nil_of_length_eq_zero (by omega)
    simp only [if_pos hz]
    refine ⟨?_, ?_, by simp [hw], fun hp => absurd hp (by simp [hz]), fun _ id hid => ?_,
      fun hp => absurd hp (by simp [hz]), h.durable_next hpos, fun hp => absurd hp (by simp [hz]),
      h.durable_slots⟩ <;> dsimp only
    · omega
    · simp [hz]
    · rcases h.batch hpos id hid with ⟨cw, hcw, -⟩ | hs
      · simp [hw] at hcw
      · simpa using hs
  · simp only [if_neg hz]
    refine ⟨?_, ?_, h.writes, fun _ => h.batch hpos, h.latest, fun _ => h.monotone hpos,
      h.durable_last, fun _ => h.durable_next hpos, h.durable_slots⟩ <;> dsimp only
    · omega
    · rw [h.lock_iff]; omega

end Batch

/-! ### Every run -/

section Run
variable {s s' : LogSys} {f f' : Frame}

/-- A step of a thread leaves the checkpoint fields alone, durable bytes staying so, or it is
`log_checkpoint` issuing a batch from `relock`. -/
theorem FrameStep.checkpoint_cases (hb : BufferCore s) (hs : FrameStep cfg s f s' f') :
    (CheckpointFrame s s' ∧ ∀ y, s.durable y = true → s'.durable y = true) ∨
    ∃ oldest sync wa, f = .checkpoint (.relock oldest) sync wa ∧ s.nPendingCheckpointWrites = 0 ∧
      ¬(wa = false ∧ oldest ≤ s.lastCheckpointLsn) ∧
      s' = logWriteCheckpointInfo { s with nextCheckpointLsn := oldest, checkpointWriteAlways := wa } := by
  cases hs with
  | @appendWrite _ strs bpo =>
    exact .inl ⟨checkpointFrame_mtrWrite hb strs bpo, fun y hy => by
      rw [(flushFrame_mtrWrite hb strs bpo).durable]; exact hy⟩
  | @checkpointNames _ _ _ strs bpo =>
    exact .inl ⟨checkpointFrame_mtrWrite hb strs bpo, fun y hy => by
      rw [(flushFrame_mtrWrite hb strs bpo).durable]; exact hy⟩
  | lockedWrite => exact .inl ⟨checkpointFrame_logWriteUpToLocked _ _, fun y hy => by simp [hy]⟩
  | fsync => exact .inl ⟨⟨rfl, rfl, rfl, rfl, rfl, rfl, rfl, rfl, rfl, rfl⟩, fun y hy => by simp [hy]⟩
  | checkpointIssue hwa hp => exact .inr ⟨_, _, _, rfl, hp, hwa, rfl⟩
  | _ => exact .inl ⟨⟨rfl, rfl, rfl, rfl, rfl, rfl, rfl, rfl, rfl, rfl⟩, fun _ => id⟩

/-- The checkpoint invariant is kept by every step of the system. -/
theorem Step.checkpointInv {w w' : World} (h : CheckpointInv w.log) (hfl : FlushInv cfg w)
    (hb : BufferInv w.log) (hs : Step cfg w w') : CheckpointInv w'.log := by
  cases hs with
  | call => exact h
  | run t hs =>
    rcases hs.checkpoint_cases hb.toBufferCore with ⟨hf, hd⟩ | ⟨oldest, sync, wa, ht, hp, hwa, rfl⟩
    · exact h.of_frame hf hd
    · have hd := hfl.threads t
      rw [ht] at hd
      exact h.issue hp hwa hd
  | land i hi => exact h.land hi
  | complete hl => exact h.complete hl

theorem checkpointInv_of_isInitial (h : IsInitial cfg s) : CheckpointInv s := by
  obtain ⟨_, _, _, _, _, _, _, hs⟩ := h
  obtain ⟨-, -, -, -, -, -, -, rfl⟩ := logCalcMaxAges_eq_some hs
  have h0 : ¬0 < 0 := Nat.lt_irrefl 0
  refine ⟨rfl, ⟨fun h => (nomatch h), fun h => absurd h h0⟩, fun _ h => (nomatch h),
    fun h => absurd h h0, fun h => absurd h h0, fun h => absurd h h0, fun y h0 hy => ?_,
    fun h => absurd h h0, fun _ _ _ h => (nomatch h)⟩
  exact absurd hy (Nat.not_lt.mpr h0)

/-- **The checkpoint invariant.** It holds in every reachable state. -/
theorem checkpointInv_of_reachable {w : World} (h : Reachable cfg w) : CheckpointInv w.log := by
  induction h with
  | init hi => exact checkpointInv_of_isInitial hi.1
  | step hr hs ih =>
    exact hs.checkpointInv ih (flushInv_of_reachable hr) hr.bufferInv

end Run

/-! ### What a step does to the batch counters -/

/-- What a step can do to the counters of the checkpoint batches. -/
inductive BatchStep (s s' : LogSys) : Prop
  /-- Leave them alone. -/
  | keep : s'.nextCheckpointLsn = s.nextCheckpointLsn → s'.nextCheckpointNo = s.nextCheckpointNo →
      s'.lastCheckpointLsn = s.lastCheckpointLsn →
      s'.nPendingCheckpointWrites = s.nPendingCheckpointWrites → BatchStep s s'
  /-- Issue a batch, when none is pending. -/
  | issue : s.nPendingCheckpointWrites = 0 → 0 < s'.nPendingCheckpointWrites →
      s'.nextCheckpointNo = s.nextCheckpointNo → s'.lastCheckpointLsn = s.lastCheckpointLsn →
      BatchStep s s'
  /-- Complete a write of the pending batch; the last one completes the batch. -/
  | complete : 0 < s.nPendingCheckpointWrites →
      s'.nPendingCheckpointWrites = s.nPendingCheckpointWrites - 1 →
      s'.nextCheckpointLsn = s.nextCheckpointLsn →
      s'.nextCheckpointNo =
        (if s'.nPendingCheckpointWrites = 0 then s.nextCheckpointNo + 1 else s.nextCheckpointNo) →
      s'.lastCheckpointLsn =
        (if s'.nPendingCheckpointWrites = 0 then s.nextCheckpointLsn else s.lastCheckpointLsn) →
      BatchStep s s'

theorem Step.batchStep {w w' : World} (h : CheckpointInv w.log) (hb : BufferInv w.log)
    (hs : Step cfg w w') : BatchStep w.log w'.log := by
  cases hs with
  | call => exact .keep rfl rfl rfl rfl
  | run t hs =>
    rcases hs.checkpoint_cases hb.toBufferCore with ⟨hf, -⟩ | ⟨oldest, sync, wa, -, hp, -, rfl⟩
    · exact .keep hf.nextLsn hf.nextNo hf.last hf.pending
    · rw [logWriteCheckpointInfo_eq]
      exact .issue hp (by simp [hp, LogSys.logGroups]) rfl rfl
  | land => exact .keep rfl rfl rfl rfl
  | complete hl =>
    have := h.count
    rw [logIoCompleteCheckpoint_eq]
    exact .complete (by omega) rfl rfl rfl rfl

/-- What a `log_checkpoint(true, _)` waiting for the batch `n` it issued knows: the batch has
completed, or it is the one pending. -/
def WaiterInv (w : World) : Prop :=
  ∀ t n sync wa, w.threads t = .checkpoint (.waitLock (some n)) sync wa →
    n < w.log.nextCheckpointNo ∨ (n = w.log.nextCheckpointNo ∧ 0 < w.log.nPendingCheckpointWrites)

section Waiter
variable {s s' : LogSys} {f f' : Frame}

theorem BatchStep.waiter (hb : BatchStep s s') {n : ℕ}
    (hn : n < s.nextCheckpointNo ∨ (n = s.nextCheckpointNo ∧ 0 < s.nPendingCheckpointWrites)) :
    n < s'.nextCheckpointNo ∨ (n = s'.nextCheckpointNo ∧ 0 < s'.nPendingCheckpointWrites) := by
  cases hb with
  | keep _ hno _ hp => rw [hno, hp]; exact hn
  | issue hp _ hno _ => rw [hno]; omega
  | complete _ hp _ hno _ => rw [hno]; split <;> omega

/-- Only the issue of a batch by `log_checkpoint(true, _)` starts a wait for it. -/
theorem FrameStep.waitLock_some (hs : FrameStep cfg s f s' f') {n : ℕ} {sync wa : Bool}
    (hf' : f' = .checkpoint (.waitLock (some n)) sync wa) :
    n = s'.nextCheckpointNo ∧ 0 < s'.nPendingCheckpointWrites := by
  cases hs with
  | @checkpointIssue sync' _ _ _ hp =>
    cases sync'
    · cases hf'
    · cases hf'
      rw [logWriteCheckpointInfo_eq]
      exact ⟨rfl, by simp [hp, LogSys.logGroups]⟩
  | checkpointBusy => split at hf' <;> cases hf'
  | resume => cases ‹Caller› <;> cases hf'
  | marginCheck =>
    rcases marginNext_cases _ _ with ⟨_, _, h⟩ | ⟨_, h⟩ | h <;> rw [h] at hf' <;> cases hf'
  | marginFlushed => rcases marginCheckpoint_cases _ _ with h | h <;> rw [h] at hf' <;> cases hf'
  | _ => cases hf'

/-- A wait for `checkpoint_lock` ends only when the lock is free. -/
theorem FrameStep.lock_of_waitLock (hs : FrameStep cfg s f s' f') {b : Option ℕ} {sync wa : Bool}
    (hf : f = .checkpoint (.waitLock b) sync wa) : s.checkpointLock = false := by
  cases hs with
  | checkpointWake hl => exact hl
  | _ => cases hf

theorem Step.waiterInv {w w' : World} (h : CheckpointInv w.log) (hb : BufferInv w.log)
    (hw : WaiterInv w) (hs : Step cfg w w') : WaiterInv w' := by
  have hbs := hs.batchStep h hb
  intro u n sync wa hu
  cases hs with
  | call t _ hc =>
    dsimp only at hu ⊢
    by_cases hut : u = t
    · subst hut; rw [Function.update_same] at hu; subst hu; cases hc
    · rw [Function.update_noteq hut] at hu; exact hbs.waiter (hw u n sync wa hu)
  | run t hs =>
    dsimp only at hu ⊢
    by_cases hut : u = t
    · subst hut; rw [Function.update_same] at hu; exact .inr (hs.waitLock_some hu)
    · rw [Function.update_noteq hut] at hu; exact hbs.waiter (hw u n sync wa hu)
  | land | complete => exact hbs.waiter (hw u n sync wa hu)

/-- A thread leaves its wait for `checkpoint_lock` only when the lock is free. -/
theorem Step.lock_of_waitLock {w w' : World} (hs : Step cfg w w') {t : ℕ} {b : Option ℕ}
    {sync wa : Bool} (ht : w.threads t = .checkpoint (.waitLock b) sync wa)
    (ht' : w'.threads t = .idle) : w.log.checkpointLock = false := by
  cases hs with
  | call u hidle _ =>
    dsimp only at ht'
    by_cases hut : t = u
    · subst hut; rw [hidle] at ht; cases ht
    · rw [Function.update_noteq hut, ht] at ht'; cases ht'
  | run u hs =>
    dsimp only at ht'
    by_cases hut : t = u
    · subst hut; exact hs.lock_of_waitLock ht
    · rw [Function.update_noteq hut, ht] at ht'; cases ht'
  | land | complete => dsimp only at ht'; rw [ht] at ht'; cases ht'

theorem waiterInv_of_reachable {w : World} (h : Reachable cfg w) : WaiterInv w := by
  induction h with
  | init hi => intro t _ _ _ ht; rw [hi.2 t] at ht; cases ht
  | step hr hs ih =>
    exact hs.waiterInv (checkpointInv_of_reachable hr) hr.bufferInv ih

end Waiter

/-! ### Checkpoints over every run -/

/-- A run of the default deployment in which thread `0` makes a checkpoint with
`log_checkpoint(true, false)`: it flushes the log, issues the batch, whose write lands and
completes, and it returns. -/
theorem defaultWorld_checkpoint_run : ∃ w w' : World, Reachable (defaultConfig .fsync) w ∧
    Step (defaultConfig .fsync) w w' ∧ 0 < w.log.nextCheckpointNo ∧
    w.threads 0 = .checkpoint (.waitLock (some 0)) true false ∧ w'.threads 0 = .idle := by
  -- `oldest_lsn` is `lsn`: the buffer pool has no dirty page
  have r1 := Reachable.step (defaultWorld_reachable .fsync) (.call 0 rfl (.checkpoint true false))
  have r2 := r1.step (.run 0 (.checkpointFlush 0 (by decide) (by decide)))
  -- `log_write_up_to(oldest_lsn, true)` flushes
  have r3 := r2.step (.run 0 (.dirtyLock (by decide)))
  have r4 := r3.step (.run 0 (.lockedWrite (by decide) (by decide) (by decide)))
  have r5 := r4.step (.run 0 (.assertFsync (by decide) (by decide)))
  have r6 := r5.step (.run 0 .fsync)
  have r7 := r6.step (.run 0 .assign)
  have r8 := r7.step (.run 0 .decrement)
  have r9 := r8.step (.run 0 .setEvent)
  have r10 := r9.step (.run 0 .resume)
  -- the batch is issued, lands and completes
  have r11 := r10.step (.run 0 (.checkpointIssue (by decide) (by decide)))
  have r12 := r11.step (.land 0 rfl)
  have r13 := r12.step (.complete (by decide))
  exact ⟨_, _, r13, .run 0 (.checkpointWake (by decide)), by decide, rfl, rfl⟩

/-- **Checkpoints obey write-ahead logging.** In every reachable state the log is durable below
`last_checkpoint_lsn`, below the LSN of the pending batch, and below the LSN that every checkpoint
block in flight or in a slot names. -/
theorem checkpointLsn_durable {w : World} (h : Reachable cfg w) :
    DurableUpTo w.log w.log.lastCheckpointLsn ∧
    (0 < w.log.nPendingCheckpointWrites → DurableUpTo w.log w.log.nextCheckpointLsn) ∧
    (∀ cw ∈ w.log.checkpointWrites, DurableUpTo w.log cw.info.checkpointLsn) ∧
    ∀ id f info, w.log.checkpointSlots id f = some info → DurableUpTo w.log info.checkpointLsn := by
  have hc := checkpointInv_of_reachable h
  refine ⟨hc.durable_last, hc.durable_next, fun cw hcw => ?_, hc.durable_slots⟩
  rw [(hc.writes cw hcw).2.2]
  exact hc.durable_next (by have := hc.count; have := List.length_pos_of_mem hcw; omega)

theorem defaultWorld_checkpointLsn_durable : ∃ w : World, Reachable (defaultConfig .fsync) w ∧
    0 < w.log.nextCheckpointNo ∧
    DurableUpTo w.log w.log.lastCheckpointLsn ∧
    (0 < w.log.nPendingCheckpointWrites → DurableUpTo w.log w.log.nextCheckpointLsn) ∧
    (∀ cw ∈ w.log.checkpointWrites, DurableUpTo w.log cw.info.checkpointLsn) ∧
    ∀ id f info, w.log.checkpointSlots id f = some info → DurableUpTo w.log info.checkpointLsn :=
  let ⟨w, _, hr, _, hno, _⟩ := defaultWorld_checkpoint_run
  ⟨w, hr, hno, checkpointLsn_durable hr⟩

/-- **Checkpoint batches are atomic.** `checkpoint_lock` is held exclusively exactly while writes
are pending; every write in flight carries the batch's number, LSN and slot; while a batch is
pending a step changes neither its LSN nor, unless it completes the batch, its number, and the
completion advances the number by one and sets `last_checkpoint_lsn` to the batch's LSN; a
`log_checkpoint(true, _)` waiting for the batch `n` it issued returns only once `n` has
completed. -/
theorem checkpointBatch_atomic {w w' : World} (h : Reachable cfg w) (hs : Step cfg w w') :
    (w.log.checkpointLock = true ↔ 0 < w.log.nPendingCheckpointWrites) ∧
    (∀ cw ∈ w.log.checkpointWrites, cw.field = .ofNo w.log.nextCheckpointNo ∧
      cw.info.checkpointNo = w.log.nextCheckpointNo ∧
      cw.info.checkpointLsn = w.log.nextCheckpointLsn) ∧
    (0 < w.log.nPendingCheckpointWrites →
      w'.log.nextCheckpointLsn = w.log.nextCheckpointLsn ∧
      (0 < w'.log.nPendingCheckpointWrites → w'.log.nextCheckpointNo = w.log.nextCheckpointNo) ∧
      (w'.log.nPendingCheckpointWrites = 0 →
        w'.log.nextCheckpointNo = w.log.nextCheckpointNo + 1 ∧
        w'.log.lastCheckpointLsn = w.log.nextCheckpointLsn)) ∧
    (∀ t n wa, w.threads t = .checkpoint (.waitLock (some n)) true wa → w'.threads t = .idle →
      n < w.log.nextCheckpointNo) := by
  have hc := checkpointInv_of_reachable h
  refine ⟨hc.lock_iff, hc.writes, fun hp => ?_, fun t n wa ht ht' => ?_⟩
  · rcases hs.batchStep hc h.bufferInv with
      ⟨h1, h2, -, h4⟩ | ⟨h1, -⟩ | ⟨-, h2, h3, h4, h5⟩
    · exact ⟨h1, fun _ => h2, fun h0 => by omega⟩
    · omega
    · refine ⟨h3, fun hp' => ?_, fun h0 => ?_⟩
      · rw [h4, if_neg (by omega)]
      · rw [h4, h5, if_pos h0, if_pos h0]; exact ⟨rfl, rfl⟩
  · have hl := hs.lock_of_waitLock ht ht'
    rcases waiterInv_of_reachable h t n true wa ht with hn | ⟨-, hp⟩
    · exact hn
    · simp [hc.lock_iff.mpr hp] at hl

theorem defaultWorld_checkpointBatch_atomic : ∃ w w' : World,
    Reachable (defaultConfig .fsync) w ∧ Step (defaultConfig .fsync) w w' ∧
    (w.log.checkpointLock = true ↔ 0 < w.log.nPendingCheckpointWrites) ∧
    (∀ cw ∈ w.log.checkpointWrites, cw.field = .ofNo w.log.nextCheckpointNo ∧
      cw.info.checkpointNo = w.log.nextCheckpointNo ∧
      cw.info.checkpointLsn = w.log.nextCheckpointLsn) ∧
    (0 < w.log.nPendingCheckpointWrites →
      w'.log.nextCheckpointLsn = w.log.nextCheckpointLsn ∧
      (0 < w'.log.nPendingCheckpointWrites → w'.log.nextCheckpointNo = w.log.nextCheckpointNo) ∧
      (w'.log.nPendingCheckpointWrites = 0 →
        w'.log.nextCheckpointNo = w.log.nextCheckpointNo + 1 ∧
        w'.log.lastCheckpointLsn = w.log.nextCheckpointLsn)) ∧
    (∀ t n wa, w.threads t = .checkpoint (.waitLock (some n)) true wa → w'.threads t = .idle →
      n < w.log.nextCheckpointNo) := by
  obtain ⟨w, w', hr, hs, -⟩ := defaultWorld_checkpoint_run
  exact ⟨w, w', hr, hs, checkpointBatch_atomic hr hs⟩

/-- **Dual-slot safety.** Once a checkpoint has completed, in every group the slot of the latest
one (`LOG_CHECKPOINT_1` for an even number, `LOG_CHECKPOINT_2` for an odd one) holds a block of
number `next_checkpoint_no - 1` and LSN `last_checkpoint_lsn`, and no write in flight targets
it. -/
theorem checkpointSlot_latest {w : World} (h : Reachable cfg w) (hno : 0 < w.log.nextCheckpointNo) :
    ∀ id ∈ w.log.logGroups.map LogGroup.id,
      (∀ cw ∈ w.log.checkpointWrites, cw.groupId = id →
        cw.field ≠ .ofNo (w.log.nextCheckpointNo - 1)) ∧
      ∃ info, w.log.checkpointSlots id (.ofNo (w.log.nextCheckpointNo - 1)) = some info ∧
        info.checkpointNo = w.log.nextCheckpointNo - 1 ∧
        info.checkpointLsn = w.log.lastCheckpointLsn := by
  have hc := checkpointInv_of_reachable h
  intro id hid
  refine ⟨fun cw hcw _ => ?_, hc.latest hno id hid⟩
  rw [(hc.writes cw hcw).1]
  have := CheckpointField.ofNo_succ_ne (w.log.nextCheckpointNo - 1)
  rwa [Nat.sub_add_cancel hno] at this

theorem defaultWorld_checkpointSlot_latest : ∃ w : World,
    Reachable (defaultConfig .fsync) w ∧ 0 < w.log.nextCheckpointNo ∧
    ∀ id ∈ w.log.logGroups.map LogGroup.id,
      (∀ cw ∈ w.log.checkpointWrites, cw.groupId = id →
        cw.field ≠ .ofNo (w.log.nextCheckpointNo - 1)) ∧
      ∃ info, w.log.checkpointSlots id (.ofNo (w.log.nextCheckpointNo - 1)) = some info ∧
        info.checkpointNo = w.log.nextCheckpointNo - 1 ∧
        info.checkpointLsn = w.log.lastCheckpointLsn := by
  obtain ⟨w, -, hr, -, hno, -⟩ := defaultWorld_checkpoint_run
  exact ⟨w, hr, hno, checkpointSlot_latest hr hno⟩

/-- **`last_checkpoint_lsn` decreases only after `write_always`.** In every reachable state, a
pending batch that a `log_checkpoint(_, false)` issued is past `last_checkpoint_lsn`; and a step
that decreases `last_checkpoint_lsn` is the completion of the last write of a pending batch that a
`log_checkpoint(_, true)` issued: it advances `next_checkpoint_no`, leaves no write pending, and
sets `last_checkpoint_lsn` to the batch's LSN. -/
theorem lastCheckpointLsn_le_of_step {w w' : World} (h : Reachable cfg w) (hs : Step cfg w w') :
    (0 < w.log.nPendingCheckpointWrites → w.log.checkpointWriteAlways = false →
      w.log.lastCheckpointLsn < w.log.nextCheckpointLsn) ∧
    (w'.log.lastCheckpointLsn < w.log.lastCheckpointLsn →
      w.log.checkpointWriteAlways = true ∧ 0 < w.log.nPendingCheckpointWrites ∧
      w'.log.nPendingCheckpointWrites = 0 ∧ w'.log.nextCheckpointNo = w.log.nextCheckpointNo + 1 ∧
      w'.log.lastCheckpointLsn = w.log.nextCheckpointLsn) := by
  have hc := checkpointInv_of_reachable h
  refine ⟨hc.monotone, fun hlt => ?_⟩
  rcases hs.batchStep hc h.bufferInv with ⟨-, -, h3, -⟩ | ⟨-, -, -, h4⟩ | ⟨hp, -, -, h4, h5⟩
  · omega
  · omega
  · by_cases h0 : w'.log.nPendingCheckpointWrites = 0
    · -- the last write of the batch completes it; a batch of `write_always = false` is past `last`
      rw [if_pos h0] at h4 h5
      refine ⟨?_, hp, h0, h4, h5⟩
      cases hwa : w.log.checkpointWriteAlways
      · have := hc.monotone hp hwa; omega
      · rfl
    · rw [if_neg h0] at h5; omega

theorem defaultWorld_lastCheckpointLsn_le : ∃ w w' : World,
    Reachable (defaultConfig .fsync) w ∧ Step (defaultConfig .fsync) w w' ∧
    (0 < w.log.nPendingCheckpointWrites → w.log.checkpointWriteAlways = false →
      w.log.lastCheckpointLsn < w.log.nextCheckpointLsn) ∧
    (w'.log.lastCheckpointLsn < w.log.lastCheckpointLsn →
      w.log.checkpointWriteAlways = true ∧ 0 < w.log.nPendingCheckpointWrites ∧
      w'.log.nPendingCheckpointWrites = 0 ∧ w'.log.nextCheckpointNo = w.log.nextCheckpointNo + 1 ∧
      w'.log.lastCheckpointLsn = w.log.nextCheckpointLsn) := by
  obtain ⟨w, w', hr, hs, -⟩ := defaultWorld_checkpoint_run
  exact ⟨w, w', hr, hs, lastCheckpointLsn_le_of_step hr hs⟩

/-- **`last_checkpoint_lsn` can decrease.** Thread `0` calls `log_checkpoint(false, true)` and
finds `oldest_lsn = 8204`; while it flushes, the pages are written and thread `1` calls
`log_checkpoint(false, true)`, finds `oldest_lsn = lsn = 8205`, and completes a checkpoint at
`8205`. With `write_always`, thread `0` skips the check `last_checkpoint_lsn >= oldest_lsn` and
issues a batch at `8204`, below `last_checkpoint_lsn`; its completion sets `last_checkpoint_lsn`
back to `8204`. -/
theorem lastCheckpointLsn_decreases : ∃ w w' : World,
    Reachable (defaultConfig .fsync) w ∧ Step (defaultConfig .fsync) w w' ∧
    0 < w.log.nPendingCheckpointWrites ∧ w.log.nextCheckpointLsn < w.log.lastCheckpointLsn ∧
    w'.log.lastCheckpointLsn < w.log.lastCheckpointLsn := by
  -- thread 2 appends a byte
  have r1 := Reachable.step (defaultWorld_reachable .fsync) (.call 2 rfl (.append 1 [[0]]))
  have r2 := r1.step (.run 2 (.appendWrite 0 (by decide) (by decide)))
  -- thread 0: `log_checkpoint(false, true)` with `oldest_lsn = 8204` flushes up to it
  have r3 := r2.step (.call 0 rfl (.checkpoint false true))
  have r4 := r3.step (.run 0 (.checkpointFlush 8204 (by decide) (by decide)))
  have r5 := r4.step (.run 0 (.dirtyLock (by decide)))
  have r6 := r5.step (.run 0 (.lockedWrite (by decide) (by decide) (by decide)))
  have r7 := r6.step (.run 0 (.assertFsync (by decide) (by decide)))
  have r8 := r7.step (.run 0 .fsync)
  have r9 := r8.step (.run 0 .assign)
  have r10 := r9.step (.run 0 .decrement)
  have r11 := r10.step (.run 0 .setEvent)
  have r12 := r11.step (.run 0 .resume)
  -- thread 1: `log_checkpoint(false, true)` with no dirty page makes a checkpoint at `8205`
  have r13 := r12.step (.call 1 rfl (.checkpoint false true))
  have r14 := r13.step (.run 1 (.checkpointFlush 0 (by decide) (by decide)))
  have r15 := r14.step (.run 1 (.dirtyLock (by decide)))
  have r16 := r15.step (.run 1 (.lockedReturn (by decide)))
  have r17 := r16.step (.run 1 .resume)
  have r18 := r17.step (.run 1 (.checkpointIssue (by decide) (by decide)))
  have r19 := r18.step (.land 0 rfl)
  have r20 := r19.step (.complete (by decide))
  -- thread 0 issues its batch at `8204`, which lands and completes
  have r21 := r20.step (.run 0 (.checkpointIssue (by decide) (by decide)))
  have r22 := r21.step (.land 0 rfl)
  exact ⟨_, _, r22, .complete (by decide), by decide, by decide, by decide⟩

/-! ### Batches complete -/

/-- The landings and completions of a pending batch, by induction on the work left: twice the
writes in flight, for each must land and complete, and once each landed write. -/
theorem checkpointBatch_completes_of_measure (n : ℕ) : ∀ {w : World}, Reachable cfg w →
    0 < w.log.nPendingCheckpointWrites →
    2 * w.log.checkpointWrites.length + w.log.checkpointWritesLanded = n →
    ∃ w', Relation.ReflTransGen (Step cfg) w w' ∧ w'.threads = w.threads ∧
      w'.log.checkpointLock = false ∧ w'.log.nextCheckpointNo = w.log.nextCheckpointNo + 1 ∧
      w'.log.lastCheckpointLsn = w.log.nextCheckpointLsn := by
  induction n using Nat.strong_induction_on with
  | _ n ih =>
  intro w h hp hn
  have hc := (checkpointInv_of_reachable h).count
  cases hw : w.log.checkpointWrites with
  | cons cw rest =>
    -- the first write in flight lands
    have hs : Step cfg w ⟨landCheckpointWrite w.log 0 cw, w.threads⟩ := .land 0 (by rw [hw, List.getElem?_cons_zero])
    have hlen : (landCheckpointWrite w.log 0 cw).checkpointWrites.length = rest.length := by
      simp only [landCheckpointWrite, hw, List.eraseIdx_cons_zero]
    rw [hw, List.length_cons] at hn
    obtain ⟨w', r, h₁, h₂, h₃, h₄⟩ := ih (n - 1) (by omega) (h.step hs) hp
      (by rw [hlen]; show 2 * rest.length + (w.log.checkpointWritesLanded + 1) = n - 1; omega)
    exact ⟨w', .head hs r, h₁, h₂, h₃, h₄⟩
  | nil =>
    -- a landed write completes
    rw [hw, List.length_nil] at hc
    have hs : Step cfg w ⟨logIoCompleteCheckpoint
        { w.log with checkpointWritesLanded := w.log.checkpointWritesLanded - 1 }, w.threads⟩ :=
      .complete (by omega)
    by_cases hlast : w.log.nPendingCheckpointWrites - 1 = 0
    · refine ⟨_, .single hs, rfl, ?_, ?_, ?_⟩ <;> simp only [logIoCompleteCheckpoint_eq, if_pos hlast]
    · obtain ⟨w', r, h₁, h₂, h₃, h₄⟩ := ih (n - 1) (by omega) (h.step hs)
        (by simp only [logIoCompleteCheckpoint_eq]; omega)
        (by simp only [logIoCompleteCheckpoint_eq, hw, List.length_nil] at hn ⊢; omega)
      refine ⟨w', .head hs r, h₁, h₂, ?_, ?_⟩ <;>
        simp only [h₃, h₄, logIoCompleteCheckpoint_eq, if_neg hlast]

/-- **A pending checkpoint batch completes by its I/O alone.** In every reachable state where
`checkpoint_lock` is held, the landings of the writes in flight and the completion routines of the
landed ones lead to a state in which every thread's frame is as it was, the lock is released, the
checkpoint number has advanced by one and `last_checkpoint_lsn` is the batch's LSN: the count of
`log_io_complete_checkpoint` reaches zero at the last completion. A thread in
`rw_lock_s_lock(&checkpoint_lock)` does not wait on a batch that no I/O can finish. -/
theorem checkpointBatch_completes {w : World} (h : Reachable cfg w) (hl : w.log.checkpointLock = true) :
    ∃ w', Relation.ReflTransGen (Step cfg) w w' ∧ w'.threads = w.threads ∧
      w'.log.checkpointLock = false ∧ w'.log.nextCheckpointNo = w.log.nextCheckpointNo + 1 ∧
      w'.log.lastCheckpointLsn = w.log.nextCheckpointLsn :=
  checkpointBatch_completes_of_measure _ h ((checkpointInv_of_reachable h).lock_iff.mp hl) rfl

theorem defaultWorld_checkpointBatch_completes : ∃ w : World, Reachable (defaultConfig .fsync) w ∧
    w.log.checkpointLock = true ∧
    ∃ w', Relation.ReflTransGen (Step (defaultConfig .fsync)) w w' ∧ w'.threads = w.threads ∧
      w'.log.checkpointLock = false ∧ w'.log.nextCheckpointNo = w.log.nextCheckpointNo + 1 ∧
      w'.log.lastCheckpointLsn = w.log.nextCheckpointLsn := by
  have r1 := Reachable.step (defaultWorld_reachable .fsync) (.call 0 rfl (.checkpoint false true))
  have r2 := r1.step (.run 0 (.checkpointFlush 0 (by decide) (by decide)))
  have r3 := r2.step (.run 0 (.dirtyLock (by decide)))
  have r4 := r3.step (.run 0 (.lockedWrite (by decide) (by decide) (by decide)))
  have r5 := r4.step (.run 0 (.assertFsync (by decide) (by decide)))
  have r6 := r5.step (.run 0 .fsync)
  have r7 := r6.step (.run 0 .assign)
  have r8 := r7.step (.run 0 .decrement)
  have r9 := r8.step (.run 0 .setEvent)
  have r10 := r9.step (.run 0 .resume)
  have r11 := r10.step (.run 0 (.checkpointIssue (by decide) (by decide)))
  exact ⟨_, r11, by decide, checkpointBatch_completes r11 (by decide)⟩

end RedoLog

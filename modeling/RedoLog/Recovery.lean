import RedoLog.BlockFormat

/-!
# Reading the log from a checkpoint

A checkpoint block records, beside `checkpoint_lsn`, the place `lsn_offset` that
`log_group_calc_lsn_offset` gives that LSN in the group (`log_group_checkpoint`). Recovery starts
from a checkpoint block: it anchors the group at the block's `checkpoint_lsn` and `lsn_offset`, as
`log_group_set_fields` anchors it at a write, and reads the log from `checkpoint_lsn` on with
`log_group_read_log_seg`.

The writes re-anchor the group at every call of `log_write_up_to`, so the anchor a block recorded
is not the group's anchor when the block is read. This module proves that it does not need to be:
every block on disk or in flight records the place the group gives its LSN, in every reachable
state (`CheckpointAnchor`), and the group anchored at it places every LSN where the writes put it.
Reading from the block's LSN then returns the log `log_write_low` appended.

## Main definitions

* `CheckpointAnchor` — every checkpoint block of the group, landed or in flight, records the place
  of its LSN.

## Main results

* `checkpointAnchor_of_reachable` — the invariant holds in every reachable state.
* `logGroupReadLogSeg_fromCheckpoint` — the log read from any checkpoint block on disk, with the
  group anchored at it, is the log appended.
-/

namespace RedoLog

variable {cfg : Config}

/-! ### What the steps do to the group -/

/-- `s'` has the group of `s`, maybe re-anchored: the same id, the same places for every LSN, the
same file size, and the same other groups. -/
structure GroupFrame (s s' : LogSys) : Prop where
  id : s'.group.id = s.group.id
  place : ∀ y, logGroupCalcLsnOffset s'.group y = logGroupCalcLsnOffset s.group y
  fileSize : s'.group.fileSize = s.group.fileSize
  rest : s'.groupsRest = s.groupsRest

theorem GroupFrame.of_eq {s s' : LogSys} (h1 : s'.group = s.group) (h2 : s'.groupsRest = s.groupsRest) :
    GroupFrame s s' :=
  ⟨by rw [h1], fun _ => by rw [h1], by rw [h1], h2⟩

theorem groupFrame_mtrWrite {s : LogSys} (hb : BufferCore s) (strs : List (List UInt8))
    (bufPoolOldest : ℕ) : GroupFrame s (mtrWrite s strs bufPoolOldest) := by
  have hfr := (appendStep_mtrWrite hb strs bufPoolOldest).frame
  exact .of_eq (by rw [hfr]) (by rw [hfr])

/-- **Only the write moves the anchor, and it keeps every place**: `log_group_set_fields` anchors
the group at `write_lsn`, at the place the group gave it. -/
theorem FrameStep.groupFrame {s s' : LogSys} {f f' : Frame} (hs : FrameStep cfg s f s' f')
    (hb : BufferCore s) : GroupFrame s s' := by
  cases hs with
  | @appendWrite _ strs bpo => exact groupFrame_mtrWrite hb strs bpo
  | @checkpointNames _ _ _ strs bpo => exact groupFrame_mtrWrite hb strs bpo
  | lockedWrite =>
    have hg : ∀ s₁ : LogSys, s₁.group = s.group → s₁.writeLsn = s.writeLsn → s₁.groupsRest = s.groupsRest →
        GroupFrame s (logWriteUpToWrite cfg s₁) := fun s₁ h₁ h₂ h₃ => by
      have e : (logWriteUpToWrite cfg s₁).group = logGroupSetFields s₁.group s₁.writeLsn := by
        rw [logWriteUpToWrite_eq]
      refine ⟨by rw [e, h₁]; rfl, fun y => by rw [e, h₁]; exact logGroupCalcLsnOffset_logGroupSetFields _ _,
        by rw [e, h₁]; rfl, by rw [logWriteUpToWrite_eq]; exact h₃⟩
    unfold logWriteUpToLocked
    split <;> exact hg _ rfl rfl rfl
  | checkpointIssue => rw [logWriteCheckpointInfo_eq]; exact .of_eq rfl rfl
  | _ => exact .of_eq rfl rfl

/-! ### The invariant -/

/-- **The anchor of the checkpoint blocks.** The group ids are distinct, and every checkpoint block
of the group, in a slot or in flight, records as `lsn_offset` the place the group gives its
`checkpoint_lsn`. -/
structure CheckpointAnchor (s : LogSys) : Prop where
  nodup : (s.logGroups.map LogGroup.id).Nodup
  slots : ∀ f info, s.checkpointSlots s.group.id f = some info →
    info.lsnOffset = logGroupCalcLsnOffset s.group info.checkpointLsn
  writes : ∀ cw ∈ s.checkpointWrites, cw.groupId = s.group.id →
    cw.info.lsnOffset = logGroupCalcLsnOffset s.group cw.info.checkpointLsn

section Inv

variable {s s' : LogSys}

/-- A step that keeps the group's places and the checkpoint blocks keeps the invariant. -/
theorem CheckpointAnchor.of_frame (h : CheckpointAnchor s) (hg : GroupFrame s s')
    (hslots : s'.checkpointSlots = s.checkpointSlots) (hwrites : s'.checkpointWrites = s.checkpointWrites) :
    CheckpointAnchor s' where
  nodup := by simp only [LogSys.logGroups, List.map_cons, hg.id, hg.rest] at h ⊢; exact h.nodup
  slots f info hi := by
    rw [hslots, hg.id] at hi; rw [hg.place]; exact h.slots f info hi
  writes cw hc hid := by
    rw [hwrites] at hc; rw [hg.id] at hid; rw [hg.place]; exact h.writes cw hc hid

/-- **The batch records the anchor**: `log_group_checkpoint` writes, for the group, the place
`log_group_calc_lsn_offset` gives `next_checkpoint_lsn`; the ids being distinct, no other group's
block carries the group's id. -/
theorem CheckpointAnchor.issue (h : CheckpointAnchor s) (oldest : ℕ) (wa : Bool) :
    CheckpointAnchor
      (logWriteCheckpointInfo { s with nextCheckpointLsn := oldest, checkpointWriteAlways := wa }) := by
  rw [logWriteCheckpointInfo_eq]
  refine ⟨h.nodup, h.slots, fun cw hc hid => ?_⟩
  rcases List.mem_append.mp hc with hc | hc
  · exact h.writes cw hc hid
  · obtain ⟨g, hg, rfl⟩ := List.mem_map.mp hc
    -- the block is the group's own: no other group has its id
    obtain rfl : g = s.group := by
      rcases List.mem_cons.mp hg with rfl | hg
      · rfl
      · have := (List.nodup_cons.mp h.nodup).1
        exact absurd (hid ▸ List.mem_map_of_mem LogGroup.id hg) this
    rfl

/-- A write that lands puts the block it carries in its slot. -/
theorem CheckpointAnchor.land (h : CheckpointAnchor s) {i : ℕ} {cw : CheckpointWrite}
    (hi : s.checkpointWrites[i]? = some cw) : CheckpointAnchor (landCheckpointWrite s i cw) := by
  refine ⟨h.nodup, fun f info hs => ?_, fun cw' hc hid => h.writes cw' (List.mem_of_mem_eraseIdx hc) hid⟩
  simp only [landCheckpointWrite] at hs
  split at hs
  · cases hs
    rename_i hid
    exact h.writes cw (List.getElem?_mem hi) hid.1.symm
  · exact h.slots f info hs

end Inv

/-! ### Over every run -/

theorem Step.checkpointAnchor {w w' : World} (hs : Step cfg w w') (hb : BufferInv w.log)
    (h : CheckpointAnchor w.log) : CheckpointAnchor w'.log := by
  cases hs with
  | call => exact h
  | run _ hf =>
    rcases hf.checkpoint_cases hb.toBufferCore with ⟨hc, -⟩ | ⟨oldest, _, wa, -, -, -, rfl⟩
    · exact h.of_frame (hf.groupFrame hb.toBufferCore) hc.slots hc.writes
    · exact h.issue oldest wa
  | land _ hi => exact h.land hi
  | complete =>
    rw [logIoCompleteCheckpoint_eq]; exact h.of_frame (.of_eq rfl rfl) rfl rfl

/-- At the start no block is on disk or in flight, and `log_init`'s groups have distinct ids. -/
theorem checkpointAnchor_of_isInitial {s : LogSys} (hi : IsInitial cfg s) : CheckpointAnchor s := by
  obtain ⟨_, _, _, _, _, _, hnd, hs⟩ := hi
  obtain ⟨_, _, _, _, _, _, _, he⟩ := logCalcMaxAges_eq_some hs
  subst he
  exact ⟨hnd, fun _ _ h => (nomatch h), fun _ h => (nomatch h)⟩

theorem checkpointAnchor_of_reachable {w : World} (h : Reachable cfg w) : CheckpointAnchor w.log := by
  induction h with
  | init hi => exact checkpointAnchor_of_isInitial hi.1
  | step hr hs ih => exact hs.checkpointAnchor hr.bufferInv ih

/-! ### Reading from a checkpoint -/

/-- The group anchored at a block's LSN and `lsn_offset` is the group `log_group_set_fields`
anchors at the block's LSN. -/
theorem CheckpointAnchor.anchor_eq {s : LogSys} (h : CheckpointAnchor s) {f : CheckpointField}
    {info : CheckpointInfo} (hs : s.checkpointSlots s.group.id f = some info) :
    { s.group with lsn := info.checkpointLsn, lsnOffset := info.lsnOffset } =
      logGroupSetFields s.group info.checkpointLsn := by
  rw [h.slots f info hs]; rfl

/-- **Recovery from a checkpoint reads back the log.** In every reachable state, for every
checkpoint block of the group on disk, the group anchored at the block's `checkpoint_lsn` and
`lsn_offset` reads with `log_group_read_log_seg`, from `checkpoint_lsn` to any LSN up to
`write_lsn`, the bytes `log_write_low` appended, at every payload LSN, unless the writes reached a
capacity past `checkpoint_lsn`. -/
theorem logGroupReadLogSeg_fromCheckpoint {w : World} (h : Reachable cfg w) {f : CheckpointField}
    {info : CheckpointInfo} (hs : w.log.checkpointSlots w.log.group.id f = some info) {endLsn : ℕ}
    (hend : endLsn ≤ w.log.writeLsn)
    (hwrap : w.log.writtenEnd ≤ info.checkpointLsn + logGroupGetCapacity w.log.group) (buf : Mem)
    {x : ℕ} (hx : IsPayloadOffset x) (hsx : info.checkpointLsn ≤ x) (hxe : x < endLsn) :
    logGroupReadLogSeg { w.log.group with lsn := info.checkpointLsn, lsnOffset := info.lsnOffset }
        w.log.logFiles buf 0 info.checkpointLsn endLsn (x - info.checkpointLsn) = w.log.appended x := by
  have hr : logGroupReadLogSeg (logGroupSetFields w.log.group info.checkpointLsn) w.log.logFiles buf 0
      info.checkpointLsn endLsn (0 + (x - info.checkpointLsn)) =
        w.log.logFiles (logGroupCalcLsnOffset (logGroupSetFields w.log.group info.checkpointLsn)
          (info.checkpointLsn + (x - info.checkpointLsn))) :=
    logGroupReadLogSeg_apply _ (by omega)
  rw [(checkpointAnchor_of_reachable h).anchor_eq hs, ← Nat.zero_add (x - info.checkpointLsn), hr,
    logGroupCalcLsnOffset_logGroupSetFields, Nat.add_sub_cancel' hsx]
  exact filesHoldLog_of_reachable h x hx (by omega) (by omega)

/-- A run of the default deployment: thread `0` makes a checkpoint at LSN `8204`, whose block
lands in slot `LOG_CHECKPOINT_1`; then thread `1` appends the byte `7` and writes it. Reading from
the block's LSN gives the byte back. -/
theorem defaultWorld_readFromCheckpoint : ∃ (w : World) (info : CheckpointInfo),
    Reachable (defaultConfig .fsync) w ∧ w.log.checkpointSlots w.log.group.id (.ofNo 0) = some info ∧
    info.checkpointLsn = 8204 ∧ w.log.writeLsn = 8205 ∧
    logGroupReadLogSeg { w.log.group with lsn := info.checkpointLsn, lsnOffset := info.lsnOffset }
        w.log.logFiles (fun _ => 0) 0 info.checkpointLsn 8205 (8204 - info.checkpointLsn) =
      w.log.appended 8204 := by
  -- thread `0`: `log_checkpoint(true, false)`, whose batch lands and completes
  have r1 := Reachable.step (defaultWorld_reachable .fsync) (.call 0 rfl (.checkpoint true false))
  have r2 := r1.step (.run 0 (.checkpointFlush 0 (by decide) (by decide)))
  have r3 := r2.step (.run 0 (.dirtyLock (by decide)))
  have r4 := r3.step (.run 0 (.lockedWrite (by decide) (by decide) (by decide)))
  have r5 := r4.step (.run 0 (.assertFsync (by decide) (by decide)))
  have r6 := ((((r5.step (.run 0 .fsync)).step (.run 0 .assign)).step (.run 0 .decrement)).step
    (.run 0 .setEvent)).step (.run 0 .resume)
  have r7 := ((r6.step (.run 0 (.checkpointIssue (by decide) (by decide)))).step (.land 0 rfl)).step
    (.complete (by decide))
  -- thread `1` appends one byte and writes it
  have r8 := (r7.step (.call 1 rfl (.append 1 [[7]]))).step
    (.run 1 (.appendWrite 0 (by decide) (by decide)))
  have r9 := ((r8.step (.call 1 rfl (.writeUpTo 8205 false))).step
    (.run 1 (.dirtyLock (by decide)))).step (.run 1 (.lockedWrite (by decide) (by decide) (by decide)))
  -- the block in the slot names LSN `8204`, and the write reached `8205`
  have key : ∀ w : World, Reachable (defaultConfig .fsync) w →
      (w.log.checkpointSlots w.log.group.id (.ofNo 0)).map CheckpointInfo.checkpointLsn = some 8204 →
      w.log.writeLsn = 8205 → w.log.writtenEnd ≤ 8204 + logGroupGetCapacity w.log.group →
      ∃ info, w.log.checkpointSlots w.log.group.id (.ofNo 0) = some info ∧ info.checkpointLsn = 8204 ∧
        logGroupReadLogSeg { w.log.group with lsn := info.checkpointLsn, lsnOffset := info.lsnOffset }
          w.log.logFiles (fun _ => 0) 0 info.checkpointLsn 8205 (8204 - info.checkpointLsn) =
        w.log.appended 8204 := fun w hr h1 h2 h3 => by
    obtain ⟨info, hinfo⟩ : ∃ info, w.log.checkpointSlots w.log.group.id (.ofNo 0) = some info := by
      cases hs : w.log.checkpointSlots w.log.group.id (.ofNo 0) with
      | none => rw [hs] at h1; exact absurd h1 (by simp)
      | some i => exact ⟨i, rfl⟩
    have hl : info.checkpointLsn = 8204 := by rw [hinfo] at h1; exact Option.some.inj h1
    exact ⟨info, hinfo, hl, logGroupReadLogSeg_fromCheckpoint hr hinfo h2.ge (by rw [hl]; exact h3) _
      (by decide) hl.le (by omega)⟩
  obtain ⟨info, h1, h2, h3⟩ := key _ r9 (by decide) (by decide) (by decide)
  exact ⟨_, info, r9, h1, h2, by decide, h3⟩

end RedoLog

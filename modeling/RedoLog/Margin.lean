import RedoLog.CheckpointSafety
import RedoLog.BufferSize

/-!
# The margins of the log

`log_calc_max_ages` derives from the smallest group's capacity the ages at which the log asks
for work: `max_modified_age_async` and `max_modified_age_sync` for preflushes of the buffer pool,
`max_checkpoint_age_async` and `max_checkpoint_age` for checkpoints. `log_close` raises the hint
`check_flush_or_checkpoint` when the age of the last checkpoint passes them, and
`log_checkpoint_margin` acts on the hint and clears it once no checkpoint is urgent.

## Main results

* `logCalcMaxAges_ordered` — the margins are ordered below the capacity, and the one subtraction
  of `log_calc_max_ages` that could wrap, `smallest_capacity - free`, does not.
* `marginHint_sound` — over a run from `log_init` in which `last_checkpoint_lsn` never moves back,
  the thresholds stay as `log_calc_max_ages` set them, and a clear hint means that the last
  checkpoint is at most `max_checkpoint_age` old.
* `marginHint_unsound` — without that restriction the hint is not sound: a batch of
  `log_checkpoint(_, true)` that completes below a newer checkpoint ages it past
  `max_checkpoint_age` while the hint stays clear.

## Modelling choices

`log_reserve_and_open`, `log_write_low` and `log_close` are one atomic step of the model, so there
is no state between them. `log_check_margins` repeats `log_flush_margin` and
`log_checkpoint_margin`, whose steps the model has; its tracking and archiving margins are not
modelled.
-/

namespace RedoLog

/-! ### The thresholds -/

/-- `smallest_capacity` in `log_calc_max_ages`: the least capacity of the groups, the fold
starting from `LSN_MAX` as the code's loop does. Every capacity the code computes is an `lsn_t`,
at most `LSN_MAX`, so this is the least capacity of the groups. -/
def smallestCapacity (s : LogSys) : ℕ :=
  s.logGroups.foldl (fun c g => min c (logGroupGetCapacity g)) lsnMax

/-- `smallest_capacity` after its cut for extra safety, which becomes `log_group_capacity`. -/
def safeCapacity (s : LogSys) : ℕ := smallestCapacity s - smallestCapacity s / 10

/-- `free` in `log_calc_max_ages`: the space kept for the query steps of the OS threads, a
`ulint`, so modulo `2^64`. -/
def logCheckpointFree (cfg : Config) : ℕ :=
  (logCheckpointFreePerThread cfg.univPageSize * (10 + cfg.srvThreadConcurrency) +
    logCheckpointExtraFree cfg.univPageSize) % 2 ^ 64

/-- `smallest_archive_margin` in `log_calc_max_ages`: the least archive margin of the groups. -/
def smallestArchiveMargin (cfg : Config) (s : LogSys) : ℕ :=
  s.logGroups.foldl (fun c g => min c (logArchiveMargin cfg g)) lsnMax

/-- `margin` in `log_calc_max_ages`, after its cut for still some extra safety. -/
def checkpointMargin (cfg : Config) (s : LogSys) : ℕ :=
  (safeCapacity s - logCheckpointFree cfg) - (safeCapacity s - logCheckpointFree cfg) / 10

/-- `log_calc_max_ages`, in the pieces above. -/
theorem logCalcMaxAges_eq (cfg : Config) (s : LogSys) :
    logCalcMaxAges cfg s =
      if safeCapacity s / 2 ≤ logCheckpointFree cfg then none else
        some { s with
          logGroupCapacity := safeCapacity s
          maxModifiedAgeAsync :=
            checkpointMargin cfg s - checkpointMargin cfg s / logPoolPreflushRatioAsync
          maxModifiedAgeSync :=
            checkpointMargin cfg s - checkpointMargin cfg s / logPoolPreflushRatioSync
          maxCheckpointAgeAsync :=
            checkpointMargin cfg s - checkpointMargin cfg s / logPoolCheckpointRatioAsync
          maxCheckpointAge := checkpointMargin cfg s
          maxArchivedLsnAge := smallestArchiveMargin cfg s
          maxArchivedLsnAgeAsync :=
            smallestArchiveMargin cfg s - smallestArchiveMargin cfg s / logArchiveRatioAsync } := rfl

/-- The hint is sound, with the order of the thresholds its soundness rests on. -/
structure MarginInv (s : LogSys) : Prop where
  sync_le_async : s.maxModifiedAgeSync ≤ s.maxCheckpointAgeAsync
  async_le : s.maxCheckpointAgeAsync ≤ s.maxCheckpointAge
  hint : s.checkFlushOrCheckpoint = false → s.lsn - s.lastCheckpointLsn ≤ s.maxCheckpointAge

/-- A step that leaves the LSNs, the hint and the thresholds alone. -/
structure MarginFrame (s s' : LogSys) : Prop where
  lsn : s'.lsn = s.lsn
  last : s'.lastCheckpointLsn = s.lastCheckpointLsn
  hint : s'.checkFlushOrCheckpoint = s.checkFlushOrCheckpoint
  sync : s'.maxModifiedAgeSync = s.maxModifiedAgeSync
  async : s'.maxCheckpointAgeAsync = s.maxCheckpointAgeAsync
  age : s'.maxCheckpointAge = s.maxCheckpointAge
  modAsync : s'.maxModifiedAgeAsync = s.maxModifiedAgeAsync

/-- The four thresholds `log_calc_max_ages` sets are those of `s`. -/
structure SameThresholds (s s' : LogSys) : Prop where
  modAsync : s'.maxModifiedAgeAsync = s.maxModifiedAgeAsync
  modSync : s'.maxModifiedAgeSync = s.maxModifiedAgeSync
  ckptAsync : s'.maxCheckpointAgeAsync = s.maxCheckpointAgeAsync
  age : s'.maxCheckpointAge = s.maxCheckpointAge

theorem SameThresholds.refl (s : LogSys) : SameThresholds s s := ⟨rfl, rfl, rfl, rfl⟩

theorem SameThresholds.trans {s₁ s₂ s₃ : LogSys} (h₁ : SameThresholds s₁ s₂)
    (h₂ : SameThresholds s₂ s₃) : SameThresholds s₁ s₃ :=
  ⟨h₂.1.trans h₁.1, h₂.2.trans h₁.2, h₂.3.trans h₁.3, h₂.4.trans h₁.4⟩

section Hint
variable {s s' : LogSys}

theorem MarginInv.of_frame (h : MarginInv s) (hf : MarginFrame s s') : MarginInv s' where
  sync_le_async := hf.sync ▸ hf.async ▸ h.sync_le_async
  async_le := hf.async ▸ hf.age ▸ h.async_le
  hint hc := hf.lsn ▸ hf.last ▸ hf.age ▸ h.hint (hf.hint ▸ hc)

/-- A successful `log_calc_max_ages` orders the thresholds `log_close` compares the age with. -/
theorem logCalcMaxAges_thresholds (h : logCalcMaxAges cfg s = some s') :
    s'.maxModifiedAgeSync ≤ s'.maxCheckpointAgeAsync ∧ s'.maxCheckpointAgeAsync ≤ s'.maxCheckpointAge := by
  rw [logCalcMaxAges_eq] at h
  split_ifs at h
  cases h
  simp only [logPoolPreflushRatioSync, logPoolCheckpointRatioAsync]
  omega

/-- `log_close` leaves the hint clear only with the age within `max_checkpoint_age`: past it, the
age is past `max_checkpoint_age_async` and `max_modified_age_sync`, and `log_close` sets it. -/
theorem logClose_marginInv (h₁ : s.maxModifiedAgeSync ≤ s.maxCheckpointAgeAsync)
    (h₂ : s.maxCheckpointAgeAsync ≤ s.maxCheckpointAge) (bufPoolOldest : ℕ) :
    MarginInv (logClose s bufPoolOldest).1 := by
  refine ⟨h₁, h₂, fun hc => ?_⟩
  unfold logClose at hc ⊢
  simp only [Bool.or_eq_false_iff, Bool.and_eq_false_iff, Bool.not_eq_false',
    decide_eq_true_eq, decide_eq_false_iff_not, not_lt] at hc
  dsimp only
  omega

theorem MarginInv.mtrWrite (h : MarginInv s) (strs : List (List UInt8)) (bufPoolOldest : ℕ) :
    MarginInv (mtrWrite s strs bufPoolOldest) := by
  have hf := appendFrame_foldl_logWriteLow strs s
  unfold AppendFrame at hf
  exact logClose_marginInv (by rw [hf]; exact h.sync_le_async) (by rw [hf]; exact h.async_le) _

theorem marginFrame_logWriteUpToLocked (s : LogSys) (flush : Bool) :
    MarginFrame s (logWriteUpToLocked cfg s flush) := by
  rw [logWriteUpToLocked, logWriteUpToWrite_eq]
  cases flush <;> exact ⟨rfl, rfl, rfl, rfl, rfl, rfl, rfl⟩

/-- What a step of a thread can do to the hint: append with `log_close`, set or clear it in
`log_checkpoint_margin`, or leave it, the LSNs and the thresholds alone. -/
theorem FrameStep.margin_cases {f f' : Frame} (hs : FrameStep cfg s f s' f') :
    MarginFrame s s' ∨ (∃ strs bufPoolOldest, s' = mtrWrite s strs bufPoolOldest) ∨
      s' = logCheckpointMarginLocked s ∨ s' = { s with checkFlushOrCheckpoint := true } := by
  cases hs with
  | @appendWrite _ strs bpo => exact .inr (.inl ⟨strs, bpo, rfl⟩)
  | @checkpointNames _ _ _ strs bpo => exact .inr (.inl ⟨strs, bpo, rfl⟩)
  | marginCheck => exact .inr (.inr (.inl rfl))
  | marginRetry => exact .inr (.inr (.inr rfl))
  | lockedWrite => exact .inl (marginFrame_logWriteUpToLocked _ _)
  | checkpointIssue => rw [logWriteCheckpointInfo_eq]; exact .inl ⟨rfl, rfl, rfl, rfl, rfl, rfl, rfl⟩
  | _ => exact .inl ⟨rfl, rfl, rfl, rfl, rfl, rfl, rfl⟩

theorem MarginInv.frameStep {f f' : Frame} (h : MarginInv s) (hs : FrameStep cfg s f s' f') :
    MarginInv s' := by
  rcases hs.margin_cases with hf | ⟨strs, bpo, rfl⟩ | rfl | rfl
  · exact h.of_frame hf
  · exact h.mtrWrite strs bpo
  · refine ⟨h.sync_le_async, h.async_le, fun hc => ?_⟩
    simpa [logCheckpointMarginLocked] using hc
  · exact ⟨h.sync_le_async, h.async_le, fun hc => nomatch hc⟩

/-- No step changes the thresholds. -/
theorem FrameStep.sameThresholds {f f' : Frame} (hs : FrameStep cfg s f s' f') : SameThresholds s s' := by
  rcases hs.margin_cases with hf | ⟨strs, bpo, rfl⟩ | rfl | rfl
  · exact ⟨hf.modAsync, hf.sync, hf.async, hf.age⟩
  · rw [appendFrame_mtrWrite s strs bpo]; exact ⟨rfl, rfl, rfl, rfl⟩
  all_goals exact ⟨rfl, rfl, rfl, rfl⟩

end Hint

/-- A step that does not move `last_checkpoint_lsn` back: by `CheckpointInv.monotone`, any step
but the completion of a batch issued by `log_checkpoint(_, true)` below it. -/
def KeepsCheckpoint (cfg : Config) (w w' : World) : Prop :=
  Step cfg w w' ∧ w.log.lastCheckpointLsn ≤ w'.log.lastCheckpointLsn

section Run
variable {w w' : World}

theorem Step.marginInv (h : MarginInv w.log) (hs : KeepsCheckpoint cfg w w') :
    MarginInv w'.log ∧ SameThresholds w.log w'.log := by
  obtain ⟨hs, hlast⟩ := hs
  cases hs with
  | call => exact ⟨h, .refl _⟩
  | run _ hs => exact ⟨h.frameStep hs, hs.sameThresholds⟩
  | land => exact ⟨h.of_frame ⟨rfl, rfl, rfl, rfl, rfl, rfl, rfl⟩, ⟨rfl, rfl, rfl, rfl⟩⟩
  | complete =>
    dsimp only at hlast ⊢
    rw [logIoCompleteCheckpoint_eq] at hlast ⊢
    refine ⟨⟨h.sync_le_async, h.async_le, fun hc => ?_⟩, ⟨rfl, rfl, rfl, rfl⟩⟩
    have := h.hint hc
    dsimp only at hlast ⊢
    omega

theorem marginInv_of_isInitial {s : LogSys} (h : IsInitial cfg s) : MarginInv s := by
  obtain ⟨_, _, _, _, _, _, _, hs⟩ := h
  obtain ⟨h₁, h₂⟩ := logCalcMaxAges_thresholds hs
  obtain ⟨_, _, _, _, _, _, _, rfl⟩ := logCalcMaxAges_eq_some hs
  exact ⟨h₁, h₂, fun hc => nomatch hc⟩

theorem marginInv_of_run (hi : w.IsInitial cfg) (hrun : Relation.ReflTransGen (KeepsCheckpoint cfg) w w') :
    MarginInv w'.log ∧ SameThresholds w.log w'.log := by
  induction hrun with
  | refl => exact ⟨marginInv_of_isInitial hi.1, .refl _⟩
  | tail _ hs ih =>
    obtain ⟨h, hth⟩ := Step.marginInv ih.1 hs
    exact ⟨h, ih.2.trans hth⟩

/-- **The margin hint is sound while `last_checkpoint_lsn` does not move back.** From a state
`log_init` and a successful `log_calc_max_ages` leave, along any interleaving of the calls and of
the checkpoint writes' landing and completion in which `last_checkpoint_lsn` never decreases, at
every state the four thresholds are those `log_calc_max_ages` set, and whenever
`check_flush_or_checkpoint` is clear, `lsn - last_checkpoint_lsn ≤ max_checkpoint_age`. No state of the model has a thread
between `log_reserve_and_open` and `log_close`: the mini-transaction's write holds the log mutex
throughout, and is one step. -/
theorem marginHint_sound (hi : w.IsInitial cfg) (hrun : Relation.ReflTransGen (KeepsCheckpoint cfg) w w') :
    w'.log.maxModifiedAgeAsync = w.log.maxModifiedAgeAsync ∧
      w'.log.maxModifiedAgeSync = w.log.maxModifiedAgeSync ∧
      w'.log.maxCheckpointAgeAsync = w.log.maxCheckpointAgeAsync ∧
      w'.log.maxCheckpointAge = w.log.maxCheckpointAge ∧
      (w'.log.checkFlushOrCheckpoint = false →
        w'.log.lsn - w'.log.lastCheckpointLsn ≤ w'.log.maxCheckpointAge) :=
  let ⟨hinv, hth⟩ := marginInv_of_run hi hrun
  ⟨hth.modAsync, hth.modSync, hth.ckptAsync, hth.age, hinv.hint⟩

/-- A run of the default deployment in which `log_checkpoint_margin` clears the hint. -/
theorem defaultWorld_marginHint_sound : ∃ w' : World,
    (defaultWorld .fsync).IsInitial (defaultConfig .fsync) ∧
    Relation.ReflTransGen (KeepsCheckpoint (defaultConfig .fsync)) (defaultWorld .fsync) w' ∧
    w'.log.checkFlushOrCheckpoint = false ∧
    (w'.log.maxModifiedAgeAsync = (defaultWorld .fsync).log.maxModifiedAgeAsync ∧
      w'.log.maxModifiedAgeSync = (defaultWorld .fsync).log.maxModifiedAgeSync ∧
      w'.log.maxCheckpointAgeAsync = (defaultWorld .fsync).log.maxCheckpointAgeAsync ∧
      w'.log.maxCheckpointAge = (defaultWorld .fsync).log.maxCheckpointAge ∧
      (w'.log.checkFlushOrCheckpoint = false →
        w'.log.lsn - w'.log.lastCheckpointLsn ≤ w'.log.maxCheckpointAge)) := by
  let w₁ : World :=
    ⟨(defaultWorld .fsync).log, Function.update (defaultWorld .fsync).threads 0 (.margin .enter)⟩
  have e₁ : Step (defaultConfig .fsync) (defaultWorld .fsync) w₁ := .call 0 rfl .checkpointMargin
  have e₂ : Step (defaultConfig .fsync) w₁ _ := .run 0 (.marginCheck 0 (Nat.zero_le _) (by decide))
  have k₁ : KeepsCheckpoint (defaultConfig .fsync) (defaultWorld .fsync) w₁ := ⟨e₁, le_rfl⟩
  have k₂ : KeepsCheckpoint (defaultConfig .fsync) w₁ _ := ⟨e₂, le_rfl⟩
  have hrun := Relation.ReflTransGen.head k₁ (.single k₂)
  exact ⟨_, defaultWorld_isInitial .fsync, hrun, by decide,
    marginHint_sound (defaultWorld_isInitial .fsync) hrun⟩

end Run

/-! ### A run where the hint is not sound

`log_checkpoint(_, true)` skips the re-check `last_checkpoint_lsn >= oldest_lsn` after its flush,
so it can issue a batch below a checkpoint that completed meanwhile; when that batch completes,
`last_checkpoint_lsn` moves back and the age grows, while the hint that
`log_checkpoint_margin` cleared stays clear. -/

/-- A thread at `relock` in `log_checkpoint(false, wa)` that finds no batch pending, in a log of
one group, issues its batch, whose write lands and completes: `last_checkpoint_lsn` becomes the
batch's LSN, and the LSN, the hint and `max_checkpoint_age` stay. -/
theorem Reachable.completeBatch {w : World} (hr : Reachable cfg w) (t oldest : ℕ) (wa : Bool)
    (ht : w.threads t = .checkpoint (.relock oldest) false wa)
    (hwa : ¬(wa = false ∧ oldest ≤ w.log.lastCheckpointLsn))
    (hp : w.log.nPendingCheckpointWrites = 0) (hw : w.log.checkpointWrites = [])
    (hg : w.log.groupsRest = []) :
    ∃ w' : World, Reachable cfg w' ∧ w'.threads = Function.update w.threads t .idle ∧
      w'.log.lsn = w.log.lsn ∧ w'.log.checkFlushOrCheckpoint = w.log.checkFlushOrCheckpoint ∧
      w'.log.maxCheckpointAge = w.log.maxCheckpointAge ∧ w'.log.lastCheckpointLsn = oldest ∧
      w'.log.nPendingCheckpointWrites = 0 ∧ w'.log.checkpointWrites = [] ∧
      w'.log.groupsRest = [] := by
  have r₁ := hr.step (.run t (by rw [ht]; exact .checkpointIssue hwa hp))
  have hlen : 0 < (logWriteCheckpointInfo
      { w.log with nextCheckpointLsn := oldest, checkpointWriteAlways := wa }).checkpointWrites.length := by
    rw [logWriteCheckpointInfo_eq]; simp [LogSys.logGroups]
  have r₂ := r₁.step (.land 0 (List.getElem?_eq_getElem hlen))
  have r₃ := r₂.step (.complete (Nat.succ_pos _))
  refine ⟨_, r₃, rfl, ?_⟩
  simp only [logIoCompleteCheckpoint_eq, landCheckpointWrite, logWriteCheckpointInfo_eq]
  simp [hp, hw, hg, LogSys.logGroups]

/-- An idle thread that runs `log_checkpoint_margin` while the hint is set and the checkpoint is
fresh clears the hint, and changes nothing else of the log. -/
theorem Reachable.marginClear {w : World} (hr : Reachable cfg w) (t : ℕ) (ht : w.threads t = .idle)
    (hC : w.log.checkFlushOrCheckpoint = true)
    (hage : w.log.lsn - w.log.lastCheckpointLsn ≤ w.log.maxCheckpointAge) :
    ∃ w' : World, Reachable cfg w' ∧ (∃ f, w'.threads = Function.update w.threads t f) ∧
      w'.log = { w.log with checkFlushOrCheckpoint := false } := by
  have r₁ := hr.step (.call t ht .checkpointMargin)
  have r₂ := r₁.step (.run t (by
    simp only [Function.update_same]; exact .marginCheck 0 (Nat.zero_le _) hC))
  refine ⟨_, r₂, ⟨_, Function.update_idem _ _ _⟩, ?_⟩
  simp only [logCheckpointMarginLocked, decide_eq_false (Nat.not_lt.mpr hage)]

/-- A group of one file with 854 blocks of data, few enough that `log_calc_max_ages` keeps
`max_checkpoint_age` small under `smallConfig`. -/
def marginGroup : LogGroup :=
  logGroupInit 0 1 (logFileHdrSize + 854 * osFileLogBlockSize) (by decide) (by decide) (by decide)

/-- The log after `log_init` under `smallConfig`, with a buffer of 64 pages and `marginGroup`. -/
def marginLogInit : LogSys := logInit smallConfig 64 marginGroup []

/-- The start of a run under `smallConfig` with `marginGroup`. -/
def marginWorld : World :=
  ⟨(logCalcMaxAges smallConfig marginLogInit).getD marginLogInit, fun _ => .idle⟩

theorem marginWorld_isInitial : marginWorld.IsInitial smallConfig :=
  ⟨⟨64, marginGroup, [], (by decide : 16 * 512 ≤ 64 * 4096), (by decide : 4 * 4096 ≤ 64 * 4096),
    by simp [marginGroup, logGroupInit, osFileLogBlockSize, logFileHdrSize], by simp [marginGroup, logGroupInit], rfl⟩, fun _ => rfl⟩

/-- **The margin hint is not sound.** Under `smallConfig` with `marginGroup`, `log_calc_max_ages`
sets `max_checkpoint_age = 177225`. Thread `0` appends 180000 bytes in one mini-transaction.
Thread `1` calls `log_checkpoint(false, true)`, finds a page dirtied at LSN 8204, and writes and
flushes the log. The page is then flushed, and thread `2` calls `log_checkpoint(false, false)`,
finds no dirty page, and completes a checkpoint at `lsn`. Thread `3` runs `log_checkpoint_margin`,
which finds the checkpoint fresh and clears the hint. Thread `1`, with `write_always`, does not
check `last_checkpoint_lsn` again and issues its batch at 8204; once it completes, the hint is
clear while the age of the last checkpoint is 185792. -/
theorem marginHint_unsound : ∃ w : World, Reachable smallConfig w ∧
    w.log.checkFlushOrCheckpoint = false ∧
    w.log.maxCheckpointAge < w.log.lsn - w.log.lastCheckpointLsn := by
  have h₀ : marginWorld.log.lsn = 8204 ∧ marginWorld.log.bufFree = 12 ∧
      marginWorld.log.maxBufFree = 112640 ∧ marginWorld.log.flushedToDiskLsn = 0 ∧
      marginWorld.log.nPendingFlushes = 0 ∧ marginWorld.log.flushEvent.isSet = true ∧
      marginWorld.log.lastCheckpointLsn = 8192 ∧ marginWorld.log.nPendingCheckpointWrites = 0 ∧
      marginWorld.log.checkpointWrites = [] ∧ marginWorld.log.maxCheckpointAge = 177225 := by
    decide
  obtain ⟨hlsn₀, hbf₀, hmax₀, hfd₀, hn₀, hev₀, hlast₀, hp₀, hw₀, hage₀⟩ := h₀
  have hg₀ : marginWorld.log.groupsRest = [] := rfl
  -- thread `0` appends 180000 bytes
  obtain ⟨strs, hsum⟩ : ∃ strs : List (List UInt8), (strs.map List.length).sum = 180000 :=
    ⟨[List.replicate 180000 0], by
      rw [List.map_singleton, List.sum_cons, List.sum_nil, List.length_replicate, Nat.add_zero]⟩
  have r₁ := Reachable.step (.init marginWorld_isInitial) (.call 0 rfl (.append 180000 strs))
  have r₂ : Reachable smallConfig ⟨mtrWrite marginWorld.log strs 0, _⟩ :=
    r₁.step (.run 0 (.appendWrite 0 (show ReserveFits smallConfig marginWorld.log 180000 by decide)
      hsum.le))
  have hbf : (strs.foldl logWriteLow marginWorld.log).bufFree = 185804 := by
    rw [(foldl_logWriteLow_bufFree strs (s := marginWorld.log) ⟨by decide, by decide⟩).2.2.1, hsum,
      hbf₀]
    rfl
  have hlsn : (mtrWrite marginWorld.log strs 0).lsn = 193996 := by
    rw [(appendStep_mtrWrite (bufferInv_of_isInitial marginWorld_isInitial.1).toBufferCore strs
      0).lsn_eq, mtrWrite_bufFree, hbf, hlsn₀, hbf₀]
  have hC : (mtrWrite marginWorld.log strs 0).checkFlushOrCheckpoint = true := by
    have hmax : (strs.foldl logWriteLow marginWorld.log).maxBufFree = 112640 := by
      rw [appendFrame_foldl_logWriteLow strs marginWorld.log]; exact hmax₀
    unfold mtrWrite logClose
    simp only [hmax, hbf, Bool.or_eq_true, decide_eq_true_eq]
    exact .inl (.inr (by decide))
  have hf := appendFrame_mtrWrite marginWorld.log strs 0
  generalize mtrWrite marginWorld.log strs 0 = s₁ at r₂ hlsn hC hf
  clear hsum hbf
  unfold AppendFrame at hf
  have hfd₁ : s₁.flushedToDiskLsn = 0 := by rw [hf]; exact hfd₀
  have hn₁ : s₁.nPendingFlushes = 0 := by rw [hf]; exact hn₀
  have hev₁ : s₁.flushEvent.isSet = true := by rw [hf]; exact hev₀
  -- thread `1`: `log_checkpoint(false, true)` finds a page dirtied at 8204, and flushes the log
  have r₃ := r₂.step (.call 1 rfl (.checkpoint false true))
  have r₄ := r₃.step (.run 1 (.checkpointFlush 8204 (show 8204 ≤ s₁.lsn by rw [hlsn]; decide)
    (fun h => nomatch h.1)))
  have r₅ := r₄.step (.run 1 (.dirtyLock (fun h => nomatch h.1)))
  have r₆ : Reachable smallConfig ⟨logWriteUpToLocked smallConfig s₁ true, _⟩ :=
    r₅.step (.run 1 (.lockedWrite (by simp [logBufPoolGetOldestModification, writeLimit, hfd₁])
      (show ¬(true = true ∧ FlushPending s₁) by unfold FlushPending; rw [hn₁, hev₁]; decide)
      (fun h => nomatch h.1)))
  have hm₂ : MarginFrame s₁ (logWriteUpToLocked smallConfig s₁ true) :=
    marginFrame_logWriteUpToLocked s₁ true
  have hc₂ : CheckpointFrame s₁ (logWriteUpToLocked smallConfig s₁ true) :=
    checkpointFrame_logWriteUpToLocked s₁ true
  have hn₂ := logWriteUpToLocked_nPendingFlushes smallConfig s₁ true
  have hcur₂ := logWriteUpToLocked_currentFlushLsn smallConfig s₁ true
  generalize logWriteUpToLocked smallConfig s₁ true = s₂ at r₆ hm₂ hc₂ hn₂ hcur₂
  have r₇ := r₆.step (.run 1 (.assertFsync (by rw [hn₂, hn₁]; rfl) (by decide)))
  have r₈ := r₇.step (.run 1 .fsync)
  have r₉ := r₈.step (.run 1 .assign)
  have r₁₀ := r₉.step (.run 1 .decrement)
  have r₁₁ := r₁₀.step (.run 1 .setEvent)
  have r₁₂ := r₁₁.step (.run 1 .resume)
  -- thread `2`: `log_checkpoint(false, false)` finds no dirty page and completes a checkpoint
  have hlast₂ : s₂.lastCheckpointLsn = 8192 := by rw [hc₂.last, hf]; exact hlast₀
  have r₁₃ := r₁₂.step (.call 2 rfl (.checkpoint false false))
  have r₁₄ := r₁₃.step (.run 2 (.checkpointFlush 0 (Nat.zero_le _)
    (by simp [logBufPoolGetOldestModification, sizeOfMlogCheckpoint, hm₂.lsn, hlast₂, hlsn])))
  have r₁₅ := r₁₄.step (.run 2 (.dirtyLock (fun h => nomatch h.1)))
  have r₁₆ := r₁₅.step (.run 2 (.lockedReturn
    (by simp [logBufPoolGetOldestModification, writeLimit, hcur₂, hm₂.lsn])))
  have r₁₇ := r₁₆.step (.run 2 .resume)
  have hp₂ : s₂.nPendingCheckpointWrites = 0 := by rw [hc₂.pending, hf]; exact hp₀
  have hw₂ : s₂.checkpointWrites = [] := by rw [hc₂.writes, hf]; exact hw₀
  have hgr₂ : s₂.groupsRest = [] := by
    have hg₁ : s₁.groupsRest = [] := by rw [hf]; exact hg₀
    have := hc₂.ids
    simp only [LogSys.logGroups, List.map_cons, hg₁, List.map_nil, List.cons.injEq,
      List.map_eq_nil_iff] at this
    exact this.2
  obtain ⟨w₁, r₂₀, ht₁, hlsn₁, hC₁, hage₁, hlast₁, hp₁, hw₁, hg₁⟩ :=
    r₁₇.completeBatch 2 s₂.lsn false rfl
      (by dsimp only; rw [hm₂.lsn, hlast₂, hlsn]; decide) hp₂ hw₂ hgr₂
  dsimp only at hlsn₁ hC₁ hage₁
  -- thread `3`: `log_checkpoint_margin` finds the checkpoint fresh and clears the hint
  obtain ⟨w₃, r₂₂, ⟨f₃, ht₃⟩, hlog₃⟩ := r₂₀.marginClear 3 (by rw [ht₁]; rfl)
    (by rw [hC₁]; exact hm₂.hint.trans hC) (by rw [hlsn₁, hlast₁, Nat.sub_self]; exact Nat.zero_le _)
  -- thread `1` issues its batch at 8204, below `last_checkpoint_lsn`
  obtain ⟨w₂, r₂₅, -, hlsn₂, hC₂, hage₂, hlast₂', -⟩ :=
    r₂₂.completeBatch 1 8204 true (by rw [ht₃, Function.update_noteq (by decide), ht₁]; rfl)
      (fun h => nomatch h.1) (by rw [hlog₃]; exact hp₁) (by rw [hlog₃]; exact hw₁)
      (by rw [hlog₃]; exact hg₁)
  refine ⟨w₂, r₂₅, by rw [hC₂, hlog₃], ?_⟩
  rw [hage₂, hlsn₂, hlast₂', hlog₃]
  dsimp only
  rw [hage₁, hlsn₁, hm₂.age, hm₂.lsn, hlsn, hf, hage₀]
  decide

end RedoLog

import RedoLog.Flush
import Mathlib.Logic.Relation

/-!
# Progress of `log_write_up_to`

`log_write_up_to` is the one call of the log that waits for another thread: a caller that finds a
flush in progress waits in `os_event_wait(flush_event)` until the flushing thread's
`os_event_set`. This module proves that such waits always end, and that every call can return.

* `flushEvent_setByFlusher` — while `flush_event` is reset, some thread is inside a flush, and it
  reaches `os_event_set` by a run of its own steps (`SoloStep`): no step of a flush waits.
* `logWriteUpTo_completes` — a thread anywhere in `log_write_up_to` returns by a run at whose end
  every thread but itself and the thread inside the flush in progress, if any, has the frame it
  had at the start; and when it returns, its bytes are written and, with `flush`, durable.

Both are statements about some run, not every run: they say that no reachable state leaves a
caller blocked for good, not that a scheduler lets it go. The run is built step by step, one lemma
per point of the call, each citing the lemma of the point that follows (`flushEndsBy_decrement`
and the others for a flush, `returnsBy_locked` and the others outside one). The only point that
waits for another thread is the wait on `flush_event`, and there the flush in progress is finished
first.

A flush is a run of the flushing thread alone. The other runs are `ReachesBy`: thread `t` gets to
a frame, in a log state with a given property, by a run at whose end every thread but `t` and the
threads a predicate on frames marks at the start, the movers, has the frame it had at the start.
A return from `log_write_up_to` is such a run whose movers are the threads inside a flush;
`RedoLog.Completion` builds those of `log_buffer_extend` on the same lemmas.
-/

namespace RedoLog

variable {cfg : Config}

/-- The runs from a reachable state reach reachable states. -/
theorem Reachable.reflTransGen {w w' : World} (h : Reachable cfg w)
    (r : Relation.ReflTransGen (Step cfg) w w') : Reachable cfg w' := by
  induction r with
  | refl => exact h
  | tail _ hs ih => exact ih.step hs

/-- A step of a thread from a reachable state reaches a reachable state. -/
theorem Reachable.run {w : World} (h : Reachable cfg w) {t : ℕ} {f₀ f₁ : Frame} {s' : LogSys}
    (ht : w.threads t = f₀) (hs : FrameStep cfg w.log f₀ s' f₁) :
    Reachable cfg ⟨s', Function.update w.threads t f₁⟩ := by
  subst ht; exact h.step (.run t hs)

/-! ### Runs that take a thread somewhere -/

section Reach
variable {w : World} {t : ℕ} {movers : Frame → Bool} {f : Frame} {P : LogSys → Prop}

/-- Thread `t` gets to the frame `f`, in a log state where `P` holds, by a run at whose end every
thread but `t` and the threads whose frames `movers` marks at the start has the frame it had at
the start. -/
def ReachesBy (cfg : Config) (movers : Frame → Bool) (t : ℕ) (f : Frame) (P : LogSys → Prop)
    (w : World) : Prop :=
  ∃ w', Relation.ReflTransGen (Step cfg) w w' ∧ w'.threads t = f ∧ P w'.log ∧
    ∀ u, u ≠ t → movers (w.threads u) = false → w'.threads u = w.threads u

theorem ReachesBy.refl (ht : w.threads t = f) (hP : P w.log) : ReachesBy cfg movers t f P w :=
  ⟨w, .refl, ht, hP, fun _ _ _ => rfl⟩

/-- A run that leaves every thread but `t` and the movers where it was, followed by such a run, is
such a run. -/
theorem ReachesBy.of_run {w₁ : World} (r : Relation.ReflTransGen (Step cfg) w w₁)
    (ho : ∀ u, u ≠ t → movers (w.threads u) = false → w₁.threads u = w.threads u)
    (h : ReachesBy cfg movers t f P w₁) : ReachesBy cfg movers t f P w := by
  obtain ⟨w', r', hf, hP, ho'⟩ := h
  refine ⟨w', r.trans r', hf, hP, fun u hu hm => ?_⟩
  have e := ho u hu hm
  exact (ho' u hu (by rwa [e])).trans e

/-- A step of thread `t` followed by such a run is such a run. -/
theorem ReachesBy.of_step {f₀ f₁ : Frame} {s' : LogSys} (ht : w.threads t = f₀)
    (hs : FrameStep cfg w.log f₀ s' f₁)
    (h : ReachesBy cfg movers t f P ⟨s', Function.update w.threads t f₁⟩) :
    ReachesBy cfg movers t f P w := by
  subst ht
  exact .of_run (.single (.run t hs)) (fun _ hu _ => Function.update_noteq hu _ _) h

/-- A run of a mover `v` that leaves every other thread where it is, followed by such a run, is
such a run. -/
theorem ReachesBy.of_mover {v : ℕ} (hv : movers (w.threads v) = true) {w₁ : World}
    (r : Relation.ReflTransGen (Step cfg) w w₁) (ho : ∀ u, u ≠ v → w₁.threads u = w.threads u)
    (h : ReachesBy cfg movers t f P w₁) : ReachesBy cfg movers t f P w :=
  .of_run r (fun u _ hm => ho u fun huv => by rw [huv, hv] at hm; exact Bool.false_ne_true hm.symm) h

/-- More movers and a weaker condition at the end. -/
theorem ReachesBy.mono {movers' : Frame → Bool} {P' : LogSys → Prop}
    (hm : ∀ f, movers f = true → movers' f = true) (hP : ∀ s, P s → P' s)
    (h : ReachesBy cfg movers t f P w) : ReachesBy cfg movers' t f P' w :=
  let ⟨w', r, hf, hp, ho⟩ := h
  ⟨w', r, hf, hP _ hp, fun u hu hm' =>
    ho u hu (Bool.eq_false_iff.mpr fun e => Bool.false_ne_true (hm' ▸ hm _ e))⟩

end Reach

/-! ### The flush always ends -/

/-- A step of thread `t` alone: every other thread stays where it is. -/
def SoloStep (cfg : Config) (t : ℕ) (w w' : World) : Prop :=
  ∃ s' f', FrameStep cfg w.log (w.threads t) s' f' ∧ w' = ⟨s', Function.update w.threads t f'⟩

/-- A run of thread `t` alone is a run of the system that moves no other thread. -/
theorem SoloStep.run {t : ℕ} {w w' : World}
    (r : Relation.ReflTransGen (SoloStep cfg t) w w') :
    Relation.ReflTransGen (Step cfg) w w' ∧ ∀ u, u ≠ t → w'.threads u = w.threads u := by
  induction r with
  | refl => exact ⟨.refl, fun _ _ => rfl⟩
  | tail _ hs ih =>
    obtain ⟨s', f', hs, rfl⟩ := hs
    exact ⟨ih.1.tail (.run t hs), fun u hu => (Function.update_noteq hu _ _).trans (ih.2 u hu)⟩

section Flush
variable {w : World} {t : ℕ} {lsn l0 : ℕ} {flush : Bool} {caller : Caller}

/-- Thread `t`, inside a flush of `log_write_up_to(lsn, flush)` begun at `l0`, finishes it by
steps of its own, with no other thread taking a step: it sets `flush_event` and returns. -/
def FlushEndsBy (cfg : Config) (t lsn : ℕ) (flush : Bool) (l0 : ℕ) (caller : Caller) (w : World) :
    Prop :=
  ∃ w', Relation.ReflTransGen (SoloStep cfg t) w w' ∧ w'.log.flushEvent.isSet = true ∧
    w'.threads t = .writeUpTo .returned lsn flush l0 caller

/-- A step of thread `t` followed by a run of its own is a run of its own. -/
theorem FlushEndsBy.of_step {f : Frame} {s' : LogSys} {f' : Frame} (ht : w.threads t = f)
    (hs : FrameStep cfg w.log f s' f')
    (h : FlushEndsBy cfg t lsn flush l0 caller ⟨s', Function.update w.threads t f'⟩) :
    FlushEndsBy cfg t lsn flush l0 caller w := by
  subst ht
  obtain ⟨w', r, hset, hret⟩ := h
  exact ⟨w', .head ⟨_, _, hs, rfl⟩ r, hset, hret⟩

theorem flushEndsBy_setEvent (ht : w.threads t = .writeUpTo .setEvent lsn flush l0 caller) :
    FlushEndsBy cfg t lsn flush l0 caller w :=
  .of_step ht .setEvent ⟨_, .refl, OsEvent.set_isSet _, Function.update_same _ _ _⟩

theorem flushEndsBy_decrement (ht : w.threads t = .writeUpTo .decrement lsn flush l0 caller) :
    FlushEndsBy cfg t lsn flush l0 caller w :=
  .of_step ht .decrement (flushEndsBy_setEvent (Function.update_same _ _ _))

theorem flushEndsBy_assign (ht : w.threads t = .writeUpTo .assign lsn flush l0 caller) :
    FlushEndsBy cfg t lsn flush l0 caller w :=
  .of_step ht .assign (flushEndsBy_decrement (Function.update_same _ _ _))

theorem flushEndsBy_fsync {snap : ℕ → Bool}
    (ht : w.threads t = .writeUpTo (.fsync snap) lsn flush l0 caller) :
    FlushEndsBy cfg t lsn flush l0 caller w :=
  .of_step ht .fsync (flushEndsBy_assign (Function.update_same _ _ _))

/-- At `ut_a(n_pending_flushes == 1)` the check passes, and the flush goes on through `fil_flush`,
or straight to the decrement under `O_DSYNC`. -/
theorem flushEndsBy_assertOne (ht : w.threads t = .writeUpTo .assertOne lsn flush l0 caller)
    (hp : w.log.nPendingFlushes = 1) : FlushEndsBy cfg t lsn flush l0 caller w := by
  by_cases hm : cfg.srvUnixFileFlushMethod = .oDsync
  · exact .of_step ht (.assertSkip hp hm) (flushEndsBy_decrement (Function.update_same _ _ _))
  · exact .of_step ht (.assertFsync hp hm) (flushEndsBy_fsync (Function.update_same _ _ _))

/-- From every point of a flush, the flushing thread finishes it on its own. -/
theorem flushEndsBy_of_inFlush {pc : WritePc}
    (ht : w.threads t = .writeUpTo pc lsn flush l0 caller) (hpc : pc.inFlush = true)
    (hp : pc.pending = true → w.log.nPendingFlushes = 1) : FlushEndsBy cfg t lsn flush l0 caller w := by
  cases pc with
  | assertOne => exact flushEndsBy_assertOne ht (hp rfl)
  | fsync => exact flushEndsBy_fsync ht
  | assign => exact flushEndsBy_assign ht
  | decrement => exact flushEndsBy_decrement ht
  | setEvent => exact flushEndsBy_setEvent ht
  | _ => exact absurd hpc Bool.false_ne_true

/-- In a reachable state, the thread inside a flush finishes it on its own: the invariant gives
the `n_pending_flushes == 1` its check asks for. -/
theorem flushEndsBy_of_reachable (h : Reachable cfg w) {pc : WritePc}
    (ht : w.threads t = .writeUpTo pc lsn flush l0 caller) (hpc : pc.inFlush = true) :
    FlushEndsBy cfg t lsn flush l0 caller w :=
  flushEndsBy_of_inFlush ht hpc fun hp =>
    (flushInv_of_reachable h).region.pending_iff.mpr ⟨t, by rw [ht]; exact hp⟩

/-- **No waiter on `flush_event` is left without a flusher.** In every reachable state where
`flush_event` is reset, some thread is inside a flush, and by a run of its own steps, in which no
other thread takes a step, it reaches `os_event_set`: the check `ut_a(n_pending_flushes == 1)`
passes and no step of the flush waits for another thread. Every thread in
`os_event_wait(flush_event)` can then wake. -/
theorem flushEvent_setByFlusher {w : World} (h : Reachable cfg w) (hr : w.log.flushEvent.isSet = false) :
    ∃ t, (w.threads t).inFlush = true ∧ ∃ w', Relation.ReflTransGen (SoloStep cfg t) w w' ∧
      w'.log.flushEvent.isSet = true := by
  obtain ⟨t, ht⟩ := (flushInv_of_reachable h).region.event_iff.mp hr
  refine ⟨t, ht, ?_⟩
  cases hf : w.threads t with
  | writeUpTo pc lsn flush l0 caller =>
    rw [hf] at ht
    obtain ⟨w', r, hset, -⟩ := flushEndsBy_of_reachable h hf ht
    exact ⟨w', r, hset⟩
  | _ => rw [hf] at ht; exact absurd ht Bool.false_ne_true

theorem defaultWorld_flushEvent_setByFlusher : ∃ w : World, Reachable (defaultConfig .fsync) w ∧
    w.log.flushEvent.isSet = false ∧
    ∃ t, (w.threads t).inFlush = true ∧ ∃ w', Relation.ReflTransGen (SoloStep (defaultConfig .fsync) t) w w' ∧
      w'.log.flushEvent.isSet = true := by
  have r1 := (defaultWorld_reachable .fsync).step (.call 0 rfl (.append 1 [[7]]))
  have r2 := r1.step (.run 0 (.appendWrite 0 (by decide) (by decide)))
  have r3 := r2.step (.call 0 rfl (.writeUpTo 8205 true))
  have r4 := r3.step (.run 0 (.dirtyLock (by decide)))
  have r5 := r4.step (.run 0 (.lockedWrite (by decide) (by decide) (by decide)))
  have hr (s : LogSys) : (logWriteUpToLocked (defaultConfig .fsync) s true).flushEvent.isSet = false := by
    rw [logWriteUpToLocked_flushEvent, if_pos rfl, OsEvent.reset_isSet]
  have hs := flushEvent_setByFlusher r5 (hr _)
  exact ⟨_, r5, hr _, hs⟩

/-- In a reachable state with a flush pending, the thread inside the flush finishes it on its
own, and leaves no flush pending. -/
theorem flushPending_ends (h : Reachable cfg w) (hp : FlushPending w.log) :
    ∃ v, (w.threads v).inFlush = true ∧ ∃ w₁, Relation.ReflTransGen (Step cfg) w w₁ ∧
      ¬FlushPending w₁.log ∧ ∀ u, u ≠ v → w₁.threads u = w.threads u := by
  have hreg := (flushInv_of_reachable h).region
  obtain ⟨v, hv⟩ := hreg.event_iff.mp (hreg.isSet_of_flushPending hp)
  refine ⟨v, hv, ?_⟩
  cases hf : w.threads v with
  | writeUpTo pc lsn flush l0 caller =>
    rw [hf] at hv
    obtain ⟨w₁, r, hset, -⟩ := flushEndsBy_of_reachable h hf hv
    obtain ⟨r, ho⟩ := SoloStep.run r
    -- with the event set, the invariant leaves no flush pending
    have hreg₁ := (flushInv_of_reachable (h.reflTransGen r)).region
    exact ⟨w₁, r, fun hp₁ => Bool.false_ne_true ((hreg₁.isSet_of_flushPending hp₁).symm.trans hset), ho⟩
  | _ => rw [hf] at hv; exact absurd hv Bool.false_ne_true

end Flush

/-! ### Every call returns -/

section Returns
variable {w : World} {t : ℕ} {lsn l0 : ℕ} {flush : Bool} {caller : Caller}

/-- Thread `t`, inside `log_write_up_to(lsn, flush)` begun at `l0`, returns by a run at whose end
every thread but `t` and the threads inside a flush has the frame it had at the start. -/
abbrev ReturnsBy (cfg : Config) (t lsn : ℕ) (flush : Bool) (l0 : ℕ) (caller : Caller) :
    World → Prop :=
  ReachesBy cfg Frame.inFlush t (.writeUpTo .returned lsn flush l0 caller) (fun _ => True)

theorem returnsBy_returned (ht : w.threads t = .writeUpTo .returned lsn flush l0 caller) :
    ReturnsBy cfg t lsn flush l0 caller w :=
  .refl ht trivial

/-- A flush of `t`'s own that `t` finishes is such a run. -/
theorem ReachesBy.of_flushEndsBy (h : FlushEndsBy cfg t lsn flush l0 caller w) :
    ReturnsBy cfg t lsn flush l0 caller w :=
  let ⟨w', r, _, hret⟩ := h
  let ⟨r, ho⟩ := SoloStep.run r
  ⟨w', r, hret, trivial, fun u hu _ => ho u hu⟩

/-- Under the mutex with no flush pending, the call returns, writes, or writes and flushes. -/
theorem returnsBy_locked (ht : w.threads t = .writeUpTo .locked lsn flush l0 caller)
    (hp : ¬FlushPending w.log) : ReturnsBy cfg t lsn flush l0 caller w := by
  by_cases hl : lsn ≤ writeLimit w.log flush
  · exact .of_step ht (.lockedReturn hl) (returnsBy_returned (Function.update_same _ _ _))
  by_cases hn : flush = false ∧ w.log.bufFree = w.log.bufNextToWrite
  · obtain ⟨rfl, hn⟩ := hn
    exact .of_step ht (.lockedNothing hl hn) (returnsBy_returned (Function.update_same _ _ _))
  refine .of_step ht (.lockedWrite hl (fun h => hp h.2) hn) ?_
  cases flush with
  | false => exact returnsBy_returned (Function.update_same _ _ _)
  | true =>
    -- the claim leaves this flush the only one pending
    refine .of_flushEndsBy (flushEndsBy_assertOne (Function.update_same _ _ _) ?_)
    rw [logWriteUpToLocked_nPendingFlushes, if_pos rfl, (not_flushPending hp).1]

theorem returnsBy_dirtyRead (ht : w.threads t = .writeUpTo .dirtyRead lsn flush l0 caller)
    (hp : ¬FlushPending w.log) : ReturnsBy cfg t lsn flush l0 caller w := by
  by_cases hd : flush = false ∧ lsn ≤ w.log.writeLsn
  · exact .of_step ht (.dirtyReturn hd.1 hd.2) (returnsBy_returned (Function.update_same _ _ _))
  · exact .of_step ht (.dirtyLock hd) (returnsBy_locked (Function.update_same _ _ _) hp)

/-- With the event set, `os_event_wait` returns at once, and the call returns or loops. -/
theorem returnsBy_waitEnter {wd : Bool}
    (ht : w.threads t = .writeUpTo (.waitEnter wd) lsn flush l0 caller) (hp : ¬FlushPending w.log) :
    ReturnsBy cfg t lsn flush l0 caller w := by
  refine .of_step ht (.waitSet (not_flushPending hp).2) ?_
  cases wd
  · exact returnsBy_dirtyRead (Function.update_same _ _ _) hp
  · exact returnsBy_returned (Function.update_same _ _ _)

/-- With the event set, a thread inside `os_event_wait` wakes, and the call returns or loops. -/
theorem returnsBy_waiting {wd : Bool} {c : ℕ}
    (ht : w.threads t = .writeUpTo (.waiting wd c) lsn flush l0 caller) (hp : ¬FlushPending w.log) :
    ReturnsBy cfg t lsn flush l0 caller w := by
  refine .of_step ht (.wake (.inl (not_flushPending hp).2)) ?_
  cases wd
  · exact returnsBy_dirtyRead (Function.update_same _ _ _) hp
  · exact returnsBy_returned (Function.update_same _ _ _)

/-- With no flush pending, a thread outside a flush returns by steps of its own. -/
theorem returnsBy_of_not_flushPending {pc : WritePc}
    (ht : w.threads t = .writeUpTo pc lsn flush l0 caller) (hpc : pc.inFlush = false)
    (hp : ¬FlushPending w.log) : ReturnsBy cfg t lsn flush l0 caller w := by
  cases pc with
  | dirtyRead => exact returnsBy_dirtyRead ht hp
  | locked => exact returnsBy_locked ht hp
  | waitEnter => exact returnsBy_waitEnter ht hp
  | waiting => exact returnsBy_waiting ht hp
  | returned => exact returnsBy_returned ht
  | _ => exact absurd hpc.symm Bool.false_ne_true

/-- In a reachable state, every thread inside `log_write_up_to` returns: inside a flush, by
finishing it; outside one, after the flush in progress, if any, has ended. -/
theorem returnsBy_of_reachable (h : Reachable cfg w) {pc : WritePc}
    (ht : w.threads t = .writeUpTo pc lsn flush l0 caller) : ReturnsBy cfg t lsn flush l0 caller w := by
  cases hpc : pc.inFlush
  · by_cases hp : FlushPending w.log
    · -- the thread inside the flush in progress ends it first
      obtain ⟨v, hv, w₁, r, hp₁, ho⟩ := flushPending_ends h hp
      have hvt : t ≠ v := by rintro rfl; rw [ht] at hv; exact Bool.false_ne_true (hpc.symm.trans hv)
      exact .of_mover hv r ho (returnsBy_of_not_flushPending (by rw [ho t hvt, ht]) hpc hp₁)
    · exact returnsBy_of_not_flushPending ht hpc hp
  · exact .of_flushEndsBy (flushEndsBy_of_reachable h ht hpc)

/-- **Every call of `log_write_up_to` returns.** In every reachable state, a thread anywhere inside
`log_write_up_to(lsn, flush)`, begun when `lsn` was `l0`, returns by a run at whose end every thread
but itself and the thread inside the flush in progress, if any, has the frame it had at the start:
the wait on `flush_event` never
blocks it for good. When it returns, every log byte below `min lsn l0` has been passed to the
files and, with `flush`, is durable. -/
theorem logWriteUpTo_completes (h : Reachable cfg w) {pc : WritePc}
    (ht : w.threads t = .writeUpTo pc lsn flush l0 caller) :
    ∃ w', Relation.ReflTransGen (Step cfg) w w' ∧
      w'.threads t = .writeUpTo .returned lsn flush l0 caller ∧
      (∀ u, u ≠ t → (w.threads u).inFlush = false → w'.threads u = w.threads u) ∧
      WrittenUpTo w'.log (min lsn l0) ∧ (flush = true → DurableUpTo w'.log (min lsn l0)) := by
  obtain ⟨w', r, hret, -, ho⟩ := returnsBy_of_reachable h ht
  have hinv := (flushInv_of_reachable (h.reflTransGen r)).threads t
  rw [hret] at hinv
  exact ⟨w', r, hret, ho, hinv.2.2⟩

/-- A run of the default deployment in which thread `0` waits in `os_event_wait(flush_event)`
behind the flush of thread `1`, and can still return. -/
theorem defaultWorld_logWriteUpTo_completes : ∃ (w : World) (wd : Bool) (c l0 : ℕ),
    Reachable (defaultConfig .fsync) w ∧
      w.threads 0 = .writeUpTo (.waiting wd c) 8205 true l0 .client ∧
      ∃ w', Relation.ReflTransGen (Step (defaultConfig .fsync)) w w' ∧
        w'.threads 0 = .writeUpTo .returned 8205 true l0 .client ∧
        (∀ u, u ≠ 0 → (w.threads u).inFlush = false → w'.threads u = w.threads u) ∧
        WrittenUpTo w'.log (min 8205 l0) ∧ (true = true → DurableUpTo w'.log (min 8205 l0)) := by
  have r1 := (defaultWorld_reachable .fsync).step (.call 1 rfl (.append 1 [[7]]))
  have r2 := r1.step (.run 1 (.appendWrite 0 (by decide) (by decide)))
  have r3 := r2.step (.call 1 rfl (.writeUpTo 8205 true))
  have r4 := r3.step (.run 1 (.dirtyLock (by decide)))
  have r5 := r4.step (.run 1 (.lockedWrite (by decide) (by decide) (by decide)))
  have r6 := r5.step (.call 0 rfl (.writeUpTo 8205 true))
  have r7 := r6.step (.run 0 (.dirtyLock (by decide)))
  have r8 := r7.step (.run 0 (.lockedWait (by decide) (by decide)))
  have r9 := r8.step (.run 0 (.waitBlock (by decide)))
  exact ⟨_, _, _, _, r9, rfl, logWriteUpTo_completes (t := 0) r9 rfl⟩

end Returns

end RedoLog

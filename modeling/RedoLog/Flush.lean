import RedoLog.Runs

/-!
# Flushes of the log

What `log_write_up_to` guarantees across every interleaving of its callers, of appends and of
the other calls:

* `flushInv_of_reachable` — the invariant `FlushInv`, from which:
* `flush_mutualExclusion` — at most one thread is between the claim of a flush
  (`n_pending_flushes++`, `os_event_reset`) and its `os_event_set`; `n_pending_flushes ≤ 1`, it is
  `1` only while the event is reset, and the `ut_a(n_pending_flushes == 1)` never fails.
* `flushedToDiskLsn_le_writeLsn` — `flushed_to_disk_lsn ≤ write_lsn ≤ lsn`.
* `logWriteUpTo_returned` — when `log_write_up_to(lsn, flush)` returns, every log byte below
  `min(lsn, lsn when the call began)` has been passed to the files, and, with `flush`, is durable.

The invariant is one of the whole system: facts about the log state, about the flush in
progress (`RegionInv`), and a fact about each thread (`Frame.FlushInv`), which other threads'
steps keep (`Frame.FlushInv.rely`): what a waiter on `flush_event` relies on (`Covered`) is that
the flush it found in progress is still running, or that its bytes are durable.

`durable` and `written` are ghost sets of LSNs, updated by the writes and by `fil_flush`; they are
what the theorems speak of, and they are not read by the code. `DurableUpTo s x` is the durable
prefix up to `x`.
-/

namespace RedoLog

variable {cfg : Config}

/-- Every log byte from `LOG_START_LSN` below `x` has been passed to the files. -/
def WrittenUpTo (s : LogSys) (x : ℕ) : Prop := ∀ y, logStartLsn ≤ y → y < x → s.written y = true

/-- Every log byte from `LOG_START_LSN` below `x` is durable. -/
def DurableUpTo (s : LogSys) (x : ℕ) : Prop := ∀ y, logStartLsn ≤ y → y < x → s.durable y = true

theorem WrittenUpTo.mono {s s' : LogSys} {x x' : ℕ} (h : WrittenUpTo s x) (hx : x' ≤ x)
    (hs : ∀ y, s.written y = true → s'.written y = true) : WrittenUpTo s' x' :=
  fun y hy hyx => hs y (h y hy (by omega))

theorem DurableUpTo.mono {s s' : LogSys} {x x' : ℕ} (h : DurableUpTo s x) (hx : x' ≤ x)
    (hs : ∀ y, s.durable y = true → s'.durable y = true) : DurableUpTo s' x' :=
  fun y hy hyx => hs y (h y hy (by omega))

/-! ### Where the flush in progress is -/

/-- The points of a flush from its claim to `os_event_set`. -/
def WritePc.inFlush : WritePc → Bool
  | .assertOne | .fsync _ | .assign | .decrement | .setEvent => true
  | _ => false

/-- The points of a flush from its claim to the decrement of `n_pending_flushes`. -/
def WritePc.pending : WritePc → Bool
  | .assertOne | .fsync _ | .assign | .decrement => true
  | _ => false

/-- A thread is inside a flush. -/
def Frame.inFlush : Frame → Bool
  | .writeUpTo pc _ _ _ _ => pc.inFlush
  | _ => false

/-- A thread is inside a flush and has not yet decremented `n_pending_flushes`. -/
def Frame.pending : Frame → Bool
  | .writeUpTo pc _ _ _ _ => pc.pending
  | _ => false

theorem Frame.inFlush_of_pending {f : Frame} (h : f.pending = true) : f.inFlush = true := by
  rcases f with _ | _ | _ | ⟨pc, _, _, _, _⟩ | _ | _ <;> try exact h
  cases pc <;> first | exact h | rfl

/-- `log_checkpoint_margin` goes on outside `log_write_up_to`. -/
theorem marginCheckpoint_cases (d c : Bool) :
    marginCheckpoint d c = .checkpoint .enter c false ∨ marginCheckpoint d c = .idle := by
  unfold marginCheckpoint; split <;> simp

theorem marginNext_cases (s : LogSys) (o : ℕ) :
    (∃ d c, marginNext s o = .margin (.preflush d c)) ∨
      (∃ c, marginNext s o = .checkpoint .enter c false) ∨ marginNext s o = .idle := by
  dsimp only [marginNext]; split
  · exact .inl ⟨_, _, rfl⟩
  · rcases marginCheckpoint_cases _ _ with h | h
    exacts [.inr (.inl ⟨_, h⟩), .inr (.inr h)]

@[simp] theorem marginCheckpoint_inFlush (d c : Bool) : (marginCheckpoint d c).inFlush = false := by
  rcases marginCheckpoint_cases d c with h | h <;> rw [h] <;> rfl

@[simp] theorem marginCheckpoint_pending (d c : Bool) : (marginCheckpoint d c).pending = false := by
  rcases marginCheckpoint_cases d c with h | h <;> rw [h] <;> rfl

@[simp] theorem marginNext_inFlush (s : LogSys) (o : ℕ) : (marginNext s o).inFlush = false := by
  rcases marginNext_cases s o with ⟨_, _, h⟩ | ⟨_, h⟩ | h <;> rw [h] <;> rfl

@[simp] theorem marginNext_pending (s : LogSys) (o : ℕ) : (marginNext s o).pending = false := by
  rcases marginNext_cases s o with ⟨_, _, h⟩ | ⟨_, h⟩ | h <;> rw [h] <;> rfl

/-- The flush in progress and its event: at most one thread is inside a flush, the pending count
is one exactly before its decrement, and the event is reset exactly while a thread is inside. -/
structure RegionInv (s : LogSys) (th : ℕ → Frame) : Prop where
  unique : ∀ t t', (th t).inFlush = true → (th t').inFlush = true → t = t'
  pending_le : s.nPendingFlushes ≤ 1
  pending_iff : s.nPendingFlushes = 1 ↔ ∃ t, (th t).pending = true
  event_iff : s.flushEvent.isSet = false ↔ ∃ t, (th t).inFlush = true

/-! ### What each thread relies on -/

/-- What a waiter on `flush_event` that found the flush in progress covering `lsn` relies on:
its bytes are durable, or that flush is still running: the event is reset and, once the wait
began at `waitStart`, has not been set since. -/
def Covered (s : LogSys) (lsn : ℕ) (waitStart : Option ℕ) : Prop :=
  DurableUpTo s lsn ∨ (lsn ≤ s.currentFlushLsn ∧ s.flushEvent.isSet = false ∧
    ∀ c ∈ waitStart, s.flushEvent.signalCount = c)

/-- The invariant of a thread inside `log_write_up_to(lsn, flush)`, begun at `startLsn`, at `pc`. -/
def WritePc.Inv (s : LogSys) (lsn : ℕ) (flush : Bool) (startLsn : ℕ) : WritePc → Prop
  | .dirtyRead | .locked => True
  | .waitEnter wd => wd = true → Covered s lsn none
  | .waiting wd c => wd = true → Covered s lsn (some c)
  | .assertOne => flush = true ∧ startLsn ≤ s.currentFlushLsn
  | .fsync snap => flush = true ∧ startLsn ≤ s.currentFlushLsn ∧
      (∀ y, logStartLsn ≤ y → y < s.currentFlushLsn → snap y = true) ∧
      ∀ y, snap y = true → s.written y = true
  | .assign | .decrement | .setEvent =>
      flush = true ∧ startLsn ≤ s.currentFlushLsn ∧ DurableUpTo s s.currentFlushLsn
  | .returned => WrittenUpTo s (min lsn startLsn) ∧ (flush = true → DurableUpTo s (min lsn startLsn))

/-- What a caller of `log_write_up_to` passes: `log_checkpoint` flushes up to at least its
`oldest_lsn`, which is at most `lsn` when the call began. -/
def Caller.Inv (lsn : ℕ) (flush : Bool) (startLsn : ℕ) : Caller → Prop
  | .checkpoint _ _ oldest => flush = true ∧ oldest ≤ lsn ∧ oldest ≤ startLsn
  | _ => True

/-- The invariant of each thread. -/
def Frame.FlushInv (s : LogSys) : Frame → Prop
  | .readLsn flush caller => caller.Inv s.lsn flush s.lsn
  | .writeUpTo pc lsn flush l0 caller => l0 ≤ s.lsn ∧ caller.Inv lsn flush l0 ∧ pc.Inv s lsn flush l0
  | .checkpoint (.relock oldest) _ _ => DurableUpTo s oldest
  | _ => True

theorem marginCheckpoint_flushInv (s : LogSys) (d c : Bool) : (marginCheckpoint d c).FlushInv s := by
  rcases marginCheckpoint_cases d c with h | h <;> rw [h] <;> trivial

theorem marginNext_flushInv (s s' : LogSys) (o : ℕ) : (marginNext s' o).FlushInv s := by
  rcases marginNext_cases s' o with ⟨_, _, h⟩ | ⟨_, h⟩ | h <;> rw [h] <;> trivial

/-- What the flush invariant says of the log state alone. -/
structure LogFlushInv (cfg : Config) (s : LogSys) : Prop where
  flushed_le : s.flushedToDiskLsn ≤ s.writeLsn
  current_le : s.currentFlushLsn ≤ s.writeLsn
  written : WrittenUpTo s s.writeLsn
  durable_flushed : DurableUpTo s s.flushedToDiskLsn
  durable_of_written : cfg.srvUnixFileFlushMethod.writeIsDurable = true →
    ∀ y, s.written y = true → s.durable y = true
  written_of_durable : ∀ y, s.durable y = true → s.written y = true

/-- The flush invariant of the system. -/
structure FlushInv (cfg : Config) (w : World) extends LogFlushInv cfg w.log : Prop where
  region : RegionInv w.log w.threads
  threads : ∀ t, (w.threads t).FlushInv w.log

/-! ### The flush in progress across a step -/

section Region
variable {s s' : LogSys} {th : ℕ → Frame} {t : ℕ} {f f' : Frame}

theorem RegionInv.not_inFlush_of_isSet (h : RegionInv s th) (hs : s.flushEvent.isSet = true)
    (u : ℕ) : (th u).inFlush = false := by
  by_contra hu
  have := h.event_iff.mpr ⟨u, by simpa using hu⟩
  simp_all

/-- `FlushPending` as `log_write_up_to` checks it is the event being reset. -/
theorem RegionInv.isSet_of_flushPending (h : RegionInv s th) (hp : FlushPending s) :
    s.flushEvent.isSet = false := by
  rcases hp with hp | hp
  · obtain ⟨u, hu⟩ := h.pending_iff.mp (by have := h.pending_le; omega)
    exact h.event_iff.mpr ⟨u, Frame.inFlush_of_pending hu⟩
  · exact hp

theorem not_flushPending {s : LogSys} (h : ¬FlushPending s) :
    s.nPendingFlushes = 0 ∧ s.flushEvent.isSet = true := by
  simp only [FlushPending, not_or, not_lt, Nat.le_zero, Bool.not_eq_false] at h; exact h

theorem RegionInv.not_inFlush_of_ne (h : RegionInv s th) (ht : (th t).inFlush = true) {u : ℕ}
    (hu : u ≠ t) : (th u).inFlush = false := by
  by_contra hi; exact hu (h.unique u t (by simpa using hi) ht)

/-- A step of thread `t`, from `f` to `f'`, that keeps whether it is inside a flush and before its
decrement, and changes neither the pending count nor the event. -/
theorem RegionInv.update_of_eq (h : RegionInv s th) (ht : th t = f) (hI : f'.inFlush = f.inFlush)
    (hP : f'.pending = f.pending) (hp : s'.nPendingFlushes = s.nPendingFlushes)
    (he : s'.flushEvent.isSet = s.flushEvent.isSet) : RegionInv s' (Function.update th t f') := by
  have hI' : ∀ u, (Function.update th t f' u).inFlush = (th u).inFlush := by
    intro u; by_cases hu : u = t
    · subst hu; rw [Function.update_same, hI, ht]
    · rw [Function.update_noteq hu]
  have hP' : ∀ u, (Function.update th t f' u).pending = (th u).pending := by
    intro u; by_cases hu : u = t
    · subst hu; rw [Function.update_same, hP, ht]
    · rw [Function.update_noteq hu]
  refine ⟨fun u u' h1 h2 => h.unique u u' (hI' u ▸ h1) (hI' u' ▸ h2), hp ▸ h.pending_le, ?_, ?_⟩
  · rw [hp, h.pending_iff]; simp only [hP']
  · rw [he, h.event_iff]; simp only [hI']

/-- The claim of a flush: no thread was inside one, and `t` enters. -/
theorem RegionInv.update_claim (h : RegionInv s th) (hset : s.flushEvent.isSet = true)
    (hP : f'.pending = true) (hp : s'.nPendingFlushes = 1) (he : s'.flushEvent.isSet = false) :
    RegionInv s' (Function.update th t f') := by
  have hI' : ∀ u, (Function.update th t f' u).inFlush = true ↔ u = t := by
    intro u; by_cases hu : u = t
    · subst hu; simp only [Function.update_same, Frame.inFlush_of_pending hP]
    · simp only [Function.update_noteq hu, h.not_inFlush_of_isSet hset u, hu, Bool.false_eq_true]
  refine ⟨fun u u' h1 h2 => ((hI' u).mp h1).trans ((hI' u').mp h2).symm, by omega,
    ⟨fun _ => ⟨t, by rw [Function.update_same]; exact hP⟩, fun _ => hp⟩,
    ⟨fun _ => ⟨t, (hI' t).mpr rfl⟩, fun _ => he⟩⟩

/-- The decrement: `t` stays inside the flush, but no longer holds the pending count. -/
theorem RegionInv.update_decrement (h : RegionInv s th) (ht : (th t).pending = true)
    (hI : f'.inFlush = true) (hP : f'.pending = false)
    (hp : s'.nPendingFlushes = s.nPendingFlushes - 1)
    (he : s'.flushEvent.isSet = s.flushEvent.isSet) : RegionInv s' (Function.update th t f') := by
  have htI := Frame.inFlush_of_pending ht
  have h1 : s.nPendingFlushes = 1 := h.pending_iff.mpr ⟨t, ht⟩
  have hI' : ∀ u, (Function.update th t f' u).inFlush = true ↔ u = t := by
    intro u; by_cases hu : u = t
    · subst hu; simp only [Function.update_same, hI]
    · simp only [Function.update_noteq hu, h.not_inFlush_of_ne htI hu, hu, Bool.false_eq_true]
  refine ⟨fun u u' h1 h2 => ((hI' u).mp h1).trans ((hI' u').mp h2).symm, by omega,
    ⟨fun h0 => by omega, fun ⟨u, hu⟩ => ?_⟩, ?_⟩
  · have hut := (hI' u).mp (Frame.inFlush_of_pending hu)
    subst hut; rw [Function.update_same, hP] at hu; cases hu
  · rw [he, h.event_iff]
    exact ⟨fun _ => ⟨t, (hI' t).mpr rfl⟩, fun _ => ⟨t, htI⟩⟩

/-- `os_event_set`: `t` leaves the flush, and no thread is inside one any more. -/
theorem RegionInv.update_setEvent (h : RegionInv s th) (ht : (th t).inFlush = true)
    (htp : (th t).pending = false) (hf' : f'.inFlush = false)
    (hp : s'.nPendingFlushes = s.nPendingFlushes) (he : s'.flushEvent.isSet = true) :
    RegionInv s' (Function.update th t f') := by
  have hno : ∀ u, (Function.update th t f' u).inFlush = false := by
    intro u; by_cases hu : u = t
    · subst hu; rw [Function.update_same, hf']
    · rw [Function.update_noteq hu, h.not_inFlush_of_ne ht hu]
  have hnp : s.nPendingFlushes ≠ 1 := fun h1 => by
    obtain ⟨u, hu⟩ := h.pending_iff.mp h1
    by_cases hut : u = t
    · subst hut; simp_all
    · have := h.not_inFlush_of_ne ht hut; simp_all [Frame.inFlush_of_pending hu]
  refine ⟨fun u _ h1 _ => by simp_all, hp ▸ h.pending_le,
    ⟨fun h1 => absurd (hp ▸ h1) hnp, fun ⟨u, hu⟩ => by
      have := Frame.inFlush_of_pending hu; rw [hno u] at this; cases this⟩,
    ⟨fun h1 => by simp_all, fun ⟨u, hu⟩ => by simp_all⟩⟩

end Region

/-! ### What other threads' steps keep -/

/-- What every step does to the fields a thread's invariant reads, at the least: `lsn` grows, and
bytes written or durable stay so. -/
structure Grows (s s' : LogSys) : Prop where
  lsn_le : s.lsn ≤ s'.lsn
  written : ∀ y, s.written y = true → s'.written y = true
  durable : ∀ y, s.durable y = true → s'.durable y = true

/-- A step that, besides, leaves the flush in progress and its event alone. -/
structure Rely (s s' : LogSys) extends Grows s s' : Prop where
  current : s'.currentFlushLsn = s.currentFlushLsn
  event : s'.flushEvent = s.flushEvent

section Stable
variable {s s' : LogSys} {lsn l0 : ℕ} {flush : Bool}

theorem Grows.of_eq (hl : s.lsn ≤ s'.lsn) (hw : s'.written = s.written) (hd : s'.durable = s.durable) :
    Grows s s' :=
  ⟨hl, fun _ h => hw ▸ h, fun _ h => hd ▸ h⟩

theorem Rely.of_eq (hl : s.lsn ≤ s'.lsn) (hw : s'.written = s.written) (hd : s'.durable = s.durable)
    (hc : s'.currentFlushLsn = s.currentFlushLsn) (he : s'.flushEvent = s.flushEvent) : Rely s s' :=
  ⟨.of_eq hl hw hd, hc, he⟩

theorem Caller.Inv.mono {c : Caller} {lsn' l0' : ℕ} (h : c.Inv lsn flush l0) (hl : lsn ≤ lsn')
    (h0 : l0 ≤ l0') : c.Inv lsn' flush l0' := by
  cases c with
  | checkpoint => exact ⟨h.1, h.2.1.trans hl, h.2.2.trans h0⟩
  | _ => trivial

theorem Covered.rely {c : Option ℕ} (h : Covered s lsn c) (hr : Rely s s') : Covered s' lsn c := by
  rcases h with h | h
  · exact .inl (h.mono le_rfl hr.durable)
  · rw [Covered, hr.current, hr.event]; exact .inr h

/-- Once the flush in progress is over, a waiter's bytes are durable: either no flush was in
progress, or the one that was has made its bytes durable. -/
theorem Covered.grows {c c' : Option ℕ} (h : Covered s lsn c) (hg : Grows s s')
    (hs : s.flushEvent.isSet = true ∨ DurableUpTo s' s.currentFlushLsn) : Covered s' lsn c' := by
  rcases h with h | ⟨hl, he, -⟩
  · exact .inl (h.mono le_rfl hg.durable)
  · rcases hs with hs | hs
    · simp_all
    · exact .inl (hs.mono hl fun _ => id)

theorem WritePc.Inv.rely {pc : WritePc} (h : pc.Inv s lsn flush l0) (hr : Rely s s') :
    pc.Inv s' lsn flush l0 := by
  cases pc with
  | dirtyRead | locked => trivial
  | waitEnter wd => exact fun hw => (h hw).rely hr
  | waiting wd c => exact fun hw => (h hw).rely hr
  | assertOne => rw [WritePc.Inv, hr.current]; exact h
  | fsync snap =>
    rw [WritePc.Inv, hr.current]; exact ⟨h.1, h.2.1, h.2.2.1, fun y hy => hr.written y (h.2.2.2 y hy)⟩
  | assign | decrement | setEvent =>
    rw [WritePc.Inv, hr.current]; exact ⟨h.1, h.2.1, h.2.2.mono le_rfl hr.durable⟩
  | returned => exact ⟨h.1.mono le_rfl hr.written, fun hf => (h.2 hf).mono le_rfl hr.durable⟩

theorem WritePc.Inv.grows {pc : WritePc} (h : pc.Inv s lsn flush l0) (hf : pc.inFlush = false)
    (hg : Grows s s') (hs : s.flushEvent.isSet = true ∨ DurableUpTo s' s.currentFlushLsn) :
    pc.Inv s' lsn flush l0 := by
  cases pc with
  | dirtyRead | locked => trivial
  | waitEnter wd => exact fun hw => (h hw).grows hg hs
  | waiting wd c => exact fun hw => (h hw).grows hg hs
  | returned => exact ⟨h.1.mono le_rfl hg.written, fun hf => (h.2 hf).mono le_rfl hg.durable⟩
  | _ => cases hf

/-- The invariant of a thread is kept by the steps of the others that leave the flush in
progress alone. -/
theorem Frame.FlushInv.rely {f : Frame} (h : f.FlushInv s) (hr : Rely s s') : f.FlushInv s' := by
  rcases f with _ | _ | _ | ⟨pc, _, _, _, _⟩ | _ | ⟨_ | _ | _, _, _⟩
  case readLsn => exact Caller.Inv.mono h hr.lsn_le hr.lsn_le
  case writeUpTo => exact ⟨h.1.trans hr.lsn_le, h.2.1, h.2.2.rely hr⟩
  case relock => exact DurableUpTo.mono h le_rfl hr.durable
  all_goals trivial

/-- The invariant of a thread outside any flush is kept by the claim of a flush, when no flush
was in progress, and by the end of one that made its bytes durable. -/
theorem Frame.FlushInv.grows {f : Frame} (h : f.FlushInv s) (hf : f.inFlush = false) (hg : Grows s s')
    (hs : s.flushEvent.isSet = true ∨ DurableUpTo s' s.currentFlushLsn) : f.FlushInv s' := by
  rcases f with _ | _ | _ | ⟨pc, _, _, _, _⟩ | _ | ⟨_ | _ | _, _, _⟩
  case readLsn => exact Caller.Inv.mono h hg.lsn_le hg.lsn_le
  case writeUpTo => exact ⟨h.1.trans hg.lsn_le, h.2.1, h.2.2.grows hf hg hs⟩
  case relock => exact DurableUpTo.mono h le_rfl hg.durable
  all_goals trivial

end Stable

/-! ### The steps that leave the flush alone -/

/-- A step that leaves every field the flush invariant reads alone, but `lsn`, which grows. -/
structure FlushFrame (s s' : LogSys) : Prop where
  lsn_le : s.lsn ≤ s'.lsn
  writeLsn : s'.writeLsn = s.writeLsn
  flushed : s'.flushedToDiskLsn = s.flushedToDiskLsn
  current : s'.currentFlushLsn = s.currentFlushLsn
  pending : s'.nPendingFlushes = s.nPendingFlushes
  event : s'.flushEvent = s.flushEvent
  written : s'.written = s.written
  durable : s'.durable = s.durable

section Frame
variable {s s' : LogSys}

theorem FlushFrame.rely (h : FlushFrame s s') : Rely s s' :=
  .of_eq h.lsn_le h.written h.durable h.current h.event

theorem LogFlushInv.congr (h : LogFlushInv cfg s) (hw : s'.writeLsn = s.writeLsn)
    (hf : s'.flushedToDiskLsn = s.flushedToDiskLsn) (hc : s'.currentFlushLsn = s.currentFlushLsn)
    (hwr : s'.written = s.written) (hd : s'.durable = s.durable) : LogFlushInv cfg s' := by
  obtain ⟨h1, h2, h3, h4, h5, h6⟩ := h
  refine ⟨?_, ?_, ?_, ?_, ?_, ?_⟩ <;> simp only [WrittenUpTo, DurableUpTo, hw, hf, hc, hwr, hd]
  exacts [h1, h2, h3, h4, h5, h6]

theorem LogFlushInv.flushFrame (h : LogFlushInv cfg s) (hf : FlushFrame s s') : LogFlushInv cfg s' :=
  h.congr hf.writeLsn hf.flushed hf.current hf.written hf.durable

theorem RegionInv.flushFrame {th : ℕ → Frame} (h : RegionInv s th) (hf : FlushFrame s s') :
    RegionInv s' th := by
  obtain ⟨h1, h2, h3, h4⟩ := h
  exact ⟨h1, hf.pending ▸ h2, hf.pending ▸ h3, by rw [hf.event]; exact h4⟩

/-- A mini-transaction's write touches only the buffer, `lsn` and the appended bytes. -/
theorem flushFrame_mtrWrite (hc : BufferCore s) (strs : List (List UInt8)) (bufPoolOldest : ℕ) :
    FlushFrame s (mtrWrite s strs bufPoolOldest) := by
  have ha := appendStep_mtrWrite hc strs bufPoolOldest
  have hf := ha.frame
  unfold AppendFrame at hf
  exact ⟨by rw [ha.lsn_eq]; omega, by rw [hf], by rw [hf], by rw [hf], by rw [hf], by rw [hf],
    by rw [hf], by rw [hf]⟩

theorem flushFrame_logBufferExtendMove (cfg : Config) (s : LogSys) (len : ℕ) :
    FlushFrame s (logBufferExtendMove cfg { s with isExtending := true } len) :=
  ⟨le_rfl, rfl, rfl, rfl, rfl, rfl, rfl, rfl⟩

theorem flushFrame_logWriteCheckpointInfo (s : LogSys) (oldest : ℕ) (wa : Bool) :
    FlushFrame s
      (logWriteCheckpointInfo { s with nextCheckpointLsn := oldest, checkpointWriteAlways := wa }) := by
  rw [logWriteCheckpointInfo_eq]; exact ⟨le_rfl, rfl, rfl, rfl, rfl, rfl, rfl, rfl⟩

theorem flushFrame_landCheckpointWrite (s : LogSys) (i : ℕ) (cw : CheckpointWrite) :
    FlushFrame s (landCheckpointWrite s i cw) :=
  ⟨le_rfl, rfl, rfl, rfl, rfl, rfl, rfl, rfl⟩

theorem flushFrame_logIoCompleteCheckpoint (s : LogSys) :
    FlushFrame s (logIoCompleteCheckpoint
      { s with checkpointWritesLanded := s.checkpointWritesLanded - 1 }) := by
  rw [logIoCompleteCheckpoint_eq]; exact ⟨le_rfl, rfl, rfl, rfl, rfl, rfl, rfl, rfl⟩

end Frame

/-! ### The write under the mutex -/

section Write
variable {s : LogSys}

theorem writeRange_of_le {y : ℕ} (h1 : s.writeLsn ≤ y) (h2 : y < s.lsn) : writeRange s y = true := by
  simp only [writeRange, decide_eq_true_eq]
  exact ⟨(utCalcAlignDown_le _ _).trans h1, h2⟩

/-- The write under the mutex passes every byte below `lsn` to the files; under a flush method
whose writes are synchronous, they are durable at once. -/
theorem logWriteUpToLocked_logFlushInv (h : LogFlushInv cfg s) (hc : BufferCore s) (flush : Bool) :
    LogFlushInv cfg (logWriteUpToLocked cfg s flush) := by
  have hw := hc.writeLsn_le
  have hnew : ∀ y, logStartLsn ≤ y → y < s.lsn → s.written y = true ∨ writeRange s y = true :=
    fun y h0 hy => if hlt : y < s.writeLsn then .inl (h.written y h0 hlt)
      else .inr (writeRange_of_le (by omega) hy)
  have := h.flushed_le; have := h.current_le
  refine ⟨?_, ?_, fun y h0 hy => ?_, fun y h0 hy => ?_, fun hwd y => ?_, fun y => ?_⟩
  · rw [logWriteUpToLocked_flushedToDiskLsn, logWriteUpToLocked_writeLsn]; split <;> omega
  · rw [logWriteUpToLocked_currentFlushLsn, logWriteUpToLocked_writeLsn]; split <;> omega
  · rw [logWriteUpToLocked_writeLsn] at hy
    simpa only [logWriteUpToLocked_written, Bool.or_eq_true] using hnew y h0 hy
  · rw [logWriteUpToLocked_flushedToDiskLsn] at hy
    simp only [logWriteUpToLocked_durable, Bool.or_eq_true, Bool.and_eq_true]
    split at hy
    · rename_i hwd
      rcases hnew y h0 hy with hy | hy
      · exact .inl (h.durable_of_written hwd y hy)
      · exact .inr ⟨hwd, hy⟩
    · exact .inl (h.durable_flushed y h0 hy)
  · simp only [logWriteUpToLocked_written, logWriteUpToLocked_durable, Bool.or_eq_true,
      Bool.and_eq_true]
    rintro (hy | hy)
    · exact .inl (h.durable_of_written hwd y hy)
    · exact .inr ⟨hwd, hy⟩
  · simp only [logWriteUpToLocked_written, logWriteUpToLocked_durable, Bool.or_eq_true,
      Bool.and_eq_true]
    rintro (hy | ⟨-, hy⟩)
    · exact .inl (h.written_of_durable y hy)
    · exact .inr hy

end Write

/-! ### One step -/

section Step
variable {s s' : LogSys} {f f' : Frame} {lsn l0 : ℕ} {flush : Bool}

theorem Caller.resume_inFlush (c : Caller) : c.resume.inFlush = false := by cases c <;> rfl

theorem Caller.resume_pending (c : Caller) : c.resume.pending = false := by cases c <;> rfl

/-- A return is justified once the requested bytes are durable. -/
theorem returned_inv_of_durable {x : ℕ} (hwd : ∀ y, s.durable y = true → s.written y = true)
    (hd : DurableUpTo s x) (hx : min lsn l0 ≤ x) : WritePc.returned.Inv s lsn flush l0 :=
  ⟨fun y h0 hy => hwd y (hd y h0 (by omega)), fun _ => hd.mono hx fun _ => id⟩

/-- Without `flush`, a return is justified once the requested bytes are written. -/
theorem returned_inv_of_written {x : ℕ} (hw : WrittenUpTo s x) (hx : min lsn l0 ≤ x) :
    WritePc.returned.Inv s lsn false l0 :=
  ⟨hw.mono hx fun _ => id, fun h => by cases h⟩

/-- The return under the mutex, when `lsn` is below the limit `log_write_up_to` compares it with. -/
theorem returned_inv_of_writeLimit (h : LogFlushInv cfg s) (hl : lsn ≤ writeLimit s flush) :
    WritePc.returned.Inv s lsn flush l0 := by
  cases flush
  · rw [writeLimit, if_neg Bool.false_ne_true] at hl
    exact returned_inv_of_written h.written (by omega)
  · rw [writeLimit, if_pos rfl] at hl
    exact returned_inv_of_durable h.written_of_durable h.durable_flushed (by omega)

/-- A waiter wakes to return (`workDone`) or to retry. -/
theorem wake_inv {wd : Bool} (hwd : ∀ y, s.durable y = true → s.written y = true)
    (hd : wd = true → DurableUpTo s lsn) :
    (if wd then WritePc.returned else .dirtyRead).Inv s lsn flush l0 := by
  cases wd
  · trivial
  · exact returned_inv_of_durable hwd (hd rfl) (Nat.min_le_left _ _)

/-- A waiter whose flush is no longer the one it waited on has its bytes durable. -/
theorem Covered.durable {c : Option ℕ} (h : Covered s lsn c)
    (hn : ¬(s.flushEvent.isSet = false ∧ ∀ c' ∈ c, s.flushEvent.signalCount = c')) :
    DurableUpTo s lsn :=
  h.resolve_right fun ⟨_, h2, h3⟩ => hn ⟨h2, h3⟩

/-- The log part of the invariant, across a step of any thread. -/
theorem FrameStep.logFlushInv (h : LogFlushInv cfg s) (hb : BufferInv s) (hf : f.FlushInv s)
    (hs : FrameStep cfg s f s' f') : LogFlushInv cfg s' := by
  cases hs with
  | appendWrite bpo => exact h.flushFrame (flushFrame_mtrWrite hb.toBufferCore _ bpo)
  | checkpointNames bpo => exact h.flushFrame (flushFrame_mtrWrite hb.toBufferCore _ bpo)
  | lockedWrite => exact logWriteUpToLocked_logFlushInv h hb.toBufferCore _
  | fsync =>
    obtain ⟨-, -, -, -, -, hsnap⟩ := hf
    refine { h with
      durable_flushed := h.durable_flushed.mono le_rfl fun y hy => by simp [hy]
      durable_of_written := fun hwd y hy => by simp [h.durable_of_written hwd y hy]
      written_of_durable := fun y hy => ?_ }
    rcases Bool.or_eq_true _ _ |>.mp hy with hy | hy
    exacts [h.written_of_durable y hy, hsnap y hy]
  | assign =>
    obtain ⟨-, -, -, -, hd⟩ := hf
    exact { h with flushed_le := h.current_le, durable_flushed := hd }
  | decrement | setEvent | extendWait | marginCheck | marginRetry => exact h.congr rfl rfl rfl rfl rfl
  | extendMove => exact h.flushFrame (flushFrame_logBufferExtendMove _ _ _)
  | checkpointIssue => exact h.flushFrame (flushFrame_logWriteCheckpointInfo _ _ _)
  | _ => exact h

/-- The flush in progress, across a step of thread `t`. -/
theorem FrameStep.regionInv {th : ℕ → Frame} {t : ℕ} (hr : RegionInv s th) (ht : th t = f)
    (hb : BufferInv s) (hs : FrameStep cfg s f s' f') : RegionInv s' (Function.update th t f') := by
  cases hs with
  | @appendWrite _ strs bpo =>
    have hff := flushFrame_mtrWrite hb.toBufferCore strs bpo
    exact hr.update_of_eq ht rfl rfl hff.pending (by rw [hff.event])
  | @checkpointNames _ _ _ strs bpo =>
    have hff := flushFrame_mtrWrite hb.toBufferCore strs bpo
    exact hr.update_of_eq ht rfl rfl hff.pending (by rw [hff.event])
  | @lockedWrite _ flush _ _ _ hfp _ =>
    cases flush
    · exact hr.update_of_eq ht rfl rfl (by simp) (by simp)
    · have h0 := not_flushPending fun hp => hfp ⟨rfl, hp⟩
      exact hr.update_claim h0.2 rfl (by simp [h0.1]) (by simp)
  | decrement => exact hr.update_decrement (by rw [ht]; rfl) rfl rfl rfl rfl
  | setEvent => exact hr.update_setEvent (by rw [ht]; rfl) (by rw [ht]; rfl) rfl rfl (OsEvent.set_isSet _)
  | resume => exact hr.update_of_eq ht (Caller.resume_inFlush _) (Caller.resume_pending _) rfl rfl
  | waitSet | wake => exact hr.update_of_eq ht (by split <;> rfl) (by split <;> rfl) rfl rfl
  | checkpointBusy => exact hr.update_of_eq ht (by split <;> rfl) (by split <;> rfl) rfl rfl
  | @checkpointIssue _ wa oldest =>
    have hff := flushFrame_logWriteCheckpointInfo s oldest wa
    exact hr.update_of_eq ht (by split <;> rfl) (by split <;> rfl) hff.pending (by rw [hff.event])
  | marginCheck => exact hr.update_of_eq ht (marginNext_inFlush _ _) (marginNext_pending _ _) rfl rfl
  | marginFlushed =>
    exact hr.update_of_eq ht (marginCheckpoint_inFlush _ _) (marginCheckpoint_pending _ _) rfl rfl
  | _ => exact hr.update_of_eq ht rfl rfl rfl rfl

/-- The invariant of the thread that steps. -/
theorem FrameStep.frameFlushInv (h : LogFlushInv cfg s) (hb : BufferInv s)
    (hset : FlushPending s → s.flushEvent.isSet = false) (hf : f.FlushInv s)
    (hs : FrameStep cfg s f s' f') : f'.FlushInv s' := by
  cases hs with
  | readLsn => exact ⟨le_rfl, hf, trivial⟩
  | dirtyReturn hfl hl =>
    subst hfl; exact ⟨hf.1, hf.2.1, returned_inv_of_written h.written (by omega)⟩
  | dirtyLock => exact ⟨hf.1, hf.2.1, trivial⟩
  | lockedReturn hl => exact ⟨hf.1, hf.2.1, returned_inv_of_writeLimit h hl⟩
  | lockedWait _ hp =>
    exact ⟨hf.1, hf.2.1, fun hwd => .inr ⟨of_decide_eq_true hwd, hset hp, fun _ hc => nomatch hc⟩⟩
  | lockedNothing _ heq =>
    have := hb.lsn_sub; have := hb.nbw_le; have := hb.writeLsn_le; have := hf.1
    exact ⟨hf.1, hf.2.1, returned_inv_of_written h.written (by omega)⟩
  | @lockedWrite _ flush _ _ =>
    have h' := logWriteUpToLocked_logFlushInv h hb.toBufferCore flush
    refine ⟨by simpa using hf.1, hf.2.1, ?_⟩
    have := hf.1
    cases flush
    · exact returned_inv_of_written h'.written (by simp only [logWriteUpToLocked_writeLsn]; omega)
    · exact ⟨rfl, by simpa using hf.1⟩
  | waitSet hs =>
    exact ⟨hf.1, hf.2.1, wake_inv h.written_of_durable fun hwd => (hf.2.2 hwd).durable (by simp [hs])⟩
  | waitBlock =>
    refine ⟨hf.1, hf.2.1, fun hwd => ?_⟩
    rcases hf.2.2 hwd with hd | ⟨h1, h2, -⟩
    · exact .inl hd
    · exact .inr ⟨h1, h2, fun _ hc => Option.some.inj hc⟩
  | wake hs =>
    refine ⟨hf.1, hf.2.1, wake_inv h.written_of_durable fun hwd => (hf.2.2 hwd).durable ?_⟩
    rintro ⟨h1, h2⟩
    rcases hs with hs | hs
    · simp_all
    · exact hs (h2 _ rfl)
  | assertFsync =>
    exact ⟨hf.1, hf.2.1, hf.2.2.1, hf.2.2.2, h.written.mono h.current_le fun _ => id, fun _ => id⟩
  | assertSkip _ hm =>
    have hwd : cfg.srvUnixFileFlushMethod.writeIsDurable = true := by rw [hm]; rfl
    exact ⟨hf.1, hf.2.1, hf.2.2.1, hf.2.2.2, fun y h0 hy =>
      h.durable_of_written hwd y (h.written y h0 (by have := h.current_le; omega))⟩
  | fsync =>
    obtain ⟨h0, hc, hfl, hl, hsnap, -⟩ := hf
    exact ⟨h0, hc, hfl, hl, fun y h1 hy => by simp [hsnap y h1 hy]⟩
  | assign | decrement => exact hf
  | setEvent =>
    obtain ⟨h0, hc, -, hl, hd⟩ := hf
    exact ⟨h0, hc, returned_inv_of_durable h.written_of_durable hd (by omega)⟩
  | resume =>
    obtain ⟨-, hc, -, hd⟩ := hf
    cases ‹Caller› with
    | checkpoint => obtain ⟨hfl, h1, h2⟩ := hc; exact (hd hfl).mono (by omega) fun _ => id
    | _ => trivial
  | checkpointFlush bpo hbpo => exact ⟨le_rfl, ⟨rfl, le_rfl, logBufPoolGetOldestModification_le hbpo⟩, trivial⟩
  | @checkpointNames _ _ _ strs bpo hbpo =>
    have := (logBufPoolGetOldestModification_le hbpo).trans
      (flushFrame_mtrWrite hb.toBufferCore strs bpo).lsn_le
    exact ⟨le_rfl, ⟨rfl, this, this⟩, trivial⟩
  | checkpointBusy | checkpointIssue => split <;> trivial
  | marginCheck => exact marginNext_flushInv _ _ _
  | marginFlushed => exact marginCheckpoint_flushInv _ _ _
  | _ => trivial

/-- The invariant of every other thread: the steps that claim or end a flush change what it
reads, but it holds no flush, and either no flush was in progress or the one that was has made
its bytes durable. -/
theorem FrameStep.flushInv_other {th : ℕ → Frame} {t u : ℕ} (hb : BufferInv s) (hr : RegionInv s th)
    (ht : th t = f) (hf : f.FlushInv s) (hs : FrameStep cfg s f s' f') (hu : u ≠ t)
    (hfu : (th u).FlushInv s) : (th u).FlushInv s' := by
  cases hs with
  | appendWrite bpo => exact hfu.rely (flushFrame_mtrWrite hb.toBufferCore _ bpo).rely
  | checkpointNames bpo => exact hfu.rely (flushFrame_mtrWrite hb.toBufferCore _ bpo).rely
  | extendMove => exact hfu.rely (flushFrame_logBufferExtendMove _ _ _).rely
  | checkpointIssue => exact hfu.rely (flushFrame_logWriteCheckpointInfo _ _ _).rely
  | @lockedWrite _ flush _ _ _ hfp _ =>
    have hg : Grows s (logWriteUpToLocked cfg s flush) :=
      ⟨by simp, fun y hy => by simp [hy], fun y hy => by simp [hy]⟩
    cases flush
    · exact hfu.rely ⟨hg, by simp, by simp⟩
    · have hset := (not_flushPending fun hp => hfp ⟨rfl, hp⟩).2
      exact hfu.grows (hr.not_inFlush_of_isSet hset u) hg (.inl hset)
  | fsync => exact hfu.rely ⟨⟨le_rfl, fun _ => id, fun y hy => by simp [hy]⟩, rfl, rfl⟩
  | assign | decrement | extendWait => exact hfu.rely (.of_eq le_rfl rfl rfl rfl rfl)
  | setEvent =>
    obtain ⟨-, -, -, -, hd⟩ := hf
    exact hfu.grows (hr.not_inFlush_of_ne (by rw [ht]; rfl) hu) (.of_eq le_rfl rfl rfl) (.inr hd)
  | _ => exact hfu

end Step

/-! ### Every run -/

section Run
variable {s : LogSys} {f : Frame}

/-- A call starts outside any flush, with what its caller passes. -/
theorem Call.flushInv (hc : Call s f) : f.FlushInv s ∧ f.inFlush = false ∧ f.pending = false := by
  cases hc
  case writeUpTo => exact ⟨⟨le_rfl, trivial, trivial⟩, rfl, rfl⟩
  all_goals exact ⟨trivial, rfl, rfl⟩

/-- The invariant is kept by every step of the system. -/
theorem Step.flushInv {w w' : World} (h : FlushInv cfg w) (hb : BufferInv w.log)
    (hs : Step cfg w w') : FlushInv cfg w' := by
  cases hs with
  | call t hidle hc =>
    obtain ⟨hf, hI, hP⟩ := hc.flushInv
    refine ⟨h.toLogFlushInv, h.region.update_of_eq hidle hI hP rfl rfl, fun u => ?_⟩
    dsimp only
    by_cases hu : u = t
    · subst hu; rw [Function.update_same]; exact hf
    · rw [Function.update_noteq hu]; exact h.threads u
  | run t hs =>
    refine ⟨hs.logFlushInv h.toLogFlushInv hb (h.threads t), hs.regionInv h.region rfl hb,
      fun u => ?_⟩
    dsimp only
    by_cases hu : u = t
    · subst hu; rw [Function.update_same]
      exact hs.frameFlushInv h.toLogFlushInv hb h.region.isSet_of_flushPending (h.threads u)
    · rw [Function.update_noteq hu]
      exact hs.flushInv_other hb h.region rfl (h.threads t) hu (h.threads u)
  | @land i cw _ =>
    have hff := flushFrame_landCheckpointWrite w.log i cw
    exact ⟨h.toLogFlushInv.flushFrame hff, h.region.flushFrame hff,
      fun u => (h.threads u).rely hff.rely⟩
  | complete =>
    have hff := flushFrame_logIoCompleteCheckpoint w.log
    exact ⟨h.toLogFlushInv.flushFrame hff, h.region.flushFrame hff,
      fun u => (h.threads u).rely hff.rely⟩

/-- After `log_init` nothing has been written, no flush is in progress and the event is set. -/
theorem logFlushInv_of_isInitial (h : IsInitial cfg s) :
    LogFlushInv cfg s ∧ s.nPendingFlushes = 0 ∧ s.flushEvent.isSet = true := by
  obtain ⟨_, _, _, _, _, _, _, hs⟩ := h
  obtain ⟨-, -, -, -, -, -, -, rfl⟩ := logCalcMaxAges_eq_some hs
  refine ⟨⟨Nat.zero_le _, Nat.zero_le _, fun y h0 hy => ?_, fun y _ hy => ?_, fun _ _ h => h,
    fun _ h => h⟩, rfl, rfl⟩
  · exact absurd hy (Nat.not_lt.mpr h0)
  · exact absurd hy (Nat.not_lt_zero _)

theorem RegionInv.of_idle {th : ℕ → Frame} (hp : s.nPendingFlushes = 0)
    (he : s.flushEvent.isSet = true) (hidle : ∀ t, th t = .idle) : RegionInv s th := by
  have hI : ∀ t, (th t).inFlush = false := fun t => by rw [hidle]; rfl
  have hP : ∀ t, (th t).pending = false := fun t => by rw [hidle]; rfl
  refine ⟨fun t _ h _ => by simp [hI] at h, by omega, ⟨fun h => by omega, fun ⟨t, ht⟩ => ?_⟩,
    ⟨fun h => by simp_all, fun ⟨t, ht⟩ => by simp [hI] at ht⟩⟩
  simp [hP] at ht

theorem flushInv_of_isInitial {w : World} (h : w.IsInitial cfg) : FlushInv cfg w := by
  obtain ⟨hl, hp, he⟩ := logFlushInv_of_isInitial h.1
  exact ⟨hl, .of_idle hp he h.2, fun t => by rw [h.2 t]; trivial⟩

/-- **The flush invariant.** It holds in every reachable state. -/
theorem flushInv_of_reachable {w : World} (h : Reachable cfg w) : FlushInv cfg w := by
  induction h with
  | init hi => exact flushInv_of_isInitial hi
  | step hr hs ih => exact hs.flushInv ih hr.bufferInv

end Run

/-! ### What the callers see -/

/-- **At most one flusher.** In every reachable state at most one thread is between the claim of
a flush and its `os_event_set`, `n_pending_flushes ≤ 1`, it is `1` only while `flush_event` is
reset, and a thread at `ut_a(n_pending_flushes == 1)` finds it `1`. -/
theorem flush_mutualExclusion {w : World} (h : Reachable cfg w) :
    (∀ t t', (w.threads t).inFlush = true → (w.threads t').inFlush = true → t = t') ∧
    w.log.nPendingFlushes ≤ 1 ∧
    (w.log.nPendingFlushes = 1 → w.log.flushEvent.isSet = false) ∧
    ∀ t lsn flush l0 caller, w.threads t = .writeUpTo .assertOne lsn flush l0 caller →
      w.log.nPendingFlushes = 1 := by
  have hr := (flushInv_of_reachable h).region
  refine ⟨hr.unique, hr.pending_le, fun h1 => ?_, fun t _ _ _ _ ht => hr.pending_iff.mpr ⟨t, by rw [ht]; rfl⟩⟩
  obtain ⟨t, ht⟩ := hr.pending_iff.mp h1
  exact hr.event_iff.mpr ⟨t, Frame.inFlush_of_pending ht⟩

theorem defaultWorld_flush_mutualExclusion : ∃ w : World, Reachable (defaultConfig .fsync) w ∧
    w.log.nPendingFlushes = 1 ∧
    (∀ t t', (w.threads t).inFlush = true → (w.threads t').inFlush = true → t = t') ∧
    w.log.nPendingFlushes ≤ 1 ∧
    (w.log.nPendingFlushes = 1 → w.log.flushEvent.isSet = false) ∧
    ∀ t lsn flush l0 caller, w.threads t = .writeUpTo .assertOne lsn flush l0 caller →
      w.log.nPendingFlushes = 1 :=
  let ⟨w, hr, hf⟩ := defaultWorld_writeRun .fsync
  ⟨w, hr, hf, flush_mutualExclusion hr⟩

/-- **Group-commit durability.** When `log_write_up_to(lsn, flush)`, begun when `lsn` was `l0`,
returns, every log byte below `min lsn l0` has been passed to the files and, with `flush`, is
durable: a `fil_flush` began after its write and ended before the return, or it was written under
a flush method whose writes are synchronous. -/
theorem logWriteUpTo_returned {w : World} (h : Reachable cfg w) {t lsn l0 : ℕ} {flush : Bool}
    {caller : Caller} (ht : w.threads t = .writeUpTo .returned lsn flush l0 caller) :
    WrittenUpTo w.log (min lsn l0) ∧ (flush = true → DurableUpTo w.log (min lsn l0)) := by
  have := (flushInv_of_reachable h).threads t
  rw [ht] at this
  exact this.2.2

/-- A run of the default deployment: thread `0` calls `log_write_up_to(lsn, false)`, which writes
the log under the mutex and returns. -/
theorem defaultWorld_write_reachable : Reachable (defaultConfig .fsync)
    ⟨logWriteUpToLocked (defaultConfig .fsync) (defaultWorld .fsync).log false,
      Function.update (defaultWorld .fsync).threads 0
        (.writeUpTo .returned (defaultWorld .fsync).log.lsn false (defaultWorld .fsync).log.lsn .client)⟩ := by
  have r1 := Reachable.step (defaultWorld_reachable .fsync)
    (.call 0 rfl (.writeUpTo (defaultWorld .fsync).log.lsn false))
  have r2 := r1.step (.run 0 (.dirtyLock (by decide)))
  have r3 := r2.step (.run 0 (.lockedWrite (by decide) (by decide) (by decide)))
  simpa only [Function.update_idem] using r3

theorem defaultWorld_logWriteUpTo_returned :
    WrittenUpTo (logWriteUpToLocked (defaultConfig .fsync) (defaultWorld .fsync).log false)
        (min (defaultWorld .fsync).log.lsn (defaultWorld .fsync).log.lsn) ∧
      (false = true →
        DurableUpTo (logWriteUpToLocked (defaultConfig .fsync) (defaultWorld .fsync).log false)
          (min (defaultWorld .fsync).log.lsn (defaultWorld .fsync).log.lsn)) :=
  logWriteUpTo_returned defaultWorld_write_reachable (Function.update_same _ _ _)

end RedoLog

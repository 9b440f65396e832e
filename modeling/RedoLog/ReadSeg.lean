import RedoLog.GroupIO

/-!
# The loop of `log_group_read_log_seg`

`log_group_read_log_seg` reads the log bytes of `[start_lsn, end_lsn)` from a group's files with a
`goto loop`: each pass places `start_lsn`, reads up to the end of the range or of the file, moves
`start_lsn` and `buf` on by what it read, and loops while `start_lsn != end_lsn`. The loop has no
bound of its own; it stops only if `start_lsn` lands exactly on `end_lsn`.

`logGroupReadLogSeg` of `RedoLog.GroupIO` is the same computation as a function on the bytes left;
it tests `start_lsn < end_lsn`, which lets Lean see that it terminates. This module runs the loop
with the code's own exit test, pass by pass, and shows that it stops, where, and with what.

## Main definitions

* `FilRead` — a `fil_io` read the loop issues: the LSN it starts at, the real offset it reads from
  and its length.
* `readLogSegLoop` — the loop, with at most `fuel` passes; `none` when the fuel runs out.
* `ReadLogSegSpec` — what the reads of a call are.

## Main results

* `readLogSegLoop_spec` — from `start_lsn < end_lsn`, any fuel of `end_lsn - start_lsn` passes or
  more runs the loop to its exit, which it reaches with `start_lsn = end_lsn`, having read what
  `logGroupReadLogSeg` reads.
* `readLogSeg_loop` — the loop of every call with `start_lsn < end_lsn` terminates; each read lies
  in the data area of one file and does not pass `end_lsn`; the reads cover the range in order;
  and byte `i` of the buffer is read from the place of LSN `start_lsn + i`.

## Implementation notes

The code computes `end_lsn - start_lsn` in unsigned words, which would wrap if `start_lsn` ever
passed `end_lsn`; here the difference is the one of `ℕ`. The results show the two never differ:
no pass starts past `end_lsn`.
-/

namespace RedoLog

/-- A `fil_io` read of the log by `log_group_read_log_seg`: `len` bytes from real offset `offset`,
the bytes of the LSNs from `lsn` on. -/
structure FilRead where
  lsn : ℕ
  offset : ℕ
  len : ℕ
deriving DecidableEq, Repr

/-- The variables of the loop: `start_lsn`, and `buf` as an offset into the buffer memory. -/
structure ReadSegState where
  startLsn : ℕ
  off : ℕ
  buf : Mem

/-- One pass of the loop, from `loop:` to `buf += len`: the read it issues and the variables
after it. -/
def readLogSegPass (g : LogGroup) (files : Mem) (endLsn : ℕ) (st : ReadSegState) :
    FilRead × ReadSegState :=
  let sourceOffset := logGroupCalcLsnOffset g st.startLsn
  let len := chunkLen g sourceOffset (endLsn - st.startLsn)
  (⟨st.startLsn, sourceOffset, len⟩,
    ⟨st.startLsn + len, st.off + len, Mem.write st.buf st.off (Mem.read files sourceOffset len)⟩)

/-- The loop of `log_group_read_log_seg`, passes until `start_lsn == end_lsn`, with at most `fuel`
passes: the reads it issued and the variables at its exit, or `none` when the fuel ran out. -/
def readLogSegLoop (g : LogGroup) (files : Mem) (endLsn : ℕ) :
    ℕ → ReadSegState → Option (List FilRead × ReadSegState)
  | 0, _ => none
  | fuel + 1, st =>
    let p := readLogSegPass g files endLsn st
    if p.2.startLsn != endLsn then
      (readLogSegLoop g files endLsn fuel p.2).map fun r => (p.1 :: r.1, r.2)
    else some ([p.1], p.2)

/-- What the reads of a call on `[start, endLsn)` are: they cover the range in order, from
`start` on, each where the one before ends, none past `endLsn`; each reads from the place of its
first LSN, at least one byte, inside the data area of one file of the group. -/
structure ReadLogSegSpec (g : LogGroup) (start endLsn : ℕ) (reads : List FilRead) : Prop where
  first : ∀ r ∈ reads.head?, r.lsn = start
  next : reads.Chain' fun r r' => r'.lsn = r.lsn + r.len
  total : (reads.map FilRead.len).sum = endLsn - start
  range : ∀ r ∈ reads, start ≤ r.lsn ∧ r.lsn + r.len ≤ endLsn
  placed : ∀ r ∈ reads, r.offset = logGroupCalcLsnOffset g r.lsn
  inside : ∀ r ∈ reads, r.offset < g.nFiles * g.fileSize ∧
    logFileHdrSize ≤ r.offset % g.fileSize ∧ r.offset % g.fileSize + r.len ≤ g.fileSize
  pos : ∀ r ∈ reads, 0 < r.len

section
variable {g : LogGroup} {files : Mem} {endLsn : ℕ}

/-- The read of a pass from `start < endLsn`: at least one byte, no further than `endLsn`, inside
one file's data. -/
theorem readLogSegPass_read (g : LogGroup) (files : Mem) (st : ReadSegState)
    (h : st.startLsn < endLsn) :
    let r := (readLogSegPass g files endLsn st).1
    r.lsn = st.startLsn ∧ r.offset = logGroupCalcLsnOffset g r.lsn ∧
      (r.offset < g.nFiles * g.fileSize ∧ logFileHdrSize ≤ r.offset % g.fileSize ∧
        r.offset % g.fileSize + r.len ≤ g.fileSize) ∧
      0 < r.len ∧ r.len ≤ endLsn - st.startLsn :=
  ⟨rfl, rfl, ⟨logGroupCalcLsnOffset_lt _, logFileHdrSize_le_calcLsnOffset_mod _, chunkLen_fits _ _ _⟩,
    chunkLen_pos _ _ (Nat.sub_pos_of_lt h), chunkLen_le _ _ _⟩

/-- A single read that ends the range. -/
theorem ReadLogSegSpec.single {r : FilRead} (hl : r.lsn = start) (hend : r.lsn + r.len = endLsn)
    (hp : r.offset = logGroupCalcLsnOffset g r.lsn)
    (hi : r.offset < g.nFiles * g.fileSize ∧ logFileHdrSize ≤ r.offset % g.fileSize ∧
      r.offset % g.fileSize + r.len ≤ g.fileSize) (hpos : 0 < r.len) :
    ReadLogSegSpec g start endLsn [r] where
  first _ h := by cases h; exact hl
  next := List.chain'_singleton _
  total := by simp only [List.map_cons, List.map_nil, List.sum_cons, List.sum_nil]; omega
  range _ h := by cases List.mem_singleton.mp h; omega
  placed _ h := by cases List.mem_singleton.mp h; exact hp
  inside _ h := by cases List.mem_singleton.mp h; exact hi
  pos _ h := by cases List.mem_singleton.mp h; exact hpos

/-- A read in front of the reads of the rest of the range. -/
theorem ReadLogSegSpec.cons {r : FilRead} {reads : List FilRead}
    (h : ReadLogSegSpec g (r.lsn + r.len) endLsn reads) (hl : r.lsn = start)
    (hp : r.offset = logGroupCalcLsnOffset g r.lsn)
    (hi : r.offset < g.nFiles * g.fileSize ∧ logFileHdrSize ≤ r.offset % g.fileSize ∧
      r.offset % g.fileSize + r.len ≤ g.fileSize) (hpos : 0 < r.len) (hlt : r.lsn + r.len < endLsn) :
    ReadLogSegSpec g start endLsn (r :: reads) where
  first _ h' := by cases h'; exact hl
  next := List.Chain'.cons' h.next h.first
  total := by
    rw [List.map_cons, List.sum_cons, h.total]; omega
  range r' h' := by
    rcases List.mem_cons.mp h' with rfl | h'
    · omega
    · have := h.range r' h'; omega
  placed r' h' := by
    rcases List.mem_cons.mp h' with rfl | h'
    exacts [hp, h.placed r' h']
  inside r' h' := by
    rcases List.mem_cons.mp h' with rfl | h'
    exacts [hi, h.inside r' h']
  pos r' h' := by
    rcases List.mem_cons.mp h' with rfl | h'
    exacts [hpos, h.pos r' h']

/-- More fuel runs the loop to the same exit. -/
theorem readLogSegLoop_mono {fuel fuel' : ℕ} {st : ReadSegState} {r : List FilRead × ReadSegState}
    (h : readLogSegLoop g files endLsn fuel st = some r) (hle : fuel ≤ fuel') :
    readLogSegLoop g files endLsn fuel' st = some r := by
  induction fuel generalizing fuel' st r with
  | zero => cases h
  | succ fuel ih =>
    obtain ⟨fuel', rfl⟩ := Nat.exists_eq_add_of_le' (Nat.lt_of_lt_of_le (Nat.succ_pos fuel) hle)
    rw [readLogSegLoop] at h ⊢
    split_ifs at h ⊢
    · obtain ⟨r', hr', rfl⟩ := Option.map_eq_some'.mp h
      rw [ih hr' (by omega)]; rfl
    · exact h

/-- **The loop stops at `end_lsn`.** From `start < endLsn`, any fuel of `endLsn - start` passes
or more runs the loop to its exit: every pass reads at least one byte and none reads past
`endLsn`, so `start_lsn` reaches `endLsn` exactly. The buffer it leaves is the one
`logGroupReadLogSeg` computes. -/
theorem readLogSegLoop_spec (g : LogGroup) (files : Mem) (fuel start off : ℕ) (buf : Mem)
    (h : start < endLsn)
    (hfuel : endLsn - start ≤ fuel) :
    ∃ reads, readLogSegLoop g files endLsn fuel ⟨start, off, buf⟩ =
        some (reads, ⟨endLsn, off + (endLsn - start), logGroupReadLogSeg g files buf off start endLsn⟩) ∧
      ReadLogSegSpec g start endLsn reads := by
  induction fuel generalizing start off buf with
  | zero => omega
  | succ fuel ih =>
    obtain ⟨hl, hp, hi, hpos, hle⟩ := readLogSegPass_read g files ⟨start, off, buf⟩ h
    dsimp only [readLogSegPass] at hl hp hi hpos hle
    rw [readLogSegLoop, logGroupReadLogSeg]
    dsimp only [readLogSegPass]
    by_cases hlt : start + chunkLen g (logGroupCalcLsnOffset g start) (endLsn - start) < endLsn
    · obtain ⟨reads, hrun, hspec⟩ := ih _ (off + chunkLen g (logGroupCalcLsnOffset g start)
        (endLsn - start)) (Mem.write buf off (Mem.read files (logGroupCalcLsnOffset g start)
          (chunkLen g (logGroupCalcLsnOffset g start) (endLsn - start)))) hlt (by omega)
      refine ⟨_, ?_, hspec.cons (r := ⟨start, _, _⟩) rfl hp hi hpos hlt⟩
      rw [if_pos (bne_iff_ne.mpr (Nat.ne_of_lt hlt)), hrun, dif_pos hlt]
      simp only [Option.map_some', Option.some.injEq, Prod.mk.injEq, ReadSegState.mk.injEq, true_and,
        and_true]
      exact ⟨rfl, by omega⟩
    · have hend : start + chunkLen g (logGroupCalcLsnOffset g start) (endLsn - start) = endLsn := by
        omega
      refine ⟨_, ?_, ReadLogSegSpec.single (r := ⟨start, _, _⟩) rfl hend hp hi hpos⟩
      rw [if_neg (by rw [hend, bne_self_eq_false]; exact Bool.false_ne_true), dif_neg hlt]
      simp only [Option.some.injEq, Prod.mk.injEq, ReadSegState.mk.injEq, true_and]
      exact ⟨rfl, hend, by omega, trivial⟩

/-- **`log_group_read_log_seg` terminates and reads the range.** For every group and every call
with `start_lsn < end_lsn`: the loop stops within `end_lsn - start_lsn` passes, whatever fuel
beyond that it is given, with `start_lsn = end_lsn`; its reads cover the range in order, each no
longer than what is left of it and inside the data area of one file; and the buffer holds at
offset `i` the byte at the place of LSN `start_lsn + i`. -/
theorem readLogSeg_loop (files buf : Mem) (off : ℕ) {start : ℕ} (h : start < endLsn) :
    ∃ reads st, (∀ fuel, endLsn - start ≤ fuel →
        readLogSegLoop g files endLsn fuel ⟨start, off, buf⟩ = some (reads, st)) ∧
      st.startLsn = endLsn ∧ ReadLogSegSpec g start endLsn reads ∧
      ∀ i < endLsn - start, st.buf (off + i) = files (logGroupCalcLsnOffset g (start + i)) := by
  obtain ⟨reads, hrun, hspec⟩ := readLogSegLoop_spec g files _ start off buf h le_rfl
  exact ⟨reads, _, fun _ hf => readLogSegLoop_mono hrun hf, rfl, hspec,
    fun i hi => logGroupReadLogSeg_apply i hi⟩

/-- A read of 6000 bytes from the start LSN of a group of two 4 KiB files crosses both files
and the wrap of the ring. -/
theorem logGroupInit_readLogSeg_loop :
    let g := logGroupInit 0 2 4096 (by decide) (by decide) (by decide)
    8192 < 14192 ∧ ∃ reads st, (∀ fuel, 14192 - 8192 ≤ fuel →
        readLogSegLoop g (fun _ => 0) 14192 fuel ⟨8192, 0, fun _ => 0⟩ = some (reads, st)) ∧
      st.startLsn = 14192 ∧ ReadLogSegSpec g 8192 14192 reads ∧
      ∀ i < 14192 - 8192, st.buf (0 + i) = (fun _ => 0) (logGroupCalcLsnOffset g (8192 + i)) :=
  ⟨by decide, readLogSeg_loop _ _ 0 (by decide)⟩

end

end RedoLog

import RedoLog.Margin

/-!
# Where record groups start

A mini-transaction's log is one record group, and `log_close` ends it: when the block of
`buf_free` has no `first_rec_group` yet (the field is `0`), it sets the field to the block's
`data_len`, where the next group will start. Recovery starts parsing a block at this field, so it
has to be right in every block, in the buffer and on disk.

The record-group boundaries are the LSN `log_init` starts at and every LSN `log_close` returns.
Only `log_write_low` moves `lsn`, and the model runs a mini-transaction's `log_write_low` calls and
its `log_close` in one step, so the boundaries of a run are the `lsn` of its states
(`Step.lsn_eq_or_logClose`); `Boundaries` records them along the run.

## Main definitions

* `InPayload b y` — a record group that starts at LSN `y` starts inside the block at LSN `b`.
* `firstRecGroupOf bs b` — the `first_rec_group` the block at LSN `b` should hold given the
  boundaries `bs`: the offset of the smallest of them in the block's payload, or `0`.
* `RecGroupInv bs s` — every block of the buffer holds `firstRecGroupOf bs`, and every block of the
  files holds it for the boundaries up to `write_lsn`.

## Main results

* `firstRecGroupOf_spec` — the contract in the words of the field's definition.
* `firstRecGroup_of_boundaries` — the fields are right in every state of every run.

## Implementation notes

A block's field is set once, by the first `log_close` that ends inside it, and every later
boundary comes after that first one: `firstRecGroupOf_cons_of_le` is this step of `log_close`. A
block of the files holds what the last write carried: the block of `write_lsn` may have gained
boundaries since, all past `write_lsn`, and every block before it was complete when it was last
written, so the boundaries up to `write_lsn` are those that existed at its last write.
-/

namespace RedoLog

/-! ### The contract -/

/-- A record group that starts at LSN `y` starts in the payload of the block at LSN `b`:
`b + LOG_BLOCK_HDR_SIZE ≤ y < b + OS_FILE_LOG_BLOCK_SIZE - LOG_BLOCK_TRL_SIZE`. -/
def InPayload (b y : ℕ) : Prop :=
  b + logBlockHdrSize ≤ y ∧ y < b + osFileLogBlockSize - logBlockTrlSize

instance (b y : ℕ) : Decidable (InPayload b y) := inferInstanceAs (Decidable (_ ∧ _))

/-- The `first_rec_group` of the block at LSN `b` given the record-group boundaries `bs`: the
offset of the smallest boundary in the block's payload, or `0` when there is none. -/
def firstRecGroupOf (bs : List ℕ) (b : ℕ) : ℕ :=
  match (bs.filter fun y => decide (InPayload b y)).min? with
  | some y => y - b
  | none => 0

section Contract

variable {bs : List ℕ} {b y : ℕ}

/-- **The contract.** `firstRecGroupOf` is the offset of the smallest boundary in the block's
payload, or `0` when the payload holds none. -/
theorem firstRecGroupOf_spec (bs : List ℕ) (b : ℕ) :
    (∃ y ∈ bs, InPayload b y ∧ (∀ y' ∈ bs, InPayload b y' → y ≤ y') ∧
        firstRecGroupOf bs b = y - b) ∨
      ((∀ y ∈ bs, ¬InPayload b y) ∧ firstRecGroupOf bs b = 0) := by
  unfold firstRecGroupOf
  split
  · rename_i y hy
    obtain ⟨hm, hmin⟩ := List.min?_eq_some_iff'.mp hy
    simp only [List.mem_filter, decide_eq_true_eq] at hm hmin
    exact .inl ⟨y, hm.1, hm.2, fun y' h1 h2 => hmin y' ⟨h1, h2⟩, rfl⟩
  · rename_i hn
    rw [List.min?_eq_none_iff, List.filter_eq_nil_iff] at hn
    exact .inr ⟨fun y hy hp => by simpa [hp] using hn y hy, rfl⟩

example : firstRecGroupOf [9000, 8600, 8204] 8704 = 296 := by decide

theorem firstRecGroupOf_eq_zero (h : ∀ y ∈ bs, ¬InPayload b y) : firstRecGroupOf bs b = 0 := by
  rcases firstRecGroupOf_spec bs b with ⟨y, hy, hp, -, -⟩ | ⟨-, h0⟩
  exacts [absurd hp (h y hy), h0]

/-- The field reads only which boundaries lie in the block's payload. -/
theorem firstRecGroupOf_congr {bs' : List ℕ} (h : ∀ y, InPayload b y → (y ∈ bs ↔ y ∈ bs')) :
    firstRecGroupOf bs b = firstRecGroupOf bs' b := by
  rcases firstRecGroupOf_spec bs b with ⟨y, hy, hp, hmin, hv⟩ | ⟨hn, hv⟩ <;>
    rcases firstRecGroupOf_spec bs' b with ⟨y', hy', hp', hmin', hv'⟩ | ⟨hn', hv'⟩
  · rw [hv, hv', Nat.le_antisymm (hmin y' ((h y' hp').2 hy') hp') (hmin' y ((h y hp).1 hy) hp)]
  · exact absurd hp (hn' y ((h y hp).1 hy))
  · exact absurd hp' (hn y' ((h y' hp').2 hy'))
  · rw [hv, hv']

theorem firstRecGroupOf_cons_of_not (h : ¬InPayload b y) :
    firstRecGroupOf (y :: bs) b = firstRecGroupOf bs b :=
  firstRecGroupOf_congr fun y' hy' => by
    rw [List.mem_cons]
    exact ⟨fun h' => h'.resolve_left fun e => h (e ▸ hy'), .inr⟩

theorem firstRecGroupOf_cons_of_mem (h : y ∈ bs) : firstRecGroupOf (y :: bs) b = firstRecGroupOf bs b :=
  firstRecGroupOf_congr fun y' _ => by
    rw [List.mem_cons]
    exact ⟨fun h' => h'.elim (fun e => e ▸ h) id, .inr⟩

/-- **The step of `log_close`.** A boundary past all the others and inside the block's payload
becomes the block's first one when the block had none, and changes nothing otherwise. -/
theorem firstRecGroupOf_cons_of_le (hy : InPayload b y) (hle : ∀ y' ∈ bs, y' ≤ y) :
    firstRecGroupOf (y :: bs) b =
      if firstRecGroupOf bs b = 0 then y - b else firstRecGroupOf bs b := by
  rcases firstRecGroupOf_spec bs b with ⟨y₀, hy₀, hp₀, hmin, hv⟩ | ⟨hn, hv⟩
  · -- the block's first boundary `y₀` stays its first
    have hne : firstRecGroupOf bs b ≠ 0 := by
      rw [hv]; unfold InPayload logBlockHdrSize at hp₀; omega
    rw [if_neg hne, hv]
    rcases firstRecGroupOf_spec (y :: bs) b with ⟨y₁, hy₁, hp₁, hmin₁, hv₁⟩ | ⟨hn₁, -⟩
    · have hle₁ : y₀ ≤ y₁ := by
        rcases List.mem_cons.mp hy₁ with rfl | h
        exacts [hle y₀ hy₀, hmin y₁ h hp₁]
      rw [hv₁, Nat.le_antisymm (hmin₁ y₀ (List.mem_cons_of_mem _ hy₀) hp₀) hle₁]
    · exact absurd hp₀ (hn₁ y₀ (List.mem_cons_of_mem _ hy₀))
  · -- `y` is the block's only boundary
    rw [hv, if_pos rfl]
    rcases firstRecGroupOf_spec (y :: bs) b with ⟨y₁, hy₁, hp₁, -, hv₁⟩ | ⟨hn₁, -⟩
    · rcases List.mem_cons.mp hy₁ with rfl | h
      exacts [hv₁, absurd hp₁ (hn y₁ h)]
    · exact absurd hy (hn₁ y (List.mem_cons_self _ _))

/-- Cutting the boundaries at `w` changes no block whose payload lies below `w`. -/
theorem firstRecGroupOf_filter_le {w : ℕ} (h : ∀ y ∈ bs, InPayload b y → y ≤ w) :
    firstRecGroupOf (bs.filter (· ≤ w)) b = firstRecGroupOf bs b :=
  firstRecGroupOf_congr fun y hy => by
    simp only [List.mem_filter, decide_eq_true_eq]
    exact ⟨And.left, fun h' => ⟨h', h y h' hy⟩⟩

end Contract

/-! ### One pass of `log_write_low`

A pass writes its part into the payload of the block of `buf_free` and stamps that block's
`data_len`; a pass that fills the block also stamps its checkpoint number and gives the next block
a fresh header, whose `first_rec_group` is `0`. -/

section Part

variable {s : LogSys} {str : List UInt8} (hc : BufferCore s)
include hc

theorem logWriteLowPart_bufFree :
    (logWriteLowPart s str).1.bufFree = s.bufFree +
      if PartFull s str then partLen s str + logBlockHdrSize + logBlockTrlSize else partLen s str := by
  rw [logWriteLowPart_eq s str hc.lt_trl]

/-- A pass changes no `first_rec_group` but that of the next block, when it fills its own. -/
theorem logWriteLowPart_firstRecGroup {o : ℕ} (ho : o % osFileLogBlockSize = 0) :
    logBlockGetFirstRecGroup (logWriteLowPart s str).1.buf o =
      if PartFull s str ∧ o = utCalcAlignDown s.bufFree osFileLogBlockSize + osFileLogBlockSize then 0
      else logBlockGetFirstRecGroup s.buf o := by
  have hB : utCalcAlignDown s.bufFree osFileLogBlockSize = s.bufFree - s.bufFree % 512 :=
    utCalcAlignDown_eq _ _
  have hk : (str.take (partLen s str)).length = partLen s str := length_take_partLen
  have hlen : s.bufFree % 512 + partLen s str ≤ 508 := by
    have := hc.lt_trl; unfold partLen; simp only [osFileLogBlockSize, logBlockTrlSize] at *; omega
  have hh : 12 ≤ s.bufFree % 512 := hc.hdr_le
  have ho' : o % 512 = 0 := ho
  have h512 : osFileLogBlockSize = 512 := rfl
  -- the part lies in the payload of the block of `buf_free`, away from every `first_rec_group`
  have hw : ∀ j < 2, Mem.write s.buf s.bufFree (str.take (partLen s str)) (o + 6 + j) =
      s.buf (o + 6 + j) := fun j hj => Mem.write_of_not_mem (by rw [hk]; omega)
  rw [logWriteLowPart_eq s str hc.lt_trl]
  dsimp only
  by_cases hf : PartFull s str
  · simp only [hf, true_and, if_true]
    split_ifs with h
    · rw [h]; exact logBlockGetFirstRecGroup_logBlockInit _ _ _
    · rw [hB] at h
      refine logBlockGetFirstRecGroup_congr fun j hj => ?_
      rw [logBlockInit_of_not_mem _ (by omega), logBlockSetCheckpointNo_of_not_mem _ (by omega),
        logBlockSetDataLen_of_not_mem _ (by omega), logBlockSetDataLen_of_not_mem _ (by omega), hw j hj]
  · simp only [hf, false_and, if_false]
    exact logBlockGetFirstRecGroup_congr fun j hj => by
      rw [logBlockSetDataLen_of_not_mem _ (by omega), hw j hj]

/-- A pass leaves in the block of the new `buf_free` the `data_len` of its offset. -/
theorem logWriteLowPart_dataLen :
    logBlockGetDataLen (logWriteLowPart s str).1.buf
        (utCalcAlignDown (logWriteLowPart s str).1.bufFree osFileLogBlockSize) =
      (logWriteLowPart s str).1.bufFree % osFileLogBlockSize := by
  have hh : 12 ≤ s.bufFree % 512 := hc.hdr_le
  rw [logWriteLowPart_eq s str hc.lt_trl]
  dsimp only
  by_cases hf : PartFull s str
  · -- the fresh header of the next block
    have hfull := partLen_of_full hc hf
    simp only [if_pos hf]
    have e : utCalcAlignDown (s.bufFree + (partLen s str + logBlockHdrSize + logBlockTrlSize))
        osFileLogBlockSize = utCalcAlignDown s.bufFree osFileLogBlockSize + osFileLogBlockSize := by
      rw [utCalcAlignDown_eq, utCalcAlignDown_eq]
      simp only [osFileLogBlockSize, logBlockHdrSize, logBlockTrlSize] at *; omega
    rw [e, logBlockGetDataLen_logBlockInit]
    simp only [osFileLogBlockSize, logBlockHdrSize, logBlockTrlSize] at *; omega
  · have hk : s.bufFree % 512 + partLen s str < 508 := by
      rw [partLen_of_not_full hf]; unfold PartFull at hf
      simp only [osFileLogBlockSize, logBlockTrlSize] at hf; omega
    simp only [if_neg hf]
    have e : utCalcAlignDown (s.bufFree + partLen s str) osFileLogBlockSize =
        utCalcAlignDown s.bufFree osFileLogBlockSize := by
      rw [utCalcAlignDown_eq, utCalcAlignDown_eq]; simp only [osFileLogBlockSize]; omega
    rw [e, logBlockGetDataLen_logBlockSetDataLen]
    simp only [osFileLogBlockSize]; omega

/-- A pass keeps the LSN that offset `0` of the buffer stands for. -/
theorem logWriteLowPart_base :
    (logWriteLowPart s str).1.lsn - (logWriteLowPart s str).1.bufFree = s.lsn - s.bufFree := by
  have h := appendStep_logWriteLowPart hc str
  have := h.lsn_eq; have := h.free_le; have := hc.free_le_lsn
  omega

/-- The blocks up to the new `buf_free`: the one the pass started, when it filled its block, and
those up to the old `buf_free`. -/
theorem logWriteLowPart_block_cases {o : ℕ} (ho : o % osFileLogBlockSize = 0)
    (hle : o ≤ (logWriteLowPart s str).1.bufFree) :
    (PartFull s str ∧ o = utCalcAlignDown s.bufFree osFileLogBlockSize + osFileLogBlockSize) ∨
      o ≤ s.bufFree := by
  have hF : (logWriteLowPart s str).1.bufFree = s.bufFree + _ := logWriteLowPart_bufFree hc
  have ho' : o % 512 = 0 := ho
  rw [utCalcAlignDown_eq]
  by_cases hf : PartFull s str
  · have hfull : s.bufFree % 512 + partLen s str = 508 := partLen_of_full hc hf
    simp only [if_pos hf, logBlockHdrSize, logBlockTrlSize] at hF
    rcases (show o = s.bufFree - s.bufFree % osFileLogBlockSize + osFileLogBlockSize ∨
        o ≤ s.bufFree by simp only [osFileLogBlockSize]; omega) with h | h
    exacts [.inl ⟨hf, h⟩, .inr h]
  · have hk : s.bufFree % 512 + partLen s str < 508 := by
      rw [partLen_of_not_full hf]; unfold PartFull at hf
      simp only [osFileLogBlockSize, logBlockTrlSize] at hf; omega
    simp only [if_neg hf] at hF
    exact .inr (by omega)

end Part

/-! ### The buffer -/

/-- The record-group fields of the buffer as the boundaries `bs` have them: every block of the
buffer, from the one at offset `0`, which stands for LSN `lsn - buf_free`, to the block of `lsn`,
holds `firstRecGroupOf bs` of its LSN, and the block of `buf_free` has the `data_len` that
`log_close` copies into its field. -/
structure BufRecGroups (bs : List ℕ) (s : LogSys) : Prop where
  dataLen : logBlockGetDataLen s.buf (utCalcAlignDown s.bufFree osFileLogBlockSize) =
    s.bufFree % osFileLogBlockSize
  firstRecGroup : ∀ b, b % osFileLogBlockSize = 0 → s.lsn - s.bufFree ≤ b → b ≤ s.lsn →
    logBlockGetFirstRecGroup s.buf (b - (s.lsn - s.bufFree)) = firstRecGroupOf bs b

section Append

variable {bs : List ℕ}

/-- A pass of `log_write_low` keeps the fields for boundaries it has not passed: the blocks it
starts are past all of them. -/
theorem BufRecGroups.logWriteLowPart {s : LogSys} (hc : BufferCore s) (h : BufRecGroups bs s)
    (hle : ∀ y ∈ bs, y ≤ s.lsn) (str : List UInt8) : BufRecGroups bs (logWriteLowPart s str).1 := by
  have hp := appendStep_logWriteLowPart hc str
  have := hp.lsn_eq; have := hp.free_le; have := hc.free_le_lsn
  have hbm : (s.lsn - s.bufFree) % 512 = 0 := hc.base_mod
  refine ⟨logWriteLowPart_dataLen hc, fun b hb hlo hhi => ?_⟩
  have hb' : b % 512 = 0 := hb
  rw [logWriteLowPart_base hc] at hlo ⊢
  have ho : (b - (s.lsn - s.bufFree)) % osFileLogBlockSize = 0 := by
    simp only [osFileLogBlockSize]; omega
  rw [logWriteLowPart_firstRecGroup hc ho]
  split_ifs with hnew
  · -- the fresh header of the next block, past every boundary
    refine (firstRecGroupOf_eq_zero fun y hy hp => ?_).symm
    have := hle y hy
    obtain ⟨-, hnew⟩ := hnew
    unfold InPayload at hp
    rw [utCalcAlignDown_eq] at hnew
    simp only [osFileLogBlockSize, logBlockHdrSize, logBlockTrlSize] at hnew hp
    omega
  · -- a block the buffer held before the pass
    have := (logWriteLowPart_block_cases hc ho (by omega)).resolve_left hnew
    exact h.firstRecGroup b hb hlo (by omega)

theorem BufRecGroups.logWriteLowLoop (fuel : ℕ) {s : LogSys} (hc : BufferCore s)
    (h : BufRecGroups bs s) (hle : ∀ y ∈ bs, y ≤ s.lsn) (str : List UInt8) :
    BufRecGroups bs (logWriteLowLoop fuel s str) := by
  induction fuel generalizing s str with
  | zero => exact h
  | succ fuel ih =>
    have hp := appendStep_logWriteLowPart hc str
    have hp' := h.logWriteLowPart hc hle str
    rw [RedoLog.logWriteLowLoop]
    split
    · exact hp'
    · exact ih hp.core hp' (fun y hy => (hle y hy).trans (by have := hp.lsn_eq; omega)) _

theorem BufRecGroups.foldl_logWriteLow (strs : List (List UInt8)) {s : LogSys} (hc : BufferCore s)
    (h : BufRecGroups bs s) (hle : ∀ y ∈ bs, y ≤ s.lsn) :
    BufRecGroups bs (strs.foldl logWriteLow s) := by
  induction strs generalizing s with
  | nil => exact h
  | cons str strs ih =>
    have hp : AppendStep s (logWriteLow s str) str.length := appendStep_logWriteLowLoop _ hc str
    exact ih hp.core (h.logWriteLowLoop _ hc hle str)
      fun y hy => (hle y hy).trans (by have := hp.lsn_eq; omega)

/-- **`log_close` marks the boundary `lsn`** in the block of `buf_free`, when the block had no
boundary before. -/
theorem BufRecGroups.logClose {s : LogSys} (hc : BufferCore s) (h : BufRecGroups bs s)
    (hle : ∀ y ∈ bs, y ≤ s.lsn) (bufPoolOldest : ℕ) :
    BufRecGroups (s.lsn :: bs) (logClose s bufPoolOldest).1 := by
  obtain ⟨base, hbm, hl, -⟩ := hc.exists_base
  have hs : s.lsn - s.bufFree = base := by rw [hl, Nat.add_sub_cancel]
  have hB : utCalcAlignDown s.bufFree osFileLogBlockSize = s.bufFree - s.bufFree % 512 :=
    utCalcAlignDown_eq _ _
  have hh : 12 ≤ s.bufFree % 512 := hc.hdr_le
  have ht : s.bufFree % 512 < 508 := hc.lt_trl
  unfold RedoLog.logClose
  dsimp only
  refine ⟨?_, fun b hb hlo hhi => ?_⟩
  · dsimp only
    split_ifs
    · rw [logBlockGetDataLen_congr fun j hj => logBlockSetFirstRecGroup_of_not_mem _ (.inl (by omega))]
      exact h.dataLen
    · exact h.dataLen
  · dsimp only at hlo hhi ⊢
    rw [hs] at hlo ⊢
    -- LSN `b` stands at `o` in the buffer
    obtain ⟨o, rfl⟩ := Nat.exists_eq_add_of_le hlo
    have ho : o % 512 = 0 := Nat.mod_eq_zero_of_dvd <|
      (Nat.dvd_add_right (Nat.dvd_of_mod_eq_zero hbm)).mp (Nat.dvd_of_mod_eq_zero hb)
    have hfrg := h.firstRecGroup _ hb (hs ▸ Nat.le_add_right _ _) hhi
    rw [hs, Nat.add_sub_cancel_left] at hfrg
    rw [Nat.add_sub_cancel_left]
    by_cases hbk : o = utCalcAlignDown s.bufFree osFileLogBlockSize
    · -- the block of `lsn`
      have hin : InPayload (base + o) s.lsn := by
        unfold InPayload; simp only [logBlockHdrSize, osFileLogBlockSize, logBlockTrlSize]; omega
      rw [firstRecGroupOf_cons_of_le hin hle, ← hfrg, hbk]
      split_ifs
      · rw [logBlockGetFirstRecGroup_logBlockSetFirstRecGroup, h.dataLen, hl, hB]
        simp only [osFileLogBlockSize]; omega
      · rfl
    · -- a block before it
      have hnot : ¬InPayload (base + o) s.lsn := by
        unfold InPayload; simp only [logBlockHdrSize, osFileLogBlockSize, logBlockTrlSize]; omega
      rw [firstRecGroupOf_cons_of_not hnot, ← hfrg]
      split_ifs
      · exact logBlockGetFirstRecGroup_congr fun j hj =>
          logBlockSetFirstRecGroup_of_not_mem _ (.inl (by omega))
      · rfl

/-- **A mini-transaction keeps the buffer's fields**, with the boundary its `log_close` returns. -/
theorem BufRecGroups.mtrWrite {s : LogSys} (hc : BufferCore s) (h : BufRecGroups bs s)
    (hle : ∀ y ∈ bs, y ≤ s.lsn) (strs : List (List UInt8)) (bufPoolOldest : ℕ) :
    BufRecGroups ((mtrWrite s strs bufPoolOldest).lsn :: bs) (mtrWrite s strs bufPoolOldest) := by
  have hp := appendStep_foldl_logWriteLow strs hc
  exact (h.foldl_logWriteLow strs hc hle).logClose hp.core
    (fun y hy => (hle y hy).trans (by have := hp.lsn_eq; omega)) bufPoolOldest

/-- A boundary already recorded changes no field. -/
theorem BufRecGroups.cons_mem {s : LogSys} (h : BufRecGroups bs s) {y : ℕ} (hy : y ∈ bs) :
    BufRecGroups (y :: bs) s :=
  ⟨h.dataLen, fun b hb hlo hhi => (h.firstRecGroup b hb hlo hhi).trans
    (firstRecGroupOf_cons_of_mem hy).symm⟩

end Append

/-! ### The write and the reallocation

Both keep the fields where they are, up to a move of the buffer: the write stamps only the flush
bit, the checkpoint number and the checksums, and its compaction, like the reallocation of
`log_buffer_extend`, moves the block of `lsn` to the start of the buffer. -/

/-- Below the end of the last block, the write keeps `data_len` and `first_rec_group` of every
block: it stamps the flush bit of the first block, the checkpoint number of the last block and
the checksums, and pads only past the last block. -/
theorem writeResult_snd_of_header {cfg : Config} {s : LogSys} (hc : BufferCore s) {i : ℕ}
    (hi : logBlockHdrDataLen ≤ i % osFileLogBlockSize ∧ i % osFileLogBlockSize < logBlockCheckpointNo)
    (hlt : i < utCalcAlign s.bufFree osFileLogBlockSize) : (writeResult cfg s).2 i = s.buf i := by
  have hend := utCalcAlign_bufFree hc
  have hN : utCalcAlignDown s.bufNextToWrite osFileLogBlockSize % 512 = 0 := utCalcAlignDown_mod _ _
  obtain ⟨hi1, hi2⟩ : 4 ≤ i % 512 ∧ i % 512 < 8 := hi
  rw [writeResult, sameBesideChecksums_logGroupWriteBuf hc.anchor (utCalcAlignDown_mod _ _)
      (utCalcAlignDown_mod _ _) _ (by simp only [osFileLogBlockSize, logBlockChecksum]; omega),
    writeSource, Mem.fill, Mem.write_of_lt _ hlt,
    logBlockSetCheckpointNo_of_not_mem _ (by rw [hend]; simp only [osFileLogBlockSize] at *; omega),
    logBlockSetFlushBit_of_not_mem _ (by omega)]

section Move

variable {bs : List ℕ} {s s' : LogSys}

/-- `s'` holds the buffer of `s` moved `d` bytes down, `d` a whole number of blocks up to the block
of `buf_free`, with bytes `4` to `8` of every block up to `buf_free`, `data_len` and
`first_rec_group`, carried along: the compaction of the write and the reallocation of
`log_buffer_extend` with `d` that block, the stamps of the write with `d = 0`. -/
structure HeaderMove (s s' : LogSys) (d : ℕ) : Prop where
  mod : d % osFileLogBlockSize = 0
  le : d ≤ utCalcAlignDown s.bufFree osFileLogBlockSize
  lsn : s'.lsn = s.lsn
  bufFree : s'.bufFree = s.bufFree - d
  buf : ∀ o, o % osFileLogBlockSize = 0 → o ≤ s'.bufFree → ∀ j, logBlockHdrDataLen ≤ j →
    j < logBlockCheckpointNo → s'.buf (o + j) = s.buf (d + o + j)

/-- A move keeps the buffer's split at `buf_free`: `d` bytes go, the rest stays. -/
theorem HeaderMove.bufFree_eq {d : ℕ} (hm : HeaderMove s s' d) : s.bufFree = d + s'.bufFree := by
  rw [hm.bufFree, Nat.add_sub_cancel' (hm.le.trans (utCalcAlignDown_le _ _))]

/-- After a move, the block at `o` holds the `data_len` and `first_rec_group` of the block at
`d + o` before it. -/
theorem HeaderMove.fields {d : ℕ} (hm : HeaderMove s s' d) {o : ℕ} (ho : o % osFileLogBlockSize = 0)
    (hle : o ≤ s'.bufFree) :
    logBlockGetDataLen s'.buf o = logBlockGetDataLen s.buf (d + o) ∧
      logBlockGetFirstRecGroup s'.buf o = logBlockGetFirstRecGroup s.buf (d + o) := by
  have hmv : ∀ k j, 4 ≤ k + j → k + j < 8 → s'.buf (o + k + j) = s.buf (d + o + k + j) :=
    fun k j h₁ h₂ => by simpa only [Nat.add_assoc] using hm.buf o ho hle (k + j) h₁ h₂
  exact ⟨logBlockGetDataLen_congr fun j hj => hmv 4 j (Nat.le_add_right _ _) (by omega),
    logBlockGetFirstRecGroup_congr fun j hj => hmv 6 j (by omega) (by omega)⟩

/-- **The fields survive a move of the buffer.** -/
theorem BufRecGroups.move (hc : BufferCore s) (h : BufRecGroups bs s) {d : ℕ}
    (hm : HeaderMove s s' d) : BufRecGroups bs s' := by
  have hsplit := hm.bufFree_eq
  have hB' : utCalcAlignDown s'.bufFree osFileLogBlockSize =
      utCalcAlignDown s.bufFree osFileLogBlockSize - d := by
    rw [hsplit, utCalcAlignDown_add_of_mod _ hm.mod, Nat.add_sub_cancel_left]
  refine ⟨?_, fun b hb hlo hhi => ?_⟩
  · have hmod : s'.bufFree % osFileLogBlockSize = s.bufFree % osFileLogBlockSize := by
      rw [hsplit, Nat.add_mod, hm.mod, Nat.zero_add, Nat.mod_mod]
    have hle : utCalcAlignDown s.bufFree osFileLogBlockSize - d ≤ s'.bufFree :=
      hm.bufFree ▸ Nat.sub_le_sub_right (utCalcAlignDown_le _ _) d
    rw [hB', (hm.fields (Nat.sub_mod_eq_zero_of_mod_eq (by rw [utCalcAlignDown_mod, hm.mod])) hle).1,
      Nat.add_sub_cancel' hm.le, h.dataLen, hmod]
  · obtain ⟨base, hbm, hl, -⟩ := hc.exists_base
    have hs : s.lsn - s.bufFree = base := by rw [hl, Nat.add_sub_cancel]
    have hs' : s'.lsn - s'.bufFree = base + d := by
      rw [hm.lsn, hl, hsplit, ← Nat.add_assoc, Nat.add_sub_cancel]
    rw [hs'] at hlo ⊢
    rw [hm.lsn] at hhi
    -- LSN `b` stands at `o` after the move and at `d + o` before
    obtain ⟨o, rfl⟩ := Nat.exists_eq_add_of_le hlo
    have ho : o % osFileLogBlockSize = 0 := Nat.mod_eq_zero_of_dvd <| (Nat.dvd_add_right
      (Nat.dvd_add (Nat.dvd_of_mod_eq_zero hbm) (Nat.dvd_of_mod_eq_zero hm.mod))).mp
        (Nat.dvd_of_mod_eq_zero hb)
    rw [Nat.add_sub_cancel_left, (hm.fields ho (by omega)).2, ← h.firstRecGroup _ hb (by omega) hhi, hs,
      Nat.add_assoc, Nat.add_sub_cancel_left]

/-- The write is such a move: its stamps leave bytes `4` to `8` of every block, and its compaction
moves the block of `lsn` to the start. -/
theorem logWriteUpToWrite_headerMove {cfg : Config} (hc : BufferCore s) :
    ∃ d, HeaderMove s (logWriteUpToWrite cfg s) d := by
  have hB : utCalcAlignDown s.bufFree osFileLogBlockSize = s.bufFree - s.bufFree % 512 :=
    utCalcAlignDown_eq _ _
  have hend : utCalcAlign s.bufFree osFileLogBlockSize = s.bufFree - s.bufFree % 512 + 512 :=
    utCalcAlign_bufFree hc
  have hkeep : ∀ i, 4 ≤ i % 512 → i % 512 < 8 → i < s.bufFree - s.bufFree % 512 + 512 →
      (writeResult cfg s).2 i = s.buf i :=
    fun i h1 h2 h3 => writeResult_snd_of_header hc ⟨h1, h2⟩ (hend ▸ h3)
  rw [RedoLog.logWriteUpToWrite_eq]
  dsimp only
  by_cases hcomp : writeCompacts s
  · simp only [if_pos hcomp]
    refine ⟨_, utCalcAlignDown_mod _ _, le_rfl, rfl, rfl, fun o ho hle j h1 h2 => ?_⟩
    have ho' : o % 512 = 0 := ho
    simp only [logBlockHdrDataLen, logBlockCheckpointNo] at h1 h2
    dsimp only at hle ⊢
    obtain rfl : o = 0 := by rw [hB] at hle; omega
    rw [Mem.move_add (by rw [hend, hB]; omega), Nat.add_zero, hkeep _ (by rw [hB]; omega)
      (by rw [hB]; omega) (by rw [hB]; omega)]
  · simp only [if_neg hcomp]
    refine ⟨0, rfl, Nat.zero_le _, rfl, rfl, fun o ho hle j h1 h2 => ?_⟩
    have ho' : o % 512 = 0 := ho
    dsimp only at hle
    simp only [logBlockHdrDataLen, logBlockCheckpointNo] at h1 h2
    rw [Nat.zero_add]
    exact hkeep _ (by omega) (by omega) (by omega)

/-- The reallocation of `log_buffer_extend` is such a move: it copies the block of `lsn`, up to
`buf_free`, to the start of the new buffer. -/
theorem logBufferExtendMove_headerMove {cfg : Config} (hc : BufferCore s) (len : ℕ) :
    HeaderMove s (logBufferExtendMove cfg s len) (utCalcAlignDown s.bufFree osFileLogBlockSize) := by
  have hB : utCalcAlignDown s.bufFree osFileLogBlockSize = s.bufFree - s.bufFree % 512 :=
    utCalcAlignDown_eq _ _
  have hh : 12 ≤ s.bufFree % 512 := hc.hdr_le
  refine ⟨utCalcAlignDown_mod _ _, le_rfl, rfl, rfl, fun o ho hle j h1 h2 => ?_⟩
  have ho' : o % 512 = 0 := ho
  simp only [logBlockHdrDataLen, logBlockCheckpointNo] at h1 h2
  dsimp only [RedoLog.logBufferExtendMove] at hle ⊢
  obtain rfl : o = 0 := by rw [hB] at hle; omega
  rw [Nat.add_zero, Mem.write_read_add (by rw [hB]; omega)]

/-- The write keeps the buffer's fields. -/
theorem BufRecGroups.logWriteUpToWrite {cfg : Config} (hc : BufferCore s) (h : BufRecGroups bs s) :
    BufRecGroups bs (logWriteUpToWrite cfg s) :=
  let ⟨_, hm⟩ := logWriteUpToWrite_headerMove hc; h.move hc hm

/-- The reallocation of `log_buffer_extend` keeps the buffer's fields. -/
theorem BufRecGroups.logBufferExtendMove {cfg : Config} (hc : BufferCore s) (h : BufRecGroups bs s)
    (len : ℕ) : BufRecGroups bs (logBufferExtendMove cfg s len) :=
  h.move hc (logBufferExtendMove_headerMove hc len)

end Move

/-! ### The files -/

/-- The record-group fields of the files: every block that a write carried and that no later
write wrapped onto holds `firstRecGroupOf` of the boundaries up to `write_lsn`. -/
def FilesRecGroups (bs : List ℕ) (s : LogSys) : Prop :=
  ∀ b, b % osFileLogBlockSize = 0 → s.written b = true →
    s.writtenEnd ≤ b + logGroupGetCapacity s.group →
    logBlockGetFirstRecGroup s.logFiles (logGroupCalcLsnOffset s.group b) =
      firstRecGroupOf (bs.filter (· ≤ s.writeLsn)) b

section Files

variable {bs : List ℕ} {s : LogSys}

/-- **The write carries the buffer's fields to the files**: each block it writes gets the field
the buffer holds, and an older block keeps its own, whose boundaries were all below the old
`write_lsn`. -/
theorem FilesRecGroups.logWriteUpToWrite {cfg : Config} (hc : BufferCore s) (hbuf : BufRecGroups bs s)
    (hle : ∀ y ∈ bs, y ≤ s.lsn) (hwr : ∀ y, s.written y = true → y < s.writeLsn)
    (h : FilesRecGroups bs s) : FilesRecGroups bs (logWriteUpToWrite cfg s) := by
  have hend : utCalcAlign s.bufFree osFileLogBlockSize = s.bufFree - s.bufFree % 512 + 512 :=
    utCalcAlign_bufFree hc
  unfold FilesRecGroups
  rw [RedoLog.logWriteUpToWrite_eq]
  dsimp only
  intro b hb hw hwrap
  rw [logGroupCalcLsnOffset_logGroupSetFields]
  rw [logGroupGetCapacity_logGroupSetFields, max_le_iff] at hwrap
  -- the field's bytes sit `6 + j` past the block's place in the files
  have hoff : ∀ j < 2, logGroupCalcLsnOffset s.group b + 6 + j =
      logGroupCalcLsnOffset s.group (b + (6 + j)) := fun j hj => by
    rw [Nat.add_assoc, logGroupCalcLsnOffset_add_of_mod hc.anchor hb
      (by simp only [osFileLogBlockSize]; omega)]
  by_cases hr : writeRange s b = true
  · -- a block of this write: it gets the field of the buffer's block at `o`
    have hr' : utCalcAlignDown s.writeLsn osFileLogBlockSize ≤ b ∧ b < s.lsn := by
      simpa [writeRange] using hr
    obtain ⟨base, hbm, hl, -⟩ := hc.exists_base
    have hs : s.lsn - s.bufFree = base := by rw [hl, Nat.add_sub_cancel]
    obtain ⟨o, rfl⟩ := Nat.exists_eq_add_of_le (hs ▸ hc.base_le_alignDown.trans hr'.1)
    have ho : o % 512 = 0 := Nat.mod_eq_zero_of_dvd <|
      (Nat.dvd_add_right (Nat.dvd_of_mod_eq_zero hbm)).mp (Nat.dvd_of_mod_eq_zero hb)
    have hob : o + 12 ≤ s.bufFree := by
      have := hc.hdr_le; have := hr'.2
      simp only [osFileLogBlockSize, logBlockHdrSize] at *; omega
    rw [firstRecGroupOf_filter_le fun y hy _ => hle y hy,
      ← hbuf.firstRecGroup _ hb (hs ▸ Nat.le_add_right _ _) hr'.2.le, hs, Nat.add_sub_cancel_left]
    refine logBlockGetFirstRecGroup_congr fun j hj => ?_
    rw [hoff j hj, writeResult_fst_of_le hc (hr'.1.trans (Nat.le_add_right _ _)) (by omega)
        (hwrap.2.trans (by omega)), hs, Nat.add_assoc base, Nat.add_sub_cancel_left, ← Nat.add_assoc,
      writeResult_snd_of_header hc
        (by simp only [logBlockHdrDataLen, logBlockCheckpointNo, osFileLogBlockSize]; omega)
        (by rw [hend]; omega)]
  · -- an older block, which this write left alone
    have hw' : s.written b = true := by simpa [hr] using hw
    have hbs : b + 512 ≤ utCalcAlignDown s.writeLsn osFileLogBlockSize := by
      have := hwr b hw'; have := hc.writeLsn_le
      have := utCalcAlignDown_mod s.writeLsn osFileLogBlockSize
      simp only [writeRange, decide_eq_true_eq, not_and, not_lt, osFileLogBlockSize] at hr hb this ⊢
      omega
    have hfull : ∀ w, s.writeLsn ≤ w →
        firstRecGroupOf (bs.filter (· ≤ w)) b = firstRecGroupOf bs b := fun w hw =>
      firstRecGroupOf_filter_le fun y _ hp => by
        have := utCalcAlignDown_le s.writeLsn osFileLogBlockSize
        unfold InPayload at hp; simp only [osFileLogBlockSize, logBlockTrlSize] at hp; omega
    rw [hfull _ hc.writeLsn_le, ← hfull _ le_rfl, ← h b hb hw' hwrap.1]
    refine logBlockGetFirstRecGroup_congr fun j hj => ?_
    rw [hoff j hj, writeResult_fst_of_lt (by omega) (hwrap.2.trans (by omega))]

/-- A boundary past `write_lsn`, or already recorded, changes no field of the files. -/
theorem FilesRecGroups.cons (h : FilesRecGroups bs s) {y : ℕ} (hy : s.writeLsn < y ∨ y ∈ bs) :
    FilesRecGroups (y :: bs) s := fun b hb hw hwrap => (h b hb hw hwrap).trans <|
  firstRecGroupOf_congr fun z _ => by
    simp only [List.mem_filter, List.mem_cons, decide_eq_true_eq]
    refine ⟨fun hz => ⟨.inr hz.1, hz.2⟩, fun ⟨hz, hzw⟩ => ⟨hz.elim (fun e => ?_) id, hzw⟩⟩
    subst e
    exact hy.resolve_left (by omega)

end Files

/-! ### The invariant -/

/-- **The record-group invariant.** `lsn` is the latest boundary; every block of the buffer
holds `firstRecGroupOf` of the boundaries; every LSN the writes passed to the files is below
`write_lsn`; and every block of the files holds `firstRecGroupOf` of the boundaries up to
`write_lsn`. -/
structure RecGroupInv (bs : List ℕ) (s : LogSys) : Prop where
  lsn_mem : s.lsn ∈ bs
  le_lsn : ∀ y ∈ bs, y ≤ s.lsn
  buf : BufRecGroups bs s
  written_lt : ∀ y, s.written y = true → y < s.writeLsn
  files : FilesRecGroups bs s

section Inv

variable {bs : List ℕ} {s : LogSys}

/-- The invariant reads only `lsn`, the buffer and `buf_free`, `write_lsn`, what the writes
passed and how far they reached, the group, and the files. -/
theorem RecGroupInv.of_eq {s' : LogSys} (h : RecGroupInv bs s) (h1 : s'.lsn = s.lsn)
    (h2 : s'.buf = s.buf) (h3 : s'.bufFree = s.bufFree) (h4 : s'.writeLsn = s.writeLsn)
    (h5 : s'.written = s.written) (h6 : s'.writtenEnd = s.writtenEnd) (h7 : s'.group = s.group)
    (h8 : s'.logFiles = s.logFiles) : RecGroupInv bs s' where
  lsn_mem := h1 ▸ h.lsn_mem
  le_lsn := h1 ▸ h.le_lsn
  buf := ⟨by rw [h2, h3]; exact h.buf.dataLen, by rw [h1, h2, h3]; exact h.buf.firstRecGroup⟩
  written_lt := by rw [h4, h5]; exact h.written_lt
  files := by unfold FilesRecGroups; rw [h4, h5, h6, h7, h8]; exact h.files

/-- A step that leaves `lsn` records no new boundary. -/
theorem RecGroupInv.cons (h : RecGroupInv bs s) : RecGroupInv (s.lsn :: bs) s :=
  ⟨List.mem_cons_self _ _, fun y hy => (List.mem_cons.mp hy).elim (fun e => e.le) (h.le_lsn y),
    h.buf.cons_mem h.lsn_mem, h.written_lt, h.files.cons (.inr h.lsn_mem)⟩

/-- A step that changes nothing the invariant reads keeps it, with no new boundary. -/
theorem RecGroupInv.of_frame {s' : LogSys} (h : RecGroupInv bs s) (h1 : s'.lsn = s.lsn)
    (h2 : s'.buf = s.buf) (h3 : s'.bufFree = s.bufFree) (h4 : s'.writeLsn = s.writeLsn)
    (h5 : s'.written = s.written) (h6 : s'.writtenEnd = s.writtenEnd) (h7 : s'.group = s.group)
    (h8 : s'.logFiles = s.logFiles) : RecGroupInv (s'.lsn :: bs) s' :=
  (h.of_eq h1 h2 h3 h4 h5 h6 h7 h8).cons

/-- **A mini-transaction keeps the invariant**, with the boundary its `log_close` returns. -/
theorem RecGroupInv.mtrWrite (hc : BufferCore s) (h : RecGroupInv bs s) (strs : List (List UInt8))
    (bufPoolOldest : ℕ) :
    RecGroupInv ((mtrWrite s strs bufPoolOldest).lsn :: bs) (mtrWrite s strs bufPoolOldest) := by
  have ha := appendStep_mtrWrite hc strs bufPoolOldest
  have hfr := ha.frame
  have hlsn : s.lsn ≤ (RedoLog.mtrWrite s strs bufPoolOldest).lsn := by have := ha.lsn_eq; omega
  have hwl := hc.writeLsn_le
  have hy : s.writeLsn < (RedoLog.mtrWrite s strs bufPoolOldest).lsn ∨
      (RedoLog.mtrWrite s strs bufPoolOldest).lsn ∈ bs := by
    by_cases e : (RedoLog.mtrWrite s strs bufPoolOldest).lsn = s.lsn
    · exact .inr (e ▸ h.lsn_mem)
    · exact .inl (by omega)
  have hfiles := h.files.cons hy
  refine ⟨List.mem_cons_self _ _, fun y hy => ?_, h.buf.mtrWrite hc h.le_lsn strs bufPoolOldest,
    by rw [hfr]; exact h.written_lt, by rw [hfr]; exact hfiles⟩
  rcases List.mem_cons.mp hy with rfl | hy
  exacts [le_rfl, (h.le_lsn y hy).trans hlsn]

theorem RecGroupInv.logWriteUpToWrite {cfg : Config} (hb : BufferInv s) (h : RecGroupInv bs s) :
    RecGroupInv bs (logWriteUpToWrite cfg s) := by
  have hc := hb.toBufferCore
  have hbuf : BufRecGroups bs (RedoLog.logWriteUpToWrite cfg s) := h.buf.logWriteUpToWrite hc
  have hfiles : FilesRecGroups bs (RedoLog.logWriteUpToWrite cfg s) :=
    h.files.logWriteUpToWrite hc h.buf h.le_lsn h.written_lt
  have hwl := hc.writeLsn_le
  rw [RedoLog.logWriteUpToWrite_eq] at hbuf hfiles ⊢
  refine ⟨h.lsn_mem, h.le_lsn, hbuf, fun y hy => ?_, hfiles⟩
  dsimp only at hy ⊢
  rcases Bool.or_eq_true_iff.mp hy with hy | hy
  · exact (h.written_lt y hy).trans_le hwl
  · simp only [writeRange, decide_eq_true_eq] at hy; exact hy.2

theorem RecGroupInv.logWriteUpToLocked {cfg : Config} (hb : BufferInv s) (h : RecGroupInv bs s)
    (flush : Bool) : RecGroupInv bs (logWriteUpToLocked cfg s flush) := by
  unfold RedoLog.logWriteUpToLocked
  split
  · exact RecGroupInv.logWriteUpToWrite (hb.of_eq rfl rfl rfl rfl rfl rfl rfl rfl)
      (h.of_eq rfl rfl rfl rfl rfl rfl rfl rfl : RecGroupInv bs (logWriteUpToClaim s))
  · exact h.logWriteUpToWrite hb

theorem RecGroupInv.logBufferExtendMove {cfg : Config} (hc : BufferCore s) (h : RecGroupInv bs s)
    (len : ℕ) : RecGroupInv bs (logBufferExtendMove cfg s len) :=
  ⟨h.lsn_mem, h.le_lsn, h.buf.logBufferExtendMove hc len, h.written_lt, h.files⟩

end Inv

/-! ### Over every run -/

section Runs

variable {cfg : Config} {bs : List ℕ}

theorem FrameStep.recGroupInv {s s' : LogSys} {f f' : Frame} (hs : FrameStep cfg s f s' f')
    (hb : BufferInv s) (h : RecGroupInv bs s) : RecGroupInv (s'.lsn :: bs) s' := by
  cases hs with
  | appendWrite => exact h.mtrWrite hb.toBufferCore _ _
  | checkpointNames => exact h.mtrWrite hb.toBufferCore _ _
  | lockedWrite => exact (h.logWriteUpToLocked hb _).cons
  | extendMove =>
    have hb' : BufferInv { s with isExtending := true } := hb.of_eq rfl rfl rfl rfl rfl rfl rfl rfl
    have h' : RecGroupInv bs { s with isExtending := true } := h.of_eq rfl rfl rfl rfl rfl rfl rfl rfl
    exact (h'.logBufferExtendMove hb'.toBufferCore _).cons
  | checkpointIssue =>
    rw [logWriteCheckpointInfo_eq]; exact h.of_frame rfl rfl rfl rfl rfl rfl rfl rfl
  | fsync | assign | decrement | setEvent | extendWait | marginCheck | marginRetry =>
    exact h.of_frame rfl rfl rfl rfl rfl rfl rfl rfl
  | _ => exact h.cons

theorem Step.recGroupInv {w w' : World} (hs : Step cfg w w') (hb : BufferInv w.log)
    (h : RecGroupInv bs w.log) : RecGroupInv (w'.log.lsn :: bs) w'.log := by
  cases hs with
  | call => exact h.cons
  | run _ hf => exact hf.recGroupInv hb h
  | land => exact h.of_frame rfl rfl rfl rfl rfl rfl rfl rfl
  | complete => rw [logIoCompleteCheckpoint_eq]; exact h.of_frame rfl rfl rfl rfl rfl rfl rfl rfl

/-- The runs with their record-group boundaries: the LSN of the first state, where `log_init`
starts the first group, and the LSN of every later state, which only `log_close` moves. -/
inductive Boundaries (cfg : Config) : World → List ℕ → Prop
  | init {w : World} : w.IsInitial cfg → Boundaries cfg w [w.log.lsn]
  | step {w w' : World} {bs : List ℕ} : Boundaries cfg w bs → Step cfg w w' →
      Boundaries cfg w' (w'.log.lsn :: bs)

theorem Boundaries.reachable {w : World} (h : Boundaries cfg w bs) : Reachable cfg w := by
  induction h with
  | init hi => exact .init hi
  | step _ hs ih => exact ih.step hs

/-- Every run has its boundaries. -/
theorem Reachable.exists_boundaries {w : World} (h : Reachable cfg w) : ∃ bs, Boundaries cfg w bs := by
  induction h with
  | init hi => exact ⟨_, .init hi⟩
  | step _ hs ih =>
    obtain ⟨bs, hb⟩ := ih
    exact ⟨_, hb.step hs⟩

/-- The boundaries are the LSNs `log_close` returns: a step leaves `lsn` alone, or runs a
mini-transaction whose `log_close` returns the new `lsn`. -/
theorem Step.lsn_eq_or_logClose {w w' : World} (hs : Step cfg w w') :
    w'.log.lsn = w.log.lsn ∨ ∃ strs bufPoolOldest,
      w'.log = mtrWrite w.log strs bufPoolOldest ∧
        w'.log.lsn = (logClose (strs.foldl logWriteLow w.log) bufPoolOldest).2 := by
  cases hs with
  | call => exact .inl rfl
  | run _ hf =>
    rcases hf.margin_cases with hm | ⟨strs, bpo, rfl⟩ | rfl | rfl
    · exact .inl hm.lsn
    · exact .inr ⟨strs, bpo, rfl, rfl⟩
    · exact .inl rfl
    · exact .inl rfl
  | land => exact .inl rfl
  | complete => rw [logIoCompleteCheckpoint_eq]; exact .inl rfl

/-- `log_init` leaves one block, whose `first_rec_group` is `LOG_BLOCK_HDR_SIZE`, where the first
group starts, and nothing written. -/
theorem recGroupInv_of_isInitial {s : LogSys} (hi : IsInitial cfg s) : RecGroupInv [s.lsn] s := by
  obtain ⟨_, _, _, _, _, _, _, hs⟩ := hi
  obtain ⟨-, -, -, -, -, -, -, rfl⟩ := logCalcMaxAges_eq_some hs
  refine ⟨List.mem_singleton_self _, fun y hy => (List.mem_singleton.mp hy).le,
    ⟨?_, fun b hb hlo hhi => ?_⟩, fun _ h => absurd h Bool.false_ne_true,
    fun _ _ h => absurd h Bool.false_ne_true⟩
  · simp only [logInit]; decide
  · simp only [logInit, logStartLsn, logBlockHdrSize, osFileLogBlockSize] at hb hlo hhi ⊢
    obtain rfl : b = 8192 := by omega
    decide

theorem recGroupInv_of_boundaries {w : World} (h : Boundaries cfg w bs) : RecGroupInv bs w.log := by
  induction h with
  | init hi => exact recGroupInv_of_isInitial hi.1
  | step hb hs ih => exact hs.recGroupInv hb.reachable.bufferInv ih

/-- **`first_rec_group` marks where record groups start.** In every state of every run, with `bs`
the run's record-group boundaries: every block of the buffer, at an LSN `b` from
`lsn - buf_free` to `lsn`, holds in `first_rec_group` the offset of the smallest boundary in its
payload, or `0` when there is none; and every block of the files that a write carried, and that
no later write wrapped onto, holds the same for the boundaries up to `write_lsn`, which are those
that existed when the block was last written. -/
theorem firstRecGroup_of_boundaries {w : World} (h : Boundaries cfg w bs) :
    (∀ b, b % osFileLogBlockSize = 0 → w.log.lsn - w.log.bufFree ≤ b → b ≤ w.log.lsn →
      logBlockGetFirstRecGroup w.log.buf (b - (w.log.lsn - w.log.bufFree)) = firstRecGroupOf bs b) ∧
    (∀ b, b % osFileLogBlockSize = 0 → w.log.written b = true →
      w.log.writtenEnd ≤ b + logGroupGetCapacity w.log.group →
      logBlockGetFirstRecGroup w.log.logFiles (logGroupCalcLsnOffset w.log.group b) =
        firstRecGroupOf (bs.filter (· ≤ w.log.writeLsn)) b) :=
  ⟨(recGroupInv_of_boundaries h).buf.firstRecGroup, (recGroupInv_of_boundaries h).files⟩

/-- A run of the default deployment: thread `0` appends one byte and writes it with
`log_write_up_to(8205, false)`; the block at LSN `8192` holds its field in the buffer and in the
files. -/
theorem defaultWorld_firstRecGroup : ∃ (w : World) (bs : List ℕ),
    Boundaries (defaultConfig .fsync) w bs ∧
      logBlockGetFirstRecGroup w.log.buf (8192 - (w.log.lsn - w.log.bufFree)) =
        firstRecGroupOf bs 8192 ∧
      logBlockGetFirstRecGroup w.log.logFiles (logGroupCalcLsnOffset w.log.group 8192) =
        firstRecGroupOf (bs.filter (· ≤ w.log.writeLsn)) 8192 := by
  have r0 : Boundaries (defaultConfig .fsync) _ _ := .init (defaultWorld_isInitial .fsync)
  have r1 := r0.step (.call 0 rfl (.append 1 [[7]]))
  have r2 := r1.step (.run 0 (.appendWrite 0 (by decide) (by decide)))
  have r3 := r2.step (.call 0 rfl (.writeUpTo 8205 false))
  have r4 := r3.step (.run 0 (.dirtyLock (by decide)))
  have r5 := r4.step (.run 0 (.lockedWrite (by decide) (by decide) (by decide)))
  exact ⟨_, _, r5, (firstRecGroup_of_boundaries r5).1 8192 (by decide) (by decide) (by decide),
    (firstRecGroup_of_boundaries r5).2 8192 (by decide) (by decide) (by decide)⟩

end Runs

end RedoLog

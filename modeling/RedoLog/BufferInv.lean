import RedoLog.Writer

/-!
# The buffer invariant

The representation invariant of the log buffer: where the two cursors may stand, how they relate
to `lsn` and `write_lsn`, and that the buffer holds, at the offset its LSN maps to, every log byte
appended and not yet written. The offset of LSN `y` is `y - (lsn - buf_free)`: offset 0 of the
buffer stands for the LSN `lsn - buf_free`, a block boundary.

Each operation on the buffer keeps the invariant: an append that passed the reservation check
(`mtrWrite_bufferInv`), the write of `log_write_up_to` with its compaction
(`logWriteUpToWrite_bufferInv`), and the reallocation of `log_buffer_extend` once every block but
the last is written (`logBufferExtendMove_bufferInv`). `RedoLog.Runs` puts them together over
every run.

A single pass of `log_write_low` keeps everything but the bound `buf_free ≤ buf_size`, which
`log_reserve_and_open` guarantees for the whole mini-transaction: `BufferCore` is the invariant
without that bound, and the accounting of `payloadPos` bounds how far a mini-transaction moves
`buf_free`.
-/

namespace RedoLog

/-- The buffer invariant without the bound on `buf_free`. -/
structure BufferCore (s : LogSys) : Prop where
  nbw_le : s.bufNextToWrite ≤ s.bufFree
  writeLsn_le : s.writeLsn ≤ s.lsn
  free_le_lsn : s.bufFree ≤ s.lsn
  lsn_sub : s.lsn - s.writeLsn = s.bufFree - s.bufNextToWrite
  lsn_mod : s.lsn % osFileLogBlockSize = s.bufFree % osFileLogBlockSize
  write_mod : s.writeLsn % osFileLogBlockSize = s.bufNextToWrite % osFileLogBlockSize
  hdr_le : logBlockHdrSize ≤ s.bufFree % osFileLogBlockSize
  lt_trl : s.bufFree % osFileLogBlockSize < osFileLogBlockSize - logBlockTrlSize
  /-- Every payload byte appended and not yet written is in the buffer. -/
  content : ∀ y, IsPayloadOffset y → utCalcAlignDown s.writeLsn osFileLogBlockSize ≤ y →
    y < s.lsn → s.buf (y - (s.lsn - s.bufFree)) = s.appended y
  /-- The anchor of the group the buffer is written to. -/
  anchor : s.group.AnchorOk

/-- The buffer invariant. -/
structure BufferInv (s : LogSys) extends BufferCore s : Prop where
  free_le : s.bufFree ≤ s.bufSize

/-! ### Arithmetic of the cursors -/

/-- The arithmetic fields of `BufferCore`, on the four numbers they relate, with the block sizes
written out. Each operation moves the numbers in one of four ways, each a lemma below; the proofs
about the operations cite them and leave `omega` only small contexts. -/
structure CursorArith (lsn writeLsn bufFree nbw : ℕ) : Prop where
  nbw_le : nbw ≤ bufFree
  writeLsn_le : writeLsn ≤ lsn
  free_le_lsn : bufFree ≤ lsn
  lsn_sub : lsn - writeLsn = bufFree - nbw
  lsn_mod : lsn % 512 = bufFree % 512
  write_mod : writeLsn % 512 = nbw % 512
  hdr_le : 12 ≤ bufFree % 512
  lt_trl : bufFree % 512 < 508

namespace CursorArith

variable {lsn writeLsn bufFree nbw : ℕ} (h : CursorArith lsn writeLsn bufFree nbw)
include h

/-- An append that stays inside the block of `buf_free`. -/
theorem append {k : ℕ} (hk : bufFree % osFileLogBlockSize + k < osFileLogBlockSize - logBlockTrlSize) :
    CursorArith (lsn + k) writeLsn (bufFree + k) nbw := by
  simp only [osFileLogBlockSize, logBlockTrlSize] at hk
  have hmod : (bufFree + k) % 512 = bufFree % 512 + k := by omega
  refine ⟨h.nbw_le.trans (Nat.le_add_right _ _), h.writeLsn_le.trans (Nat.le_add_right _ _),
    Nat.add_le_add_right h.free_le_lsn k, ?_, ?_, h.write_mod, ?_, by omega⟩
  · rw [Nat.sub_add_comm h.writeLsn_le, Nat.sub_add_comm h.nbw_le, h.lsn_sub]
  · rw [Nat.add_mod, h.lsn_mod, ← Nat.add_mod]
  · have := h.hdr_le; omega

/-- An append that fills the block of `buf_free` and steps over its trailer and the next header. -/
theorem append_full {k : ℕ}
    (hk : bufFree % osFileLogBlockSize + k = osFileLogBlockSize - logBlockTrlSize) :
    CursorArith (lsn + (k + logBlockHdrSize + logBlockTrlSize)) writeLsn
      (bufFree + (k + logBlockHdrSize + logBlockTrlSize)) nbw := by
  have hmod : (bufFree + (k + logBlockHdrSize + logBlockTrlSize)) % 512 = 12 := by
    simp only [osFileLogBlockSize, logBlockTrlSize, logBlockHdrSize] at hk ⊢; omega
  refine ⟨h.nbw_le.trans (Nat.le_add_right _ _), h.writeLsn_le.trans (Nat.le_add_right _ _),
    Nat.add_le_add_right h.free_le_lsn _, ?_, ?_, h.write_mod, hmod.ge, by omega⟩
  · rw [Nat.sub_add_comm h.writeLsn_le, Nat.sub_add_comm h.nbw_le, h.lsn_sub]
  · rw [Nat.add_mod, h.lsn_mod, ← Nat.add_mod]

/-- A write catches `write_lsn` up with `lsn`, and the flush cursor with `buf_free`. -/
theorem write : CursorArith lsn lsn bufFree bufFree :=
  ⟨le_rfl, le_rfl, h.free_le_lsn, by rw [Nat.sub_self, Nat.sub_self], h.lsn_mod, h.lsn_mod,
    h.hdr_le, h.lt_trl⟩

/-- Both buffer cursors move back by the same whole number of blocks. -/
theorem sub_block {a : ℕ} (ha : a % 512 = 0) (hN : a ≤ nbw) :
    CursorArith lsn writeLsn (bufFree - a) (nbw - a) := by
  have hF : (bufFree - a) % 512 = bufFree % 512 := by have := h.nbw_le; omega
  have hN' : (nbw - a) % 512 = nbw % 512 := by omega
  refine ⟨Nat.sub_le_sub_right h.nbw_le a, h.writeLsn_le, (Nat.sub_le _ _).trans h.free_le_lsn,
    ?_, hF ▸ h.lsn_mod, hN' ▸ h.write_mod, hF ▸ h.hdr_le, hF ▸ h.lt_trl⟩
  rw [Nat.sub_sub_sub_cancel_right hN, h.lsn_sub]

/-- Where an LSN `y` of the block of `lsn` stands when both buffer cursors move back to the start
of their block: `j` bytes past offset 0, inside the bytes that move. -/
theorem offset_sub_block {y : ℕ} (hy1 : lsn - lsn % 512 ≤ y) (hy2 : y < lsn) :
    y - (lsn - (bufFree - (bufFree - bufFree % 512))) =
        0 + (y - (lsn - bufFree) - (bufFree - bufFree % 512)) ∧
      y - (lsn - bufFree) - (bufFree - bufFree % 512) < bufFree - (bufFree - bufFree % 512) ∧
      bufFree - bufFree % 512 ≤ y - (lsn - bufFree) ∧ lsn - bufFree ≤ y := by
  have := h.free_le_lsn; have := Nat.mod_le bufFree 512
  -- the bytes that move start `bufFree % 512` bytes before `lsn`
  have hr : bufFree - (bufFree - bufFree % 512) = bufFree % 512 := Nat.sub_sub_self (Nat.mod_le _ _)
  have hs : lsn - bufFree + (bufFree - bufFree % 512) = lsn - bufFree % 512 := by omega
  have hlo : lsn - bufFree % 512 ≤ y := h.lsn_mod ▸ hy1
  rw [hr, Nat.sub_sub, hs]
  exact ⟨(Nat.zero_add _).symm, by omega, by omega, by omega⟩

/-- The block of `write_lsn` is the block of the flush cursor, past the LSN of buffer offset 0. -/
theorem writeLsn_block : writeLsn - writeLsn % 512 = (lsn - bufFree) + (nbw - nbw % 512) := by
  have := h.write_mod; have := h.lsn_sub; have := h.nbw_le; have := h.writeLsn_le
  have := h.free_le_lsn
  omega

/-- With the flush cursor in the block of `buf_free`, `write_lsn` is in the block of `lsn`. -/
theorem writeLsn_alignDown (hr : bufFree - bufFree % 512 = nbw - nbw % 512) :
    writeLsn - writeLsn % 512 = lsn - lsn % 512 := by
  rw [h.writeLsn_block, ← hr]
  have := h.lsn_mod; have := h.free_le_lsn
  omega

end CursorArith

theorem BufferCore.arith {s : LogSys} (hc : BufferCore s) :
    CursorArith s.lsn s.writeLsn s.bufFree s.bufNextToWrite :=
  ⟨hc.nbw_le, hc.writeLsn_le, hc.free_le_lsn, hc.lsn_sub, hc.lsn_mod, hc.write_mod, hc.hdr_le,
    hc.lt_trl⟩

theorem BufferCore.of_arith {s : LogSys} (h : CursorArith s.lsn s.writeLsn s.bufFree s.bufNextToWrite)
    (content : ∀ y, IsPayloadOffset y → utCalcAlignDown s.writeLsn osFileLogBlockSize ≤ y →
      y < s.lsn → s.buf (y - (s.lsn - s.bufFree)) = s.appended y)
    (anchor : s.group.AnchorOk) : BufferCore s :=
  ⟨h.nbw_le, h.writeLsn_le, h.free_le_lsn, h.lsn_sub, h.lsn_mod, h.write_mod, h.hdr_le, h.lt_trl,
    content, anchor⟩

/-! ### One pass of `log_write_low` -/

/-- The bytes a pass copies: the rest of the string, or the rest of the block's payload. -/
def partLen (s : LogSys) (str : List UInt8) : ℕ :=
  min str.length (osFileLogBlockSize - logBlockTrlSize - s.bufFree % osFileLogBlockSize)

/-- Whether a pass fills its block. -/
def PartFull (s : LogSys) (str : List UInt8) : Prop :=
  osFileLogBlockSize - logBlockTrlSize ≤ s.bufFree % osFileLogBlockSize + str.length

instance (s : LogSys) (str : List UInt8) : Decidable (PartFull s str) :=
  inferInstanceAs (Decidable (_ ≤ _))

/-- What one pass of `log_write_low` does, with the part it copies and whether the block filled
named once. -/
theorem logWriteLowPart_eq (s : LogSys) (str : List UInt8)
    (h : s.bufFree % osFileLogBlockSize < osFileLogBlockSize - logBlockTrlSize) :
    logWriteLowPart s str =
      let k := partLen s str
      let block := utCalcAlignDown s.bufFree osFileLogBlockSize
      let buf := logBlockSetDataLen (Mem.write s.buf s.bufFree (str.take k)) block
        (s.bufFree % osFileLogBlockSize + k)
      let step := if PartFull s str then k + logBlockHdrSize + logBlockTrlSize else k
      ({ s with
        lsn := s.lsn + step
        buf := if PartFull s str then
            logBlockInit (logBlockSetCheckpointNo (logBlockSetDataLen buf block osFileLogBlockSize)
              block s.nextCheckpointNo) (block + osFileLogBlockSize) (s.lsn + step)
          else buf
        bufFree := s.bufFree + step
        appended := Mem.write s.appended s.lsn (str.take k) }, str.drop k) := by
  simp only [osFileLogBlockSize, logBlockTrlSize] at h
  unfold logWriteLowPart partLen PartFull
  simp only [osFileLogBlockSize, logBlockTrlSize, decide_eq_true_eq]
  by_cases hf : s.bufFree % 512 + str.length ≤ 512 - 4
  · by_cases he : s.bufFree % 512 + str.length = 512 - 4
    · have hk : min str.length (512 - 4 - s.bufFree % 512) = str.length := by omega
      simp only [hf, he, hk, if_true, le_refl]
    · have hk : min str.length (512 - 4 - s.bufFree % 512) = str.length := by omega
      have hn : ¬512 - 4 ≤ s.bufFree % 512 + str.length := by omega
      simp only [hf, he, hk, hn, if_true, if_false]
  · have hk : min str.length (512 - 4 - s.bufFree % 512) = 512 - s.bufFree % 512 - 4 := by omega
    have hn : 512 - 4 ≤ s.bufFree % 512 + str.length := by omega
    have hd : s.bufFree % 512 + (512 - s.bufFree % 512 - 4) = 512 - 4 := by omega
    simp only [hf, hk, hn, hd, if_true, if_false]

/-! ### Where the buffer stands -/

namespace BufferCore

variable {s : LogSys} (hc : BufferCore s)
include hc

/-- Offset 0 of the buffer stands for a block boundary. -/
theorem base_mod : (s.lsn - s.bufFree) % osFileLogBlockSize = 0 := by
  have := hc.lsn_mod; have := hc.free_le_lsn
  simp only [osFileLogBlockSize] at *; omega

/-- The flush cursor stands for `write_lsn`. -/
theorem writeLsn_sub : s.writeLsn - s.bufNextToWrite = s.lsn - s.bufFree := by
  have := hc.lsn_sub; have := hc.nbw_le; have := hc.writeLsn_le; have := hc.free_le_lsn
  omega

/-- The buffer stands for the LSNs from a block boundary `b`: `lsn` and `write_lsn` are `b` plus
`buf_free` and `buf_next_to_write`. -/
theorem exists_base : ∃ b, b % osFileLogBlockSize = 0 ∧
    s.lsn = b + s.bufFree ∧ s.writeLsn = b + s.bufNextToWrite := by
  have := hc.lsn_sub; have := hc.nbw_le; have := hc.writeLsn_le; have := hc.free_le_lsn
  exact ⟨_, hc.base_mod, by omega, by omega⟩

theorem base_le_alignDown : s.lsn - s.bufFree ≤ utCalcAlignDown s.writeLsn osFileLogBlockSize := by
  have := hc.base_mod; have := hc.writeLsn_sub; have := hc.nbw_le; have := hc.writeLsn_le
  have := hc.free_le_lsn
  simp only [utCalcAlignDown_eq, osFileLogBlockSize] at *; omega

end BufferCore

/-- Moving by a block boundary keeps an offset's place in its block. -/
theorem isPayloadOffset_sub {y b : ℕ} (hb : b % osFileLogBlockSize = 0) (h : b ≤ y) :
    IsPayloadOffset (y - b) ↔ IsPayloadOffset y := by
  have : (y - b) % osFileLogBlockSize = y % osFileLogBlockSize := by
    simp only [osFileLogBlockSize] at *; omega
  simp only [IsPayloadOffset, this]

/-- `memmove` reads back the bytes of its source range. -/
theorem Mem.move_add {m : Mem} {dst src n j : ℕ} (h : j < n) :
    Mem.move m dst src n (dst + j) = m (src + j) :=
  Mem.write_read_add h

/-! ### One pass of `log_write_low`, continued -/

/-- `s'` differs from `s` at most in what an append changes: `lsn`, the buffer, `buf_free`, the
appended bytes and `check_flush_or_checkpoint`. -/
def AppendFrame (s s' : LogSys) : Prop :=
  s' = { s with
    lsn := s'.lsn
    buf := s'.buf
    bufFree := s'.bufFree
    appended := s'.appended
    checkFlushOrCheckpoint := s'.checkFlushOrCheckpoint }

@[refl] theorem AppendFrame.refl (s : LogSys) : AppendFrame s s := rfl

@[trans] theorem AppendFrame.trans {s₁ s₂ s₃ : LogSys} (h₁ : AppendFrame s₁ s₂)
    (h₂ : AppendFrame s₂ s₃) : AppendFrame s₁ s₃ := by
  unfold AppendFrame at *; rw [h₁] at h₂; exact h₂

/-- Where a cursor stands among the payload bytes: the cursor less the header and trailer of
every block before it. On cursors inside a block's payload it counts the payload bytes before
the cursor, so each pass of `log_write_low` moves it by exactly the bytes it copies. -/
def payloadPos (p : ℕ) : ℕ :=
  p - (logBlockHdrSize + logBlockTrlSize) * (p / osFileLogBlockSize)

theorem partLen_le_length {s : LogSys} {str : List UInt8} : partLen s str ≤ str.length :=
  Nat.min_le_left _ _

theorem length_take_partLen {s : LogSys} {str : List UInt8} :
    (str.take (partLen s str)).length = partLen s str := by
  simp only [List.length_take]; exact Nat.min_eq_left partLen_le_length

theorem partLen_of_not_full {s : LogSys} {str : List UInt8} (hf : ¬PartFull s str) :
    partLen s str = str.length := by
  unfold partLen PartFull at *; simp only [osFileLogBlockSize, logBlockTrlSize] at *; omega

/-- A pass of `log_write_low` changes only what an append changes. -/
theorem appendFrame_logWriteLowPart (s : LogSys) (str : List UInt8) :
    AppendFrame s (logWriteLowPart s str).1 := by
  unfold logWriteLowPart AppendFrame; dsimp only; split_ifs <;> rfl

theorem appendFrame_logWriteLowLoop (fuel : ℕ) (s : LogSys) (str : List UInt8) :
    AppendFrame s (logWriteLowLoop fuel s str) := by
  induction fuel generalizing s str with
  | zero => rfl
  | succ fuel ih =>
    rw [logWriteLowLoop]
    split
    exacts [appendFrame_logWriteLowPart s str, (appendFrame_logWriteLowPart s str).trans (ih _ _)]

theorem appendFrame_foldl_logWriteLow (strs : List (List UInt8)) (s : LogSys) :
    AppendFrame s (strs.foldl logWriteLow s) := by
  induction strs generalizing s with
  | nil => rfl
  | cons str strs ih => exact (appendFrame_logWriteLowLoop _ s str).trans (ih _)

/-- A mini-transaction changes only what an append changes, whatever the state it starts from. -/
theorem appendFrame_mtrWrite (s : LogSys) (strs : List (List UInt8)) (bufPoolOldest : ℕ) :
    AppendFrame s (mtrWrite s strs bufPoolOldest) :=
  (appendFrame_foldl_logWriteLow strs s).trans rfl

section Part

variable {s : LogSys} {str : List UInt8} (hc : BufferCore s)
include hc

/-- A pass that fills its block copies the rest of the block's payload. -/
theorem partLen_of_full (hf : PartFull s str) :
    s.bufFree % osFileLogBlockSize + partLen s str = osFileLogBlockSize - logBlockTrlSize := by
  have := hc.lt_trl
  unfold partLen PartFull at *; simp only [osFileLogBlockSize, logBlockTrlSize] at *; omega

theorem logWriteLowPart_snd : (logWriteLowPart s str).2 = str.drop (partLen s str) := by
  rw [logWriteLowPart_eq s str hc.lt_trl]


/-- A pass moves `lsn` and `buf_free` together. -/
theorem logWriteLowPart_lsn :
    (logWriteLowPart s str).1.lsn = s.lsn + ((logWriteLowPart s str).1.bufFree - s.bufFree) ∧
      s.bufFree ≤ (logWriteLowPart s str).1.bufFree := by
  rw [logWriteLowPart_eq s str hc.lt_trl]; dsimp only; omega

theorem logWriteLowPart_payloadPos :
    payloadPos (logWriteLowPart s str).1.bufFree = payloadPos s.bufFree + partLen s str := by
  have := hc.lt_trl
  rw [logWriteLowPart_eq s str hc.lt_trl]
  dsimp only
  unfold payloadPos
  split_ifs with hf
  · have := partLen_of_full hc hf
    simp only [osFileLogBlockSize, logBlockTrlSize, logBlockHdrSize] at *; omega
  · have : s.bufFree % osFileLogBlockSize + partLen s str < osFileLogBlockSize - logBlockTrlSize := by
      rw [partLen_of_not_full hf]; unfold PartFull at hf; omega
    simp only [osFileLogBlockSize, logBlockTrlSize, logBlockHdrSize] at *; omega

/-- Appending `part` at `buf_free`, with header and trailer stamps besides, puts every appended
payload byte at its offset. -/
theorem BufferCore.content_write {part : List UInt8} {buf' : Mem}
    (hbuf : SamePayload (Mem.write s.buf s.bufFree part) buf') {y : ℕ} (hy : IsPayloadOffset y)
    (hlo : utCalcAlignDown s.writeLsn osFileLogBlockSize ≤ y) (hhi : y < s.lsn + part.length) :
    buf' (y - (s.lsn - s.bufFree)) = Mem.write s.appended s.lsn part y := by
  have hb := hc.base_le_alignDown
  have hfl := hc.free_le_lsn
  rw [hbuf _ ((isPayloadOffset_sub hc.base_mod (by omega)).mpr hy)]
  by_cases hlt : y < s.lsn
  · rw [Mem.write_of_lt _ (by omega), Mem.write_of_lt _ hlt, hc.content y hy hlo hlt]
  · have h1 : y - (s.lsn - s.bufFree) = s.bufFree + (y - s.lsn) := by omega
    have h2 : y = s.lsn + (y - s.lsn) := by omega
    rw [h1, Mem.write_add (by omega)]
    conv_rhs => rw [h2]
    rw [Mem.write_add (by omega)]

/-- **One pass of `log_write_low`** keeps the buffer invariant, but for the bound on
`buf_free`. -/
theorem logWriteLowPart_core : BufferCore (logWriteLowPart s str).1 := by
  have hk : (str.take (partLen s str)).length = partLen s str := length_take_partLen
  have hb : utCalcAlignDown s.bufFree osFileLogBlockSize % osFileLogBlockSize = 0 :=
    utCalcAlignDown_mod _ _
  have hb' : (utCalcAlignDown s.bufFree osFileLogBlockSize + osFileLogBlockSize) %
      osFileLogBlockSize = 0 := by rw [Nat.add_mod_right, hb]
  rw [logWriteLowPart_eq s str hc.lt_trl]
  dsimp only
  by_cases hf : PartFull s str
  · have hfull := partLen_of_full hc hf
    simp only [if_pos hf]
    refine .of_arith (hc.arith.append_full hfull) (fun y hy hlo hhi => ?_) hc.anchor
    rw [Nat.add_sub_add_right]
    refine hc.content_write ((((samePayload_logBlockSetDataLen hb _).trans
      (samePayload_logBlockSetDataLen hb _)).trans (samePayload_logBlockSetCheckpointNo hb _)).trans
      (samePayload_logBlockInit hb' _)) hy hlo ?_
    -- the trailer after the part and the header of the next block are not payload
    have hmod := hc.lsn_mod
    unfold IsPayloadOffset at hy
    simp only [osFileLogBlockSize, logBlockTrlSize, logBlockHdrSize] at hy hmod hfull hhi
    omega
  · have hk' := partLen_of_not_full hf
    simp only [if_neg hf]
    have hlt : s.bufFree % osFileLogBlockSize + partLen s str < osFileLogBlockSize - logBlockTrlSize := by
      rw [hk']; unfold PartFull at hf; omega
    refine .of_arith (hc.arith.append hlt) (fun y hy hlo hhi => ?_) hc.anchor
    rw [Nat.add_sub_add_right]
    exact hc.content_write (samePayload_logBlockSetDataLen hb _) hy hlo (by dsimp only at hhi; omega)

end Part

/-! ### A mini-transaction -/

/-- What appending `n` bytes or fewer does to a state that has the invariant but for the bound:
it keeps that invariant, changes only what an append changes, moves `lsn` with `buf_free`, and
moves `payloadPos` by at most `n`. -/
structure AppendStep (s s' : LogSys) (n : ℕ) : Prop where
  core : BufferCore s'
  frame : AppendFrame s s'
  lsn_eq : s'.lsn = s.lsn + (s'.bufFree - s.bufFree)
  free_le : s.bufFree ≤ s'.bufFree
  payloadPos_le : payloadPos s'.bufFree ≤ payloadPos s.bufFree + n
  /-- The bytes appended before are kept. -/
  appended_of_lt : ∀ y < s.lsn, s'.appended y = s.appended y

namespace AppendStep

variable {s₁ s₂ s₃ : LogSys} {n m : ℕ}

theorem refl (hc : BufferCore s₁) : AppendStep s₁ s₁ 0 :=
  ⟨hc, .refl _, by omega, le_refl _, by omega, fun _ _ => rfl⟩

theorem mono (h : AppendStep s₁ s₂ n) (hnm : n ≤ m) : AppendStep s₁ s₂ m :=
  { h with payloadPos_le := by have := h.payloadPos_le; omega }

theorem trans (h₁ : AppendStep s₁ s₂ n) (h₂ : AppendStep s₂ s₃ m) : AppendStep s₁ s₃ (n + m) := by
  have := h₁.lsn_eq; have := h₂.lsn_eq; have := h₁.free_le; have := h₂.free_le
  have := h₁.payloadPos_le; have := h₂.payloadPos_le
  exact ⟨h₂.core, h₁.frame.trans h₂.frame, by omega, by omega, by omega,
    fun y hy => (h₂.appended_of_lt y (by omega)).trans (h₁.appended_of_lt y hy)⟩

end AppendStep

theorem appendStep_logWriteLowPart {s : LogSys} (hc : BufferCore s) (str : List UInt8) :
    AppendStep s (logWriteLowPart s str).1 (partLen s str) :=
  ⟨logWriteLowPart_core hc, appendFrame_logWriteLowPart s str, (logWriteLowPart_lsn hc).1,
    (logWriteLowPart_lsn hc).2, (logWriteLowPart_payloadPos hc).le,
    fun _ hy => by rw [logWriteLowPart_eq s str hc.lt_trl]; exact Mem.write_of_lt _ hy⟩

/-- The `part_loop` of `log_write_low` appends the string or less, whatever its fuel. -/
theorem appendStep_logWriteLowLoop (fuel : ℕ) {s : LogSys} (hc : BufferCore s) (str : List UInt8) :
    AppendStep s (logWriteLowLoop fuel s str) str.length := by
  induction fuel generalizing s str with
  | zero => exact (AppendStep.refl hc).mono (Nat.zero_le _)
  | succ fuel ih =>
    have hk : partLen s str ≤ str.length := partLen_le_length
    have hpart := appendStep_logWriteLowPart hc str
    rw [logWriteLowLoop]
    split
    · exact hpart.mono hk
    · have hl : (logWriteLowPart s str).2.length = str.length - partLen s str := by
        rw [logWriteLowPart_snd hc, List.length_drop]
      have := hpart.trans (ih hpart.core (logWriteLowPart s str).2)
      rwa [hl, Nat.add_sub_cancel' hk] at this

theorem appendStep_foldl_logWriteLow (strs : List (List UInt8)) {s : LogSys} (hc : BufferCore s) :
    AppendStep s (strs.foldl logWriteLow s) (strs.map List.length).sum := by
  induction strs generalizing s with
  | nil => exact AppendStep.refl hc
  | cons str strs ih =>
    have h := appendStep_logWriteLowLoop (str.length + 1) hc str
    simpa only [List.foldl_cons, List.map_cons, List.sum_cons] using h.trans (ih h.core)

/-- `log_close` only stamps the header of the current block. -/
theorem appendStep_logClose {s : LogSys} (hc : BufferCore s) (bufPoolOldest : ℕ) :
    AppendStep s (logClose s bufPoolOldest).1 0 := by
  have hb : utCalcAlignDown s.bufFree osFileLogBlockSize % osFileLogBlockSize = 0 :=
    utCalcAlignDown_mod _ _
  have hbuf : SamePayload s.buf (logClose s bufPoolOldest).1.buf := by
    unfold logClose; dsimp only
    split_ifs
    · exact samePayload_logBlockSetFirstRecGroup hb _
    · rfl
  refine ⟨{ hc with content := fun y hy hlo hhi => ?_ }, rfl, by simp [logClose], le_refl _,
    le_add_right (le_refl _), fun _ _ => rfl⟩
  simp only [logClose] at hhi hlo ⊢
  rw [← hc.content y hy hlo hhi]
  exact hbuf _ ((isPayloadOffset_sub hc.base_mod (by have := hc.base_le_alignDown; omega)).mpr hy)

/-- **An append keeps the buffer invariant.** A mini-transaction whose strings total at most the
`len` that `log_reserve_and_open(len)` reserved stays inside the buffer. -/
theorem appendStep_mtrWrite {s : LogSys} (hc : BufferCore s) (strs : List (List UInt8))
    (bufPoolOldest : ℕ) : AppendStep s (mtrWrite s strs bufPoolOldest) (strs.map List.length).sum := by
  have h := appendStep_foldl_logWriteLow strs hc
  exact h.trans (appendStep_logClose h.core bufPoolOldest)

/-- A pass with bytes to copy moves `buf_free` forward. -/
theorem bufFree_lt_logWriteLowPart {s : LogSys} (hc : BufferCore s) {str : List UInt8}
    (hne : str ≠ []) : s.bufFree < (logWriteLowPart s str).1.bufFree := by
  have hpos : payloadPos (logWriteLowPart s str).1.bufFree = payloadPos s.bufFree + partLen s str :=
    logWriteLowPart_payloadPos hc
  have hle : s.bufFree ≤ (logWriteLowPart s str).1.bufFree := (logWriteLowPart_lsn hc).2
  have hk : 0 < partLen s str := by
    have := hc.lt_trl; have := List.length_pos.mpr hne
    unfold partLen; simp only [osFileLogBlockSize, logBlockTrlSize] at *; omega
  by_contra h
  rw [show (logWriteLowPart s str).1.bufFree = s.bufFree by omega] at hpos
  omega

theorem bufFree_lt_logWriteLow {s : LogSys} (hc : BufferCore s) {str : List UInt8}
    (hne : str ≠ []) : s.bufFree < (logWriteLow s str).bufFree := by
  have h := bufFree_lt_logWriteLowPart hc hne
  rw [logWriteLow, logWriteLowLoop]
  split
  · exact h
  · exact h.trans_le (appendStep_logWriteLowLoop _ (logWriteLowPart_core hc) _).free_le

theorem bufFree_lt_foldl_logWriteLow {strs : List (List UInt8)} (hne : ∃ str ∈ strs, str ≠ [])
    {s : LogSys} (hc : BufferCore s) : s.bufFree < (strs.foldl logWriteLow s).bufFree := by
  induction strs generalizing s with
  | nil => simp at hne
  | cons str strs ih =>
    have h := appendStep_logWriteLowLoop (str.length + 1) hc str
    rw [List.foldl_cons]
    by_cases hs : str = []
    · have hne' : ∃ str ∈ strs, str ≠ [] := by
        obtain ⟨x, hx, hxne⟩ := hne
        exact ⟨x, (List.mem_cons.mp hx).resolve_left (by rintro rfl; exact hxne hs), hxne⟩
      exact h.free_le.trans_lt (ih hne' h.core)
    · exact (bufFree_lt_logWriteLow hc hs).trans_le (appendStep_foldl_logWriteLow strs h.core).free_le

/-- A mini-transaction with a byte to write moves `lsn` forward. -/
theorem lsn_lt_mtrWrite {s : LogSys} (hc : BufferCore s) {strs : List (List UInt8)}
    (hne : ∃ str ∈ strs, str ≠ []) (bufPoolOldest : ℕ) : s.lsn < (mtrWrite s strs bufPoolOldest).lsn := by
  have h := (appendStep_mtrWrite hc strs bufPoolOldest).lsn_eq
  have hlt := bufFree_lt_foldl_logWriteLow hne hc
  have : (mtrWrite s strs bufPoolOldest).bufFree = (strs.foldl logWriteLow s).bufFree := rfl
  omega

/-- A cursor that moved by at most `n` payload bytes moved by at most `5 n / 4` and a few blocks. -/
theorem bufFree_le_of_appendStep {s s' : LogSys} {n : ℕ} (hc : BufferCore s) (h : AppendStep s s' n) :
    s'.bufFree ≤ s.bufFree + logBufWriteMargin + 5 * n / 4 := by
  have := hc.hdr_le; have := hc.lt_trl; have := h.core.hdr_le; have := h.core.lt_trl
  have := h.free_le; have := h.payloadPos_le
  unfold payloadPos at *
  simp only [osFileLogBlockSize, logBlockTrlSize, logBlockHdrSize, logBufWriteMargin] at *
  omega

theorem mtrWrite_bufferInv {cfg : Config} {s : LogSys} (h : BufferInv s) {len : ℕ}
    (hr : ReserveFits cfg s len) {strs : List (List UInt8)} (hlen : (strs.map List.length).sum ≤ len)
    (bufPoolOldest : ℕ) : BufferInv (mtrWrite s strs bufPoolOldest) := by
  have ha := appendStep_mtrWrite h.toBufferCore strs bufPoolOldest
  have hb := bufFree_le_of_appendStep h.toBufferCore ha
  have hsize : (mtrWrite s strs bufPoolOldest).bufSize = s.bufSize := by rw [ha.frame]
  refine ⟨ha.core, ?_⟩
  have := hr.2
  unfold lenUpperLimit at this
  omega

/-! ### The write of `log_write_up_to` -/

theorem utCalcAlign_bufFree {s : LogSys} (hc : BufferCore s) :
    utCalcAlign s.bufFree osFileLogBlockSize =
      s.bufFree - s.bufFree % osFileLogBlockSize + osFileLogBlockSize := by
  have := hc.hdr_le
  exact utCalcAlign_eq_of_pos (by decide) (by simp only [logBlockHdrSize] at this; omega)

/-- The write stamps headers and trailers, and pads only past the last block: below the end of
that block, the buffer keeps its payload bytes. -/
theorem writeResult_payload {cfg : Config} {s : LogSys} (hc : BufferCore s) {i : ℕ}
    (hi : IsPayloadOffset i) (hlt : i < utCalcAlign s.bufFree osFileLogBlockSize) :
    (writeResult cfg s).2 i = s.buf i := by
  have hend := utCalcAlign_bufFree hc
  have hs : utCalcAlignDown s.writeLsn osFileLogBlockSize % osFileLogBlockSize = 0 :=
    utCalcAlignDown_mod _ _
  have hlast : (utCalcAlign s.bufFree osFileLogBlockSize - osFileLogBlockSize) %
      osFileLogBlockSize = 0 := by
    rw [hend]; simp only [osFileLogBlockSize]; omega
  rw [writeResult, samePayload_logGroupWriteBuf hc.anchor (utCalcAlignDown_mod _ _) hs _ hi,
    writeSource, Mem.fill, Mem.write_of_lt _ hlt]
  exact ((samePayload_logBlockSetFlushBit (utCalcAlignDown_mod _ _) true).trans
    (samePayload_logBlockSetCheckpointNo hlast _)) i hi

/-- **The write keeps the buffer invariant**, with or without the compaction of
`log_sys_write_completion`: the bytes still to keep are those of the last block, which the
compaction moves to the start of the buffer. -/
theorem logWriteUpToWrite_bufferInv {cfg : Config} {s : LogSys} (h : BufferInv s) :
    BufferInv (logWriteUpToWrite cfg s) := by
  have hc := h.toBufferCore
  have hL : utCalcAlignDown s.lsn osFileLogBlockSize = s.lsn - s.lsn % 512 := utCalcAlignDown_eq _ _
  have hF : utCalcAlignDown s.bufFree osFileLogBlockSize = s.bufFree - s.bufFree % 512 :=
    utCalcAlignDown_eq _ _
  have hend : utCalcAlign s.bufFree osFileLogBlockSize = s.bufFree - s.bufFree % 512 + 512 :=
    utCalcAlign_bufFree hc
  rw [logWriteUpToWrite_eq]
  dsimp only
  -- the bytes to keep: payload bytes from the block of `lsn` on
  have hkeep : ∀ y, IsPayloadOffset y → utCalcAlignDown s.lsn osFileLogBlockSize ≤ y → y < s.lsn →
      (writeResult cfg s).2 (y - (s.lsn - s.bufFree)) = s.appended y := by
    intro y hy hy1 hy2
    obtain ⟨-, -, -, hbase⟩ := hc.arith.offset_sub_block (hL.symm.trans_le hy1) hy2
    have hwl : utCalcAlignDown s.writeLsn osFileLogBlockSize ≤ y :=
      (Nat.mul_le_mul_right _ (Nat.div_le_div_right hc.writeLsn_le)).trans hy1
    rw [writeResult_payload hc ((isPayloadOffset_sub hc.base_mod hbase).mpr hy) (by omega),
      hc.content y hy hwl hy2]
  by_cases hcomp : writeCompacts s
  · simp only [if_pos hcomp]
    refine ⟨.of_arith (hc.arith.write.sub_block (utCalcAlignDown_mod _ _) (utCalcAlignDown_le _ _))
      (fun y hy hy1 hy2 => ?_) (hc.anchor.logGroupSetFields _), (Nat.sub_le _ _).trans h.free_le⟩
    dsimp only at hy1 hy2 ⊢
    obtain ⟨hj, hlt, hle, -⟩ := hc.arith.offset_sub_block (hL.symm.trans_le hy1) hy2
    rw [hF, hj, Mem.move_add (by omega), Nat.add_sub_cancel' hle]
    exact hkeep y hy hy1 hy2
  · simp only [if_neg hcomp]
    exact ⟨.of_arith hc.arith.write hkeep (hc.anchor.logGroupSetFields _), h.free_le⟩

/-! ### `log_buffer_extend` -/

/-- **The reallocation keeps the buffer invariant** once every block but the last is written:
the last block is all the buffer has to keep, and it moves to the start of the new buffer, which
is at least a page. -/
theorem logBufferExtendMove_bufferInv {cfg : Config} {s : LogSys} (h : BufferInv s)
    (hr : ExtendReady s) (len : ℕ) : BufferInv (logBufferExtendMove cfg s len) := by
  have hc := h.toBufferCore
  have hF : utCalcAlignDown s.bufFree osFileLogBlockSize = s.bufFree - s.bufFree % 512 :=
    utCalcAlignDown_eq _ _
  -- the last block is also the block of the flush cursor, hence of `write_lsn`
  have hW : utCalcAlignDown s.writeLsn osFileLogBlockSize = s.lsn - s.lsn % 512 :=
    (utCalcAlignDown_eq _ _).trans
      (hc.arith.writeLsn_alignDown (hF.symm.trans (Eq.trans hr (utCalcAlignDown_eq _ _))))
  have hpage : 512 ≤ cfg.logBufferSize (len / cfg.univPageSize + 1) := by
    unfold Config.logBufferSize
    calc 512 ≤ cfg.univPageSize := cfg.block_le_univPageSize
      _ ≤ (len / cfg.univPageSize + 1) * cfg.univPageSize := Nat.le_mul_of_pos_left _ (Nat.succ_pos _)
  refine ⟨.of_arith (hc.arith.sub_block (utCalcAlignDown_mod _ _)
    ((Eq.le hr).trans (utCalcAlignDown_le _ _))) (fun y hy hy1 hy2 => ?_) hc.anchor, ?_⟩
  · dsimp only [logBufferExtendMove] at hy1 hy2 ⊢
    obtain ⟨hj, hlt, hle, -⟩ := hc.arith.offset_sub_block (hW.symm.trans_le hy1) hy2
    rw [hF, hj, Mem.write_read_add hlt, Nat.add_sub_cancel' hle]
    exact hc.content y hy hy1 hy2
  · dsimp only [logBufferExtendMove]
    rw [hF]
    omega

end RedoLog

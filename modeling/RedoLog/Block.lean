import RedoLog.Basic

/-!
# The log block codec

The header and trailer accessors of a log block, `log_block_*` of `log0log.ic`. That file is not
in the sources, so each accessor is modelled from the spec's block layout (§6):

```
offset 0   : block number, 4 bytes, its high bit the flush flag
offset 4   : data length, 2 bytes
offset 6   : offset of the first record group starting in the block, 2 bytes
offset 8   : checkpoint number, 4 bytes
offset 12  : payload
offset 508 : checksum, 4 bytes
```

All fields are big-endian, as `mach_write_to_n` stores them. A block is addressed by the offset
`b` of its first byte in a byte memory; the code's blocks are always block-aligned.

## Main results

* `Mem.write_payload_of_header`, `Mem.write_payload_of_trailer` — a write inside a block's header
  or inside its trailer changes no payload byte. Every accessor below is such a write, and this is
  what lets the buffer proofs treat the stamps the writer puts on blocks as invisible to the log
  records themselves.
-/

namespace RedoLog

/-! ### Field offsets -/

/-- `LOG_BLOCK_HDR_NO`. -/
def logBlockHdrNo : ℕ := 0

/-- `LOG_BLOCK_HDR_DATA_LEN`. -/
def logBlockHdrDataLen : ℕ := 4

/-- `LOG_BLOCK_FIRST_REC_GROUP`. -/
def logBlockFirstRecGroup : ℕ := 6

/-- `LOG_BLOCK_CHECKPOINT_NO`. -/
def logBlockCheckpointNo : ℕ := 8

/-- `LOG_BLOCK_CHECKSUM`, counted back from the end of the block. -/
def logBlockChecksum : ℕ := 4

/-- `LOG_BLOCK_FLUSH_BIT_MASK`: the high bit of the block number field. -/
def logBlockFlushBitMask : ℕ := 2 ^ 31

/-! ### Accessors -/

/-- `log_block_convert_lsn_to_no`. Modelled from the spec (§4.1): the block's sequence number is
`1 + (lsn / block_size) mod 2^31`. -/
def logBlockConvertLsnToNo (lsn : ℕ) : ℕ := 1 + lsn / osFileLogBlockSize % 2 ^ 31

/-- `log_block_set_hdr_no`. -/
def logBlockSetHdrNo (m : Mem) (b n : ℕ) : Mem := m.machWrite (b + logBlockHdrNo) 4 n

/-- `log_block_get_hdr_no`: the block number without the flush bit. -/
def logBlockGetHdrNo (m : Mem) (b : ℕ) : ℕ := m.machRead (b + logBlockHdrNo) 4 % logBlockFlushBitMask

/-- `log_block_set_flush_bit`: read the number field, set or clear its high bit, write it back. -/
def logBlockSetFlushBit (m : Mem) (b : ℕ) (val : Bool) : Mem :=
  let field := m.machRead (b + logBlockHdrNo) 4
  m.machWrite (b + logBlockHdrNo) 4
    (if val then field % logBlockFlushBitMask + logBlockFlushBitMask else field % logBlockFlushBitMask)

/-- `log_block_set_data_len`. -/
def logBlockSetDataLen (m : Mem) (b len : ℕ) : Mem := m.machWrite (b + logBlockHdrDataLen) 2 len

/-- `log_block_get_data_len`. -/
def logBlockGetDataLen (m : Mem) (b : ℕ) : ℕ := m.machRead (b + logBlockHdrDataLen) 2

/-- `log_block_set_first_rec_group`. -/
def logBlockSetFirstRecGroup (m : Mem) (b off : ℕ) : Mem :=
  m.machWrite (b + logBlockFirstRecGroup) 2 off

/-- `log_block_get_first_rec_group`. -/
def logBlockGetFirstRecGroup (m : Mem) (b : ℕ) : ℕ := m.machRead (b + logBlockFirstRecGroup) 2

/-- `log_block_set_checkpoint_no`: the low 32 bits of the checkpoint number. -/
def logBlockSetCheckpointNo (m : Mem) (b no : ℕ) : Mem :=
  m.machWrite (b + logBlockCheckpointNo) 4 no

/-- `log_block_get_checkpoint_no`. -/
def logBlockGetCheckpointNo (m : Mem) (b : ℕ) : ℕ := m.machRead (b + logBlockCheckpointNo) 4

/-- `log_block_init`: a fresh header for the block that starts at LSN `lsn`. -/
def logBlockInit (m : Mem) (b lsn : ℕ) : Mem :=
  logBlockSetFirstRecGroup
    (logBlockSetDataLen (logBlockSetHdrNo m b (logBlockConvertLsnToNo lsn)) b logBlockHdrSize) b 0

/-- `log_block_set_checksum`. -/
def logBlockSetChecksum (m : Mem) (b c : ℕ) : Mem :=
  m.machWrite (b + osFileLogBlockSize - logBlockChecksum) 4 c

/-- `log_block_calc_checksum`, through the configured algorithm `alg` (the code's
`log_checksum_algorithm_ptr`): it reads the block up to its trailer. -/
def logBlockCalcChecksum (alg : List UInt8 → ℕ) (m : Mem) (b : ℕ) : ℕ :=
  alg (m.read b (osFileLogBlockSize - logBlockTrlSize))

/-- `log_block_store_checksum`. -/
def logBlockStoreChecksum (alg : List UInt8 → ℕ) (m : Mem) (b : ℕ) : Mem :=
  logBlockSetChecksum m b (logBlockCalcChecksum alg m b)

/-- `log_block_get_checksum`. Modelled from the spec (§6): the trailer is the block's last four
bytes. -/
def logBlockGetChecksum (m : Mem) (b : ℕ) : ℕ :=
  m.machRead (b + osFileLogBlockSize - logBlockChecksum) 4

/-- The block at `b` passes recovery's checksum test: its trailer holds the checksum of the
bytes before it, in the four bytes `log_block_set_checksum` writes. -/
def BlockChecksumOk (alg : List UInt8 → ℕ) (m : Mem) (b : ℕ) : Prop :=
  logBlockGetChecksum m b = logBlockCalcChecksum alg m b % 256 ^ 4

instance (alg : List UInt8 → ℕ) (m : Mem) (b : ℕ) : Decidable (BlockChecksumOk alg m b) :=
  inferInstanceAs (Decidable (_ = _))

/-! ### Block numbers -/

/-- Every LSN of a block has the number of the block's first LSN. -/
theorem logBlockConvertLsnToNo_add_of_lt {b i : ℕ} (hb : b % osFileLogBlockSize = 0)
    (hi : i < osFileLogBlockSize) : logBlockConvertLsnToNo (b + i) = logBlockConvertLsnToNo b := by
  unfold logBlockConvertLsnToNo osFileLogBlockSize at *; omega

/-- Up to the wrap, the blocks that follow have the numbers that follow. -/
theorem logBlockConvertLsnToNo_add_mul {b k : ℕ}
    (h : logBlockConvertLsnToNo b + k ≤ logBlockFlushBitMask) :
    logBlockConvertLsnToNo (b + k * osFileLogBlockSize) = logBlockConvertLsnToNo b + k := by
  unfold logBlockConvertLsnToNo logBlockFlushBitMask osFileLogBlockSize at *; omega

/-! ### Which bytes each accessor writes and reads

Each setter changes only the bytes of its field, and each getter reads only those: together with
the codec's round trip `Mem.machRead_machWrite`, a field reads back what its setter wrote for as
long as no later write touches the field's bytes. -/

section
variable {m : Mem} {b p : ℕ}

theorem logBlockSetHdrNo_of_not_mem (n : ℕ) (h : p < b ∨ b + 4 ≤ p) :
    logBlockSetHdrNo m b n p = m p :=
  Mem.machWrite_of_not_mem h

theorem logBlockSetDataLen_of_not_mem (len : ℕ) (h : p < b + 4 ∨ b + 6 ≤ p) :
    logBlockSetDataLen m b len p = m p :=
  Mem.machWrite_of_not_mem h

theorem logBlockSetFirstRecGroup_of_not_mem (off : ℕ) (h : p < b + 6 ∨ b + 8 ≤ p) :
    logBlockSetFirstRecGroup m b off p = m p :=
  Mem.machWrite_of_not_mem h

theorem logBlockSetFlushBit_of_not_mem (val : Bool) (h : p < b ∨ b + 4 ≤ p) :
    logBlockSetFlushBit m b val p = m p :=
  Mem.machWrite_of_not_mem h

theorem logBlockSetCheckpointNo_of_not_mem (no : ℕ) (h : p < b + 8 ∨ b + 12 ≤ p) :
    logBlockSetCheckpointNo m b no p = m p :=
  Mem.machWrite_of_not_mem h

theorem logBlockStoreChecksum_of_lt (alg : List UInt8 → ℕ)
    (h : p < b + osFileLogBlockSize - logBlockChecksum) : logBlockStoreChecksum alg m b p = m p :=
  Mem.machWrite_of_not_mem (.inl h)

/-- `log_block_init` writes the first eight bytes of the header. -/
theorem logBlockInit_of_not_mem (lsn : ℕ) (h : p < b ∨ b + 8 ≤ p) : logBlockInit m b lsn p = m p := by
  unfold logBlockInit
  rw [logBlockSetFirstRecGroup_of_not_mem _ (by omega), logBlockSetDataLen_of_not_mem _ (by omega),
    logBlockSetHdrNo_of_not_mem _ (by omega)]

end

section
variable {m m' : Mem} {b : ℕ}

theorem logBlockGetDataLen_congr {b' : ℕ} (h : ∀ j < 2, m' (b' + 4 + j) = m (b + 4 + j)) :
    logBlockGetDataLen m' b' = logBlockGetDataLen m b :=
  Mem.machRead_congr h

theorem logBlockGetCheckpointNo_congr (h : ∀ j < 4, m' (b + 8 + j) = m (b + 8 + j)) :
    logBlockGetCheckpointNo m' b = logBlockGetCheckpointNo m b :=
  Mem.machRead_congr h

theorem logBlockGetHdrNo_congr {b' : ℕ} (h : ∀ j < 4, m' (b' + j) = m (b + j)) :
    logBlockGetHdrNo m' b' = logBlockGetHdrNo m b := by
  unfold logBlockGetHdrNo; exact congrArg (· % logBlockFlushBitMask) (Mem.machRead_congr h)

theorem logBlockGetFirstRecGroup_congr {b' : ℕ} (h : ∀ j < 2, m' (b' + 6 + j) = m (b + 6 + j)) :
    logBlockGetFirstRecGroup m' b' = logBlockGetFirstRecGroup m b :=
  Mem.machRead_congr h

/-- The checksum test reads only the block's bytes, wherever the block sits. -/
theorem BlockChecksumOk.congr {alg : List UInt8 → ℕ} {b' : ℕ}
    (h : ∀ j < osFileLogBlockSize, m' (b' + j) = m (b + j)) (hok : BlockChecksumOk alg m b) :
    BlockChecksumOk alg m' b' := by
  have hle : logBlockChecksum ≤ osFileLogBlockSize := by decide
  have hc : logBlockCalcChecksum alg m' b' = logBlockCalcChecksum alg m b :=
    congrArg alg (Mem.read_congr fun j hj => h j (by unfold osFileLogBlockSize logBlockTrlSize at *; omega))
  have hg : logBlockGetChecksum m' b' = logBlockGetChecksum m b := by
    unfold logBlockGetChecksum
    rw [Nat.add_sub_assoc hle, Nat.add_sub_assoc hle]
    exact Mem.machRead_congr fun j hj => by
      rw [Nat.add_assoc, Nat.add_assoc]; exact h _ (by unfold osFileLogBlockSize logBlockChecksum at *; omega)
  unfold BlockChecksumOk at *
  rw [hg, hc]; exact hok

end

section
variable (m : Mem) (b : ℕ)

@[simp] theorem logBlockGetDataLen_logBlockSetDataLen (len : ℕ) :
    logBlockGetDataLen (logBlockSetDataLen m b len) b = len % 256 ^ 2 :=
  Mem.machRead_machWrite _ _ _ _

@[simp] theorem logBlockGetCheckpointNo_logBlockSetCheckpointNo (no : ℕ) :
    logBlockGetCheckpointNo (logBlockSetCheckpointNo m b no) b = no % 256 ^ 4 :=
  Mem.machRead_machWrite _ _ _ _

/-- A fresh header carries the block number of its LSN, without the flush bit. -/
theorem logBlockGetHdrNo_logBlockInit (lsn : ℕ) :
    logBlockGetHdrNo (logBlockInit m b lsn) b = logBlockConvertLsnToNo lsn % logBlockFlushBitMask := by
  unfold logBlockGetHdrNo logBlockInit
  rw [Mem.machRead_of_agree (m := m) (v := logBlockConvertLsnToNo lsn) fun j hj => ?_]
  · exact Nat.mod_mod_of_dvd _ (by decide)
  · rw [logBlockSetFirstRecGroup_of_not_mem _ (by simp only [logBlockHdrNo]; omega),
      logBlockSetDataLen_of_not_mem _ (by simp only [logBlockHdrNo]; omega)]
    rfl

/-- Setting or clearing the flush bit keeps the block number. -/
@[simp] theorem logBlockGetHdrNo_logBlockSetFlushBit (val : Bool) :
    logBlockGetHdrNo (logBlockSetFlushBit m b val) b = logBlockGetHdrNo m b := by
  unfold logBlockGetHdrNo logBlockSetFlushBit
  rw [Mem.machRead_machWrite]
  have := Nat.mod_lt (m.machRead (b + logBlockHdrNo) 4) (show 0 < logBlockFlushBitMask by decide)
  unfold logBlockFlushBitMask at *
  split <;> omega

@[simp] theorem logBlockGetFirstRecGroup_logBlockSetFirstRecGroup (off : ℕ) :
    logBlockGetFirstRecGroup (logBlockSetFirstRecGroup m b off) b = off % 256 ^ 2 :=
  Mem.machRead_machWrite _ _ _ _

theorem logBlockGetFirstRecGroup_logBlockInit (lsn : ℕ) :
    logBlockGetFirstRecGroup (logBlockInit m b lsn) b = 0 :=
  Mem.machRead_machWrite _ _ _ _

/-- `log_block_store_checksum` leaves its block passing the checksum test. -/
theorem blockChecksumOk_logBlockStoreChecksum (alg : List UInt8 → ℕ) :
    BlockChecksumOk alg (logBlockStoreChecksum alg m b) b := by
  have hc : logBlockCalcChecksum alg (logBlockStoreChecksum alg m b) b = logBlockCalcChecksum alg m b :=
    congrArg alg (Mem.read_congr fun j hj => logBlockStoreChecksum_of_lt alg
      (by unfold osFileLogBlockSize logBlockTrlSize logBlockChecksum at *; omega))
  unfold BlockChecksumOk
  rw [hc]
  exact Mem.machRead_machWrite _ _ _ _

theorem logBlockGetDataLen_logBlockInit (lsn : ℕ) :
    logBlockGetDataLen (logBlockInit m b lsn) b = logBlockHdrSize := by
  unfold logBlockInit
  rw [logBlockGetDataLen_congr fun j hj => logBlockSetFirstRecGroup_of_not_mem _ (by omega)]
  exact Mem.machRead_machWrite _ _ _ _

end

/-! ### Header and trailer writes leave the payload alone -/

/-- Two memories agree on every payload byte. -/
def SamePayload (m m' : Mem) : Prop := ∀ i, IsPayloadOffset i → m' i = m i

namespace SamePayload

@[refl] theorem refl (m : Mem) : SamePayload m m := fun _ _ => rfl

@[trans] theorem trans {m₁ m₂ m₃ : Mem} (h₁ : SamePayload m₁ m₂) (h₂ : SamePayload m₂ m₃) :
    SamePayload m₁ m₃ := fun i hi => (h₂ i hi).trans (h₁ i hi)

end SamePayload

/-- Two memories agree on every byte but the blocks' checksum fields. -/
def SameBesideChecksums (m m' : Mem) : Prop :=
  ∀ i, i % osFileLogBlockSize < osFileLogBlockSize - logBlockChecksum → m' i = m i

namespace SameBesideChecksums

@[refl] theorem refl (m : Mem) : SameBesideChecksums m m := fun _ _ => rfl

@[trans] theorem trans {m₁ m₂ m₃ : Mem} (h₁ : SameBesideChecksums m₁ m₂)
    (h₂ : SameBesideChecksums m₂ m₃) : SameBesideChecksums m₁ m₃ :=
  fun i hi => (h₂ i hi).trans (h₁ i hi)

/-- The payload lies before the checksum field. -/
theorem samePayload {m m' : Mem} (h : SameBesideChecksums m m') : SamePayload m m' := fun i hi =>
  h i (by
    obtain ⟨-, hi⟩ := hi
    unfold osFileLogBlockSize logBlockChecksum logBlockTrlSize at *
    omega)

end SameBesideChecksums

variable {m : Mem} {b : ℕ}

/-- A write of `n` bytes at offset `k ≤ 12 - n` of an aligned block is a header write. -/
theorem Mem.write_payload_of_header {k : ℕ} {bs : List UInt8} (hb : b % osFileLogBlockSize = 0)
    (hk : k + bs.length ≤ logBlockHdrSize) : SamePayload m (m.write (b + k) bs) := by
  intro i ⟨hlo, _⟩
  apply Mem.write_of_not_mem
  by_contra h
  unfold osFileLogBlockSize logBlockHdrSize at *; omega

/-- A write inside the 4-byte trailer of an aligned block. -/
theorem Mem.write_payload_of_trailer {bs : List UInt8} (hb : b % osFileLogBlockSize = 0)
    (hn : bs.length ≤ logBlockChecksum) :
    SamePayload m (m.write (b + osFileLogBlockSize - logBlockChecksum) bs) := by
  intro i ⟨_, hhi⟩
  apply Mem.write_of_not_mem
  by_contra h
  unfold osFileLogBlockSize logBlockChecksum logBlockTrlSize at *; omega

section
variable (hb : b % osFileLogBlockSize = 0)
include hb

theorem samePayload_logBlockSetHdrNo (n : ℕ) : SamePayload m (logBlockSetHdrNo m b n) :=
  Mem.write_payload_of_header hb (by simp [logBlockHdrNo, logBlockHdrSize])

theorem samePayload_logBlockSetFlushBit (val : Bool) : SamePayload m (logBlockSetFlushBit m b val) :=
  Mem.write_payload_of_header hb (by simp [logBlockHdrNo, logBlockHdrSize])

theorem samePayload_logBlockSetDataLen (len : ℕ) : SamePayload m (logBlockSetDataLen m b len) :=
  Mem.write_payload_of_header hb (by simp [logBlockHdrDataLen, logBlockHdrSize])

theorem samePayload_logBlockSetFirstRecGroup (off : ℕ) :
    SamePayload m (logBlockSetFirstRecGroup m b off) :=
  Mem.write_payload_of_header hb (by simp [logBlockFirstRecGroup, logBlockHdrSize])

theorem samePayload_logBlockSetCheckpointNo (no : ℕ) :
    SamePayload m (logBlockSetCheckpointNo m b no) :=
  Mem.write_payload_of_header hb (by simp [logBlockCheckpointNo, logBlockHdrSize])

theorem samePayload_logBlockInit (lsn : ℕ) : SamePayload m (logBlockInit m b lsn) :=
  ((samePayload_logBlockSetHdrNo hb _).trans (samePayload_logBlockSetDataLen hb _)).trans
    (samePayload_logBlockSetFirstRecGroup hb _)

theorem samePayload_logBlockStoreChecksum (alg : List UInt8 → ℕ) :
    SamePayload m (logBlockStoreChecksum alg m b) :=
  Mem.write_payload_of_trailer hb (by simp [logBlockChecksum])

theorem sameBesideChecksums_logBlockStoreChecksum (alg : List UInt8 → ℕ) :
    SameBesideChecksums m (logBlockStoreChecksum alg m b) := fun i hi =>
  Mem.machWrite_of_not_mem (by unfold osFileLogBlockSize logBlockChecksum at *; omega)

end

end RedoLog

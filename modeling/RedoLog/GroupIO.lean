import RedoLog.Group
import Mathlib.Data.List.Chain

/-!
# Writing to and reading from a log group

`log_group_write_buf` writes a run of whole blocks of the log buffer to the first group's files,
and `log_group_read_log_seg` reads a run of LSNs back. Both cut their range into chunks that end at
a file boundary, and place each chunk at the real offset of its first LSN. The files of a group are
one byte memory indexed by real offset, as `fil_io` addresses them (page number times page size
plus the offset in the page).

`log_group_write_buf` also stores the checksum in the trailer of every block it writes, in the
buffer, before the write, and writes the header of a file when a chunk starts at that file's first
data byte (`log_group_file_header_flush`).

## Modelling choices

Both loops (`goto loop`) are well-founded recursion on the bytes left; each pass handles at least
one byte. A `fil_io` write is a `FilIo`, the offset and the bytes it writes; the I/O statistics
the passes update are left out. `log_group_read_log_seg` loops while `start_lsn != end_lsn`; here
the condition is `start_lsn < end_lsn`, which is the same on every call with
`start_lsn < end_lsn`, the calls its `ut_ad(len != 0)` admits. `RedoLog.ReadSeg` runs the loop
with the code's own test and proves the two agree. Its `type` and `release_mutex` arguments change
only statistics and locking, and are left out.

## Main results

* `logGroupCalcLsnOffset_add` — inside one file, consecutive LSNs sit at consecutive offsets.
* `logGroupWriteBuf_frame`, `logGroupWriteBuf_apply` — after a write, a data offset that no LSN
  of the range maps to is unchanged, and the place of LSN `start + i` holds byte `i` of the
  (checksummed) buffer, unless a later LSN of the same range wrapped onto it.
* `samePayload_logGroupWriteBuf` — the checksums land in trailers only: the buffer's payload
  bytes are unchanged by the write.
* `logGroupReadLogSeg_apply` — the read fills byte `i` from the place of LSN `start + i`.
* `logGroupWriteBuf_eq_foldl` — the files after a write are the `fil_io` writes of its passes
  (`logGroupWriteBufPasses`), applied in order.
* `logGroupWriteBuf_writes` — those writes tile the range into chunks of whole blocks, each inside
  the data area of one file; they put every byte at the place of its LSN, even when the range is
  longer than the group; every block they write passes its checksum test; and a file header is
  written exactly where the loop enters a file, except on the first pass of a write that does not
  start new data.
-/

namespace RedoLog

/-- The block `log_group_file_header_flush` writes at the start of a file, from the group's
zero-initialised header buffer. Modelled from the spec (§6): the group id (4 bytes), the LSN the
file's data starts at (8 bytes), the 4-byte backup-label area wiped with spaces, the rest zero. -/
def logFileHeaderBlock (groupId startLsn : ℕ) : List UInt8 :=
  Mem.bigEndian 4 groupId ++ Mem.bigEndian 8 startLsn ++ List.replicate 4 0x20 ++
    List.replicate (osFileLogBlockSize - 16) 0

@[simp] theorem length_logFileHeaderBlock (groupId startLsn : ℕ) :
    (logFileHeaderBlock groupId startLsn).length = osFileLogBlockSize := by
  simp only [logFileHeaderBlock, List.length_append, Mem.length_bigEndian, List.length_replicate]
  rfl

/-- `log_group_file_header_flush`: write the header of file `nthFile`. -/
def logGroupFileHeaderFlush (g : LogGroup) (files : Mem) (nthFile startLsn : ℕ) : Mem :=
  Mem.write files (nthFile * g.fileSize) (logFileHeaderBlock g.id startLsn)

/-- The checksum loop of `log_group_write_buf`: `log_block_store_checksum` on the `n` blocks
from offset `off` of the buffer. -/
def storeChecksums (alg : List UInt8 → ℕ) (buf : Mem) (off : ℕ) : ℕ → Mem
  | 0 => buf
  | n + 1 => logBlockStoreChecksum alg (storeChecksums alg buf off n) (off + n * osFileLogBlockSize)

/-- The length of the chunk `log_group_write_buf` and `log_group_read_log_seg` handle at real
offset `offset`: the rest of the range, or up to the end of the file. -/
def chunkLen (g : LogGroup) (offset len : ℕ) : ℕ :=
  if g.fileSize < offset % g.fileSize + len then g.fileSize - offset % g.fileSize else len

theorem chunkLen_pos (g : LogGroup) (offset : ℕ) {len : ℕ} (h : 0 < len) : 0 < chunkLen g offset len := by
  unfold chunkLen; split_ifs with hc
  · have := Nat.mod_lt offset g.fileSize_pos; omega
  · exact h

theorem chunkLen_le (g : LogGroup) (offset len : ℕ) : chunkLen g offset len ≤ len := by
  unfold chunkLen; split_ifs <;> omega

theorem chunkLen_fits (g : LogGroup) (offset len : ℕ) :
    offset % g.fileSize + chunkLen g offset len ≤ g.fileSize := by
  unfold chunkLen; split_ifs with hc
  · have := Nat.mod_lt offset g.fileSize_pos; omega
  · omega

/-- `log_group_write_buf(group, buf + off, len, start_lsn, new_data_offset)`, with
`writeHeader = (new_data_offset == 0)`: it returns the files and the buffer, whose block trailers
now hold checksums. -/
def logGroupWriteBuf (alg : List UInt8 → ℕ) (g : LogGroup) (files buf : Mem) (off len startLsn : ℕ)
    (writeHeader : Bool) : Mem × Mem :=
  if _hlen : len = 0 then (files, buf) else
    let nextOffset := logGroupCalcLsnOffset g startLsn
    let files := if writeHeader && nextOffset % g.fileSize == logFileHdrSize then
        logGroupFileHeaderFlush g files (nextOffset / g.fileSize) startLsn
      else files
    let writeLen := chunkLen g nextOffset len
    let buf := storeChecksums alg buf off (writeLen / osFileLogBlockSize)
    let files := Mem.write files nextOffset (Mem.read buf off writeLen)
    if writeLen < len then
      logGroupWriteBuf alg g files buf (off + writeLen) (len - writeLen) (startLsn + writeLen) true
    else (files, buf)
termination_by len
decreasing_by
  have := chunkLen_pos g (logGroupCalcLsnOffset g startLsn) (Nat.pos_of_ne_zero _hlen); omega

/-- `log_group_read_log_seg(type, buf + off, group, start_lsn, end_lsn, release_mutex)`: the
buffer with the bytes of LSNs `[start_lsn, end_lsn)` read into it from offset `off`. -/
def logGroupReadLogSeg (g : LogGroup) (files buf : Mem) (off startLsn endLsn : ℕ) : Mem :=
  let sourceOffset := logGroupCalcLsnOffset g startLsn
  let len := chunkLen g sourceOffset (endLsn - startLsn)
  let buf := Mem.write buf off (Mem.read files sourceOffset len)
  if _h : startLsn + len < endLsn then logGroupReadLogSeg g files buf (off + len) (startLsn + len) endLsn
  else buf
termination_by endLsn - startLsn
decreasing_by
  have := chunkLen_pos g (logGroupCalcLsnOffset g startLsn) (show 0 < endLsn - startLsn by omega)
  omega

/-! ### The pieces of a write -/

section
variable {alg : List UInt8 → ℕ} {g : LogGroup}

/-- A file header lands in the header region: data offsets keep their bytes. -/
theorem logGroupFileHeaderFlush_apply {files : Mem} {k lsn p : ℕ}
    (hp : logFileHdrSize ≤ p % g.fileSize) : logGroupFileHeaderFlush g files k lsn p = files p := by
  apply Mem.write_of_not_mem
  rw [length_logFileHeaderBlock]
  by_contra h
  rw [not_or, Nat.not_lt, Nat.not_le] at h
  have hF := g.logFileHdrSize_lt
  have hr : p - k * g.fileSize < g.fileSize := by unfold logFileHdrSize osFileLogBlockSize at *; omega
  have hmod : p % g.fileSize = p - k * g.fileSize := by
    conv_lhs => rw [show p = p - k * g.fileSize + k * g.fileSize by omega]
    rw [Nat.add_mul_mod_self_right, Nat.mod_eq_of_lt hr]
  unfold logFileHdrSize osFileLogBlockSize at *; omega

theorem storeChecksums_of_lt {buf : Mem} {off q : ℕ} (n : ℕ) (hq : q < off) :
    storeChecksums alg buf off n q = buf q := by
  induction n with
  | zero => rfl
  | succ n ih =>
    rw [storeChecksums, logBlockStoreChecksum, logBlockSetChecksum, Mem.machWrite,
      Mem.write_of_lt _ (by unfold osFileLogBlockSize logBlockChecksum; omega), ih]

theorem sameBesideChecksums_storeChecksums {buf : Mem} {off : ℕ}
    (hoff : off % osFileLogBlockSize = 0) (n : ℕ) :
    SameBesideChecksums buf (storeChecksums alg buf off n) := by
  induction n with
  | zero => exact .refl _
  | succ n ih =>
    exact ih.trans (sameBesideChecksums_logBlockStoreChecksum
      (by rw [Nat.add_mul_mod_self_right]; exact hoff) alg)

theorem samePayload_storeChecksums {buf : Mem} {off : ℕ} (hoff : off % osFileLogBlockSize = 0)
    (n : ℕ) : SamePayload buf (storeChecksums alg buf off n) :=
  (sameBesideChecksums_storeChecksums hoff n).samePayload

/-- Inside the first chunk, LSN `start + i` is `i` bytes past the chunk's offset. -/
theorem logGroupCalcLsnOffset_add_of_lt_chunkLen {start len i : ℕ}
    (hi : i < chunkLen g (logGroupCalcLsnOffset g start) len) :
    logGroupCalcLsnOffset g (start + i) = logGroupCalcLsnOffset g start + i :=
  logGroupCalcLsnOffset_add (by have := chunkLen_fits g (logGroupCalcLsnOffset g start) len; omega)

/-- The first chunk's write, at a data offset no LSN of the chunk maps to. -/
theorem chunk_write_frame {files buf : Mem} {start len off p : ℕ} {hdr : Bool}
    (hp : logFileHdrSize ≤ p % g.fileSize)
    (hne : ∀ i < chunkLen g (logGroupCalcLsnOffset g start) len, logGroupCalcLsnOffset g (start + i) ≠ p) :
    Mem.write (if hdr then logGroupFileHeaderFlush g files (logGroupCalcLsnOffset g start / g.fileSize) start
        else files) (logGroupCalcLsnOffset g start)
      (Mem.read buf off (chunkLen g (logGroupCalcLsnOffset g start) len)) p = files p := by
  rw [Mem.write_of_not_mem]
  · split_ifs
    · exact logGroupFileHeaderFlush_apply hp
    · rfl
  · rw [Mem.length_read]
    by_contra h
    rw [not_or, Nat.not_lt, Nat.not_le] at h
    exact hne (p - logGroupCalcLsnOffset g start) (by omega)
      (by rw [logGroupCalcLsnOffset_add_of_lt_chunkLen (show p - logGroupCalcLsnOffset g start <
        chunkLen g (logGroupCalcLsnOffset g start) len by omega)]; omega)

end

/-! ### What a write leaves behind -/

section
variable {alg : List UInt8 → ℕ} {g : LogGroup} {files buf : Mem} {off len start : ℕ} {wh : Bool}

/-- A pass that leaves bytes for the next file. -/
theorem logGroupWriteBuf_of_lt (hlen : len ≠ 0)
    (h : chunkLen g (logGroupCalcLsnOffset g start) len < len) :
    logGroupWriteBuf alg g files buf off len start wh =
      logGroupWriteBuf alg g
        (Mem.write (if wh && logGroupCalcLsnOffset g start % g.fileSize == logFileHdrSize then
            logGroupFileHeaderFlush g files (logGroupCalcLsnOffset g start / g.fileSize) start
          else files) (logGroupCalcLsnOffset g start)
          (Mem.read (storeChecksums alg buf off
            (chunkLen g (logGroupCalcLsnOffset g start) len / osFileLogBlockSize)) off
            (chunkLen g (logGroupCalcLsnOffset g start) len)))
        (storeChecksums alg buf off (chunkLen g (logGroupCalcLsnOffset g start) len / osFileLogBlockSize))
        (off + chunkLen g (logGroupCalcLsnOffset g start) len)
        (len - chunkLen g (logGroupCalcLsnOffset g start) len)
        (start + chunkLen g (logGroupCalcLsnOffset g start) len) true := by
  rw [logGroupWriteBuf, dif_neg hlen]; exact if_pos h

/-- The last pass: the rest of the range fits in the current file. -/
theorem logGroupWriteBuf_of_not_lt (hlen : len ≠ 0)
    (h : ¬chunkLen g (logGroupCalcLsnOffset g start) len < len) :
    logGroupWriteBuf alg g files buf off len start wh =
      (Mem.write (if wh && logGroupCalcLsnOffset g start % g.fileSize == logFileHdrSize then
            logGroupFileHeaderFlush g files (logGroupCalcLsnOffset g start / g.fileSize) start
          else files) (logGroupCalcLsnOffset g start)
          (Mem.read (storeChecksums alg buf off
            (chunkLen g (logGroupCalcLsnOffset g start) len / osFileLogBlockSize)) off
            (chunkLen g (logGroupCalcLsnOffset g start) len)),
        storeChecksums alg buf off (chunkLen g (logGroupCalcLsnOffset g start) len / osFileLogBlockSize)) := by
  rw [logGroupWriteBuf, dif_neg hlen]; exact if_neg h

/-- The write changes the buffer only from `off` on. -/
theorem logGroupWriteBuf_buf_of_lt {q : ℕ} (hq : q < off) :
    (logGroupWriteBuf alg g files buf off len start wh).2 q = buf q := by
  induction files, buf, off, len, start, wh using logGroupWriteBuf.induct alg g with
  | case1 => rw [logGroupWriteBuf, dif_pos rfl]
  | case2 files buf off len start wh hlen =>
    rename_i hlt ih
    rw [logGroupWriteBuf_of_lt hlen hlt]
    exact (ih (by omega)).trans (storeChecksums_of_lt _ hq)
  | case3 files buf off len start wh hlen =>
    rename_i hnlt
    rw [logGroupWriteBuf_of_not_lt hlen hnlt]
    exact storeChecksums_of_lt _ hq

/-- A data offset that no LSN of the range maps to keeps its byte. -/
theorem logGroupWriteBuf_frame {p : ℕ} (hp : logFileHdrSize ≤ p % g.fileSize)
    (hne : ∀ i < len, logGroupCalcLsnOffset g (start + i) ≠ p) :
    (logGroupWriteBuf alg g files buf off len start wh).1 p = files p := by
  induction files, buf, off, len, start, wh using logGroupWriteBuf.induct alg g with
  | case1 => rw [logGroupWriteBuf, dif_pos rfl]
  | case2 files buf off len start wh hlen =>
    rename_i next _ _ _ _ hlt ih
    have hwl : chunkLen g next len = chunkLen g (logGroupCalcLsnOffset g start) len := rfl
    rw [logGroupWriteBuf_of_lt hlen hlt]
    exact (ih fun i hi => by rw [Nat.add_assoc]; exact hne _ (by omega)).trans
      (chunk_write_frame hp fun i hi => hne i (by omega))
  | case3 files buf off len start wh hlen =>
    rename_i hnlt
    rw [logGroupWriteBuf_of_not_lt hlen hnlt]
    exact chunk_write_frame hp fun i hi =>
      hne i (by have := chunkLen_le g (logGroupCalcLsnOffset g start) len; omega)

/-- Two LSNs less than a capacity apart have different places. -/
theorem logGroupCalcLsnOffset_ne_of_lt {a b : ℕ} (hab : a < b) (hb : b < a + logGroupGetCapacity g) :
    logGroupCalcLsnOffset g b ≠ logGroupCalcLsnOffset g a := by
  intro h
  have hdvd := (Nat.modEq_iff_dvd' hab.le).mp (logGroupCalcLsnOffset_eq_iff.mp h).symm
  have := Nat.le_of_dvd (by omega) hdvd
  omega

/-- The place of LSN `start + i` holds byte `i` of the written buffer, when no later LSN of the
range wrapped onto it. -/
theorem logGroupWriteBuf_apply (i : ℕ) (hi : i < len) (hwrap : len ≤ i + logGroupGetCapacity g) :
    (logGroupWriteBuf alg g files buf off len start wh).1 (logGroupCalcLsnOffset g (start + i)) =
      (logGroupWriteBuf alg g files buf off len start wh).2 (off + i) := by
  induction files, buf, off, len, start, wh using logGroupWriteBuf.induct alg g generalizing i with
  | case1 => omega
  | case2 files buf off len start wh hlen =>
    rename_i next _ wl _ _ hlt ih
    have hwl : wl = chunkLen g (logGroupCalcLsnOffset g start) len := rfl
    have hwl' : chunkLen g next len = wl := rfl
    have hle := chunkLen_le g (logGroupCalcLsnOffset g start) len
    rw [logGroupWriteBuf_of_lt hlen hlt]
    by_cases hiw : i < chunkLen g (logGroupCalcLsnOffset g start) len
    · rw [logGroupWriteBuf_frame (logFileHdrSize_le_calcLsnOffset_mod _) fun j hj => by
          rw [Nat.add_assoc]; exact logGroupCalcLsnOffset_ne_of_lt (by omega) (by omega),
        logGroupWriteBuf_buf_of_lt (by omega), logGroupCalcLsnOffset_add_of_lt_chunkLen hiw,
        Mem.write_read_add hiw]
    · have := ih (i - wl) (by omega) (by omega)
      rwa [Nat.add_assoc, Nat.add_sub_cancel' (by omega), Nat.add_assoc,
        Nat.add_sub_cancel' (by omega)] at this
  | case3 files buf off len start wh hlen =>
    rename_i next _ hnlt
    have hwl' : chunkLen g next len = chunkLen g (logGroupCalcLsnOffset g start) len := rfl
    have hwl : i < chunkLen g (logGroupCalcLsnOffset g start) len := by omega
    rw [logGroupWriteBuf_of_not_lt hlen hnlt, logGroupCalcLsnOffset_add_of_lt_chunkLen hwl]
    exact Mem.write_read_add hwl

/-- The length of a pass that leaves bytes for the next file is the rest of the file. -/
theorem chunkLen_eq_of_lt {offset len : ℕ} (h : chunkLen g offset len < len) :
    chunkLen g offset len = g.fileSize - offset % g.fileSize := by
  unfold chunkLen at h ⊢; split_ifs at h ⊢ with hc
  · rfl
  · exact absurd h (lt_irrefl _)

/-- A chunk that stops at the end of a file is whole blocks, when the start is placed like its
LSN in its block. -/
theorem chunkLen_mod_of_lt (ha : g.AnchorOk) (hstart : start % osFileLogBlockSize = 0)
    (h : chunkLen g (logGroupCalcLsnOffset g start) len < len) :
    chunkLen g (logGroupCalcLsnOffset g start) len % osFileLogBlockSize = 0 := by
  have hF := ha.fileSize_mod
  have hnext := logGroupCalcLsnOffset_mod_block ha start
  have hmm := Nat.mod_mod_of_dvd (logGroupCalcLsnOffset g start) (Nat.dvd_of_mod_eq_zero hF)
  have hlt := Nat.mod_lt (logGroupCalcLsnOffset g start) g.fileSize_pos
  rw [chunkLen_eq_of_lt h]; unfold osFileLogBlockSize at *; omega

/-- With a block-aligned range as well, every chunk is whole blocks. -/
theorem chunkLen_mod (ha : g.AnchorOk) (hlen : len % osFileLogBlockSize = 0)
    (hstart : start % osFileLogBlockSize = 0) :
    chunkLen g (logGroupCalcLsnOffset g start) len % osFileLogBlockSize = 0 := by
  by_cases h : chunkLen g (logGroupCalcLsnOffset g start) len < len
  · exact chunkLen_mod_of_lt ha hstart h
  · rwa [Nat.le_antisymm (chunkLen_le _ _ _) (Nat.not_lt.mp h)]

/-- The checksums land in block trailers: the write changes no other byte of the buffer. -/
theorem sameBesideChecksums_logGroupWriteBuf (ha : g.AnchorOk)
    (hoff : off % osFileLogBlockSize = 0) (hstart : start % osFileLogBlockSize = 0) :
    SameBesideChecksums buf (logGroupWriteBuf alg g files buf off len start wh).2 := by
  induction files, buf, off, len, start, wh using logGroupWriteBuf.induct alg g with
  | case1 => rw [logGroupWriteBuf, dif_pos rfl]
  | case2 files buf off len start wh hlen =>
    rename_i hlt ih
    have hwl := chunkLen_mod_of_lt ha hstart hlt
    rw [logGroupWriteBuf_of_lt hlen hlt]
    exact (sameBesideChecksums_storeChecksums hoff _).trans
      (ih (by rw [Nat.add_mod, hoff, hwl]; rfl) (by rw [Nat.add_mod, hstart, hwl]; rfl))
  | case3 files buf off len start wh hlen =>
    rename_i hnlt
    rw [logGroupWriteBuf_of_not_lt hlen hnlt]
    exact sameBesideChecksums_storeChecksums hoff _

/-- In particular the write leaves the buffer's payload alone. -/
theorem samePayload_logGroupWriteBuf (ha : g.AnchorOk)
    (hoff : off % osFileLogBlockSize = 0) (hstart : start % osFileLogBlockSize = 0) :
    SamePayload buf (logGroupWriteBuf alg g files buf off len start wh).2 :=
  (sameBesideChecksums_logGroupWriteBuf ha hoff hstart).samePayload

end

/-! ### What a read fills in -/

section
variable {g : LogGroup} {files buf : Mem} {off start endLsn : ℕ}

theorem logGroupReadLogSeg_of_lt {q : ℕ} (hq : q < off) :
    logGroupReadLogSeg g files buf off start endLsn q = buf q := by
  induction buf, off, start, endLsn using logGroupReadLogSeg.induct g files with
  | case1 buf off start endLsn =>
    rename_i hlt ih
    rw [logGroupReadLogSeg, dif_pos hlt]
    exact (ih (by omega)).trans (Mem.write_of_lt _ hq)
  | case2 buf off start endLsn =>
    rename_i hnlt
    rw [logGroupReadLogSeg, dif_neg hnlt]
    exact Mem.write_of_lt _ hq

/-- The read fills byte `j` from the place of LSN `start + j`. -/
theorem logGroupReadLogSeg_apply (j : ℕ) (hj : j < endLsn - start) :
    logGroupReadLogSeg g files buf off start endLsn (off + j) =
      files (logGroupCalcLsnOffset g (start + j)) := by
  induction buf, off, start, endLsn using logGroupReadLogSeg.induct g files generalizing j with
  | case1 buf off start endLsn =>
    rename_i src len _ hlt ih
    have hlen : len = chunkLen g (logGroupCalcLsnOffset g start) (endLsn - start) := rfl
    have hlen' : chunkLen g src (endLsn - start) = len := rfl
    rw [logGroupReadLogSeg, dif_pos hlt]
    by_cases hjl : j < chunkLen g (logGroupCalcLsnOffset g start) (endLsn - start)
    · rw [logGroupReadLogSeg_of_lt (by omega), Mem.write_read_add hjl,
        logGroupCalcLsnOffset_add_of_lt_chunkLen hjl]
    · have := ih (j - len) (by omega)
      rwa [Nat.add_assoc, Nat.add_sub_cancel' (by omega), Nat.add_assoc,
        Nat.add_sub_cancel' (by omega)] at this
  | case2 buf off start endLsn =>
    rename_i src len hnlt
    have hlen : len = chunkLen g (logGroupCalcLsnOffset g start) (endLsn - start) := rfl
    have hjl : j < chunkLen g (logGroupCalcLsnOffset g start) (endLsn - start) := by
      have := chunkLen_le g (logGroupCalcLsnOffset g start) (endLsn - start)
      omega
    rw [logGroupReadLogSeg, dif_neg hnlt, Mem.write_read_add hjl,
      logGroupCalcLsnOffset_add_of_lt_chunkLen hjl]

end

/-! ### The writes a call issues

The files see `log_group_write_buf` only through its `fil_io` calls: each pass of the loop writes
the header of the file it enters, when it must, and then its chunk. `logGroupWriteBufPasses`
lists the passes with the writes they issue, `logGroupWriteBuf_eq_foldl` says that the files
after the call are these writes applied in order, and `WriteBufSpec` says what the writes are. -/

/-- One synchronous `fil_io` write of the log: `data` from real offset `offset` of the group's
files. -/
structure FilIo where
  offset : ℕ
  data : List UInt8
deriving DecidableEq

namespace FilIo

/-- The files after the write. -/
def apply (files : Mem) (io : FilIo) : Mem := files.write io.offset io.data

/-- The write puts byte `v` at real offset `p`. -/
def Writes (io : FilIo) (p : ℕ) (v : UInt8) : Prop :=
  io.offset ≤ p ∧ io.data[p - io.offset]? = some v

instance (io : FilIo) (p : ℕ) (v : UInt8) : Decidable (io.Writes p v) :=
  inferInstanceAs (Decidable (_ ∧ _))

end FilIo

/-- The write of `log_group_file_header_flush` for file `nthFile`. -/
def logFileHeaderIo (g : LogGroup) (nthFile startLsn : ℕ) : FilIo :=
  ⟨nthFile * g.fileSize, logFileHeaderBlock g.id startLsn⟩

/-- One pass of the loop of `log_group_write_buf`: its `start_lsn`, the file header it writes, if
any, and its chunk. -/
structure WritePass where
  startLsn : ℕ
  header : Option FilIo
  chunk : FilIo
deriving DecidableEq

/-- The files after a pass: its header, then its chunk. -/
def WritePass.apply (files : Mem) (p : WritePass) : Mem :=
  p.chunk.apply (p.header.elim files fun io => io.apply files)

/-- The passes of `log_group_write_buf(group, buf + off, len, start_lsn, new_data_offset)`, with
`writeHeader = (new_data_offset == 0)`, in the order the loop makes them. -/
def logGroupWriteBufPasses (alg : List UInt8 → ℕ) (g : LogGroup) (buf : Mem) (off len startLsn : ℕ)
    (writeHeader : Bool) : List WritePass :=
  if _hlen : len = 0 then [] else
    let nextOffset := logGroupCalcLsnOffset g startLsn
    let header := if writeHeader && nextOffset % g.fileSize == logFileHdrSize then
        some (logFileHeaderIo g (nextOffset / g.fileSize) startLsn)
      else none
    let writeLen := chunkLen g nextOffset len
    let buf := storeChecksums alg buf off (writeLen / osFileLogBlockSize)
    ⟨startLsn, header, ⟨nextOffset, Mem.read buf off writeLen⟩⟩ ::
      if writeLen < len then
        logGroupWriteBufPasses alg g buf (off + writeLen) (len - writeLen) (startLsn + writeLen) true
      else []
termination_by len
decreasing_by
  have := chunkLen_pos g (logGroupCalcLsnOffset g startLsn) (Nat.pos_of_ne_zero _hlen); omega

/-- What the passes `ps` of a call on the `len` bytes of the buffer from `off`, at LSN `start`,
write, where `buf'` is the buffer the call leaves: the buffer's bytes, with a checksum in every
block trailer. -/
structure WriteBufSpec (alg : List UInt8 → ℕ) (g : LogGroup) (buf' : Mem) (off len start : ℕ)
    (writeHeader : Bool) (ps : List WritePass) : Prop where
  /-- The chunks tile the range in order: the first starts at `start`, each next one where the one
  before ends, and together they are `len` bytes. -/
  first : ∀ p ∈ ps.head?, p.startLsn = start
  next : ps.Chain' fun p q => q.startLsn = p.startLsn + p.chunk.data.length
  total : (ps.map fun p => p.chunk.data.length).sum = len
  range : ∀ p ∈ ps, start ≤ p.startLsn ∧ p.startLsn + p.chunk.data.length ≤ start + len
  /-- A chunk is the buffer's bytes of its LSNs, written from the place of its first LSN. -/
  chunk : ∀ p ∈ ps, p.chunk.offset = logGroupCalcLsnOffset g p.startLsn ∧
    p.chunk.data = buf'.read (off + (p.startLsn - start)) p.chunk.data.length
  /-- A chunk lies in the data area of one file of the group... -/
  inside : ∀ p ∈ ps, p.chunk.offset / g.fileSize < g.nFiles ∧
    logFileHdrSize ≤ p.chunk.offset % g.fileSize ∧
    p.chunk.offset % g.fileSize + p.chunk.data.length ≤ g.fileSize
  /-- ... and is whole blocks. -/
  blocks : ∀ p ∈ ps, 0 < p.chunk.data.length ∧ p.chunk.data.length % osFileLogBlockSize = 0
  /-- Byte `i` of the buffer is written at the place of LSN `start + i`. -/
  placed : ∀ i < len, ∃ p ∈ ps,
    p.chunk.Writes (logGroupCalcLsnOffset g (start + i)) (buf' (off + i))
  /-- Every block a chunk writes passes its checksum test, in whatever files it is written to. -/
  checksum : ∀ p ∈ ps, ∀ q < p.chunk.data.length / osFileLogBlockSize, ∀ files : Mem,
    BlockChecksumOk alg (p.chunk.apply files) (p.chunk.offset + q * osFileLogBlockSize)
  /-- A pass writes the header of file `k`, with the group's id and the pass's `start_lsn`,
  exactly when its chunk starts at the first data byte of file `k` and it is not the first pass
  or the caller asked for headers. -/
  header : ∀ p ∈ ps, p.header =
    if (start < p.startLsn ∨ writeHeader = true) ∧ p.chunk.offset % g.fileSize = logFileHdrSize then
      some (logFileHeaderIo g (p.chunk.offset / g.fileSize) p.startLsn)
    else none

section
variable {alg : List UInt8 → ℕ} {g : LogGroup}

theorem blockChecksumOk_storeChecksums {buf : Mem} {off k n : ℕ} (hk : k < n) :
    BlockChecksumOk alg (storeChecksums alg buf off n) (off + k * osFileLogBlockSize) := by
  induction n with
  | zero => omega
  | succ n ih =>
    rw [storeChecksums]
    rcases Nat.lt_succ_iff_lt_or_eq.mp hk with hk | rfl
    · exact (ih hk).congr fun j hj => logBlockStoreChecksum_of_lt alg (by
        have := Nat.mul_le_mul_right osFileLogBlockSize hk
        unfold osFileLogBlockSize logBlockChecksum at *; rw [Nat.succ_mul] at this; omega)
    · exact blockChecksumOk_logBlockStoreChecksum _ _ alg

variable {files buf : Mem} {off len start : ℕ} {wh : Bool}

/-- Every whole block of the range passes its checksum test in the buffer the write leaves: each
pass stores the checksums of its chunk's blocks, and the later passes write past them. -/
theorem blockChecksumOk_logGroupWriteBuf (ha : g.AnchorOk) (hstart : start % osFileLogBlockSize = 0)
    {q : ℕ} (hq : q < len / osFileLogBlockSize) :
    BlockChecksumOk alg (logGroupWriteBuf alg g files buf off len start wh).2
      (off + q * osFileLogBlockSize) := by
  induction files, buf, off, len, start, wh using logGroupWriteBuf.induct alg g generalizing q with
  | case1 => exact absurd hq (by simp)
  | case2 files buf off len start wh hlen =>
    rename_i wl _ _ hlt ih
    have e : wl = chunkLen g (logGroupCalcLsnOffset g start) len := rfl
    have hwl : wl % osFileLogBlockSize = 0 := chunkLen_mod_of_lt ha hstart hlt
    rw [logGroupWriteBuf_of_lt hlen hlt]
    unfold osFileLogBlockSize at *
    by_cases hq' : q < wl / 512
    · -- a block of this pass, which the later passes leave alone
      exact (blockChecksumOk_storeChecksums hq').congr fun j hj =>
        logGroupWriteBuf_buf_of_lt (by unfold osFileLogBlockSize at *; omega)
    · -- a block of a later pass
      have := ih (by omega) (q := q - wl / 512) (by omega)
      rwa [Nat.add_assoc, show wl + (q - wl / 512) * 512 = q * 512 by omega] at this
  | case3 files buf off len start wh hlen =>
    rename_i hnlt
    rw [logGroupWriteBuf_of_not_lt hlen hnlt,
      Nat.le_antisymm (chunkLen_le _ _ _) (Nat.not_lt.mp hnlt)]
    exact blockChecksumOk_storeChecksums hq

/-- **The files after `log_group_write_buf` are its passes' writes, applied in order.** -/
theorem logGroupWriteBuf_eq_foldl :
    (logGroupWriteBuf alg g files buf off len start wh).1 =
      (logGroupWriteBufPasses alg g buf off len start wh).foldl WritePass.apply files := by
  induction files, buf, off, len, start, wh using logGroupWriteBuf.induct alg g with
  | case1 => rw [logGroupWriteBuf, dif_pos rfl, logGroupWriteBufPasses, dif_pos rfl]; rfl
  | case2 files buf off len start wh hlen =>
    rename_i _ hdrFiles _ _ dataFiles hlt ih
    rw [logGroupWriteBuf_of_lt hlen hlt, logGroupWriteBufPasses, dif_neg hlen]
    dsimp only
    rw [if_pos hlt, List.foldl_cons]
    refine ih.trans (congrArg (List.foldl _ · _) ?_)
    unfold dataFiles hdrFiles
    unfold WritePass.apply logGroupFileHeaderFlush
    split_ifs <;> rfl
  | case3 files buf off len start wh hlen =>
    rename_i hnlt
    rw [logGroupWriteBuf_of_not_lt hlen hnlt, logGroupWriteBufPasses, dif_neg hlen]
    dsimp only
    rw [if_neg hnlt, List.foldl_cons, List.foldl_nil]
    unfold WritePass.apply logGroupFileHeaderFlush
    split_ifs <;> rfl

end

/-! ### What the writes are -/

section
variable {alg : List UInt8 → ℕ} {g : LogGroup} {buf' : Mem} {off len start : ℕ} {wh : Bool}

theorem WriteBufSpec.nil : WriteBufSpec alg g buf' off 0 start wh [] where
  first := by simp
  next := List.chain'_nil
  total := rfl
  range := by simp
  chunk := by simp
  inside := by simp
  blocks := by simp
  placed := by simp
  checksum := by simp
  header := by simp

/-- A pass that writes the first `wl` bytes of the range, then passes that write the rest. -/
theorem WriteBufSpec.cons {wl : ℕ} {hdr : Option FilIo} {io : FilIo} {ps : List WritePass}
    (hpos : 0 < wl) (hle : wl ≤ len) (hwl : wl % osFileLogBlockSize = 0)
    (hoff : io.offset = logGroupCalcLsnOffset g start) (hdata : io.data = buf'.read off wl)
    (hfit : io.offset % g.fileSize + wl ≤ g.fileSize)
    (hbuf : ∀ q < wl / osFileLogBlockSize, BlockChecksumOk alg buf' (off + q * osFileLogBlockSize))
    (hhdr : hdr = if wh && io.offset % g.fileSize == logFileHdrSize then
      some (logFileHeaderIo g (io.offset / g.fileSize) start) else none)
    (hps : WriteBufSpec alg g buf' (off + wl) (len - wl) (start + wl) true ps) :
    WriteBufSpec alg g buf' off len start wh (⟨start, hdr, io⟩ :: ps) := by
  have hlen : io.data.length = wl := by rw [hdata, Mem.length_read]
  have hfit' : logGroupCalcLsnOffset g start % g.fileSize + wl ≤ g.fileSize := hoff ▸ hfit
  have hafter : ∀ p ∈ ps, start < p.startLsn := fun p hp => by have := (hps.range p hp).1; omega
  refine ⟨by rintro _ ⟨⟩; rfl, List.chain'_cons'.mpr ⟨fun q hq => by rw [hps.first q hq, hlen],
    hps.next⟩, ?total, ?range, ?chunk, ?inside, ?blocks, ?placed, ?checksum, ?header⟩
  case total => rw [List.map_cons, List.sum_cons, hps.total, hlen]; omega
  case range =>
    rintro p (_ | ⟨_, hp⟩)
    · exact ⟨le_rfl, by dsimp only; omega⟩
    · have := hps.range p hp; omega
  case chunk =>
    rintro p (_ | ⟨_, hp⟩)
    · exact ⟨hoff, by dsimp only; rw [hlen, Nat.sub_self, Nat.add_zero, hdata]⟩
    · refine ⟨(hps.chunk p hp).1, (hps.chunk p hp).2.trans ?_⟩
      rw [show off + wl + (p.startLsn - (start + wl)) = off + (p.startLsn - start) by
        have := (hps.range p hp).1; omega]
  case inside =>
    rintro p (_ | ⟨_, hp⟩)
    · dsimp only
      rw [hoff, Nat.div_lt_iff_lt_mul g.fileSize_pos, ← hoff, hlen]
      exact ⟨hoff ▸ logGroupCalcLsnOffset_lt start, hoff ▸ logFileHdrSize_le_calcLsnOffset_mod start, hfit⟩
    · exact hps.inside p hp
  case blocks =>
    rintro p (_ | ⟨_, hp⟩)
    · exact ⟨hlen ▸ hpos, hlen ▸ hwl⟩
    · exact hps.blocks p hp
  case placed =>
    intro i hi
    by_cases hiw : i < wl
    · refine ⟨_, List.mem_cons_self _ _, ?_⟩
      rw [logGroupCalcLsnOffset_add (by omega), ← hoff]
      exact ⟨Nat.le_add_right _ _, by rw [Nat.add_sub_cancel_left, hdata, Mem.getElem?_read hiw]⟩
    · obtain ⟨p, hp, hw⟩ := hps.placed (i - wl) (by omega)
      refine ⟨p, List.mem_cons_of_mem _ hp, ?_⟩
      rwa [Nat.add_assoc, Nat.add_sub_cancel' (by omega), Nat.add_assoc,
        Nat.add_sub_cancel' (by omega)] at hw
  case checksum =>
    rintro p (_ | ⟨_, hp⟩)
    · intro q hq files
      dsimp only at hq ⊢
      rw [hlen] at hq
      refine (hbuf q hq).congr fun j hj => ?_
      unfold FilIo.apply
      rw [hdata, Nat.add_assoc, Nat.add_assoc, Mem.write_read_add (by unfold osFileLogBlockSize at *; omega)]
    · exact hps.checksum p hp
  case header =>
    rintro p (_ | ⟨_, hp⟩)
    · rw [hhdr]; simp only [Bool.and_eq_true, beq_iff_eq, lt_irrefl, false_or]
    · simp only [hps.header p hp, hafter p hp, or_true, true_or, true_and]

variable {files buf : Mem}

/-- The passes of one call do what `WriteBufSpec` says, by the loop's own induction. -/
theorem writeBufSpec_logGroupWriteBuf (ha : g.AnchorOk) (hlen : len % osFileLogBlockSize = 0)
    (hstart : start % osFileLogBlockSize = 0) :
    WriteBufSpec alg g (logGroupWriteBuf alg g files buf off len start wh).2 off len start wh
      (logGroupWriteBufPasses alg g buf off len start wh) := by
  induction files, buf, off, len, start, wh using logGroupWriteBuf.induct alg g with
  | case1 => rw [logGroupWriteBufPasses, dif_pos rfl]; exact .nil
  | case2 files buf off len start wh hlen0 =>
    rename_i next _ wl _ _ hlt ih
    have e₁ : wl = chunkLen g (logGroupCalcLsnOffset g start) len := rfl
    have e₂ : chunkLen g next len = wl := rfl
    have hwl : wl % osFileLogBlockSize = 0 := chunkLen_mod ha hlen hstart
    rw [logGroupWriteBuf_of_lt hlen0 hlt, logGroupWriteBufPasses, dif_neg hlen0]
    dsimp only
    rw [if_pos hlt]
    refine .cons (chunkLen_pos _ _ (Nat.pos_of_ne_zero hlen0)) (chunkLen_le _ _ _) hwl rfl
      (Mem.read_congr fun j hj => logGroupWriteBuf_buf_of_lt (by omega)).symm
      (chunkLen_fits _ _ _) (fun q hq => (blockChecksumOk_storeChecksums hq).congr fun j hj =>
        logGroupWriteBuf_buf_of_lt (by unfold osFileLogBlockSize at *; omega)) rfl
      (ih (by unfold osFileLogBlockSize at *; omega) (by unfold osFileLogBlockSize at *; omega))
  | case3 files buf off len start wh hlen0 =>
    rename_i wl hnlt
    have e₁ : wl = chunkLen g (logGroupCalcLsnOffset g start) len := rfl
    have hle : wl ≤ len := chunkLen_le _ _ _
    rw [logGroupWriteBuf_of_not_lt hlen0 hnlt, logGroupWriteBufPasses, dif_neg hlen0]
    dsimp only
    rw [if_neg hnlt]
    exact .cons (chunkLen_pos _ _ (Nat.pos_of_ne_zero hlen0)) hle (chunkLen_mod ha hlen hstart) rfl
      rfl (chunkLen_fits _ _ _) (fun q hq => blockChecksumOk_storeChecksums hq) rfl
      (by rw [show len - chunkLen g (logGroupCalcLsnOffset g start) len = 0 by omega]; exact .nil)

/-- **`log_group_write_buf` writes every byte at its LSN's place, in whole checksummed blocks
inside the files' data areas.** For a group whose anchor is a data offset placed like its LSN in
its block, and a block-aligned range and start, the call terminates (the function is total), the
files after it are its passes' writes applied in order, and those writes tile the range into
chunks of whole blocks, each inside the data area of one file; byte `i` of the buffer is written
at the place of LSN `start + i`; every block written passes its checksum test; and the header of
file `k`, with the group's id and the chunk's start LSN, is written exactly before the chunks that
start at the first data byte of file `k` and are not the first, or are the first and
`new_data_offset` is `0`. The buffer written is the one the call leaves, whose block trailers now
hold the checksums. -/
theorem logGroupWriteBuf_writes (ha : g.AnchorOk) (hlen : len % osFileLogBlockSize = 0)
    (hstart : start % osFileLogBlockSize = 0) (newDataOffset : ℕ) :
    (logGroupWriteBuf alg g files buf off len start (newDataOffset == 0)).1 =
        (logGroupWriteBufPasses alg g buf off len start (newDataOffset == 0)).foldl
          WritePass.apply files ∧
      WriteBufSpec alg g (logGroupWriteBuf alg g files buf off len start (newDataOffset == 0)).2
        off len start (newDataOffset == 0)
        (logGroupWriteBufPasses alg g buf off len start (newDataOffset == 0)) :=
  ⟨logGroupWriteBuf_eq_foldl, writeBufSpec_logGroupWriteBuf ha hlen hstart⟩

theorem logGroupWriteBuf_writes_init :
    let g := logGroupInit 0 2 (48 * 1024 * 1024) (by decide) (by decide) (by decide)
    let m : Mem := fun _ => 0
    g.AnchorOk ∧ 1024 % osFileLogBlockSize = 0 ∧ logStartLsn % osFileLogBlockSize = 0 ∧
      (logGroupWriteBuf (fun _ => 0) g m m 0 1024 logStartLsn (0 == 0)).1 =
          (logGroupWriteBufPasses (fun _ => 0) g m 0 1024 logStartLsn (0 == 0)).foldl
            WritePass.apply m ∧
        WriteBufSpec (fun _ => 0) g (logGroupWriteBuf (fun _ => 0) g m m 0 1024 logStartLsn (0 == 0)).2
          0 1024 logStartLsn (0 == 0) (logGroupWriteBufPasses (fun _ => 0) g m 0 1024 logStartLsn (0 == 0)) :=
  have ha : (logGroupInit 0 2 (48 * 1024 * 1024) (by decide) (by decide) (by decide)).AnchorOk :=
    ⟨by decide, by decide, by decide⟩
  ⟨ha, by decide, by decide, logGroupWriteBuf_writes ha (by decide) (by decide) 0⟩

end

end RedoLog

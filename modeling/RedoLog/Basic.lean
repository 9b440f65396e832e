import Mathlib.Data.Nat.Defs
import Mathlib.Data.List.Basic
import Mathlib.Algebra.Group.Nat.Basic

/-!
# Blocks, alignment and byte memory

The constants of the redo log's block format, the alignment helpers of `ut0ut`, and the byte
memory that the log buffer and the log files are modelled as.

## Modelling choices

LSNs, buffer offsets and file offsets are natural numbers. The code's `lsn_t` and `ulint` are
64 bits wide, but every LSN of a run starts from `logStartLsn` and grows by the bytes appended, so
no value the code computes comes near `2 ^ 64`; the few subtractions that could wrap in C are
guarded by a comparison in the code, and the lemmas that use them carry the comparison. One is
not: `max_buf_free = buf_size / LOG_BUF_FLUSH_RATIO - LOG_BUF_FLUSH_MARGIN` wraps when the
buffer is small for the page size, and is modelled with the wrap (`ulintSub`).

A byte memory is a total function `Mem := ℕ → UInt8`. Every `memcpy`, `memmove`, `memset` and
`mach_write_to_n` of the code is one `Mem.write`, and two lemmas describe any write: inside the
written range it reads the written bytes (`Mem.write_add`), outside it reads what was there
(`Mem.write_of_lt`, `Mem.write_of_le`).

The header `log0log.h` and the inline functions of `log0log.ic` are not in the sources; the
constants they define are taken from the spec's description of the on-disk format (§6), and
say so.
-/

namespace RedoLog

/-! ### Constants -/

/-- `OS_FILE_LOG_BLOCK_SIZE`. Modelled from the spec: the log block of §6 is 512 bytes. -/
def osFileLogBlockSize : ℕ := 512

/-- `LOG_BLOCK_HDR_SIZE`. Modelled from the spec: the header of §6 is a 4-byte block number, a
2-byte data length, a 2-byte first-record-group offset and a 4-byte checkpoint number. -/
def logBlockHdrSize : ℕ := 12

/-- `LOG_BLOCK_TRL_SIZE`. Modelled from the spec: the 4-byte checksum trailer of §6. -/
def logBlockTrlSize : ℕ := 4

/-- `LOG_FILE_HDR_SIZE`. Modelled from the spec: the header region of a log file (file header,
then the two checkpoint slots, §6) ends where the first data block starts; we take four blocks,
with the slots in blocks 1 and 3. -/
def logFileHdrSize : ℕ := 4 * osFileLogBlockSize

/-- `LOG_START_LSN`. Modelled from the spec: "the system starts at a non-zero constant"; we take
sixteen blocks. The proofs use only that it is a positive multiple of the block size. -/
def logStartLsn : ℕ := 16 * osFileLogBlockSize

/-- `LSN_MAX`, the largest value of the 64-bit `lsn_t`. -/
def lsnMax : ℕ := 2 ^ 64 - 1

/-- `LOG_BUF_WRITE_MARGIN`: free space kept in the log buffer before a log entry is appended. -/
def logBufWriteMargin : ℕ := 4 * osFileLogBlockSize

/-- `LOG_BUF_FLUSH_RATIO`. -/
def logBufFlushRatio : ℕ := 2

/-- `LOG_BUF_FLUSH_MARGIN`, for the page size `univPageSize`. -/
def logBufFlushMargin (univPageSize : ℕ) : ℕ := logBufWriteMargin + 4 * univPageSize

/-- The subtraction of two `ulint` values below `2 ^ 64`, which wraps around. -/
def ulintSub (a b : ℕ) : ℕ := (2 ^ 64 + a - b) % 2 ^ 64

theorem ulintSub_of_le {a b : ℕ} (hb : b ≤ a) (ha : a < 2 ^ 64) : ulintSub a b = a - b := by
  unfold ulintSub
  rw [show 2 ^ 64 + a - b = (a - b) + 2 ^ 64 by omega, Nat.add_mod_right, Nat.mod_eq_of_lt (by omega)]

theorem ulintSub_of_lt {a b : ℕ} (h : a < b) (hb : b ≤ 2 ^ 64) :
    ulintSub a b = 2 ^ 64 - (b - a) := by
  unfold ulintSub; rw [Nat.mod_eq_of_lt (by omega)]; omega

/-- `SIZE_OF_MLOG_CHECKPOINT`. Modelled from the spec: the `MLOG_CHECKPOINT` record is its
one-byte type followed by the 8-byte LSN it carries. -/
def sizeOfMlogCheckpoint : ℕ := 9

/-- The payload bytes of a block, by their offset in it: after the header, before the trailer. -/
def IsPayloadOffset (o : ℕ) : Prop :=
  logBlockHdrSize ≤ o % osFileLogBlockSize ∧ o % osFileLogBlockSize < osFileLogBlockSize - logBlockTrlSize

instance (o : ℕ) : Decidable (IsPayloadOffset o) := inferInstanceAs (Decidable (_ ∧ _))

/-! ### Alignment -/

/-- `ut_calc_align_down(n, m)`, for the power of two `m`: `n & ~(m - 1)`. -/
def utCalcAlignDown (n m : ℕ) : ℕ := n / m * m

/-- `ut_calc_align(n, m)`, for the power of two `m`: `(n + m - 1) & ~(m - 1)`. -/
def utCalcAlign (n m : ℕ) : ℕ := (n + m - 1) / m * m

theorem utCalcAlignDown_eq (n m : ℕ) : utCalcAlignDown n m = n - n % m := by
  rw [utCalcAlignDown, Nat.sub_eq_of_eq_add]
  rw [Nat.add_comm, Nat.mod_add_div' n m]

theorem utCalcAlignDown_le (n m : ℕ) : utCalcAlignDown n m ≤ n := by
  rw [utCalcAlignDown_eq]; exact Nat.sub_le _ _

@[simp] theorem utCalcAlignDown_mod (n m : ℕ) : utCalcAlignDown n m % m = 0 := by
  simp [utCalcAlignDown]

theorem utCalcAlign_mod (n m : ℕ) : utCalcAlign n m % m = 0 := by
  simp [utCalcAlign]

/-- Rounding up a value that is not a multiple of the block adds the rest of its block. -/
theorem utCalcAlign_eq_of_pos {n m : ℕ} (hm : 0 < m) (h : 0 < n % m) :
    utCalcAlign n m = n - n % m + m := by
  have hq : (n + m - 1) / m = n / m + 1 := by
    rw [show n + m - 1 = (n % m - 1) + (n / m + 1) * m by
      have := Nat.mod_add_div n m; rw [Nat.add_mul, Nat.mul_comm]; omega]
    rw [Nat.add_mul_div_right _ _ hm, Nat.div_eq_of_lt (by have := Nat.mod_lt n hm; omega)]
    simp
  rw [utCalcAlign, hq, Nat.add_mul, Nat.one_mul, ← utCalcAlignDown, utCalcAlignDown_eq]

/-- Rounding down commutes with adding a multiple of the alignment. -/
theorem utCalcAlignDown_add_of_mod {b : ℕ} (n : ℕ) {m : ℕ} (hb : b % m = 0) :
    utCalcAlignDown (b + n) m = b + utCalcAlignDown n m := by
  obtain ⟨k, rfl⟩ := Nat.dvd_of_mod_eq_zero hb
  rcases Nat.eq_zero_or_pos m with rfl | hm
  · simp [utCalcAlignDown]
  · rw [utCalcAlignDown, utCalcAlignDown, Nat.add_comm, Nat.add_mul_div_left _ _ hm, Nat.add_mul,
      Nat.mul_comm k, Nat.add_comm]

/-- So does rounding up. -/
theorem utCalcAlign_add_of_mod {b : ℕ} (n : ℕ) {m : ℕ} (hb : b % m = 0) (hm : 0 < m) :
    utCalcAlign (b + n) m = b + utCalcAlign n m := by
  obtain ⟨k, rfl⟩ := Nat.dvd_of_mod_eq_zero hb
  rw [utCalcAlign, utCalcAlign, show m * k + n + m - 1 = n + m - 1 + m * k by omega,
    Nat.add_mul_div_left _ _ hm, Nat.add_mul, Nat.mul_comm k, Nat.add_comm]

/-! ### Byte memory -/

/-- A byte memory: the log buffer, or the bytes of a log file group by their real offset. -/
abbrev Mem := ℕ → UInt8

namespace Mem

/-- The `n` bytes of `m` from offset `off`. -/
def read (m : Mem) (off n : ℕ) : List UInt8 := (List.range n).map fun i => m (off + i)

/-- `m` with the bytes `bs` written from offset `off`. -/
def write (m : Mem) (off : ℕ) (bs : List UInt8) : Mem := fun i =>
  if off ≤ i ∧ i < off + bs.length then bs.getD (i - off) 0 else m i

@[simp] theorem length_read (m : Mem) (off n : ℕ) : (m.read off n).length = n := by
  simp [read]

theorem getD_read {m : Mem} {off n j : ℕ} (h : j < n) : (m.read off n).getD j 0 = m (off + j) := by
  simp [read, List.getD_eq_getElem?_getD, h]

/-- Two memories that agree on `n` bytes, from `off'` in one and `off` in the other, read the
same bytes there. -/
theorem read_congr {m m' : Mem} {off off' n : ℕ} (h : ∀ j < n, m' (off' + j) = m (off + j)) :
    m'.read off' n = m.read off n :=
  List.map_congr_left fun j hj => h j (List.mem_range.mp hj)

theorem getElem?_read {m : Mem} {off n j : ℕ} (h : j < n) : (m.read off n)[j]? = some (m (off + j)) := by
  simp [read, h]

theorem write_of_lt {m : Mem} {off i : ℕ} (bs : List UInt8) (h : i < off) : m.write off bs i = m i := by
  simp [write, Nat.not_le.mpr h]

theorem write_of_le {m : Mem} {off i : ℕ} {bs : List UInt8} (h : off + bs.length ≤ i) :
    m.write off bs i = m i := by
  simp [write, Nat.not_lt.mpr h]

theorem write_add {m : Mem} {off j : ℕ} {bs : List UInt8} (h : j < bs.length) :
    m.write off bs (off + j) = bs.getD j 0 := by
  simp [write, h]

/-- A write changes only the bytes of its range. -/
theorem write_of_not_mem {m : Mem} {off i : ℕ} {bs : List UInt8}
    (h : i < off ∨ off + bs.length ≤ i) : m.write off bs i = m i := by
  rcases h with h | h
  · exact write_of_lt bs h
  · exact write_of_le h

/-- Reading back a copy: `memcpy(dst, src + off, n)` reads, at `dst + j`, the source byte
`off + j`. -/
theorem write_read_add {m src : Mem} {dst off n j : ℕ} (h : j < n) :
    m.write dst (src.read off n) (dst + j) = src (off + j) := by
  rw [write_add (by simpa using h), getD_read h]

/-- `memset(dst, v, n)`. -/
def fill (m : Mem) (dst n : ℕ) (v : UInt8) : Mem := m.write dst (List.replicate n v)

/-- `memmove(dst, m + src, n)`: the source range is read before any byte is written. -/
def move (m : Mem) (dst src n : ℕ) : Mem := m.write dst (m.read src n)

/-- The `n`-byte big-endian encoding of `v`, as `mach_write_to_n` stores it. -/
def bigEndian (n v : ℕ) : List UInt8 :=
  (List.range n).map fun i => UInt8.ofNat (v / 256 ^ (n - 1 - i))

@[simp] theorem length_bigEndian (n v : ℕ) : (bigEndian n v).length = n := by
  simp [bigEndian]

/-- `mach_write_to_n(m + off, v)`. -/
def machWrite (m : Mem) (off n v : ℕ) : Mem := m.write off (bigEndian n v)

/-- `mach_write_to_n` changes only the `n` bytes of its field. -/
theorem machWrite_of_not_mem {m : Mem} {off n v p : ℕ} (h : p < off ∨ off + n ≤ p) :
    m.machWrite off n v p = m p :=
  write_of_not_mem (by rwa [length_bigEndian])

/-- `mach_read_from_n(m + off)`. -/
def machRead (m : Mem) (off n : ℕ) : ℕ :=
  (m.read off n).foldl (fun acc b => acc * 256 + b.toNat) 0

/-! ### Reading back a field -/

theorem bigEndian_succ (n v : ℕ) :
    bigEndian (n + 1) v = UInt8.ofNat (v / 256 ^ n) :: bigEndian n v := by
  simp only [bigEndian, List.range_succ_eq_map, List.map_cons, List.map_map, Function.comp_def,
    Nat.add_sub_cancel, Nat.sub_zero, Nat.sub_sub, Nat.add_comm 1]

/-- The fold of `mach_read_from_n` shifts its start past the bytes it reads. -/
theorem foldl_bytes (a : ℕ) (l : List UInt8) :
    l.foldl (fun acc b => acc * 256 + b.toNat) a =
      a * 256 ^ l.length + l.foldl (fun acc b => acc * 256 + b.toNat) 0 := by
  induction l generalizing a with
  | nil => simp
  | cons b l ih =>
    simp only [List.foldl_cons]
    rw [ih, ih (0 * 256 + _), List.length_cons, Nat.pow_succ]
    simp only [Nat.add_mul, Nat.zero_mul, Nat.zero_add, Nat.mul_assoc, Nat.mul_comm 256 (256 ^ _)]
    omega

theorem foldl_bigEndian (n v : ℕ) :
    (bigEndian n v).foldl (fun acc b => acc * 256 + b.toNat) 0 = v % 256 ^ n := by
  induction n with
  | zero => simp [bigEndian, Nat.mod_one]
  | succ n ih =>
    rw [bigEndian_succ, List.foldl_cons, foldl_bytes, ih, length_bigEndian, Nat.mod_pow_succ,
      show (UInt8.ofNat (v / 256 ^ n)).toNat = v / 256 ^ n % 256 from rfl, Nat.zero_mul,
      Nat.zero_add, Nat.mul_comm, Nat.add_comm]

theorem read_write (m : Mem) (off : ℕ) (bs : List UInt8) :
    (m.write off bs).read off bs.length = bs := by
  apply List.ext_getElem (by simp)
  intro i _ h
  simp [read, write_add h, List.getD_eq_getElem?_getD, h]

/-- **The field codec round-trips**: `mach_read_from_n` reads back what `mach_write_to_n` wrote,
modulo the field's width. -/
theorem machRead_machWrite (m : Mem) (off n v : ℕ) :
    (m.machWrite off n v).machRead off n = v % 256 ^ n := by
  have h := read_write m off (bigEndian n v)
  rw [length_bigEndian] at h
  rw [machRead, machWrite, h, foldl_bigEndian]

/-- A field reads only its own bytes, wherever they sit. -/
theorem machRead_congr {m m' : Mem} {off off' n : ℕ} (h : ∀ j < n, m' (off' + j) = m (off + j)) :
    m'.machRead off' n = m.machRead off n := by
  unfold machRead; rw [read_congr h]

/-- A field whose bytes are still those a `mach_write_to_n` put there reads back its value. -/
theorem machRead_of_agree {m m' : Mem} {off n v : ℕ}
    (h : ∀ j < n, m' (off + j) = m.machWrite off n v (off + j)) : m'.machRead off n = v % 256 ^ n :=
  (machRead_congr h).trans (machRead_machWrite m off n v)

end Mem

end RedoLog

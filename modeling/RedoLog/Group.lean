import RedoLog.LogSys
import Mathlib.Data.Nat.ModEq
import Mathlib.Tactic.Ring
import Mathlib.Data.Set.Function

/-!
# Where an LSN lives in a log group

A log group is `n` files of `F` bytes each; the first `H = LOG_FILE_HDR_SIZE` bytes of a file are
its header and the rest, `D = F - H` bytes, hold log data. The group's files form one ring of
`C = n * D` data bytes (`log_group_get_capacity`). Two offsets name a data byte: its *size offset*
in `[0, C)`, counting data bytes only, and its *real offset*, counting headers too.

`log_group_calc_lsn_offset` places an LSN relative to the group's anchor `(lsn, lsn_offset)`: the
size offset of LSN `L` is the anchor's size offset moved by `L - lsn`, reduced modulo `C`.

## Main results

* `logGroupCalcRealOffset_eq` — the real offset of size offset `x` is `x / D * F + H + x % D`:
  file `x / D`, after that file's header.
* `logGroupCalcRealOffset_offsetConversions` — the two conversions are inverse on data offsets,
  and the real offset maps the group's size offsets increasingly onto its data offsets.
* `lsnSizeOffset_eq_iff` — two LSNs share a size offset exactly when they agree modulo `C`.
* `lsnSizeOffset_succ` — consecutive LSNs have consecutive size offsets, around the ring.
* `lsnSizeOffset_logGroupSetFields` — re-anchoring a group with `log_group_set_fields` moves no
  LSN.
* `logGroupCalcLsnOffset_offsetLaws` — the laws of the map, collected in `LogGroup.OffsetLaws`.
* `logCalcWhereLsnIs_eq` — `log_calc_where_lsn_is`, the locator the code uses with no group at
  hand, agrees with `log_group_calc_lsn_offset` on both sides of the anchor.
-/

namespace RedoLog

namespace LogGroup

variable (g : LogGroup)

/-- The data bytes of one file, `file_size - LOG_FILE_HDR_SIZE`. -/
def dataSize : ℕ := g.fileSize - logFileHdrSize

theorem dataSize_pos : 0 < g.dataSize := Nat.sub_pos_of_lt g.logFileHdrSize_lt

theorem fileSize_eq : g.fileSize = g.dataSize + logFileHdrSize :=
  (Nat.sub_add_cancel g.logFileHdrSize_lt.le).symm

theorem fileSize_pos : 0 < g.fileSize := Nat.lt_of_le_of_lt (Nat.zero_le _) g.logFileHdrSize_lt

theorem capacity_eq : logGroupGetCapacity g = g.dataSize * g.nFiles := rfl

theorem capacity_pos : 0 < logGroupGetCapacity g := Nat.mul_pos g.dataSize_pos g.nFiles_pos

end LogGroup

/-- `log_group_calc_size_offset`: a real offset without the headers before it. -/
def logGroupCalcSizeOffset (g : LogGroup) (offset : ℕ) : ℕ :=
  offset - logFileHdrSize * (1 + offset / g.fileSize)

/-- `log_group_calc_real_offset`: a size offset with the headers before it. -/
def logGroupCalcRealOffset (g : LogGroup) (offset : ℕ) : ℕ :=
  offset + logFileHdrSize * (1 + offset / (g.fileSize - logFileHdrSize))

/-- `log_group_calc_lsn_offset`: the real offset of LSN `lsn`. -/
def logGroupCalcLsnOffset (g : LogGroup) (lsn : ℕ) : ℕ :=
  let grLsn := g.lsn
  let grLsnSizeOffset := logGroupCalcSizeOffset g g.lsnOffset
  let groupSize := logGroupGetCapacity g
  let difference := if grLsn ≤ lsn then lsn - grLsn else groupSize - (grLsn - lsn) % groupSize
  logGroupCalcRealOffset g ((grLsnSizeOffset + difference) % groupSize)

/-- `log_group_set_fields`: anchor the group at `lsn`. -/
def logGroupSetFields (g : LogGroup) (lsn : ℕ) : LogGroup :=
  { g with lsnOffset := logGroupCalcLsnOffset g lsn, lsn }

@[simp] theorem logGroupSetFields_fileSize (g : LogGroup) (lsn : ℕ) :
    (logGroupSetFields g lsn).fileSize = g.fileSize := rfl

@[simp] theorem logGroupSetFields_nFiles (g : LogGroup) (lsn : ℕ) :
    (logGroupSetFields g lsn).nFiles = g.nFiles := rfl

@[simp] theorem logGroupSetFields_id (g : LogGroup) (lsn : ℕ) :
    (logGroupSetFields g lsn).id = g.id := rfl

@[simp] theorem logGroupGetCapacity_logGroupSetFields (g : LogGroup) (lsn : ℕ) :
    logGroupGetCapacity (logGroupSetFields g lsn) = logGroupGetCapacity g := rfl

variable {g : LogGroup}

/-! ### Real and size offsets -/

theorem logGroupCalcRealOffset_eq (x : ℕ) :
    logGroupCalcRealOffset g x = logFileHdrSize + x % g.dataSize + x / g.dataSize * g.fileSize := by
  have hx := Nat.div_add_mod' x g.dataSize
  rw [logGroupCalcRealOffset, ← LogGroup.dataSize, g.fileSize_eq]
  nth_rewrite 1 [← hx]
  ring

theorem logFileHdrSize_add_lt_fileSize {r : ℕ} (hr : r < g.dataSize) :
    logFileHdrSize + r < g.fileSize := by
  rw [g.fileSize_eq]; omega

theorem logGroupCalcRealOffset_mod (x : ℕ) :
    logGroupCalcRealOffset g x % g.fileSize = logFileHdrSize + x % g.dataSize := by
  rw [logGroupCalcRealOffset_eq, Nat.add_mul_mod_self_right,
    Nat.mod_eq_of_lt (logFileHdrSize_add_lt_fileSize (Nat.mod_lt x g.dataSize_pos))]

theorem logGroupCalcRealOffset_div (x : ℕ) :
    logGroupCalcRealOffset g x / g.fileSize = x / g.dataSize := by
  rw [logGroupCalcRealOffset_eq, Nat.add_mul_div_right _ _ g.fileSize_pos,
    Nat.div_eq_of_lt (logFileHdrSize_add_lt_fileSize (Nat.mod_lt x g.dataSize_pos)), Nat.zero_add]

/-- A real offset is a data offset: past its file's header. -/
theorem logFileHdrSize_le_calcRealOffset_mod (x : ℕ) :
    logFileHdrSize ≤ logGroupCalcRealOffset g x % g.fileSize := by
  rw [logGroupCalcRealOffset_mod]; exact Nat.le_add_right _ _

theorem logGroupCalcSizeOffset_calcRealOffset (x : ℕ) :
    logGroupCalcSizeOffset g (logGroupCalcRealOffset g x) = x := by
  rw [logGroupCalcSizeOffset, logGroupCalcRealOffset_div]
  exact @Nat.add_sub_cancel x (logFileHdrSize * (1 + x / g.dataSize))

theorem logGroupCalcSizeOffset_eq {q r : ℕ} (hr : r < g.dataSize) :
    logGroupCalcSizeOffset g (logFileHdrSize + r + q * g.fileSize) = r + q * g.dataSize := by
  have hF := g.fileSize_eq
  have hdiv : (logFileHdrSize + r + q * g.fileSize) / g.fileSize = q := by
    rw [Nat.add_mul_div_right _ _ g.fileSize_pos, Nat.div_eq_of_lt (logFileHdrSize_add_lt_fileSize hr),
      Nat.zero_add]
  have hqF : q * g.fileSize = q * g.dataSize + q * logFileHdrSize := by rw [hF, Nat.mul_add]
  rw [logGroupCalcSizeOffset, hdiv, Nat.mul_add, Nat.mul_one, Nat.mul_comm logFileHdrSize q]
  omega

theorem logGroupCalcRealOffset_calcSizeOffset {y : ℕ} (hy : logFileHdrSize ≤ y % g.fileSize) :
    logGroupCalcRealOffset g (logGroupCalcSizeOffset g y) = y := by
  have hF := g.fileSize_eq
  have hlt := Nat.mod_lt y g.fileSize_pos
  have hr : y % g.fileSize - logFileHdrSize < g.dataSize := by omega
  have hy' : logFileHdrSize + (y % g.fileSize - logFileHdrSize) + y / g.fileSize * g.fileSize = y := by
    have := Nat.mod_add_div y g.fileSize; rw [Nat.mul_comm] at this; omega
  rw [← hy', logGroupCalcSizeOffset_eq hr, logGroupCalcRealOffset_eq, Nat.add_mul_mod_self_right,
    Nat.mod_eq_of_lt hr, Nat.add_mul_div_right _ _ g.dataSize_pos, Nat.div_eq_of_lt hr, Nat.zero_add]

/-! ### The size offset of an LSN -/

/-- The size offset `log_group_calc_lsn_offset` computes for `lsn` before converting it to a real
offset. -/
def lsnSizeOffset (g : LogGroup) (lsn : ℕ) : ℕ :=
  let groupSize := logGroupGetCapacity g
  let difference := if g.lsn ≤ lsn then lsn - g.lsn else groupSize - (g.lsn - lsn) % groupSize
  (logGroupCalcSizeOffset g g.lsnOffset + difference) % groupSize

theorem logGroupCalcLsnOffset_eq (lsn : ℕ) :
    logGroupCalcLsnOffset g lsn = logGroupCalcRealOffset g (lsnSizeOffset g lsn) := rfl

theorem lsnSizeOffset_lt (lsn : ℕ) : lsnSizeOffset g lsn < logGroupGetCapacity g :=
  Nat.mod_lt _ g.capacity_pos

/-- The size offset of `lsn` is the anchor's, moved by `lsn - g.lsn` around the ring. -/
theorem lsnSizeOffset_add_modEq (lsn : ℕ) :
    lsnSizeOffset g lsn + g.lsn ≡ logGroupCalcSizeOffset g g.lsnOffset + lsn
      [MOD logGroupGetCapacity g] := by
  have hmod := (Nat.mod_modEq (logGroupCalcSizeOffset g g.lsnOffset +
    (if g.lsn ≤ lsn then lsn - g.lsn else logGroupGetCapacity g -
      (g.lsn - lsn) % logGroupGetCapacity g)) (logGroupGetCapacity g)).add_right g.lsn
  refine hmod.trans ?_
  split_ifs with h
  · rw [Nat.add_assoc, Nat.sub_add_cancel h]
  · have hd := Nat.mod_add_div (g.lsn - lsn) (logGroupGetCapacity g)
    have hlt := Nat.mod_lt (g.lsn - lsn) g.capacity_pos
    have : logGroupCalcSizeOffset g g.lsnOffset + (logGroupGetCapacity g -
        (g.lsn - lsn) % logGroupGetCapacity g) + g.lsn = logGroupCalcSizeOffset g g.lsnOffset + lsn +
        logGroupGetCapacity g * (1 + (g.lsn - lsn) / logGroupGetCapacity g) := by
      rw [Nat.mul_add, Nat.mul_one]; omega
    rw [this, Nat.ModEq, Nat.add_mul_mod_self_left]

/-- Two LSNs share a place in the group exactly when they agree modulo the capacity. -/
theorem lsnSizeOffset_eq_iff {lsn lsn' : ℕ} :
    lsnSizeOffset g lsn = lsnSizeOffset g lsn' ↔ lsn ≡ lsn' [MOD logGroupGetCapacity g] := by
  constructor
  · intro h
    have := (lsnSizeOffset_add_modEq lsn).symm.trans (h ▸ lsnSizeOffset_add_modEq (g := g) lsn')
    exact Nat.ModEq.add_left_cancel' _ this
  · intro h
    refine Nat.ModEq.eq_of_lt_of_lt ?_ (lsnSizeOffset_lt lsn) (lsnSizeOffset_lt lsn')
    exact Nat.ModEq.add_right_cancel' g.lsn ((lsnSizeOffset_add_modEq lsn).trans
      ((h.add_left _).trans (lsnSizeOffset_add_modEq lsn').symm))

/-- `i` LSNs further on is `i` bytes further on around the ring. -/
theorem lsnSizeOffset_add (lsn i : ℕ) :
    lsnSizeOffset g (lsn + i) = (lsnSizeOffset g lsn + i) % logGroupGetCapacity g := by
  refine Nat.ModEq.eq_of_lt_of_lt ?_ (lsnSizeOffset_lt _) (Nat.mod_lt _ g.capacity_pos)
  refine Nat.ModEq.add_right_cancel' g.lsn ?_
  calc lsnSizeOffset g (lsn + i) + g.lsn
      ≡ logGroupCalcSizeOffset g g.lsnOffset + lsn + i [MOD logGroupGetCapacity g] :=
        Nat.add_assoc _ lsn i ▸ lsnSizeOffset_add_modEq _
    _ ≡ lsnSizeOffset g lsn + g.lsn + i [MOD logGroupGetCapacity g] := ((lsnSizeOffset_add_modEq lsn).symm).add_right _
    _ = lsnSizeOffset g lsn + i + g.lsn := Nat.add_right_comm _ _ _
    _ ≡ (lsnSizeOffset g lsn + i) % logGroupGetCapacity g + g.lsn [MOD logGroupGetCapacity g] :=
      ((Nat.mod_modEq _ _).symm).add_right _

/-- `log_group_set_fields` re-anchors the group without moving any LSN. -/
theorem lsnSizeOffset_logGroupSetFields (m lsn : ℕ) :
    lsnSizeOffset (logGroupSetFields g m) lsn = lsnSizeOffset g lsn := by
  have hC : logGroupGetCapacity (logGroupSetFields g m) = logGroupGetCapacity g := rfl
  have hso : logGroupCalcSizeOffset (logGroupSetFields g m) (logGroupSetFields g m).lsnOffset =
      lsnSizeOffset g m := logGroupCalcSizeOffset_calcRealOffset (g := g) _
  have hnew := lsnSizeOffset_add_modEq (g := logGroupSetFields g m) lsn
  rw [hC, hso] at hnew
  refine Nat.ModEq.eq_of_lt_of_lt ?_ (hC ▸ lsnSizeOffset_lt lsn) (lsnSizeOffset_lt lsn)
  refine Nat.ModEq.add_right_cancel' m (hnew.trans ?_)
  refine Nat.ModEq.add_right_cancel' g.lsn ?_
  calc lsnSizeOffset g m + lsn + g.lsn = lsnSizeOffset g m + g.lsn + lsn := Nat.add_right_comm _ _ _
    _ ≡ logGroupCalcSizeOffset g g.lsnOffset + m + lsn [MOD logGroupGetCapacity g] := (lsnSizeOffset_add_modEq m).add_right _
    _ = logGroupCalcSizeOffset g g.lsnOffset + lsn + m := Nat.add_right_comm _ _ _
    _ ≡ lsnSizeOffset g lsn + g.lsn + m [MOD logGroupGetCapacity g] := ((lsnSizeOffset_add_modEq lsn).symm).add_right _
    _ = lsnSizeOffset g lsn + m + g.lsn := Nat.add_right_comm _ _ _

theorem logGroupCalcLsnOffset_logGroupSetFields (m lsn : ℕ) :
    logGroupCalcLsnOffset (logGroupSetFields g m) lsn = logGroupCalcLsnOffset g lsn := by
  rw [logGroupCalcLsnOffset_eq, logGroupCalcLsnOffset_eq, lsnSizeOffset_logGroupSetFields]
  rfl

/-! ### The real offset of an LSN -/

/-- Every LSN is placed in a data area, past its file's header. -/
theorem logFileHdrSize_le_calcLsnOffset_mod (lsn : ℕ) :
    logFileHdrSize ≤ logGroupCalcLsnOffset g lsn % g.fileSize :=
  logFileHdrSize_le_calcRealOffset_mod _

theorem logGroupCalcLsnOffset_eq_iff {lsn lsn' : ℕ} :
    logGroupCalcLsnOffset g lsn = logGroupCalcLsnOffset g lsn' ↔
      lsn ≡ lsn' [MOD logGroupGetCapacity g] := by
  rw [← lsnSizeOffset_eq_iff, logGroupCalcLsnOffset_eq, logGroupCalcLsnOffset_eq]
  constructor
  · intro h
    rw [← logGroupCalcSizeOffset_calcRealOffset (g := g) (lsnSizeOffset g lsn), h,
      logGroupCalcSizeOffset_calcRealOffset]
  · exact congrArg _

/-- Inside one file, consecutive LSNs sit at consecutive real offsets. -/
theorem logGroupCalcLsnOffset_add {lsn i : ℕ}
    (h : logGroupCalcLsnOffset g lsn % g.fileSize + i < g.fileSize) :
    logGroupCalcLsnOffset g (lsn + i) = logGroupCalcLsnOffset g lsn + i := by
  rw [logGroupCalcLsnOffset_eq, logGroupCalcRealOffset_mod] at h
  rw [logGroupCalcLsnOffset_eq, logGroupCalcLsnOffset_eq, lsnSizeOffset_add]
  have hlt := lsnSizeOffset_lt (g := g) lsn
  generalize lsnSizeOffset g lsn = x at h hlt ⊢
  have hF := g.fileSize_eq
  have hx := Nat.mod_add_div x g.dataSize
  have hq : x / g.dataSize < g.nFiles := by
    rw [Nat.div_lt_iff_lt_mul g.dataSize_pos, Nat.mul_comm]; exact hlt
  have hq' : (x / g.dataSize + 1) * g.dataSize ≤ logGroupGetCapacity g := by
    rw [g.capacity_eq, Nat.mul_comm g.dataSize]; exact Nat.mul_le_mul_right _ hq
  have hr : x % g.dataSize + i < g.dataSize := by omega
  have hxi : x + i = x % g.dataSize + i + x / g.dataSize * g.dataSize := by
    rw [Nat.mul_comm] at hx; omega
  rw [Nat.mod_eq_of_lt (by rw [Nat.add_mul] at hq'; omega), logGroupCalcRealOffset_eq,
    logGroupCalcRealOffset_eq, hxi, Nat.add_mul_mod_self_right, Nat.mod_eq_of_lt hr,
    Nat.add_mul_div_right _ _ g.dataSize_pos, Nat.div_eq_of_lt hr, Nat.zero_add]
  omega

/-- The anchor conditions `log_group_set_fields` keeps: the anchor is a data offset, and it sits
at the same place in its block as the anchor LSN, in files of whole blocks. -/
structure LogGroup.AnchorOk (g : LogGroup) : Prop where
  data : logFileHdrSize ≤ g.lsnOffset % g.fileSize
  block : g.lsnOffset % osFileLogBlockSize = g.lsn % osFileLogBlockSize
  fileSize_mod : g.fileSize % osFileLogBlockSize = 0

/-- With files of whole blocks and an aligned anchor, every LSN sits at the same place in its
block on disk as in the log. -/
theorem logGroupCalcLsnOffset_mod_block (ha : g.AnchorOk) (lsn : ℕ) :
    logGroupCalcLsnOffset g lsn % osFileLogBlockSize = lsn % osFileLogBlockSize := by
  have hH : logFileHdrSize % osFileLogBlockSize = 0 := rfl
  have hD : g.dataSize % osFileLogBlockSize = 0 := by
    have := ha.fileSize_mod
    rw [LogGroup.dataSize]; unfold logFileHdrSize osFileLogBlockSize at *; omega
  have hblk : osFileLogBlockSize ∣ logGroupGetCapacity g := by
    rw [g.capacity_eq]; exact Dvd.dvd.mul_right (Nat.dvd_of_mod_eq_zero hD) _
  -- a real offset and its size offset share their place in the block
  have hreal : ∀ x, logGroupCalcRealOffset g x % osFileLogBlockSize = x % osFileLogBlockSize := by
    intro x
    rw [logGroupCalcRealOffset, Nat.add_mod, Nat.mul_mod, hH]; simp
  have hso : logGroupCalcSizeOffset g g.lsnOffset % osFileLogBlockSize =
      g.lsnOffset % osFileLogBlockSize := by
    rw [← hreal, logGroupCalcRealOffset_calcSizeOffset ha.data]
  have key := (lsnSizeOffset_add_modEq (g := g) lsn).of_dvd hblk
  rw [logGroupCalcLsnOffset_eq, hreal]
  unfold Nat.ModEq at key
  rw [Nat.add_mod, ha.block.symm.trans (hso.symm), ← Nat.add_mod, Nat.add_comm,
    Nat.add_mod (logGroupCalcSizeOffset g g.lsnOffset)] at key
  have h1 := Nat.mod_lt (lsnSizeOffset g lsn) (show 0 < osFileLogBlockSize by decide)
  have h2 := Nat.mod_lt lsn (show 0 < osFileLogBlockSize by decide)
  unfold osFileLogBlockSize at *
  omega

/-- Inside an aligned block, the real offsets run on with the LSNs. -/
theorem logGroupCalcLsnOffset_add_of_mod (ha : g.AnchorOk) {b i : ℕ}
    (hb : b % osFileLogBlockSize = 0) (hi : i < osFileLogBlockSize) :
    logGroupCalcLsnOffset g (b + i) = logGroupCalcLsnOffset g b + i := by
  apply logGroupCalcLsnOffset_add
  have h1 : logGroupCalcLsnOffset g b % g.fileSize % osFileLogBlockSize = 0 := by
    rw [Nat.mod_mod_of_dvd _ (Nat.dvd_of_mod_eq_zero ha.fileSize_mod), logGroupCalcLsnOffset_mod_block ha, hb]
  have h2 := ha.fileSize_mod
  have h3 := Nat.mod_lt (logGroupCalcLsnOffset g b) g.fileSize_pos
  unfold osFileLogBlockSize at *
  omega

/-- `log_group_set_fields` keeps the anchor conditions. -/
theorem LogGroup.AnchorOk.logGroupSetFields (ha : g.AnchorOk) (lsn : ℕ) :
    (logGroupSetFields g lsn).AnchorOk :=
  ⟨logFileHdrSize_le_calcLsnOffset_mod lsn, logGroupCalcLsnOffset_mod_block ha lsn, ha.fileSize_mod⟩

/-- A size offset below the capacity has its real offset inside the group's files. -/
theorem logGroupCalcRealOffset_lt {x : ℕ} (hx : x < logGroupGetCapacity g) :
    logGroupCalcRealOffset g x < g.nFiles * g.fileSize := by
  have hq : x / g.dataSize < g.nFiles := by
    rw [Nat.div_lt_iff_lt_mul g.dataSize_pos, Nat.mul_comm]; exact hx
  have hr := Nat.mod_lt x g.dataSize_pos
  have hF := g.fileSize_eq
  rw [logGroupCalcRealOffset_eq]
  calc logFileHdrSize + x % g.dataSize + x / g.dataSize * g.fileSize
      < g.fileSize + x / g.dataSize * g.fileSize := by omega
    _ = (x / g.dataSize + 1) * g.fileSize := by ring
    _ ≤ g.nFiles * g.fileSize := Nat.mul_le_mul_right _ hq

theorem logGroupCalcLsnOffset_lt (lsn : ℕ) : logGroupCalcLsnOffset g lsn < g.nFiles * g.fileSize :=
  logGroupCalcRealOffset_lt (lsnSizeOffset_lt lsn)

/-- A later data byte sits at a later real offset: the headers before it are never fewer. -/
theorem logGroupCalcRealOffset_strictMono : StrictMono (logGroupCalcRealOffset g) := fun _ _ hab =>
  Nat.add_lt_add_of_lt_of_le hab <|
    Nat.mul_le_mul_left _ <| Nat.add_le_add_left (Nat.div_le_div_right hab.le) 1

/-- The size offset just past the group's data is placed after the header of a file past the
last one. -/
theorem logGroupCalcRealOffset_capacity :
    logGroupCalcRealOffset g (logGroupGetCapacity g) = logFileHdrSize + g.nFiles * g.fileSize := by
  rw [logGroupCalcRealOffset_eq, g.capacity_eq, Nat.mul_mod_right,
    Nat.mul_div_cancel_left _ g.dataSize_pos, Nat.add_zero]

/-- The laws of the two offset conversions of a group: they are inverse on data offsets, a real
offset is a data offset, the real offset is increasing, and it maps the size offsets of the
group's data, `[0, n * (F - H))`, one to one onto the data offsets below `n * F`. -/
structure LogGroup.OffsetConversions (g : LogGroup) : Prop where
  size_real : ∀ x, logGroupCalcSizeOffset g (logGroupCalcRealOffset g x) = x
  data : ∀ x, logFileHdrSize ≤ logGroupCalcRealOffset g x % g.fileSize
  real_size : ∀ y, logFileHdrSize ≤ y % g.fileSize →
    logGroupCalcRealOffset g (logGroupCalcSizeOffset g y) = y
  strictMono : StrictMono (logGroupCalcRealOffset g)
  bijOn : Set.BijOn (logGroupCalcRealOffset g) (Set.Iio (logGroupGetCapacity g))
    {y | y < g.nFiles * g.fileSize ∧ logFileHdrSize ≤ y % g.fileSize}

/-- **`log_group_calc_size_offset` and `log_group_calc_real_offset` are inverse** on the data
offsets of every group, whatever its file size. The onto part of the bijection is the inverse
read backwards: a data offset below `n * F` is the real offset of its size offset, which is below
the capacity because the real offset of the capacity is past `n * F`. -/
theorem logGroupCalcRealOffset_offsetConversions (g : LogGroup) : g.OffsetConversions where
  size_real := logGroupCalcSizeOffset_calcRealOffset
  data := logFileHdrSize_le_calcRealOffset_mod
  real_size _ := logGroupCalcRealOffset_calcSizeOffset
  strictMono := logGroupCalcRealOffset_strictMono
  bijOn := by
    refine ⟨fun x hx => ⟨logGroupCalcRealOffset_lt hx, logFileHdrSize_le_calcRealOffset_mod x⟩,
      logGroupCalcRealOffset_strictMono.injective.injOn, fun y ⟨hy, hd⟩ => ⟨_, ?_,
        logGroupCalcRealOffset_calcSizeOffset hd⟩⟩
    rw [Set.mem_Iio, ← logGroupCalcRealOffset_strictMono.lt_iff_lt,
      logGroupCalcRealOffset_calcSizeOffset hd, logGroupCalcRealOffset_capacity]
    omega

/-- The laws of the LSN-to-offset map of a group: every LSN is placed in the data area of one of
the files, at the same place of its block; two LSNs share a place exactly when they agree modulo
the capacity; the next LSN sits at the next offset unless the offset ends a file; and
`log_group_set_fields` re-establishes the anchor conditions and moves no LSN. -/
structure LogGroup.OffsetLaws (g : LogGroup) : Prop where
  data : ∀ lsn, logFileHdrSize ≤ logGroupCalcLsnOffset g lsn % g.fileSize
  lt : ∀ lsn, logGroupCalcLsnOffset g lsn < g.nFiles * g.fileSize
  block : ∀ lsn, logGroupCalcLsnOffset g lsn % osFileLogBlockSize = lsn % osFileLogBlockSize
  eq_iff : ∀ lsn lsn', logGroupCalcLsnOffset g lsn = logGroupCalcLsnOffset g lsn' ↔
    lsn ≡ lsn' [MOD logGroupGetCapacity g]
  succ : ∀ lsn, logGroupCalcLsnOffset g lsn % g.fileSize ≠ g.fileSize - 1 →
    logGroupCalcLsnOffset g (lsn + 1) = logGroupCalcLsnOffset g lsn + 1
  setFields : ∀ m, (logGroupSetFields g m).AnchorOk ∧
    (logGroupSetFields g m).lsnOffset < g.nFiles * g.fileSize ∧
    ∀ lsn, logGroupCalcLsnOffset (logGroupSetFields g m) lsn = logGroupCalcLsnOffset g lsn

/-- **The laws of `log_group_calc_lsn_offset`** hold for every group whose anchor is a data offset
at the place of its block the anchor LSN has. -/
theorem logGroupCalcLsnOffset_offsetLaws (ha : g.AnchorOk) : g.OffsetLaws where
  data := logFileHdrSize_le_calcLsnOffset_mod
  lt := logGroupCalcLsnOffset_lt
  block := logGroupCalcLsnOffset_mod_block ha
  eq_iff _ _ := logGroupCalcLsnOffset_eq_iff
  succ lsn h := logGroupCalcLsnOffset_add <| by
    have := Nat.mod_lt (logGroupCalcLsnOffset g lsn) g.fileSize_pos; omega
  setFields m := ⟨ha.logGroupSetFields m, logGroupCalcLsnOffset_lt m,
    logGroupCalcLsnOffset_logGroupSetFields m⟩

theorem logGroupInit_offsetLaws :
    let g := logGroupInit 0 2 (48 * 1024 * 1024) (by decide) (by decide) (by decide)
    g.AnchorOk ∧ g.OffsetLaws :=
  have ha : (logGroupInit 0 2 (48 * 1024 * 1024) (by decide) (by decide) (by decide)).AnchorOk :=
    ⟨by decide, by decide, by decide⟩
  ⟨ha, logGroupCalcLsnOffset_offsetLaws ha⟩

/-! ### `log_calc_where_lsn_is` -/

/-- `log_calc_where_lsn_is(&log_file_offset, first_header_lsn, lsn, n_log_files,
log_file_size)`: the number of the file holding `lsn` and its offset in that file, header
included, for files whose data starts at `first_header_lsn`; `none` where the
`ut_a(lsn >= first_header_lsn)` fails. The code computes in signed and unsigned 64-bit words;
with LSNs below `2 ^ 62` and a capacity below `2 ^ 62`, every value it computes is nonnegative and
below `2 ^ 63`, so the words hold the natural numbers computed here. -/
def logCalcWhereLsnIs (firstHeaderLsn lsn nLogFiles logFileSize : ℕ) : Option (ℕ × ℕ) :=
  let capacity := logFileSize - logFileHdrSize
  let lsn := if lsn < firstHeaderLsn then
      let addThisMany := 1 + (firstHeaderLsn - lsn) / (capacity * nLogFiles)
      lsn + addThisMany * capacity * nLogFiles
    else lsn
  if firstHeaderLsn ≤ lsn then
    some ((lsn - firstHeaderLsn) / capacity % nLogFiles,
      (lsn - firstHeaderLsn) % capacity + logFileHdrSize)
  else none

/-- The anchor `(lsn, LOG_FILE_HDR_SIZE)` has size offset zero. -/
theorem logGroupCalcSizeOffset_logFileHdrSize : logGroupCalcSizeOffset g logFileHdrSize = 0 := by
  rw [logGroupCalcSizeOffset, Nat.div_eq_of_lt g.logFileHdrSize_lt]; rfl

/-- For a group anchored at the start of its first file's data, an LSN `lsn'` at or past the
anchor that agrees with `lsn` modulo the capacity gives `lsn` its size offset. -/
theorem lsnSizeOffset_eq_of_modEq (ho : g.lsnOffset = logFileHdrSize) {lsn lsn' : ℕ}
    (hle : g.lsn ≤ lsn') (hmod : lsn' ≡ lsn [MOD logGroupGetCapacity g]) :
    lsnSizeOffset g lsn = (lsn' - g.lsn) % logGroupGetCapacity g := by
  have key := lsnSizeOffset_add_modEq (g := g) lsn
  rw [ho, logGroupCalcSizeOffset_logFileHdrSize, Nat.zero_add] at key
  refine Nat.ModEq.eq_of_lt_of_lt ?_ (lsnSizeOffset_lt lsn) (Nat.mod_lt _ g.capacity_pos)
  refine Nat.ModEq.add_right_cancel' g.lsn (key.trans (hmod.symm.trans ?_))
  calc lsn' = lsn' - g.lsn + g.lsn := (Nat.sub_add_cancel hle).symm
    _ ≡ (lsn' - g.lsn) % logGroupGetCapacity g + g.lsn [MOD logGroupGetCapacity g] :=
      (Nat.mod_modEq _ _).symm.add_right _

/-- **The two LSN locators agree.** For the files of a group anchored at `first_header_lsn` and
the start of the first file's data, `log_calc_where_lsn_is` passes its check for every `lsn`,
before the anchor or not, and returns a file of the group and a data offset in it, which together
are the real offset `log_group_calc_lsn_offset` computes. -/
theorem logCalcWhereLsnIs_eq (ho : g.lsnOffset = logFileHdrSize) (lsn : ℕ) :
    ∃ fileNo off, logCalcWhereLsnIs g.lsn lsn g.nFiles g.fileSize = some (fileNo, off) ∧
      fileNo < g.nFiles ∧ logFileHdrSize ≤ off ∧ off < g.fileSize ∧
      fileNo * g.fileSize + off = logGroupCalcLsnOffset g lsn := by
  have hC : logGroupGetCapacity g = g.dataSize * g.nFiles := rfl
  have hCpos := g.capacity_pos
  -- the LSN the code brings at or past the anchor, one it agrees with modulo the capacity
  obtain ⟨lsn', hle, hmod, hlsn'⟩ : ∃ lsn', g.lsn ≤ lsn' ∧ lsn' ≡ lsn [MOD logGroupGetCapacity g] ∧
      (if lsn < g.lsn then lsn + (1 + (g.lsn - lsn) / (g.dataSize * g.nFiles)) * g.dataSize *
        g.nFiles else lsn) = lsn' := by
    split_ifs with h
    · refine ⟨_, ?_, ?_, rfl⟩ <;> rw [Nat.mul_assoc, ← hC]
      · have := Nat.lt_mul_div_succ (g.lsn - lsn) hCpos
        rw [Nat.add_comm 1, Nat.mul_comm]; omega
      · exact Nat.add_mul_mod_self_right _ _ _
    · exact ⟨lsn, by omega, rfl, rfl⟩
  have hD := g.dataSize_pos
  have hDs : g.fileSize - logFileHdrSize = g.dataSize := rfl
  refine ⟨(lsn' - g.lsn) / g.dataSize % g.nFiles, (lsn' - g.lsn) % g.dataSize + logFileHdrSize,
    ?_, Nat.mod_lt _ g.nFiles_pos, Nat.le_add_left _ _, ?_, ?_⟩
  · simp only [logCalcWhereLsnIs, hDs, hlsn', if_pos hle]
  · have := Nat.mod_lt (lsn' - g.lsn) hD; have := g.fileSize_eq; omega
  · rw [logGroupCalcLsnOffset_eq, lsnSizeOffset_eq_of_modEq ho hle hmod, logGroupCalcRealOffset_eq,
      hC, Nat.mod_mul_right_mod, Nat.mod_mul_right_div_self]
    ring

theorem logGroupInit_calcWhereLsnIs :
    let g := logGroupInit 0 2 (48 * 1024 * 1024) (by decide) (by decide) (by decide)
    g.lsnOffset = logFileHdrSize ∧
      ∃ fileNo off, logCalcWhereLsnIs g.lsn 100 g.nFiles g.fileSize = some (fileNo, off) ∧
        fileNo < g.nFiles ∧ logFileHdrSize ≤ off ∧ off < g.fileSize ∧
        fileNo * g.fileSize + off = logGroupCalcLsnOffset g 100 :=
  ⟨rfl, logCalcWhereLsnIs_eq rfl 100⟩

end RedoLog

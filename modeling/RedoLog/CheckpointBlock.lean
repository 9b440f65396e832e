import RedoLog.System

/-!
# The checkpoint block, byte by byte

`log_group_checkpoint` fills the group's `checkpoint_buf` with `mach_write_to_n` stores and two
`ut_fold_binary` checksums before it issues the write; the rest of the model carries the block as
the record `CheckpointInfo`. This module builds the bytes as the code does and proves that they
hold that record: each field reads back, the LSN offset from its two 32-bit halves, each slot of
the group-info array through `log_checkpoint_get_nth_group_info`, and both checksums verify.

## Main definitions

* `CheckpointLayout`: the offsets `LOG_CHECKPOINT_*` and `LOG_MAX_N_GROUPS`.
* `logGroupCheckpointBuf`: the bytes `log_group_checkpoint` writes into `checkpoint_buf`.
* `CheckpointBlockHolds`, `CheckpointChecksumsOk`: what a reader of the block finds in it.

## Main results

* `logGroupCheckpointBuf_holds`: for a valid layout and a record that fits it, the bytes hold
  `logGroupCheckpointInfo` and both checksums verify, whatever the buffer held before and
  whatever the fold.

## The layout is a parameter

The offsets are defined in `log0log.h`, which is not part of the source modelled here.
`CheckpointLayout` takes them as parameters, and `CheckpointLayout.Valid` asks for what the
stores need and nothing more:

* the fields, the group-info array counted as one field, lie apart, so that no store overwrites
  an earlier field: the read-back of every field rests on it;
* the second checksum lies past the first, outside the range `[0, CHECKSUM_1)` the first one
  folds, so that the last store does not invalidate the first checksum.

The range `[LSN, CHECKSUM_2)` of the second checksum needs no condition: it ends where the second
checksum starts. Fitting in `OS_FILE_LOG_BLOCK_SIZE` (the `#error` of `log_group_checkpoint`) is
not needed for the read-back either; it is what lets a one-block write carry every field.

`ut_fold_binary` is a parameter too: what is proved is that each stored checksum is the fold of
the bytes it covers, whatever the fold, not that it detects a torn write.
-/

namespace RedoLog

namespace Mem

/-- The byte ranges `[a.1, a.1 + a.2)` and `[b.1, b.1 + b.2)` do not meet. -/
def Apart (a b : ℕ × ℕ) : Prop := a.1 + a.2 ≤ b.1 ∨ b.1 + b.2 ≤ a.1

instance (a b : ℕ × ℕ) : Decidable (Apart a b) := inferInstanceAs (Decidable (_ ∨ _))

theorem Apart.symm {a b : ℕ × ℕ} (h : Apart a b) : Apart b a := Or.symm h

/-- A range apart from another is apart from each of its subranges. -/
theorem Apart.mono {a b : ℕ × ℕ} {c : ℕ × ℕ} (h : Apart a b) (hlo : b.1 ≤ c.1)
    (hhi : c.1 + c.2 ≤ b.1 + b.2) : Apart a c := by
  unfold Apart at *; omega

/-- The `mach_write_to_n` stores `ss`, each `(off, n, v)`, applied in order. -/
def machWrites (m : Mem) (ss : List (ℕ × ℕ × ℕ)) : Mem :=
  ss.foldl (fun m s => m.machWrite s.1 s.2.1 s.2.2) m

/-- A store apart from a field leaves the field's value. -/
theorem machRead_machWrite_of_apart {m : Mem} {off n off' n' v : ℕ}
    (h : Apart (off, n) (off', n')) : (m.machWrite off n v).machRead off' n' = m.machRead off' n' :=
  machRead_congr fun j hj => machWrite_of_not_mem (by unfold Apart at h; omega)

/-- Stores apart from a field leave the field's value. -/
theorem machRead_machWrites_of_apart {m : Mem} {ss : List (ℕ × ℕ × ℕ)} {off n : ℕ}
    (h : ∀ s ∈ ss, Apart (s.1, s.2.1) (off, n)) : (m.machWrites ss).machRead off n = m.machRead off n := by
  induction ss generalizing m with
  | nil => rfl
  | cons s ss ih =>
    rw [machWrites, List.foldl_cons, ← machWrites, ih fun t ht => h t (.tail _ ht),
      machRead_machWrite_of_apart (h s (.head _))]

/-- Of stores to fields that lie apart, each one's field reads back its value. -/
theorem machRead_machWrites_of_mem {m : Mem} {ss : List (ℕ × ℕ × ℕ)} {off n v : ℕ}
    (hp : ss.Pairwise fun s t => Apart (s.1, s.2.1) (t.1, t.2.1)) (hs : (off, n, v) ∈ ss) :
    (m.machWrites ss).machRead off n = v % 256 ^ n := by
  induction ss generalizing m with
  | nil => cases hs
  | cons s ss ih =>
    rw [List.pairwise_cons] at hp
    rw [machWrites, List.foldl_cons, ← machWrites]
    rcases List.mem_cons.mp hs with rfl | hs
    · rw [machRead_machWrites_of_apart fun t ht => (hp.1 t ht).symm, machRead_machWrite]
    · exact ih hp.2 hs

end Mem

/-- The offsets of the checkpoint block's fields, `LOG_CHECKPOINT_*` of `log0log.h`, and
`LOG_MAX_N_GROUPS`. -/
structure CheckpointLayout where
  /-- `LOG_CHECKPOINT_NO`. -/
  no : ℕ
  /-- `LOG_CHECKPOINT_LSN`. -/
  lsn : ℕ
  /-- `LOG_CHECKPOINT_OFFSET_LOW32`. -/
  offsetLow32 : ℕ
  /-- `LOG_CHECKPOINT_OFFSET_HIGH32`. -/
  offsetHigh32 : ℕ
  /-- `LOG_CHECKPOINT_LOG_BUF_SIZE`. -/
  logBufSize : ℕ
  /-- `LOG_CHECKPOINT_ARCHIVED_LSN`. -/
  archivedLsn : ℕ
  /-- `LOG_CHECKPOINT_GROUP_ARRAY`. -/
  groupArray : ℕ
  /-- `LOG_CHECKPOINT_ARCHIVED_FILE_NO`, the offset of the file number in a slot of the array. -/
  archivedFileNo : ℕ
  /-- `LOG_CHECKPOINT_CHECKSUM_1`. -/
  checksum1 : ℕ
  /-- `LOG_CHECKPOINT_CHECKSUM_2`. -/
  checksum2 : ℕ
  /-- `LOG_MAX_N_GROUPS`. -/
  maxNGroups : ℕ
  deriving DecidableEq, Repr

namespace CheckpointLayout

/-- The offset of slot `n` of the group-info array. -/
def slot (L : CheckpointLayout) (n : ℕ) : ℕ := L.groupArray + 8 * n + L.archivedFileNo

/-- The fields of the block as `(offset, width)` ranges, in the order `log_group_checkpoint`
stores them; the group-info array is one range. -/
def fields (L : CheckpointLayout) : List (ℕ × ℕ) :=
  [(L.no, 8), (L.lsn, 8), (L.offsetLow32, 4), (L.offsetHigh32, 4), (L.logBufSize, 4),
    (L.archivedLsn, 8), (L.groupArray + L.archivedFileNo, 8 * L.maxNGroups), (L.checksum1, 4),
    (L.checksum2, 4)]

/-- What the stores of `log_group_checkpoint` need of the layout. -/
structure Valid (L : CheckpointLayout) : Prop where
  /-- No two fields meet. -/
  apart : L.fields.Pairwise Mem.Apart
  /-- The second checksum is outside the range the first one folds. -/
  checksum1_le : L.checksum1 ≤ L.checksum2

instance (L : CheckpointLayout) : Decidable L.Valid :=
  decidable_of_iff (L.fields.Pairwise Mem.Apart ∧ L.checksum1 ≤ L.checksum2)
    ⟨fun h => ⟨h.1, h.2⟩, fun h => ⟨h.1, h.2⟩⟩

/-- Slots of different groups lie apart. -/
theorem apart_slot {L : CheckpointLayout} {i j : ℕ} (h : i ≠ j) :
    Mem.Apart (L.slot i, 8) (L.slot j, 8) := by
  unfold Mem.Apart slot; dsimp only; omega

/-- A range apart from the array is apart from each of its slots. -/
theorem apart_slot_of_apart {L : CheckpointLayout} {a : ℕ × ℕ}
    (h : Mem.Apart a (L.groupArray + L.archivedFileNo, 8 * L.maxNGroups)) {n : ℕ}
    (hn : n < L.maxNGroups) : Mem.Apart a (L.slot n, 8) :=
  h.mono (by unfold slot; dsimp only; omega) (by unfold slot; dsimp only; omega)

end CheckpointLayout

/-- `log_checkpoint_set_nth_group_info(buf, n, file_no)`. -/
def logCheckpointSetNthGroupInfo (L : CheckpointLayout) (buf : Mem) (n fileNo : ℕ) : Mem :=
  buf.machWrite (L.groupArray + 8 * n + L.archivedFileNo) 8 fileNo

/-- `log_checkpoint_get_nth_group_info(buf, n)`. -/
def logCheckpointGetNthGroupInfo (L : CheckpointLayout) (buf : Mem) (n : ℕ) : ℕ :=
  buf.machRead (L.groupArray + 8 * n + L.archivedFileNo) 8

/-- The bytes `log_group_checkpoint(group)` writes into `group->checkpoint_buf`, whose earlier
contents are `buf`; `utFoldBinary` is `ut_fold_binary`. Archiving being off, the archived LSN
is `LSN_MAX`. -/
def logGroupCheckpointBuf (L : CheckpointLayout) (utFoldBinary : List UInt8 → ℕ) (s : LogSys)
    (g : LogGroup) (buf : Mem) : Mem :=
  let buf := buf.machWrite L.no 8 s.nextCheckpointNo
  let buf := buf.machWrite L.lsn 8 s.nextCheckpointLsn
  let lsnOffset := logGroupCalcLsnOffset g s.nextCheckpointLsn
  let buf := buf.machWrite L.offsetLow32 4 (lsnOffset % 2 ^ 32)
  let buf := buf.machWrite L.offsetHigh32 4 (lsnOffset / 2 ^ 32)
  let buf := buf.machWrite L.logBufSize 4 s.bufSize
  let buf := buf.machWrite L.archivedLsn 8 lsnMax
  let buf := (List.range L.maxNGroups).foldl (fun buf i => logCheckpointSetNthGroupInfo L buf i 0) buf
  let buf := s.logGroups.foldl
    (fun buf g2 => logCheckpointSetNthGroupInfo L buf g2.id g2.archivedFileNo) buf
  let buf := buf.machWrite L.checksum1 4 (utFoldBinary (buf.read 0 L.checksum1))
  buf.machWrite L.checksum2 4 (utFoldBinary (buf.read L.lsn (L.checksum2 - L.lsn)))

/-- The checkpoint block `buf` holds `info`: each field reads back its value, the LSN offset from
its two 32-bit halves, and the slot of each group's id its archived file number; the other slots
read zero. -/
structure CheckpointBlockHolds (L : CheckpointLayout) (buf : Mem) (info : CheckpointInfo) : Prop where
  no : buf.machRead L.no 8 = info.checkpointNo
  lsn : buf.machRead L.lsn 8 = info.checkpointLsn
  lsnOffset : buf.machRead L.offsetLow32 4 + buf.machRead L.offsetHigh32 4 * 2 ^ 32 = info.lsnOffset
  logBufSize : buf.machRead L.logBufSize 4 = info.logBufSize
  archivedLsn : buf.machRead L.archivedLsn 8 = info.archivedLsn
  groupInfo : ∀ p ∈ info.groupInfo, logCheckpointGetNthGroupInfo L buf p.1 = p.2
  unused : ∀ n < L.maxNGroups, n ∉ info.groupInfo.map Prod.fst → logCheckpointGetNthGroupInfo L buf n = 0

/-- Both checksums of the block are the folds of the bytes they cover. -/
def CheckpointChecksumsOk (L : CheckpointLayout) (utFoldBinary : List UInt8 → ℕ) (buf : Mem) : Prop :=
  buf.machRead L.checksum1 4 = utFoldBinary (buf.read 0 L.checksum1) % 2 ^ 32 ∧
    buf.machRead L.checksum2 4 = utFoldBinary (buf.read L.lsn (L.checksum2 - L.lsn)) % 2 ^ 32

/-- The record fits the layout: each value fits its field, each group id has a slot, and no two
groups share one. -/
structure CheckpointInfo.Fits (L : CheckpointLayout) (info : CheckpointInfo) : Prop where
  checkpointNo : info.checkpointNo < 2 ^ 64
  checkpointLsn : info.checkpointLsn < 2 ^ 64
  lsnOffset : info.lsnOffset < 2 ^ 64
  logBufSize : info.logBufSize < 2 ^ 32
  archivedLsn : info.archivedLsn < 2 ^ 64
  groupInfo : ∀ p ∈ info.groupInfo, p.1 < L.maxNGroups ∧ p.2 < 2 ^ 64
  nodup : (info.groupInfo.map Prod.fst).Nodup

/-! ### The stores, in order -/

section
variable {L : CheckpointLayout} {utFoldBinary : List UInt8 → ℕ} {s : LogSys} {g : LogGroup}
  {buf : Mem}

/-- The scalar stores of `log_group_checkpoint`, each `(offset, width, value)`. -/
def checkpointScalarStores (L : CheckpointLayout) (info : CheckpointInfo) : List (ℕ × ℕ × ℕ) :=
  [(L.no, 8, info.checkpointNo), (L.lsn, 8, info.checkpointLsn),
    (L.offsetLow32, 4, info.lsnOffset % 2 ^ 32), (L.offsetHigh32, 4, info.lsnOffset / 2 ^ 32),
    (L.logBufSize, 4, info.logBufSize), (L.archivedLsn, 8, info.archivedLsn)]

/-- The stores of the group-info array: file number `p.2` in the slot of group `p.1`. -/
def checkpointSlotStores (L : CheckpointLayout) (ps : List (ℕ × ℕ)) : List (ℕ × ℕ × ℕ) :=
  ps.map fun p => (L.slot p.1, 8, p.2)

/-- The block, as the scalar stores, the array cleared, the array filled, then the two checksums
of what is there. -/
theorem logGroupCheckpointBuf_eq :
    logGroupCheckpointBuf L utFoldBinary s g buf =
      let b := ((buf.machWrites (checkpointScalarStores L (logGroupCheckpointInfo s g))).machWrites
        (checkpointSlotStores L ((List.range L.maxNGroups).map fun i => (i, 0)))).machWrites
        (checkpointSlotStores L (logGroupCheckpointInfo s g).groupInfo)
      let b := b.machWrite L.checksum1 4 (utFoldBinary (b.read 0 L.checksum1))
      b.machWrite L.checksum2 4 (utFoldBinary (b.read L.lsn (L.checksum2 - L.lsn))) := by
  simp only [logGroupCheckpointBuf, Mem.machWrites, checkpointScalarStores, checkpointSlotStores,
    logGroupCheckpointInfo, List.foldl_map, List.foldl_cons, List.foldl_nil]
  rfl

/-- The ranges of the scalar stores are the layout's first six fields. -/
theorem map_checkpointScalarStores (info : CheckpointInfo) :
    (checkpointScalarStores L info).map (fun s => (s.1, s.2.1)) = L.fields.take 6 := rfl

/-- The slot stores of a list whose ids have slots and are distinct lie apart. -/
theorem pairwise_checkpointSlotStores {ps : List (ℕ × ℕ)} (h : (ps.map Prod.fst).Nodup) :
    (checkpointSlotStores L ps).Pairwise fun s t => Mem.Apart (s.1, s.2.1) (t.1, t.2.1) := by
  rw [checkpointSlotStores, List.pairwise_map]
  exact (List.pairwise_map.mp h).imp CheckpointLayout.apart_slot

/-- A range apart from the array is apart from the slot stores of ids that have slots. -/
theorem apart_checkpointSlotStores {ps : List (ℕ × ℕ)} {a : ℕ × ℕ}
    (h : Mem.Apart a (L.groupArray + L.archivedFileNo, 8 * L.maxNGroups))
    (hps : ∀ p ∈ ps, p.1 < L.maxNGroups) : ∀ t ∈ checkpointSlotStores L ps, Mem.Apart (t.1, t.2.1) a := by
  intro t ht
  obtain ⟨p, hp, rfl⟩ := List.mem_map.mp ht
  exact (CheckpointLayout.apart_slot_of_apart h (hps p hp)).symm

/-- What validity says of each field: the scalar fields lie apart from each other, from the array
and from the checksums; the array lies apart from the checksums, and they from each other. -/
theorem CheckpointLayout.Valid.parts (hL : L.Valid) :
    (L.fields.take 6).Pairwise Mem.Apart ∧
      (∀ a ∈ L.fields.take 6, Mem.Apart a (L.groupArray + L.archivedFileNo, 8 * L.maxNGroups) ∧
        Mem.Apart a (L.checksum1, 4) ∧ Mem.Apart a (L.checksum2, 4)) ∧
      Mem.Apart (L.groupArray + L.archivedFileNo, 8 * L.maxNGroups) (L.checksum1, 4) ∧
      Mem.Apart (L.groupArray + L.archivedFileNo, 8 * L.maxNGroups) (L.checksum2, 4) ∧
      Mem.Apart (L.checksum1, 4) (L.checksum2, 4) := by
  have hp := hL.apart
  rw [show L.fields = L.fields.take 6 ++
      [(L.groupArray + L.archivedFileNo, 8 * L.maxNGroups), (L.checksum1, 4), (L.checksum2, 4)] from rfl,
    List.pairwise_append] at hp
  simp only [List.pairwise_cons, List.mem_cons, List.mem_singleton, forall_eq_or_imp, forall_eq,
    List.not_mem_nil, IsEmpty.forall_iff, implies_true, List.Pairwise.nil, and_true] at hp
  exact ⟨hp.1, hp.2.2, hp.2.1.1.1, hp.2.1.1.2, hp.2.1.2⟩

/-- The two checksum stores leave a field apart from both. -/
theorem machRead_checksums_of_apart {b : Mem} {off n v₁ v₂ : ℕ} (h₁ : Mem.Apart (L.checksum1, 4) (off, n))
    (h₂ : Mem.Apart (L.checksum2, 4) (off, n)) :
    ((b.machWrite L.checksum1 4 v₁).machWrite L.checksum2 4 v₂).machRead off n = b.machRead off n := by
  rw [Mem.machRead_machWrite_of_apart h₂, Mem.machRead_machWrite_of_apart h₁]

/-- A scalar field reads what its own store put there: no later store meets it. -/
theorem machRead_checkpointScalar (hL : L.Valid) {info : CheckpointInfo} {ps : List (ℕ × ℕ)}
    (hps : ∀ p ∈ ps, p.1 < L.maxNGroups) {off n v v₁ v₂ : ℕ}
    (hm : (off, n, v) ∈ checkpointScalarStores L info) :
    (((((buf.machWrites (checkpointScalarStores L info)).machWrites
      (checkpointSlotStores L ((List.range L.maxNGroups).map fun i => (i, 0)))).machWrites
      (checkpointSlotStores L ps)).machWrite L.checksum1 4 v₁).machWrite L.checksum2 4 v₂).machRead
        off n = v % 256 ^ n := by
  obtain ⟨hsc, hcross, -⟩ := hL.parts
  obtain ⟨harr, hc₁, hc₂⟩ := hcross _ (by
    rw [← map_checkpointScalarStores info]; exact List.mem_map_of_mem (fun s => (s.1, s.2.1)) hm)
  rw [machRead_checksums_of_apart hc₁.symm hc₂.symm,
    Mem.machRead_machWrites_of_apart (apart_checkpointSlotStores harr hps),
    Mem.machRead_machWrites_of_apart (apart_checkpointSlotStores harr (by simp)),
    Mem.machRead_machWrites_of_mem (by rw [← List.pairwise_map, map_checkpointScalarStores]; exact hsc) hm]

/-- A slot of the array is apart from the checksums. -/
theorem machRead_slot_checksums (hL : L.Valid) {b : Mem} {n v₁ v₂ : ℕ} (hn : n < L.maxNGroups) :
    ((b.machWrite L.checksum1 4 v₁).machWrite L.checksum2 4 v₂).machRead (L.slot n) 8 =
      b.machRead (L.slot n) 8 :=
  let ⟨_, _, ha₁, ha₂, _⟩ := hL.parts
  machRead_checksums_of_apart (CheckpointLayout.apart_slot_of_apart ha₁.symm hn)
    (CheckpointLayout.apart_slot_of_apart ha₂.symm hn)

/-- The slot of an id the stores do not name keeps its value. -/
theorem machRead_slot_of_not_mem {b : Mem} {ps : List (ℕ × ℕ)} {n : ℕ} (hn : n ∉ ps.map Prod.fst) :
    (b.machWrites (checkpointSlotStores L ps)).machRead (L.slot n) 8 = b.machRead (L.slot n) 8 := by
  refine Mem.machRead_machWrites_of_apart fun t ht => ?_
  obtain ⟨p, hp, rfl⟩ := List.mem_map.mp ht
  exact CheckpointLayout.apart_slot fun h => hn (h ▸ List.mem_map_of_mem _ hp)

/-- The checksums of a valid layout verify: the second store is outside what the first folds. -/
theorem checkpointChecksumsOk_of_valid (hL : L.Valid) (b : Mem) :
    CheckpointChecksumsOk L utFoldBinary
      ((b.machWrite L.checksum1 4 (utFoldBinary (b.read 0 L.checksum1))).machWrite L.checksum2 4
        (utFoldBinary ((b.machWrite L.checksum1 4 (utFoldBinary (b.read 0 L.checksum1))).read L.lsn
          (L.checksum2 - L.lsn)))) := by
  set b₁ := b.machWrite L.checksum1 4 (utFoldBinary (b.read 0 L.checksum1))
  have hl := hL.checksum1_le
  have h₁ : b₁.read 0 L.checksum1 = b.read 0 L.checksum1 :=
    Mem.read_congr fun j hj => Mem.machWrite_of_not_mem (by omega)
  have h₂ {v : ℕ} : (b₁.machWrite L.checksum2 4 v).read 0 L.checksum1 = b₁.read 0 L.checksum1 :=
    Mem.read_congr fun j hj => Mem.machWrite_of_not_mem (by omega)
  have h₃ {v : ℕ} : (b₁.machWrite L.checksum2 4 v).read L.lsn (L.checksum2 - L.lsn) =
      b₁.read L.lsn (L.checksum2 - L.lsn) :=
    Mem.read_congr fun j hj => Mem.machWrite_of_not_mem (by omega)
  have e : (256 : ℕ) ^ 4 = 2 ^ 32 := by norm_num
  refine ⟨?_, ?_⟩
  · rw [Mem.machRead_machWrite_of_apart hL.parts.2.2.2.2.symm, Mem.machRead_machWrite, h₂, h₁, e]
  · rw [Mem.machRead_machWrite, h₃, e]

/-- **The checkpoint block holds the checkpoint.** For a layout whose fields lie apart and a
record that fits it, the bytes `log_group_checkpoint` builds for group `g` hold
`logGroupCheckpointInfo s g`, the record the model's checkpoint write carries: each field reads
back its value, the LSN offset from its two halves, each group's slot its archived file number and
every other slot zero; and both checksums are the folds of the bytes they cover. This holds
whatever the buffer held before and whatever `ut_fold_binary` computes. -/
theorem logGroupCheckpointBuf_holds (hL : L.Valid) (hf : (logGroupCheckpointInfo s g).Fits L) :
    CheckpointBlockHolds L (logGroupCheckpointBuf L utFoldBinary s g buf) (logGroupCheckpointInfo s g) ∧
      CheckpointChecksumsOk L utFoldBinary (logGroupCheckpointBuf L utFoldBinary s g buf) := by
  have hids : ∀ p ∈ (logGroupCheckpointInfo s g).groupInfo, p.1 < L.maxNGroups :=
    fun p hp => (hf.groupInfo p hp).1
  have e₄ : (256 : ℕ) ^ 4 = 2 ^ 32 := by norm_num
  have e₈ : (256 : ℕ) ^ 8 = 2 ^ 64 := by norm_num
  rw [logGroupCheckpointBuf_eq]
  refine ⟨⟨?no, ?lsn, ?lsnOffset, ?logBufSize, ?archivedLsn, ?groupInfo, ?unused⟩,
    checkpointChecksumsOk_of_valid hL _⟩
  case no =>
    rw [machRead_checkpointScalar hL hids (.head _), e₈, Nat.mod_eq_of_lt hf.checkpointNo]
  case lsn =>
    rw [machRead_checkpointScalar hL hids (.tail _ (.head _)), e₈, Nat.mod_eq_of_lt hf.checkpointLsn]
  case lsnOffset =>
    rw [machRead_checkpointScalar hL hids (.tail _ (.tail _ (.head _))),
      machRead_checkpointScalar hL hids (.tail _ (.tail _ (.tail _ (.head _)))), e₄]
    have := hf.lsnOffset
    omega
  case logBufSize =>
    rw [machRead_checkpointScalar hL hids (.tail _ (.tail _ (.tail _ (.tail _ (.head _))))), e₄,
      Nat.mod_eq_of_lt hf.logBufSize]
  case archivedLsn =>
    rw [machRead_checkpointScalar hL hids (.tail _ (.tail _ (.tail _ (.tail _ (.tail _ (.head _)))))),
      e₈, Nat.mod_eq_of_lt hf.archivedLsn]
  case groupInfo =>
    intro p hp
    show Mem.machRead _ (L.slot p.1) 8 = p.2
    rw [machRead_slot_checksums hL (hids p hp), Mem.machRead_machWrites_of_mem
      (pairwise_checkpointSlotStores hf.nodup) (List.mem_map_of_mem _ hp), e₈,
      Nat.mod_eq_of_lt (hf.groupInfo p hp).2]
  case unused =>
    -- the slot keeps the zero the clearing loop stored
    intro n hn hne
    show Mem.machRead _ (L.slot n) 8 = 0
    have hzeros : ((List.range L.maxNGroups).map fun i => (i, 0)).map Prod.fst = List.range L.maxNGroups := by
      simp only [List.map_map]; exact List.map_id' _
    rw [machRead_slot_checksums hL hn, machRead_slot_of_not_mem hne,
      Mem.machRead_machWrites_of_mem (pairwise_checkpointSlotStores (by rw [hzeros]; exact List.nodup_range _))
        (List.mem_map_of_mem _ (List.mem_map_of_mem _ (List.mem_range.mpr hn))), Nat.zero_mod]

theorem defaultLog_checkpointBlock :
    let L : CheckpointLayout := ⟨0, 8, 16, 20, 24, 28, 36, 0, 292, 296, 32⟩
    let fold : List UInt8 → ℕ := fun bs => bs.foldl (fun a b => a + b.toNat) 0
    let s := defaultLogInit .fsync
    L.Valid ∧ (logGroupCheckpointInfo s defaultGroup).Fits L ∧
      CheckpointBlockHolds L (logGroupCheckpointBuf L fold s defaultGroup fun _ => 0)
        (logGroupCheckpointInfo s defaultGroup) ∧
      CheckpointChecksumsOk L fold (logGroupCheckpointBuf L fold s defaultGroup fun _ => 0) :=
  have hf : (logGroupCheckpointInfo (defaultLogInit .fsync) defaultGroup).Fits
      ⟨0, 8, 16, 20, 24, 28, 36, 0, 292, 296, 32⟩ :=
    ⟨by decide, by decide, by decide, by decide, by decide, by decide, by decide⟩
  ⟨by decide, hf, logGroupCheckpointBuf_holds (by decide) hf⟩

end

end RedoLog

import OceanBase.Define

/-! The integer base-diff column decoder of the micro-block encoding
(`ob_integer_base_diff_decoder.cpp`, `.h`). A column is stored as a base, the smallest value,
and per row the delta of the value over the base. `decode` returns `base_ + delta`; the white
filter pushdown answers a filter over the whole block without decoding: a comparison is made on
deltas, the operand being brought to a delta by `get_delta`, while `BT` and `IN` rebuild
`base_ + delta` as a `uint64_t` and compare it with the operands.

Both paths read a row's delta with the same `ObBitStream::get` (bit packed) or `MEMCPY` (fixed
length) of `header_->length_`; that read is the column's `delta` function. The extend-value bits
are read as the NULL bitmap. -/
namespace OceanBase
namespace Blocksstable

/-! ## Word-level helpers -/

def integerMaskTable : List (BitVec 64) :=
  [0x0, 0xff, 0xffff, 0xffffff, 0xffffffff, 0xffffffffff, 0xffffffffffff, 0xffffffffffffff,
    0xffffffffffffffff]

theorem integerMaskTable_getD {k : Nat} (hk : k ≤ 8) :
    integerMaskTable.getD k 0 = BitVec.ofNat 64 (2 ^ (8 * k) - 1) := by
  interval_cases k <;> rfl

/-- The manual cast to `int64_t` of `init` and `get_delta<int64_t>`: when the top bit kept by
`mask` is set, the bits above it are filled. -/
def castToInt64 (mask value : BitVec 64) : BitVec 64 :=
  let reverseMask := ~~~mask
  if reverseMask ≠ 0 ∧ value &&& (reverseMask >>> 1) ≠ 0 then value ||| reverseMask else value

theorem getLsbD_lowMask {n i : Nat} (hn : n ≤ 64) :
    (BitVec.ofNat 64 (2 ^ n - 1)).getLsbD i = decide (i < n) := by
  rw [BitVec.getLsbD_ofNat,Nat.testBit_two_pow_sub_one]
  by_cases h : i < n
  · simp [h]
    omega
  · simp [h]

theorem getLsbD_of_signExtend {x : BitVec 64} {n : Nat} (hn : 0 < n)
    (hx : x = (x.setWidth n).signExtend 64) {i : Nat} (hi : n ≤ i) (hi64 : i < 64) :
    x.getLsbD i = x.getLsbD (n - 1) := by
  have h := congrArg (fun y => y.getLsbD i) hx
  simp only [BitVec.getLsbD_signExtend,BitVec.msb_eq_getLsbD_last,BitVec.getLsbD_setWidth] at h
  rw [h]
  simp [hi64,show ¬ i < n by omega,hn]

theorem castToInt64_signExtend {x : BitVec 64} {n : Nat} (hn : 0 < n) (hn64 : n ≤ 64)
    (hx : x = (x.setWidth n).signExtend 64) :
    castToInt64 (BitVec.ofNat 64 (2 ^ n - 1)) (x &&& BitVec.ofNat 64 (2 ^ n - 1)) = x := by
  have hmask : ∀ i, (BitVec.ofNat 64 (2 ^ n - 1)).getLsbD i = decide (i < n) :=
    fun i => getLsbD_lowMask hn64
  rcases Nat.lt_or_eq_of_le hn64 with hlt | rfl
  · by_cases htop : x.getLsbD (n - 1) = true
    · have htest : (x &&& BitVec.ofNat 64 (2 ^ n - 1)) &&& (~~~BitVec.ofNat 64 (2 ^ n - 1) >>> 1) ≠ 0 := by
        intro h0
        have := congrArg (fun y => y.getLsbD (n - 1)) h0
        simp only [BitVec.getLsbD_and,BitVec.getLsbD_ushiftRight,BitVec.getLsbD_not,hmask,htop] at this
        simp at this
        omega
      have hrev : ~~~BitVec.ofNat 64 (2 ^ n - 1) ≠ 0 := by
        intro h0
        have := congrArg (fun y => y.getLsbD n) h0
        simp only [BitVec.getLsbD_not,hmask] at this
        simp [hlt] at this
      rw [castToInt64,if_pos ⟨hrev,htest⟩]
      apply BitVec.eq_of_getLsbD_eq
      intro i hi
      simp only [BitVec.getLsbD_or,BitVec.getLsbD_and,BitVec.getLsbD_not,hmask]
      by_cases hin : i < n
      · simp [hin,hi]
      · simp [hin,hi,getLsbD_of_signExtend hn hx (by omega) hi,htop]
    · have htest : (x &&& BitVec.ofNat 64 (2 ^ n - 1)) &&& (~~~BitVec.ofNat 64 (2 ^ n - 1) >>> 1) = 0 := by
        apply BitVec.eq_of_getLsbD_eq
        intro i hi
        simp only [BitVec.getLsbD_and,BitVec.getLsbD_ushiftRight,BitVec.getLsbD_not,hmask]
        by_cases hin : i = n - 1
        · subst hin
          simp [htop]
        · simp
          omega
      rw [castToInt64,if_neg (fun h => h.2 htest)]
      apply BitVec.eq_of_getLsbD_eq
      intro i hi
      simp only [BitVec.getLsbD_and,hmask]
      by_cases hin : i < n
      · simp [hin]
      · simp [hin,getLsbD_of_signExtend hn hx (by omega) hi,htop]
  · have hall : BitVec.ofNat 64 (2 ^ 64 - 1) = BitVec.allOnes 64 := by decide
    rw [castToInt64,hall,BitVec.and_allOnes,BitVec.not_allOnes]
    simp

theorem and_lowMask_of_setWidth {x : BitVec 64} {n : Nat} (hn64 : n ≤ 64)
    (hx : x = (x.setWidth n).setWidth 64) : x &&& BitVec.ofNat 64 (2 ^ n - 1) = x := by
  apply BitVec.eq_of_getLsbD_eq
  intro i hi
  have h := congrArg (fun y => y.getLsbD i) hx
  simp only [BitVec.getLsbD_setWidth] at h
  rw [BitVec.getLsbD_and,getLsbD_lowMask hn64]
  by_cases hin : i < n
  · simp [hin]
  · simp only [hin,decide_false,Bool.false_and,Bool.and_false] at h ⊢
    simp [h]

/-! ## Column types and the order of a store class -/

inductive ObObjType
  | tinyInt | smallInt | mediumInt | int32 | int
  | uTinyInt | uSmallInt | uMediumInt | uInt32 | uInt64
  deriving DecidableEq, Repr

inductive ObObjTypeStoreClass
  | intSC | uintSC
  deriving DecidableEq, Repr

namespace ObObjType

def storeClass : ObObjType → ObObjTypeStoreClass
  | tinyInt | smallInt | mediumInt | int32 | int => .intSC
  | uTinyInt | uSmallInt | uMediumInt | uInt32 | uInt64 => .uintSC

def typeSize : ObObjType → Nat
  | tinyInt | uTinyInt => 1
  | smallInt | uSmallInt => 2
  | mediumInt | int32 | uMediumInt | uInt32 => 4
  | int | uInt64 => 8

theorem typeSize_pos (t : ObObjType) : 0 < t.typeSize := by
  cases t <;> decide

theorem typeSize_le (t : ObObjType) : t.typeSize ≤ 8 := by
  cases t <;> decide

/-- The values of a type as an `ObObj` holds them in `v_`: sign-extended from the type's width
for the signed types, zero-extended for the unsigned ones. -/
def InType (t : ObObjType) (x : BitVec 64) : Prop :=
  match t.storeClass with
  | .intSC => x = (x.setWidth (8 * t.typeSize)).signExtend 64
  | .uintSC => x = (x.setWidth (8 * t.typeSize)).setWidth 64

instance (t : ObObjType) (x : BitVec 64) : Decidable (InType t x) := by
  unfold InType
  split <;> infer_instance

end ObObjType

/-- The order of a store class: `int64_t` for `ObIntSC`, `uint64_t` for `ObUIntSC`. -/
def ordVal : ObObjTypeStoreClass → BitVec 64 → Int
  | .intSC, x => x.toInt
  | .uintSC, x => x.toNat

def objLt (sc : ObObjTypeStoreClass) (a b : BitVec 64) : Bool :=
  match sc with
  | .intSC => a.slt b
  | .uintSC => a.ult b

theorem objLt_iff (sc : ObObjTypeStoreClass) (a b : BitVec 64) :
    objLt sc a b = true ↔ ordVal sc a < ordVal sc b := by
  cases sc
  · simp [objLt,ordVal,BitVec.slt_iff_toInt_lt]
  · simp [objLt,ordVal,BitVec.ult_iff_lt,BitVec.lt_def]

theorem toNat_sub_of_ordVal_le {sc : ObObjTypeStoreClass} {a b : BitVec 64}
    (h : ordVal sc b ≤ ordVal sc a) : ((a - b).toNat : Int) = ordVal sc a - ordVal sc b := by
  have ha := a.isLt
  have hb := b.isLt
  rw [BitVec.toNat_sub]
  cases sc
  · simp only [ordVal,BitVec.toInt_eq_toNat_cond] at h ⊢
    split_ifs at h ⊢ <;> omega
  · simp only [ordVal] at h ⊢
    omega

/-! ## The decoder -/

inductive WhiteOp
  | eq | le | lt | ge | gt | ne | bt | in_ | nu | nn
  deriving DecidableEq, Repr

/-- `ObFPIntCmpOpType`, what `get_white_op_int_op_map` gives the six comparisons. -/
inductive FPIntCmpOp
  | eq | le | lt | ge | gt | ne
  deriving DecidableEq, Repr

def fpIntCmp (left right : BitVec 64) : FPIntCmpOp → Bool
  | .eq => left == right
  | .le => left.ule right
  | .lt => left.ult right
  | .ge => right.ule left
  | .gt => right.ult left
  | .ne => left != right

def FPIntCmpOp.eval : FPIntCmpOp → Int → Int → Bool
  | .eq, a, b => decide (a = b)
  | .le, a, b => decide (a ≤ b)
  | .lt, a, b => decide (a < b)
  | .ge, a, b => decide (b ≤ a)
  | .gt, a, b => decide (b < a)
  | .ne, a, b => decide (a ≠ b)

theorem fpIntCmp_eq_eval (a b : BitVec 64) (op : FPIntCmpOp) :
    fpIntCmp a b op = op.eval a.toNat b.toNat := by
  cases op <;>
    simp only [fpIntCmp,FPIntCmpOp.eval,BitVec.ule,BitVec.ult,Nat.cast_inj,Nat.cast_le,Nat.cast_lt,
      BitVec.toNat_inj,bne,Bool.beq_eq_decide_eq,decide_not]

theorem FPIntCmpOp.eval_sub (op : FPIntCmpOp) (a b c : Int) : op.eval (a - c) (b - c) = op.eval a b := by
  cases op <;> simp only [eval] <;> congr 1 <;> simp only [eq_iff_iff] <;> omega

theorem FPIntCmpOp.eval_of_lt (op : FPIntCmpOp) {a b : Int} (h : b < a) :
    op.eval a b = (op = .ge ∨ op = .gt ∨ op = .ne : Bool) := by
  cases op <;> simp [eval] <;> omega

structure WhiteFilter where
  opType : WhiteOp
  objType : ObObjType
  objs : List (BitVec 64)
  deriving DecidableEq, Repr

def WhiteFilter.ArityOk (filter : WhiteFilter) : Prop :=
  match filter.opType with
  | .eq | .le | .lt | .ge | .gt | .ne => filter.objs.length = 1
  | .bt => filter.objs.length = 2
  | .in_ => filter.objs.length ≠ 0
  | .nu | .nn => True

/-- What a white filter means on a decoded cell: NULL satisfies only `NU`, and a value is
compared with the operands in the order of their store class. -/
def WhiteFilter.holds (filter : WhiteFilter) : Option (BitVec 64) → Bool
  | none => filter.opType == .nu
  | some x =>
    let v := ordVal filter.objType.storeClass
    let ref := filter.objs.headD 0
    match filter.opType with
    | .eq => FPIntCmpOp.eq.eval (v x) (v ref)
    | .le => FPIntCmpOp.le.eval (v x) (v ref)
    | .lt => FPIntCmpOp.lt.eval (v x) (v ref)
    | .ge => FPIntCmpOp.ge.eval (v x) (v ref)
    | .gt => FPIntCmpOp.gt.eval (v x) (v ref)
    | .ne => FPIntCmpOp.ne.eval (v x) (v ref)
    | .bt => decide (v (filter.objs.getD 0 0) ≤ v x ∧ v x ≤ v (filter.objs.getD 1 0))
    | .in_ => filter.objs.contains x
    | .nu => false
    | .nn => true

/-- An integer base-diff column of a micro block, as the decoder sees it after `init`. -/
structure IntDiffColumn where
  /-- `col_ctx.obj_meta_`. -/
  objType : ObObjType
  /-- `micro_block_header_->row_count_`. -/
  rowCount : Nat
  /-- `has_extend_value()`. -/
  hasExtendValue : Bool
  /-- The extend-value bit of each row. -/
  isNull : Nat → Bool
  /-- The `store_size` bytes of the base in the column meta. -/
  storedBase : BitVec 64
  /-- The delta stored for each row. -/
  delta : Nat → BitVec 64

namespace IntDiffColumn

variable (col : IntDiffColumn)

/-- `base_` as `init` sets it: the stored bytes, cast to `int64_t` for a signed type. -/
def base : BitVec 64 :=
  match col.objType.storeClass with
  | .intSC => castToInt64 (integerMaskTable.getD col.objType.typeSize 0) col.storedBase
  | .uintSC => col.storedBase

def nullRow (r : Nat) : Bool := col.hasExtendValue && col.isNull r

def decode (r : Nat) : Option (BitVec 64) :=
  if col.nullRow r then none else some (col.base + col.delta r)

end IntDiffColumn

/-- Whether the parent filter skips row `r`: `exist_parent_filter && parent->can_skip_filter`. -/
def skips (parent : Option (Nat → Bool)) (r : Nat) : Bool :=
  match parent with
  | none => false
  | some canSkip => canSkip r

/-- The row loop of `comparison_operator` and `traverse_all_data`. A skipped row keeps its bit,
a NULL row (set in the NULL bitmap the loop starts from) is cleared, and any other row is set
when `pred` holds of it. -/
def filterRows (parent : Option (Nat → Bool)) (bitmap : List Bool) (pred : Nat → Bool) : List Bool :=
  let nullValueContained := bitmap.any id
  bitmap.mapIdx fun r b =>
    if skips parent r then b
    else if nullValueContained && b then false
    else if pred r then true
    else b

/-- `get_delta<int64_t>` and `get_delta<uint64_t>`: the operand's distance from `base_`, chosen
by the column's store class. -/
def getDelta (colType refType : ObObjType) (ref base : BitVec 64) : BitVec 64 :=
  let mask := integerMaskTable.getD refType.typeSize 0
  match colType.storeClass with
  | .intSC => castToInt64 mask (ref &&& mask) - base
  | .uintSC => (ref &&& mask) - base

/-- `comparison_operator`. An operand below the base decides every row at once; otherwise each
row's delta is compared, unsigned, with the operand's. -/
def comparisonOperator (col : IntDiffColumn) (parent : Option (Nat → Bool)) (filter : WhiteFilter)
    (cmpOp : FPIntCmpOp) (bitmap : List Bool) : Except ObErr (List Bool) :=
  if col.rowCount ≠ bitmap.length ∨ filter.objs.length ≠ 1 then .error .invalidArgument
  else if col.objType ≠ filter.objType then .error .notSupported
  else
    let ref := filter.objs.headD 0
    if objLt col.objType.storeClass ref col.base then
      if cmpOp = .ge ∨ cmpOp = .gt ∨ cmpOp = .ne then .ok (bitmap.map not)
      else .ok (bitmap.map fun _ => false)
    else
      let paramDeltaValue := getDelta col.objType filter.objType ref col.base
      .ok (filterRows parent bitmap fun r => fpIntCmp (col.delta r) paramDeltaValue cmpOp)

/-- `traverse_all_data`: the row loop on `cur_int = base_ + v`, as a `uint64_t`. -/
def traverseAllData (col : IntDiffColumn) (parent : Option (Nat → Bool)) (bitmap : List Bool)
    (lambda : BitVec 64 → Bool) : List Bool :=
  filterRows parent bitmap fun r => lambda (col.base + col.delta r)

/-- `bt_operator`. Both branches compare the `uint64_t` `cur_int` with the bounds; in the
`ObIntSC` one the `int64_t` bound is converted to `uint64_t` by the comparison. -/
def btOperator (col : IntDiffColumn) (parent : Option (Nat → Bool)) (filter : WhiteFilter)
    (bitmap : List Bool) : Except ObErr (List Bool) :=
  if col.rowCount ≠ bitmap.length ∨ filter.objs.length ≠ 2 then .error .invalidArgument
  else
    let lo := filter.objs.getD 0 0
    let hi := filter.objs.getD 1 0
    match filter.objType.storeClass with
    | .uintSC => .ok (traverseAllData col parent bitmap fun cur => lo.ule cur && cur.ule hi)
    | .intSC => .ok (traverseAllData col parent bitmap fun cur => lo.ule cur && cur.ule hi)

def inOperator (col : IntDiffColumn) (parent : Option (Nat → Bool)) (filter : WhiteFilter)
    (bitmap : List Bool) : Except ObErr (List Bool) :=
  if filter.objs.length = 0 ∨ bitmap.length ≠ col.rowCount then .error .invalidArgument
  else .ok (traverseAllData col parent bitmap fun cur => filter.objs.contains cur)

/-- `get_is_null_bitmap_from_fixed_column`: with extend values, the bitmap is loaded with the
NULL rows. -/
def getIsNullBitmapFromFixedColumn (col : IntDiffColumn) (bitmap : List Bool) :
    Except ObErr (List Bool) :=
  if col.rowCount ≠ bitmap.length then .error .invalidArgument
  else if col.hasExtendValue then .ok ((List.range col.rowCount).map col.isNull)
  else .ok bitmap

def pushdownOperator (col : IntDiffColumn) (parent : Option (Nat → Bool)) (filter : WhiteFilter)
    (resultBitmap : List Bool) : Except ObErr (List Bool) := do
  let bitmap ← getIsNullBitmapFromFixedColumn col resultBitmap
  match filter.opType with
  | .nu => .ok bitmap
  | .nn => .ok (bitmap.map not)
  | .eq => comparisonOperator col parent filter .eq bitmap
  | .ne => comparisonOperator col parent filter .ne bitmap
  | .gt => comparisonOperator col parent filter .gt bitmap
  | .ge => comparisonOperator col parent filter .ge bitmap
  | .lt => comparisonOperator col parent filter .lt bitmap
  | .le => comparisonOperator col parent filter .le bitmap
  | .bt => btOperator col parent filter bitmap
  | .in_ => inOperator col parent filter bitmap

/-! ## The row loop on a NULL bitmap -/

@[simp] theorem length_filterRows (parent : Option (Nat → Bool)) (bitmap : List Bool) (pred : Nat → Bool) :
    (filterRows parent bitmap pred).length = bitmap.length := by
  simp [filterRows]

/-- The bitmap `get_is_null_bitmap_from_fixed_column` leaves: a bit per row, set on the NULL
rows. -/
def IsNullBitmap (col : IntDiffColumn) (bitmap : List Bool) : Prop :=
  bitmap.length = col.rowCount ∧ ∀ r < col.rowCount, bitmap[r]? = some (col.nullRow r)

theorem getIsNullBitmapFromFixedColumn_clear (col : IntDiffColumn) :
    ∃ bm, getIsNullBitmapFromFixedColumn col (List.replicate col.rowCount false) = .ok bm ∧
      IsNullBitmap col bm := by
  unfold getIsNullBitmapFromFixedColumn
  rw [if_neg (by simp)]
  cases hext : col.hasExtendValue
  · refine ⟨_,rfl,by simp,fun r hr => ?_⟩
    simp [hr,IntDiffColumn.nullRow,hext]
  · refine ⟨_,rfl,by simp,fun r hr => ?_⟩
    simp [hr,IntDiffColumn.nullRow,hext]

theorem filterRows_of_isNullBitmap {col : IntDiffColumn} {bitmap : List Bool} (hb : IsNullBitmap col bitmap)
    (parent : Option (Nat → Bool)) (pred : Nat → Bool) {r : Nat} (hr : r < col.rowCount)
    (hs : skips parent r = false) :
    (filterRows parent bitmap pred)[r]? = some (!col.nullRow r && pred r) := by
  have hbit := hb.2 r hr
  rw [filterRows,List.getElem?_mapIdx,hbit]
  cases hnull : col.nullRow r
  · cases pred r <;> simp [hs]
  · have hany : bitmap.any id = true :=
      List.any_eq_true.mpr ⟨true,List.mem_of_getElem? (hnull ▸ hbit),rfl⟩
    simp [hs,hany]

theorem traverseAllData_of_isNullBitmap {col : IntDiffColumn} {bitmap : List Bool}
    (hb : IsNullBitmap col bitmap) (parent : Option (Nat → Bool)) (lambda : BitVec 64 → Bool) {r : Nat}
    (hr : r < col.rowCount) (hs : skips parent r = false) :
    (traverseAllData col parent bitmap lambda)[r]? = some ((col.decode r).any lambda) := by
  rw [traverseAllData,filterRows_of_isNullBitmap hb parent _ hr hs]
  cases hnull : col.nullRow r <;> simp [IntDiffColumn.decode,hnull]

/-! ## Encoded columns -/

/-- A column as `ObIntegerBaseDiffEncoder` writes it: each value that is not NULL is the base plus
its delta, with no wrap in the order of the column's store class. -/
structure EncodedColumn extends IntDiffColumn where
  value_eq : ∀ r < rowCount, toIntDiffColumn.nullRow r = false →
    ordVal objType.storeClass (toIntDiffColumn.base + delta r) =
      ordVal objType.storeClass toIntDiffColumn.base + (delta r).toNat

theorem getDelta_of_inType {t : ObObjType} {ref : BitVec 64} (h : t.InType ref) (base : BitVec 64) :
    getDelta t t ref base = ref - base := by
  have hmask := integerMaskTable_getD t.typeSize_le
  have hpos : 0 < 8 * t.typeSize := by have := t.typeSize_pos; omega
  have hle : 8 * t.typeSize ≤ 64 := by have := t.typeSize_le; omega
  unfold getDelta
  unfold ObObjType.InType at h
  cases hsc : t.storeClass
  · rw [hsc] at h
    simp only [hmask]
    rw [castToInt64_signExtend hpos hle h]
  · rw [hsc] at h
    simp only [hmask]
    rw [and_lowMask_of_setWidth hle h]

namespace EncodedColumn

variable (col : EncodedColumn)

theorem base_le {r : Nat} (hr : r < col.rowCount) (hnull : col.nullRow r = false) :
    ordVal col.objType.storeClass col.base ≤ ordVal col.objType.storeClass (col.base + col.delta r) := by
  rw [col.value_eq r hr hnull]
  omega

theorem fpIntCmp_delta {r : Nat} (hr : r < col.rowCount) (hnull : col.nullRow r = false) {ref : BitVec 64}
    (hge : ordVal col.objType.storeClass col.base ≤ ordVal col.objType.storeClass ref) (op : FPIntCmpOp) :
    fpIntCmp (col.delta r) (ref - col.base) op =
      op.eval (ordVal col.objType.storeClass (col.base + col.delta r)) (ordVal col.objType.storeClass ref) := by
  have hshift := FPIntCmpOp.eval_sub op (ordVal col.objType.storeClass (col.base + col.delta r))
    (ordVal col.objType.storeClass ref) (ordVal col.objType.storeClass col.base)
  rw [fpIntCmp_eq_eval,toNat_sub_of_ordVal_le hge,← hshift,col.value_eq r hr hnull]
  congr 1
  omega

end EncodedColumn

theorem comparisonOperator_agrees (col : EncodedColumn) (parent : Option (Nat → Bool))
    (filter : WhiteFilter) (cmpOp : FPIntCmpOp) {bitmap : List Bool}
    (hb : IsNullBitmap col.toIntDiffColumn bitmap) (hty : filter.objType = col.objType)
    (hone : filter.objs.length = 1) (href : col.objType.InType (filter.objs.headD 0)) :
    ∃ bm, comparisonOperator col.toIntDiffColumn parent filter cmpOp bitmap = .ok bm ∧
      bm.length = col.rowCount ∧ ∀ r < col.rowCount, skips parent r = false →
        bm[r]? = some ((col.decode r).any fun x =>
          cmpOp.eval (ordVal col.objType.storeClass x) (ordVal col.objType.storeClass (filter.objs.headD 0))) := by
  have hlen := hb.1
  unfold comparisonOperator
  rw [if_neg (by omega),if_neg (by simp [hty])]
  dsimp only
  generalize filter.objs.headD 0 = ref at href ⊢
  by_cases hlt : objLt col.objType.storeClass ref col.base = true
  · have hlt' := (objLt_iff _ _ _).mp hlt
    rw [if_pos hlt]
    have hrow : ∀ r < col.rowCount, col.nullRow r = false →
        cmpOp.eval (ordVal col.objType.storeClass (col.base + col.delta r)) (ordVal col.objType.storeClass ref) =
          (cmpOp = .ge ∨ cmpOp = .gt ∨ cmpOp = .ne : Bool) :=
      fun r hr hnull => FPIntCmpOp.eval_of_lt cmpOp (lt_of_lt_of_le hlt' (col.base_le hr hnull))
    split_ifs with hop
    · refine ⟨_,rfl,by simp [hlen],fun r hr _ => ?_⟩
      rw [List.getElem?_map,hb.2 r hr]
      cases hnull : col.nullRow r
      · simp [IntDiffColumn.decode,hnull,hrow r hr hnull,hop]
      · simp [IntDiffColumn.decode,hnull]
    · refine ⟨_,rfl,by simp [hlen],fun r hr _ => ?_⟩
      rw [List.getElem?_map,hb.2 r hr]
      cases hnull : col.nullRow r
      · simp [IntDiffColumn.decode,hnull]
        rw [hrow r hr hnull]
        simpa using hop
      · simp [IntDiffColumn.decode,hnull]
  · have hge : ordVal col.objType.storeClass col.base ≤ ordVal col.objType.storeClass ref :=
      not_lt.mp (fun h => hlt ((objLt_iff _ _ _).mpr h))
    rw [if_neg hlt,hty,getDelta_of_inType href]
    refine ⟨_,rfl,by simp [hlen],fun r hr hs => ?_⟩
    rw [filterRows_of_isNullBitmap hb parent _ hr hs]
    cases hnull : col.nullRow r
    · simp [IntDiffColumn.decode,hnull,col.fpIntCmp_delta hr hnull hge]
    · simp [IntDiffColumn.decode,hnull]

theorem btOperator_of_isNullBitmap (col : IntDiffColumn) (parent : Option (Nat → Bool))
    (filter : WhiteFilter) {bitmap : List Bool} (hb : IsNullBitmap col bitmap)
    (htwo : filter.objs.length = 2) :
    ∃ bm, btOperator col parent filter bitmap = .ok bm ∧ bm.length = col.rowCount ∧
      ∀ r < col.rowCount, skips parent r = false →
        bm[r]? = some ((col.decode r).any fun x => (filter.objs.getD 0 0).ule x && x.ule (filter.objs.getD 1 0)) := by
  have hlen := hb.1
  unfold btOperator
  rw [if_neg (by omega)]
  dsimp only
  cases filter.objType.storeClass <;>
    exact ⟨_,rfl,by simp [traverseAllData,hlen],fun r hr hs => traverseAllData_of_isNullBitmap hb parent _ hr hs⟩

theorem inOperator_of_isNullBitmap (col : IntDiffColumn) (parent : Option (Nat → Bool))
    (filter : WhiteFilter) {bitmap : List Bool} (hb : IsNullBitmap col bitmap) (hne : filter.objs.length ≠ 0) :
    ∃ bm, inOperator col parent filter bitmap = .ok bm ∧ bm.length = col.rowCount ∧
      ∀ r < col.rowCount, skips parent r = false →
        bm[r]? = some ((col.decode r).any fun x => filter.objs.contains x) := by
  have hlen := hb.1
  unfold inOperator
  rw [if_neg (by omega)]
  exact ⟨_,rfl,by simp [traverseAllData,hlen],fun r hr hs => traverseAllData_of_isNullBitmap hb parent _ hr hs⟩

/-- Every encoded column and every white filter whose operands have the column's type, except
`BT` on a signed column: from a cleared bitmap, `pushdown_operator` sets the bit of each row the
parent filter does not skip exactly when the filter holds of the value `decode` returns for it. -/
theorem pushdownOperator_agrees (col : EncodedColumn) (parent : Option (Nat → Bool)) (filter : WhiteFilter)
    (hty : filter.objType = col.objType) (hobjs : ∀ o ∈ filter.objs, col.objType.InType o)
    (harity : filter.ArityOk) (hbt : filter.opType = .bt → col.objType.storeClass = .uintSC) :
    ∃ bm, pushdownOperator col.toIntDiffColumn parent filter (List.replicate col.rowCount false) = .ok bm ∧
      bm.length = col.rowCount ∧
      ∀ r < col.rowCount, skips parent r = false → bm[r]? = some (filter.holds (col.decode r)) := by
  obtain ⟨bm₀,hget,hnb⟩ := getIsNullBitmapFromFixedColumn_clear col.toIntDiffColumn
  have hlen₀ := hnb.1
  have hcmp : ∀ cmpOp : FPIntCmpOp, filter.objs.length = 1 → filter.holds none = false →
      (∀ x, filter.holds (some x) = cmpOp.eval (ordVal col.objType.storeClass x)
        (ordVal col.objType.storeClass (filter.objs.headD 0))) →
      ∃ bm, comparisonOperator col.toIntDiffColumn parent filter cmpOp bm₀ = .ok bm ∧
        bm.length = col.rowCount ∧
        ∀ r < col.rowCount, skips parent r = false → bm[r]? = some (filter.holds (col.decode r)) := by
    intro cmpOp hone hnone hsome
    obtain ⟨o,os,hos⟩ := List.exists_cons_of_length_eq_add_one hone
    obtain ⟨bm,hbm,hlen,hrows⟩ := comparisonOperator_agrees col parent filter cmpOp hnb hty hone
      (hobjs _ (by simp [hos]))
    refine ⟨bm,hbm,hlen,fun r hr hs => ?_⟩
    rw [hrows r hr hs]
    cases col.decode r <;> simp [hnone,hsome]
  unfold pushdownOperator
  rw [hget]
  simp only [bind,Except.bind]
  cases hop : filter.opType <;> simp only [WhiteFilter.ArityOk,hop] at harity
  case nu =>
    refine ⟨bm₀,rfl,hlen₀,fun r hr _ => ?_⟩
    rw [hnb.2 r hr]
    cases hnull : col.nullRow r <;> simp [IntDiffColumn.decode,hnull,WhiteFilter.holds,hop]
  case nn =>
    refine ⟨_,rfl,by simp [hlen₀],fun r hr _ => ?_⟩
    rw [List.getElem?_map,hnb.2 r hr]
    cases hnull : col.nullRow r <;> simp [IntDiffColumn.decode,hnull,WhiteFilter.holds,hop]
  case bt =>
    obtain ⟨bm,hbm,hlen,hrows⟩ := btOperator_of_isNullBitmap col.toIntDiffColumn parent filter hnb harity
    refine ⟨bm,hbm,hlen,fun r hr hs => ?_⟩
    rw [hrows r hr hs]
    have hsc : filter.objType.storeClass = .uintSC := hty ▸ hbt hop
    cases col.decode r <;> simp [WhiteFilter.holds,hop,hsc,ordVal,BitVec.ule]
  case in_ =>
    obtain ⟨bm,hbm,hlen,hrows⟩ := inOperator_of_isNullBitmap col.toIntDiffColumn parent filter hnb harity
    refine ⟨bm,hbm,hlen,fun r hr hs => ?_⟩
    rw [hrows r hr hs]
    cases col.decode r <;> simp [WhiteFilter.holds,hop]
  all_goals
    exact hcmp _ harity (by simp [WhiteFilter.holds,hop]) (fun x => by simp [WhiteFilter.holds,hop,hty])

/-- An `int32` column of three rows, -2, NULL and 3: the stored base is the four bytes of -2,
which `init` extends to 64 bits. -/
def mixedColumn : EncodedColumn where
  objType := .int32
  rowCount := 3
  hasExtendValue := true
  isNull r := r == 1
  storedBase := 0xfffffffe
  delta r := if r = 2 then 5 else 0
  value_eq := by decide

def atLeastZero : WhiteFilter := ⟨.ge,.int32,[0]⟩

theorem pushdownOperator_agrees_atLeastZero :
    pushdownOperator mixedColumn.toIntDiffColumn none atLeastZero (List.replicate 3 false) =
        .ok [false,false,true] ∧
      ∃ bm, pushdownOperator mixedColumn.toIntDiffColumn none atLeastZero (List.replicate mixedColumn.rowCount false) =
          .ok bm ∧ bm.length = mixedColumn.rowCount ∧
        ∀ r < mixedColumn.rowCount, skips none r = false →
          bm[r]? = some (atLeastZero.holds (mixedColumn.decode r)) :=
  ⟨rfl,pushdownOperator_agrees mixedColumn none atLeastZero rfl
    (by simp [atLeastZero,mixedColumn,ObObjType.InType,ObObjType.storeClass,ObObjType.typeSize])
    (by simp [WhiteFilter.ArityOk,atLeastZero]) (by simp [atLeastZero])⟩

end Blocksstable
end OceanBase

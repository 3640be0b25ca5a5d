import OceanBase.Blocksstable.IntegerBaseDiffDecoder
import OceanBase.Blocksstable.BitStream
import OceanBase.Lib.Mem

/-! The integer base-diff encoder of the micro-block encoding (`ob_integer_base_diff_encoder.cpp`)
and the fixed-length column store it writes through `ObIColumnEncoder::fill_column_store`.
`traverse` finds the least and the greatest value of the column in the order of its store class
and decides, with `get_packing_size`, whether the deltas over the least value are stored
bit-packed or in whole bytes; `store_meta` writes the header and the low `store_size` bytes of the
base; `store_fix_data` writes the extend-value bits of the NULL and NOP rows, then each other
row's delta. The block's memory is written through an `ObBufferWriter`. -/
namespace OceanBase
namespace Blocksstable
open Lib

/-- A cell of a column as the encoders see it: `is_null()`, `is_nop()`, or a value read by
`get_uint64()`. -/
inductive ObDatum
  | null | nop | uint64 (v : BitVec 64)
  deriving DecidableEq, Repr

/-- `get_stored_ext_value(datum)`: `STORED_NOT_EXT`, `STORED_NULL` or `STORED_NOPE`. -/
def getStoredExtValue : ObDatum → Nat
  | .null => 1
  | .nop => 2
  | .uint64 _ => 0

/-- `set_stored_ext_value(cell, v)`: a NULL or a NOP cell; any other value leaves the cell. -/
def setStoredExtValue (cell : ObDatum) (v : Nat) : ObDatum :=
  if v = 1 then .null else if v = 2 then .nop else cell

/-! ## The buffer writer -/

/-- `ObBufferWriter`: the block's memory, the write position and the capacity. -/
structure ObBufferWriter where
  mem : Nat → UInt8
  pos : Nat
  capacity : Nat

namespace ObBufferWriter

def advanceZero (w : ObBufferWriter) (length : Nat) : Except ObErr ObBufferWriter :=
  if length ≤ w.capacity - w.pos then .ok { w with mem := memset w.mem w.pos 0 length, pos := w.pos + length }
  else .error .bufNotEnough

def backward (w : ObBufferWriter) (length : Nat) : Except ObErr ObBufferWriter :=
  if length ≤ w.pos then .ok { w with pos := w.pos - length } else .error .bufNotEnough

end ObBufferWriter

/-! ## `get_packing_size` -/

/-- `get_packing_size(bit_packing, v, enable_bit_packing)`: the size of the field for `v` and
whether it is bit-packed. With bit packing, a width of whole bytes is stored in bytes, and so is
a width that saves fewer bits than half its bytes; the size is in bits when bit-packed and in
bytes otherwise. -/
def getPackingSize (v : BitVec 64) (enableBitPacking : Bool) : Nat × Bool :=
  if enableBitPacking then
    -- `sizeof(v) * CHAR_BIT - __builtin_clzl(v)`: the bits up to the highest set one
    let bitSize := if v = 0 then 1 else v.toNat.log2 + 1
    let size := bitSize / 8
    let ext := bitSize % 8
    if ext = 0 then (size, false)
    else if 8 - ext < size / 2 + 1 then (size + 1, false)
    else (bitSize, true)
  else if v.toNat ≤ 0xff then (1, false)
  else if v.toNat ≤ 0xffff then (2, false)
  else if v.toNat ≤ 0xffffffff then (4, false)
  else (8, false)

/-! ## The encoder -/

/-- `ObIntegerData<T>`: the least and the greatest value seen, in the order of `T`, `int64_t` for
a signed column and `uint64_t` for an unsigned one. -/
structure ObIntegerData where
  min : BitVec 64
  max : BitVec 64
  deriving DecidableEq, Repr

structure EncoderDesc where
  bitPackingLength : Nat
  fixDataLength : Nat
  needDataStore : Bool
  hasNull : Bool
  hasNope : Bool
  needExtendValueBitStore : Bool
  deriving DecidableEq, Repr

structure ColumnHeaderAttr where
  hasExtendValue : Bool
  bitPacking : Bool
  fixLength : Bool
  deriving DecidableEq, Repr

/-- `ObIntegerBaseDiffEncoder`: the column's type, `mask_`, the `ObIntegerData` of its store
class, the description and column header attributes of `traverse`, `extend_value_bit_` as the
block encoder sets it, and `header_`, the address `store_meta` wrote the header to. -/
structure ObIntegerBaseDiffEncoder where
  columnType : ObObjType
  mask : BitVec 64
  integerData : ObIntegerData
  desc : EncoderDesc
  attr : ColumnHeaderAttr
  extendValueBit : Nat
  header : Nat

namespace ObIntegerBaseDiffEncoder

/-- `init`: `mask_` is `INTEGER_MASK_TABLE[type_store_size_]`, and the integer data of the store
class starts from the extremes of its type. -/
def init (t : ObObjType) : ObIntegerBaseDiffEncoder where
  columnType := t
  mask := integerMaskTable.getD t.typeSize 0
  integerData := match t.storeClass with
    | .intSC => ⟨0x7fffffffffffffff#64, 0x8000000000000000#64⟩
    | .uintSC => ⟨0xffffffffffffffff#64, 0#64⟩
  desc := ⟨0, 0, false, false, false, false⟩
  attr := ⟨false, false, false⟩
  extendValueBit := 0
  header := 0

variable (enc : ObIntegerBaseDiffEncoder)

/-- `cast_to_uint64`: for a signed column the bits above the mask copy the top stored bit
(`reverse_mask_` is `~mask_`); for an unsigned one it is the identity. -/
def castToUint64 (v : BitVec 64) : BitVec 64 :=
  match enc.columnType.storeClass with
  | .intSC => castToInt64 enc.mask v
  | .uintSC => v

def cellValue (v : BitVec 64) : BitVec 64 := enc.castToUint64 (v &&& enc.mask)

def traverseCell (data : ObIntegerData) (v : BitVec 64) : ObIntegerData :=
  let sc := enc.columnType.storeClass
  let t := enc.cellValue v
  let data := if objLt sc t data.min then { data with min := t } else data
  if objLt sc data.max t then { data with max := t } else data

def traverseCells (datums : List ObDatum) (data : ObIntegerData) : ObIntegerData :=
  datums.foldl (fun data d => match d with
    | .uint64 v => enc.traverseCell data v
    | _ => data) data

def maxDelta (data : ObIntegerData) : BitVec 64 :=
  if objLt enc.columnType.storeClass data.min data.max then data.max - data.min else 0

def maxUnsignValue (data : ObIntegerData) : BitVec 64 :=
  match enc.columnType.storeClass with
  | .intSC => if data.min.toInt < 0 then BitVec.allOnes 64 else data.max
  | .uintSC => data.max

def delta (v : BitVec 64) : BitVec 64 := enc.cellValue v - enc.integerData.min

def base : BitVec 64 := enc.integerData.min

/-- `traverse(suitable)`, with `null_cnt_` and `nope_cnt_` the column's NULL and NOP cells: the
encoding suits the column when its deltas are narrower than its values by more bits in all than
the meta takes. -/
def traverse (datums : List ObDatum) : Bool × ObIntegerBaseDiffEncoder :=
  let nullCnt := datums.count .null
  let nopeCnt := datums.count .nop
  let data := enc.traverseCells datums enc.integerData
  let enc := { enc with integerData := data }
  let delta := enc.maxDelta data
  let maxValue := enc.maxUnsignValue data
  if delta = 0 then (false, enc)
  else
    let orig := getPackingSize maxValue true
    let origSize := if orig.2 then orig.1 else orig.1 * 8
    let packed := getPackingSize delta true
    let deltaSize := if packed.2 then packed.1 else packed.1 * 8
    if ((2 + enc.columnType.typeSize) * 8 : Int) < ((origSize : Int) - deltaSize) * datums.length then
      let needExt := decide (0 < nullCnt) || decide (0 < nopeCnt)
      let bitPackingLength := if packed.2 then deltaSize else 0
      (true, { enc with
        desc := ⟨bitPackingLength, if packed.2 then 0 else deltaSize / 8, true, decide (0 < nullCnt),
          decide (0 < nopeCnt), needExt⟩
        attr := ⟨needExt, decide (0 < bitPackingLength), true⟩ })
    else (false, enc)

/-- `set_extend_value_bit(v)`, called by the block encoder with the width of the block. -/
def setExtendValueBit (v : Nat) : ObIntegerBaseDiffEncoder := { enc with extendValueBit := v }

/-- `store_meta(buf_writer)`: the zeroed header and the low `type_store_size_` bytes of the
base. -/
def storeMeta (w : ObBufferWriter) : Except ObErr (ObIntegerBaseDiffEncoder × ObBufferWriter) := do
  let header := w.pos
  let w ← w.advanceZero (2 + enc.columnType.typeSize)
  pure ({ enc with header := header },
    { w with mem := leWrite w.mem (header + 2) enc.columnType.typeSize enc.base.toNat })

/-- The extend-value loop of `store_fix_bits`: each row's `get_stored_ext_value` in
`extend_value_bit_` bits from bit `pos`. -/
def storeExtBits (buf : Nat) : List ObDatum → Nat → (Nat → UInt8) → Nat → UInt8 :=
  storeRows (fun mem pos d => ObBitStream.memorySafeSetShort mem buf pos (getStoredExtValue d))
    enc.extendValueBit

/-- The body of the value loops of `store_fix_bits` and `fill_column_store`: a row whose stored
extend value is `STORED_NOT_EXT` gets its delta written at `pos` by `set`; a NULL or NOP row is
skipped. -/
def setValueRow (set : (Nat → UInt8) → Nat → Nat → Nat → UInt8) (mem : Nat → UInt8) (pos : Nat) :
    ObDatum → Nat → UInt8
  | .uint64 v => set mem pos (enc.delta v).toNat
  | _ => mem

/-- The value loop of `store_fix_bits` with `DeltaGetter`: each delta in `bit_packing_length_`
bits from bit `pos`. -/
def storeDeltaBits (buf : Nat) : List ObDatum → Nat → (Nat → UInt8) → Nat → UInt8 :=
  storeRows (enc.setValueRow fun mem pos v => ObBitStream.memorySafeSet mem buf pos enc.desc.bitPackingLength v)
    enc.desc.bitPackingLength

def storeFixBits (buf : Nat) (datums : List ObDatum) (mem : Nat → UInt8) : Nat → UInt8 :=
  let mem := if enc.desc.needExtendValueBitStore then enc.storeExtBits buf datums 0 mem else mem
  let pos := if enc.desc.needExtendValueBitStore then enc.extendValueBit * datums.length else 0
  if 0 < enc.desc.bitPackingLength then enc.storeDeltaBits buf datums pos mem else mem

/-- The fixed-length loop of `fill_column_store` with `FixDataSetter`: the low
`fix_data_length_` bytes of each delta, from byte `buf` on. -/
def storeFixDataRows (buf : Nat) (datums : List ObDatum) (mem : Nat → UInt8) : Nat → UInt8 :=
  storeRows (enc.setValueRow fun mem pos v => leWrite mem pos enc.desc.fixDataLength v)
    enc.desc.fixDataLength datums buf mem

/-- The bits before the fixed-length data: the extend-value bits and the bit-packed deltas
(`calc_fix_data_size`). -/
def bitsSize (rows : Nat) : Nat :=
  (if enc.desc.needExtendValueBitStore then enc.extendValueBit * rows else 0) + enc.desc.bitPackingLength * rows

/-- `fill_column_store(writer, datums, getter, setter)`: zeroes the store and 8 bytes more for
the word writes of `memory_safe_set`, writes it, and gives the 8 bytes back. -/
def fillColumnStore (datums : List ObDatum) (w : ObBufferWriter) : Except ObErr ObBufferWriter :=
  -- `is_valid_fix_encoder()`
  if !(enc.desc.needDataStore && (enc.desc.fixDataLength = 0 || enc.desc.bitPackingLength = 0)) then .ok w
  else do
    let bitDataSize := (enc.bitsSize datums.length + 7) / 8
    let fixDataSize := bitDataSize + enc.desc.fixDataLength * datums.length
    let buf := w.pos
    let w ← w.advanceZero (fixDataSize + 8)
    let mem := if 0 < bitDataSize then enc.storeFixBits buf datums w.mem else w.mem
    let mem := if 0 < enc.desc.fixDataLength then enc.storeFixDataRows (buf + bitDataSize) datums mem else mem
    ({ w with mem := mem } : ObBufferWriter).backward 8

/-- `store_fix_data(buf_writer)`: the header's `length_`, then the column store. -/
def storeFixData (datums : List ObDatum) (w : ObBufferWriter) : Except ObErr ObBufferWriter :=
  let length := if 0 < enc.desc.bitPackingLength then enc.desc.bitPackingLength else enc.desc.fixDataLength
  enc.fillColumnStore datums { w with mem := leWrite w.mem (enc.header + 1) 1 length }

/-- The column's part of `ObMicroBlockEncoder`'s store: `store_meta`, then `store_fix_data`. -/
def storeColumn (datums : List ObDatum) (w : ObBufferWriter) :
    Except ObErr (ObIntegerBaseDiffEncoder × ObBufferWriter) := do
  let (enc, w) ← enc.storeMeta w
  let w ← enc.storeFixData datums w
  pure (enc, w)

/-! ## What `traverse` finds -/

section Traverse

theorem getPackingSize_fits {v : BitVec 64} (hv : v ≠ 0) :
    ((getPackingSize v true).2 = true → 0 < (getPackingSize v true).1 ∧ (getPackingSize v true).1 < 64 ∧
        v.toNat < 2 ^ (getPackingSize v true).1) ∧
      ((getPackingSize v true).2 = false → 0 < (getPackingSize v true).1 ∧ (getPackingSize v true).1 ≤ 8 ∧
        v.toNat < 2 ^ (8 * (getPackingSize v true).1)) := by
  have hv0 : v.toNat ≠ 0 := fun h => hv (BitVec.eq_of_toNat_eq (by simpa using h))
  have hlt : v.toNat < 2 ^ (v.toNat.log2 + 1) := Nat.lt_log2_self
  have hb : v.toNat.log2 < 64 := (Nat.log2_lt hv0).2 v.isLt
  have hmono : ∀ {a b : Nat}, a ≤ b → 2 ^ a ≤ 2 ^ b := Nat.pow_le_pow_right (by decide)
  simp only [getPackingSize, hv, if_true, if_false]
  split_ifs with h0 h1
  · simp only [false_implies, true_and, forall_const]
    exact ⟨by omega, by omega, lt_of_lt_of_le hlt (hmono (by omega))⟩
  · simp only [false_implies, true_and, forall_const]
    exact ⟨by omega, by omega, lt_of_lt_of_le hlt (hmono (by omega))⟩
  · simp only [forall_const, false_implies, and_true]
    exact ⟨by omega, by omega, hlt⟩

variable (enc : ObIntegerBaseDiffEncoder)

theorem cellValue_of_inType (hmask : enc.mask = integerMaskTable.getD enc.columnType.typeSize 0)
    {v : BitVec 64} (hv : enc.columnType.InType v) : enc.cellValue v = v := by
  have hm := integerMaskTable_getD enc.columnType.typeSize_le
  have hpos : 0 < 8 * enc.columnType.typeSize := by have := enc.columnType.typeSize_pos; omega
  have hle : 8 * enc.columnType.typeSize ≤ 64 := by have := enc.columnType.typeSize_le; omega
  unfold ObObjType.InType at hv
  cases hsc : enc.columnType.storeClass
  · rw [hsc] at hv
    simp only [cellValue, castToUint64, hsc, hmask, hm]
    exact castToInt64_signExtend hpos hle hv
  · rw [hsc] at hv
    simp only [cellValue, castToUint64, hsc, hmask, hm]
    exact and_lowMask_of_setWidth hle hv

theorem traverseCell_min (data : ObIntegerData) (v : BitVec 64) :
    ordVal enc.columnType.storeClass (enc.traverseCell data v).min =
        min (ordVal enc.columnType.storeClass data.min) (ordVal enc.columnType.storeClass (enc.cellValue v)) ∧
      ((enc.traverseCell data v).min = data.min ∨ (enc.traverseCell data v).min = enc.cellValue v) := by
  dsimp only [traverseCell]
  by_cases h : objLt enc.columnType.storeClass (enc.cellValue v) data.min = true
  · have hlt := (objLt_iff _ _ _).1 h
    simp only [h, if_true]
    split_ifs <;> simp <;> omega
  · have hle := mt (objLt_iff _ _ _).2 h
    simp only [h, Bool.false_eq_true, if_false]
    split_ifs <;> simp <;> omega

theorem traverseCell_max (data : ObIntegerData) (v : BitVec 64) :
    ordVal enc.columnType.storeClass (enc.traverseCell data v).max =
      max (ordVal enc.columnType.storeClass data.max) (ordVal enc.columnType.storeClass (enc.cellValue v)) := by
  dsimp only [traverseCell]
  split_ifs with h1 h2 h2
  · have := (objLt_iff _ _ _).1 h2; simp only at this ⊢; omega
  · have := mt (objLt_iff _ _ _).2 h2; simp only at this ⊢; omega
  · have := (objLt_iff _ _ _).1 h2; simp only; omega
  · have := mt (objLt_iff _ _ _).2 h2; omega

theorem traverseCells_uint64 (v : BitVec 64) (datums : List ObDatum) (data : ObIntegerData) :
    enc.traverseCells (.uint64 v :: datums) data = enc.traverseCells datums (enc.traverseCell data v) := rfl

theorem traverseCells_min_le_start (datums : List ObDatum) (data : ObIntegerData) :
    ordVal enc.columnType.storeClass (enc.traverseCells datums data).min ≤
      ordVal enc.columnType.storeClass data.min := by
  induction datums generalizing data with
  | nil => exact le_refl _
  | cons d datums ih =>
    cases d with
    | uint64 v =>
      rw [traverseCells_uint64]
      exact le_trans (ih _) ((enc.traverseCell_min data v).1 ▸ min_le_left _ _)
    | null => exact ih data
    | nop => exact ih data

theorem traverseCells_min_le {v : BitVec 64} {datums : List ObDatum} (hv : ObDatum.uint64 v ∈ datums)
    (data : ObIntegerData) :
    ordVal enc.columnType.storeClass (enc.traverseCells datums data).min ≤
      ordVal enc.columnType.storeClass (enc.cellValue v) := by
  induction datums generalizing data with
  | nil => cases hv
  | cons d datums ih =>
    rcases List.mem_cons.1 hv with rfl | hm
    · rw [traverseCells_uint64]
      exact le_trans (enc.traverseCells_min_le_start _ _) ((enc.traverseCell_min data v).1 ▸ min_le_right _ _)
    · cases d with
      | uint64 u => exact ih hm _
      | null => exact ih hm data
      | nop => exact ih hm data

theorem traverseCells_start_le_max (datums : List ObDatum) (data : ObIntegerData) :
    ordVal enc.columnType.storeClass data.max ≤
      ordVal enc.columnType.storeClass (enc.traverseCells datums data).max := by
  induction datums generalizing data with
  | nil => exact le_refl _
  | cons d datums ih =>
    cases d with
    | uint64 v =>
      rw [traverseCells_uint64]
      exact le_trans ((enc.traverseCell_max data v) ▸ le_max_left _ _) (ih _)
    | null => exact ih data
    | nop => exact ih data

theorem traverseCells_le_max {v : BitVec 64} {datums : List ObDatum} (hv : ObDatum.uint64 v ∈ datums)
    (data : ObIntegerData) :
    ordVal enc.columnType.storeClass (enc.cellValue v) ≤
      ordVal enc.columnType.storeClass (enc.traverseCells datums data).max := by
  induction datums generalizing data with
  | nil => cases hv
  | cons d datums ih =>
    rcases List.mem_cons.1 hv with rfl | hm
    · rw [traverseCells_uint64]
      exact le_trans ((enc.traverseCell_max data v) ▸ le_max_right _ _) (enc.traverseCells_start_le_max _ _)
    · cases d with
      | uint64 u => exact ih hm _
      | null => exact ih hm data
      | nop => exact ih hm data

theorem traverseCells_min_attained (datums : List ObDatum) (data : ObIntegerData) :
    (enc.traverseCells datums data).min = data.min ∨
      ∃ v, ObDatum.uint64 v ∈ datums ∧ (enc.traverseCells datums data).min = enc.cellValue v := by
  induction datums generalizing data with
  | nil => exact .inl rfl
  | cons d datums ih =>
    cases d with
    | uint64 v =>
      rw [traverseCells_uint64]
      rcases ih (enc.traverseCell data v) with h | ⟨u, hu, h⟩
      · rcases (enc.traverseCell_min data v).2 with h' | h'
        · exact .inl (h.trans h')
        · exact .inr ⟨v, by simp, h.trans h'⟩
      · exact .inr ⟨u, List.mem_cons_of_mem _ hu, h⟩
    | null =>
      rcases ih data with h | ⟨u, hu, h⟩
      · exact .inl h
      · exact .inr ⟨u, List.mem_cons_of_mem _ hu, h⟩
    | nop =>
      rcases ih data with h | ⟨u, hu, h⟩
      · exact .inl h
      · exact .inr ⟨u, List.mem_cons_of_mem _ hu, h⟩

end Traverse

theorem ordVal_le_init_min (t : ObObjType) (x : BitVec 64) :
    ordVal t.storeClass x ≤ ordVal t.storeClass (init t).integerData.min := by
  cases hsc : t.storeClass
  · have hx := BitVec.toInt_lt (x := x)
    simp only [init, hsc, ordVal]
    have htop : (0x7fffffffffffffff#64).toInt = 2 ^ 63 - 1 := by decide
    omega
  · have hx := x.isLt
    simp only [init, hsc, ordVal]
    have htop : (0xffffffffffffffff#64).toNat = 2 ^ 64 - 1 := by decide
    omega

/-! ## A suitable column -/

/-- What a suitable `traverse` leaves for the store: the mask of the column's type, a base of that
type, and a field for the deltas, of `bit_packing_length_` bits or of `fix_data_length_` bytes,
that the delta of every value fits; extend values are stored when there is a NULL or a NOP. -/
structure Fits (enc : ObIntegerBaseDiffEncoder) (datums : List ObDatum) : Prop where
  mask_eq : enc.mask = integerMaskTable.getD enc.columnType.typeSize 0
  base_inType : enc.columnType.InType enc.base
  needDataStore : enc.desc.needDataStore = true
  width : (0 < enc.desc.bitPackingLength ∧ enc.desc.bitPackingLength < 64 ∧ enc.desc.fixDataLength = 0) ∨
    (enc.desc.bitPackingLength = 0 ∧ 0 < enc.desc.fixDataLength ∧ enc.desc.fixDataLength ≤ 8)
  delta_lt : ∀ v, ObDatum.uint64 v ∈ datums →
    (enc.delta v).toNat < 2 ^ (enc.desc.bitPackingLength + 8 * enc.desc.fixDataLength)
  needExt : enc.desc.needExtendValueBitStore = (decide (ObDatum.null ∈ datums) || decide (ObDatum.nop ∈ datums))
  hasExtendValue : enc.attr.hasExtendValue = enc.desc.needExtendValueBitStore
  bitPacking : enc.attr.bitPacking = decide (0 < enc.desc.bitPackingLength)

theorem Fits.setExtendValueBit {enc : ObIntegerBaseDiffEncoder} {datums : List ObDatum} (h : enc.Fits datums)
    (v : Nat) : (enc.setExtendValueBit v).Fits datums :=
  ⟨h.mask_eq, h.base_inType, h.needDataStore, h.width, h.delta_lt, h.needExt, h.hasExtendValue, h.bitPacking⟩

theorem traverseCells_min_of_lt {t : ObObjType} {datums : List ObDatum}
    (hlt : objLt t.storeClass ((init t).traverseCells datums (init t).integerData).min
      ((init t).traverseCells datums (init t).integerData).max = true) :
    ∃ v, ObDatum.uint64 v ∈ datums ∧
      ((init t).traverseCells datums (init t).integerData).min = (init t).cellValue v := by
  rcases (init t).traverseCells_min_attained datums (init t).integerData with h | h
  · have htop := ordVal_le_init_min t ((init t).traverseCells datums (init t).integerData).max
    have := (objLt_iff _ _ _).1 hlt
    rw [h] at this
    exact absurd htop (not_le.2 this)
  · exact h

theorem traverse_of_suitable (enc : ObIntegerBaseDiffEncoder) {datums : List ObDatum}
    (h : (enc.traverse datums).1 = true) :
    enc.maxDelta (enc.traverseCells datums enc.integerData) ≠ 0 ∧
      (enc.traverse datums).2 = { enc with
        integerData := enc.traverseCells datums enc.integerData
        desc := ⟨if (getPackingSize (enc.maxDelta (enc.traverseCells datums enc.integerData)) true).2 then
            (getPackingSize (enc.maxDelta (enc.traverseCells datums enc.integerData)) true).1 else 0,
          if (getPackingSize (enc.maxDelta (enc.traverseCells datums enc.integerData)) true).2 then 0 else
            (getPackingSize (enc.maxDelta (enc.traverseCells datums enc.integerData)) true).1 * 8 / 8,
          true, decide (0 < datums.count .null), decide (0 < datums.count .nop),
          decide (0 < datums.count .null) || decide (0 < datums.count .nop)⟩
        attr := ⟨decide (0 < datums.count .null) || decide (0 < datums.count .nop),
          decide (0 < if (getPackingSize (enc.maxDelta (enc.traverseCells datums enc.integerData)) true).2 then
            (getPackingSize (enc.maxDelta (enc.traverseCells datums enc.integerData)) true).1 else 0), true⟩ } := by
  have hD : ({ enc with integerData := enc.traverseCells datums enc.integerData } : ObIntegerBaseDiffEncoder).maxDelta
      (enc.traverseCells datums enc.integerData) = enc.maxDelta (enc.traverseCells datums enc.integerData) := rfl
  unfold traverse at h ⊢
  dsimp only at h ⊢
  rw [hD] at h ⊢
  by_cases hd : enc.maxDelta (enc.traverseCells datums enc.integerData) = 0
  · simp [hd] at h
  · rw [if_neg hd] at h ⊢
    refine ⟨hd, ?_⟩
    split_ifs at h ⊢ <;> rfl

theorem traverse_fits {t : ObObjType} {datums : List ObDatum}
    (hvals : ∀ v, ObDatum.uint64 v ∈ datums → t.InType v) (hsuit : ((init t).traverse datums).1 = true) :
    Fits ((init t).traverse datums).2 datums := by
  have hmask : (init t).mask = integerMaskTable.getD t.typeSize 0 := rfl
  obtain ⟨hd, heq⟩ := (init t).traverse_of_suitable hsuit
  rw [heq]
  generalize hdata : (init t).traverseCells datums (init t).integerData = data at hd ⊢
  have hlt : objLt t.storeClass data.min data.max = true := by
    by_contra hn
    exact hd (by simp [maxDelta, init, hn])
  have hD : (init t).maxDelta data = data.max - data.min := by simp [maxDelta, init, hlt]
  rw [hD] at hd ⊢
  have hfits := getPackingSize_fits hd
  refine ⟨hmask, ?_, rfl, ?_, ?_, ?_, rfl, ?_⟩
  · obtain ⟨v0, hv0, hmin⟩ := traverseCells_min_of_lt (hdata ▸ hlt)
    rw [hdata, (init t).cellValue_of_inType hmask (hvals v0 hv0)] at hmin
    simp only [base, hmin]
    exact hvals v0 hv0
  · cases hp : (getPackingSize (data.max - data.min) true).2
    · obtain ⟨h1, h2, -⟩ := hfits.2 hp
      simp [h1, h2]
    · obtain ⟨h1, h2, -⟩ := hfits.1 hp
      simp [h1, h2]
  · intro v hv
    have hlo : ordVal t.storeClass data.min ≤ ordVal t.storeClass ((init t).cellValue v) :=
      hdata ▸ (init t).traverseCells_min_le hv (init t).integerData
    have hhi : ordVal t.storeClass ((init t).cellValue v) ≤ ordVal t.storeClass data.max :=
      hdata ▸ (init t).traverseCells_le_max hv (init t).integerData
    have hmax : ((data.max - data.min).toNat : Int) = ordVal t.storeClass data.max - ordVal t.storeClass data.min :=
      toNat_sub_of_ordVal_le ((objLt_iff _ _ _).1 hlt).le
    have hval : (((init t).cellValue v - data.min).toNat : Int) =
        ordVal t.storeClass ((init t).cellValue v) - ordVal t.storeClass data.min := toNat_sub_of_ordVal_le hlo
    have hdelta : ((init t).cellValue v - data.min).toNat ≤ (data.max - data.min).toNat := by omega
    cases hp : (getPackingSize (data.max - data.min) true).2
    · obtain ⟨-, -, h3⟩ := hfits.2 hp
      simp only [delta]
      exact lt_of_le_of_lt hdelta (by simpa using h3)
    · obtain ⟨-, -, h3⟩ := hfits.1 hp
      simp only [delta]
      exact lt_of_le_of_lt hdelta (by simpa using h3)
  · simp [List.count_pos_iff]
  · cases (getPackingSize (data.max - data.min) true).2 <;> simp

theorem traverse_base_le {t : ObObjType} {datums : List ObDatum}
    (hvals : ∀ v, ObDatum.uint64 v ∈ datums → t.InType v) (hsuit : ((init t).traverse datums).1 = true)
    {v : BitVec 64} (hv : ObDatum.uint64 v ∈ datums) :
    ordVal t.storeClass ((init t).traverse datums).2.base ≤ ordVal t.storeClass v := by
  obtain ⟨-, heq⟩ := (init t).traverse_of_suitable hsuit
  have hle := (init t).traverseCells_min_le hv (init t).integerData
  rw [(init t).cellValue_of_inType rfl (hvals v hv)] at hle
  rw [heq]
  exact hle

/-! ## The column store -/

section Store
variable (enc : ObIntegerBaseDiffEncoder)

/-- The field the value loops write for a row: the delta of a value, nothing for a NULL or a NOP. -/
def deltaField : ObDatum → Nat
  | .uint64 v => (enc.delta v).toNat
  | _ => 0

def extBits (rows : Nat) : Nat :=
  if enc.desc.needExtendValueBitStore then enc.extendValueBit * rows else 0

theorem bitsSize_eq (rows : Nat) : enc.bitsSize rows = enc.extBits rows + enc.desc.bitPackingLength * rows := rfl

/-- The column store of `datums` from byte `buf` of `mem`, as `fill_column_store` lays it out: the
extend value of each row, then its delta, bit-packed after the extend values or in
`fix_data_length_` bytes after the bytes of the bits. -/
structure ColumnStore (datums : List ObDatum) (buf : Nat) (mem : Nat → UInt8) : Prop where
  ext : enc.desc.needExtendValueBitStore = true → ∀ r (hr : r < datums.length),
    bitsAt mem (8 * buf + r * enc.extendValueBit) enc.extendValueBit = getStoredExtValue datums[r]
  bits : 0 < enc.desc.bitPackingLength → ∀ r (hr : r < datums.length),
    bitsAt mem (8 * buf + enc.extBits datums.length + r * enc.desc.bitPackingLength) enc.desc.bitPackingLength =
      enc.deltaField datums[r]
  fixed : 0 < enc.desc.fixDataLength → ∀ r (hr : r < datums.length),
    leRead mem (buf + (enc.bitsSize datums.length + 7) / 8 + r * enc.desc.fixDataLength) enc.desc.fixDataLength =
      enc.deltaField datums[r]

theorem ColumnStore.of_agree {datums : List ObDatum} {buf : Nat} {mem mem' : Nat → UInt8}
    (h : enc.ColumnStore datums buf mem)
    (hagree : ∀ i, 8 * buf ≤ i → i < 8 * (buf + ((enc.bitsSize datums.length + 7) / 8 +
      enc.desc.fixDataLength * datums.length)) → bitAt mem' i = bitAt mem i) :
    enc.ColumnStore datums buf mem' := by
  have hbits : enc.bitsSize datums.length ≤ 8 * ((enc.bitsSize datums.length + 7) / 8) := by omega
  have hsize := enc.bitsSize_eq datums.length
  refine ⟨fun hx r hr => ?_, fun hL r hr => ?_, fun hF r hr => ?_⟩
  · have hend : r * enc.extendValueBit + enc.extendValueBit ≤ enc.extBits datums.length := by
      rw [extBits, if_pos hx, ← Nat.succ_mul, Nat.mul_comm]
      exact Nat.mul_le_mul_left _ hr
    rw [← h.ext hx r hr]
    exact bitsAt_congr fun j hj => hagree _ (by omega) (by omega)
  · have hend : r * enc.desc.bitPackingLength + enc.desc.bitPackingLength ≤
        enc.desc.bitPackingLength * datums.length := by
      rw [← Nat.succ_mul, Nat.mul_comm]
      exact Nat.mul_le_mul_left _ hr
    rw [← h.bits hL r hr]
    exact bitsAt_congr fun j hj => hagree _ (by omega) (by omega)
  · have hend : r * enc.desc.fixDataLength + enc.desc.fixDataLength ≤ enc.desc.fixDataLength * datums.length := by
      rw [← Nat.succ_mul, Nat.mul_comm]
      exact Nat.mul_le_mul_left _ hr
    rw [← h.fixed hF r hr, leRead_eq_bitsAt, leRead_eq_bitsAt]
    exact bitsAt_congr fun j hj => hagree _ (by omega) (by omega)

/-- The bytes a column leaves at `header`, as `store_meta` and `store_fix_data` write them: the
meta's `length_` byte, the low `store_size` bytes of the base, and the column store after the meta. -/
structure Stored (datums : List ObDatum) (header : Nat) (mem : Nat → UInt8) : Prop where
  length : leRead mem (header + 1) 1 =
    if 0 < enc.desc.bitPackingLength then enc.desc.bitPackingLength else enc.desc.fixDataLength
  base : leRead mem (header + 2) enc.columnType.typeSize = enc.base.toNat % 2 ^ (8 * enc.columnType.typeSize)
  store : enc.ColumnStore datums (header + 2 + enc.columnType.typeSize) mem

theorem Stored.of_agree {datums : List ObDatum} {header : Nat} {mem mem' : Nat → UInt8}
    (h : enc.Stored datums header mem)
    (hagree : ∀ a, header + 1 ≤ a → a < header + 2 + enc.columnType.typeSize +
      ((enc.bitsSize datums.length + 7) / 8 + enc.desc.fixDataLength * datums.length) → mem' a = mem a) :
    enc.Stored datums header mem' := by
  have hbit : ∀ i, 8 * (header + 1) ≤ i → i < 8 * (header + 2 + enc.columnType.typeSize +
      ((enc.bitsSize datums.length + 7) / 8 + enc.desc.fixDataLength * datums.length)) →
      bitAt mem' i = bitAt mem i := fun i h1 h2 => by
    simp only [bitAt, hagree (i / 8) (by omega) (by omega)]
  refine ⟨?_, ?_, ColumnStore.of_agree enc h.store fun i h1 h2 => hbit i (by omega) (by omega)⟩
  · rw [← h.length, leRead_eq_bitsAt, leRead_eq_bitsAt]
    exact bitsAt_congr fun j hj => hbit _ (by omega) (by omega)
  · rw [← h.base, leRead_eq_bitsAt, leRead_eq_bitsAt]
    exact bitsAt_congr fun j hj => hbit _ (by omega) (by omega)

theorem writesField_ext (buf : Nat) (d : ObDatum) :
    WritesField (fun mem pos d => ObBitStream.memorySafeSetShort mem buf pos (getStoredExtValue d))
      getStoredExtValue (8 * buf) 1 enc.extendValueBit d := by
  intro mem pos _ i
  rw [Nat.one_mul]
  exact ObBitStream.bitAt_memorySafeSetShort mem (by cases d <;> simp [getStoredExtValue]) i

theorem writesField_delta (buf : Nat) {d : ObDatum} (hd : enc.deltaField d < 2 ^ enc.desc.bitPackingLength)
    (hL : enc.desc.bitPackingLength ≤ 64) :
    WritesField (enc.setValueRow fun mem pos v => ObBitStream.memorySafeSet mem buf pos enc.desc.bitPackingLength v)
      enc.deltaField (8 * buf) 1 enc.desc.bitPackingLength d := by
  intro mem pos _ i
  rw [Nat.one_mul]
  cases d with
  | uint64 v => exact ObBitStream.bitAt_memorySafeSet mem hd hL i
  | null => simp [setValueRow, deltaField]
  | nop => simp [setValueRow, deltaField]

theorem writesField_fix {d : ObDatum} (hd : enc.deltaField d < 2 ^ (8 * enc.desc.fixDataLength)) :
    WritesField (enc.setValueRow fun mem pos v => leWrite mem pos enc.desc.fixDataLength v)
      enc.deltaField 0 8 enc.desc.fixDataLength d := by
  intro mem pos hz i
  cases d with
  | uint64 v =>
    simp only [setValueRow, deltaField, bitAt_leWrite, Nat.zero_add] at hd ⊢
    split_ifs with hi
    · rw [hz i (by omega) (by omega)]
      simp [hi.1]
    · by_cases hlo : 8 * pos ≤ i
      · rw [testBit_eq_false_of_lt_two_pow hd (by omega)]
        simp
      · simp [hlo]
  | null => simp [setValueRow, deltaField]
  | nop => simp [setValueRow, deltaField]

end Store

/-! ## What `fill_column_store` writes -/

section Fill
variable {enc : ObIntegerBaseDiffEncoder} {datums : List ObDatum}

theorem getD_map_eq_getElem (f : ObDatum → Nat) {r : Nat} (hr : r < datums.length) :
    (datums.map f).getD r 0 = f datums[r] := by
  rw [List.getD_eq_getElem _ _ (by simpa using hr), List.getElem_map]

theorem storeExtBits_spec (buf : Nat) (hext : ∀ d ∈ datums, getStoredExtValue d < 2 ^ enc.extendValueBit)
    {mem : Nat → UInt8}
    (hz : ∀ i, 8 * buf ≤ i → i < 8 * buf + enc.extendValueBit * datums.length → bitAt mem i = false) :
    (∀ r (hr : r < datums.length), bitsAt (enc.storeExtBits buf datums 0 mem) (8 * buf + r * enc.extendValueBit)
        enc.extendValueBit = getStoredExtValue datums[r]) ∧
      ∀ i, ¬(8 * buf ≤ i ∧ i < 8 * buf + enc.extendValueBit * datums.length) →
        bitAt (enc.storeExtBits buf datums 0 mem) i = bitAt mem i := by
  have hw : ∀ d ∈ datums, WritesField _ getStoredExtValue (8 * buf) 1 enc.extendValueBit d :=
    fun d _ => enc.writesField_ext buf d
  have hf : ∀ d ∈ datums, getStoredExtValue d < 2 ^ (1 * enc.extendValueBit) := by
    simpa only [Nat.one_mul] using hext
  have hz' : ∀ i, 8 * buf + 1 * 0 ≤ i → i < 8 * buf + 1 * (0 + enc.extendValueBit * datums.length) →
      bitAt mem i = false := by
    simpa only [Nat.one_mul, Nat.zero_add, Nat.add_zero] using hz
  refine ⟨fun r hr => ?_, fun i hi => ?_⟩
  · have h := bitsAt_storeRows hw hf hz' hr
    rw [getD_map_eq_getElem _ hr, Nat.one_mul, Nat.one_mul, Nat.zero_add, Nat.mul_comm enc.extendValueBit r] at h
    exact h
  · exact bitAt_storeRows_of_not hw hf hz' (by simpa only [Nat.one_mul, Nat.zero_add, Nat.add_zero] using hi)

theorem storeDeltaBits_spec (buf pos : Nat)
    (hdelta : ∀ d ∈ datums, enc.deltaField d < 2 ^ enc.desc.bitPackingLength) (hL : enc.desc.bitPackingLength ≤ 64)
    {mem : Nat → UInt8}
    (hz : ∀ i, 8 * buf + pos ≤ i → i < 8 * buf + pos + enc.desc.bitPackingLength * datums.length →
      bitAt mem i = false) :
    (∀ r (hr : r < datums.length), bitsAt (enc.storeDeltaBits buf datums pos mem)
        (8 * buf + pos + r * enc.desc.bitPackingLength) enc.desc.bitPackingLength = enc.deltaField datums[r]) ∧
      ∀ i, ¬(8 * buf + pos ≤ i ∧ i < 8 * buf + pos + enc.desc.bitPackingLength * datums.length) →
        bitAt (enc.storeDeltaBits buf datums pos mem) i = bitAt mem i := by
  have hw : ∀ d ∈ datums, WritesField _ enc.deltaField (8 * buf) 1 enc.desc.bitPackingLength d :=
    fun d hd => enc.writesField_delta buf (hdelta d hd) hL
  have hf : ∀ d ∈ datums, enc.deltaField d < 2 ^ (1 * enc.desc.bitPackingLength) := by
    simpa only [Nat.one_mul] using hdelta
  have hz' : ∀ i, 8 * buf + 1 * pos ≤ i → i < 8 * buf + 1 * (pos + enc.desc.bitPackingLength * datums.length) →
      bitAt mem i = false := by
    simpa only [Nat.one_mul, Nat.add_assoc] using hz
  refine ⟨fun r hr => ?_, fun i hi => ?_⟩
  · have h := bitsAt_storeRows hw hf hz' hr
    rw [getD_map_eq_getElem _ hr, Nat.one_mul, Nat.one_mul, ← Nat.add_assoc, Nat.mul_comm _ r] at h
    exact h
  · exact bitAt_storeRows_of_not hw hf hz' (by simpa only [Nat.one_mul, Nat.add_assoc] using hi)

theorem storeFixDataRows_spec (buf : Nat)
    (hdelta : ∀ d ∈ datums, enc.deltaField d < 2 ^ (8 * enc.desc.fixDataLength)) {mem : Nat → UInt8}
    (hz : ∀ i, 8 * buf ≤ i → i < 8 * (buf + enc.desc.fixDataLength * datums.length) → bitAt mem i = false) :
    (∀ r (hr : r < datums.length), leRead (enc.storeFixDataRows buf datums mem)
        (buf + r * enc.desc.fixDataLength) enc.desc.fixDataLength = enc.deltaField datums[r]) ∧
      ∀ i, ¬(8 * buf ≤ i ∧ i < 8 * (buf + enc.desc.fixDataLength * datums.length)) →
        bitAt (enc.storeFixDataRows buf datums mem) i = bitAt mem i := by
  have hw : ∀ d ∈ datums, WritesField _ enc.deltaField 0 8 enc.desc.fixDataLength d :=
    fun d hd => enc.writesField_fix (hdelta d hd)
  have hz' : ∀ i, 0 + 8 * buf ≤ i → i < 0 + 8 * (buf + enc.desc.fixDataLength * datums.length) →
      bitAt mem i = false := by
    simpa only [Nat.zero_add] using hz
  refine ⟨fun r hr => ?_, fun i hi => ?_⟩
  · have h := bitsAt_storeRows hw hdelta hz' hr
    rw [getD_map_eq_getElem _ hr, Nat.zero_add, Nat.mul_comm _ r] at h
    rw [leRead_eq_bitsAt]
    exact h
  · exact bitAt_storeRows_of_not hw hdelta hz' (by simpa only [Nat.zero_add] using hi)

theorem storeFixBits_spec (buf : Nat) (hext : ∀ d ∈ datums, getStoredExtValue d < 2 ^ enc.extendValueBit)
    (hdelta : 0 < enc.desc.bitPackingLength → ∀ d ∈ datums, enc.deltaField d < 2 ^ enc.desc.bitPackingLength)
    (hL : enc.desc.bitPackingLength ≤ 64) {mem : Nat → UInt8}
    (hz : ∀ i, 8 * buf ≤ i → i < 8 * buf + enc.bitsSize datums.length → bitAt mem i = false) :
    (enc.desc.needExtendValueBitStore = true → ∀ r (hr : r < datums.length),
        bitsAt (enc.storeFixBits buf datums mem) (8 * buf + r * enc.extendValueBit) enc.extendValueBit =
          getStoredExtValue datums[r]) ∧
      (0 < enc.desc.bitPackingLength → ∀ r (hr : r < datums.length),
        bitsAt (enc.storeFixBits buf datums mem) (8 * buf + enc.extBits datums.length + r * enc.desc.bitPackingLength)
          enc.desc.bitPackingLength = enc.deltaField datums[r]) ∧
      ∀ i, ¬(8 * buf ≤ i ∧ i < 8 * buf + enc.bitsSize datums.length) →
        bitAt (enc.storeFixBits buf datums mem) i = bitAt mem i := by
  have hsize := enc.bitsSize_eq datums.length
  have hspec1 : enc.desc.needExtendValueBitStore = true →
      (∀ r (hr : r < datums.length), bitsAt (enc.storeExtBits buf datums 0 mem) (8 * buf + r * enc.extendValueBit)
        enc.extendValueBit = getStoredExtValue datums[r]) ∧
      ∀ i, ¬(8 * buf ≤ i ∧ i < 8 * buf + enc.extendValueBit * datums.length) →
        bitAt (enc.storeExtBits buf datums 0 mem) i = bitAt mem i := fun hx =>
    storeExtBits_spec buf hext fun i h1 h2 => hz i h1 (by rw [extBits, if_pos hx] at hsize; omega)
  have hext1 : enc.desc.needExtendValueBitStore = true → ∀ r (hr : r < datums.length),
      bitsAt (if enc.desc.needExtendValueBitStore then enc.storeExtBits buf datums 0 mem else mem)
        (8 * buf + r * enc.extendValueBit) enc.extendValueBit = getStoredExtValue datums[r] := by
    intro hx
    rw [if_pos hx]
    exact (hspec1 hx).1
  have hframe1 : ∀ i, ¬(8 * buf ≤ i ∧ i < 8 * buf + enc.extBits datums.length) →
      bitAt (if enc.desc.needExtendValueBitStore then enc.storeExtBits buf datums 0 mem else mem) i = bitAt mem i := by
    intro i hi
    by_cases hx : enc.desc.needExtendValueBitStore = true
    · rw [if_pos hx]
      rw [extBits, if_pos hx] at hi
      exact (hspec1 hx).2 i hi
    · rw [if_neg hx]
  have hstore : enc.storeFixBits buf datums mem = if 0 < enc.desc.bitPackingLength then
      enc.storeDeltaBits buf datums (enc.extBits datums.length)
        (if enc.desc.needExtendValueBitStore then enc.storeExtBits buf datums 0 mem else mem)
      else if enc.desc.needExtendValueBitStore then enc.storeExtBits buf datums 0 mem else mem := rfl
  rw [hstore]
  by_cases hL0 : 0 < enc.desc.bitPackingLength
  · have hd := storeDeltaBits_spec buf (enc.extBits datums.length) (hdelta hL0) hL fun i h1 h2 => by
      rw [hframe1 i (by omega)]
      exact hz i (by omega) (by omega)
    rw [if_pos hL0]
    refine ⟨fun hx r hr => ?_, fun _ => hd.1, fun i hi => ?_⟩
    · have hend : r * enc.extendValueBit + enc.extendValueBit ≤ enc.extBits datums.length := by
        rw [extBits, if_pos hx, ← Nat.succ_mul, Nat.mul_comm]
        exact Nat.mul_le_mul_left _ hr
      rw [← hext1 hx r hr]
      exact bitsAt_congr fun j hj => hd.2 _ (by omega)
    · rw [hd.2 i (by omega), hframe1 i (by omega)]
  · rw [if_neg hL0]
    exact ⟨hext1, fun h => absurd h hL0, fun i hi => hframe1 i (by omega)⟩

theorem Fits.deltaField_lt (hfits : enc.Fits datums) :
    (0 < enc.desc.bitPackingLength → ∀ d ∈ datums, enc.deltaField d < 2 ^ enc.desc.bitPackingLength) ∧
      (0 < enc.desc.fixDataLength → ∀ d ∈ datums, enc.deltaField d < 2 ^ (8 * enc.desc.fixDataLength)) := by
  have hlt : ∀ d ∈ datums, enc.deltaField d < 2 ^ (enc.desc.bitPackingLength + 8 * enc.desc.fixDataLength) := by
    intro d hd
    cases d with
    | uint64 v => exact hfits.delta_lt v hd
    | null => exact Nat.two_pow_pos _
    | nop => exact Nat.two_pow_pos _
  rcases hfits.width with ⟨-, -, hF⟩ | ⟨hL, -, -⟩
  · exact ⟨fun _ => by simpa [hF] using hlt, fun h => absurd hF (by omega)⟩
  · exact ⟨fun h => absurd hL (by omega), fun _ => by simpa [hL] using hlt⟩

theorem fillColumnStore_layout (hfits : enc.Fits datums)
    (hext : ∀ d ∈ datums, getStoredExtValue d < 2 ^ enc.extendValueBit) {w w' : ObBufferWriter}
    (h : enc.fillColumnStore datums w = .ok w') :
    w'.pos = w.pos + ((enc.bitsSize datums.length + 7) / 8 + enc.desc.fixDataLength * datums.length) ∧
      (∀ i < 8 * w.pos, bitAt w'.mem i = bitAt w.mem i) ∧ enc.ColumnStore datums w.pos w'.mem := by
  have hsize := enc.bitsSize_eq datums.length
  have hL : enc.desc.bitPackingLength ≤ 64 := by rcases hfits.width with h | h <;> omega
  have hvalid : (enc.desc.needDataStore && (decide (enc.desc.fixDataLength = 0) ||
      decide (enc.desc.bitPackingLength = 0))) = true := by
    rcases hfits.width with ⟨-, -, hF⟩ | ⟨hL0, -, -⟩ <;> simp [hfits.needDataStore, *]
  unfold fillColumnStore at h
  rw [if_neg (by simp [hvalid])] at h
  by_cases hcap : (enc.bitsSize datums.length + 7) / 8 + enc.desc.fixDataLength * datums.length + 8 ≤
      w.capacity - w.pos
  swap
  · simp [ObBufferWriter.advanceZero, hcap, bind, Except.bind] at h
  simp only [ObBufferWriter.advanceZero, if_pos hcap, bind, Except.bind, ObBufferWriter.backward] at h
  rw [if_pos (by omega)] at h
  cases h
  generalize hB : (enc.bitsSize datums.length + 7) / 8 = B at hcap ⊢
  have hbits : enc.bitsSize datums.length ≤ 8 * B := by omega
  generalize hM0 : memset w.mem w.pos 0 (B + enc.desc.fixDataLength * datums.length + 8) = M0
  have hz0 : ∀ i, 8 * w.pos ≤ i → i < 8 * (w.pos + (B + enc.desc.fixDataLength * datums.length + 8)) →
      bitAt M0 i = false := fun i h1 h2 => hM0 ▸ bitAt_memset_zero w.mem ⟨h1, h2⟩
  have hlow0 : ∀ i < 8 * w.pos, bitAt M0 i = bitAt w.mem i := fun i hi => hM0 ▸ bitAt_memset_of_lt w.mem hi
  generalize hM1 : (if 0 < B then enc.storeFixBits w.pos datums M0 else M0) = M1
  have hspec1 : (enc.desc.needExtendValueBitStore = true → ∀ r (hr : r < datums.length),
        bitsAt M1 (8 * w.pos + r * enc.extendValueBit) enc.extendValueBit = getStoredExtValue datums[r]) ∧
      (0 < enc.desc.bitPackingLength → ∀ r (hr : r < datums.length),
        bitsAt M1 (8 * w.pos + enc.extBits datums.length + r * enc.desc.bitPackingLength)
          enc.desc.bitPackingLength = enc.deltaField datums[r]) ∧
      ∀ i, ¬(8 * w.pos ≤ i ∧ i < 8 * w.pos + enc.bitsSize datums.length) → bitAt M1 i = bitAt M0 i := by
    subst hM1
    by_cases hB0 : 0 < B
    · rw [if_pos hB0]
      exact storeFixBits_spec w.pos hext hfits.deltaField_lt.1 hL fun i h1 h2 => hz0 i h1 (by omega)
    · rw [if_neg hB0]
      have h0 : enc.bitsSize datums.length = 0 := by omega
      refine ⟨fun hx r hr => ?_, fun hL0 r hr => ?_, fun _ _ => rfl⟩
      · have he0 : enc.extendValueBit = 0 := by
          rw [hsize, extBits, if_pos hx] at h0
          rcases Nat.mul_eq_zero.1 (Nat.eq_zero_of_add_eq_zero_right h0) with h | h
          · exact h
          · omega
        have := hext _ (List.getElem_mem hr)
        rw [he0] at this ⊢
        simp only [bitsAt]
        omega
      · have : 0 < enc.desc.bitPackingLength * datums.length := Nat.mul_pos hL0 (by omega)
        omega
  have hspec2 : (0 < enc.desc.fixDataLength → ∀ r (hr : r < datums.length),
        leRead (if 0 < enc.desc.fixDataLength then enc.storeFixDataRows (w.pos + B) datums M1 else M1)
          (w.pos + B + r * enc.desc.fixDataLength) enc.desc.fixDataLength = enc.deltaField datums[r]) ∧
      ∀ i < 8 * (w.pos + B),
        bitAt (if 0 < enc.desc.fixDataLength then enc.storeFixDataRows (w.pos + B) datums M1 else M1) i = bitAt M1 i := by
    by_cases hF0 : 0 < enc.desc.fixDataLength
    · rw [if_pos hF0]
      have hz1 : ∀ i, 8 * (w.pos + B) ≤ i → i < 8 * (w.pos + B + enc.desc.fixDataLength * datums.length) →
          bitAt M1 i = false := fun i h1 h2 => by
        rw [hspec1.2.2 i (by omega)]
        exact hz0 i (by omega) (by omega)
      have hf := storeFixDataRows_spec (w.pos + B) (hfits.deltaField_lt.2 hF0) hz1
      exact ⟨fun _ => hf.1, fun i hi => hf.2 i (by omega)⟩
    · rw [if_neg hF0]
      exact ⟨fun h => absurd h hF0, fun _ _ => rfl⟩
  refine ⟨by simp only; omega, fun i hi => ?_, ⟨fun hx r hr => ?_, fun hL0 r hr => ?_, fun hF0 r hr => ?_⟩⟩
  · rw [hspec2.2 i (by omega), hspec1.2.2 i (by omega), hlow0 i hi]
  · have hend : r * enc.extendValueBit + enc.extendValueBit ≤ enc.extBits datums.length := by
      rw [extBits, if_pos hx, ← Nat.succ_mul, Nat.mul_comm]
      exact Nat.mul_le_mul_left _ hr
    rw [← hspec1.1 hx r hr]
    exact bitsAt_congr fun j hj => hspec2.2 _ (by omega)
  · have hend : r * enc.desc.bitPackingLength + enc.desc.bitPackingLength ≤
        enc.desc.bitPackingLength * datums.length := by
      rw [← Nat.succ_mul, Nat.mul_comm]
      exact Nat.mul_le_mul_left _ hr
    rw [← hspec1.2.1 hL0 r hr]
    exact bitsAt_congr fun j hj => hspec2.2 _ (by omega)
  · rw [hB]
    exact hspec2.1 hF0 r hr

theorem storeColumn_layout (hfits : enc.Fits datums)
    (hext : ∀ d ∈ datums, getStoredExtValue d < 2 ^ enc.extendValueBit) {w w' : ObBufferWriter}
    {enc' : ObIntegerBaseDiffEncoder} (h : enc.storeColumn datums w = .ok (enc', w')) :
    enc' = { enc with header := w.pos } ∧
      w'.pos = w.pos + 2 + enc.columnType.typeSize +
        ((enc.bitsSize datums.length + 7) / 8 + enc.desc.fixDataLength * datums.length) ∧
      (∀ i < 8 * w.pos, bitAt w'.mem i = bitAt w.mem i) ∧ enc.Stored datums w.pos w'.mem := by
  unfold storeColumn storeMeta at h
  by_cases hcap : 2 + enc.columnType.typeSize ≤ w.capacity - w.pos
  swap
  · simp [ObBufferWriter.advanceZero, hcap, bind, Except.bind] at h
  simp only [ObBufferWriter.advanceZero, if_pos hcap, bind, Except.bind, pure, Except.pure] at h
  have hfix : ∀ a w1, ({ enc with header := a } : ObIntegerBaseDiffEncoder).storeFixData datums w1 =
      enc.fillColumnStore datums { w1 with
        mem := leWrite w1.mem (a + 1) 1 (if 0 < enc.desc.bitPackingLength then enc.desc.bitPackingLength
          else enc.desc.fixDataLength) } :=
    fun _ _ => rfl
  rw [hfix] at h
  generalize hmeta : leWrite (memset w.mem w.pos 0 (2 + enc.columnType.typeSize)) (w.pos + 2)
    enc.columnType.typeSize enc.base.toNat = M at h
  generalize hlen : (if 0 < enc.desc.bitPackingLength then enc.desc.bitPackingLength
    else enc.desc.fixDataLength) = len at h ⊢
  dsimp only at h
  cases hw2 : enc.fillColumnStore datums
      { mem := leWrite M (w.pos + 1) 1 len, pos := w.pos + (2 + enc.columnType.typeSize), capacity := w.capacity } with
  | error e => simp [hw2] at h
  | ok w2 =>
    simp only [hw2, Except.ok.injEq, Prod.mk.injEq] at h
    obtain ⟨rfl, rfl⟩ := h
    obtain ⟨hpos, hlow, hstore⟩ := fillColumnStore_layout hfits hext hw2
    simp only at hpos hlow
    have hlen64 : len < 2 ^ (8 * 1) := by
      rw [← hlen]
      rcases hfits.width with ⟨h1, h2, -⟩ | ⟨h1, h2, h3⟩ <;> simp [h1] <;> omega
    have hmeta' : ∀ p n, 8 * (p + n) ≤ 8 * (w.pos + (2 + enc.columnType.typeSize)) →
        leRead w2.mem p n = leRead (leWrite M (w.pos + 1) 1 len) p n := fun p n hpn => by
      rw [leRead_eq_bitsAt, leRead_eq_bitsAt]
      exact bitsAt_congr fun j hj => hlow _ (by omega)
    refine ⟨rfl, by omega, fun i hi => ?_, ⟨?_, ?_, by rwa [← Nat.add_assoc] at hstore⟩⟩
    · rw [hlow i (by omega), bitAt_leWrite, if_neg (by omega), ← hmeta, bitAt_leWrite, if_neg (by omega),
        bitAt_memset_of_lt w.mem hi]
    · rw [hmeta' _ _ (by omega), leRead_leWrite, Nat.mod_eq_of_lt hlen64, ← hlen]
    · rw [hmeta' _ _ (by omega), leRead_congr fun k _ => leWrite_apply_of_not (by omega) len, ← hmeta,
        leRead_leWrite]

end Fill

end ObIntegerBaseDiffEncoder

end Blocksstable
end OceanBase

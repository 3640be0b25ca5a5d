import OceanBase.Blocksstable.IntegerBaseDiffEncoder

/-! The reads of `ObIntegerBaseDiffDecoder` (`ob_integer_base_diff_decoder.cpp`, `.h`) on the
bytes of a block: `init` takes the base from the meta, `decode` reads one row with the
byte-by-byte `ObBitStream::get` or a `MEMCPY`, and `batch_decode` reads a batch of rows, through
one of the three unpack variants of `ObBitStream` chosen by the packed length. These reads, run
on what `ObIntegerBaseDiffEncoder` stored, give every row back. -/
namespace OceanBase
namespace Blocksstable
open Lib

/-- What `ObColumnDecoderCtx` tells the decoder of the column: its type, the block header's
`row_count_` and `extend_value_bit_`, and the column header's `length_` (the meta's length) and
attributes. -/
structure ColumnDecoderCtx where
  objType : ObObjType
  rowCount : Nat
  extendValueBit : Nat
  colHeaderLength : Nat
  hasExtendValue : Bool
  isBitPacking : Bool
  deriving DecidableEq, Repr

def ColumnDecoderCtx.dataOffset (ctx : ColumnDecoderCtx) : Nat :=
  if ctx.hasExtendValue then ctx.rowCount * ctx.extendValueBit else 0

/-- The context the block gives the decoder of a column that `store_meta` and `store_fix_data`
wrote: its type, the block's row count and `extend_value_bit_`, the column header's `length_`, which
`ObMicroBlockEncoder` sets to what `store_meta` wrote, and the header's attributes. -/
def ObIntegerBaseDiffEncoder.decoderCtx (enc : ObIntegerBaseDiffEncoder) (rowCount : Nat) : ColumnDecoderCtx :=
  ⟨enc.columnType, rowCount, enc.extendValueBit, 2 + enc.columnType.typeSize, enc.attr.hasExtendValue,
    enc.attr.bitPacking⟩

def batchCell : ObDatum → ObDatum
  | .nop => .null
  | d => d

/-- `ObIntegerBaseDiffDecoder` after `init`: `header_`, the address of the meta, and `base_`. -/
structure ObIntegerBaseDiffDecoder where
  header : Nat
  base : BitVec 64
  deriving DecidableEq, Repr

namespace ObIntegerBaseDiffDecoder

/-- `init(micro_block_header, column_header, meta)`: the base is the `store_size` bytes after the
header, cast to `int64_t` by hand for a signed column. -/
def init (mem : Nat → UInt8) (t : ObObjType) (metaAddr : Nat) : ObIntegerBaseDiffDecoder :=
  let storeSize := t.typeSize
  let base := BitVec.ofNat 64 (leRead mem (metaAddr + 2) storeSize)
  ⟨metaAddr, match t.storeClass with
    | .intSC => castToInt64 (integerMaskTable.getD storeSize 0) base
    | .uintSC => base⟩

variable (dec : ObIntegerBaseDiffDecoder) (ctx : ColumnDecoderCtx) (mem : Nat → UInt8)

def colData : Nat := dec.header + ctx.colHeaderLength

def length : Nat := (mem (dec.header + 1)).toNat

/-- The extend value of row `rowId`, read with `ObBitStream::get`; `STORED_NOT_EXT` for a column
without extend values. -/
def extValue (rowId : Nat) : Nat :=
  if ctx.hasExtendValue then (ObBitStream.get mem (dec.colData ctx) (rowId * ctx.extendValueBit) ctx.extendValueBit).1
  else 0

/-- `decode(ctx, cell, row_id, bs, data, len)`: an extend value sets the cell to NULL or NOP;
otherwise the cell is `base_` plus the delta, bit-packed after the extend-value bits or in
`length_` bytes after the bytes that hold them. -/
def decode (cell : ObDatum) (rowId : Nat) : ObDatum :=
  let val := dec.extValue ctx mem rowId
  let length := dec.length mem
  if val ≠ 0 then setStoredExtValue cell val
  else if ctx.isBitPacking then
    .uint64 (dec.base + BitVec.ofNat 64
      (ObBitStream.get mem (dec.colData ctx) (ctx.dataOffset + rowId * length) length).1)
  else
    .uint64 (dec.base + BitVec.ofNat 64
      (leRead mem (dec.colData ctx + (ctx.dataOffset + 7) / 8 + rowId * length) length))

/-- `INT_DIFF_UNPACK_VALUES` with the unpack variant `ty`: each row the NULL bitmap does not mark
is `base_` plus its field read by `ObBitStream::get<ty>` over `bs_len`, the bits of the packed
deltas. Also the addresses the reads load. -/
def intDiffUnpackValues (ty : ObBitStream.UnpackType) (rowIds : List Nat) (nulls : List Bool) :
    List ObDatum × List Nat :=
  let length := dec.length mem
  let bsLen := length * ctx.rowCount
  let cells := (rowIds.zip nulls).map fun (rowId, isNull) =>
    if ctx.hasExtendValue && isNull then (ObDatum.null, [])
    else
      let r := ObBitStream.getUnpack ty mem (dec.colData ctx) (ctx.dataOffset + rowId * length) length bsLen
      (ObDatum.uint64 (dec.base + BitVec.ofNat 64 r.1), r.2)
  (cells.map Prod.fst, (cells.map Prod.snd).flatten)

def batchGetBitpackedValues (rowIds : List Nat) (nulls : List Bool) : Except ObErr (List ObDatum × List Nat) :=
  let packedLen := dec.length mem
  if packedLen < 10 then .ok (dec.intDiffUnpackValues ctx mem .packedLenLessThan10 rowIds nulls)
  else if packedLen < 26 then .ok (dec.intDiffUnpackValues ctx mem .packedLenLessThan26 rowIds nulls)
  else if packedLen ≤ 64 then .ok (dec.intDiffUnpackValues ctx mem .default rowIds nulls)
  else .error .errUnexpected

/-- `batch_decode(ctx, row_index, row_ids, cell_datas, row_cap, datums)` for a column of 8-byte
integer datums: the NULL bitmap from the extend values (`set_null_datums_from_fixed_column`, which
makes NOP rows NULL), then the values, bit-packed or in `length_` bytes. -/
def batchDecode (rowIds : List Nat) : Except ObErr (List ObDatum × List Nat) :=
  let nulls := rowIds.map fun rowId => decide (dec.extValue ctx mem rowId ≠ 0)
  if ctx.isBitPacking then dec.batchGetBitpackedValues ctx mem rowIds nulls
  else
    let length := dec.length mem
    let cells := (rowIds.zip nulls).map fun (rowId, isNull) =>
      if ctx.hasExtendValue && isNull then ObDatum.null
      else .uint64 (dec.base + BitVec.ofNat 64
        (leRead mem (dec.colData ctx + (ctx.dataOffset + 7) / 8 + rowId * length) length))
    .ok (cells, [])

/-- The column as the filters of the decoder see it after `init`: its type and row count, the NULL
bitmap that `get_is_null_bitmap_from_fixed_column` loads, one bit per row from the start of the
column store whatever `extend_value_bit_` is, the base bytes of the meta, and each row's delta field,
where `decode` reads it. -/
def column : IntDiffColumn where
  objType := ctx.objType
  rowCount := ctx.rowCount
  hasExtendValue := ctx.hasExtendValue
  isNull r := decide ((ObBitStream.get mem (dec.colData ctx) r 1).1 ≠ 0)
  storedBase := BitVec.ofNat 64 (leRead mem (dec.header + 2) ctx.objType.typeSize)
  delta r := BitVec.ofNat 64 (if ctx.isBitPacking then
      (ObBitStream.get mem (dec.colData ctx) (ctx.dataOffset + r * dec.length mem) (dec.length mem)).1
    else leRead mem (dec.colData ctx + (ctx.dataOffset + 7) / 8 + r * dec.length mem) (dec.length mem))

theorem decode_eq_column (cell : ObDatum) (rowId : Nat) :
    dec.decode ctx mem cell rowId =
      if dec.extValue ctx mem rowId ≠ 0 then setStoredExtValue cell (dec.extValue ctx mem rowId)
      else .uint64 (dec.base + (dec.column ctx mem).delta rowId) := by
  unfold decode column
  dsimp only
  split_ifs <;> rfl

/-! ## Reading a stored column -/

theorem ofNat_toNat_mod (x : BitVec 64) {n : Nat} (hn : n ≤ 64) :
    BitVec.ofNat 64 (x.toNat % 2 ^ n) = x &&& BitVec.ofNat 64 (2 ^ n - 1) := by
  apply BitVec.eq_of_toNat_eq
  have hmask : 2 ^ n - 1 < 2 ^ 64 :=
    lt_of_lt_of_le (Nat.sub_lt (Nat.two_pow_pos n) Nat.one_pos) (Nat.pow_le_pow_right (by decide) hn)
  have hx : x.toNat % 2 ^ n < 2 ^ 64 := lt_of_le_of_lt (Nat.mod_le _ _) x.isLt
  rw [BitVec.toNat_ofNat, Nat.mod_eq_of_lt hx, BitVec.toNat_and, BitVec.toNat_ofNat, Nat.mod_eq_of_lt hmask,
    Nat.and_two_pow_sub_one_eq_mod]

theorem init_base {mem : Nat → UInt8} {t : ObObjType} {header : Nat} {base : BitVec 64}
    (hbase : leRead mem (header + 2) t.typeSize = base.toNat % 2 ^ (8 * t.typeSize)) (hty : t.InType base) :
    (init mem t header).base = base := by
  have hmask := integerMaskTable_getD t.typeSize_le
  have hpos : 0 < 8 * t.typeSize := by have := t.typeSize_pos; omega
  have hle : 8 * t.typeSize ≤ 64 := by have := t.typeSize_le; omega
  unfold ObObjType.InType at hty
  cases hsc : t.storeClass
  · rw [hsc] at hty
    simp only [init, hsc, hbase, ofNat_toNat_mod base hle, hmask]
    exact castToInt64_signExtend hpos hle hty
  · rw [hsc] at hty
    simp only [init, hsc, hbase, ofNat_toNat_mod base hle]
    exact and_lowMask_of_setWidth hle hty

section Stored
variable {enc : ObIntegerBaseDiffEncoder} {datums : List ObDatum} {header : Nat} {mem : Nat → UInt8}

theorem colData_decoderCtx (rows : Nat) :
    (init mem enc.columnType header).colData (enc.decoderCtx rows) = header + 2 + enc.columnType.typeSize :=
  (Nat.add_assoc _ _ _).symm

theorem length_of_stored (h : enc.Stored datums header mem) :
    (init mem enc.columnType header).length mem =
      if 0 < enc.desc.bitPackingLength then enc.desc.bitPackingLength else enc.desc.fixDataLength := by
  have hlen := h.length
  simp only [leRead, Nat.mul_zero, Nat.add_zero] at hlen
  exact hlen

theorem dataOffset_of_fits (hfits : enc.Fits datums) :
    (enc.decoderCtx datums.length).dataOffset = enc.extBits datums.length := by
  simp only [ColumnDecoderCtx.dataOffset, ObIntegerBaseDiffEncoder.decoderCtx,
    ObIntegerBaseDiffEncoder.extBits, hfits.hasExtendValue, Nat.mul_comm]

theorem extValue_of_stored (hfits : enc.Fits datums) (h : enc.Stored datums header mem) {r : Nat}
    (hr : r < datums.length) :
    (init mem enc.columnType header).extValue (enc.decoderCtx datums.length) mem r = getStoredExtValue datums[r] := by
  unfold extValue
  by_cases hx : enc.desc.needExtendValueBitStore = true
  · rw [if_pos (by simpa [ObIntegerBaseDiffEncoder.decoderCtx, hfits.hasExtendValue] using hx), ObBitStream.get_fst,
      colData_decoderCtx]
    exact h.store.ext hx r hr
  · rw [if_neg (by simpa [ObIntegerBaseDiffEncoder.decoderCtx, hfits.hasExtendValue] using hx)]
    rw [hfits.needExt] at hx
    have hmem := List.getElem_mem hr
    cases hd : datums[r] with
    | uint64 v => rfl
    | null => rw [hd] at hmem; simp [hmem] at hx
    | nop => rw [hd] at hmem; simp [hmem] at hx

theorem base_add_deltaField (hfits : enc.Fits datums) (hvals : ∀ v, ObDatum.uint64 v ∈ datums → enc.columnType.InType v)
    (h : enc.Stored datums header mem) {v : BitVec 64} (hv : ObDatum.uint64 v ∈ datums) :
    (init mem enc.columnType header).base + BitVec.ofNat 64 (enc.deltaField (.uint64 v)) = v := by
  rw [init_base h.base hfits.base_inType, ObIntegerBaseDiffEncoder.deltaField, BitVec.ofNat_toNat,
    BitVec.setWidth_eq, ObIntegerBaseDiffEncoder.delta, ObIntegerBaseDiffEncoder.base, add_sub_cancel,
    enc.cellValue_of_inType hfits.mask_eq (hvals v hv)]

theorem column_delta_of_stored (hfits : enc.Fits datums) (h : enc.Stored datums header mem) {r : Nat}
    (hr : r < datums.length) :
    ((init mem enc.columnType header).column (enc.decoderCtx datums.length) mem).delta r =
      BitVec.ofNat 64 (enc.deltaField datums[r]) := by
  have hbp : (enc.decoderCtx datums.length).isBitPacking = decide (0 < enc.desc.bitPackingLength) :=
    hfits.bitPacking
  simp only [column, length_of_stored h, dataOffset_of_fits hfits, hbp]
  by_cases hL : 0 < enc.desc.bitPackingLength
  · simp only [hL, decide_true, if_true, ObBitStream.get_fst]
    rw [colData_decoderCtx, ← Nat.add_assoc, h.store.bits hL r hr]
  · have hF : 0 < enc.desc.fixDataLength := by rcases hfits.width with h' | h' <;> omega
    have hbits : enc.extBits datums.length = enc.bitsSize datums.length := by
      rw [enc.bitsSize_eq]; simp [show enc.desc.bitPackingLength = 0 by omega]
    simp only [hL, decide_false, Bool.false_eq_true, if_false, hbits]
    rw [colData_decoderCtx, h.store.fixed hF r hr]

theorem decode_of_stored (hfits : enc.Fits datums)
    (hvals : ∀ v, ObDatum.uint64 v ∈ datums → enc.columnType.InType v) (h : enc.Stored datums header mem)
    {r : Nat} (hr : r < datums.length) (cell : ObDatum) :
    (init mem enc.columnType header).decode (enc.decoderCtx datums.length) mem cell r = datums[r] := by
  have hmem := List.getElem_mem hr
  rw [decode_eq_column, extValue_of_stored hfits h hr, column_delta_of_stored hfits h hr]
  cases hd : datums[r] with
  | null => simp [getStoredExtValue, setStoredExtValue]
  | nop => simp [getStoredExtValue, setStoredExtValue]
  | uint64 v =>
    rw [hd] at hmem
    simp only [getStoredExtValue, ne_eq, not_true_eq_false, if_false, base_add_deltaField hfits hvals h hmem]

theorem zip_map_self {α β : Type} (l : List α) (f : α → β) : l.zip (l.map f) = l.map fun a => (a, f a) := by
  induction l with
  | nil => rfl
  | cons a l ih => simp [ih]

theorem isNull_of_stored (hfits : enc.Fits datums) (h : enc.Stored datums header mem) {r : Nat}
    (hr : r < datums.length) :
    ((enc.decoderCtx datums.length).hasExtendValue &&
      decide ((init mem enc.columnType header).extValue (enc.decoderCtx datums.length) mem r ≠ 0)) =
      decide (getStoredExtValue datums[r] ≠ 0) := by
  rw [extValue_of_stored hfits h hr]
  have hmem := List.getElem_mem hr
  have hx : (enc.decoderCtx datums.length).hasExtendValue = enc.desc.needExtendValueBitStore := hfits.hasExtendValue
  rw [hx, hfits.needExt]
  cases hd : datums[r] with
  | uint64 v => simp [getStoredExtValue]
  | null => rw [hd] at hmem; simp [hmem, getStoredExtValue]
  | nop => rw [hd] at hmem; simp [hmem, getStoredExtValue]

theorem intDiffUnpackValues_of_stored (hfits : enc.Fits datums)
    (hvals : ∀ v, ObDatum.uint64 v ∈ datums → enc.columnType.InType v) (h : enc.Stored datums header mem)
    (hL : 0 < enc.desc.bitPackingLength) (ty : ObBitStream.UnpackType)
    (hty : (ty = .packedLenLessThan10 → enc.desc.bitPackingLength < 10) ∧
      (ty = .packedLenLessThan26 → enc.desc.bitPackingLength < 26))
    {rowIds : List Nat} (hrows : ∀ r ∈ rowIds, r < datums.length) :
    ((init mem enc.columnType header).intDiffUnpackValues (enc.decoderCtx datums.length) mem ty rowIds
        (rowIds.map fun r => decide ((init mem enc.columnType header).extValue (enc.decoderCtx datums.length) mem r ≠ 0))).1 =
      rowIds.map (fun r => batchCell (datums.getD r .null)) ∧
    ∀ a ∈ ((init mem enc.columnType header).intDiffUnpackValues (enc.decoderCtx datums.length) mem ty rowIds
        (rowIds.map fun r => decide ((init mem enc.columnType header).extValue (enc.decoderCtx datums.length) mem r ≠ 0))).2,
      header + 2 + enc.columnType.typeSize ≤ a ∧
        a < header + 2 + enc.columnType.typeSize + (enc.bitsSize datums.length + 7) / 8 := by
  have hsize := enc.bitsSize_eq datums.length
  simp only [intDiffUnpackValues, zip_map_self, List.map_map, length_of_stored h, if_pos hL, dataOffset_of_fits hfits,
    colData_decoderCtx]
  refine ⟨List.map_congr_left fun r hr => ?_, fun a ha => ?_⟩
  · have hr' := hrows r hr
    simp only [Function.comp_apply, isNull_of_stored hfits h hr', List.getD_eq_getElem _ _ hr']
    have hmem := List.getElem_mem hr'
    cases hd : datums[r] with
    | null => simp [getStoredExtValue, batchCell]
    | nop => simp [getStoredExtValue, batchCell]
    | uint64 v =>
      rw [hd] at hmem
      simp only [getStoredExtValue, ne_eq, not_true_eq_false, decide_false, Bool.false_eq_true, if_false,
        ObBitStream.getUnpack_fst ty mem hty, ← Nat.add_assoc, h.store.bits hL r hr', hd,
        base_add_deltaField hfits hvals h hmem, batchCell]
  · simp only [List.mem_flatten, List.mem_map, Function.comp_apply] at ha
    obtain ⟨_, ⟨r, hr, rfl⟩, ha⟩ := ha
    have hr' := hrows r hr
    rw [isNull_of_stored hfits h hr'] at ha
    split_ifs at ha
    · simp at ha
    · have hend : r * enc.desc.bitPackingLength + enc.desc.bitPackingLength ≤
          enc.desc.bitPackingLength * datums.length := by
        rw [← Nat.succ_mul, Nat.mul_comm]
        exact Nat.mul_le_mul_left _ hr'
      have hrows' : (enc.decoderCtx datums.length).rowCount = datums.length := rfl
      rw [hrows'] at ha
      have := ObBitStream.getUnpack_reads ty mem hL (show _ ≤ enc.bitsSize datums.length by omega)
        (show _ ≤ enc.bitsSize datums.length by omega) a ha
      omega

theorem batchDecode_of_stored (hfits : enc.Fits datums)
    (hvals : ∀ v, ObDatum.uint64 v ∈ datums → enc.columnType.InType v) (h : enc.Stored datums header mem)
    {rowIds : List Nat} (hrows : ∀ r ∈ rowIds, r < datums.length) :
    ∃ reads, (init mem enc.columnType header).batchDecode (enc.decoderCtx datums.length) mem rowIds =
        .ok (rowIds.map fun r => batchCell (datums.getD r .null), reads) ∧
      ∀ a ∈ reads, header + 2 + enc.columnType.typeSize ≤ a ∧ a < header + 2 + enc.columnType.typeSize +
        ((enc.bitsSize datums.length + 7) / 8 + enc.desc.fixDataLength * datums.length) := by
  have hbp : (enc.decoderCtx datums.length).isBitPacking = decide (0 < enc.desc.bitPackingLength) := hfits.bitPacking
  unfold batchDecode
  rw [hbp]
  by_cases hL : 0 < enc.desc.bitPackingLength
  · have hL64 : enc.desc.bitPackingLength < 64 := by rcases hfits.width with h' | h' <;> omega
    simp only [hL, decide_true, if_true, batchGetBitpackedValues, length_of_stored h]
    split_ifs with h10 h26 h64
    · obtain ⟨h1, h2⟩ := intDiffUnpackValues_of_stored hfits hvals h hL .packedLenLessThan10
        ⟨fun _ => h10, fun h' => absurd h' (by decide)⟩ hrows
      refine ⟨_, by rw [← h1], fun a ha => ?_⟩
      have := h2 a ha
      omega
    · obtain ⟨h1, h2⟩ := intDiffUnpackValues_of_stored hfits hvals h hL .packedLenLessThan26
        ⟨fun h' => absurd h' (by decide), fun _ => h26⟩ hrows
      refine ⟨_, by rw [← h1], fun a ha => ?_⟩
      have := h2 a ha
      omega
    · obtain ⟨h1, h2⟩ := intDiffUnpackValues_of_stored hfits hvals h hL .default
        ⟨fun h' => absurd h' (by decide), fun h' => absurd h' (by decide)⟩ hrows
      refine ⟨_, by rw [← h1], fun a ha => ?_⟩
      have := h2 a ha
      omega
    · omega
  · have hF : 0 < enc.desc.fixDataLength := by rcases hfits.width with h' | h' <;> omega
    have hbits : enc.extBits datums.length = enc.bitsSize datums.length := by
      rw [enc.bitsSize_eq]; simp [show enc.desc.bitPackingLength = 0 by omega]
    simp only [hL, decide_false, Bool.false_eq_true, if_false, zip_map_self, List.map_map, length_of_stored h,
      dataOffset_of_fits hfits, colData_decoderCtx, hbits]
    refine ⟨[], congrArg _ (Prod.ext (List.map_congr_left fun r hr => ?_) rfl), by simp⟩
    have hr' := hrows r hr
    simp only [Function.comp_apply, isNull_of_stored hfits h hr', List.getD_eq_getElem _ _ hr']
    have hmem := List.getElem_mem hr'
    cases hd : datums[r] with
    | null => simp [getStoredExtValue, batchCell]
    | nop => simp [getStoredExtValue, batchCell]
    | uint64 v =>
      rw [hd] at hmem
      simp only [getStoredExtValue, ne_eq, not_true_eq_false, decide_false, Bool.false_eq_true, if_false,
        h.store.fixed hF r hr', hd, base_add_deltaField hfits hvals h hmem, batchCell]

end Stored

section StoreColumn

variable {t : ObObjType} {datums : List ObDatum} {e : Nat} {w w' : ObBufferWriter}
  {enc' : ObIntegerBaseDiffEncoder}

theorem stored_of_storeColumn (hvals : ∀ v, ObDatum.uint64 v ∈ datums → t.InType v)
    (he : (ObDatum.null ∈ datums → 1 ≤ e) ∧ (ObDatum.nop ∈ datums → 2 ≤ e))
    (hsuit : ((ObIntegerBaseDiffEncoder.init t).traverse datums).1 = true)
    (hstore : (((ObIntegerBaseDiffEncoder.init t).traverse datums).2.setExtendValueBit e).storeColumn datums w =
      .ok (enc', w'))
    (mem : Nat → UInt8) (hmem : ∀ a, w.pos ≤ a → a < w'.pos → mem a = w'.mem a) :
    ∃ enc : ObIntegerBaseDiffEncoder,
      enc = ((ObIntegerBaseDiffEncoder.init t).traverse datums).2.setExtendValueBit e ∧
      enc.columnType = t ∧ enc.Fits datums ∧ enc' = { enc with header := w.pos } ∧
      w'.pos = w.pos + 2 + t.typeSize +
        ((enc.bitsSize datums.length + 7) / 8 + enc.desc.fixDataLength * datums.length) ∧
      enc.Stored datums w.pos mem := by
  obtain ⟨-, heq⟩ := (ObIntegerBaseDiffEncoder.init t).traverse_of_suitable hsuit
  have hfits := (ObIntegerBaseDiffEncoder.traverse_fits hvals hsuit).setExtendValueBit e
  generalize henc : ((ObIntegerBaseDiffEncoder.init t).traverse datums).2.setExtendValueBit e = enc at hfits hstore
  have hty : enc.columnType = t := by rw [← henc, heq]; rfl
  subst hty
  have hext : ∀ d ∈ datums, getStoredExtValue d < 2 ^ enc.extendValueBit := by
    have he' : enc.extendValueBit = e := by rw [← henc]; rfl
    intro d hd
    rw [he']
    cases d with
    | uint64 v => exact Nat.two_pow_pos e
    | null => exact lt_of_lt_of_le (by decide) (Nat.pow_le_pow_right (by decide) (he.1 hd))
    | nop => exact lt_of_lt_of_le (by decide) (Nat.pow_le_pow_right (by decide) (he.2 hd))
  obtain ⟨rfl, hpos, -, hstored⟩ := ObIntegerBaseDiffEncoder.storeColumn_layout hfits hext hstore
  exact ⟨enc, rfl, rfl, hfits, rfl, hpos,
    ObIntegerBaseDiffEncoder.Stored.of_agree enc hstored fun a h1 h2 => hmem a (by omega) (by omega)⟩

/-- The column an integer base-diff encoder stores, read back. For a column of values of its type on
which `traverse` reports suitable, and an `extend_value_bit_` wide enough for its NULL and NOP
rows, the bytes that `store_meta` and `store_fix_data` write give back every row, read from any
memory that holds them: through `decode`, and through `batch_decode` with whichever unpack variant
the packed length picks, which loads only bytes of the column store. -/
theorem integerBaseDiff_round_trip
    (hvals : ∀ v, ObDatum.uint64 v ∈ datums → t.InType v)
    (he : (ObDatum.null ∈ datums → 1 ≤ e) ∧ (ObDatum.nop ∈ datums → 2 ≤ e))
    (hsuit : ((ObIntegerBaseDiffEncoder.init t).traverse datums).1 = true)
    (hstore : (((ObIntegerBaseDiffEncoder.init t).traverse datums).2.setExtendValueBit e).storeColumn datums w =
      .ok (enc', w'))
    (mem : Nat → UInt8) (hmem : ∀ a, w.pos ≤ a → a < w'.pos → mem a = w'.mem a) :
    (∀ r (hr : r < datums.length) (cell : ObDatum),
      (ObIntegerBaseDiffDecoder.init mem t w.pos).decode (enc'.decoderCtx datums.length) mem cell r = datums[r]) ∧
    ∀ rowIds : List Nat, (∀ r ∈ rowIds, r < datums.length) →
      ∃ reads, (ObIntegerBaseDiffDecoder.init mem t w.pos).batchDecode (enc'.decoderCtx datums.length) mem rowIds =
          .ok (rowIds.map fun r => batchCell (datums.getD r .null), reads) ∧
        ∀ a ∈ reads, w.pos + 2 + t.typeSize ≤ a ∧ a < w'.pos := by
  obtain ⟨enc, -, rfl, hfits, rfl, hpos, hstored⟩ := stored_of_storeColumn hvals he hsuit hstore mem hmem
  refine ⟨fun r hr cell => decode_of_stored hfits hvals hstored hr cell, fun rowIds hrows => ?_⟩
  obtain ⟨reads, h1, h2⟩ := batchDecode_of_stored hfits hvals hstored hrows
  exact ⟨reads, h1, fun a ha => by have := h2 a ha; omega⟩

theorem encodedColumn_of_store
    (hvals : ∀ v, ObDatum.uint64 v ∈ datums → t.InType v)
    (hnull : ObDatum.null ∈ datums → e = 1) (hnop : ObDatum.nop ∉ datums)
    (hsuit : ((ObIntegerBaseDiffEncoder.init t).traverse datums).1 = true)
    (hstore : (((ObIntegerBaseDiffEncoder.init t).traverse datums).2.setExtendValueBit e).storeColumn datums w =
      .ok (enc', w'))
    (mem : Nat → UInt8) (hmem : ∀ a, w.pos ≤ a → a < w'.pos → mem a = w'.mem a) :
    ∃ col : EncodedColumn,
      col.toIntDiffColumn = (ObIntegerBaseDiffDecoder.init mem t w.pos).column (enc'.decoderCtx datums.length) mem ∧
      ∀ r (hr : r < datums.length), col.decode r =
        match datums[r] with
        | .uint64 v => some v
        | _ => none := by
  obtain ⟨enc, henc, rfl, hfits, rfl, -, hstored⟩ := stored_of_storeColumn hvals
    ⟨fun h => (hnull h).ge, fun h => absurd h hnop⟩ hsuit hstore mem hmem
  set col := (init mem enc.columnType w.pos).column (enc.decoderCtx datums.length) mem with hcol
  have hnullRow : ∀ r (hr : r < datums.length), col.nullRow r = decide (getStoredExtValue datums[r] ≠ 0) := by
    intro r hr
    rw [← isNull_of_stored hfits hstored hr]
    cases hx : (enc.decoderCtx datums.length).hasExtendValue
    · simp [IntDiffColumn.nullRow, hcol, column, hx]
    · have hext : enc.desc.needExtendValueBitStore = true := hfits.hasExtendValue ▸ hx
      rw [hfits.needExt] at hext
      have he1 : enc.extendValueBit = 1 := (congrArg ObIntegerBaseDiffEncoder.extendValueBit henc).trans
        (hnull (by simpa [hnop] using hext))
      simp [IntDiffColumn.nullRow, hcol, column, extValue, ObIntegerBaseDiffEncoder.decoderCtx, he1]
  have hbase : col.base = (init mem enc.columnType w.pos).base := rfl
  have hrow : ∀ r (hr : r < datums.length) v, datums[r] = .uint64 v →
      col.base + col.delta r = v ∧ col.delta r = v - col.base := by
    intro r hr v hd
    have hmem' : ObDatum.uint64 v ∈ datums := hd ▸ List.getElem_mem hr
    have hsum : col.base + col.delta r = v := by
      rw [hbase, column_delta_of_stored hfits hstored hr, hd, base_add_deltaField hfits hvals hstored hmem']
    exact ⟨hsum, by rw [← hsum, add_sub_cancel_left]⟩
  have hle : ∀ v, ObDatum.uint64 v ∈ datums → ordVal enc.columnType.storeClass col.base ≤
      ordVal enc.columnType.storeClass v := by
    intro v hv
    rw [hbase, init_base hstored.base hfits.base_inType, congrArg ObIntegerBaseDiffEncoder.base henc]
    exact ObIntegerBaseDiffEncoder.traverse_base_le hvals hsuit hv
  refine ⟨⟨col, fun r hr hn => ?_⟩, rfl, fun r hr => ?_⟩
  · have hr' : r < datums.length := hr
    rw [hnullRow r hr', decide_eq_false_iff_not, not_not] at hn
    cases hd : datums[r] with
    | null => simp [hd, getStoredExtValue] at hn
    | nop => simp [hd, getStoredExtValue] at hn
    | uint64 v =>
      obtain ⟨hsum, hdelta⟩ := hrow r hr' v hd
      have hv := hle v (hd ▸ List.getElem_mem hr')
      have hty : col.objType = enc.columnType := rfl
      rw [hty, hsum, hdelta, toNat_sub_of_ordVal_le hv]
      omega
  · simp only [IntDiffColumn.decode, hnullRow r hr]
    cases hd : datums[r] with
    | null => simp [getStoredExtValue]
    | nop => simp [getStoredExtValue]
    | uint64 v => simp [getStoredExtValue, (hrow r hr v hd).1]

/-- The filters of the decoder on a stored column agree with decoding and comparing. Take a column
as in `encodedColumn_of_store` and a white filter with operands of the column's type, except `BT`
on a signed column. From a cleared bitmap `pushdown_operator` sets the bit of each row the parent
filter does not skip exactly when the filter holds of the row's value, a NULL row counting as
none. -/
theorem pushdownOperator_on_stored_column
    (hvals : ∀ v, ObDatum.uint64 v ∈ datums → t.InType v)
    (hnull : ObDatum.null ∈ datums → e = 1) (hnop : ObDatum.nop ∉ datums)
    (hsuit : ((ObIntegerBaseDiffEncoder.init t).traverse datums).1 = true)
    (hstore : (((ObIntegerBaseDiffEncoder.init t).traverse datums).2.setExtendValueBit e).storeColumn datums w =
      .ok (enc', w'))
    (mem : Nat → UInt8) (hmem : ∀ a, w.pos ≤ a → a < w'.pos → mem a = w'.mem a)
    (parent : Option (Nat → Bool)) (filter : WhiteFilter) (hty : filter.objType = t)
    (hobjs : ∀ o ∈ filter.objs, t.InType o) (harity : filter.ArityOk)
    (hbt : filter.opType = .bt → t.storeClass = .uintSC) :
    ∃ bm, pushdownOperator ((ObIntegerBaseDiffDecoder.init mem t w.pos).column (enc'.decoderCtx datums.length) mem)
        parent filter (List.replicate datums.length false) = .ok bm ∧ bm.length = datums.length ∧
      ∀ r (hr : r < datums.length), skips parent r = false →
        bm[r]? = some (filter.holds (match datums[r] with
          | .uint64 v => some v
          | _ => none)) := by
  obtain ⟨col, hcol, hdec⟩ := encodedColumn_of_store hvals hnull hnop hsuit hstore mem hmem
  obtain ⟨enc, -, hct, -, rfl, -, -⟩ := stored_of_storeColumn hvals
    ⟨fun h => (hnull h).ge, fun h => absurd h hnop⟩ hsuit hstore mem hmem
  have hcty : col.objType = t := (congrArg IntDiffColumn.objType hcol).trans hct
  have hrows : col.rowCount = datums.length := congrArg IntDiffColumn.rowCount hcol
  obtain ⟨bm, hbm, hlen, hbits⟩ := pushdownOperator_agrees col parent filter (hty.trans hcty.symm)
    (hcty ▸ hobjs) harity (hcty ▸ hbt)
  rw [hrows, hcol] at hbm
  refine ⟨bm, hbm, hrows ▸ hlen, fun r hr hs => ?_⟩
  rw [hbits r (hrows ▸ hr) hs, hdec r hr]

end StoreColumn

/-- A column stored with `extend_value_bit_` `e` from byte 3 of a block of `0x55` bytes: the
encoder and the writer after `store_fix_data`, or the initial ones when the store fails. -/
def storedAt (t : ObObjType) (datums : List ObDatum) (e : Nat) : ObIntegerBaseDiffEncoder × ObBufferWriter :=
  match (((ObIntegerBaseDiffEncoder.init t).traverse datums).2.setExtendValueBit e).storeColumn datums
      ⟨fun _ => 0x55, 3, 200⟩ with
  | .ok r => r
  | .error _ => (ObIntegerBaseDiffEncoder.init t, ⟨fun _ => 0x55, 3, 200⟩)

/-- Every row of a column stored by `storedAt` reads back through `decode`, and all rows at once
through `batch_decode`. -/
def ReadsBack (t : ObObjType) (datums : List ObDatum) (e : Nat) : Prop :=
  (∀ r (hr : r < datums.length) (cell : ObDatum),
    (ObIntegerBaseDiffDecoder.init (storedAt t datums e).2.mem t 3).decode
      ((storedAt t datums e).1.decoderCtx datums.length) (storedAt t datums e).2.mem cell r = datums[r]) ∧
  ∃ reads, (ObIntegerBaseDiffDecoder.init (storedAt t datums e).2.mem t 3).batchDecode
      ((storedAt t datums e).1.decoderCtx datums.length) (storedAt t datums e).2.mem
      (List.range datums.length) =
    .ok ((List.range datums.length).map fun r => batchCell (datums.getD r .null), reads)

theorem inType_of_all {t : ObObjType} {datums : List ObDatum}
    (h : (datums.all fun d => match d with
      | .uint64 v => decide (t.InType v)
      | _ => true) = true) :
    ∀ v, ObDatum.uint64 v ∈ datums → t.InType v := by
  intro v hv
  simpa using List.all_eq_true.1 h _ hv

def tinyIntColumn : List ObDatum := [.uint64 5#64, .null, .uint64 100#64, .uint64 7#64, .uint64 (-3#64)]

def midColumn : List ObDatum :=
  [.uint64 (2 ^ 50), .uint64 (2 ^ 50 + 2 ^ 20), .nop, .uint64 (2 ^ 50 + 3), .uint64 (2 ^ 50 + 100)]

def wideColumn : List ObDatum :=
  [.uint64 (2 ^ 60), .uint64 (2 ^ 60 + 2 ^ 40), .uint64 (2 ^ 60 + 7), .uint64 (2 ^ 60 + 9)]

set_option maxRecDepth 20000 in
/-- Three columns, one for each unpack variant of `batch_get_bitpacked_values`: packed lengths
below 10, below 26 and up to 64. -/
theorem integerBaseDiff_round_trip_three_widths :
    ((ObIntegerBaseDiffEncoder.init .tinyInt).traverse tinyIntColumn).2.desc.bitPackingLength < 10 ∧
      ((ObIntegerBaseDiffEncoder.init .int).traverse midColumn).2.desc.bitPackingLength = 21 ∧
      ((ObIntegerBaseDiffEncoder.init .uInt64).traverse wideColumn).2.desc.bitPackingLength = 41 ∧
      ReadsBack .tinyInt tinyIntColumn 1 ∧ ReadsBack .int midColumn 2 ∧ ReadsBack .uInt64 wideColumn 0 := by
  have hrange : ∀ n, ∀ r ∈ List.range n, r < n := fun n r hr => List.mem_range.1 hr
  have hvals₁ : ∀ v, ObDatum.uint64 v ∈ tinyIntColumn → ObObjType.tinyInt.InType v := inType_of_all (by decide)
  have hvals₂ : ∀ v, ObDatum.uint64 v ∈ midColumn → ObObjType.int.InType v := inType_of_all (by decide)
  have hvals₃ : ∀ v, ObDatum.uint64 v ∈ wideColumn → ObObjType.uInt64.InType v := inType_of_all (by decide)
  obtain ⟨hdec₁, hbatch₁⟩ := integerBaseDiff_round_trip hvals₁ (w := ⟨fun _ => 0x55, 3, 200⟩)
    ⟨fun _ => le_refl 1, fun h => by simp [tinyIntColumn] at h⟩ (by decide +kernel)
    (show _ = Except.ok ((storedAt .tinyInt tinyIntColumn 1).1, (storedAt .tinyInt tinyIntColumn 1).2) from rfl)
    _ fun _ _ _ => rfl
  obtain ⟨hdec₂, hbatch₂⟩ := integerBaseDiff_round_trip hvals₂ (w := ⟨fun _ => 0x55, 3, 200⟩)
    ⟨fun h => by simp [midColumn] at h, fun _ => le_refl 2⟩ (by decide +kernel)
    (show _ = Except.ok ((storedAt .int midColumn 2).1, (storedAt .int midColumn 2).2) from rfl)
    _ fun _ _ _ => rfl
  obtain ⟨hdec₃, hbatch₃⟩ := integerBaseDiff_round_trip hvals₃ (e := 0) (w := ⟨fun _ => 0x55, 3, 200⟩)
    ⟨fun h => by simp [wideColumn] at h, fun h => by simp [wideColumn] at h⟩ (by decide +kernel)
    (show _ = Except.ok ((storedAt .uInt64 wideColumn 0).1, (storedAt .uInt64 wideColumn 0).2) from rfl)
    _ fun _ _ _ => rfl
  obtain ⟨r₁, hr₁, -⟩ := hbatch₁ _ (hrange _)
  obtain ⟨r₂, hr₂, -⟩ := hbatch₂ _ (hrange _)
  obtain ⟨r₃, hr₃, -⟩ := hbatch₃ _ (hrange _)
  exact ⟨by decide +kernel, by decide +kernel, by decide +kernel, ⟨hdec₁, r₁, hr₁⟩, ⟨hdec₂, r₂, hr₂⟩,
    ⟨hdec₃, r₃, hr₃⟩⟩

def tinyAtLeastZero : WhiteFilter := ⟨.ge,.tinyInt,[0]⟩

/-- `>= 0` on `tinyIntColumn` as stored: rows 5, 100 and 7 are selected, the NULL row and -3 are
not. -/
theorem pushdownOperator_on_stored_tinyInt :
    ∃ bm, pushdownOperator ((ObIntegerBaseDiffDecoder.init (storedAt .tinyInt tinyIntColumn 1).2.mem .tinyInt 3).column
        ((storedAt .tinyInt tinyIntColumn 1).1.decoderCtx tinyIntColumn.length) (storedAt .tinyInt tinyIntColumn 1).2.mem)
        none tinyAtLeastZero (List.replicate tinyIntColumn.length false) = .ok bm ∧
      bm = [true,false,true,true,false] := by
  have hvals : ∀ v, ObDatum.uint64 v ∈ tinyIntColumn → ObObjType.tinyInt.InType v := inType_of_all (by decide)
  obtain ⟨bm, hbm, hlen, hbits⟩ := pushdownOperator_on_stored_column hvals (w := ⟨fun _ => 0x55, 3, 200⟩)
    (fun _ => rfl) (by simp [tinyIntColumn]) (by decide +kernel)
    (show _ = Except.ok ((storedAt .tinyInt tinyIntColumn 1).1, (storedAt .tinyInt tinyIntColumn 1).2) from rfl)
    _ (fun _ _ _ => rfl) none tinyAtLeastZero rfl (by simp [tinyAtLeastZero]; decide)
    (by simp [WhiteFilter.ArityOk, tinyAtLeastZero]) (by simp [tinyAtLeastZero])
  refine ⟨bm, hbm, List.ext_getElem? fun r => ?_⟩
  by_cases hr : r < 5
  · rw [hbits r hr rfl]
    interval_cases r <;> rfl
  · rw [List.getElem?_eq_none (by simp only [tinyIntColumn, List.length_cons, List.length_nil] at hlen; omega),
      List.getElem?_eq_none (by simp; omega)]

end ObIntegerBaseDiffDecoder

end Blocksstable
end OceanBase

import OceanBase.Palf.LogGroupEntryHeader

/-! `LogGroupEntryHeader::truncate` (`log_group_entry_header.cpp`): cutting a group log back to its
entries whose SCN is at most `cut_scn`. The walk reads each entry's header, stops at the first
SCN above `cut_scn`, and folds the data checksums and the largest SCN of the entries before it;
the header then describes that prefix. A prefix with no entry leaves `max_scn_` invalid. -/
namespace OceanBase

namespace Share
namespace SCN

def gt (a b : BitVec 64) : Bool :=
  if !scnIsValid a.toNat && !scnIsValid b.toNat then false
  else if !scnIsValid a.toNat then false
  else if !scnIsValid b.toNat then true
  else decide (b.toNat < a.toNat)

theorem gt_of_valid {a b : BitVec 64} (ha : scnIsValid a.toNat = true) (hb : scnIsValid b.toNat = true) :
    gt a b = decide (b.toNat < a.toNat) := by
  simp [gt,ha,hb]

end SCN
end Share

namespace Palf

open Common

/-- The bytes the entries with headers `hs` take: each its header and its data. -/
def entriesSize (hs : List LogEntryHeader) : Nat :=
  (hs.map fun h => LogEntryHeader.headerSerSize + h.getDataLen).sum

@[simp] theorem entriesSize_nil : entriesSize [] = 0 := rfl

@[simp] theorem entriesSize_append (as bs : List LogEntryHeader) :
    entriesSize (as ++ bs) = entriesSize as + entriesSize bs := by
  simp [entriesSize]

@[simp] theorem entriesSize_cons (h : LogEntryHeader) (hs : List LogEntryHeader) :
    entriesSize (h :: hs) = LogEntryHeader.headerSerSize + h.getDataLen + entriesSize hs := by
  simp [entriesSize]

/-- The entries of `truncate(cut_scn)` keeps: the longest prefix whose SCNs are at most
`cut_scn`. -/
def cutPrefix (cutScn : BitVec 64) (hs : List LogEntryHeader) : List LogEntryHeader :=
  hs.takeWhile fun h => decide (h.scn.toNat ≤ cutScn.toNat)

namespace Entries

variable {crc : ObCrc64} {buf : Nat → UInt8}

theorem add_entriesSize {dataLen off : Nat} {hs : List LogEntryHeader} (he : Entries crc buf dataLen off hs) :
    off + entriesSize hs = dataLen := by
  induction he with
  | nil => rfl
  | cons _ _ _ _ ih =>
    rw [entriesSize_cons,← ih]
    omega

theorem of_append {dataLen off : Nat} {pre post : List LogEntryHeader}
    (he : Entries crc buf dataLen off (pre ++ post)) : Entries crc buf (off + entriesSize pre) off pre := by
  induction pre generalizing off with
  | nil => exact .nil
  | cons h pre ih =>
    cases he with
    | cons hdec hi hdata hrest =>
      have hnext := ih hrest
      rw [entriesSize_cons,← Nat.add_assoc,← Nat.add_assoc]
      exact .cons hdec hi hdata hnext

theorem headers_valid {dataLen off : Nat} {hs : List LogEntryHeader} (he : Entries crc buf dataLen off hs) :
    ∀ h ∈ hs, h.checkHeaderIntegrity = true := by
  induction he with
  | nil => simp
  | cons _ hi _ _ ih =>
    intro h hh
    rcases List.mem_cons.mp hh with rfl | hh
    · exact hi
    · exact ih h hh

end Entries

namespace LogGroupEntryHeader

def isValid (g : LogGroupEntryHeader) : Bool :=
  g.magic == groupMagic && g.version == logGroupEntryHeaderVersion &&
    g.proposalId.toNat != invalidProposalId && lsnIsValid g.committedEndLsn.toNat &&
    scnIsValid g.maxScn.toNat && isValidLogId g.logId.toInt

def checkHeaderIntegrity (g : LogGroupEntryHeader) : Bool := g.isValid && g.checkHeaderChecksum_

def updateMaxScn (tmpMaxScn scn : BitVec 64) : BitVec 64 :=
  if !scnIsValid tmpMaxScn.toNat || Share.SCN.gt scn tmpMaxScn then scn else tmpMaxScn

/-- The loop of `truncate` from `pos`, with the checksum fold `acc`, `cut_pos` and
`tmp_max_scn` so far: deserialize an entry's header, stop at an SCN above `cut_scn`, otherwise
fold it in and move `pos` and `cut_pos` past its data. Returns `cut_pos`, the fold and
`tmp_max_scn`. A round that goes on moves `pos` past a header, so `data_len + 1` rounds of fuel
are enough; running out is the error no call reaches. -/
def truncateLoop (crc : ObCrc64) (buf : Nat → UInt8) (dataLen : Nat) (cutScn : BitVec 64) :
    Nat → Nat → BitVec 64 → Nat → BitVec 64 → Except ObErr (Nat × BitVec 64 × BitVec 64)
  | 0, _, _, _, _ => .error .errUnexpected
  | fuel + 1, pos, acc, cutPos, tmpMaxScn =>
    if pos < dataLen then
      match LogEntryHeader.deserialize buf dataLen pos with
      | .error e => .error e
      | .ok (h,p) =>
        if Share.SCN.gt h.scn cutScn then .ok (cutPos,acc,tmpMaxScn)
        else
          let pos := p + h.getDataLen
          truncateLoop crc buf dataLen cutScn fuel pos (accumDataChecksum crc acc h.dataChecksum) pos
            (updateMaxScn tmpMaxScn h.scn)
    else .ok (cutPos,acc,tmpMaxScn)

/-- `truncate(buf, data_len, cut_scn, pre_accum_checksum)`. A padding group only loses its size
when its SCN is above `cut_scn`; any other group takes the prefix the walk found. A null `buf` is
not modelled. -/
def truncate (crc : ObCrc64) (g : LogGroupEntryHeader) (buf : Nat → UInt8) (dataLen : Nat)
    (cutScn preAccumChecksum : BitVec 64) : Except ObErr LogGroupEntryHeader :=
  if dataLen = 0 ∨ !scnIsValid cutScn.toNat then .error .invalidArgument
  else if g.isPaddingLog then
    .ok (if Share.SCN.gt g.maxScn cutScn then updateHeaderChecksum { g with groupSize := 0 } else g)
  else
    match truncateLoop crc buf dataLen cutScn (dataLen + 1) 0 0 0 (BitVec.ofNat 64 obInvalidScnVal) with
    | .error e => .error e
    | .ok (cutPos,tmpLogChecksum,tmpMaxScn) =>
      .ok (updateHeaderChecksum { g with
        groupSize := BitVec.ofNat 32 cutPos
        maxScn := tmpMaxScn
        accumulatedChecksum := accumDataChecksum crc preAccumChecksum tmpLogChecksum })

/-! ## The walk over well-formed entries -/

theorem scnIsValid_of_checkHeaderIntegrity {h : LogEntryHeader} (hi : h.checkHeaderIntegrity = true) :
    scnIsValid h.scn.toNat = true := by
  simp only [LogEntryHeader.checkHeaderIntegrity,LogEntryHeader.isValid,Bool.and_eq_true] at hi
  exact hi.1.2

theorem truncateLoop_of_entries {crc : ObCrc64} {buf : Nat → UInt8} {dataLen off : Nat}
    {hs : List LogEntryHeader} (he : Entries crc buf dataLen off hs) {cutScn : BitVec 64}
    (hcut : scnIsValid cutScn.toNat = true) :
    ∀ fuel acc m, hs.length < fuel →
      truncateLoop crc buf dataLen cutScn fuel off acc off m =
        .ok (off + entriesSize (cutPrefix cutScn hs),
          (cutPrefix cutScn hs).foldl (fun acc h => accumDataChecksum crc acc h.dataChecksum) acc,
          (cutPrefix cutScn hs).foldl (fun m h => updateMaxScn m h.scn) m) := by
  induction he with
  | nil =>
    intro fuel acc m hfuel
    obtain ⟨fuel,rfl⟩ : ∃ f, fuel = f + 1 := ⟨fuel - 1,by simp at hfuel; omega⟩
    simp [truncateLoop,cutPrefix]
  | @cons off h hs hdec hi _ hrest ih =>
    intro fuel acc m hfuel
    obtain ⟨fuel,rfl⟩ : ∃ f, fuel = f + 1 := ⟨fuel - 1,by simp at hfuel; omega⟩
    have hle := hrest.add_le
    have hpos := LogEntryHeader.getDataLen_pos hi
    have hgt := Share.SCN.gt_of_valid (scnIsValid_of_checkHeaderIntegrity hi) hcut
    simp only [LogEntryHeader.headerSerSize] at hle ih
    simp only [truncateLoop]
    rw [if_pos (by omega),LogEntryHeader.deserialize_of_le (by simp only [LogEntryHeader.headerSerSize]; omega),
      hdec,if_pos hi]
    simp only [hgt]
    by_cases hscn : h.scn.toNat ≤ cutScn.toNat
    · have hkeep : cutPrefix cutScn (h :: hs) = h :: cutPrefix cutScn hs := by
        simp [cutPrefix,hscn]
      rw [if_neg (by simpa using hscn),hkeep,ih fuel _ _ (by simp at hfuel; omega)]
      simp only [entriesSize_cons,List.foldl_cons,LogEntryHeader.headerSerSize,Nat.add_assoc]
    · have hstop : cutPrefix cutScn (h :: hs) = [] := by
        simp [cutPrefix,hscn]
      rw [if_pos (by simpa using hscn),hstop]
      rfl

theorem truncate_of_entries (crc : ObCrc64) (g : LogGroupEntryHeader) {buf : Nat → UInt8} {dataLen : Nat}
    {hs : List LogEntryHeader} (he : Entries crc buf dataLen 0 hs) (hpad : g.isPaddingLog = false)
    (hpos : 0 < dataLen) {cutScn : BitVec 64} (hcut : scnIsValid cutScn.toNat = true) (pre : BitVec 64) :
    truncate crc g buf dataLen cutScn pre = .ok (updateHeaderChecksum { g with
      groupSize := BitVec.ofNat 32 (entriesSize (cutPrefix cutScn hs))
      maxScn := (cutPrefix cutScn hs).foldl (fun m h => updateMaxScn m h.scn) (BitVec.ofNat 64 obInvalidScnVal)
      accumulatedChecksum := accumDataChecksum crc pre (checksumOf crc (cutPrefix cutScn hs)) }) := by
  have hlen := he.add_le
  have hloop := truncateLoop_of_entries he hcut (dataLen + 1) 0 (BitVec.ofNat 64 obInvalidScnVal)
    (by omega)
  simp only [Nat.zero_add] at hloop
  simp only [truncate,hcut,hpad,Bool.not_true,Bool.false_eq_true,or_false,if_neg (show dataLen ≠ 0 by omega),
    if_false,hloop,checksumOf]

/-! ## The largest SCN -/

theorem foldl_updateMaxScn (l : List (BitVec 64)) (hl : ∀ x ∈ l, scnIsValid x.toNat = true) :
    ∀ m, (∀ x ∈ l, x.toNat ≤ (l.foldl updateMaxScn m).toNat) ∧
      (scnIsValid m.toNat = true → m.toNat ≤ (l.foldl updateMaxScn m).toNat) ∧
      (l.foldl updateMaxScn m = m ∨ l.foldl updateMaxScn m ∈ l) ∧
      (l ≠ [] → scnIsValid (l.foldl updateMaxScn m).toNat = true) := by
  induction l with
  | nil => simp
  | cons x l ih =>
    intro m
    have hx := hl x (by simp)
    obtain ⟨hall,hstart,hmem,hvalid⟩ := ih (fun y hy => hl y (by simp [hy])) (updateMaxScn m x)
    have hu : scnIsValid (updateMaxScn m x).toNat = true ∧ x.toNat ≤ (updateMaxScn m x).toNat ∧
        (scnIsValid m.toNat = true → m.toNat ≤ (updateMaxScn m x).toNat) ∧
        (updateMaxScn m x = x ∨ updateMaxScn m x = m) := by
      unfold updateMaxScn
      by_cases hm : scnIsValid m.toNat = true
      · rw [Share.SCN.gt_of_valid hx hm]
        by_cases hlt : m.toNat < x.toNat
        · simp [hm,hlt,hx]
          omega
        · simp [hm,hlt]
          omega
      · simp [hm,hx]
    obtain ⟨huv,hxu,hmu,hux⟩ := hu
    simp only [List.foldl_cons,List.mem_cons]
    refine ⟨?_,fun hm => (hmu hm).trans (hstart huv),?_,fun _ => ?_⟩
    · rintro y (rfl | hy)
      · exact hxu.trans (hstart huv)
      · exact hall y hy
    · rcases hmem with heq | hin
      · rw [heq]
        rcases hux with hx' | hm'
        · exact .inr (.inl hx')
        · exact .inl hm'
      · exact .inr (.inr hin)
    · by_cases hnil : l = []
      · subst hnil
        exact huv
      · exact hvalid hnil

theorem invalidScn_not_valid : scnIsValid (BitVec.ofNat 64 obInvalidScnVal).toNat = false := by decide

theorem foldl_updateMaxScn_max {hs : List LogEntryHeader} (hne : hs ≠ [])
    (hv : ∀ h ∈ hs, scnIsValid h.scn.toNat = true) :
    let r := hs.foldl (fun m h => updateMaxScn m h.scn) (BitVec.ofNat 64 obInvalidScnVal)
    scnIsValid r.toNat = true ∧ (∀ h ∈ hs, h.scn.toNat ≤ r.toNat) ∧ ∃ h ∈ hs, h.scn = r := by
  intro r
  have hr : r = (hs.map (·.scn)).foldl updateMaxScn (BitVec.ofNat 64 obInvalidScnVal) := by
    simp only [r,List.foldl_map]
  obtain ⟨hall,-,hmem,hvalid⟩ := foldl_updateMaxScn (hs.map (·.scn)) (by simpa using hv)
    (BitVec.ofNat 64 obInvalidScnVal)
  rw [← hr] at hall hmem hvalid
  have hrv := hvalid (by simpa using hne)
  refine ⟨hrv,fun h hh => hall h.scn (List.mem_map_of_mem hh),?_⟩
  rcases hmem with heq | hin
  · rw [heq,invalidScn_not_valid] at hrv
    exact absurd hrv nofun
  · obtain ⟨h,hh,heq⟩ := List.mem_map.mp hin
    exact ⟨h,hh,heq⟩

/-! ## The header after the cut -/

theorem updateHeaderChecksum_fields (g : LogGroupEntryHeader) :
    g.updateHeaderChecksum.groupSize = g.groupSize ∧ g.updateHeaderChecksum.maxScn = g.maxScn ∧
      g.updateHeaderChecksum.accumulatedChecksum = g.accumulatedChecksum := by
  unfold updateHeaderChecksum updateHeaderChecksum_
  split <;> exact ⟨rfl,rfl,rfl⟩

theorem isValid_updateHeaderChecksum_ (g : LogGroupEntryHeader) :
    g.updateHeaderChecksum_.isValid = g.isValid := by
  unfold updateHeaderChecksum_
  split <;> rfl

theorem updateHeaderChecksum_of_checkHeaderChecksum_ {g : LogGroupEntryHeader} (h : g.checkHeaderChecksum_ = true) :
    g.updateHeaderChecksum_ = g := by
  unfold checkHeaderChecksum_ at h
  unfold updateHeaderChecksum_
  split
  · next hp =>
    simp only [hp,if_true,beq_iff_eq] at h
    have hflag : g.flag ||| 1 = g.flag := by
      apply BitVec.eq_of_getLsbD_eq
      intro i hi
      have := congrArg (fun x => x.getLsbD i) h
      simp only [BitVec.getLsbD_and,BitVec.getLsbD_or] at this ⊢
      by_cases h0 : i = 0
      · subst h0
        simpa using this.symm
      · simp [h0]
    simp only [hflag]
  · next hp =>
    simp only [hp,Bool.false_eq_true,if_false,beq_iff_eq] at h
    have hflag : g.flag &&& ~~~1 = g.flag := by
      apply BitVec.eq_of_getLsbD_eq
      intro i hi
      have := congrArg (fun x => x.getLsbD i) h
      simp only [BitVec.getLsbD_and] at this
      simp only [BitVec.getLsbD_and,BitVec.getLsbD_not]
      by_cases h0 : i = 0
      · subst h0
        simpa using this.symm
      · simp [h0,hi]
    simp only [hflag]

/-- The header `truncate` leaves on a well-formed body whose first entry is kept. Its
`group_size_` is the size of the prefix of entries with SCN at most `cut_scn`, its `max_scn_`
is their largest SCN, its accumulated checksum continues `pre_accum_checksum` by the fold of
their data checksums, and it passes `check_header_integrity` and `check_integrity` on its
`group_size_` bytes. When every entry is kept and the header already described the whole body,
`truncate` leaves it as it was. -/
theorem truncate_describes_prefix (crc : ObCrc64) (g : LogGroupEntryHeader) {buf : Nat → UInt8}
    {dataLen : Nat} {hs : List LogEntryHeader} (he : Entries crc buf dataLen 0 hs)
    (hpad : g.isPaddingLog = false) (hvalid : g.isValid = true) (hpos : 0 < dataLen)
    (hlen : dataLen < 2 ^ 31) (cutScn : BitVec 64) (hcut : scnIsValid cutScn.toNat = true)
    (hfirst : ∀ h ∈ hs.head?, h.scn.toNat ≤ cutScn.toNat) (pre : BitVec 64) :
    ∃ g', truncate crc g buf dataLen cutScn pre = .ok g' ∧
      g'.groupSize.toNat = entriesSize (cutPrefix cutScn hs) ∧
      (∀ h ∈ cutPrefix cutScn hs, h.scn.toNat ≤ g'.maxScn.toNat) ∧
      (∃ h ∈ cutPrefix cutScn hs, h.scn = g'.maxScn) ∧
      g'.accumulatedChecksum = accumDataChecksum crc pre (checksumOf crc (cutPrefix cutScn hs)) ∧
      g'.checkHeaderIntegrity = true ∧
      g'.checkIntegrity crc buf g'.groupSize.toNat = some (checksumOf crc (cutPrefix cutScn hs)) ∧
      ((∀ h ∈ hs, h.scn.toNat ≤ cutScn.toNat) → g.groupSize.toNat = dataLen →
        (∀ h ∈ hs, h.scn.toNat ≤ g.maxScn.toNat) → (∃ h ∈ hs, h.scn = g.maxScn) →
        g.accumulatedChecksum = accumDataChecksum crc pre (checksumOf crc hs) →
        g.checkHeaderChecksum_ = true → g' = g) := by
  have hsplit : hs = cutPrefix cutScn hs ++ hs.dropWhile fun h => decide (h.scn.toNat ≤ cutScn.toNat) :=
    (List.takeWhile_append_dropWhile).symm
  have hpre := Entries.of_append (hsplit ▸ he)
  rw [Nat.zero_add] at hpre
  have hsize_le : entriesSize (cutPrefix cutScn hs) ≤ dataLen := by
    have := he.add_entriesSize
    rw [hsplit,entriesSize_append] at this
    omega
  have hne : cutPrefix cutScn hs ≠ [] := by
    cases he with
    | nil => omega
    | cons _ _ _ _ =>
      simp only [List.head?_cons,Option.mem_def,Option.some.injEq,forall_eq'] at hfirst
      simp [cutPrefix,hfirst]
  have hvalidEntries : ∀ h ∈ cutPrefix cutScn hs, scnIsValid h.scn.toNat = true := by
    intro h hh
    exact scnIsValid_of_checkHeaderIntegrity (hpre.headers_valid h hh)
  obtain ⟨hmaxv,hmaxle,hmaxmem⟩ := foldl_updateMaxScn_max hne hvalidEntries
  have hgs : (BitVec.ofNat 32 (entriesSize (cutPrefix cutScn hs))).toNat = entriesSize (cutPrefix cutScn hs) := by
    rw [BitVec.toNat_ofNat,Nat.mod_eq_of_lt (by omega)]
  have hmagic : g.magic = groupMagic := by
    simp only [isValid,Bool.and_eq_true,beq_iff_eq] at hvalid
    exact hvalid.1.1.1.1.1
  set g₁ : LogGroupEntryHeader := { g with
    groupSize := BitVec.ofNat 32 (entriesSize (cutPrefix cutScn hs))
    maxScn := (cutPrefix cutScn hs).foldl (fun m h => updateMaxScn m h.scn) (BitVec.ofNat 64 obInvalidScnVal)
    accumulatedChecksum := accumDataChecksum crc pre (checksumOf crc (cutPrefix cutScn hs)) } with hg₁
  obtain ⟨hfs,hfm,hfa⟩ := updateHeaderChecksum_fields g₁
  refine ⟨_,truncate_of_entries crc g he hpad hpos hcut pre,?_,?_,?_,?_,?_,?_,?_⟩
  · rw [hfs]
    exact hgs
  · rw [hfm]
    exact hmaxle
  · rw [hfm]
    exact hmaxmem
  · exact hfa
  · simp only [checkHeaderIntegrity,updateHeaderChecksum,isValid_updateHeaderChecksum_,
      checkHeaderChecksum_updateHeaderChecksum_,Bool.and_true]
    simp only [isValid,Bool.and_eq_true] at hvalid ⊢
    exact ⟨⟨⟨⟨⟨hvalid.1.1.1.1.1,hvalid.1.1.1.1.2⟩,hvalid.1.1.1.2⟩,hvalid.1.1.2⟩,hmaxv⟩,hvalid.2⟩
  · rw [checkIntegrity_updateHeaderChecksum crc (show g₁.magic = groupMagic from hmagic),hfs,hgs]
    exact checkLogChecksum_of_entries hpad hpre
  · intro hall hgsize hgmax hgmem hacc hcheck
    have hkeep : cutPrefix cutScn hs = hs := List.takeWhile_eq_self_iff.mpr (by simpa using hall)
    rw [hkeep] at hmaxle hmaxmem hsize_le ⊢
    have hmax : hs.foldl (fun m h => updateMaxScn m h.scn) (BitVec.ofNat 64 obInvalidScnVal) = g.maxScn := by
      obtain ⟨h₁,hh₁,he₁⟩ := hmaxmem
      obtain ⟨h₂,hh₂,he₂⟩ := hgmem
      apply BitVec.eq_of_toNat_eq
      have := hmaxle h₂ hh₂
      have := hgmax h₁ hh₁
      rw [he₂] at *
      rw [he₁] at *
      omega
    have hgsz : BitVec.ofNat 32 (entriesSize hs) = g.groupSize := by
      apply BitVec.eq_of_toNat_eq
      rw [BitVec.toNat_ofNat,Nat.mod_eq_of_lt (by omega),hgsize,← he.add_entriesSize,Nat.zero_add]
    simp only [hmax,hgsz,← hacc,updateHeaderChecksum]
    exact updateHeaderChecksum_of_checkHeaderChecksum_ hcheck

def zeroCrc : ObCrc64 := fun _ _ _ => 0

/-- A body of one entry: its header, at SCN 5 with one byte of data and the parity bit set,
most significant byte first, then a zero data byte. -/
def oneEntryBody : Nat → UInt8 := fun p =>
  [0x4C,0x48,0,1,0,0,0,1,0,0,0,0,0,0,0,5,0,0,0,0,0,0,0,0,0,0,0,0,0,0,0,1].getD p 0

def oneEntryHeader : LogEntryHeader := ⟨0x4C48,1,1,5,0,1⟩

/-- A group header for `oneEntryBody`, its parity bit set by `update_header_checksum`. -/
def oneEntryGroup : LogGroupEntryHeader := updateHeaderChecksum ⟨0x4752,1,33,1,0,5,0,1,0⟩

theorem oneEntryBody_entries : Entries zeroCrc oneEntryBody 33 0 [oneEntryHeader] :=
  .cons (by decide) (by decide) (by decide) .nil

def byteSumCrc : ObCrc64 := fun acc buf len =>
  (List.range len).foldl (fun a i => a + BitVec.ofNat 64 (buf i).toNat) acc

/-- A body of three entries at SCNs 5, 8 and 12, each with one byte of data, 6, 9 and 11, which
under `byteSumCrc` is also its data checksum; only the first header has its parity bit set. -/
def threeEntryBody : Nat → UInt8 := fun p =>
  [0x4c,0x48,0,1,0,0,0,1,0,0,0,0,0,0,0,5,0,0,0,0,0,0,0,6,0,0,0,0,0,0,0,1,6,
   0x4c,0x48,0,1,0,0,0,1,0,0,0,0,0,0,0,8,0,0,0,0,0,0,0,9,0,0,0,0,0,0,0,0,9,
   0x4c,0x48,0,1,0,0,0,1,0,0,0,0,0,0,0,0xc,0,0,0,0,0,0,0,0xb,0,0,0,0,0,0,0,0,0xb].getD p 0

def threeEntryHeaders : List LogEntryHeader := [⟨0x4C48,1,1,5,6,1⟩,⟨0x4C48,1,1,8,9,0⟩,⟨0x4C48,1,1,12,11,0⟩]

def threeEntryGroup : LogGroupEntryHeader :=
  updateHeaderChecksum
    ⟨0x4752,1,99,1,0,12,accumDataChecksum byteSumCrc 0 (checksumOf byteSumCrc threeEntryHeaders),1,0⟩

theorem threeEntryBody_entries : Entries byteSumCrc threeEntryBody 99 0 threeEntryHeaders :=
  .cons (by decide) (by decide) (by decide) (.cons (by decide) (by decide) (by decide)
    (.cons (by decide) (by decide) (by decide) .nil))

/-- `truncate` at SCN 9 keeps the first two entries, and at SCN 12 it leaves the header that
already describes all three. -/
theorem truncate_describes_prefix_threeEntries :
    (∃ g', truncate byteSumCrc threeEntryGroup threeEntryBody 99 9 0 = .ok g' ∧
      g'.groupSize.toNat = 66 ∧ g'.maxScn = 8 ∧
      g'.accumulatedChecksum = accumDataChecksum byteSumCrc 0 (checksumOf byteSumCrc (threeEntryHeaders.take 2)) ∧
      g'.checkHeaderIntegrity = true ∧
      g'.checkIntegrity byteSumCrc threeEntryBody g'.groupSize.toNat =
        some (checksumOf byteSumCrc (threeEntryHeaders.take 2))) ∧
    truncate byteSumCrc threeEntryGroup threeEntryBody 99 12 0 = .ok threeEntryGroup := by
  have hcut : cutPrefix 9 threeEntryHeaders = threeEntryHeaders.take 2 := by decide
  obtain ⟨g',hg',hsize,hle,hmem,hacc,hhi,hint,-⟩ :=
    truncate_describes_prefix byteSumCrc threeEntryGroup threeEntryBody_entries (by decide)
      (by decide +kernel) (by decide) (by decide) 9 (by decide) (by simp [threeEntryHeaders]) 0
  rw [hcut] at hsize hle hmem hacc hint
  have hmax : g'.maxScn = 8 := by
    obtain ⟨h,hh,he⟩ := hmem
    have h8 := hle ⟨0x4C48,1,1,8,9,0⟩ (by decide)
    simp only [threeEntryHeaders,List.take_succ_cons,List.take_zero,List.mem_cons,List.not_mem_nil,
      or_false] at hh
    rcases hh with rfl | rfl
    · rw [← he] at h8 ⊢
      simp_all
    · rw [← he]
  obtain ⟨g'',hg'',-,-,-,-,-,-,hkeep⟩ :=
    truncate_describes_prefix byteSumCrc threeEntryGroup threeEntryBody_entries (by decide)
      (by decide +kernel) (by decide) (by decide) 12 (by decide) (by simp [threeEntryHeaders]) 0
  refine ⟨⟨g',hg',by rw [hsize]; decide,hmax,hacc,hhi,hint⟩,?_⟩
  rw [hg'',hkeep (by decide) (by decide) (by decide) (by decide) (by decide) (by decide)]

/-- `truncate` below the first entry's SCN keeps no entry: the header is left with size 0 and
the invalid SCN as its `max_scn_`, and fails `check_header_integrity`. -/
theorem truncate_below_first_entry :
    ∃ g', truncate zeroCrc oneEntryGroup oneEntryBody 33 3 0 = .ok g' ∧ g'.groupSize = 0 ∧
      g'.maxScn = BitVec.ofNat 64 obInvalidScnVal ∧ g'.checkHeaderIntegrity = false := by
  refine ⟨_,truncate_of_entries zeroCrc oneEntryGroup oneEntryBody_entries (by decide) (by decide) (by decide) 0,
    ?_⟩
  decide +kernel

end LogGroupEntryHeader
end Palf
end OceanBase

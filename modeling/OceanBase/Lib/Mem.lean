import OceanBase.Lib.Residue

/-! Memories as functions from addresses, and the copies C code makes on them: `memcpy` and
`memset` into a range, the two-part memcpy into and out of a ring of fixed capacity that wraps
at its end, and the memcpy of a list of (address, length) segments one after another into one
contiguous range. -/
namespace OceanBase
namespace Lib

variable {β : Type*}

def memcpy (dst : Nat → β) (d : Nat) (src : Nat → β) (s n : Nat) : Nat → β :=
  fun p => if d ≤ p ∧ p < d + n then src (s + (p - d)) else dst p

def memset (dst : Nat → β) (d : Nat) (c : β) (n : Nat) : Nat → β :=
  fun p => if d ≤ p ∧ p < d + n then c else dst p

theorem memcpy_apply_add (dst : Nat → β) (d : Nat) (src : Nat → β) (s : Nat) {n i : Nat} (hi : i < n) :
    memcpy dst d src s n (d + i) = src (s + i) := by
  simp [memcpy,hi]

theorem memcpy_apply_of_lt {dst src : Nat → β} {d s n p : Nat} (hp : p < d) :
    memcpy dst d src s n p = dst p := by
  simp only [memcpy]
  rw [if_neg (by omega)]

theorem memcpy_apply_of_le {dst src : Nat → β} {d s n p : Nat} (hp : d + n ≤ p) :
    memcpy dst d src s n p = dst p := by
  simp only [memcpy]
  rw [if_neg (by omega)]

theorem memcpy_memcpy_adjacent (dst src : Nat → β) (d s l m : Nat) :
    memcpy (memcpy dst d src s l) (d + l) src (s + l) m = memcpy dst d src s (l + m) := by
  funext p
  simp only [memcpy]
  by_cases h₁ : d + l ≤ p ∧ p < d + l + m
  · rw [if_pos h₁,if_pos (by omega)]
    congr 1
    omega
  · rw [if_neg h₁]
    by_cases h₂ : d ≤ p ∧ p < d + l
    · rw [if_pos h₂,if_pos (by omega)]
    · rw [if_neg h₂,if_neg (by omega)]

def writeBytes [Inhabited β] (dst : Nat → β) (d : Nat) (bs : List β) : Nat → β :=
  memcpy dst d (fun i => bs.getD i default) 0 bs.length

theorem writeBytes_apply_add [Inhabited β] (dst : Nat → β) (d : Nat) (bs : List β) {i : Nat}
    (hi : i < bs.length) : writeBytes dst d bs (d + i) = bs[i] := by
  rw [writeBytes,memcpy_apply_add _ _ _ _ hi,Nat.zero_add]
  simp [hi]

theorem writeBytes_apply_of_lt [Inhabited β] {dst : Nat → β} {d p : Nat} (bs : List β) (hp : p < d) :
    writeBytes dst d bs p = dst p :=
  memcpy_apply_of_lt hp

theorem writeBytes_apply_of_le [Inhabited β] {dst : Nat → β} {d p : Nat} {bs : List β}
    (hp : d + bs.length ≤ p) : writeBytes dst d bs p = dst p :=
  memcpy_apply_of_le hp

section Writes

variable [Inhabited β]

theorem writeBytes_nil (dst : Nat → β) (d : Nat) : writeBytes dst d [] = dst := by
  funext p
  rcases Nat.lt_or_ge p d with h | h
  · exact writeBytes_apply_of_lt _ h
  · exact writeBytes_apply_of_le (by simpa using h)

theorem writeBytes_append (dst : Nat → β) (d : Nat) (as bs : List β) :
    writeBytes (writeBytes dst d as) (d + as.length) bs = writeBytes dst d (as ++ bs) := by
  funext p
  by_cases hlo : p < d + as.length
  · rw [writeBytes_apply_of_lt _ hlo]
    by_cases hd : p < d
    · rw [writeBytes_apply_of_lt _ hd,writeBytes_apply_of_lt _ hd]
    · obtain ⟨i,rfl⟩ : ∃ i, p = d + i := ⟨p - d,by omega⟩
      have hi : i < as.length := by omega
      rw [writeBytes_apply_add _ _ _ hi,writeBytes_apply_add _ _ _ (by simp; omega),
        List.getElem_append_left hi]
  · by_cases hhi : p < d + as.length + bs.length
    · obtain ⟨i,rfl⟩ : ∃ i, p = d + as.length + i := ⟨p - (d + as.length),by omega⟩
      rw [writeBytes_apply_add _ _ _ (by omega),Nat.add_assoc,
        writeBytes_apply_add _ _ _ (by simp; omega),List.getElem_append_right (by omega)]
      simp
    · rw [writeBytes_apply_of_le (by omega),writeBytes_apply_of_le (by omega),
        writeBytes_apply_of_le (by simp; omega)]

theorem writeBytes_comm (dst : Nat → β) {d e : Nat} {as bs : List β} (h : d + as.length ≤ e) :
    writeBytes (writeBytes dst e bs) d as = writeBytes (writeBytes dst d as) e bs := by
  funext p
  by_cases hp : d ≤ p ∧ p < d + as.length
  · obtain ⟨i,rfl⟩ : ∃ i, p = d + i := ⟨p - d,by omega⟩
    rw [writeBytes_apply_add _ _ _ (by omega),writeBytes_apply_of_lt _ (by omega),
      writeBytes_apply_add _ _ _ (by omega)]
  · have hout : writeBytes (writeBytes dst e bs) d as p = writeBytes dst e bs p := by
      rcases Nat.lt_or_ge p d with hlt | hge
      · exact writeBytes_apply_of_lt _ hlt
      · exact writeBytes_apply_of_le (by omega)
    have hout' : writeBytes dst d as p = dst p := by
      rcases Nat.lt_or_ge p d with hlt | hge
      · exact writeBytes_apply_of_lt _ hlt
      · exact writeBytes_apply_of_le (by omega)
    rw [hout]
    by_cases hq : e ≤ p ∧ p < e + bs.length
    · obtain ⟨i,rfl⟩ : ∃ i, p = e + i := ⟨p - e,by omega⟩
      rw [writeBytes_apply_add _ _ _ (by omega),writeBytes_apply_add _ _ _ (by omega)]
    · rcases Nat.lt_or_ge p e with hlt | hge
      · rw [writeBytes_apply_of_lt _ hlt,writeBytes_apply_of_lt _ hlt,hout']
      · rw [writeBytes_apply_of_le (by omega),writeBytes_apply_of_le (by omega),hout']

end Writes

def HoldsAt (mem : Nat → β) (d : Nat) (bs : List β) : Prop :=
  ∀ i (hi : i < bs.length), mem (d + i) = bs[i]

theorem holdsAt_writeBytes [Inhabited β] (dst : Nat → β) (d : Nat) (bs : List β) :
    HoldsAt (writeBytes dst d bs) d bs :=
  fun _ hi => writeBytes_apply_add dst d bs hi

theorem holdsAt_append {mem : Nat → β} {d : Nat} {as bs : List β} :
    HoldsAt mem d (as ++ bs) ↔ HoldsAt mem d as ∧ HoldsAt mem (d + as.length) bs := by
  constructor
  · intro h
    refine ⟨fun i hi => ?_,fun i hi => ?_⟩
    · rw [h i (by simp; omega),List.getElem_append_left hi]
    · rw [Nat.add_assoc,h (as.length + i) (by simp; omega),List.getElem_append_right (by omega)]
      simp
  · rintro ⟨ha,hb⟩ i hi
    by_cases hlt : i < as.length
    · rw [ha i hlt,List.getElem_append_left hlt]
    · obtain ⟨j,rfl⟩ : ∃ j, i = as.length + j := ⟨i - as.length,by omega⟩
      rw [← Nat.add_assoc,hb j (by simp at hi; omega),List.getElem_append_right (by omega)]
      simp

theorem holdsAt_shift {mem : Nat → β} {p d : Nat} {bs : List β} :
    HoldsAt (fun i => mem (p + i)) d bs ↔ HoldsAt mem (p + d) bs := by
  simp only [HoldsAt,Nat.add_assoc]

def readBytes (mem : Nat → β) (d n : Nat) : List β := (List.range n).map fun i => mem (d + i)

theorem readBytes_of_holdsAt {mem : Nat → β} {d : Nat} {bs : List β} (h : HoldsAt mem d bs) :
    readBytes mem d bs.length = bs := by
  apply List.ext_getElem (by simp [readBytes])
  intro i hi _
  simp only [readBytes,List.getElem_map,List.getElem_range]
  exact h i (by simpa [readBytes] using hi)

/-! ## Rings

A ring of capacity `cap` stores the element of position `pos + i` of a stream at `(pos + i) % cap`.
Code copies `n ≤ cap` elements at `pos` in two parts: the `min (cap - pos) n` elements that fit
before the ring's end, then the rest at its start. -/

/-- Copy `n` elements of `src` into a ring of capacity `cap` from position `pos` on. -/
def ringPut (dst : Nat → β) (cap pos : Nat) (src : Nat → β) (n : Nat) : Nat → β :=
  let first := min (cap - pos) n
  let buf := memcpy dst pos src 0 first
  if n > first then memcpy buf 0 src first (n - first) else buf

def ringGet (dst : Nat → β) (cap pos : Nat) (src : Nat → β) (n : Nat) : Nat → β :=
  let first := min (cap - pos) n
  let buf := memcpy dst 0 src pos first
  if n > first then memcpy buf first src 0 (n - first) else buf

section Ring

variable {cap pos n : Nat}

theorem add_mod_eq_ite (hpos : pos < cap) {i : Nat} (hi : i < cap) :
    (pos + i) % cap = if i < cap - pos then pos + i else i - (cap - pos) := by
  split
  · exact Nat.mod_eq_of_lt (by omega)
  · rw [Nat.mod_eq_sub_mod (by omega),Nat.mod_eq_of_lt (by omega)]
    omega

theorem ringPut_apply_add_mod {dst src : Nat → β} (hpos : pos < cap) (hn : n ≤ cap) {i : Nat}
    (hi : i < n) : ringPut dst cap pos src n ((pos + i) % cap) = src i := by
  rw [add_mod_eq_ite hpos (by omega)]
  simp only [ringPut]
  by_cases hfit : i < cap - pos
  · rw [if_pos hfit]
    have h₁ : memcpy dst pos src 0 (min (cap - pos) n) (pos + i) = src i := by
      rw [memcpy_apply_add _ _ _ _ (by omega),Nat.zero_add]
    split
    · rw [memcpy_apply_of_le (by omega),h₁]
    · exact h₁
  · rw [if_neg hfit,if_pos (by omega),Nat.min_eq_left (by omega)]
    have h₂ := memcpy_apply_add (memcpy dst pos src 0 (cap - pos)) 0 src (cap - pos)
      (n := n - (cap - pos)) (i := i - (cap - pos)) (by omega)
    rw [Nat.zero_add] at h₂
    rw [h₂]
    congr 1
    omega

theorem ringPut_apply_of_forall_ne {dst src : Nat → β} (hpos : pos < cap) {p : Nat}
    (hp : p < cap) (hne : ∀ i < n, (pos + i) % cap ≠ p) : ringPut dst cap pos src n p = dst p := by
  have h₁ : ¬ (pos ≤ p ∧ p < pos + min (cap - pos) n) := by
    rintro ⟨hl,hr⟩
    apply hne (p - pos) (by omega)
    rw [Nat.add_sub_cancel' hl,Nat.mod_eq_of_lt hp]
  simp only [ringPut]
  split
  · have h₂ : ¬ (0 ≤ p ∧ p < 0 + (n - min (cap - pos) n)) := by
      rintro ⟨-,hr⟩
      apply hne (p + (cap - pos)) (by omega)
      rw [show pos + (p + (cap - pos)) = p + cap by omega,Nat.add_mod_right,Nat.mod_eq_of_lt hp]
    simp only [memcpy]
    rw [if_neg h₂,if_neg h₁]
  · simp only [memcpy]
    rw [if_neg h₁]

theorem ringGet_apply {dst src : Nat → β} (hpos : pos < cap) (hn : n ≤ cap) {i : Nat}
    (hi : i < n) : ringGet dst cap pos src n i = src ((pos + i) % cap) := by
  rw [add_mod_eq_ite hpos (by omega)]
  simp only [ringGet]
  by_cases hfit : i < cap - pos
  · rw [if_pos hfit]
    have h₁ : memcpy dst 0 src pos (min (cap - pos) n) i = src (pos + i) := by
      simpa using memcpy_apply_add dst 0 src pos (n := min (cap - pos) n) (i := i) (by omega)
    split
    · rw [memcpy_apply_of_lt (by omega),h₁]
    · exact h₁
  · rw [if_neg hfit,if_pos (by omega),Nat.min_eq_left (by omega)]
    have h₂ := memcpy_apply_add (memcpy dst 0 src pos (cap - pos)) (cap - pos) src 0
      (n := n - (cap - pos)) (i := i - (cap - pos)) (by omega)
    rwa [Nat.add_sub_cancel' (by omega),Nat.zero_add] at h₂

end Ring

/-! ## Segments

A scatter list is a list of (address, length) segments of one memory; gathering it copies the
segments one after another into a contiguous destination. -/

/-- Copy the segments of `mem` one after another into `dst` from position `d` on. -/
def copySegs (dst : Nat → β) (d : Nat) (mem : Nat → β) : List (Nat × Nat) → Nat → β
  | [] => dst
  | (b,l) :: segs => copySegs (memcpy dst d mem b l) (d + l) mem segs

def segsLen (segs : List (Nat × Nat)) : Nat := (segs.map Prod.snd).sum

@[simp] theorem copySegs_nil (dst mem : Nat → β) (d : Nat) : copySegs dst d mem [] = dst := rfl

@[simp] theorem copySegs_cons (dst mem : Nat → β) (d b l : Nat) (segs : List (Nat × Nat)) :
    copySegs dst d mem ((b,l) :: segs) = copySegs (memcpy dst d mem b l) (d + l) mem segs := rfl

@[simp] theorem segsLen_nil : segsLen ([] : List (Nat × Nat)) = 0 := rfl

@[simp] theorem segsLen_cons (b l : Nat) (segs : List (Nat × Nat)) :
    segsLen ((b,l) :: segs) = l + segsLen segs := by
  simp [segsLen]

theorem copySegs_append (dst mem : Nat → β) (d : Nat) (s t : List (Nat × Nat)) :
    copySegs dst d mem (s ++ t) = copySegs (copySegs dst d mem s) (d + segsLen s) mem t := by
  induction s generalizing dst d with
  | nil => rfl
  | cons seg s ih =>
    obtain ⟨b,l⟩ := seg
    simp only [List.cons_append,copySegs_cons,ih,segsLen_cons]
    rw [Nat.add_assoc]

theorem copySegs_apply_of_lt (dst mem : Nat → β) {d p : Nat} (hp : p < d) (segs : List (Nat × Nat)) :
    copySegs dst d mem segs p = dst p := by
  induction segs generalizing dst d with
  | nil => rfl
  | cons seg segs ih =>
    obtain ⟨b,l⟩ := seg
    rw [copySegs_cons,ih _ (by omega),memcpy_apply_of_lt hp]

/-! ## Writes inside a window

An encoder into `dst` between `pos` and `bufLen` returns the new memory and position or an
error. `StaysWithin` says that it failed, or changed nothing outside `[pos, bufLen)` and left
the position in `[pos, bufLen]`; encoders one after another keep it. -/

/-- The result `r` of an encoder called on `dst` at `pos` with a buffer ending at `bufLen` fails
or stays inside the buffer. -/
def StaysWithin {ε : Type*} (dst : Nat → β) (bufLen pos : Nat) :
    Except ε ((Nat → β) × Nat) → Prop
  | .error _ => True
  | .ok (dst',pos') => pos ≤ pos' ∧ pos' ≤ bufLen ∧ ∀ i, (i < pos ∨ bufLen ≤ i) → dst' i = dst i

variable {ε : Type*}

@[simp] theorem staysWithin_error (dst : Nat → β) (bufLen pos : Nat) (e : ε) :
    StaysWithin dst bufLen pos (.error e : Except ε ((Nat → β) × Nat)) := trivial

theorem staysWithin_writeBytes [Inhabited β] (dst : Nat → β) {bufLen pos : Nat} {bs : List β}
    (h : pos + bs.length ≤ bufLen) :
    StaysWithin dst bufLen pos (.ok (writeBytes dst pos bs,pos + bs.length) : Except ε _) := by
  refine ⟨by omega,h,?_⟩
  rintro i (hi | hi)
  · exact writeBytes_apply_of_lt bs hi
  · exact writeBytes_apply_of_le (by omega)

theorem StaysWithin.trans {dst dst₁ : Nat → β} {bufLen pos pos₁ : Nat}
    {r : Except ε ((Nat → β) × Nat)}
    (h₁ : StaysWithin dst bufLen pos (.ok (dst₁,pos₁) : Except ε ((Nat → β) × Nat)))
    (h₂ : StaysWithin dst₁ bufLen pos₁ r) : StaysWithin dst bufLen pos r := by
  obtain ⟨hp₁,hb₁,hf₁⟩ := h₁
  cases r with
  | error e => trivial
  | ok r =>
    obtain ⟨dst₂,pos₂⟩ := r
    obtain ⟨hp₂,hb₂,hf₂⟩ := h₂
    refine ⟨by omega,hb₂,fun i hi => ?_⟩
    rw [hf₂ i (by omega),hf₁ i hi]

theorem not_staysWithin_of_lt {dst dst' : Nat → β} {bufLen pos pos' : Nat} (h : bufLen < pos') :
    ¬ StaysWithin dst bufLen pos (.ok (dst',pos') : Except ε ((Nat → β) × Nat)) :=
  fun hs => absurd hs.2.1 (by omega)

end Lib
end OceanBase

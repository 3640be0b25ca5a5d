import OceanBase.Define
import OceanBase.Lib.Run
import OceanBase.Lib.Residue

/-! `FixedSlidingWindow` (`fixed_sliding_window.h`): a ring of `size_` slots holding the ids
`[begin_sn_, end_sn_)`, each slot with a reference count. `get` takes a reference and `revert`
drops it. An id that slid out of the window keeps its slot until its last reference is
dropped; only then is the slot reset and handed to the id `size_` above, which moves
`end_sn_` on.

Every method runs atomically here: its CAS operations succeed, the double check in `get`
finds the range it checked, and a wait for a slot to be released is a call that cannot
complete yet (`none`). -/
namespace OceanBase
namespace Palf

/-- `FixedSlidingWindow<T>` over slots of type `α`; `ref` is each slot's `ref_`. -/
structure FixedSlidingWindow (α : Type) where
  isInited : Bool
  beginSn : Nat
  endSn : Nat
  size : Nat
  slots : Nat → α
  ref : Nat → Int

namespace FixedSlidingWindow

variable {α : Type}

def calcIdx (size logId : Nat) : Nat := logId &&& (size - 1)

def checkIdInRange (w : FixedSlidingWindow α) (id : Nat) : Except ObErr Unit :=
  if id < w.beginSn then .error .errOutOfLowerBound
  else if w.endSn ≤ id then .error .errOutOfUpperBound
  else .ok ()

theorem checkIdInRange_eq_ok {w : FixedSlidingWindow α} {id : Nat} :
    w.checkIdInRange id = .ok () ↔ w.beginSn ≤ id ∧ id < w.endSn := by
  unfold checkIdInRange
  split_ifs with h1 h2
  · exact ⟨nofun,fun h => absurd h.1 (by omega)⟩
  · exact ⟨nofun,fun h => absurd h.2 (by omega)⟩
  · exact ⟨fun _ => ⟨by omega,by omega⟩,fun _ => rfl⟩

section Methods

variable [Inhabited α]

def empty : FixedSlidingWindow α := ⟨false,0,0,0,fun _ => default,fun _ => 0⟩

def resetSlot (w : FixedSlidingWindow α) (i : Nat) : FixedSlidingWindow α :=
  { w with slots := Function.update w.slots i default }

def init (w : FixedSlidingWindow α) (startId size : Nat) : Except ObErr (FixedSlidingWindow α) :=
  if w.isInited then .error .initTwice
  else if size ≤ 1 ∨ size &&& (size - 1) ≠ 0 then .error .invalidArgument
  else .ok ⟨true,startId,startId + size,size,fun _ => default,fun _ => 0⟩

/-- `get`: takes a reference on the slot of `gId` and returns the slot's index, the pointer the
caller writes through. The double check after `ATOMIC_INC` finds the range it checked. -/
def get (w : FixedSlidingWindow α) (gId : Nat) : Except ObErr Nat × FixedSlidingWindow α :=
  if !w.isInited then (.error .notInit,w)
  else match w.checkIdInRange gId with
    | .error e => (.error e,w)
    | .ok () =>
      let idx := calcIdx w.size gId
      (.ok idx,{ w with ref := Function.update w.ref idx (w.ref idx + 1) })

/-- The loop of `revert` that reclaims slots: while slot `i` of id `tmpId` is the slot of
`end_sn_`, `tmpId` has slid out of the window and nobody holds the slot, reset it and move
`end_sn_` on. `i` steps as `calc_idx_(i+1)`; the loop's copy `tmp_end` of `end_sn_` is always
equal to it here. `fuel` is `begin_sn_ - tmpId`, which bounds the passes. -/
def reclaim : Nat → FixedSlidingWindow α → Nat → Nat → FixedSlidingWindow α
  | 0, w, _, _ => w
  | fuel + 1, w, i, tmpId =>
    if i = calcIdx w.size w.endSn ∧ tmpId < w.beginSn ∧ w.ref i = 0 then
      reclaim fuel { w.resetSlot i with endSn := w.endSn + 1 } (calcIdx w.size (i + 1)) (tmpId + 1)
    else w

/-- `revert`: drops a reference on the slot of `rId`; dropping the last reference to a slot
whose id slid out reclaims it. -/
def revert (w : FixedSlidingWindow α) (rId : Nat) : Except ObErr Unit × FixedSlidingWindow α :=
  if !w.isInited then (.error .notInit,w)
  else if w.endSn ≤ rId ∨ rId < w.beginSn - w.size then (.error .errUnexpected,w)
  else
    let idx := calcIdx w.size rId
    let currRef := w.ref idx - 1
    let w' := { w with ref := Function.update w.ref idx currRef }
    if currRef < 0 then (.error .errUnexpected,w')
    else if currRef = 0 then (.ok (),reclaim (w'.beginSn - rId) w' idx rId)
    else (.ok (),w')

/-- One pass of the loop of `slide`. `cond` is `SlidingCond` on an id and its slot: `ok true`
when it slides, `ok false` when `can_be_slid()` fails, `error e` when `sliding_cb` fails. The
first component is the code the loop stops with, `none` when it goes on. -/
def slideOnce (cond : Nat → α → Except ObErr Bool) (w : FixedSlidingWindow α) :
    Option (Except ObErr Unit) × FixedSlidingWindow α :=
  let currBegin := w.beginSn
  let idx := calcIdx w.size currBegin
  -- an empty window: retry until the timeout
  if w.endSn ≤ currBegin then (none,w)
  else match cond currBegin (w.slots idx) with
    | .error e => (some (.error e),w)
    | .ok false => (some (.ok ()),w)
    | .ok true =>
      let w' := { w with beginSn := currBegin + 1 }
      -- the slot of `end_sn_` is the one slid out: the window was full, and a free slot is
      -- reused at once
      if w'.ref idx = 0 ∧ calcIdx w'.size w'.endSn = idx then
        (none,{ w'.resetSlot idx with endSn := w'.endSn + 1 })
      else (none,w')

def slideLoop (cond : Nat → α → Except ObErr Bool) :
    Nat → FixedSlidingWindow α → Except ObErr Unit × FixedSlidingWindow α
  | 0, w => (.ok (),w)
  | fuel + 1, w =>
    match slideOnce cond w with
    | (some r,w') => (r,w')
    | (none,w') => slideLoop cond fuel w'

def slide (w : FixedSlidingWindow α) (fuel : Nat) (cond : Nat → α → Except ObErr Bool) :
    Except ObErr Unit × FixedSlidingWindow α :=
  if !w.isInited then (.error .notInit,w) else slideLoop cond fuel w

/-- The loop of `range_truncate_` over `n` ids from `i`: each slot in turn is reset once it is
free; `none` when one is still referenced, a wait that only a `revert` ends. -/
def truncateFrom (w : FixedSlidingWindow α) : Nat → Nat → Option (FixedSlidingWindow α)
  | _, 0 => some w
  | i, n + 1 =>
    if w.ref (calcIdx w.size i) = 0 then (w.resetSlot (calcIdx w.size i)).truncateFrom (i + 1) n else none

def rangeTruncate (w : FixedSlidingWindow α) (beginTid endTid : Nat) : Option (FixedSlidingWindow α) :=
  w.truncateFrom beginTid (endTid - beginTid)

/-- `truncate`: resets the slots of `[tId, end_sn_)`; the window keeps its range. -/
def truncate (w : FixedSlidingWindow α) (tId : Nat) : Option (Except ObErr Unit × FixedSlidingWindow α) :=
  if !w.isInited then some (.error .notInit,w)
  else match w.checkIdInRange tId with
    | .ok () => (w.rangeTruncate tId w.endSn).map fun w' => (.ok (),w')
    | .error .errOutOfUpperBound => some (.ok (),w)
    | .error .errOutOfLowerBound => some (.error .errUnexpected,w)
    | .error e => some (.error e,w)

/-- `truncate_and_reset_begin_sn`: resets the slots below `tId` and moves the window to
`[tId, tId + size_)`. It refuses a window whose begin and end fall in different slots, which it
takes for one that still has references. -/
def truncateAndResetBeginSn (w : FixedSlidingWindow α) (tId : Nat) :
    Option (Except ObErr Unit × FixedSlidingWindow α) :=
  if !w.isInited then some (.ok (),w)
  else if tId < w.beginSn then some (.error .invalidArgument,w)
  else if calcIdx w.size w.beginSn ≠ calcIdx w.size w.endSn then some (.error .errUnexpected,w)
  else
    let moveTo (w' : FixedSlidingWindow α) : FixedSlidingWindow α :=
      { w' with beginSn := tId, endSn := tId + w'.size }
    match w.checkIdInRange tId with
    | .error _ => (w.rangeTruncate w.beginSn w.endSn).map fun w' => (.ok (),moveTo w')
    | .ok () => (w.rangeTruncate w.beginSn tId).map fun w' => (.ok (),moveTo w')

end Methods

/-! ## Slot arithmetic and the shape of the window -/

theorem calcIdx_eq_mod {size : Nat} (h : size.isPowerOfTwo) (logId : Nat) :
    calcIdx size logId = logId % size := by
  obtain ⟨k,rfl⟩ := h
  exact Nat.and_two_pow_sub_one_eq_mod logId k

section Reset

variable [Inhabited α]

@[simp] theorem resetSlot_ref (w : FixedSlidingWindow α) (i : Nat) : (w.resetSlot i).ref = w.ref := rfl
@[simp] theorem resetSlot_size (w : FixedSlidingWindow α) (i : Nat) : (w.resetSlot i).size = w.size := rfl
@[simp] theorem resetSlot_beginSn (w : FixedSlidingWindow α) (i : Nat) :
    (w.resetSlot i).beginSn = w.beginSn := rfl
@[simp] theorem resetSlot_endSn (w : FixedSlidingWindow α) (i : Nat) : (w.resetSlot i).endSn = w.endSn := rfl
@[simp] theorem resetSlot_isInited (w : FixedSlidingWindow α) (i : Nat) :
    (w.resetSlot i).isInited = w.isInited := rfl

end Reset

/-- The shape of the window over the references held, one entry of `held` per reference:
the range is at most `size_` ids long, every held id is one of the `size_` ids below
`end_sn_`, and each slot counts the references held on its ids. -/
structure Shape (w : FixedSlidingWindow α) (held : List Nat) : Prop where
  inited : w.isInited = true
  size_pow : w.size.isPowerOfTwo
  one_lt_size : 1 < w.size
  begin_le_end : w.beginSn ≤ w.endSn
  end_le : w.endSn ≤ w.beginSn + w.size
  held_lt : ∀ id ∈ held, id < w.endSn
  held_ge : ∀ id ∈ held, w.endSn ≤ id + w.size
  ref_eq : ∀ i, w.ref i = (held.countP (fun id => id % w.size = i) : Int)
  size_le_end : w.size ≤ w.endSn

/-- No slot leaks: while the window is short of `size_` ids, the slot of `end_sn_ - size_`, the
id that keeps it short, is still held. -/
def NoLeak (w : FixedSlidingWindow α) : Prop :=
  w.endSn < w.beginSn + w.size → 0 < w.ref (w.endSn % w.size)

namespace Shape

variable {w : FixedSlidingWindow α} {held : List Nat}

theorem calcIdx_eq (hs : Shape w held) (logId : Nat) : calcIdx w.size logId = logId % w.size :=
  calcIdx_eq_mod hs.size_pow logId

theorem ref_nonneg (hs : Shape w held) (i : Nat) : 0 ≤ w.ref i := by
  rw [hs.ref_eq]
  exact Int.natCast_nonneg _

theorem ref_pos (hs : Shape w held) {id : Nat} (hid : id ∈ held) : 0 < w.ref (id % w.size) := by
  rw [hs.ref_eq]
  have : 0 < held.countP (fun x => x % w.size = id % w.size) := List.countP_pos_iff.mpr ⟨id,hid,by simp⟩
  omega

theorem eq_of_mod_eq {a b : Nat} (h : a % w.size = b % w.size)
    (ha : w.endSn ≤ a + w.size) (ha' : a < w.endSn) (hb : w.endSn ≤ b + w.size) (hb' : b < w.endSn) :
    a = b :=
  Lib.eq_of_mod_eq_of_window (a := w.endSn - w.size) h (by omega) (by omega) (by omega) (by omega)

theorem with_ref (hs : Shape w held) {held' : List Nat} {ref' : Nat → Int}
    (hlt : ∀ id ∈ held', id < w.endSn) (hge : ∀ id ∈ held', w.endSn ≤ id + w.size)
    (href : ∀ i, ref' i = (held'.countP (fun id => id % w.size = i) : Int)) :
    Shape { w with ref := ref' } held' :=
  ⟨hs.inited,hs.size_pow,hs.one_lt_size,hs.begin_le_end,hs.end_le,hlt,hge,href,hs.size_le_end⟩

theorem resetSlot [Inhabited α] (hs : Shape w held) (i : Nat) : Shape (w.resetSlot i) held :=
  ⟨hs.inited,hs.size_pow,hs.one_lt_size,hs.begin_le_end,hs.end_le,hs.held_lt,hs.held_ge,hs.ref_eq,
    hs.size_le_end⟩

theorem succ_begin (hs : Shape w held) (hlt : w.beginSn < w.endSn) :
    Shape { w with beginSn := w.beginSn + 1 } held :=
  ⟨hs.inited,hs.size_pow,hs.one_lt_size,hlt,by simp only; have := hs.end_le; omega,hs.held_lt,hs.held_ge,
    hs.ref_eq,hs.size_le_end⟩

theorem succ_end (hs : Shape w held) (hfit : w.endSn < w.beginSn + w.size)
    (hfree : w.ref (w.endSn % w.size) = 0) : Shape { w with endSn := w.endSn + 1 } held := by
  refine ⟨hs.inited,hs.size_pow,hs.one_lt_size,by simp only; have := hs.begin_le_end; omega,
    by simp only; omega,fun id hid => by simp only; have := hs.held_lt id hid; omega,fun id hid => ?_,hs.ref_eq,
    by simp only; have := hs.size_le_end; omega⟩
  simp only
  have hge := hs.held_ge id hid
  have hne : id + w.size ≠ w.endSn := fun h => by
    have := hs.ref_pos hid
    rw [← h,Nat.add_mod_right] at hfree
    rw [hfree] at this
    exact absurd this (lt_irrefl 0)
  omega

theorem not_held_of_free (hs : Shape w held) {id : Nat} (h : w.ref (calcIdx w.size id) = 0) :
    id ∉ held := fun hid => by
  have := hs.ref_pos hid
  rw [← hs.calcIdx_eq,h] at this
  exact lt_irrefl 0 this

theorem with_slots (hs : Shape w held) (f : Nat → α) : Shape { w with slots := f } held :=
  ⟨hs.inited,hs.size_pow,hs.one_lt_size,hs.begin_le_end,hs.end_le,hs.held_lt,hs.held_ge,hs.ref_eq,
    hs.size_le_end⟩

theorem moveTo (hs : Shape w held) {t : Nat} (hheld : ∀ id ∈ held, t ≤ id ∧ id < t + w.size) :
    Shape { w with beginSn := t, endSn := t + w.size } held :=
  ⟨hs.inited,hs.size_pow,hs.one_lt_size,by simp only; omega,by simp only; omega,
    fun id hid => (hheld id hid).2,fun id hid => by simp only; have := (hheld id hid).1; omega,hs.ref_eq,
    Nat.le_add_left _ _⟩

end Shape

structure Inv (w : FixedSlidingWindow α) (held : List Nat) : Prop where
  shape : Shape w held
  no_leak : NoLeak w

theorem Inv.with_slots {w : FixedSlidingWindow α} {held : List Nat} (hx : Inv w held) (f : Nat → α) :
    Inv { w with slots := f } held :=
  ⟨hx.shape.with_slots f,hx.no_leak⟩

section Methods

variable [Inhabited α]

theorem truncateFrom_spec : ∀ (n i : Nat) (w w' : FixedSlidingWindow α), w.truncateFrom i n = some w' →
    (∃ f, w' = { w with slots := f }) ∧ ∀ j, i ≤ j → j < i + n → w.ref (calcIdx w.size j) = 0
  | 0, i, w, w', h => by
    cases h
    exact ⟨⟨w.slots,rfl⟩,fun j h1 h2 => absurd h2 (by omega)⟩
  | n + 1, i, w, w', h => by
    simp only [truncateFrom] at h
    split at h
    · next hfree =>
      obtain ⟨⟨f,rfl⟩,hz⟩ := truncateFrom_spec n (i + 1) _ _ h
      refine ⟨⟨f,rfl⟩,fun j h1 h2 => ?_⟩
      rcases Nat.eq_or_lt_of_le h1 with rfl | hlt
      · exact hfree
      · exact hz j hlt (by omega)
    · exact absurd h nofun

theorem Inv.init {w₀ : FixedSlidingWindow α} {startId size : Nat}
    (h : (empty : FixedSlidingWindow α).init startId size = .ok w₀) : Inv w₀ [] := by
  simp only [FixedSlidingWindow.init,empty,Bool.false_eq_true,if_false] at h
  split at h
  · exact absurd h nofun
  · next hsize =>
    cases h
    simp only [not_or,not_le,not_not] at hsize
    have hne : size ≠ 0 := by omega
    refine ⟨⟨rfl,(Nat.and_sub_one_eq_zero_iff_isPowerOfTwo hne).mp hsize.2,hsize.1,
      Nat.le_add_right startId size,le_rfl,nofun,nofun,fun _ => by simp,Nat.le_add_left size startId⟩,
      fun hlt => ?_⟩
    exact absurd hlt (lt_irrefl _)

end Methods

/-! ### `get` -/

theorem get_cases (w : FixedSlidingWindow α) (gId : Nat) :
    (∃ e, w.get gId = (.error e,w)) ∨
    (w.beginSn ≤ gId ∧ gId < w.endSn ∧ w.get gId = (.ok (calcIdx w.size gId),
      { w with ref := Function.update w.ref (calcIdx w.size gId) (w.ref (calcIdx w.size gId) + 1) })) := by
  unfold get
  split
  · exact .inl ⟨_,rfl⟩
  · split
    · exact .inl ⟨_,rfl⟩
    · next hok =>
      obtain ⟨h1,h2⟩ := checkIdInRange_eq_ok.mp hok
      exact .inr ⟨h1,h2,rfl⟩

def heldAfterGet (held : List Nat) (gId : Nat) : Except ObErr Nat → List Nat
  | .ok _ => gId :: held
  | .error _ => held

theorem Inv.get {w : FixedSlidingWindow α} {held : List Nat} (hx : Inv w held) (gId : Nat) :
    Inv (w.get gId).2 (heldAfterGet held gId (w.get gId).1) := by
  rcases get_cases w gId with ⟨e,he⟩ | ⟨hb,he,hget⟩
  · rw [he]
    exact hx
  rw [hget]
  have hs := hx.shape
  simp only [heldAfterGet,hs.calcIdx_eq]
  refine ⟨hs.with_ref ?_ ?_ ?_,fun hlt => ?_⟩
  · intro id hid
    rcases List.mem_cons.mp hid with rfl | hid
    · exact he
    · exact hs.held_lt id hid
  · intro id hid
    rcases List.mem_cons.mp hid with rfl | hid
    · have := hs.end_le
      omega
    · exact hs.held_ge id hid
  · intro i
    rw [List.countP_cons]
    by_cases hi : i = gId % w.size
    · subst hi
      simp [hs.ref_eq]
    · rw [Function.update_of_ne hi,hs.ref_eq]
      simp [Ne.symm hi]
  · have hpos := hx.no_leak hlt
    simp only at hpos ⊢
    by_cases hi : w.endSn % w.size = gId % w.size
    · rw [hi,Function.update_self]
      rw [hi] at hpos
      omega
    · rw [Function.update_of_ne hi]
      exact hpos

/-! ### `revert` -/

section Revert

variable [Inhabited α]


theorem reclaim_inv {held : List Nat} : ∀ (fuel : Nat) (w : FixedSlidingWindow α) (i tmpId : Nat),
    Shape w held → i = tmpId % w.size → w.endSn ≤ tmpId + w.size → w.beginSn ≤ tmpId + fuel →
    (NoLeak w ∨ tmpId + w.size = w.endSn) → Inv (reclaim fuel w i tmpId) held
  | 0, w, i, tmpId, hs, _, _, hfuel, hleak => by
    show Inv w held
    refine ⟨hs,fun hlt => ?_⟩
    rcases hleak with hn | htop
    · exact hn hlt
    · omega
  | fuel + 1, w, i, tmpId, hs, hi, hlo, hfuel, hleak => by
    rw [reclaim]
    split
    · next hc =>
      obtain ⟨hend,hbeg,hfree⟩ := hc
      rw [hs.calcIdx_eq] at hend
      have htop : tmpId + w.size = w.endSn := by
        rcases hleak with hn | htop
        · have hlt : w.endSn < w.beginSn + w.size := by
            have := hs.end_le
            omega
          have := hn hlt
          rw [← hend,hfree] at this
          exact absurd this (lt_irrefl 0)
        · exact htop
      have hfree' : w.ref (w.endSn % w.size) = 0 := by
        rw [← hend]
        exact hfree
      have hfit : w.endSn < w.beginSn + w.size := by omega
      have hs1 : Shape { w.resetSlot i with endSn := w.endSn + 1 } held :=
        (hs.resetSlot i).succ_end hfit hfree'
      refine reclaim_inv fuel _ _ _ hs1 ?_ ?_ ?_ (.inr ?_)
      · show calcIdx w.size (i + 1) = (tmpId + 1) % w.size
        rw [hs.calcIdx_eq,hi,Nat.mod_add_mod]
      · show w.endSn + 1 ≤ tmpId + 1 + w.size
        omega
      · show w.beginSn ≤ tmpId + 1 + fuel
        omega
      · show tmpId + 1 + w.size = w.endSn + 1
        omega
    · next hc =>
      refine ⟨hs,fun hlt => ?_⟩
      rcases hleak with hn | htop
      · exact hn hlt
      · have hend : i = calcIdx w.size w.endSn := by
          rw [hs.calcIdx_eq,hi,← htop,Nat.add_mod_right]
        have hne : w.ref i ≠ 0 := fun h0 => hc ⟨hend,by omega,h0⟩
        rw [hs.calcIdx_eq] at hend
        rw [← hend]
        have := hs.ref_nonneg i
        omega

theorem Inv.revert {w : FixedSlidingWindow α} {held : List Nat} {rId : Nat} (hx : Inv w held)
    (hr : rId ∈ held) : Inv (w.revert rId).2 (held.erase rId) := by
  have hs := hx.shape
  have hlt := hs.held_lt rId hr
  have hge := hs.held_ge rId hr
  have hpos := hs.ref_pos hr
  have hcount : ∀ i, held.countP (fun id => id % w.size = i) =
      (held.erase rId).countP (fun id => id % w.size = i) + if rId % w.size = i then 1 else 0 :=
    fun i => by
      rw [(List.perm_cons_erase hr).countP_eq,List.countP_cons]
      simp
  have hs' : Shape { w with ref := Function.update w.ref (rId % w.size) (w.ref (rId % w.size) - 1) }
      (held.erase rId) := by
    refine hs.with_ref (fun id h => hs.held_lt id (List.mem_of_mem_erase h))
      (fun id h => hs.held_ge id (List.mem_of_mem_erase h)) fun i => ?_
    by_cases hi : i = rId % w.size
    · subst hi
      rw [Function.update_self,hs.ref_eq,hcount]
      simp
    · rw [Function.update_of_ne hi,hs.ref_eq,hcount]
      simp [Ne.symm hi]
  have hleak : NoLeak { w with ref := Function.update w.ref (rId % w.size) (w.ref (rId % w.size) - 1) } ∨
      rId + w.size = w.endSn := by
    by_cases htop : rId + w.size = w.endSn
    · exact .inr htop
    refine .inl fun hlt' => ?_
    have hne : w.endSn % w.size ≠ rId % w.size := fun h => by
      rcases Lib.eq_or_eq_add_of_mod_eq h.symm (Nat.le_of_lt hlt) hge with h' | h' <;> omega
    show 0 < Function.update w.ref (rId % w.size) (w.ref (rId % w.size) - 1) (w.endSn % w.size)
    rw [Function.update_of_ne hne]
    exact hx.no_leak hlt'
  have hcheck : ¬(w.endSn ≤ rId ∨ rId < w.beginSn - w.size) := by
    have := hs.begin_le_end
    omega
  have hnonneg : ¬(w.ref (rId % w.size) - 1 < 0) := by omega
  dsimp only [FixedSlidingWindow.revert]
  rw [if_neg (by simp [hs.inited]),if_neg hcheck,hs.calcIdx_eq,if_neg hnonneg]
  split
  · exact reclaim_inv _ _ _ _ hs' rfl hge (by show w.beginSn ≤ rId + (w.beginSn - rId); omega) hleak
  · next hz =>
    refine ⟨hs',fun hlt' => ?_⟩
    rcases hleak with hn | htop
    · exact hn hlt'
    · show 0 < Function.update w.ref (rId % w.size) (w.ref (rId % w.size) - 1) (w.endSn % w.size)
      rw [← htop,Nat.add_mod_right,Function.update_self]
      omega

end Revert

/-! ### `slide`, `truncate` and `truncate_and_reset_begin_sn` -/

section Slide

variable [Inhabited α] (cond : Nat → α → Except ObErr Bool)

theorem Inv.slideOnce {w : FixedSlidingWindow α} {held : List Nat} (hx : Inv w held) :
    Inv (slideOnce cond w).2 held := by
  have hs := hx.shape
  dsimp only [FixedSlidingWindow.slideOnce]
  split
  · exact hx
  · next hne =>
    split
    · exact hx
    · exact hx
    · rw [hs.calcIdx_eq,hs.calcIdx_eq]
      have hs1 := hs.succ_begin (by omega)
      split
      · next hc =>
        obtain ⟨hfree,hend⟩ := hc
        have hfull : w.endSn = w.beginSn + w.size := by
          rcases Lib.eq_or_eq_add_of_mod_eq hend.symm hs.begin_le_end hs.end_le with h | h <;> omega
        have hfree' : w.ref (w.endSn % w.size) = 0 := by
          rw [hend]
          exact hfree
        have hs2 : Shape { ({ w with beginSn := w.beginSn + 1 } : FixedSlidingWindow α).resetSlot
            (w.beginSn % w.size) with endSn := w.endSn + 1 } held :=
          (hs1.resetSlot _).succ_end (by show w.endSn < w.beginSn + 1 + w.size; omega) hfree'
        refine ⟨hs2,fun hlt => absurd hlt ?_⟩
        show ¬(w.endSn + 1 < w.beginSn + 1 + w.size)
        omega
      · next hc =>
        refine ⟨hs1,fun hlt => ?_⟩
        show 0 < w.ref (w.endSn % w.size)
        by_cases hfull : w.endSn = w.beginSn + w.size
        · have hm : w.endSn % w.size = w.beginSn % w.size := by
            rw [hfull,Nat.add_mod_right]
          have hne0 : w.ref (w.beginSn % w.size) ≠ 0 := fun h0 => hc ⟨h0,hm⟩
          rw [hm]
          have := hs.ref_nonneg (w.beginSn % w.size)
          omega
        · exact hx.no_leak (by have := hs.end_le; omega)

theorem Inv.slideLoop : ∀ (fuel : Nat) {w : FixedSlidingWindow α} {held : List Nat},
    Inv w held → Inv (slideLoop cond fuel w).2 held
  | 0, _, _, hx => hx
  | fuel + 1, w, held, hx => by
    have h1 := hx.slideOnce cond
    simp only [FixedSlidingWindow.slideLoop]
    split
    · next r w' heq =>
      rw [heq] at h1
      exact h1
    · next w' heq =>
      rw [heq] at h1
      exact Inv.slideLoop fuel h1

theorem Inv.slide {w : FixedSlidingWindow α} {held : List Nat} (hx : Inv w held) (fuel : Nat) :
    Inv (w.slide fuel cond).2 held := by
  unfold FixedSlidingWindow.slide
  rw [if_neg (by simp [hx.shape.inited])]
  exact hx.slideLoop cond fuel

end Slide

section Truncate

variable [Inhabited α] {w : FixedSlidingWindow α} {held : List Nat} {tId : Nat}
  {r : Except ObErr Unit × FixedSlidingWindow α}

theorem Inv.truncate (hx : Inv w held) (h : w.truncate tId = some r) : Inv r.2 held := by
  unfold FixedSlidingWindow.truncate at h
  rw [if_neg (by simp [hx.shape.inited])] at h
  split at h
  · obtain ⟨w',hw',rfl⟩ := Option.map_eq_some_iff.mp h
    obtain ⟨⟨f,rfl⟩,-⟩ := truncateFrom_spec _ _ _ _ hw'
    exact hx.with_slots f
  all_goals
    cases h
    exact hx

theorem Inv.truncateAndResetBeginSn (hx : Inv w held) (hne : w.beginSn ≠ w.endSn)
    (h : w.truncateAndResetBeginSn tId = some r) : Inv r.2 held := by
  have hs := hx.shape
  unfold FixedSlidingWindow.truncateAndResetBeginSn at h
  rw [if_neg (by simp [hs.inited])] at h
  split at h
  · cases h
    exact hx
  split at h
  · cases h
    exact hx
  next hle hidx =>
  rw [not_not,hs.calcIdx_eq,hs.calcIdx_eq] at hidx
  have hfull : w.endSn = w.beginSn + w.size := by
    rcases Lib.eq_or_eq_add_of_mod_eq hidx hs.begin_le_end hs.end_le with h' | h' <;> omega
  have hwin : ∀ id ∈ held, w.beginSn ≤ id ∧ id < w.endSn :=
    fun id hid => ⟨by have := hs.held_ge id hid; omega,hs.held_lt id hid⟩
  have hmove : ∀ f : Nat → α, (∀ id ∈ held, tId ≤ id ∧ id < tId + w.size) →
      Inv { ({ w with slots := f } : FixedSlidingWindow α) with beginSn := tId, endSn := tId + w.size } held :=
    fun f hheld => ⟨(hs.with_slots f).moveTo hheld,fun hlt => absurd hlt (by
      show ¬(tId + w.size < tId + w.size)
      omega)⟩
  split at h
  · obtain ⟨w',hw',rfl⟩ := Option.map_eq_some_iff.mp h
    obtain ⟨⟨f,rfl⟩,hfree⟩ := truncateFrom_spec _ _ _ _ hw'
    refine hmove f fun id hid => absurd hid (hs.not_held_of_free (hfree id (hwin id hid).1 ?_))
    have := (hwin id hid).2
    omega
  · next hok =>
    obtain ⟨hb,hlt⟩ := checkIdInRange_eq_ok.mp hok
    obtain ⟨w',hw',rfl⟩ := Option.map_eq_some_iff.mp h
    obtain ⟨⟨f,rfl⟩,hfree⟩ := truncateFrom_spec _ _ _ _ hw'
    refine hmove f fun id hid => ⟨?_,by have := (hwin id hid).2; omega⟩
    by_contra hbelow
    exact hs.not_held_of_free (hfree id (hwin id hid).1 (by omega)) hid

end Truncate

/-! ## Runs of the window -/

/-- The window with a ghost: the ids of the references `get` handed out and no `revert` has
dropped yet, one entry per reference. -/
structure Tracked (α : Type) where
  win : FixedSlidingWindow α
  held : List Nat

inductive Op (α : Type)
  | get (gId : Nat)
  | revert (rId : Nat)
  | slide (fuel : Nat) (cond : Nat → α → Except ObErr Bool)
  | truncate (tId : Nat)
  | truncateAndResetBeginSn (tId : Nat)

def Op.Admissible (x : Tracked α) : Op α → Prop
  | .revert rId => rId ∈ x.held
  | _ => True

/-- As `Op.Admissible`, and `truncate_and_reset_begin_sn` is never called on an empty window. -/
def Op.AdmissibleNonEmpty (x : Tracked α) : Op α → Prop
  | .revert rId => rId ∈ x.held
  | .truncateAndResetBeginSn _ => x.win.beginSn ≠ x.win.endSn
  | _ => True

instance (x : Tracked α) (op : Op α) : Decidable (Op.AdmissibleNonEmpty x op) :=
  match op with
  | .revert rId => inferInstanceAs (Decidable (rId ∈ x.held))
  | .truncateAndResetBeginSn _ => inferInstanceAs (Decidable (x.win.beginSn ≠ x.win.endSn))
  | .get _ | .slide _ _ | .truncate _ => isTrue trivial

section Runs

variable [Inhabited α]

/-- One call with the ghost kept up to date; `none` when the call cannot complete. -/
def trackedStep (x : Tracked α) : Op α → Option (Tracked α)
  | .get gId => some ⟨(x.win.get gId).2,heldAfterGet x.held gId (x.win.get gId).1⟩
  | .revert rId => some ⟨(x.win.revert rId).2,x.held.erase rId⟩
  | .slide fuel cond => some ⟨(x.win.slide fuel cond).2,x.held⟩
  | .truncate tId => (x.win.truncate tId).map fun r => ⟨r.2,x.held⟩
  | .truncateAndResetBeginSn tId => (x.win.truncateAndResetBeginSn tId).map fun r => ⟨r.2,x.held⟩

theorem Inv.trackedStep {x y : Tracked α} {op : Op α} (hx : Inv x.win x.held)
    (hop : op.AdmissibleNonEmpty x) (h : trackedStep x op = some y) : Inv y.win y.held := by
  cases op with
  | get gId =>
    cases h
    exact hx.get gId
  | revert rId =>
    cases h
    exact hx.revert hop
  | slide fuel cond =>
    cases h
    exact hx.slide cond fuel
  | truncate tId =>
    obtain ⟨r,hr,rfl⟩ := Option.map_eq_some_iff.mp h
    exact hx.truncate hr
  | truncateAndResetBeginSn tId =>
    obtain ⟨r,hr,rfl⟩ := Option.map_eq_some_iff.mp h
    exact hx.truncateAndResetBeginSn hop hr

/-- Slot safety over every run from `init` in which `truncate_and_reset_begin_sn` is not called
on an empty window: the window is at most `size_` ids long, every held id is one of the
`size_` ids below `end_sn_`, distinct ids held or in the window have distinct slots, no slot
leaks, and with no reference held the window is full. -/
theorem slot_safety_of_run {startId size : Nat} {w₀ : FixedSlidingWindow α} {ops : List (Op α)}
    {x : Tracked α} (hinit : (empty : FixedSlidingWindow α).init startId size = .ok w₀)
    (hrun : Lib.Run trackedStep Op.AdmissibleNonEmpty ⟨w₀,[]⟩ ops x) :
    x.win.beginSn ≤ x.win.endSn ∧ x.win.endSn ≤ x.win.beginSn + x.win.size ∧
    (∀ id ∈ x.held, x.win.endSn - x.win.size ≤ id ∧ id < x.win.endSn) ∧
    (∀ a b, (a ∈ x.held ∨ x.win.beginSn ≤ a ∧ a < x.win.endSn) →
      (b ∈ x.held ∨ x.win.beginSn ≤ b ∧ b < x.win.endSn) → a ≠ b →
      calcIdx x.win.size a ≠ calcIdx x.win.size b) ∧
    (x.win.endSn < x.win.beginSn + x.win.size →
      0 < x.win.ref (calcIdx x.win.size (x.win.endSn - x.win.size))) ∧
    (x.held = [] → x.win.endSn = x.win.beginSn + x.win.size) := by
  have hx : Inv x.win x.held :=
    hrun.invariant (fun x => Inv x.win x.held) (fun _ _ _ hx hop h => hx.trackedStep hop h) (Inv.init hinit)
  have hs := hx.shape
  have hbelow : ∀ a, (a ∈ x.held ∨ x.win.beginSn ≤ a ∧ a < x.win.endSn) →
      x.win.endSn ≤ a + x.win.size ∧ a < x.win.endSn := by
    rintro a (ha | ⟨ha1,ha2⟩)
    · exact ⟨hs.held_ge a ha,hs.held_lt a ha⟩
    · exact ⟨by have := hs.end_le; omega,ha2⟩
  have hend : x.win.endSn = x.win.endSn - x.win.size + x.win.size := by
    have := hs.size_le_end
    omega
  refine ⟨hs.begin_le_end,hs.end_le,fun id hid => ⟨?_,hs.held_lt id hid⟩,fun a b ha hb hab heq => ?_,
    fun hlt => ?_,fun hnil => ?_⟩
  · have := hs.held_ge id hid
    omega
  · rw [hs.calcIdx_eq,hs.calcIdx_eq] at heq
    obtain ⟨ha1,ha2⟩ := hbelow a ha
    obtain ⟨hb1,hb2⟩ := hbelow b hb
    exact hab (Shape.eq_of_mod_eq heq ha1 ha2 hb1 hb2)
  · have hpos := hx.no_leak hlt
    rw [hend,Nat.add_mod_right] at hpos
    rw [hs.calcIdx_eq]
    exact hpos
  · by_contra hne
    have hpos := hx.no_leak (by have := hs.end_le; omega)
    rw [hs.ref_eq,hnil] at hpos
    exact absurd hpos (by simp)

/-- `init(0, 2)`, references on ids 0 and 1, a slide of both ids past `begin_sn_`, and the
`revert`s that reclaim their slots for ids 2 and 3, with a `get` of id 2 in between. -/
def slideRevertRun : List (Op Unit) :=
  [.get 0,.get 1,.slide 2 (fun _ _ => .ok true),.revert 0,.get 2,.revert 1]

theorem slot_safety_after_slide_revert :
    ∃ (w₀ : FixedSlidingWindow Unit) (x : Tracked Unit),
      (empty : FixedSlidingWindow Unit).init 0 2 = .ok w₀ ∧
      Lib.Run trackedStep Op.AdmissibleNonEmpty ⟨w₀,[]⟩ slideRevertRun x ∧
      x.held = [2] ∧ x.win.beginSn = 2 ∧ x.win.endSn = 4 ∧
      (x.win.beginSn ≤ x.win.endSn ∧ x.win.endSn ≤ x.win.beginSn + x.win.size ∧
        (∀ id ∈ x.held, x.win.endSn - x.win.size ≤ id ∧ id < x.win.endSn) ∧
        (∀ a b, (a ∈ x.held ∨ x.win.beginSn ≤ a ∧ a < x.win.endSn) →
          (b ∈ x.held ∨ x.win.beginSn ≤ b ∧ b < x.win.endSn) → a ≠ b →
          calcIdx x.win.size a ≠ calcIdx x.win.size b) ∧
        (x.win.endSn < x.win.beginSn + x.win.size →
          0 < x.win.ref (calcIdx x.win.size (x.win.endSn - x.win.size))) ∧
        (x.held = [] → x.win.endSn = x.win.beginSn + x.win.size)) := by
  have hinit : (empty : FixedSlidingWindow Unit).init 0 2 = .ok ⟨true,0,2,2,fun _ => (),fun _ => 0⟩ := rfl
  have hrun : Lib.Run trackedStep Op.AdmissibleNonEmpty ⟨⟨true,0,2,2,fun _ => (),fun _ => 0⟩,[]⟩
      slideRevertRun _ :=
    .cons trivial rfl (.cons trivial rfl (.cons trivial rfl (.cons (by decide) rfl
      (.cons trivial rfl (.cons (by decide) rfl (.nil _))))))
  exact ⟨_,_,hinit,hrun,by decide,by decide,by decide,slot_safety_of_run hinit hrun⟩

end Runs

/-- `truncate_and_reset_begin_sn` takes a window whose begin and end share a slot for a full
one. An empty window has them share a slot too, while the slot of its oldest slid-out id may
still be held: with `size_ = 2`, a reference on id 0 kept while ids 0 and 1 slide leaves
`begin_sn_ = end_sn_ = 2`. The call then moves the window to `[2, 4)` with id 0 still held,
below `end_sn_ - size_`; and the `revert` of id 0 reclaims slot after slot, up to
`end_sn_ = 6 > begin_sn_ + size_ = 4`. The `revert` is admissible: id 0 is held. -/
theorem truncateAndResetBeginSn_empty_window :
    ∃ (w₀ : FixedSlidingWindow Unit) (x y : Tracked Unit),
      (empty : FixedSlidingWindow Unit).init 0 2 = .ok w₀ ∧
      Lib.Run trackedStep Op.Admissible ⟨w₀,[]⟩
        [.get 0,.slide 2 (fun _ _ => .ok true),.truncateAndResetBeginSn 2] x ∧
      0 ∈ x.held ∧ 0 < x.win.endSn - x.win.size ∧ trackedStep x (.revert 0) = some y ∧
      y.win.beginSn + y.win.size < y.win.endSn := by
  refine ⟨_,_,_,rfl,.cons trivial rfl (.cons trivial rfl (.cons trivial rfl (.nil _))),?_,?_,rfl,?_⟩
  all_goals decide

end FixedSlidingWindow

end Palf
end OceanBase

import Mathlib

/-! Doubly linked chains of cells in a heap. A cell links through `prv` to the cell after it and
through `nxt` back to the cell before it, both null at the ends; a chain is the list of addresses
that a head pointer reaches. `Seg` says that a list of addresses is linked so between two given
neighbours. A segment splits at an append (`seg_append`) and keeps its inner links under writes
that touch only its end cells (`Seg.relink`); linking a cell in and unlinking one follow. -/
namespace OceanBase
namespace Lib

section Seg

variable {prv nxt : Nat → Option Nat}

variable (prv nxt) in
/-- `Seg prv nxt above l below`: each cell of `l` links through `prv` to the cell after it, the last
one to `below`, and through `nxt` to the cell before it, the first one to `above`. -/
def Seg : Option Nat → List Nat → Option Nat → Prop
  | _, [], _ => True
  | above, a :: l, below => nxt a = above ∧ prv a = l.head?.or below ∧ Seg (some a) l below

@[simp] theorem seg_nil (above below : Option Nat) : Seg prv nxt above [] below := trivial

theorem seg_cons {above below : Option Nat} {a : Nat} {l : List Nat} :
    Seg prv nxt above (a :: l) below ↔
      nxt a = above ∧ prv a = l.head?.or below ∧ Seg prv nxt (some a) l below :=
  Iff.rfl

theorem getLast?_cons_or (a : Nat) (l : List Nat) (o : Option Nat) :
    (a :: l).getLast?.or o = l.getLast?.or (some a) := by
  rw [List.getLast?_cons]
  cases l.getLast? <;> rfl

theorem seg_append {above below : Option Nat} (l₁ l₂ : List Nat) :
    Seg prv nxt above (l₁ ++ l₂) below ↔
      Seg prv nxt above l₁ (l₂.head?.or below) ∧ Seg prv nxt (l₁.getLast?.or above) l₂ below := by
  induction l₁ generalizing above with
  | nil => simp
  | cons a l₁ ih =>
    rw [List.cons_append, seg_cons, seg_cons, ih, List.head?_append, Option.or_assoc,
      getLast?_cons_or]
    simp only [and_assoc]

theorem Seg.nxt_first {above below : Option Nat} {l : List Nat} (h : Seg prv nxt above l below) :
    ∀ x ∈ l.head?, nxt x = above := by
  cases l with
  | nil => simp
  | cons a l =>
    intro x hx
    cases hx
    exact h.1

theorem Seg.prv_last {above below : Option Nat} {l : List Nat} (h : Seg prv nxt above l below) :
    ∀ x ∈ l.getLast?, prv x = below := by
  induction l generalizing above with
  | nil => simp
  | cons a l ih =>
    intro x hx
    cases l with
    | nil =>
      cases hx
      simpa using h.2.1
    | cons b l =>
      rw [List.getLast?_cons_cons] at hx
      exact ih h.2.2 x hx

theorem Seg.relink {prv' nxt' : Nat → Option Nat} {above below above' below' : Option Nat}
    {l : List Nat} (h : Seg prv nxt above l below)
    (hprv : ∀ x ∈ l.dropLast, prv' x = prv x) (hnxt : ∀ x ∈ l.tail, nxt' x = nxt x)
    (hfirst : ∀ x ∈ l.head?, nxt' x = above') (hlast : ∀ x ∈ l.getLast?, prv' x = below') :
    Seg prv' nxt' above' l below' := by
  induction l generalizing above above' with
  | nil => trivial
  | cons a l ih =>
    obtain ⟨-, hpa, hrest⟩ := h
    refine ⟨hfirst a rfl, ?_, ?_⟩
    · cases l with
      | nil => simpa using hlast a rfl
      | cons b l =>
        rw [hprv a (by simp), hpa]
        rfl
    · refine ih hrest ?_ ?_ ?_ ?_
      · intro x hx
        cases l with
        | nil => simp at hx
        | cons b l => exact hprv x (by simp [hx])
      · intro x hx
        exact hnxt x (List.mem_of_mem_tail hx)
      · intro x hx
        rw [hnxt x (List.mem_of_mem_head? hx)]
        exact hrest.nxt_first x hx
      · intro x hx
        cases l with
        | nil => simp at hx
        | cons b l => exact hlast x (by rwa [List.getLast?_cons_cons])

theorem not_mem_getLast?_of_mem_dropLast {l : List Nat} (hnd : l.Nodup) {x : Nat}
    (hx : x ∈ l.dropLast) : x ∉ l.getLast? := by
  intro hl
  obtain ⟨l₀, b, rfl⟩ : ∃ l₀ b, l = l₀ ++ [b] := by
    rcases List.eq_nil_or_concat l with h | h
    · subst h
      simp at hx
    · simpa using h
  rw [List.dropLast_concat] at hx
  rw [List.getLast?_concat] at hl
  cases hl
  exact (List.nodup_append.1 hnd).2.2 x hx x (by simp) rfl

theorem not_mem_head?_of_mem_tail {l : List Nat} (hnd : l.Nodup) {x : Nat} (hx : x ∈ l.tail) :
    x ∉ l.head? := by
  cases l with
  | nil => simp at hx
  | cons a l =>
    intro hh
    cases hh
    exact (List.nodup_cons.1 hnd).1 hx

theorem Seg.relink_below {prv' nxt' : Nat → Option Nat} {above below below' : Option Nat}
    {l : List Nat} (h : Seg prv nxt above l below) (hnd : l.Nodup)
    (hprv : ∀ x ∈ l, x ∉ l.getLast? → prv' x = prv x) (hnxt : ∀ x ∈ l, nxt' x = nxt x)
    (hlast : ∀ x ∈ l.getLast?, prv' x = below') : Seg prv' nxt' above l below' :=
  h.relink (fun x hx => hprv x (List.mem_of_mem_dropLast hx) (not_mem_getLast?_of_mem_dropLast hnd hx))
    (fun x hx => hnxt x (List.mem_of_mem_tail hx))
    (fun x hx => by rw [hnxt x (List.mem_of_mem_head? hx)]; exact h.nxt_first x hx) hlast

theorem Seg.relink_above {prv' nxt' : Nat → Option Nat} {above above' below : Option Nat}
    {l : List Nat} (h : Seg prv nxt above l below) (hnd : l.Nodup)
    (hprv : ∀ x ∈ l, prv' x = prv x) (hnxt : ∀ x ∈ l, x ∉ l.head? → nxt' x = nxt x)
    (hfirst : ∀ x ∈ l.head?, nxt' x = above') : Seg prv' nxt' above' l below :=
  h.relink (fun x hx => hprv x (List.mem_of_mem_dropLast hx))
    (fun x hx => hnxt x (List.mem_of_mem_tail hx) (not_mem_head?_of_mem_tail hnd hx)) hfirst
    (fun x hx => by rw [hprv x (List.mem_of_mem_getLast? hx)]; exact h.prv_last x hx)

end Seg

section Chain

variable {prv nxt prv' nxt' : Nat → Option Nat} {head head' : Option Nat}

variable (prv nxt) in
/-- `Chain prv nxt head l`: `head` points at the first address of `l`, whose addresses are distinct
and linked with nothing before the first or after the last. -/
structure Chain (head : Option Nat) (l : List Nat) : Prop where
  head_eq : head = l.head?
  nodup : l.Nodup
  seg : Seg prv nxt none l none

theorem Chain.prv_eq {pre post : List Nat} {a : Nat} (h : Chain prv nxt head (pre ++ a :: post)) :
    prv a = post.head? := by
  have hseg := ((seg_append pre (a :: post)).1 h.seg).2
  simpa using hseg.2.1

theorem Chain.nxt_eq {pre post : List Nat} {a : Nat} (h : Chain prv nxt head (pre ++ a :: post)) :
    nxt a = pre.getLast? := by
  have hseg := ((seg_append pre (a :: post)).1 h.seg).2
  simpa using hseg.1

variable (prv) in
/-- The cells reached from `c` along `prv`, at most `fuel` of them; `none` when the walk does not
reach null within them. -/
def walk : (fuel : Nat) → (c : Option Nat) → Option (List Nat)
  | _, none => some []
  | 0, some _ => none
  | fuel + 1, some a => (walk fuel (prv a)).map (a :: ·)

theorem seg_eq_of_walk : ∀ {fuel : Nat} {above : Option Nat} {l l' : List Nat},
    Seg prv nxt above l none → walk prv fuel l.head? = some l' → l = l'
  | _, _, [], _, _, h => by simpa [walk] using h
  | 0, _, _ :: _, _, _, h => by simp [walk] at h
  | _ + 1, _, a :: l, _, hs, h => by
    obtain ⟨-, hp, hs'⟩ := seg_cons.1 hs
    simp only [List.head?_cons, walk, Option.map_eq_some_iff] at h
    obtain ⟨t, ht, rfl⟩ := h
    rw [hp, Option.or_none] at ht
    rw [seg_eq_of_walk hs' ht]

theorem Chain.eq_of_walk {l l' : List Nat} {fuel : Nat} (h : Chain prv nxt head l)
    (hw : walk prv fuel head = some l') : l = l' :=
  seg_eq_of_walk h.seg (h.head_eq ▸ hw)

theorem Chain.insert {pre post : List Nat} {c : Nat} (h : Chain prv nxt head (pre ++ post))
    (hc : c ∉ pre ++ post)
    (hprv : ∀ x ∈ pre ++ post, x ∉ pre.getLast? → prv' x = prv x)
    (hprvLast : ∀ x ∈ pre.getLast?, prv' x = some c) (hprvC : prv' c = post.head?)
    (hnxt : ∀ x ∈ pre ++ post, x ∉ post.head? → nxt' x = nxt x)
    (hnxtFirst : ∀ x ∈ post.head?, nxt' x = some c) (hnxtC : nxt' c = pre.getLast?)
    (hhead : head' = pre.head?.or (some c)) : Chain prv' nxt' head' (pre ++ c :: post) where
  head_eq := by rw [hhead, List.head?_append]; rfl
  nodup := List.nodup_middle.2 (List.nodup_cons.2 ⟨hc, h.nodup⟩)
  seg := by
    have hnd := List.nodup_append.1 h.nodup
    obtain ⟨hpre, hpost⟩ := (seg_append pre post).1 h.seg
    rw [seg_append, seg_cons]
    simp only [Option.or_none, List.head?_cons]
    refine ⟨hpre.relink_below hnd.1 (fun x hx => hprv x (List.mem_append_left _ hx)) ?_ hprvLast,
      hnxtC, hprvC, hpost.relink_above hnd.2.1 ?_ (fun x hx => hnxt x (List.mem_append_right _ hx))
        hnxtFirst⟩
    · intro x hx
      refine hnxt x (List.mem_append_left _ hx) fun hh => ?_
      exact hnd.2.2 x hx x (List.mem_of_mem_head? hh) rfl
    · intro x hx
      refine hprv x (List.mem_append_right _ hx) fun hl => ?_
      exact hnd.2.2 x (List.mem_of_mem_getLast? hl) x hx rfl

theorem Chain.erase {pre post : List Nat} {a : Nat} (h : Chain prv nxt head (pre ++ a :: post))
    (hprv : ∀ x ∈ pre ++ post, x ∉ pre.getLast? → prv' x = prv x)
    (hprvLast : ∀ x ∈ pre.getLast?, prv' x = post.head?)
    (hnxt : ∀ x ∈ pre ++ post, x ∉ post.head? → nxt' x = nxt x)
    (hnxtFirst : ∀ x ∈ post.head?, nxt' x = pre.getLast?)
    (hhead : head' = pre.head?.or post.head?) : Chain prv' nxt' head' (pre ++ post) where
  head_eq := by rw [hhead, List.head?_append]
  nodup := (List.nodup_middle.1 h.nodup).of_cons
  seg := by
    have hnd := List.nodup_append.1 (List.nodup_middle.1 h.nodup).of_cons
    obtain ⟨hpre, hmid⟩ := (seg_append pre (a :: post)).1 h.seg
    obtain ⟨-, -, hpost⟩ := seg_cons.1 hmid
    rw [seg_append]
    simp only [Option.or_none]
    refine ⟨hpre.relink_below hnd.1 (fun x hx => hprv x (List.mem_append_left _ hx)) ?_ hprvLast,
      hpost.relink_above hnd.2.1 ?_ (fun x hx => hnxt x (List.mem_append_right _ hx)) hnxtFirst⟩
    · intro x hx
      refine hnxt x (List.mem_append_left _ hx) fun hh => ?_
      exact hnd.2.2 x hx x (List.mem_of_mem_head? hh) rfl
    · intro x hx
      refine hprv x (List.mem_append_right _ hx) fun hl => ?_
      exact hnd.2.2 x (List.mem_of_mem_getLast? hl) x hx rfl

end Chain

section Between

variable {α β : Type*}

theorem cons_append_of_forall_eq {b : β} {M : List β} (hM : ∀ x ∈ M, x = b) (R : List β) :
    b :: (M ++ R) = M ++ b :: R := by
  induction M with
  | nil => rfl
  | cons m M ih =>
    rw [hM m (by simp)]
    simp [ih fun x hx => hM x (by simp [hx])]

theorem map_insert_eq_of_between [PartialOrder β] {f : α → β} {c : α} {A B A' B' : List α}
    (hl : A ++ B = A' ++ B') (hA : ∀ x ∈ A, f c ≤ f x) (hB : ∀ x ∈ B, f x ≤ f c)
    (hA' : ∀ x ∈ A', f c ≤ f x) (hB' : ∀ x ∈ B', f x ≤ f c) :
    (A ++ c :: B).map f = (A' ++ c :: B').map f := by
  rcases List.append_eq_append_iff.1 hl with ⟨M, rfl, rfl⟩ | ⟨M, rfl, rfl⟩
  · have hM : ∀ y ∈ M.map f, y = f c := by
      simp only [List.mem_map]
      rintro _ ⟨x, hx, rfl⟩
      exact le_antisymm (hB x (List.mem_append_left _ hx)) (hA' x (List.mem_append_right _ hx))
    simp only [List.map_append, List.map_cons, List.append_assoc]
    rw [cons_append_of_forall_eq hM]
  · have hM : ∀ y ∈ M.map f, y = f c := by
      simp only [List.mem_map]
      rintro _ ⟨x, hx, rfl⟩
      exact le_antisymm (hB' x (List.mem_append_left _ hx)) (hA x (List.mem_append_right _ hx))
    simp only [List.map_append, List.map_cons, List.append_assoc]
    rw [cons_append_of_forall_eq hM]

end Between

end Lib
end OceanBase

import Mathlib

/-! The `k`-th largest entry of a list. In a list sorted in descending order the entry at index
`k` is the largest value that at least `k + 1` entries reach, and the descending
`List.insertionSort` keeps every count of the list it sorts. -/
namespace OceanBase
namespace Lib

variable {α : Type*} [LinearOrder α]

theorem succ_le_countP_of_pairwise {l : List α} (hl : l.Pairwise (· ≥ ·)) {i : Nat}
    (hi : i < l.length) : i + 1 ≤ l.countP (fun y => l[i] ≤ y) := by
  induction l generalizing i with
  | nil => simp at hi
  | cons a l ih =>
    rw [List.pairwise_cons] at hl
    cases i with
    | zero => simp
    | succ i =>
      have hi' : i < l.length := by simpa using hi
      have hle : l[i] ≤ a := hl.1 _ (List.getElem_mem hi')
      have hrest := ih hl.2 hi'
      simp only [List.getElem_cons_succ, List.countP_cons, hle, decide_true, if_true]
      omega

theorem countP_le_of_pairwise {l : List α} (hl : l.Pairwise (· ≥ ·)) {i : Nat}
    (hi : i < l.length) {x : α} (hx : l[i] < x) : l.countP (fun y => x ≤ y) ≤ i := by
  induction l generalizing i with
  | nil => simp at hi
  | cons a l ih =>
    rw [List.pairwise_cons] at hl
    cases i with
    | zero =>
      have ha : a < x := by simpa using hx
      have hnone : ∀ y ∈ a :: l, ¬ x ≤ y := by
        intro y hy hxy
        rcases List.mem_cons.mp hy with rfl | hy
        · exact absurd hxy (not_le.mpr ha)
        · exact absurd (hxy.trans (hl.1 y hy)) (not_le.mpr ha)
      simpa [List.countP_eq_zero] using hnone
    | succ i =>
      have hi' : i < l.length := by simpa using hi
      have hrest := ih hl.2 hi' (by simpa using hx)
      rw [List.countP_cons]
      split_ifs <;> omega

theorem isGreatest_of_getElem?_insertionSort {l : List α} {k : Nat} {r : α}
    (h : (l.insertionSort (· ≥ ·))[k]? = some r) :
    IsGreatest {x | k + 1 ≤ l.countP (fun y => x ≤ y)} r := by
  obtain ⟨hk,hr⟩ := List.getElem?_eq_some_iff.mp h
  have hsorted := List.pairwise_insertionSort (· ≥ ·) l
  have hcount : ∀ x : α, (l.insertionSort (· ≥ ·)).countP (fun y => x ≤ y) =
      l.countP (fun y => x ≤ y) := fun x =>
    (List.perm_insertionSort (· ≥ ·) l).countP_eq _
  constructor
  · show k + 1 ≤ l.countP (fun y => r ≤ y)
    rw [← hcount, ← hr]
    exact succ_le_countP_of_pairwise hsorted hk
  · intro x hx
    by_contra hlt
    have hle := countP_le_of_pairwise hsorted hk (x := x) (by rw [hr]; exact not_le.mp hlt)
    have hx' : k + 1 ≤ l.countP (fun y => x ≤ y) := hx
    rw [hcount] at hle
    omega

theorem countP_filterMap_eq_card {β : Type*} [DecidableEq β] {l : List β} (hl : l.Nodup)
    (f : β → Option α) (x : α) :
    (l.filterMap f).countP (fun y => x ≤ y) = (l.toFinset.filter fun b => ∃ y ∈ f b, x ≤ y).card := by
  rw [List.countP_filterMap, List.countP_eq_length_filter, ← List.toFinset_card_of_nodup
    (hl.filter _), List.toFinset_filter]
  congr 2
  funext b
  cases f b <;> simp

end Lib
end OceanBase

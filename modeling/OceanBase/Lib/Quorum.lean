import Mathlib

/-! Majority quorums across a change of membership. A set of more than half of the members of
one configuration meets every set of more than half of the members of the next, when the two
member sets differ in at most one element: the counting fact that makes a reconfiguration by
one server at a time safe without a joint phase. -/
namespace OceanBase
namespace Lib

variable {α : Type*} [DecidableEq α]

def changed (S T : Finset α) : Nat := (S \ T).card + (T \ S).card

theorem two_mul_card_union (S T : Finset α) :
    2 * (S ∪ T).card = S.card + T.card + changed S T := by
  have hST := Finset.card_sdiff_add_card_inter S T
  have hTS := Finset.card_sdiff_add_card_inter T S
  have hU := Finset.card_union_add_card_inter S T
  rw [Finset.inter_comm] at hTS
  unfold changed
  omega

@[simp] theorem changed_self (S : Finset α) : changed S S = 0 := by simp [changed]

theorem changed_insert {S : Finset α} {x : α} (hx : x ∉ S) : changed S (insert x S) = 1 := by
  have h : insert x S \ S = {x} := by
    ext y
    by_cases hy : y = x <;> simp [hy,hx]
  simp [changed,h]

theorem changed_erase {S : Finset α} {x : α} (hx : x ∈ S) : changed S (S.erase x) = 1 := by
  have h : S \ S.erase x = {x} := by
    ext y
    by_cases hy : y = x <;> simp [hy,hx]
  simp [changed,h,Finset.erase_subset]

theorem majorities_inter_nonempty {S T A B : Finset α} (hA : A ⊆ S) (hB : B ⊆ T)
    (hmA : S.card < 2 * A.card) (hmB : T.card < 2 * B.card) (hd : changed S T ≤ 1) :
    (A ∩ B).Nonempty := by
  have hU := two_mul_card_union S T
  apply Finset.inter_nonempty_of_card_lt_card_add_card (hA.trans Finset.subset_union_left)
    (hB.trans Finset.subset_union_right)
  omega

end Lib
end OceanBase

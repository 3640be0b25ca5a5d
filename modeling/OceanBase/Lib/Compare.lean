import Mathlib

/-! Three-way comparisons as C and C++ code writes them: an `int` that is negative, zero or
positive. A comparison by a key is a total preorder, and so is the first of several total
preorders that tells two elements apart. Breaking its ties by a key that tells every element
apart gives a strict total order, and keeping the greatest element seen so far then ends at the
same element whatever the order the elements arrive in. -/
namespace OceanBase
namespace Lib

variable {α β : Type*}

def cmpBy [LinearOrder β] (f : α → β) (a b : α) : Int :=
  if f a = f b then 0 else if f b < f a then 1 else -1

/-- The three-way comparison of two values: `-1`, `0` or `1` as the first is below, at or above
the second. -/
def cmp3 [LinearOrder β] (x y : β) : Int := if x < y then -1 else if x = y then 0 else 1

def thenCmp (c₁ c₂ : α → α → Int) (a b : α) : Int := if c₁ a b ≠ 0 then c₁ a b else c₂ a b

/-- The first comparison of a list that tells two elements apart, as a chain of `COMPARE_OUT`s
computes it. -/
def firstCmp : List (α → α → Int) → α → α → Int
  | [] => fun _ _ => 0
  | c :: cs => thenCmp c (firstCmp cs)

/-- Elements that fail `p` rank below the others and level with each other; `c` compares the
rest. -/
def guardCmp (p : α → Bool) (c : α → α → Int) (a b : α) : Int :=
  if p a then (if p b then c a b else 1) else (if p b then -1 else 0)

/-- `c` is a total preorder on `s`: swapping its arguments negates it, and `c · · ≤ 0` is
transitive. -/
structure TotalPreorderOn (c : α → α → Int) (s : Set α) : Prop where
  antisymm : ∀ a ∈ s, ∀ b ∈ s, c b a = -c a b
  trans : ∀ a ∈ s, ∀ b ∈ s, ∀ d ∈ s, c a b ≤ 0 → c b d ≤ 0 → c a d ≤ 0

structure StrictTotalOn (r : α → α → Prop) (s : Set α) : Prop where
  irrefl : ∀ a ∈ s, ¬ r a a
  trans : ∀ a ∈ s, ∀ b ∈ s, ∀ d ∈ s, r a b → r b d → r a d
  total : ∀ a ∈ s, ∀ b ∈ s, a ≠ b → r a b ∨ r b a

/-- `b` is above `a`: `c` puts `a` below `b`, or levels them and `b` has the smaller tie key. -/
def Above [LinearOrder β] (c : α → α → Int) (tie : α → β) (a b : α) : Prop :=
  c a b < 0 ∨ (c a b = 0 ∧ tie b < tie a)

/-! ## Three-way comparison of values -/

section Cmp3

variable [LinearOrder β] {x y : β}

theorem cmp3_of_lt (h : x < y) : cmp3 x y = -1 := by simp [cmp3,h]

theorem cmp3_of_gt (h : y < x) : cmp3 x y = 1 := by
  simp [cmp3,not_lt.mpr h.le,h.ne']

@[simp] theorem cmp3_self (x : β) : cmp3 x x = 0 := by simp [cmp3]

theorem cmp3_eq_zero_iff : cmp3 x y = 0 ↔ x = y := by
  rcases lt_trichotomy x y with h | h | h
  · simp [cmp3_of_lt h,h.ne]
  · simp [h]
  · simp [cmp3_of_gt h,h.ne']

theorem cmp3_swap (x y : β) : cmp3 y x = -cmp3 x y := by
  rcases lt_trichotomy x y with h | h | h
  · rw [cmp3_of_lt h,cmp3_of_gt h]
    rfl
  · simp [h]
  · rw [cmp3_of_gt h,cmp3_of_lt h]

theorem cmp3_map {γ : Type*} [LinearOrder γ] {f : β → γ} (hf : StrictMono f) (x y : β) :
    cmp3 (f x) (f y) = cmp3 x y := by
  rcases lt_trichotomy x y with h | h | h
  · rw [cmp3_of_lt h,cmp3_of_lt (hf h)]
  · simp [h]
  · rw [cmp3_of_gt h,cmp3_of_gt (hf h)]

theorem cmp3_neg {γ : Type*} [AddCommGroup γ] [LinearOrder γ] [IsOrderedAddMonoid γ] (x y : γ) :
    cmp3 (-x) (-y) = -cmp3 x y := by
  rw [← cmp3_swap x y]
  rcases lt_trichotomy x y with h | h | h
  · rw [cmp3_of_gt (neg_lt_neg h),cmp3_of_gt h]
  · simp [h]
  · rw [cmp3_of_lt (neg_lt_neg h),cmp3_of_lt h]

end Cmp3

/-! ## Comparison by a key -/

theorem cmpBy_nonpos_iff [LinearOrder β] (f : α → β) (a b : α) : cmpBy f a b ≤ 0 ↔ f a ≤ f b := by
  unfold cmpBy
  split_ifs with h₁ h₂
  · simp [h₁]
  · simp only [show ¬ (1 : Int) ≤ 0 by omega,false_iff,not_le]
    exact h₂
  · simp only [show (-1 : Int) ≤ 0 by omega,true_iff]
    exact not_lt.mp h₂

theorem cmpBy_swap [LinearOrder β] (f : α → β) (a b : α) : cmpBy f b a = -cmpBy f a b := by
  unfold cmpBy
  rcases lt_trichotomy (f a) (f b) with h | h | h
  · simp [h,h.ne,h.ne',not_lt.mpr h.le]
  · simp [h]
  · simp [h,h.ne,h.ne',not_lt.mpr h.le]

theorem totalPreorderOn_cmpBy [LinearOrder β] (f : α → β) (s : Set α) :
    TotalPreorderOn (cmpBy f) s where
  antisymm a _ b _ := cmpBy_swap f a b
  trans a _ b _ d _ hab hbd := (cmpBy_nonpos_iff f a d).mpr
    (((cmpBy_nonpos_iff f a b).mp hab).trans ((cmpBy_nonpos_iff f b d).mp hbd))

theorem totalPreorderOn_zero (s : Set α) : TotalPreorderOn (fun _ _ => 0) s :=
  ⟨fun _ _ _ _ => rfl,fun _ _ _ _ _ _ _ _ => le_refl 0⟩

theorem firstCmp_append (l₁ l₂ : List (α → α → Int)) (a b : α) :
    firstCmp (l₁ ++ l₂) a b = if firstCmp l₁ a b ≠ 0 then firstCmp l₁ a b else firstCmp l₂ a b := by
  induction l₁ with
  | nil => simp [firstCmp]
  | cons c cs ih =>
    simp only [List.cons_append,firstCmp,thenCmp,ih]
    split_ifs <;> simp_all

/-! ## Total preorders -/

namespace TotalPreorderOn

variable {c c₁ c₂ : α → α → Int} {s : Set α} {a b d : α}

theorem self_eq_zero (h : TotalPreorderOn c s) (ha : a ∈ s) : c a a = 0 := by
  have := h.antisymm a ha a ha
  omega

theorem mono (h : TotalPreorderOn c s) {t : Set α} (hts : t ⊆ s) : TotalPreorderOn c t where
  antisymm a ha b hb := h.antisymm a (hts ha) b (hts hb)
  trans a ha b hb d hd := h.trans a (hts ha) b (hts hb) d (hts hd)

theorem congr (h : TotalPreorderOn c s) (hc : ∀ a ∈ s, ∀ b ∈ s, c₁ a b = c a b) :
    TotalPreorderOn c₁ s where
  antisymm a ha b hb := by rw [hc a ha b hb,hc b hb a ha,h.antisymm a ha b hb]
  trans a ha b hb d hd hab hbd := by
    rw [hc a ha b hb] at hab
    rw [hc b hb d hd] at hbd
    rw [hc a ha d hd]
    exact h.trans a ha b hb d hd hab hbd

theorem comap {γ : Type*} {t : Set γ} {c' : γ → γ → Int} (h : TotalPreorderOn c' t) {f : α → γ}
    (hf : ∀ a ∈ s, f a ∈ t) : TotalPreorderOn (fun a b => c' (f a) (f b)) s where
  antisymm a ha b hb := h.antisymm _ (hf a ha) _ (hf b hb)
  trans a ha b hb d hd := h.trans _ (hf a ha) _ (hf b hb) _ (hf d hd)

theorem neg_of_neg_of_nonpos (h : TotalPreorderOn c s) (ha : a ∈ s) (hb : b ∈ s) (hd : d ∈ s)
    (hab : c a b < 0) (hbd : c b d ≤ 0) : c a d < 0 := by
  by_contra hn
  have hda : c d a ≤ 0 := by
    rw [h.antisymm a ha d hd]
    omega
  have hba := h.trans b hb d hd a ha hbd hda
  rw [h.antisymm a ha b hb] at hba
  omega

theorem neg_of_nonpos_of_neg (h : TotalPreorderOn c s) (ha : a ∈ s) (hb : b ∈ s) (hd : d ∈ s)
    (hab : c a b ≤ 0) (hbd : c b d < 0) : c a d < 0 := by
  by_contra hn
  have hda : c d a ≤ 0 := by
    rw [h.antisymm a ha d hd]
    omega
  have hdb := h.trans d hd a ha b hb hda hab
  rw [h.antisymm b hb d hd] at hdb
  omega

theorem zero_trans (h : TotalPreorderOn c s) (ha : a ∈ s) (hb : b ∈ s) (hd : d ∈ s)
    (hab : c a b = 0) (hbd : c b d = 0) : c a d = 0 := by
  have had := h.trans a ha b hb d hd hab.le hbd.le
  have hda := h.trans d hd b hb a ha (by rw [h.antisymm b hb d hd,hbd]; rfl)
    (by rw [h.antisymm a ha b hb,hab]; rfl)
  rw [h.antisymm a ha d hd] at hda
  omega

theorem thenCmp (h₁ : TotalPreorderOn c₁ s) (h₂ : TotalPreorderOn c₂ s) :
    TotalPreorderOn (Lib.thenCmp c₁ c₂) s where
  antisymm a ha b hb := by
    unfold Lib.thenCmp
    rw [h₁.antisymm a ha b hb,h₂.antisymm a ha b hb]
    split_ifs <;> omega
  trans a ha b hb d hd hab hbd := by
    unfold Lib.thenCmp at hab hbd ⊢
    by_cases h1ab : c₁ a b = 0 <;> by_cases h1bd : c₁ b d = 0
    · rw [if_neg (by simpa using h1ab)] at hab
      rw [if_neg (by simpa using h1bd)] at hbd
      rw [if_neg (by simpa using h₁.zero_trans ha hb hd h1ab h1bd)]
      exact h₂.trans a ha b hb d hd hab hbd
    · rw [if_pos h1bd] at hbd
      have had := h₁.neg_of_nonpos_of_neg ha hb hd h1ab.le (by omega)
      rw [if_pos had.ne]
      exact had.le
    · rw [if_pos h1ab] at hab
      have had := h₁.neg_of_neg_of_nonpos ha hb hd (by omega) h1bd.le
      rw [if_pos had.ne]
      exact had.le
    · rw [if_pos h1ab] at hab
      rw [if_pos h1bd] at hbd
      have had := h₁.neg_of_neg_of_nonpos ha hb hd (by omega) hbd
      rw [if_pos had.ne]
      exact had.le

theorem firstCmp {cs : List (α → α → Int)} (h : ∀ c ∈ cs, TotalPreorderOn c s) :
    TotalPreorderOn (Lib.firstCmp cs) s := by
  induction cs with
  | nil => exact totalPreorderOn_zero s
  | cons c cs ih =>
    exact (h c (List.mem_cons_self ..)).thenCmp (ih fun c' hc' => h c' (List.mem_cons_of_mem _ hc'))

theorem guardCmp {p : α → Bool} (h : TotalPreorderOn c {x | x ∈ s ∧ p x = true}) :
    TotalPreorderOn (Lib.guardCmp p c) s where
  antisymm a ha b hb := by
    unfold Lib.guardCmp
    cases hpa : p a <;> cases hpb : p b
    · simp
    · simp
    · simp
    · simpa using h.antisymm a ⟨ha,hpa⟩ b ⟨hb,hpb⟩
  trans a ha b hb d hd hab hbd := by
    unfold Lib.guardCmp at hab hbd ⊢
    cases hpa : p a <;> cases hpb : p b <;> cases hpd : p d <;>
      simp only [hpa,hpb,hpd,Bool.false_eq_true,if_false,if_true] at hab hbd ⊢ <;> try omega
    exact h.trans a ⟨ha,hpa⟩ b ⟨hb,hpb⟩ d ⟨hd,hpd⟩ hab hbd

theorem strictTotalOn_above [LinearOrder β] {tie : α → β} (h : TotalPreorderOn c s)
    (htie : Set.InjOn tie s) : StrictTotalOn (Above c tie) s where
  irrefl a ha := by
    rintro (h' | ⟨-,h'⟩)
    · have := h.self_eq_zero ha
      omega
    · exact lt_irrefl _ h'
  trans a ha b hb d hd hab hbd := by
    rcases hab with hab | ⟨hab,tab⟩ <;> rcases hbd with hbd | ⟨hbd,tbd⟩
    · exact .inl (h.neg_of_neg_of_nonpos ha hb hd hab hbd.le)
    · exact .inl (h.neg_of_neg_of_nonpos ha hb hd hab hbd.le)
    · exact .inl (h.neg_of_nonpos_of_neg ha hb hd hab.le hbd)
    · exact .inr ⟨h.zero_trans ha hb hd hab hbd,tbd.trans tab⟩
  total a ha b hb hne := by
    rcases lt_trichotomy (c a b) 0 with hlt | heq | hgt
    · exact .inl (.inl hlt)
    · have hba : c b a = 0 := by rw [h.antisymm a ha b hb,heq,neg_zero]
      rcases lt_or_gt_of_ne (fun ht => hne (htie ha hb ht)) with ht | ht
      · exact .inr (.inr ⟨hba,ht⟩)
      · exact .inl (.inr ⟨heq,ht⟩)
    · refine .inr (.inl ?_)
      rw [h.antisymm a ha b hb]
      omega

end TotalPreorderOn

theorem above_thenCmp [LinearOrder β] {c₁ c₂ : α → α → Int} {tie : α → β} {a b : α} :
    Above (thenCmp c₁ c₂) tie a b ↔ c₁ a b < 0 ∨ (c₁ a b = 0 ∧ Above c₂ tie a b) := by
  unfold Above thenCmp
  by_cases h : c₁ a b = 0
  · simp [h]
  · simp only [ne_eq,h,not_false_eq_true,if_true,false_and,or_false]

theorem above_zero [LinearOrder β] {tie : α → β} {a b : α} :
    Above (fun _ _ => 0) tie a b ↔ tie b < tie a := by
  simp [Above]

theorem StrictTotalOn.congr {r r' : α → α → Prop} {s : Set α} (h : StrictTotalOn r s)
    (hr : ∀ a ∈ s, ∀ b ∈ s, r' a b ↔ r a b) : StrictTotalOn r' s where
  irrefl a ha := by
    rw [hr a ha a ha]
    exact h.irrefl a ha
  trans a ha b hb d hd hab hbd := by
    rw [hr a ha b hb] at hab
    rw [hr b hb d hd] at hbd
    rw [hr a ha d hd]
    exact h.trans a ha b hb d hd hab hbd
  total a ha b hb hne := by
    rw [hr a ha b hb,hr b hb a ha]
    exact h.total a ha b hb hne

/-! ## The greatest element seen -/

def pick (above : α → α → Bool) : Option α → α → Option α
  | none, x => some x
  | some m, x => if above m x then some x else some m

section Pick

variable {above : α → α → Bool} {s : Set α}

theorem foldl_pick_greatest (h : StrictTotalOn (fun a b => above a b = true) s) {m : α} {l : List α}
    (hm : m ∈ s) (hl : ∀ x ∈ l, x ∈ s) :
    ∃ M, l.foldl (pick above) (some m) = some M ∧ M ∈ m :: l ∧
      ∀ x ∈ m :: l, x = M ∨ above x M = true := by
  induction l generalizing m with
  | nil => exact ⟨m,rfl,List.mem_singleton_self m,fun x hx => .inl (List.mem_singleton.mp hx)⟩
  | cons y l ih =>
    have hy : y ∈ s := hl y (List.mem_cons_self ..)
    have hl' : ∀ x ∈ l, x ∈ s := fun x hx => hl x (List.mem_cons_of_mem _ hx)
    obtain ⟨m',hm'my,hpick,hmy⟩ : ∃ m', m' ∈ [m,y] ∧ pick above (some m) y = some m' ∧
        ∀ x ∈ [m,y], x = m' ∨ above x m' = true := by
      by_cases hup : above m y = true
      · exact ⟨y,by simp,by simp [pick,hup],by simp [hup]⟩
      · refine ⟨m,by simp,by simp [pick,hup],?_⟩
        simp only [List.mem_cons,List.not_mem_nil,or_false,forall_eq_or_imp,forall_eq,true_or,
          true_and]
        by_cases hym : y = m
        · exact .inl hym
        · exact .inr ((h.total m hm y hy (Ne.symm hym)).resolve_left hup)
    have hm' : m' ∈ s := by
      rcases List.mem_cons.mp hm'my with rfl | h'
      · exact hm
      · rw [List.mem_singleton.mp h']
        exact hy
    obtain ⟨M,hfold,hM,hgreat⟩ := ih hm' hl'
    have hMs : M ∈ s := by
      rcases List.mem_cons.mp hM with rfl | hM
      · exact hm'
      · exact hl' M hM
    refine ⟨M,by rw [List.foldl_cons,hpick,hfold],?_,?_⟩
    · rcases List.mem_cons.mp hM with rfl | hM
      · simp only [List.mem_cons,List.not_mem_nil,or_false] at hm'my ⊢
        tauto
      · exact List.mem_cons_of_mem _ (List.mem_cons_of_mem _ hM)
    · intro x hx
      by_cases hxl : x ∈ l
      · exact hgreat x (List.mem_cons_of_mem _ hxl)
      have hxmy : x ∈ [m,y] := by
        simp only [List.mem_cons,List.not_mem_nil,or_false] at hx ⊢
        tauto
      have hxs : x ∈ s := by
        rcases List.mem_cons.mp hxmy with rfl | h'
        · exact hm
        · rw [List.mem_singleton.mp h']
          exact hy
      rcases hmy x hxmy with rfl | hxm
      · exact hgreat x (List.mem_cons_self ..)
      · rcases hgreat m' (List.mem_cons_self ..) with rfl | hm'M
        · exact .inr hxm
        · exact .inr (h.trans x hxs m' hm' M hMs hxm hm'M)

theorem StrictTotalOn.eq_of_greatest {r : α → α → Prop} (h : StrictTotalOn r s) {t : List α}
    (ht : ∀ x ∈ t, x ∈ s) {M M' : α} (hM : M ∈ t) (hM' : M' ∈ t) (hgM : ∀ x ∈ t, x = M ∨ r x M)
    (hgM' : ∀ x ∈ t, x = M' ∨ r x M') : M = M' := by
  rcases hgM M' hM' with h1 | h1
  · exact h1.symm
  rcases hgM' M hM with h2 | h2
  · exact h2
  exact absurd (h.trans M (ht M hM) M' (ht M' hM') M (ht M hM) h2 h1) (h.irrefl M (ht M hM))

theorem foldl_pick_perm (h : StrictTotalOn (fun a b => above a b = true) s) {l₁ l₂ : List α}
    (hp : l₁.Perm l₂) (hs : ∀ x ∈ l₁, x ∈ s) :
    l₁.foldl (pick above) none = l₂.foldl (pick above) none := by
  cases l₁ with
  | nil => rw [← hp.nil_eq]
  | cons a t₁ =>
    cases l₂ with
    | nil => exact absurd hp.eq_nil (List.cons_ne_nil _ _)
    | cons b t₂ =>
      have hs₂ : ∀ x ∈ b :: t₂, x ∈ s := fun x hx => hs x (hp.mem_iff.mpr hx)
      obtain ⟨M,h₁,hM,hg⟩ := foldl_pick_greatest h (hs a (List.mem_cons_self ..))
        (fun x hx => hs x (List.mem_cons_of_mem _ hx))
      obtain ⟨M',h₂,hM',hg'⟩ := foldl_pick_greatest h (hs₂ b (List.mem_cons_self ..))
        (fun x hx => hs₂ x (List.mem_cons_of_mem _ hx))
      simp only [List.foldl_cons,pick] at h₁ h₂ ⊢
      rw [h₁,h₂,h.eq_of_greatest hs hM (hp.mem_iff.mpr hM') hg
        (fun x hx => hg' x (hp.mem_iff.mp hx))]

end Pick

end Lib
end OceanBase

import Mathlib

/-! Runs of a transition system and the induction rule for their invariants.
A system is either a partial step function over actions (`Run`, the calls a caller
makes one after another, `none` when a call does not return) or a step relation
(`Reachable`, for systems whose next step is chosen by the environment). -/
namespace OceanBase
namespace Lib

variable {σ α : Type*}

/-- `Run step adm s as t`: the actions `as`, each admitted by `adm` in the state it is taken
from, lead from `s` to `t`. -/
inductive Run (step : σ → α → Option σ) (adm : σ → α → Prop) : σ → List α → σ → Prop
  | nil (s : σ) : Run step adm s [] s
  | cons {s t u : σ} {a : α} {as : List α} :
      adm s a → step s a = some t → Run step adm t as u → Run step adm s (a :: as) u

namespace Run

variable {step : σ → α → Option σ} {adm : σ → α → Prop}

theorem invariant (inv : σ → Prop)
    (hstep : ∀ s a t, inv s → adm s a → step s a = some t → inv t)
    {s t : σ} {as : List α} (h : Run step adm s as t) (hs : inv s) : inv t := by
  induction h with
  | nil => exact hs
  | cons ha hst _ ih => exact ih (hstep _ _ _ hs ha hst)

theorem monotone {β : Type*} [Preorder β] (f : σ → β)
    (hstep : ∀ s a t, adm s a → step s a = some t → f s ≤ f t)
    {s t : σ} {as : List α} (h : Run step adm s as t) : f s ≤ f t := by
  induction h with
  | nil => exact le_rfl
  | cons ha hst _ ih => exact le_trans (hstep _ _ _ ha hst) ih

theorem eq_add_length (f : σ → ℕ) (hstep : ∀ s a t, adm s a → step s a = some t → f t = f s + 1)
    {s t : σ} {as : List α} (h : Run step adm s as t) : f t = f s + as.length := by
  induction h with
  | nil => rfl
  | cons ha hst _ ih =>
    rw [ih,hstep _ _ _ ha hst,List.length_cons]
    omega

/-- Takes the actions one after another from `s`: `none` as soon as one is not admitted or
does not return. Runs on fixed inputs are checked through it, so that the kernel evaluates
every step once. -/
def exec (step : σ → α → Option σ) (adm : σ → α → Prop) [∀ s a, Decidable (adm s a)] :
    σ → List α → Option σ
  | s, [] => some s
  | s, a :: as => if adm s a then (step s a).bind fun t => exec step adm t as else none

theorem of_exec [∀ s a, Decidable (adm s a)] {s t : σ} {as : List α}
    (h : exec step adm s as = some t) : Run step adm s as t := by
  induction as generalizing s with
  | nil =>
    cases h
    exact .nil _
  | cons a as ih =>
    by_cases ha : adm s a
    · simp only [exec, ha, if_true, Option.bind_eq_some_iff] at h
      obtain ⟨u,hu,hrest⟩ := h
      exact .cons ha hu (ih hrest)
    · simp [exec, ha] at h

theorem of_exec_isSome [∀ s a, Decidable (adm s a)] {s d : σ} {as : List α}
    (h : (exec step adm s as).isSome = true) : Run step adm s as ((exec step adm s as).getD d) := by
  obtain ⟨t,ht⟩ := Option.isSome_iff_exists.mp h
  rw [ht]
  exact of_exec ht

end Run

def Reachable (init : σ → Prop) (step : σ → σ → Prop) (s : σ) : Prop :=
  ∃ s₀, init s₀ ∧ Relation.ReflTransGen step s₀ s

namespace Reachable

variable {init : σ → Prop} {step : σ → σ → Prop}

theorem tail {s t : σ} (h : Reachable init step s) (hst : step s t) : Reachable init step t := by
  obtain ⟨s₀,h₀,hr⟩ := h
  exact ⟨s₀,h₀,hr.tail hst⟩

theorem invariant (inv : σ → Prop) (hinit : ∀ s, init s → inv s)
    (hstep : ∀ s t, inv s → step s t → inv t) {s : σ} (h : Reachable init step s) : inv s := by
  obtain ⟨s₀,h₀,hr⟩ := h
  induction hr with
  | refl => exact hinit _ h₀
  | tail _ hst ih => exact hstep _ _ ih hst

end Reachable

end Lib
end OceanBase

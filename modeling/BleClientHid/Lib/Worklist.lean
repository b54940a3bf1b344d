import Mathlib.Data.List.Nodup
import Mathlib.Tactic.Common

/-! # Working through a plan

A plan is worked through from the front; a cut gives up what is left.
-/

namespace BleClientHid.Lib

variable {α : Type} {cut cut' : Prop} {plan done queue : List α} {a : α}

/-- `done` has been worked through and `queue` is left; only a cut drops the rest. -/
def Worklist (cut : Prop) (plan done queue : List α) : Prop :=
  ∃ dropped, plan = done ++ queue ++ dropped ∧ (dropped ≠ [] → cut)

namespace Worklist

theorem fresh (hplan : plan = queue) : Worklist cut plan [] queue :=
  ⟨[], by simp [hplan], by simp⟩

theorem next (h : Worklist cut plan done (a :: queue)) : Worklist cut plan (done ++ [a]) queue := by
  obtain ⟨dropped, rfl, hcut⟩ := h
  exact ⟨dropped, by simp, hcut⟩

theorem drop (h : Worklist cut plan done queue) (hcut : cut) : Worklist cut plan done [] := by
  obtain ⟨dropped, rfl, -⟩ := h
  exact ⟨queue ++ dropped, by simp, fun _ => hcut⟩

theorem mono (h : Worklist cut plan done queue) (hcut : cut → cut') : Worklist cut' plan done queue := by
  obtain ⟨dropped, heq, hdropped⟩ := h
  exact ⟨dropped, heq, hcut ∘ hdropped⟩

theorem of_nil (h : Worklist cut [] done queue) : done = [] ∧ queue = [] := by
  obtain ⟨dropped, heq, -⟩ := h
  have hnil := List.append_eq_nil_iff.mp heq.symm
  exact List.append_eq_nil_iff.mp hnil.1

theorem isPrefix (h : Worklist cut plan done queue) : done <+: plan := by
  obtain ⟨dropped, rfl, -⟩ := h
  rw [List.append_assoc]
  exact List.prefix_append _ _

theorem length_le (h : Worklist cut plan done queue) : queue.length ≤ plan.length := by
  obtain ⟨dropped, rfl, -⟩ := h
  simp
  omega

theorem complete (h : Worklist cut plan done []) (hcut : ¬cut) : done = plan := by
  obtain ⟨dropped, rfl, hdropped⟩ := h
  have hnil : dropped = [] := by
    by_contra hne
    exact hcut (hdropped hne)
  simp [hnil]

end Worklist

end BleClientHid.Lib

import Mathlib.Data.List.Forall2
import Mathlib.Data.List.TakeDrop
import Mathlib.Tactic.Common

/-! # A list up to a limit

What is left of a list when a shared total may not pass a limit, and the front of a
list taken entry by entry.
-/

namespace BleClientHid.Lib

section

variable {α : Type} {limit total : Nat} {l : List α}

/-- What there is still room for, behind `total` others. -/
def upTo (limit total : Nat) (l : List α) : List α := l.take (limit - total)

@[simp] theorem upTo_nil : upTo limit total ([] : List α) = [] := List.take_nil

theorem upTo_full (h : limit ≤ total) (l : List α) : upTo limit total l = [] := by
  rw [upTo, Nat.sub_eq_zero_of_le h, List.take_zero]

theorem upTo_cons (h : total < limit) (a : α) (l : List α) :
    upTo limit total (a :: l) = a :: upTo limit (total + 1) l := by
  have hroom : limit - total = (limit - (total + 1)) + 1 := by omega
  rw [upTo, hroom, List.take_succ_cons, upTo]

theorem upTo_isPrefix (limit total : Nat) (l : List α) : upTo limit total l <+: l := List.take_prefix _ _

theorem length_upTo : (upTo limit total l).length = min (limit - total) l.length := List.length_take

theorem total_add_length_upTo (h : total ≤ limit) : total + (upTo limit total l).length ≤ limit := by
  rw [length_upTo]
  omega

theorem upTo_eq_self_iff (h : total ≤ limit) : upTo limit total l = l ↔ total + l.length ≤ limit := by
  rw [upTo, List.take_eq_self_iff]
  omega

theorem upTo_eq_self_of_lt (h : total + (upTo limit total l).length < limit) : upTo limit total l = l := by
  rw [length_upTo] at h
  exact List.take_of_length_le (by omega)

end

/-- Entry by entry the front of a list. -/
def Front {α β : Type} (R : α → β → Prop) (kept : List α) (l : List β) : Prop :=
  List.Forall₂ R kept (l.take kept.length)

theorem Front.of_take {α β : Type} {R : α → β → Prop} {kept : List α} {l : List β} (n : Nat)
    (h : List.Forall₂ R kept (l.take n)) : Front R kept l := by
  have hlen := h.length_eq
  rw [Front, hlen, List.length_take, ← List.take_take, List.take_length]
  exact h

end BleClientHid.Lib

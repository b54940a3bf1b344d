import Mathlib.Algebra.GroupWithZero.Nat
import Mathlib.Data.List.Basic
import Mathlib.Tactic.Common

/-! # Tilings

A list of items, each with a start and a size, that covers an interval of the
natural numbers from left to right.
-/

namespace BleClientHid.Lib

variable {α : Type} (start size : α → Nat)

/-- The items cover `[lo, hi)` one after the other. -/
def Tiles : Nat → List α → Nat → Prop
  | lo, [], hi => lo = hi
  | lo, x :: xs, hi => start x = lo ∧ Tiles (lo + size x) xs hi

variable {start size}

theorem Tiles.append_singleton {lo hi : Nat} {l : List α} {x : α} (h : Tiles start size lo l hi)
    (hx : start x = hi) : Tiles start size lo (l ++ [x]) (hi + size x) := by
  induction l generalizing lo with
  | nil =>
    obtain rfl : lo = hi := h
    exact ⟨hx, rfl⟩
  | cons y ys ih => exact ⟨h.1, ih h.2⟩

theorem Tiles.split {lo hi : Nat} {xs ys : List α} (h : Tiles start size lo (xs ++ ys) hi) :
    ∃ mid, Tiles start size lo xs mid ∧ Tiles start size mid ys hi := by
  induction xs generalizing lo with
  | nil => exact ⟨lo, rfl, h⟩
  | cons x xs ih =>
    obtain ⟨mid, hxs, hys⟩ := ih h.2
    exact ⟨mid, ⟨h.1, hxs⟩, hys⟩

theorem Tiles.le {lo hi : Nat} {l : List α} (h : Tiles start size lo l hi) : lo ≤ hi := by
  induction l generalizing lo with
  | nil => exact Nat.le_of_eq h
  | cons y ys ih => exact Nat.le_trans (Nat.le_add_right _ _) (ih h.2)

theorem Tiles.sum {lo hi : Nat} {l : List α} (h : Tiles start size lo l hi) : hi = lo + (l.map size).sum := by
  induction l generalizing lo with
  | nil => exact h.symm
  | cons y ys ih =>
    rw [ih h.2, List.map_cons, List.sum_cons, Nat.add_assoc]

theorem Tiles.inside {lo hi : Nat} {l : List α} (h : Tiles start size lo l hi) :
    ∀ x ∈ l, lo ≤ start x ∧ start x + size x ≤ hi := by
  induction l generalizing lo with
  | nil => simp
  | cons y ys ih =>
    obtain ⟨rfl, hys⟩ := h
    intro x hx
    rcases List.mem_cons.mp hx with rfl | hx
    · exact ⟨Nat.le_refl _, hys.le⟩
    · obtain ⟨h1, h2⟩ := ih hys x hx
      exact ⟨by omega, h2⟩

theorem Tiles.pairwise {lo hi : Nat} {l : List α} (h : Tiles start size lo l hi) :
    l.Pairwise fun x y => start x + size x ≤ start y := by
  induction l generalizing lo with
  | nil => exact .nil
  | cons y ys ih =>
    obtain ⟨rfl, hys⟩ := h
    exact .cons (fun x hx => (hys.inside x hx).1) (ih hys)

end BleClientHid.Lib

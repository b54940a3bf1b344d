import Mathlib.Data.List.DropRight
import Mathlib.Tactic.Common

/-! # Looking back

What a list says at its end: its elements with what stands in front of them, and the last
element of a kind.
-/

namespace BleClientHid.Lib

variable {α : Type}

/-! ## Elements with their past -/

def withPastFrom : List α → List α → List (List α × α)
  | _, [] => []
  | before, a :: rest => (before, a) :: withPastFrom (before ++ [a]) rest

/-- Every element with the elements in front of it. -/
def withPast (l : List α) : List (List α × α) := withPastFrom [] l

@[simp]
theorem withPast_nil : withPast ([] : List α) = [] := rfl

theorem withPastFrom_concat (before l : List α) (a : α) :
    withPastFrom before (l ++ [a]) = withPastFrom before l ++ [(before ++ l, a)] := by
  induction l generalizing before with
  | nil => simp [withPastFrom]
  | cons first rest ih => simp [withPastFrom, ih]

theorem withPast_concat (l : List α) (a : α) : withPast (l ++ [a]) = withPast l ++ [(l, a)] :=
  withPastFrom_concat [] l a

/-! ## The last of a kind -/

/-- The last element with the property. -/
def latest (p : α → Bool) (l : List α) : Option α := (l.filter p).getLast?

@[simp]
theorem latest_nil (p : α → Bool) : latest p [] = none := rfl

theorem latest_concat (p : α → Bool) (l : List α) (a : α) :
    latest p (l ++ [a]) = if p a then some a else latest p l := by
  unfold latest
  by_cases ha : p a <;> simp [ha]

/-- Without what stands behind the last element with the property. -/
def upToLatest (p : α → Bool) (l : List α) : List α := l.rdropWhile fun a => !p a

theorem upToLatest_concat (p : α → Bool) (l : List α) (a : α) :
    upToLatest p (l ++ [a]) = if p a then l ++ [a] else upToLatest p l := by
  unfold upToLatest
  rw [List.rdropWhile_concat]
  by_cases ha : p a <;> simp [ha]

end BleClientHid.Lib

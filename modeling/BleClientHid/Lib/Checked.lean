import Mathlib.Algebra.Group.Int.Defs
import Mathlib.Algebra.Group.Nat.Defs
import Mathlib.Tactic.Common

/-! # Checked evaluation

Reads, writes and numbers of a fixed width that stop where the unchecked ones would leave the
memory or lose bits. What a checked evaluation ends with, the unchecked one computes as well.
-/

namespace BleClientHid.Lib

inductive Fault where
  | outOfRange
  | wraps
  | refused
  | outOfFuel
  deriving DecidableEq, Repr

abbrev Checked := Except Fault

variable {α β : Type}

def getAt (l : List α) (i : Nat) : Checked α :=
  match l[i]? with
  | some a => .ok a
  | none => .error .outOfRange

def setAt (l : List α) (i : Nat) (a : α) : Checked (List α) :=
  if i < l.length then .ok (l.set i a) else .error .outOfRange

/-- The `n` elements from `i` on. -/
def sliceAt (l : List α) (i n : Nat) : Checked (List α) :=
  if i + n ≤ l.length then .ok ((l.drop i).take n) else .error .outOfRange

/-- A number in an unsigned type of `width` bits. -/
def fits (width n : Nat) : Checked Nat := if n < 2 ^ width then .ok n else .error .wraps

def fitsInt (width : Nat) (v : Int) : Checked Nat :=
  if 0 ≤ v ∧ v < 2 ^ width then .ok v.toNat else .error .wraps

@[simp]
theorem ok_bind {ε : Type} (a : α) (f : α → Except ε β) : (Except.ok a >>= f) = f a := rfl

@[simp]
theorem pure_ok {ε : Type} (a : α) : (pure a : Except ε α) = .ok a := rfl

theorem getAt_of_lt {l : List α} {i : Nat} (h : i < l.length) (d : α) : getAt l i = .ok (l.getD i d) := by
  rw [getAt, List.getD_eq_getElem?_getD, List.getElem?_eq_getElem h]
  rfl

theorem getAt_of_getElem? {l : List α} {i : Nat} {a : α} (h : l[i]? = some a) : getAt l i = .ok a := by
  rw [getAt, h]

theorem setAt_of_lt {l : List α} {i : Nat} (h : i < l.length) (a : α) : setAt l i a = .ok (l.set i a) := if_pos h

theorem sliceAt_of_le {l : List α} {i n : Nat} (h : i + n ≤ l.length) : sliceAt l i n = .ok ((l.drop i).take n) :=
  if_pos h

theorem sliceAt_append (front slice back : List α) :
    sliceAt (front ++ slice ++ back) front.length slice.length = .ok slice := by
  rw [sliceAt_of_le (by simp), List.append_assoc, List.drop_left, List.take_left]

theorem fits_of_lt {width n : Nat} (h : n < 2 ^ width) : fits width n = .ok n := if_pos h

theorem fitsInt_of_lt {width : Nat} {v : Int} (h0 : 0 ≤ v) (h : v < 2 ^ width) : fitsInt width v = .ok v.toNat :=
  if_pos ⟨h0, h⟩

/-- A loop none of whose rounds faults, as long as they keep what the next one needs. -/
theorem foldlM_ok {ε : Type} {f : β → α → Except ε β} {g : β → α → β} {I : β → Prop} {l : List α} {b : β}
    (h0 : I b) (hstep : ∀ b, I b → ∀ a ∈ l, f b a = .ok (g b a) ∧ I (g b a)) :
    l.foldlM f b = .ok (l.foldl g b) ∧ I (l.foldl g b) := by
  induction l generalizing b with
  | nil => exact ⟨rfl, h0⟩
  | cons a l ih =>
    obtain ⟨hf, hg⟩ := hstep b h0 a (by simp)
    rw [List.foldlM_cons, List.foldl_cons, hf]
    exact ih hg fun b hb c hc => hstep b hb c (List.mem_cons_of_mem _ hc)

theorem mapM_ite {ε : Type} {f : α → Except ε β} {p : α → Prop} [DecidablePred p] {g : α → β} {e : ε} {l : List α}
    (h : ∀ a ∈ l, f a = if p a then .ok (g a) else .error e) :
    l.mapM f = if ∀ a ∈ l, p a then .ok (l.map g) else .error e := by
  induction l with
  | nil => rfl
  | cons a l ih =>
    rw [List.mapM_cons, h a (by simp), ih fun b hb => h b (List.mem_cons_of_mem a hb)]
    by_cases ha : p a
    · by_cases hl : ∀ b ∈ l, p b
      · rw [if_pos ha, if_pos hl, if_pos (by simpa [ha] using hl)]
        rfl
      · rw [if_pos ha, if_neg hl, if_neg fun hall => hl fun b hb => hall b (List.mem_cons_of_mem a hb)]
        rfl
    · have hnot : ¬∀ b ∈ a :: l, p b := fun hall => ha (hall a List.mem_cons_self)
      rw [if_neg ha, if_neg hnot]
      rfl

end BleClientHid.Lib

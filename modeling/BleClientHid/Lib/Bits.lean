import Mathlib.Data.Nat.Bitwise
import Mathlib.Tactic.Positivity
import Mathlib.Tactic.Ring
import Mathlib.Tactic.Zify

/-! # Bits of a number, least significant first -/

namespace BleClientHid.Lib

theorem and_one_shiftLeft_ne_zero (n k : Nat) : n &&& 1 <<< k ≠ 0 ↔ n.testBit k = true := by
  rw [Nat.one_shiftLeft, Nat.and_two_pow]
  cases n.testBit k <;> simp

/-! ## Numbers made of bits -/

/-- The number with bit `i` set when `p i`, for `i < n`. -/
def ofBits (p : Nat → Bool) (n : Nat) : Nat :=
  (List.range n).foldl (fun raw bit => if p bit then raw ||| 1 <<< bit else raw) 0

theorem ofBits_succ (p : Nat → Bool) (n : Nat) :
    ofBits p (n + 1) = if p n then ofBits p n ||| 1 <<< n else ofBits p n := by
  simp [ofBits, List.range_succ]

theorem ofBits_eq (p : Nat → Bool) (n : Nat) : ofBits p n = Nat.ofBits fun i : Fin n => p i := by
  induction n with
  | zero => rfl
  | succ n ih =>
    apply Nat.eq_of_testBit_eq
    intro i
    rw [ofBits_succ, ih, Nat.testBit_ofBits]
    cases hp : p n with
    | false =>
      rw [if_neg (by decide), Nat.testBit_ofBits]
      by_cases hi : i = n
      · simp [hi, hp]
      · simp [show i < n + 1 ↔ i < n by omega]
    | true =>
      rw [if_pos rfl, Nat.testBit_or, Nat.one_shiftLeft, Nat.testBit_two_pow, Nat.testBit_ofBits]
      by_cases hi : i = n
      · simp [hi, hp]
      · simp [show i < n + 1 ↔ i < n by omega, Ne.symm hi]

theorem testBit_ofBits (p : Nat → Bool) (n i : Nat) :
    (ofBits p n).testBit i = (decide (i < n) && p i) := by
  rw [ofBits_eq, Nat.testBit_ofBits]
  by_cases hi : i < n <;> simp [hi]

theorem ofBits_lt (p : Nat → Bool) (n : Nat) : ofBits p n < 2 ^ n := ofBits_eq p n ▸ Nat.ofBits_lt_two_pow _

theorem ofBits_congr {p q : Nat → Bool} {n : Nat} (h : ∀ i < n, p i = q i) : ofBits p n = ofBits q n := by
  rw [ofBits_eq, ofBits_eq]
  exact congrArg Nat.ofBits (funext fun i => h i i.isLt)

theorem ofBits_testBit {x n : Nat} (h : x < 2 ^ n) : ofBits x.testBit n = x := by
  rw [ofBits_eq, Nat.ofBits_testBit, Nat.mod_eq_of_lt h]

/-! ## Two's complement -/

/-- The integer that `n` bits with the unsigned value `raw` stand for. -/
def twosComplement (n raw : Nat) : Int :=
  if raw < 2 ^ (n - 1) then raw else (raw : Int) - 2 ^ n

/-- The `n` low bits of an integer, as an unsigned number. -/
def lowBits (n : Nat) (v : Int) : Nat := (v % 2 ^ n).toNat

theorem two_pow_eq {n : Nat} (hn : 1 ≤ n) : (2 : Int) ^ n = 2 * 2 ^ (n - 1) := by
  obtain ⟨k, rfl⟩ := Nat.exists_eq_add_of_le' hn
  rw [Nat.add_sub_cancel, pow_succ]
  ring

theorem lowBits_lt (n : Nat) (v : Int) : lowBits n v < 2 ^ n := by
  have hpos : (0 : Int) < 2 ^ n := by positivity
  have h1 := Int.emod_lt_of_pos v hpos
  have h0 := Int.emod_nonneg v (Int.ne_of_gt hpos)
  unfold lowBits
  zify
  omega

theorem lowBits_of_nonneg {n : Nat} {v : Int} (h0 : 0 ≤ v) (h1 : v < 2 ^ n) : (lowBits n v : Int) = v := by
  rw [lowBits, Int.emod_eq_of_lt h0 h1, Int.toNat_of_nonneg h0]

theorem twosComplement_lowBits {n : Nat} {v : Int} (hn : 1 ≤ n) (h0 : -2 ^ (n - 1) ≤ v)
    (h1 : v < 2 ^ (n - 1)) : twosComplement n (lowBits n v) = v := by
  have hpow := two_pow_eq hn
  have hpos : (0 : Int) < 2 ^ (n - 1) := by positivity
  unfold twosComplement
  rcases Int.lt_or_le v 0 with hneg | hnonneg
  · have hmod : (lowBits n v : Int) = v + 2 ^ n := by
      rw [lowBits, ← Int.add_emod_right, Int.emod_eq_of_lt (by omega) (by omega),
        Int.toNat_of_nonneg (by omega)]
    rw [if_neg (by zify; omega), hmod]
    omega
  · have hmod := lowBits_of_nonneg (n := n) hnonneg (by omega)
    rw [if_pos (by zify; omega), hmod]

end BleClientHid.Lib

import BleClientHid.HidParser.Decode

/-! # The two signed decoders

`read_bits_` and `decode_signed_hid_item` extend a sign in different ways. Both compute the
two's complement integer of their bits.
-/

namespace BleClientHid

namespace Lib

/-! ## Weights -/

def bitSum (p : Nat → Bool) : Nat → Nat
  | 0 => 0
  | n + 1 => bitSum p n + if p n then 2 ^ n else 0

/-- In two's complement the last bit weighs `-2 ^ (n - 1)`. -/
def signedBitSum (p : Nat → Bool) (n : Nat) : Int :=
  (bitSum p (n - 1) : Int) - if p (n - 1) then 2 ^ (n - 1) else 0

theorem ofBits_eq_bitSum (p : Nat → Bool) (n : Nat) : ofBits p n = bitSum p n := by
  induction n with
  | zero => rfl
  | succ n ih =>
    rw [ofBits_succ, bitSum, ← ih]
    split
    · have hor := Nat.two_pow_add_eq_or_of_lt (ofBits_lt p n) 1
      rw [Nat.mul_one] at hor
      rw [Nat.one_shiftLeft, Nat.or_comm, ← hor, Nat.add_comm]
    · rfl

theorem twosComplement_ofBits {p : Nat → Bool} {n : Nat} (hn : 1 ≤ n) :
    twosComplement n (ofBits p n) = signedBitSum p n := by
  obtain ⟨k, rfl⟩ := Nat.exists_eq_add_of_le' hn
  have hlt : bitSum p k < 2 ^ k := ofBits_eq_bitSum p k ▸ ofBits_lt p k
  have hpow := two_pow_eq hn
  rw [twosComplement, ofBits_eq_bitSum, signedBitSum, hpow, Nat.add_sub_cancel, bitSum]
  split_ifs with hp h h
  · omega
  · push_cast
    ring
  · simp
  · omega

theorem twosComplement_range {n raw : Nat} (hn : 1 ≤ n) (h : raw < 2 ^ n) :
    -2 ^ (n - 1) ≤ twosComplement n raw ∧ twosComplement n raw < 2 ^ (n - 1) := by
  have hpow := two_pow_eq hn
  unfold twosComplement
  zify at h
  split
  · rename_i hlt
    zify at hlt
    omega
  · rename_i hge
    zify at hge
    omega

end Lib

namespace HidParser

open Lib HIDReportMap

/-! ## Items -/

theorem testBit_readUnsignedItem (data : List UInt8) (i : Nat) :
    (readUnsignedItem data).testBit i = (decide (i < 8 * data.length) && bitSet data i) := by
  have hloop : ∀ n,
      ((List.range n).foldl (fun value j => value ||| (data.getD j 0).toNat <<< (8 * j)) 0).testBit i =
        (decide (i < 8 * n) && bitSet data i) := by
    intro n
    induction n with
    | zero => simp
    | succ n ih =>
      have hbyte : (data.getD n 0).toNat < 2 ^ 8 := (data.getD n 0).toNat_lt
      rw [List.range_succ, List.foldl_append, List.foldl_cons, List.foldl_nil, Nat.testBit_or, ih,
        Nat.testBit_shiftLeft, bitSet_eq_testBit]
      rcases Nat.lt_or_ge i (8 * n) with hlt | hge
      · -- a bit of an earlier byte
        simp [hlt, show ¬ 8 * n ≤ i by omega, show i < 8 * (n + 1) by omega]
      rcases Nat.lt_or_ge i (8 * (n + 1)) with hin | hout
      · -- a bit of this one
        have hdiv : i / 8 = n := by omega
        have hmod : i % 8 = i - 8 * n := by omega
        simp [hge, hin, hdiv, hmod, show ¬ i < 8 * n by omega]
      · -- and none behind it
        have hzero : (data.getD n 0).toNat.testBit (i - 8 * n) = false :=
          Nat.testBit_lt_two_pow (Nat.lt_of_lt_of_le hbyte (Nat.pow_le_pow_right (by omega) (by omega)))
        rw [hzero]
        simp [show ¬ i < 8 * n by omega, show ¬ i < 8 * (n + 1) by omega]
  exact hloop data.length

theorem readUnsignedItem_eq (data : List UInt8) :
    readUnsignedItem data = ofBits (bitSet data) (8 * data.length) := by
  apply Nat.eq_of_testBit_eq
  intro i
  rw [testBit_readUnsignedItem, testBit_ofBits]

theorem hidItemDataSize_cases (p : Nat) :
    hidItemDataSize p = 0 ∨ hidItemDataSize p = 1 ∨ hidItemDataSize p = 2 ∨ hidItemDataSize p = 4 := by
  have hcode : p &&& 0x03 < 4 := Nat.lt_of_le_of_lt Nat.and_le_right (by decide)
  unfold hidItemDataSize
  dsimp only
  split <;> omega

theorem decodeSignedHidItem_eq (value p : Nat) (hp : hidItemDataSize p ≠ 0) :
    decodeSignedHidItem value p =
      twosComplement (8 * hidItemDataSize p) (value % 2 ^ (8 * hidItemDataSize p)) := by
  have hbits : 1 ≤ 8 * hidItemDataSize p := by omega
  have hlt : value % 2 ^ (8 * hidItemDataSize p) < 2 ^ (8 * hidItemDataSize p) :=
    Nat.mod_lt _ (Nat.two_pow_pos _)
  have hsign := testBit_top hbits hlt
  rw [← and_one_shiftLeft_ne_zero, Nat.one_shiftLeft] at hsign
  unfold decodeSignedHidItem
  rw [if_neg hp]
  simp only [Nat.mul_comm (hidItemDataSize p) 8, Nat.and_two_pow_sub_one_eq_mod]
  unfold twosComplement
  -- the mask keeps the sign bit exactly when half of the range is reached
  split_ifs with h h' h'
  · rw [hsign] at h
    omega
  · rfl
  · rfl
  · rw [hsign] at h
    omega

theorem decodeSignedHidItem_range (value p : Nat) :
    -2 ^ 31 ≤ decodeSignedHidItem value p ∧ decodeSignedHidItem value p < 2 ^ 31 := by
  by_cases hp : hidItemDataSize p = 0
  · simp [decodeSignedHidItem, hp]
  · rw [decodeSignedHidItem_eq value p hp]
    have hrange := twosComplement_range (n := 8 * hidItemDataSize p) (by omega)
      (Nat.mod_lt value (Nat.two_pow_pos _))
    rcases hidItemDataSize_cases p with h | h | h | h <;> rw [h] at hrange hp ⊢ <;> omega

/-! ## Both decoders -/

def bitAt (data : List UInt8) (pos : Nat) : Bool := (data.getD (pos / 8) 0).toNat.testBit (pos % 8)

theorem bitSet_eq_bitAt (data : List UInt8) : bitSet data = bitAt data := funext (bitSet_eq_testBit data)

/-- `read_bits_` where `size_t` has 32 bits too: the bit count of the array and every position wrap. -/
def readBits32 (data : List UInt8) (bitOffset bitSize : Nat) (signedValue : Bool) : Option Int :=
  let bits := data.length * 8 % 2 ^ 32
  if bitSize = 0 ∨ bitSize > 32 ∨ bitOffset > bits ∨ bitSize > bits - bitOffset then none
  else
    let raw := (List.range bitSize).foldl
      (fun raw bit => if bitSet data ((bitOffset + bit) % 2 ^ 32) then raw ||| 1 <<< bit else raw) 0
    some (if signedValue then toInt32 (signExtend raw bitSize) else raw)

theorem readBits32_eq {data : List UInt8} (h : data.length < 2 ^ 29) (off n : Nat) (signedValue : Bool) :
    readBits32 data off n signedValue = readBits data off n signedValue := by
  have hbits : data.length * 8 % 2 ^ 32 = data.length * 8 := Nat.mod_eq_of_lt (by omega)
  unfold readBits32 readBits
  simp only [hbits]
  split
  · rfl
  · have hraw : (List.range n).foldl (fun raw bit => if bitSet data ((off + bit) % 2 ^ 32) then raw ||| 1 <<< bit
        else raw) 0 = gatherBits data off n := by
      apply ofBits_congr
      intro i hi
      rw [Nat.mod_eq_of_lt (by omega)]
    rw [hraw]

/-- `read_bits_` weighs the bits of its window, the last one negatively when it is signed. On the data of an
item the other decoder does the same. -/
theorem signed_decoders_exact :
    (∀ (data : List UInt8) (off n : Nat) (signedValue : Bool), 1 ≤ n → n ≤ 32 → off + n ≤ 8 * data.length →
      readBits data off n signedValue =
        some (if signedValue then signedBitSum (fun i => bitAt data (off + i)) n
          else (bitSum (fun i => bitAt data (off + i)) n : Int))) ∧
    (∀ (p : UInt8) (data : List UInt8), p.toNat &&& 0x03 ≠ 0 → data.length = hidItemDataSize p.toNat →
      some (decodeSignedHidItem (readUnsignedItem data) p.toNat) = readBits data 0 (8 * data.length) true) ∧
    ∀ (data : List UInt8) (off n : Nat) (signedValue : Bool), data.length < 2 ^ 29 →
      readBits32 data off n signedValue = readBits data off n signedValue := by
  refine ⟨?_, ?_, fun data off n signedValue hdata => readBits32_eq hdata off n signedValue⟩
  · intro data off n signedValue hn hn32 hin
    rw [readBits_eq signedValue hn hn32 (by omega), bitsValue, twosComplement_ofBits hn, ofBits_eq_bitSum,
      bitSet_eq_bitAt]
  · intro p data hcode hdata
    have hp : hidItemDataSize p.toNat ≠ 0 := by
      unfold hidItemDataSize
      dsimp only
      split <;> omega
    have hsize := hidItemDataSize_cases p.toNat
    have hvalue : readUnsignedItem data < 2 ^ (8 * data.length) := readUnsignedItem_eq data ▸ ofBits_lt _ _
    rw [decodeSignedHidItem_eq _ _ hp, ← hdata, Nat.mod_eq_of_lt hvalue,
      readBits_eq true (by omega) (by omega) (by omega), bitsValue, if_pos rfl, readUnsignedItem_eq]
    simp only [Nat.zero_add]

theorem signed_decoders_exact_twelve :
    readBits [0x01, 0xF8] 4 12 true = some (signedBitSum (fun i => bitAt [0x01, 0xF8] (4 + i)) 12) ∧
      some (decodeSignedHidItem (readUnsignedItem [0x01, 0xF8]) (0x16 : UInt8).toNat) =
        readBits [0x01, 0xF8] 0 16 true ∧
      readBits32 [0x01, 0xF8] 4 12 true = readBits [0x01, 0xF8] 4 12 true :=
  ⟨signed_decoders_exact.1 [0x01, 0xF8] 4 12 true (by decide) (by decide) (by decide),
    signed_decoders_exact.2.1 0x16 [0x01, 0xF8] (by decide) (by decide),
    signed_decoders_exact.2.2 [0x01, 0xF8] 4 12 true (by decide)⟩

end HidParser

end BleClientHid

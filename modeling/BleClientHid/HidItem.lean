import Mathlib.Data.Nat.Bitwise
import Mathlib.Tactic.Common

/-! # HID short items

Size codes and the two ways to read the data of a short item.
-/

namespace BleClientHid

/-- A byte array handed over as a pointer and a length. -/
inductive Buffer where
  | null (length : Nat)
  | bytes (data : List UInt8)
  deriving DecidableEq, Repr

def Buffer.length : Buffer → Nat
  | .null n => n
  | .bytes data => data.length

/-- Code 3 stands for four data bytes, the other codes for themselves. -/
def hidItemDataSize (itemInfo : Nat) : Nat :=
  let encodedSize := itemInfo &&& 0x03
  if encodedSize = 3 then 4 else encodedSize

def decodeSignedHidItem (value itemInfo : Nat) : Int :=
  let byteCount := hidItemDataSize itemInfo
  if byteCount = 0 then 0
  else
    let bitCount := byteCount * 8
    let valueMask := 2 ^ bitCount - 1
    let signBit := 2 ^ (bitCount - 1)
    let value := value &&& valueMask
    if value &&& signBit ≠ 0 then (value : Int) - 2 ^ bitCount else value

/-- Little endian, as `read_unsigned_item` builds it byte by byte. -/
def readUnsignedItem (data : List UInt8) : Nat :=
  (List.range data.length).foldl (fun value i => value ||| (data.getD i 0).toNat <<< (8 * i)) 0

end BleClientHid

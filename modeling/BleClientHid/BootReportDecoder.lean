import BleClientHid.HidParser.Schema
import Mathlib.Logic.Function.Basic

/-! # Boot report decoding

`HIDBootReportDecoder::decode`, with a memory for each characteristic handle.
-/

namespace BleClientHid

namespace BootReportDecoder

def bootKeyboardInputUuid : Nat := 0x2A22
def bootMouseInputUuid : Nat := 0x2A33

end BootReportDecoder

/-- An absent handle reads as the default, as `operator[]` does. -/
structure HIDBootReportDecoder where
  keyboardModifiers : Nat → List Bool := fun _ => List.replicate 8 false
  keyboardKeys : Nat → List Nat := fun _ => []
  mouseButtons : Nat → Nat := fun _ => 0

namespace BootReportDecoder

def reset (_ : HIDBootReportDecoder) : HIDBootReportDecoder := {}

/-! ## Mouse -/

def mouseApplication : HIDUsage := { usage := 0x02, page := 0x01 }

def mouseButtonValue (bit : Nat) (active : Bool) : HIDReportItemValue :=
  { usage := { usage := bit + 1, page := 0x09 }
    value := if active then 1 else 0
    rawValue := if active then 1 else 0
    fieldId := 0xF000 + bit
    applicationUsage := mouseApplication }

def mouseAxisValue (usage fieldId : Nat) (move : Int) : HIDReportItemValue :=
  { usage := { usage, page := 0x01 }
    value := move
    rawValue := move
    fieldId
    applicationUsage := mouseApplication
    isRelative := true
    aggregation := .sum }

def toInt8 (byte : UInt8) : Int := if byte.toNat < 128 then byte.toNat else (byte.toNat : Int) - 256

def mouseButtonValues (previous buttons : Nat) : List HIDReportItemValue :=
  (List.range 3).filterMap fun bit =>
    if buttons.testBit bit != previous.testBit bit then some (mouseButtonValue bit (buttons.testBit bit))
    else none

def mouseAxisValues (usage fieldId : Nat) (move : Int) : List HIDReportItemValue :=
  if move ≠ 0 then [mouseAxisValue usage fieldId move] else []

def decodeMouse (d : HIDBootReportDecoder) (handle : Nat) (data : List UInt8) :
    HIDBootReportDecoder × List HIDReportItemValue :=
  let buttons := (data.getD 0 0).toNat
  ({ d with mouseButtons := Function.update d.mouseButtons handle buttons },
    mouseButtonValues (d.mouseButtons handle) buttons ++
      mouseAxisValues 0x30 0xF010 (toInt8 (data.getD 1 0)) ++
      mouseAxisValues 0x31 0xF011 (toInt8 (data.getD 2 0)))

/-! ## Keyboard -/

def keyboardApplication : HIDUsage := { usage := 0x06, page := 0x01 }

def modifierValue (bit : Nat) (active : Bool) : HIDReportItemValue :=
  { usage := { usage := 0xE0 + bit, page := 0x07 }
    value := if active then 1 else 0
    rawValue := if active then 1 else 0
    fieldId := 0xF100 + bit
    applicationUsage := keyboardApplication }

def keyValue (key : Nat) (value rawValue : Int) : HIDReportItemValue :=
  { usage := { usage := key, page := 0x07 }
    value
    rawValue
    fieldId := 0xF200
    applicationUsage := keyboardApplication }

/-- `insert` into a `std::set`: ascending, without repetition. -/
def insertKey (key : Nat) : List Nat → List Nat
  | [] => [key]
  | k :: ks =>
    if key < k then key :: k :: ks
    else if key = k then k :: ks
    else k :: insertKey key ks

def modifierBits (data : List UInt8) : List Bool :=
  (List.range 8).map fun bit => (data.getD 0 0).toNat.testBit bit

def modifierValues (previous current : List Bool) : List HIDReportItemValue :=
  (List.range 8).filterMap fun bit =>
    let active := current.getD bit false
    if previous.getD bit false != active then some (modifierValue bit active) else none

def currentKeys (data : List UInt8) : List Nat :=
  (List.range 6).foldl (fun current i =>
    let key := (data.getD (2 + i) 0).toNat
    if key ≠ 0 ∧ key ≤ 0xE7 then insertKey key current else current) []

/-- The codes in bytes 2 to 7 that name a key, slot by slot. -/
def keyCodes (data : List UInt8) : List Nat :=
  ((List.range 6).map fun i => (data.getD (2 + i) 0).toNat).filter fun key => key ≠ 0 ∧ key ≤ 0xE7

def keyValues (previous current : List Nat) : List HIDReportItemValue :=
  (current.filter fun key => !previous.contains key).map (fun key => keyValue key 1 key) ++
    (previous.filter fun key => !current.contains key).map (fun key => keyValue key 0 0)

def decodeKeyboard (d : HIDBootReportDecoder) (handle : Nat) (data : List UInt8) :
    HIDBootReportDecoder × List HIDReportItemValue :=
  let modifiers := modifierBits data
  let keys := currentKeys data
  ({ d with
      keyboardModifiers := Function.update d.keyboardModifiers handle modifiers
      keyboardKeys := Function.update d.keyboardKeys handle keys },
    modifierValues (d.keyboardModifiers handle) modifiers ++ keyValues (d.keyboardKeys handle) keys)

/-! ## The key set -/

theorem mem_insertKey {key k : Nat} {keys : List Nat} : k ∈ insertKey key keys ↔ k = key ∨ k ∈ keys := by
  induction keys with
  | nil => simp [insertKey]
  | cons first rest ih =>
    unfold insertKey
    split
    · simp
    · split
      · rename_i heq
        simp [heq]
      · rw [List.mem_cons, ih, List.mem_cons, or_left_comm]

theorem insertKey_sorted (key : Nat) {keys : List Nat} (h : keys.Pairwise (· < ·)) :
    (insertKey key keys).Pairwise (· < ·) := by
  induction keys with
  | nil => exact List.pairwise_singleton _ _
  | cons first rest ih =>
    obtain ⟨hfirst, hrest⟩ := List.pairwise_cons.mp h
    unfold insertKey
    split
    · rename_i hlt
      refine .cons (fun k hk => ?_) h
      rcases List.mem_cons.mp hk with rfl | hk
      · exact hlt
      · exact Nat.lt_trans hlt (hfirst k hk)
    · split
      · exact h
      · refine .cons (fun k hk => ?_) (ih hrest)
        rcases mem_insertKey.mp hk with rfl | hk
        · omega
        · exact hfirst k hk

theorem currentKeys_eq (data : List UInt8) :
    currentKeys data = (keyCodes data).foldl (fun current key => insertKey key current) [] := by
  rw [currentKeys, keyCodes, List.foldl_filter, List.foldl_map]
  simp only [decide_eq_true_eq]

theorem mem_insertKeys {k : Nat} (codes keys : List Nat) :
    k ∈ codes.foldl (fun current key => insertKey key current) keys ↔ k ∈ codes ∨ k ∈ keys := by
  induction codes generalizing keys with
  | nil => simp
  | cons code codes ih => rw [List.foldl_cons, ih, mem_insertKey, List.mem_cons, or_left_comm, or_assoc]

@[simp]
theorem mem_currentKeys {k : Nat} {data : List UInt8} : k ∈ currentKeys data ↔ k ∈ keyCodes data := by
  simp [currentKeys_eq, mem_insertKeys]

theorem currentKeys_sorted (data : List UInt8) : (currentKeys data).Pairwise (· < ·) := by
  rw [currentKeys_eq]
  exact List.foldlRecOn (motive := fun keys : List Nat => keys.Pairwise (· < ·)) _ _ .nil
    fun keys hkeys key _ => insertKey_sorted key hkeys

/-! ## A report -/

structure DecodeOutcome where
  decoder : HIDBootReportDecoder
  values : List HIDReportItemValue := []
  status : HIDDecodeStatus

def decodeBytes (d : HIDBootReportDecoder) (source : HIDReportSource) (data : List UInt8) :
    DecodeOutcome :=
  let handle := source.characteristicHandle
  if source.characteristicUuid = bootMouseInputUuid then
    if data.length < 3 then { decoder := d, status := .short }
    else
      let (decoder, values) := decodeMouse d handle data
      { decoder, values, status := if data.length = 3 then .exact else .long }
  else if source.characteristicUuid = bootKeyboardInputUuid then
    if data.length < 8 then { decoder := d, status := .short }
    else
      let (decoder, values) := decodeKeyboard d handle data
      { decoder, values, status := if data.length = 8 then .exact else .long }
  else { decoder := d, status := .bootReport }

def decode (d : HIDBootReportDecoder) (source : HIDReportSource) (data : Buffer) : DecodeOutcome :=
  match data with
  | .null (_ + 1) => { decoder := d, status := .invalidPayload }
  | .null 0 => decodeBytes d source []
  | .bytes bytes => decodeBytes d source bytes

theorem decodeBytes_rejected (d : HIDBootReportDecoder) (source : HIDReportSource) (data : List UInt8)
    (hexact : (decodeBytes d source data).status ≠ .exact)
    (hlong : (decodeBytes d source data).status ≠ .long) :
    (decodeBytes d source data).values = [] ∧ (decodeBytes d source data).decoder = d := by
  revert hexact hlong
  unfold decodeBytes
  split
  · split
    · exact fun _ _ => ⟨rfl, rfl⟩
    · by_cases h : data.length = 3 <;> simp [h]
  · split
    · split
      · exact fun _ _ => ⟨rfl, rfl⟩
      · by_cases h : data.length = 8 <;> simp [h]
    · exact fun _ _ => ⟨rfl, rfl⟩

/-- A report that is not decoded yields nothing and leaves no trace. -/
theorem decode_rejected (d : HIDBootReportDecoder) (source : HIDReportSource) (data : Buffer)
    (hexact : (decode d source data).status ≠ .exact) (hlong : (decode d source data).status ≠ .long) :
    (decode d source data).values = [] ∧ (decode d source data).decoder = d := by
  cases data with
  | null n =>
    cases n with
    | zero => exact decodeBytes_rejected d source [] hexact hlong
    | succ n => exact ⟨rfl, rfl⟩
  | bytes bytes => exact decodeBytes_rejected d source bytes hexact hlong

example : ((decode {} { characteristicHandle := 10, characteristicUuid := 0x2A33 }
    (.bytes [0x01, 0xFE, 0x03])).values.map fun v => (v.usage.usage, v.value)) =
      [(1, 1), (0x30, -2), (0x31, 3)] := by decide

end BootReportDecoder

end BleClientHid

import BleClientHid.BootReportDecoder
import BleClientHid.Lib.Replay

/-! # Boot decoding, replayed

What the decoder reports of a characteristic, put together again: the keys and
buttons of its last report, and the movement of all of them.
-/

namespace BleClientHid

namespace BootReportDecoder

open Lib

/-! ## A run -/

def isAccepted (status : HIDDecodeStatus) : Bool := status == .exact || status == .long

structure BootStep where
  source : HIDReportSource
  data : Buffer
  outcome : DecodeOutcome

abbrev BootCall := HIDReportSource × Buffer

def decodeRun : HIDBootReportDecoder → List BootCall → List BootStep
  | _, [] => []
  | d, (source, data) :: rest =>
    { source, data, outcome := decode d source data } :: decodeRun (decode d source data).decoder rest

def decoderAfter (d : HIDBootReportDecoder) (calls : List BootCall) : HIDBootReportDecoder :=
  calls.foldl (fun d call => (decode d call.1 call.2).decoder) d

theorem decodeRun_concat (d : HIDBootReportDecoder) (calls : List BootCall) (source : HIDReportSource)
    (data : Buffer) : decodeRun d (calls ++ [(source, data)]) =
      decodeRun d calls ++ [{ source, data, outcome := decode (decoderAfter d calls) source data }] := by
  induction calls generalizing d with
  | nil => rfl
  | cons call calls ih =>
    rw [List.cons_append, decodeRun, ih, decodeRun, List.cons_append]
    rfl

namespace BootStep

/-- The step belongs to this kind of report of this characteristic. -/
def isOf (uuid handle : Nat) (step : BootStep) : Bool :=
  step.source.characteristicUuid == uuid && step.source.characteristicHandle == handle

/-- The payload, if it was decoded. -/
def payload? (step : BootStep) : Option (List UInt8) :=
  match step.data with
  | .null _ => none
  | .bytes data => if isAccepted step.outcome.status then some data else none

end BootStep

def accepted (uuid handle : Nat) (run : List BootStep) : List (List UInt8) :=
  (run.filter (·.isOf uuid handle)).filterMap BootStep.payload?

def emitted (uuid handle : Nat) (run : List BootStep) : List HIDReportItemValue :=
  (run.filter (·.isOf uuid handle)).flatMap (·.outcome.values)

/-! ## Keys -/

/-- A key is told apart by field and usage. -/
abbrev Key := Nat × HIDUsage

def event (value : HIDReportItemValue) : Key × Int := ((value.fieldId, value.usage), value.value)

def modifierKey (bit : Nat) : Key := (0xF100 + bit, { usage := 0xE0 + bit, page := 0x07 })

def keyKey (key : Nat) : Key := (0xF200, { usage := key, page := 0x07 })

def buttonKey (bit : Nat) : Key := (0xF000 + bit, { usage := bit + 1, page := 0x09 })

/-- The keys that a keyboard report holds down. -/
def keyboardHeld (data : List UInt8) : List Key :=
  ((List.range 8).filter (data.getD 0 0).toNat.testBit).map modifierKey ++ (keyCodes data).map keyKey

/-- The buttons that a mouse report holds down. -/
def buttonsHeld (data : List UInt8) : List Key :=
  ((List.range 3).filter (data.getD 0 0).toNat.testBit).map buttonKey

/-- Where the switch of the key stands after the last of the reports. -/
def heldIn (held : List UInt8 → List Key) (reports : List (List UInt8)) (key : Key) : Int :=
  match reports.getLast? with
  | none => 0
  | some data => if key ∈ held data then 1 else 0

/-! ## One report -/

/-- The outcome of a report that is decoded. -/
def Decoded (d : HIDBootReportDecoder) (source : HIDReportSource) (bytes : List UInt8) (out : DecodeOutcome) :
    Prop :=
  (source.characteristicUuid = bootMouseInputUuid ∧
    out.decoder = (decodeMouse d source.characteristicHandle bytes).1 ∧
    out.values = (decodeMouse d source.characteristicHandle bytes).2) ∨
  (source.characteristicUuid = bootKeyboardInputUuid ∧
    out.decoder = (decodeKeyboard d source.characteristicHandle bytes).1 ∧
    out.values = (decodeKeyboard d source.characteristicHandle bytes).2)

theorem decodeBytes_accepted {d : HIDBootReportDecoder} {source : HIDReportSource} {bytes : List UInt8}
    (h : isAccepted (decodeBytes d source bytes).status = true) :
    bytes ≠ [] ∧ Decoded d source bytes (decodeBytes d source bytes) := by
  by_cases hmouse : source.characteristicUuid = bootMouseInputUuid
  · by_cases hlen : bytes.length < 3
    · simp only [decodeBytes, if_pos hmouse, if_pos hlen] at h
      cases h
    · refine ⟨fun hnil => hlen (by simp [hnil]), .inl ⟨hmouse, ?_⟩⟩
      simp only [decodeBytes, if_pos hmouse, if_neg hlen, and_self]
  · by_cases hkeyboard : source.characteristicUuid = bootKeyboardInputUuid
    · by_cases hlen : bytes.length < 8
      · simp only [decodeBytes, if_neg hmouse, if_pos hkeyboard, if_pos hlen] at h
        cases h
      · refine ⟨fun hnil => hlen (by simp [hnil]), .inr ⟨hkeyboard, ?_⟩⟩
        simp only [decodeBytes, if_neg hmouse, if_pos hkeyboard, if_neg hlen, and_self]
    · simp only [decodeBytes, if_neg hmouse, if_neg hkeyboard] at h
      cases h

/-- A call is rejected without a trace, or it is a mouse or a keyboard report that is decoded. -/
theorem decode_cases (d : HIDBootReportDecoder) (source : HIDReportSource) (data : Buffer) :
    (isAccepted (decode d source data).status = false ∧ (decode d source data).values = [] ∧
      (decode d source data).decoder = d) ∨
    (isAccepted (decode d source data).status = true ∧
      ∃ bytes, data = .bytes bytes ∧ Decoded d source bytes (decode d source data)) := by
  cases hstatus : isAccepted (decode d source data).status with
  | false =>
    have hreject := hstatus
    simp only [isAccepted, Bool.or_eq_false_iff, beq_eq_false_iff_ne] at hreject
    exact .inl ⟨rfl, decode_rejected d source data hreject.1 hreject.2⟩
  | true =>
    refine .inr ⟨rfl, ?_⟩
    cases data with
    | bytes bytes => exact ⟨bytes, rfl, (decodeBytes_accepted hstatus).2⟩
    | null n =>
      cases n with
      | zero => exact absurd rfl (@decodeBytes_accepted _ _ [] hstatus).1
      | succ n => cases hstatus

theorem heldIn_concat (held : List UInt8 → List Key) (reports : List (List UInt8)) (data : List UInt8)
    (key : Key) : heldIn held (reports ++ [data]) key = if key ∈ held data then 1 else 0 := by
  rw [heldIn, List.getLast?_append, List.getLast?_singleton]
  rfl

theorem heldIn_zero_or_one (held : List UInt8 → List Key) (reports : List (List UInt8)) (key : Key) :
    heldIn held reports key = 0 ∨ heldIn held reports key = 1 := by
  unfold heldIn
  split
  · exact .inl rfl
  · split
    · exact .inr rfl
    · exact .inl rfl

theorem modifierKey_injective : Function.Injective modifierKey := by
  intro a b h
  simp only [modifierKey, Prod.mk.injEq] at h
  omega

theorem keyKey_injective : Function.Injective keyKey := by
  intro a b h
  simpa [keyKey] using h

theorem buttonKey_injective : Function.Injective buttonKey := by
  intro a b h
  simp only [buttonKey, Prod.mk.injEq] at h
  omega

theorem modifierKey_ne_keyKey {bit key : Nat} (h : bit < 8) : modifierKey bit ≠ keyKey key := by
  simp only [modifierKey, keyKey, ne_eq, Prod.mk.injEq]
  omega

theorem modifierKey_mem {bit : Nat} (h : bit < 8) (data : List UInt8) :
    modifierKey bit ∈ keyboardHeld data ↔ (data.getD 0 0).toNat.testBit bit = true := by
  rw [keyboardHeld, List.mem_append, List.mem_map, List.mem_map]
  constructor
  · rintro (⟨other, hother, heq⟩ | ⟨key, -, heq⟩)
    · obtain rfl := modifierKey_injective heq
      exact (List.mem_filter.mp hother).2
    · exact absurd heq.symm (modifierKey_ne_keyKey h)
  · exact fun hbit => .inl ⟨bit, List.mem_filter.mpr ⟨List.mem_range.mpr h, hbit⟩, rfl⟩

theorem keyKey_mem (key : Nat) (data : List UInt8) : keyKey key ∈ keyboardHeld data ↔ key ∈ keyCodes data := by
  rw [keyboardHeld, List.mem_append, List.mem_map, List.mem_map]
  constructor
  · rintro (⟨bit, hbit, heq⟩ | ⟨other, hother, heq⟩)
    · exact absurd heq (modifierKey_ne_keyKey (List.mem_range.mp (List.mem_filter.mp hbit).1))
    · exact keyKey_injective heq ▸ hother
  · exact fun hkey => .inr ⟨key, hkey, rfl⟩

theorem buttonKey_mem {bit : Nat} (h : bit < 3) (data : List UInt8) :
    buttonKey bit ∈ buttonsHeld data ↔ (data.getD 0 0).toNat.testBit bit = true := by
  rw [buttonsHeld, List.mem_map]
  constructor
  · rintro ⟨other, hother, heq⟩
    obtain rfl := buttonKey_injective heq
    exact (List.mem_filter.mp hother).2
  · exact fun hbit => ⟨bit, List.mem_filter.mpr ⟨List.mem_range.mpr h, hbit⟩, rfl⟩

/-- The decoder remembers what the last keyboard report of the handle holds down. -/
structure KeyboardMemory (handle : Nat) (d : HIDBootReportDecoder) (reports : List (List UInt8)) : Prop where
  modifiers : ∀ bit < 8, heldIn keyboardHeld reports (modifierKey bit) =
    if (d.keyboardModifiers handle).getD bit false then 1 else 0
  keys : ∀ key, heldIn keyboardHeld reports (keyKey key) = if key ∈ d.keyboardKeys handle then 1 else 0
  distinct : (d.keyboardKeys handle).Nodup

structure MouseMemory (handle : Nat) (d : HIDBootReportDecoder) (reports : List (List UInt8)) : Prop where
  buttons : ∀ bit < 3, heldIn buttonsHeld reports (buttonKey bit) =
    if (d.mouseButtons handle).testBit bit then 1 else 0

theorem modifierValues_events (previous : List Bool) (data : List UInt8) :
    (modifierValues previous (modifierBits data)).map event =
      ((List.range 8).filter fun bit => previous.getD bit false != (data.getD 0 0).toNat.testBit bit).map
        fun bit => (modifierKey bit, if (data.getD 0 0).toNat.testBit bit then 1 else 0) := by
  have hbit : ∀ bit < 8, (modifierBits data).getD bit false = (data.getD 0 0).toNat.testBit bit := by
    intro bit h
    rw [modifierBits, List.getD_eq_getElem?_getD, List.getElem?_map, List.getElem?_range h]
    rfl
  rw [modifierValues, List.map_filterMap, ← List.filterMap_eq_map, List.filterMap_filter]
  apply List.filterMap_congr
  intro bit hmem
  simp only [hbit bit (List.mem_range.mp hmem), Function.comp_apply]
  split <;> rfl

theorem keyValues_events (previous current : List Nat) :
    (keyValues previous current).map event =
      (current.filter fun key => !previous.contains key).map (fun key => (keyKey key, 1)) ++
        (previous.filter fun key => !current.contains key).map (fun key => (keyKey key, 0)) := by
  rw [keyValues, List.map_append, List.map_map, List.map_map]
  rfl

/-! ## What a key shows of one report -/

theorem valuesAt_modifier {bit : Nat} (h : bit < 8) (previous : List Bool) (data : List UInt8)
    (keysBefore keys : List Nat) :
    valuesAt (modifierKey bit)
        ((modifierValues previous (modifierBits data) ++ keyValues keysBefore keys).map event) =
      shown (if previous.getD bit false then 1 else 0) (if (data.getD 0 0).toNat.testBit bit then 1 else 0) := by
  have hkeys : valuesAt (modifierKey bit) ((keyValues keysBefore keys).map event) = [] := by
    apply valuesAt_of_ne
    rw [keyValues_events]
    intro e he
    rcases List.mem_append.mp he with he | he <;> obtain ⟨key, -, rfl⟩ := List.mem_map.mp he <;>
      exact (modifierKey_ne_keyKey h).symm
  rw [List.map_append, valuesAt_append, hkeys, List.append_nil, modifierValues_events,
    valuesAt_map modifierKey_injective _ (List.nodup_range.filter _), shown]
  simp only [List.mem_filter, List.mem_range, h, true_and, bne_iff_ne, ne_eq]
  cases previous.getD bit false <;> cases (data.getD 0 0).toNat.testBit bit <;> simp

theorem valuesAt_key (key : Nat) (previous : List Bool) (data : List UInt8) {keysBefore keys : List Nat}
    (hbefore : keysBefore.Nodup) (hkeys : keys.Nodup) :
    valuesAt (keyKey key) ((modifierValues previous (modifierBits data) ++ keyValues keysBefore keys).map event) =
      shown (if key ∈ keysBefore then 1 else 0) (if key ∈ keys then 1 else 0) := by
  have hmodifiers : valuesAt (keyKey key) ((modifierValues previous (modifierBits data)).map event) = [] := by
    apply valuesAt_of_ne
    rw [modifierValues_events]
    intro e he
    obtain ⟨bit, hbit, rfl⟩ := List.mem_map.mp he
    exact modifierKey_ne_keyKey (List.mem_range.mp (List.mem_filter.mp hbit).1)
  rw [List.map_append, valuesAt_append, hmodifiers, List.nil_append, keyValues_events, valuesAt_append,
    valuesAt_map keyKey_injective (fun _ => 1) (hkeys.filter _),
    valuesAt_map keyKey_injective (fun _ => 0) (hbefore.filter _), shown]
  simp only [List.mem_filter, Bool.not_eq_true', List.contains_eq_mem, decide_eq_false_iff_not]
  by_cases hin : key ∈ keysBefore <;> by_cases hnow : key ∈ keys <;> simp [hin, hnow]

theorem heldIn_of_notMem {held : List UInt8 → List Key} {key : Key} (h : ∀ data, key ∉ held data)
    (reports : List (List UInt8)) : heldIn held reports key = 0 := by
  unfold heldIn
  split
  · rfl
  · exact if_neg (h _)

theorem keyboardHeld_cases {key : Key} {data : List UInt8} (h : key ∈ keyboardHeld data) :
    (∃ bit < 8, key = modifierKey bit) ∨ ∃ code, key = keyKey code := by
  rw [keyboardHeld, List.mem_append, List.mem_map, List.mem_map] at h
  rcases h with ⟨bit, hbit, rfl⟩ | ⟨code, -, rfl⟩
  · exact .inl ⟨bit, List.mem_range.mp (List.mem_filter.mp hbit).1, rfl⟩
  · exact .inr ⟨code, rfl⟩

theorem keyboardValues_cases {previous : List Bool} {data : List UInt8} {keysBefore keys : List Nat} {e : Key × Int}
    (h : e ∈ (modifierValues previous (modifierBits data) ++ keyValues keysBefore keys).map event) :
    (∃ bit < 8, e.1 = modifierKey bit) ∨ ∃ code, e.1 = keyKey code := by
  rw [List.map_append, modifierValues_events, keyValues_events, List.mem_append, List.mem_append] at h
  rcases h with h | h | h <;> obtain ⟨i, hi, rfl⟩ := List.mem_map.mp h
  · exact .inl ⟨i, List.mem_range.mp (List.mem_filter.mp hi).1, rfl⟩
  · exact .inr ⟨i, rfl⟩
  · exact .inr ⟨i, rfl⟩

/-- Every key shows the change that the report makes to it, once. -/
theorem KeyboardMemory.shows {handle : Nat} {d : HIDBootReportDecoder} {reports : List (List UInt8)}
    (h : KeyboardMemory handle d reports) (data : List UInt8) (key : Key) :
    valuesAt key ((decodeKeyboard d handle data).2.map event) =
      shown (heldIn keyboardHeld reports key) (heldIn keyboardHeld (reports ++ [data]) key) := by
  unfold decodeKeyboard
  by_cases hmodifier : ∃ bit < 8, key = modifierKey bit
  · obtain ⟨bit, hbit, rfl⟩ := hmodifier
    rw [valuesAt_modifier hbit, h.modifiers bit hbit, heldIn_concat]
    simp only [modifierKey_mem hbit]
  · by_cases hcode : ∃ code, key = keyKey code
    · obtain ⟨code, rfl⟩ := hcode
      rw [valuesAt_key code _ _ h.distinct (currentKeys_sorted data).nodup, h.keys code, heldIn_concat]
      simp only [keyKey_mem, mem_currentKeys]
    · have hnone : ∀ data, key ∉ keyboardHeld data := fun data hmem =>
        (keyboardHeld_cases hmem).elim hmodifier hcode
      rw [heldIn_of_notMem hnone, heldIn_of_notMem hnone, shown, if_pos rfl]
      apply valuesAt_of_ne
      rintro e he rfl
      exact (keyboardValues_cases he).elim hmodifier hcode

theorem KeyboardMemory.next (handle : Nat) (d : HIDBootReportDecoder) (reports : List (List UInt8))
    (data : List UInt8) : KeyboardMemory handle (decodeKeyboard d handle data).1 (reports ++ [data]) := by
  refine ⟨fun bit hbit => ?_, fun code => ?_, ?_⟩
  · rw [heldIn_concat]
    simp only [modifierKey_mem hbit, decodeKeyboard, Function.update_self, modifierBits,
      List.getD_eq_getElem?_getD, List.getElem?_map, List.getElem?_range hbit, Option.map_some,
      Option.getD_some]
  · rw [heldIn_concat]
    simp only [keyKey_mem, decodeKeyboard, Function.update_self, mem_currentKeys]
  · simp only [decodeKeyboard, Function.update_self]
    exact (currentKeys_sorted data).nodup

/-! ## Buttons and movement -/

def isButton (value : HIDReportItemValue) : Bool := value.usage.page = 0x09

def isAxis (usage : Nat) (value : HIDReportItemValue) : Bool := value.usage = { usage, page := 0x01 }

def total (moves : List Int) : Int := moves.foldr (· + ·) 0

@[simp]
theorem total_nil : total [] = 0 := rfl

@[simp]
theorem total_cons (move : Int) (moves : List Int) : total (move :: moves) = move + total moves := rfl

@[simp]
theorem total_append (moves later : List Int) : total (moves ++ later) = total moves + total later := by
  induction moves with
  | nil => exact (Int.zero_add _).symm
  | cons move moves ih => rw [List.cons_append, total_cons, total_cons, ih, Int.add_assoc]

/-- How far the values of an axis move it. -/
def moved (usage : Nat) (values : List HIDReportItemValue) : Int :=
  total ((values.filter (isAxis usage)).map (·.value))

theorem moved_append (usage : Nat) (values later : List HIDReportItemValue) :
    moved usage (values ++ later) = moved usage values + moved usage later := by
  rw [moved, List.filter_append, List.map_append, total_append, moved, moved]

theorem isButton_button (bit : Nat) (active : Bool) : isButton (mouseButtonValue bit active) = true := rfl

theorem mouseButtonValues_cases {previous buttons : Nat} {value : HIDReportItemValue}
    (h : value ∈ mouseButtonValues previous buttons) : ∃ bit active, value = mouseButtonValue bit active := by
  unfold mouseButtonValues at h
  obtain ⟨bit, -, hvalue⟩ := List.mem_filterMap.mp h
  split at hvalue
  · exact ⟨bit, _, (Option.some.inj hvalue).symm⟩
  · cases hvalue

theorem buttons_of_decodeMouse (d : HIDBootReportDecoder) (handle : Nat) (data : List UInt8) :
    (decodeMouse d handle data).2.filter isButton =
      mouseButtonValues (d.mouseButtons handle) (data.getD 0 0).toNat := by
  have haxis : ∀ usage fieldId move, (mouseAxisValues usage fieldId move).filter isButton = [] := by
    intro usage fieldId move
    unfold mouseAxisValues
    split <;> rfl
  have hbuttons : ∀ value ∈ mouseButtonValues (d.mouseButtons handle) (data.getD 0 0).toNat,
      isButton value = true := by
    intro value hvalue
    obtain ⟨bit, active, rfl⟩ := mouseButtonValues_cases hvalue
    exact isButton_button bit active
  simp only [decodeMouse, List.filter_append, haxis, List.append_nil]
  exact List.filter_eq_self.mpr hbuttons

theorem moved_axis (usage other fieldId : Nat) (move : Int) :
    moved usage (mouseAxisValues other fieldId move) = if other = usage then move else 0 := by
  unfold mouseAxisValues moved
  split
  · by_cases h : other = usage <;> simp [isAxis, mouseAxisValue, h]
  · rename_i hzero
    simp [of_not_not hzero]

theorem moved_buttons (usage previous buttons : Nat) : moved usage (mouseButtonValues previous buttons) = 0 := by
  unfold moved
  rw [List.filter_eq_nil_iff.mpr, List.map_nil, total_nil]
  intro value hvalue
  obtain ⟨bit, active, rfl⟩ := mouseButtonValues_cases hvalue
  simp [isAxis, mouseButtonValue]

theorem moved_decodeMouse (usage : Nat) (d : HIDBootReportDecoder) (handle : Nat) (data : List UInt8) :
    moved usage (decodeMouse d handle data).2 =
      (if 0x30 = usage then toInt8 (data.getD 1 0) else 0) +
        if 0x31 = usage then toInt8 (data.getD 2 0) else 0 := by
  simp only [decodeMouse, moved_append, moved_buttons, moved_axis, Int.zero_add]

theorem buttonValues_events (previous buttons : Nat) :
    (mouseButtonValues previous buttons).map event =
      ((List.range 3).filter fun bit => buttons.testBit bit != previous.testBit bit).map
        fun bit => (buttonKey bit, if buttons.testBit bit then 1 else 0) := by
  rw [mouseButtonValues, List.map_filterMap, ← List.filterMap_eq_map, List.filterMap_filter]
  apply List.filterMap_congr
  intro bit _
  simp only [Function.comp_apply]
  split <;> rfl

theorem valuesAt_button {bit : Nat} (h : bit < 3) (previous buttons : Nat) :
    valuesAt (buttonKey bit) ((mouseButtonValues previous buttons).map event) =
      shown (if previous.testBit bit then 1 else 0) (if buttons.testBit bit then 1 else 0) := by
  rw [buttonValues_events, valuesAt_map buttonKey_injective _ (List.nodup_range.filter _), shown]
  simp only [List.mem_filter, List.mem_range, h, true_and, bne_iff_ne, ne_eq]
  cases previous.testBit bit <;> cases buttons.testBit bit <;> simp

theorem MouseMemory.shows {handle : Nat} {d : HIDBootReportDecoder} {reports : List (List UInt8)}
    (h : MouseMemory handle d reports) (data : List UInt8) (key : Key) :
    valuesAt key (((decodeMouse d handle data).2.filter isButton).map event) =
      shown (heldIn buttonsHeld reports key) (heldIn buttonsHeld (reports ++ [data]) key) := by
  rw [buttons_of_decodeMouse]
  by_cases hbutton : ∃ bit < 3, key = buttonKey bit
  · obtain ⟨bit, hbit, rfl⟩ := hbutton
    rw [valuesAt_button hbit, h.buttons bit hbit, heldIn_concat]
    simp only [buttonKey_mem hbit]
  · have hnone : ∀ data, key ∉ buttonsHeld data := by
      intro data hmem
      obtain ⟨bit, hbit, rfl⟩ := List.mem_map.mp hmem
      exact hbutton ⟨bit, List.mem_range.mp (List.mem_filter.mp hbit).1, rfl⟩
    rw [heldIn_of_notMem hnone, heldIn_of_notMem hnone, shown, if_pos rfl]
    apply valuesAt_of_ne
    rw [buttonValues_events]
    rintro e he rfl
    obtain ⟨bit, hbit, rfl⟩ := List.mem_map.mp he
    exact hbutton ⟨bit, List.mem_range.mp (List.mem_filter.mp hbit).1, rfl⟩

theorem MouseMemory.next (handle : Nat) (d : HIDBootReportDecoder) (reports : List (List UInt8))
    (data : List UInt8) : MouseMemory handle (decodeMouse d handle data).1 (reports ++ [data]) := by
  refine ⟨fun bit hbit => ?_⟩
  rw [heldIn_concat]
  simp only [buttonKey_mem hbit, decodeMouse, Function.update_self]

/-! ## A run of reports -/

theorem accepted_concat (uuid handle : Nat) (run : List BootStep) (step : BootStep) :
    accepted uuid handle (run ++ [step]) =
      accepted uuid handle run ++ if step.isOf uuid handle then step.payload?.toList else [] := by
  unfold accepted
  rw [List.filter_append, List.filterMap_append]
  by_cases h : step.isOf uuid handle = true
  · cases hpayload : step.payload? <;> simp [h, hpayload]
  · simp [h]

theorem emitted_concat (uuid handle : Nat) (run : List BootStep) (step : BootStep) :
    emitted uuid handle (run ++ [step]) =
      emitted uuid handle run ++ if step.isOf uuid handle then step.outcome.values else [] := by
  unfold emitted
  rw [List.filter_append, List.flatMap_append]
  by_cases h : step.isOf uuid handle = true <;> simp [h]

/-- A step of another kind or handle, or that is rejected, adds nothing. -/
theorem adds_nothing {uuid handle : Nat} {step : BootStep} (run : List BootStep)
    (h : step.isOf uuid handle = false ∨ (isAccepted step.outcome.status = false ∧ step.outcome.values = [])) :
    accepted uuid handle (run ++ [step]) = accepted uuid handle run ∧
      emitted uuid handle (run ++ [step]) = emitted uuid handle run := by
  rw [accepted_concat, emitted_concat]
  rcases h with h | ⟨hstatus, hvalues⟩
  · simp [h]
  · have hpayload : step.payload? = none := by
      unfold BootStep.payload?
      split
      · rfl
      · exact if_neg (by simp [hstatus])
    simp [hpayload, hvalues]

theorem adds_report {source : HIDReportSource} {bytes : List UInt8} {outcome : DecodeOutcome}
    (run : List BootStep) (hstatus : isAccepted outcome.status = true) :
    accepted source.characteristicUuid source.characteristicHandle (run ++ [⟨source, .bytes bytes, outcome⟩]) =
        accepted source.characteristicUuid source.characteristicHandle run ++ [bytes] ∧
      emitted source.characteristicUuid source.characteristicHandle (run ++ [⟨source, .bytes bytes, outcome⟩]) =
        emitted source.characteristicUuid source.characteristicHandle run ++ outcome.values := by
  rw [accepted_concat, emitted_concat]
  simp [BootStep.isOf, BootStep.payload?, hstatus]

theorem not_isOf {uuid handle : Nat} {step : BootStep}
    (h : step.source.characteristicUuid ≠ uuid ∨ step.source.characteristicHandle ≠ handle) :
    step.isOf uuid handle = false := by
  unfold BootStep.isOf
  rcases h with h | h <;> simp [h]

/-- The run has shown every key as its last report of the handle holds it, and the decoder knows how. -/
structure KeyboardRun (handle : Nat) (d : HIDBootReportDecoder) (run : List BootStep) : Prop where
  memory : KeyboardMemory handle d (accepted bootKeyboardInputUuid handle run)
  switches : ∀ key, Switch (valuesAt key ((emitted bootKeyboardInputUuid handle run).map event))
    (heldIn keyboardHeld (accepted bootKeyboardInputUuid handle run) key)

theorem KeyboardRun.unchanged {handle : Nat} {d d' : HIDBootReportDecoder} {run : List BootStep} {step : BootStep}
    (h : KeyboardRun handle d run)
    (hadds : step.isOf bootKeyboardInputUuid handle = false ∨
      (isAccepted step.outcome.status = false ∧ step.outcome.values = []))
    (hmodifiers : d'.keyboardModifiers handle = d.keyboardModifiers handle)
    (hkeys : d'.keyboardKeys handle = d.keyboardKeys handle) : KeyboardRun handle d' (run ++ [step]) := by
  obtain ⟨haccepted, hemitted⟩ := adds_nothing run hadds
  refine ⟨⟨?_, ?_, ?_⟩, ?_⟩
  · rw [haccepted, hmodifiers]
    exact h.memory.modifiers
  · rw [haccepted, hkeys]
    exact h.memory.keys
  · rw [hkeys]
    exact h.memory.distinct
  · rw [haccepted, hemitted]
    exact h.switches

theorem KeyboardRun.step {handle : Nat} {d : HIDBootReportDecoder} {run : List BootStep}
    (h : KeyboardRun handle d run) (source : HIDReportSource) (data : Buffer) :
    KeyboardRun handle (decode d source data).decoder
      (run ++ [{ source, data, outcome := decode d source data }]) := by
  rcases decode_cases d source data with ⟨hstatus, hvalues, hd⟩ | ⟨hstatus, bytes, rfl, hdecoded⟩
  · exact h.unchanged (.inr ⟨hstatus, hvalues⟩) (by rw [hd]) (by rw [hd])
  · rcases hdecoded with ⟨huuid, hd, -⟩ | ⟨huuid, hd, hvalues⟩
    · refine h.unchanged (.inl (not_isOf (.inl ?_))) (by rw [hd]; rfl) (by rw [hd]; rfl)
      rw [huuid]
      decide
    · by_cases hhandle : source.characteristicHandle = handle
      · subst hhandle
        obtain ⟨haccepted, hemitted⟩ := @adds_report source bytes _ run hstatus
        rw [huuid] at haccepted hemitted
        refine ⟨?_, fun key => ?_⟩
        · rw [haccepted, hd]
          exact .next _ d _ bytes
        · rw [haccepted, hemitted, List.map_append, valuesAt_append, hvalues, h.memory.shows bytes key]
          exact (h.switches key).move (heldIn_zero_or_one _ _ _)
      · refine h.unchanged (.inl (not_isOf (.inr hhandle))) ?_ ?_
        · rw [hd]
          exact Function.update_of_ne (Ne.symm hhandle) _ _
        · rw [hd]
          exact Function.update_of_ne (Ne.symm hhandle) _ _

structure MouseRun (handle : Nat) (d : HIDBootReportDecoder) (run : List BootStep) : Prop where
  memory : MouseMemory handle d (accepted bootMouseInputUuid handle run)
  switches : ∀ key, Switch (valuesAt key (((emitted bootMouseInputUuid handle run).filter isButton).map event))
    (heldIn buttonsHeld (accepted bootMouseInputUuid handle run) key)
  x : moved 0x30 (emitted bootMouseInputUuid handle run) =
    total ((accepted bootMouseInputUuid handle run).map fun data => toInt8 (data.getD 1 0))
  y : moved 0x31 (emitted bootMouseInputUuid handle run) =
    total ((accepted bootMouseInputUuid handle run).map fun data => toInt8 (data.getD 2 0))

theorem MouseRun.unchanged {handle : Nat} {d d' : HIDBootReportDecoder} {run : List BootStep} {step : BootStep}
    (h : MouseRun handle d run)
    (hadds : step.isOf bootMouseInputUuid handle = false ∨
      (isAccepted step.outcome.status = false ∧ step.outcome.values = []))
    (hbuttons : d'.mouseButtons handle = d.mouseButtons handle) : MouseRun handle d' (run ++ [step]) := by
  obtain ⟨haccepted, hemitted⟩ := adds_nothing run hadds
  refine ⟨⟨?_⟩, ?_, ?_, ?_⟩
  · rw [haccepted, hbuttons]
    exact h.memory.buttons
  · rw [haccepted, hemitted]
    exact h.switches
  · rw [haccepted, hemitted]
    exact h.x
  · rw [haccepted, hemitted]
    exact h.y

theorem MouseRun.step {handle : Nat} {d : HIDBootReportDecoder} {run : List BootStep}
    (h : MouseRun handle d run) (source : HIDReportSource) (data : Buffer) :
    MouseRun handle (decode d source data).decoder
      (run ++ [{ source, data, outcome := decode d source data }]) := by
  rcases decode_cases d source data with ⟨hstatus, hvalues, hd⟩ | ⟨hstatus, bytes, rfl, hdecoded⟩
  · exact h.unchanged (.inr ⟨hstatus, hvalues⟩) (by rw [hd])
  · rcases hdecoded with ⟨huuid, hd, hvalues⟩ | ⟨huuid, hd, -⟩
    · by_cases hhandle : source.characteristicHandle = handle
      · subst hhandle
        obtain ⟨haccepted, hemitted⟩ := @adds_report source bytes _ run hstatus
        rw [huuid] at haccepted hemitted
        refine ⟨?_, fun key => ?_, ?_, ?_⟩
        · rw [haccepted, hd]
          exact .next _ d _ bytes
        · rw [haccepted, hemitted, List.filter_append, List.map_append, valuesAt_append, hvalues,
            h.memory.shows bytes key]
          exact (h.switches key).move (heldIn_zero_or_one _ _ _)
        · rw [haccepted, hemitted, moved_append, hvalues, moved_decodeMouse, h.x]
          simp
        · rw [haccepted, hemitted, moved_append, hvalues, moved_decodeMouse, h.y]
          simp
      · refine h.unchanged (.inl (not_isOf (.inr hhandle))) ?_
        rw [hd]
        exact Function.update_of_ne (Ne.symm hhandle) _ _
    · refine h.unchanged (.inl (not_isOf (.inl ?_))) (by rw [hd]; rfl)
      rw [huuid]
      decide

theorem decoder_runs (handle : Nat) (calls : List BootCall) :
    KeyboardRun handle (decoderAfter {} calls) (decodeRun {} calls) ∧
      MouseRun handle (decoderAfter {} calls) (decodeRun {} calls) := by
  induction calls using List.reverseRecOn with
  | nil =>
    refine ⟨⟨⟨fun bit hbit => ?_, fun code => rfl, List.nodup_nil⟩, fun key => Switch.start⟩,
      ⟨⟨fun bit _ => ?_⟩, fun key => Switch.start, rfl, rfl⟩⟩
    · have hreleased : (List.replicate 8 false).getD bit false = false := by
        rw [List.getD_eq_getElem?_getD, List.getElem?_replicate, if_pos hbit]
        rfl
      change 0 = if (List.replicate 8 false).getD bit false = true then (1 : Int) else 0
      rw [hreleased]
      rfl
    · simp [decoderAfter, decodeRun, accepted, heldIn]
  | append_singleton calls call ih =>
    have hafter : decoderAfter {} (calls ++ [call]) = (decode (decoderAfter {} calls) call.1 call.2).decoder := by
      simp [decoderAfter, List.foldl_append]
    rw [decodeRun_concat, hafter]
    exact ⟨ih.1.step call.1 call.2, ih.2.step call.1 call.2⟩

/-! ## The law -/

/-- The events put together again, and each key shown at 1, 0, 1, ... -/
structure Faithful (values : List HIDReportItemValue) (held : List UInt8 → List Key) (reports : List (List UInt8)) :
    Prop where
  replayed : ∀ key, replay (fun _ => 0) (values.map event) key = heldIn held reports key
  alternates : ∀ key, Toggles (valuesAt key (values.map event))

theorem Faithful.of_switches {values : List HIDReportItemValue} {held : List UInt8 → List Key}
    {reports : List (List UInt8)}
    (h : ∀ key, Switch (valuesAt key (values.map event)) (heldIn held reports key)) :
    Faithful values held reports := by
  refine ⟨fun key => ?_, fun key => (h key).toggles⟩
  rw [replay_apply]
  exact (h key).last

/-- The payloads of a kind and a characteristic that are long enough. -/
def longEnough (uuid handle size : Nat) (calls : List BootCall) : List (List UInt8) :=
  calls.filterMap fun call =>
    match call.2 with
    | .null _ => none
    | .bytes data =>
      if call.1.characteristicUuid = uuid ∧ call.1.characteristicHandle = handle ∧ size ≤ data.length then some data
      else none

theorem accepted_eq_longEnough {uuid size : Nat} (hsize : ∀ d source data, source.characteristicUuid = uuid →
      isAccepted (decodeBytes d source data).status = decide (size ≤ data.length))
    (handle : Nat) (d : HIDBootReportDecoder) (calls : List BootCall) :
    accepted uuid handle (decodeRun d calls) = longEnough uuid handle size calls := by
  induction calls generalizing d with
  | nil => rfl
  | cons call calls ih =>
    obtain ⟨source, data⟩ := call
    have hrest := ih (decode d source data).decoder
    unfold accepted longEnough at hrest ⊢
    rw [decodeRun, List.filter_cons, List.filterMap_cons, ← hrest]
    by_cases hof : source.characteristicUuid = uuid ∧ source.characteristicHandle = handle
    · rw [if_pos (by simpa [BootStep.isOf] using hof), List.filterMap_cons]
      cases data with
      | null n => rfl
      | bytes bytes =>
        have hstatus := hsize d source bytes hof.1
        simp only [BootStep.payload?, decode, hstatus, decide_eq_true_eq, hof.1, hof.2, true_and]
    · rw [if_neg (by simpa [BootStep.isOf] using hof)]
      cases data with
      | null n => rfl
      | bytes bytes =>
        dsimp only
        rw [if_neg fun h => hof ⟨h.1, h.2.1⟩]

theorem keyboard_isAccepted (d : HIDBootReportDecoder) (source : HIDReportSource) (data : List UInt8)
    (h : source.characteristicUuid = bootKeyboardInputUuid) :
    isAccepted (decodeBytes d source data).status = decide (8 ≤ data.length) := by
  unfold decodeBytes
  rw [h, if_neg (by decide), if_pos rfl]
  by_cases hshort : data.length < 8
  · rw [if_pos hshort, decide_eq_false (by omega)]
    rfl
  · rw [if_neg hshort, decide_eq_true (by omega)]
    by_cases hexact : data.length = 8 <;> simp [isAccepted, hexact]

theorem mouse_isAccepted (d : HIDBootReportDecoder) (source : HIDReportSource) (data : List UInt8)
    (h : source.characteristicUuid = bootMouseInputUuid) :
    isAccepted (decodeBytes d source data).status = decide (3 ≤ data.length) := by
  unfold decodeBytes
  rw [h, if_pos rfl]
  by_cases hshort : data.length < 3
  · rw [if_pos hshort, decide_eq_false (by omega)]
    rfl
  · rw [if_neg hshort, decide_eq_true (by omega)]
    by_cases hexact : data.length = 3 <;> simp [isAccepted, hexact]

/-- For every handle: the keyboard events replay to its last keyboard report, the button events to its last
mouse report, and the movement adds up. Accepted are the reports that are long enough. -/
theorem decode_faithful (calls : List BootCall) (handle : Nat) :
    let run := decodeRun {} calls
    let keyboard := emitted bootKeyboardInputUuid handle run
    let mouse := emitted bootMouseInputUuid handle run
    let reports := accepted bootMouseInputUuid handle run
    Faithful keyboard keyboardHeld (accepted bootKeyboardInputUuid handle run) ∧
    Faithful (mouse.filter isButton) buttonsHeld reports ∧
    moved 0x30 mouse = total (reports.map fun data => toInt8 (data.getD 1 0)) ∧
    moved 0x31 mouse = total (reports.map fun data => toInt8 (data.getD 2 0)) ∧
    accepted bootKeyboardInputUuid handle run = longEnough bootKeyboardInputUuid handle 8 calls ∧
    reports = longEnough bootMouseInputUuid handle 3 calls := by
  obtain ⟨hkeyboard, hmouse⟩ := decoder_runs handle calls
  exact ⟨.of_switches hkeyboard.switches, .of_switches hmouse.switches, hmouse.x, hmouse.y,
    accepted_eq_longEnough keyboard_isAccepted handle {} calls, accepted_eq_longEnough mouse_isAccepted handle {} calls⟩

end BootReportDecoder

end BleClientHid

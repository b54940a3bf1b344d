import BleClientHid.Component.Loop
import BleClientHid.Lib.Checked
import Mathlib.Data.List.Induction

/-! # Advertisements

`parse_device` keeps what a scan hears of the remote until the next `loop()`,
where `process_pending_advertisement_` logs it, element by element.
-/

namespace BleClientHid

open Lib

/-! ## The elements -/

def adTypeName (type : UInt8) : String :=
  match type.toNat with
  | 0x01 => "flags"
  | 0x02 => "incomplete_uuid16_list"
  | 0x03 => "complete_uuid16_list"
  | 0x04 => "incomplete_uuid32_list"
  | 0x05 => "complete_uuid32_list"
  | 0x06 => "incomplete_uuid128_list"
  | 0x07 => "complete_uuid128_list"
  | 0x08 => "short_name"
  | 0x09 => "complete_name"
  | 0x0A => "tx_power"
  | 0x16 => "service_data_uuid16"
  | 0x19 => "appearance"
  | 0x20 => "service_data_uuid32"
  | 0x21 => "service_data_uuid128"
  | 0xFF => "manufacturer_data"
  | _ => "unknown"

def printableText (data : List UInt8) : String :=
  String.ofList (data.map fun b => if 0x20 ≤ b.toNat ∧ b.toNat ≤ 0x7E then Char.ofNat b.toNat else '.')

inductive AdvertisementLine where
  | report (address : String) (addressType : UInt8) (rssi : Int8) (advertisementLength scanResponseLength : UInt8)
      (advertisementData scanResponseData : String)
  | element (source : String) (type : UInt8) (name : String) (length : Nat) (data : String) (text : Option String)
  | truncated (source : String) (offset : Nat) (declaredLength : UInt8) (remaining : Nat)
  deriving DecidableEq, Repr

section

variable (platform : Platform) (source : String)

def elementLine (type : UInt8) (value : List UInt8) : AdvertisementLine :=
  .element source type (adTypeName type) value.length (formatValue platform (.bytes value))
    (if type = 0x08 ∨ type = 0x09 then some (printableText value) else none)

def logAdvertisementElementsLoop (data : List UInt8) : Nat → Nat → Checked (List AdvertisementLine)
  | 0, offset => if offset < data.length then .error .outOfFuel else .ok []
  | fuel + 1, offset =>
    if offset < data.length then do
      let fieldLength ← getAt data offset
      let offset := offset + 1
      if fieldLength = 0 then return []
      else if fieldLength.toNat > data.length - offset then
        return [.truncated source (offset - 1) fieldLength (data.length - offset)]
      else
        let type ← getAt data offset
        let offset := offset + 1
        let valueLength := fieldLength.toNat - 1
        let value ← sliceAt data offset valueLength
        let rest ← logAdvertisementElementsLoop data fuel (offset + valueLength)
        return elementLine platform source type value :: rest
    else .ok []

def logAdvertisementElements (data : List UInt8) : Checked (List AdvertisementLine) :=
  logAdvertisementElementsLoop platform source data data.length 0

end

/-! ## The format -/

/-- An element, led by a byte for the length of its type and value. -/
structure AdElement where
  type : UInt8
  value : List UInt8
  fits : value.length < 255

def AdElement.bytes (e : AdElement) : List UInt8 := UInt8.ofNat (e.value.length + 1) :: e.type :: e.value

/-- What follows the last complete element: nothing, a length of zero and anything after it, or an element
that promises more than there is. -/
inductive AdEnding where
  | complete
  | terminated (padding : List UInt8)
  | truncated (declared : UInt8) (rest : List UInt8) (short : rest.length < declared.toNat)

def AdEnding.bytes : AdEnding → List UInt8
  | .complete => []
  | .terminated padding => 0 :: padding
  | .truncated declared rest _ => declared :: rest

/-- Only the last is worth a line. -/
def AdEnding.lines (source : String) (offset : Nat) : AdEnding → List AdvertisementLine
  | .complete | .terminated _ => []
  | .truncated declared rest _ => [.truncated source offset declared rest.length]

theorem AdElement.length_byte (e : AdElement) : (UInt8.ofNat (e.value.length + 1)).toNat = e.value.length + 1 := by
  have hfits := e.fits
  rw [UInt8.toNat_ofNat']
  omega

theorem AdElement.length_pos (e : AdElement) : UInt8.ofNat (e.value.length + 1) ≠ 0 := by
  intro hzero
  have hbyte := e.length_byte
  rw [hzero] at hbyte
  simp at hbyte

/-! ## Reading it -/

theorem AdEnding.not_element (ending : AdEnding) (e : AdElement) (more : List UInt8) :
    ending.bytes ≠ e.bytes ++ more := by
  intro h
  cases ending with
  | complete => simp [AdEnding.bytes, AdElement.bytes] at h
  | terminated padding =>
    have hzero := (List.cons.inj h).1
    exact e.length_pos hzero.symm
  | truncated declared rest short =>
    simp only [AdEnding.bytes, AdElement.bytes, List.cons_append, List.cons.injEq] at h
    obtain ⟨rfl, rfl⟩ := h
    rw [e.length_byte, List.length_cons, List.length_append] at short
    omega

theorem AdEnding.bytes_inj {a b : AdEnding} (h : a.bytes = b.bytes) : a = b := by
  cases a <;> cases b <;> simp only [AdEnding.bytes, reduceCtorEq, List.cons.injEq] at h
  · rfl
  · rw [h.2]
  · rename_i short
    obtain ⟨rfl, -⟩ := h
    simp at short
  · rename_i short _
    obtain ⟨rfl, -⟩ := h
    simp at short
  · obtain ⟨rfl, rfl⟩ := h
    rfl

theorem AdElement.bytes_append_inj {e f : AdElement} {x y : List UInt8} (h : e.bytes ++ x = f.bytes ++ y) :
    e = f ∧ x = y := by
  obtain ⟨hbyte, hrest⟩ := List.cons.inj h
  obtain ⟨htype, hvalue⟩ := List.cons.inj hrest
  have hlength : e.value.length = f.value.length := by
    have he := e.length_byte
    have hf := f.length_byte
    rw [hbyte] at he
    omega
  obtain ⟨hsame, hmore⟩ := List.append_inj hvalue hlength
  refine ⟨?_, hmore⟩
  cases e
  cases f
  simp_all

theorem elements_unique {elements elements' : List AdElement} {ending ending' : AdEnding}
    (h : elements.flatMap AdElement.bytes ++ ending.bytes = elements'.flatMap AdElement.bytes ++ ending'.bytes) :
    elements = elements' ∧ ending = ending' := by
  induction elements generalizing elements' with
  | nil =>
    cases elements' with
    | nil => exact ⟨rfl, AdEnding.bytes_inj h⟩
    | cons f elements' =>
      rw [List.flatMap_cons, List.append_assoc] at h
      exact absurd h (ending.not_element f _)
  | cons e elements ih =>
    rw [List.flatMap_cons, List.append_assoc] at h
    cases elements' with
    | nil => exact absurd h.symm (ending'.not_element e _)
    | cons f elements' =>
      rw [List.flatMap_cons, List.append_assoc] at h
      obtain ⟨rfl, hmore⟩ := AdElement.bytes_append_inj h
      obtain ⟨rfl, rfl⟩ := ih hmore
      exact ⟨rfl, rfl⟩

/-- By induction on what is left to read. -/
theorem exists_elements (data : List UInt8) :
    ∃ (elements : List AdElement) (ending : AdEnding), data = elements.flatMap AdElement.bytes ++ ending.bytes := by
  induction hn : data.length using Nat.strongRecOn generalizing data with
  | ind n ih =>
    cases data with
    | nil => exact ⟨[], .complete, rfl⟩
    | cons length rest =>
      -- a zero length ends the reading, a length past the end cuts it short
      by_cases hzero : length = 0
      · exact ⟨[], .terminated rest, by rw [hzero]; rfl⟩
      · by_cases hshort : rest.length < length.toNat
        · exact ⟨[], .truncated length rest hshort, rfl⟩
        · have hpos : 0 < length.toNat := by
            rw [Nat.pos_iff_ne_zero]
            intro h
            exact hzero (UInt8.toNat_inj.mp h)
          cases rest with
          | nil =>
            simp only [List.length_nil] at hshort
            omega
          | cons type rest =>
            simp only [List.length_cons] at hshort hn
            have hlt := length.toNat_lt
            have hvalue : (rest.take (length.toNat - 1)).length = length.toNat - 1 := by
              rw [List.length_take]
              omega
            -- one element off the front, the bytes after it by induction
            obtain ⟨elements, ending, hmore⟩ := ih (rest.drop (length.toNat - 1)).length
              (by rw [List.length_drop]; omega) _ rfl
            let e : AdElement := ⟨type, rest.take (length.toNat - 1), by omega⟩
            refine ⟨e :: elements, ending, ?_⟩
            have hbyte : UInt8.ofNat (e.value.length + 1) = length := by
              rw [hvalue, Nat.sub_add_cancel hpos]
              exact UInt8.ofNat_toNat
            rw [List.flatMap_cons, List.append_assoc, ← hmore, AdElement.bytes, hbyte, List.cons_append,
              List.cons_append, List.take_append_drop]

theorem AdElement.bytes_length (e : AdElement) : e.bytes.length = e.value.length + 2 := rfl

section

variable (platform : Platform) (source : String)

theorem loop_element (e : AdElement) (front rest : List UInt8) (fuel : Nat) :
    logAdvertisementElementsLoop platform source (front ++ (e.bytes ++ rest)) (fuel + 1) front.length =
      (logAdvertisementElementsLoop platform source (front ++ e.bytes ++ rest) fuel (front ++ e.bytes).length).bind
        fun lines => .ok (elementLine platform source e.type e.value :: lines) := by
  have hdata : front ++ (e.bytes ++ rest) =
      front ++ UInt8.ofNat (e.value.length + 1) :: e.type :: (e.value ++ rest) := rfl
  have hlength : getAt (front ++ (e.bytes ++ rest)) front.length = .ok (UInt8.ofNat (e.value.length + 1)) :=
    getAt_of_getElem? (by simp [hdata])
  have htype : getAt (front ++ (e.bytes ++ rest)) (front.length + 1) = .ok e.type :=
    getAt_of_getElem? (by simp [hdata])
  have hvalue : sliceAt (front ++ (e.bytes ++ rest)) (front.length + 1 + 1) e.value.length = .ok e.value := by
    have hsplit : front ++ (e.bytes ++ rest) =
        front ++ [UInt8.ofNat (e.value.length + 1), e.type] ++ e.value ++ rest := by simp [hdata]
    have hslice := sliceAt_append (front ++ [UInt8.ofNat (e.value.length + 1), e.type]) e.value rest
    rw [hsplit]
    simpa using hslice
  have hinside : front.length < (front ++ (e.bytes ++ rest)).length := by
    rw [List.length_append, List.length_append, e.bytes_length]
    omega
  have hfits : ¬e.value.length + 1 > (front ++ (e.bytes ++ rest)).length - (front.length + 1) := by
    rw [List.length_append, List.length_append, e.bytes_length]
    omega
  have hnext : (front ++ e.bytes).length = front.length + 1 + 1 + e.value.length := by
    rw [List.length_append, e.bytes_length]
    omega
  rw [logAdvertisementElementsLoop, if_pos hinside, hlength, ok_bind, if_neg e.length_pos, e.length_byte,
    if_neg hfits, htype, ok_bind]
  simp only [Nat.add_sub_cancel]
  rw [hvalue, ok_bind, hnext, List.append_assoc]
  rfl

theorem loop_ending (ending : AdEnding) (front : List UInt8) (fuel : Nat) (hfuel : ending.bytes.length ≤ fuel) :
    logAdvertisementElementsLoop platform source (front ++ ending.bytes) fuel front.length =
      .ok (ending.lines source front.length) := by
  cases ending with
  | complete =>
    cases fuel <;> simp [logAdvertisementElementsLoop, AdEnding.bytes, AdEnding.lines]
  | terminated padding =>
    cases fuel with
    | zero => simp [AdEnding.bytes] at hfuel
    | succ fuel =>
      have hzero : getAt (front ++ 0 :: padding) front.length = .ok 0 := getAt_of_getElem? (by simp)
      simp [logAdvertisementElementsLoop, AdEnding.bytes, AdEnding.lines, hzero]
  | truncated declared rest short =>
    cases fuel with
    | zero => simp [AdEnding.bytes] at hfuel
    | succ fuel =>
      have hdeclared : getAt (front ++ declared :: rest) front.length = .ok declared := getAt_of_getElem? (by simp)
      have hpos : declared ≠ 0 := by
        rintro rfl
        simp at short
      have hremaining : (front ++ declared :: rest).length - (front.length + 1) = rest.length := by
        rw [List.length_append, List.length_cons]
        omega
      unfold logAdvertisementElementsLoop AdEnding.bytes AdEnding.lines
      rw [if_pos (by simp), hdeclared, ok_bind, if_neg hpos, hremaining, if_pos short]
      rfl

/-- By induction on the elements, whatever was read before them. -/
theorem loop_elements (elements : List AdElement) (ending : AdEnding) (front : List UInt8) (fuel : Nat)
    (hfuel : (elements.flatMap AdElement.bytes ++ ending.bytes).length ≤ fuel) :
    logAdvertisementElementsLoop platform source (front ++ (elements.flatMap AdElement.bytes ++ ending.bytes)) fuel
        front.length =
      .ok (elements.map (fun e => elementLine platform source e.type e.value) ++
        ending.lines source (front.length + (elements.flatMap AdElement.bytes).length)) := by
  induction elements generalizing front fuel with
  | nil => exact loop_ending platform source ending front fuel hfuel
  | cons e elements ih =>
    rw [List.flatMap_cons, List.append_assoc] at hfuel ⊢
    cases fuel with
    | zero => simp [e.bytes_length] at hfuel
    | succ fuel =>
      have hrest : (elements.flatMap AdElement.bytes ++ ending.bytes).length ≤ fuel := by
        rw [List.length_append, e.bytes_length] at hfuel
        omega
      rw [loop_element, ih (front ++ e.bytes) fuel hrest]
      simp [Except.bind, Nat.add_assoc]

/-- The log names exactly the elements the bytes are made of, whatever bytes come. -/
theorem advertisement_elements (data : List UInt8) :
    ∃ (elements : List AdElement) (ending : AdEnding),
      (∀ elements' ending', data = elements'.flatMap AdElement.bytes ++ ending'.bytes ↔
        elements' = elements ∧ ending' = ending) ∧
      logAdvertisementElements platform source data =
        .ok (elements.map (fun e => elementLine platform source e.type e.value) ++
          ending.lines source (elements.flatMap AdElement.bytes).length) := by
  obtain ⟨elements, ending, hdata⟩ := exists_elements data
  refine ⟨elements, ending, ?_, ?_⟩
  · intro elements' ending'
    constructor
    · intro h
      exact elements_unique (h.symm.trans hdata)
    · rintro ⟨rfl, rfl⟩
      exact hdata
  · unfold logAdvertisementElements
    have hloop := loop_elements platform source elements ending [] data.length (by rw [← hdata])
    rw [← hdata] at hloop
    simpa using hloop

end

/-! ## Scans -/

/-- `ESP_BLE_ADV_DATA_LEN_MAX + ESP_BLE_SCAN_RSP_DATA_LEN_MAX` -/
def advertisementCapacity : Nat := 62

abbrev AdvertisementBytes := { bytes : List UInt8 // bytes.length = advertisementCapacity }

def AdvertisementBytes.zero : AdvertisementBytes := ⟨List.replicate advertisementCapacity 0, List.length_replicate⟩

/-- `std::copy` of the first `total` bytes of `source`, the rest stays. -/
def AdvertisementBytes.copy (source : AdvertisementBytes) (total : Nat) (target : AdvertisementBytes) :
    AdvertisementBytes :=
  ⟨source.1.take total ++ target.1.drop total, by
    have hsource := source.2
    have htarget := target.2
    rw [List.length_append, List.length_take, List.length_drop]
    omega⟩

/-- The scan response follows the advertisement at once. -/
structure BLEScanResult where
  bleAdv : AdvertisementBytes
  advDataLen : UInt8
  scanRspLen : UInt8
  bleAddrType : UInt8
  rssi : Int8

structure ESPBTDevice where
  addressUint64 : UInt64
  scanResult : BLEScanResult

structure PendingAdvertisement where
  bytes : AdvertisementBytes := .zero
  advertisementLength : UInt8 := 0
  scanResponseLength : UInt8 := 0
  addressType : UInt8 := 0
  rssi : Int8 := 0
  available : Bool := false

/-- The members of the component that concern advertisements. No other function uses them. -/
structure AdvertisementState where
  pendingAdvertisement : PendingAdvertisement := {}
  lastAdvertisement : AdvertisementBytes := .zero
  lastAdvertisementLength : UInt8 := 0

def BLEScanResult.total (scan : BLEScanResult) : Nat := scan.advDataLen.toNat + scan.scanRspLen.toNat

/-- The component never takes a device for itself: the answer is always `false`. -/
def parseDevice (address : UInt64) (device : ESPBTDevice) (s : AdvertisementState) : Bool × AdvertisementState :=
  if device.addressUint64 ≠ address then (false, s)
  else
    let scan := device.scanResult
    let total := scan.total
    if total > advertisementCapacity then (false, s)
    else
      let same := total = s.lastAdvertisementLength.toNat ∧
        scan.bleAdv.1.take total = s.lastAdvertisement.1.take total
      if same then (false, s)
      else
        (false, {
          lastAdvertisement := scan.bleAdv.copy total s.lastAdvertisement
          lastAdvertisementLength := UInt8.ofNat total
          pendingAdvertisement := {
            bytes := scan.bleAdv.copy total s.pendingAdvertisement.bytes
            advertisementLength := scan.advDataLen
            scanResponseLength := scan.scanRspLen
            addressType := scan.bleAddrType
            rssi := scan.rssi
            available := true } })

def processPendingAdvertisement (platform : Platform) (s : AdvertisementState) :
    Checked (AdvertisementState × List AdvertisementLine) :=
  if !s.pendingAdvertisement.available then return (s, [])
  else do
    let advertisement := s.pendingAdvertisement
    let s := { s with pendingAdvertisement := { advertisement with available := false } }
    let advertisementLength := advertisement.advertisementLength.toNat
    let advertisementData ← sliceAt advertisement.bytes.1 0 advertisementLength
    let scanResponseData ← sliceAt advertisement.bytes.1 advertisementLength advertisement.scanResponseLength.toNat
    let report := AdvertisementLine.report platform.addressStr advertisement.addressType advertisement.rssi
      advertisement.advertisementLength advertisement.scanResponseLength
      (formatValue platform (.bytes advertisementData)) (formatValue platform (.bytes scanResponseData))
    let advertisementLines ← logAdvertisementElements platform "advertisement" advertisementData
    let scanResponseLines ← logAdvertisementElements platform "scan_response" scanResponseData
    return (s, report :: advertisementLines ++ scanResponseLines)

/-! ## Runs -/

/-- What reaches this part of the component. -/
inductive AdvertisementEvent where
  | scan (device : ESPBTDevice)
  | loop

section

variable (platform : Platform) (address : UInt64)

/-- A step, with the lines logged so far. -/
def advertisementStep (s : AdvertisementState × List AdvertisementLine) :
    AdvertisementEvent → Checked (AdvertisementState × List AdvertisementLine)
  | .scan device => .ok ((parseDevice address device s.1).2, s.2)
  | .loop => do
    let (next, lines) ← processPendingAdvertisement platform s.1
    return (next, s.2 ++ lines)

def advertisementRun (events : List AdvertisementEvent) : Checked (AdvertisementState × List AdvertisementLine) :=
  events.foldlM (advertisementStep platform address) ({}, [])

end

/-! ## What a run is worth -/

def ESPBTDevice.payload (device : ESPBTDevice) : List UInt8 :=
  device.scanResult.bleAdv.1.take device.scanResult.total

/-- The scans that are of the remote and within the limit. -/
def AdvertisementEvent.heard? (address : UInt64) : AdvertisementEvent → Option ESPBTDevice
  | .scan device =>
    if device.addressUint64 = address ∧ device.scanResult.total ≤ advertisementCapacity then some device else none
  | .loop => none

/-- The last payload heard, nothing before the first. -/
def lastHeard (address : UInt64) (events : List AdvertisementEvent) : List UInt8 :=
  ((events.filterMap (AdvertisementEvent.heard? address)).getLast?.map ESPBTDevice.payload).getD []

/-- A scan that brings another payload than the one before. -/
def News (address : UInt64) (before : List AdvertisementEvent) (device : ESPBTDevice) : Prop :=
  (AdvertisementEvent.scan device).heard? address = some device ∧ device.payload ≠ lastHeard address before

/-- No `loop()`, and no other payload. -/
def AdvertisementEvent.Keeps (address : UInt64) (device : ESPBTDevice) (event : AdvertisementEvent) : Prop :=
  event ≠ .loop ∧ ∀ other, event.heard? address = some other → other.payload = device.payload

/-- The news that still stand when the events are over. -/
def Standing (address : UInt64) (events : List AdvertisementEvent) (device : ESPBTDevice) : Prop :=
  ∃ before after, events = before ++ .scan device :: after ∧ News address before device ∧
    ∀ event ∈ after, event.Keeps address device

section

variable {address : UInt64} {events : List AdvertisementEvent}

theorem lastHeard_concat (event : AdvertisementEvent) : lastHeard address (events ++ [event]) =
    ((event.heard? address).map ESPBTDevice.payload).getD (lastHeard address events) := by
  unfold lastHeard
  rw [List.filterMap_append, List.filterMap_cons, List.filterMap_nil]
  cases event.heard? address <;> simp

theorem Standing.lastHeard {device : ESPBTDevice} (h : Standing address events device) :
    lastHeard address events = device.payload := by
  obtain ⟨before, after, rfl, ⟨hheard, -⟩, hkeeps⟩ := h
  induction after using List.reverseRecOn with
  | nil => rw [lastHeard_concat, hheard]; rfl
  | append_singleton after event ih =>
    have hlast := (hkeeps event (by simp)).2
    rw [← List.cons_append, ← List.append_assoc, lastHeard_concat]
    cases hother : event.heard? address with
    | none => exact ih fun e he => hkeeps e (by simp [he])
    | some other => exact hlast other hother

/-- The last event of a split is the scan itself or one that keeps it. -/
theorem standing_concat_iff {event : AdvertisementEvent} {device : ESPBTDevice} :
    Standing address (events ++ [event]) device ↔
      (event = .scan device ∧ News address events device) ∨
        (Standing address events device ∧ event.Keeps address device) := by
  constructor
  · rintro ⟨before, after, hsplit, hnews, hkeeps⟩
    rcases List.eq_nil_or_concat after with rfl | ⟨after, last, rfl⟩
    · obtain ⟨rfl, hevent⟩ := List.append_inj' hsplit rfl
      exact .inl ⟨(List.cons.inj hevent).1, hnews⟩
    · rw [List.concat_eq_append] at hsplit hkeeps
      rw [← List.cons_append, ← List.append_assoc] at hsplit
      obtain ⟨rfl, hevent⟩ := List.append_inj' hsplit rfl
      obtain rfl := (List.cons.inj hevent).1
      exact .inr ⟨⟨before, after, rfl, hnews, fun e he => hkeeps e (by simp [he])⟩, hkeeps event (by simp)⟩
  · rintro (⟨rfl, hnews⟩ | ⟨⟨before, after, rfl, hnews, hkeeps⟩, hlast⟩)
    · exact ⟨events, [], rfl, hnews, by simp⟩
    · refine ⟨before, after ++ [event], by simp, hnews, ?_⟩
      intro e he
      rcases List.mem_append.mp he with he | he
      · exact hkeeps e he
      · rwa [List.mem_singleton.mp he]

theorem not_standing_loop (device : ESPBTDevice) : ¬Standing address (events ++ [.loop]) device := by
  rw [standing_concat_iff]
  rintro (⟨h, -⟩ | ⟨-, h, -⟩)
  · cases h
  · exact h rfl

theorem standing_scan_iff {other device : ESPBTDevice} (hold : ¬News address events other) :
    Standing address (events ++ [.scan other]) device ↔ Standing address events device := by
  rw [standing_concat_iff]
  constructor
  · rintro (⟨h, hnews⟩ | ⟨h, -⟩)
    · cases h
      exact absurd hnews hold
    · exact h
  · intro h
    refine .inr ⟨h, nofun, ?_⟩
    intro heard hheard
    by_contra hother
    have hsame : heard = other := by
      simp only [AdvertisementEvent.heard?, Option.ite_none_right_eq_some, Option.some.injEq] at hheard
      exact hheard.2.symm
    subst hsame
    exact hold ⟨hheard, by rwa [h.lastHeard]⟩

theorem standing_news_iff {other device : ESPBTDevice} (hnews : News address events other) :
    Standing address (events ++ [.scan other]) device ↔ device = other := by
  rw [standing_concat_iff]
  constructor
  · rintro (⟨h, -⟩ | ⟨h, -, hkeeps⟩)
    · cases h
      rfl
    · rw [← h.lastHeard] at hkeeps
      exact absurd (hkeeps other hnews.1) hnews.2
  · rintro rfl
    exact .inl ⟨rfl, hnews⟩

end

/-! ## The state -/

/-- The pending advertisement is the device's. -/
structure PendingAdvertisement.Holds (p : PendingAdvertisement) (device : ESPBTDevice) : Prop where
  bytes : p.bytes.1.take device.scanResult.total = device.payload
  advertisementLength : p.advertisementLength = device.scanResult.advDataLen
  scanResponseLength : p.scanResponseLength = device.scanResult.scanRspLen
  addressType : p.addressType = device.scanResult.bleAddrType
  rssi : p.rssi = device.scanResult.rssi

structure AdvertisementInv (address : UInt64) (events : List AdvertisementEvent) (s : AdvertisementState) : Prop where
  length : s.lastAdvertisementLength.toNat = (lastHeard address events).length
  last : s.lastAdvertisement.1.take (lastHeard address events).length = lastHeard address events
  standing : s.pendingAdvertisement.available = true →
    ∃ device, Standing address events device ∧ s.pendingAdvertisement.Holds device
  nothing : s.pendingAdvertisement.available = false → ∀ device, ¬Standing address events device

theorem AdvertisementInv.initial (address : UInt64) : AdvertisementInv address [] {} := by
  refine ⟨rfl, rfl, nofun, ?_⟩
  rintro - device ⟨before, after, hsplit, -⟩
  simp at hsplit

theorem ESPBTDevice.payload_length (device : ESPBTDevice) (h : device.scanResult.total ≤ advertisementCapacity) :
    device.payload.length = device.scanResult.total := by
  have hroom := device.scanResult.bleAdv.2
  unfold ESPBTDevice.payload
  rw [List.length_take]
  omega

theorem AdvertisementBytes.copy_take (source target : AdvertisementBytes) {total : Nat}
    (h : total ≤ advertisementCapacity) : (source.copy total target).1.take total = source.1.take total := by
  have hsource := source.2
  unfold AdvertisementBytes.copy
  rw [List.take_append_of_le_length (by rw [List.length_take]; omega), List.take_take, Nat.min_self]

theorem heard?_iff {address : UInt64} {device : ESPBTDevice} :
    (AdvertisementEvent.scan device).heard? address = some device ↔
      device.addressUint64 = address ∧ device.scanResult.total ≤ advertisementCapacity := by
  simp [AdvertisementEvent.heard?]

theorem AdvertisementInv.same_iff {address : UInt64} {events : List AdvertisementEvent} {s : AdvertisementState}
    (h : AdvertisementInv address events s) {device : ESPBTDevice}
    (hroom : device.scanResult.total ≤ advertisementCapacity) :
    (device.scanResult.total = s.lastAdvertisementLength.toNat ∧
      device.scanResult.bleAdv.1.take device.scanResult.total =
        s.lastAdvertisement.1.take device.scanResult.total) ↔ device.payload = lastHeard address events := by
  rw [h.length]
  constructor
  · rintro ⟨htotal, hbytes⟩
    unfold ESPBTDevice.payload
    rw [hbytes, htotal, h.last]
  · intro hsame
    have htotal : device.scanResult.total = (lastHeard address events).length := by
      rw [← hsame, device.payload_length hroom]
    refine ⟨htotal, ?_⟩
    rw [htotal, h.last, ← htotal]
    exact hsame

theorem parseDevice_cases (address : UInt64) (device : ESPBTDevice) (s : AdvertisementState)
    {events : List AdvertisementEvent} (h : AdvertisementInv address events s) :
    (¬News address events device ∧ parseDevice address device s = (false, s)) ∨
    (News address events device ∧ ∃ next, parseDevice address device s = (false, next) ∧
      next.lastAdvertisement = device.scanResult.bleAdv.copy device.scanResult.total s.lastAdvertisement ∧
      next.lastAdvertisementLength = UInt8.ofNat device.scanResult.total ∧
      next.pendingAdvertisement.available = true ∧ next.pendingAdvertisement.Holds device) := by
  unfold parseDevice
  by_cases haddress : device.addressUint64 = address
  · rw [if_neg (not_not.mpr haddress)]
    by_cases hroom : device.scanResult.total ≤ advertisementCapacity
    · have hheard := heard?_iff.mpr ⟨haddress, hroom⟩
      dsimp only
      rw [if_neg (Nat.not_lt.mpr hroom)]
      by_cases hsame : device.payload = lastHeard address events
      · rw [if_pos ((h.same_iff hroom).mpr hsame)]
        exact .inl ⟨fun hnews => hnews.2 hsame, rfl⟩
      · rw [if_neg (mt (h.same_iff hroom).mp hsame)]
        refine .inr ⟨⟨hheard, hsame⟩, _, rfl, rfl, rfl, rfl, ?_⟩
        exact ⟨AdvertisementBytes.copy_take _ _ hroom, rfl, rfl, rfl, rfl⟩
    · dsimp only
      rw [if_pos (Nat.not_le.mp hroom)]
      exact .inl ⟨fun hnews => hroom (heard?_iff.mp hnews.1).2, rfl⟩
  · rw [if_pos haddress]
    exact .inl ⟨fun hnews => haddress (heard?_iff.mp hnews.1).1, rfl⟩

theorem AdvertisementInv.scan {address : UInt64} {events : List AdvertisementEvent} {s : AdvertisementState}
    (h : AdvertisementInv address events s) (device : ESPBTDevice) :
    AdvertisementInv address (events ++ [.scan device]) (parseDevice address device s).2 := by
  rcases parseDevice_cases address device s h with ⟨hold, heq⟩ | ⟨hnews, next, heq, hlast, hlength, havailable, hholds⟩
  · -- no news: another device, too long, or the payload heard before
    have hheard : lastHeard address (events ++ [.scan device]) = lastHeard address events := by
      rw [lastHeard_concat]
      cases hother : (AdvertisementEvent.scan device).heard? address with
      | none => rfl
      | some other =>
        have hsame : device = other := by
          simp only [AdvertisementEvent.heard?, Option.ite_none_right_eq_some, Option.some.injEq] at hother
          exact hother.2
        subst hsame
        by_contra hdifferent
        exact hold ⟨hother, hdifferent⟩
    rw [heq]
    refine ⟨by rw [hheard]; exact h.length, by rw [hheard]; exact h.last, ?_, ?_⟩
    · intro havailable
      obtain ⟨standing, hstanding, hholds⟩ := h.standing havailable
      exact ⟨standing, (standing_scan_iff hold).mpr hstanding, hholds⟩
    · intro hnone other hother
      exact h.nothing hnone other ((standing_scan_iff hold).mp hother)
  · -- news, which replace whatever was pending
    have hroom := (heard?_iff.mp hnews.1).2
    have hheard : lastHeard address (events ++ [.scan device]) = device.payload := by
      rw [lastHeard_concat, hnews.1]
      rfl
    have hbyte : (UInt8.ofNat device.scanResult.total).toNat = device.scanResult.total := by
      unfold advertisementCapacity at hroom
      rw [UInt8.toNat_ofNat']
      omega
    rw [heq]
    refine ⟨?_, ?_, ?_, ?_⟩
    · rw [hheard, hlength, hbyte, device.payload_length hroom]
    · rw [hheard, hlast, device.payload_length hroom, AdvertisementBytes.copy_take _ _ hroom]
      rfl
    · intro _
      exact ⟨device, (standing_news_iff hnews).mpr rfl, hholds⟩
    · intro hnone
      rw [havailable] at hnone
      cases hnone

/-! ## What `loop()` logs -/

/-- The lines of a device: its report, then the elements of the advertisement and of the scan response. -/
def ReportedAs (platform : Platform) (device : ESPBTDevice) (lines : List AdvertisementLine) : Prop :=
  let scan := device.scanResult
  let advertisementData := device.payload.take scan.advDataLen.toNat
  let scanResponseData := device.payload.drop scan.advDataLen.toNat
  ∃ advertisementLines scanResponseLines,
    logAdvertisementElements platform "advertisement" advertisementData = .ok advertisementLines ∧
    logAdvertisementElements platform "scan_response" scanResponseData = .ok scanResponseLines ∧
    lines = .report platform.addressStr scan.bleAddrType scan.rssi scan.advDataLen scan.scanRspLen
      (formatValue platform (.bytes advertisementData)) (formatValue platform (.bytes scanResponseData)) ::
        advertisementLines ++ scanResponseLines

theorem process_idle (platform : Platform) {s : AdvertisementState} (h : s.pendingAdvertisement.available = false) :
    processPendingAdvertisement platform s = .ok (s, []) := by
  unfold processPendingAdvertisement
  rw [h]
  rfl

theorem process_pending (platform : Platform) {s : AdvertisementState} {device : ESPBTDevice}
    (havailable : s.pendingAdvertisement.available = true) (hholds : s.pendingAdvertisement.Holds device)
    (hroom : device.scanResult.total ≤ advertisementCapacity) :
    ∃ lines, ReportedAs platform device lines ∧ processPendingAdvertisement platform s =
      .ok ({ s with pendingAdvertisement := { s.pendingAdvertisement with available := false } }, lines) := by
  obtain ⟨hbytes, hadvertisement, hresponse, htype, hrssi⟩ := hholds
  have hsize := s.pendingAdvertisement.bytes.2
  have hadv : sliceAt s.pendingAdvertisement.bytes.1 0 device.scanResult.advDataLen.toNat =
      .ok (device.payload.take device.scanResult.advDataLen.toNat) := by
    unfold BLEScanResult.total at hroom hbytes
    rw [sliceAt_of_le (by omega), ← hbytes, List.take_take, List.drop_zero, Nat.min_eq_left (by omega)]
  have hrsp : sliceAt s.pendingAdvertisement.bytes.1 device.scanResult.advDataLen.toNat
      device.scanResult.scanRspLen.toNat = .ok (device.payload.drop device.scanResult.advDataLen.toNat) := by
    unfold BLEScanResult.total at hroom hbytes
    rw [sliceAt_of_le (by omega), ← hbytes, List.drop_take, Nat.add_sub_cancel_left]
  obtain ⟨elements, ending, -, hlines⟩ := advertisement_elements platform "advertisement"
    (device.payload.take device.scanResult.advDataLen.toNat)
  obtain ⟨elements', ending', -, hlines'⟩ := advertisement_elements platform "scan_response"
    (device.payload.drop device.scanResult.advDataLen.toNat)
  refine ⟨_, ⟨_, _, hlines, hlines', rfl⟩, ?_⟩
  unfold processPendingAdvertisement
  rw [havailable]
  simp only [Bool.not_true, Bool.false_eq_true, if_false, hadvertisement, hresponse, htype, hrssi, hadv, hrsp, hlines,
    hlines', ok_bind]
  rfl

theorem AdvertisementInv.loop {address : UInt64} {events : List AdvertisementEvent} {s : AdvertisementState}
    (platform : Platform) (h : AdvertisementInv address events s) :
    ∃ next lines, processPendingAdvertisement platform s = .ok (next, lines) ∧
      AdvertisementInv address (events ++ [.loop]) next ∧
      ((∃ device, Standing address events device ∧ ReportedAs platform device lines) ∨
        ((∀ device, ¬Standing address events device) ∧ lines = [])) := by
  have hheard : lastHeard address (events ++ [.loop]) = lastHeard address events := lastHeard_concat .loop
  have hkeep {next : AdvertisementState} (hlast : next.lastAdvertisement = s.lastAdvertisement)
      (hlength : next.lastAdvertisementLength = s.lastAdvertisementLength)
      (hnone : next.pendingAdvertisement.available = false) :
      AdvertisementInv address (events ++ [.loop]) next := by
    refine ⟨by rw [hheard, hlength]; exact h.length, by rw [hheard, hlast]; exact h.last, ?_, fun _ => not_standing_loop⟩
    intro havailable
    rw [hnone] at havailable
    cases havailable
  cases havailable : s.pendingAdvertisement.available with
  | false => exact ⟨s, [], process_idle platform havailable, hkeep rfl rfl havailable, .inr ⟨h.nothing havailable, rfl⟩⟩
  | true =>
    obtain ⟨device, hstanding, hholds⟩ := h.standing havailable
    obtain ⟨before, after, -, hnews, -⟩ := id hstanding
    obtain ⟨lines, hreported, hprocess⟩ := process_pending platform havailable hholds (heard?_iff.mp hnews.1).2
    exact ⟨_, lines, hprocess, hkeep rfl rfl rfl, .inl ⟨device, hstanding, hreported⟩⟩

section

variable (platform : Platform) (address : UInt64)

theorem advertisementRun_concat (events : List AdvertisementEvent) (event : AdvertisementEvent) :
    advertisementRun platform address (events ++ [event]) =
      (advertisementRun platform address events).bind fun s => advertisementStep platform address s event := by
  unfold advertisementRun
  rw [List.foldlM_append]
  cases events.foldlM (advertisementStep platform address) ({}, []) with
  | error => rfl
  | ok s =>
    rw [ok_bind, List.foldlM_cons]
    change _ = advertisementStep platform address s event
    cases advertisementStep platform address s event <;> rfl

theorem advertisementRun_inv (events : List AdvertisementEvent) :
    ∃ s lines, advertisementRun platform address events = .ok (s, lines) ∧ AdvertisementInv address events s := by
  induction events using List.reverseRecOn with
  | nil => exact ⟨{}, [], rfl, .initial address⟩
  | append_singleton events event ih =>
    obtain ⟨s, lines, hrun, hinv⟩ := ih
    rw [advertisementRun_concat, hrun]
    cases event with
    | scan device => exact ⟨_, lines, rfl, hinv.scan device⟩
    | loop =>
      obtain ⟨next, new, hprocess, hnext, -⟩ := hinv.loop platform
      refine ⟨next, lines ++ new, ?_, hnext⟩
      simp only [Except.bind, advertisementStep, hprocess, ok_bind]
      rfl

/-- A `loop()` logs the news that stand, once, and nothing else: what was overtaken before it, repeated after it,
heard from another device or too long leaves no line. -/
theorem advertisement_news (events : List AdvertisementEvent) :
    ∃ s lines next new, advertisementRun platform address events = .ok (s, lines) ∧
      advertisementRun platform address (events ++ [.loop]) = .ok (next, lines ++ new) ∧
      ((∃ device, Standing address events device ∧ ReportedAs platform device new) ∨
        ((∀ device, ¬Standing address events device) ∧ new = [])) := by
  obtain ⟨s, lines, hrun, hinv⟩ := advertisementRun_inv platform address events
  obtain ⟨next, new, hprocess, -, hnew⟩ := hinv.loop platform
  refine ⟨s, lines, next, new, hrun, ?_, hnew⟩
  rw [advertisementRun_concat, hrun]
  simp only [Except.bind, advertisementStep, hprocess, ok_bind]
  rfl

end

/-! ## Beside the component -/

/-- A scan, or what reaches the component. -/
inductive ClientEvent where
  | scan (device : ESPBTDevice)
  | component (event : Event)

/-- The component with its members for advertisements, and the lines logged of them. -/
structure Client where
  component : BLEClientHID
  advertisements : AdvertisementState := {}
  lines : List AdvertisementLine := []

/-- `loop()` begins with the pending advertisement. -/
def Client.step (address : UInt64) (c : Client) : ClientEvent → Checked Client
  | .scan device => .ok { c with advertisements := (parseDevice address device c.advertisements).2 }
  | .component (.loop env) => do
    let (advertisements, lines) ← processPendingAdvertisement env.platform c.advertisements
    return { component := c.component.loop env, advertisements, lines := c.lines ++ lines }
  | .component event => .ok { c with component := BleClientHid.step c.component event }

def clientRun (address : UInt64) (s : BLEClientHID) (events : List ClientEvent) : Checked Client :=
  events.foldlM (Client.step address) { component := s }

namespace ClientEvent

def component? : ClientEvent → Option Event
  | scan _ => none
  | component event => some event

def advertisement? : ClientEvent → Option AdvertisementEvent
  | scan device => some (.scan device)
  | component (.loop _) => some .loop
  | component (.gattc ..) => none

end ClientEvent

section

variable {platform : Platform} {address : UInt64}

/-- A step never fails, and is one of the component, one of the advertisements or both. -/
theorem Client.step_split {c : Client} {events : List AdvertisementEvent}
    (h : AdvertisementInv address events c.advertisements) {event : ClientEvent}
    (hplatform : ∀ e ∈ event.component?, e.env.platform = platform) :
    ∃ next, c.step address event = .ok next ∧
      next.component = run c.component event.component?.toList ∧
      event.advertisement?.toList.foldlM (advertisementStep platform address) (c.advertisements, c.lines) =
        .ok (next.advertisements, next.lines) ∧
      AdvertisementInv address (events ++ event.advertisement?.toList) next.advertisements := by
  cases event with
  | scan device => exact ⟨_, rfl, rfl, rfl, h.scan device⟩
  | component event =>
    cases event with
    | gattc env event gattcIf =>
      refine ⟨_, rfl, rfl, rfl, ?_⟩
      rw [ClientEvent.advertisement?, Option.toList_none, List.append_nil]
      exact h
    | loop env =>
      obtain rfl : env.platform = platform := hplatform _ rfl
      obtain ⟨next, new, hprocess, hinv, -⟩ := h.loop env.platform
      refine ⟨{ component := c.component.loop env, advertisements := next, lines := c.lines ++ new }, ?_, rfl, ?_,
        hinv⟩
      · rw [Client.step, hprocess]
        rfl
      · rw [ClientEvent.advertisement?, Option.toList_some, List.foldlM_cons, advertisementStep, hprocess]
        rfl

/-- Scans and the component go past one another: a run of both is a run of the callbacks and `loop()` calls, and
a run of the scans and `loop()` calls. -/
theorem client_run (s : BLEClientHID) (events : List ClientEvent)
    (hplatform : ∀ event ∈ events.filterMap ClientEvent.component?, event.env.platform = platform) :
    ∃ c, clientRun address s events = .ok c ∧ c.component = run s (events.filterMap ClientEvent.component?) ∧
      advertisementRun platform address (events.filterMap ClientEvent.advertisement?) =
        .ok (c.advertisements, c.lines) := by
  suffices hinv : ∃ c, clientRun address s events = .ok c ∧
      c.component = run s (events.filterMap ClientEvent.component?) ∧
      advertisementRun platform address (events.filterMap ClientEvent.advertisement?) =
        .ok (c.advertisements, c.lines) ∧
      AdvertisementInv address (events.filterMap ClientEvent.advertisement?) c.advertisements by
    obtain ⟨c, hrun, hcomponent, hlog, -⟩ := hinv
    exact ⟨c, hrun, hcomponent, hlog⟩
  induction events using List.reverseRecOn with
  | nil => exact ⟨{ component := s }, rfl, rfl, rfl, .initial address⟩
  | append_singleton events event ih =>
    rw [List.filterMap_append, List.forall_mem_append] at hplatform
    obtain ⟨c, hrun, hcomponent, hlog, hinv⟩ := ih hplatform.1
    have hnow : ∀ e ∈ event.component?, e.env.platform = platform := by
      intro e he
      exact hplatform.2 e (by simpa using he)
    obtain ⟨next, hstep, hcomponent', hlog', hinv'⟩ := Client.step_split hinv hnow
    have hone {α : Type} (f : ClientEvent → Option α) : [event].filterMap f = (f event).toList := by
      cases hf : f event <;> simp [hf]
    refine ⟨next, ?_, ?_, ?_, ?_⟩
    · unfold clientRun at hrun ⊢
      rw [List.foldlM_append, hrun, ok_bind, List.foldlM_cons, hstep]
      rfl
    · rw [hcomponent', hcomponent, List.filterMap_append, hone]
      unfold run
      rw [List.foldl_append]
    · unfold advertisementRun at hlog ⊢
      rw [List.filterMap_append, List.foldlM_append, hlog, ok_bind, hone, hlog']
    · rw [List.filterMap_append, hone]
      exact hinv'

end

end BleClientHid

import BleClientHid.OrderedEventBuffer
import BleClientHid.Types

/-! # Home Assistant events

`make_hid_event_` and the text helpers it uses.
-/

namespace BleClientHid

/-- What the component calls outside its own code. -/
structure Platform where
  addressStr : String
  /-- `as_128bit().to_str()` -/
  uuidString : ESPBTUUID → String
  /-- `none` when mbedtls reports an error. -/
  sha256 : List UInt8 → Option (List UInt8)
  formatHexPretty : List UInt8 → String
  lookupUsageName : Nat → Nat → Option String

def hexDigit (n : Nat) : Char := "0123456789abcdef".toList.getD n '0'

def digestString (digest : List UInt8) : String :=
  String.ofList (digest.flatMap fun b => [hexDigit (b.toNat >>> 4), hexDigit (b.toNat &&& 0x0F)])

def sha256 (platform : Platform) (data : List UInt8) : String :=
  match platform.sha256 data with
  | none => "unavailable"
  | some digest => digestString digest

def formatValue (platform : Platform) (data : Buffer) : String :=
  match data with
  | .null (_ + 1) => "<null>"
  | .null 0 => "<empty>"
  | .bytes [] => "<empty>"
  | .bytes bytes => platform.formatHexPretty bytes

/-- A platform without usage tables whose hash always fails. -/
def examplePlatform : Platform where
  addressStr := "AA:BB:CC:DD:EE:01"
  uuidString uuid :=
    let digits := [12, 8, 4, 0].map fun shift => hexDigit ((uuid.short >>> shift) &&& 0x0F)
    "0000" ++ String.ofList digits ++ "-0000-1000-8000-00805f9b34fb"
  sha256 _ := none
  formatHexPretty data := ".".intercalate (data.map fun b => digestString [b])
  lookupUsageName _ _ := none

/-- The part of the component that `make_hid_event_` reads. -/
structure EventView where
  platform : Platform
  services : List GattServiceInfo := []
  hidServices : List HIDServiceContext := []

def reportTypeName (source : HIDReportSource) : String :=
  if source.hasReportType then
    match source.reportType with
    | 1 => hidReportKindName .input
    | 2 => hidReportKindName .output
    | 3 => hidReportKindName .feature
    | _ => "unknown"
  else "unknown"

def characteristicText (view : EventView) (handle : Nat) : String :=
  match findCharacteristic view.services handle with
  | none => "unknown"
  | some characteristic => view.platform.uuidString characteristic.uuid

/-- The raw envelope: what an event says without a value. -/
def envelope (view : EventView) (report : PendingHIDReport) (raw : String) (status : HIDDecodeStatus) :
    HIDEvent :=
  let source := report.source
  { data := [
      ("device", view.platform.addressStr),
      ("hid_service", toString source.serviceInstance),
      ("handle", toString source.characteristicHandle),
      ("characteristic_uuid", characteristicText view source.characteristicHandle),
      ("report_id", if source.hasReportId then toString source.reportId else "unknown"),
      ("hid_report_type", reportTypeName source),
      ("transport", if source.hasTransport then
        if source.isNotification then "notification" else "indication" else "unknown"),
      ("length", toString report.payload.length),
      ("raw_data", raw),
      ("decode_status", hidDecodeStatusName status),
      ("seq_id_from", toString report.seqId),
      ("seq_id_to", toString report.seqId)] }

def withProfileId (view : EventView) (report : PendingHIDReport) (event : HIDEvent) : HIDEvent :=
  match findHidContext view.hidServices report.source.serviceInstance with
  | none => event
  | some context =>
    if context.reportMapHash = "" then event
    else event.emplace "profile_id" (String.ofList (context.reportMapHash.toList.take 16))

def usageText (platform : Platform) (usage : HIDUsage) : String :=
  match platform.lookupUsageName usage.page usage.usage with
  | none => toString usage.page ++ "_" ++ toString usage.usage
  | some name => name

def withApplicationName (platform : Platform) (usage : HIDUsage) (event : HIDEvent) : HIDEvent :=
  match platform.lookupUsageName usage.page usage.usage with
  | none => event
  | some name => event.emplace "application_usage" name

def withValue (platform : Platform) (value : HIDReportItemValue) (event : HIDEvent) : HIDEvent :=
  let event := event.emplace "usage" (usageText platform value.usage)
  let event := event.emplace "usage_page" (toString value.usage.page)
  let event := event.emplace "usage_id" (toString value.usage.usage)
  let event := event.emplace "field_id" (toString value.fieldId)
  let event := event.emplace "collection_id"
    (if value.collectionId = noParent then "unknown" else toString value.collectionId)
  let event := event.emplace "application_usage_page" (toString value.applicationUsage.page)
  let event := event.emplace "application_usage_id" (toString value.applicationUsage.usage)
  let event := withApplicationName platform value.applicationUsage event
  let event := event.emplace "value" (toString value.value)
  let event := event.emplace "raw_value" (toString value.rawValue)
  event.emplace "relative" (if value.isRelative then "true" else "false")

/-- `make_hid_event_`; without a value, the raw envelope. -/
def makeHidEvent (view : EventView) (report : PendingHIDReport) (raw : String)
    (value : Option HIDReportItemValue) (status : HIDDecodeStatus) : HIDEvent :=
  let event := withProfileId view report (envelope view report raw status)
  match value with
  | none => event
  | some value => withValue view.platform value event

/-! ## What an event says -/

theorem find_emplace (event : HIDEvent) (key value key' : String) :
    (event.emplace key value).find key' =
      if key' = key then some ((event.find key).getD value) else event.find key' := by
  unfold HIDEvent.emplace
  by_cases hk : key' = key
  · subst hk
    split
    · rename_i hsome
      obtain ⟨v, hv⟩ := Option.isSome_iff_exists.mp hsome
      simp [hv]
    · rename_i hnone
      have hv : event.data.lookup key' = none := Option.not_isSome_iff_eq_none.mp hnone
      simp [HIDEvent.find, List.lookup_append, hv]
  · rw [if_neg hk]
    split
    · rfl
    · have hbeq : (key' == key) = false := beq_eq_false_iff_ne.mpr hk
      simp only [HIDEvent.find, List.lookup_append, List.lookup_cons, hbeq, List.lookup_nil]
      cases event.data.lookup key' <;> rfl

theorem find_withProfileId (view : EventView) (report : PendingHIDReport) (event : HIDEvent)
    {key : String} (h : key ≠ "profile_id") :
    (withProfileId view report event).find key = event.find key := by
  unfold withProfileId
  split
  · rfl
  · split
    · rfl
    · rw [find_emplace, if_neg h]

theorem find_withApplicationName (platform : Platform) (usage : HIDUsage) (event : HIDEvent)
    {key : String} (h : key ≠ "application_usage") :
    (withApplicationName platform usage event).find key = event.find key := by
  unfold withApplicationName
  split
  · rfl
  · rw [find_emplace, if_neg h]

/-- The keys that only an event with a value has. -/
def valueKeys : List String :=
  ["usage", "usage_page", "usage_id", "field_id", "collection_id", "application_usage_page",
    "application_usage_id", "application_usage", "value", "raw_value", "relative"]

theorem find_withValue (platform : Platform) (value : HIDReportItemValue) (event : HIDEvent)
    {key : String} (h : key ∉ valueKeys) : (withValue platform value event).find key = event.find key := by
  simp only [valueKeys, List.mem_cons, List.not_mem_nil, or_false, not_or] at h
  simp only [withValue, find_emplace, h, find_withApplicationName _ _ _ h.2.2.2.2.2.2.2.1, if_false]

/-- What `make_hid_event_` adds for a value, whatever names it finds. -/
def valueEntries (platform : Platform) (value : HIDReportItemValue) : List (String × String) :=
  [("usage", usageText platform value.usage),
    ("usage_page", toString value.usage.page),
    ("usage_id", toString value.usage.usage),
    ("field_id", toString value.fieldId),
    ("value", toString value.value),
    ("raw_value", toString value.rawValue),
    ("relative", if value.isRelative then "true" else "false")]

section

variable (view : EventView) (report : PendingHIDReport) (raw : String) (status : HIDDecodeStatus)

/-- Whatever the value, the envelope is the same. -/
theorem find_makeHidEvent (value : Option HIDReportItemValue) {key : String} (h : key ∉ valueKeys) :
    (makeHidEvent view report raw value status).find key =
      (makeHidEvent view report raw none status).find key := by
  cases value with
  | none => rfl
  | some value => exact find_withValue view.platform value _ h

theorem find_makeHidEvent_envelope (value : Option HIDReportItemValue) {key text : String}
    (h : (key, text) ∈ (envelope view report raw status).data) :
    (makeHidEvent view report raw value status).find key = some text := by
  have hkey : key ∉ valueKeys ∧ key ≠ "profile_id" ∧ (envelope view report raw status).find key = some text := by
    simp only [envelope, List.mem_cons, Prod.mk.injEq, List.not_mem_nil, or_false] at h
    rcases h with ⟨rfl, rfl⟩ | ⟨rfl, rfl⟩ | ⟨rfl, rfl⟩ | ⟨rfl, rfl⟩ | ⟨rfl, rfl⟩ | ⟨rfl, rfl⟩ | ⟨rfl, rfl⟩ | ⟨rfl, rfl⟩ |
      ⟨rfl, rfl⟩ | ⟨rfl, rfl⟩ | ⟨rfl, rfl⟩ | ⟨rfl, rfl⟩ <;> exact ⟨by decide, by decide, rfl⟩
  rw [find_makeHidEvent _ _ _ _ _ hkey.1, makeHidEvent, find_withProfileId _ _ _ hkey.2.1]
  exact hkey.2.2

/-- An event without a value has none of the fields that describe one. -/
theorem find_makeHidEvent_none (key : String) (h : key ∈ valueKeys) :
    (makeHidEvent view report raw none status).find key = none := by
  have hprofile : key ≠ "profile_id" := by
    rintro rfl
    exact absurd h (by decide)
  rw [makeHidEvent, find_withProfileId _ _ _ hprofile]
  simp only [valueKeys, List.mem_cons, List.not_mem_nil, or_false] at h
  rcases h with rfl | rfl | rfl | rfl | rfl | rfl | rfl | rfl | rfl | rfl | rfl <;> rfl

theorem find_makeHidEvent_entry (value : HIDReportItemValue) {key text : String}
    (h : (key, text) ∈ valueEntries view.platform value) :
    (makeHidEvent view report raw (some value) status).find key = some text := by
  have hnone : key ∈ valueKeys := by
    simp only [valueEntries, List.mem_cons, Prod.mk.injEq, List.not_mem_nil, or_false] at h
    rcases h with ⟨rfl, -⟩ | ⟨rfl, -⟩ | ⟨rfl, -⟩ | ⟨rfl, -⟩ | ⟨rfl, -⟩ | ⟨rfl, -⟩ | ⟨rfl, -⟩ <;> decide
  have hfree := find_makeHidEvent_none view report raw status key hnone
  simp only [valueEntries, List.mem_cons, Prod.mk.injEq, List.not_mem_nil, or_false] at h
  unfold makeHidEvent at hfree ⊢
  dsimp only at hfree ⊢
  unfold withValue
  dsimp only
  rcases h with ⟨rfl, rfl⟩ | ⟨rfl, rfl⟩ | ⟨rfl, rfl⟩ | ⟨rfl, rfl⟩ | ⟨rfl, rfl⟩ | ⟨rfl, rfl⟩ | ⟨rfl, rfl⟩ <;>
    simp only [find_emplace, find_withApplicationName, hfree, ne_eq, String.reduceEq, not_false_eq_true, if_false,
      if_true, Option.getD_none]

end

end BleClientHid

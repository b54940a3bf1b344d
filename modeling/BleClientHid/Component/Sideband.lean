import BleClientHid.Component.Footprint
import BleClientHid.Component.Provenance

/-! # Beside setup and reports

The handles that tell notifications apart, a pending rediscovery, the preferred connection
parameters and the published Battery Levels: few functions touch them.
-/

namespace BleClientHid

open Lib Setup BLEClientHID

def Output.level? : Output → Option Nat
  | .battery level => some level
  | .hidEvent _ => none

/-- What tells notifications apart, what is asked of the link, and the published Battery Levels. -/
structure Sideband where
  batteryHandles : Finset Nat
  serviceChangedHandles : Finset Nat
  rediscoveryRequested : Bool
  preferredConnParamsValid : Bool
  preferredConnParams : ConnParams
  levels : List Nat

/-- The parameters in the value of the characteristic. -/
def connParams (env : Env) (value : List UInt8) : ConnParams where
  minInt := littleEndian16 value 0
  maxInt := littleEndian16 value 2
  latency := littleEndian16 value 4
  timeout := littleEndian16 value 6
  bda := env.remoteBda

def Buffer.level : Buffer → List Nat
  | .bytes (level :: _) => [level.toNat]
  | _ => []

def Sideband.read (env : Env) (operation : GattReadOperation) (value : List UInt8) (b : Sideband) : Sideband :=
  match operation.purpose with
  | .batteryLevel =>
    { b with
      batteryHandles := insert operation.characteristicHandle b.batteryHandles
      levels := b.levels ++ env.sensed (Buffer.bytes value).level }
  | .preferredConnectionParameters =>
    if value.length = 8 then { b with preferredConnParamsValid := true, preferredConnParams := connParams env value }
    else b
  | _ => b

section

variable (env : Env) (operation : GattReadOperation) (value : List UInt8) (b : Sideband)

theorem Sideband.read_serviceChanged :
    (b.read env operation value).serviceChangedHandles = b.serviceChangedHandles := by
  unfold Sideband.read
  split
  · rfl
  · split <;> rfl
  · rfl

theorem Sideband.mem_read_battery {handle : Nat} : handle ∈ (b.read env operation value).batteryHandles ↔
    handle ∈ b.batteryHandles ∨ operation.purpose = .batteryLevel ∧ handle = operation.characteristicHandle := by
  unfold Sideband.read
  split
  · rename_i hpurpose
    simp [hpurpose, or_comm]
  · rename_i hpurpose
    split <;> simp [hpurpose]
  · simp_all

end

namespace BLEClientHID

def levels (s : BLEClientHID) : List Nat := s.outputs.filterMap Output.level?

def sideband (s : BLEClientHID) : Sideband where
  batteryHandles := s.batteryHandles
  serviceChangedHandles := s.serviceChangedHandles
  rediscoveryRequested := s.rediscoveryRequested
  preferredConnParamsValid := s.preferredConnParamsValid
  preferredConnParams := s.preferredConnParams
  levels := s.levels

theorem sideband_of_fixture {s t : BLEClientHID} (h : t.fixture = s.fixture) : t.sideband = s.sideband := by
  have hsideband := congrArg sideband h
  exact hsideband

section

variable (env : Env) (s : BLEClientHID)

theorem publishBattery_sideband (level : UInt8) : (s.publishBattery env level).sideband =
    { s.sideband with levels := s.levels ++ env.sensed [level.toNat] } := by
  have hlevels (levels : List Nat) : (levels.map Output.battery).filterMap Output.level? = levels := by
    rw [List.filterMap_map]
    exact List.filterMap_some
  rw [publishBattery_eq]
  unfold sideband
  congr 1
  unfold levels publish
  rw [List.filterMap_append, hlevels]

theorem inventoryGattDatabase_sideband : (s.inventoryGattDatabase env).1.sideband = s.sideband := by
  obtain ⟨t, services, hash, ⟨reasons, rfl⟩, -, heq⟩ := inventoryGattDatabase_spec env s
  rw [heq]
  rfl

theorem profileCharacteristic_sideband (service : GattServiceInfo) (characteristic : GattCharacteristicInfo) :
    (s.profileCharacteristic service characteristic).sideband = s.sideband := by
  unfold profileCharacteristic
  split
  · dsimp only
    split <;> split <;> rfl
  · rfl

theorem profileService_sideband (service : GattServiceInfo) :
    (s.profileService service).sideband = s.sideband := by
  have hchecked (t : BLEClientHID) (serviceInstance : Nat) :
      (t.checkReferences serviceInstance).sideband = t.sideband := by
    unfold checkReferences
    split
    · rfl
    · split <;> rfl
  unfold profileService
  split
  · rfl
  · rw [hchecked]
    exact List.foldlRecOn (motive := fun t : BLEClientHID => t.sideband = s.sideband) _ _ rfl
      fun t ht characteristic _ => (profileCharacteristic_sideband t service characteristic).trans ht

theorem buildHidProfiles_sideband : s.buildHidProfiles.sideband = s.sideband := by
  unfold buildHidProfiles
  exact List.foldlRecOn (motive := fun t : BLEClientHID => t.sideband = s.sideband) _ _ rfl
    fun t ht service _ => (profileService_sideband t service).trans ht

/-! ## Reads -/

/-- The value that a read brings to `process_read_value_`. -/
def delivered (status : GattStatus) (value : Buffer) (s : BLEClientHID) : Option (GattReadOperation × List UInt8) :=
  match s.activeRead with
  | none => none
  | some operation =>
    if status ≠ .ok ∨ value.length > maxAttributeValueBytes then none
    else match value with
      | .null (_ + 1) => none
      | .null 0 => some (operation, [])
      | .bytes bytes => some (operation, bytes)

theorem readValue_sideband (operation : GattReadOperation) (value : List UInt8) :
    (readValue env operation value s).sideband = s.sideband.read env operation value := by
  unfold readValue Sideband.read
  generalize operation.purpose = purpose
  cases purpose with
  | preferredConnectionParameters =>
    dsimp only
    unfold readPreferredConnectionParameters
    split <;> rfl
  | batteryLevel =>
    cases value with
    | nil => simp [readBatteryLevel, sideband, levels, markDegraded, Buffer.level]
    | cons level rest => exact publishBattery_sideband env _ level
  | hidInformation =>
    dsimp only
    unfold readHidInformation
    split <;> rfl
  | hidProtocolMode =>
    dsimp only
    unfold readProtocolMode
    split <;> rfl
  | hidReportMap =>
    dsimp only
    unfold readReportMap
    split
    · rfl
    · dsimp only
      split <;> rfl
  | hidReportReference =>
    dsimp only
    unfold readReportReference
    dsimp only
    split
    · split <;> rfl
    · rfl
  | appearance | pnpId | hidExternalReportReference =>
    dsimp only
    split <;> rfl
  | _ => rfl

theorem finishActiveRead_sideband (status : GattStatus) (value : Buffer) :
    (s.finishActiveRead env status value).sideband =
      match s.delivered status value with
      | none => s.sideband
      | some (operation, bytes) => s.sideband.read env operation bytes := by
  cases hactive : s.activeRead with
  | none =>
    unfold finishActiveRead delivered
    simp only [hactive]
  | some operation =>
    unfold finishActiveRead delivered
    simp only [hactive]
    by_cases hstatus : status = .ok
    · by_cases hlength : value.length > maxAttributeValueBytes
      · rw [if_neg (by simpa using hstatus), if_pos hlength, if_pos (.inr hlength)]
        exact sideband_of_fixture (operationFailed_fixture _ _ _)
      · rw [if_neg (by simpa using hstatus), if_neg hlength, if_neg (by simp [hstatus, hlength])]
        unfold processReadValue
        cases value with
        | bytes bytes => exact readValue_sideband env _ operation bytes
        | null length =>
          cases length with
          | zero => exact readValue_sideband env _ operation []
          | succ length =>
            dsimp only
            split <;> rfl
    · rw [if_pos hstatus, if_pos (.inl hstatus)]
      exact sideband_of_fixture (operationFailed_fixture _ _ _)

/-! ## Reports -/

theorem publish_sideband (events : List HIDEvent) : (s.publish (events.map .hidEvent)).sideband = s.sideband := by
  have hlevels : (s.publish (events.map .hidEvent)).levels = s.levels := by
    have hnone : (events.map Output.hidEvent).filterMap Output.level? = [] := by
      simp [List.filterMap_eq_nil_iff, Output.level?]
    unfold levels publish
    rw [List.filterMap_append, hnone, List.append_nil]
  unfold sideband
  rw [hlevels]
  rfl

theorem updateWindow_sideband (now : UInt32) : (s.updateWindow now).sideband = s.sideband :=
  (publish_sideband _ _).trans rfl

theorem decodeReport_sideband (report : PendingHIDReport) :
    (decodeReport report s).component.sideband = s.sideband := by
  unfold decodeReport
  split
  · rfl
  · split <;> rfl

theorem processReports_sideband (fuel n : Nat) : (processReports env fuel n s).sideband = s.sideband := by
  induction fuel generalizing n s with
  | zero => rfl
  | succ fuel ih =>
    unfold processReports
    split
    · rfl
    · dsimp only
      split
      · rw [ih]
        exact (publish_sideband _ _).trans (decodeReport_sideband _ _)
      · rfl

theorem enqueueInputReport_sideband (handle : Nat) (value : Buffer) (isNotify : Bool) (seqId : Nat) :
    (enqueueInputReport env handle value isNotify seqId s).sideband = s.sideband := by
  have hsideband := congrArg sideband (enqueueInputReport_withReports env s s.reports handle value isNotify seqId)
  exact hsideband

theorem loop_sideband : (s.loop env).sideband = (s.loopSetup env).sideband := by
  have hloop : s.loop env = updateWindow env.windowEndUs
    (processReports env maxReportsPerLoop 0 ((s.loopSetup env).updateWindow env.windowUs)) := rfl
  rw [hloop, updateWindow_sideband, processReports_sideband, updateWindow_sideband]

end

end BLEClientHID

end BleClientHid

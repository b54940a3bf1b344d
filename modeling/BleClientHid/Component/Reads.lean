import BleClientHid.Component.Inventory
import BleClientHid.HidParser.Descriptor

/-! # GATT reads

Which attributes are read, one after the other, and what their values mean.
-/

namespace BleClientHid

namespace BLEClientHID

def maxReadOperations : Nat := 384
def maxAttributeValueBytes : Nat := 4096

/-! ## The plan -/

/-- The standard purpose of a characteristic, `none` when it has none, and whether the read is required. -/
def standardPurpose (serviceUuid : ESPBTUUID) (uuid : Nat) : Option (ReadPurpose × Bool) :=
  if uuid16 serviceUuid uuidGapService then
    if uuid = uuidDeviceName then some (.deviceName, false)
    else if uuid = uuidAppearance then some (.appearance, false)
    else if uuid = uuidPreferredConnectionParameters then some (.preferredConnectionParameters, false)
    else none
  else if uuid16 serviceUuid uuidGattService then
    if uuid = uuidServiceChanged ∨ uuid = uuidDatabaseHash ∨ uuid = uuidClientSupportedFeatures ∨
        uuid = uuidServerSupportedFeatures then some (.genericStandard, false)
    else none
  else if uuid16 serviceUuid uuidDeviceInformationService && isDisCharacteristic uuid then
    if uuid = uuidPnpId then some (.pnpId, false)
    else if uuid = uuidManufacturerName then some (.manufacturer, false)
    else if uuid = uuidSerialNumber then some (.serialNumber, false)
    else some (.genericStandard, false)
  else if uuid16 serviceUuid uuidBatteryService && uuid == uuidBatteryLevel then some (.batteryLevel, false)
  else if uuid16 serviceUuid uuidHidService then
    if uuid = uuidHidInformation then some (.hidInformation, false)
    else if uuid = uuidHidReportMap then some (.hidReportMap, true)
    else if uuid = uuidHidProtocolMode then some (.hidProtocolMode, false)
    else if isInputUuid uuid ∨ uuid = uuidBootKeyboardOutput then some (.hidReportValue, false)
    else none
  else none

def standardDescriptorPurpose (uuid : ESPBTUUID) : Option ReadPurpose :=
  if uuid16 uuid uuidReportReference then some .hidReportReference
  else if uuid16 uuid uuidExternalReportReference then some .hidExternalReportReference
  else if uuid16 uuid uuidCharacteristicUserDescription ||
      uuid16 uuid uuidCharacteristicPresentationFormat ||
      uuid16 uuid uuidCharacteristicAggregateFormat then some .genericStandard
  else none

/-- The read of the characteristic itself, if there is one. -/
def characteristicRead (mode : DiscoveryMode) (service : GattServiceInfo)
    (characteristic : GattCharacteristicInfo) : List GattReadOperation :=
  let operation : GattReadOperation :=
    { handle := characteristic.handle, characteristicHandle := characteristic.handle,
      serviceInstance := service.serviceInstance }
  if !characteristic.canRead then []
  else match standardPurpose service.uuid characteristic.uuid.short with
    | some (purpose, required) => [{ operation with purpose, required }]
    | none => if mode = .forensic then [{ operation with purpose := .genericForensic }] else []

def descriptorRead (mode : DiscoveryMode) (service : GattServiceInfo)
    (characteristic : GattCharacteristicInfo) (descriptor : GattDescriptorInfo) : List GattReadOperation :=
  let operation : GattReadOperation :=
    { handle := descriptor.handle, characteristicHandle := characteristic.handle,
      serviceInstance := service.serviceInstance, descriptor := true }
  match standardDescriptorPurpose descriptor.uuid with
  | some purpose => [{ operation with purpose }]
  | none => if mode = .forensic then [{ operation with purpose := .genericForensic }] else []

/-- The reads that `plan_reads_` asks `add_read_` for, in the order of the database. -/
def wantedReads (mode : DiscoveryMode) (services : List GattServiceInfo) : List GattReadOperation :=
  services.flatMap fun service => service.characteristics.flatMap fun characteristic =>
    characteristicRead mode service characteristic ++
      characteristic.descriptors.flatMap (descriptorRead mode service characteristic)

/-- A handle is read once, and the queue has a limit. -/
def addRead (s : BLEClientHID) (operation : GattReadOperation) : BLEClientHID :=
  if operation.handle ∈ s.plannedReadHandles then s
  else if s.readQueue.length ≥ maxReadOperations then s.markDegraded "read operation limit exceeded"
  else { s with
    readQueue := s.readQueue ++ [operation]
    plannedReadHandles := insert operation.handle s.plannedReadHandles }

def planReads (s : BLEClientHID) : BLEClientHID :=
  (wantedReads s.discoveryMode s.services).foldl addRead
    { s with readQueue := [], plannedReadHandles := ∅ }

/-! ## One read -/

def startNextRead (env : Env) (s : BLEClientHID) : BLEClientHID :=
  if s.activeRead.isSome || s.congested then s
  else match s.readQueue with
    | [] => s.transition env .buildingProfile
    | operation :: rest =>
      let request := if operation.descriptor then TraceEntry.readDescr operation.handle env.readAccepted
        else .readChar operation.handle env.readAccepted
      let s := { s with readQueue := rest, activeRead := some operation }.log request
      if env.readAccepted then s
      else { s with activeRead := none }.operationFailed operation.required
        "required GATT read could not be scheduled"

def littleEndian16 (value : List UInt8) (i : Nat) : Nat :=
  (value.getD i 0).toNat ||| (value.getD (i + 1) 0).toNat <<< 8

section

variable (env : Env) (operation : GattReadOperation) (value : List UInt8) (s : BLEClientHID)

def readPreferredConnectionParameters : BLEClientHID :=
  if value.length = 8 then
    { s with
      preferredConnParams := {
        minInt := littleEndian16 value 0, maxInt := littleEndian16 value 2,
        latency := littleEndian16 value 4, timeout := littleEndian16 value 6, bda := env.remoteBda }
      preferredConnParamsValid := true }
  else s.markDegraded "Preferred Connection Parameters have invalid length"

def readBatteryLevel : BLEClientHID :=
  let s := { s with batteryHandles := insert operation.characteristicHandle s.batteryHandles }
  match value with
  | level :: _ => s.publishBattery env level
  | [] => s.markDegraded "Battery Level is empty"

def readHidInformation : BLEClientHID :=
  if (s.findHidContext operation.serviceInstance).isSome && value.length == 4 then s
  else s.markDegraded "HID Information has invalid length"

def readProtocolMode : BLEClientHID :=
  if (s.findHidContext operation.serviceInstance).isSome && value.length == 1 then
    { s with hidServices := updateContext operation.serviceInstance (fun context =>
      { context with
        protocolMode := (value.getD 0 0).toNat
        protocolModeHandle := operation.characteristicHandle }) s.hidServices }
  else s.markDegraded "Protocol Mode has invalid length"

def readReportMap : BLEClientHID :=
  if (s.findHidContext operation.serviceInstance).isNone || value.isEmpty then
    s.markDegraded "HID Report Map is empty"
  else
    let reportMap := HidParser.parseReportMapData (.bytes value)
    let s := { s with hidServices := updateContext operation.serviceInstance (fun context =>
      { context with reportMapHash := sha256 env.platform value, reportMap }) s.hidServices }
    if reportMap.isNone then s.markDegraded "HID Report Map could not be parsed" else s

def readReportReference : BLEClientHID :=
  let known (source : HIDReportSource) := { source with
    serviceInstance := operation.serviceInstance
    characteristicHandle := operation.characteristicHandle
    characteristicUuid := uuidHidReport }
  if value.length = 2 then
    let reportType := (value.getD 1 0).toNat
    let s := { s with handleReportSource := updateSource operation.characteristicHandle (fun source =>
      { known source with
        reportId := (value.getD 0 0).toNat
        hasReportId := true
        reportType
        hasReportType := true }) s.handleReportSource }
    if reportType < 1 ∨ reportType > 3 then s.markDegraded "Report Reference has unknown Report Type" else s
  else
    { s with handleReportSource :=
        updateSource operation.characteristicHandle known s.handleReportSource }.markDegraded
      "Report Reference has invalid length"

/-- The `switch` of `process_read_value_`. -/
def readValue : BLEClientHID :=
  match operation.purpose with
  | .appearance => if value.length = 2 then s else s.markDegraded "Appearance has invalid length"
  | .preferredConnectionParameters => readPreferredConnectionParameters env value s
  | .batteryLevel => readBatteryLevel env operation value s
  | .pnpId => if value.length ≥ 7 then s else s.markDegraded "PnP ID has invalid length"
  | .hidInformation => readHidInformation operation value s
  | .hidProtocolMode => readProtocolMode operation value s
  | .hidReportMap => readReportMap env operation value s
  | .hidReportReference => readReportReference operation value s
  | .hidExternalReportReference =>
    if value.length = 2 then s else s.markDegraded "External Report Reference has unsupported length"
  | _ => s

end

def processReadValue (env : Env) (operation : GattReadOperation) (value : Buffer) (s : BLEClientHID) :
    BLEClientHID :=
  match value with
  | .null (_ + 1) =>
    if operation.required then s.markDegraded "required GATT read returned null data" else s
  | .null 0 => readValue env operation [] s
  | .bytes bytes => readValue env operation bytes s

def finishActiveRead (env : Env) (status : GattStatus) (value : Buffer) (s : BLEClientHID) : BLEClientHID :=
  match s.activeRead with
  | none => s
  | some operation =>
    let s := { s with activeRead := none }
    if status ≠ .ok then s.operationFailed operation.required "required GATT read failed"
    else if value.length > maxAttributeValueBytes then
      s.operationFailed operation.required "required GATT value exceeded limit"
    else processReadValue env operation value { s with operationsSucceeded := s.operationsSucceeded + 1 }

end BLEClientHID

end BleClientHid

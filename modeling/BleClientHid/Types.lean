import BleClientHid.BootReportDecoder

/-! # The GATT database and the queues

The structures of the component header. Handles and ids are `Nat`.
-/

namespace BleClientHid

inductive DiscoveryMode where
  | standard
  | forensic
  deriving DecidableEq, Repr, Inhabited

inductive ProtocolModePolicy where
  | unchanged
  | report
  | boot
  deriving DecidableEq, Repr, Inhabited

inductive SetupPhase where
  | disconnected
  | waitingForDiscovery
  | inventory
  | reading
  | buildingProfile
  | writingProtocolMode
  | registering
  | waitingForCccd
  | ready
  | degraded
  | noHid
  deriving DecidableEq, Repr, Inhabited

def phaseName : SetupPhase → String
  | .disconnected => "disconnected"
  | .waitingForDiscovery => "waiting_for_discovery"
  | .inventory => "inventory"
  | .reading => "reading"
  | .buildingProfile => "building_profile"
  | .writingProtocolMode => "writing_protocol_mode"
  | .registering => "registering"
  | .waitingForCccd => "waiting_for_cccd"
  | .ready => "ready"
  | .degraded => "degraded"
  | .noHid => "no_hid"

/-! ## UUIDs -/

inductive ESPBTUUID where
  | uuid16 (value : Nat)
  | uuid32 (value : Nat)
  | uuid128 (value : Nat)
  deriving DecidableEq, Repr, Inhabited

def uuid16 (uuid : ESPBTUUID) (expected : Nat) : Bool :=
  match uuid with
  | .uuid16 value => value == expected
  | _ => false

/-- `raw_uuid.len == ESP_UUID_LEN_16 ? raw_uuid.uuid.uuid16 : 0` -/
def ESPBTUUID.short (uuid : ESPBTUUID) : Nat :=
  match uuid with
  | .uuid16 value => value
  | _ => 0

def uuidGapService : Nat := 0x1800
def uuidGattService : Nat := 0x1801
def uuidHidService : Nat := 0x1812
def uuidBatteryService : Nat := 0x180F
def uuidDeviceInformationService : Nat := 0x180A

def uuidDeviceName : Nat := 0x2A00
def uuidAppearance : Nat := 0x2A01
def uuidPreferredConnectionParameters : Nat := 0x2A04
def uuidServiceChanged : Nat := 0x2A05
def uuidSystemId : Nat := 0x2A23
def uuidModelNumber : Nat := 0x2A24
def uuidSerialNumber : Nat := 0x2A25
def uuidFirmwareRevision : Nat := 0x2A26
def uuidHardwareRevision : Nat := 0x2A27
def uuidSoftwareRevision : Nat := 0x2A28
def uuidManufacturerName : Nat := 0x2A29
def uuidIeeeCertification : Nat := 0x2A2A
def uuidBatteryLevel : Nat := 0x2A19
def uuidPnpId : Nat := 0x2A50
def uuidHidInformation : Nat := 0x2A4A
def uuidHidReportMap : Nat := 0x2A4B
def uuidHidReport : Nat := 0x2A4D
def uuidHidProtocolMode : Nat := 0x2A4E
def uuidBootKeyboardInput : Nat := 0x2A22
def uuidBootKeyboardOutput : Nat := 0x2A32
def uuidBootMouseInput : Nat := 0x2A33
def uuidDatabaseHash : Nat := 0x2B2A
def uuidClientSupportedFeatures : Nat := 0x2B29
def uuidServerSupportedFeatures : Nat := 0x2B3A

def uuidCharacteristicUserDescription : Nat := 0x2901
def uuidCccd : Nat := 0x2902
def uuidCharacteristicPresentationFormat : Nat := 0x2904
def uuidCharacteristicAggregateFormat : Nat := 0x2905
def uuidExternalReportReference : Nat := 0x2907
def uuidReportReference : Nat := 0x2908

def isDisCharacteristic (uuid : Nat) : Bool :=
  uuid ∈ [uuidSystemId, uuidModelNumber, uuidSerialNumber, uuidFirmwareRevision, uuidHardwareRevision,
    uuidSoftwareRevision, uuidManufacturerName, uuidIeeeCertification, uuidPnpId]

/-- A characteristic that carries HID input. -/
def isInputUuid (uuid : Nat) : Bool :=
  uuid == uuidHidReport || uuid == uuidBootKeyboardInput || uuid == uuidBootMouseInput

/-! ## The database -/

structure GattDescriptorInfo where
  uuid : ESPBTUUID := .uuid16 0
  handle : Nat := 0
  deriving DecidableEq, Repr, Inhabited

structure GattCharacteristicInfo where
  uuid : ESPBTUUID := .uuid16 0
  handle : Nat := 0
  properties : Nat := 0
  serviceInstance : Nat := 0
  descriptors : List GattDescriptorInfo := []
  deriving DecidableEq, Repr, Inhabited

def propRead : Nat := 0x02
def propNotify : Nat := 0x10
def propIndicate : Nat := 0x20

namespace GattCharacteristicInfo

def canRead (c : GattCharacteristicInfo) : Bool := c.properties &&& propRead != 0
def canNotify (c : GattCharacteristicInfo) : Bool := c.properties &&& propNotify != 0

def canSubscribe (c : GattCharacteristicInfo) : Bool := c.properties &&& (propNotify ||| propIndicate) != 0

end GattCharacteristicInfo

structure GattIncludedServiceInfo where
  uuid : ESPBTUUID := .uuid16 0
  declarationHandle : Nat := 0
  startHandle : Nat := 0
  endHandle : Nat := 0
  deriving DecidableEq, Repr, Inhabited

structure GattServiceInfo where
  uuid : ESPBTUUID := .uuid16 0
  serviceInstance : Nat := 0
  startHandle : Nat := 0
  endHandle : Nat := 0
  primary : Bool := true
  includedServices : List GattIncludedServiceInfo := []
  characteristics : List GattCharacteristicInfo := []
  deriving DecidableEq, Repr, Inhabited

structure HIDServiceContext where
  serviceInstance : Nat := 0
  protocolModeHandle : Nat := 0
  protocolMode : Nat := 0xFF
  reportMapHash : String := ""
  reportMap : Option HIDReportMap := none

def findCharacteristic (services : List GattServiceInfo) (handle : Nat) : Option GattCharacteristicInfo :=
  (services.flatMap (·.characteristics)).find? (·.handle == handle)

def findDescriptor (characteristic : GattCharacteristicInfo) (uuid : Nat) : Option GattDescriptorInfo :=
  characteristic.descriptors.find? (uuid16 ·.uuid uuid)

def findHidContext (hidServices : List HIDServiceContext) (serviceInstance : Nat) :
    Option HIDServiceContext :=
  hidServices.find? (·.serviceInstance == serviceInstance)

/-! ## Queues -/

inductive ReadPurpose where
  | genericStandard
  | genericForensic
  | deviceName
  | appearance
  | preferredConnectionParameters
  | batteryLevel
  | pnpId
  | manufacturer
  | serialNumber
  | hidInformation
  | hidReportMap
  | hidProtocolMode
  | hidReportReference
  | hidExternalReportReference
  | hidReportValue
  deriving DecidableEq, Repr, Inhabited

structure GattReadOperation where
  handle : Nat := 0
  characteristicHandle : Nat := 0
  serviceInstance : Nat := 0
  purpose : ReadPurpose := .genericStandard
  descriptor : Bool := false
  required : Bool := false
  deriving DecidableEq, Repr, Inhabited

structure PendingHIDReport where
  source : HIDReportSource := {}
  payload : List UInt8 := []
  seqId : Nat := 0
  deriving DecidableEq, Repr, Inhabited

structure SubscriptionInfo where
  characteristicHandle : Nat := 0
  cccdHandle : Nat := 0
  serviceInstance : Nat := 0
  properties : Nat := 0
  required : Bool := false
  deriving DecidableEq, Repr, Inhabited

end BleClientHid

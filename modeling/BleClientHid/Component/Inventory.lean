import BleClientHid.Component.State

/-! # The GATT inventory

`inventory_gatt_database_`: the whole database, within limits, and the text of
its fingerprint.
-/

namespace BleClientHid

namespace BLEClientHID

def maxServices : Nat := 64
def maxIncludedServices : Nat := 128
def maxCharacteristics : Nat := 256
def maxDescriptors : Nat := 512

/-- The component, the totals so far, and the text for the hash. -/
structure InventoryState where
  component : BLEClientHID
  characteristicTotal : Nat := 0
  descriptorTotal : Nat := 0
  includedServiceTotal : Nat := 0
  normalized : String := ""

namespace InventoryState

def markDegraded (reason : String) (st : InventoryState) : InventoryState :=
  { st with component := st.component.markDegraded reason }

def update (text : String) (st : InventoryState) : InventoryState :=
  { st with normalized := st.normalized ++ text }

end InventoryState

section

variable (env : Env)

def pastEnd (status : GattStatus) : Bool := status == .invalidOffset || status == .notFound

def includedServiceInfo (elem : IncludeElem) : GattIncludedServiceInfo :=
  { uuid := elem.uuid, declarationHandle := elem.handle, startHandle := elem.startHandle,
    endHandle := elem.endHandle }

def InventoryState.limitIncludes (includeCount : Nat) (st : InventoryState) : InventoryState :=
  if includeCount > maxIncludedServices - st.includedServiceTotal then
    st.markDegraded "included service inventory limit exceeded"
  else st

def fetchIncludes (service : GattServiceInfo) (count : Nat) : GattStatus × List IncludeElem :=
  if count = 0 then (.ok, []) else env.gatt.getIncludeService service.startHandle service.endHandle count

def storeIncludes (elems : List IncludeElem) (st : InventoryState) :
    InventoryState × List GattIncludedServiceInfo :=
  let includes := elems.map includedServiceInfo
  let text := String.join (includes.map fun info => "I:" ++ env.platform.uuidString info.uuid ++ ";")
  ({ st.update text with includedServiceTotal := st.includedServiceTotal + includes.length }, includes)

def inventoryIncludes (service : GattServiceInfo) (st : InventoryState) :
    InventoryState × List GattIncludedServiceInfo :=
  let (status, includeCount) := env.gatt.includedServiceCount service.startHandle service.endHandle
  if status ≠ .ok ∨ includeCount = 0 then (st, [])
  else
    let count := min includeCount (maxIncludedServices - st.includedServiceTotal)
    let (status, elems) := fetchIncludes env service count
    if status = .ok then storeIncludes env (elems.take count) (st.limitIncludes includeCount)
    else ((st.limitIncludes includeCount).markDegraded "included service inventory failed", [])

/-- The descriptors from `offset` on. Each round raises the total, so `maxDescriptors` rounds do. -/
def inventoryDescriptors (characteristicHandle : Nat) : Nat → Nat → InventoryState →
    InventoryState × List GattDescriptorInfo
  | 0, _, st => (st, [])
  | fuel + 1, offset, st =>
    if st.descriptorTotal ≥ maxDescriptors then (st, [])
    else
      let (status, count, elem) := env.gatt.getAllDescr characteristicHandle offset
      if pastEnd status then (st, [])
      else if status ≠ .ok ∨ count = 0 then (st.markDegraded "descriptor inventory failed", [])
      else
        let descriptor : GattDescriptorInfo := { uuid := elem.uuid, handle := elem.handle }
        let st := st.update ("D:" ++ env.platform.uuidString descriptor.uuid ++ ";")
        let (st, rest) := inventoryDescriptors characteristicHandle fuel (offset + 1)
          { st with descriptorTotal := st.descriptorTotal + 1 }
        (st, descriptor :: rest)

def inventoryCharacteristic (service : GattServiceInfo) (elem : CharElem) (st : InventoryState) :
    InventoryState × GattCharacteristicInfo :=
  let st := st.update
    ("C:" ++ env.platform.uuidString elem.uuid ++ ":" ++ toString elem.properties ++ ";")
  let (st, descriptors) := inventoryDescriptors env elem.handle maxDescriptors 0
    { st with characteristicTotal := st.characteristicTotal + 1 }
  (if st.descriptorTotal ≥ maxDescriptors then st.markDegraded "descriptor inventory limit exceeded" else st,
    { uuid := elem.uuid, handle := elem.handle, properties := elem.properties,
      serviceInstance := service.serviceInstance, descriptors })

def inventoryCharacteristics (service : GattServiceInfo) : Nat → Nat → InventoryState →
    InventoryState × List GattCharacteristicInfo
  | 0, _, st => (st, [])
  | fuel + 1, offset, st =>
    if st.characteristicTotal ≥ maxCharacteristics then (st, [])
    else
      let (status, count, elem) := env.gatt.getAllChar service.startHandle service.endHandle offset
      if pastEnd status then (st, [])
      else if status ≠ .ok ∨ count = 0 then (st.markDegraded "characteristic inventory failed", [])
      else
        let characteristic := inventoryCharacteristic env service elem st
        let rest := inventoryCharacteristics service fuel (offset + 1) characteristic.1
        (rest.1, characteristic.2 :: rest.2)

/-- Stores the finished service, with a context when it is a HID service. -/
def addService (service : GattServiceInfo) (s : BLEClientHID) : BLEClientHID :=
  { s with
    hidServices := if uuid16 service.uuid uuidHidService then
      s.hidServices ++ [{ serviceInstance := service.serviceInstance }] else s.hidServices
    services := s.services ++ [service] }

def InventoryState.limitCharacteristics (st : InventoryState) : InventoryState :=
  if st.characteristicTotal ≥ maxCharacteristics then
    st.markDegraded "characteristic inventory limit exceeded"
  else st

def inventoryContents (service : GattServiceInfo) (st : InventoryState) :
    InventoryState × GattServiceInfo :=
  let includes := inventoryIncludes env service st
  let characteristics := inventoryCharacteristics env service maxCharacteristics 0 includes.1
  (characteristics.1.limitCharacteristics,
    { service with includedServices := includes.2, characteristics := characteristics.2 })

def serviceInfo (offset : Nat) (elem : ServiceElem) : GattServiceInfo :=
  { uuid := elem.uuid, serviceInstance := offset, startHandle := elem.startHandle,
    endHandle := elem.endHandle, primary := elem.isPrimary }

def inventoryService (offset : Nat) (elem : ServiceElem) (st : InventoryState) : InventoryState :=
  let text := "S:" ++ env.platform.uuidString elem.uuid ++ if elem.isPrimary then ":P;" else ":S;"
  let (st, service) := inventoryContents env (serviceInfo offset elem) (st.update text)
  { st with component := st.component.addService service }

/-- `false` when the stack reports an error. -/
def inventoryServices : Nat → Nat → InventoryState → InventoryState × Bool
  | 0, _, st => (st, true)
  | fuel + 1, offset, st =>
    let (status, count, elem) := env.gatt.getService offset
    if pastEnd status then (st, true)
    else if status ≠ .ok ∨ count = 0 then (st, false)
    else inventoryServices fuel (offset + 1) (inventoryService env offset elem st)

def hashText (text : String) : String := sha256 env.platform text.toUTF8.toList

def limitServices (st : InventoryState) : InventoryState :=
  if st.component.services.length ≥ maxServices then
    st.markDegraded "service inventory limit exceeded"
  else st

/-- The component, and whether there is a database to work with. -/
def inventoryGattDatabase (s : BLEClientHID) : BLEClientHID × Bool :=
  let services := inventoryServices env maxServices 0 { component := { s with services := [], hidServices := [] } }
  if services.2 then
    let st := limitServices services.1
    ({ st.component with gattProfileHash := hashText env st.normalized }, !st.component.services.isEmpty)
  else (services.1.component, false)

end

end BLEClientHID

end BleClientHid

import BleClientHid.Component.Catalog
import BleClientHid.Component.InventoryLaw
import BleClientHid.Component.Plans
import Mathlib.Data.List.Flatten

/-! # A peripheral that conforms

Its database fits, its values are well formed, and its HID services describe themselves.
-/

namespace BleClientHid

open Setup BLEClientHID

/-- A database, and the value behind each handle. -/
structure Peripheral where
  database : GattDatabase
  value : Nat → List UInt8

/-! ## The records of a database -/

theorem handles_recordService (offset : Nat) (service : GattServiceInfo) :
    (recordService offset service).handles = service.handles := by
  simp [GattServiceInfo.handles, recordService, List.flatMap_map, recordCharacteristic,
    GattCharacteristicInfo.handles]

theorem handles_records (db : List GattServiceInfo) :
    (records db).flatMap (·.handles) = db.flatMap (·.handles) := by
  have hmap : (records db).map (·.handles) = db.map (·.handles) := by
    apply List.ext_getElem
    · simp [records]
    · simp [records, handles_recordService]
  rw [List.flatMap_def, hmap, ← List.flatMap_def]

namespace Peripheral

variable (p : Peripheral)

/-- The database as the component numbers it. -/
def recorded : GattDatabase where
  services := records p.database.services
  distinct := by
    rw [handles_records]
    exact p.database.distinct

def reads (mode : DiscoveryMode) : List GattReadOperation := wantedReads mode p.recorded.services

def subscriptions (mode : DiscoveryMode) : List SubscriptionInfo := wantedSubscriptions mode p.recorded.services

/-- The Report ID and the Report Type that a reference names. -/
def reportId (reference : GattReadOperation) : Nat := ((p.value reference.handle).getD 0 0).toNat

def reportType (reference : GattReadOperation) : Nat := ((p.value reference.handle).getD 1 0).toNat

end Peripheral

/-- The value is one that `process_read_value_` accepts. -/
def ProperValue (purpose : ReadPurpose) (value : List UInt8) : Prop :=
  value.length ≤ maxAttributeValueBytes ∧ match purpose with
    | .appearance | .hidExternalReportReference => value.length = 2
    | .preferredConnectionParameters => value.length = 8
    | .batteryLevel => value ≠ []
    | .pnpId => 7 ≤ value.length
    | .hidInformation => value.length = 4
    | .hidProtocolMode => value.length = 1
    | .hidReportMap => (HidParser.parseReportMapData (.bytes value)).isSome = true
    | .hidReportReference => value.length = 2 ∧ 1 ≤ (value.getD 1 0).toNat ∧ (value.getD 1 0).toNat ≤ 3
    | _ => True

instance (purpose : ReadPurpose) (value : List UInt8) : Decidable (ProperValue purpose value) := by
  unfold ProperValue
  cases purpose <;> infer_instance

/-- The setup finds what it looks for, and there is room for it. -/
structure Peripheral.Conforms (p : Peripheral) (mode : DiscoveryMode) : Prop where
  inhabited : p.database.services ≠ []
  fits : FitsInventory p.database.services
  roomy : ¬MeetsLimit p.database.services
  reads : (p.reads mode).length ≤ maxReadOperations
  subscriptions : (p.subscriptions mode).length ≤ maxSubscriptions
  values : ∀ operation ∈ p.reads mode, ProperValue operation.purpose (p.value operation.handle)
  referenced : ∀ service ∈ hidServicesOf p.recorded.services, ∀ characteristic ∈ service.characteristics,
    characteristic.uuid.short = uuidHidReport → (findDescriptor characteristic uuidReportReference).isSome = true
  unreferenced : ∀ service ∈ hidServicesOf p.recorded.services, ∀ characteristic ∈ service.characteristics,
    isBootInputUuid characteristic.uuid.short = true → findDescriptor characteristic uuidReportReference = none
  defined : ∀ reference ∈ p.reads mode, reference.purpose = .hidReportReference → ∀ reportMap ∈ p.reads mode,
    reportMap.purpose = .hidReportMap → reportMap.serviceInstance = reference.serviceInstance →
      ∀ m ∈ HidParser.parseReportMapData (.bytes (p.value reportMap.handle)),
        (m.findReport (reportKind (p.reportType reference)) (p.reportId reference)).isSome = true
  cccds : ∀ sub ∈ p.subscriptions mode, sub.required = true → sub.cccdHandle ≠ 0

/-! ## Planned reads -/

theorem firstReads_of_nodup {operations : List GattReadOperation} (h : (operations.map (·.handle)).Nodup) :
    firstReads operations = operations := by
  induction operations with
  | nil => rfl
  | cons operation rest ih =>
    rw [List.map_cons, List.nodup_cons] at h
    rw [firstReads, ih h.2, List.filter_eq_self.mpr]
    intro other hother
    simp only [bne_iff_ne, ne_eq]
    intro hsame
    exact h.1 (hsame ▸ List.mem_map_of_mem hother)

theorem characteristicRead_handles (mode : DiscoveryMode) (service : GattServiceInfo)
    (characteristic : GattCharacteristicInfo) :
    ((characteristicRead mode service characteristic).map (·.handle)).Sublist [characteristic.handle] := by
  unfold characteristicRead
  dsimp only
  split
  · exact List.nil_sublist _
  · split
    · exact .refl _
    · split
      · exact .refl _
      · exact List.nil_sublist _

theorem descriptorRead_handles (mode : DiscoveryMode) (service : GattServiceInfo)
    (characteristic : GattCharacteristicInfo) (descriptor : GattDescriptorInfo) :
    ((descriptorRead mode service characteristic descriptor).map (·.handle)).Sublist [descriptor.handle] := by
  unfold descriptorRead
  dsimp only
  split
  · exact .refl _
  · split
    · exact .refl _
    · exact List.nil_sublist _

theorem wantedReads_handles (mode : DiscoveryMode) (services : List GattServiceInfo) :
    ((wantedReads mode services).map (·.handle)).Sublist (services.flatMap (·.handles)) := by
  unfold wantedReads
  rw [List.map_flatMap]
  apply List.Sublist.flatMap_right
  intro service _
  rw [List.map_flatMap, GattServiceInfo.handles]
  refine ((List.Sublist.flatMap_right _ fun characteristic _ => ?_).trans
    (List.sublist_append_right _ _)).trans (List.sublist_cons_self _ _)
  have hdescriptors : (characteristic.descriptors.flatMap fun descriptor =>
      (descriptorRead mode service characteristic descriptor).map (·.handle)).Sublist
        (characteristic.descriptors.map (·.handle)) := by
    rw [List.map_eq_flatMap]
    exact List.Sublist.flatMap_right _ fun descriptor _ =>
      descriptorRead_handles mode service characteristic descriptor
  rw [List.map_append, List.map_flatMap, GattCharacteristicInfo.handles, ← List.singleton_append]
  exact (characteristicRead_handles mode service characteristic).append hdescriptors

theorem mem_wantedReads_cases {mode : DiscoveryMode} {services : List GattServiceInfo}
    {operation : GattReadOperation} (h : operation ∈ wantedReads mode services) :
    ∃ service ∈ services, ∃ characteristic ∈ service.characteristics,
      operation.serviceInstance = service.serviceInstance ∧ operation.characteristicHandle = characteristic.handle ∧
        (operation.purpose = .genericForensic ∨
          standardPurpose service.uuid characteristic.uuid.short = some (operation.purpose, operation.required) ∨
          ∃ descriptor ∈ characteristic.descriptors,
            standardDescriptorPurpose descriptor.uuid = some operation.purpose) := by
  obtain ⟨service, hservice, h⟩ := List.mem_flatMap.mp h
  obtain ⟨characteristic, hcharacteristic, h⟩ := List.mem_flatMap.mp h
  refine ⟨service, hservice, characteristic, hcharacteristic, ?_⟩
  rcases List.mem_append.mp h with hread | hdescriptor
  · unfold characteristicRead at hread
    split at hread
    · simp at hread
    · split at hread
      · rename_i purpose required hstandard
        obtain rfl := List.mem_singleton.mp hread
        exact ⟨rfl, rfl, .inr (.inl hstandard)⟩
      · split at hread
        · obtain rfl := List.mem_singleton.mp hread
          exact ⟨rfl, rfl, .inl rfl⟩
        · simp at hread
  · obtain ⟨descriptor, hmem, hread⟩ := List.mem_flatMap.mp hdescriptor
    unfold descriptorRead at hread
    split at hread
    · rename_i purpose hstandard
      obtain rfl := List.mem_singleton.mp hread
      exact ⟨rfl, rfl, .inr (.inr ⟨descriptor, hmem, hstandard⟩)⟩
    · split at hread
      · obtain rfl := List.mem_singleton.mp hread
        exact ⟨rfl, rfl, .inl rfl⟩
      · simp at hread

theorem standardPurpose_reference (serviceUuid : ESPBTUUID) (uuid : Nat) (required : Bool) :
    standardPurpose serviceUuid uuid ≠ some (.hidReportReference, required) := by
  unfold standardPurpose
  grind

theorem standardDescriptorPurpose_reference {uuid : ESPBTUUID} :
    standardDescriptorPurpose uuid = some .hidReportReference ↔ uuid16 uuid uuidReportReference = true := by
  unfold standardDescriptorPurpose
  grind

/-- The purposes that need the context of a HID service. -/
def needsContext (purpose : ReadPurpose) : Bool :=
  purpose == .hidInformation || purpose == .hidProtocolMode || purpose == .hidReportMap

theorem standardPurpose_needsContext {serviceUuid : ESPBTUUID} {uuid : Nat} {purpose : ReadPurpose} {required : Bool}
    (h : standardPurpose serviceUuid uuid = some (purpose, required)) (hpurpose : needsContext purpose = true) :
    uuid16 serviceUuid uuidHidService = true := by
  unfold standardPurpose at h
  unfold needsContext at hpurpose
  grind

theorem standardDescriptorPurpose_needsContext {uuid : ESPBTUUID} {purpose : ReadPurpose}
    (h : standardDescriptorPurpose uuid = some purpose) : needsContext purpose = false := by
  unfold standardDescriptorPurpose at h
  unfold needsContext
  grind

namespace Peripheral

variable (p : Peripheral) {mode : DiscoveryMode}

theorem firstReads_reads (mode : DiscoveryMode) : firstReads (p.reads mode) = p.reads mode :=
  firstReads_of_nodup ((wantedReads_handles mode p.recorded.services).nodup p.recorded.distinct)

theorem service_of_needsContext {operation : GattReadOperation} (h : operation ∈ p.reads mode)
    (hpurpose : needsContext operation.purpose = true) :
    ∃ service ∈ hidServicesOf p.recorded.services, operation.serviceInstance = service.serviceInstance := by
  obtain ⟨service, hservice, characteristic, -, hinstance, -, hforensic | hstandard | ⟨descriptor, -, hdescriptor⟩⟩ :=
    mem_wantedReads_cases h
  · simp [hforensic, needsContext] at hpurpose
  · exact ⟨service, List.mem_filter.mpr ⟨hservice, standardPurpose_needsContext hstandard hpurpose⟩, hinstance⟩
  · simp [standardDescriptorPurpose_needsContext hdescriptor] at hpurpose

theorem characteristic_of_reference {operation : GattReadOperation} (h : operation ∈ p.reads mode)
    (hpurpose : operation.purpose = .hidReportReference) :
    ∃ service ∈ p.recorded.services, ∃ characteristic ∈ service.characteristics,
      operation.serviceInstance = service.serviceInstance ∧ operation.characteristicHandle = characteristic.handle ∧
        (findDescriptor characteristic uuidReportReference).isSome = true := by
  obtain ⟨service, hservice, characteristic, hcharacteristic, hinstance, hhandle,
    hforensic | hstandard | ⟨descriptor, hmem, hdescriptor⟩⟩ := mem_wantedReads_cases h
  · simp [hforensic] at hpurpose
  · rw [hpurpose] at hstandard
    exact absurd hstandard (standardPurpose_reference _ _ _)
  · rw [hpurpose, standardDescriptorPurpose_reference] at hdescriptor
    refine ⟨service, hservice, characteristic, hcharacteristic, hinstance, hhandle, ?_⟩
    exact List.find?_isSome.mpr ⟨descriptor, hmem, hdescriptor⟩

theorem reference_of_characteristic {service : GattServiceInfo} (hservice : service ∈ p.recorded.services)
    {characteristic : GattCharacteristicInfo} (hcharacteristic : characteristic ∈ service.characteristics)
    (hreference : (findDescriptor characteristic uuidReportReference).isSome = true) :
    ∃ operation ∈ p.reads mode, operation.purpose = .hidReportReference ∧
      operation.characteristicHandle = characteristic.handle := by
  obtain ⟨descriptor, hmem, huuid⟩ := List.find?_isSome.mp hreference
  refine ⟨{ handle := descriptor.handle, characteristicHandle := characteristic.handle,
            serviceInstance := service.serviceInstance, descriptor := true, purpose := .hidReportReference },
    ?_, rfl, rfl⟩
  refine List.mem_flatMap.mpr ⟨service, hservice, List.mem_flatMap.mpr ⟨characteristic, hcharacteristic, ?_⟩⟩
  refine List.mem_append_right _ (List.mem_flatMap.mpr ⟨descriptor, hmem, ?_⟩)
  rw [descriptorRead, standardDescriptorPurpose_reference.mpr huuid]
  exact List.mem_singleton_self _

theorem owner_eq {service service' : GattServiceInfo} {characteristic characteristic' : GattCharacteristicInfo}
    (hservice : service ∈ p.recorded.services) (hservice' : service' ∈ p.recorded.services)
    (hmem : characteristic ∈ service.characteristics) (hmem' : characteristic' ∈ service'.characteristics)
    (hhandle : characteristic.handle = characteristic'.handle) :
    service = service' ∧ characteristic = characteristic' := by
  have hcharacteristic := p.recorded.characteristic_eq hservice hservice' hmem hmem' hhandle
  refine ⟨?_, hcharacteristic⟩
  exact eq_of_mem p.recorded.distinct hservice hservice' (handle_mem_handles hmem)
    (hhandle ▸ handle_mem_handles hmem')

end Peripheral

/-! ## Room for the plans -/

theorem foldl_addRead_undegraded (wanted : List GattReadOperation) (s : BLEClientHID)
    (hroom : s.readQueue.length + wanted.length ≤ maxReadOperations) :
    (wanted.foldl addRead s).degraded = s.degraded := by
  induction wanted generalizing s with
  | nil => rfl
  | cons operation rest ih =>
    rw [List.length_cons] at hroom
    rw [List.foldl_cons]
    unfold addRead
    split
    · exact ih s (by omega)
    · rw [if_neg (by omega)]
      refine (ih _ ?_).trans rfl
      rw [List.length_append, List.length_singleton]
      omega

theorem planReads_undegraded {s : BLEClientHID}
    (hroom : (wantedReads s.discoveryMode s.services).length ≤ maxReadOperations) :
    s.planReads.degraded = s.degraded := by
  unfold planReads
  rw [foldl_addRead_undegraded _ _ (by simpa using hroom)]

theorem planCharacteristics_undegraded (service : GattServiceInfo) (characteristics : List GattCharacteristicInfo)
    (s : BLEClientHID)
    (hroom : s.subscriptionQueue.length +
      (characteristics.filter (subscribes s.discoveryMode service)).length ≤ maxSubscriptions) :
    (planCharacteristics service characteristics s).degraded = s.degraded := by
  induction characteristics generalizing s with
  | nil => rfl
  | cons characteristic rest ih =>
    unfold planCharacteristics
    split
    · rename_i hskip
      rw [List.filter_cons_of_neg (by simpa using hskip)] at hroom
      exact ih s hroom
    · rename_i hwanted
      rw [List.filter_cons_of_pos (by simpa using hwanted), List.length_cons] at hroom
      rw [if_neg (by omega)]
      refine (ih _ ?_).trans rfl
      have hlength : (s.addSubscription service characteristic).subscriptionQueue.length =
          s.subscriptionQueue.length + 1 := List.length_append
      have hmode : (s.addSubscription service characteristic).discoveryMode = s.discoveryMode := rfl
      rw [hlength, hmode]
      omega

theorem foldl_planCharacteristics_undegraded (services : List GattServiceInfo) (s : BLEClientHID)
    (hroom : s.subscriptionQueue.length + (wantedSubscriptions s.discoveryMode services).length ≤
      maxSubscriptions) :
    (services.foldl (fun s service => planCharacteristics service service.characteristics s) s).degraded =
      s.degraded := by
  induction services generalizing s with
  | nil => rfl
  | cons service rest ih =>
    rw [wantedSubscriptions, List.flatMap_cons, List.length_append, List.length_map] at hroom
    obtain ⟨hmode, hqueue⟩ := planCharacteristics_queue service service.characteristics s
    have hhere := planCharacteristics_undegraded service service.characteristics s (by omega)
    rw [List.foldl_cons, ih, hhere]
    rw [hmode, hqueue, List.length_append, List.length_take, List.length_map]
    exact Nat.le_trans (by rw [wantedSubscriptions]; omega) hroom

theorem planSubscriptions_undegraded {s : BLEClientHID}
    (hroom : (wantedSubscriptions s.discoveryMode s.services).length ≤ maxSubscriptions) :
    s.planSubscriptions.degraded = s.degraded := by
  unfold planSubscriptions
  rw [foldl_planCharacteristics_undegraded _ _ (by simpa using hroom)]

/-! ## The inventory of a peripheral that conforms -/

/-- The stack takes every request, and knows the database. -/
structure Peripheral.Served (p : Peripheral) (env : Env) : Prop where
  faithful : Faithful env.gatt p.database.services
  read : env.readAccepted = true
  writeChar : env.writeCharAccepted = true
  register : env.registerAccepted = true
  writeDescr : env.writeDescrAccepted = true

theorem inventoryGattDatabase_conforming {p : Peripheral} {mode : DiscoveryMode} (hp : p.Conforms mode) {env : Env}
    (henv : p.Served env) (s : BLEClientHID) :
    (s.inventoryGattDatabase env).1.services = p.recorded.services ∧
      (s.inventoryGattDatabase env).1.degraded = s.degraded ∧ (s.inventoryGattDatabase env).2 = true := by
  have hkept : p.recorded.services = keepServices {} ((records p.database.services).take maxServices) :=
    (kept_eq_records_iff.mpr hp.fits).symm
  obtain ⟨hservices, hdegraded⟩ := inventoryGattDatabase_stores henv.faithful s hkept
  obtain ⟨hdone, hstores⟩ := limitServices_spec henv.faithful s hkept
  refine ⟨hservices, ?_, ?_⟩
  · rw [hkept, marks_iff, or_iff_left (by simp [hp.fits, hp.roomy])] at hdegraded
    exact Bool.eq_iff_iff.mpr hdegraded
  · have hstored := hstores.services.trans (List.nil_append _)
    have hsome : p.recorded.services ≠ [] := by
      simpa [Peripheral.recorded, records] using hp.inhabited
    unfold startInventory at hdone hstored
    unfold inventoryGattDatabase
    dsimp only
    rw [if_pos hdone]
    dsimp only
    rw [hstored]
    simpa using hsome

end BleClientHid

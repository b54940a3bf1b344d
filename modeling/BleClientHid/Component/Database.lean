import BleClientHid.Component.Frames

/-! # The database of the peripheral

A stack that answers from a database of distinct handles, and what the inventory
then stores.
-/

namespace BleClientHid

open BLEClientHID

/-! ## Handles -/

def GattCharacteristicInfo.handles (characteristic : GattCharacteristicInfo) : List Nat :=
  characteristic.handle :: characteristic.descriptors.map (·.handle)

def GattServiceInfo.handles (service : GattServiceInfo) : List Nat :=
  service.startHandle ::
    (service.includedServices.map (·.declarationHandle) ++ service.characteristics.flatMap (·.handles))

/-- No two attributes share a handle. -/
structure GattDatabase where
  services : List GattServiceInfo
  distinct : (services.flatMap (·.handles)).Nodup

/-- Where lists have nothing in common, one that holds an element is known by it. -/
theorem index_eq_of_mem {α β : Type} {f : α → List β} {l : List α} (hnodup : (l.flatMap f).Nodup)
    {i j : Nat} {a b : α}
    {x : β} (hi : l[i]? = some a) (hj : l[j]? = some b) (ha : x ∈ f a) (hb : x ∈ f b) : i = j := by
  obtain ⟨hlti, rfl⟩ := List.getElem?_eq_some_iff.mp hi
  obtain ⟨hltj, rfl⟩ := List.getElem?_eq_some_iff.mp hj
  have hpairwise := List.pairwise_iff_getElem.mp (List.nodup_flatMap.mp hnodup).2
  rcases Nat.lt_trichotomy i j with hlt | rfl | hlt
  · exact absurd hb (hpairwise i j hlti hltj hlt ha)
  · rfl
  · exact absurd ha (hpairwise j i hltj hlti hlt hb)

theorem eq_of_mem {α β : Type} {f : α → List β} {l : List α} (hnodup : (l.flatMap f).Nodup) {a b : α} {x : β}
    (hmem : a ∈ l) (hmem' : b ∈ l) (ha : x ∈ f a) (hb : x ∈ f b) : a = b := by
  obtain ⟨i, hi⟩ := List.mem_iff_getElem?.mp hmem
  obtain ⟨j, hj⟩ := List.mem_iff_getElem?.mp hmem'
  obtain rfl := index_eq_of_mem hnodup hi hj ha hb
  exact Option.some.inj (hi.symm.trans hj)

section

variable {characteristic characteristic' : GattCharacteristicInfo} {service service' : GattServiceInfo}
    (db : GattDatabase)

theorem handle_mem_handles (hmem : characteristic ∈ service.characteristics) :
    characteristic.handle ∈ service.handles :=
  List.mem_cons_of_mem _ (List.mem_append_right _ (List.mem_flatMap.mpr ⟨characteristic, hmem, List.mem_cons_self⟩))

namespace GattDatabase

theorem service_index {i j : Nat} (hi : db.services[i]? = some service) (hj : db.services[j]? = some service')
    (hmem : characteristic ∈ service.characteristics) (hmem' : characteristic' ∈ service'.characteristics)
    (hhandle : characteristic.handle = characteristic'.handle) : i = j :=
  index_eq_of_mem db.distinct hi hj (handle_mem_handles hmem) (hhandle ▸ handle_mem_handles hmem')

theorem service_eq (hservice : service ∈ db.services) (hservice' : service' ∈ db.services)
    (hstart : service.startHandle = service'.startHandle) : service = service' :=
  eq_of_mem db.distinct hservice hservice' List.mem_cons_self (hstart ▸ List.mem_cons_self)

theorem characteristic_eq (hservice : service ∈ db.services) (hservice' : service' ∈ db.services)
    (hmem : characteristic ∈ service.characteristics) (hmem' : characteristic' ∈ service'.characteristics)
    (hhandle : characteristic.handle = characteristic'.handle) : characteristic = characteristic' := by
  obtain rfl : service = service' :=
    eq_of_mem db.distinct hservice hservice' (handle_mem_handles hmem) (hhandle ▸ handle_mem_handles hmem')
  have hnodup : (service.characteristics.flatMap (·.handles)).Nodup :=
    (List.nodup_append.mp (List.nodup_cons.mp ((List.nodup_flatMap.mp db.distinct).1 service hservice)).2).2.1
  exact eq_of_mem hnodup hmem hmem' List.mem_cons_self (hhandle ▸ List.mem_cons_self)

end GattDatabase

end

/-! ## The stack -/

/-- What the stack finds is in the database, where it was asked for. It may still fail. -/
structure Serves (gatt : GattCache) (db : GattDatabase) : Prop where
  service : ∀ {offset count elem}, gatt.getService offset = (.ok, count, elem) → count ≠ 0 →
    ∃ service, db.services[offset]? = some service ∧ elem.uuid = service.uuid ∧
      elem.startHandle = service.startHandle ∧ elem.endHandle = service.endHandle
  characteristic : ∀ {startHandle endHandle offset count elem},
    gatt.getAllChar startHandle endHandle offset = (.ok, count, elem) → count ≠ 0 →
      ∃ service ∈ db.services, service.startHandle = startHandle ∧ ∃ characteristic ∈ service.characteristics,
        elem.uuid = characteristic.uuid ∧ elem.handle = characteristic.handle ∧
          elem.properties = characteristic.properties
  descriptor : ∀ {handle offset count elem}, gatt.getAllDescr handle offset = (.ok, count, elem) → count ≠ 0 →
    ∃ service ∈ db.services, ∃ characteristic ∈ service.characteristics, characteristic.handle = handle ∧
      ∃ descriptor ∈ characteristic.descriptors, elem.uuid = descriptor.uuid ∧ elem.handle = descriptor.handle

theorem ofServices_serves (db : GattDatabase) : Serves (.ofServices db.services) db where
  service {offset count elem} h _ := by
    simp only [GattCache.ofServices] at h
    split at h
    · rename_i service hservice
      obtain ⟨-, rfl⟩ := Prod.mk.inj (Prod.mk.inj h).2
      exact ⟨service, hservice, rfl, rfl, rfl⟩
    · simp at h
  characteristic {startHandle endHandle offset count elem} h _ := by
    simp only [GattCache.ofServices] at h
    split at h
    · rename_i characteristic hcharacteristic
      obtain ⟨-, rfl⟩ := Prod.mk.inj (Prod.mk.inj h).2
      cases hfind : db.services.find? fun service => service.startHandle ==
        startHandle && service.endHandle == endHandle with
      | none => simp [hfind] at hcharacteristic
      | some service =>
        rw [hfind, Option.getD_some] at hcharacteristic
        have hsame := List.find?_some hfind
        rw [Bool.and_eq_true, beq_iff_eq] at hsame
        exact ⟨service, List.mem_of_find?_eq_some hfind, hsame.1, characteristic,
          List.mem_of_getElem? hcharacteristic,
          rfl, rfl, rfl⟩
    · simp at h
  descriptor {handle offset count elem} h _ := by
    simp only [GattCache.ofServices] at h
    split at h
    · rename_i descriptor hdescriptor
      obtain ⟨-, rfl⟩ := Prod.mk.inj (Prod.mk.inj h).2
      cases hfind : findCharacteristic db.services handle with
      | none => simp [hfind] at hdescriptor
      | some characteristic =>
        rw [hfind, Option.getD_some] at hdescriptor
        obtain ⟨service, hservice, hmem⟩ := List.mem_flatMap.mp (List.mem_of_find?_eq_some hfind)
        exact ⟨service, hservice, characteristic, hmem, by simpa using List.find?_some hfind, descriptor,
          List.mem_of_getElem? hdescriptor, rfl, rfl⟩
    · simp at h

/-! ## The inventory -/

structure RecordsCharacteristic (info characteristic : GattCharacteristicInfo) : Prop where
  uuid : info.uuid = characteristic.uuid
  handle : info.handle = characteristic.handle
  properties : info.properties = characteristic.properties
  descriptors : ∀ descriptor ∈ info.descriptors, ∃ descriptor' ∈ characteristic.descriptors,
    descriptor.uuid = descriptor'.uuid ∧ descriptor.handle = descriptor'.handle

structure RecordsService (info service : GattServiceInfo) : Prop where
  uuid : info.uuid = service.uuid
  characteristics : ∀ c ∈ info.characteristics, ∃ characteristic ∈ service.characteristics,
    RecordsCharacteristic c characteristic

/-- Each stored service is the one of the database at its instance. -/
def Recorded (db : GattDatabase) (services : List GattServiceInfo) : Prop :=
  ∀ info ∈ services, ∃ service, db.services[info.serviceInstance]? = some service ∧ RecordsService info service

section

variable {env : Env} {db : GattDatabase}

theorem inventoryDescriptors_answers (env : Env) (handle fuel offset : Nat) (st : InventoryState) :
    ∀ descriptor ∈ (inventoryDescriptors env handle fuel offset st).2, ∃ offset count elem,
      env.gatt.getAllDescr handle offset = (.ok, count, elem) ∧ count ≠ 0 ∧ descriptor.uuid = elem.uuid ∧
        descriptor.handle = elem.handle := by
  fun_induction inventoryDescriptors env handle fuel offset st with
  | case1 | case2 | case3 | case4 => simp
  | case5 fuel offset st _ status count elem hanswer _ hfound descriptor _ _ _ hrest ih =>
    rw [not_or, not_not] at hfound
    obtain ⟨rfl, hcount⟩ := hfound
    rw [hrest] at ih
    rintro d hmem
    rcases List.mem_cons.mp hmem with rfl | hlater
    · exact ⟨offset, count, elem, hanswer, hcount, rfl, rfl⟩
    · exact ih d hlater

theorem inventoryCharacteristic_records (hserves : Serves env.gatt db) {service : GattServiceInfo}
    (hservice : service ∈ db.services) {characteristic : GattCharacteristicInfo}
    (hmem : characteristic ∈ service.characteristics) (info : GattServiceInfo) {elem : CharElem}
      (st : InventoryState)
    (huuid : elem.uuid = characteristic.uuid) (hhandle : elem.handle = characteristic.handle)
    (hproperties : elem.properties = characteristic.properties) :
    RecordsCharacteristic (inventoryCharacteristic env info elem st).2 characteristic := by
  refine ⟨huuid, hhandle, hproperties, fun descriptor hdescriptor => ?_⟩
  obtain ⟨offset, count, elem', hanswer, hcount, huuid', hhandle'⟩ :=
    inventoryDescriptors_answers env elem.handle maxDescriptors 0 _ descriptor hdescriptor
  obtain ⟨other, hother, characteristic', hmem', hsame, descriptor', hdescriptor', hdescr⟩ :=
    hserves.descriptor hanswer hcount
  obtain rfl := db.characteristic_eq hother hservice hmem' hmem (hsame.trans hhandle)
  exact ⟨descriptor', hdescriptor', huuid'.trans hdescr.1, hhandle'.trans hdescr.2⟩

theorem inventoryCharacteristics_records (hserves : Serves env.gatt db) {service : GattServiceInfo}
    (hservice : service ∈ db.services) {info : GattServiceInfo} (hstart : info.startHandle = service.startHandle)
    (fuel offset : Nat) (st : InventoryState) :
    ∀ c ∈ (inventoryCharacteristics env info fuel offset st).2,
      ∃ characteristic ∈ service.characteristics, RecordsCharacteristic c characteristic := by
  fun_induction inventoryCharacteristics env info fuel offset st with
  | case1 | case2 | case3 | case4 => simp
  | case5 fuel offset st _ status count elem hanswer _ hfound first rest ih =>
    rw [not_or, not_not] at hfound
    obtain ⟨rfl, hcount⟩ := hfound
    rintro c hmem
    rcases List.mem_cons.mp hmem with rfl | hlater
    · obtain ⟨other, hother, hsame, characteristic, hcharacteristic, huuid, hhandle, hproperties⟩ :=
        hserves.characteristic hanswer hcount
      obtain rfl := db.service_eq hother hservice (hsame.trans hstart)
      exact ⟨characteristic, hcharacteristic,
        inventoryCharacteristic_records hserves hother hcharacteristic info st huuid hhandle hproperties⟩
    · exact ih c hlater

theorem BLEClientHID.OnlyMarks.services {s t : BLEClientHID} (h : OnlyMarks s t) : t.services = s.services := by
  obtain ⟨reasons, rfl⟩ := h
  rfl

theorem inventoryService_recorded (hserves : Serves env.gatt db) {offset count : Nat} {elem : ServiceElem}
    (hanswer : env.gatt.getService offset = (.ok, count, elem)) (hcount : count ≠ 0) {st : InventoryState}
    (h : Recorded db st.component.services) : Recorded db
      (inventoryService env offset elem st).component.services := by
  obtain ⟨service, hservice, huuid, hstart, -⟩ := hserves.service hanswer hcount
  unfold inventoryService
  dsimp only [addService]
  rw [OnlyMarks.services (inventoryContents_marks env _ _)]
  intro info hinfo
  rcases List.mem_append.mp hinfo with hold | hnew
  · exact h info hold
  · obtain rfl := List.mem_singleton.mp hnew
    refine ⟨service, hservice, huuid, ?_⟩
    exact inventoryCharacteristics_records hserves (List.mem_of_getElem? hservice) hstart maxCharacteristics 0 _

theorem inventoryServices_recorded (hserves : Serves env.gatt db) (fuel offset : Nat) {st : InventoryState}
    (h : Recorded db st.component.services) :
    Recorded db (inventoryServices env fuel offset st).1.component.services := by
  induction fuel generalizing offset st with
  | zero => exact h
  | succ fuel ih =>
    unfold inventoryServices
    generalize hanswer : env.gatt.getService offset = answer
    obtain ⟨status, count, elem⟩ := answer
    dsimp only
    split
    · exact h
    · split
      · exact h
      · rename_i hfound
        rw [not_or, not_not] at hfound
        obtain ⟨rfl, hcount⟩ := hfound
        exact ih (offset + 1) (inventoryService_recorded hserves hanswer hcount h)

theorem inventoryGattDatabase_recorded (hserves : Serves env.gatt db) (s : BLEClientHID) :
    Recorded db (s.inventoryGattDatabase env).1.services := by
  have hservices : Recorded db (inventoryServices env maxServices 0 {
      component := { s with services := [], hidServices := [] } }).1.component.services :=
    inventoryServices_recorded hserves maxServices 0 (by simp [Recorded])
  have hlimit (st : InventoryState) : (limitServices st).component.services = st.component.services := by
    unfold limitServices
    split <;> rfl
  unfold inventoryGattDatabase
  dsimp only
  split
  · dsimp only
    rw [hlimit]
    exact hservices
  · exact hservices

end

end BleClientHid

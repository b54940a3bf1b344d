import BleClientHid.Component.FaithfulStack
import BleClientHid.Component.Runs

/-! # Lossless, or it says so

When the inventory of a faithful stack keeps its promise.
-/

namespace BleClientHid

open Lib BLEClientHID

/-! ## A database of distinct handles -/

section

variable (db : GattDatabase)

theorem find_service {service : GattServiceInfo} (hmem : service ∈ db.services) :
    (db.services.find? fun other =>
      other.startHandle == service.startHandle && other.endHandle == service.endHandle) = some service := by
  cases hfind : db.services.find? fun other =>
      other.startHandle == service.startHandle && other.endHandle == service.endHandle with
  | none => simpa using List.find?_eq_none.mp hfind service hmem
  | some other =>
    have hsame := List.find?_some hfind
    rw [Bool.and_eq_true, beq_iff_eq] at hsame
    rw [db.service_eq (List.mem_of_find?_eq_some hfind) hmem hsame.1]

theorem find_characteristic {service : GattServiceInfo} (hmem : service ∈ db.services)
    {characteristic : GattCharacteristicInfo} (hchar : characteristic ∈ service.characteristics) :
    findCharacteristic db.services characteristic.handle = some characteristic := by
  have hall : characteristic ∈ db.services.flatMap (·.characteristics) :=
    List.mem_flatMap.mpr ⟨service, hmem, hchar⟩
  cases hfind : findCharacteristic db.services characteristic.handle with
  | none => simpa using List.find?_eq_none.mp hfind characteristic hall
  | some other =>
    obtain ⟨service', hmem', hother⟩ := List.mem_flatMap.mp (List.mem_of_find?_eq_some hfind)
    rw [db.characteristic_eq hmem' hmem hother hchar (by simpa using List.find?_some hfind)]

theorem ofServices_faithful : Faithful (.ofServices db.services) db.services where
  services := {
    found := fun offset service hget => ⟨1, by decide, by simp only [GattCache.ofServices, hget]; rfl⟩
    past := fun offset hlen => by simp only [GattCache.ofServices, List.getElem?_eq_none hlen]; rfl }
  includeCount service hmem := by
    simp only [GattCache.ofServices, find_service db hmem, Option.getD_some]
  includes service hmem count _ := by
    simp only [GattCache.ofServices, find_service db hmem, Option.getD_some]
    rfl
  characteristics service hmem := {
    found := fun offset characteristic hget => ⟨1, by decide, by
      simp only [GattCache.ofServices, find_service db hmem, Option.getD_some, hget]; rfl⟩
    past := fun offset hlen => by
      simp only [GattCache.ofServices, find_service db hmem, Option.getD_some, List.getElem?_eq_none hlen]; rfl }
  descriptors service hmem characteristic hchar := {
    found := fun offset descriptor hget => ⟨1, by decide, by
      simp only [GattCache.ofServices, find_characteristic db hmem hchar, Option.getD_some, hget]; rfl⟩
    past := fun offset hlen => by
      simp only [GattCache.ofServices, find_characteristic db hmem hchar, Option.getD_some,
        List.getElem?_eq_none hlen]; rfl }

end

/-! ## The law -/

/-- No loop of the inventory needs more rounds. -/
structure RoundsSuffice (env : Env) : Prop where
  descriptors : ∀ handle st more,
    inventoryDescriptors env handle (maxDescriptors + more) 0 st =
      inventoryDescriptors env handle maxDescriptors 0 st
  characteristics : ∀ info st more, inventoryCharacteristics env info (maxCharacteristics + more) 0 st =
    inventoryCharacteristics env info maxCharacteristics 0 st

/-- Every limit is kept, what is stored is in the order of the database and under its own parent, and
the setup is marked exactly when something was left out. -/
structure InventoryLaw (env : Env) (db : List GattServiceInfo) (s : BLEClientHID) : Prop where
  rounds : RoundsSuffice env
  services : (s.inventoryGattDatabase env).1.services.length ≤ maxServices
  limits : (totals {} (s.inventoryGattDatabase env).1.services).Fits
  recorded : Front ServicePart (s.inventoryGattDatabase env).1.services (records db)
  reported : (s.inventoryGattDatabase env).1.degraded = true ↔
    s.degraded = true ∨ (s.inventoryGattDatabase env).1.services ≠ records db

structure FitsInventory (db : List GattServiceInfo) : Prop where
  services : db.length ≤ maxServices
  totals : (totals {} db).Fits

/-- The limits that are reported once they are met. -/
def MeetsLimit (db : List GattServiceInfo) : Prop :=
  db.length = maxServices ∨ (totals {} db).characteristics = maxCharacteristics ∨
    (totals {} db).descriptors = maxDescriptors

instance (db : List GattServiceInfo) : Decidable (MeetsLimit db) := inferInstanceAs (Decidable (_ ∨ _ ∨ _))

theorem roundsSuffice (env : Env) : RoundsSuffice env where
  descriptors handle st more :=
    inventoryDescriptors_rounds env handle maxDescriptors more 0 st (Nat.le_add_left _ _)
  characteristics info st more :=
    inventoryCharacteristics_rounds env info maxCharacteristics more 0 st (Nat.le_add_left _ _)

theorem totals_mapIdx {f : Nat → GattServiceInfo → GattServiceInfo}
    (hf : ∀ t offset service, Totals.add t (f offset service) = t.add service) (t : Totals)
    (l : List GattServiceInfo) : totals t (l.mapIdx f) = totals t l := by
  induction l generalizing f t with
  | nil => rfl
  | cons service rest ih =>
    rw [List.mapIdx_cons, totals_cons, totals_cons, hf]
    exact ih (fun t offset service => hf t (offset + 1) service) _

theorem totals_records (t : Totals) (db : List GattServiceInfo) : totals t (records db) = totals t db :=
  totals_mapIdx Totals.add_record t db

theorem length_records (db : List GattServiceInfo) : (records db).length = db.length := List.length_mapIdx

theorem records_take {db : List GattServiceInfo} (h : db.length ≤ maxServices) :
    (records db).take maxServices = records db :=
  List.take_of_length_le (by rwa [length_records])

theorem fits_empty : ({} : Totals).Fits := ⟨Nat.zero_le _, Nat.zero_le _, Nat.zero_le _⟩

section

variable {env : Env} {db : List GattServiceInfo}

theorem kept_eq_records_iff :
    keepServices {} ((records db).take maxServices) = records db ↔ FitsInventory db := by
  constructor
  · intro hall
    have hlen := congrArg List.length hall
    rw [length_keepServices, List.length_take, length_records] at hlen
    have hservices : db.length ≤ maxServices := by omega
    rw [records_take hservices] at hall
    have hfits := (keepServices_eq_self_iff fits_empty _).mp hall
    rw [totals_records] at hfits
    exact ⟨hservices, hfits⟩
  · intro hfits
    rw [records_take hfits.services]
    exact (keepServices_eq_self_iff fits_empty _).mpr (by rw [totals_records]; exact hfits.totals)

theorem marks_iff :
    (AnyMarks {} ((records db).take maxServices) ∨
      (keepServices {} ((records db).take maxServices)).length ≥ maxServices) ↔
      ¬FitsInventory db ∨ MeetsLimit db := by
  rw [length_keepServices, List.length_take, length_records]
  by_cases hfits : FitsInventory db
  · have hservices := hfits.services
    rw [records_take hservices, anyMarks_of_fits (by rw [totals_records]; exact hfits.totals) (by decide) (by decide),
      totals_records, or_iff_right (not_not.mpr hfits), MeetsLimit]
    have hcharacteristics := hfits.totals.characteristics
    have hdescriptors := hfits.totals.descriptors
    omega
  · refine iff_of_true ?_ (.inl hfits)
    by_contra hnone
    rw [not_or, ge_iff_le, Nat.not_le] at hnone
    have hservices : db.length ≤ maxServices := by omega
    have hall := keepServices_of_not_marks fits_empty hnone.1
    rw [records_take hservices] at hall
    have hkept := (keepServices_eq_self_iff fits_empty _).mp hall
    rw [totals_records] at hkept
    exact hfits ⟨hservices, hkept⟩

/-- A database that fits but meets a limit is marked although nothing was left out. All others keep the law. -/
theorem inventoryLaw_iff (h : Faithful env.gatt db) :
    (∀ s, InventoryLaw env db s) ↔ (FitsInventory db → ¬MeetsLimit db) := by
  constructor
  · intro hlaw hfits hmeets
    obtain ⟨hkept, hdegraded⟩ := inventoryGattDatabase_stores h {} rfl
    have hreported := (hlaw {}).reported
    rw [hdegraded, hkept, marks_iff] at hreported
    rcases hreported.mp (.inr (.inr hmeets)) with hmarked | hleft
    · exact absurd hmarked (by decide)
    · exact hleft (kept_eq_records_iff.mpr hfits)
  · intro hlimit s
    obtain ⟨hkept, hdegraded⟩ := inventoryGattDatabase_stores h s rfl
    refine ⟨roundsSuffice env, ?_, ?_, ?_, ?_⟩
    · rw [hkept, length_keepServices]
      exact List.length_take_le _ _
    · rw [hkept]
      exact fits_empty.keepServices _
    · rw [hkept]
      exact .of_take _ (keepServices_parts _ _)
    · rw [hdegraded, hkept, marks_iff, ne_eq, kept_eq_records_iff]
      refine or_congr_right ⟨?_, .inl⟩
      rintro (hleft | hmeets)
      · exact hleft
      · exact fun hfits => hlimit hfits hmeets

end

/-- Within every limit, and meets none. -/
theorem inventoryLaw_keyboard : InventoryLaw (exampleEnv keyboardServices) keyboardServices {} :=
  (inventoryLaw_iff (ofServices_faithful ⟨keyboardServices, by decide⟩)).mpr (fun _ => by decide) {}

/-- As many services as there is room for, with nothing in them. -/
def fullDatabase : GattDatabase where
  services := (List.range maxServices).map fun i =>
    { uuid := .uuid16 0x1800, startHandle := i + 1, endHandle := i + 1 }
  distinct := by decide +kernel

/-- All of them are stored, and the setup is marked. -/
theorem full_database_marked :
    Faithful (exampleEnv fullDatabase.services).gatt fullDatabase.services ∧
      ({} : BLEClientHID).degraded = false ∧
      (({} : BLEClientHID).inventoryGattDatabase (exampleEnv fullDatabase.services)).1.services =
        records fullDatabase.services ∧
      (({} : BLEClientHID).inventoryGattDatabase (exampleEnv fullDatabase.services)).1.degraded = true ∧
      ¬InventoryLaw (exampleEnv fullDatabase.services) fullDatabase.services {} := by
  have hfaithful : Faithful (exampleEnv fullDatabase.services).gatt fullDatabase.services :=
    ofServices_faithful fullDatabase
  obtain ⟨hkept, hdegraded⟩ := inventoryGattDatabase_stores hfaithful {} rfl
  have hfits : FitsInventory fullDatabase.services :=
    ⟨by decide +kernel, by decide +kernel, by decide +kernel, by decide +kernel⟩
  rw [kept_eq_records_iff.mpr hfits] at hkept
  rw [marks_iff] at hdegraded
  have hmarked := hdegraded.mpr (.inr (.inr (.inl (by decide +kernel))))
  refine ⟨hfaithful, rfl, hkept, hmarked, fun hlaw => ?_⟩
  rcases hlaw.reported.mp hmarked with hbefore | hleft
  · exact absurd hbefore (by decide)
  · exact hleft hkept

end BleClientHid

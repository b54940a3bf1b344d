import BleClientHid.Component.Kept

/-! # The inventory of a faithful stack

What the loops of the inventory store, and when they report a limit.
-/

namespace BleClientHid

open Lib BLEClientHID

/-! ## A faithful stack -/

def GattServiceInfo.elem (service : GattServiceInfo) : ServiceElem :=
  { uuid := service.uuid, startHandle := service.startHandle, endHandle := service.endHandle,
    isPrimary := service.primary }

def GattIncludedServiceInfo.elem (info : GattIncludedServiceInfo) : IncludeElem :=
  { uuid := info.uuid, handle := info.declarationHandle, startHandle := info.startHandle,
    endHandle := info.endHandle }

def GattCharacteristicInfo.elem (characteristic : GattCharacteristicInfo) : CharElem :=
  { uuid := characteristic.uuid, handle := characteristic.handle, properties := characteristic.properties }

def GattDescriptorInfo.elem (descriptor : GattDescriptorInfo) : DescrElem :=
  { uuid := descriptor.uuid, handle := descriptor.handle }

/-- The element at each offset, and an end behind the last. -/
structure Answers {α β : Type} (query : Nat → GattStatus × Nat × β) (l : List α) (elem : α → β) : Prop where
  found : ∀ offset a, l[offset]? = some a → ∃ count, count ≠ 0 ∧ query offset = (.ok, count, elem a)
  past : ∀ offset, l.length ≤ offset → pastEnd (query offset).1 = true

theorem Answers.cases {α β : Type} {query : Nat → GattStatus × Nat × β} {l : List α} {elem : α → β}
    (h : Answers query l elem) {offset count : Nat} {status : GattStatus} {b : β}
    (hanswer : query offset = (status, count, b)) :
    (l.drop offset = [] ∧ pastEnd status = true) ∨
      ∃ a, l.drop offset = a :: l.drop (offset + 1) ∧ a ∈ l ∧ status = .ok ∧ count ≠ 0 ∧ b = elem a := by
  rcases Nat.lt_or_ge offset l.length with hlt | hlen
  · obtain ⟨count', hcount, hfound⟩ := h.found offset l[offset] (List.getElem?_eq_getElem hlt)
    obtain ⟨rfl, rfl, rfl⟩ : status = .ok ∧ count = count' ∧ b = elem l[offset] := by
      simpa using hanswer.symm.trans hfound
    exact .inr ⟨l[offset], List.drop_eq_getElem_cons hlt, List.getElem_mem hlt, rfl, hcount, rfl⟩
  · have hpast := h.past offset hlen
    rw [hanswer] at hpast
    exact .inl ⟨List.drop_eq_nil_of_le hlen, hpast⟩

/-- The stack answers every query from the database. -/
structure Faithful (gatt : GattCache) (db : List GattServiceInfo) : Prop where
  services : Answers gatt.getService db (·.elem)
  includeCount : ∀ service ∈ db,
    gatt.includedServiceCount service.startHandle service.endHandle = (.ok, service.includedServices.length)
  includes : ∀ service ∈ db, ∀ count ≤ service.includedServices.length,
    gatt.getIncludeService service.startHandle service.endHandle count =
      (.ok, (service.includedServices.take count).map (·.elem))
  characteristics : ∀ service ∈ db,
    Answers (gatt.getAllChar service.startHandle service.endHandle) service.characteristics (·.elem)
  descriptors : ∀ service ∈ db, ∀ characteristic ∈ service.characteristics,
    Answers (gatt.getAllDescr characteristic.handle) characteristic.descriptors (·.elem)

/-! ## The records -/

def recordCharacteristic (offset : Nat) (characteristic : GattCharacteristicInfo) : GattCharacteristicInfo :=
  { characteristic with serviceInstance := offset }

/-- A service as the inventory numbers it. -/
def recordService (offset : Nat) (service : GattServiceInfo) : GattServiceInfo :=
  { service with
    serviceInstance := offset
    characteristics := service.characteristics.map (recordCharacteristic offset) }

def records (db : List GattServiceInfo) : List GattServiceInfo := db.mapIdx recordService

theorem descriptorCount_map_record (offset : Nat) (l : List GattCharacteristicInfo) :
    descriptorCount (l.map (recordCharacteristic offset)) = descriptorCount l := by
  rw [descriptorCount, List.map_map]
  rfl

theorem records_drop_nil {db : List GattServiceInfo} {offset : Nat} (h : db.drop offset = []) :
    (records db).drop offset = [] := by
  rw [List.drop_eq_nil_iff] at h ⊢
  rwa [records, List.length_mapIdx]

theorem records_drop_cons {db rest : List GattServiceInfo} {service : GattServiceInfo} {offset : Nat}
    (h : db.drop offset = service :: rest) :
    (records db).drop offset = recordService offset service :: (records db).drop (offset + 1) := by
  have hlt : offset < db.length := by
    by_contra hge
    rw [List.drop_eq_nil_of_le (Nat.not_lt.mp hge)] at h
    exact List.cons_ne_nil _ _ h.symm
  rw [List.drop_eq_getElem_cons hlt, List.cons.injEq] at h
  rw [List.drop_eq_getElem_cons (by rwa [records, List.length_mapIdx])]
  simp only [records, List.getElem_mapIdx, h.1]

theorem Totals.add_record (t : Totals) (offset : Nat) (service : GattServiceInfo) :
    t.add (recordService offset service) = t.add service := by
  simp only [Totals.add, recordService, List.length_map, descriptorCount_map_record]

/-! ## The text of the fingerprint -/

section

variable (platform : Platform)

def includeEntry (info : GattIncludedServiceInfo) : String := "I:" ++ platform.uuidString info.uuid ++ ";"

def descriptorEntry (descriptor : GattDescriptorInfo) : String := "D:" ++ platform.uuidString descriptor.uuid ++ ";"

def characteristicHead (characteristic : GattCharacteristicInfo) : String :=
  "C:" ++ platform.uuidString characteristic.uuid ++ ":" ++ toString characteristic.properties ++ ";"

def characteristicEntry (characteristic : GattCharacteristicInfo) : String :=
  characteristicHead platform characteristic ++
    String.join (characteristic.descriptors.map (descriptorEntry platform))

def serviceHead (service : GattServiceInfo) : String :=
  "S:" ++ platform.uuidString service.uuid ++ if service.primary then ":P;" else ":S;"

def serviceEntry (service : GattServiceInfo) : String :=
  serviceHead platform service ++ (String.join (service.includedServices.map (includeEntry platform)) ++
    String.join (service.characteristics.map (characteristicEntry platform)))

end

/-! ## Storing -/

namespace BLEClientHID.InventoryState

def totals (st : InventoryState) : Totals :=
  { includes := st.includedServiceTotal, characteristics := st.characteristicTotal,
    descriptors := st.descriptorTotal }

/-- A part of the inventory: the totals behind it, the services and the text it adds, and when it marks. -/
structure Stores (st st' : InventoryState) (t : Totals) (services : List GattServiceInfo) (text : String)
    (marks : Prop) : Prop where
  totals : st'.totals = t
  services : st'.component.services = st.component.services ++ services
  text : st'.normalized = st.normalized ++ text
  degraded : st'.component.degraded = true ↔ st.component.degraded = true ∨ marks

namespace Stores

variable {st st' st'' : InventoryState} {t t' : Totals} {services services' : List GattServiceInfo}
    {text text' : String} {marks marks' : Prop}

theorem nothing (st : InventoryState) : Stores st st st.totals [] "" False :=
  ⟨rfl, by simp, by simp, by simp⟩

theorem trans (h : Stores st st' t services text marks) (h' : Stores st' st'' t' services' text' marks') :
    Stores st st'' t' (services ++ services') (text ++ text') (marks ∨ marks') where
  totals := h'.totals
  services := by rw [h'.services, h.services, List.append_assoc]
  text := by rw [h'.text, h.text, String.append_assoc]
  degraded := by rw [h'.degraded, h.degraded, or_assoc]

theorem congr (h : Stores st st' t services text marks) (ht : t = t') (hmarks : marks ↔ marks') :
    Stores st st' t' services text marks' :=
  ⟨h.totals.trans ht, h.services, h.text, h.degraded.trans (or_congr_right hmarks)⟩

theorem update (text : String) (st : InventoryState) : Stores st (st.update text) st.totals [] text False :=
  ⟨rfl, by simp [InventoryState.update], rfl, by simp [InventoryState.update]⟩

theorem markIf (h : Stores st st' t services text marks) (c : Prop) [Decidable c] (reason : String) :
    Stores st (if c then st'.markDegraded reason else st') t services text (marks ∨ c) := by
  by_cases hc : c
  · rw [if_pos hc]
    exact ⟨h.totals, h.services, h.text, by simp [InventoryState.markDegraded, BLEClientHID.markDegraded, hc]⟩
  · rw [if_neg hc]
    exact h.congr rfl (by simp [hc])

end Stores

/-- A loop that ends with the entries `kept`. -/
structure Lists {α : Type} (entry : α → String) (st : InventoryState) (result : InventoryState × List α)
    (kept : List α) (t : Totals) (marks : Prop) : Prop where
  list : result.2 = kept
  stores : Stores st result.1 t [] (String.join (kept.map entry)) marks

namespace Lists

variable {α : Type} {entry : α → String} {st st' : InventoryState} {result : InventoryState × List α}
    {kept : List α} {t t' : Totals} {marks marks' : Prop}

theorem nil (st : InventoryState) : Lists entry st (st, []) [] st.totals False := ⟨rfl, .nothing st⟩

theorem cons {a : α} (h : Stores st st' t [] (entry a) marks) (h' : Lists entry st' result kept t' marks') :
    Lists entry st (result.1, a :: result.2) (a :: kept) t' (marks ∨ marks') :=
  ⟨by rw [h'.list], by rw [List.map_cons, String.join_cons]; exact h.trans h'.stores⟩

theorem congr (h : Lists entry st result kept t marks) (ht : t = t') (hmarks : marks ↔ marks') :
    Lists entry st result kept t' marks' :=
  ⟨h.list, h.stores.congr ht hmarks⟩

end Lists

end BLEClientHID.InventoryState

open InventoryState

/-! ## The loops -/

section

variable {env : Env}

/-- The rounds left are enough for what there is still room for. -/
theorem inventoryDescriptors_spec {handle : Nat} {l kept : List GattDescriptorInfo}
    (h : Answers (env.gatt.getAllDescr handle) l (·.elem)) (fuel offset : Nat) (st : InventoryState)
    (hfuel : maxDescriptors ≤ st.descriptorTotal + fuel)
    (hkept : kept = upTo maxDescriptors st.descriptorTotal (l.drop offset)) :
    Lists (descriptorEntry env.platform) st (inventoryDescriptors env handle fuel offset st) kept
      { st.totals with descriptors := st.descriptorTotal + kept.length } False := by
  induction fuel generalizing offset st kept with
  | zero =>
    rw [upTo_full (by omega)] at hkept
    subst hkept
    exact .nil st
  | succ fuel ih =>
    unfold inventoryDescriptors
    split
    · rename_i hfull
      rw [upTo_full hfull] at hkept
      subst hkept
      exact .nil st
    · rename_i hroom
      generalize hanswer : env.gatt.getAllDescr handle offset = answer
      obtain ⟨status, count, elem⟩ := answer
      dsimp only
      rcases h.cases hanswer with ⟨hnil, hpast⟩ | ⟨descriptor, hcons, -, rfl, hcount, rfl⟩
      · rw [hnil, upTo_nil] at hkept
        subst hkept
        rw [if_pos hpast]
        exact .nil st
      · rw [hcons, upTo_cons (Nat.not_le.mp hroom)] at hkept
        subst hkept
        rw [if_neg (by decide), if_neg (by simp [hcount])]
        have hfirst : Stores st { st.update (descriptorEntry env.platform descriptor) with
            descriptorTotal := st.descriptorTotal + 1 } { st.totals with descriptors := st.descriptorTotal + 1 } []
            (descriptorEntry env.platform descriptor) False :=
          ⟨rfl, (List.append_nil _).symm, rfl, by simp [InventoryState.update]⟩
        have hrest := ih (offset + 1) { st.update (descriptorEntry env.platform descriptor) with
          descriptorTotal := st.descriptorTotal + 1 } (by dsimp only; omega) rfl
        refine (Lists.cons hfirst hrest).congr ?_ (by simp)
        rw [List.length_cons, ← Nat.add_assoc, Nat.add_right_comm]
        rfl

def openCharacteristic (env : Env) (characteristic : GattCharacteristicInfo) (st : InventoryState) :
    InventoryState :=
  { st.update (characteristicHead env.platform characteristic) with
    characteristicTotal := st.characteristicTotal + 1 }

def closeCharacteristic (info : GattServiceInfo) (characteristic : GattCharacteristicInfo)
    (result : InventoryState × List GattDescriptorInfo) : InventoryState × GattCharacteristicInfo :=
  (if result.1.descriptorTotal ≥ maxDescriptors then result.1.markDegraded "descriptor inventory limit exceeded"
    else result.1, { recordCharacteristic info.serviceInstance characteristic with descriptors := result.2 })

theorem inventoryCharacteristic_eq (info : GattServiceInfo) (characteristic : GattCharacteristicInfo)
    (st : InventoryState) :
    inventoryCharacteristic env info characteristic.elem st = closeCharacteristic info characteristic
      (inventoryDescriptors env characteristic.handle maxDescriptors 0
        (openCharacteristic env characteristic st)) := by
  unfold inventoryCharacteristic closeCharacteristic openCharacteristic
  dsimp only
  rfl

theorem inventoryCharacteristic_spec {info : GattServiceInfo} {characteristic kept : GattCharacteristicInfo}
    (h : Answers (env.gatt.getAllDescr characteristic.handle) characteristic.descriptors (·.elem))
    (st : InventoryState) (hkept : kept = keepCharacteristic st.descriptorTotal
      (recordCharacteristic info.serviceInstance characteristic)) :
    (inventoryCharacteristic env info characteristic.elem st).2 = kept ∧
      Stores st (inventoryCharacteristic env info characteristic.elem st).1
        { st.totals with characteristics := st.characteristicTotal + 1
                         descriptors := st.descriptorTotal + kept.descriptors.length } []
        (characteristicEntry env.platform kept)
        (maxDescriptors ≤ st.descriptorTotal + kept.descriptors.length) := by
  subst hkept
  have hopen : Stores st (openCharacteristic env characteristic st)
      { st.totals with characteristics := st.characteristicTotal + 1 } []
      (characteristicHead env.platform characteristic) False :=
    ⟨rfl, (List.append_nil _).symm, rfl, by simp [openCharacteristic, InventoryState.update]⟩
  have hlist := inventoryDescriptors_spec h maxDescriptors 0 (openCharacteristic env characteristic st)
    (Nat.le_add_left _ _) rfl
  rw [inventoryCharacteristic_eq]
  generalize inventoryDescriptors env characteristic.handle maxDescriptors 0
    (openCharacteristic env characteristic st) = result at hlist
  rw [List.drop_zero] at hlist
  have htotal := congrArg Totals.descriptors hlist.stores.totals
  constructor
  · exact congrArg
      (fun descriptors => { recordCharacteristic info.serviceInstance characteristic with descriptors }) hlist.list
  · refine ((hopen.trans hlist.stores).markIf _ _).congr rfl ?_
    rw [or_iff_right (by simp)]
    exact iff_of_eq (congrArg (maxDescriptors ≤ ·) htotal)

theorem no_characteristics (st : InventoryState) {kept : List GattCharacteristicInfo}
    (hkept : kept = keepCharacteristics st.descriptorTotal []) :
    Lists (characteristicEntry env.platform) st (st, []) kept
      { st.totals with characteristics := st.characteristicTotal + kept.length
                       descriptors := st.descriptorTotal + descriptorCount kept }
      (kept ≠ [] ∧ maxDescriptors ≤ st.descriptorTotal + descriptorCount kept) := by
  subst hkept
  exact (Lists.nil st).congr rfl (by simp [keepCharacteristics])

/-- A limit met by the first characteristics is met by all of them. -/
theorem met_by_all (limit total : Nat) (rest : List GattCharacteristicInfo) :
    (limit ≤ total ∨ rest ≠ [] ∧ limit ≤ total + descriptorCount rest) ↔ limit ≤ total + descriptorCount rest := by
  cases rest with
  | nil => simp
  | cons next rest =>
    simp only [ne_eq, reduceCtorEq, not_false_eq_true, true_and, or_iff_right_iff_imp]
    exact fun hmet => Nat.le_trans hmet (Nat.le_add_right _ _)

theorem inventoryCharacteristics_spec {info : GattServiceInfo} {l kept : List GattCharacteristicInfo}
    (h : Answers (env.gatt.getAllChar info.startHandle info.endHandle) l (·.elem))
    (hdescriptors : ∀ c ∈ l, Answers (env.gatt.getAllDescr c.handle) c.descriptors (·.elem))
    (fuel offset : Nat) (st : InventoryState) (hfuel : maxCharacteristics ≤ st.characteristicTotal + fuel)
    (hkept : kept = keepCharacteristics st.descriptorTotal (upTo maxCharacteristics st.characteristicTotal
      ((l.drop offset).map (recordCharacteristic info.serviceInstance)))) :
    Lists (characteristicEntry env.platform) st (inventoryCharacteristics env info fuel offset st) kept
      { st.totals with characteristics := st.characteristicTotal + kept.length
                       descriptors := st.descriptorTotal + descriptorCount kept }
      (kept ≠ [] ∧ maxDescriptors ≤ st.descriptorTotal + descriptorCount kept) := by
  induction fuel generalizing offset st kept with
  | zero =>
    rw [upTo_full (by omega)] at hkept
    exact no_characteristics st hkept
  | succ fuel ih =>
    unfold inventoryCharacteristics
    split
    · rename_i hfull
      rw [upTo_full hfull] at hkept
      exact no_characteristics st hkept
    · rename_i hroom
      generalize hanswer : env.gatt.getAllChar info.startHandle info.endHandle offset = answer
      obtain ⟨status, count, elem⟩ := answer
      dsimp only
      rcases h.cases hanswer with ⟨hnil, hpast⟩ | ⟨characteristic, hcons, hmem, rfl, hcount, rfl⟩
      · rw [hnil, List.map_nil, upTo_nil] at hkept
        rw [if_pos hpast]
        exact no_characteristics st hkept
      · rw [hcons, List.map_cons, upTo_cons (Nat.not_le.mp hroom), keepCharacteristics] at hkept
        subst hkept
        rw [if_neg (by decide), if_neg (by simp [hcount])]
        obtain ⟨hlist, hfirst⟩ := inventoryCharacteristic_spec (hdescriptors characteristic hmem) st
          (rfl : _ = keepCharacteristic st.descriptorTotal
            (recordCharacteristic info.serviceInstance characteristic))
        generalize inventoryCharacteristic env info characteristic.elem st = first at hlist hfirst ⊢
        have hchars : first.1.characteristicTotal = st.characteristicTotal + 1 :=
          congrArg Totals.characteristics hfirst.totals
        have hdescrs := congrArg Totals.descriptors hfirst.totals
        dsimp only [InventoryState.totals] at hdescrs
        have hrest := ih (offset + 1) first.1 (by omega) rfl
        rw [hchars, hdescrs] at hrest
        rw [hlist]
        refine (Lists.cons hfirst hrest).congr ?_ ?_
        · rw [hfirst.totals, List.length_cons, descriptorCount_cons, Totals.mk.injEq]
          exact ⟨rfl, by omega, by omega⟩
        · rw [met_by_all, descriptorCount_cons, ← Nat.add_assoc]
          exact (and_iff_right (List.cons_ne_nil _ _)).symm

theorem fetchIncludes_spec {info : GattServiceInfo} {l : List GattIncludedServiceInfo}
    (h : ∀ count ≤ l.length, env.gatt.getIncludeService info.startHandle info.endHandle count =
      (.ok, (l.take count).map (·.elem))) {count : Nat} (hcount : count ≤ l.length) :
    fetchIncludes env info count = (.ok, (l.take count).map (·.elem)) := by
  unfold fetchIncludes
  split
  · rename_i hzero
    rw [hzero, List.take_zero, List.map_nil]
  · exact h count hcount

theorem map_includedServiceInfo_elem (l : List GattIncludedServiceInfo) :
    (l.map (·.elem)).map includedServiceInfo = l := by
  rw [List.map_map]
  exact List.map_id' l

theorem storeIncludes_spec (l : List GattIncludedServiceInfo) {st st' : InventoryState} {t : Totals}
    {marks : Prop} (h : Stores st st' t [] "" marks) :
    Lists (includeEntry env.platform) st (storeIncludes env (l.map (·.elem)) st') l
      { t with includes := t.includes + l.length } marks := by
  unfold storeIncludes
  rw [map_includedServiceInfo_elem]
  refine ⟨rfl, ?_, h.services, ?_, h.degraded⟩
  · rw [← h.totals]
    rfl
  · exact congrArg (· ++ _) (h.text.trans String.append_empty)

theorem inventoryIncludes_spec {info : GattServiceInfo} {l : List GattIncludedServiceInfo} {st : InventoryState}
    (hcount : env.gatt.includedServiceCount info.startHandle info.endHandle = (.ok, l.length))
    (hget : ∀ count ≤ l.length, env.gatt.getIncludeService info.startHandle info.endHandle count =
      (.ok, (l.take count).map (·.elem))) (hroom : st.includedServiceTotal ≤ maxIncludedServices) :
    let kept := upTo maxIncludedServices st.includedServiceTotal l
    Lists (includeEntry env.platform) st (inventoryIncludes env info st) kept
      { st.totals with includes := st.includedServiceTotal + kept.length }
      (maxIncludedServices < st.includedServiceTotal + l.length) := by
  intro kept
  unfold inventoryIncludes
  rw [hcount]
  dsimp only
  by_cases hnone : l.length = 0
  · obtain rfl := List.length_eq_zero_iff.mp hnone
    rw [if_pos (.inr rfl)]
    have hkept : kept = [] := upTo_nil
    rw [hkept]
    exact (Lists.nil st).congr rfl (iff_of_false id (Nat.not_lt.mpr hroom))
  · rw [if_neg (by simpa using hnone), fetchIncludes_spec hget (Nat.min_le_left _ _), if_pos rfl]
    have htake : (List.map (·.elem) (l.take (min l.length (maxIncludedServices - st.includedServiceTotal)))).take
        (min l.length (maxIncludedServices - st.includedServiceTotal)) = kept.map GattIncludedServiceInfo.elem := by
      rw [← List.map_take, List.take_take, Nat.min_self, Nat.min_comm, ← List.take_take, List.take_length]
      rfl
    rw [htake]
    have hlimit := (Stores.nothing st).markIf (l.length > maxIncludedServices - st.includedServiceTotal)
      "included service inventory limit exceeded"
    refine (storeIncludes_spec kept hlimit).congr rfl ?_
    rw [false_or]
    omega

theorem inventoryContents_spec {info service : GattServiceInfo} {st : InventoryState}
    {l : List GattIncludedServiceInfo} {characteristics : List GattCharacteristicInfo} (hst : st.totals.Fits)
    (hservice : service = { info with
      includedServices := l
      characteristics := characteristics.map (recordCharacteristic info.serviceInstance) })
    (hcount : env.gatt.includedServiceCount info.startHandle info.endHandle = (.ok, l.length))
    (hget : ∀ count ≤ l.length, env.gatt.getIncludeService info.startHandle info.endHandle count =
      (.ok, (l.take count).map (·.elem)))
    (h : Answers (env.gatt.getAllChar info.startHandle info.endHandle) characteristics (·.elem))
    (hdescriptors : ∀ c ∈ characteristics, Answers (env.gatt.getAllDescr c.handle) c.descriptors (·.elem)) :
    (inventoryContents env info st).2 = keepService st.totals service ∧
      Stores st (inventoryContents env info st).1 (st.totals.add (keepService st.totals service)) []
        (String.join ((keepService st.totals service).includedServices.map (includeEntry env.platform)) ++
          String.join ((keepService st.totals service).characteristics.map (characteristicEntry env.platform)))
        (Marks st.totals service) := by
  subst hservice
  have hincludes := inventoryIncludes_spec hcount hget hst.includes
  unfold inventoryContents
  dsimp only at hincludes ⊢
  generalize inventoryIncludes env info st = includes at hincludes ⊢
  have hchars := congrArg Totals.characteristics hincludes.stores.totals
  have hdescrs := congrArg Totals.descriptors hincludes.stores.totals
  dsimp only [InventoryState.totals] at hchars hdescrs
  have hlist := inventoryCharacteristics_spec h hdescriptors maxCharacteristics 0 includes.1
    (Nat.le_add_left _ _) rfl
  generalize inventoryCharacteristics env info maxCharacteristics 0 includes.1 = result at hlist ⊢
  rw [hchars, hdescrs, List.drop_zero] at hlist
  have htotal := congrArg Totals.characteristics hlist.stores.totals
  dsimp only [InventoryState.totals] at htotal
  constructor
  · rw [hincludes.list, hlist.list]
    rfl
  · refine ((hincludes.stores.trans hlist.stores).markIf _ _).congr ?_ ?_
    · rw [hincludes.stores.totals]
      rfl
    · rw [or_assoc, ge_iff_le, htotal]
      exact Iff.rfl

theorem inventoryService_spec {db : List GattServiceInfo} (h : Faithful env.gatt db) {service : GattServiceInfo}
    (hmem : service ∈ db) (offset : Nat) {st : InventoryState} (hst : st.totals.Fits) :
    let kept := keepService st.totals (recordService offset service)
    Stores st (inventoryService env offset service.elem st) (st.totals.add kept) [kept]
      (serviceEntry env.platform kept) (Marks st.totals (recordService offset service)) := by
  intro kept
  have hhead := Stores.update (serviceHead env.platform service) st
  have hrecord : recordService offset service = { serviceInfo offset service.elem with
      includedServices := service.includedServices
      characteristics := service.characteristics.map (recordCharacteristic offset) } := rfl
  have hupdate : (st.update (serviceHead env.platform service)).totals.Fits := hst
  obtain ⟨hservice, hcontents⟩ := inventoryContents_spec hupdate hrecord (h.includeCount service hmem)
    (h.includes service hmem) (h.characteristics service hmem) (h.descriptors service hmem)
  have hunfold : inventoryService env offset service.elem st =
      let contents := inventoryContents env (serviceInfo offset service.elem)
        (st.update (serviceHead env.platform service))
      { contents.1 with component := contents.1.component.addService contents.2 } := rfl
  rw [hunfold]
  generalize inventoryContents env (serviceInfo offset service.elem)
    (st.update (serviceHead env.platform service)) = contents at hservice hcontents ⊢
  have hall := hhead.trans hcontents
  refine ⟨hall.totals, ?_, hall.text, hall.degraded.trans (by rw [false_or]; rfl)⟩
  exact congrArg₂ (fun l a => l ++ [a]) (hall.services.trans (List.append_nil _)) hservice

theorem inventoryServices_spec {db kept : List GattServiceInfo} (h : Faithful env.gatt db) (fuel offset : Nat)
    {st : InventoryState} (hst : st.totals.Fits)
    (hkept : kept = keepServices st.totals (((records db).drop offset).take fuel)) :
    (inventoryServices env fuel offset st).2 = true ∧
      Stores st (inventoryServices env fuel offset st).1 (BleClientHid.totals st.totals kept) kept
        (String.join (kept.map (serviceEntry env.platform)))
        (AnyMarks st.totals (((records db).drop offset).take fuel)) := by
  induction fuel generalizing offset st kept with
  | zero =>
    rw [List.take_zero] at hkept ⊢
    subst hkept
    exact ⟨rfl, .nothing st⟩
  | succ fuel ih =>
    unfold inventoryServices
    generalize hanswer : env.gatt.getService offset = answer
    obtain ⟨status, count, elem⟩ := answer
    dsimp only
    rcases h.services.cases hanswer with ⟨hnil, hpast⟩ | ⟨service, hcons, hmem, rfl, hcount, rfl⟩
    · rw [records_drop_nil hnil, List.take_nil] at hkept ⊢
      subst hkept
      rw [if_pos hpast]
      exact ⟨rfl, .nothing st⟩
    · rw [records_drop_cons hcons, List.take_succ_cons] at hkept ⊢
      subst hkept
      rw [if_neg (by decide), if_neg (by simp [hcount])]
      have hservice := inventoryService_spec h hmem offset hst
      obtain ⟨hdone, hrest⟩ := ih (offset + 1) (hservice.totals ▸ hst.keepService _) rfl
      refine ⟨hdone, ?_⟩
      rw [hservice.totals] at hrest
      rw [keepServices, List.map_cons, String.join_cons]
      exact hservice.trans hrest

def startInventory (s : BLEClientHID) : InventoryState :=
  { component := { s with services := [], hidServices := [] } }

theorem limitServices_spec {db kept : List GattServiceInfo} (h : Faithful env.gatt db) (s : BLEClientHID)
    (hkept : kept = keepServices {} ((records db).take maxServices)) :
    (inventoryServices env maxServices 0 (startInventory s)).2 = true ∧
      Stores (startInventory s) (limitServices (inventoryServices env maxServices 0 (startInventory s)).1)
        (BleClientHid.totals {} kept) kept (String.join (kept.map (serviceEntry env.platform)))
        (AnyMarks {} ((records db).take maxServices) ∨ kept.length ≥ maxServices) := by
  have hfits : (startInventory s).totals.Fits := ⟨Nat.zero_le _, Nat.zero_le _, Nat.zero_le _⟩
  obtain ⟨hdone, hstores⟩ := inventoryServices_spec h maxServices 0 hfits hkept
  generalize inventoryServices env maxServices 0 (startInventory s) = result at hdone hstores ⊢
  have hservices : result.1.component.services = kept :=
    hstores.services.trans (List.nil_append _)
  unfold limitServices
  rw [hservices]
  exact ⟨hdone, hstores.markIf _ _⟩

theorem inventoryGattDatabase_of_done {s : BLEClientHID}
    (hdone : (inventoryServices env maxServices 0 (startInventory s)).2 = true) :
    (s.inventoryGattDatabase env).1 =
      { (limitServices (inventoryServices env maxServices 0 (startInventory s)).1).component with
        gattProfileHash := hashText env
          (limitServices (inventoryServices env maxServices 0 (startInventory s)).1).normalized } := by
  unfold startInventory at hdone
  unfold inventoryGattDatabase startInventory
  dsimp only
  rw [if_pos hdone]

/-- What the inventory stores of a faithful stack, and what it reports. -/
theorem inventoryGattDatabase_stores {db kept : List GattServiceInfo} (h : Faithful env.gatt db) (s : BLEClientHID)
    (hkept : kept = keepServices {} ((records db).take maxServices)) :
    (s.inventoryGattDatabase env).1.services = kept ∧
      ((s.inventoryGattDatabase env).1.degraded = true ↔
        s.degraded = true ∨ AnyMarks {} ((records db).take maxServices) ∨ kept.length ≥ maxServices) := by
  obtain ⟨hdone, hstores⟩ := limitServices_spec h s hkept
  rw [inventoryGattDatabase_of_done hdone]
  exact ⟨hstores.services.trans (List.nil_append _), hstores.degraded⟩

end

/-! ## The rounds -/

section

variable (env : Env)

theorem inventoryDescriptors_rounds (handle fuel more offset : Nat) (st : InventoryState)
    (hfuel : maxDescriptors ≤ st.descriptorTotal + fuel) :
    inventoryDescriptors env handle (fuel + more) offset st = inventoryDescriptors env handle fuel offset st := by
  induction fuel generalizing offset st with
  | zero =>
    cases more with
    | zero => rfl
    | succ more =>
      unfold inventoryDescriptors
      exact if_pos hfuel
  | succ fuel ih =>
    rw [Nat.add_right_comm]
    unfold inventoryDescriptors
    split
    · rfl
    · obtain ⟨status, count, elem⟩ := env.gatt.getAllDescr handle offset
      dsimp only
      split
      · rfl
      · split
        · rfl
        · rw [ih (offset + 1) _ (by dsimp only [InventoryState.update]; omega)]

theorem inventoryDescriptors_characteristicTotal (handle fuel offset : Nat) (st : InventoryState) :
    (inventoryDescriptors env handle fuel offset st).1.characteristicTotal = st.characteristicTotal := by
  fun_induction inventoryDescriptors env handle fuel offset st with
  | case1 | case2 | case3 | case4 => rfl
  | case5 fuel offset st _ status count elem _ _ _ descriptor _ _ _ hrest ih =>
    rw [hrest] at ih
    exact ih

theorem inventoryCharacteristic_characteristicTotal (info : GattServiceInfo) (elem : CharElem)
    (st : InventoryState) :
    (inventoryCharacteristic env info elem st).1.characteristicTotal = st.characteristicTotal + 1 := by
  have hdescriptors (text : String) := inventoryDescriptors_characteristicTotal env elem.handle maxDescriptors 0
    { st.update text with characteristicTotal := (st.update text).characteristicTotal + 1 }
  unfold inventoryCharacteristic
  dsimp only at hdescriptors ⊢
  split
  · exact hdescriptors _
  · exact hdescriptors _

theorem inventoryCharacteristics_rounds (info : GattServiceInfo) (fuel more offset : Nat) (st : InventoryState)
    (hfuel : maxCharacteristics ≤ st.characteristicTotal + fuel) :
    inventoryCharacteristics env info (fuel + more) offset st =
      inventoryCharacteristics env info fuel offset st := by
  induction fuel generalizing offset st with
  | zero =>
    cases more with
    | zero => rfl
    | succ more =>
      unfold inventoryCharacteristics
      exact if_pos hfuel
  | succ fuel ih =>
    rw [Nat.add_right_comm]
    unfold inventoryCharacteristics
    split
    · rfl
    · obtain ⟨status, count, elem⟩ := env.gatt.getAllChar info.startHandle info.endHandle offset
      dsimp only
      split
      · rfl
      · split
        · rfl
        · rw [ih (offset + 1) _ (by rw [inventoryCharacteristic_characteristicTotal]; omega)]

end

end BleClientHid

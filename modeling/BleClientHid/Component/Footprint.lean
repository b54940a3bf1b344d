import BleClientHid.Component.Agenda
import BleClientHid.Component.Gathering
import BleClientHid.Component.Pipeline

/-! # How much a connection can store

Whatever the stack answers, every table of the component stays within its limit.
-/

namespace BleClientHid

open Lib Setup BLEClientHID

/-! ## The inventory -/

namespace Totals

def grow (includes characteristics descriptors : Nat) (t : Totals) : Totals :=
  ⟨t.includes + includes, t.characteristics + characteristics, t.descriptors + descriptors⟩

theorem grow_grow (i c d i' c' d' : Nat) (t : Totals) :
    (t.grow i c d).grow i' c' d' = t.grow (i + i') (c + c') (d + d') := by
  simp only [grow, Nat.add_assoc]

end Totals

section

variable (env : Env)

theorem inventoryDescriptors_totals (handle fuel offset : Nat) (st : InventoryState) (h : st.totals.Fits) :
    let out := inventoryDescriptors env handle fuel offset st
    out.1.totals = st.totals.grow 0 0 out.2.length ∧ out.1.totals.Fits := by
  fun_induction inventoryDescriptors env handle fuel offset st with
  | case1 | case2 | case3 => exact ⟨rfl, h⟩
  | case4 => exact ⟨rfl, h⟩
  | case5 fuel offset st hroom status count elem _ _ _ descriptor updated final rest hrest ih =>
    obtain ⟨htotals, hfits⟩ := ih ⟨h.includes, h.characteristics, Nat.not_le.mp hroom⟩
    rw [hrest] at htotals hfits
    have hone : { updated with descriptorTotal := updated.descriptorTotal + 1 }.totals = st.totals.grow 0 0 1 := rfl
    refine ⟨htotals.trans ?_, hfits⟩
    rw [hone, Totals.grow_grow, List.length_cons, Nat.add_comm 1]

theorem inventoryCharacteristic_totals (service : GattServiceInfo) (elem : CharElem) (st : InventoryState)
    (h : st.totals.Fits) (hroom : st.characteristicTotal < maxCharacteristics) :
    let out := inventoryCharacteristic env service elem st
    out.1.totals = st.totals.grow 0 1 out.2.descriptors.length ∧ out.1.totals.Fits := by
  have hopened := inventoryDescriptors_totals env elem.handle maxDescriptors 0
    { st.update ("C:" ++ env.platform.uuidString elem.uuid ++ ":" ++ toString elem.properties ++ ";") with
      characteristicTotal := st.characteristicTotal + 1 } ⟨h.includes, hroom, h.descriptors⟩
  unfold inventoryCharacteristic
  dsimp only at hopened ⊢
  split <;> exact hopened

theorem inventoryCharacteristics_totals (service : GattServiceInfo) (fuel offset : Nat) (st : InventoryState)
    (h : st.totals.Fits) :
    let out := inventoryCharacteristics env service fuel offset st
    out.1.totals = st.totals.grow 0 out.2.length (descriptorCount out.2) ∧ out.1.totals.Fits := by
  fun_induction inventoryCharacteristics env service fuel offset st with
  | case1 | case2 | case3 => exact ⟨rfl, h⟩
  | case4 => exact ⟨rfl, h⟩
  | case5 fuel offset st hroom status count elem _ _ _ characteristic rest ih =>
    obtain ⟨hfirst, hfits⟩ := inventoryCharacteristic_totals env service elem st h (Nat.not_le.mp hroom)
    obtain ⟨htotals, hfits⟩ := ih hfits
    refine ⟨htotals.trans ?_, hfits⟩
    rw [show characteristic.1.totals = _ from hfirst, Totals.grow_grow, List.length_cons, descriptorCount_cons,
      Nat.add_comm 1]

theorem inventoryIncludes_totals (service : GattServiceInfo) (st : InventoryState) (h : st.totals.Fits) :
    let out := inventoryIncludes env service st
    out.1.totals = st.totals.grow out.2.length 0 0 ∧ out.1.totals.Fits := by
  have hlimit (n : Nat) : (st.limitIncludes n).totals = st.totals := by
    unfold InventoryState.limitIncludes
    split <;> rfl
  unfold inventoryIncludes
  dsimp only
  split
  · exact ⟨rfl, h⟩
  · split
    · rename_i hok
      generalize hcount : min _ (maxIncludedServices - st.includedServiceTotal) = count
      generalize (fetchIncludes env service count).2 = elems
      have hroom : (elems.take count).length ≤ maxIncludedServices - st.includedServiceTotal := by
        rw [List.length_take]
        omega
      have hstored (st' : InventoryState) (hst : st'.totals = st.totals) :
          (storeIncludes env (elems.take count) st').1.totals = st.totals.grow (elems.take count).length 0 0 := by
        rw [← hst]
        simp [storeIncludes, InventoryState.totals, InventoryState.update, Totals.grow]
      have hlength (st' : InventoryState) : (storeIncludes env (elems.take count) st').2.length =
          (elems.take count).length := by
        simp [storeIncludes]
      rw [hlength, hstored _ (hlimit _)]
      have hincludes : st.includedServiceTotal ≤ maxIncludedServices := h.includes
      refine ⟨rfl, ?_, h.characteristics, h.descriptors⟩
      change st.includedServiceTotal + _ ≤ _
      omega
    · have hmarked (st' : InventoryState) (reason : String) : (st'.markDegraded reason).totals = st'.totals := rfl
      rw [hmarked, hlimit]
      exact ⟨rfl, h⟩

theorem inventoryContents_totals (service : GattServiceInfo) (st : InventoryState) (h : st.totals.Fits) :
    let out := inventoryContents env service st
    out.1.totals = st.totals.add out.2 ∧ out.1.totals.Fits := by
  have hlimit (st : InventoryState) : st.limitCharacteristics.totals = st.totals := by
    unfold InventoryState.limitCharacteristics
    split <;> rfl
  obtain ⟨hincludes, hfits⟩ := inventoryIncludes_totals env service st h
  obtain ⟨hcharacteristics, hfits⟩ := inventoryCharacteristics_totals env service maxCharacteristics 0 _ hfits
  unfold inventoryContents
  dsimp only
  rw [hlimit, hcharacteristics, hincludes, Totals.grow_grow]
  refine ⟨?_, ?_⟩
  · simp [Totals.grow, Totals.add]
  · rw [hcharacteristics, hincludes, Totals.grow_grow] at hfits
    exact hfits

/-- The totals are those of the stored services, and fit. -/
structure Tallied (st : InventoryState) : Prop where
  totals : st.totals = BleClientHid.totals {} st.component.services
  fits : st.totals.Fits

theorem inventoryService_tallied (offset : Nat) (elem : ServiceElem) {st : InventoryState} (h : Tallied st) :
    Tallied (inventoryService env offset elem st) ∧
      (inventoryService env offset elem st).component.services.length = st.component.services.length + 1 := by
  unfold inventoryService
  dsimp only
  generalize hopened : st.update _ = opened
  have hsame : opened.totals = st.totals ∧ opened.component = st.component := by
    rw [← hopened]
    exact ⟨rfl, rfl⟩
  obtain ⟨hcontents, hfits⟩ :=
    inventoryContents_totals env (serviceInfo offset elem) opened (by rw [hsame.1]; exact h.fits)
  obtain ⟨reasons, hmarks⟩ := inventoryContents_marks env (serviceInfo offset elem) opened
  generalize inventoryContents env (serviceInfo offset elem) opened = out at hcontents hfits hmarks
  have hservices : (out.1.component.addService out.2).services = st.component.services ++ [out.2] := by
    rw [hmarks, hsame.2]
    rfl
  refine ⟨⟨?_, hfits⟩, by rw [hservices, List.length_append, List.length_singleton]⟩
  rw [hservices, totals, List.foldl_append]
  exact hcontents.trans (by rw [hsame.1, h.totals]; rfl)

theorem inventoryServices_tallied (fuel offset : Nat) {st : InventoryState} (h : Tallied st) :
    Tallied (inventoryServices env fuel offset st).1 ∧
      (inventoryServices env fuel offset st).1.component.services.length ≤ st.component.services.length + fuel := by
  induction fuel generalizing offset st with
  | zero => exact ⟨h, Nat.le_refl _⟩
  | succ fuel ih =>
    simp only [inventoryServices]
    split
    · exact ⟨h, Nat.le_add_right _ _⟩
    · split
      · exact ⟨h, Nat.le_add_right _ _⟩
      · obtain ⟨hservice, hlength⟩ := inventoryService_tallied env offset (env.gatt.getService offset).2.2 h
        obtain ⟨hrest, hbound⟩ := ih (offset + 1) hservice
        refine ⟨hrest, Nat.le_trans hbound ?_⟩
        rw [hlength, Nat.add_assoc, Nat.add_comm 1]

theorem inventoryGattDatabase_fits (s : BLEClientHID) :
    (s.inventoryGattDatabase env).1.services.length ≤ maxServices ∧
      (totals {} (s.inventoryGattDatabase env).1.services).Fits := by
  obtain ⟨htallied, hlength⟩ := inventoryServices_tallied env maxServices 0
    (show Tallied { component := { s with services := [], hidServices := [] } } from ⟨rfl, fits_empty⟩)
  have hlimit (st : InventoryState) : (limitServices st).component.services = st.component.services := by
    unfold limitServices
    split <;> rfl
  unfold inventoryGattDatabase
  generalize inventoryServices env maxServices 0 _ = out at htallied hlength
  have hfits := htallied.totals ▸ htallied.fits
  rw [List.length_nil, Nat.zero_add] at hlength
  dsimp only
  split
  · rw [hlimit]
    exact ⟨hlength, hfits⟩
  · exact ⟨hlength, hfits⟩

end

/-! ## The tables by handle -/

def characteristicHandles (services : List GattServiceInfo) : List Nat :=
  services.flatMap fun service => service.characteristics.map (·.handle)

theorem totals_characteristics (t : Totals) (services : List GattServiceInfo) :
    (totals t services).characteristics = t.characteristics + (characteristicHandles services).length := by
  induction services generalizing t with
  | nil => rfl
  | cons service rest ih =>
    rw [totals_cons, ih]
    simp [characteristicHandles, Totals.add, Nat.add_assoc]

theorem mem_characteristicHandles {services : List GattServiceInfo} {service : GattServiceInfo}
    (hservice : service ∈ services) {characteristic : GattCharacteristicInfo}
    (hmem : characteristic ∈ service.characteristics) : characteristic.handle ∈ characteristicHandles services :=
  List.mem_flatMap.mpr ⟨service, hservice, List.mem_map_of_mem hmem⟩

theorem mem_handles_of_wanted {mode : DiscoveryMode} {services : List GattServiceInfo} {operation : GattReadOperation}
    (h : operation ∈ wantedReads mode services) : operation.characteristicHandle ∈ characteristicHandles services := by
  obtain ⟨service, hservice, characteristic, hmem, -, hhandle, -⟩ := mem_wantedReads_cases h
  rw [hhandle]
  exact mem_characteristicHandles hservice hmem

/-- One source for each handle, and no others. -/
structure Confined (handles : List Nat) (sources : List (Nat × HIDReportSource)) : Prop where
  distinct : (sources.map (·.1)).Nodup
  known : ∀ handle ∈ sources.map (·.1), handle ∈ handles

namespace Confined

variable {handles : List Nat} {sources : List (Nat × HIDReportSource)}

theorem nil (handles : List Nat) : Confined handles [] := ⟨List.nodup_nil, by simp⟩

theorem length_le (h : Confined handles sources) : sources.length ≤ handles.length := by
  have hle := (List.subperm_of_subset h.distinct h.known).length_le
  rwa [List.length_map] at hle

theorem mem_updateSource (handle : Nat) (f : HIDReportSource → HIDReportSource) {other : Nat}
    (h : other ∈ (updateSource handle f sources).map (·.1)) : other = handle ∨ other ∈ sources.map (·.1) := by
  obtain ⟨entry, hentry, rfl⟩ := List.mem_map.mp h
  rcases mem_updateSource_key hentry with hold | rfl | ⟨source, -, rfl⟩
  · exact .inr (List.mem_map_of_mem hold)
  · exact .inl rfl
  · exact .inl rfl

theorem update (h : Confined handles sources) {handle : Nat} (hmem : handle ∈ handles)
    (f : HIDReportSource → HIDReportSource) : Confined handles (updateSource handle f sources) where
  known other hother := by
    rcases mem_updateSource handle f hother with rfl | hold
    · exact hmem
    · exact h.known other hold
  distinct := by
    have hdistinct := h.distinct
    clear h
    induction sources with
    | nil => simp [updateSource]
    | cons head rest ih =>
      rw [List.map_cons, List.nodup_cons] at hdistinct
      unfold updateSource
      split
      · rename_i hhead
        rw [List.map_cons, List.nodup_cons, ← hhead]
        exact hdistinct
      · rename_i hhead
        rw [List.map_cons, List.nodup_cons]
        refine ⟨fun hin => ?_, ih hdistinct.2⟩
        exact (mem_updateSource handle f hin).elim hhead hdistinct.1

end Confined

/-- The sources, and the handles claimed since, are those of characteristics. -/
structure Modest (handles : List Nat) (claimed : Finset Nat) (s : BLEClientHID) : Prop where
  sources : Confined handles s.handleReportSource
  claims : ∀ handle ∈ s.hidReportHandles, handle ∈ claimed ∨ handle ∈ handles

theorem profileCharacteristic_modest {handles : List Nat} {claimed : Finset Nat} (service : GattServiceInfo)
    (characteristic : GattCharacteristicInfo) (hmem : characteristic.handle ∈ handles) {s : BLEClientHID}
    (h : Modest handles claimed s) : Modest handles claimed (s.profileCharacteristic service characteristic) := by
  have hclaim (uuid : Nat) : Modest handles claimed (s.claimInput service characteristic.handle uuid) := by
    refine ⟨h.sources.update hmem _, fun handle hhandle => ?_⟩
    rcases Finset.mem_insert.mp hhandle with rfl | hold
    · exact .inr hmem
    · exact h.claims handle hold
  unfold profileCharacteristic
  split
  · rename_i uuid _
    dsimp only
    split <;> split
    · exact ⟨(hclaim uuid).sources, (hclaim uuid).claims⟩
    · exact ⟨h.sources, h.claims⟩
    · exact hclaim uuid
    · exact h
  · exact h

theorem buildHidProfiles_modest {s : BLEClientHID}
    (h : Confined (characteristicHandles s.services) s.handleReportSource) :
    Modest (characteristicHandles s.services) s.hidReportHandles s.buildHidProfiles := by
  have hchecked (serviceInstance : Nat) {t : BLEClientHID}
      (ht : Modest (characteristicHandles s.services) s.hidReportHandles t) :
      Modest (characteristicHandles s.services) s.hidReportHandles (t.checkReferences serviceInstance) := by
    unfold checkReferences
    split
    · exact ht
    · split
      · exact ht
      · exact ⟨ht.sources, ht.claims⟩
  have hstart : Modest (characteristicHandles s.services) s.hidReportHandles s := ⟨h, fun _ h => .inl h⟩
  unfold buildHidProfiles
  apply List.foldlRecOn (motive := Modest (characteristicHandles s.services) s.hidReportHandles) s.services _ hstart
  intro t ht service hservice
  unfold profileService
  split
  · exact ht
  · apply hchecked
    apply List.foldlRecOn (motive := Modest (characteristicHandles s.services) s.hidReportHandles)
      service.characteristics _ ht
    intro u hu characteristic hmem
    exact profileCharacteristic_modest service characteristic (mem_characteristicHandles hservice hmem) hu

/-! ## The setup -/

def searching (phase : SetupPhase) : Bool := beforeSearch phase || phase == .inventory

/-- What the setup stores stays within the limits. -/
structure Stocked (s : Setup) : Prop where
  services : s.services.length ≤ maxServices
  fits : (totals {} s.services).Fits
  reads : ∀ operation, operation ∈ s.readQueue ∨ s.activeRead = some operation →
    operation ∈ wantedReads s.discoveryMode s.services
  sources : Confined (characteristicHandles s.services) s.sources
  early : searching s.setupPhase = true → s.sources = []

section

variable {env : Env} {fails : Bool}

theorem Stocked.keep {s t : Setup} (h : Stocked s) (hmode : t.discoveryMode = s.discoveryMode)
    (hservices : t.services = s.services) (hsources : t.sources = s.sources)
    (hreads : ∀ operation, operation ∈ t.readQueue ∨ t.activeRead = some operation →
      operation ∈ s.readQueue ∨ s.activeRead = some operation)
    (hphase : searching t.setupPhase = true → searching s.setupPhase = true) : Stocked t where
  services := by rw [hservices]; exact h.services
  fits := by rw [hservices]; exact h.fits
  reads operation hop := by rw [hmode, hservices]; exact h.reads operation (hreads operation hop)
  sources := by rw [hservices, hsources]; exact h.sources
  early hsearching := hsources.trans (h.early (hphase hsearching))

variable {s t : BLEClientHID}

theorem finalPhase_late (s : BLEClientHID) : searching s.finalPhase = false := by
  rcases finalPhase_cases s with h | h <;> rw [h] <;> rfl

theorem finalizeSetup_stocked (env : Env) (h : Stocked s.setup) : Stocked (s.finalizeSetup env).setup := by
  rw [finalizeSetup_eq]
  exact h.keep rfl rfl rfl (fun _ h => h) (by simp [setup, finalPhase_late])

theorem inventory_stocked (env : Env) (hphase : s.setupPhase = .inventory) (hphased : Phased s.setup)
    (h : Stocked s.setup) : Stocked (s.inventoryGattDatabase env).1.setup := by
  obtain ⟨hlength, hfits⟩ := inventoryGattDatabase_fits env s
  obtain ⟨hidle, hqueue⟩ := hphased.reads (by simp [setup, hphase])
  have hnone : s.handleReportSource = [] := h.early (by simp [setup, hphase, searching])
  obtain ⟨t, services, hash, ⟨reasons, rfl⟩, -, heq⟩ := inventoryGattDatabase_spec env s
  generalize (s.inventoryGattDatabase env).1 = u at hlength hfits heq
  have hsources : u.setup.sources = [] := by
    rw [heq]
    exact hnone
  have hreads : u.setup.readQueue = [] ∧ u.setup.activeRead = none := by
    rw [heq]
    exact ⟨hqueue, hidle⟩
  refine ⟨hlength, hfits, fun operation hop => ?_, ?_, fun _ => hsources⟩
  · rw [hreads.1, hreads.2] at hop
    simp at hop
  · rw [hsources]
    exact .nil _

theorem planReads_stocked (env : Env) (hphase : s.setupPhase = .inventory) (hphased : Phased s.setup)
    (h : Stocked s.setup) : Stocked (s.planReads.transition env .reading).setup := by
  obtain ⟨hidle, -⟩ := hphased.reads (by simp [setup, hphase])
  have hqueue := planReads_queue s
  obtain ⟨t, queue, handles, ⟨reasons, rfl⟩, -, heq⟩ := planReads_spec s
  rw [heq] at hqueue ⊢
  refine ⟨h.services, h.fits, fun operation hop => ?_, h.sources, fun hsearching => ?_⟩
  · rcases hop with hqueued | hactive
    · change operation ∈ queue at hqueued
      rw [show queue = _ from hqueue] at hqueued
      exact mem_of_mem_firstReads (List.mem_of_mem_take hqueued)
    · exact absurd (hidle.symm.trans hactive) (by simp)
  · simp [setup, transition, searching, beforeSearch] at hsearching

theorem finishRead_stocked {operation : GattReadOperation} (status : GattStatus) (value : Buffer)
    (hactive : s.activeRead = some operation) (hphased : Phased s.setup) (h : Stocked s.setup) :
    Stocked (s.finishActiveRead env status value).setup := by
  have hphase := hphased.reading_of_active hactive
  have hhandle := mem_handles_of_wanted (h.reads operation (.inr hactive))
  obtain ⟨contexts, sources, d, entries, heffect, -, heq⟩ := finishActiveRead_reads env status value hactive
  have hconfined : Confined (characteristicHandles s.setup.services) sources := by
    cases heffect with
    | plain | protocolMode | reportMap => exact h.sources
    | reference f => exact h.sources.update hhandle f
  rw [heq]
  refine ⟨h.services, h.fits, fun operation hop => h.reads operation (hop.imp_right fun hnone => ?_), hconfined,
    fun hsearching => ?_⟩
  · simp [marked, setup] at hnone
  · simp [marked, setup, show s.setupPhase = .reading from hphase, searching, beforeSearch] at hsearching

theorem collectWrites_stocked (env : Env) (h : Stocked s.setup) :
    Stocked (s.buildHidProfiles.collectProtocolWrites env).setup := by
  have hmodest := buildHidProfiles_modest h.sources
  obtain ⟨d, contexts, sources, heq⟩ := s.buildHidProfiles_profiles
  have hsources : s.buildHidProfiles.handleReportSource = sources := congrArg Setup.sources heq
  have hsetup := collectProtocolWrites_setup env s.buildHidProfiles
  rw [heq] at hsetup
  rw [hsetup]
  refine ⟨h.services, h.fits, h.reads, hsources ▸ hmodest.sources, fun hsearching => ?_⟩
  simp [collectWrites, goto, searching, beforeSearch] at hsearching

theorem Act.stocked (hact : Act env fails s t) (hphased : Phased s.setup) (h : Stocked s.setup) :
    Stocked t.setup := by
  cases hact with
  | beside h' => rwa [h'.setup]
  | request | registrationIgnored | cccdIgnored | retry | writeCccd => exact h.keep rfl rfl rfl (fun _ h => h) id
  | inventory hphase => exact inventory_stocked env hphase hphased h
  | inventoryFailed => exact finalizeSetup_stocked env (h.keep rfl rfl rfl (fun _ h => h) id)
  | noHid | readsDone => exact h.keep rfl rfl rfl (fun _ h => h) (by simp [setup, transition, searching, beforeSearch])
  | planReads hphase => exact planReads_stocked env hphase hphased h
  | startRead operation rest hphase hfree hidle hqueue =>
    refine h.keep rfl rfl rfl (fun op hop => .inl ?_) id
    rw [show s.setup.readQueue = operation :: rest from hqueue, List.mem_cons]
    exact hop.symm.imp (fun h => (Option.some.inj h).symm) id
  | readNotScheduled operation rest hphase hfree hidle hqueue =>
    rw [operationFailed_eq]
    refine h.keep rfl rfl rfl (fun op hop => .inl ?_) id
    rw [show s.setup.readQueue = operation :: rest from hqueue]
    rcases hop with hrest | hnone
    · exact List.mem_cons_of_mem _ hrest
    · simp [setup] at hnone
  | finishRead operation status value hactive => exact finishRead_stocked status value hactive hphased h
  | buildProfiles => exact collectWrites_stocked env h
  | writeMode handle rest hphase hhandles =>
    rw [nextProtocolModeWrite_eq env hhandles]
    exact h.keep rfl rfl rfl (fun _ h => h) id
  | planSubscriptions =>
    obtain ⟨queue, battery, changed, u, ⟨reasons, rfl⟩, -, heq⟩ := planSubscriptions_spec s
    rw [heq]
    exact h.keep rfl rfl rfl (fun _ h => h) (by simp [setup, transition, searching, beforeSearch])
  | begin => exact h.keep rfl rfl rfl (fun _ h => h) id
  | beginWithoutCccd | notScheduled =>
    rw [giveUp_eq]
    exact h.keep rfl rfl rfl (fun _ h => h) id
  | registered => exact h.keep rfl rfl rfl (fun _ h => h) (by simp [setup, transition, searching, beforeSearch])
  | registrationFailed | writeRejected | cccdFailed =>
    rw [giveUp_eq]
    exact h.keep rfl rfl rfl (fun _ h => h) (by simp [setup, transition, searching, beforeSearch])
  | complete => exact h.keep rfl rfl rfl (fun _ h => h) (by simp [setup, transition, searching, beforeSearch])
  | finish => exact finalizeSetup_stocked env h

theorem Deadline.stocked (hdeadline : Deadline env s t) (h : Stocked s.setup) : Stocked t.setup := by
  have htimedOut : Stocked s.timedOut.setup := h.keep rfl rfl rfl (fun _ h => h) id
  cases hdeadline with
  | reading =>
    exact htimedOut.keep rfl rfl rfl (fun _ hop => by simp [setup, transition] at hop)
      (by simp [setup, transition, searching, beforeSearch])
  | subscribing => exact finalizeSetup_stocked env (htimedOut.keep rfl rfl rfl (fun _ h => h) id)
  | other => exact finalizeSetup_stocked env htimedOut

theorem search_stocked (env : Env) (status : GattStatus) (hbefore : beforeSearch s.setupPhase = true)
    (h : Stocked s.setup) : Stocked (s.handleSearchComplete env status).setup := by
  rw [handleSearchComplete]
  split
  · exact finalizeSetup_stocked env (h.keep rfl rfl rfl (fun _ h => h) id)
  · exact h.keep rfl rfl rfl (fun _ h => h) fun _ => by simp [searching, setup, hbefore]

theorem Stocked.nothing {s : Setup} (hservices : s.services = []) (hsources : s.sources = [])
    (hqueue : s.readQueue = []) (hidle : s.activeRead = none) : Stocked s where
  services := by simp [hservices]
  fits := by rw [hservices]; exact fits_empty
  reads operation hop := by simp [hqueue, hidle] at hop
  sources := by rw [hsources]; exact .nil _
  early _ := hsources

theorem reachable_stocked (h : Reachable s) : Stocked s.setup :=
  reachable_turns (fun s => Stocked s.setup) (fun _ _ _ => .nothing rfl rfl rfl rfl)
    (fun _ _ _ _ _ hphased hinv hact => hact.stocked hphased hinv)
    (fun _ _ _ _ _ hinv hdeadline => hdeadline.stocked hinv)
    (fun _ _ => ⟨.nothing rfl rfl rfl rfl, .nothing rfl rfl rfl rfl⟩)
    (fun _ env status _ _ hbefore hinv => search_stocked env status hbefore hinv) h

end

/-! ## The handles -/

def Claimed (s : BLEClientHID) : Prop := ∀ handle ∈ s.hidReportHandles, handle ∈ characteristicHandles s.services

section

variable {s t : BLEClientHID}

theorem Claimed.of_empty (h : s.hidReportHandles = ∅) : Claimed s := by simp [Claimed, h]

theorem Claimed.of_renewed (h : Claimed s) (hprofile : t.profile.renewed = s.profile.renewed) : Claimed t := by
  have hhandles : t.hidReportHandles = s.hidReportHandles := congrArg Profile.hidReportHandles hprofile
  have hservices : t.services = s.services := congrArg Profile.services hprofile
  unfold Claimed
  rw [hhandles, hservices]
  exact h

theorem loop_renewed (env : Env) (s : BLEClientHID) :
    (s.loop env).profile.renewed = (s.loopSetup env).profile.renewed := by
  have hprofile : (s.loop env).profile = ((s.loopSetup env).pipeline.acceptAll (s.intakes (.loop env))).profile :=
    congrArg Pipeline.profile (loop_pipeline env s)
  rw [hprofile, Pipeline.acceptAll_renewed]
  rfl

theorem loopSetup_claimed (env : Env) (h : s.hidReportHandles = ∅)
    (hsources : Confined (characteristicHandles s.services) s.handleReportSource) : Claimed (s.loopSetup env) := by
  have hasked : s.requestPendingRediscovery.profile = s.profile := requestPendingRediscovery_profile s
  have hphase := requestPendingRediscovery_phase s
  have htimeout := profile_of_fixture (handlePhaseTimeout_fixture env (s.requestPendingRediscovery.runPhase env))
  have hhandles : s.requestPendingRediscovery.hidReportHandles = ∅ :=
    (congrArg Profile.hidReportHandles hasked).trans h
  have hkept : s.requestPendingRediscovery.handleReportSource = s.handleReportSource := by
    unfold requestPendingRediscovery
    split <;> rfl
  have hservices : s.requestPendingRediscovery.services = s.services := congrArg Profile.services hasked
  refine Claimed.of_renewed ?_ (congrArg Profile.renewed htimeout)
  by_cases hbuilding : s.setupPhase = .buildingProfile
  · obtain ⟨hprofile, -⟩ := runPhase_building env (hphase.trans hbuilding)
    have hmodest := @buildHidProfiles_modest s.requestPendingRediscovery (by rwa [hservices, hkept])
    obtain ⟨d, contexts, sources, heq⟩ := s.requestPendingRediscovery.buildHidProfiles_profiles
    have hsame : s.requestPendingRediscovery.buildHidProfiles.services = s.requestPendingRediscovery.services :=
      congrArg Setup.services heq
    have hbuilt : Claimed s.requestPendingRediscovery.buildHidProfiles := by
      intro handle hhandle
      rw [hsame]
      rcases hmodest.claims handle hhandle with hold | hnew
      · simp [hhandles] at hold
      · exact hnew
    exact hbuilt.of_renewed (congrArg Profile.renewed hprofile)
  · obtain ⟨-, hclaimed⟩ := runPhase_renews env (hphase.trans_ne hbuilding)
    exact .of_empty (hclaimed.trans hhandles)

/-- Handles are claimed once, by the profiles of the services they belong to. -/
theorem fed_claimed {interval : UInt32} {intakes : List Intake} (hfed : Fed interval s intakes)
    (hreached : Reachable s) {event : Event} (hone : (step s event).OneSearch)
    (hcapacity : s.window.sampledEvents.capacity = 16) (h : Claimed s) : Claimed (step s event) := by
  have hnext := hfed.step hreached hcapacity hone
  cases hlater : planning (step s event).setupPhase with
  -- a connection still planning has claimed nothing
  | true => exact .of_empty (hnext.unfed hlater).2
  | false =>
    -- a reset goes back before the profiles, so this step is none
    have hreset : event.resetsConnection = false := by
      by_contra hreset
      rw [Bool.not_eq_false] at hreset
      have hstep := step_setup s (reachable_phased hreached).1 event
      rw [hreset] at hstep
      have hphase : (step s event).setupPhase = (BLEClientHID.setup (step s event)).setupPhase := rfl
      rw [hphase] at hlater
      generalize BLEClientHID.setup (step s event) = u at hstep hlater
      cases hstep with
      | reset phase entries hphase => rcases hphase with rfl | rfl <;> cases hlater
    cases hearlier : planning s.setupPhase with
    | false =>
      -- from here on only reports and windows reach the profile, and neither claims
      refine h.of_renewed ?_
      have hprofile : (step s event).profile = (s.pipeline.acceptAll (s.intakes event)).profile :=
        congrArg Pipeline.profile (late_pipeline hreached hearlier hreset)
      rw [hprofile, Pipeline.acceptAll_renewed]
      rfl
    | true =>
      obtain ⟨-, hnone⟩ := hfed.unfed hearlier
      cases event with
      | loop env =>
        -- the profiles are built in this very step
        exact (loopSetup_claimed env hnone (reachable_stocked hreached).sources).of_renewed (loop_renewed env s)
      | gattc env event gattcIf =>
        cases haccepted : accepted env gattcIf with
        | false => rwa [step_refused haccepted]
        | true =>
          rw [resetsConnection_eq, haccepted, Bool.true_and] at hreset
          rw [step_accepted haccepted]
          exact .of_empty ((handleGattcEvent_renews env hreset).2.trans hnone)

end

/-! ## The law -/

/-- Every table is within its limit. -/
structure Contained (s : BLEClientHID) : Prop where
  services : s.services.length ≤ maxServices
  contents : (totals {} s.services).Fits
  contexts : s.hidServices.length ≤ maxServices
  maps : ∀ context ∈ s.hidServices, ∀ m, context.reportMap = some m → m.reports.length ≤ HIDReportMap.maxReports ∧
    m.fields.length ≤ HIDReportMap.maxFields ∧ m.collections.length ≤ HIDReportMap.maxCollections
  reads : s.readQueue.length ≤ maxReadOperations
  writes : s.protocolWriteHandles.length ≤ maxServices
  subscriptions : s.subscriptionQueue.length ≤ maxSubscriptions
  sources : s.handleReportSource.length ≤ maxCharacteristics
  claims : s.hidReportHandles.card ≤ maxCharacteristics
  reports : s.pendingReports.length ≤ maxPendingReports
  reportBytes : s.pendingReportBytes ≤ maxPendingReportBytes
  events : s.window.sampledEvents.pending.length ≤ 16

section

variable {s : BLEClientHID}

theorem characteristicHandles_le (h : Stocked s.setup) :
    (characteristicHandles s.services).length ≤ maxCharacteristics := by
  have hfits : (totals {} s.services).characteristics ≤ maxCharacteristics := h.fits.characteristics
  rw [totals_characteristics] at hfits
  exact (Nat.le_add_left _ _).trans hfits

theorem contexts_le (h : Reachable s) : s.hidServices.length ≤ s.services.length := by
  obtain ⟨-, hcatalog, -⟩ := reachable_mapsRead h
  have hlength := congrArg List.length hcatalog.contexts
  simp only [List.length_map, setup] at hlength
  rw [hlength]
  exact List.length_filter_le _ _

theorem plans_le (s : BLEClientHID) : s.setup.plannedReads.length ≤ maxReadOperations ∧
    s.setup.plannedWrites.length ≤ s.hidServices.length ∧ s.setup.plannedSubscriptions.length ≤ maxSubscriptions := by
  refine ⟨?_, ?_, ?_⟩
  · unfold plannedReads
    split
    · exact List.length_take_le _ _
    · exact Nat.zero_le _
  · unfold plannedWrites protocolHandles
    split
    · split
      · exact Nat.zero_le _
      · refine (List.length_filter_le _ _).trans ?_
        simp [setup]
    · exact Nat.zero_le _
  · unfold plannedSubscriptions
    split
    · exact List.length_take_le _ _
    · exact Nat.zero_le _

theorem claims_le (hstocked : Stocked s.setup) (h : Claimed s) : s.hidReportHandles.card ≤ maxCharacteristics := by
  have hsubset : s.hidReportHandles ⊆ (characteristicHandles s.services).toFinset := by
    intro handle hhandle
    exact List.mem_toFinset.mpr (h handle hhandle)
  exact ((Finset.card_le_card hsubset).trans (List.toFinset_card_le _)).trans (characteristicHandles_le hstocked)

/-- Parsing keeps the limits of a map, and reports do not change it. -/
theorem Fed.maps {interval : UInt32} {intakes : List Intake} (h : Fed interval s intakes)
    {context : HIDServiceContext} (hmem : context ∈ s.hidServices) {m : HIDReportMap}
    (hm : context.reportMap = some m) : m.reports.length ≤ HIDReportMap.maxReports ∧
      m.fields.length ≤ HIDReportMap.maxFields ∧ m.collections.length ≤ HIDReportMap.maxCollections := by
  have hfixed : context.fixed ∈ s.profile.renewed.hidServices := List.mem_map_of_mem hmem
  have hmap : context.fixed.reportMap = some m.resetRuntimeState := by
    rw [HIDServiceContext.fixed, hm]
    rfl
  obtain ⟨hinv, -⟩ := h.fresh.maps context.fixed hfixed m.resetRuntimeState hmap
  exact ⟨hinv.reportsLe, hinv.fieldsLe, hinv.collectionsLe⟩

end

theorem run_claimed (discoveryMode : DiscoveryMode) (policy : ProtocolModePolicy) (interval : UInt32)
    (events : List Event)
    (hsearch : ∀ n < events.length, (run (initial discoveryMode policy interval) (events.take (n + 1))).OneSearch) :
    Claimed (run (initial discoveryMode policy interval) events) := by
  refine run_induction (motive := fun events => Claimed (run (initial discoveryMode policy interval) events))
    (.initial discoveryMode policy interval) (.of_empty rfl) (fun events event hprefix hreached hone hclaimed => ?_) events hsearch
  rw [run_append_singleton]
  exact fed_claimed (run_fed discoveryMode policy interval events hprefix) hreached hone
    (run_bufferInv discoveryMode policy interval events).capacity hclaimed

/-- Whatever the stack answers and in whatever order it calls, over any number of connections, no table of the
component outgrows its limit. -/
theorem run_contained (discoveryMode : DiscoveryMode) (policy : ProtocolModePolicy) (interval : UInt32)
    (events : List Event)
    (hsearch : ∀ n < events.length, (run (initial discoveryMode policy interval) (events.take (n + 1))).OneSearch) :
    Contained (run (initial discoveryMode policy interval) events) := by
  have hreached := reachable_run (.initial discoveryMode policy interval) events hsearch
  have hstocked := reachable_stocked hreached
  have hfed := run_fed discoveryMode policy interval events hsearch
  have hclaimed := run_claimed discoveryMode policy interval events hsearch
  have hbuffer := run_bufferInv discoveryMode policy interval events
  have hqueued := (accounted_run discoveryMode policy interval events).queued
  obtain ⟨hreads, hwrites, hsubscriptions⟩ := plans_le (run _ events)
  obtain ⟨-, reads, writes, subscriptions, hagenda⟩ := reachable_agenda hreached
  have hcontexts := (contexts_le hreached).trans hstocked.services
  exact {
    services := hstocked.services
    contents := hstocked.fits
    contexts := hcontexts
    maps := fun context hmem m hm => hfed.maps hmem hm
    reads := hagenda.reads.length_le.trans hreads
    writes := hagenda.writes.length_le.trans (hwrites.trans hcontexts)
    subscriptions := hagenda.subscriptions.length_le.trans hsubscriptions
    sources := hstocked.sources.length_le.trans (characteristicHandles_le hstocked)
    claims := claims_le hstocked hclaimed
    reports := hqueued.length
    reportBytes := hqueued.weight
    events := hbuffer.length.trans hbuffer.capacity.le }

theorem run_contained_keyboard : Contained (run (initial .standard .unchanged 0) secondConnection) :=
  run_contained .standard .unchanged 0 secondConnection (by decide +kernel)

end BleClientHid

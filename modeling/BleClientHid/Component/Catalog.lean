import BleClientHid.Component.Phases
import BleClientHid.Component.Profiles

/-! # What the inventory fixes

The services have distinct instances, each HID service has a context, and only
planned reads are under way.
-/

namespace BleClientHid

open Setup

variable {fails : Bool}

/-! ## Planned reads -/

theorem mem_of_mem_firstReads {operation : GattReadOperation} {l : List GattReadOperation}
    (h : operation ∈ firstReads l) : operation ∈ l := by
  induction l with
  | nil => exact h
  | cons head rest ih =>
    rcases List.mem_cons.mp h with rfl | hrest
    · exact List.mem_cons_self
    · exact List.mem_cons_of_mem _ (ih (List.mem_filter.mp hrest).1)

namespace BLEClientHID

theorem standardPurpose_reportMap {serviceUuid : ESPBTUUID} {uuid : Nat} {required : Bool}
    (h : standardPurpose serviceUuid uuid = some (.hidReportMap, required)) :
    uuid16 serviceUuid uuidHidService = true ∧ required = true := by
  unfold standardPurpose at h
  grind

theorem standardPurpose_protocolMode {serviceUuid : ESPBTUUID} {uuid : Nat} {required : Bool}
    (h : standardPurpose serviceUuid uuid = some (.hidProtocolMode, required)) :
    uuid16 serviceUuid uuidHidService = true ∧ uuid = uuidHidProtocolMode := by
  unfold standardPurpose at h
  grind

theorem uuid16_of_short {uuid : ESPBTUUID} {value : Nat} (h : uuid.short = value) (hvalue : value ≠ 0) :
    uuid16 uuid value = true := by
  cases uuid with
  | uuid16 value' =>
    have hsame : value' = value := h
    simp [uuid16, hsame]
  | uuid32 | uuid128 => exact absurd h.symm hvalue

/-- A planned read of a standard purpose is that of a characteristic. -/
theorem mem_wantedReads {mode : DiscoveryMode} {services : List GattServiceInfo} {operation : GattReadOperation}
    (h : operation ∈ wantedReads mode services)
    (hpurpose : operation.purpose = .hidReportMap ∨ operation.purpose = .hidProtocolMode) :
    ∃ service ∈ services, ∃ characteristic ∈ service.characteristics,
      operation.serviceInstance = service.serviceInstance ∧ operation.characteristicHandle = characteristic.handle ∧
        standardPurpose service.uuid characteristic.uuid.short = some (operation.purpose, operation.required) := by
  obtain ⟨service, hservice, h⟩ := List.mem_flatMap.mp h
  obtain ⟨characteristic, hcharacteristic, h⟩ := List.mem_flatMap.mp h
  refine ⟨service, hservice, characteristic, hcharacteristic, ?_⟩
  rcases List.mem_append.mp h with hread | hdescriptor
  · unfold characteristicRead at hread
    split at hread
    · simp at hread
    · split at hread
      · rename_i purpose required hstandard
        obtain rfl := List.mem_singleton.mp hread
        exact ⟨rfl, rfl, hstandard⟩
      · split at hread
        · obtain rfl := List.mem_singleton.mp hread
          simp at hpurpose
        · simp at hread
  · obtain ⟨descriptor, -, hread⟩ := List.mem_flatMap.mp hdescriptor
    unfold descriptorRead at hread
    split at hread
    · rename_i purpose hstandard
      obtain rfl := List.mem_singleton.mp hread
      unfold standardDescriptorPurpose at hstandard
      grind
    · split at hread
      · obtain rfl := List.mem_singleton.mp hread
        simp at hpurpose
      · simp at hread

end BLEClientHID

/-! ## The invariant -/

def built (phase : SetupPhase) : Bool := phase == .writingProtocolMode || subscribing phase || phase == .ready

theorem built_of_subscribing {phase : SetupPhase} (h : subscribing phase = true) : built phase = true := by
  simp [built, h]

def hidServicesOf (services : List GattServiceInfo) : List GattServiceInfo :=
  services.filter fun service => uuid16 service.uuid uuidHidService

structure Catalog (s : Setup) : Prop where
  instances : s.services.map (·.serviceInstance) = List.range s.services.length
  contexts : s.contexts.map (·.serviceInstance) = (hidServicesOf s.services).map (·.serviceInstance)
  planned : s.degraded = false → ∀ operation, operation ∈ s.readQueue ∨ s.activeRead = some operation →
    operation ∈ firstReads (BLEClientHID.wantedReads s.discoveryMode s.services)

namespace Catalog

variable {s t : Setup}

theorem keep (h : Catalog s) (hmode : t.discoveryMode = s.discoveryMode) (hservices : t.services = s.services)
    (hcontexts : t.contexts.map (·.serviceInstance) = s.contexts.map (·.serviceInstance))
    (hdegraded : t.degraded = false → s.degraded = false)
    (hreads : ∀ operation, operation ∈ t.readQueue ∨ t.activeRead = some operation →
      operation ∈ s.readQueue ∨ s.activeRead = some operation) : Catalog t where
  instances := by
    rw [hservices]
    exact h.instances
  contexts := by
    rw [hcontexts, hservices]
    exact h.contexts
  planned hd operation hoperation := by
    rw [hmode, hservices]
    exact h.planned (hdegraded hd) operation (hreads operation hoperation)

theorem distinct (h : Catalog s) : (s.services.map (·.serviceInstance)).Nodup := by
  rw [h.instances]
  exact List.nodup_range

theorem contexts_distinct (h : Catalog s) : (s.contexts.map (·.serviceInstance)).Nodup := by
  rw [h.contexts]
  exact h.distinct.sublist (List.filter_sublist.map _)

theorem context (h : Catalog s) {service : GattServiceInfo} (hmem : service ∈ s.services)
    (hhid : uuid16 service.uuid uuidHidService = true) :
    ∃ context, findHidContext s.contexts service.serviceInstance = some context := by
  rw [← Option.isSome_iff_exists, findHidContext_isSome, h.contexts]
  exact List.mem_map_of_mem (List.mem_filter.mpr ⟨hmem, hhid⟩)

end Catalog

theorem Setup.ReadEffect.instances {operation : GattReadOperation} {s : Setup} {contexts : List HIDServiceContext}
    {sources : List (Nat × HIDReportSource)} {d : Bool} (h : ReadEffect operation s contexts sources d) :
    contexts.map (·.serviceInstance) = s.contexts.map (·.serviceInstance) := by
  cases h with
  | plain | reference => rfl
  | protocolMode | reportMap => exact updateContext_instances (by intro context; rfl) _ _

theorem setup_instances (s : BLEClientHID) :
    s.setup.contexts.map (·.serviceInstance) = s.hidServices.map (·.serviceInstance) := by
  simp [BLEClientHID.setup, Function.comp_def]

theorem Setup.Move.catalog {s t : Setup} (hphased : Phased s) (h : Catalog s) (hmove : Move fails s t) :
    Catalog t := by
  have hor {d : Bool} (hd : (s.degraded || d) = false) : s.degraded = false := (Bool.or_eq_false_iff.mp hd).1
  cases hmove with
  | inventory services hphase hinstances =>
    refine ⟨hinstances, ?_, fun _ operation hoperation => ?_⟩
    · simp [contextsOf, hidServicesOf, Function.comp_def]
    · obtain ⟨hidle, hqueue⟩ := hphased.reads (by simp [hphase])
      simp [hidle, hqueue] at hoperation
  | planReads queue hphase hall =>
    refine ⟨h.instances, h.contexts, fun hd operation hoperation => ?_⟩
    have hidle := (hphased.reads (by simp [hphase])).1
    simp only [goto, hidle, reduceCtorEq, or_false] at hoperation
    rwa [hall hd] at hoperation
  | startRead operation rest accepted entries hphase hidle hqueue =>
    -- the read that starts leaves the queue for the active slot, so no new operation appears
    refine h.keep rfl rfl rfl hor fun op hop => ?_
    rw [hqueue]
    rcases hop with hrest | hactive
    · exact .inl (List.mem_cons_of_mem _ hrest)
    · cases accepted with
      | true => exact .inl (by simp_all [marked])
      | false => simp [marked] at hactive
  | finishRead operation contexts sources d entries hactive heffect =>
    exact h.keep rfl rfl heffect.instances hor fun op hop => .inl (by simpa [marked] using hop)
  | buildProfiles s hphase =>
    -- building the profiles rewrites what the contexts hold, not which services they are of
    have hinstances := (BLEClientHID.foldl_profileService_same s.services s).1
    have hcontexts : s.buildHidProfiles.setup.contexts.map (·.serviceInstance) =
        s.setup.contexts.map (·.serviceInstance) := by
      rw [setup_instances, setup_instances]
      exact hinstances
    obtain ⟨hmode, -, hservices, hqueue, hactive, -⟩ := s.buildHidProfiles_same
    refine h.keep hmode hservices hcontexts (BLEClientHID.degraded_of_profiles s.buildHidProfiles_profiles)
      fun operation hoperation => ?_
    rwa [← show s.buildHidProfiles.setup.collectWrites.readQueue = s.setup.readQueue from hqueue,
      ← show s.buildHidProfiles.setup.collectWrites.activeRead = s.setup.activeRead from hactive]
  | readTimeout => exact h.keep rfl rfl rfl hor (by simp [goto, marked])
  | mark | writeMode | beginWithoutCccd | notScheduled | registrationFailed | writeRejected | cccdFailed
  | subscriptionTimeout | timeout => exact h.keep rfl rfl rfl hor fun _ hop => hop
  -- every other move leaves the plan alone
  | _ => exact h.keep rfl rfl rfl id fun _ hop => hop

theorem Catalog.searched {s : Setup} (h : Catalog s) (status : GattStatus) (entries : List TraceEntry) :
    Catalog (s.searched status entries) := by
  unfold Setup.searched
  split
  · exact h.keep rfl rfl rfl id fun _ hop => hop
  · exact h.keep rfl rfl rfl (fun hd => (Bool.or_eq_false_iff.mp hd).1) fun _ hop => hop

theorem catalog_fresh {s : Setup} (hservices : s.services = []) (hcontexts : s.contexts = [])
    (hqueue : s.readQueue = []) (hidle : s.activeRead = none) : Catalog s :=
  ⟨by simp [hservices], by simp [hservices, hcontexts, hidServicesOf], by simp [hqueue, hidle]⟩

theorem catalog_invariant (inv : Setup → Prop) (hinit : ∀ discoveryMode policy, inv (.initial discoveryMode policy))
    (hmove : ∀ fails s t, Phased s → Catalog s → inv s → Move fails s t → inv t)
    (hreset : ∀ (s : Setup) phase entries, Notes entries → beforeSearch phase = true → inv (s.reset phase entries))
    (hsearch : ∀ s status entries, Notes entries → Phased s → beforeSearch s.setupPhase = true → inv s →
      inv (s.searched status entries)) {s : BLEClientHID} (h : Reachable s) :
    Phased s.setup ∧ Catalog s.setup ∧ inv s.setup := by
  refine (reachable_invariant (fun s => Catalog s ∧ inv s) ?_ ?_ ?_ ?_ h).2
  · intro discoveryMode policy
    exact ⟨catalog_fresh rfl rfl rfl rfl, hinit discoveryMode policy⟩
  · intro fails s t _ hphased ⟨hcatalog, hinv⟩ hstep
    exact ⟨hstep.catalog hphased hcatalog, hmove fails s t hphased hcatalog hinv hstep⟩
  · intro s phase entries hnotes hphase
    exact ⟨catalog_fresh rfl rfl rfl rfl, hreset s phase entries hnotes hphase⟩
  · intro s status entries hnotes hphased hphase ⟨hcatalog, hinv⟩
    exact ⟨hcatalog.searched status entries, hsearch s status entries hnotes hphased hphase hinv⟩

end BleClientHid

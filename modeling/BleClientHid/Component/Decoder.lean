import BleClientHid.Component.Catalog
import BleClientHid.Component.Ready

/-! # READY and the decoder

Every planned read of a report map ends with a map or degrades the setup, and
every reference is checked against the map of its service. A service without a
planned read has no map, and nothing notices.
-/

namespace BleClientHid

open Setup

variable {fails : Bool}

/-! ## Usable decoders -/

/-- The source of a Report of the service refers to an Input report. -/
structure InputReference (s : BLEClientHID) (service : GattServiceInfo) (characteristic : GattCharacteristicInfo) :
    Prop where
  report : uuid16 characteristic.uuid uuidHidReport = true
  owner : (s.sourceOf characteristic.handle).serviceInstance = service.serviceInstance
  uuid : (s.sourceOf characteristic.handle).characteristicUuid = uuidHidReport
  hasReportId : (s.sourceOf characteristic.handle).hasReportId = true
  hasReportType : (s.sourceOf characteristic.handle).hasReportType = true
  reportType : (s.sourceOf characteristic.handle).reportType = HIDReportKind.input.code

/-- What `enqueue_input_report_` queues for a notification on the characteristic. -/
def notification (s : BLEClientHID) (characteristic : GattCharacteristicInfo) (payload : List UInt8)
    (isNotification : Bool) (seqId : Nat) : PendingHIDReport :=
  { source := { s.sourceOf characteristic.handle with
      characteristicHandle := characteristic.handle, isNotification, hasTransport := true }
    payload, seqId }

/-- Every Input report that a Report refers to is in the map of its service, and decodes. -/
def Usable (s : BLEClientHID) : Prop :=
  ∀ service ∈ s.services, uuid16 service.uuid uuidHidService = true →
    ∀ characteristic ∈ service.characteristics, InputReference s service characteristic →
      (∃ m, reportMapOf s.hidServices service.serviceInstance = some m ∧
        (m.findReport .input (s.sourceOf characteristic.handle).reportId).isSome = true) ∧
      ∀ payload isNotification seqId,
        (s.decodeReport (notification s characteristic payload isNotification seqId)).status ≠ .schemaMissing

/-- The read of a report map is planned for every service with such a Report. -/
def MapPlanned (s : BLEClientHID) : Prop :=
  ∀ service ∈ s.services, uuid16 service.uuid uuidHidService = true →
    (∃ characteristic ∈ service.characteristics, InputReference s service characteristic) →
      ∃ operation ∈ firstReads (BLEClientHID.wantedReads s.discoveryMode s.services),
        operation.purpose = .hidReportMap ∧ operation.serviceInstance = service.serviceInstance

/-! ## The invariant -/

def readsPlanned (phase : SetupPhase) : Bool := phase == .reading || phase == .buildingProfile || built phase

structure MapsRead (s : Setup) : Prop where
  read : readsPlanned s.setupPhase = true → s.degraded = false →
    ∀ operation ∈ firstReads (BLEClientHID.wantedReads s.discoveryMode s.services), operation.purpose =
      .hidReportMap →
      operation ∈ s.readQueue ∨ s.activeRead = some operation ∨
        (reportMapOf s.contexts operation.serviceInstance).isSome = true
  planned : s.degraded = false → ∀ i, (reportMapOf s.contexts i).isSome = true →
    ∃ operation ∈ firstReads (BLEClientHID.wantedReads s.discoveryMode s.services),
      operation.purpose = .hidReportMap ∧ operation.serviceInstance = i
  checked : built s.setupPhase = true → s.degraded = false → ∀ service ∈ s.services,
    uuid16 service.uuid uuidHidService = true → ∀ m, reportMapOf s.contexts service.serviceInstance = some m →
      ∀ entry ∈ s.sources, BLEClientHID.undefinedReference service.serviceInstance m entry.2 = false

theorem built_readsPlanned {phase : SetupPhase} (h : built phase = true) : readsPlanned phase = true := by
  simp [readsPlanned, h]

theorem required_of_reportMap {s : Setup} {operation : GattReadOperation}
    (h : operation ∈ firstReads (BLEClientHID.wantedReads s.discoveryMode s.services))
    (hpurpose : operation.purpose = .hidReportMap) :
    operation.required = true ∧ ∃ service ∈ s.services, uuid16 service.uuid uuidHidService = true ∧
      operation.serviceInstance = service.serviceInstance := by
  obtain ⟨service, hservice, characteristic, -, hinstance, -, hstandard⟩ :=
    BLEClientHID.mem_wantedReads (mem_of_mem_firstReads h) (.inl hpurpose)
  rw [hpurpose] at hstandard
  obtain ⟨hhid, hrequired⟩ := BLEClientHID.standardPurpose_reportMap hstandard
  exact ⟨hrequired, service, hservice, hhid, hinstance⟩

namespace MapsRead

variable {s t : Setup}

theorem keep (h : MapsRead s) (hmode : t.discoveryMode = s.discoveryMode) (hservices : t.services = s.services)
    (hcontexts : t.contexts = s.contexts) (hsources : t.sources = s.sources)
    (hdegraded : t.degraded = false → s.degraded = false)
    (hplanned : readsPlanned t.setupPhase = true → readsPlanned s.setupPhase = true)
    (hbuilt : built t.setupPhase = true → built s.setupPhase = true)
    (hreads : readsPlanned t.setupPhase = true → t.degraded = false → ∀ operation,
      operation ∈ s.readQueue ∨ s.activeRead = some operation →
        operation ∈ t.readQueue ∨ t.activeRead = some operation) : MapsRead t where
  read hp hd operation hoperation hpurpose := by
    rw [hmode, hservices] at hoperation
    rw [hcontexts]
    rcases h.read (hplanned hp) (hdegraded hd) operation hoperation hpurpose with hqueue | hactive | hmap
    · exact or_assoc.mp (.inl (hreads hp hd operation (.inl hqueue)))
    · exact or_assoc.mp (.inl (hreads hp hd operation (.inr hactive)))
    · exact .inr (.inr hmap)
  planned hd i hi := by
    rw [hcontexts] at hi
    rw [hmode, hservices]
    exact h.planned (hdegraded hd) i hi
  checked hp hd := by
    rw [hservices, hcontexts, hsources]
    exact h.checked (hbuilt hp) (hdegraded hd)

theorem fresh (hphase : readsPlanned s.setupPhase = false) (hcontexts : ∀ i, reportMapOf s.contexts i = none) :
    MapsRead s where
  read hp := by simp [hphase] at hp
  planned _ i hi := by simp [hcontexts] at hi
  checked hp := by simp [built_readsPlanned hp] at hphase

theorem of_degraded (h : s.degraded = true) : MapsRead s where
  read _ hd := by simp [h] at hd
  planned hd := by simp [h] at hd
  checked _ hd := by simp [h] at hd

end MapsRead

theorem reportMapOf_contextsOf (services : List GattServiceInfo) (i : Nat) :
    reportMapOf (contextsOf services) i = none := by
  unfold reportMapOf
  cases hfind : findHidContext (contextsOf services) i with
  | none => rfl
  | some context =>
    have hmem := List.mem_of_find?_eq_some hfind
    unfold contextsOf at hmem
    obtain ⟨service, -, rfl⟩ := List.mem_map.mp hmem
    rfl

/-- A finished read of a report map leaves a map or degrades; no other read touches the maps. -/
theorem Setup.ReadEffect.reportMapOf {operation : GattReadOperation} {s : Setup} {contexts : List HIDServiceContext}
    {sources : List (Nat × HIDReportSource)} {d : Bool} (h : ReadEffect operation s contexts sources d)
    (hd : d = false) :
    (∀ i, i ≠ operation.serviceInstance ∨ operation.purpose ≠ .hidReportMap →
      reportMapOf contexts i = reportMapOf s.contexts i) ∧
    (operation.purpose = .hidReportMap → operation.required = true →
      ∀ context, findHidContext s.contexts operation.serviceInstance = some context →
        (reportMapOf contexts operation.serviceInstance).isSome = true) := by
  cases h with
  | plain d hfailed =>
    refine ⟨fun i _ => rfl, fun hpurpose hrequired => ?_⟩
    have hfail := hfailed hpurpose hrequired
    simp [hd] at hfail
  | protocolMode mode hpurpose =>
    refine ⟨fun i _ => ?_, fun h => by simp [hpurpose] at h⟩
    exact reportMapOf_updateContext (by intro context; rfl) (by intro context; rfl) _ _ _
  | reference f d hpurpose => exact ⟨fun i _ => rfl, fun h => by simp [hpurpose] at h⟩
  | reportMap hash m hpurpose =>
    obtain ⟨m, rfl⟩ : ∃ m', m = some m' := Option.isSome_iff_exists.mp (by simpa using hd)
    have hfind (i : Nat) := findHidContext_updateContext
      (f := fun context => { context with reportMapHash := hash, reportMap := some m }) (by intro context; rfl)
      operation.serviceInstance i s.contexts
    refine ⟨fun i hi => ?_, fun _ _ context hcontext => ?_⟩
    · unfold BleClientHid.reportMapOf
      rw [hfind, if_neg (hi.resolve_right (not_not.mpr hpurpose)).symm]
    · unfold BleClientHid.reportMapOf
      rw [hfind, if_pos rfl, hcontext]
      rfl

namespace MapsRead

/-- A started read moves from the queue; one that was not scheduled degrades. -/
theorem startRead {s : Setup} (h : MapsRead s) (operation : GattReadOperation) (rest : List GattReadOperation)
    (accepted : Bool) (entries : List TraceEntry) (hphase : s.setupPhase = .reading) (hidle : s.activeRead = none)
    (hqueue : s.readQueue = operation :: rest) :
    MapsRead ({ s with readQueue := rest, activeRead := if accepted then some operation else none }.marked
      (!accepted && operation.required) entries) := by
  refine ⟨fun hp hd op hop hpurpose => ?_, fun hd => h.planned (Bool.or_eq_false_iff.mp hd).1, fun hp => ?_⟩
  · have hs := h.read (by simp [hphase, readsPlanned]) (Bool.or_eq_false_iff.mp hd).1 op hop hpurpose
    rw [hqueue, hidle] at hs
    rcases hs with hhead | hnone | hmap
    · rcases List.mem_cons.mp hhead with rfl | hrest
      · have hrequired := (required_of_reportMap hop hpurpose).1
        have haccepted : accepted = true := by
          simp [marked, hrequired] at hd
          exact hd.2
        exact .inr (.inl (by simp [marked, haccepted]))
      · exact .inl hrest
    · simp at hnone
    · exact .inr (.inr hmap)
  · simp [marked, hphase, built, subscribing] at hp

/-- A planned read of a report map that did not degrade left a map. -/
theorem mapOfRead {s : Setup} (hcatalog : Catalog s) {operation : GattReadOperation}
    {contexts : List HIDServiceContext} {sources : List (Nat × HIDReportSource)} {d : Bool}
    (hactive : s.activeRead = some operation) (heffect : ReadEffect operation s contexts sources d)
    (hd : s.degraded = false) (hd' : d = false) (hpurpose : operation.purpose = .hidReportMap) :
    operation ∈ firstReads (BLEClientHID.wantedReads s.discoveryMode s.services) ∧
      (reportMapOf contexts operation.serviceInstance).isSome = true := by
  have hmem := hcatalog.planned hd operation (.inr hactive)
  obtain ⟨hrequired, service, hservice, hhid, hinstance⟩ := required_of_reportMap hmem hpurpose
  obtain ⟨context, hcontext⟩ := hcatalog.context hservice hhid
  refine ⟨hmem, (heffect.reportMapOf hd').2 hpurpose hrequired context ?_⟩
  rwa [hinstance]

theorem finishRead {s : Setup} (h : MapsRead s) (hcatalog : Catalog s) (hphase : s.setupPhase = .reading)
    {operation : GattReadOperation} {contexts : List HIDServiceContext}
    {sources : List (Nat × HIDReportSource)} {d : Bool} (hactive : s.activeRead = some operation)
    (heffect : ReadEffect operation s contexts sources d) (entries : List TraceEntry) :
    MapsRead ({ s with activeRead := none, contexts, sources }.marked d entries) := by
  refine ⟨fun hp hd op hop hpurpose => ?_, fun hd i hi => ?_, fun hp => ?_⟩
  · obtain ⟨hd, hd'⟩ := Bool.or_eq_false_iff.mp hd
    rcases h.read (by simp [hphase, readsPlanned]) hd op hop hpurpose with hqueue | hop' | hmap
    · exact .inl hqueue
    · obtain rfl : operation = op := Option.some.inj (hactive.symm.trans hop')
      exact .inr (.inr (mapOfRead hcatalog hactive heffect hd hd' hpurpose).2)
    · by_cases hsame : op.serviceInstance = operation.serviceInstance ∧ operation.purpose = .hidReportMap
      · rw [hsame.1]
        exact .inr (.inr (mapOfRead hcatalog hactive heffect hd hd' hsame.2).2)
      · rw [← (heffect.reportMapOf hd').1 _ (not_and_or.mp hsame)] at hmap
        exact .inr (.inr hmap)
  · obtain ⟨hd, hd'⟩ := Bool.or_eq_false_iff.mp hd
    by_cases hsame : i = operation.serviceInstance ∧ operation.purpose = .hidReportMap
    · exact ⟨operation, (mapOfRead hcatalog hactive heffect hd hd' hsame.2).1, hsame.2, hsame.1.symm⟩
    · apply h.planned hd i
      rw [← (heffect.reportMapOf hd').1 i (not_and_or.mp hsame)]
      exact hi
  · simp [marked, hphase, built, subscribing] at hp

theorem buildProfiles {s : BLEClientHID} (h : MapsRead s.setup) (hcatalog : Catalog s.setup)
    (hphase : s.setupPhase = .buildingProfile) : MapsRead s.buildHidProfiles.setup.collectWrites := by
  have hbuilding : s.setup.setupPhase = .buildingProfile := hphase
  obtain ⟨hmode, -, hservices, hqueue, hactive, -⟩ := s.buildHidProfiles_same
  obtain ⟨-, hmaps, -, -⟩ := BLEClientHID.foldl_profileService_same s.services s
  have hmaps' (i : Nat) : reportMapOf s.buildHidProfiles.setup.collectWrites.contexts i =
      reportMapOf s.setup.contexts i := by
    change reportMapOf (s.buildHidProfiles.hidServices.map _) i = reportMapOf (s.hidServices.map _) i
    rw [reportMapOf_fixed, reportMapOf_fixed, BLEClientHID.buildHidProfiles, hmaps]
  have hdegraded (hd : s.buildHidProfiles.degraded = false) : s.degraded = false :=
    BLEClientHID.degraded_of_profiles s.buildHidProfiles_profiles hd
  refine ⟨fun _ hd op hop hpurpose => ?_, fun hd i hi => ?_,
    fun _ hd service hservice hhid m hm entry hentry => ?_⟩
  · rw [show s.buildHidProfiles.setup.collectWrites.discoveryMode = s.setup.discoveryMode from hmode,
      show s.buildHidProfiles.setup.collectWrites.services = s.setup.services from hservices] at hop
    rw [hmaps', show s.buildHidProfiles.setup.collectWrites.readQueue = s.setup.readQueue from hqueue,
      show s.buildHidProfiles.setup.collectWrites.activeRead = s.setup.activeRead from hactive]
    exact h.read (by simp [hbuilding, readsPlanned]) (hdegraded hd) op hop hpurpose
  · rw [show s.buildHidProfiles.setup.collectWrites.discoveryMode = s.setup.discoveryMode from hmode,
      show s.buildHidProfiles.setup.collectWrites.services = s.setup.services from hservices]
    rw [hmaps'] at hi
    exact h.planned (hdegraded hd) i hi
  · rw [hmaps'] at hm
    obtain ⟨m', hm', rfl⟩ : ∃ m', reportMapOf s.hidServices service.serviceInstance = some m' ∧
        m'.resetRuntimeState = m := by
      change reportMapOf (s.hidServices.map _) _ = some m at hm
      rw [reportMapOf_fixed] at hm
      exact Option.map_eq_some_iff.mp hm
    have hmem : service ∈ s.services := hservices ▸ hservice
    exact (BLEClientHID.foldl_profileService_spec s.services hcatalog.distinct s hmem hhid).2 hd m' hm'
      entry hentry

end MapsRead

theorem Setup.Move.mapsRead {s t : Setup} (hphased : Phased s) (hcatalog : Catalog s) (h : MapsRead s)
    (hmove : Move fails s t) : MapsRead t := by
  have hor {d : Bool} (hd : (s.degraded || d) = false) : s.degraded = false := (Bool.or_eq_false_iff.mp hd).1
  cases hmove with
  | inventory services hphase =>
    exact .fresh (by simp [hphase, readsPlanned, built, subscribing]) (reportMapOf_contextsOf services)
  | inventoryFailed entries hphase | noHid hphase =>
    exact h.keep rfl rfl rfl rfl id (by simp [goto, readsPlanned, built, subscribing])
      (by simp [goto, built, subscribing]) (by simp [goto, readsPlanned, built, subscribing])
  | planReads queue hphase hall =>
    -- with nothing degraded, every planned read is still in the queue
    refine ⟨fun _ hd operation hoperation _ => .inl ?_, h.planned, by simp [goto, built, subscribing]⟩
    have hq := hall hd
    exact hq ▸ hoperation
  | startRead operation rest accepted entries hphase hidle hqueue =>
    exact h.startRead operation rest accepted entries hphase hidle hqueue
  | finishRead operation contexts sources d entries hactive heffect =>
    exact h.finishRead hcatalog (hphased.reading_of_active hactive) hactive heffect entries
  | readsDone hphase =>
    exact h.keep rfl rfl rfl rfl id (by simp [hphase, readsPlanned]) (by simp [goto, built, subscribing])
      fun _ _ _ hop => hop
  | buildProfiles s hphase => exact h.buildProfiles hcatalog hphase
  | planSubscriptions queue hphase =>
    exact h.keep rfl rfl rfl rfl id (by simp [hphase, readsPlanned, built]) (by simp [hphase, built])
      fun _ _ _ hop => hop
  | finish entries hphase =>
    exact h.keep rfl rfl rfl rfl id (by simp [hphase, readsPlanned, built, subscribing])
      (by simp [hphase, built, subscribing]) fun _ _ _ hop => hop
  | begin | registrationIgnored | cccdIgnored | retry | writeCccd =>
    exact h.keep rfl rfl rfl rfl id id id fun _ _ _ hop => hop
  | mark | writeMode | beginWithoutCccd | notScheduled =>
    -- a mark only takes the premise away
    exact h.keep rfl rfl rfl rfl hor id id fun _ _ _ hop => hop
  | registered sub fallbackAtMs hactive | complete sub hactive =>
    have hbuilt : built s.setupPhase = true := built_of_subscribing (hphased.subscribing_of_active hactive)
    exact h.keep rfl rfl rfl rfl id (fun _ => built_readsPlanned hbuilt) (fun _ => hbuilt)
      fun _ _ _ hop => hop
  | registrationFailed sub entries hactive | writeRejected sub value entries hactive
  | cccdFailed sub entries hfails hactive =>
    have hbuilt : built s.setupPhase = true := built_of_subscribing (hphased.subscribing_of_active hactive)
    exact h.keep rfl rfl rfl rfl hor (fun _ => built_readsPlanned hbuilt) (fun _ => hbuilt)
      fun _ _ _ hop => hop
  -- a deadline degrades the setup, and nothing is asked of it then
  | readTimeout | subscriptionTimeout | timeout => exact .of_degraded (by simp [goto, marked])

theorem MapsRead.searched {s : Setup} (h : MapsRead s) (status : GattStatus) (entries : List TraceEntry) :
    MapsRead (s.searched status entries) := by
  unfold Setup.searched
  split
  · exact h.keep rfl rfl rfl rfl id (by simp [goto, readsPlanned, built, subscribing])
      (by simp [goto, built, subscribing]) (by simp [goto, readsPlanned, built, subscribing])
  · exact .of_degraded (by simp [goto, marked])

theorem reachable_mapsRead {s : BLEClientHID} (h : Reachable s) :
    Phased s.setup ∧ Catalog s.setup ∧ MapsRead s.setup := by
  refine catalog_invariant MapsRead ?_ ?_ ?_ ?_ h
  · intro discoveryMode policy
    exact .fresh rfl fun _ => rfl
  · intro fails s t hphased hcatalog hinv hmove
    exact hmove.mapsRead hphased hcatalog hinv
  · intro s phase entries _ hphase
    refine .fresh ?_ fun _ => rfl
    cases phase <;> simp_all [beforeSearch, reset, readsPlanned, built, subscribing]
  · intro s status entries _ _ _ hinv
    exact hinv.searched status entries

/-! ## Ready components -/

theorem mem_of_sourceOf {s : BLEClientHID} {handle : Nat} (h : (s.sourceOf handle).hasReportId = true) :
    (handle, s.sourceOf handle) ∈ s.handleReportSource := by
  unfold BLEClientHID.sourceOf at h ⊢
  cases hlookup : s.handleReportSource.lookup handle with
  | none => simp [hlookup] at h
  | some source =>
    obtain ⟨before, after, heq, -⟩ := List.lookup_eq_some_iff.mp hlookup
    simp [heq]

theorem parse_not_schemaMissing {m : HIDReportMap} {source : HIDReportSource} {payload : List UInt8}
    (h : (m.findReport .input (HidParser.selectedReportId source)).isSome = true) :
    (HidParser.parse m source (.bytes payload)).status ≠ .schemaMissing := by
  obtain ⟨report, hreport⟩ := Option.isSome_iff_exists.mp h
  unfold HidParser.parse
  dsimp only
  split
  · simp
  · split
    · simp
    · rw [hreport]
      dsimp only
      split
      · simp
      · dsimp only
        split <;> simp

namespace InputReference

variable {s : BLEClientHID} {service : GattServiceInfo} {characteristic : GattCharacteristicInfo} {m : HIDReportMap}

theorem defined (href : InputReference s service characteristic)
    (hchecked : BLEClientHID.undefinedReference service.serviceInstance m.resetRuntimeState
      (s.sourceOf characteristic.handle) = false) :
    (m.findReport .input (s.sourceOf characteristic.handle).reportId).isSome = true := by
  have hdefined : (m.resetRuntimeState.findReport .input
      (s.sourceOf characteristic.handle).reportId).isSome = true := by
    unfold BLEClientHID.undefinedReference at hchecked
    simp only [href.owner, href.hasReportId, href.hasReportType, href.reportType, beq_self_eq_true,
      Bool.true_and] at hchecked
    simpa [HIDReportKind.code, BLEClientHID.reportKind] using hchecked
  exact hdefined

theorem decodes (href : InputReference s service characteristic)
    (hm : reportMapOf s.hidServices service.serviceInstance = some m)
    (hfind : (m.findReport .input (s.sourceOf characteristic.handle).reportId).isSome = true)
    (payload : List UInt8) (isNotification : Bool) (seqId : Nat) :
    (s.decodeReport (notification s characteristic payload isNotification seqId)).status ≠ .schemaMissing := by
  have hboot : BLEClientHID.isBootInputUuid (s.sourceOf characteristic.handle).characteristicUuid = false := by
    rw [href.uuid]
    rfl
  have hmap : (s.findHidContext (s.sourceOf characteristic.handle).serviceInstance).bind (·.reportMap) = some m := by
    rw [href.owner]
    exact hm
  unfold BLEClientHID.decodeReport notification
  dsimp only
  rw [hboot, hmap]
  apply parse_not_schemaMissing
  unfold HidParser.selectedReportId
  rw [if_pos href.hasReportId]
  exact hfind

end InputReference

/-- A ready component decodes every Input report that a Report refers to exactly when it planned to read
the maps. -/
theorem usable_iff {s : BLEClientHID} (h : Reachable s) (hready : s.setupPhase = .ready) :
    Usable s ↔ MapPlanned s := by
  obtain ⟨hphased, hcatalog, hmaps⟩ := reachable_mapsRead h
  have hphase : s.setup.setupPhase = .ready := hready
  have hdegraded : s.setup.degraded = false := (reachable_ready h).2.complete hready
  obtain ⟨hidle, hqueue⟩ := hphased.reads (by simp [hphase])
  have hfixed (i : Nat) :
      reportMapOf s.setup.contexts i = (reportMapOf s.hidServices i).map (·.resetRuntimeState) :=
    reportMapOf_fixed s.hidServices i
  constructor
  · intro husable service hservice hhid ⟨characteristic, hmem, href⟩
    obtain ⟨⟨m, hm, -⟩, -⟩ := husable service hservice hhid characteristic hmem href
    exact hmaps.planned hdegraded service.serviceInstance (by simp [hfixed, hm])
  · intro hplanned service hservice hhid characteristic hmem href
    obtain ⟨operation, hoperation, hpurpose, hinstance⟩ :=
      hplanned service hservice hhid ⟨characteristic, hmem, href⟩
    have hread := hmaps.read (by simp [hphase, readsPlanned, built]) hdegraded operation hoperation hpurpose
    simp only [hqueue, hidle, List.not_mem_nil, reduceCtorEq, false_or] at hread
    rw [hinstance, hfixed, Option.isSome_map] at hread
    obtain ⟨m, hm⟩ := Option.isSome_iff_exists.mp hread
    have hchecked := hmaps.checked (by simp [hphase, built]) hdegraded service hservice hhid m.resetRuntimeState
      (by simp [hfixed, hm]) _ (mem_of_sourceOf href.hasReportId)
    have hfind := href.defined hchecked
    exact ⟨⟨m, hm, hfind⟩, href.decodes hm hfind⟩

/-- The keyboard's map is read and defines its Report. -/
theorem usable_keyboard : Usable (run (initial .standard .unchanged 0) keyboardSetup) := by
  refine (usable_iff (reachable_run (.initial .standard .unchanged 0) keyboardSetup (by decide +kernel))
    (by decide +kernel)).mpr ?_
  have hservices : (run (initial .standard .unchanged 0) keyboardSetup).services =
    keyboardServices := by decide +kernel
  intro service hservice hhid _
  rw [hservices] at hservice
  obtain rfl := List.mem_singleton.mp hservice
  exact ⟨{ handle := 3, characteristicHandle := 3, purpose := .hidReportMap, required := true }, by decide +kernel,
    rfl, rfl⟩

/-- A HID service without a Report Map gets ready, and its Input report has no schema. -/
theorem ready_without_reportMap : ¬ ∀ s, Reachable s → s.setupPhase = .ready → Usable s := by
  intro hclaim
  have hreached := reachable_run (.initial .standard .unchanged 0)
    (exampleRun [hidService [reportCharacteristic]] (connectAndSearch ++ [none] ++ readReference ++ subscribe))
    (by decide +kernel)
  obtain ⟨-, hdecodes⟩ := hclaim _ hreached (by decide +kernel) (hidService [reportCharacteristic])
    (by decide +kernel) (by decide +kernel) reportCharacteristic (by decide +kernel)
    ⟨by decide +kernel, by decide +kernel, by decide +kernel, by decide +kernel, by decide +kernel,
      by decide +kernel⟩
  exact hdecodes [0, 4] true 1 (by decide +kernel)

end BleClientHid

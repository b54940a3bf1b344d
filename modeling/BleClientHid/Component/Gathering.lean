import BleClientHid.Component.Peripheral
import BleClientHid.Component.Decoder

/-! # What the reads gather

The references and the Report Maps of a peripheral that conforms, on their way into the profiles.
-/

namespace BleClientHid

open Setup BLEClientHID

/-! ## Sources by handle -/

def hasReference (sources : List (Nat × HIDReportSource)) (handle : Nat) : Bool :=
  ((sources.lookup handle).getD {}).hasReportId

theorem lookup_updateSource (handle : Nat) (f : HIDReportSource → HIDReportSource)
    (sources : List (Nat × HIDReportSource)) (other : Nat) :
    (updateSource handle f sources).lookup other =
      if other = handle then some (f ((sources.lookup handle).getD {})) else sources.lookup other := by
  induction sources with
  | nil =>
    by_cases hother : other = handle
    · simp [updateSource, hother]
    · simp [updateSource, hother, List.lookup_cons, beq_false_of_ne hother]
  | cons entry rest ih =>
    unfold updateSource
    by_cases hentry : entry.1 = handle
    · rw [if_pos hentry, List.lookup_cons, List.lookup_cons, List.lookup_cons, hentry]
      by_cases hother : other = handle
      · simp [hother]
      · simp [hother, beq_false_of_ne hother]
    · rw [if_neg hentry, List.lookup_cons, List.lookup_cons, List.lookup_cons, ih]
      by_cases hother : other = handle
      · rw [hother, if_pos rfl, if_pos rfl, beq_false_of_ne (Ne.symm hentry)]
      · rw [if_neg hother, if_neg hother]

/-- An entry that changed has the handle, and a source that was stored under it or is new. -/
theorem mem_updateSource_key {handle : Nat} {f : HIDReportSource → HIDReportSource}
    {sources : List (Nat × HIDReportSource)} {entry : Nat × HIDReportSource}
    (h : entry ∈ updateSource handle f sources) :
    entry ∈ sources ∨ entry = (handle, f {}) ∨ ∃ source, (handle, source) ∈ sources ∧ entry = (handle, f source) := by
  induction sources with
  | nil => exact .inr (.inl (List.mem_singleton.mp h))
  | cons head rest ih =>
    unfold updateSource at h
    split at h
    · rename_i hhead
      rcases List.mem_cons.mp h with rfl | hrest
      · exact .inr (.inr ⟨head.2, hhead ▸ List.mem_cons_self, rfl⟩)
      · exact .inl (List.mem_cons_of_mem _ hrest)
    · rcases List.mem_cons.mp h with rfl | hrest
      · exact .inl List.mem_cons_self
      · rcases ih hrest with hold | hnew | ⟨source, hsource, heq⟩
        · exact .inl (List.mem_cons_of_mem _ hold)
        · exact .inr (.inl hnew)
        · exact .inr (.inr ⟨source, List.mem_cons_of_mem _ hsource, heq⟩)

/-! ## References and Report Maps -/

namespace Peripheral

variable (p : Peripheral)

/-- The source under this handle is what the reference says. -/
structure Tells (reference : GattReadOperation) (handle : Nat) (source : HIDReportSource) : Prop where
  purpose : reference.purpose = .hidReportReference
  handle : handle = reference.characteristicHandle
  service : source.serviceInstance = reference.serviceInstance
  reportId : source.reportId = p.reportId reference
  reportType : source.reportType = p.reportType reference

/-- The Report Map is the value that the operation reads. -/
structure Describes (operation : GattReadOperation) (serviceInstance : Nat) (m : HIDReportMap) : Prop where
  purpose : operation.purpose = .hidReportMap
  service : operation.serviceInstance = serviceInstance
  parsed : ∃ start ∈ HidParser.parseReportMapData (.bytes (p.value operation.handle)),
    m.resetRuntimeState = start.resetRuntimeState

variable {p}

theorem Describes.of_reset {operation : GattReadOperation} {i : Nat} {m m' : HIDReportMap}
    (h : p.Describes operation i m) (heq : m'.resetRuntimeState = m.resetRuntimeState) :
    p.Describes operation i m' := by
  obtain ⟨start, hstart, hsame⟩ := h.parsed
  exact ⟨h.purpose, h.service, start, hstart, heq.trans hsame⟩

end Peripheral

/-! ## One read -/

/-- A value that is proper is stored, and degrades nothing. -/
structure Stored (p : Peripheral) (operation : GattReadOperation) (s t : Setup) : Prop where
  frame : t = { s with contexts := t.contexts, sources := t.sources }
  maps : ∀ i m, reportMapOf t.contexts i = some m → reportMapOf s.contexts i = some m ∨ p.Describes operation i m
  sources : ∀ entry ∈ t.sources, entry.2.hasReportId = true → entry ∈ s.sources ∨
    p.Tells operation entry.1 entry.2
  known : ∀ handle, hasReference s.sources handle = true → hasReference t.sources handle = true
  done : operation.purpose = .hidReportReference → hasReference t.sources operation.characteristicHandle = true

namespace Stored

variable {p : Peripheral} {operation : GattReadOperation} {s t : Setup}

theorem plain (h : t = s) (hpurpose : operation.purpose ≠ .hidReportReference) : Stored p operation s t := by
  subst h
  exact ⟨rfl, fun _ _ => .inl, fun _ hentry _ => .inl hentry, fun _ => id, fun h => absurd h hpurpose⟩

end Stored

section

variable {p : Peripheral} {env : Env} {operation : GattReadOperation} {s : BLEClientHID}

theorem readProtocolMode_stored (hpurpose : operation.purpose = .hidProtocolMode) {value : List UInt8}
    (hcontext : (s.findHidContext operation.serviceInstance).isSome = true) (hvalue : value.length = 1) :
    Stored p operation s.setup (readProtocolMode operation value s).setup := by
  unfold readProtocolMode
  rw [if_pos (by simp [hcontext, hvalue])]
  refine ⟨rfl, fun i m hm => .inl ?_, fun _ hentry _ => .inl hentry, fun _ => id, fun h => ?_⟩
  · have hcontexts : reportMapOf (updateContext operation.serviceInstance _ s.hidServices) i =
        reportMapOf s.hidServices i :=
      reportMapOf_updateContext (f := fun context => { context with
        protocolMode := (value.getD 0 0).toNat, protocolModeHandle := operation.characteristicHandle })
        (fun _ => rfl) (fun _ => rfl) _ _ _
    simp only [setup, reportMapOf_fixed] at hm ⊢
    rwa [← hcontexts]
  · simp [hpurpose] at h

theorem readReportMap_stored (hpurpose : operation.purpose = .hidReportMap)
    (hcontext : (s.findHidContext operation.serviceInstance).isSome = true)
    (hvalue : (HidParser.parseReportMapData (.bytes (p.value operation.handle))).isSome = true) :
    Stored p operation s.setup (BLEClientHID.readReportMap env operation (p.value operation.handle) s).setup := by
  have hsome : p.value operation.handle ≠ [] := by
    rintro hempty
    rw [hempty] at hvalue
    exact absurd hvalue (by decide)
  obtain ⟨start, hstart⟩ := Option.isSome_iff_exists.mp hvalue
  unfold BLEClientHID.readReportMap
  rw [if_neg (by simp [hcontext, hsome, ← Option.not_isSome])]
  dsimp only
  rw [hstart, if_neg (by simp)]
  refine ⟨rfl, fun i m hm => ?_, fun _ hentry _ => .inl hentry, fun _ => id, fun h => ?_⟩
  · simp only [setup, reportMapOf_fixed, Option.map_eq_some_iff] at hm ⊢
    obtain ⟨m', hm', rfl⟩ := hm
    unfold reportMapOf at hm'
    rw [findHidContext_updateContext (by intro context; rfl)] at hm'
    split at hm'
    · rename_i hinstance
      obtain ⟨context, hfound, hmap⟩ := Option.bind_eq_some_iff.mp hm'
      obtain ⟨old, -, rfl⟩ := Option.map_eq_some_iff.mp hfound
      obtain rfl := Option.some.inj hmap
      exact .inr ⟨hpurpose, hinstance, start, hstart, rfl⟩
    · exact .inl ⟨m', hm', rfl⟩
  · simp [hpurpose] at h

theorem readReportReference_stored (hpurpose : operation.purpose = .hidReportReference)
    (hvalue : ProperValue .hidReportReference (p.value operation.handle)) :
    Stored p operation s.setup (readReportReference operation (p.value operation.handle) s).setup := by
  obtain ⟨-, hlength, hlow, hhigh⟩ := hvalue
  unfold readReportReference
  dsimp only
  rw [if_pos hlength, if_neg (by omega)]
  refine ⟨rfl, fun _ _ => .inl, fun entry hentry hid => ?_, fun handle hhandle => ?_, fun _ => ?_⟩
  · rcases mem_updateSource_key hentry with hold | rfl | ⟨source, -, rfl⟩
    · exact .inl hold
    · exact .inr ⟨hpurpose, rfl, rfl, rfl, rfl⟩
    · exact .inr ⟨hpurpose, rfl, rfl, rfl, rfl⟩
  · simp only [setup, hasReference, lookup_updateSource] at hhandle ⊢
    split
    · rfl
    · exact hhandle
  · simp [setup, hasReference, lookup_updateSource]

theorem readValue_stored (hvalue : ProperValue operation.purpose (p.value operation.handle))
    (hcontext : needsContext operation.purpose = true → (s.findHidContext operation.serviceInstance).isSome = true) :
    Stored p operation s.setup (readValue env operation (p.value operation.handle) s).setup := by
  obtain ⟨hlength, hproper⟩ := hvalue
  unfold readValue
  split <;> rename_i hpurpose <;> simp only [hpurpose] at hproper hcontext
  · rw [if_pos hproper]
    exact .plain rfl (by simp [hpurpose])
  · unfold readPreferredConnectionParameters
    rw [if_pos hproper]
    exact .plain rfl (by simp [hpurpose])
  · obtain ⟨level, rest, hcons⟩ := List.exists_cons_of_ne_nil hproper
    rw [hcons, readBatteryLevel, publishBattery_eq]
    exact .plain rfl (by simp [hpurpose])
  · rw [if_pos hproper]
    exact .plain rfl (by simp [hpurpose])
  · unfold readHidInformation
    rw [if_pos (by simp [hcontext, needsContext, hproper])]
    exact .plain rfl (by simp [hpurpose])
  · exact readProtocolMode_stored hpurpose (hcontext rfl) hproper
  · exact readReportMap_stored hpurpose (hcontext rfl) hproper
  · exact readReportReference_stored hpurpose ⟨hlength, hproper⟩
  · rw [if_pos hproper]
    exact .plain rfl (by simp [hpurpose])
  · exact .plain rfl (by assumption)

end

/-! ## All reads -/

/-- What has been read so far is what the peripheral says, and every reference is read or still to be read. -/
structure Gathered (p : Peripheral) (s : Setup) : Prop where
  sources : ∀ entry ∈ s.sources, entry.2.hasReportId = true →
    ∃ reference ∈ p.reads s.discoveryMode, p.Tells reference entry.1 entry.2
  maps : ∀ i m, reportMapOf s.contexts i = some m → ∃ operation ∈ p.reads s.discoveryMode, p.Describes operation i m
  references : ∀ reference ∈ p.reads s.discoveryMode, reference.purpose = .hidReportReference →
    reference ∈ s.readQueue ∨ s.activeRead = some reference ∨
      hasReference s.sources reference.characteristicHandle = true

namespace Gathered

variable {p : Peripheral} {s t : Setup}

theorem start (h : Gathered p s) {operation : GattReadOperation} {rest : List GattReadOperation}
    (hidle : s.activeRead = none) (hqueue : s.readQueue = operation :: rest) :
    Gathered p { s with readQueue := rest, activeRead := some operation } where
  sources := h.sources
  maps := h.maps
  references reference hmem hpurpose := by
    rcases h.references reference hmem hpurpose with hqueued | hactive | hknown
    · rw [hqueue] at hqueued
      rcases List.mem_cons.mp hqueued with rfl | hrest
      · exact .inr (.inl rfl)
      · exact .inl hrest
    · simp [hidle] at hactive
    · exact .inr (.inr hknown)

theorem finish (h : Gathered p s) {operation : GattReadOperation} (hmem : operation ∈ p.reads s.discoveryMode)
    (hactive : s.activeRead = some operation) (hstored : Stored p operation { s with activeRead := none } t) :
    Gathered p t := by
  have hframe := hstored.frame
  have hmode : t.discoveryMode = s.discoveryMode := by rw [hframe]
  have hqueue : t.readQueue = s.readQueue := by rw [hframe]
  refine ⟨fun entry hentry hid => ?_, fun i m hm => ?_, fun reference href hpurpose => ?_⟩
  · rw [hmode]
    rcases hstored.sources entry hentry hid with hold | htells
    · exact h.sources entry hold hid
    · exact ⟨operation, hmem, htells⟩
  · rw [hmode]
    rcases hstored.maps i m hm with hold | hdescribes
    · exact h.maps i m hold
    · exact ⟨operation, hmem, hdescribes⟩
  · rw [hmode] at href
    rw [hqueue]
    rcases h.references reference href hpurpose with hqueued | hrunning | hknown
    · exact .inl hqueued
    · obtain rfl := Option.some.inj (hactive.symm.trans hrunning)
      exact .inr (.inr (hstored.done hpurpose))
    · exact .inr (.inr (hstored.known _ hknown))

end Gathered

/-! ## The profiles -/

structure Profiled (p : Peripheral) (mode : DiscoveryMode) (s : BLEClientHID) : Prop where
  undegraded : s.degraded = false
  sources : ∀ entry ∈ s.handleReportSource, entry.2.hasReportId = true →
    ∃ reference ∈ p.reads mode, p.Tells reference entry.1 entry.2
  known : ∀ reference ∈ p.reads mode, reference.purpose = .hidReportReference →
    hasReference s.handleReportSource reference.characteristicHandle = true
  maps : ∀ i m, reportMapOf s.hidServices i = some m → ∃ operation ∈ p.reads mode, p.Describes operation i m

theorem Gathered.profiled {p : Peripheral} {s : BLEClientHID} (h : Gathered p s.setup) (hdegraded : s.degraded = false)
    (hqueue : s.readQueue = []) (hidle : s.activeRead = none) : Profiled p s.discoveryMode s where
  undegraded := hdegraded
  sources := h.sources
  known reference hmem hpurpose := by
    have hdone := h.references reference hmem hpurpose
    simpa [setup, hqueue, hidle] using hdone
  maps i m hm := by
    have hfixed : reportMapOf s.setup.contexts i = some m.resetRuntimeState := by
      simp only [setup, reportMapOf_fixed, hm, Option.map_some]
    obtain ⟨operation, hmem, hdescribes⟩ := h.maps i _ hfixed
    exact ⟨operation, hmem, hdescribes.of_reset rfl⟩

namespace Profiled

variable {p : Peripheral} {mode : DiscoveryMode} {s : BLEClientHID} {service : GattServiceInfo}
  {characteristic : GattCharacteristicInfo}

theorem claimInput (hp : p.Conforms mode) (h : Profiled p mode s)
    (hservice : service ∈ hidServicesOf p.recorded.services) (hmem : characteristic ∈ service.characteristics)
    (hinput : isInputUuid characteristic.uuid.short = true) :
    Profiled p mode (s.claimInput service characteristic.handle characteristic.uuid.short) := by
  obtain ⟨hstored, -⟩ := List.mem_filter.mp hservice
  have howner (reference : GattReadOperation) (href : reference ∈ p.reads mode)
      (hpurpose : reference.purpose = .hidReportReference)
      (hhandle : reference.characteristicHandle = characteristic.handle) :
      reference.serviceInstance = service.serviceInstance ∧
        (findDescriptor characteristic uuidReportReference).isSome = true := by
    obtain ⟨service', hservice', characteristic', hmem', hinstance, hhandle', hsome⟩ :=
      p.characteristic_of_reference href hpurpose
    obtain ⟨rfl, rfl⟩ := p.owner_eq hstored hservice' hmem hmem' (hhandle.symm.trans hhandle')
    exact ⟨hinstance, hsome⟩
  have hboot (reference : GattReadOperation) (href : reference ∈ p.reads mode)
      (hpurpose : reference.purpose = .hidReportReference)
      (hhandle : reference.characteristicHandle = characteristic.handle) :
      isBootInputUuid characteristic.uuid.short = false := by
    by_contra hboot
    have hsome := (howner reference href hpurpose hhandle).2
    rw [hp.unreferenced service hservice characteristic hmem (by simpa using hboot)] at hsome
    simp at hsome
  refine ⟨?_, fun entry hentry hid => ?_, fun reference href hpurpose => ?_, h.maps⟩
  · -- a Report has its reference
    have hmissing : (!isBootInputUuid characteristic.uuid.short &&
        !(s.sourceOf characteristic.handle).hasReportId) = false := by
      by_contra hmissing
      simp only [Bool.not_eq_false, Bool.and_eq_true, Bool.not_eq_true'] at hmissing
      have hreport : characteristic.uuid.short = uuidHidReport := by
        have hnot := hmissing.1
        unfold isInputUuid at hinput
        unfold isBootInputUuid at hnot
        grind
      have hreferenced : ∃ reference ∈ p.reads mode, reference.purpose = .hidReportReference ∧
          reference.characteristicHandle = characteristic.handle :=
        p.reference_of_characteristic hstored hmem (hp.referenced service hservice characteristic hmem hreport)
      obtain ⟨reference, href, hpurpose, hhandle⟩ := hreferenced
      have hknown := h.known reference href hpurpose
      rw [hhandle] at hknown
      exact absurd hknown (by simpa [hasReference, sourceOf] using hmissing.2)
    simp only [BLEClientHID.claimInput, h.undegraded, Bool.false_or]
    exact hmissing
  · rcases mem_updateSource_key hentry with hold | rfl | ⟨source, hsource, rfl⟩
    · exact h.sources entry hold hid
    · simp at hid
    · obtain ⟨reference, href, htells⟩ := h.sources _ hsource hid
      obtain ⟨hinstance, -⟩ := howner reference href htells.purpose htells.handle.symm
      have hnot := hboot reference href htells.purpose htells.handle.symm
      refine ⟨reference, href, htells.purpose, htells.handle, hinstance.symm, htells.reportId, ?_⟩
      simp only [hnot, Bool.false_eq_true, if_false]
      exact htells.reportType
  · have hknown := h.known reference href hpurpose
    simp only [BLEClientHID.claimInput, hasReference, lookup_updateSource] at hknown ⊢
    split
    · rename_i hsame
      rwa [hsame] at hknown
    · exact hknown

theorem profileCharacteristic (hp : p.Conforms mode) (h : Profiled p mode s)
    (hservice : service ∈ hidServicesOf p.recorded.services) (hmem : characteristic ∈ service.characteristics) :
    Profiled p mode (s.profileCharacteristic service characteristic) := by
  have hmaps (i : Nat) := s.profileCharacteristic_reportMapOf service characteristic i
  unfold BLEClientHID.profileCharacteristic at hmaps ⊢
  split
  · rename_i uuid huuid
    have hclaimed : Profiled p mode
        (if isInputUuid uuid then s.claimInput service characteristic.handle uuid else s) := by
      split
      · rename_i hinput
        have hshort : characteristic.uuid.short = uuid := by rw [huuid]; rfl
        rw [← hshort] at hinput ⊢
        exact h.claimInput hp hservice hmem hinput
      · exact h
    rw [huuid] at hmaps
    dsimp only at hmaps ⊢
    split
    · rename_i hmode
      rw [if_pos hmode] at hmaps
      exact ⟨hclaimed.undegraded, hclaimed.sources, hclaimed.known, fun i m hm => h.maps i m ((hmaps i).symm.trans hm)⟩
    · exact hclaimed
  · exact h

theorem checkReferences (hp : p.Conforms mode) (h : Profiled p mode s) (i : Nat) :
    Profiled p mode (s.checkReferences i) := by
  obtain ⟨hcontexts, hsources⟩ := s.checkReferences_same i
  refine ⟨?_, hsources ▸ h.sources, hsources ▸ h.known, hcontexts ▸ h.maps⟩
  unfold BLEClientHID.checkReferences
  split
  · exact h.undegraded
  · rename_i context hcontext
    split
    · exact h.undegraded
    · rename_i m hm
      simp only [h.undegraded, Bool.false_or, List.any_eq_false]
      intro entry hentry hundefined
      simp only [undefinedReference, Bool.and_eq_true, beq_iff_eq, Option.isNone_iff_eq_none] at hundefined
      obtain ⟨⟨⟨⟨hinstance, hid⟩, -⟩, -⟩, hnone⟩ := hundefined
      obtain ⟨reference, href, htells⟩ := h.sources entry hentry hid
      obtain ⟨operation, hoperation, hdescribes⟩ := h.maps i m (by
        unfold reportMapOf
        rw [show BleClientHid.findHidContext s.hidServices i = some context from hcontext]
        exact hm)
      obtain ⟨start, hstart, hsame⟩ := hdescribes.parsed
      have hdefined := hp.defined reference href htells.purpose operation hoperation hdescribes.purpose
        (hdescribes.service.trans (hinstance.symm.trans htells.service)) start hstart
      have hfind : m.findReport (reportKind entry.2.reportType) entry.2.reportId =
          start.findReport (reportKind entry.2.reportType) entry.2.reportId := by
        have hreports : m.resetRuntimeState.reports = start.resetRuntimeState.reports := by rw [hsame]
        unfold HIDReportMap.findReport
        rw [show m.reports = start.reports from hreports]
      rw [hfind, htells.reportId, htells.reportType] at hnone
      simp [hnone] at hdefined

theorem buildHidProfiles (hp : p.Conforms mode) (h : Profiled p mode s) (hservices : s.services = p.recorded.services) :
    s.buildHidProfiles.degraded = false := by
  have hall : ∀ service ∈ s.services, service ∈ p.recorded.services := fun service hmem => hservices ▸ hmem
  unfold BLEClientHID.buildHidProfiles
  generalize s.services = services at hall
  suffices hprofiled : Profiled p mode (services.foldl profileService s) from hprofiled.undegraded
  apply List.foldlRecOn (motive := Profiled p mode) services _ h
  intro t ht service hmem
  unfold profileService
  split
  · exact ht
  · rename_i hhid
    have hservice : service ∈ hidServicesOf p.recorded.services :=
      List.mem_filter.mpr ⟨hall service hmem, by simpa using hhid⟩
    apply checkReferences hp
    apply List.foldlRecOn (motive := Profiled p mode) service.characteristics _ ht
    intro u hu characteristic hcharacteristic
    exact hu.profileCharacteristic hp hservice hcharacteristic

end Profiled

end BleClientHid

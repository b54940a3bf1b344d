import BleClientHid.Component.Frames

/-! # What the profiles leave behind

The fold over the services, seen from one of them: its context, its sources and
the check of its references.
-/

namespace BleClientHid

/-! ## Contexts by instance -/

theorem findHidContext_updateContext {f : HIDServiceContext → HIDServiceContext}
    (hf : ∀ context, (f context).serviceInstance = context.serviceInstance) (i j : Nat)
      (l : List HIDServiceContext) :
    findHidContext (updateContext i f l) j = if i = j then (findHidContext l j).map f else findHidContext l j := by
  unfold findHidContext
  induction l with
  | nil => simp [updateContext]
  | cons context rest ih =>
    unfold updateContext
    by_cases hi : context.serviceInstance = i
    · rw [if_pos hi, List.find?_cons, List.find?_cons, hf]
      by_cases hij : i = j
      · simp [hi, hij]
      · simp [hi, hij, beq_false_of_ne hij]
    · rw [if_neg hi, List.find?_cons, List.find?_cons, ih]
      by_cases hj : context.serviceInstance = j
      · simp [hj, show i ≠ j from fun h => hi (hj.trans h.symm)]
      · simp [beq_false_of_ne hj]

theorem updateContext_instances {f : HIDServiceContext → HIDServiceContext}
    (hf : ∀ context, (f context).serviceInstance = context.serviceInstance) (i : Nat) (l : List HIDServiceContext) :
    (updateContext i f l).map (·.serviceInstance) = l.map (·.serviceInstance) := by
  induction l with
  | nil => rfl
  | cons context rest ih =>
    unfold updateContext
    split
    · simp [hf]
    · simp [ih]

def reportMapOf (contexts : List HIDServiceContext) (i : Nat) : Option HIDReportMap :=
  (findHidContext contexts i).bind (·.reportMap)

def modeHandleOf (contexts : List HIDServiceContext) (i : Nat) : Option Nat :=
  (findHidContext contexts i).map (·.protocolModeHandle)

theorem reportMapOf_updateContext {f : HIDServiceContext → HIDServiceContext}
    (hf : ∀ context, (f context).serviceInstance = context.serviceInstance)
    (hmap : ∀ context, (f context).reportMap = context.reportMap) (i j : Nat) (l : List HIDServiceContext) :
    reportMapOf (updateContext i f l) j = reportMapOf l j := by
  unfold reportMapOf
  rw [findHidContext_updateContext hf]
  split
  · cases findHidContext l j <;> simp [hmap]
  · rfl

theorem modeHandleOf_updateContext {f : HIDServiceContext → HIDServiceContext}
    (hf : ∀ context, (f context).serviceInstance = context.serviceInstance)
    (hhandle : ∀ context, (f context).protocolModeHandle = context.protocolModeHandle) (i j : Nat)
    (l : List HIDServiceContext) : modeHandleOf (updateContext i f l) j = modeHandleOf l j := by
  unfold modeHandleOf
  rw [findHidContext_updateContext hf]
  split
  · cases findHidContext l j <;> simp [hhandle]
  · rfl

theorem findHidContext_fixed (l : List HIDServiceContext) (i : Nat) :
    findHidContext (l.map (·.fixed)) i = (findHidContext l i).map (·.fixed) := by
  unfold findHidContext
  rw [List.find?_map]
  rfl

theorem reportMapOf_fixed (l : List HIDServiceContext) (i : Nat) :
    reportMapOf (l.map (·.fixed)) i = (reportMapOf l i).map (·.resetRuntimeState) := by
  unfold reportMapOf
  rw [findHidContext_fixed]
  cases findHidContext l i <;> rfl

theorem modeHandleOf_fixed (l : List HIDServiceContext) (i : Nat) :
    modeHandleOf (l.map (·.fixed)) i = modeHandleOf l i := by
  unfold modeHandleOf
  rw [findHidContext_fixed]
  cases findHidContext l i <;> rfl

theorem findHidContext_of_mem {l : List HIDServiceContext} (hdistinct : (l.map (·.serviceInstance)).Nodup)
    {context : HIDServiceContext} (h : context ∈ l) : findHidContext l context.serviceInstance = some context := by
  unfold findHidContext
  induction l with
  | nil => simp at h
  | cons head rest ih =>
    rw [List.map_cons, List.nodup_cons] at hdistinct
    rcases List.mem_cons.mp h with rfl | hrest
    · simp
    · have hne : head.serviceInstance ≠ context.serviceInstance := by
        intro heq
        exact hdistinct.1 (heq ▸ List.mem_map_of_mem hrest)
      rw [List.find?_cons_of_neg (by simpa using hne)]
      exact ih hdistinct.2 hrest

theorem findHidContext_isSome {l : List HIDServiceContext} {i : Nat} :
    (findHidContext l i).isSome = true ↔ i ∈ l.map (·.serviceInstance) := by
  unfold findHidContext
  simp [List.find?_isSome]

theorem mem_updateSource {handle : Nat} {f : HIDReportSource → HIDReportSource}
    {sources : List (Nat × HIDReportSource)}
    {entry : Nat × HIDReportSource} (h : entry ∈ updateSource handle f sources) :
    entry ∈ sources ∨ ∃ source, entry.2 = f source := by
  induction sources with
  | nil =>
    obtain rfl := List.mem_singleton.mp h
    exact .inr ⟨{}, rfl⟩
  | cons head rest ih =>
    unfold updateSource at h
    split at h
    · rcases List.mem_cons.mp h with rfl | hrest
      · exact .inr ⟨head.2, rfl⟩
      · exact .inl (List.mem_cons_of_mem _ hrest)
    · rcases List.mem_cons.mp h with rfl | hrest
      · exact .inl List.mem_cons_self
      · exact (ih hrest).imp_left (List.mem_cons_of_mem _)

/-! ## One characteristic -/

/-- The handle of the last Protocol Mode characteristic. -/
def lastMode (characteristics : List GattCharacteristicInfo) (last : Nat) : Nat :=
  characteristics.foldl (fun last characteristic =>
    if uuid16 characteristic.uuid uuidHidProtocolMode then characteristic.handle else last) last

namespace BLEClientHID

section

variable (service : GattServiceInfo) (s : BLEClientHID)

theorem profileCharacteristic_instances (characteristic : GattCharacteristicInfo) :
    (s.profileCharacteristic service characteristic).hidServices.map (·.serviceInstance) =
      s.hidServices.map (·.serviceInstance) := by
  unfold profileCharacteristic
  split
  · dsimp only
    split <;> split <;> simp [claimInput, updateContext_instances]
  · rfl

theorem profileCharacteristic_reportMapOf (characteristic : GattCharacteristicInfo) (i : Nat) :
    reportMapOf (s.profileCharacteristic service characteristic).hidServices i = reportMapOf s.hidServices i := by
  unfold profileCharacteristic
  split
  · dsimp only
    split <;> split <;> simp [claimInput, reportMapOf_updateContext]
  · rfl

theorem profileCharacteristic_modeHandleOf (characteristic : GattCharacteristicInfo) (i : Nat) :
    modeHandleOf (s.profileCharacteristic service characteristic).hidServices i =
      (modeHandleOf s.hidServices i).map fun old =>
        if service.serviceInstance = i then lastMode [characteristic] old else old := by
  unfold profileCharacteristic lastMode
  split
  · rename_i uuid huuid
    dsimp only
    have hclaim : (if isInputUuid uuid = true then s.claimInput service characteristic.handle uuid else
      s).hidServices =
        s.hidServices := by split <;> rfl
    split
    · rename_i hmode
      simp only [modeHandleOf, hclaim]
      rw [findHidContext_updateContext
        (f := fun context => { context with protocolModeHandle := characteristic.handle }) (fun _ => rfl)]
      by_cases hi : service.serviceInstance = i
      · simp [hi, huuid, uuid16, hmode, Function.comp_def]
      · simp [hi, Function.comp_def]
    · rename_i hmode
      simp [hclaim, huuid, uuid16, hmode]
  · rename_i huuid
    have hnot : uuid16 characteristic.uuid uuidHidProtocolMode = false := by
      unfold uuid16
      split
      · rename_i value hvalue
        exact absurd hvalue (huuid value)
      · rfl
    simp [hnot]

theorem profileCharacteristic_sources (characteristic : GattCharacteristicInfo) {entry : Nat × HIDReportSource}
    (h : entry ∈ (s.profileCharacteristic service characteristic).handleReportSource) :
    entry ∈ s.handleReportSource ∨ entry.2.serviceInstance = service.serviceInstance := by
  have hclaim {uuid : Nat} (h : entry ∈ (s.claimInput service characteristic.handle uuid).handleReportSource) :
      entry ∈ s.handleReportSource ∨ entry.2.serviceInstance = service.serviceInstance := by
    refine (mem_updateSource h).imp_right ?_
    rintro ⟨source, heq⟩
    rw [heq]
  unfold profileCharacteristic at h
  split at h
  · dsimp only at h
    split at h <;> split at h
    · exact hclaim h
    · exact .inl h
    · exact hclaim h
    · exact .inl h
  · exact .inl h

/-! ## One service -/

theorem foldl_profileCharacteristic (l : List GattCharacteristicInfo) :
    (l.foldl (profileCharacteristic service) s).hidServices.map (·.serviceInstance) =
        s.hidServices.map (·.serviceInstance) ∧
      (∀ i, reportMapOf (l.foldl (profileCharacteristic service) s).hidServices i = reportMapOf s.hidServices i) ∧
      (∀ i, modeHandleOf (l.foldl (profileCharacteristic service) s).hidServices i =
        (modeHandleOf s.hidServices i).map fun old => if service.serviceInstance = i then lastMode l old else old) ∧
      ∀ entry ∈ (l.foldl (profileCharacteristic service) s).handleReportSource,
        entry ∈ s.handleReportSource ∨ entry.2.serviceInstance = service.serviceInstance := by
  induction l generalizing s with
  | nil =>
    exact ⟨rfl, fun i => rfl, fun i => by simp [lastMode], fun entry h => .inl h⟩
  | cons characteristic rest ih =>
    obtain ⟨hinstances, hmaps, hmodes, hsources⟩ := ih (s.profileCharacteristic service characteristic)
    rw [List.foldl_cons]
    refine ⟨hinstances.trans (s.profileCharacteristic_instances service characteristic), fun i => ?_, fun i => ?_,
      fun entry h => ?_⟩
    · rw [hmaps, profileCharacteristic_reportMapOf]
    · rw [hmodes, profileCharacteristic_modeHandleOf, Option.map_map]
      by_cases hi : service.serviceInstance = i <;> simp [hi, lastMode, Function.comp_def]
    · rcases hsources entry h with hold | hnew
      · exact s.profileCharacteristic_sources service characteristic hold
      · exact .inr hnew

theorem checkReferences_same (i : Nat) : (s.checkReferences i).hidServices = s.hidServices ∧
    (s.checkReferences i).handleReportSource = s.handleReportSource := by
  unfold checkReferences
  split
  · exact ⟨rfl, rfl⟩
  · split <;> exact ⟨rfl, rfl⟩

theorem checkReferences_checked {i : Nat} {m : HIDReportMap} (hmap : reportMapOf s.hidServices i = some m)
    (h : (s.checkReferences i).degraded = false) :
    ∀ entry ∈ s.handleReportSource, undefinedReference i m entry.2 = false := by
  obtain ⟨context, hcontext, hm⟩ := Option.bind_eq_some_iff.mp hmap
  unfold checkReferences at h
  rw [show s.findHidContext i = some context from hcontext] at h
  simp only [hm, Bool.or_eq_false_iff, List.any_eq_false, Bool.not_eq_true] at h
  exact h.2

theorem profileService_spec (hhid : uuid16 service.uuid uuidHidService = true) :
    (s.profileService service).hidServices.map (·.serviceInstance) = s.hidServices.map (·.serviceInstance) ∧
      (∀ i, reportMapOf (s.profileService service).hidServices i = reportMapOf s.hidServices i) ∧
      (∀ i, modeHandleOf (s.profileService service).hidServices i = (modeHandleOf s.hidServices i).map fun old =>
        if service.serviceInstance = i then lastMode service.characteristics old else old) ∧
      (∀ entry ∈ (s.profileService service).handleReportSource,
        entry ∈ s.handleReportSource ∨ entry.2.serviceInstance = service.serviceInstance) ∧
      ((s.profileService service).degraded = false → ∀ m,
        reportMapOf s.hidServices service.serviceInstance = some m →
        ∀ entry ∈ (s.profileService service).handleReportSource,
          undefinedReference service.serviceInstance m entry.2 = false) := by
  have hfold := s.foldl_profileCharacteristic service service.characteristics
  unfold profileService
  rw [hhid, Bool.not_true, if_neg (by simp)]
  generalize service.characteristics.foldl (profileCharacteristic service) s = t at hfold ⊢
  obtain ⟨hinstances, hmaps, hmodes, hsources⟩ := hfold
  obtain ⟨hcontexts, hsame⟩ := t.checkReferences_same service.serviceInstance
  rw [hcontexts, hsame]
  refine ⟨hinstances, hmaps, hmodes, hsources, fun hd m hm => ?_⟩
  rw [← hmaps] at hm
  exact t.checkReferences_checked hm hd

end

/-! ## All services -/

theorem degraded_of_profiles {s t : BLEClientHID} (h : Profiles s t) (ht : t.degraded = false) :
    s.degraded = false := by
  obtain ⟨d, contexts, sources, heq⟩ := h
  have hd : t.degraded = (s.degraded || d) := congrArg Setup.degraded heq
  rw [hd] at ht
  exact (Bool.or_eq_false_iff.mp ht).1

theorem buildHidProfiles_same (s : BLEClientHID) :
    s.buildHidProfiles.discoveryMode = s.discoveryMode ∧
      s.buildHidProfiles.protocolModePolicy = s.protocolModePolicy ∧ s.buildHidProfiles.services = s.services ∧
      s.buildHidProfiles.readQueue = s.readQueue ∧ s.buildHidProfiles.activeRead = s.activeRead ∧
      s.buildHidProfiles.trace = s.trace := by
  obtain ⟨d, contexts, sources, heq⟩ := s.buildHidProfiles_profiles
  exact ⟨congrArg Setup.discoveryMode heq, congrArg Setup.protocolModePolicy heq, congrArg Setup.services heq,
    congrArg Setup.readQueue heq, congrArg Setup.activeRead heq, congrArg Setup.trace heq⟩

/-- The contexts and sources after the fold; a source that changed belongs to a service of the list. -/
theorem foldl_profileService_same (l : List GattServiceInfo) (s : BLEClientHID) :
    (l.foldl profileService s).hidServices.map (·.serviceInstance) = s.hidServices.map (·.serviceInstance) ∧
      (∀ i, reportMapOf (l.foldl profileService s).hidServices i = reportMapOf s.hidServices i) ∧
      (∀ i, i ∉ l.map (·.serviceInstance) →
        modeHandleOf (l.foldl profileService s).hidServices i = modeHandleOf s.hidServices i) ∧
      ∀ entry ∈ (l.foldl profileService s).handleReportSource,
        entry ∈ s.handleReportSource ∨ entry.2.serviceInstance ∈ l.map (·.serviceInstance) := by
  induction l generalizing s with
  | nil => exact ⟨rfl, fun i => rfl, fun i _ => rfl, fun entry h => .inl h⟩
  | cons service rest ih =>
    obtain ⟨hinstances, hmaps, hmodes, hsources⟩ := ih (s.profileService service)
    rw [List.foldl_cons, List.map_cons]
    by_cases hhid : uuid16 service.uuid uuidHidService = true
    · obtain ⟨hinstances', hmaps', hmodes', hsources', -⟩ := s.profileService_spec service hhid
      refine ⟨hinstances.trans hinstances', fun i => (hmaps i).trans (hmaps' i), fun i hi => ?_, fun entry h => ?_⟩
      · rw [List.mem_cons, not_or] at hi
        rw [hmodes i hi.2, hmodes']
        simp [Ne.symm hi.1]
      · rcases hsources entry h with hold | hnew
        · exact (hsources' entry hold).imp_right fun h => by simp [h]
        · exact .inr (List.mem_cons_of_mem _ hnew)
    · have hskip : s.profileService service = s := by
        unfold profileService
        rw [if_pos (by simp [hhid])]
      rw [hskip] at hinstances hmaps hmodes hsources ⊢
      refine ⟨hinstances, hmaps, fun i hi => hmodes i fun h => hi (List.mem_cons_of_mem _ h), fun entry h => ?_⟩
      exact (hsources entry h).imp_right (List.mem_cons_of_mem _)

/-- The services of a list with distinct instances do not meddle with each other's profiles. -/
theorem foldl_profileService_spec (l : List GattServiceInfo) (hdistinct : (l.map (·.serviceInstance)).Nodup)
    (s : BLEClientHID) {service : GattServiceInfo} (hmem : service ∈ l)
    (hhid : uuid16 service.uuid uuidHidService = true) :
    modeHandleOf (l.foldl profileService s).hidServices service.serviceInstance =
        (modeHandleOf s.hidServices service.serviceInstance).map (lastMode service.characteristics) ∧
      ((l.foldl profileService s).degraded = false →
        ∀ m, reportMapOf s.hidServices service.serviceInstance = some m →
          ∀ entry ∈ (l.foldl profileService s).handleReportSource,
            undefinedReference service.serviceInstance m entry.2 = false) := by
  induction l generalizing s with
  | nil => simp at hmem
  | cons head rest ih =>
    rw [List.map_cons, List.nodup_cons] at hdistinct
    rw [List.foldl_cons]
    rcases List.mem_cons.mp hmem with rfl | hrest
    · -- the service itself comes first: the rest have other instances and leave its map alone
      obtain ⟨-, hmaps, hmodes, -, hchecked⟩ := s.profileService_spec service hhid
      obtain ⟨-, -, hmodes', hsources⟩ := foldl_profileService_same rest (s.profileService service)
      refine ⟨?_, fun hd m hm entry hentry => ?_⟩
      · rw [hmodes' _ hdistinct.1, hmodes]
        simp
      · have hd' := degraded_of_profiles (Profiles.foldl profileService_profiles rest _) hd
        -- a source added later belongs to another service
        rcases hsources entry hentry with hold | hnew
        · exact hchecked hd' m hm entry hold
        · have hother : (entry.2.serviceInstance == service.serviceInstance) = false := by
            refine beq_false_of_ne fun h => hdistinct.1 ?_
            rwa [← h]
          unfold undefinedReference
          simp [hother]
    · have hne : head.serviceInstance ≠ service.serviceInstance := by
        intro h
        exact hdistinct.1 (h ▸ List.mem_map_of_mem hrest)
      obtain ⟨hmode, hchecked⟩ := ih hdistinct.2 (s.profileService head) hrest
      by_cases hhead : uuid16 head.uuid uuidHidService = true
      · obtain ⟨-, hmaps, hmodes, -, -⟩ := s.profileService_spec head hhead
        refine ⟨?_, fun hd m hm => hchecked hd m ((hmaps _).trans hm)⟩
        rw [hmode, hmodes]
        simp [hne]
      · have hskip : s.profileService head = s := by
          unfold profileService
          rw [if_pos (by simp [hhead])]
        rw [hskip] at hmode hchecked ⊢
        exact ⟨hmode, hchecked⟩

end BLEClientHID

end BleClientHid

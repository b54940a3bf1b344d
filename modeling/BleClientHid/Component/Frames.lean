import BleClientHid.Component.Setup

/-! # What each part of the component leaves alone

Every function is its input with a few fields replaced.
-/

namespace BleClientHid

namespace BLEClientHID

open Setup

/-! ## Degradation -/

/-- The setup is marked degraded once for each reason. -/
def marks (reasons : List String) (s : BLEClientHID) : BLEClientHID :=
  { s with
    degraded := s.degraded || !reasons.isEmpty
    operationsFailed := s.operationsFailed + reasons.length
    trace := s.trace ++ reasons.map .degraded }

theorem marks_nil (s : BLEClientHID) : s.marks [] = s := by simp [marks]

theorem marks_single (reason : String) (s : BLEClientHID) : s.marks [reason] = s.markDegraded reason := by
  simp [marks, markDegraded]

theorem marks_marks (r r' : List String) (s : BLEClientHID) : (s.marks r).marks r' = s.marks (r ++ r') := by
  simp only [marks, List.length_append, List.map_append, List.append_assoc, Nat.add_assoc]
  cases r <;> simp

def OnlyMarks (s s' : BLEClientHID) : Prop := ∃ reasons, s' = s.marks reasons

namespace OnlyMarks

variable {s s' s'' : BLEClientHID}

theorem refl (s : BLEClientHID) : OnlyMarks s s := ⟨[], (marks_nil s).symm⟩

theorem trans (h : OnlyMarks s s') (h' : OnlyMarks s' s'') : OnlyMarks s s'' := by
  obtain ⟨r, rfl⟩ := h
  obtain ⟨r', rfl⟩ := h'
  exact ⟨r ++ r', marks_marks r r' s⟩

theorem mark (reason : String) (s : BLEClientHID) : OnlyMarks s (s.markDegraded reason) :=
  ⟨[reason], (marks_single reason s).symm⟩

end OnlyMarks

/-! ## The inventory -/

section

variable (env : Env)

theorem limitIncludes_marks (includeCount : Nat) (st : InventoryState) :
    OnlyMarks st.component (st.limitIncludes includeCount).component := by
  unfold InventoryState.limitIncludes
  split
  · exact .mark _ _
  · exact .refl _

theorem inventoryIncludes_marks (service : GattServiceInfo) (st : InventoryState) :
    OnlyMarks st.component (inventoryIncludes env service st).1.component := by
  simp only [inventoryIncludes]
  split
  · exact .refl _
  · split
    · exact limitIncludes_marks _ st
    · exact (limitIncludes_marks _ st).trans (.mark _ _)

theorem inventoryDescriptors_marks (characteristicHandle fuel offset : Nat) (st : InventoryState) :
    OnlyMarks st.component (inventoryDescriptors env characteristicHandle fuel offset st).1.component := by
  fun_induction inventoryDescriptors env characteristicHandle fuel offset st with
  | case1 | case2 | case3 => exact .refl _
  | case4 => exact .mark _ _
  | case5 fuel offset st _ status count elem _ _ _ descriptor _ _ _ hrest ih =>
    rw [hrest] at ih
    exact ih

theorem inventoryCharacteristic_marks (service : GattServiceInfo) (elem : CharElem)
    (st : InventoryState) :
    OnlyMarks st.component (inventoryCharacteristic env service elem st).1.component := by
  unfold inventoryCharacteristic
  generalize maxDescriptors = limit
  have hdescriptors := inventoryDescriptors_marks env elem.handle limit 0
    { st.update ("C:" ++ env.platform.uuidString elem.uuid ++ ":" ++ toString elem.properties ++ ";") with
      characteristicTotal := st.characteristicTotal + 1 }
  dsimp only
  split
  · exact hdescriptors.trans (.mark _ _)
  · exact hdescriptors

theorem inventoryCharacteristics_marks (service : GattServiceInfo) (fuel offset : Nat)
    (st : InventoryState) :
    OnlyMarks st.component (inventoryCharacteristics env service fuel offset st).1.component := by
  fun_induction inventoryCharacteristics env service fuel offset st with
  | case1 | case2 | case3 => exact .refl _
  | case4 => exact .mark _ _
  | case5 fuel offset st _ status count elem _ _ _ characteristic rest ih =>
    exact (inventoryCharacteristic_marks env service elem st).trans ih

theorem limitCharacteristics_marks (st : InventoryState) :
    OnlyMarks st.component st.limitCharacteristics.component := by
  unfold InventoryState.limitCharacteristics
  split
  · exact .mark _ _
  · exact .refl _

theorem inventoryContents_marks (service : GattServiceInfo) (st : InventoryState) :
    OnlyMarks st.component (inventoryContents env service st).1.component :=
  ((inventoryIncludes_marks env service st).trans
    (inventoryCharacteristics_marks env service maxCharacteristics 0 _)).trans
    (limitCharacteristics_marks _)

/-- `s` after marks, with the services numbered from 0 and a context for each HID service. -/
structure Catalogued (s : BLEClientHID) (services : List GattServiceInfo) (s' : BLEClientHID) : Prop where
  frame : ∃ t, OnlyMarks s t ∧ s' = { t with services, hidServices := contextsOf services }
  instances : services.map (·.serviceInstance) = List.range services.length

theorem OnlyMarks.replace {t t' : BLEClientHID} {services : List GattServiceInfo}
    {hidServices : List HIDServiceContext} (h : OnlyMarks { t with services, hidServices } t') :
    ∃ t'', OnlyMarks t t'' ∧ t' = { t'' with services, hidServices } := by
  obtain ⟨r, rfl⟩ := h
  exact ⟨t.marks r, ⟨r, rfl⟩, rfl⟩

theorem inventoryService_catalogued {s : BLEClientHID} {services : List GattServiceInfo}
    {st : InventoryState} (h : Catalogued s services st.component) (elem : ServiceElem) :
    ∃ service, Catalogued s (services ++ [service])
      (inventoryService env services.length elem st).component := by
  obtain ⟨⟨t, ht, hframe⟩, hinstances⟩ := h
  simp only [inventoryService]
  generalize hst : st.update _ = st'
  have hcomponent : st'.component = { t with services, hidServices := contextsOf services } := by
    rw [← hst, ← hframe]
    rfl
  have hmarks := inventoryContents_marks env (serviceInfo services.length elem) st'
  rw [hcomponent] at hmarks
  obtain ⟨t', ht', hframe'⟩ := hmarks.replace
  generalize hservice : (inventoryContents env (serviceInfo services.length elem) st').2 = service
  have hinstance : service.serviceInstance = services.length := by
    rw [← hservice]
    rfl
  refine ⟨service, ⟨t', ht.trans ht', ?_⟩, ?_⟩
  · rw [hframe']
    simp only [addService, contextsOf, List.filter_append, List.map_append]
    cases hhid : uuid16 service.uuid uuidHidService <;> simp [hhid]
  · simp [hinstances, hinstance, List.range_succ]

theorem inventoryServices_catalogued {s : BLEClientHID} (fuel : Nat) {services : List GattServiceInfo}
    {st : InventoryState} (h : Catalogued s services st.component) :
    ∃ services', Catalogued s services' (inventoryServices env fuel services.length st).1.component := by
  induction fuel generalizing services st with
  | zero => exact ⟨services, h⟩
  | succ fuel ih =>
    simp only [inventoryServices]
    split
    · exact ⟨services, h⟩
    · split
      · exact ⟨services, h⟩
      · obtain ⟨service, hservice⟩ := inventoryService_catalogued env h _
        have := ih hservice
        rwa [List.length_append, List.length_singleton] at this

theorem limitServices_catalogued {t : BLEClientHID} {services : List GattServiceInfo}
    {hidServices : List HIDServiceContext} {st : InventoryState}
    (h : st.component = { t with services, hidServices }) :
    ∃ t', OnlyMarks t t' ∧ (limitServices st).component = { t' with services, hidServices } := by
  unfold limitServices
  split
  · refine ⟨t.markDegraded "service inventory limit exceeded", .mark _ t, ?_⟩
    rw [InventoryState.markDegraded, h]
    rfl
  · exact ⟨t, .refl t, h⟩

theorem inventoryGattDatabase_spec (s : BLEClientHID) :
    ∃ t services gattProfileHash, OnlyMarks s t ∧
      services.map (·.serviceInstance) = List.range services.length ∧
      (s.inventoryGattDatabase env).1 =
        { t with services, hidServices := contextsOf services, gattProfileHash } := by
  let init : InventoryState := { component := { s with services := [], hidServices := [] } }
  have hinit : Catalogued s [] init.component := ⟨⟨s, .refl s, rfl⟩, rfl⟩
  obtain ⟨services, ⟨t, ht, hframe⟩, hinstances⟩ := inventoryServices_catalogued env maxServices hinit
  rw [List.length_nil] at hframe
  unfold inventoryGattDatabase
  generalize inventoryServices env maxServices 0 _ = out at hframe ⊢
  dsimp only
  split
  · obtain ⟨t', ht', hlimit⟩ := limitServices_catalogued hframe
    exact ⟨t', services, _, ht.trans ht', hinstances, by rw [hlimit]⟩
  · exact ⟨t, services, t.gattProfileHash, ht, hinstances, hframe⟩

end

/-! ## The setup -/

/-- Nothing of the setup but degradation, and notes in the log. -/
def Touches (s s' : BLEClientHID) : Prop :=
  ∃ (d : Bool) (entries : List TraceEntry), Notes entries ∧ s'.setup = s.setup.marked d entries

theorem marked_marked (d d' : Bool) (entries entries' : List TraceEntry) (s : Setup) :
    (s.marked d entries).marked d' entries' = s.marked (d || d') (entries ++ entries') := by
  simp only [marked, Bool.or_assoc, List.append_assoc]

theorem marked_nil (s : Setup) : s.marked false [] = s := by simp only [marked, Bool.or_false, List.append_nil]

theorem notes_append {entries entries' : List TraceEntry} (h : Notes entries) (h' : Notes entries') :
    Notes (entries ++ entries') := List.forall_mem_append.mpr ⟨h, h'⟩

namespace Touches

variable {s s' s'' : BLEClientHID}

theorem data (h : s'.setup = s.setup) : Touches s s' :=
  ⟨false, [], by simp [Notes], by rw [h, marked_nil]⟩

theorem refl (s : BLEClientHID) : Touches s s := data rfl

theorem trans (h : Touches s s') (h' : Touches s' s'') : Touches s s'' := by
  obtain ⟨d, entries, hnotes, heq⟩ := h
  obtain ⟨d', entries', hnotes', heq'⟩ := h'
  exact ⟨d || d', entries ++ entries', notes_append hnotes hnotes', by rw [heq', heq, marked_marked]⟩

theorem onlyMarks (h : OnlyMarks s s') : Touches s s' := by
  obtain ⟨r, rfl⟩ := h
  refine ⟨!r.isEmpty, r.map .degraded, ?_, rfl⟩
  intro entry hentry
  obtain ⟨reason, -, rfl⟩ := List.mem_map.mp hentry
  rfl

theorem mark (reason : String) (s : BLEClientHID) : Touches s (s.markDegraded reason) :=
  onlyMarks (.mark reason s)

end Touches

/-- A required operation that fails marks the setup; another one is only counted. -/
theorem operationFailed_setup (required : Bool) (reason : String) (s : BLEClientHID) :
    ∃ entries, Notes entries ∧ (s.operationFailed required reason).setup = s.setup.marked required entries := by
  cases required with
  | true => exact ⟨[.degraded reason], by simp [Notes, TraceEntry.isNote], by
      simp only [operationFailed, if_true, markDegraded, setup, marked, Bool.or_true]⟩
  | false => exact ⟨[], by simp [Notes], by rw [marked_nil]; rfl⟩

/-! ## Reads -/

theorem map_updateContext {f g : HIDServiceContext → HIDServiceContext}
    (h : ∀ context, (f context).fixed = g context.fixed) (serviceInstance : Nat) (l : List HIDServiceContext) :
    (updateContext serviceInstance f l).map (·.fixed) =
      updateContext serviceInstance g (l.map (·.fixed)) := by
  induction l with
  | nil => rfl
  | cons context rest ih =>
    rw [updateContext, List.map_cons, updateContext, HIDServiceContext.fixed_serviceInstance]
    by_cases hinstance : context.serviceInstance = serviceInstance
    · rw [if_pos hinstance, if_pos hinstance, List.map_cons, h]
    · rw [if_neg hinstance, if_neg hinstance, List.map_cons, ih]

/-- A finished read stores its effect and leaves marks. -/
def Reads (operation : GattReadOperation) (s s' : BLEClientHID) : Prop :=
  ∃ contexts sources d entries, ReadEffect operation s.setup contexts sources d ∧ Notes entries ∧
    s'.setup = { s.setup with contexts, sources }.marked d entries

namespace Reads

variable {operation : GattReadOperation} {s s' : BLEClientHID}

theorem touches (h : Touches s s') (hpurpose : operation.purpose ≠ .hidReportMap) : Reads operation s s' := by
  obtain ⟨d, entries, hnotes, heq⟩ := h
  exact ⟨_, _, d, entries, .plain d fun h => absurd h hpurpose, hnotes, heq⟩

theorem marks (reason : String) (h : s'.setup = s.setup) : Reads operation s (s'.markDegraded reason) :=
  ⟨_, _, true, [.degraded reason], .plain true fun _ _ => rfl, by simp [Notes, TraceEntry.isNote], by
    rw [← h]
    simp only [markDegraded, setup, marked, Bool.or_true]⟩

theorem failed (reason : String) : Reads operation s (s.operationFailed operation.required reason) := by
  obtain ⟨entries, hnotes, heq⟩ := operationFailed_setup operation.required reason s
  exact ⟨_, _, operation.required, entries, .plain _ fun _ h => h, hnotes, heq⟩

end Reads

section

variable (env : Env) (operation : GattReadOperation) (value : List UInt8) (s : BLEClientHID)

theorem readPreferredConnectionParameters_touches :
    Touches s (readPreferredConnectionParameters env value s) := by
  unfold readPreferredConnectionParameters
  split
  · exact .data rfl
  · exact .mark _ s

theorem readBatteryLevel_touches : Touches s (readBatteryLevel env operation value s) := by
  cases value with
  | nil => exact (Touches.data rfl).trans (.mark _ _)
  | cons =>
    rw [readBatteryLevel, publishBattery_eq]
    exact .data rfl

theorem readHidInformation_touches : Touches s (readHidInformation operation value s) := by
  unfold readHidInformation
  split
  · exact .refl s
  · exact .mark _ s

theorem readProtocolMode_reads (h : operation.purpose = .hidProtocolMode) :
    Reads operation s (readProtocolMode operation value s) := by
  unfold readProtocolMode
  split
  · refine ⟨_, _, false, [], .protocolMode (value.getD 0 0).toNat h, by simp [Notes], ?_⟩
    let f := fun context : HIDServiceContext => { context with
      protocolMode := (value.getD 0 0).toNat, protocolModeHandle := operation.characteristicHandle }
    have hcontexts := map_updateContext (f := f) (g := f) (fun _ => rfl) operation.serviceInstance s.hidServices
    rw [marked_nil]
    exact congrArg (fun contexts => { s.setup with contexts }) hcontexts
  · exact .marks _ rfl

theorem readReportMap_reads (h : operation.purpose = .hidReportMap) :
    Reads operation s (readReportMap env operation value s) := by
  simp only [readReportMap]
  split
  · exact .marks _ rfl
  · generalize HidParser.parseReportMapData (.bytes value) = reportMap
    have hcontexts := map_updateContext (f := fun context : HIDServiceContext =>
        { context with reportMapHash := sha256 env.platform value, reportMap }) (g := fun context =>
        { context with
          reportMapHash := sha256 env.platform value, reportMap := reportMap.map (·.resetRuntimeState) })
      (fun _ => rfl) operation.serviceInstance s.hidServices
    cases reportMap with
    | none =>
      refine ⟨_, _, true, [.degraded "HID Report Map could not be parsed"], .reportMap
        (sha256 env.platform value) none h, by simp [Notes, TraceEntry.isNote], ?_⟩
      simp only [Option.isNone_none, if_true, markDegraded, setup, marked, Bool.or_true, hcontexts, Option.map_none]
    | some m =>
      refine ⟨_, _, false, [], .reportMap (sha256 env.platform value) (some m.resetRuntimeState) h,
        by simp [Notes], ?_⟩
      rw [marked_nil]
      simp only [Option.isNone_some, Bool.false_eq_true, if_false, setup, hcontexts, Option.map_some]

theorem readReportReference_reads (h : operation.purpose = .hidReportReference) :
    Reads operation s (readReportReference operation value s) := by
  have hmark (f : HIDReportSource → HIDReportSource) (reason : String) : Reads operation s
      ({ s with handleReportSource :=
          updateSource operation.characteristicHandle f s.handleReportSource }.markDegraded reason) := by
    refine ⟨_, _, true, [.degraded reason], .reference f true h, by simp [Notes, TraceEntry.isNote], ?_⟩
    simp only [markDegraded, setup, marked, Bool.or_true]
  simp only [readReportReference]
  split
  · split
    · exact hmark _ _
    · exact ⟨_, _, false, [], .reference _ false h, by simp [Notes], by rw [marked_nil]; rfl⟩
  · exact hmark _ _

theorem readValue_reads : Reads operation s (readValue env operation value s) := by
  have hcheck (p : Prop) [Decidable p] (reason : String) (h : operation.purpose ≠ .hidReportMap) :
      Reads operation s (if p then s else s.markDegraded reason) := by
    split
    · exact .touches (.refl s) h
    · exact .marks _ rfl
  unfold readValue
  split <;> rename_i hpurpose
  · exact hcheck _ _ (by simp [hpurpose])
  · exact .touches (readPreferredConnectionParameters_touches env value s) (by simp [hpurpose])
  · exact .touches (readBatteryLevel_touches env operation value s) (by simp [hpurpose])
  · exact hcheck _ _ (by simp [hpurpose])
  · exact .touches (readHidInformation_touches operation value s) (by simp [hpurpose])
  · exact readProtocolMode_reads operation value s hpurpose
  · exact readReportMap_reads env operation value s hpurpose
  · exact readReportReference_reads operation value s hpurpose
  · exact hcheck _ _ (by simp [hpurpose])
  · exact .touches (.refl s) (by assumption)

end

theorem processReadValue_reads (env : Env) (operation : GattReadOperation) (value : Buffer)
    (s : BLEClientHID) : Reads operation s (processReadValue env operation value s) := by
  rw [processReadValue.eq_def]
  split
  · split
    · exact .marks _ rfl
    · rename_i hrequired
      refine ⟨_, _, false, [], .plain false fun _ h => absurd h hrequired, by simp [Notes], ?_⟩
      rw [marked_nil]
  · exact readValue_reads env operation [] s
  · exact readValue_reads env operation _ s

theorem finishActiveRead_reads (env : Env) (status : GattStatus) (value : Buffer) {s : BLEClientHID}
    {operation : GattReadOperation} (h : s.activeRead = some operation) :
    Reads operation { s with activeRead := none } (s.finishActiveRead env status value) := by
  simp only [finishActiveRead, h]
  split
  · exact .failed _
  · split
    · exact .failed _
    · exact processReadValue_reads env operation value
        { s with activeRead := none, operationsSucceeded := s.operationsSucceeded + 1 }

theorem OnlyMarks.degraded_of {s t : BLEClientHID} (h : OnlyMarks s t) (ht : t.degraded = false) :
    s.degraded = false := by
  obtain ⟨r, rfl⟩ := h
  exact (Bool.or_eq_false_iff.mp ht).1

theorem markDegraded_degraded (reason : String) (s : BLEClientHID) : (s.markDegraded reason).degraded = true := rfl

theorem firstReads_filter_seen {operation : GattReadOperation} {handles : Finset Nat}
    (h : operation.handle ∈ handles) (wanted : List GattReadOperation) :
    (firstReads (operation :: wanted)).filter (·.handle ∉ handles) =
      (firstReads wanted).filter (·.handle ∉ handles) := by
  rw [firstReads, List.filter_cons_of_neg (by simpa using h), List.filter_filter]
  apply List.filter_congr
  intro op _
  by_cases hsame : op.handle = operation.handle
  · simp [hsame, h]
  · simp [hsame]

theorem firstReads_filter_new {operation : GattReadOperation} {handles : Finset Nat}
    (h : operation.handle ∉ handles) (wanted : List GattReadOperation) :
    (firstReads (operation :: wanted)).filter (·.handle ∉ handles) =
      operation :: (firstReads wanted).filter (·.handle ∉ insert operation.handle handles) := by
  rw [firstReads, List.filter_cons_of_pos (by simpa using h), List.filter_filter]
  congr 1
  apply List.filter_congr
  intro op _
  by_cases hsame : op.handle = operation.handle <;> simp [hsame]

theorem foldl_addRead_spec (wanted : List GattReadOperation) (t : BLEClientHID)
    (queue : List GattReadOperation) (handles : Finset Nat) :
    ∃ t' more handles', OnlyMarks t t' ∧
      (t'.degraded = false → more = (firstReads wanted).filter (·.handle ∉ handles)) ∧
      wanted.foldl addRead { t with readQueue := queue, plannedReadHandles := handles } =
        { t' with readQueue := queue ++ more, plannedReadHandles := handles' } := by
  induction wanted generalizing t queue handles with
  | nil => exact ⟨t, [], handles, .refl t, fun _ => rfl, by rw [List.append_nil]; rfl⟩
  | cons operation wanted ih =>
    rw [List.foldl_cons, addRead]
    split
    · rename_i hplanned
      obtain ⟨t', more, handles', ht', hmore, heq⟩ := ih t queue handles
      refine ⟨t', more, handles', ht', fun hd => ?_, heq⟩
      rw [hmore hd, firstReads_filter_seen hplanned]
    · rename_i hnew
      split
      · obtain ⟨t', more, handles', ht', -, heq⟩ := ih (t.markDegraded "read operation limit exceeded")
          queue handles
        refine ⟨t', more, handles', (OnlyMarks.mark _ t).trans ht', fun hd => ?_, heq⟩
        have hmarked := ht'.degraded_of hd
        simp [markDegraded_degraded] at hmarked
      · obtain ⟨t', more, handles', ht', hmore, heq⟩ :=
          ih t (queue ++ [operation]) (insert operation.handle handles)
        refine ⟨t', operation :: more, handles', ht', fun hd => ?_, ?_⟩
        · rw [hmore hd, firstReads_filter_new hnew]
        · exact heq.trans (by rw [List.append_assoc, List.singleton_append])

/-- Planning queues the first read of each handle, or marks the setup. -/
theorem planReads_spec (s : BLEClientHID) :
    ∃ t queue handles, OnlyMarks s t ∧
      (t.degraded = false → queue = firstReads (wantedReads s.discoveryMode s.services)) ∧
      s.planReads = { t with readQueue := queue, plannedReadHandles := handles } := by
  obtain ⟨t, queue, handles, ht, hqueue, heq⟩ :=
    foldl_addRead_spec (wantedReads s.discoveryMode s.services) s [] ∅
  refine ⟨t, queue, handles, ht, fun hd => ?_, heq⟩
  rw [hqueue hd, List.filter_eq_self.mpr (by simp)]

/-! ## Profiles -/

/-- The profiles replace the contexts and the sources, and degrade without a mark. -/
def Profiles (s s' : BLEClientHID) : Prop :=
  ∃ d contexts sources, s'.setup = { s.setup with degraded := s.degraded || d, contexts, sources }

namespace Profiles

variable {s s' s'' : BLEClientHID}

theorem same (h : s'.degraded = s.degraded)
    (h' : s'.setup = { s.setup with degraded := s'.degraded, contexts := s'.setup.contexts, sources :=
      s'.setup.sources }) :
    Profiles s s' := ⟨false, s'.setup.contexts, s'.setup.sources, by rw [Bool.or_false, ← h]; exact h'⟩

theorem trans (h : Profiles s s') (h' : Profiles s' s'') : Profiles s s'' := by
  obtain ⟨d, contexts, sources, heq⟩ := h
  obtain ⟨d', contexts', sources', heq'⟩ := h'
  refine ⟨d || d', contexts', sources', ?_⟩
  have hdegraded : s'.degraded = (s.degraded || d) := congrArg Setup.degraded heq
  rw [heq', heq, hdegraded, Bool.or_assoc]

theorem foldl {α : Type} {f : BLEClientHID → α → BLEClientHID} (h : ∀ s a, Profiles s (f s a))
    (l : List α) (s : BLEClientHID) : Profiles s (l.foldl f s) := by
  induction l generalizing s with
  | nil => exact .same rfl rfl
  | cons a l ih => exact (h s a).trans (ih (f s a))

end Profiles

theorem profileCharacteristic_profiles (service : GattServiceInfo) (s : BLEClientHID)
    (characteristic : GattCharacteristicInfo) : Profiles s (s.profileCharacteristic service characteristic) := by
  have hclaim (uuid : Nat) : Profiles s (s.claimInput service characteristic.handle uuid) :=
    ⟨!isBootInputUuid uuid && !(s.sourceOf characteristic.handle).hasReportId, _, _, rfl⟩
  unfold profileCharacteristic
  split
  · rename_i uuid _
    dsimp only
    split <;> split
    · exact (hclaim uuid).trans (.same rfl rfl)
    · exact .same rfl rfl
    · exact hclaim uuid
    · exact .same rfl rfl
  · exact .same rfl rfl

theorem checkReferences_profiles (serviceInstance : Nat) (s : BLEClientHID) :
    Profiles s (s.checkReferences serviceInstance) := by
  unfold checkReferences
  split
  · exact .same rfl rfl
  · split
    · exact .same rfl rfl
    · exact ⟨_, _, _, rfl⟩

theorem profileService_profiles (s : BLEClientHID) (service : GattServiceInfo) :
    Profiles s (s.profileService service) := by
  unfold profileService
  split
  · exact .same rfl rfl
  · exact (Profiles.foldl (profileCharacteristic_profiles service) _ s).trans (checkReferences_profiles _ _)

theorem buildHidProfiles_profiles (s : BLEClientHID) : Profiles s s.buildHidProfiles :=
  Profiles.foldl profileService_profiles s.services s

theorem finalizeSetup_setup (env : Env) (s : BLEClientHID) :
    ∃ entries, Notes entries ∧ (s.finalizeSetup env).setup = s.setup.finish entries := by
  refine ⟨if s.preferredConnParamsValid then [.updateConnParams] else [], ?_, ?_⟩
  · split <;> simp [Notes, TraceEntry.isNote]
  · simp only [finalizeSetup, Setup.finish]
    cases s.preferredConnParamsValid <;> cases hd : s.degraded <;>
      simp [hd, setup, append, goto, log, transition]

/-! ## Subscriptions -/

/-- Of a service, every subscription is queued behind the others, or the setup is marked. -/
theorem planCharacteristics_spec (service : GattServiceInfo) (characteristics : List GattCharacteristicInfo)
    (t : BLEClientHID) (queue : List SubscriptionInfo) (battery changed : Finset Nat) :
    ∃ more battery' changed' t', OnlyMarks t t' ∧
      (t'.degraded = false → ∀ characteristic ∈ characteristics,
        subscribes t.discoveryMode service characteristic = true → subscription service characteristic ∈ more) ∧
      planCharacteristics service characteristics { t with
        subscriptionQueue := queue, batteryHandles := battery, serviceChangedHandles := changed } = { t' with
        subscriptionQueue := queue ++ more, batteryHandles := battery', serviceChangedHandles := changed' } := by
  induction characteristics generalizing t queue battery changed with
  | nil => exact ⟨[], battery, changed, t, .refl t, by simp, by rw [List.append_nil]; rfl⟩
  | cons characteristic characteristics ih =>
    unfold planCharacteristics
    split
    · rename_i hskip
      obtain ⟨more, battery', changed', t', ht', hmore, heq⟩ := ih t queue battery changed
      refine ⟨more, battery', changed', t', ht', fun hd => List.forall_mem_cons.mpr ⟨fun h => ?_, hmore hd⟩, heq⟩
      simp [h] at hskip
    · split
      · refine ⟨[], battery, changed, t.markDegraded "subscription limit exceeded", .mark _ t, ?_, ?_⟩
        · simp [markDegraded_degraded]
        · rw [List.append_nil]
          rfl
      · obtain ⟨more, battery', changed', t', ht', hmore, heq⟩ :=
          ih t (queue ++ [subscription service characteristic]) _ _
        refine ⟨subscription service characteristic :: more, battery', changed', t', ht', fun hd => ?_, ?_⟩
        · refine List.forall_mem_cons.mpr ⟨fun _ => List.mem_cons_self, fun c hc h => ?_⟩
          exact List.mem_cons_of_mem _ (hmore hd c hc h)
        · exact heq.trans (by rw [List.append_assoc, List.singleton_append])

theorem OnlyMarks.discoveryMode {s t : BLEClientHID} (h : OnlyMarks s t) : t.discoveryMode = s.discoveryMode := by
  obtain ⟨r, rfl⟩ := h
  rfl

theorem foldl_planCharacteristics_spec (services : List GattServiceInfo) (t : BLEClientHID)
    (queue : List SubscriptionInfo) (battery changed : Finset Nat) :
    ∃ more battery' changed' t', OnlyMarks t t' ∧
      (t'.degraded = false → ∀ service ∈ services, ∀ characteristic ∈ service.characteristics,
        subscribes t.discoveryMode service characteristic = true → subscription service characteristic ∈ more) ∧
      services.foldl (fun s service => planCharacteristics service service.characteristics s) { t with
        subscriptionQueue := queue, batteryHandles := battery, serviceChangedHandles := changed } = { t' with
        subscriptionQueue := queue ++ more, batteryHandles := battery', serviceChangedHandles := changed' } := by
  induction services generalizing t queue battery changed with
  | nil => exact ⟨[], battery, changed, t, .refl t, by simp, by rw [List.append_nil]; rfl⟩
  | cons service services ih =>
    obtain ⟨here, battery', changed', t', ht', hhere, heq⟩ :=
      planCharacteristics_spec service service.characteristics t queue battery changed
    obtain ⟨more, battery'', changed'', t'', ht'', hmore, heq'⟩ := ih t' (queue ++ here) battery' changed'
    refine ⟨here ++ more, battery'', changed'', t'', ht'.trans ht'', fun hd => ?_, ?_⟩
    · refine List.forall_mem_cons.mpr ⟨fun c hc h => ?_, fun other hother c hc h => ?_⟩
      · exact List.mem_append_left _ (hhere (ht''.degraded_of hd) c hc h)
      · exact List.mem_append_right _ (hmore hd other hother c hc (by rwa [ht'.discoveryMode]))
    · rw [List.foldl_cons, heq, heq', List.append_assoc]

theorem planSubscriptions_spec (s : BLEClientHID) :
    ∃ queue battery changed t, OnlyMarks s t ∧
      (t.degraded = false → ∀ service ∈ s.services, ∀ characteristic ∈ service.characteristics,
        subscribes s.discoveryMode service characteristic = true → subscription service characteristic ∈ queue) ∧
      s.planSubscriptions = { t with
        subscriptionQueue := queue, batteryHandles := battery, serviceChangedHandles := changed } :=
  foldl_planCharacteristics_spec s.services s [] s.batteryHandles s.serviceChangedHandles

/-! ## Reports -/

/-- Reports, sampling, congestion and a pending rediscovery are beside the setup. -/
structure Beside (s t : BLEClientHID) : Prop where
  setup : t.setup = s.setup
  succeeded : t.operationsSucceeded = s.operationsSucceeded
  failed : t.operationsFailed = s.operationsFailed
  started : t.phaseStartedMs = s.phaseStartedMs

namespace Beside

variable {s t u : BLEClientHID}

theorem refl (s : BLEClientHID) : Beside s s := ⟨rfl, rfl, rfl, rfl⟩

theorem trans (h : Beside s t) (h' : Beside t u) : Beside s u :=
  ⟨h'.setup.trans h.setup, h'.succeeded.trans h.succeeded, h'.failed.trans h.failed, h'.started.trans h.started⟩

end Beside

theorem evictReports_beside (env : Env) (length fuel n : Nat) (s : BLEClientHID) :
    Beside s (evictReports env length fuel n s) := by
  induction fuel generalizing n s with
  | zero => exact .refl s
  | succ fuel ih =>
    rw [evictReports.eq_def]
    dsimp only
    split
    · exact .refl s
    · split
      · rename_i report rest _ _
        have hdrop : Beside s (s.dropOldest (env.overflowMs n) report rest) := ⟨rfl, rfl, rfl, rfl⟩
        exact hdrop.trans (ih _ _)
      · exact .refl s

theorem enqueueInputReport_beside (env : Env) (handle : Nat) (value : Buffer) (isNotify : Bool) (seqId : Nat)
    (s : BLEClientHID) : Beside s (enqueueInputReport env handle value isNotify seqId s) := by
  have hroom (payload : List UInt8) := evictReports_beside env payload.length s.pendingReports.length 0 s
  cases value with
  | null n =>
    cases n with
    | zero => exact (hroom []).trans ⟨rfl, rfl, rfl, rfl⟩
    | succ n => exact .refl s
  | bytes bytes =>
    simp only [enqueueInputReport]
    split
    · exact .refl s
    · exact (hroom bytes).trans ⟨rfl, rfl, rfl, rfl⟩

theorem handleNotification_beside (env : Env) (handle : Nat) (value : Buffer) (isNotify : Bool)
    (s : BLEClientHID) : Beside s (handleNotification env handle value isNotify s) := by
  unfold handleNotification
  dsimp only
  split
  · exact ⟨rfl, rfl, rfl, rfl⟩
  · split
    · split
      · rw [publishBattery_eq]
        exact ⟨rfl, rfl, rfl, rfl⟩
      · exact ⟨rfl, rfl, rfl, rfl⟩
    · have hdrawn : Beside s { s with nextSeqId := (s.nextSeqId + 1) % 2 ^ 64 } := ⟨rfl, rfl, rfl, rfl⟩
      split
      · exact hdrawn.trans (enqueueInputReport_beside env handle value isNotify _ _)
      · exact hdrawn

theorem parse_map_fixed (m : HIDReportMap) (source : HIDReportSource) (payload : List UInt8) :
    (HidParser.parse m source (.bytes payload)).map.resetRuntimeState = m.resetRuntimeState := by
  simp only [HidParser.parse]
  split
  · rfl
  · split
    · rfl
    · split
      · rfl
      · split <;> rfl

/-- A context that is replaced by one that differs only in what changes at runtime. -/
theorem updateContext_fixed {serviceInstance : Nat} {l : List HIDServiceContext} {context : HIDServiceContext}
    {f : HIDServiceContext → HIDServiceContext} (hfind : BleClientHid.findHidContext l serviceInstance =
      some context)
    (hf : (f context).fixed = context.fixed) :
    (updateContext serviceInstance f l).map (·.fixed) = l.map (·.fixed) := by
  induction l with
  | nil => rfl
  | cons head rest ih =>
    unfold updateContext
    rw [BleClientHid.findHidContext, List.find?_cons] at hfind
    by_cases hinstance : head.serviceInstance = serviceInstance
    · simp only [hinstance, beq_self_eq_true] at hfind
      obtain rfl := Option.some.inj hfind
      rw [if_pos hinstance, List.map_cons, List.map_cons, hf]
    · rw [beq_eq_false_iff_ne.mpr hinstance] at hfind
      rw [if_neg hinstance, List.map_cons, List.map_cons, ih hfind]

theorem decodeReport_beside (report : PendingHIDReport) (s : BLEClientHID) :
    Beside s (decodeReport report s).component := by
  unfold decodeReport
  split
  · exact ⟨rfl, rfl, rfl, rfl⟩
  · split
    · exact .refl s
    · rename_i m hm
      obtain ⟨context, hfind, hmap⟩ := Option.bind_eq_some_iff.mp hm
      have hfixed := updateContext_fixed (f := fun context => { context with
        reportMap := some (HidParser.parse m report.source (.bytes report.payload)).map }) hfind (by
          simp only [HIDServiceContext.fixed, Option.map_some, parse_map_fixed, hmap])
      exact ⟨by simp only [setup, hfixed], rfl, rfl, rfl⟩

theorem processReports_beside (env : Env) (fuel n : Nat) (s : BLEClientHID) :
    Beside s (processReports env fuel n s) := by
  induction fuel generalizing n s with
  | zero => exact .refl s
  | succ fuel ih =>
    rw [processReports.eq_def]
    dsimp only
    split
    · exact .refl s
    · split
      · rename_i report rest _ _
        have htaken : Beside s { s with
            pendingReports := rest, pendingReportBytes := s.pendingReportBytes - report.payload.length } :=
          ⟨rfl, rfl, rfl, rfl⟩
        have hdecoded := htaken.trans (decodeReport_beside report _)
        have hprocessed : Beside _ (processInputReport env (env.reportClock n) report { s with
            pendingReports := rest, pendingReportBytes := s.pendingReportBytes - report.payload.length }) :=
          hdecoded.trans ⟨rfl, rfl, rfl, rfl⟩
        exact hprocessed.trans (ih _ _)
      · exact .refl s

/-- The part of `loop()` before the reports. -/
def loopSetup (env : Env) (s : BLEClientHID) : BLEClientHID :=
  (s.requestPendingRediscovery.runPhase env).handlePhaseTimeout env

theorem loop_beside (env : Env) (s : BLEClientHID) : Beside (s.loopSetup env) (s.loop env) := by
  have hwindow (now : UInt32) (s : BLEClientHID) : Beside s (s.updateWindow now) := ⟨rfl, rfl, rfl, rfl⟩
  have hreports := (hwindow env.windowUs (s.loopSetup env)).trans
    (processReports_beside env maxReportsPerLoop 0 _)
  exact hreports.trans (hwindow env.windowEndUs _)

end BLEClientHID

end BleClientHid

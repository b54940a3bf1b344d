import BleClientHid.Component.Stages
import BleClientHid.HidParser.Identity
import BleClientHid.Lib.History

/-! # What a connection publishes

Whatever the setup does in between, the events of a connection are those of its reports,
on maps and a boot decoder that remember nothing and on an idle window.
-/

namespace BleClientHid

open Lib BLEClientHID HidParser

/-! ## Fresh profiles -/

theorem updateContext_forall {P : HIDServiceContext → Prop} {serviceInstance : Nat}
    {f : HIDServiceContext → HIDServiceContext} {l : List HIDServiceContext} (h : ∀ context ∈ l, P context)
    (hf : ∀ context, P context → P (f context)) : ∀ context ∈ updateContext serviceInstance f l, P context := by
  induction l with
  | nil => exact h
  | cons head rest ih =>
    obtain ⟨hhead, hrest⟩ := List.forall_mem_cons.mp h
    unfold updateContext
    split
    · exact List.forall_mem_cons.mpr ⟨hf head hhead, hrest⟩
    · exact List.forall_mem_cons.mpr ⟨hhead, ih hrest⟩

namespace Profile

/-- The profile without what the reports left in it. -/
def renewed (p : Profile) : Profile :=
  { p with hidServices := p.hidServices.map (·.fixed), bootDecoder := {} }

/-- Maps as they were parsed, and a boot decoder that has seen nothing. -/
structure Fresh (p : Profile) : Prop where
  maps : ∀ context ∈ p.hidServices, ∀ m, context.reportMap = some m → SchemaInv m ∧ m.runtime = fun _ => {}
  bootDecoder : p.bootDecoder = {}

theorem Fresh.renewed {p : Profile} (h : p.Fresh) : p.renewed = p := by
  have hcontexts : p.hidServices.map (·.fixed) = p.hidServices := by
    refine (List.map_congr_left fun context hcontext => ?_).trans (List.map_id _)
    unfold HIDServiceContext.fixed
    cases hmap : context.reportMap with
    | none => rw [Option.map_none, ← hmap]; rfl
    | some m =>
      have hm : m.resetRuntimeState = m := by
        rw [HIDReportMap.resetRuntimeState, ← (h.maps context hcontext m hmap).2]
      rw [Option.map_some, hm, ← hmap]
      rfl
  unfold Profile.renewed
  rw [hcontexts, ← h.bootDecoder]

/-- A change of one context that leaves its map alone, or that parses one. -/
theorem Fresh.update {p : Profile} (h : p.Fresh) (serviceInstance : Nat)
    {f : HIDServiceContext → HIDServiceContext}
    (hf : ∀ context m, (f context).reportMap = some m → context.reportMap = some m ∨
      SchemaInv m ∧ m.runtime = fun _ => {}) :
    Fresh { p with hidServices := updateContext serviceInstance f p.hidServices } := by
  refine ⟨updateContext_forall h.maps fun context hcontext m hm => ?_, h.bootDecoder⟩
  exact (hf context m hm).elim (hcontext m) id

theorem accept_renewed (p : Profile) (intake : Intake) : (p.accept intake).1.renewed = p.renewed := by
  cases intake with
  | window now => rfl
  | report platform clock report =>
    have hcontexts := congrArg Setup.contexts (decodeReport_beside report p.component).setup
    have hhandles : (decodeReport report p.component).component.hidReportHandles = p.hidReportHandles := by
      unfold decodeReport
      split
      · rfl
      · split <;> rfl
    obtain ⟨hservices, hinterval⟩ := decodeReport_services report p.component
    unfold accept renewed BLEClientHID.profile
    dsimp only
    rw [hservices, hinterval, hhandles]
    exact congrArg (fun contexts => ({ p with hidServices := contexts, bootDecoder := {} } : Profile)) hcontexts

end Profile

theorem Pipeline.acceptAll_renewed (p : Pipeline) (intakes : List Intake) :
    (p.acceptAll intakes).profile.renewed = p.profile.renewed := by
  induction intakes generalizing p with
  | nil => rfl
  | cons intake intakes ih => exact (ih _).trans (p.profile.accept_renewed intake)

/-! ## Idle windows -/

theorem Pipeline.accept_idle {p : Pipeline} (hidle : p.window.samplingWindowActive = false) {intake : Intake}
    (h : intake.report? = none) : p.accept intake = p := by
  cases intake with
  | report platform clock report => simp [Intake.report?] at h
  | window now =>
    have hstep : samplingStep p.profile.interval p.window (.window now) = (p.window, []) :=
      if_pos (.inl hidle)
    unfold accept Profile.accept
    dsimp only
    rw [hstep, List.append_nil]

theorem Pipeline.acceptAll_idle {p : Pipeline} (hidle : p.window.samplingWindowActive = false)
    {intakes : List Intake} (h : ∀ intake ∈ intakes, intake.report? = none) : p.acceptAll intakes = p := by
  induction intakes with
  | nil => rfl
  | cons intake intakes ih =>
    obtain ⟨hfirst, hrest⟩ := List.forall_mem_cons.mp h
    rw [acceptAll_cons, accept_idle hidle hfirst, ih hrest]

/-! ## While the profiles are built -/

namespace BLEClientHID

section

variable (env : Env) {s : BLEClientHID}

/-- The setup may have changed the maps, but not with the help of reports. -/
structure Renews (s t : BLEClientHID) : Prop where
  fresh : s.profile.Fresh → t.profile.Fresh
  interval : t.eventSamplingIntervalUs = s.eventSamplingIntervalUs

namespace Renews

variable {t u : BLEClientHID}

theorem of_profile (h : t.profile = s.profile) : Renews s t where
  fresh := by rw [h]; exact id
  interval := congrArg Profile.interval h

theorem trans (h : Renews s t) (h' : Renews t u) : Renews s u :=
  ⟨fun hfresh => h'.fresh (h.fresh hfresh), h'.interval.trans h.interval⟩

theorem update (serviceInstance : Nat) {f : HIDServiceContext → HIDServiceContext}
    (hf : ∀ context m, (f context).reportMap = some m → context.reportMap = some m ∨
      SchemaInv m ∧ m.runtime = fun _ => {}) :
    Renews s { s with hidServices := updateContext serviceInstance f s.hidServices } :=
  ⟨fun hfresh => hfresh.update serviceInstance hf, rfl⟩

end Renews

theorem inventoryGattDatabase_renews (s : BLEClientHID) :
    Renews s (s.inventoryGattDatabase env).1 ∧
      (s.inventoryGattDatabase env).1.hidReportHandles = s.hidReportHandles := by
  obtain ⟨t, services, hash, ⟨reasons, rfl⟩, -, heq⟩ := inventoryGattDatabase_spec env s
  rw [heq]
  refine ⟨⟨fun hfresh => ⟨?_, hfresh.bootDecoder⟩, rfl⟩, rfl⟩
  intro context hcontext m hm
  obtain ⟨service, -, rfl⟩ := List.mem_map.mp hcontext
  simp at hm

theorem readProtocolMode_renews (operation : GattReadOperation) (value : List UInt8) (s : BLEClientHID) :
    Renews s (readProtocolMode operation value s) ∧
      (readProtocolMode operation value s).hidReportHandles = s.hidReportHandles := by
  unfold readProtocolMode
  split
  · exact ⟨.update _ fun _ _ hm => .inl hm, rfl⟩
  · exact ⟨.of_profile rfl, rfl⟩

theorem readReportMap_renews (operation : GattReadOperation) (value : List UInt8) (s : BLEClientHID) :
    Renews s (readReportMap env operation value s) ∧
      (readReportMap env operation value s).hidReportHandles = s.hidReportHandles := by
  unfold readReportMap
  split
  · exact ⟨.of_profile rfl, rfl⟩
  · have hupdate : Renews s { s with hidServices := updateContext operation.serviceInstance (fun context =>
        { context with
          reportMapHash := sha256 env.platform value
          reportMap := parseReportMapData (.bytes value) }) s.hidServices } :=
      .update _ fun _ m (hm : parseReportMapData (.bytes value) = some m) => .inr (parseReportMapData_inv hm)
    dsimp only
    split
    · exact ⟨hupdate.trans (.of_profile rfl), rfl⟩
    · exact ⟨hupdate, rfl⟩

theorem readValue_renews (operation : GattReadOperation) (value : List UInt8) (s : BLEClientHID) :
    Renews s (readValue env operation value s) ∧
      (readValue env operation value s).hidReportHandles = s.hidReportHandles := by
  have hkeep {t : BLEClientHID} (h : t.profile = s.profile) :
      Renews s t ∧ t.hidReportHandles = s.hidReportHandles :=
    ⟨.of_profile h, congrArg Profile.hidReportHandles h⟩
  unfold readValue
  split
  · split <;> exact hkeep rfl
  · unfold readPreferredConnectionParameters
    split <;> exact hkeep rfl
  · unfold readBatteryLevel
    dsimp only
    split
    · rw [publishBattery_eq]
      exact hkeep rfl
    · exact hkeep rfl
  · split <;> exact hkeep rfl
  · unfold readHidInformation
    split <;> exact hkeep rfl
  · exact readProtocolMode_renews operation value s
  · exact readReportMap_renews env operation value s
  · unfold readReportReference
    dsimp only
    split
    · split <;> exact hkeep rfl
    · exact hkeep rfl
  · split <;> exact hkeep rfl
  · exact hkeep rfl

theorem finishActiveRead_renews (status : GattStatus) (value : Buffer) (s : BLEClientHID) :
    Renews s (s.finishActiveRead env status value) ∧
      (s.finishActiveRead env status value).hidReportHandles = s.hidReportHandles := by
  have hkeep {t : BLEClientHID} (h : t.profile = s.profile) :
      Renews s t ∧ t.hidReportHandles = s.hidReportHandles :=
    ⟨.of_profile h, congrArg Profile.hidReportHandles h⟩
  have hread (operation : GattReadOperation) (bytes : List UInt8) (t : BLEClientHID)
      (ht : t.profile = s.profile) : Renews s (readValue env operation bytes t) ∧
        (readValue env operation bytes t).hidReportHandles = s.hidReportHandles := by
    obtain ⟨hrenews, hhandles⟩ := readValue_renews env operation bytes t
    exact ⟨(hkeep ht).1.trans hrenews, hhandles.trans (hkeep ht).2⟩
  unfold finishActiveRead
  split
  · exact hkeep rfl
  · dsimp only
    split
    · exact hkeep (profile_of_fixture (operationFailed_fixture _ _ _))
    · split
      · exact hkeep (profile_of_fixture (operationFailed_fixture _ _ _))
      · unfold processReadValue
        split
        · split <;> exact hkeep rfl
        · exact hread _ _ _ rfl
        · exact hread _ _ _ rfl

theorem profileCharacteristic_renews (service : GattServiceInfo) (characteristic : GattCharacteristicInfo)
    (s : BLEClientHID) : Renews s (s.profileCharacteristic service characteristic) := by
  unfold profileCharacteristic
  split
  · rename_i uuid _
    have hclaim : Renews s (if isInputUuid uuid then s.claimInput service characteristic.handle uuid else s) := by
      split
      · exact ⟨fun hfresh => ⟨hfresh.maps, hfresh.bootDecoder⟩, rfl⟩
      · exact .of_profile rfl
    dsimp only
    split
    · exact hclaim.trans (.update _ fun _ _ hm => .inl hm)
    · exact hclaim
  · exact .of_profile rfl

theorem profileService_renews (service : GattServiceInfo) (s : BLEClientHID) :
    Renews s (s.profileService service) := by
  unfold profileService
  split
  · exact .of_profile rfl
  · refine Renews.trans (t := service.characteristics.foldl (profileCharacteristic service) s) ?_ ?_
    · exact List.foldlRecOn (motive := Renews s) _ _ (.of_profile rfl)
        fun t ht characteristic _ => ht.trans (profileCharacteristic_renews service characteristic t)
    · unfold checkReferences
      split
      · exact .of_profile rfl
      · split <;> exact .of_profile rfl

theorem buildHidProfiles_renews (s : BLEClientHID) : Renews s s.buildHidProfiles := by
  unfold buildHidProfiles
  exact List.foldlRecOn (motive := Renews s) _ _ (.of_profile rfl)
    fun t ht service _ => ht.trans (profileService_renews service t)

/-! ## The stages beside the setup -/

/-- A function apart from the report side leaves window, events and queue. -/
theorem Apart.stages {f : BLEClientHID → BLEClientHID} (hf : Apart f) (s : BLEClientHID) :
    (f s).window = s.window ∧ (f s).hidEvents = s.hidEvents ∧ (f s).pendingReports = s.pendingReports := by
  have hreports := hf.reports s
  obtain ⟨levels, hlevels⟩ := hf s
  have hself := hlevels s.reports s.outputs
  rw [reshape_self] at hself
  have houtputs : (f s).outputs = s.outputs ++ levels.map .battery := congrArg BLEClientHID.outputs hself
  refine ⟨congrArg ReportSide.window hreports, ?_, congrArg ReportSide.pendingReports hreports⟩
  unfold hidEvents
  rw [houtputs, List.filterMap_append, filterMap_levels, List.append_nil]

theorem handleNotification_hidEvents (handle : Nat) (value : Buffer) (isNotify : Bool) (s : BLEClientHID) :
    (s.handleNotification env handle value isNotify).hidEvents = s.hidEvents := by
  rw [handleNotification_eq]
  unfold receive
  split
  · rfl
  · split
    · split
      · exact ((publishBattery_apart env _).stages _).2.1
      · rfl
    · split
      · have hevents := congrArg hidEvents (enqueueInputReport_withReports env s.logRawNotification.1 s.reports handle
          value isNotify s.nextSeqId)
        exact hevents
      · rfl

theorem handleNotification_unclaimed (handle : Nat) (value : Buffer) (isNotify : Bool)
    (h : s.hidReportHandles = ∅) :
    (s.handleNotification env handle value isNotify).pendingReports = s.pendingReports := by
  rw [handleNotification_eq]
  unfold receive
  have hhandles : s.logRawNotification.1.hidReportHandles = ∅ := h
  rw [hhandles, if_neg (Finset.notMem_empty handle)]
  split
  · rfl
  · split
    · split
      · rw [publishBattery_eq]
        rfl
      · rfl
    · rfl

theorem handleGattcEvent_stages {event : GattcEvent} (hreset : resetsConnection env event = false) :
    (s.handleGattcEvent env event).window = s.window ∧ (s.handleGattcEvent env event).hidEvents = s.hidEvents ∧
      (s.hidReportHandles = ∅ → (s.handleGattcEvent env event).pendingReports = s.pendingReports) := by
  have happart {f : BLEClientHID → BLEClientHID} (hf : Apart f) :
      (f s).window = s.window ∧ (f s).hidEvents = s.hidEvents ∧
        (s.hidReportHandles = ∅ → (f s).pendingReports = s.pendingReports) :=
    ⟨(hf.stages s).1, (hf.stages s).2.1, fun _ => (hf.stages s).2.2⟩
  have hself := happart id_silent.apart
  cases event with
  | connect remoteBda | disconnect remoteBda =>
    rw [handleGattcEvent, if_neg (by simpa [resetsConnection] using hreset)]
    exact hself
  | searchCmpl connId status =>
    rw [handleGattcEvent]
    split
    · exact happart (handleSearchComplete_silent env status).apart
    · exact hself
  | read connId handle status value =>
    rw [handleGattcEvent]
    split
    · exact happart (handleRead_apart env handle status value)
    · exact hself
  | regForNotify handle status => exact happart (handleRegistrationResult_silent env handle status).apart
  | writeDescr connId handle status =>
    rw [handleGattcEvent]
    split
    · exact happart (handleCccdResult_silent env handle status).apart
    · exact hself
  | notify connId remoteBda handle value isNotify =>
    rw [handleGattcEvent]
    split
    · exact ⟨handleNotification_window env handle value isNotify s,
        handleNotification_hidEvents env handle value isNotify s,
        handleNotification_unclaimed env handle value isNotify⟩
    · exact hself
  | srvcChg | congest | queueFull =>
    rw [handleGattcEvent]
    split
    · exact ⟨rfl, rfl, fun _ => rfl⟩
    · exact hself
  | other => exact hself

theorem handleGattcEvent_renews {event : GattcEvent} (hreset : resetsConnection env event = false) :
    Renews s (s.handleGattcEvent env event) ∧
      (s.handleGattcEvent env event).hidReportHandles = s.hidReportHandles := by
  have hself : Renews s s ∧ s.hidReportHandles = s.hidReportHandles := ⟨.of_profile rfl, rfl⟩
  have hkeep (h : (s.handleGattcEvent env event).profile = s.profile) :
      Renews s (s.handleGattcEvent env event) ∧
        (s.handleGattcEvent env event).hidReportHandles = s.hidReportHandles :=
    ⟨.of_profile h, congrArg Profile.hidReportHandles h⟩
  cases event with
  | read connId handle status value =>
    rw [handleGattcEvent, handleRead]
    split
    · split
      · exact hself
      · split
        · exact finishActiveRead_renews env status value s
        · exact hself
    · exact hself
  | _ => exact hkeep (handleGattcEvent_profile env s hreset (.inr (by simp)))

theorem loopSetup_stages (s : BLEClientHID) : (s.loopSetup env).window = s.window ∧
    (s.loopSetup env).hidEvents = s.hidEvents ∧ (s.loopSetup env).pendingReports = s.pendingReports :=
  Apart.stages (loopSetup_silent env).apart s

theorem loop_pipeline (s : BLEClientHID) :
    (s.loop env).pipeline = (s.loopSetup env).pipeline.acceptAll (s.intakes (.loop env)) := by
  have hqueue : ((s.loopSetup env).updateWindow env.windowUs).pendingReports = s.pendingReports :=
    (loopSetup_stages env s).2.2
  have hloop : s.loop env = updateWindow env.windowEndUs
    (processReports env maxReportsPerLoop 0 ((s.loopSetup env).updateWindow env.windowUs)) := rfl
  have hintakes : s.intakes (.loop env) = .window env.windowUs ::
    (processing env maxReportsPerLoop 0 s.pendingReports ++ [.window env.windowEndUs]) := rfl
  rw [hloop, hintakes, updateWindow_pipeline, processReports_pipeline, hqueue, updateWindow_pipeline,
    Pipeline.acceptAll_cons, Pipeline.acceptAll_append]
  rfl

end

end BLEClientHID

/-! ## Planning -/

/-- The phases in which no report can come. -/
def planning (phase : SetupPhase) : Bool :=
  beforeSearch phase || phase == .inventory || phase == .reading || phase == .buildingProfile

/-- Phases that the setup does not leave inside a connection. -/
structure Absorbing (p : SetupPhase → Bool) : Prop where
  entered : p .registering = true ∧ p .waitingForCccd = true ∧ p .ready = true ∧ p .degraded = true
  outside : p .inventory = false ∧ p .reading = false ∧ p .buildingProfile = false
  searched : ∀ phase, beforeSearch phase = true → p phase = false

section

variable {p : SetupPhase → Bool} {fails : Bool}

theorem Setup.Move.absorbed (hp : Absorbing p) {s t : Setup} (hmove : Setup.Move fails s t)
    (h : p s.setupPhase = true) : p t.setupPhase = true := by
  obtain ⟨hregistering, hwaiting, hready, hdegraded⟩ := hp.entered
  obtain ⟨hinventory, hreading, hbuilding⟩ := hp.outside
  have hnot {phase : SetupPhase} (hphase : s.setupPhase = phase) (houtside : p phase = false) :
      p t.setupPhase = true := by
    rw [hphase, houtside] at h
    cases h
  cases hmove with
  | inventory services hphase | inventoryFailed entries hphase | noHid hphase | planReads queue hphase =>
    exact hnot hphase hinventory
  | readsDone hphase | readTimeout entries hphase => exact hnot hphase hreading
  | buildProfiles s hphase => exact @hnot .buildingProfile hphase hbuilding
  | planSubscriptions | registrationFailed | writeRejected | complete | cccdFailed => exact hregistering
  | registered => exact hwaiting
  | subscriptionTimeout | timeout => exact hdegraded
  | finish =>
    unfold Setup.finish Setup.goto
    dsimp only
    split
    · exact hdegraded
    · exact hready
  | _ => exact h

theorem Moves.absorbed (hp : Absorbing p) {s t : Setup} (hmoves : Moves fails s t) (h : p s.setupPhase = true) :
    p t.setupPhase = true := by
  induction hmoves with
  | refl => exact h
  | tail _ hlast ih => exact hlast.absorbed hp ih

theorem step_absorbed (hp : Absorbing p) {s : BLEClientHID} (h : Reachable s) {event : Event}
    (hone : (step s event).OneSearch) (hreset : event.resetsConnection = false) (hphase : p s.setupPhase = true) :
    p (step s event).setupPhase = true := by
  obtain ⟨haligned, hphased⟩ := reachable_phased h
  have hstep := step_setup s haligned event
  rw [hreset] at hstep
  generalize ht : BLEClientHID.setup (step s event) = t at hstep
  have hsame : (step s event).setupPhase = t.setupPhase := congrArg Setup.setupPhase ht
  rw [hsame]
  cases hstep with
  | moves hmoves => exact Moves.absorbed hp hmoves hphase
  | searched status entries =>
    have hbefore : beforeSearch s.setupPhase = true := beforeSearch_of_oneSearch hphased ht hone
    rw [hp.searched _ hbefore] at hphase
    cases hphase

theorem planning_absorbing : Absorbing fun phase => !planning phase where
  entered := by decide
  outside := by decide
  searched phase h := by simp [planning, h]

theorem Moves.planning {s t : Setup} (hmoves : Moves fails s t) (h : planning s.setupPhase = false) :
    BleClientHid.planning t.setupPhase = false := by
  simpa using Moves.absorbed planning_absorbing hmoves (by simpa using h)

theorem step_planning {s : BLEClientHID} (h : Reachable s) {event : Event} (hone : (step s event).OneSearch)
    (hreset : event.resetsConnection = false) (hphase : planning s.setupPhase = false) :
    planning (step s event).setupPhase = false := by
  simpa using step_absorbed planning_absorbing h hone hreset (by simpa using hphase)

end

namespace BLEClientHID

theorem runInventory_renews (env : Env) (s : BLEClientHID) :
    Renews s (s.runInventory env) ∧ (s.runInventory env).hidReportHandles = s.hidReportHandles := by
  obtain ⟨hrenews, hhandles⟩ := inventoryGattDatabase_renews env s
  unfold runInventory
  generalize s.inventoryGattDatabase env = out at hrenews hhandles
  obtain ⟨t, found⟩ := out
  have hkeep {u : BLEClientHID} (h : u.profile = t.profile) :
      Renews s u ∧ u.hidReportHandles = s.hidReportHandles :=
    ⟨hrenews.trans (.of_profile h), (congrArg Profile.hidReportHandles h).trans hhandles⟩
  dsimp only at hrenews hhandles ⊢
  split
  · exact hkeep (profile_of_fixture (finalizeSetup_fixture env _))
  · split
    · exact hkeep rfl
    · exact hkeep (profile_of_fixture (planReads_fixture t))

theorem startProtocolModeWrite_phase (env : Env) {s : BLEClientHID} (h : s.setupPhase = .buildingProfile) :
    planning (s.startProtocolModeWrite env).setupPhase = false := by
  unfold startProtocolModeWrite nextProtocolModeWrite
  rw [if_pos h]
  split
  · rfl
  · dsimp only
    split <;> rfl

theorem runPhase_renews (env : Env) {s : BLEClientHID} (hbuilding : s.setupPhase ≠ .buildingProfile) :
    Renews s (s.runPhase env) ∧ (s.runPhase env).hidReportHandles = s.hidReportHandles := by
  by_cases hinventory : s.setupPhase = .inventory
  · have hrun : s.runPhase env = s.runInventory env := by
      unfold runPhase
      rw [hinventory]
    rw [hrun]
    exact runInventory_renews env s
  · have hrun := runPhase_profile env s hinventory hbuilding
    exact ⟨.of_profile hrun, congrArg Profile.hidReportHandles hrun⟩

theorem runPhase_building (env : Env) {s : BLEClientHID} (hbuilding : s.setupPhase = .buildingProfile) :
    (s.runPhase env).profile = s.buildHidProfiles.profile ∧ planning (s.runPhase env).setupPhase = false := by
  have hrun : s.runPhase env = s.buildHidProfiles.startProtocolModeWrite env := by
    unfold runPhase
    rw [hbuilding]
  rw [hrun]
  exact ⟨startProtocolModeWrite_profile env s.buildHidProfiles,
    startProtocolModeWrite_phase env ((buildHidProfiles_phase s).trans hbuilding)⟩

theorem loopSetup_renews (env : Env) {s : BLEClientHID} (h : s.hidReportHandles = ∅) :
    Renews s (s.loopSetup env) ∧
      (planning (s.loopSetup env).setupPhase = true → (s.loopSetup env).hidReportHandles = ∅) := by
  have hasked : s.requestPendingRediscovery.profile = s.profile := requestPendingRediscovery_profile s
  have hphase := requestPendingRediscovery_phase s
  have htimeout := profile_of_fixture (handlePhaseTimeout_fixture env (s.requestPendingRediscovery.runPhase env))
  by_cases hbuilding : s.setupPhase = .buildingProfile
  · obtain ⟨hprofile, hbuilt⟩ := runPhase_building env (hphase.trans hbuilding)
    have hlate : planning (s.loopSetup env).setupPhase = false :=
      (handlePhaseTimeout_moves env _ : Moves false _ _).planning hbuilt
    refine ⟨?_, fun hplanning => absurd (hplanning.symm.trans hlate) (by decide)⟩
    exact (((Renews.of_profile hasked).trans (buildHidProfiles_renews _)).trans (.of_profile hprofile)).trans
      (.of_profile htimeout)
  · obtain ⟨hrenews, hclaimed⟩ := runPhase_renews env (hphase.trans_ne hbuilding)
    refine ⟨((Renews.of_profile hasked).trans hrenews).trans (.of_profile htimeout), fun _ => ?_⟩
    have hhandles : s.requestPendingRediscovery.hidReportHandles = s.hidReportHandles :=
      congrArg Profile.hidReportHandles hasked
    exact ((congrArg Profile.hidReportHandles htimeout).trans hclaimed).trans (hhandles.trans h)

theorem processReports_nil (env : Env) (fuel n : Nat) {s : BLEClientHID} (h : s.pendingReports = []) :
    processReports env fuel n s = s := by
  cases fuel with
  | zero => rfl
  | succ fuel =>
    unfold processReports
    rw [h]

theorem processing_nil (env : Env) (fuel n : Nat) : processing env fuel n [] = [] := by
  cases fuel <;> rfl

end BLEClientHID

/-! ## The law -/

/-- The stages as a connection finds them. What an idle window says of its start does not matter. -/
def BLEClientHID.start (s : BLEClientHID) (startedUs : UInt32) : Pipeline where
  profile := s.profile.renewed
  window := { samplingWindowStartedUs := startedUs }
  events := []

/-- No report has come so far. -/
structure Unfed (s : BLEClientHID) (intakes : List Intake) : Prop where
  profile : s.profile.Fresh
  queue : s.pendingReports = []
  idle : ∃ startedUs, s.window = { samplingWindowStartedUs := startedUs }
  events : s.hidEvents = []
  intakes : ∀ intake ∈ intakes, intake.report? = none

/-- The stages are where the intakes of the connection have brought them. -/
structure Fed (interval : UInt32) (s : BLEClientHID) (intakes : List Intake) : Prop where
  fed : ∃ startedUs, s.pipeline = (s.start startedUs).acceptAll intakes
  fresh : s.profile.renewed.Fresh
  interval : s.eventSamplingIntervalUs = interval
  unfed : planning s.setupPhase = true → Unfed s intakes ∧ s.hidReportHandles = ∅

section

variable {interval : UInt32} {s t : BLEClientHID} {intakes : List Intake}

theorem Unfed.pipeline (h : Unfed s intakes) {startedUs : UInt32}
    (hwindow : s.window = { samplingWindowStartedUs := startedUs }) : s.pipeline = s.start startedUs := by
  unfold BLEClientHID.pipeline start
  rw [h.profile.renewed, hwindow, h.events]

theorem Unfed.fed (h : Unfed s intakes) (hinterval : s.eventSamplingIntervalUs = interval)
    (hhandles : planning s.setupPhase = true → s.hidReportHandles = ∅) : Fed interval s intakes := by
  obtain ⟨startedUs, hwindow⟩ := h.idle
  refine ⟨⟨startedUs, ?_⟩, ?_, hinterval, fun hphase => ⟨h, hhandles hphase⟩⟩
  · rw [Pipeline.acceptAll_idle rfl h.intakes, h.pipeline hwindow]
  · rw [h.profile.renewed]
    exact h.profile

theorem reset_unfed (hcapacity : s.window.sampledEvents.capacity = 16) : Unfed s.resetConnectionState [] where
  profile := ⟨by simp [resetConnectionState, BLEClientHID.profile], rfl⟩
  queue := rfl
  idle := by
    refine ⟨s.window.samplingWindowStartedUs, ?_⟩
    unfold resetConnectionState OrderedEventBuffer.clear
    rw [hcapacity]
  events := rfl
  intakes := by simp

theorem Unfed.loop (env : Env) (h : Fed interval s intakes) (hphase : planning s.setupPhase = true) :
    Fed interval (s.loop env) (intakes ++ s.intakes (.loop env)) := by
  obtain ⟨hunfed, hhandles⟩ := h.unfed hphase
  obtain ⟨hrenews, hclaimed⟩ := loopSetup_renews env hhandles
  obtain ⟨hwindow, hevents, hqueue⟩ := loopSetup_stages env s
  obtain ⟨startedUs, hidle⟩ := hunfed.idle
  -- the queue is empty, so the `loop()` only looks at the clock
  have hintakes : s.intakes (.loop env) = [.window env.windowUs, .window env.windowEndUs] := by
    unfold BLEClientHID.intakes
    dsimp only
    rw [hunfed.queue, processing_nil]
    rfl
  have hnone : ∀ intake ∈ s.intakes (.loop env), intake.report? = none := by
    rw [hintakes]
    simp [Intake.report?]
  -- and the idle window does not heed it
  have hpipeline : (s.loop env).pipeline = (s.loopSetup env).pipeline := by
    rw [loop_pipeline]
    refine Pipeline.acceptAll_idle ?_ hnone
    have hstill : (s.loopSetup env).pipeline.window = { samplingWindowStartedUs := startedUs } := hwindow.trans hidle
    rw [hstill]
  have hprofile : (s.loop env).profile = (s.loopSetup env).profile := congrArg Pipeline.profile hpipeline
  have hbeside : (s.loop env).setupPhase = (s.loopSetup env).setupPhase :=
    congrArg Setup.setupPhase (loop_beside env s).setup
  have hempty : (s.loop env).pendingReports = [] := by
    have hnil : ((s.loopSetup env).updateWindow env.windowUs).pendingReports = [] := hqueue.trans hunfed.queue
    have hloop : s.loop env = updateWindow env.windowEndUs
      (processReports env maxReportsPerLoop 0 ((s.loopSetup env).updateWindow env.windowUs)) := rfl
    rw [hloop, processReports_nil env maxReportsPerLoop 0 hnil]
    exact hnil
  have hstill : Unfed (s.loop env) (intakes ++ s.intakes (.loop env)) := by
    refine ⟨?_, hempty, ⟨startedUs, ?_⟩, ?_, ?_⟩
    · rw [hprofile]
      exact hrenews.fresh hunfed.profile
    · exact (congrArg Pipeline.window hpipeline).trans (hwindow.trans hidle)
    · exact (congrArg Pipeline.events hpipeline).trans (hevents.trans hunfed.events)
    · intro intake hintake
      exact (List.mem_append.mp hintake).elim (hunfed.intakes intake) (hnone intake)
  have hinterval : (s.loop env).eventSamplingIntervalUs = interval :=
    (congrArg Profile.interval hprofile).trans (hrenews.interval.trans h.interval)
  -- the setup may have left the planning, with handles claimed
  refine hstill.fed hinterval fun hplanning => ?_
  rw [hbeside] at hplanning
  exact (congrArg Profile.hidReportHandles hprofile).trans (hclaimed hplanning)

theorem Fed.advance (h : Fed interval s intakes) (later : List Intake)
    (hpipeline : t.pipeline = s.pipeline.acceptAll later) (hphase : planning t.setupPhase = false) :
    Fed interval t (intakes ++ later) := by
  obtain ⟨startedUs, hfed⟩ := h.fed
  have hrenewed : t.profile.renewed = s.profile.renewed := by
    have hprofile : t.profile = (s.pipeline.acceptAll later).profile := congrArg Pipeline.profile hpipeline
    rw [hprofile, Pipeline.acceptAll_renewed]
    rfl
  refine ⟨⟨startedUs, ?_⟩, by rw [hrenewed]; exact h.fresh, ?_, by simp [hphase]⟩
  · have hstart : t.start startedUs = s.start startedUs := by
      unfold start
      rw [hrenewed]
    rw [hpipeline, hfed, hstart, Pipeline.acceptAll_append]
  · exact (congrArg Profile.interval hrenewed).trans h.interval

end

/-! ## Runs -/

/-- What the stages have taken in since the connection began. -/
def received (s : BLEClientHID) (events : List Event) : List Intake :=
  history step BLEClientHID.intakes Event.resetsConnection s events

/-- What has become of the queue since then. -/
def connectionLog (s : BLEClientHID) (events : List Event) : ReportLog :=
  history step BLEClientHID.queueLog Event.resetsConnection s events

theorem received_reports (s : BLEClientHID) (events : List Event) :
    (received s events).filterMap Intake.report? = done (connectionLog s events) :=
  history_filterMap intakes_reports s events

theorem Fed.reset {s : BLEClientHID} {intakes : List Intake} {interval : UInt32} (h : Fed interval s intakes)
    (hcapacity : s.window.sampledEvents.capacity = 16) {event : Event} (hreset : event.resetsConnection = true) :
    Fed interval (step s event) [] := by
  obtain ⟨hprofile, hqueue, hidle, hevents, hnone⟩ := reset_unfed hcapacity
  have hclear {t : BLEClientHID} (ht : t = { s.resetConnectionState with
      setupPhase := t.setupPhase, phaseStartedMs := t.phaseStartedMs, trace := t.trace }) : Fed interval t [] := by
    rw [ht]
    exact Unfed.fed ⟨hprofile, hqueue, hidle, hevents, hnone⟩ h.interval fun _ => rfl
  cases event with
  | loop env => simp [Event.resetsConnection] at hreset
  | gattc env event gattcIf =>
    rw [resetsConnection_eq, Bool.and_eq_true] at hreset
    rw [step_accepted hreset.1]
    cases event with
    | connect remoteBda | disconnect remoteBda =>
      rw [handleGattcEvent, if_pos (by simpa [BLEClientHID.resetsConnection] using hreset.2)]
      exact hclear rfl
    | _ => simp [BLEClientHID.resetsConnection] at hreset

theorem late_pipeline {s : BLEClientHID} (hreached : Reachable s) (hphase : planning s.setupPhase = false)
    {event : Event} (hreset : event.resetsConnection = false) :
    (step s event).pipeline = s.pipeline.acceptAll (s.intakes event) := by
  cases event with
  | loop env =>
    obtain ⟨hwindow, hevents, -⟩ := loopSetup_stages env s
    have hprofile : (s.loopSetup env).profile = s.profile :=
      loopSetup_profile env s (by rintro hp; simp [hp, planning] at hphase)
        (by rintro hp; simp [hp, planning] at hphase)
    have hsetup : (s.loopSetup env).pipeline = s.pipeline := by
      unfold BLEClientHID.pipeline
      rw [hprofile, hwindow, hevents]
    rw [← hsetup]
    exact loop_pipeline env s
  | gattc env event gattcIf =>
    change (step s (.gattc env event gattcIf)).pipeline = s.pipeline
    cases haccepted : accepted env gattcIf with
    | false => rw [step_refused haccepted]
    | true =>
      rw [resetsConnection_eq, haccepted, Bool.true_and] at hreset
      have hidle : s.activeRead = none := by
        refine ((reachable_phased hreached).2.reads fun hreading => ?_).1
        have hreading' : s.setupPhase = .reading := hreading
        rw [hreading'] at hphase
        cases hphase
      obtain ⟨hwindow, hevents, -⟩ := handleGattcEvent_stages env (s := s) hreset
      rw [step_accepted haccepted]
      unfold BLEClientHID.pipeline
      rw [handleGattcEvent_profile env s hreset (.inl hidle), hwindow, hevents]

theorem Unfed.callback {s : BLEClientHID} {interval : UInt32} {intakes : List Intake} (h : Fed interval s intakes)
    (env : Env) {event : GattcEvent} (hreset : resetsConnection env event = false)
    (hphase : planning s.setupPhase = true) : Fed interval (s.handleGattcEvent env event) intakes := by
  obtain ⟨hwindow, hevents, hqueue⟩ := handleGattcEvent_stages env (s := s) hreset
  obtain ⟨hunfed, hhandles⟩ := h.unfed hphase
  obtain ⟨hrenews, hsame⟩ := handleGattcEvent_renews env (s := s) hreset
  refine Unfed.fed ⟨hrenews.fresh hunfed.profile, (hqueue hhandles).trans hunfed.queue, ?_,
    hevents.trans hunfed.events, hunfed.intakes⟩ (hrenews.interval.trans h.interval) fun _ => hsame.trans hhandles
  rw [hwindow]
  exact hunfed.idle

theorem Fed.step {s : BLEClientHID} (hreached : Reachable s) {interval : UInt32} {intakes : List Intake}
    (h : Fed interval s intakes) (hcapacity : s.window.sampledEvents.capacity = 16) {event : Event}
    (hone : (step s event).OneSearch) :
    Fed interval (BleClientHid.step s event)
      (if event.resetsConnection then [] else intakes ++ s.intakes event) := by
  cases hreset : event.resetsConnection with
  | true => exact h.reset hcapacity hreset
  | false =>
    rw [if_neg (by decide)]
    cases hphase : planning s.setupPhase with
    | false => exact h.advance _ (late_pipeline hreached hphase hreset) (step_planning hreached hone hreset hphase)
    | true =>
      cases event with
      | loop env => exact Unfed.loop env h hphase
      | gattc env event gattcIf =>
        rw [show s.intakes (.gattc env event gattcIf) = [] from rfl, List.append_nil]
        cases haccepted : accepted env gattcIf with
        | false =>
          rw [step_refused haccepted]
          exact h
        | true =>
          rw [resetsConnection_eq, haccepted, Bool.true_and] at hreset
          rw [step_accepted haccepted]
          exact Unfed.callback h env hreset hphase

theorem run_induction {motive : List Event → Prop} {s : BLEClientHID} (hstart : Reachable s) (hnil : motive [])
    (hconcat : ∀ events event, (∀ n < events.length, (run s (events.take (n + 1))).OneSearch) →
      Reachable (run s events) → (step (run s events) event).OneSearch → motive events → motive (events ++ [event]))
    (events : List Event) (hsearch : ∀ n < events.length, (run s (events.take (n + 1))).OneSearch) :
    motive events := by
  induction events using List.reverseRecOn with
  | nil => exact hnil
  | append_singleton events event ih =>
    have hprefix : ∀ n < events.length, (run s (events.take (n + 1))).OneSearch := by
      intro n hn
      have hone := hsearch n (by simp; omega)
      rwa [List.take_append_of_le_length (by omega)] at hone
    have hlast := hsearch events.length (by simp)
    rw [List.take_of_length_le (by simp), run_append_singleton] at hlast
    exact hconcat events event hprefix (reachable_run hstart events hprefix) hlast (ih hprefix)

theorem run_fed (discoveryMode : DiscoveryMode) (policy : ProtocolModePolicy) (interval : UInt32)
    (events : List Event)
    (hsearch : ∀ n < events.length, (run (initial discoveryMode policy interval) (events.take (n + 1))).OneSearch) :
    Fed interval (run (initial discoveryMode policy interval) events)
      (received (initial discoveryMode policy interval) events) := by
  refine run_induction (motive := fun events => Fed interval (run (initial discoveryMode policy interval) events)
    (received (initial discoveryMode policy interval) events)) (.initial discoveryMode policy interval) ?_
    (fun events event _ hreached hone hfed => ?_) events hsearch
  · exact Unfed.fed ⟨⟨by simp [run, initial, BLEClientHID.profile], rfl⟩, rfl, ⟨0, rfl⟩, rfl, by simp [received]⟩
      rfl fun _ => rfl
  · have hcapacity := (run_bufferInv discoveryMode policy interval events).capacity
    rw [run_append_singleton, received, history_concat]
    exact hfed.step hreached hcapacity hone

/-- At any moment the stages are where the reports of this connection bring fresh ones, in the order of the
queue, and whatever the setup and other connections do in between. -/
theorem run_replays (discoveryMode : DiscoveryMode) (policy : ProtocolModePolicy) (interval : UInt32)
    (events : List Event)
    (hsearch : ∀ n < events.length, (run (initial discoveryMode policy interval) (events.take (n + 1))).OneSearch) :
    let s := run (initial discoveryMode policy interval) events
    let intakes := received (initial discoveryMode policy interval) events
    (∃ startedUs, s.pipeline = (s.start startedUs).acceptAll intakes) ∧
      intakes.filterMap Intake.report? = done (connectionLog (initial discoveryMode policy interval) events) :=
  ⟨(run_fed discoveryMode policy interval events hsearch).fed, received_reports _ events⟩

/-- A key goes down in a second connection. -/
def secondConnection : List Event :=
  keyHeld ++ keyboardSetup ++ exampleRun keyboardServices [some (.notify 0 0 5 (.bytes [4, 0]) true), none]

theorem run_replays_keyboard :
    let s := run (initial .standard .unchanged 0) secondConnection
    let intakes := received (initial .standard .unchanged 0) secondConnection
    (∃ startedUs, s.pipeline = (s.start startedUs).acceptAll intakes) ∧
      intakes.filterMap Intake.report? = done (connectionLog (initial .standard .unchanged 0) secondConnection) :=
  run_replays .standard .unchanged 0 secondConnection (by decide +kernel)

end BleClientHid

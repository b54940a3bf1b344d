import BleClientHid.Component.CourseRefinement
import BleClientHid.Component.Database
import BleClientHid.Component.ProtocolMode

/-! # What the component writes

Every write goes to a CCCD or a Protocol Mode characteristic of the database, at
its time.
-/

namespace BleClientHid

open Setup BLEClientHID

/-! ## Entries -/

namespace TraceEntry

/-- No write, and no plan of one. -/
def isIdle : TraceEntry → Bool
  | .writeChar .. | .writeDescr .. => false
  | .transition phase => phase != .writingProtocolMode
  | _ => true

def modeWrite : TraceEntry → Option Nat
  | .writeChar handle _ _ => some handle
  | _ => none

end TraceEntry

def Plain (entries : List TraceEntry) : Prop := ∀ entry ∈ entries, entry.isIdle = true

/-- The characteristics that have been written. -/
def modeWrites (log : List TraceEntry) : List Nat := log.filterMap TraceEntry.modeWrite

theorem plain_append {entries entries' : List TraceEntry} (h : Plain entries) (h' : Plain entries') :
    Plain (entries ++ entries') := List.forall_mem_append.mpr ⟨h, h'⟩

theorem plain_degraded (reasons : List String) : Plain (reasons.map .degraded) := by
  intro entry hentry
  obtain ⟨reason, -, rfl⟩ := List.mem_map.mp hentry
  rfl

theorem plain_marked (p : Prop) [Decidable p] (reason : String) : Plain (if p then [.degraded reason] else []) := by
  split <;> simp [Plain, TraceEntry.isIdle]

theorem plain_single {entry : TraceEntry} (h : entry.isIdle = true) : Plain [entry] :=
  List.forall_mem_singleton.mpr h

theorem Plain.modeWrites {entries : List TraceEntry} (h : Plain entries) : modeWrites entries = [] := by
  unfold BleClientHid.modeWrites
  rw [List.filterMap_eq_nil_iff]
  intro entry hentry
  have hplain := h entry hentry
  cases entry <;> first | rfl | simp [TraceEntry.isIdle] at hplain

theorem Plain.not_entered {entries : List TraceEntry} (h : Plain entries) :
    .writingProtocolMode ∉ transitions entries := by
  intro hmem
  obtain ⟨entry, hentry, hphase⟩ := List.mem_filterMap.mp hmem
  have hplain := h entry hentry
  cases entry with
  | transition phase =>
    obtain rfl := Option.some.inj hphase
    simp [TraceEntry.isIdle] at hplain
  | _ => simp [TraceEntry.entered] at hphase

/-! ## What an act does to the writes -/

/-- Nothing is learned, planned or written. -/
structure Quiet (s t : Setup) : Prop where
  sources : SameSources s t
  handles : t.protocolWriteHandles = s.protocolWriteHandles
  reads : ∀ operation, operation ∈ t.readQueue ∨ t.activeRead = some operation →
    operation ∈ s.readQueue ∨ s.activeRead = some operation
  queue : ∀ sub ∈ t.subscriptionQueue, sub ∈ s.subscriptionQueue
  active : ∀ sub, t.activeSubscription = some sub →
    s.activeSubscription = some sub ∨ sub ∈ s.subscriptionQueue ∧ sub.cccdHandle ≠ 0
  waiting : t.subscriptionState.stage = .waitingForCccd →
    s.subscriptionState.stage = .waitingForCccd ∧ t.activeSubscription = s.activeSubscription
  trace : ∃ entries, t.trace = s.trace ++ entries ∧ Plain entries

namespace Quiet

variable {s t : Setup}

theorem note (entries : List TraceEntry) (htrace : t.trace = s.trace ++ entries) (hplain : Plain entries)
    (hsources : SameSources s t) (hhandles : t.protocolWriteHandles = s.protocolWriteHandles)
    (hreads : ∀ operation, operation ∈ t.readQueue ∨ t.activeRead = some operation →
      operation ∈ s.readQueue ∨ s.activeRead = some operation)
    (hqueue : t.subscriptionQueue = s.subscriptionQueue) (hactive : t.activeSubscription = s.activeSubscription)
    (hstage : t.subscriptionState.stage = s.subscriptionState.stage) : Quiet s t where
  sources := hsources
  handles := hhandles
  reads := hreads
  queue sub hsub := by rwa [← hqueue]
  active sub hsub := .inl (by rwa [← hactive])
  waiting h := ⟨by rwa [← hstage], hactive⟩
  trace := ⟨entries, htrace, hplain⟩

theorem idle (entries : List TraceEntry) (htrace : t.trace = s.trace ++ entries) (hplain : Plain entries)
    (hsources : SameSources s t) (hhandles : t.protocolWriteHandles = s.protocolWriteHandles)
    (hreads : ∀ operation, operation ∈ t.readQueue ∨ t.activeRead = some operation →
      operation ∈ s.readQueue ∨ s.activeRead = some operation)
    (hqueue : ∀ sub ∈ t.subscriptionQueue, sub ∈ s.subscriptionQueue) (hactive : t.activeSubscription = none)
    (hstage : t.subscriptionState.stage = .idle) : Quiet s t where
  sources := hsources
  handles := hhandles
  reads := hreads
  queue := hqueue
  active sub hsub := by simp [hactive] at hsub
  waiting h := by simp [hstage] at h
  trace := ⟨entries, htrace, hplain⟩

theorem refl (s : Setup) : Quiet s s :=
  .note [] (List.append_nil _).symm (by simp [Plain]) ⟨rfl, rfl, rfl, rfl⟩ rfl (fun _ h => h) rfl rfl rfl

end Quiet

/-- An act is quiet, or one of the few that are not. -/
inductive Touch (env : Env) (s : BLEClientHID) : BLEClientHID → Prop where
  | quiet {t : BLEClientHID} (h : Quiet s.setup t.setup) : Touch env s t
  | inventory (hphase : s.setupPhase = .inventory) : Touch env s (s.inventoryGattDatabase env).1
  | planReads (hphase : s.setupPhase = .inventory) : Touch env s (s.planReads.transition env .reading)
  | finishRead (operation : GattReadOperation) (status : GattStatus) (value : Buffer)
      (hactive : s.activeRead = some operation) : Touch env s (s.finishActiveRead env status value)
  | buildProfiles (hphase : s.setupPhase = .buildingProfile) :
      Touch env s (s.buildHidProfiles.collectProtocolWrites env)
  | writeMode (handle : Nat) (rest : List Nat) (hphase : s.setupPhase = .writingProtocolMode)
      (hhandles : s.protocolWriteHandles = handle :: rest) : Touch env s (s.nextProtocolModeWrite env)
  | planSubscriptions (hphase : s.setupPhase = .writingProtocolMode) (hhandles : s.protocolWriteHandles = []) :
      Touch env s (s.planSubscriptions.transition env .registering)
  | registered (sub : SubscriptionInfo) (hactive : s.activeSubscription = some sub) :
      Touch env s ({ s with subscriptionState := { s.subscriptionState with
        stage := .waitingForCccd, fallbackAtMs := env.registrationMs + cccdFallbackDelayMs } }.log
          (.registrationResult (some sub) sub.characteristicHandle true .waitForCccd)
            |>.transition env .waitingForCccd)
  | writeCccd {t : BLEClientHID} (sub : SubscriptionInfo) (accepted : Bool)
    (hactive : s.activeSubscription = some sub)
      (hstage : s.subscriptionState.stage = .waitingForCccd)
      (h : Quiet (s.log (.writeDescr sub.cccdHandle (cccdValue sub) accepted)).setup t.setup) : Touch env s t

section

variable {env : Env} {fails : Bool} {s t : BLEClientHID}

theorem Quiet.trans {s t u : Setup} (h : Quiet s t) (h' : Quiet t u) : Quiet s u := by
  obtain ⟨entries, htrace, hplain⟩ := h.trace
  obtain ⟨entries', htrace', hplain'⟩ := h'.trace
  obtain ⟨hmode, hpolicy, hservices, hcontexts⟩ := h.sources
  obtain ⟨hmode', hpolicy', hservices', hcontexts'⟩ := h'.sources
  refine ⟨⟨hmode'.trans hmode, hpolicy'.trans hpolicy, hservices'.trans hservices, hcontexts'.trans hcontexts⟩,
    h'.handles.trans h.handles, fun operation hop => h.reads operation (h'.reads operation hop),
    fun sub hsub => h.queue sub (h'.queue sub hsub), fun sub hsub => ?_, fun hstage => ?_,
      entries ++ entries', ?_, ?_⟩
  · rcases h'.active sub hsub with hactive | ⟨hqueued, hcccd⟩
    · exact h.active sub hactive
    · exact .inr ⟨h.queue sub hqueued, hcccd⟩
  · obtain ⟨hwaiting, hsame⟩ := h'.waiting hstage
    obtain ⟨hwaiting', hsame'⟩ := h.waiting hwaiting
    exact ⟨hwaiting', hsame.trans hsame'⟩
  · rw [htrace', htrace, List.append_assoc]
  · exact plain_append hplain hplain'

theorem log_quiet (s : BLEClientHID) {e : TraceEntry} (h : e.isIdle = true) : Quiet s.setup (s.log e).setup :=
  .note [e] rfl (plain_single h) ⟨rfl, rfl, rfl, rfl⟩ rfl (fun _ h => h) rfl rfl rfl

theorem transition_quiet (env : Env) (s : BLEClientHID) {phase : SetupPhase} (h : phase ≠ .writingProtocolMode) :
    Quiet s.setup (s.transition env phase).setup :=
  .note [.transition phase] rfl (plain_single (by simpa [TraceEntry.isIdle] using h)) ⟨rfl, rfl, rfl, rfl⟩ rfl
    (fun _ h => h) rfl rfl rfl

theorem operationFailed_quiet (s : BLEClientHID) (required : Bool) (reason : String) :
    Quiet s.setup (s.operationFailed required reason).setup := by
  rw [operationFailed_eq]
  exact .note _ rfl (plain_marked _ _) ⟨rfl, rfl, rfl, rfl⟩ rfl (fun _ h => h) rfl rfl rfl

theorem resetSubscription_quiet (s : BLEClientHID) : Quiet s.setup s.resetSubscription.setup :=
  .idle [.subscriptionReset] rfl (plain_single rfl) ⟨rfl, rfl, rfl, rfl⟩ rfl (fun _ h => h) (fun _ h => h) rfl rfl

theorem giveUp_quiet (s : BLEClientHID) (sub : SubscriptionInfo) (reason : String) :
    Quiet s.setup (s.giveUp sub reason).setup :=
  (operationFailed_quiet s sub.required reason).trans (resetSubscription_quiet _)

theorem markDegraded_quiet (s : BLEClientHID) (reason : String) : Quiet s.setup (s.markDegraded reason).setup :=
  .note [.degraded reason] rfl (plain_single rfl) ⟨rfl, rfl, rfl, rfl⟩ rfl (fun _ h => h) rfl rfl rfl

theorem finalizeSetup_quiet (env : Env) (s : BLEClientHID) : Quiet s.setup (s.finalizeSetup env).setup := by
  have hparams : Quiet s.setup (if s.preferredConnParamsValid then s.log .updateConnParams else s).setup := by
    split
    · exact log_quiet s rfl
    · exact .refl s.setup
  unfold finalizeSetup
  generalize (if s.preferredConnParamsValid then s.log .updateConnParams else s) = t at hparams ⊢
  dsimp only
  split
  · exact hparams.trans (transition_quiet env _ (by simp))
  · exact hparams.trans (transition_quiet env _ (by simp))

theorem timedOut_quiet (s : BLEClientHID) : Quiet s.setup s.timedOut.setup :=
  (log_quiet s rfl).trans (markDegraded_quiet _ _)

theorem readRequest_isIdle (env : Env) (operation : GattReadOperation) :
    (readRequest env operation).isIdle = true := by
  unfold readRequest
  split <;> rfl

theorem Deadline.quiet (hdeadline : Deadline env s t) : Quiet s.setup t.setup := by
  cases hdeadline with
  | reading =>
    have hcleared : Quiet s.timedOut.setup { s.timedOut with activeRead := none, readQueue := [] }.setup :=
      .note [] (List.append_nil _).symm (by simp [Plain]) ⟨rfl, rfl, rfl, rfl⟩ rfl
        (fun _ h => by simp [setup] at h) rfl
        rfl rfl
    exact ((timedOut_quiet s).trans hcleared).trans (transition_quiet env _ (by simp))
  | subscribing =>
    have hcleared : Quiet s.timedOut.setup { s.timedOut with subscriptionQueue := [] }.resetSubscription.setup :=
      .idle [.subscriptionReset] rfl (plain_single rfl) ⟨rfl, rfl, rfl, rfl⟩ rfl (fun _ h => h)
        (fun _ h => by simp [setup, resetSubscription] at h) rfl rfl
    exact ((timedOut_quiet s).trans hcleared).trans (finalizeSetup_quiet env _)
  | other => exact (timedOut_quiet s).trans (finalizeSetup_quiet env _)

theorem Act.touch (hact : Act env fails s t) : Touch env s t := by
  cases hact with
  | beside h =>
    apply Touch.quiet
    rw [h.setup]
    exact .refl s.setup
  | request entry hentry =>
    apply Touch.quiet
    apply log_quiet s
    cases entry <;> simp_all [TraceEntry.isRequest, TraceEntry.isIdle]
  | inventory hphase => exact .inventory hphase
  | inventoryFailed => exact .quiet ((markDegraded_quiet s _).trans (finalizeSetup_quiet env _))
  | noHid => exact .quiet (transition_quiet env s (by simp))
  | planReads hphase => exact .planReads hphase
  | startRead operation rest hphase hfree hidle hqueue =>
    -- the request is logged, but no write
    refine .quiet (.note [readRequest env operation] rfl (plain_single (readRequest_isIdle env operation))
      ⟨rfl, rfl, rfl, rfl⟩ rfl (fun op hop => ?_) rfl rfl rfl)
    rw [show s.setup.readQueue = operation :: rest from hqueue, List.mem_cons]
    exact .inl (hop.symm.imp (fun h => (Option.some.inj h).symm) id)
  | readNotScheduled operation rest hphase hfree hidle hqueue =>
    -- the read is neither queued nor active any more
    have hstarted : Quiet s.setup { s.startRead env operation rest with activeRead := none }.setup := by
      refine .note [readRequest env operation] rfl (plain_single (readRequest_isIdle env operation))
        ⟨rfl, rfl, rfl, rfl⟩ rfl (fun op hop => ?_) rfl rfl rfl
      rw [show s.setup.readQueue = operation :: rest from hqueue]
      rcases hop with hrest | hnone
      · exact .inl (List.mem_cons_of_mem _ hrest)
      · simp [setup] at hnone
    exact .quiet (hstarted.trans (operationFailed_quiet _ operation.required _))
  | finishRead operation status value hactive => exact .finishRead operation status value hactive
  | readsDone => exact .quiet (transition_quiet env s (by simp))
  | buildProfiles hphase => exact .buildProfiles hphase
  | writeMode handle rest hphase hhandles => exact .writeMode handle rest hphase hhandles
  | planSubscriptions hphase hhandles => exact .planSubscriptions hphase hhandles
  | begin sub rest hphase hfree hidle hqueue hcccd =>
    -- the attempt is one of the queue, and has a CCCD
    have hsub : s.setup.subscriptionQueue = sub :: rest := hqueue
    refine .quiet ⟨⟨rfl, rfl, rfl, rfl⟩, rfl, fun _ h => h, fun other hother => ?_, fun other hother => ?_, by
      simp [setup, beginAttempt, log, SubscriptionAttemptState.begin], [.begin sub], rfl, plain_single rfl⟩
    · rw [hsub]
      exact List.mem_cons_of_mem _ hother
    · obtain rfl := Option.some.inj hother
      exact .inr ⟨by rw [hsub]; exact List.mem_cons_self, hcccd⟩
  | beginWithoutCccd sub rest hphase hfree hidle hqueue =>
    have hsub : s.setup.subscriptionQueue = sub :: rest := hqueue
    rw [giveUp_eq]
    refine .quiet (.idle ([.begin sub] ++ ((if sub.required then
      [.degraded "required notification has no CCCD"] else []) ++
      [.subscriptionReset])) ?_ ?_ ⟨rfl, rfl, rfl, rfl⟩ rfl (fun _ h => h) (fun other hother => ?_) rfl rfl)
    · simp [setup, beginAttempt, log]
    · exact plain_append (plain_single rfl) (plain_append (plain_marked _ _) (plain_single rfl))
    · rw [hsub]
      exact List.mem_cons_of_mem _ hother
  | notScheduled sub => exact .quiet (giveUp_quiet s sub _)
  | registrationIgnored | cccdIgnored | retry => exact .quiet (log_quiet s rfl)
  | registered sub hactive => exact .registered sub hactive
  | registrationFailed sub | cccdFailed sub =>
    exact .quiet (((log_quiet s rfl).trans (giveUp_quiet _ sub _)).trans (transition_quiet env _ (by simp)))
  | writeCccd sub hactive hstage =>
    -- the one place where a CCCD is written
    refine .writeCccd sub true hactive hstage ?_
    exact .note [] (List.append_nil _).symm (by simp [Plain]) ⟨rfl, rfl, rfl, rfl⟩ rfl (fun _ h => h) rfl rfl rfl
  | writeRejected sub hactive hstage =>
    exact .writeCccd sub false hactive hstage ((giveUp_quiet _ sub _).trans (transition_quiet env _ (by simp)))
  | complete sub =>
    have hlogged : Quiet s.setup { s.log (.cccdResult (some sub) sub.cccdHandle true .complete) with
        operationsSucceeded := s.operationsSucceeded + 1 }.setup := log_quiet s rfl
    exact .quiet ((hlogged.trans (resetSubscription_quiet _)).trans (transition_quiet env _ (by simp)))
  | finish => exact .quiet (finalizeSetup_quiet env s)

end

/-! ## Targets -/

/-- A Protocol Mode characteristic of the HID service with this instance. -/
def ModeTarget (services : List GattServiceInfo) (serviceInstance handle : Nat) : Prop :=
  ∃ service ∈ services, service.serviceInstance = serviceInstance ∧ uuid16 service.uuid uuidHidService = true ∧
    ∃ characteristic ∈ service.characteristics, uuid16 characteristic.uuid uuidHidProtocolMode = true ∧
      characteristic.handle = handle

/-- The registration of the characteristic has succeeded. -/
def HandleRegistered (handle : Nat) (log : List TraceEntry) : Prop :=
  ∃ active, .registrationResult active handle true .waitForCccd ∈ log

/-- A write that may follow the log: to a CCCD, of the value that its characteristic asks for. -/
def CccdWrite (db : GattDatabase) (log : List TraceEntry) (handle value : Nat) : Prop :=
  ∃ service ∈ db.services, ∃ characteristic ∈ service.characteristics, ∃ descriptor ∈ characteristic.descriptors,
    uuid16 descriptor.uuid uuidCccd = true ∧ descriptor.handle = handle ∧ characteristic.canSubscribe = true ∧
      value = (if characteristic.canNotify then 1 else 2) ∧ HandleRegistered characteristic.handle log

def CccdLaw (db : GattDatabase) (log : List TraceEntry) : Prop :=
  ∀ before handle value accepted after, log = before ++ .writeDescr handle value accepted :: after →
    CccdWrite db before handle value

/-- What is still to be written, and all that has been, aims at the database. -/
structure Aimed (db : GattDatabase) (s : Setup) : Prop where
  recorded : Recorded db s.services
  reads : ∀ operation, operation ∈ s.readQueue ∨ s.activeRead = some operation →
    operation ∈ wantedReads s.discoveryMode s.services
  modes : ∀ serviceInstance handle, modeHandleOf s.contexts serviceInstance = some handle → handle ≠ 0 →
    ModeTarget s.services serviceInstance handle
  handles : modeWrites s.trace ++ s.protocolWriteHandles = s.plannedWrites
  values : ∀ handle value accepted, .writeChar handle value accepted ∈ s.trace →
    value = requestedMode s.protocolModePolicy
  queue : ∀ sub ∈ s.subscriptionQueue, sub ∈ wantedSubscriptions s.discoveryMode s.services
  active : ∀ sub, s.activeSubscription = some sub →
    sub ∈ wantedSubscriptions s.discoveryMode s.services ∧ sub.cccdHandle ≠ 0
  waiting : s.subscriptionState.stage = .waitingForCccd → ∀ sub, s.activeSubscription = some sub →
    HandleRegistered sub.characteristicHandle s.trace
  cccds : CccdLaw db s.trace

section

variable {db : GattDatabase} {s t : Setup}

theorem HandleRegistered.append {handle : Nat} {log : List TraceEntry} (h : HandleRegistered handle log)
    (entries : List TraceEntry) :
    HandleRegistered handle (log ++ entries) :=
  h.imp fun _ hmem => List.mem_append_left _ hmem

theorem CccdLaw.concat {log : List TraceEntry} {entry : TraceEntry} (h : CccdLaw db log)
    (hentry : ∀ handle value accepted, entry = .writeDescr handle value accepted → CccdWrite db log handle value) :
    CccdLaw db (log ++ [entry]) := by
  intro before handle value accepted after heq
  rcases List.eq_nil_or_concat after with rfl | ⟨after, last, rfl⟩
  · obtain ⟨rfl, hlast⟩ := List.append_inj' heq rfl
    exact hentry handle value accepted (List.singleton_inj.mp hlast)
  · rw [List.concat_eq_append, ← List.cons_append, ← List.append_assoc] at heq
    exact h before handle value accepted after (List.append_inj' heq rfl).1

theorem CccdLaw.append {log entries : List TraceEntry} (h : CccdLaw db log)
    (hentries : ∀ entry ∈ entries, entry.isOwnWrite = false) : CccdLaw db (log ++ entries) := by
  induction entries using List.reverseRecOn with
  | nil => rwa [List.append_nil]
  | append_singleton entries entry ih =>
    rw [← List.append_assoc]
    refine (ih fun other hother => hentries other (List.mem_append_left _ hother)).concat ?_
    rintro handle value accepted rfl
    have hwrite := hentries (.writeDescr handle value accepted) (by simp)
    simp [TraceEntry.isOwnWrite] at hwrite

theorem Plain.cccds {entries log : List TraceEntry} (hplain : Plain entries) (h : CccdLaw db log) :
    CccdLaw db (log ++ entries) := by
  apply h.append
  intro entry hentry
  have hentry := hplain entry hentry
  cases entry <;> first | rfl | simp [TraceEntry.isIdle] at hentry

theorem Plain.plannedWrites {entries : List TraceEntry} (hplain : Plain entries)
    (htrace : t.trace = s.trace ++ entries)
    (hpolicy : t.protocolModePolicy = s.protocolModePolicy) (hcontexts : t.contexts = s.contexts) :
    t.plannedWrites = s.plannedWrites := by
  apply plannedWrites_same hpolicy hcontexts
  rw [htrace, transitions_append, List.mem_append, or_iff_left hplain.not_entered]

theorem modeWrites_append (log log' : List TraceEntry) : modeWrites (log ++ log') =
    modeWrites log ++ modeWrites log' :=
  List.filterMap_append

theorem Plain.values {entries log : List TraceEntry} (hplain : Plain entries) {handle value : Nat} {accepted : Bool}
    (h : .writeChar handle value accepted ∈ log ++ entries) : .writeChar handle value accepted ∈ log := by
  rcases List.mem_append.mp h with hold | hnew
  · exact hold
  · have hwrite := hplain _ hnew
    simp [TraceEntry.isIdle] at hwrite

theorem Quiet.aimed (hquiet : Quiet s t) (h : Aimed db s) : Aimed db t := by
  obtain ⟨hmode, hpolicy, hservices, hcontexts⟩ := hquiet.sources
  obtain ⟨entries, htrace, hplain⟩ := hquiet.trace
  refine ⟨?_, fun operation hop => ?_, fun i handle hhandle hne => ?_, ?_, fun handle value accepted hmem => ?_,
    fun sub hsub => ?_, fun sub hsub => ?_, fun hstage sub hsub => ?_, ?_⟩
  · rw [hservices]
    exact h.recorded
  · rw [hmode, hservices]
    exact h.reads operation (hquiet.reads operation hop)
  · rw [hservices]
    rw [hcontexts] at hhandle
    exact h.modes i handle hhandle hne
  · rw [hplain.plannedWrites htrace hpolicy hcontexts, htrace, modeWrites_append, hplain.modeWrites,
      List.append_nil,
      hquiet.handles]
    exact h.handles
  · rw [hpolicy]
    rw [htrace] at hmem
    exact h.values handle value accepted (hplain.values hmem)
  · rw [hmode, hservices]
    exact h.queue sub (hquiet.queue sub hsub)
  · rw [hmode, hservices]
    rcases hquiet.active sub hsub with hactive | ⟨hqueued, hcccd⟩
    · exact h.active sub hactive
    · exact ⟨h.queue sub hqueued, hcccd⟩
  · obtain ⟨hwaiting, hsame⟩ := hquiet.waiting hstage
    rw [htrace]
    exact (h.waiting hwaiting sub (hsame ▸ hsub)).append entries
  · rw [htrace]
    exact hplain.cccds h.cccds

end

/-! ## The acts that plan, learn or write -/

section

variable {env : Env} {db : GattDatabase} {s : BLEClientHID}

theorem inventory_aimed (hserves : Serves env.gatt db) (hphase : s.setupPhase = .inventory)
    (hphased : Phased s.setup)
    (hforward : Forward s.setup) (h : Aimed db s.setup) : Aimed db (s.inventoryGattDatabase env).1.setup := by
  have hrecorded := inventoryGattDatabase_recorded hserves s
  obtain ⟨hidle, hqueue⟩ := hphased.reads (by simp [setup, hphase])
  obtain ⟨hidle', hqueue'⟩ := hphased.attempts (by simp [setup, hphase, subscribing])
  have hnone (contexts : List HIDServiceContext) (services : List GattServiceInfo) :
      ({ s.setup with contexts, services } : Setup).plannedWrites = [] :=
    plannedWrites_early ⟨hforward.behind, hforward.subscribing⟩ (by simp [setup, hphase, rank])
  obtain ⟨t, services, hash, ⟨reasons, rfl⟩, -, heq⟩ := inventoryGattDatabase_spec env s
  rw [heq] at hrecorded ⊢
  have hstored : Aimed db { s.setup with services, contexts := (contextsOf services).map (·.fixed) } := { h with
    recorded := hrecorded
    reads := fun operation hop => by simp [hidle, hqueue] at hop
    modes := fun i handle hhandle hne => by
      rw [map_fixed_contextsOf] at hhandle
      exact absurd (modeHandleOf_contextsOf hhandle) hne
    handles := by
      rw [hnone]
      exact h.handles.trans (hnone s.setup.contexts s.setup.services)
    queue := fun sub hsub => by simp [hqueue'] at hsub
    active := fun sub hsub => by simp [hidle'] at hsub }
  refine Quiet.aimed ?_ hstored
  exact .note (reasons.map .degraded) rfl (plain_degraded reasons) ⟨rfl, rfl, rfl, rfl⟩ rfl (fun _ h => h)
    rfl rfl rfl

theorem planReads_aimed (h : Aimed db s.setup) (hidle : s.activeRead = none) :
    Aimed db (s.planReads.transition env .reading).setup := by
  have hwanted : ∀ operation ∈ s.planReads.readQueue, operation ∈ wantedReads s.discoveryMode s.services := by
    intro operation hop
    rw [planReads_queue] at hop
    exact mem_of_mem_firstReads (List.mem_of_mem_take hop)
  obtain ⟨t, queue, handles, ⟨reasons, rfl⟩, -, heq⟩ := planReads_spec s
  rw [heq] at hwanted ⊢
  have hplanned : Aimed db { s.setup with readQueue := queue } := { h with
    reads := fun operation hop => by
      rcases hop with hqueued | hactive
      · exact hwanted operation hqueued
      · exact absurd (hidle.symm.trans hactive) (by simp) }
  refine Quiet.aimed (.trans ?_ (transition_quiet env _ (by simp))) hplanned
  exact .note (reasons.map .degraded) rfl (plain_degraded reasons) ⟨rfl, rfl, rfl, rfl⟩ rfl (fun _ h => h)
    rfl rfl rfl

theorem planSubscriptions_aimed (h : Aimed db s.setup) :
    Aimed db (s.planSubscriptions.transition env .registering).setup := by
  have hwanted : ∀ sub ∈ s.planSubscriptions.subscriptionQueue,
    sub ∈ wantedSubscriptions s.discoveryMode s.services := by
    intro sub hsub
    rw [planSubscriptions_queue] at hsub
    exact List.mem_of_mem_take hsub
  obtain ⟨queue, battery, changed, t, ⟨reasons, rfl⟩, -, heq⟩ := planSubscriptions_spec s
  rw [heq] at hwanted ⊢
  have hplanned : Aimed db { s.setup with subscriptionQueue := queue } := { h with queue := hwanted }
  refine Quiet.aimed (.trans ?_ (transition_quiet env _ (by simp))) hplanned
  exact .note (reasons.map .degraded) rfl (plain_degraded reasons) ⟨rfl, rfl, rfl, rfl⟩ rfl (fun _ h => h)
    rfl rfl rfl

theorem ReadEffect.modes {operation : GattReadOperation} {contexts : List HIDServiceContext}
    {sources : List (Nat × HIDReportSource)} {d : Bool} {s : Setup}
      (heffect : ReadEffect operation s contexts sources d)
    (hwanted : operation ∈ wantedReads s.discoveryMode s.services)
    (h : ∀ i handle, modeHandleOf s.contexts i = some handle → handle ≠ 0 → ModeTarget s.services i handle) :
    ∀ i handle, modeHandleOf contexts i = some handle → handle ≠ 0 → ModeTarget s.services i handle := by
  intro i handle hhandle hne
  rcases heffect.mode hwanted hhandle with hold | htarget
  · exact h i handle hold hne
  · exact htarget

theorem finishRead_aimed {operation : GattReadOperation} (status : GattStatus) (value : Buffer)
    (hactive : s.activeRead = some operation) (hphased : Phased s.setup) (hforward : Forward s.setup)
    (h : Aimed db s.setup) : Aimed db (s.finishActiveRead env status value).setup := by
  have hphase := hphased.reading_of_active hactive
  have hnone (contexts : List HIDServiceContext) : ({ s.setup with contexts } : Setup).plannedWrites = [] :=
    plannedWrites_early ⟨hforward.behind, hforward.subscribing⟩ (by simp [hphase, rank])
  obtain ⟨contexts, sources, d, entries, heffect, -, heq⟩ := finishActiveRead_reads env status value hactive
  obtain ⟨contexts', sources', d', reasons, n, heq', -⟩ := finishActiveRead_finished env status value hactive
  generalize (s.finishActiveRead env status value).setup = t at heq heq'
  have hcontexts : contexts' = contexts := (congrArg Setup.contexts heq').symm.trans (congrArg Setup.contexts heq)
  have hmodes := ReadEffect.modes heffect (h.reads operation (.inr hactive)) h.modes
  have hlearned : Aimed db { s.setup with contexts } := { h with
    modes := hmodes
    handles := by
      rw [hnone]
      exact h.handles.trans (hnone s.setup.contexts) }
  rw [heq', hcontexts]
  refine Quiet.aimed ?_ hlearned
  exact .note (reasons.map .degraded) rfl (plain_degraded reasons) ⟨rfl, rfl, rfl, rfl⟩ rfl
    (fun operation hop => hop.imp id (fun hnone => by simp [marked] at hnone)) rfl rfl rfl

theorem lastMode_cases (characteristics : List GattCharacteristicInfo) (last : Nat) :
    lastMode characteristics last = last ∨ ∃ characteristic ∈ characteristics,
      uuid16 characteristic.uuid uuidHidProtocolMode = true ∧ characteristic.handle =
        lastMode characteristics last := by
  unfold lastMode
  induction characteristics generalizing last with
  | nil => exact .inl rfl
  | cons characteristic rest ih =>
    rw [List.foldl_cons]
    rcases ih (if uuid16 characteristic.uuid uuidHidProtocolMode then characteristic.handle else last) with
      hsame | hfound
    · rw [hsame]
      split
      · rename_i hmode
        exact .inr ⟨characteristic, List.mem_cons_self, hmode, rfl⟩
      · exact .inl rfl
    · obtain ⟨other, hmem, hmode, hhandle⟩ := hfound
      exact .inr ⟨other, List.mem_cons_of_mem _ hmem, hmode, hhandle⟩

theorem buildHidProfiles_modes (hcatalog : Catalog s.setup)
    (h : ∀ i handle, modeHandleOf s.setup.contexts i = some handle → handle ≠ 0 → ModeTarget s.services i handle) :
    ∀ i handle, modeHandleOf s.buildHidProfiles.setup.contexts i = some handle → handle ≠ 0 →
      ModeTarget s.services i handle := by
  intro i handle hhandle hne
  have hinstance : i ∈ s.setup.contexts.map (·.serviceInstance) := by
    rw [setup_instances, ← (foldl_profileService_same s.services s).1]
    rw [show s.buildHidProfiles.setup.contexts = s.buildHidProfiles.hidServices.map (·.fixed) from rfl,
      modeHandleOf_fixed] at hhandle
    obtain ⟨context, hfind, -⟩ := Option.map_eq_some_iff.mp hhandle
    exact findHidContext_isSome.mp (Option.isSome_of_mem hfind)
  rw [hcatalog.contexts] at hinstance
  obtain ⟨service, hservice, rfl⟩ := List.mem_map.mp hinstance
  obtain ⟨hmem, hhid⟩ := List.mem_filter.mp hservice
  have hprofile := (foldl_profileService_spec s.services hcatalog.distinct s hmem hhid).1
  rw [show s.buildHidProfiles.setup.contexts = s.buildHidProfiles.hidServices.map (·.fixed) from rfl,
    modeHandleOf_fixed,
    buildHidProfiles, hprofile] at hhandle
  obtain ⟨last, hlast, rfl⟩ := Option.map_eq_some_iff.mp hhandle
  rcases lastMode_cases service.characteristics last with hsame | hfound
  · rw [hsame] at hne ⊢
    refine h service.serviceInstance last ?_ hne
    exact (modeHandleOf_fixed _ _).trans hlast
  · exact ⟨service, hmem, rfl, hhid, hfound⟩

theorem buildProfiles_aimed (hphase : s.setupPhase = .buildingProfile) (hcatalog : Catalog s.setup)
    (hforward : Forward s.setup) (h : Aimed db s.setup) :
    Aimed db (s.buildHidProfiles.collectProtocolWrites env).setup := by
  have hmodes := buildHidProfiles_modes hcatalog h.modes
  have hnone : s.setup.plannedWrites = [] := plannedWrites_early hforward (by simp [setup, hphase, rank])
  have hbefore := h.handles
  rw [hnone, List.append_eq_nil_iff] at hbefore
  obtain ⟨d, contexts, sources, heq⟩ := s.buildHidProfiles_profiles
  rw [collectProtocolWrites_setup, heq]
  rw [heq] at hmodes
  have hwrites : ∀ {log : List TraceEntry}, modeWrites (log ++ [.transition .writingProtocolMode]) =
    modeWrites log := by
    simp [modeWrites, TraceEntry.modeWrite]
  have hcollected : Aimed db { s.setup with
      contexts
      protocolWriteHandles := protocolHandles s.protocolModePolicy contexts
      trace := s.setup.trace ++ [.transition .writingProtocolMode] } := { h with
    modes := hmodes
    handles := by
      rw [hwrites, hbefore.1, plannedWrites, if_pos (by simp [transitions, TraceEntry.entered])]
      rfl
    values := fun handle value accepted hmem => h.values handle value accepted (by simpa using hmem)
    waiting := fun hstage sub hsub => (h.waiting hstage sub hsub).append _
    cccds := h.cccds.concat (by simp) }
  refine Quiet.aimed ?_ hcollected
  exact .note [] (List.append_nil _).symm (by simp [Plain]) ⟨rfl, rfl, rfl, rfl⟩ rfl (fun _ h => h) rfl rfl rfl

theorem writeMode_aimed {handle : Nat} {rest : List Nat} (hhandles : s.protocolWriteHandles = handle :: rest)
    (h : Aimed db s.setup) : Aimed db (s.nextProtocolModeWrite env).setup := by
  have hplan := h.handles
  rw [show s.setup.protocolWriteHandles = handle :: rest from hhandles] at hplan
  rw [nextProtocolModeWrite_eq env hhandles]
  have hsame : ({ s with protocolWriteHandles := rest }.log
      (.writeChar handle (requestedMode s.protocolModePolicy) env.writeCharAccepted)).setup.plannedWrites =
        s.setup.plannedWrites := by
    refine plannedWrites_same rfl rfl ?_
    simp [setup, log, transitions, TraceEntry.entered]
  have hwritten : Aimed db ({ s with protocolWriteHandles := rest }.log
      (.writeChar handle (requestedMode s.protocolModePolicy) env.writeCharAccepted)).setup := { h with
    handles := by
      refine Eq.trans ?_ (hplan.trans hsame.symm)
      change modeWrites (s.trace ++ [_]) ++ rest = _
      rw [modeWrites_append, List.append_assoc]
      rfl
    values := fun handle' value accepted hmem => by
      rcases List.mem_append.mp hmem with hold | hnew
      · exact h.values handle' value accepted hold
      · exact (TraceEntry.writeChar.inj (List.mem_singleton.mp hnew)).2.1
    waiting := fun hstage sub hsub => (h.waiting hstage sub hsub).append _
    cccds := h.cccds.concat (by simp) }
  refine Quiet.aimed ?_ hwritten
  refine .note (if env.writeCharAccepted then [] else [.degraded "Protocol Mode write failed"]) rfl ?_
    ⟨rfl, rfl, rfl, rfl⟩ rfl (fun _ h => h) rfl rfl rfl
  split <;> simp [Plain, TraceEntry.isIdle]

theorem registered_aimed (sub : SubscriptionInfo) (hactive : s.activeSubscription = some sub)
    (h : Aimed db s.setup) :
    Aimed db ({ s with subscriptionState := { s.subscriptionState with
        stage := .waitingForCccd, fallbackAtMs := env.registrationMs + cccdFallbackDelayMs } }.log
          (.registrationResult (some sub) sub.characteristicHandle true .waitForCccd)
            |>.transition env .waitingForCccd).setup := by
  have hplain : Plain [.registrationResult (some sub) sub.characteristicHandle true .waitForCccd] :=
    plain_single rfl
  refine (transition_quiet env _ (by simp)).aimed { h with
    handles := ?_
    values := fun handle value accepted hmem => h.values handle value accepted (hplain.values hmem)
    waiting := fun _ other hother => ?_
    cccds := hplain.cccds h.cccds }
  · refine Eq.trans ?_ (h.handles.trans (Eq.symm (hplain.plannedWrites rfl rfl rfl)))
    change modeWrites (s.trace ++ [_]) ++ s.protocolWriteHandles = _
    rw [modeWrites_append, hplain.modeWrites, List.append_nil]
    rfl
  · obtain rfl := Option.some.inj (hactive.symm.trans hother)
    exact ⟨some sub, List.mem_append_right _ List.mem_cons_self⟩

theorem cccdWrite_of_wanted {services : List GattServiceInfo} {mode : DiscoveryMode} {sub : SubscriptionInfo}
    {log : List TraceEntry} (hrecorded : Recorded db services) (hsub : sub ∈ wantedSubscriptions mode services)
    (hcccd : sub.cccdHandle ≠ 0) (hregistered : HandleRegistered sub.characteristicHandle log) :
    CccdWrite db log sub.cccdHandle (cccdValue sub) := by
  obtain ⟨info, hinfo, hsub⟩ := List.mem_flatMap.mp hsub
  obtain ⟨c, hc, rfl⟩ := List.mem_map.mp hsub
  obtain ⟨hmem, hsubscribes⟩ := List.mem_filter.mp hc
  obtain ⟨service, hservice, hrecords⟩ := hrecorded info hinfo
  obtain ⟨characteristic, hcharacteristic, hrecords⟩ := hrecords.characteristics c hmem
  cases hfind : findDescriptor c uuidCccd with
  | none => simp [subscription, hfind] at hcccd
  | some cccd =>
    obtain ⟨descriptor, hdescriptor, huuid, hhandle⟩ := hrecords.descriptors cccd (List.mem_of_find?_eq_some hfind)
    refine ⟨service, List.mem_of_getElem? hservice, characteristic, hcharacteristic, descriptor,
      hdescriptor, ?_, ?_,
      ?_, ?_, ?_⟩
    · rw [← huuid]
      exact List.find?_some (p := fun descriptor : GattDescriptorInfo => uuid16 descriptor.uuid uuidCccd) hfind
    · simp only [subscription, hfind]
      exact hhandle.symm
    · have hcan : c.canSubscribe = true := (Bool.and_eq_true_iff.mp hsubscribes).1
      unfold GattCharacteristicInfo.canSubscribe at hcan ⊢
      rwa [← hrecords.properties]
    · unfold cccdValue GattCharacteristicInfo.canNotify
      rw [← hrecords.properties]
      exact if_congr bne_iff_ne.symm rfl rfl
    · rw [← hrecords.handle]
      exact hregistered

theorem writeCccd_aimed (sub : SubscriptionInfo) (accepted : Bool) (hactive : s.activeSubscription = some sub)
    (hstage : s.subscriptionState.stage = .waitingForCccd) (h : Aimed db s.setup) :
    Aimed db (s.log (.writeDescr sub.cccdHandle (cccdValue sub) accepted)).setup := by
  obtain ⟨hwanted, hcccd⟩ := h.active sub hactive
  have hwrite := cccdWrite_of_wanted h.recorded hwanted hcccd (h.waiting hstage sub hactive)
  refine { h with
    handles := ?_
    values := fun handle value accepted hmem => h.values handle value accepted (by simpa [setup, log] using hmem)
    waiting := fun hstage sub hsub => (h.waiting hstage sub hsub).append _
    cccds := h.cccds.concat fun handle value accepted heq => ?_ }
  · have hsame : (s.log (.writeDescr sub.cccdHandle (cccdValue sub) accepted)).setup.plannedWrites =
      s.setup.plannedWrites :=
      plannedWrites_same rfl rfl (by simp [setup, log, transitions, TraceEntry.entered])
    refine Eq.trans ?_ (h.handles.trans hsame.symm)
    change modeWrites (s.trace ++ [_]) ++ s.protocolWriteHandles = _
    rw [modeWrites_append]
    simp [modeWrites, TraceEntry.modeWrite, setup]
  · obtain ⟨rfl, rfl, -⟩ := TraceEntry.writeDescr.inj heq
    exact hwrite

theorem Touch.aimed {t : BLEClientHID} (htouch : Touch env s t) (hserves : Serves env.gatt db)
    (hphased : Phased s.setup)
    (hcatalog : Catalog s.setup) (hforward : Forward s.setup) (h : Aimed db s.setup) : Aimed db t.setup := by
  cases htouch with
  | quiet hquiet => exact hquiet.aimed h
  | inventory hphase => exact inventory_aimed hserves hphase hphased hforward h
  | planReads hphase => exact planReads_aimed h (hphased.reads (by simp [setup, hphase])).1
  | finishRead operation status value hactive => exact finishRead_aimed status value hactive hphased hforward h
  | buildProfiles hphase => exact buildProfiles_aimed hphase hcatalog hforward h
  | writeMode handle rest _ hhandles => exact writeMode_aimed hhandles h
  | planSubscriptions => exact planSubscriptions_aimed h
  | registered sub hactive => exact registered_aimed sub hactive h
  | writeCccd sub accepted hactive hstage hquiet => exact hquiet.aimed (writeCccd_aimed sub accepted hactive
    hstage h)

end

/-! ## Runs -/

/-- What every state of a connection keeps. -/
structure Warranted (db : GattDatabase) (s : BLEClientHID) : Prop where
  course : OnCourse s
  catalog : Catalog s.setup
  aimed : Aimed db s.setup

section

variable {env : Env} {fails : Bool} {db : GattDatabase} {s t : BLEClientHID}

theorem Moves.catalog {s t : Setup} (hmoves : Moves fails s t) (haligned : Aligned s) (hphased : Phased s)
    (h : Catalog s) : Catalog t :=
  (moves_invariant (fun s => Phased s ∧ Catalog s)
    (fun _ _ _ _ hinv hmove => ⟨hmove.phased hinv.1, hmove.catalog hinv.1 hinv.2⟩) haligned ⟨hphased, h⟩ hmoves).2

theorem Act.warranted (hact : Act env fails s t) (hserves : Serves env.gatt db) (haligned : Aligned s.setup)
    (hphased : Phased s.setup) (h : Warranted db s) : Warranted db t where
  course := (Acts.onCourse_accounts (.single hact) haligned hphased h.course).1
  catalog := Moves.catalog (acts_moves env haligned (.single hact)) haligned hphased h.catalog
  aimed := hact.touch.aimed hserves hphased h.catalog h.course.forward h.aimed

theorem Deadline.warranted (hdeadline : Deadline env s t) (haligned : Aligned s.setup) (hphased : Phased s.setup)
    (h : Warranted db s) : Warranted db t where
  course := hdeadline.onCourse haligned hphased h.course
  catalog := (show Move false _ _ from deadline_move env hdeadline).catalog hphased h.catalog
  aimed := hdeadline.quiet.aimed h.aimed

theorem aimed_fresh {s : Setup} (hservices : s.services = []) (hcontexts : s.contexts = [])
    (hreads : s.readQueue = [] ∧ s.activeRead = none) (hhandles : s.protocolWriteHandles = [])
    (hattempts : s.subscriptionQueue = [] ∧ s.activeSubscription = none) (hplain : Plain s.trace) : Aimed db s where
  recorded := by simp [hservices, Recorded]
  reads := by simp [hreads]
  modes := by simp [hcontexts, modeHandleOf, findHidContext]
  handles := by
    rw [hplain.modeWrites, hhandles, plannedWrites, if_neg hplain.not_entered]
    rfl
  values handle value accepted hmem := by
    have hwrite := hplain _ hmem
    simp [TraceEntry.isIdle] at hwrite
  queue := by simp [hattempts]
  active := by simp [hattempts]
  waiting := by simp [hattempts]
  cccds := hplain.cccds (show CccdLaw db [] from fun before handle value accepted after heq => by simp at heq)

theorem reachable_warranted (h : ReachableWhen (fun _ event => Serves event.env.gatt db) s) : Warranted db s := by
  refine reachableWhen_turns (Warranted db) (fun discoveryMode policy interval => ?_)
    (fun _ _ _ _ hserves haligned hphased hinv hact => hact.warranted hserves haligned hphased hinv)
    (fun _ _ _ haligned hphased hinv hdeadline => hdeadline.warranted haligned hphased hinv) (fun s env => ?_)
    (fun s env status haligned hphased hbefore hinv => ?_) h
  · refine ⟨reachable_onCourse (.initial discoveryMode policy interval), catalog_fresh rfl rfl rfl rfl, ?_⟩
    exact aimed_fresh rfl rfl ⟨rfl, rfl⟩ rfl ⟨rfl, rfl⟩ (by simp [setup, initial, Plain])
  · obtain ⟨hconnect, hdisconnect⟩ := start_onCourse s env
    refine ⟨⟨hconnect, catalog_fresh rfl rfl rfl rfl, ?_⟩, ⟨hdisconnect, catalog_fresh rfl rfl rfl rfl, ?_⟩⟩
    · apply aimed_fresh rfl rfl ⟨rfl, rfl⟩ rfl ⟨rfl, rfl⟩
      simp [setup, log, transition, resetConnectionState, Plain, TraceEntry.isIdle]
    · apply aimed_fresh rfl rfl ⟨rfl, rfl⟩ rfl ⟨rfl, rfl⟩
      simp [setup, transition, resetConnectionState, Plain, TraceEntry.isIdle]
  · refine ⟨search_onCourse env status haligned hphased hbefore hinv.course, ?_, ?_⟩
    · obtain ⟨entries, -, heq⟩ := handleSearchComplete_searched env s status
      rw [heq]
      exact hinv.catalog.searched status entries
    · refine Quiet.aimed (Quiet.trans (log_quiet s (e := .searchComplete status) rfl) ?_) hinv.aimed
      unfold handleSearchComplete
      dsimp only
      split
      · exact (markDegraded_quiet _ _).trans (finalizeSetup_quiet env _)
      · exact transition_quiet env _ (by simp)

end

/-! ## The law of writes -/

/-- A Protocol Mode characteristic inside a HID service of the database. -/
def ModeCharacteristic (db : GattDatabase) (handle : Nat) : Prop :=
  ∃ service ∈ db.services, uuid16 service.uuid uuidHidService = true ∧ ∃ characteristic ∈ service.characteristics,
    uuid16 characteristic.uuid uuidHidProtocolMode = true ∧ characteristic.handle = handle

structure WritesKnown (db : GattDatabase) (s : BLEClientHID) : Prop where
  cccd : ∀ before handle value accepted after, s.trace = before ++ .writeDescr handle value accepted :: after →
    CccdWrite db before handle value
  mode : ∀ handle value accepted, .writeChar handle value accepted ∈ s.trace →
    s.protocolModePolicy ≠ .unchanged ∧ (value = 0 ∨ value = 1) ∧ ModeCharacteristic db handle
  once : ∀ service ∈ db.services, (modeWrites s.trace).countP (fun handle =>
    service.characteristics.any (·.handle == handle)) ≤ 1

section

variable {db : GattDatabase} {s : BLEClientHID}

theorem ModeTarget.recorded {services : List GattServiceInfo} {serviceInstance handle : Nat}
    (hrecorded : Recorded db services) (h : ModeTarget services serviceInstance handle) :
    ∃ service, db.services[serviceInstance]? = some service ∧ uuid16 service.uuid uuidHidService = true ∧
      ∃ characteristic ∈ service.characteristics, uuid16 characteristic.uuid uuidHidProtocolMode = true ∧
        characteristic.handle = handle := by
  obtain ⟨info, hinfo, rfl, hhid, c, hc, hmode, rfl⟩ := h
  obtain ⟨service, hservice, hrecords⟩ := hrecorded info hinfo
  obtain ⟨characteristic, hcharacteristic, hrecords'⟩ := hrecords.characteristics c hc
  refine ⟨service, hservice, ?_, characteristic, hcharacteristic, ?_, hrecords'.handle.symm⟩
  · rwa [← hrecords.uuid]
  · rwa [← hrecords'.uuid]

/-- A handle that a context keeps is in the HID service of that instance. -/
theorem Warranted.context_target (h : Warranted db s) {context : HIDServiceContext}
    (hmem : context ∈ s.setup.contexts)
    (hne : context.protocolModeHandle ≠ 0) :
    ∃ service, db.services[context.serviceInstance]? = some service ∧ uuid16 service.uuid uuidHidService = true ∧
      ∃ characteristic ∈ service.characteristics, uuid16 characteristic.uuid uuidHidProtocolMode = true ∧
        characteristic.handle = context.protocolModeHandle := by
  refine ModeTarget.recorded h.aimed.recorded (h.aimed.modes context.serviceInstance
    context.protocolModeHandle ?_ hne)
  unfold modeHandleOf
  rw [findHidContext_of_mem h.catalog.contexts_distinct hmem]
  rfl

theorem mem_plannedWrites {s : Setup} {handle : Nat} (h : handle ∈ s.plannedWrites) :
    s.protocolModePolicy ≠ .unchanged ∧ handle ∈ (s.contexts.map (·.protocolModeHandle)).filter (· ≠ 0) := by
  unfold plannedWrites protocolHandles at h
  split at h
  · split at h
    · simp at h
    · rename_i hpolicy
      exact ⟨hpolicy, h⟩
  · simp at h

theorem Warranted.mode_written (h : Warranted db s) {handle value : Nat} {accepted : Bool}
    (hmem : .writeChar handle value accepted ∈ s.trace) :
    s.protocolModePolicy ≠ .unchanged ∧ (value = 0 ∨ value = 1) ∧ ModeCharacteristic db handle := by
  have hwritten : handle ∈ modeWrites s.trace := List.mem_filterMap.mpr ⟨_, hmem, rfl⟩
  have hplanned : handle ∈ s.setup.plannedWrites := by
    rw [← h.aimed.handles]
    exact List.mem_append_left _ hwritten
  obtain ⟨hpolicy, hhandle⟩ := mem_plannedWrites hplanned
  refine ⟨hpolicy, ?_, ?_⟩
  · rw [h.aimed.values handle value accepted hmem]
    unfold requestedMode
    split
    · exact .inl rfl
    · exact .inr rfl
  · obtain ⟨hcontext, hne⟩ := List.mem_filter.mp hhandle
    obtain ⟨context, hkept, rfl⟩ := List.mem_map.mp hcontext
    obtain ⟨service, hservice, htarget⟩ := h.context_target hkept (by simpa using hne)
    exact ⟨service, List.mem_of_getElem? hservice, htarget⟩

/-- The contexts that point into a service are those of its instance. -/
theorem Warranted.mode_once (h : Warranted db s) {service : GattServiceInfo} (hservice : service ∈ db.services) :
    (modeWrites s.trace).countP (fun handle => service.characteristics.any (·.handle == handle)) ≤ 1 := by
  obtain ⟨i, hi⟩ := List.mem_iff_getElem?.mp hservice
  have hinstance (context : HIDServiceContext) (hcontext : context ∈ s.setup.contexts)
      (hcounts : service.characteristics.any (·.handle == context.protocolModeHandle) = true ∧
        context.protocolModeHandle ≠ 0) : context.serviceInstance = i := by
    obtain ⟨characteristic, hmem, hhandle⟩ := List.any_eq_true.mp hcounts.1
    obtain ⟨service', hservice', -, characteristic', hmem', -, hhandle'⟩ := h.context_target hcontext hcounts.2
    exact db.service_index hservice' hi hmem' hmem (hhandle'.trans (eq_of_beq hhandle).symm)
  have hone : s.setup.contexts.countP (·.serviceInstance == i) ≤ 1 := by
    have hcount := List.nodup_iff_count_le_one.mp h.catalog.contexts_distinct i
    rwa [List.count, List.countP_map] at hcount
  have hprefix : (modeWrites s.trace).Sublist s.setup.plannedWrites := by
    rw [← h.aimed.handles]
    exact List.sublist_append_left _ _
  apply hprefix.countP_le.trans
  unfold plannedWrites protocolHandles
  split
  · split
    · simp
    · rw [List.countP_filter, List.countP_map]
      refine le_trans (List.countP_mono_left fun context hcontext hcounts => ?_) hone
      simp only [Function.comp_apply, Bool.and_eq_true, decide_eq_true_eq] at hcounts
      exact beq_iff_eq.mpr (hinstance context hcontext hcounts)
  · simp

/-- Nothing else is ever written, in either discovery mode and with every policy. -/
theorem writes_known (db : GattDatabase) (h : ReachableWhen (fun _ event => Serves event.env.gatt db) s) :
    WritesKnown db s := by
  have hwarranted := reachable_warranted h
  refine ⟨hwarranted.aimed.cccds, fun handle value accepted hmem => ?_, fun service hservice => ?_⟩
  · exact hwarranted.mode_written hmem
  · exact hwarranted.mode_once hservice

end

def modeDatabase : GattDatabase where
  services := modeServices
  distinct := by decide

/-- Everything is read, and the component writes the CCCD itself once the write of the stack has failed. -/
def modeWriting : List Event :=
  exampleRun modeServices (connectAndSearch ++ [none] ++ readReportMap ++
    [none, some (.read 0 6 .ok (.bytes [0, 0]))] ++ readReference ++ [none, none] ++
    [some (.regForNotify 5 .ok), some (.writeDescr 0 6 .notFound)])

theorem exampleRun_env (services : List GattServiceInfo) (events : List (Option GattcEvent)) {event : Event}
    (h : event ∈ exampleRun services events) : event.env = exampleEnv services := by
  obtain ⟨answer, -, rfl⟩ := List.mem_map.mp h
  cases answer <;> rfl

theorem writes_known_mode :
    let s := run (initial .forensic .report 0) modeWriting
    .writeChar 9 1 true ∈ s.trace ∧ .writeDescr 6 1 true ∈ s.trace ∧ WritesKnown modeDatabase s := by
  refine ⟨by decide +kernel, by decide +kernel, writes_known modeDatabase ?_⟩
  apply reachableWhen_run (.initial ..) modeWriting (by decide +kernel)
  intro n hn
  rw [exampleRun_env modeServices _ (List.getElem_mem hn)]
  exact ofServices_serves modeDatabase

end BleClientHid

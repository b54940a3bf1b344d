import BleClientHid.Component.Bookkeeping
import BleClientHid.Component.Course

/-! # The component follows its course

Every act is a step of the course, every deadline a cut.
-/

namespace BleClientHid

open Setup BLEClientHID

/-! ## The phases entered -/

def TraceEntry.entered : TraceEntry → Option SetupPhase
  | .transition phase => some phase
  | _ => none

/-- The calls of `transition_`, in order. -/
def transitions (log : List TraceEntry) : List SetupPhase := log.filterMap TraceEntry.entered

theorem transitions_append (log log' : List TraceEntry) :
    transitions (log ++ log') = transitions log ++ transitions log' := List.filterMap_append

@[simp] theorem transitions_degraded (reasons : List String) : transitions (reasons.map .degraded) = [] := by
  simp [transitions, Function.comp_def, TraceEntry.entered]

def rank : SetupPhase → Nat
  | .disconnected | .waitingForDiscovery => 0
  | .inventory => 1
  | .reading => 2
  | .buildingProfile => 3
  | .writingProtocolMode => 4
  | .registering | .waitingForCccd => 5
  | .ready | .degraded | .noHid => 6

/-- The phases only go on, and the subscriptions are planned before the first attempt. -/
structure Forward (s : Setup) : Prop where
  behind : ∀ phase ∈ transitions s.trace, rank phase ≤ rank s.setupPhase
  subscribing : subscribing s.setupPhase = true → .registering ∈ transitions s.trace

/-- The setup stays in its phase, or enters the next one. -/
inductive Enters (s t : Setup) : Prop where
  | stays (hphase : t.setupPhase = s.setupPhase) (htransitions : transitions t.trace = transitions s.trace)
  | enters (htransitions : transitions t.trace = transitions s.trace ++ [t.setupPhase])
      (hrank : rank s.setupPhase ≤ rank t.setupPhase)
      (hsubscribing : BleClientHid.subscribing t.setupPhase = true →
        t.setupPhase = .registering ∨ BleClientHid.subscribing s.setupPhase = true)

theorem Enters.forward {s t : Setup} (h : Enters s t) (hforward : Forward s) : Forward t := by
  obtain ⟨hbehind, hsub⟩ := hforward
  cases h with
  | stays hphase htransitions => exact ⟨by rwa [hphase, htransitions], by rwa [hphase, htransitions]⟩
  | enters htransitions hrank hsubscribing =>
    constructor
    · rw [htransitions, List.forall_mem_append, List.forall_mem_singleton]
      exact ⟨fun phase hphase => (hbehind phase hphase).trans hrank, le_refl _⟩
    · intro hphase
      rw [htransitions, List.mem_append, List.mem_singleton]
      rcases hsubscribing hphase with hregistering | hbefore
      · exact .inr hregistering.symm
      · exact .inl (hsub hbefore)

theorem Enters.rank_le {s t : Setup} (h : Enters s t) : rank s.setupPhase ≤ rank t.setupPhase := by
  cases h with
  | stays hphase => rw [hphase]
  | enters _ hrank => exact hrank

theorem Forward.not_entered {s : Setup} (h : Forward s) {phase : SetupPhase}
    (hrank : rank s.setupPhase < rank phase) :
    phase ∉ transitions s.trace := fun hmem => absurd (h.behind phase hmem) (by omega)

/-! ## Plans -/

namespace Setup

variable (s : Setup)

/-- The reads that `plan_reads_` has queued in this connection. -/
def plannedReads : List GattReadOperation :=
  if .reading ∈ transitions s.trace then
    (firstReads (wantedReads s.discoveryMode s.services)).take maxReadOperations
  else []

/-- The Protocol Mode characteristics that are to be written. -/
def plannedWrites : List Nat :=
  if .writingProtocolMode ∈ transitions s.trace then protocolHandles s.protocolModePolicy s.contexts else []

/-- The subscriptions that `plan_subscriptions_` has queued. -/
def plannedSubscriptions : List SubscriptionInfo :=
  if .registering ∈ transitions s.trace then
    (wantedSubscriptions s.discoveryMode s.services).take maxSubscriptions
  else []

def courseOf (counted : Nat) : Course where
  phase := s.setupPhase
  turns := (transitions s.trace).length
  reads := s.readQueue.length + s.activeRead.toList.length
  writes := s.protocolWriteHandles.length
  queued := s.subscriptionQueue.length
  active := s.activeSubscription.isSome
  counted
  plannedReads := s.plannedReads.length
  plannedWrites := s.plannedWrites.length
  plannedSubscriptions := s.plannedSubscriptions.length

end Setup

namespace BLEClientHID

def counted (s : BLEClientHID) : Nat := s.operationsSucceeded + s.operationsFailed

def course (s : BLEClientHID) : Course := s.setup.courseOf s.counted

end BLEClientHID

section

variable {s t : Setup}

theorem plannedReads_same (hmode : t.discoveryMode = s.discoveryMode) (hservices : t.services = s.services)
    (hentered : .reading ∈ transitions t.trace ↔ .reading ∈ transitions s.trace) : t.plannedReads =
      s.plannedReads := by
  unfold plannedReads
  simp only [hmode, hservices, hentered]

theorem plannedWrites_same (hpolicy : t.protocolModePolicy = s.protocolModePolicy)
    (hcontexts : t.contexts = s.contexts)
    (hentered : .writingProtocolMode ∈ transitions t.trace ↔ .writingProtocolMode ∈ transitions s.trace) :
    t.plannedWrites = s.plannedWrites := by
  unfold plannedWrites
  simp only [hpolicy, hcontexts, hentered]

theorem plannedSubscriptions_same (hmode : t.discoveryMode = s.discoveryMode) (hservices : t.services = s.services)
    (hentered : .registering ∈ transitions t.trace ↔ .registering ∈ transitions s.trace) :
    t.plannedSubscriptions = s.plannedSubscriptions := by
  unfold plannedSubscriptions
  simp only [hmode, hservices, hentered]

/-- The plans of the phases that have not been entered are empty. -/
theorem plannedReads_early (h : Forward s) (hrank : rank s.setupPhase < rank .reading) : s.plannedReads = [] :=
  if_neg (h.not_entered hrank)

theorem plannedWrites_early (h : Forward s) (hrank : rank s.setupPhase < rank .writingProtocolMode) :
    s.plannedWrites = [] :=
  if_neg (h.not_entered hrank)

theorem plannedSubscriptions_early (h : Forward s) (hrank : rank s.setupPhase < rank .registering) :
    s.plannedSubscriptions = [] :=
  if_neg (h.not_entered hrank)

/-- What the plans are made from. -/
structure SameSources (s t : Setup) : Prop where
  mode : t.discoveryMode = s.discoveryMode
  policy : t.protocolModePolicy = s.protocolModePolicy
  services : t.services = s.services
  contexts : t.contexts = s.contexts

def hasPlan (phase : SetupPhase) : Bool :=
  phase == .reading || phase == .writingProtocolMode || phase == .registering

theorem SameSources.plans (h : SameSources s t)
    (hentered : ∀ phase, hasPlan phase = true → (phase ∈ transitions t.trace ↔ phase ∈ transitions s.trace)) :
    t.plannedReads = s.plannedReads ∧ t.plannedWrites = s.plannedWrites ∧
      t.plannedSubscriptions = s.plannedSubscriptions :=
  ⟨plannedReads_same h.mode h.services (hentered _ rfl), plannedWrites_same h.policy h.contexts (hentered _ rfl),
    plannedSubscriptions_same h.mode h.services (hentered _ rfl)⟩

theorem courseOf_stays (h : SameSources s t) (hphase : t.setupPhase = s.setupPhase)
    (htransitions : transitions t.trace = transitions s.trace) (n m : Nat) :
    t.courseOf m = { s.courseOf n with
      reads := t.readQueue.length + t.activeRead.toList.length
      writes := t.protocolWriteHandles.length
      queued := t.subscriptionQueue.length
      active := t.activeSubscription.isSome
      counted := m } := by
  obtain ⟨hreads, hwrites, hsubscriptions⟩ := h.plans (fun phase _ => by rw [htransitions])
  unfold courseOf
  rw [hphase, htransitions, hreads, hwrites, hsubscriptions]

/-- The course of a setup that enters a phase without a plan, or one that it has entered before. -/
theorem courseOf_enters (h : SameSources s t)
    (htransitions : transitions t.trace = transitions s.trace ++ [t.setupPhase])
    (hplan : hasPlan t.setupPhase = true → t.setupPhase ∈ transitions s.trace) (n m : Nat) :
    t.courseOf m = { s.courseOf n with
      phase := t.setupPhase
      turns := (s.courseOf n).turns + 1
      reads := t.readQueue.length + t.activeRead.toList.length
      writes := t.protocolWriteHandles.length
      queued := t.subscriptionQueue.length
      active := t.activeSubscription.isSome
      counted := m } := by
  have hentered : ∀ phase, hasPlan phase = true → (phase ∈ transitions t.trace ↔ phase ∈ transitions s.trace) := by
    rintro phase hphase
    rw [htransitions, List.mem_append, List.mem_singleton]
    constructor
    · rintro (hbefore | rfl)
      · exact hbefore
      · exact hplan hphase
    · exact .inl
  obtain ⟨hreads, hwrites, hsubscriptions⟩ := h.plans hentered
  unfold courseOf
  rw [hreads, hwrites, hsubscriptions, htransitions, List.length_append, List.length_singleton]

end

/-! ## Reads -/

namespace BLEClientHID

/-- What a finished read leaves: its effect, and marks. -/
def Learned (s t : BLEClientHID) : Prop :=
  ∃ (contexts : List HIDServiceContext) (sources : List (Nat × HIDReportSource)) (d : Bool) (reasons : List String),
    t.setup = { s.setup with contexts, sources }.marked d (reasons.map .degraded) ∧
      t.operationsSucceeded = s.operationsSucceeded ∧ s.operationsFailed ≤ t.operationsFailed ∧
      t.phaseStartedMs = s.phaseStartedMs

namespace Learned

variable {s t : BLEClientHID}

theorem plain (hsucceeded : t.operationsSucceeded = s.operationsSucceeded)
    (hfailed : t.operationsFailed = s.operationsFailed) (hstarted : t.phaseStartedMs = s.phaseStartedMs)
    (h : t.setup = { s.setup with contexts := t.setup.contexts, sources := t.setup.sources }) : Learned s t :=
  ⟨t.setup.contexts, t.setup.sources, false, [], by rw [List.map_nil, marked_nil]; exact h, hsucceeded,
    hfailed.ge, hstarted⟩

theorem refl (s : BLEClientHID) : Learned s s := plain rfl rfl rfl rfl

theorem mark (h : Learned s t) (reason : String) : Learned s (t.markDegraded reason) := by
  obtain ⟨contexts, sources, d, reasons, heq, hsucceeded, hfailed, hstarted⟩ := h
  refine ⟨contexts, sources, d || true, reasons ++ [reason], ?_, hsucceeded, hfailed.trans (Nat.le_succ _),
    hstarted⟩
  rw [List.map_append, ← marked_marked, ← heq]
  simp [markDegraded, setup, marked]

theorem check (p : Prop) [Decidable p] (reason : String) (s : BLEClientHID) :
    Learned s (if p then s else s.markDegraded reason) := by
  split
  · exact .refl s
  · exact (refl s).mark reason

end Learned

section

variable (env : Env) (operation : GattReadOperation) (value : List UInt8) (s : BLEClientHID)

theorem readReportReference_learned : Learned s (readReportReference operation value s) := by
  unfold readReportReference
  dsimp only
  split
  · split
    · exact (Learned.plain rfl rfl rfl rfl).mark _
    · exact .plain rfl rfl rfl rfl
  · exact (Learned.plain rfl rfl rfl rfl).mark _

theorem readReportMap_learned : Learned s (readReportMap env operation value s) := by
  unfold readReportMap
  dsimp only
  split
  · exact (Learned.refl s).mark _
  · split
    · exact (Learned.plain rfl rfl rfl rfl).mark _
    · exact .plain rfl rfl rfl rfl

theorem readValue_learned : Learned s (readValue env operation value s) := by
  unfold readValue
  split
  · exact .check _ _ s
  · unfold readPreferredConnectionParameters
    split
    · exact .plain rfl rfl rfl rfl
    · exact (Learned.refl s).mark _
  · unfold readBatteryLevel
    cases value with
    | nil => exact (Learned.plain rfl rfl rfl rfl).mark _
    | cons =>
      dsimp only
      rw [publishBattery_eq]
      exact .plain rfl rfl rfl rfl
  · exact .check _ _ s
  · exact .check _ _ s
  · unfold readProtocolMode
    split
    · exact .plain rfl rfl rfl rfl
    · exact (Learned.refl s).mark _
  · exact readReportMap_learned env operation value s
  · exact readReportReference_learned operation value s
  · exact .check _ _ s
  · exact .refl s

end

/-- The active read is over, and is counted at least once. -/
def ReadFinished (s t : BLEClientHID) : Prop :=
  ∃ (contexts : List HIDServiceContext) (sources : List (Nat × HIDReportSource)) (d : Bool) (reasons : List String)
    (n : Nat), t.setup = { s.setup with activeRead := none, contexts, sources }.marked d (reasons.map .degraded) ∧
      t.counted = s.counted + (n + 1) ∧ t.phaseStartedMs = s.phaseStartedMs

theorem operationFailed_readFinished (required : Bool) (reason : String) (s : BLEClientHID) :
    ReadFinished s ({ s with activeRead := none }.operationFailed required reason) := by
  refine ⟨s.setup.contexts, s.setup.sources, required, if required then [reason] else [], 0, ?_, ?_, ?_⟩
  · rw [operationFailed_eq]
    cases required <;> rfl
  · rw [operationFailed_eq]
    simp only [counted]
    omega
  · rw [operationFailed_eq]

theorem Learned.readFinished {s t : BLEClientHID}
    (h : Learned { s with activeRead := none, operationsSucceeded := s.operationsSucceeded + 1 } t) :
    ReadFinished s t := by
  obtain ⟨contexts, sources, d, reasons, heq, hsucceeded, hfailed, hstarted⟩ := h
  refine ⟨contexts, sources, d, reasons, t.operationsFailed - s.operationsFailed, heq, ?_, hstarted⟩
  simp only [counted] at hsucceeded hfailed ⊢
  omega

theorem finishActiveRead_finished (env : Env) (status : GattStatus) (value : Buffer) {s : BLEClientHID}
    {operation : GattReadOperation} (hactive : s.activeRead = some operation) :
    ReadFinished s (s.finishActiveRead env status value) := by
  unfold finishActiveRead
  rw [hactive]
  dsimp only
  split
  · exact operationFailed_readFinished ..
  · split
    · exact operationFailed_readFinished ..
    · apply Learned.readFinished
      rw [processReadValue.eq_def]
      split
      · split
        · exact (Learned.refl _).mark _
        · exact .refl _
      · exact readValue_learned env operation [] _
      · exact readValue_learned env operation _ _

/-! ## Profiles -/

theorem profileService_counted (s : BLEClientHID) (service : GattServiceInfo) :
    (s.profileService service).counted = s.counted := by
  have hcharacteristic (s : BLEClientHID) (characteristic : GattCharacteristicInfo) :
      (s.profileCharacteristic service characteristic).counted = s.counted := by
    unfold profileCharacteristic
    split
    · dsimp only
      split <;> split <;> rfl
    · rfl
  have hreferences (s : BLEClientHID) : (s.checkReferences service.serviceInstance).counted = s.counted := by
    unfold checkReferences
    split
    · rfl
    · split <;> rfl
  unfold profileService
  split
  · rfl
  · rw [hreferences]
    exact List.foldlRecOn (motive := fun t => t.counted = s.counted) service.characteristics _ rfl
      fun t ht characteristic _ => (hcharacteristic t characteristic).trans ht

theorem buildHidProfiles_counted (s : BLEClientHID) : s.buildHidProfiles.counted = s.counted :=
  List.foldlRecOn (motive := fun t => t.counted = s.counted) s.services _ rfl
    fun t ht service _ => (profileService_counted t service).trans ht

end BLEClientHID

/-! ## Every act follows the course -/

/-- The phases go on, and the course makes a step of this kind. -/
structure Follows (next : Course → Course → Prop) (s t : BLEClientHID) : Prop where
  enters : Enters s.setup t.setup
  step : next s.course t.course

namespace Follows

variable {next : Course → Course → Prop} {s t : BLEClientHID}

/-- The course of a component that stays in its phase. -/
def staying (s t : BLEClientHID) : Course := { s.course with
  reads := t.readQueue.length + t.activeRead.toList.length
  writes := t.protocolWriteHandles.length
  queued := t.subscriptionQueue.length
  active := t.activeSubscription.isSome
  counted := t.counted }

theorem note (entries : List TraceEntry) (hphase : t.setupPhase = s.setupPhase)
    (htrace : t.trace = s.trace ++ entries) (hnone : transitions entries = [])
    (hsources : SameSources s.setup t.setup) (hstep : next s.course (staying s t)) : Follows next s t := by
  have htransitions : transitions t.trace = transitions s.trace := by
    rw [htrace, transitions_append, hnone, List.append_nil]
  refine ⟨.stays hphase htransitions, ?_⟩
  rw [show t.course = staying s t from courseOf_stays hsources hphase htransitions s.counted t.counted]
  exact hstep

/-- The course of a component that enters a phase. -/
def entering (s t : BLEClientHID) : Course := { staying s t with
  phase := t.setupPhase
  turns := s.course.turns + 1 }

theorem turn (entries : List TraceEntry) (htrace : t.trace = s.trace ++ entries ++ [.transition t.setupPhase])
    (hnone : transitions entries = []) (hrank : rank s.setupPhase ≤ rank t.setupPhase)
    (hplan : hasPlan t.setupPhase = true → t.setupPhase ∈ transitions s.trace)
    (hsubscribing : subscribing t.setupPhase = true → subscribing s.setupPhase = true)
    (hsources : SameSources s.setup t.setup) (hstep : next s.course (entering s t)) : Follows next s t := by
  have htransitions : transitions t.trace = transitions s.trace ++ [t.setupPhase] := by
    rw [htrace, transitions_append, transitions_append, hnone, List.append_nil]
    rfl
  refine ⟨.enters htransitions hrank fun hphase => .inr (hsubscribing hphase), ?_⟩
  rw [show t.course = entering s t from courseOf_enters hsources htransitions hplan s.counted t.counted]
  exact hstep

end Follows

theorem rank_le (phase : SetupPhase) : rank phase ≤ 6 := by cases phase <;> simp [rank]

theorem finalPhase_cases (s : BLEClientHID) : s.finalPhase = .ready ∨ s.finalPhase = .degraded := by
  unfold finalPhase
  split
  · exact .inr rfl
  · exact .inl rfl

theorem transitions_params (p : Prop) [Decidable p] : transitions (if p then [.updateConnParams] else []) = [] := by
  split <;> rfl

theorem transitions_marked (p : Prop) [Decidable p] (reason : String) :
    transitions (if p then [.degraded reason] else []) = [] := by
  split <;> rfl

theorem finalizeSetup_follows (env : Env) {next : Course → Course → Prop} {s t : BLEClientHID}
    (entries : List TraceEntry)
    (htrace : t.trace = s.trace ++ entries) (hnone : transitions entries = [])
    (hsources : SameSources s.setup t.setup)
    (hstep : next s.course
      { Follows.staying s t with phase := t.finalPhase, turns := s.course.turns + 1 }) :
    Follows next s (t.finalizeSetup env) := by
  have hfinal := finalPhase_cases t
  rw [finalizeSetup_eq]
  refine .turn (entries ++ if t.preferredConnParamsValid then [.updateConnParams] else []) ?_ ?_ ?_ ?_ ?_
    ⟨hsources.mode, hsources.policy, hsources.services, hsources.contexts⟩ hstep
  · simp only [htrace, List.append_assoc]
  · rw [transitions_append, hnone, transitions_params]
    rfl
  · rcases hfinal with hphase | hphase <;>
      · dsimp only
        rw [hphase]
        exact rank_le _
  · rcases hfinal with hphase | hphase <;> simp [hphase, hasPlan]
  · rcases hfinal with hphase | hphase <;> simp [hphase, subscribing]

theorem giveUp_follows (env : Env) {s : BLEClientHID} (hforward : Forward s.setup) {sub : SubscriptionInfo}
    (reason : String) {entry : TraceEntry} (hentry : entry.entered = none)
    (hphase : s.setupPhase = .registering ∨ s.setupPhase = .waitingForCccd)
      (hactive : s.activeSubscription = some sub) :
    Follows Course.Step s ((s.log entry).giveUp sub reason |>.transition env .registering) := by
  have hone : transitions [entry] = [] := by simp [transitions, hentry]
  have hsub : subscribing s.setupPhase = true := by rcases hphase with h | h <;> simp [h, subscribing]
  rw [giveUp_eq]
  refine .turn ([entry] ++ ((if sub.required then [.degraded reason] else []) ++ [.subscriptionReset])) ?_ ?_ ?_
    (fun _ => hforward.subscribing hsub) (fun _ => hsub) ⟨rfl, rfl, rfl, rfl⟩ ?_
  · simp only [transition, log, List.append_assoc]
  · rw [transitions_append, transitions_append, transitions_marked, hone]
    rfl
  · rcases hphase with h | h <;> simp [transition, h, rank]
  · exact .ended hphase (by simp [course, courseOf, setup, hactive])

section

variable {env : Env} {fails : Bool} {s t : BLEClientHID}

theorem subscribing_cases {phase : SetupPhase} (h : subscribing phase = true) :
    phase = .registering ∨ phase = .waitingForCccd := by
  revert h
  cases phase <;> simp [subscribing]

theorem course_active {sub : SubscriptionInfo} (h : s.activeSubscription = some sub) : s.course.active = true := by
  simp [course, courseOf, setup, h]

theorem course_idle (h : s.activeSubscription = none) : s.course.active = false := by
  simp [course, courseOf, setup, h]

theorem course_queued {sub : SubscriptionInfo} {rest : List SubscriptionInfo}
    (h : s.subscriptionQueue = sub :: rest) :
    s.course.queued = rest.length + 1 := congrArg List.length h

theorem course_reads {operation : GattReadOperation} {rest : List GattReadOperation} (hidle : s.activeRead = none)
    (hqueue : s.readQueue = operation :: rest) : s.course.reads = rest.length + 1 := by
  simp [course, courseOf, setup, hidle, hqueue]

theorem planned_inventory {s : Setup} (h : Forward s) (hphase : s.setupPhase = .inventory) :
    s.plannedReads = [] ∧ s.plannedWrites = [] ∧ s.plannedSubscriptions = [] := by
  refine ⟨plannedReads_early h ?_, plannedWrites_early h ?_, plannedSubscriptions_early h ?_⟩ <;>
    · rw [hphase]
      decide

theorem inventory_follows (env : Env) (hphase : s.setupPhase = .inventory) (hforward : Forward s.setup) :
    Follows Course.Step s (s.inventoryGattDatabase env).1 := by
  obtain ⟨u, services, hash, ⟨reasons, rfl⟩, -, heq⟩ := inventoryGattDatabase_spec env s
  generalize (s.inventoryGattDatabase env).1 = t at heq
  have htransitions : transitions t.trace = transitions s.trace := by
    rw [heq]
    exact (transitions_append _ _).trans (by rw [transitions_degraded, List.append_nil])
  have htphase : t.setupPhase = s.setupPhase := by
    rw [heq]
    rfl
  have hcounted : t.counted = s.counted + reasons.length := by
    rw [heq]
    simp only [counted, marks]
    omega
  have henters : Enters s.setup t.setup := .stays htphase htransitions
  obtain ⟨hreads, hwrites, hsubscriptions⟩ := planned_inventory hforward hphase
  obtain ⟨hreads', hwrites', hsubscriptions'⟩ := planned_inventory (henters.forward hforward) (htphase.trans hphase)
  refine ⟨henters, ?_⟩
  have hcourse : t.course = s.course.count reasons.length := by
    unfold course courseOf Course.count
    rw [hreads, hwrites, hsubscriptions, hreads', hwrites', hsubscriptions',
      show transitions t.setup.trace = transitions s.setup.trace from htransitions, hcounted, heq]
    rfl
  rw [hcourse]
  exact .count _

theorem mem_entered {s t : Setup} {entered phase : SetupPhase}
    (htransitions : transitions t.trace = transitions s.trace ++ [entered]) (hne : phase ≠ entered) :
    phase ∈ transitions t.trace ↔ phase ∈ transitions s.trace := by
  rw [htransitions, List.mem_append, List.mem_singleton, or_iff_left hne]

theorem marks_transitions (reasons : List String) (phase : SetupPhase) (log : List TraceEntry) :
    transitions (log ++ reasons.map .degraded ++ [.transition phase]) = transitions log ++ [phase] := by
  rw [transitions_append, transitions_append, transitions_degraded, List.append_nil]
  rfl

theorem planReads_follows (env : Env) (hphase : s.setupPhase = .inventory) (hphased : Phased s.setup)
    (hforward : Forward s.setup) : Follows Course.Step s (s.planReads.transition env .reading) := by
  have hqueue := planReads_queue s
  obtain ⟨u, queue, handles, ⟨reasons, rfl⟩, -, heq⟩ := planReads_spec s
  rw [heq] at hqueue ⊢
  generalize ht : transition env .reading _ = t
  obtain ⟨hreads, hwrites, hsubscriptions⟩ := planned_inventory hforward hphase
  -- the marks of the plan are no transitions: READING is the one entry that counts
  have htransitions : transitions t.setup.trace = transitions s.setup.trace ++ [.reading] := by
    rw [← ht]
    exact marks_transitions reasons .reading s.trace
  have hreads' : t.setup.plannedReads = queue := by
    unfold plannedReads
    rw [if_pos (by simp [htransitions]), ← ht]
    exact hqueue.symm
  have hwrites' : t.setup.plannedWrites = s.setup.plannedWrites := by
    refine plannedWrites_same ?_ ?_ (mem_entered htransitions (by simp)) <;> rw [← ht] <;> rfl
  have hsubscriptions' : t.setup.plannedSubscriptions = s.setup.plannedSubscriptions := by
    refine plannedSubscriptions_same ?_ ?_ (mem_entered htransitions (by simp)) <;> rw [← ht] <;> rfl
  have hidle : t.setup.activeRead = none := by
    rw [← ht]
    exact (hphased.reads (by simp [setup, hphase])).1
  have hcounted : t.counted = s.counted + reasons.length := by
    rw [← ht]
    simp only [counted, transition, marks]
    omega
  constructor
  · refine .enters ?_ ?_ ?_
    · rw [htransitions, ← ht]
      rfl
    · rw [← ht]
      simp [setup, transition, hphase, rank]
    · rw [← ht]
      simp [setup, transition, subscribing]
  · -- the course counts the operations it could not plan and then turns
    have hcourse : t.course = { s.course.count reasons.length with
        reads := queue.length, plannedReads := queue.length }.turn .reading := by
      unfold course courseOf
      rw [htransitions, hreads', hwrites', hsubscriptions', hidle, hcounted, List.length_append, ← ht]
      rfl
    rw [hcourse]
    exact .planReads queue.length reasons.length hphase (by simp [course, courseOf, hreads])

theorem collectWrites_follows (env : Env) (hphase : s.setupPhase = .buildingProfile) (hforward : Forward s.setup) :
    Follows Course.Step s (s.buildHidProfiles.collectProtocolWrites env) := by
  obtain ⟨d, contexts, sources, heq⟩ := s.buildHidProfiles_profiles
  have hcounted : (s.buildHidProfiles.collectProtocolWrites env).counted = s.counted := s.buildHidProfiles_counted
  have hsetup := collectProtocolWrites_setup env s.buildHidProfiles
  rw [heq] at hsetup
  generalize s.buildHidProfiles.collectProtocolWrites env = t at hsetup hcounted
  have htransitions : transitions t.setup.trace = transitions s.setup.trace ++ [.writingProtocolMode] := by
    rw [hsetup]
    exact transitions_append _ _
  have hreads' : t.setup.plannedReads = s.setup.plannedReads := by
    refine plannedReads_same ?_ ?_ (mem_entered htransitions (by simp)) <;> rw [hsetup] <;> rfl
  have hwrites' : t.setup.plannedWrites = t.setup.protocolWriteHandles := by
    unfold plannedWrites
    rw [if_pos (by simp [htransitions]), hsetup]
    rfl
  have hsubscriptions' : t.setup.plannedSubscriptions = s.setup.plannedSubscriptions := by
    refine plannedSubscriptions_same ?_ ?_ (mem_entered htransitions (by simp)) <;> rw [hsetup] <;> rfl
  constructor
  · refine .enters ?_ ?_ ?_
    · rw [htransitions, hsetup]
      rfl
    · rw [hsetup]
      simp [collectWrites, goto, setup, hphase, rank]
    · rw [hsetup]
      simp [collectWrites, goto, subscribing]
  · have hcourse : t.course = { s.course with
        writes := t.setup.protocolWriteHandles.length
        plannedWrites := t.setup.protocolWriteHandles.length }.turn .writingProtocolMode := by
      unfold course courseOf
      rw [htransitions, hreads', hwrites', hsubscriptions', hcounted, List.length_append, hsetup]
      rfl
    rw [hcourse]
    refine .collectWrites _ hphase ?_
    exact congrArg List.length (plannedWrites_early hforward (by simp [setup, hphase, rank]))

theorem planSubscriptions_follows (env : Env) (hphase : s.setupPhase = .writingProtocolMode)
    (hhandles : s.protocolWriteHandles = []) (hphased : Phased s.setup) (hforward : Forward s.setup) :
    Follows Course.Step s (s.planSubscriptions.transition env .registering) := by
  have hqueue := planSubscriptions_queue s
  obtain ⟨queue, battery, changed, u, ⟨reasons, rfl⟩, -, heq⟩ := planSubscriptions_spec s
  rw [heq] at hqueue ⊢
  generalize ht : transition env .registering _ = t
  have htransitions : transitions t.setup.trace = transitions s.setup.trace ++ [.registering] := by
    rw [← ht]
    exact marks_transitions reasons .registering s.trace
  have hreads' : t.setup.plannedReads = s.setup.plannedReads := by
    refine plannedReads_same ?_ ?_ (mem_entered htransitions (by simp)) <;> rw [← ht] <;> rfl
  have hwrites' : t.setup.plannedWrites = s.setup.plannedWrites := by
    refine plannedWrites_same ?_ ?_ (mem_entered htransitions (by simp)) <;> rw [← ht] <;> rfl
  have hsubscriptions' : t.setup.plannedSubscriptions = queue := by
    unfold plannedSubscriptions
    rw [if_pos (by simp [htransitions]), ← ht]
    exact hqueue.symm
  have hidle : s.activeSubscription = none := (hphased.attempts (by simp [setup, hphase, subscribing])).1
  have hcounted : t.counted = s.counted + reasons.length := by
    rw [← ht]
    simp only [counted, transition, marks]
    omega
  constructor
  · refine .enters ?_ ?_ ?_
    · rw [htransitions, ← ht]
      rfl
    · rw [← ht]
      simp [setup, transition, hphase, rank]
    · rw [← ht]
      exact fun _ => .inl rfl
  · have hcourse : t.course = { s.course.count reasons.length with
        queued := queue.length, plannedSubscriptions := queue.length }.turn .registering := by
      unfold course courseOf
      rw [htransitions, hreads', hwrites', hsubscriptions', hcounted, List.length_append, ← ht]
      rfl
    rw [hcourse]
    refine .planSubscriptions queue.length reasons.length hphase (congrArg List.length hhandles)
      (course_idle hidle) ?_
    exact congrArg List.length (plannedSubscriptions_early hforward (by simp [setup, hphase, rank]))

theorem finishRead_follows {operation : GattReadOperation} (status : GattStatus) (value : Buffer)
    (hactive : s.activeRead = some operation) (hphased : Phased s.setup) (hforward : Forward s.setup) :
    Follows Course.Step s (s.finishActiveRead env status value) := by
  obtain ⟨contexts, sources, d, reasons, n, hsetup, hcounted, -⟩ :=
    finishActiveRead_finished env status value hactive
  generalize s.finishActiveRead env status value = t at hsetup hcounted
  have hphase := hphased.reading_of_active hactive
  have htransitions : transitions t.setup.trace = transitions s.setup.trace := by
    rw [hsetup]
    exact (transitions_append _ _).trans (by rw [transitions_degraded, List.append_nil])
  have htphase : t.setup.setupPhase = s.setup.setupPhase := by
    rw [hsetup]
    rfl
  have henters : Enters s.setup t.setup := .stays htphase htransitions
  have hreads' : t.setup.plannedReads = s.setup.plannedReads := by
    refine plannedReads_same ?_ ?_ (by rw [htransitions]) <;> rw [hsetup] <;> rfl
  have hwrites' : t.setup.plannedWrites = s.setup.plannedWrites := by
    rw [plannedWrites_early hforward (by simp [hphase, rank]),
      plannedWrites_early (henters.forward hforward) (by simp [htphase, hphase, rank])]
  have hsubscriptions' : t.setup.plannedSubscriptions = s.setup.plannedSubscriptions := by
    refine plannedSubscriptions_same ?_ ?_ (by rw [htransitions]) <;> rw [hsetup] <;> rfl
  refine ⟨henters, ?_⟩
  have hcourse : t.course = { s.course.count (n + 1) with reads := s.readQueue.length } := by
    unfold course courseOf
    rw [htransitions, hreads', hwrites', hsubscriptions', hcounted, hsetup]
    rfl
  rw [hcourse]
  refine .settleRead _ n hphase ?_
  simp [course, courseOf, setup, hactive]

theorem Act.follows (hact : Act env fails s t) (hphased : Phased s.setup)
    (hstaged : Staged s.setup) (hforward : Forward s.setup) : Follows Course.Step s t := by
  have hsub {sub : SubscriptionInfo} (hactive : s.activeSubscription = some sub) :=
    subscribing_cases (hphased.subscribing_of_active hactive)
  cases hact with
  | beside h =>
    refine ⟨by rw [h.setup]; exact .stays rfl rfl, ?_⟩
    have hcourse : t.course = s.course.count 0 := by
      rw [course, h.setup, counted, h.succeeded, h.failed]
      rfl
    rw [hcourse]
    exact .count 0
  | request entry hentry =>
    refine .note [entry] rfl rfl ?_ ⟨rfl, rfl, rfl, rfl⟩ (.count 0)
    cases entry <;> first | rfl | simp [TraceEntry.isRequest] at hentry
  | inventory hphase => exact inventory_follows env hphase hforward
  | inventoryFailed hphase =>
    exact finalizeSetup_follows env [.degraded _] rfl rfl ⟨rfl, rfl, rfl, rfl⟩ (.inventoryFailed 1 hphase)
  | noHid hphase =>
    exact .turn [] (by simp [transition]) rfl (by simp [transition, hphase, rank]) (by simp [transition, hasPlan])
      (by simp [transition, subscribing]) ⟨rfl, rfl, rfl, rfl⟩ (.noHid hphase)
  | planReads hphase => exact planReads_follows env hphase hphased hforward
  | startRead operation rest hphase hfree hidle hqueue =>
    refine .note [readRequest env operation] rfl rfl ?_ ⟨rfl, rfl, rfl, rfl⟩ ?_
    · unfold readRequest
      split <;> rfl
    · -- the read is still to be done, now as the active one
      have hsame : Follows.staying s (s.startRead env operation rest) = s.course.count 0 := by
        simp [Follows.staying, course, courseOf, setup, BLEClientHID.startRead, log, Course.count, hidle,
          hqueue, counted]
      rw [hsame]
      exact .count 0
  | readNotScheduled operation rest hphase hfree hidle hqueue =>
    rw [operationFailed_eq]
    refine .note ([readRequest env operation] ++ _) rfl (List.append_assoc ..) ?_ ⟨rfl, rfl, rfl, rfl⟩
      (.settleRead rest.length 0 hphase (course_reads hidle hqueue))
    rw [transitions_append, transitions_marked]
    unfold readRequest
    split <;> rfl
  | finishRead operation status value hactive => exact finishRead_follows status value hactive hphased hforward
  | readsDone hphase hidle hqueue =>
    exact .turn [] (by simp [transition]) rfl (by simp [transition, hphase, rank]) (by simp [transition, hasPlan])
      (by simp [transition, subscribing]) ⟨rfl, rfl, rfl, rfl⟩
      (.readsDone hphase (by simp [course, courseOf, setup, hidle, hqueue]))
  | buildProfiles hphase => exact collectWrites_follows env hphase hforward
  | writeMode handle rest hphase hhandles =>
    rw [nextProtocolModeWrite_eq env hhandles]
    refine .note ([.writeChar handle (requestedMode s.protocolModePolicy) env.writeCharAccepted] ++
      if env.writeCharAccepted then [] else [.degraded "Protocol Mode write failed"]) rfl ?_ ?_
        ⟨rfl, rfl, rfl, rfl⟩ ?_
    · simp only [List.append_assoc]
    · rw [transitions_append]
      split <;> rfl
    · -- accepted or not, the write is counted
      have hone : env.writeCharAccepted.toNat + (!env.writeCharAccepted).toNat = 1 := by
        cases env.writeCharAccepted <;> rfl
      have hcounted : s.operationsSucceeded + s.operationsFailed + 1 =
          s.operationsSucceeded + env.writeCharAccepted.toNat +
            (s.operationsFailed + (!env.writeCharAccepted).toNat) := by
        omega
      refine cast (congrArg _ ?_) (Course.Step.write (c := s.course) rest.length hphase
        (congrArg List.length hhandles))
      simp only [Follows.staying, course, courseOf, Course.count, counted, hcounted]
      rfl
  | planSubscriptions hphase hhandles => exact planSubscriptions_follows env hphase hhandles hphased hforward
  | begin sub rest hphase hfree hidle hqueue =>
    exact .note [.begin sub] rfl rfl rfl ⟨rfl, rfl, rfl, rfl⟩
      (.begin rest.length hphase (course_idle hidle) (course_queued hqueue))
  | beginWithoutCccd sub rest hphase hfree hidle hqueue =>
    rw [giveUp_eq]
    refine .note ([.begin sub] ++ ((if sub.required then [.degraded "required notification has no CCCD"] else []) ++
      [.subscriptionReset])) rfl ?_ ?_ ⟨rfl, rfl, rfl, rfl⟩ ?_
    · simp only [beginAttempt, log, List.append_assoc]
    · rw [transitions_append, transitions_append, transitions_marked]
      rfl
    · have hcourse := Course.Step.beginWithoutCccd rest.length hphase (course_idle hidle) (course_queued hqueue)
      refine cast (congrArg _ ?_) hcourse
      have hcounted : s.operationsSucceeded + s.operationsFailed + 1 =
        s.operationsSucceeded + (s.operationsFailed + 1) :=
        Nat.add_assoc ..
      simp only [Follows.staying, course, courseOf, setup, beginAttempt, log, Course.count, counted, hidle,
        hcounted]
  | notScheduled sub hphase hactive =>
    rw [giveUp_eq]
    refine .note ((if sub.required then [.degraded "required notification registration failed"] else []) ++
      [.subscriptionReset]) rfl ?_ ?_ ⟨rfl, rfl, rfl, rfl⟩ (.notScheduled hphase (course_active hactive))
    · simp only [List.append_assoc]
    · rw [transitions_append, transitions_marked]
      rfl
  | registrationIgnored | cccdIgnored | retry | writeCccd =>
    exact .note [_] rfl rfl rfl ⟨rfl, rfl, rfl, rfl⟩ (.count 0)
  | registered sub hactive hstage =>
    have hphase : s.setupPhase = .registering := hstaged.registering hstage
    exact .turn [_] rfl rfl (by simp [transition, log, hphase, rank]) (by simp [transition, hasPlan])
      (fun _ => by simp [hphase, subscribing]) ⟨rfl, rfl, rfl, rfl⟩ (.registered hphase (course_active hactive))
  | registrationFailed sub hactive | writeRejected sub hactive | cccdFailed sub _ hactive =>
    exact giveUp_follows env hforward _ rfl (hsub hactive) hactive
  | complete sub hactive hstage =>
    have hphase := hsub hactive
    have hsubscribing := hphased.subscribing_of_active hactive
    refine .turn [.cccdResult (some sub) sub.cccdHandle true .complete, .subscriptionReset] ?_ rfl ?_
      (fun _ => hforward.subscribing hsubscribing) (fun _ => hsubscribing) ⟨rfl, rfl, rfl, rfl⟩ ?_
    · simp [transition, resetSubscription, log]
    · rcases hphase with h | h <;> simp [transition, rank, show s.setupPhase = _ from h]
    · refine cast (congrArg _ ?_) (Course.Step.ended (c := s.course) hphase (course_active hactive))
      have hcounted : s.operationsSucceeded + s.operationsFailed + 1 =
        s.operationsSucceeded + 1 + s.operationsFailed :=
        Nat.add_right_comm ..
      simp only [Follows.entering, Follows.staying, course, courseOf, Course.count, Course.turn, counted, hcounted]
      rfl
  | finish hphase hidle hqueue =>
    exact finalizeSetup_follows env [] (List.append_nil _).symm rfl ⟨rfl, rfl, rfl, rfl⟩
      (.finish _ hphase (course_idle hidle) (by simp [course, courseOf, setup, hqueue]) (finalPhase_cases s))

/-- What `handle_phase_timeout_` says before it ends the phase. -/
def timeoutEntries (phase : SetupPhase) : List TraceEntry :=
  [.timeout phase, .degraded ("timeout in " ++ phaseName phase)]

theorem timedOut_trace (s : BLEClientHID) : s.timedOut.trace = s.trace ++ timeoutEntries s.setupPhase :=
  List.append_assoc ..

theorem Deadline.follows (hdeadline : Deadline env s t) : Follows Course.Cut s t := by
  cases hdeadline with
  | reading hphase =>
    refine .turn (timeoutEntries s.setupPhase) ?_ rfl ?_ (by simp [transition, hasPlan])
      (by simp [transition, BleClientHid.subscribing]) ⟨rfl, rfl, rfl, rfl⟩ (.reading hphase)
    · exact congrArg (· ++ _) (timedOut_trace s)
    · simp [transition, hphase, rank]
  | subscribing hphase =>
    refine finalizeSetup_follows env (timeoutEntries s.setupPhase ++ [.subscriptionReset]) ?_ rfl
      ⟨rfl, rfl, rfl, rfl⟩ (.subscribing hphase)
    rw [← List.append_assoc, ← timedOut_trace]
    rfl
  | other hphase hphase' hphase'' hwaits =>
    refine finalizeSetup_follows env (timeoutEntries s.setupPhase) (timedOut_trace s) rfl ⟨rfl, rfl, rfl, rfl⟩
      (.other ?_)
    change s.setupPhase = _ ∨ s.setupPhase = _ ∨ s.setupPhase = _
    revert hphase hphase' hphase'' hwaits
    cases s.setupPhase <;> simp [waits]

theorem search_follows (env : Env) (status : GattStatus) (hbefore : beforeSearch s.setupPhase = true) :
    Follows Course.Search s (s.handleSearchComplete env status) := by
  have hphase : s.setupPhase = .disconnected ∨ s.setupPhase = .waitingForDiscovery := by
    revert hbefore
    cases s.setupPhase <;> simp [beforeSearch]
  rw [handleSearchComplete]
  split
  · exact finalizeSetup_follows env [.searchComplete status, .degraded "GATT service discovery failed"]
      (List.append_assoc ..) rfl ⟨rfl, rfl, rfl, rfl⟩ (.failed hphase)
  · refine .turn [.searchComplete status] rfl rfl ?_ (by simp [transition, hasPlan])
      (by simp [transition, BleClientHid.subscribing]) ⟨rfl, rfl, rfl, rfl⟩ (.inventory hphase)
    rcases hphase with h | h <;> simp [log, h, rank]

/-! ## Over runs -/

/-- What every state of a connection keeps. -/
structure OnCourse (s : BLEClientHID) : Prop where
  staged : Staged s.setup
  forward : Forward s.setup
  bounded : s.course.Bounded

theorem Acts.onCourse_accounts (hacts : Acts env fails s t) (haligned : Aligned s.setup) (hphased : Phased s.setup)
    (h : OnCourse s) : OnCourse t ∧ Course.Accounts s.course t.course := by
  induction hacts with
  | refl => exact ⟨h, .refl _⟩
  | tail hacts hact ih =>
    obtain ⟨hcourse, haccounts⟩ := ih
    obtain ⟨haligned, hphased⟩ := Acts.aligned_phased hacts haligned hphased
    have hfollows := hact.follows hphased hcourse.staged hcourse.forward
    exact ⟨⟨hact.staged haligned hphased hcourse.staged, hfollows.enters.forward hcourse.forward,
      hfollows.step.bounded hcourse.bounded⟩, haccounts.trans hfollows.step.accounts⟩

theorem Deadline.onCourse (hdeadline : Deadline env s t) (haligned : Aligned s.setup) (hphased : Phased s.setup)
    (h : OnCourse s) : OnCourse t :=
  have hfollows := hdeadline.follows
  ⟨hdeadline.staged haligned hphased h.staged, hfollows.enters.forward h.forward, hfollows.step.bounded h.bounded⟩

theorem start_course (s : BLEClientHID) (env : Env) :
    ((s.resetConnectionState.transition env .waitingForDiscovery).log .setEncryption).course =
        .start .waitingForDiscovery ∧
      (s.resetConnectionState.transition env .disconnected).course = .start .disconnected := by
  constructor <;> rfl

theorem start_onCourse (s : BLEClientHID) (env : Env) :
    OnCourse ((s.resetConnectionState.transition env .waitingForDiscovery).log .setEncryption) ∧
      OnCourse (s.resetConnectionState.transition env .disconnected) := by
  obtain ⟨hconnect, hdisconnect⟩ := start_course s env
  obtain ⟨hstaged, hstaged'⟩ := start_staged s env
  refine ⟨⟨hstaged, ⟨?_, ?_⟩, ?_⟩, hstaged', ⟨?_, ?_⟩, ?_⟩
  · simp [setup, transition, log, resetConnectionState, transitions, TraceEntry.entered]
  · simp [setup, transition, log, subscribing]
  · rw [hconnect]
    exact le_refl _
  · simp [setup, transition, resetConnectionState, transitions, TraceEntry.entered]
  · simp [setup, transition, subscribing]
  · rw [hdisconnect]
    exact le_refl _

theorem search_onCourse (env : Env) (status : GattStatus) (haligned : Aligned s.setup) (hphased : Phased s.setup)
    (hbefore : beforeSearch s.setupPhase = true) (h : OnCourse s) : OnCourse (s.handleSearchComplete env status) :=
  have hfollows := search_follows env status hbefore
  ⟨search_staged env status haligned hphased hbefore h.staged, hfollows.enters.forward h.forward,
    hfollows.step.bounded h.bounded⟩

theorem reachable_onCourse (h : Reachable s) : OnCourse s := by
  refine reachable_turns OnCourse (fun _ _ _ => ?_) (fun _ _ _ _ haligned hphased hinv hact => ?_)
    (fun _ _ _ haligned hphased hinv hdeadline => hdeadline.onCourse haligned hphased hinv) start_onCourse
    (fun s env status haligned hphased hbefore hinv => search_onCourse env status haligned hphased hbefore hinv) h
  · refine ⟨.of_idle rfl (by simp [setup, initial]) List.nodup_nil, ⟨?_, ?_⟩, ?_⟩
    · simp [setup, initial, transitions]
    · simp [setup, initial, subscribing]
    · simp only [Course.Bounded, Course.budget, course, courseOf, setup, initial, transitions]
      exact (by decide : 6 ≤ 7).trans (Nat.le_add_right ..)
  · exact (Acts.onCourse_accounts (.single hact) haligned hphased hinv).1

end

end BleClientHid

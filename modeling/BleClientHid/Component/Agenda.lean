import BleClientHid.Component.CourseRefinement
import BleClientHid.Lib.Worklist

/-! # The agenda of a connection

A connection asks for what it has planned: the reads, then the Protocol Mode
writes, then the subscriptions.
-/

namespace BleClientHid

open Setup BLEClientHID Lib

/-! ## Requests -/

inductive Request where
  | read (handle : Nat) (descriptor : Bool)
  | writeMode (handle value : Nat)
  | subscribe (subscription : SubscriptionInfo)
  deriving DecidableEq, Repr

def Request.ofRead (operation : GattReadOperation) : Request := .read operation.handle operation.descriptor

namespace TraceEntry

/-- What the entry asks for, accepted or not. -/
def request : TraceEntry → Option Request
  | .readChar handle _ => some (.read handle false)
  | .readDescr handle _ => some (.read handle true)
  | .writeChar handle value _ => some (.writeMode handle value)
  | .begin subscription => some (.subscribe subscription)
  | _ => none

/-- Asks for nothing, and enters no phase. -/
def isMute (entry : TraceEntry) : Bool := entry.request.isNone && entry.entered.isNone

end TraceEntry

/-- What a connection has asked for, in order. -/
def requests (log : List TraceEntry) : List Request := log.filterMap TraceEntry.request

def Mute (entries : List TraceEntry) : Prop := ∀ entry ∈ entries, entry.isMute = true

theorem requests_append (log log' : List TraceEntry) : requests (log ++ log') = requests log ++ requests log' :=
  List.filterMap_append

theorem mute_append {entries entries' : List TraceEntry} (h : Mute entries) (h' : Mute entries') :
    Mute (entries ++ entries') := List.forall_mem_append.mpr ⟨h, h'⟩

theorem mute_single {entry : TraceEntry} (h : entry.isMute = true) : Mute [entry] := List.forall_mem_singleton.mpr h

theorem mute_marked (p : Prop) [Decidable p] (reason : String) : Mute (if p then [.degraded reason] else []) := by
  split <;> simp [Mute, TraceEntry.isMute, TraceEntry.request, TraceEntry.entered]

theorem mute_degraded (reasons : List String) : Mute (reasons.map .degraded) := by
  intro entry hentry
  obtain ⟨reason, -, rfl⟩ := List.mem_map.mp hentry
  rfl

theorem marks_requests (reasons : List String) (phase : SetupPhase) (log : List TraceEntry) :
    requests (log ++ reasons.map .degraded ++ [.transition phase]) = requests log := by
  simp [requests, Function.comp_def, TraceEntry.request]

theorem Mute.silent {entries : List TraceEntry} (h : Mute entries) :
    requests entries = [] ∧ transitions entries = [] := by
  unfold requests transitions
  rw [List.filterMap_eq_nil_iff, List.filterMap_eq_nil_iff]
  constructor <;> intro entry hentry <;>
    · have hmute := h entry hentry
      simp only [TraceEntry.isMute, Bool.and_eq_true, Option.isNone_iff_eq_none] at hmute
      simp [hmute]

theorem request_readRequest (env : Env) (operation : GattReadOperation) :
    (readRequest env operation).request = some (.ofRead operation) := by
  unfold readRequest Request.ofRead
  cases hdescriptor : operation.descriptor <;> simp [TraceEntry.request]

/-! ## The agenda -/

namespace Setup

/-- The phase ended by its deadline. -/
def Late (phase : SetupPhase) (s : Setup) : Prop := .timeout phase ∈ s.trace

/-- Of each plan the front is done, and its queue is what is left of it. -/
structure Agenda (s : Setup) (reads : List GattReadOperation) (writes : List Nat)
    (subscriptions : List SubscriptionInfo) : Prop where
  asked : requests s.trace = reads.map Request.ofRead ++
    writes.map (Request.writeMode · (requestedMode s.protocolModePolicy)) ++ subscriptions.map Request.subscribe
  reads : Worklist (s.Late .reading) s.plannedReads reads s.readQueue
  writes : Worklist False s.plannedWrites writes s.protocolWriteHandles
  subscriptions : Worklist (s.Late .registering ∨ s.Late .waitingForCccd) s.plannedSubscriptions subscriptions
    s.subscriptionQueue
  written : .registering ∈ transitions s.trace → s.protocolWriteHandles = []

def OnAgenda (s : Setup) : Prop := ∃ reads writes subscriptions, s.Agenda reads writes subscriptions

/-- Both have the same plans, and what has come too late has. -/
structure SamePlans (s t : Setup) : Prop where
  policy : t.protocolModePolicy = s.protocolModePolicy
  reads : t.plannedReads = s.plannedReads
  writes : t.plannedWrites = s.plannedWrites
  subscriptions : t.plannedSubscriptions = s.plannedSubscriptions
  written : .registering ∈ transitions t.trace ↔ .registering ∈ transitions s.trace
  late : ∀ phase, s.Late phase → t.Late phase

theorem SamePlans.of_sources {s t : Setup} (hsources : SameSources s t) (entries : List TraceEntry)
    (htrace : t.trace = s.trace ++ entries)
    (hentered : ∀ phase ∈ transitions entries, hasPlan phase = true → phase ∈ transitions s.trace) :
    SamePlans s t := by
  have hsame : ∀ phase, hasPlan phase = true → (phase ∈ transitions t.trace ↔ phase ∈ transitions s.trace) := by
    intro phase hplan
    rw [htrace, transitions_append, List.mem_append]
    exact ⟨fun h => h.elim id fun hnew => hentered phase hnew hplan, .inl⟩
  obtain ⟨hreads, hwrites, hsubscriptions⟩ := hsources.plans hsame
  refine ⟨hsources.policy, hreads, hwrites, hsubscriptions, hsame _ rfl, fun phase hlate => ?_⟩
  unfold Late at hlate ⊢
  rw [htrace]
  exact List.mem_append_left _ hlate

/-- Nothing is planned, and nothing asked for. -/
structure Unasked (s t : Setup) : Prop where
  plans : SamePlans s t
  reads : t.readQueue = s.readQueue
  writes : t.protocolWriteHandles = s.protocolWriteHandles
  subscriptions : t.subscriptionQueue = s.subscriptionQueue
  asked : requests t.trace = requests s.trace

namespace Unasked

variable {s t u : Setup}

theorem note (entries : List TraceEntry) (htrace : t.trace = s.trace ++ entries) (hmute : Mute entries)
    (hsources : SameSources s t) (hreads : t.readQueue = s.readQueue)
    (hwrites : t.protocolWriteHandles = s.protocolWriteHandles)
    (hsubscriptions : t.subscriptionQueue = s.subscriptionQueue) : Unasked s t := by
  obtain ⟨hasked, hentered⟩ := hmute.silent
  refine ⟨.of_sources hsources entries htrace (by simp [hentered]), hreads, hwrites, hsubscriptions, ?_⟩
  rw [htrace, requests_append, hasked, List.append_nil]

theorem refl (s : Setup) : Unasked s s :=
  .note [] (List.append_nil _).symm (by simp [Mute]) ⟨rfl, rfl, rfl, rfl⟩ rfl rfl rfl

theorem trans (h : Unasked s t) (h' : Unasked t u) : Unasked s u where
  plans :=
    ⟨h'.plans.policy.trans h.plans.policy, h'.plans.reads.trans h.plans.reads, h'.plans.writes.trans h.plans.writes,
      h'.plans.subscriptions.trans h.plans.subscriptions, h'.plans.written.trans h.plans.written,
      fun phase hlate => h'.plans.late phase (h.plans.late phase hlate)⟩
  reads := h'.reads.trans h.reads
  writes := h'.writes.trans h.writes
  subscriptions := h'.subscriptions.trans h.subscriptions
  asked := h'.asked.trans h.asked

end Unasked

/-! ## What changes the agenda -/

section

variable {s t : Setup} {reads : List GattReadOperation} {writes : List Nat} {subscriptions : List SubscriptionInfo}

theorem Agenda.follow (h : s.Agenda reads writes subscriptions) (hplans : SamePlans s t)
    {reads' : List GattReadOperation} {writes' : List Nat} {subscriptions' : List SubscriptionInfo}
    (hasked : requests t.trace = reads'.map Request.ofRead ++
      writes'.map (Request.writeMode · (requestedMode s.protocolModePolicy)) ++
        subscriptions'.map Request.subscribe)
    (hreads : Worklist (t.Late .reading) s.plannedReads reads' t.readQueue)
    (hwrites : Worklist False s.plannedWrites writes' t.protocolWriteHandles)
    (hsubscriptions : Worklist (t.Late .registering ∨ t.Late .waitingForCccd) s.plannedSubscriptions subscriptions'
      t.subscriptionQueue)
    (hleft : s.protocolWriteHandles = [] → t.protocolWriteHandles = []) : t.Agenda reads' writes' subscriptions' where
  asked := by rw [hasked, hplans.policy]
  reads := by rwa [hplans.reads]
  writes := by rwa [hplans.writes]
  subscriptions := by rwa [hplans.subscriptions]
  written hregistering := hleft (h.written (hplans.written.mp hregistering))

theorem Agenda.unasked (h : s.Agenda reads writes subscriptions) (hunasked : Unasked s t) :
    t.Agenda reads writes subscriptions := by
  have hlate := hunasked.plans.late
  refine h.follow hunasked.plans (hunasked.asked.trans h.asked) ?_ ?_ ?_ fun hnone => hunasked.writes.trans hnone
  · rw [hunasked.reads]
    exact h.reads.mono (hlate _)
  · rw [hunasked.writes]
    exact h.writes
  · rw [hunasked.subscriptions]
    exact h.subscriptions.mono (Or.imp (hlate _) (hlate _))

theorem Agenda.read (h : s.Agenda reads writes subscriptions) (hplans : SamePlans s t) {operation : GattReadOperation}
    {rest : List GattReadOperation} (hqueue : s.readQueue = operation :: rest) (hrest : t.readQueue = rest)
    (hwrites : t.protocolWriteHandles = s.protocolWriteHandles)
    (hsubscriptions : t.subscriptionQueue = s.subscriptionQueue)
    (hasked : requests t.trace = requests s.trace ++ [.ofRead operation])
    (hnoWrites : s.plannedWrites = []) (hnoSubscriptions : s.plannedSubscriptions = []) :
    t.Agenda (reads ++ [operation]) writes subscriptions := by
  have hlate := hplans.late
  have hnone : writes = [] := (hnoWrites ▸ h.writes).of_nil.1
  have hnone' : subscriptions = [] := (hnoSubscriptions ▸ h.subscriptions).of_nil.1
  refine h.follow hplans ?_ ?_ (by rw [hwrites]; exact h.writes) ?_ fun hleft => hwrites.trans hleft
  · rw [hasked, h.asked, hnone, hnone']
    simp
  · rw [hrest]
    exact (hqueue ▸ h.reads).next.mono (hlate _)
  · rw [hsubscriptions]
    exact h.subscriptions.mono (Or.imp (hlate _) (hlate _))

theorem Agenda.write (h : s.Agenda reads writes subscriptions) (hplans : SamePlans s t) {handle : Nat} {rest : List Nat}
    (hqueue : s.protocolWriteHandles = handle :: rest) (hrest : t.protocolWriteHandles = rest)
    (hreads : t.readQueue = s.readQueue) (hsubscriptions : t.subscriptionQueue = s.subscriptionQueue)
    (hasked : requests t.trace = requests s.trace ++ [.writeMode handle (requestedMode s.protocolModePolicy)])
    (hnoSubscriptions : s.plannedSubscriptions = []) : t.Agenda reads (writes ++ [handle]) subscriptions := by
  have hlate := hplans.late
  have hnone : subscriptions = [] := (hnoSubscriptions ▸ h.subscriptions).of_nil.1
  refine h.follow hplans ?_ (by rw [hreads]; exact h.reads.mono (hlate _)) ?_ ?_ fun hleft => by simp [hqueue] at hleft
  · rw [hasked, h.asked, hnone]
    simp
  · rw [hrest]
    exact (hqueue ▸ h.writes).next
  · rw [hsubscriptions]
    exact h.subscriptions.mono (Or.imp (hlate _) (hlate _))

theorem Agenda.subscribe (h : s.Agenda reads writes subscriptions) (hplans : SamePlans s t) {sub : SubscriptionInfo}
    {rest : List SubscriptionInfo} (hqueue : s.subscriptionQueue = sub :: rest) (hrest : t.subscriptionQueue = rest)
    (hreads : t.readQueue = s.readQueue) (hwrites : t.protocolWriteHandles = s.protocolWriteHandles)
    (hasked : requests t.trace = requests s.trace ++ [.subscribe sub]) :
    t.Agenda reads writes (subscriptions ++ [sub]) := by
  have hlate := hplans.late
  refine h.follow hplans ?_ (by rw [hreads]; exact h.reads.mono (hlate _)) (by rw [hwrites]; exact h.writes) ?_
    fun hleft => hwrites.trans hleft
  · rw [hasked, h.asked]
    simp
  · rw [hrest]
    exact (hqueue ▸ h.subscriptions).next.mono (Or.imp (hlate _) (hlate _))

end

end Setup

/-! ## The acts -/

section

variable {env : Env} {fails : Bool} {s t : BLEClientHID}

theorem log_unasked (s : BLEClientHID) {entry : TraceEntry} (h : entry.isMute = true) :
    Unasked s.setup (s.log entry).setup :=
  .note [entry] rfl (mute_single h) ⟨rfl, rfl, rfl, rfl⟩ rfl rfl rfl

/-- A phase without a plan, or one that has been entered before. -/
theorem transition_unasked (env : Env) (s : BLEClientHID) {phase : SetupPhase}
    (h : hasPlan phase = true → phase ∈ transitions s.trace) : Unasked s.setup (s.transition env phase).setup := by
  have htransitions : transitions [.transition phase] = [phase] := rfl
  refine ⟨.of_sources ⟨rfl, rfl, rfl, rfl⟩ [.transition phase] rfl ?_, rfl, rfl, rfl, ?_⟩
  · rw [htransitions, List.forall_mem_singleton]
    exact h
  · exact (requests_append _ _).trans (List.append_nil _)

theorem operationFailed_unasked (s : BLEClientHID) (required : Bool) (reason : String) :
    Unasked s.setup (s.operationFailed required reason).setup := by
  rw [operationFailed_eq]
  exact .note _ rfl (mute_marked _ _) ⟨rfl, rfl, rfl, rfl⟩ rfl rfl rfl

theorem giveUp_unasked (s : BLEClientHID) (sub : SubscriptionInfo) (reason : String) :
    Unasked s.setup (s.giveUp sub reason).setup := by
  rw [giveUp_eq]
  exact .note _ (List.append_assoc ..) (mute_append (mute_marked _ _) (mute_single rfl)) ⟨rfl, rfl, rfl, rfl⟩ rfl rfl
    rfl

theorem finalizeSetup_unasked (env : Env) (s : BLEClientHID) : Unasked s.setup (s.finalizeSetup env).setup := by
  have hparams : Mute (if s.preferredConnParamsValid then [TraceEntry.updateConnParams] else []) := by
    split <;> simp [Mute, TraceEntry.isMute, TraceEntry.request, TraceEntry.entered]
  have hnoted : Unasked s.setup { s with
      trace := s.trace ++ (if s.preferredConnParamsValid then [TraceEntry.updateConnParams] else []) }.setup :=
    .note _ rfl hparams ⟨rfl, rfl, rfl, rfl⟩ rfl rfl rfl
  rw [finalizeSetup_eq]
  refine hnoted.trans (transition_unasked env _ fun hplan => ?_)
  rcases finalPhase_cases s with hfinal | hfinal <;> simp [hfinal, hasPlan] at hplan

theorem timedOut_unasked (s : BLEClientHID) : Unasked s.setup s.timedOut.setup :=
  .note (timeoutEntries s.setupPhase) (timedOut_trace s) (by
    intro entry hentry
    simp only [timeoutEntries, List.mem_cons, List.not_mem_nil, or_false] at hentry
    rcases hentry with rfl | rfl <;> rfl) ⟨rfl, rfl, rfl, rfl⟩ rfl rfl rfl

theorem timedOut_late (s : BLEClientHID) : s.timedOut.setup.Late s.setupPhase := by
  change .timeout s.setupPhase ∈ s.timedOut.trace
  rw [timedOut_trace]
  simp [timeoutEntries]

theorem registering_unasked (env : Env) (h : Unasked s.setup t.setup) (hforward : Forward s.setup)
    (hsubscribing : subscribing s.setupPhase = true) :
    Unasked s.setup (t.transition env .registering).setup :=
  h.trans (transition_unasked env t fun _ => h.plans.written.mpr (hforward.subscribing hsubscribing))

theorem Setup.OnAgenda.unasked (h : OnAgenda s.setup) (hunasked : Unasked s.setup t.setup) : OnAgenda t.setup := by
  obtain ⟨reads, writes, subscriptions, hagenda⟩ := h
  exact ⟨reads, writes, subscriptions, hagenda.unasked hunasked⟩

theorem Setup.OnAgenda.early {s : Setup} (hreads : s.plannedReads = []) (hwrites : s.plannedWrites = [])
    (hsubscriptions : s.plannedSubscriptions = []) (hasked : requests s.trace = []) (hqueue : s.readQueue = [])
    (hhandles : s.protocolWriteHandles = []) (hqueue' : s.subscriptionQueue = []) : OnAgenda s :=
  ⟨[], [], [], hasked, .fresh (hreads.trans hqueue.symm), .fresh (hwrites.trans hhandles.symm),
    .fresh (hsubscriptions.trans hqueue'.symm), fun _ => hhandles⟩

theorem Setup.OnAgenda.nothing {s : Setup} (h : OnAgenda s) (hreads : s.plannedReads = []) (hwrites : s.plannedWrites = [])
    (hsubscriptions : s.plannedSubscriptions = []) :
    requests s.trace = [] ∧ s.readQueue = [] ∧ s.protocolWriteHandles = [] ∧ s.subscriptionQueue = [] := by
  obtain ⟨reads, writes, subscriptions, hagenda⟩ := h
  obtain ⟨hnone, hqueue⟩ := (hreads ▸ hagenda.reads).of_nil
  obtain ⟨hnone', hhandles⟩ := (hwrites ▸ hagenda.writes).of_nil
  obtain ⟨hnone'', hqueue'⟩ := (hsubscriptions ▸ hagenda.subscriptions).of_nil
  refine ⟨?_, hqueue, hhandles, hqueue'⟩
  rw [hagenda.asked, hnone, hnone', hnone'']
  rfl

theorem inventory_agenda (env : Env) (hphase : s.setupPhase = .inventory) (hforward : Forward s.setup)
    (h : OnAgenda s.setup) : OnAgenda (s.inventoryGattDatabase env).1.setup := by
  obtain ⟨hreads, hwrites, hsubscriptions⟩ := planned_inventory hforward hphase
  obtain ⟨hasked, hqueue, hhandles, hqueue'⟩ := h.nothing hreads hwrites hsubscriptions
  have hforward' := (inventory_follows env hphase hforward).enters.forward hforward
  have hphase' := (inventoryGattDatabase_phase env s).trans hphase
  obtain ⟨hreads', hwrites', hsubscriptions'⟩ := planned_inventory hforward' hphase'
  refine .early hreads' hwrites' hsubscriptions' ?_ ?_ ?_ ?_ <;>
    obtain ⟨u, services, hash, ⟨reasons, rfl⟩, -, heq⟩ := inventoryGattDatabase_spec env s <;> rw [heq]
  · exact (requests_append _ _).trans (by rw [(mute_degraded reasons).silent.1, List.append_nil]; exact hasked)
  · exact hqueue
  · exact hhandles
  · exact hqueue'

theorem planReads_agenda (env : Env) (hphase : s.setupPhase = .inventory) (hforward : Forward s.setup)
    (h : OnAgenda s.setup) : OnAgenda (s.planReads.transition env .reading).setup := by
  obtain ⟨hreads, hwrites, hsubscriptions⟩ := planned_inventory hforward hphase
  obtain ⟨hasked, -, hhandles, hqueue'⟩ := h.nothing hreads hwrites hsubscriptions
  have hqueue := planReads_queue s
  obtain ⟨u, queue, handles, ⟨reasons, rfl⟩, -, heq⟩ := planReads_spec s
  rw [heq] at hqueue ⊢
  generalize ht : transition env .reading _ = t
  have htransitions : transitions t.setup.trace = transitions s.setup.trace ++ [.reading] := by
    rw [← ht]
    exact marks_transitions reasons .reading s.trace
  have hplanned : t.setup.plannedReads = queue := by
    unfold plannedReads
    rw [if_pos (by simp [htransitions]), ← ht]
    exact hqueue.symm
  have hwrites' : t.setup.plannedWrites = s.setup.plannedWrites := by
    refine plannedWrites_same ?_ ?_ (mem_entered htransitions (by simp)) <;> rw [← ht] <;> rfl
  have hsubscriptions' : t.setup.plannedSubscriptions = s.setup.plannedSubscriptions := by
    refine plannedSubscriptions_same ?_ ?_ (mem_entered htransitions (by simp)) <;> rw [← ht] <;> rfl
  have hleft : t.setup.protocolWriteHandles = [] ∧ t.setup.subscriptionQueue = [] := by
    rw [← ht]
    exact ⟨hhandles, hqueue'⟩
  have hasked' : requests t.setup.trace = [] := by
    rw [← ht]
    exact (marks_requests reasons .reading s.trace).trans hasked
  refine ⟨[], [], [], hasked', .fresh ?_, .fresh ?_, .fresh ?_, fun _ => hleft.1⟩
  · rw [hplanned, ← ht]
    rfl
  · rw [hwrites', hwrites, hleft.1]
  · rw [hsubscriptions', hsubscriptions, hleft.2]

theorem collectWrites_agenda (env : Env) (hphase : s.setupPhase = .buildingProfile) (hforward : Forward s.setup)
    (h : OnAgenda s.setup) : OnAgenda (s.buildHidProfiles.collectProtocolWrites env).setup := by
  obtain ⟨reads, writes, subscriptions, hagenda⟩ := h
  have hwrites : writes = [] := (plannedWrites_early hforward (by simp [setup, hphase, rank]) ▸ hagenda.writes).of_nil.1
  have hearly : s.setup.plannedSubscriptions = [] :=
    plannedSubscriptions_early hforward (by simp [setup, hphase, rank])
  obtain ⟨d, contexts, sources, heq⟩ := s.buildHidProfiles_profiles
  have hsetup := collectProtocolWrites_setup env s.buildHidProfiles
  rw [heq] at hsetup
  generalize s.buildHidProfiles.collectProtocolWrites env = t at hsetup
  have htrace : t.setup.trace = s.setup.trace ++ [.transition .writingProtocolMode] := by
    rw [hsetup]
    rfl
  have htransitions : transitions t.setup.trace = transitions s.setup.trace ++ [.writingProtocolMode] := by
    rw [htrace]
    exact transitions_append _ _
  have hreads' : t.setup.plannedReads = s.setup.plannedReads := by
    refine plannedReads_same ?_ ?_ (mem_entered htransitions (by simp)) <;> rw [hsetup] <;> rfl
  have hwrites' : t.setup.plannedWrites = t.setup.protocolWriteHandles := by
    unfold plannedWrites
    rw [if_pos (by simp [htransitions]), hsetup]
    rfl
  have hsubscriptions' : t.setup.plannedSubscriptions = s.setup.plannedSubscriptions := by
    refine plannedSubscriptions_same ?_ ?_ (mem_entered htransitions (by simp)) <;> rw [hsetup] <;> rfl
  have hlate (phase : SetupPhase) (h : s.setup.Late phase) : t.setup.Late phase := by
    unfold Late at h ⊢
    rw [htrace]
    exact List.mem_append_left _ h
  refine ⟨reads, [], subscriptions, ?_, ?_, .fresh hwrites', ?_, fun hregistering => ?_⟩
  · rw [htrace, requests_append, hagenda.asked, hwrites]
    exact List.append_nil _
  · rw [hreads', hsetup]
    exact hagenda.reads.mono (hsetup ▸ hlate _)
  · rw [hsubscriptions', hsetup]
    exact hagenda.subscriptions.mono (Or.imp (hsetup ▸ hlate _) (hsetup ▸ hlate _))
  · exact absurd ((mem_entered htransitions (by simp)).mp hregistering)
      (hforward.not_entered (by simp [setup, hphase, rank]))

theorem planSubscriptions_agenda (env : Env) (hphase : s.setupPhase = .writingProtocolMode)
    (hhandles : s.protocolWriteHandles = []) (hforward : Forward s.setup) (h : OnAgenda s.setup) :
    OnAgenda (s.planSubscriptions.transition env .registering).setup := by
  obtain ⟨reads, writes, subscriptions, hagenda⟩ := h
  have hearly : s.setup.plannedSubscriptions = [] :=
    plannedSubscriptions_early hforward (by simp [setup, hphase, rank])
  have hnone : subscriptions = [] := (hearly ▸ hagenda.subscriptions).of_nil.1
  have hqueue := planSubscriptions_queue s
  obtain ⟨queue, battery, changed, u, ⟨reasons, rfl⟩, -, heq⟩ := planSubscriptions_spec s
  rw [heq] at hqueue ⊢
  generalize ht : transition env .registering _ = t
  have htransitions : transitions t.setup.trace = transitions s.setup.trace ++ [.registering] := by
    rw [← ht]
    exact marks_transitions reasons .registering s.trace
  have hreads' : t.setup.plannedReads = s.setup.plannedReads := by
    refine plannedReads_same ?_ ?_ (mem_entered htransitions (by simp)) <;> rw [← ht] <;> rfl
  have hwrites' : t.setup.plannedWrites = s.setup.plannedWrites := by
    refine plannedWrites_same ?_ ?_ (mem_entered htransitions (by simp)) <;> rw [← ht] <;> rfl
  have hplanned : t.setup.plannedSubscriptions = t.setup.subscriptionQueue := by
    unfold plannedSubscriptions
    rw [if_pos (by simp [htransitions]), ← ht]
    exact hqueue.symm
  have hsame : t.setup.readQueue = s.readQueue ∧ t.setup.protocolWriteHandles = s.protocolWriteHandles := by
    rw [← ht]
    exact ⟨rfl, rfl⟩
  have hasked : requests t.setup.trace = requests s.trace := by
    rw [← ht]
    exact marks_requests reasons .registering s.trace
  have hpolicy : t.setup.protocolModePolicy = s.protocolModePolicy := by
    rw [← ht]
    rfl
  refine ⟨reads, writes, [], ?_, ?_, ?_, .fresh hplanned, fun _ => hsame.2.trans hhandles⟩
  · rw [hasked, hpolicy]
    exact hagenda.asked.trans (by rw [hnone]; rfl)
  · rw [hreads', hsame.1]
    refine hagenda.reads.mono fun hlate => ?_
    rw [← ht]
    exact List.mem_append_left _ (List.mem_append_left _ hlate)
  · rw [hwrites', hsame.2]
    exact hagenda.writes

theorem finishRead_unasked {operation : GattReadOperation} (status : GattStatus) (value : Buffer)
    (hactive : s.activeRead = some operation) (hphased : Phased s.setup) (hforward : Forward s.setup) :
    Unasked s.setup (s.finishActiveRead env status value).setup := by
  obtain ⟨contexts, sources, d, reasons, n, hsetup, -⟩ := finishActiveRead_finished env status value hactive
  generalize s.finishActiveRead env status value = t at hsetup
  have hphase := hphased.reading_of_active hactive
  have hentries := (mute_degraded reasons).silent
  have htrace : t.setup.trace = s.setup.trace ++ reasons.map .degraded := by
    rw [hsetup]
    rfl
  have htransitions : transitions t.setup.trace = transitions s.setup.trace := by
    rw [htrace, transitions_append, hentries.2, List.append_nil]
  have hrank : ∀ u : Setup, transitions u.trace = transitions s.setup.trace → u.plannedWrites = [] := by
    intro u hu
    unfold plannedWrites
    rw [hu]
    exact if_neg (hforward.not_entered (by simp [hphase, rank]))
  refine ⟨⟨?_, ?_, ?_, ?_, by rw [htransitions], fun phase hlate => ?_⟩, ?_, ?_, ?_, ?_⟩
  · rw [hsetup]
    rfl
  · refine plannedReads_same ?_ ?_ (by rw [htransitions]) <;> rw [hsetup] <;> rfl
  · rw [hrank _ htransitions, hrank _ rfl]
  · refine plannedSubscriptions_same ?_ ?_ (by rw [htransitions]) <;> rw [hsetup] <;> rfl
  · unfold Late at hlate ⊢
    rw [htrace]
    exact List.mem_append_left _ hlate
  · rw [hsetup]
    rfl
  · rw [hsetup]
    rfl
  · rw [hsetup]
    rfl
  · rw [htrace, requests_append, hentries.1, List.append_nil]

theorem samePlans_request (entry : TraceEntry) (hentered : entry.entered = none) (hsources : SameSources s.setup t.setup)
    (htrace : t.trace = s.trace ++ [entry]) : SamePlans s.setup t.setup :=
  .of_sources hsources [entry] htrace (by simp [transitions, hentered])

theorem startRead_agenda {operation : GattReadOperation} {rest : List GattReadOperation} (hphase : s.setupPhase = .reading)
    (hqueue : s.readQueue = operation :: rest) (hforward : Forward s.setup) (h : OnAgenda s.setup)
    (active : Option GattReadOperation) :
    OnAgenda { s.startRead env operation rest with activeRead := active }.setup := by
  obtain ⟨reads, writes, subscriptions, hagenda⟩ := h
  have hentered : (readRequest env operation).entered = none := by
    unfold readRequest
    split <;> rfl
  have hplans : SamePlans s.setup { s.startRead env operation rest with activeRead := active }.setup :=
    samePlans_request _ hentered ⟨rfl, rfl, rfl, rfl⟩ rfl
  refine ⟨reads ++ [operation], writes, subscriptions, hagenda.read hplans hqueue rfl rfl rfl ?_ ?_ ?_⟩
  · refine (requests_append _ _).trans ?_
    simp [requests, request_readRequest, setup]
  · exact plannedWrites_early hforward (by simp [setup, hphase, rank])
  · exact plannedSubscriptions_early hforward (by simp [setup, hphase, rank])

theorem writeMode_agenda {handle : Nat} {rest : List Nat} (hphase : s.setupPhase = .writingProtocolMode)
    (hhandles : s.protocolWriteHandles = handle :: rest) (hforward : Forward s.setup) (h : OnAgenda s.setup) :
    OnAgenda (s.nextProtocolModeWrite env).setup := by
  obtain ⟨reads, writes, subscriptions, hagenda⟩ := h
  have hearly := plannedSubscriptions_early hforward (by simp [setup, hphase, rank])
  have hplans : SamePlans s.setup ({ s with protocolWriteHandles := rest }.log
      (.writeChar handle (requestedMode s.protocolModePolicy) env.writeCharAccepted)).setup :=
    samePlans_request _ rfl ⟨rfl, rfl, rfl, rfl⟩ rfl
  have hwritten : OnAgenda ({ s with protocolWriteHandles := rest }.log
      (.writeChar handle (requestedMode s.protocolModePolicy) env.writeCharAccepted)).setup :=
    ⟨reads, writes ++ [handle], subscriptions,
      hagenda.write hplans hhandles rfl rfl rfl (requests_append _ _) hearly⟩
  rw [nextProtocolModeWrite_eq env hhandles]
  refine hwritten.unasked (.note (if env.writeCharAccepted then [] else [.degraded "Protocol Mode write failed"]) rfl ?_
    ⟨rfl, rfl, rfl, rfl⟩ rfl rfl rfl)
  split <;> simp [Mute, TraceEntry.isMute, TraceEntry.request, TraceEntry.entered]

theorem begin_agenda {sub : SubscriptionInfo} {rest : List SubscriptionInfo} (hqueue : s.subscriptionQueue = sub :: rest)
    (h : OnAgenda s.setup) : OnAgenda (s.beginAttempt sub rest).setup := by
  obtain ⟨reads, writes, subscriptions, hagenda⟩ := h
  have hplans : SamePlans s.setup (s.beginAttempt sub rest).setup :=
    samePlans_request (.begin sub) rfl ⟨rfl, rfl, rfl, rfl⟩ rfl
  exact ⟨reads, writes, subscriptions ++ [sub],
    hagenda.subscribe hplans hqueue rfl rfl rfl (requests_append _ _)⟩

theorem Act.agenda (hact : Act env fails s t) (hphased : Phased s.setup) (hforward : Forward s.setup)
    (h : OnAgenda s.setup) : OnAgenda t.setup := by
  have hsub {sub : SubscriptionInfo} (hactive : s.activeSubscription = some sub) : subscribing s.setupPhase = true :=
    hphased.subscribing_of_active hactive
  cases hact with
  | beside h' => rwa [h'.setup]
  | request entry hentry =>
    refine h.unasked (log_unasked s ?_)
    cases entry <;> first | rfl | simp [TraceEntry.isRequest] at hentry
  | inventory hphase => exact inventory_agenda env hphase hforward h
  | inventoryFailed =>
    have hmarked : Unasked s.setup (s.markDegraded "GATT inventory failed").setup :=
      .note [_] rfl (mute_single rfl) ⟨rfl, rfl, rfl, rfl⟩ rfl rfl rfl
    exact h.unasked (hmarked.trans (finalizeSetup_unasked env _))
  | noHid => exact h.unasked (transition_unasked env s (by simp [hasPlan]))
  | planReads hphase => exact planReads_agenda env hphase hforward h
  | startRead operation rest hphase hfree hidle hqueue => exact startRead_agenda hphase hqueue hforward h _
  | readNotScheduled operation rest hphase hfree hidle hqueue =>
    exact (startRead_agenda hphase hqueue hforward h none).unasked (operationFailed_unasked _ _ _)
  | finishRead operation status value hactive =>
    exact h.unasked (finishRead_unasked status value hactive hphased hforward)
  | readsDone => exact h.unasked (transition_unasked env s (by simp [hasPlan]))
  | buildProfiles hphase => exact collectWrites_agenda env hphase hforward h
  | writeMode handle rest hphase hhandles => exact writeMode_agenda hphase hhandles hforward h
  | planSubscriptions hphase hhandles => exact planSubscriptions_agenda env hphase hhandles hforward h
  | begin sub rest hphase hfree hidle hqueue => exact begin_agenda hqueue h
  | beginWithoutCccd sub rest hphase hfree hidle hqueue => exact (begin_agenda hqueue h).unasked (giveUp_unasked _ _ _)
  | notScheduled sub => exact h.unasked (giveUp_unasked s sub _)
  | registrationIgnored | cccdIgnored | retry | writeCccd =>
    exact h.unasked (.note [_] rfl (mute_single rfl) ⟨rfl, rfl, rfl, rfl⟩ rfl rfl rfl)
  | registered =>
    refine h.unasked (.trans ?_ (transition_unasked env _ (by simp [hasPlan])))
    exact .note [_] rfl (mute_single rfl) ⟨rfl, rfl, rfl, rfl⟩ rfl rfl rfl
  | registrationFailed sub hactive | writeRejected sub hactive | cccdFailed sub _ hactive =>
    refine h.unasked (registering_unasked env (.trans ?_ (giveUp_unasked _ sub _)) hforward (hsub hactive))
    exact log_unasked s rfl
  | complete sub hactive =>
    have hended : Unasked s.setup { s.log (.cccdResult (some sub) sub.cccdHandle true .complete) with
        operationsSucceeded := s.operationsSucceeded + 1 }.resetSubscription.setup :=
      .note [_, _] (List.append_assoc ..) (mute_append (mute_single rfl) (mute_single rfl)) ⟨rfl, rfl, rfl, rfl⟩ rfl rfl rfl
    exact h.unasked (registering_unasked env hended hforward (hsub hactive))
  | finish => exact h.unasked (finalizeSetup_unasked env s)

theorem Deadline.agenda (hdeadline : Deadline env s t) (h : OnAgenda s.setup) : OnAgenda t.setup := by
  obtain ⟨reads, writes, subscriptions, hagenda⟩ := h.unasked (timedOut_unasked s)
  have hlate := timedOut_late s
  cases hdeadline with
  | reading hphase =>
    rw [hphase] at hlate
    have hplans : SamePlans s.timedOut.setup { s.timedOut with activeRead := none, readQueue := [] }.setup :=
      .of_sources ⟨rfl, rfl, rfl, rfl⟩ [] (List.append_nil _).symm (by simp [transitions])
    have hdropped : OnAgenda { s.timedOut with activeRead := none, readQueue := [] }.setup :=
      ⟨reads, writes, subscriptions, hagenda.follow hplans hagenda.asked (hagenda.reads.drop hlate) hagenda.writes
        hagenda.subscriptions id⟩
    exact hdropped.unasked (transition_unasked env _ (by simp [hasPlan]))
  | subscribing hphase =>
    have hlate' : s.timedOut.setup.Late .registering ∨ s.timedOut.setup.Late .waitingForCccd := by
      rcases hphase with hphase | hphase
      · exact .inl (hphase ▸ hlate)
      · exact .inr (hphase ▸ hlate)
    have hplans : SamePlans s.timedOut.setup { s.timedOut with subscriptionQueue := [] }.setup :=
      .of_sources ⟨rfl, rfl, rfl, rfl⟩ [] (List.append_nil _).symm (by simp [transitions])
    have hdropped : OnAgenda { s.timedOut with subscriptionQueue := [] }.setup :=
      ⟨reads, writes, subscriptions, hagenda.follow hplans hagenda.asked hagenda.reads hagenda.writes
        (hagenda.subscriptions.drop hlate') id⟩
    refine hdropped.unasked (.trans ?_ (finalizeSetup_unasked env _))
    exact .note [.subscriptionReset] rfl (mute_single rfl) ⟨rfl, rfl, rfl, rfl⟩ rfl rfl rfl
  | other =>
    exact Setup.OnAgenda.unasked ⟨reads, writes, subscriptions, hagenda⟩ (finalizeSetup_unasked env _)

theorem search_agenda (env : Env) (status : GattStatus) (h : OnAgenda s.setup) :
    OnAgenda (s.handleSearchComplete env status).setup := by
  rw [handleSearchComplete]
  split
  · have hmarked : Unasked s.setup ((s.log (.searchComplete status)).markDegraded
        "GATT service discovery failed").setup :=
      .note [_, _] (List.append_assoc ..) (mute_append (mute_single rfl) (mute_single rfl)) ⟨rfl, rfl, rfl, rfl⟩ rfl rfl
        rfl
    exact h.unasked (hmarked.trans (finalizeSetup_unasked env _))
  · exact h.unasked ((log_unasked s rfl).trans (transition_unasked env _ (by simp [hasPlan])))

theorem start_agenda (s : BLEClientHID) (env : Env) :
    OnAgenda ((s.resetConnectionState.transition env .waitingForDiscovery).log .setEncryption).setup ∧
      OnAgenda (s.resetConnectionState.transition env .disconnected).setup := by
  constructor <;> refine .early ?_ ?_ ?_ rfl rfl rfl rfl <;> exact if_neg (by
    simp [setup, transition, log, resetConnectionState, transitions, TraceEntry.entered])

theorem reachable_agenda (h : Reachable s) : OnCourse s ∧ OnAgenda s.setup := by
  refine reachable_turns (fun s => OnCourse s ∧ OnAgenda s.setup) (fun discoveryMode policy interval => ?_)
    (fun _ _ _ _ haligned hphased hinv hact => ?_) (fun _ _ _ haligned hphased hinv hdeadline => ?_)
    (fun s env => ?_) (fun s env status haligned hphased hbefore hinv => ?_) h
  · refine ⟨reachable_onCourse (.initial discoveryMode policy interval), .early ?_ ?_ ?_ rfl rfl rfl rfl⟩ <;>
      exact if_neg (by simp [setup, initial, transitions])
  · exact ⟨(Acts.onCourse_accounts (.single hact) haligned hphased hinv.1).1,
      hact.agenda hphased hinv.1.forward hinv.2⟩
  · exact ⟨hdeadline.onCourse haligned hphased hinv.1, hdeadline.agenda hinv.2⟩
  · obtain ⟨hcourse, hcourse'⟩ := start_onCourse s env
    obtain ⟨hagenda, hagenda'⟩ := start_agenda s env
    exact ⟨⟨hcourse, hagenda⟩, hcourse', hagenda'⟩
  · exact ⟨search_onCourse env status haligned hphased hbefore hinv.1, search_agenda env status hinv.2⟩

end

/-! ## The law -/

/-- The connection has asked for the front of each plan, and a plan is left only when its phase is: the reads by
`BUILDING_PROFILE`, the writes by `REGISTERING`, the subscriptions at the end. A deadline alone cuts a plan. -/
structure WorkedOff (s : BLEClientHID) (reads : List GattReadOperation) (writes : List Nat)
    (subscriptions : List SubscriptionInfo) : Prop where
  asked : requests s.trace = reads.map Request.ofRead ++
    writes.map (Request.writeMode · (requestedMode s.protocolModePolicy)) ++ subscriptions.map Request.subscribe
  readsPlanned : reads <+: s.setup.plannedReads
  writesPlanned : writes <+: s.setup.plannedWrites
  subscriptionsPlanned : subscriptions <+: s.setup.plannedSubscriptions
  once : (reads.map (·.handle)).Nodup
  allReads : .buildingProfile ∈ transitions s.trace → .timeout .reading ∉ s.trace → reads = s.setup.plannedReads
  allWrites : .registering ∈ transitions s.trace → writes = s.setup.plannedWrites
  allSubscriptions : settled s.setupPhase = true → .timeout .registering ∉ s.trace →
    .timeout .waitingForCccd ∉ s.trace → subscriptions = s.setup.plannedSubscriptions

theorem plannedReads_nodup (s : Setup) : (s.plannedReads.map (·.handle)).Nodup := by
  unfold plannedReads
  split
  · exact ((List.take_sublist _ _).map _).nodup (firstReads_nodup _)
  · exact List.nodup_nil

/-- In every order of callbacks and `loop()` calls, a connection asks for its planned reads, then for its planned
Protocol Mode writes, then for its planned subscriptions: each in order, once, and all of them unless a deadline
comes first. -/
theorem requests_follow_plans {s : BLEClientHID} (h : Reachable s) :
    ∃ reads writes subscriptions, WorkedOff s reads writes subscriptions := by
  obtain ⟨hcourse, reads, writes, subscriptions, hagenda⟩ := reachable_agenda h
  obtain ⟨-, hphased⟩ := reachable_phased h
  refine ⟨reads, writes, subscriptions, hagenda.asked, hagenda.reads.isPrefix, hagenda.writes.isPrefix,
    hagenda.subscriptions.isPrefix, ?_, fun hbuilt htime => ?_, fun hregistering => ?_, fun hsettled htime htime' => ?_⟩
  · exact (hagenda.reads.isPrefix.sublist.map _).nodup (plannedReads_nodup s.setup)
  · have hbehind := hcourse.forward.behind _ hbuilt
    have hqueue : s.setup.readQueue = [] := by
      refine (hphased.reads fun hphase => ?_).2
      simp [hphase, rank] at hbehind
    exact (hqueue ▸ hagenda.reads).complete htime
  · have hleft := hagenda.written hregistering
    exact (hleft ▸ hagenda.writes).complete id
  · have hqueue : s.setup.subscriptionQueue = [] := by
      refine (hphased.attempts ?_).2
      change settled s.setup.setupPhase = true at hsettled
      revert hsettled
      cases s.setup.setupPhase <;> simp [settled, subscribing]
    exact (hqueue ▸ hagenda.subscriptions).complete (not_or.mpr ⟨htime, htime'⟩)

theorem requests_follow_plans_keyboard :
    ∃ reads writes subscriptions,
      WorkedOff (run (initial .standard .unchanged 0) keyboardSetup) reads writes subscriptions :=
  requests_follow_plans (reachable_run (.initial ..) keyboardSetup (by decide +kernel))

end BleClientHid

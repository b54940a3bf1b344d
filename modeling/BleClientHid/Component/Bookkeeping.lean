import BleClientHid.Component.Attempts
import BleClientHid.Component.Plans

/-! # The bookkeeping of the setup

The phase, the active read, the active subscription and the stage of its attempt
agree in every reachable state.
-/

namespace BleClientHid

open Setup BLEClientHID

/-- The stage of the attempt is that of the phase, and no handle is read twice. -/
structure Staged (s : Setup) : Prop where
  registering : s.subscriptionState.stage = .registering → s.setupPhase = .registering
  waiting : s.subscriptionState.stage = .waitingForCccd ↔ s.setupPhase = .waitingForCccd
  distinct : ((s.activeRead.toList ++ s.readQueue).map (·.handle)).Nodup

namespace Staged

variable {s t : Setup}

theorem of_idle (hstage : t.subscriptionState.stage = .idle) (hphase : t.setupPhase ≠ .waitingForCccd)
    (hdistinct : ((t.activeRead.toList ++ t.readQueue).map (·.handle)).Nodup) : Staged t where
  registering := by simp [hstage]
  waiting := by simp [hstage, hphase]
  distinct := hdistinct

theorem congr (h : Staged s) (hstate : t.subscriptionState.stage = s.subscriptionState.stage)
    (hphase : t.setupPhase = s.setupPhase)
    (hdistinct : ((t.activeRead.toList ++ t.readQueue).map (·.handle)).Nodup) : Staged t where
  registering := by
    rw [hstate, hphase]
    exact h.registering
  waiting := by
    rw [hstate, hphase]
    exact h.waiting
  distinct := hdistinct

end Staged

theorem stage_idle {s : Setup} (haligned : Aligned s) (hphased : Phased s)
    (hphase : subscribing s.setupPhase = false) :
    s.subscriptionState.stage = .idle := haligned.idle (hphased.attempts hphase).1

/-! ## Acts -/

section

variable {env : Env} {fails : Bool} {s t : BLEClientHID}

theorem finishActiveRead_same (status : GattStatus) (value : Buffer) {operation : GattReadOperation}
    (hactive : s.activeRead = some operation) :
    (s.finishActiveRead env status value).setup.activeRead = none ∧
      (s.finishActiveRead env status value).setup.readQueue = s.readQueue ∧
      (s.finishActiveRead env status value).setup.setupPhase = s.setupPhase ∧
      (s.finishActiveRead env status value).setup.subscriptionState = s.subscriptionState := by
  obtain ⟨contexts, sources, d, entries, -, -, heq⟩ := finishActiveRead_reads env status value hactive
  rw [heq]
  exact ⟨rfl, rfl, rfl, rfl⟩

theorem Act.staged (hact : Act env fails s t) (haligned : Aligned s.setup) (hphased : Phased s.setup)
    (h : Staged s.setup) : Staged t.setup := by
  have hdistinct := h.distinct
  have hidle (hphase : subscribing s.setupPhase = false) := stage_idle haligned hphased hphase
  cases hact with
  | beside hbeside => rwa [hbeside.setup]
  | request => exact h.congr rfl rfl hdistinct
  | inventory hphase =>
    obtain ⟨t, services, hash, ⟨reasons, rfl⟩, -, heq⟩ := inventoryGattDatabase_spec env s
    rw [heq]
    exact h.congr rfl rfl hdistinct
  | inventoryFailed hphase =>
    rw [finalizeSetup_eq]
    exact .of_idle (hidle (by simp [hphase, subscribing])) (by simp [setup, finalPhase, markDegraded]) hdistinct
  | noHid hphase => exact .of_idle (hidle (by simp [hphase, subscribing])) (by simp [setup, transition]) hdistinct
  | planReads hphase =>
    -- the plan takes each handle once
    have hqueue := planReads_nodup s
    obtain ⟨t, queue, handles, ⟨reasons, rfl⟩, -, heq⟩ := planReads_spec s
    obtain ⟨hread, -⟩ := hphased.reads (by simp [setup, hphase])
    rw [heq] at hqueue ⊢
    refine .of_idle (hidle (by simp [hphase, subscribing])) (by simp [setup, transition]) ?_
    change ((s.activeRead.toList ++ queue).map (·.handle)).Nodup
    rw [show s.activeRead = none from hread]
    exact hqueue
  | startRead operation rest hphase hfree hread hqueue =>
    -- the read moves from the queue, the handles stay the same
    refine h.congr rfl rfl ?_
    rw [show s.setup.activeRead = none from hread, show s.setup.readQueue = _ from hqueue] at hdistinct
    exact hdistinct
  | readNotScheduled operation rest hphase hfree hread hqueue =>
    -- the read is gone, the others keep their handles
    rw [operationFailed_eq]
    refine h.congr rfl rfl ?_
    rw [show s.setup.activeRead = none from hread, show s.setup.readQueue = _ from hqueue] at hdistinct
    exact (List.nodup_cons.mp hdistinct).2
  | finishRead operation status value hactive =>
    obtain ⟨hread, hqueue, hphase, hstate⟩ := finishActiveRead_same status value hactive
    apply h.congr (congrArg _ hstate) hphase
    rw [hread, hqueue]
    rw [show s.setup.activeRead = _ from hactive] at hdistinct
    exact (List.nodup_cons.mp hdistinct).2
  | readsDone hphase =>
    exact .of_idle (hidle (by simp [hphase, subscribing])) (by simp [setup, transition]) hdistinct
  | buildProfiles hphase =>
    obtain ⟨d, contexts, sources, heq⟩ := s.buildHidProfiles_profiles
    rw [collectProtocolWrites_setup, heq]
    exact .of_idle (hidle (by simp [hphase, subscribing])) (by simp [collectWrites, goto]) hdistinct
  | writeMode handle rest hphase hhandles =>
    rw [nextProtocolModeWrite_eq env hhandles]
    exact h.congr rfl rfl hdistinct
  | planSubscriptions hphase hhandles =>
    obtain ⟨queue, battery, changed, t, ⟨reasons, rfl⟩, -, heq⟩ := planSubscriptions_spec s
    rw [heq]
    exact .of_idle (hidle (by simp [hphase, subscribing])) (by simp [setup, transition]) hdistinct
  | begin sub rest hphase =>
    -- the stage is `registering`, and so is the phase
    exact ⟨fun _ => hphase, by simp [setup, beginAttempt, log, SubscriptionAttemptState.begin, hphase], hdistinct⟩
  | beginWithoutCccd sub rest hphase | notScheduled sub hphase =>
    rw [giveUp_eq]
    exact .of_idle rfl (by simp [setup, beginAttempt, log, hphase]) hdistinct
  -- neither the stage nor the phase moves
  | registrationIgnored | cccdIgnored | retry | writeCccd => exact h.congr rfl rfl hdistinct
  | registered sub hactive hstage => exact ⟨by simp [setup, transition, log], by simp [setup, transition,
    log], hdistinct⟩
  | registrationFailed sub | writeRejected sub | cccdFailed sub =>
    rw [giveUp_eq]
    exact .of_idle rfl (by simp [setup, transition]) hdistinct
  | complete sub => exact .of_idle rfl (by simp [setup, transition]) hdistinct
  | finish hphase hactive =>
    rw [finalizeSetup_eq]
    refine .of_idle (haligned.idle hactive) ?_ hdistinct
    simp only [setup, finalPhase]
    split <;> simp

theorem finalPhase_ne (s : BLEClientHID) : s.finalPhase ≠ .waitingForCccd := by
  unfold finalPhase
  split <;> simp

theorem Deadline.staged (hdeadline : Deadline env s t) (haligned : Aligned s.setup) (hphased : Phased s.setup)
    (h : Staged s.setup) : Staged t.setup := by
  have hidle (hphase : BleClientHid.subscribing s.setupPhase = false) := stage_idle haligned hphased hphase
  cases hdeadline with
  | reading hphase =>
    exact .of_idle (hidle (by simp [hphase, BleClientHid.subscribing])) (by simp [setup, transition]) List.nodup_nil
  | subscribing hphase =>
    rw [finalizeSetup_eq]
    refine .of_idle rfl ?_ h.distinct
    exact finalPhase_ne { s.timedOut with subscriptionQueue := [] }.resetSubscription
  | other hphase hphase' =>
    rw [finalizeSetup_eq]
    refine .of_idle (hidle (by simp [BleClientHid.subscribing, hphase, hphase'])) ?_ h.distinct
    exact finalPhase_ne s.timedOut

end

theorem start_staged (s : BLEClientHID) (env : Env) :
    Staged ((s.resetConnectionState.transition env .waitingForDiscovery).log .setEncryption).setup ∧
      Staged (s.resetConnectionState.transition env .disconnected).setup := by
  constructor
  · exact .of_idle rfl (by simp [setup, log, transition]) List.nodup_nil
  · exact .of_idle rfl (by simp [setup, transition]) List.nodup_nil

theorem search_staged {s : BLEClientHID} (env : Env) (status : GattStatus) (haligned : Aligned s.setup)
    (hphased : Phased s.setup) (hbefore : beforeSearch s.setupPhase = true) (h : Staged s.setup) :
    Staged (s.handleSearchComplete env status).setup := by
  obtain ⟨entries, -, heq⟩ := handleSearchComplete_searched env s status
  have hidle : s.setup.subscriptionState.stage = .idle := by
    apply stage_idle haligned hphased
    change subscribing s.setupPhase = false
    revert hbefore
    cases s.setupPhase <;> simp [beforeSearch, subscribing]
  rw [heq]
  unfold searched
  split
  · exact .of_idle hidle (by simp [goto]) h.distinct
  · exact .of_idle hidle (by simp [goto]) h.distinct

theorem reachable_staged {s : BLEClientHID} (h : Reachable s) : Staged s.setup := by
  refine reachable_turns (fun s => Staged s.setup) (fun _ _ _ => ?_) (fun _ _ _ _ haligned hphased hinv hact =>
    hact.staged haligned hphased hinv) (fun _ _ _ haligned hphased hinv hdeadline =>
    hdeadline.staged haligned hphased hinv) start_staged (fun s env status haligned hphased hbefore hinv =>
    search_staged env status haligned hphased hbefore hinv) h
  exact .of_idle rfl (by simp [setup, initial]) List.nodup_nil

/-! ## The law -/

def settled (phase : SetupPhase) : Bool := phase == .ready || phase == .degraded || phase == .noHid

/-- A callback that answers a read, a registration or a write; `other` has those of characteristics. -/
def GattcEvent.answers : GattcEvent → Bool
  | .read .. | .regForNotify .. | .writeDescr .. | .other => true
  | _ => false

/-- The phase, `degraded_` and the counters. -/
def SameOutcome (s t : BLEClientHID) : Prop :=
  t.setupPhase = s.setupPhase ∧ t.degraded = s.degraded ∧ t.operationsSucceeded = s.operationsSucceeded ∧
    t.operationsFailed = s.operationsFailed

structure Bookkept (s : BLEClientHID) : Prop where
  reading : s.activeRead ≠ none → s.setupPhase = .reading
  attempt : s.activeSubscription ≠ none ↔ s.subscriptionState.stage ≠ .idle
  handles : ∀ sub, s.activeSubscription = some sub →
    s.subscriptionState.characteristicHandle = sub.characteristicHandle ∧
      s.subscriptionState.cccdHandle = sub.cccdHandle
  registering : s.subscriptionState.stage = .registering → s.setupPhase = .registering
  waiting : s.subscriptionState.stage = .waitingForCccd ↔ s.setupPhase = .waitingForCccd
  exclusive : s.activeRead = none ∨ s.activeSubscription = none
  distinct : ((s.activeRead.toList ++ s.readQueue).map (·.handle)).Nodup
  settled : settled s.setupPhase = true → ∀ env event gattcIf, event.answers = true →
    SameOutcome s (step s (.gattc env event gattcIf))

theorem sameOutcome_refl (s : BLEClientHID) : SameOutcome s s := ⟨rfl, rfl, rfl, rfl⟩

theorem Ignored.sameOutcome {s t : BLEClientHID} (h : Ignored s t) : SameOutcome s t := by
  rcases h with rfl | ⟨entry, -, rfl⟩
  · exact sameOutcome_refl _
  · exact ⟨rfl, rfl, rfl, rfl⟩

theorem read_ignored {s : BLEClientHID} (h : s.activeRead = none) (env : Env) (connId handle : Nat)
    (status : GattStatus) (value : Buffer) (gattcIf : Option Nat) :
    step s (.gattc env (.read connId handle status value) gattcIf) = s := by
  have hread : s.handleGattcEvent env (.read connId handle status value) = s := by
    rw [handleGattcEvent, handleRead, h]
    split <;> rfl
  cases gattcIf with
  | none => exact hread
  | some gattcIf =>
    rw [step, gattcEventHandler, hread]
    split <;> rfl

/-- Nothing waits for an answer any more. -/
theorem settled_answers {s : BLEClientHID} (hread : s.activeRead = none) (hidle : s.subscriptionState.stage = .idle)
    (env : Env) {event : GattcEvent} (gattcIf : Option Nat) (hanswers : event.answers = true) :
    SameOutcome s (step s (.gattc env event gattcIf)) := by
  cases event with
  | read connId handle status value =>
    rw [read_ignored hread]
    exact sameOutcome_refl s
  | regForNotify handle status => exact (registration_ignored (.inl (by simp [hidle])) env status
    gattcIf).sameOutcome
  | writeDescr connId handle status =>
    exact (cccd_ignored (.inl (by simp [hidle])) env connId status gattcIf).sameOutcome
  | other =>
    cases gattcIf with
    | none => exact sameOutcome_refl s
    | some gattcIf =>
      rw [step, gattcEventHandler]
      split <;> exact sameOutcome_refl s
  | connect | disconnect | searchCmpl | notify | srvcChg | congest | queueFull =>
    simp [GattcEvent.answers] at hanswers

theorem bookkept {s : BLEClientHID} (h : Reachable s) : Bookkept s := by
  obtain ⟨haligned, hphased⟩ := reachable_phased h
  obtain ⟨hregistering, hwaiting, hdistinct⟩ := reachable_staged h
  have hreading : s.activeRead ≠ none → s.setupPhase = .reading := fun hactive => by
    by_contra hphase
    exact hactive (hphased.reads hphase).1
  refine ⟨hreading, ⟨fun hactive => ?_, fun hstage hnone => hstage (haligned.idle hnone)⟩,
    fun sub hactive => (haligned.running sub hactive).2, hregistering, hwaiting, ?_, hdistinct,
    fun hsettled env event gattcIf hanswers => ?_⟩
  · obtain ⟨sub, hsub⟩ := Option.ne_none_iff_exists'.mp hactive
    exact (haligned.running sub hsub).1
  · by_cases hactive : s.activeRead = none
    · exact .inl hactive
    · refine .inr (hphased.attempts ?_).1
      change subscribing s.setupPhase = false
      simp [hreading hactive, subscribing]
  · have hphase : s.setupPhase ≠ .reading ∧ subscribing s.setupPhase = false := by
      revert hsettled
      cases s.setupPhase <;> simp [settled, subscribing]
    exact settled_answers (hphased.reads hphase.1).1 (stage_idle haligned hphased hphase.2) env gattcIf hanswers

/-- A keyboard whose subscription waits for its CCCD. -/
theorem bookkept_keyboard :
    let s := run (initial .standard .unchanged 0) (keyboardSetup.take 11)
    s.setupPhase = .waitingForCccd ∧ s.activeSubscription ≠ none ∧ Bookkept s :=
  ⟨by decide +kernel, by decide +kernel, bookkept (reachable_run (.initial ..) _ (by decide +kernel))⟩

end BleClientHid

import BleClientHid.Component.Acts

/-! # The component makes the moves of the setup

Every callback and every `loop()` is a run of moves, a reset of the connection
or the answer of the service search.
-/

namespace BleClientHid

open Setup

abbrev Moves (fails : Bool) : Setup → Setup → Prop := Relation.ReflTransGen (Move fails)

variable {fails : Bool}

theorem Setup.Move.aligned {s t : Setup} (h : Aligned s) (hmove : Move fails s t) : Aligned t := by
  cases hmove with
  | beginWithoutCccd | notScheduled | registrationFailed | writeRejected | complete | cccdFailed |
    subscriptionTimeout =>
    exact .of_none rfl rfl
  | begin sub rest hphase hidle hqueue =>
    refine ⟨by simp [begun], fun sub' hsub => ?_⟩
    obtain rfl := Option.some.inj hsub
    exact ⟨by simp [begun, SubscriptionAttemptState.begin], rfl, rfl⟩
  | registered sub fallbackAtMs hactive hstage =>
    refine ⟨fun hnone => ?_, fun sub' hsub => ?_⟩
    · rw [show s.activeSubscription = none from hnone] at hactive
      simp at hactive
    · exact ⟨by simp [append, goto], (h.running sub' hsub).2⟩
  | writeCccd sub value hactive hstage hown => exact ⟨h.idle, h.running⟩
  | buildProfiles s hphase =>
    obtain ⟨d, contexts, sources, heq⟩ := s.buildHidProfiles_profiles
    rw [heq]
    exact ⟨h.idle, h.running⟩
  | _ => exact h.congr rfl rfl

theorem Moves.aligned {s t : Setup} (hmoves : Moves fails s t) (h : Aligned s) : Aligned t := by
  induction hmoves with
  | refl => exact h
  | tail _ hmove ih => exact hmove.aligned ih

namespace BLEClientHID

variable (env : Env) {s s' : BLEClientHID}

theorem Touches.moves (h : Touches s s') (hphase : waits s.setupPhase = false) : Moves fails s.setup s'.setup := by
  obtain ⟨d, entries, hnotes, heq⟩ := h
  rw [heq]
  exact .single (.mark d entries hnotes fun _ => hphase)

theorem transition_setup (phase : SetupPhase) (s : BLEClientHID) :
    (s.transition env phase).setup = s.setup.goto phase := rfl

theorem log_moves (s : BLEClientHID) (entry : TraceEntry) (h : entry.isNote = true) :
    Moves fails s.setup (s.log entry).setup := by
  have hmark : Move fails s.setup (s.setup.marked false [entry]) :=
    .mark false [entry] (by simp [Notes, h]) (by simp)
  have heq : (s.log entry).setup = s.setup.marked false [entry] := by
    simp only [log, setup, marked, Bool.or_false]
  rw [heq]
  exact .single hmark

theorem resetSubscription_setup (sub : SubscriptionInfo) (reason : String) (s : BLEClientHID) :
    ∃ entries, Notes entries ∧
      (s.operationFailed sub.required reason).resetSubscription.setup = s.setup.abandon sub entries := by
  obtain ⟨entries, hnotes, heq⟩ := operationFailed_setup sub.required reason s
  refine ⟨entries, hnotes, ?_⟩
  have hreset := congrArg (fun t : Setup => { t with
    activeSubscription := none, subscriptionState := {}, trace := t.trace ++ [TraceEntry.subscriptionReset] }) heq
  exact hreset

/-! ## Acts -/

theorem map_fixed_contextsOf (services : List GattServiceInfo) :
    (contextsOf services).map (·.fixed) = contextsOf services := by
  simp [contextsOf, HIDServiceContext.fixed]

theorem inventoryGattDatabase_moves (s : BLEClientHID) (hphase : s.setupPhase = .inventory) :
    Moves fails s.setup (s.inventoryGattDatabase env).1.setup := by
  obtain ⟨t, services, hash, ht, hinstances, heq⟩ := inventoryGattDatabase_spec env s
  have htphase : t.setupPhase = .inventory := by
    obtain ⟨reasons, rfl⟩ := ht
    exact hphase
  have hmove : Move fails t.setup { t.setup with services, contexts := contextsOf services } :=
    .inventory services htphase hinstances
  have hsetup : ({ t with services, hidServices := contextsOf services, gattProfileHash := hash } :
      BLEClientHID).setup = { t.setup with services, contexts := contextsOf services } := by
    simp only [setup, map_fixed_contextsOf]
  rw [heq, hsetup]
  exact ((Touches.onlyMarks ht).moves (by simp [hphase, waits])).tail hmove

theorem inventoryFailed_moves (s : BLEClientHID) (hphase : s.setupPhase = .inventory) :
    Moves fails s.setup ((s.markDegraded "GATT inventory failed").finalizeSetup env).setup := by
  obtain ⟨entries, hnotes, heq⟩ := finalizeSetup_setup env (s.markDegraded "GATT inventory failed")
  rw [heq]
  exact ((Touches.mark _ s).moves (by simp [hphase, waits])).tail (.inventoryFailed entries hphase hnotes rfl)

theorem planReads_moves (s : BLEClientHID) (hphase : s.setupPhase = .inventory) :
    Moves fails s.setup (s.planReads.transition env .reading).setup := by
  obtain ⟨t, queue, handles, ht, hqueue, heq⟩ := planReads_spec s
  have hkept : t.setupPhase = .inventory ∧ t.discoveryMode = s.discoveryMode ∧ t.services = s.services := by
    obtain ⟨reasons, rfl⟩ := ht
    exact ⟨hphase, rfl, rfl⟩
  have hmove : Move fails t.setup ({ t.setup with readQueue := queue }.goto .reading) := by
    refine .planReads queue hkept.1 fun hd => ?_
    rw [hqueue hd]
    change _ = firstReads (wantedReads t.discoveryMode t.services)
    rw [hkept.2.1, hkept.2.2]
  rw [heq]
  exact ((Touches.onlyMarks ht).moves (by simp [hphase, waits])).tail hmove

theorem readRequest_isNote (operation : GattReadOperation) : (readRequest env operation).isNote = true := by
  unfold readRequest
  split <;> rfl

theorem startRead_moves {operation : GattReadOperation} {rest : List GattReadOperation}
    (hphase : s.setupPhase = .reading) (hidle : s.activeRead = none) (hqueue : s.readQueue = operation :: rest) :
    Moves fails s.setup (s.startRead env operation rest).setup := by
  have hmove : Move fails s.setup _ := .startRead operation rest true [readRequest env operation] hphase
    hidle hqueue
    (by simp [Notes, readRequest_isNote])
  simp only [Bool.not_true, Bool.false_and, if_true, marked, Bool.or_false] at hmove
  exact .single hmove

theorem readNotScheduled_moves {operation : GattReadOperation} {rest : List GattReadOperation} (reason : String)
    (hphase : s.setupPhase = .reading) (hidle : s.activeRead = none) (hqueue : s.readQueue = operation :: rest) :
    Moves fails s.setup
      ({ s.startRead env operation rest with activeRead := none }.operationFailed operation.required
        reason).setup := by
  obtain ⟨entries, hnotes, heq⟩ := operationFailed_setup operation.required reason
    { s.startRead env operation rest with activeRead := none }
  have hmove : Move fails s.setup _ := .startRead operation rest false (readRequest env operation :: entries) hphase
    hidle hqueue (List.forall_mem_cons.mpr ⟨readRequest_isNote env operation, hnotes⟩)
  have hmarked : (marked (!false && operation.required) (readRequest env operation :: entries)
      { s.setup with readQueue := rest, activeRead := if false = true then some operation else none }) =
      ({ s.startRead env operation rest with activeRead := none } : BLEClientHID).setup.marked operation.required
        entries := by
    simp [marked, setup, startRead, log]
  rw [hmarked, ← heq] at hmove
  exact .single hmove

theorem finishActiveRead_moves {operation : GattReadOperation} (status : GattStatus) (value : Buffer)
    (hactive : s.activeRead = some operation) : Moves fails s.setup
      (s.finishActiveRead env status value).setup := by
  obtain ⟨contexts, sources, d, entries, heffect, hnotes, heq⟩ := finishActiveRead_reads env status value hactive
  have hmove : Move fails s.setup _ := .finishRead operation contexts sources d entries hactive ?_ hnotes
  · rw [heq]
    exact .single hmove
  · cases heffect with
    | plain d h => exact .plain d h
    | protocolMode mode h => exact .protocolMode mode h
    | reportMap hash m h => exact .reportMap hash m h
    | reference f d h => exact .reference f d h

theorem collectProtocolWrites_setup (s : BLEClientHID) :
    (s.collectProtocolWrites env).setup = s.setup.collectWrites := by
  have hhandles : protocolHandles s.protocolModePolicy s.setup.contexts =
      if s.protocolModePolicy = .unchanged then [] else
        (s.hidServices.map (·.protocolModeHandle)).filter (· ≠ 0) := by
    simp [protocolHandles, setup, Function.comp_def]
  unfold collectWrites
  rw [show s.setup.protocolModePolicy = s.protocolModePolicy from rfl, hhandles]
  rfl

theorem writeMode_moves {handle : Nat} {rest : List Nat} (hphase : s.setupPhase = .writingProtocolMode)
    (hhandles : s.protocolWriteHandles = handle :: rest) :
    Moves fails s.setup (s.nextProtocolModeWrite env).setup := by
  unfold nextProtocolModeWrite
  rw [hhandles]
  dsimp only
  split
  · rename_i haccepted
    have hmove : Move fails s.setup _ := .writeMode handle rest true [] hphase hhandles (by simp [Notes])
    simp only [Bool.not_true, marked, Bool.or_false] at hmove
    rw [haccepted]
    exact .single hmove
  · rename_i hrejected
    have hmove : Move fails s.setup _ := .writeMode handle rest false
      [.degraded "Protocol Mode write failed"] hphase hhandles (by simp [Notes, TraceEntry.isNote])
    have hsetup : (({ s with protocolWriteHandles := rest }.log (.writeChar handle
        (requestedMode s.protocolModePolicy) false)).markDegraded "Protocol Mode write failed").setup =
        { s.setup with protocolWriteHandles := rest }.marked (!false) (.writeChar handle
          (requestedMode s.protocolModePolicy) false :: [.degraded "Protocol Mode write failed"]) := by
      simp [log, markDegraded, setup, marked]
    rw [Bool.eq_false_iff.mpr hrejected, hsetup]
    exact .single hmove

theorem planSubscriptions_moves (s : BLEClientHID) (hphase : s.setupPhase = .writingProtocolMode)
    (hhandles : s.protocolWriteHandles = []) :
    Moves fails s.setup (s.planSubscriptions.transition env .registering).setup := by
  obtain ⟨queue, battery, changed, t, ht, hall, heq⟩ := planSubscriptions_spec s
  have hkept : t.setupPhase = .writingProtocolMode ∧ t.protocolWriteHandles = [] ∧
      t.discoveryMode = s.discoveryMode ∧ t.services = s.services := by
    obtain ⟨reasons, rfl⟩ := ht
    exact ⟨hphase, hhandles, rfl, rfl⟩
  have hmove : Move fails t.setup ({ t.setup with subscriptionQueue := queue }.goto .registering) := by
    refine .planSubscriptions queue hkept.1 hkept.2.1 ?_
    change t.degraded = false → ∀ service ∈ t.services, ∀ characteristic ∈ service.characteristics,
      subscribes t.discoveryMode service characteristic = true → _
    rw [hkept.2.2.1, hkept.2.2.2]
    exact hall
  rw [heq]
  exact ((Touches.onlyMarks ht).moves (by simp [hphase, waits])).tail hmove

/-- Giving up is what the setup abandons, after an entry of the log. -/
theorem giveUp_setup (entry : TraceEntry) (sub : SubscriptionInfo) (reason : String) (s : BLEClientHID) :
    ∃ entries, Notes entries ∧ ((s.log entry).giveUp sub reason).setup =
      s.setup.abandon sub (entry :: entries) := by
  obtain ⟨entries, hnotes, heq⟩ := resetSubscription_setup sub reason (s.log entry)
  refine ⟨entries, hnotes, heq.trans ?_⟩
  simp [abandon, log, setup]

theorem cccdFailed_move {sub : SubscriptionInfo} (hactive : s.activeSubscription = some sub)
    (hown : s.subscriptionState.ownCccdWriteAttempted = true) :
    Move true s.setup ((s.log (.cccdResult (some sub) sub.cccdHandle false .failed)).giveUp sub
      "required CCCD write failed" |>.transition env .registering).setup := by
  obtain ⟨entries, hnotes, heq⟩ := giveUp_setup (.cccdResult (some sub) sub.cccdHandle false .failed) sub
    "required CCCD write failed" s
  rw [transition_setup, heq]
  exact .cccdFailed sub entries rfl hactive hown hnotes

/-- Every act is a chain of moves. -/
theorem act_moves {s t : BLEClientHID} (h : Aligned s.setup) (hact : Act env fails s t) :
    Moves fails s.setup t.setup := by
  cases hact with
  | beside h => rw [h.setup]
  | request entry hentry => exact log_moves s entry (by cases entry <;> simp_all
    [TraceEntry.isRequest, TraceEntry.isNote])
  | inventory hphase => exact inventoryGattDatabase_moves env s hphase
  | inventoryFailed hphase => exact inventoryFailed_moves env s hphase
  | noHid hphase => exact .single (.noHid hphase)
  | planReads hphase => exact planReads_moves env s hphase
  | startRead operation rest hphase hfree hidle hqueue => exact startRead_moves env hphase hidle hqueue
  | readNotScheduled operation rest hphase hfree hidle hqueue =>
    exact readNotScheduled_moves env _ hphase hidle hqueue
  | finishRead operation status value hactive => exact finishActiveRead_moves env status value hactive
  | readsDone hphase hidle hqueue => exact .single (.readsDone hphase hidle hqueue)
  | buildProfiles hphase =>
    have hmove : Move fails s.setup _ := .buildProfiles s hphase
    rw [← collectProtocolWrites_setup env] at hmove
    exact .single hmove
  | writeMode handle rest hphase hhandles => exact writeMode_moves env hphase hhandles
  | planSubscriptions hphase hhandles => exact planSubscriptions_moves env s hphase hhandles
  | begin sub rest hphase hfree hidle hqueue hcccd => exact .single (.begin sub rest hphase hidle hqueue hcccd)
  | beginWithoutCccd sub rest hphase hfree hidle hqueue hcccd =>
    obtain ⟨entries, hnotes, heq⟩ := resetSubscription_setup sub "required notification has no CCCD"
      (s.beginAttempt sub rest)
    have hmove : Move fails s.setup _ := .beginWithoutCccd sub rest entries hphase hidle hqueue hcccd hnotes
    unfold giveUp
    rw [heq]
    exact .single hmove
  | notScheduled sub hphase hactive =>
    obtain ⟨entries, hnotes, heq⟩ := resetSubscription_setup sub "required notification registration failed" s
    unfold giveUp
    rw [heq]
    exact .single (.notScheduled sub entries hactive hnotes)
  | registrationIgnored handle success hskip => exact .single (.registrationIgnored handle success hskip)
  | registered sub hactive hstage => exact .single (.registered sub _ hactive hstage)
  | registrationFailed sub hactive hstage =>
    obtain ⟨entries, hnotes, heq⟩ := giveUp_setup (.registrationResult (some sub) sub.characteristicHandle
      false .failed)
      sub "required notification registration failed" s
    rw [transition_setup, heq]
    exact .single (.registrationFailed sub entries hactive hnotes)
  | cccdIgnored handle success hskip => exact .single (.cccdIgnored handle success hskip)
  | retry sub hactive hstage hown => exact .single (.retry sub hactive hstage hown)
  | writeCccd sub hactive hstage hown => exact .single (.writeCccd sub (cccdValue sub) hactive hstage hown)
  | writeRejected sub hactive hstage hown =>
    obtain ⟨entries, hnotes, heq⟩ := giveUp_setup (.writeDescr sub.cccdHandle (cccdValue sub) false) sub
      "required CCCD write failed" s
    rw [transition_setup, heq]
    exact .single (.writeRejected sub (cccdValue sub) entries hactive hown hnotes)
  | complete sub hactive hstage =>
    have hmove : Move fails s.setup _ := .complete sub hactive hstage (h.running sub hactive).2.2
    refine .single ?_
    convert hmove using 1
    simp [append, log, setup, goto, resetSubscription, transition]
  | cccdFailed sub hfails hactive hstage hown =>
    subst hfails
    exact .single (cccdFailed_move env hactive hown)
  | finish hphase hidle hqueue =>
    obtain ⟨entries, hnotes, heq⟩ := finalizeSetup_setup env s
    rw [heq]
    exact .single (.finish entries hphase hidle hqueue hnotes)

theorem acts_moves {s t : BLEClientHID} (h : Aligned s.setup) (hacts : Acts env fails s t) :
    Moves fails s.setup t.setup := by
  induction hacts with
  | refl => exact .refl
  | tail _ hact ih => exact ih.trans (act_moves env (Moves.aligned ih h) hact)

theorem timedOut_setup (s : BLEClientHID) :
    s.timedOut.setup = s.setup.marked true [.timeout s.setupPhase,
      .degraded ("timeout in " ++ phaseName s.setupPhase)] := by
  simp [timedOut, log, markDegraded, setup, marked]

theorem deadline_move {s t : BLEClientHID} (hdeadline : Deadline env s t) : Move fails s.setup t.setup := by
  have hnotes : Notes [.degraded ("timeout in " ++ phaseName s.setupPhase)] := by simp [Notes, TraceEntry.isNote]
  cases hdeadline with
  | reading hphase =>
    have hmove : Move fails s.setup _ := .readTimeout _ hphase hnotes
    have hsetup := congrArg (fun t : Setup => { t with activeRead := none, readQueue := [] }.goto .buildingProfile)
      s.timedOut_setup
    rw [hphase] at hsetup hmove
    convert hmove using 1
    exact hsetup
  | subscribing hphase =>
    obtain ⟨entries, hnotes', heq⟩ := finalizeSetup_setup env
      { s.timedOut with subscriptionQueue := [] }.resetSubscription
    have hmove : Move fails s.setup _ := .subscriptionTimeout _ entries hphase hnotes hnotes'
    have hsetup := congrArg (fun t : Setup => { t with
      subscriptionQueue := [], activeSubscription := none, subscriptionState := {},
      trace := t.trace ++ [TraceEntry.subscriptionReset] }.finish entries) s.timedOut_setup
    rw [heq]
    convert hmove using 1
    apply hsetup.trans
    simp [marked, Setup.finish, append, goto]
    rfl
  | other hphase hphase' hreading hwaits =>
    obtain ⟨entries, hnotes', heq⟩ := finalizeSetup_setup env s.timedOut
    have hmove : Move fails s.setup _ := .timeout (_ :: entries) hphase hphase' hreading hwaits
      (notes_append hnotes hnotes')
    rw [heq, timedOut_setup]
    convert hmove using 1
    simp [marked, Setup.finish, append, goto]
    rfl

theorem handlePhaseTimeout_moves (s : BLEClientHID) : Moves fails s.setup (s.handlePhaseTimeout env).setup := by
  cases hdue : waits s.setupPhase || !elapsed env.timeoutMs s.phaseStartedMs phaseTimeoutMs with
  | true =>
    rw [handlePhaseTimeout_of_not_due env hdue]
  | false => exact .single (deadline_move env (handlePhaseTimeout_deadline env hdue))

theorem loop_moves (s : BLEClientHID) (h : Aligned s.setup) : Moves fails s.setup (s.loop env).setup := by
  have hacts : Acts env fails s _ := (requestPendingRediscovery_acts env s).trans (runPhase_acts env _)
  rw [(loop_beside env s).setup]
  exact (acts_moves env h hacts).trans (handlePhaseTimeout_moves env _)

/-! ## Callbacks -/

theorem handleCccdResult_failed_move (s : BLEClientHID) (h : Aligned s.setup) (handle : Nat) (status : GattStatus)
    (hfailed : (s.subscriptionState.cccdResult handle (status == .ok)).2 = .failed) :
    Move true s.setup (s.handleCccdResult env handle status).setup := by
  obtain ⟨sub, hactive, -, hown, heq⟩ := handleCccdResult_failed env h handle status hfailed
  rw [heq]
  exact cccdFailed_move env hactive hown

theorem handleCccdResult_moves (s : BLEClientHID) (h : Aligned s.setup) (handle : Nat) (status : GattStatus)
    (hnot : (s.subscriptionState.cccdResult handle (status == .ok)).2 ≠ .failed) :
    Moves fails s.setup (s.handleCccdResult env handle status).setup :=
  acts_moves env h (handleCccdResult_acts env h handle status hnot)

/-- The service search is no move: it leads to the inventory from wherever the setup is. -/
theorem handleSearchComplete_searched (s : BLEClientHID) (status : GattStatus) :
    ∃ entries, Notes entries ∧ (s.handleSearchComplete env status).setup = s.setup.searched status entries := by
  rw [handleSearchComplete]
  split
  · rename_i hfailed
    obtain ⟨entries, hnotes, heq⟩ := finalizeSetup_setup env
      ((s.log (.searchComplete status)).markDegraded "GATT service discovery failed")
    refine ⟨.degraded "GATT service discovery failed" :: entries,
      List.forall_mem_cons.mpr ⟨rfl, hnotes⟩, ?_⟩
    rw [heq, searched, if_neg hfailed]
    simp [Setup.finish, append, goto, marked, setup, markDegraded, log]
  · rename_i hok
    refine ⟨[], by simp [Notes], ?_⟩
    rw [searched, if_pos (by simpa using hok)]
    rfl

/-- The answer of a descriptor write that fails the attempt. -/
def failsCccd (s : BLEClientHID) : GattcEvent → Bool
  | .writeDescr _ handle status => (s.subscriptionState.cccdResult handle (status == .ok)).2 == .failed
  | _ => false

/-- A callback about the connection itself. -/
def resetsConnection (env : Env) : GattcEvent → Bool
  | .connect remoteBda | .disconnect remoteBda => remoteBda == env.remoteBda
  | _ => false

theorem handleGattcEvent_step (s : BLEClientHID) (h : Aligned s.setup) (event : GattcEvent) :
    Step (s.failsCccd event) s.setup (resetsConnection env event) (s.handleGattcEvent env event).setup := by
  have hnotes : Notes [.transition .waitingForDiscovery, .setEncryption] ∧ Notes [.transition .disconnected] := by
    simp [Notes, TraceEntry.isNote]
  cases event with
  | connect remoteBda =>
    rw [handleGattcEvent, resetsConnection]
    split
    · rename_i hbda
      rw [hbda, beq_self_eq_true]
      exact .reset .waitingForDiscovery _ (.inr rfl) hnotes.1
    · rename_i hbda
      rw [beq_false_of_ne hbda]
      exact .moves .refl
  | disconnect remoteBda =>
    rw [handleGattcEvent, resetsConnection]
    split
    · rename_i hbda
      rw [hbda, beq_self_eq_true]
      exact .reset .disconnected _ (.inl rfl) hnotes.2
    · rename_i hbda
      rw [beq_false_of_ne hbda]
      exact .moves .refl
  | searchCmpl connId status =>
    -- the search is no move of the setup
    rw [handleGattcEvent]
    split
    · obtain ⟨entries, hnotes, heq⟩ := handleSearchComplete_searched env s status
      rw [heq]
      exact .searched status entries hnotes
    · exact .moves .refl
  | read connId handle status value =>
    rw [handleGattcEvent]
    split
    · exact .moves (acts_moves env h (handleRead_acts env s handle status value))
    · exact .moves .refl
  | regForNotify handle status => exact .moves (acts_moves env h
    (handleRegistrationResult_acts env h handle status))
  | writeDescr connId handle status =>
    -- an answer that fails the attempt is a move of its own kind
    rw [handleGattcEvent]
    split
    · by_cases hfailed : (s.subscriptionState.cccdResult handle (status == .ok)).2 = .failed
      · rw [failsCccd, hfailed, beq_self_eq_true]
        exact .moves (.single (handleCccdResult_failed_move env s h handle status hfailed))
      · exact .moves (handleCccdResult_moves env s h handle status hfailed)
    · exact .moves .refl
  | notify connId remoteBda handle value isNotify =>
    -- notifications are on the report side
    rw [handleGattcEvent]
    split
    · rw [(handleNotification_beside env handle value isNotify s).setup]
      exact .moves .refl
    · exact .moves .refl
  | srvcChg | congest | queueFull =>
    rw [handleGattcEvent]
    split <;> exact .moves .refl
  | other => exact .moves .refl

end BLEClientHID

namespace Event

def failsCccd (s : BLEClientHID) : Event → Bool
  | .loop _ => false
  | .gattc _ event _ => s.failsCccd event

def resetsConnection : Event → Bool
  | .loop _ => false
  | .gattc env event none => BLEClientHID.resetsConnection env event
  | .gattc env event (some gattcIf) => gattcIf == env.gattcIf && BLEClientHID.resetsConnection env event

end Event

/-- The component takes the steps of the setup. -/
theorem step_setup (s : BLEClientHID) (h : Aligned s.setup) (event : Event) :
    Step (event.failsCccd s) s.setup event.resetsConnection (step s event).setup := by
  cases event with
  | loop env => exact .moves (s.loop_moves env h)
  | gattc env event gattcIf =>
    cases gattcIf with
    | none => exact s.handleGattcEvent_step env h event
    | some gattcIf =>
      rw [step, BLEClientHID.gattcEventHandler, Event.resetsConnection]
      split
      · rename_i hif
        rw [hif, beq_self_eq_true, Bool.true_and]
        exact s.handleGattcEvent_step env h event
      · rename_i hif
        rw [beq_false_of_ne hif, Bool.false_and]
        exact .moves .refl

end BleClientHid

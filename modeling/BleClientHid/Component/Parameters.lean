import BleClientHid.Component.Notices

/-! # The preferred connection parameters

What the peripheral prefers is read once, kept to the end of the connection, and asked for when the
setup ends.
-/

namespace BleClientHid

open Lib Setup BLEClientHID

/-- The phases that end the setup with a request. -/
def finished (phase : SetupPhase) : Bool := phase == .ready || phase == .degraded

namespace BLEClientHID

/-- The parameters that a value brings: the value of the characteristic, where it has eight bytes. -/
def parametersIn (env : Env) (status : GattStatus) (value : Buffer) (s : BLEClientHID) : List ConnParams :=
  match s.delivered status value with
  | none => []
  | some (operation, bytes) =>
    if operation.purpose = .preferredConnectionParameters ∧ bytes.length = 8 then [connParams env bytes] else []

/-- Only the answer to the active read brings them. -/
def parametersRead (s : BLEClientHID) : Event → List ConnParams
  | .gattc env (.read connId handle status value) gattcIf =>
    if accepted env gattcIf = true ∧ connId = env.connId ∧ s.activeRead.any (·.handle == handle) = true then
      s.parametersIn env status value
    else []
  | _ => []

end BLEClientHID

def Sideband.params (b : Sideband) : Option ConnParams :=
  if b.preferredConnParamsValid then some b.preferredConnParams else none

theorem Sideband.read_params (env : Env) (operation : GattReadOperation) (value : List UInt8) (b : Sideband) :
    (b.read env operation value).params =
      if operation.purpose = .preferredConnectionParameters ∧ value.length = 8 then some (connParams env value)
      else b.params := by
  unfold Sideband.read
  cases hpurpose : operation.purpose with
  | preferredConnectionParameters =>
    by_cases hlength : value.length = 8
    · simp [hlength, params]
    · simp [hlength]
  | batteryLevel => simp [params]
  | _ => simp

namespace BLEClientHID

def params (s : BLEClientHID) : Option ConnParams := s.sideband.params

section

variable (env : Env) {s t : BLEClientHID}

theorem params_of_sideband (h : t.sideband = s.sideband) : t.params = s.params := congrArg Sideband.params h

theorem params_of_fixture (h : t.fixture = s.fixture) : t.params = s.params :=
  params_of_sideband (sideband_of_fixture h)

/-! ## What keeps the parameters -/

theorem runInventory_params (s : BLEClientHID) : (s.runInventory env).params = s.params := by
  have hinventory := params_of_sideband (inventoryGattDatabase_sideband env s)
  unfold runInventory
  generalize s.inventoryGattDatabase env = out at hinventory
  dsimp only at hinventory ⊢
  split
  · exact (params_of_fixture (finalizeSetup_fixture env _)).trans hinventory
  · split
    · exact hinventory
    · exact (params_of_fixture (planReads_fixture out.1)).trans hinventory

theorem planSubscriptions_params (s : BLEClientHID) : s.planSubscriptions.params = s.params := by
  obtain ⟨queue, battery, changed, t, ⟨reasons, rfl⟩, -, heq⟩ := planSubscriptions_spec s
  rw [heq]
  rfl

theorem nextProtocolModeWrite_params (s : BLEClientHID) : (s.nextProtocolModeWrite env).params = s.params := by
  unfold nextProtocolModeWrite
  split
  · exact planSubscriptions_params s
  · dsimp only
    split <;> rfl

theorem startProtocolModeWrite_params (s : BLEClientHID) : (s.startProtocolModeWrite env).params = s.params := by
  unfold startProtocolModeWrite
  rw [nextProtocolModeWrite_params]
  split <;> rfl

theorem runPhase_params (s : BLEClientHID) : (s.runPhase env).params = s.params := by
  unfold runPhase
  split
  · exact runInventory_params env s
  · exact params_of_fixture (startNextRead_fixture env s)
  · exact (startProtocolModeWrite_params env _).trans (params_of_sideband (buildHidProfiles_sideband s))
  · exact startProtocolModeWrite_params env s
  · exact params_of_fixture (startNextSubscription_fixture env s)
  · split
    · exact params_of_fixture (writeCurrentCccd_fixture env s)
    · rfl
  · rfl

theorem loop_params (s : BLEClientHID) : (s.loop env).params = s.params := by
  have hasked : s.requestPendingRediscovery.params = s.params := by
    unfold requestPendingRediscovery
    split <;> rfl
  rw [params_of_sideband (loop_sideband env s), loopSetup, params_of_fixture (handlePhaseTimeout_fixture env _),
    runPhase_params, hasked]

theorem handleNotification_params (handle : Nat) (value : Buffer) (isNotify : Bool) (s : BLEClientHID) :
    (s.handleNotification env handle value isNotify).params = s.params := by
  rw [handleNotification_eq]
  unfold receive
  split
  · rfl
  · split
    · split
      · rw [publishBattery_eq]
        rfl
      · rfl
    · split
      · exact params_of_sideband (enqueueInputReport_sideband env _ handle value isNotify s.nextSeqId)
      · rfl

theorem finishActiveRead_params (status : GattStatus) (value : Buffer) (s : BLEClientHID) :
    (s.finishActiveRead env status value).params = (s.parametersIn env status value).getLast?.or s.params := by
  unfold params parametersIn
  rw [finishActiveRead_sideband]
  cases s.delivered status value with
  | none => rfl
  | some out =>
    dsimp only
    rw [Sideband.read_params]
    split <;> rfl

theorem handleRead_params (handle : Nat) (status : GattStatus) (value : Buffer) (s : BLEClientHID) :
    (s.handleRead env handle status value).params =
      if s.activeRead.any (·.handle == handle) then (s.parametersIn env status value).getLast?.or s.params
      else s.params := by
  unfold handleRead
  cases hactive : s.activeRead with
  | none => rfl
  | some active =>
    dsimp only
    by_cases hhandle : active.handle = handle
    · rw [if_pos hhandle, if_pos (by simpa using hhandle), finishActiveRead_params]
    · rw [if_neg hhandle, if_neg (by simpa using hhandle)]

end

end BLEClientHID

/-! ## The parameters are those read last -/

theorem step_params (s : BLEClientHID) (event : Event) : (step s event).params =
    if event.resetsConnection then none else (s.parametersRead event).getLast?.or s.params := by
  cases event with
  | loop env => exact loop_params env s
  | gattc env event gattcIf =>
    cases haccepted : accepted env gattcIf with
    | false =>
      -- a callback of another interface is refused before anything else
      rw [step_refused haccepted, resetsConnection_eq, haccepted]
      cases event <;> simp [parametersRead, haccepted]
    | true =>
      rw [step_accepted haccepted, resetsConnection_eq, haccepted, Bool.true_and]
      cases event with
      | connect remoteBda | disconnect remoteBda =>
        -- a new connection, or none, forgets the parameters
        rw [handleGattcEvent, resetsConnection]
        by_cases hpeer : remoteBda = env.remoteBda
        · rw [if_pos hpeer, if_pos (by simpa using hpeer)]
          rfl
        · rw [if_neg hpeer, if_neg (by simpa using hpeer)]
          rfl
      | searchCmpl connId status =>
        rw [handleGattcEvent]
        split
        · exact params_of_fixture (handleSearchComplete_fixture env s status)
        · rfl
      | read connId handle status value =>
        -- the only callback that can bring some
        have hstays : resetsConnection env (.read connId handle status value) = false := rfl
        rw [hstays, if_neg Bool.false_ne_true, handleGattcEvent, parametersRead]
        by_cases hconn : connId = env.connId
        · rw [if_pos hconn, handleRead_params]
          split
          · rename_i hhandle
            rw [if_pos ⟨haccepted, hconn, hhandle⟩]
          · rename_i hhandle
            rw [if_neg fun hboth => hhandle hboth.2.2]
            rfl
        · rw [if_neg hconn, if_neg fun hboth => hconn hboth.2.1]
          rfl
      | regForNotify handle status =>
        exact params_of_fixture (handleRegistrationResult_fixture env s handle status)
      | writeDescr connId handle status =>
        rw [handleGattcEvent]
        split
        · exact params_of_fixture (handleCccdResult_fixture env s handle status)
        · rfl
      | notify connId remoteBda handle value isNotify =>
        rw [handleGattcEvent]
        split
        · exact handleNotification_params env handle value isNotify s
        · rfl
      | srvcChg | congest | queueFull =>
        rw [handleGattcEvent]
        split <;> rfl
      | other => rfl

/-! ## They are asked for once, at the end -/

/-- The request of the connection is that of the finished setup. -/
def Tuned (s : BLEClientHID) : Prop :=
  s.asked .updateConnParams = if finished s.setupPhase then s.params.toList.length else 0

section

variable (env : Env) {s t : BLEClientHID}

namespace Tuned

theorem early (h : Tuned s) (hs : finished s.setupPhase = false) (ht : finished t.setupPhase = false)
    (hasked : t.asked .updateConnParams = s.asked .updateConnParams) : Tuned t := by
  unfold Tuned at h ⊢
  rw [hs] at h
  rw [ht, hasked, h]
  rfl

theorem keep (h : Tuned s) (hphase : t.setupPhase = s.setupPhase) (hparams : t.params = s.params)
    (hasked : t.asked .updateConnParams = s.asked .updateConnParams) : Tuned t := by
  unfold Tuned at h ⊢
  rw [hphase, hparams, hasked, h]

theorem of_new (hasked : t.asked .updateConnParams = 0) (ht : finished t.setupPhase = false) : Tuned t := by
  unfold Tuned
  rw [hasked, ht]
  rfl

theorem finalized (h : Tuned s) (hs : finished s.setupPhase = false) : Tuned (s.finalizeSetup env) := by
  unfold Tuned at h ⊢
  rw [hs] at h
  have hparams : (s.finalizeSetup env).params = s.params := params_of_fixture (finalizeSetup_fixture env s)
  have hphase : finished (s.finalizeSetup env).setupPhase = true := by
    rw [finalizeSetup_eq]
    unfold finalPhase
    dsimp only
    split <;> rfl
  have hnone : s.trace.count .updateConnParams = 0 := h
  rw [hparams, hphase, if_pos rfl, finalizeSetup_eq]
  unfold asked params Sideband.params sideband
  cases s.preferredConnParamsValid <;> simp [hnone]

end Tuned

private theorem updateLink : TraceEntry.updateConnParams.isLink = true := rfl

theorem runInventory_tuned (h : Tuned s) (hphase : s.setupPhase = .inventory) : Tuned (s.runInventory env) := by
  have hasked := inventoryGattDatabase_asked updateLink env s
  have hfound := (inventoryGattDatabase_phase env s).trans hphase
  unfold runInventory
  generalize s.inventoryGattDatabase env = out at hasked hfound
  dsimp only at hasked hfound ⊢
  have hhere : Tuned out.1 := h.early (by rw [hphase]; rfl) (by rw [hfound]; rfl) hasked
  split
  · refine Tuned.finalized env (hhere.keep rfl rfl ?_) ?_
    · exact markDegraded_asked updateLink _ _
    · rw [show (out.1.markDegraded _).setupPhase = out.1.setupPhase from rfl, hfound]
      rfl
  · split
    · exact hhere.early (by rw [hfound]; rfl) rfl (transition_asked updateLink env _ _)
    · refine hhere.early (by rw [hfound]; rfl) rfl ?_
      exact (transition_asked updateLink env _ _).trans (planReads_asked updateLink _)

theorem startNextRead_tuned (h : Tuned s) (hphase : s.setupPhase = .reading) : Tuned (s.startNextRead env) := by
  have hcases := startNextRead_phase env hphase
  refine h.early (by rw [hphase]; rfl) ?_ (startNextRead_asked updateLink env s)
  rcases hcases with hnext | hnext <;> rw [hnext] <;> rfl

theorem nextProtocolModeWrite_tuned (h : Tuned s) (hphase : s.setupPhase = .writingProtocolMode) :
    Tuned (s.nextProtocolModeWrite env) := by
  refine h.early (by rw [hphase]; rfl) ?_ (nextProtocolModeWrite_asked updateLink env s)
  unfold nextProtocolModeWrite
  split
  · rfl
  · dsimp only
    split <;> exact (congrArg finished hphase).trans rfl

theorem startNextSubscription_tuned (h : Tuned s) (hphase : s.setupPhase = .registering) :
    Tuned (s.startNextSubscription env) := by
  have hopen : finished s.setupPhase = false := by rw [hphase]; rfl
  rcases startNextSubscription_asked updateLink env s with hfinal | ⟨hasked, hsame⟩
  · rw [hfinal]
    exact h.finalized env hopen
  · exact h.early hopen (by rw [hsame]; exact hopen) hasked

theorem writeCurrentCccd_tuned (h : Tuned s) (hphase : s.setupPhase = .waitingForCccd) :
    Tuned (s.writeCurrentCccd env) := by
  refine h.early (by rw [hphase]; rfl) ?_ (writeCurrentCccd_asked updateLink env s)
  unfold writeCurrentCccd
  split
  · exact (congrArg finished hphase).trans rfl
  · dsimp only
    split
    · exact (congrArg finished hphase).trans rfl
    · rfl

theorem runPhase_tuned (h : Tuned s) : Tuned (s.runPhase env) := by
  unfold runPhase
  split <;> rename_i hphase
  · exact runInventory_tuned env h hphase
  · exact startNextRead_tuned env h hphase
  · obtain ⟨d, contexts, sources, heq⟩ := s.buildHidProfiles_profiles
    have htrace : s.buildHidProfiles.trace = s.trace := congrArg Setup.trace heq
    unfold startProtocolModeWrite
    rw [if_pos ((buildHidProfiles_phase s).trans hphase)]
    refine nextProtocolModeWrite_tuned env (h.early (by rw [hphase]; rfl) rfl ?_) rfl
    exact (transition_asked updateLink env _ _).trans (asked_of_trace htrace)
  · unfold startProtocolModeWrite
    rw [hphase, if_neg (by decide)]
    exact nextProtocolModeWrite_tuned env h hphase
  · exact startNextSubscription_tuned env h hphase
  · split
    · exact writeCurrentCccd_tuned env h hphase
    · exact h
  · exact h

theorem handlePhaseTimeout_tuned (h : Tuned s) : Tuned (s.handlePhaseTimeout env) := by
  rcases handlePhaseTimeout_asked updateLink env s with
    hearly | ⟨hwaits, ⟨hasked, hphase⟩ | ⟨t, hfixture, hsame, hasked, hfinal⟩⟩
  · rw [hearly]
    exact h
  · have hopen : finished s.setupPhase = false := by
      revert hwaits
      cases s.setupPhase <;> decide
    exact h.early hopen (by rw [hphase]; rfl) hasked
  · have hopen : finished t.setupPhase = false := by
      rw [hsame]
      revert hwaits
      cases s.setupPhase <;> decide
    rw [hfinal]
    exact (h.keep hsame (params_of_fixture hfixture) hasked).finalized env hopen

theorem loop_tuned (h : Tuned s) : Tuned (s.loop env) := by
  have hpending : Tuned s.requestPendingRediscovery := by
    unfold requestPendingRediscovery
    split
    · refine h.keep rfl rfl ?_
      simp [asked, log]
    · exact h
  have hsetup := handlePhaseTimeout_tuned env (runPhase_tuned env hpending)
  have hbeside := (loop_beside env s).setup
  exact Tuned.keep hsetup (congrArg Setup.setupPhase hbeside) (params_of_sideband (loop_sideband env s))
    (asked_of_trace (congrArg Setup.trace hbeside))

/-! ### Callbacks -/

theorem handleSearchComplete_tuned (status : GattStatus) (h : Tuned s)
    (hbefore : beforeSearch s.setupPhase = true) : Tuned (s.handleSearchComplete env status) := by
  have hopen : finished s.setupPhase = false := by
    revert hbefore
    cases s.setupPhase <;> decide
  have hlogged : (s.log (.searchComplete status)).asked .updateConnParams = s.asked .updateConnParams :=
    log_asked updateLink rfl s
  have hmarked (reason : String) : Tuned ((s.log (.searchComplete status)).markDegraded reason) :=
    h.keep rfl rfl ((markDegraded_asked updateLink reason _).trans hlogged)
  unfold handleSearchComplete
  dsimp only
  split
  · exact (hmarked _).finalized env hopen
  · exact h.early hopen rfl ((transition_asked updateLink env _ _).trans hlogged)

theorem handleRead_tuned (handle : Nat) (status : GattStatus) (value : Buffer) (h : Tuned s)
    (hphased : Phased s.setup) : Tuned (s.handleRead env handle status value) := by
  unfold handleRead
  split
  · exact h
  · rename_i operation hactive
    split
    · have hreading : s.setupPhase = .reading := hphased.reading_of_active hactive
      obtain ⟨contexts, sources, d, entries, -, -, heq⟩ := finishActiveRead_reads env status value hactive
      have hphase : (s.finishActiveRead env status value).setupPhase = .reading :=
        (congrArg Setup.setupPhase heq).trans hreading
      exact h.early (by rw [hreading]; rfl) (by rw [hphase]; rfl) (finishActiveRead_asked updateLink env _ _ s)
    · exact h

theorem handleRegistrationResult_phase (handle : Nat) (status : GattStatus) (s : BLEClientHID) :
    (s.handleRegistrationResult env handle status).setupPhase = s.setupPhase ∨
      s.activeSubscription.isSome = true ∧
        subscribing (s.handleRegistrationResult env handle status).setupPhase = true := by
  unfold handleRegistrationResult
  dsimp only [log]
  split
  · exact .inl rfl
  · rename_i sub hactive
    split
    · exact .inl rfl
    · refine .inr ⟨by rw [hactive]; rfl, ?_⟩
      split <;> rfl

theorem handleCccdResult_phase (handle : Nat) (status : GattStatus) (s : BLEClientHID) :
    (s.handleCccdResult env handle status).setupPhase = s.setupPhase ∨
      s.activeSubscription.isSome = true ∧
        subscribing (s.handleCccdResult env handle status).setupPhase = true := by
  have hwrite (u : BLEClientHID) : (u.writeCurrentCccd env).setupPhase = u.setupPhase ∨
      subscribing (u.writeCurrentCccd env).setupPhase = true := by
    unfold writeCurrentCccd
    split
    · exact .inl rfl
    · dsimp only
      split
      · exact .inl rfl
      · exact .inr rfl
  unfold handleCccdResult
  dsimp only [log]
  split
  · exact .inl rfl
  · rename_i sub hactive
    have hsome : s.activeSubscription.isSome = true := by rw [hactive]; rfl
    split
    · exact .inl rfl
    · split
      · exact .inr ⟨hsome, rfl⟩
      · split
        · exact (hwrite _).imp_right fun hsubscribing => ⟨hsome, hsubscribing⟩
        · exact .inr ⟨hsome, rfl⟩

theorem Tuned.answer (h : Tuned s) (hphased : Phased s.setup) (hfixture : t.fixture = s.fixture)
    (hasked : t.asked .updateConnParams = s.asked .updateConnParams)
    (hphase : t.setupPhase = s.setupPhase ∨ s.activeSubscription.isSome = true ∧ subscribing t.setupPhase = true) :
    Tuned t := by
  have hopen {phase : SetupPhase} (hsubscribing : subscribing phase = true) : finished phase = false := by
    revert hsubscribing
    cases phase <;> decide
  rcases hphase with hsame | ⟨hactive, hsubscribing⟩
  · exact h.keep hsame (params_of_fixture hfixture) hasked
  · obtain ⟨sub, hsub⟩ := Option.isSome_iff_exists.mp hactive
    exact h.early (hopen (hphased.subscribing_of_active hsub)) (hopen hsubscribing) hasked

theorem handleGattcEvent_tuned (event : GattcEvent) (hreached : Reachable s)
    (hone : (s.handleGattcEvent env event).OneSearch) (h : Tuned s) : Tuned (s.handleGattcEvent env event) := by
  have hphased := (reachable_phased hreached).2
  cases event with
  | connect remoteBda | disconnect remoteBda =>
    rw [handleGattcEvent]
    split
    · exact .of_new (by simp [asked, resetConnectionState, transition, log]) rfl
    · exact h
  | searchCmpl connId status =>
    rw [handleGattcEvent] at hone ⊢
    split
    · rename_i hconn
      rw [if_pos hconn] at hone
      exact handleSearchComplete_tuned env status h (search_first hreached hone)
    · exact h
  | read connId handle status value =>
    rw [handleGattcEvent]
    split
    · exact handleRead_tuned env handle status value h hphased
    · exact h
  | regForNotify handle status =>
    exact h.answer hphased (handleRegistrationResult_fixture env s handle status)
      (handleRegistrationResult_asked updateLink env handle status s)
      (handleRegistrationResult_phase env handle status s)
  | writeDescr connId handle status =>
    rw [handleGattcEvent]
    split
    · exact h.answer hphased (handleCccdResult_fixture env s handle status)
        (handleCccdResult_asked updateLink env handle status s) (handleCccdResult_phase env handle status s)
    · exact h
  | notify connId remoteBda handle value isNotify =>
    rw [handleGattcEvent]
    split
    · have hsetup := (handleNotification_beside env handle value isNotify s).setup
      exact h.keep (congrArg Setup.setupPhase hsetup) (handleNotification_params env handle value isNotify s)
        (asked_of_trace (congrArg Setup.trace hsetup))
    · exact h
  | srvcChg | congest | queueFull =>
    rw [handleGattcEvent]
    split
    · exact h.keep rfl rfl rfl
    · exact h
  | other => exact h

theorem reachable_tuned (h : Reachable s) : Tuned s := by
  induction h with
  | initial discoveryMode policy interval => exact .of_new rfl rfl
  | @step s event hreached hone ih =>
    cases event with
    | loop env => exact loop_tuned env ih
    | gattc env event gattcIf =>
      cases haccepted : accepted env gattcIf with
      | false =>
        rw [step_refused haccepted]
        exact ih
      | true =>
        rw [step_accepted haccepted] at hone ⊢
        exact handleGattcEvent_tuned env event hreached hone ih

end

/-! ## The law -/

/-- The parameters that the connection has read. -/
def readParameters (s : BLEClientHID) (events : List Event) : List ConnParams :=
  history step BLEClientHID.parametersRead Event.resetsConnection s events

theorem run_params {s : BLEClientHID} (h : s.params = none) (events : List Event) :
    (run s events).params = (readParameters s events).getLast? := by
  induction events using List.reverseRecOn with
  | nil => exact h
  | append_singleton events event ih =>
    rw [run_append_singleton, step_params, ih]
    unfold readParameters
    rw [history_concat]
    split
    · rfl
    · rw [List.getLast?_append]
      rfl

/-- In every run the parameters known are those that the connection has read last, and they are asked for once,
when the setup ends, or never where none were read. -/
theorem parameters_asked (discoveryMode : DiscoveryMode) (policy : ProtocolModePolicy) (interval : UInt32)
    (events : List Event)
    (hsearch : ∀ n < events.length, (run (initial discoveryMode policy interval) (events.take (n + 1))).OneSearch) :
    let s := run (initial discoveryMode policy interval) events
    let read := readParameters (initial discoveryMode policy interval) events
    s.params = read.getLast? ∧
      s.asked .updateConnParams = if finished s.setupPhase = true ∧ read ≠ [] then 1 else 0 := by
  intro s read
  have hparams : s.params = read.getLast? := run_params rfl events
  have htuned : Tuned s := reachable_tuned (reachable_run (.initial discoveryMode policy interval) events hsearch)
  refine ⟨hparams, ?_⟩
  unfold Tuned at htuned
  rw [htuned, hparams]
  cases hread : read.getLast? with
  | none => simp [List.getLast?_eq_none_iff.mp hread]
  | some last =>
    have hsome : read ≠ [] := by
      rintro hnone
      rw [hnone] at hread
      cases hread
    simp [hsome]

/-! ## A keyboard with a preference -/

def preferenceServices : List GattServiceInfo :=
  [hidService [reportMapCharacteristic, reportCharacteristic],
    { uuid := .uuid16 0x1800, startHandle := 31, endHandle := 40
      characteristics := [{ uuid := .uuid16 0x2A04, handle := 33, properties := 0x02 }] }]

def preferenceSetup : List Event :=
  exampleRun preferenceServices (connectAndSearch ++ [none] ++ BleClientHid.readReportMap ++
    [none, some (.read 0 7 .ok (.bytes [0, 1])), none, some (.read 0 33 .ok (.bytes [6, 0, 12, 0, 0, 0, 200, 0])),
      none, none] ++ subscribe)

/-- Intervals from 6 to 12 and a timeout of 200 are read, and asked for once. -/
theorem parameters_asked_keyboard :
    let s := run (initial .standard .unchanged 0) preferenceSetup
    s.params = some { minInt := 6, maxInt := 12, timeout := 200 } ∧ s.asked .updateConnParams = 1 := by
  intro s
  obtain ⟨hparams, hasked⟩ := parameters_asked .standard .unchanged 0 preferenceSetup (by decide +kernel)
  constructor
  · rw [hparams]
    decide +kernel
  · rw [hasked]
    decide +kernel

end BleClientHid

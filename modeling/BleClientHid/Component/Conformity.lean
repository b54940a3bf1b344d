import BleClientHid.Component.Gathering
import BleClientHid.Component.Termination
import BleClientHid.HidParser.WellFormed

/-! # A peripheral that conforms is set up

Unless one of the phases takes too long.
-/

namespace BleClientHid

open Setup BLEClientHID

/-! ## The invariant -/

/-- The phases before the reads are planned. -/
def early (phase : SetupPhase) : Bool := beforeSearch phase || phase == .inventory

/-- The phases in which values are gathered. -/
def gathering (phase : SetupPhase) : Bool := phase == .reading || phase == .buildingProfile

structure Clean (p : Peripheral) (s : Setup) : Prop where
  undegraded : s.degraded = false
  phase : s.setupPhase ≠ .degraded
  noHid : s.setupPhase = .noHid → hidServicesOf p.recorded.services = []
  fresh : early s.setupPhase = true → s.sources = []
  services : early s.setupPhase = false → s.services = p.recorded.services
  gathered : gathering s.setupPhase = true → Gathered p s
  cccds : ∀ sub, sub ∈ s.subscriptionQueue ∨ s.activeSubscription = some sub → sub.required = true →
    sub.cccdHandle ≠ 0

namespace Clean

variable {p : Peripheral} {s t : Setup}

theorem keep (h : Clean p s)
    (hframe : t = { s with trace := t.trace, subscriptionState := t.subscriptionState }) : Clean p t := by
  generalize t.trace = trace, t.subscriptionState = state at hframe
  subst hframe
  exact ⟨h.undegraded, h.phase, h.noHid, h.fresh, h.services,
    fun hp => ⟨(h.gathered hp).sources, (h.gathered hp).maps, (h.gathered hp).references⟩, h.cccds⟩

theorem later (h : Clean p s) (hearly : early s.setupPhase = false) (hservices : t.services = s.services)
    (hdegraded : t.degraded = false) (hphase : built t.setupPhase = true)
    (hcccds : ∀ sub, sub ∈ t.subscriptionQueue ∨ t.activeSubscription = some sub → sub.required = true →
      sub.cccdHandle ≠ 0) : Clean p t where
  undegraded := hdegraded
  phase := by
    rintro heq
    rw [heq] at hphase
    exact absurd hphase (by decide)
  noHid := by
    rintro heq
    rw [heq] at hphase
    exact absurd hphase (by decide)
  fresh := by
    revert hphase
    cases t.setupPhase <;> simp [built, subscribing, early, beforeSearch]
  services := fun _ => hservices.trans (h.services hearly)
  gathered := by
    revert hphase
    cases t.setupPhase <;> simp [built, subscribing, gathering]
  cccds := hcccds

theorem reset (p : Peripheral) (s : Setup) {phase : SetupPhase}
    (hphase : phase = .disconnected ∨ phase = .waitingForDiscovery) (entries : List TraceEntry) :
    Clean p (s.reset phase entries) where
  undegraded := rfl
  phase := by rcases hphase with rfl | rfl <;> simp [Setup.reset]
  noHid := by rcases hphase with rfl | rfl <;> simp [Setup.reset]
  fresh := fun _ => rfl
  services := by rcases hphase with rfl | rfl <;> simp [Setup.reset, early, beforeSearch]
  gathered := by rcases hphase with rfl | rfl <;> simp [Setup.reset, gathering]
  cccds := by simp [Setup.reset]

end Clean

/-! ## `loop()` -/

section

variable {p : Peripheral} {env : Env} {s : BLEClientHID}

theorem runInventory_clean (hp : p.Conforms s.discoveryMode) (henv : p.Served env) (h : Clean p s.setup)
    (hphased : Phased s.setup) (hphase : s.setupPhase = .inventory) : Clean p (s.runInventory env).setup := by
  obtain ⟨hidle, -⟩ := hphased.reads (show s.setupPhase ≠ .reading by simp [hphase])
  obtain ⟨hstored, hdegraded, hfound⟩ := inventoryGattDatabase_conforming hp henv s
  obtain ⟨u, services, hash, ⟨reasons, rfl⟩, -, heq⟩ := inventoryGattDatabase_spec env s
  have hundegraded : (s.inventoryGattDatabase env).1.degraded = false := hdegraded.trans h.undegraded
  have hfresh : s.handleReportSource = [] := h.fresh (show early s.setupPhase = true by simp [hphase, early])
  have hcccds : ∀ sub, sub ∈ s.subscriptionQueue ∨ s.activeSubscription = some sub → sub.required = true →
      sub.cccdHandle ≠ 0 := h.cccds
  unfold runInventory
  generalize s.inventoryGattDatabase env = out at hstored hundegraded hfound heq
  obtain ⟨t, found⟩ := out
  dsimp only at hstored hundegraded hfound heq ⊢
  -- the inventory of a database that fits finds services and reports nothing
  rw [hfound, if_neg (by simp)]
  have hservices : services = p.recorded.services := by rw [← hstored, heq]
  have hcontexts : t.hidServices = contextsOf p.recorded.services := by rw [heq, hservices]
  have hmode : t.discoveryMode = s.discoveryMode := by rw [heq]; rfl
  have hsources : t.handleReportSource = [] := by rw [heq]; exact hfresh
  have hqueue : t.subscriptionQueue = s.subscriptionQueue := by rw [heq]; rfl
  have hactive : t.activeSubscription = s.activeSubscription := by rw [heq]; rfl
  have hread : t.activeRead = none := by rw [heq]; exact hidle
  clear heq
  split
  · -- without a HID service the setup is over
    rename_i hempty
    rw [hcontexts, contextsOf, List.isEmpty_iff, List.map_eq_nil_iff] at hempty
    exact ⟨hundegraded, by simp [transition, setup], fun _ => hempty, by simp [transition, setup, early, beforeSearch],
      fun _ => hstored, by simp [transition, setup, gathering], by
        intro sub hsub
        exact hcccds sub (by rwa [← hqueue, ← hactive])⟩
  · -- the reads of the peripheral have room in the queue, so the plan marks nothing
    have hwanted : wantedReads t.discoveryMode t.services = p.reads s.discoveryMode := by
      rw [hmode, hstored]
      rfl
    have hroom := planReads_undegraded (s := t) (by rw [hwanted]; exact hp.reads)
    obtain ⟨v, queue, handles, ⟨marks, rfl⟩, hplan, hplanned⟩ := planReads_spec t
    have hqueued : queue = p.reads s.discoveryMode := by
      rw [hplan (by rw [hplanned] at hroom; exact hroom.trans hundegraded), hwanted, p.firstReads_reads]
    rw [hplanned] at hroom ⊢
    refine ⟨hroom.trans hundegraded, by simp [transition, setup], by simp [transition, setup],
      by simp [transition, setup, early, beforeSearch], fun _ => hstored, fun _ => ⟨?_, ?_, ?_⟩, ?_⟩
    · intro entry hentry
      have hold : entry ∈ t.handleReportSource := hentry
      simp [hsources] at hold
    · intro i m hm
      have hnone : reportMapOf ((contextsOf p.recorded.services).map (·.fixed)) i = some m := by
        rw [← hcontexts]
        exact hm
      rw [map_fixed_contextsOf, reportMapOf_contextsOf] at hnone
      simp at hnone
    · intro reference href _
      have hmem : reference ∈ p.reads s.discoveryMode := by
        rw [← hmode]
        exact href
      exact .inl (show reference ∈ queue by rwa [hqueued])
    · intro sub hsub
      exact hcccds sub (by rw [← hqueue, ← hactive]; exact hsub)

theorem startNextRead_clean (henv : p.Served env) (h : Clean p s.setup) (hphase : s.setupPhase = .reading) :
    Clean p (s.startNextRead env).setup := by
  have hgathered := h.gathered (show gathering s.setupPhase = true by simp [hphase, gathering])
  have hservices := h.services (show early s.setupPhase = false by simp [hphase, early, beforeSearch])
  unfold startNextRead
  split
  · exact h
  · rename_i hbusy
    rw [Bool.not_eq_true, Bool.or_eq_false_iff, Option.isSome_eq_false_iff, Option.isNone_iff_eq_none] at hbusy
    split
    · exact ⟨h.undegraded, by simp [transition, setup], by simp [transition, setup],
        by simp [transition, setup, early, beforeSearch], fun _ => hservices,
        fun _ => ⟨hgathered.sources, hgathered.maps, hgathered.references⟩, h.cccds⟩
    · rename_i operation rest hqueue
      dsimp only
      rw [henv.read, if_pos rfl]
      have hstart := hgathered.start hbusy.1 hqueue
      exact ⟨h.undegraded, h.phase, h.noHid, h.fresh, h.services,
        fun _ => ⟨hstart.sources, hstart.maps, hstart.references⟩, h.cccds⟩

theorem nextProtocolModeWrite_clean (hp : p.Conforms s.discoveryMode) (henv : p.Served env)
    (hdegraded : s.degraded = false) (hservices : s.services = p.recorded.services)
    (hphase : s.setupPhase = .writingProtocolMode)
    (hidle : s.activeSubscription = none ∧ s.subscriptionQueue = []) :
    Clean p (s.nextProtocolModeWrite env).setup := by
  have hclean : Clean p s.setup := by
    refine ⟨hdegraded, ?_, ?_, ?_, fun _ => hservices, ?_, ?_⟩ <;>
      simp [setup, hphase, early, beforeSearch, gathering, hidle.1, hidle.2]
  have hearly : early s.setup.setupPhase = false := by simp [setup, hphase, early, beforeSearch]
  unfold nextProtocolModeWrite
  split
  · have hwanted : wantedSubscriptions s.discoveryMode s.services = p.subscriptions s.discoveryMode := by
      rw [hservices]
      rfl
    have hroom := planSubscriptions_undegraded (s := s) (by rw [hwanted]; exact hp.subscriptions)
    have hqueue := planSubscriptions_queue s
    obtain ⟨queue, battery, changed, t, ⟨reasons, rfl⟩, -, heq⟩ := planSubscriptions_spec s
    rw [heq] at hroom hqueue ⊢
    refine hclean.later hearly rfl (hroom.trans hdegraded) rfl fun sub hsub => ?_
    rcases hsub with hqueued | hactive
    · have hmem : sub ∈ (wantedSubscriptions s.discoveryMode s.services).take maxSubscriptions := by
        rw [← hqueue]
        exact hqueued
      rw [hwanted] at hmem
      exact hp.cccds sub (List.mem_of_mem_take hmem)
    · have hnone : s.activeSubscription = some sub := hactive
      simp [hidle.1] at hnone
  · dsimp only
    rw [henv.writeChar, if_pos rfl]
    exact hclean.later hearly rfl hdegraded (show built s.setupPhase = true by simp [hphase, built]) hclean.cccds

theorem buildProfiles_clean (hp : p.Conforms s.discoveryMode) (henv : p.Served env) (h : Clean p s.setup)
    (hphased : Phased s.setup) (hphase : s.setupPhase = .buildingProfile) :
    Clean p (s.buildHidProfiles.startProtocolModeWrite env).setup := by
  obtain ⟨hread, hqueue⟩ := hphased.reads (show s.setupPhase ≠ .reading by simp [hphase])
  have hidle := hphased.attempts (show subscribing s.setupPhase = false by simp [hphase, subscribing])
  have hgathered := h.gathered (show gathering s.setupPhase = true by simp [hphase, gathering])
  have hservices := h.services (show early s.setupPhase = false by simp [hphase, early, beforeSearch])
  have hdegraded := (hgathered.profiled h.undegraded hqueue hread).buildHidProfiles hp hservices
  obtain ⟨hmode, -, hsame, -⟩ := s.buildHidProfiles_same
  obtain ⟨d, contexts, sources, heq⟩ := s.buildHidProfiles_profiles
  unfold startProtocolModeWrite
  rw [if_pos ((buildHidProfiles_phase s).trans hphase)]
  refine nextProtocolModeWrite_clean (by rw [← hmode] at hp; exact hp) henv hdegraded (hsame.trans hservices) rfl ?_
  exact ⟨(congrArg Setup.activeSubscription heq).trans hidle.1, (congrArg Setup.subscriptionQueue heq).trans hidle.2⟩

theorem finalizeSetup_clean (h : Clean p s.setup) (hearly : early s.setupPhase = false) :
    Clean p (s.finalizeSetup env).setup := by
  have hready : s.finalPhase = .ready := by
    rw [finalPhase, show s.degraded = false from h.undegraded]
    rfl
  rw [finalizeSetup_eq, hready]
  exact h.later hearly rfl h.undegraded rfl h.cccds

theorem startNextSubscription_clean (henv : p.Served env) (h : Clean p s.setup)
    (hphase : s.setupPhase = .registering) : Clean p (s.startNextSubscription env).setup := by
  have hearly : early s.setupPhase = false := by simp [hphase, early, beforeSearch]
  have hbuilt : built s.setupPhase = true := by simp [hphase, built, subscribing]
  unfold startNextSubscription
  split
  · exact h
  · split
    · exact finalizeSetup_clean h hearly
    · rename_i sub rest hqueue
      have hcccd : sub.required = true → sub.cccdHandle ≠ 0 :=
        h.cccds sub (.inl (show sub ∈ s.subscriptionQueue by simp [hqueue]))
      have hrest (other : SubscriptionInfo) (hother : other ∈ rest) : other.required = true →
          other.cccdHandle ≠ 0 :=
        h.cccds other (.inl (show other ∈ s.subscriptionQueue by simp [hqueue, hother]))
      dsimp only
      split
      · rename_i hnone
        have hoptional : sub.required = false := by
          by_contra hrequired
          exact hcccd (by simpa using hrequired) hnone
        rw [hoptional]
        refine h.later hearly rfl h.undegraded hbuilt fun other hother => ?_
        rcases hother with hqueued | hactive
        · exact hrest other hqueued
        · cases hactive
      · rw [henv.register, if_pos rfl]
        refine h.later hearly rfl h.undegraded hbuilt fun other hother => ?_
        rcases hother with hqueued | hactive
        · exact hrest other hqueued
        · obtain rfl := Option.some.inj hactive
          exact hcccd

theorem writeCurrentCccd_clean (henv : p.Served env) (h : Clean p s.setup) :
    Clean p (s.writeCurrentCccd env).setup := by
  unfold writeCurrentCccd
  split
  · exact h
  · dsimp only
    rw [henv.writeDescr, if_pos rfl]
    exact h.keep rfl

theorem runPhase_clean (hp : p.Conforms s.discoveryMode) (henv : p.Served env) (h : Clean p s.setup)
    (hphased : Phased s.setup) : Clean p (s.runPhase env).setup := by
  unfold runPhase
  split <;> rename_i hphase
  · exact runInventory_clean hp henv h hphased hphase
  · exact startNextRead_clean henv h hphase
  · exact buildProfiles_clean hp henv h hphased hphase
  · unfold startProtocolModeWrite
    rw [if_neg (by simp [hphase])]
    exact nextProtocolModeWrite_clean hp henv h.undegraded
      (h.services (show early s.setupPhase = false by simp [hphase, early, beforeSearch])) hphase
      (hphased.attempts (show subscribing s.setupPhase = false by simp [hphase, subscribing]))
  · exact startNextSubscription_clean henv h hphase
  · split
    · exact writeCurrentCccd_clean henv h
    · exact h
  · exact h

end

/-! ## Callbacks -/

/-- Every answer is a success, and a read brings the value. -/
def Peripheral.Grants (p : Peripheral) (env : Env) : GattcEvent → Prop
  | .searchCmpl connId status => connId = env.connId → status = .ok
  | .read connId handle status value => connId = env.connId → status = .ok ∧ value = .bytes (p.value handle)
  | .regForNotify _ status => status = .ok
  | .writeDescr connId _ status => connId = env.connId → status = .ok
  | _ => True

instance (p : Peripheral) (env : Env) (event : GattcEvent) : Decidable (p.Grants env event) := by
  unfold Peripheral.Grants
  cases event <;> infer_instance

/-- The stack serves the peripheral, and what it hands to this client is granted. -/
def Peripheral.Plays (p : Peripheral) : Event → Prop
  | .loop env => p.Served env
  | .gattc env event gattcIf => p.Served env ∧ (gattcIf = none ∨ gattcIf = some env.gattcIf → p.Grants env event)

section

variable {p : Peripheral} {env : Env} {s : BLEClientHID}

theorem handleSearchComplete_clean (h : Clean p s.setup) (hbefore : beforeSearch s.setupPhase = true) :
    Clean p (s.handleSearchComplete env .ok).setup where
  undegraded := h.undegraded
  phase := by simp [handleSearchComplete, transition, setup]
  noHid := by simp [handleSearchComplete, transition, setup]
  fresh _ := h.fresh (show early s.setupPhase = true by simp [early, hbefore])
  services := by simp [handleSearchComplete, transition, setup, early]
  gathered := by simp [handleSearchComplete, transition, setup, gathering]
  cccds := h.cccds

theorem handleRead_clean (hp : p.Conforms s.discoveryMode) (h : Clean p s.setup) (hphased : Phased s.setup)
    (hcatalog : Catalog s.setup) (handle : Nat) :
    Clean p (s.handleRead env handle .ok (.bytes (p.value handle))).setup := by
  unfold handleRead
  split
  · exact h
  · rename_i operation hactive
    split
    · rename_i hhandle
      have hphase : s.setupPhase = .reading := hphased.reading_of_active hactive
      have hservices : s.services = p.recorded.services :=
        h.services (show early s.setupPhase = false by simp [hphase, early, beforeSearch])
      -- the active read is one of the peripheral's, and its value is proper
      have hplanned := hcatalog.planned h.undegraded operation (.inr hactive)
      have hmem : operation ∈ p.reads s.discoveryMode := by
        have hfirst : operation ∈ firstReads (wantedReads s.discoveryMode s.services) := hplanned
        rw [hservices] at hfirst
        exact mem_of_mem_firstReads hfirst
      have hproper := hp.values operation hmem
      have hcontext : needsContext operation.purpose = true →
          (s.findHidContext operation.serviceInstance).isSome = true := by
        intro hneeds
        obtain ⟨service, hservice, hinstance⟩ := p.service_of_needsContext hmem hneeds
        obtain ⟨hstored, hhid⟩ := List.mem_filter.mp hservice
        obtain ⟨context, hfound⟩ := hcatalog.context (show service ∈ s.services by rwa [hservices]) hhid
        rw [show s.setup.contexts = s.hidServices.map (·.fixed) from rfl, findHidContext_fixed, ← hinstance] at hfound
        obtain ⟨context', hcontext, -⟩ := Option.map_eq_some_iff.mp hfound
        exact Option.isSome_iff_exists.mpr ⟨context', hcontext⟩
      -- so the value is stored, and nothing is marked
      have hread (answered : BLEClientHID) (hsame : answered.hidServices = s.hidServices) :
          Stored p operation answered.setup
            (readValue env operation (p.value operation.handle) answered).setup := by
        refine readValue_stored hproper fun hneeds => ?_
        unfold BLEClientHID.findHidContext
        rw [hsame]
        exact hcontext hneeds
      have hstored : Stored p operation { s.setup with activeRead := none }
          (readValue env operation (p.value operation.handle) { s with
            activeRead := none, operationsSucceeded := s.operationsSucceeded + 1 }).setup :=
        hread { s with activeRead := none, operationsSucceeded := s.operationsSucceeded + 1 } rfl
      have hfinished : s.finishActiveRead env .ok (.bytes (p.value handle)) =
          readValue env operation (p.value operation.handle) { s with
            activeRead := none, operationsSucceeded := s.operationsSucceeded + 1 } := by
        have hlength : ¬(Buffer.bytes (p.value operation.handle)).length > maxAttributeValueBytes :=
          Nat.not_lt.mpr hproper.1
        rw [← hhandle]
        simp only [finishActiveRead, hactive]
        rw [if_neg (by simp), if_neg hlength]
        rfl
      rw [hfinished]
      have hgathered := (h.gathered (show gathering s.setupPhase = true by simp [hphase, gathering])).finish
        hmem hactive hstored
      have hframe := hstored.frame
      generalize BLEClientHID.setup (readValue env operation _ _) = t at hgathered hframe ⊢
      have hphase' : t.setupPhase = .reading := by rw [hframe]; exact hphase
      refine ⟨by rw [hframe]; exact h.undegraded, by simp [hphase'], by simp [hphase'],
        by simp [hphase', early, beforeSearch], fun _ => by rw [hframe]; exact hservices, fun _ => hgathered, ?_⟩
      rw [hframe]
      exact h.cccds
    · exact h

theorem handleRegistrationResult_clean (h : Clean p s.setup) (hphased : Phased s.setup) (handle : Nat) :
    Clean p (s.handleRegistrationResult env handle .ok).setup := by
  generalize hresult : s.subscriptionState.registrationResult handle (GattStatus.ok == .ok) env.registrationMs
    cccdFallbackDelayMs = result
  obtain ⟨state, decision⟩ := result
  obtain ⟨-, -, hskip⟩ | ⟨-, hfailed, -⟩ | ⟨rfl, -, -⟩ := SubscriptionAttemptState.registrationResult_cases hresult
  · rw [handleRegistrationResult_unmatched env hskip]
    exact h.keep rfl
  · simp at hfailed
  · cases hactive : s.activeSubscription with
    | none =>
      unfold handleRegistrationResult
      simp only [hresult, hactive, log]
      exact h.keep (by simp only [setup, hactive])
    | some sub =>
      have hsub : subscribing s.setupPhase = true := hphased.subscribing_of_active hactive
      have hearly : early s.setupPhase = false := by
        revert hsub
        cases s.setupPhase <;> simp [subscribing, early, beforeSearch]
      rw [handleRegistrationResult_matched env hactive hresult (by simp)]
      exact h.later hearly rfl h.undegraded rfl h.cccds

theorem handleCccdResult_clean (h : Clean p s.setup) (hphased : Phased s.setup) (handle : Nat) :
    Clean p (s.handleCccdResult env handle .ok).setup := by
  generalize hresult : s.subscriptionState.cccdResult handle (GattStatus.ok == .ok) = result
  obtain ⟨state, decision⟩ := result
  obtain ⟨-, -, hskip⟩ | ⟨rfl, -⟩ | ⟨-, hfailed, -⟩ | ⟨-, hfailed, -⟩ :=
    SubscriptionAttemptState.cccdResult_cases hresult
  · rw [handleCccdResult_unmatched env hskip]
    exact h.keep rfl
  · cases hactive : s.activeSubscription with
    | none =>
      unfold handleCccdResult
      simp only [hresult, hactive, log]
      exact h.keep (by simp only [setup, hactive])
    | some sub =>
      have hsub : subscribing s.setupPhase = true := hphased.subscribing_of_active hactive
      have hearly : early s.setupPhase = false := by
        revert hsub
        cases s.setupPhase <;> simp [subscribing, early, beforeSearch]
      rw [handleCccdResult_matched env hactive hresult (by simp)]
      refine h.later hearly rfl h.undegraded rfl fun other hother => ?_
      rcases hother with hqueued | hnone
      · exact h.cccds other (.inl hqueued)
      · cases hnone
  · simp at hfailed
  · simp at hfailed

theorem beside_clean {t : BLEClientHID} (h : Clean p s.setup) (hbeside : Beside s t) : Clean p t.setup := by
  rw [hbeside.setup]
  exact h

theorem handleGattcEvent_clean (hp : p.Conforms s.discoveryMode) (h : Clean p s.setup) (hphased : Phased s.setup)
    (hcatalog : Catalog s.setup) {event : GattcEvent} (hgrants : p.Grants env event)
    (hone : (s.handleGattcEvent env event).OneSearch) : Clean p (s.handleGattcEvent env event).setup := by
  unfold handleGattcEvent at hone ⊢
  cases event with
  | connect remoteBda =>
    dsimp only
    split
    · exact .reset p s.setup (.inr rfl) _
    · exact h
  | disconnect remoteBda =>
    dsimp only
    split
    · exact .reset p s.setup (.inl rfl) _
    · exact h
  | searchCmpl connId status =>
    dsimp only at hone ⊢
    split
    · rename_i hconn
      rw [if_pos hconn] at hone
      obtain rfl := hgrants hconn
      -- with one search only, this one finds the setup before any inventory
      obtain ⟨entries, -, heq⟩ := handleSearchComplete_searched env s .ok
      exact handleSearchComplete_clean h (beforeSearch_of_oneSearch hphased heq hone)
    · exact h
  | read connId handle status value =>
    dsimp only
    split
    · rename_i hconn
      obtain ⟨rfl, rfl⟩ := hgrants hconn
      exact handleRead_clean hp h hphased hcatalog handle
    · exact h
  | regForNotify handle status =>
    -- the peripheral grants a registration whatever the connection
    obtain rfl : status = .ok := hgrants
    exact handleRegistrationResult_clean h hphased handle
  | writeDescr connId handle status =>
    dsimp only
    split
    · rename_i hconn
      obtain rfl := hgrants hconn
      exact handleCccdResult_clean h hphased handle
    · exact h
  | notify connId remoteBda handle value isNotify =>
    dsimp only
    split
    · exact beside_clean h (handleNotification_beside env handle value isNotify s)
    · exact h
  | srvcChg | congest | queueFull =>
    -- these touch the flags beside the setup only
    dsimp only
    split
    · exact beside_clean h ⟨rfl, rfl, rfl, rfl⟩
    · exact h
  | other => exact h

end

/-! ## Runs -/

theorem Setup.Move.discoveryMode {fails : Bool} {s t : Setup} (hmove : Move fails s t) :
    t.discoveryMode = s.discoveryMode := by
  cases hmove with
  | buildProfiles s => exact s.buildHidProfiles_same.1
  | _ => rfl

theorem moves_same {fails : Bool} {s t : Setup} (hmoves : Moves fails s t) :
    t.discoveryMode = s.discoveryMode ∧ s.trace <+: t.trace := by
  induction hmoves with
  | refl => exact ⟨rfl, List.prefix_refl _⟩
  | tail _ hmove ih => exact ⟨hmove.discoveryMode.trans ih.1, ih.2.trans hmove.trace⟩

/-- The mode stays, and the log grows as long as the connection lasts. -/
theorem step_same (s : BLEClientHID) (h : Aligned s.setup) (event : Event) :
    (step s event).discoveryMode = s.discoveryMode ∧
      (event.resetsConnection = false → s.trace <+: (step s event).trace) := by
  have hstep := step_setup s h event
  have hmode : (step s event).discoveryMode = (step s event).setup.discoveryMode := rfl
  have htrace : (step s event).trace = (step s event).setup.trace := rfl
  rw [hmode, htrace]
  generalize BLEClientHID.setup (step s event) = t, event.resetsConnection = resets at hstep
  cases hstep with
  | moves hmoves => exact ⟨(moves_same hmoves).1, fun _ => (moves_same hmoves).2⟩
  | reset phase entries => exact ⟨rfl, by simp⟩
  | searched status entries =>
    obtain ⟨phase, degraded, trace, heq⟩ := searched_same s.setup status entries
    rw [heq]
    exact ⟨rfl, fun _ => List.prefix_append _ _⟩

def InTime (s : BLEClientHID) : Prop := ∀ phase, .timeout phase ∉ s.trace

instance (s : BLEClientHID) : Decidable (InTime s) :=
  decidable_of_iff (s.trace.all fun entry => match entry with | .timeout _ => false | _ => true) (by
    rw [List.all_eq_true]
    constructor
    · intro hall phase hmem
      simpa using hall _ hmem
    · intro htime entry hentry
      cases entry <;> first | rfl | exact absurd hentry (htime _))

section

variable {p : Peripheral} {env : Env} {s : BLEClientHID}

theorem Deadline.late {t : BLEClientHID} (h : Deadline env s t) : .timeout s.setupPhase ∈ t.trace := by
  cases h with
  | reading => simp [timedOut, markDegraded, log, transition]
  | subscribing =>
    rw [finalizeSetup_eq]
    simp [timedOut, markDegraded, log, resetSubscription]
  | other =>
    rw [finalizeSetup_eq]
    simp [timedOut, markDegraded, log]

theorem loop_clean (hp : p.Conforms s.discoveryMode) (henv : p.Served env) (h : Clean p s.setup)
    (haligned : Aligned s.setup) (hphased : Phased s.setup) (htime : InTime (s.loop env)) :
    Clean p (s.loop env).setup := by
  have hrequested : Clean p s.requestPendingRediscovery.setup ∧
      s.requestPendingRediscovery.discoveryMode = s.discoveryMode := by
    unfold requestPendingRediscovery
    split
    · exact ⟨h.keep rfl, rfl⟩
    · exact ⟨h, rfl⟩
  obtain ⟨hclean, hmode⟩ := hrequested
  have hacts : Acts env false s s.requestPendingRediscovery := requestPendingRediscovery_acts env s
  obtain ⟨-, hphased'⟩ := Acts.aligned_phased hacts haligned hphased
  have hphase : Clean p (s.loopPhase env).setup := runPhase_clean (by rwa [hmode]) henv hclean hphased'
  have hbeside := loop_beside env s
  cases hdue : waits (s.loopPhase env).setupPhase ||
      !elapsed env.timeoutMs (s.loopPhase env).phaseStartedMs phaseTimeoutMs with
  | true =>
    have hsame : s.loopSetup env = s.loopPhase env := handlePhaseTimeout_of_not_due env hdue
    rw [hsame] at hbeside
    exact beside_clean hphase hbeside
  | false =>
    have hlate := (handlePhaseTimeout_deadline env hdue).late
    have htrace : (s.loop env).trace = (s.loopSetup env).trace := congrArg Setup.trace hbeside.setup
    exact absurd (htrace ▸ hlate) (htime _)

theorem step_clean (hp : p.Conforms s.discoveryMode) (h : Clean p s.setup) (haligned : Aligned s.setup)
    (hphased : Phased s.setup) (hcatalog : Catalog s.setup) {event : Event} (hplays : p.Plays event)
    (hone : (step s event).OneSearch) (htime : InTime (step s event)) : Clean p (step s event).setup := by
  cases event with
  | loop env => exact loop_clean hp hplays h haligned hphased htime
  | gattc env event gattcIf =>
    obtain ⟨-, hgrants⟩ := hplays
    unfold step gattcEventHandler at hone ⊢
    cases gattcIf with
    | none => exact handleGattcEvent_clean hp h hphased hcatalog (hgrants (.inl rfl)) hone
    | some gattcIf =>
      dsimp only at hone ⊢
      split
      · rename_i hif
        rw [if_pos hif] at hone
        exact handleGattcEvent_clean hp h hphased hcatalog (hgrants (.inr (congrArg some hif))) hone
      · exact h

theorem reachable_clean (h : ReachableWhen (fun _ event => p.Plays event) s) (hp : p.Conforms s.discoveryMode)
    (htime : InTime s) : Clean p s.setup := by
  induction h with
  | initial discoveryMode policy interval => exact .reset p { discoveryMode, protocolModePolicy := policy } (.inl rfl) []
  | @step s event h hone hplays ih =>
    obtain ⟨haligned, -⟩ := reachable_phased h.reachable
    obtain ⟨hphased, hcatalog, -⟩ := reachable_mapsRead h.reachable
    obtain ⟨hmode, htrace⟩ := step_same s haligned event
    rw [hmode] at hp
    cases hreset : event.resetsConnection with
    | false =>
      have hearlier : InTime s := fun phase hmem => htime phase ((htrace hreset).subset hmem)
      exact step_clean hp (ih hp hearlier) haligned hphased hcatalog hplays hone htime
    | true =>
      have hstep := step_setup s haligned event
      rw [hreset] at hstep
      generalize BLEClientHID.setup (step s event) = t at hstep
      cases hstep with
      | reset phase entries hphase => exact .reset p s.setup hphase entries

end

/-! ## The law -/

theorem hidServicesOf_records {db : List GattServiceInfo} (h : hidServicesOf (records db) = []) :
    hidServicesOf db = [] := by
  rw [hidServicesOf, List.filter_eq_nil_iff] at h ⊢
  intro service hmem
  obtain ⟨i, hi, rfl⟩ := List.getElem_of_mem hmem
  exact h (recordService i db[i]) (List.mem_mapIdx.mpr ⟨i, hi, rfl⟩)

/-- Whatever the order of callbacks and `loop()` calls, over any number of connections: where the
stack serves a peripheral that conforms and every answer is a success, the setup degrades only by a
phase that times out, and it ends in READY when there is a HID service. -/
theorem conforming_ready (p : Peripheral) (s : BLEClientHID) (h : ReachableWhen (fun _ event => p.Plays event) s)
    (hp : p.Conforms s.discoveryMode) (htime : InTime s) :
    s.degraded = false ∧ s.setupPhase ≠ .degraded ∧
      (settled s.setupPhase = true → hidServicesOf p.database.services ≠ [] → s.setupPhase = .ready) := by
  have hclean := reachable_clean h hp htime
  refine ⟨hclean.undegraded, hclean.phase, fun hsettled hhid => ?_⟩
  simp only [settled, Bool.or_eq_true, beq_iff_eq] at hsettled
  rcases hsettled with (hready | hdegraded) | hnoHid
  · exact hready
  · exact absurd hdegraded hclean.phase
  · exact absurd (hidServicesOf_records (hclean.noHid hnoHid)) hhid

/-! ## A keyboard -/

/-- The keyboard, with the values behind its handles. -/
def keyboard : Peripheral where
  database := ⟨keyboardServices, by decide⟩
  value handle := if handle = 3 then HidParser.keyboardDescriptor else if handle = 7 then [0, 1] else []

theorem keyboard_conforms : keyboard.Conforms .standard where
  inhabited := by decide
  fits := ⟨by decide, by decide, by decide, by decide⟩
  roomy := by decide
  reads := by decide
  subscriptions := by decide
  values := by decide +kernel
  referenced := by decide
  unreferenced := by decide
  defined := by decide +kernel
  cccds := by decide

theorem keyboard_served : keyboard.Served (exampleEnv keyboardServices) :=
  ⟨ofServices_faithful keyboard.database, rfl, rfl, rfl, rfl⟩

theorem conforming_ready_keyboard :
    let s := run (initial .standard .unchanged 0) keyboardSetup
    s.degraded = false ∧ s.setupPhase ≠ .degraded ∧
      (settled s.setupPhase = true → hidServicesOf keyboardServices ≠ [] → s.setupPhase = .ready) := by
  have hgrants : ∀ callback ∈ connectAndSearch ++ [none] ++ readReportMap ++ readReference ++ subscribe,
      ∀ event ∈ callback, keyboard.Grants (exampleEnv keyboardServices) event := by
    decide +kernel
  have hplays : ∀ event ∈ keyboardSetup, keyboard.Plays event := by
    intro event hevent
    obtain ⟨callback, hmem, rfl⟩ := List.mem_map.mp hevent
    cases callback with
    | none => exact keyboard_served
    | some event => exact ⟨keyboard_served, fun _ => hgrants _ hmem event rfl⟩
  exact conforming_ready keyboard _
    (reachableWhen_run (.initial ..) _ (by decide +kernel) fun n hn => hplays _ (List.getElem_mem hn))
    (by
      have hmode : (run (initial .standard .unchanged 0) keyboardSetup).discoveryMode = .standard := by
        decide +kernel
      rw [hmode]
      exact keyboard_conforms)
    (by decide +kernel)

end BleClientHid

import BleClientHid.Component.Refinement

/-! # Invariants of the setup

What holds in which phase, and how an invariant of the moves becomes one of the
component.
-/

namespace BleClientHid

open Setup

variable {fails : Bool}

/-! ## Runs -/

/-- The setup of a component that has not started. -/
def Setup.initial (discoveryMode : DiscoveryMode) (policy : ProtocolModePolicy) : Setup :=
  { discoveryMode, protocolModePolicy := policy }

theorem aligned_initial (discoveryMode : DiscoveryMode) (policy : ProtocolModePolicy) :
    Aligned (Setup.initial discoveryMode policy) := .of_none rfl rfl

theorem searched_same (s : Setup) (status : GattStatus) (entries : List TraceEntry) :
    ∃ phase degraded trace, s.searched status entries =
      { s with setupPhase := phase, degraded, trace := s.trace ++ .searchComplete status :: trace } := by
  unfold searched
  split
  · exact ⟨.inventory, s.degraded, [.transition .inventory], by simp [append, goto]⟩
  · exact ⟨.degraded, s.degraded || true, entries ++ [.transition .degraded], by simp [marked, goto]⟩

theorem Aligned.searched {s : Setup} (h : Aligned s) (status : GattStatus) (entries : List TraceEntry) :
    Aligned (s.searched status entries) := by
  obtain ⟨phase, degraded, trace, heq⟩ := searched_same s status entries
  rw [heq]
  exact h.congr rfl rfl

theorem Aligned.reset (s : Setup) (phase : SetupPhase) (entries : List TraceEntry) :
    Aligned (s.reset phase entries) := .of_none rfl rfl

theorem Setup.Step.aligned {s t : Setup} (h : Aligned s) {resets : Bool} (hstep : Step fails s resets t) :
    Aligned t := by
  cases hstep with
  | moves hmoves => exact Moves.aligned hmoves h
  | reset phase entries => exact .reset s phase entries
  | searched status entries => exact h.searched status entries

theorem moves_invariant (inv : Setup → Prop) (hmove : ∀ fails s t, Aligned s → inv s → Move fails s t →
    inv t) {s t : Setup}
    (h : Aligned s) (hinv : inv s) (hmoves : Moves fails s t) : inv t := by
  induction hmoves with
  | refl => exact hinv
  | tail hmoves hlast ih => exact hmove _ _ _ (Moves.aligned hmoves h) ih hlast

/-- An invariant of the moves, of resets and of the service search holds in every run. -/
theorem run_invariant (inv : Setup → Prop) {discoveryMode : DiscoveryMode} {policy : ProtocolModePolicy}
    (hinit : inv (.initial discoveryMode policy)) (hmove : ∀ fails s t, Aligned s → inv s → Move fails s t → inv t)
    (hreset : ∀ (s : Setup) phase entries, Notes entries → inv (s.reset phase entries))
    (hsearch : ∀ s status entries, Notes entries → inv s → inv (s.searched status entries))
    (interval : UInt32) (events : List Event) :
    Aligned (run (initial discoveryMode policy interval) events).setup ∧
      inv (run (initial discoveryMode policy interval) events).setup := by
  induction events using List.reverseRecOn with
  | nil => exact ⟨aligned_initial discoveryMode policy, hinit⟩
  | append_singleton events event ih =>
    obtain ⟨haligned, hinv⟩ := ih
    rw [run_append_singleton]
    have hstep := step_setup _ haligned event
    refine ⟨hstep.aligned haligned, ?_⟩
    generalize BLEClientHID.setup (step _ event) = t, event.resetsConnection = resets at hstep
    cases hstep with
    | moves hmoves => exact moves_invariant inv hmove haligned hinv hmoves
    | reset phase entries _ hnotes => exact hreset _ phase entries hnotes
    | searched status entries hnotes => exact hsearch _ status entries hnotes hinv

/-! ## Phases -/

def beforeSearch (phase : SetupPhase) : Bool := phase == .disconnected || phase == .waitingForDiscovery

def subscribing (phase : SetupPhase) : Bool := phase == .registering || phase == .waitingForCccd

/-- Reads and attempts are under way in their own phases only. -/
structure Phased (s : Setup) : Prop where
  searched : beforeSearch s.setupPhase = false → ∃ entry ∈ s.trace, entry.isSearchComplete = true
  reads : s.setupPhase ≠ .reading → s.activeRead = none ∧ s.readQueue = []
  attempts : subscribing s.setupPhase = false → s.activeSubscription = none ∧ s.subscriptionQueue = []

theorem phased_initial (discoveryMode : DiscoveryMode) (policy : ProtocolModePolicy) :
    Phased (Setup.initial discoveryMode policy) where
  searched := by simp [Setup.initial, beforeSearch]
  reads := fun _ => ⟨rfl, rfl⟩
  attempts := fun _ => ⟨rfl, rfl⟩

namespace Phased

variable {s t : Setup}

theorem subscribing_of_active (h : Phased s) {sub : SubscriptionInfo} (hactive : s.activeSubscription = some sub) :
    subscribing s.setupPhase = true := by
  by_contra hphase
  have hnone := (h.attempts (Bool.eq_false_iff.mpr hphase)).1
  rw [hactive] at hnone
  simp at hnone

theorem reading_of_active (h : Phased s) {operation : GattReadOperation}
    (hactive : s.activeRead = some operation) : s.setupPhase = .reading := by
  by_contra hphase
  have hnone := (h.reads hphase).1
  rw [hactive] at hnone
  simp at hnone

theorem same (h : Phased s) (htrace : s.trace <+: t.trace) (hphase : t.setupPhase = s.setupPhase)
    (hreads : t.activeRead = s.activeRead ∧ t.readQueue = s.readQueue)
    (hattempts : t.activeSubscription = s.activeSubscription ∧ t.subscriptionQueue = s.subscriptionQueue) :
    Phased t where
  searched := fun hp => by
    obtain ⟨entry, hentry, hsearch⟩ := h.searched (by rwa [← hphase])
    exact ⟨entry, htrace.subset hentry, hsearch⟩
  reads := fun hp => by
    rw [hreads.1, hreads.2]
    exact h.reads (by rwa [← hphase])
  attempts := fun hp => by
    rw [hattempts.1, hattempts.2]
    exact h.attempts (by rwa [← hphase])

theorem notReading (h : Phased s) (htrace : s.trace <+: t.trace) (hlater : beforeSearch s.setupPhase = false)
    (hreads : t.activeRead = none ∧ t.readQueue = [])
    (hattempts : subscribing t.setupPhase = false → t.activeSubscription = none ∧ t.subscriptionQueue = []) :
    Phased t where
  searched := fun _ => by
    obtain ⟨entry, hentry, hsearch⟩ := h.searched hlater
    exact ⟨entry, htrace.subset hentry, hsearch⟩
  reads := fun _ => hreads
  attempts := hattempts

/-- The phase of an attempt is not before the search, and nothing is read in it. -/
theorem of_subscribing (h : Phased s) (hphase : subscribing s.setupPhase = true) :
    beforeSearch s.setupPhase = false ∧ s.activeRead = none ∧ s.readQueue = [] := by
  refine ⟨?_, h.reads ?_⟩
  · revert hphase
    cases s.setupPhase <;> simp [subscribing, beforeSearch]
  · rintro hreading
    simp [hreading, subscribing] at hphase

end Phased

theorem Setup.Move.trace {s t : Setup} (hmove : Move fails s t) : s.trace <+: t.trace := by
  cases hmove with
  | buildProfiles s hphase =>
    obtain ⟨d, contexts, sources, heq⟩ := s.buildHidProfiles_profiles
    rw [heq]
    simp [collectWrites, goto]
  | _ => simp [marked, append, goto, begun, abandon, Setup.finish]

theorem Setup.Move.phased {s t : Setup} (h : Phased s) (hmove : Move fails s t) : Phased t := by
  have htrace := hmove.trace
  cases hmove with
  | mark | inventory | writeMode | registrationIgnored | cccdIgnored | retry | writeCccd =>
    exact h.same htrace rfl ⟨rfl, rfl⟩ ⟨rfl, rfl⟩
  | buildProfiles s hphase =>
    obtain ⟨d, contexts, sources, heq⟩ := s.buildHidProfiles_profiles
    have hbuilding : s.setup.setupPhase = .buildingProfile := hphase
    rw [heq] at htrace ⊢
    exact h.notReading htrace (by simp [hbuilding, beforeSearch]) (h.reads (by simp [hbuilding]))
      fun _ => h.attempts (by simp [hbuilding, subscribing])
  | inventoryFailed entries hphase | noHid hphase =>
    exact h.notReading htrace (by simp [hphase, beforeSearch]) (h.reads (by simp [hphase]))
      fun _ => h.attempts (by simp [hphase, subscribing])
  | planReads queue hphase =>
    -- the next phase is READING, where reads may be pending
    obtain ⟨entry, hentry, hsearch⟩ := h.searched (by simp [hphase, beforeSearch])
    exact ⟨fun _ => ⟨entry, htrace.subset hentry, hsearch⟩, fun hreading => absurd rfl hreading,
      fun _ => h.attempts (by simp [hphase, subscribing])⟩
  | startRead operation rest accepted entries hphase =>
    obtain ⟨entry, hentry, hsearch⟩ := h.searched (by simp [hphase, beforeSearch])
    exact ⟨fun _ => ⟨entry, htrace.subset hentry, hsearch⟩, fun hreading => absurd hphase hreading, h.attempts⟩
  | finishRead operation contexts sources d entries hactive =>
    -- the active read is over, the queue is as it was
    refine ⟨fun hp => ?_, fun hreading => ⟨rfl, (h.reads hreading).2⟩, h.attempts⟩
    obtain ⟨entry, hentry, hsearch⟩ := h.searched hp
    exact ⟨entry, htrace.subset hentry, hsearch⟩
  | readsDone hphase hidle hqueue =>
    exact h.notReading htrace (by simp [hphase, beforeSearch]) ⟨hidle, hqueue⟩
      fun _ => h.attempts (by simp [hphase, subscribing])
  | readTimeout entries hphase =>
    exact h.notReading htrace (by simp [hphase, beforeSearch]) ⟨rfl, rfl⟩
      fun _ => h.attempts (by simp [hphase, subscribing])
  | planSubscriptions queue hphase =>
    exact h.notReading htrace (by simp [hphase, beforeSearch]) (h.reads (by simp [hphase]))
      (by simp [goto, subscribing])
  | begin sub rest hphase | beginWithoutCccd sub rest entries hphase =>
    exact h.notReading htrace (by simp [hphase, beforeSearch]) (h.reads (by simp [hphase]))
      (by simp [begun, abandon, hphase, subscribing])
  | notScheduled sub entries hactive =>
    have hsub := h.subscribing_of_active hactive
    obtain ⟨hlater, hreads⟩ := h.of_subscribing hsub
    exact h.notReading htrace hlater hreads (by simp [abandon, hsub])
  | registered sub fallback hactive | registrationFailed sub entries hactive | complete sub hactive
  | cccdFailed sub entries _ hactive | writeRejected sub value entries hactive =>
    obtain ⟨hlater, hreads⟩ := h.of_subscribing (h.subscribing_of_active hactive)
    exact h.notReading htrace hlater hreads (by simp [goto, subscribing])
  | finish entries hphase hidle hqueue =>
    exact h.notReading htrace (by simp [hphase, beforeSearch]) (h.reads (by simp [hphase])) fun _ => ⟨hidle, hqueue⟩
  | subscriptionTimeout entries entries' hphase =>
    obtain ⟨hlater, hreads⟩ := h.of_subscribing (by rcases hphase with hp | hp <;> simp [hp, subscribing])
    exact h.notReading htrace hlater hreads fun _ => ⟨rfl, rfl⟩
  | timeout entries hphase hphase' hreading hwaits =>
    -- the phases with this deadline come after the search
    refine h.notReading htrace ?_ (h.reads hreading) fun _ => h.attempts (by simp [subscribing, hphase, hphase'])
    revert hwaits
    cases s.setupPhase <;> simp [BLEClientHID.waits, beforeSearch]

/-! ## Reachable setups -/

theorem searched_phased {s : Setup} (h : Phased s) (hbefore : beforeSearch s.setupPhase = true)
    (status : GattStatus) (entries : List TraceEntry) : Phased (s.searched status entries) := by
  obtain ⟨phase, degraded, trace, heq⟩ := searched_same s status entries
  have hreads := h.reads (by rintro hp; simp [hp, beforeSearch] at hbefore)
  have hattempts := h.attempts (by revert hbefore; cases s.setupPhase <;> simp [beforeSearch, subscribing])
  rw [heq]
  exact ⟨fun _ => ⟨.searchComplete status, by simp, rfl⟩, fun _ => hreads, fun _ => hattempts⟩

/-- With one search for each connection, the search comes before everything else. -/
theorem beforeSearch_of_oneSearch {s : BLEClientHID} (h : Phased s.setup) {s' : BLEClientHID}
    {status : GattStatus} {entries : List TraceEntry} (heq : s'.setup = s.setup.searched status entries)
    (hone : s'.OneSearch) : beforeSearch s.setup.setupPhase = true := by
  by_contra hlater
  obtain ⟨entry, hentry, hsearch⟩ := h.searched (Bool.eq_false_iff.mpr hlater)
  obtain ⟨phase, degraded, trace, hsame⟩ := searched_same s.setup status entries
  have htrace : s'.trace = s.trace ++ .searchComplete status :: trace := congrArg Setup.trace (heq.trans hsame)
  have hpos : 0 < s.trace.countP TraceEntry.isSearchComplete := List.countP_pos_iff.mpr ⟨entry, hentry, hsearch⟩
  rw [BLEClientHID.OneSearch, htrace, List.countP_append, List.countP_cons_of_pos rfl] at hone
  omega

theorem reset_phased (s : Setup) {phase : SetupPhase}
    (hphase : phase = .disconnected ∨ phase = .waitingForDiscovery) (entries : List TraceEntry) :
    Phased (s.reset phase entries) :=
  ⟨by rcases hphase with rfl | rfl <;> simp [reset, beforeSearch], fun _ => ⟨rfl, rfl⟩, fun _ => ⟨rfl, rfl⟩⟩

/-- An invariant of the moves, of resets, and of a search that comes before everything else. -/
theorem reachable_invariant (inv : Setup → Prop) (hinit : ∀ discoveryMode policy,
    inv (.initial discoveryMode policy))
    (hmove : ∀ fails s t, Aligned s → Phased s → inv s → Move fails s t → inv t)
    (hreset : ∀ (s : Setup) phase entries, Notes entries → beforeSearch phase = true → inv (s.reset phase entries))
    (hsearch : ∀ s status entries, Notes entries → Phased s → beforeSearch s.setupPhase = true → inv s →
      inv (s.searched status entries)) {s : BLEClientHID} (h : Reachable s) :
    Aligned s.setup ∧ Phased s.setup ∧ inv s.setup := by
  induction h with
  | initial discoveryMode policy interval =>
    exact ⟨aligned_initial _ _, phased_initial _ _, hinit discoveryMode policy⟩
  | step event _ hone ih =>
    obtain ⟨haligned, hphased, hinv⟩ := ih
    have hstep := step_setup _ haligned event
    refine ⟨hstep.aligned haligned, ?_⟩
    generalize ht : BLEClientHID.setup (step _ event) = t, event.resetsConnection = resets at hstep
    cases hstep with
    | moves hmoves =>
      exact moves_invariant (fun t => Phased t ∧ inv t)
        (fun _ s t ha hi hm => ⟨hm.phased hi.1, hmove _ s t ha hi.1 hi.2 hm⟩) haligned ⟨hphased, hinv⟩ hmoves
    | reset phase entries hphase hnotes =>
      exact ⟨reset_phased _ hphase entries, hreset _ phase entries hnotes (by rcases hphase with rfl | rfl <;> rfl)⟩
    | searched status entries hnotes =>
      have hbefore := beforeSearch_of_oneSearch hphased ht hone
      exact ⟨searched_phased hphased hbefore status entries, hsearch _ status entries hnotes hphased hbefore hinv⟩

end BleClientHid

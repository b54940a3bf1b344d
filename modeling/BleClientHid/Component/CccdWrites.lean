import BleClientHid.Component.InFlight

/-! # Whose CCCD write failed

The component next to the framework, which writes CCCDs of its own. Each write
in flight gets one answer, and the answers of a handle come in issue order.
-/

namespace BleClientHid

open Setup

variable {fails : Bool}

/-! ## The world -/

/-- A CCCD result failed the attempt. -/
def FailedAttempt (n : Nat) (log : List TraceEntry) : Prop :=
  ∃ active handle success, (n, TraceEntry.cccdResult active handle success .failed) ∈ numbered 0 log

/-- The component, the writes in flight, and the answers of this connection. -/
structure World where
  component : BLEClientHID
  inFlight : List (Nat × Writer) := []
  answered : List (Writer × Bool) := []

inductive Action where
  | event (event : Event)
  | frameworkWrite (handle : Nat)
  | answer (env : Env) (handle : Nat) (status : GattStatus)

/-- A CCCD result, which only an answer delivers. -/
def Event.isCccdResult : Event → Bool
  | .gattc _ (.writeDescr ..) _ => true
  | _ => false

def cccdEvent (env : Env) (handle : Nat) (status : GattStatus) : Event :=
  .gattc env (.writeDescr env.connId handle status) none

namespace World

/-- A new connection has no writes in flight. -/
def act (w : World) : Action → World
  | .event event =>
    let next := step w.component event
    if event.isCccdResult then w
    else if event.resetsConnection then { component := next }
    else { w with component := next, inFlight := w.inFlight ++ issued w.component.trace next.trace }
  | .frameworkWrite handle => { w with inFlight := w.inFlight ++ [(handle, .framework)] }
  | .answer env handle status =>
    match pop handle w.inFlight with
    | none => w
    | some (writer, rest) =>
      let next := step w.component (cccdEvent env handle status)
      { component := next
        inFlight := rest ++ issued w.component.trace next.trace
        answered := w.answered ++ [(writer, status == .ok)] }

def own (w : World) : Writer := .component (attempts w.component.trace)

/-- What `cccd_result` returns for the answer. -/
def decision (w : World) (handle : Nat) (status : GattStatus) : SubscriptionDecision :=
  (w.component.subscriptionState.cccdResult handle (status == .ok)).2

/-- Somebody else's write fails while the attempt waits for its own write behind it. -/
def overtakes (w : World) : Action → Bool
  | .answer _ handle status =>
    match pop handle w.inFlight with
    | none => false
    | some (writer, rest) =>
      status != .ok && w.component.subscriptionState.stage == .waitingForCccd &&
        handle == w.component.subscriptionState.cccdHandle && writer != w.own && rest.contains (handle, w.own)
  | _ => false

/-- The worlds reached by allowed actions. -/
inductive Reached (allowed : World → Action → Prop) : World → Prop where
  | initial (discoveryMode : DiscoveryMode) (policy : ProtocolModePolicy) (interval : UInt32) :
      Reached allowed { component := initial discoveryMode policy interval }
  | act {w : World} (action : Action) (h : Reached allowed w) (hallowed : allowed w action) :
      Reached allowed (w.act action)

end World

namespace World

def run (w : World) (actions : List Action) : World := actions.foldl act w

def Allows (allowed : World → Action → Prop) : World → List Action → Prop
  | _, [] => True
  | w, action :: rest => allowed w action ∧ Allows allowed (w.act action) rest

def decidableAllows (allowed : World → Action → Prop) [∀ w action, Decidable (allowed w action)] :
    (w : World) → (actions : List Action) → Decidable (Allows allowed w actions)
  | _, [] => .isTrue trivial
  | w, action :: rest => @instDecidableAnd _ _ _ (decidableAllows allowed (w.act action) rest)

instance (allowed : World → Action → Prop) [∀ w action, Decidable (allowed w action)] (w : World)
    (actions : List Action) : Decidable (Allows allowed w actions) := decidableAllows allowed w actions

theorem Reached.run {allowed : World → Action → Prop} {w : World} (h : Reached allowed w) (actions : List Action)
    (hallows : Allows allowed w actions) : Reached allowed (w.run actions) := by
  induction actions generalizing w with
  | nil => exact h
  | cons action rest ih => exact ih (.act action h hallows.1) hallows.2

end World

/-! ## Answers -/

theorem pop_perm {handle : Nat} {inFlight rest : List (Nat × Writer)} {writer : Writer}
    (h : pop handle inFlight = some (writer, rest)) : inFlight.Perm ((handle, writer) :: rest) := by
  induction inFlight generalizing rest with
  | nil => simp [pop] at h
  | cons write inFlight ih =>
    rw [pop] at h
    split at h
    · rename_i hhandle
      obtain ⟨rfl, rfl⟩ := Prod.mk.inj (Option.some.inj h)
      rw [← hhandle]
    · obtain ⟨⟨writer', rest'⟩, hrest, heq⟩ := Option.map_eq_some_iff.mp h
      obtain ⟨rfl, rfl⟩ := Prod.mk.inj heq
      exact ((ih hrest).cons write).trans (.swap _ _ _)

theorem SubscriptionAttemptState.cccdResult_failed_iff {s : SubscriptionAttemptState} {handle : Nat}
    {success : Bool} :
    (s.cccdResult handle success).2 = .failed ↔
      success = false ∧ s.stage = .waitingForCccd ∧ handle = s.cccdHandle ∧ s.ownCccdWriteAttempted = true := by
  generalize hresult : s.cccdResult handle success = result
  obtain ⟨state, d⟩ := result
  obtain ⟨rfl, -, hskip⟩ | ⟨rfl, hsuccess, -⟩ | ⟨rfl, -, -, -, hown, -⟩ |
    ⟨rfl, hsuccess, hstage, hhandle, hown, -⟩ :=
    SubscriptionAttemptState.cccdResult_cases hresult
  · obtain hstage | hhandle := hskip
    · simp [hstage]
    · simp [hhandle]
  · simp [hsuccess]
  · simp [hown]
  · simp [hsuccess, hstage, ← hhandle, hown]

/-- Any answer on its handle ends an attempt whose write was attempted. -/
theorem handleCccdResult_ends (env : Env) {s : BLEClientHID} (h : Aligned s.setup) {handle : Nat}
    (status : GattStatus)
    (hstage : s.subscriptionState.stage = .waitingForCccd) (hown : s.subscriptionState.ownCccdWriteAttempted = true)
    (hhandle : handle = s.subscriptionState.cccdHandle) :
    (s.handleCccdResult env handle status).subscriptionState = {} := by
  obtain ⟨sub, hactive, -⟩ := h.active (ne_of_eq_of_ne hstage (by simp))
  generalize hresult : s.subscriptionState.cccdResult handle (status == .ok) = result
  obtain ⟨state, d⟩ := result
  obtain ⟨-, -, hskip⟩ | ⟨rfl, -⟩ | ⟨-, -, -, -, hnot, -⟩ | ⟨rfl, -⟩ :=
    SubscriptionAttemptState.cccdResult_cases hresult
  · simp [hstage, hhandle] at hskip
  · rw [BLEClientHID.handleCccdResult_matched env hactive hresult (by simp)]
    rfl
  · simp [hown] at hnot
  · rw [BLEClientHID.handleCccdResult_matched env hactive hresult (by simp)]
    rfl

theorem step_cccdEvent (s : BLEClientHID) (env : Env) (handle : Nat) (status : GattStatus) :
    step s (cccdEvent env handle status) = s.handleCccdResult env handle status := if_pos rfl

namespace World

/-! ## What holds in every reached world -/

structure Sound (w : World) : Prop where
  aligned : Aligned w.component.setup
  counted : Counted w.component.setup (writers w.inFlight w.answered)
  behind : Behind w.component.setup w.inFlight

theorem sound_initial (discoveryMode : DiscoveryMode) (policy : ProtocolModePolicy) (interval : UInt32) :
    Sound { component := initial discoveryMode policy interval } where
  aligned := aligned_initial discoveryMode policy
  counted := ⟨by simp [BleClientHid.initial, BLEClientHID.setup], by simp [writers], by simp [writers]⟩
  behind := by simp [Behind, BleClientHid.initial, BLEClientHID.setup]

variable {w : World} {handle : Nat} {writer : Writer} {rest : List (Nat × Writer)}

theorem Sound.event (h : w.Sound) (event : Event) : (w.act (.event event)).Sound := by
  have hstep := step_setup w.component h.aligned event
  have haligned := hstep.aligned h.aligned
  rw [act]
  split
  · exact h
  · split
    · rename_i hresets
      rw [hresets] at hstep
      have hfresh : (step w.component event).setup.subscriptionState = {} := by
        generalize BLEClientHID.setup (step _ event) = t at hstep ⊢
        cases hstep
        rfl
      exact ⟨haligned, ⟨by simp [hfresh], by simp [writers], by simp [writers]⟩, by simp [Behind, hfresh]⟩
    · rename_i hresets
      rw [Bool.eq_false_iff.mpr hresets] at hstep
      have hchanges := hstep.changes h.aligned
      exact ⟨haligned, h.counted.carry hchanges, h.behind.carry hchanges⟩

theorem Sound.frameworkWrite (h : w.Sound) (handle : Nat) : (w.act (.frameworkWrite handle)).Sound where
  aligned := h.aligned
  counted := by
    obtain ⟨hwaiting, hnumbers, honce⟩ := h.counted
    refine ⟨hwaiting, fun n hn => hnumbers n ?_, fun n => ?_⟩
    · simpa [act, writers] using hn
    · simpa [act, writers] using honce n
  behind := fun hown => List.mem_append_left _ (h.behind hown)

theorem Sound.answer (h : w.Sound) (env : Env) (handle : Nat) (status : GattStatus) :
    (w.act (.answer env handle status)).Sound := by
  rw [act]
  cases hpop : pop handle w.inFlight with
  | none => exact h
  | some out =>
    obtain ⟨writer, rest⟩ := out
    have hperm := pop_perm hpop
    have hstep := step_setup w.component h.aligned (cccdEvent env handle status)
    have hchanges : Changes _ _ _ := hstep.changes h.aligned
    refine ⟨hstep.aligned h.aligned, (h.counted.perm ?_).carry hchanges, ?_⟩
    · have hmap := (hperm.map (·.2)).append_left (w.answered.map (·.1))
      simpa [writers] using hmap.symm
    · by_cases hown : w.component.subscriptionState.ownCccdWriteAttempted = true ∧
        handle = w.component.subscriptionState.cccdHandle
      · have hends := handleCccdResult_ends env h.aligned status (h.counted.waiting hown.1) hown.1 hown.2
        intro hown'
        rw [step_cccdEvent] at hown'
        simp [BLEClientHID.setup, hends] at hown'
      · refine Behind.carry (fun hattempted => ?_) hchanges
        have hmem := hperm.mem_iff.mp (h.behind hattempted)
        obtain heq | hrest := List.mem_cons.mp hmem
        · exact absurd ⟨hattempted, (Prod.mk.inj heq).1.symm⟩ hown
        · exact hrest

theorem Reached.sound {allowed : World → Action → Prop} (h : Reached allowed w) : w.Sound := by
  induction h with
  | initial discoveryMode policy interval => exact sound_initial discoveryMode policy interval
  | act action _ _ ih =>
    cases action with
    | event event => exact ih.event event
    | frameworkWrite handle => exact ih.frameworkWrite handle
    | answer env handle status => exact ih.answer env handle status

/-- An answer fails somebody else's attempt exactly when it overtakes the attempt's own write. -/
theorem Sound.failed_iff (h : w.Sound) (env : Env) (status : GattStatus)
    (hpop : pop handle w.inFlight = some (writer, rest)) :
    (w.decision handle status = .failed → writer = w.own) ↔ w.overtakes (.answer env handle status) = false := by
  have hperm := pop_perm hpop
  have hover : w.overtakes (.answer env handle status) = true ↔ status ≠ .ok ∧
      w.component.subscriptionState.stage = .waitingForCccd ∧ handle = w.component.subscriptionState.cccdHandle ∧
      writer ≠ w.own ∧ (handle, w.own) ∈ rest := by
    simp [overtakes, hpop, and_assoc]
  have hfailed : w.decision handle status = .failed ↔ status ≠ .ok ∧
      w.component.subscriptionState.stage = .waitingForCccd ∧ handle = w.component.subscriptionState.cccdHandle ∧
      w.component.subscriptionState.ownCccdWriteAttempted = true := by
    rw [decision, SubscriptionAttemptState.cccdResult_failed_iff]
    simp
  rw [← Bool.not_eq_true, hover, hfailed]
  constructor
  · rintro himp ⟨hstatus, hstage, hhandle, hwriter, hrest⟩
    -- the own write is in flight, so it was attempted
    have hin : (handle, w.own) ∈ w.inFlight := hperm.mem_iff.mpr (List.mem_cons_of_mem _ hrest)
    have hmem : w.own ∈ writers w.inFlight w.answered :=
      List.mem_append_right _ (List.mem_map_of_mem (f := (·.2)) hin)
    obtain ⟨sub, hactive, -⟩ := h.aligned.active (ne_of_eq_of_ne hstage (by simp))
    have hown := ((h.counted.numbers _ hmem).2 rfl).resolve_left (by simp [hactive])
    exact hwriter (himp ⟨hstatus, hstage, hhandle, hown⟩)
  · rintro hnot ⟨hstatus, hstage, hhandle, hown⟩
    by_contra hwriter
    have hin : (w.component.subscriptionState.cccdHandle, w.own) ∈ w.inFlight := h.behind hown
    rw [← hhandle] at hin
    obtain heq | hrest := List.mem_cons.mp (hperm.mem_iff.mp hin)
    · exact hwriter (Prod.mk.inj heq).2.symm
    · exact hnot ⟨hstatus, hstage, hhandle, hwriter, hrest⟩

/-! ## Failed attempts -/

/-- Every failure answers a write of the attempt that fails. -/
def Answered (log : List TraceEntry) (answered : List (Writer × Bool)) : Prop :=
  ∀ n, FailedAttempt n log → (.component n, false) ∈ answered

theorem answered_once {answered : List (Writer × Bool)} {writer : Writer} {success success' : Bool}
    (honce : (answered.map (·.1)).count writer ≤ 1) (h : (writer, success) ∈ answered)
    (h' : (writer, success') ∈ answered) : success = success' := by
  induction answered with
  | nil => simp at h
  | cons answer answered ih =>
    by_cases hwriter : answer.1 = writer
    · rw [List.map_cons, hwriter, List.count_cons_self] at honce
      have hnone : ∀ b, (writer, b) ∉ answered := fun b hb => by
        have hpos := List.count_pos_iff.mpr (List.mem_map_of_mem (f := (·.1)) hb)
        dsimp only at hpos
        omega
      have hhead := (List.mem_cons.mp h).resolve_right (hnone _)
      have hhead' := (List.mem_cons.mp h').resolve_right (hnone _)
      exact (Prod.mk.inj (hhead.trans hhead'.symm)).2
    · rw [List.map_cons, List.count_cons_of_ne hwriter] at honce
      have htail : ∀ b, (writer, b) ∈ answer :: answered → (writer, b) ∈ answered := fun b hb =>
        (List.mem_cons.mp hb).resolve_left fun heq => hwriter (congrArg Prod.fst heq).symm
      exact ih honce (htail _ h) (htail _ h')

end World

theorem failedAttempt_append {n : Nat} {log entries : List TraceEntry} (h : FailedAttempt n (log ++ entries)) :
    FailedAttempt n log ∨
      ∃ active handle success, (n, TraceEntry.cccdResult active handle success .failed) ∈
        numbered (attempts log) entries := by
  obtain ⟨active, handle, success, hmem⟩ := h
  rw [numbered_append, Nat.zero_add] at hmem
  exact (List.mem_append.mp hmem).imp (fun h => ⟨active, handle, success, h⟩) fun h => ⟨active, handle, success, h⟩

theorem no_failure_of_plain {entries : List TraceEntry} (h : ∀ entry ∈ entries, entry.isPlain = true) (m n : Nat)
    (active : Option SubscriptionInfo) (handle : Nat) (success : Bool) :
    (n, TraceEntry.cccdResult active handle success .failed) ∉ numbered m entries := fun hmem => by
  simpa [TraceEntry.isPlain] using h _ (mem_numbered hmem).1

/-- Only a failed answer fails an attempt, and it is the current one. -/
theorem Change.failed {s t : Setup} (hchange : Change fails s t) {n : Nat} (hn : FailedAttempt n t.trace) :
    FailedAttempt n s.trace ∨ fails = true ∧ n = attempts s.trace := by
  obtain ⟨entries, htrace, hchange⟩ := hchange
  rw [htrace] at hn
  apply (failedAttempt_append hn).imp_right
  rintro ⟨active, handle, success, hmem⟩
  cases hchange with
  | same _ hplain | registered _ hplain | ended _ hplain => exact absurd hmem (no_failure_of_plain hplain _ _ _ _ _)
  | begin | write => simp [numbered] at hmem
  | beginOver sub rest hplain =>
    obtain heq | hrest := List.mem_cons.mp hmem
    · simp at heq
    · exact absurd hrest (no_failure_of_plain hplain _ _ _ _ _)
  | failed hfails active' handle' rest hplain =>
    obtain heq | hrest := List.mem_cons.mp hmem
    · exact ⟨hfails, (Prod.mk.inj heq).1⟩
    · exact absurd hrest (no_failure_of_plain hplain _ _ _ _ _)

theorem Changes.failed {s t : Setup} (hchanges : Changes false s t) {n : Nat} (hn : FailedAttempt n t.trace) :
    FailedAttempt n s.trace := by
  induction hchanges with
  | refl => exact hn
  | tail _ hchange ih => exact ih ((hchange.failed hn).resolve_right (by simp))

namespace World

variable {w : World}

theorem Answered.event (h : Answered w.component.trace w.answered) (hsound : w.Sound) (event : Event) :
    Answered (w.act (.event event)).component.trace (w.act (.event event)).answered := by
  have hstep := step_setup w.component hsound.aligned event
  rw [act]
  split
  · exact h
  · rename_i hcccd
    have hfails : event.failsCccd w.component = false := by
      cases event with
      | loop env => rfl
      | gattc env event gattcIf => cases event <;> simp_all
        [Event.failsCccd, BLEClientHID.failsCccd, Event.isCccdResult]
    rw [hfails] at hstep
    split
    · rename_i hresets
      rw [hresets] at hstep
      have hnotes : Notes (step w.component event).setup.trace := by
        generalize BLEClientHID.setup (step _ event) = t at hstep ⊢
        cases hstep with
        | reset phase entries _ hnotes => exact hnotes
      rintro n ⟨active, handle, success, hmem⟩
      exact absurd hmem (no_failure_of_plain hnotes.plain _ _ _ _ _)
    · rename_i hresets
      rw [Bool.eq_false_iff.mpr hresets] at hstep
      exact fun n hn => h n ((hstep.changes hsound.aligned).failed hn)

theorem Answered.answer (h : Answered w.component.trace w.answered) (hsound : w.Sound) {env : Env} {handle : Nat}
    {status : GattStatus} (hnot : w.overtakes (.answer env handle status) = false) :
    Answered (w.act (.answer env handle status)).component.trace (w.act (.answer env handle status)).answered := by
  rw [act]
  cases hpop : pop handle w.inFlight with
  | none => exact h
  | some out =>
    obtain ⟨writer, rest⟩ := out
    rw [step_cccdEvent]
    intro n hn
    by_cases hfailed : w.decision handle status = .failed
    · -- the answer that fails the attempt is that of its own write
      obtain rfl := (hsound.failed_iff env status hpop).mpr hnot hfailed
      have hmove := w.component.handleCccdResult_failed_move env hsound.aligned handle status hfailed
      obtain hold | ⟨-, rfl⟩ := (hmove.change hsound.aligned).failed hn
      · exact List.mem_append_left _ (h n hold)
      · refine List.mem_append_right _ (List.mem_singleton.mpr (Prod.ext rfl ?_))
        exact (SubscriptionAttemptState.cccdResult_failed_iff.mp hfailed).1.symm
    · have hmoves : Moves false _ _ := w.component.handleCccdResult_moves env hsound.aligned handle status hfailed
      exact List.mem_append_left _ (h n ((Moves.changes hmoves hsound.aligned).failed hn))

theorem Reached.answered {allowed : World → Action → Prop} (h : Reached allowed w)
    (hallowed : ∀ w action, allowed w action → w.overtakes action = false) :
    Answered w.component.trace w.answered := by
  induction h with
  | initial => rintro n ⟨active, handle, success, hmem⟩; simp [BleClientHid.initial, numbered] at hmem
  | act action hreached hact ih =>
    cases action with
    | event event => exact ih.event hreached.sound event
    | frameworkWrite handle => exact ih
    | answer env handle status => exact ih.answer hreached.sound (hallowed _ _ hact)

/-! ## The law -/

/-- Failures answer the attempt's own write as long as no failure overtakes it. -/
theorem cccd_failures {allowed : World → Action → Prop} (h : Reached allowed w) :
    (∀ env handle status writer rest, pop handle w.inFlight = some (writer, rest) →
      ((w.decision handle status = .failed → writer = w.own) ↔
        w.overtakes (.answer env handle status) = false)) ∧
    ((∀ w action, allowed w action → w.overtakes action = false) →
      ∀ n, FailedAttempt n w.component.trace →
        (.component n, false) ∈ w.answered ∧ (.component n, true) ∉ w.answered) := by
  refine ⟨fun env handle status writer rest hpop => h.sound.failed_iff env status hpop, fun hallowed n hn => ?_⟩
  have hfalse := h.answered hallowed n hn
  refine ⟨hfalse, fun htrue => ?_⟩
  have honce := h.sound.counted.once n
  rw [writers, List.count_append] at honce
  have hsame := answered_once (by omega) hfalse htrue
  simp at hsame

/-! ## A keyboard -/

/-- The keyboard up to the registration, and the fallback after it. -/
def keyboardFallback (frameworkWrites : List Action) : World :=
  run { component := BleClientHid.initial .standard .unchanged 0 }
    ((exampleRun keyboardServices (connectAndSearch ++ [none] ++ readReportMap ++ readReference ++
      [none, some (.regForNotify 5 .ok)])).map .event ++ frameworkWrites ++
        [.event (.loop { exampleEnv keyboardServices with fallbackMs := 250 })])

def answer (status : GattStatus) : Action := .answer (exampleEnv keyboardServices) 6 status

/-- The own write is alone in flight, and fails. -/
theorem cccd_failures_keyboard :
    ((keyboardFallback []).run [answer (.error 1)]).answered = [(.component 1, false)] ∧
    (.component 1, true) ∉ ((keyboardFallback []).run [answer (.error 1)]).answered := by
  have hreached : Reached (fun w action => w.overtakes action = false)
      ((keyboardFallback []).run [answer (.error 1)]) :=
    (Reached.run (.initial .standard .unchanged 0) _ (by decide +kernel)).run _ (by decide +kernel)
  have hfailed : FailedAttempt 1 ((keyboardFallback []).run [answer (.error 1)]).component.trace :=
    ⟨some (BLEClientHID.subscription (hidService []) reportCharacteristic), 6, false, by decide +kernel⟩
  exact ⟨by decide +kernel, ((cccd_failures hreached).2 (fun _ _ h => h) 1 hfailed).2⟩

/-- The framework's write fails behind the fallback, and the attempt with it; its own write succeeds. -/
theorem cccd_failed_by_framework :
    ¬ ∀ w, Reached (fun _ _ => True) w → ∀ n, FailedAttempt n w.component.trace →
      (.component n, true) ∉ w.answered := by
  intro hclaim
  let w := (keyboardFallback [.frameworkWrite 6]).run [answer (.error 1), answer .ok]
  have hreached : Reached (fun _ _ => True) w :=
    (Reached.run (.initial .standard .unchanged 0) _ (by decide +kernel)).run _ (by decide +kernel)
  refine hclaim w hreached 1 ⟨some (BLEClientHID.subscription (hidService []) reportCharacteristic), 6,
    false, ?_⟩ ?_
  · decide +kernel
  · decide +kernel

end World

end BleClientHid

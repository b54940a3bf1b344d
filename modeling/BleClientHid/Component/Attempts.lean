import BleClientHid.Component.Phases
import BleClientHid.Lib.LogAutomaton

/-! # One attempt writes and ends once

The log of a connection is read as a run of attempts: each begins, writes its
CCCD at most once, and ends.
-/

namespace BleClientHid

open Setup

variable {fails : Bool}

/-! ## Entries -/

namespace TraceEntry

def isBegin : TraceEntry → Bool
  | .begin _ => true
  | _ => false

def isOwnWrite : TraceEntry → Bool
  | .writeDescr .. => true
  | _ => false

def isTerminal : TraceEntry → Bool
  | .registrationResult _ _ _ decision | .cccdResult _ _ _ decision => decision.terminal
  | _ => false

/-- A terminal decision, a reset, or the deadline of one of the phases. -/
def endsAttempt (ends : SetupPhase → Bool) : TraceEntry → Bool
  | .registrationResult _ _ _ decision | .cccdResult _ _ _ decision => decision.terminal
  | .subscriptionReset => true
  | .timeout phase => ends phase
  | _ => false

/-- No write, and no result that matches. -/
def isQuiet : TraceEntry → Bool
  | .registrationResult _ _ _ decision | .cccdResult _ _ _ decision => decision == .unmatched
  | .writeDescr .. => false
  | _ => true

end TraceEntry

/-! ## The automaton of an attempt -/

inductive Progress where
  | ended
  | running (wrote : Bool)
  deriving DecidableEq, Repr

namespace Progress

def decided : Progress → SubscriptionDecision → Option Progress
  | p, .unmatched => some p
  | .running wrote, .waitForCccd => some (.running wrote)
  | .running false, .retryCccd => some (.running false)
  | .running _, .complete => some .ended
  | .running _, .failed => some .ended
  | _, _ => none

def read (ends : SetupPhase → Bool) : Progress → TraceEntry → Option Progress
  | .ended, .begin _ => some (.running false)
  | .running _, .begin _ => none
  | p, .registrationResult _ _ _ decision => p.decided decision
  | p, .cccdResult _ _ _ decision => p.decided decision
  | .running false, .writeDescr .. => some (.running true)
  | _, .writeDescr .. => none
  | _, .subscriptionReset => some .ended
  | p, .timeout phase => some (if ends phase then .ended else p)
  | p, _ => some p

/-- What an attempt may still write. -/
def writesLeft : Progress → Nat
  | .running false => 1
  | _ => 0

def endsLeft : Progress → Nat
  | .running _ => 1
  | .ended => 0

variable {ends : SetupPhase → Bool} {p q : Progress} {entry : TraceEntry}

theorem read_note (h : entry.isNote = true) : p.read ends entry = some p := by
  cases entry <;> cases p <;> simp_all [TraceEntry.isNote, read]

theorem after_notes {entries : List TraceEntry} (h : Notes entries) : Lib.after (read ends) p entries = some p :=
  Lib.after_of_forall_stay fun entry hentry => read_note (h entry hentry)

/-- Only a running attempt gets a decision, and a terminal one ends it. -/
theorem decided_cases {decision : SubscriptionDecision} (h : p.decided decision = some q) :
    (decision = .unmatched ∧ q = p) ∨
    (∃ wrote, p = .running wrote ∧ decision.terminal = false ∧ q = p) ∨
    (∃ wrote, p = .running wrote ∧ decision.terminal = true ∧ q = .ended) := by
  cases decision with
  | unmatched => exact .inl ⟨rfl, (Option.some.inj h).symm⟩
  | waitForCccd =>
    cases p with
    | ended => simp [decided] at h
    | running wrote => exact .inr (.inl ⟨wrote, rfl, rfl, (Option.some.inj h).symm⟩)
  | retryCccd =>
    rcases p with _ | _ | _
    · simp [decided] at h
    · exact .inr (.inl ⟨false, rfl, rfl, (Option.some.inj h).symm⟩)
    · simp [decided] at h
  | complete | failed =>
    cases p with
    | ended => simp [decided] at h
    | running wrote => exact .inr (.inr ⟨wrote, rfl, rfl, (Option.some.inj h).symm⟩)

theorem read_cases (hbegin : entry.isBegin = false) (h : p.read ends entry = some q) :
    (entry.isQuiet = true ∧ entry.isTerminal = false ∧ (q = p ∨ q = .ended) ∧
      (entry.endsAttempt ends = true → q = .ended)) ∨
    (∃ wrote, p = .running wrote ∧ entry.isOwnWrite = false ∧ entry.isTerminal = false ∧ q = p ∧
      entry.endsAttempt ends = false) ∨
    (∃ wrote, p = .running wrote ∧ entry.isOwnWrite = false ∧ entry.isTerminal = true ∧ q = .ended) ∨
    (p = .running false ∧ q = .running true ∧ entry.isTerminal = false ∧ entry.endsAttempt ends = false) := by
  cases entry with
  | begin => simp [TraceEntry.isBegin] at hbegin
  | registrationResult active handle success decision | cccdResult active handle success decision =>
    have hdecided : p.decided decision = some q := by cases p <;> exact h
    obtain ⟨rfl, rfl⟩ | ⟨wrote, hp, hterm, hq⟩ | ⟨wrote, hp, hterm, hq⟩ := decided_cases hdecided
    · exact .inl ⟨rfl, rfl, .inl rfl, by simp [TraceEntry.endsAttempt, SubscriptionDecision.terminal]⟩
    · exact .inr (.inl ⟨wrote, hp, rfl, hterm, hq, hterm⟩)
    · exact .inr (.inr (.inl ⟨wrote, hp, rfl, hterm, hq⟩))
  | writeDescr handle value accepted =>
    rcases p with _ | _ | _
    · simp [read] at h
    · exact .inr (.inr (.inr ⟨rfl, (Option.some.inj h).symm, rfl, rfl⟩))
    · simp [read] at h
  | subscriptionReset =>
    have hq : q = .ended := by cases p <;> exact (Option.some.inj h).symm
    exact .inl ⟨rfl, rfl, .inr hq, fun _ => hq⟩
  | timeout phase =>
    have hq : q = if ends phase then .ended else p := by cases p <;> exact (Option.some.inj h).symm
    refine .inl ⟨rfl, rfl, ?_, fun hends => ?_⟩
    · rw [hq]
      split
      · exact .inr rfl
      · exact .inl rfl
    · rw [hq]
      exact if_pos hends
  | _ =>
    have hq : q = p := by cases p <;> exact (Option.some.inj h).symm
    exact .inl ⟨rfl, rfl, .inl hq, by simp [TraceEntry.endsAttempt]⟩

theorem read_writes (hbegin : entry.isBegin = false) (h : p.read ends entry = some q) :
    entry.isOwnWrite.toNat + q.writesLeft ≤ p.writesLeft := by
  obtain ⟨hquiet, -, hq, -⟩ | ⟨wrote, -, hwrite, -, rfl, -⟩ | ⟨wrote, -, hwrite, -, rfl⟩ | ⟨rfl, rfl, -, -⟩ :=
    read_cases hbegin h
  · have hwrite : entry.isOwnWrite = false := by cases entry <;> simp_all
      [TraceEntry.isQuiet, TraceEntry.isOwnWrite]
    rcases hq with rfl | rfl <;> simp [hwrite, writesLeft]
  · simp [hwrite]
  · simp [hwrite, writesLeft]
  · simp [writesLeft, Bool.toNat_le]

theorem read_ends (hbegin : entry.isBegin = false) (h : p.read ends entry = some q) :
    entry.isTerminal.toNat + q.endsLeft ≤ p.endsLeft := by
  obtain ⟨-, hterm, hq, -⟩ | ⟨wrote, -, -, hterm, rfl, -⟩ | ⟨wrote, rfl, -, hterm, rfl⟩ | ⟨rfl, rfl, hterm, -⟩ :=
    read_cases hbegin h
  · rcases hq with rfl | rfl <;> simp [hterm, endsLeft]
  · simp [hterm]
  · simp [hterm, endsLeft]
  · simp [hterm, endsLeft]

/-- Over is over: nothing is written and nothing matches before the next attempt. -/
theorem read_over (hbegin : entry.isBegin = false) (h : ended.read ends entry = some q) :
    q = .ended ∧ entry.isQuiet = true := by
  obtain ⟨hquiet, -, hq, -⟩ | ⟨wrote, hp, -⟩ | ⟨wrote, hp, -⟩ | ⟨hp, -⟩ := read_cases hbegin h
  · exact ⟨by rcases hq with rfl | rfl <;> rfl, hquiet⟩
  all_goals simp at hp

theorem read_end (hends : entry.endsAttempt ends = true) (h : p.read ends entry = some q) : q = .ended := by
  have hbegin : entry.isBegin = false := by cases entry <;> simp_all [TraceEntry.endsAttempt, TraceEntry.isBegin]
  obtain ⟨-, -, -, hq⟩ | ⟨wrote, -, -, -, -, hnot⟩ | ⟨wrote, -, -, -, hq⟩ | ⟨-, -, -, hnot⟩ := read_cases hbegin h
  · exact hq hends
  · simp [hends] at hnot
  · exact hq
  · simp [hends] at hnot

end Progress

/-! ## The log of the component -/

def Setup.progress (s : Setup) : Progress :=
  match s.activeSubscription with
  | none => .ended
  | some _ => .running s.subscriptionState.ownCccdWriteAttempted

/-- The log is a run of attempts, and the state is where it ends. -/
def LogRead (ends : SetupPhase → Bool) (s : Setup) : Prop :=
  Lib.after (Progress.read ends) .ended s.trace = some s.progress

namespace LogRead

variable {ends : SetupPhase → Bool} {s t : Setup}

theorem extend (h : LogRead ends s) (entries : List TraceEntry) (htrace : t.trace = s.trace ++ entries)
    (hentries : Lib.after (Progress.read ends) s.progress entries = some t.progress) : LogRead ends t := by
  rw [LogRead, htrace, Lib.after_append, h]
  exact hentries

theorem notes (h : LogRead ends s) {entries : List TraceEntry} (htrace : t.trace = s.trace ++ entries)
    (hnotes : Notes entries) (hsame : t.progress = s.progress) : LogRead ends t :=
  h.extend _ htrace (by rw [hsame, Progress.after_notes hnotes])

theorem progress_none (h : s.activeSubscription = none) : s.progress = .ended := by rw [progress, h]

theorem progress_some {sub : SubscriptionInfo} (h : s.activeSubscription = some sub) :
    s.progress = .running s.subscriptionState.ownCccdWriteAttempted := by rw [progress, h]

theorem timeout (h : LogRead ends s) (entries : List TraceEntry)
    (htrace : t.trace = s.trace ++ .timeout s.setupPhase :: entries) (hnotes : Notes entries)
    (hquiet : ends s.setupPhase = true → s.activeSubscription = none) (hsame : t.progress = s.progress) :
    LogRead ends t := by
  apply h.extend _ htrace
  have hread : s.progress.read ends (.timeout s.setupPhase) = some s.progress := by
    cases hends : ends s.setupPhase with
    | false => cases s.progress <;> simp [Progress.read, hends]
    | true => simp [progress_none (hquiet hends), Progress.read, hends]
  rw [Lib.after_cons, hread, Option.bind_some, Progress.after_notes hnotes, hsame]

theorem running (h : LogRead ends s) {sub : SubscriptionInfo} (hactive : s.activeSubscription = some sub)
    (hactive' : t.activeSubscription = some sub) {entries : List TraceEntry} (htrace : t.trace = s.trace ++ entries)
    (hentries : Lib.after (Progress.read ends) (.running s.subscriptionState.ownCccdWriteAttempted) entries =
      some (.running t.subscriptionState.ownCccdWriteAttempted)) : LogRead ends t :=
  h.extend _ htrace (by rw [progress_some hactive, progress_some hactive', hentries])

/-- Giving up: the cause, which the attempt reads, then marks and the reset. -/
theorem abandon {sub : SubscriptionInfo} (h : LogRead ends s) {p : Progress} {cause : TraceEntry}
    (hcause : s.progress.read ends cause = some p) {entries : List TraceEntry} (hnotes : Notes entries) :
    LogRead ends ((s.abandon sub (cause :: entries)).goto .registering) := by
  apply h.extend (cause :: entries ++ [.subscriptionReset, .transition .registering])
  · simp [Setup.abandon, goto]
  · rw [List.cons_append, Lib.after_cons, hcause, Option.bind_some, Lib.after_append,
      Progress.after_notes hnotes, Option.bind_some]
    cases p <;> rfl

end LogRead

/-- The deadline of another phase finds no attempt, or does not count as an end. -/
def QuietDeadlines (ends : SetupPhase → Bool) (s : Setup) : Prop :=
  subscribing s.setupPhase = false → ends s.setupPhase = true → s.activeSubscription = none

theorem Setup.Move.logRead {ends : SetupPhase → Bool} {s t : Setup} (h : LogRead ends s)
    (hquiet : QuietDeadlines ends s) (hmove : Move fails s t) : LogRead ends t := by
  cases hmove with
  | mark d entries hnotes => exact h.notes rfl hnotes rfl
  | inventory => exact h
  | inventoryFailed entries hphase hnotes =>
    exact h.notes (List.append_assoc ..) (BLEClientHID.notes_append hnotes (by simp [Notes, TraceEntry.isNote])) rfl
  | noHid | planReads | readsDone | planSubscriptions =>
    exact h.notes rfl (by simp [Notes, TraceEntry.isNote]) rfl
  | startRead operation rest accepted entries hphase hidle hqueue hnotes => exact h.notes rfl hnotes rfl
  | finishRead operation contexts sources d entries hactive heffect hnotes => exact h.notes rfl hnotes rfl
  | buildProfiles s hphase =>
    obtain ⟨d, contexts, sources, heq⟩ := s.buildHidProfiles_profiles
    rw [heq]
    exact h.notes rfl (by simp [Notes, TraceEntry.isNote]) rfl
  | writeMode handle rest accepted entries hphase hhandles hnotes =>
    -- a Protocol Mode write is no CCCD write: the automaton does not move
    apply h.extend _ rfl
    have hread (p : Progress) (value : Nat) : p.read ends (.writeChar handle value accepted) = some p := by
      cases p <;> rfl
    rw [Lib.after_cons, hread, Option.bind_some, Progress.after_notes hnotes]
    rfl
  | begin sub rest hphase hidle hqueue =>
    apply h.extend _ rfl
    rw [LogRead.progress_none hidle]
    rfl
  | beginWithoutCccd sub rest entries hphase hidle hqueue hcccd hnotes =>
    -- begun and over within one move
    apply h.extend (.begin sub :: (entries ++ [.subscriptionReset])) (by simp [begun, Setup.abandon])
    rw [LogRead.progress_none hidle, Lib.after_cons, Progress.read, Option.bind_some, Lib.after_append,
      Progress.after_notes hnotes]
    rfl
  | notScheduled sub entries hactive hnotes =>
    apply h.extend (entries ++ [TraceEntry.subscriptionReset]) (List.append_assoc ..)
    rw [Lib.after_append, Progress.after_notes hnotes, Option.bind_some]
    cases s.progress <;> rfl
  | registrationIgnored | cccdIgnored =>
    apply h.extend _ rfl
    change _ = some s.progress
    cases s.progress <;> rfl
  | registered sub fallbackAtMs hactive hstage =>
    exact h.running hactive hactive (List.append_assoc ..) rfl
  | registrationFailed sub entries hactive hnotes =>
    exact h.abandon (p := .ended) (by rw [LogRead.progress_some hactive]; rfl) hnotes
  | retry sub hactive hstage hown =>
    -- the fallback begins only where no write of its own has been attempted
    refine h.running hactive hactive rfl ?_
    rw [hown]
    exact congrArg (fun wrote => some (Progress.running wrote)) hown.symm
  | writeCccd sub value hactive hstage hown =>
    refine h.running hactive hactive rfl ?_
    rw [hown]
    rfl
  | writeRejected sub value entries hactive hown hnotes =>
    exact h.abandon (p := .running true) (by rw [LogRead.progress_some hactive, hown]; rfl) hnotes
  | complete sub hactive hstage hcccd =>
    refine h.extend _ (List.append_assoc ..) ?_
    rw [LogRead.progress_some hactive]
    rfl
  | cccdFailed sub entries _ hactive hown hnotes =>
    exact h.abandon (p := .ended) (by rw [LogRead.progress_some hactive]; rfl) hnotes
  | finish entries hphase hidle hqueue hnotes =>
    exact h.notes (List.append_assoc ..) (BLEClientHID.notes_append hnotes (by simp [Notes, TraceEntry.isNote])) rfl
  | readTimeout entries hphase hnotes =>
    -- no attempt is under way, so the deadline finds none to end
    refine h.timeout (entries ++ [.transition .buildingProfile]) ?_
      (BLEClientHID.notes_append hnotes (by simp [Notes, TraceEntry.isNote]))
        (hquiet (by simp [hphase, subscribing])) rfl
    simp [marked, goto, hphase]
  | timeout entries hphase hphase' hreading hwaits hnotes =>
    refine h.timeout (entries ++ [.transition .degraded]) ?_
      (BLEClientHID.notes_append hnotes (by simp [Notes, TraceEntry.isNote]))
      (hquiet (by simp [subscribing, hphase, hphase'])) rfl
    simp [marked, goto]
  | subscriptionTimeout entries entries' hphase hnotes hnotes' =>
    -- wherever the attempt stands, the reset ends it
    refine h.extend (.timeout s.setupPhase :: (entries ++ .subscriptionReset :: (entries' ++
      [.transition .degraded]))) (by simp [marked, goto]) ?_
    have hend (p : Progress) : Lib.after (Progress.read ends) p
        (entries ++ .subscriptionReset :: (entries' ++ [.transition .degraded])) = some .ended := by
      rw [Lib.after_append, Progress.after_notes hnotes, Option.bind_some, Lib.after_cons,
        show p.read ends .subscriptionReset = some .ended by cases p <;> rfl, Option.bind_some]
      exact Progress.after_notes (BLEClientHID.notes_append hnotes' (by simp [Notes, TraceEntry.isNote]))
    rw [Lib.after_cons]
    cases s.progress <;> exact hend _

theorem LogRead.searched {ends : SetupPhase → Bool} {s : Setup} (h : LogRead ends s) (status : GattStatus)
    {entries : List TraceEntry} (hnotes : Notes entries) : LogRead ends (s.searched status entries) := by
  have hread (p : Progress) : p.read ends (.searchComplete status) = some p := by cases p <;> rfl
  have hextend {t : Setup} (rest : List TraceEntry) (hrest : Notes rest)
      (htrace : t.trace = s.trace ++ .searchComplete status :: rest) (hsame : t.progress = s.progress) :
      LogRead ends t := by
    apply h.extend _ htrace
    rw [Lib.after_cons, hread, Option.bind_some, Progress.after_notes hrest, hsame]
  rw [Setup.searched]
  split
  · exact hextend [.transition .inventory] (by simp [Notes, TraceEntry.isNote]) (by simp [append, goto]) rfl
  · exact hextend (entries ++ [.transition .degraded])
      (BLEClientHID.notes_append hnotes (by simp [Notes, TraceEntry.isNote])) (by simp [marked, goto]) rfl

/-! ## The law -/

/-- Nothing has begun yet, or the last entry ends an attempt. -/
def Ended (ends : SetupPhase → Bool) (log : List TraceEntry) : Prop :=
  log = [] ∨ ∃ before entry, log = before ++ [entry] ∧ entry.endsAttempt ends = true

def NoBegin (log : List TraceEntry) : Prop := ∀ entry ∈ log, entry.isBegin = false

def TraceEntry.isUnmatched : TraceEntry → Bool
  | .registrationResult _ _ _ decision | .cccdResult _ _ _ decision => decision == .unmatched
  | _ => false

/-- At most the log has a new entry, an unmatched result. -/
def Ignored (s s' : BLEClientHID) : Prop := s' = s ∨ ∃ entry, entry.isUnmatched = true ∧ s' = s.log entry

/-- One write and one end for each attempt, and nothing for strange or late results. -/
structure AttemptLaw (ends : SetupPhase → Bool) (s : BLEClientHID) : Prop where
  once : ∀ before sub attempt after, s.trace = before ++ .begin sub :: attempt ++ after → NoBegin attempt →
    attempt.countP TraceEntry.isOwnWrite ≤ 1 ∧ attempt.countP TraceEntry.isTerminal ≤ 1
  quiet : ∀ before rest after, s.trace = before ++ rest ++ after → Ended ends before → NoBegin rest →
    ∀ entry ∈ rest, entry.isQuiet = true
  expected : ∀ sub, s.activeSubscription = some sub →
    s.subscriptionState.characteristicHandle = sub.characteristicHandle ∧
      s.subscriptionState.cccdHandle = sub.cccdHandle
  strangeRegistration : ∀ env handle status gattcIf, handle ≠ s.subscriptionState.characteristicHandle →
    Ignored s (step s (.gattc env (.regForNotify handle status) gattcIf))
  strangeCccd : ∀ env connId handle status gattcIf, handle ≠ s.subscriptionState.cccdHandle →
    Ignored s (step s (.gattc env (.writeDescr connId handle status) gattcIf))
  late : ∀ before rest, s.trace = before ++ rest → Ended ends before → NoBegin rest →
    ∀ env connId handle status gattcIf,
      Ignored s (step s (.gattc env (.regForNotify handle status) gattcIf)) ∧
      Ignored s (step s (.gattc env (.writeDescr connId handle status) gattcIf))

section

variable {s : BLEClientHID}

theorem gattc_ignored {env : Env} {event : GattcEvent} (h : Ignored s (s.handleGattcEvent env event))
    (gattcIf : Option Nat) : Ignored s (step s (.gattc env event gattcIf)) := by
  cases gattcIf with
  | none => exact h
  | some gattcIf =>
    rw [step, BLEClientHID.gattcEventHandler]
    split
    · exact h
    · exact .inl rfl

theorem registration_ignored
    (hskip : s.subscriptionState.stage ≠ .registering ∨ handle ≠ s.subscriptionState.characteristicHandle)
    (env : Env) (status : GattStatus) (gattcIf : Option Nat) :
    Ignored s (step s (.gattc env (.regForNotify handle status) gattcIf)) := by
  apply gattc_ignored
  exact .inr ⟨_, rfl, BLEClientHID.handleRegistrationResult_unmatched env hskip⟩

theorem cccd_ignored
    (hskip : s.subscriptionState.stage ≠ .waitingForCccd ∨ handle ≠ s.subscriptionState.cccdHandle)
    (env : Env) (connId : Nat) (status : GattStatus) (gattcIf : Option Nat) :
    Ignored s (step s (.gattc env (.writeDescr connId handle status) gattcIf)) := by
  apply gattc_ignored
  rw [BLEClientHID.handleGattcEvent]
  split
  · exact .inr ⟨_, rfl, BLEClientHID.handleCccdResult_unmatched env hskip⟩
  · exact .inl rfl

theorem after_ended {ends : SetupPhase → Bool} {log : List TraceEntry} (h : Ended ends log) {p : Progress}
    (hlog : Lib.after (Progress.read ends) .ended log = some p) : p = .ended := by
  obtain rfl | ⟨before, entry, rfl, hends⟩ := h
  · exact (Option.some.inj hlog).symm
  · obtain ⟨q, -, hlast⟩ := Lib.after_append_eq_some hlog
    obtain ⟨q', hread, hnil⟩ := Lib.after_cons_eq_some hlast
    rw [← Option.some.inj hnil]
    exact Progress.read_end hends hread

theorem attemptLaw_of_logRead {ends : SetupPhase → Bool} (haligned : Aligned s.setup)
    (hread : LogRead ends s.setup) : AttemptLaw ends s where
  once before sub attempt rest htrace hbegin := by
    rw [LogRead, show s.setup.trace = s.trace from rfl, htrace] at hread
    obtain ⟨p, hbefore, -⟩ := Lib.after_append_eq_some hread
    obtain ⟨p', -, hattempt⟩ := Lib.after_append_eq_some hbefore
    obtain ⟨q, hfirst, hattempt⟩ := Lib.after_cons_eq_some hattempt
    -- whatever went before, the entry that begins an attempt starts the reading afresh
    have hq : q = .running false := by cases p' <;> simp_all [Progress.read]
    subst hq
    have hwrites := Lib.countP_add_le TraceEntry.isOwnWrite (fun p a q => Progress.read_writes)
      hbegin hattempt
    have hends := Lib.countP_add_le TraceEntry.isTerminal (fun p a q => Progress.read_ends)
      hbegin hattempt
    simp only [Progress.writesLeft, Progress.endsLeft] at hwrites hends
    exact ⟨by omega, by omega⟩
  quiet before rest _ htrace hended hbegin := by
    rw [LogRead, show s.setup.trace = s.trace from rfl, htrace] at hread
    obtain ⟨p, hbefore, -⟩ := Lib.after_append_eq_some hread
    obtain ⟨p', hbefore, hrest⟩ := Lib.after_append_eq_some hbefore
    exact (Lib.forall_mem_of_closed (· = .ended) (by rintro _ a q rfl; exact Progress.read_over)
      (after_ended hended hbefore) hbegin hrest).2
  expected sub hactive := (haligned.running sub hactive).2
  strangeRegistration env handle status gattcIf hstrange := registration_ignored (.inr hstrange) env status gattcIf
  strangeCccd env connId handle status gattcIf hstrange := cccd_ignored (.inr hstrange) env connId status gattcIf
  late before rest htrace hended hbegin env connId handle status gattcIf := by
    rw [LogRead, show s.setup.trace = s.trace from rfl, htrace] at hread
    obtain ⟨p, hbefore, hrest⟩ := Lib.after_append_eq_some hread
    -- once ended, no later entry but a new attempt leaves that state
    have hover := (Lib.forall_mem_of_closed (· = .ended) (by rintro _ a q rfl; exact Progress.read_over)
      (after_ended hended hbefore) hbegin hrest).1
    have hidle : s.subscriptionState.stage = .idle := by
      apply haligned.idle
      cases hactive : s.setup.activeSubscription with
      | none => rfl
      | some sub => simp [LogRead.progress_some hactive] at hover
    exact ⟨registration_ignored (.inl (by simp [hidle])) env status gattcIf,
      cccd_ignored (.inl (by simp [hidle])) env connId status gattcIf⟩

end

theorem reachable_logRead {s : BLEClientHID} (h : Reachable s) :
    Aligned s.setup ∧ LogRead (fun _ => true) s.setup := by
  obtain ⟨haligned, -, hread⟩ := reachable_invariant (LogRead fun _ => true) (fun _ _ => rfl)
    (fun _ s t _ hphased hread hmove => hmove.logRead hread fun hphase _ => (hphased.attempts hphase).1)
    (fun s phase entries hnotes _ => Progress.after_notes hnotes)
    (fun s status entries hnotes _ _ hread => hread.searched status hnotes) h
  exact ⟨haligned, hread⟩

/-- In every run, where an attempt ends at its own deadlines; and with one search for each connection,
where it ends at every deadline. -/
theorem attempts_once (discoveryMode : DiscoveryMode) (policy : ProtocolModePolicy) (interval : UInt32) :
    (∀ events, AttemptLaw subscribing (run (initial discoveryMode policy interval) events)) ∧
      ∀ s, Reachable s → AttemptLaw (fun _ => true) s := by
  refine ⟨fun events => ?_, fun s h => ?_⟩
  · obtain ⟨haligned, hread⟩ := run_invariant (LogRead subscribing)
      (show LogRead subscribing (.initial discoveryMode policy) from rfl)
      (fun _ s t _ hread hmove => hmove.logRead hread fun hphase hends => by simp [hends] at hphase)
      (fun s phase entries hnotes => Progress.after_notes hnotes)
      (fun s status entries hnotes hread => hread.searched status hnotes) interval events
    exact attemptLaw_of_logRead haligned hread
  · obtain ⟨haligned, hread⟩ := reachable_logRead h
    exact attemptLaw_of_logRead haligned hread

/-- A keyboard's one subscription begins, and completes without a write of its own. -/
theorem attempts_once_keyboard :
    (∃ sub, TraceEntry.begin sub ∈ (run (initial .standard .unchanged 0) keyboardSetup).trace) ∧
      AttemptLaw subscribing (run (initial .standard .unchanged 0) keyboardSetup) ∧
      AttemptLaw (fun _ => true) (run (initial .standard .unchanged 0) keyboardSetup) := by
  refine ⟨⟨{ characteristicHandle := 5, cccdHandle := 6, properties := 0x10, required := true }, by decide +kernel⟩,
    (attempts_once .standard .unchanged 0).1 keyboardSetup, (attempts_once .standard .unchanged 0).2 _ ?_⟩
  exact reachable_run (.initial ..) keyboardSetup (by decide +kernel)

end BleClientHid

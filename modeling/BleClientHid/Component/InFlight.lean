import BleClientHid.Component.Attempts

/-! # CCCD writes in flight

Which attempt issued which write: each attempt writes once, and the running one
has its write in flight from the moment it is marked.
-/

namespace BleClientHid

open Setup

variable {fails : Bool}

/-! ## Attempts by number -/

def attempts (log : List TraceEntry) : Nat := log.countP TraceEntry.isBegin

/-- The entries of a log with the number of their attempt; `n` have begun before. -/
def numbered (n : Nat) : List TraceEntry → List (Nat × TraceEntry)
  | [] => []
  | entry :: rest => (n + entry.isBegin.toNat, entry) :: numbered (n + entry.isBegin.toNat) rest

theorem attempts_cons (entry : TraceEntry) (log : List TraceEntry) :
    attempts (entry :: log) = entry.isBegin.toNat + attempts log := by
  rw [attempts, attempts, List.countP_cons, Nat.add_comm]
  cases entry.isBegin <;> rfl

theorem attempts_append (log log' : List TraceEntry) : attempts (log ++ log') = attempts log + attempts log' :=
  List.countP_append

theorem numbered_append (n : Nat) (log log' : List TraceEntry) :
    numbered n (log ++ log') = numbered n log ++ numbered (n + attempts log) log' := by
  induction log generalizing n with
  | nil => rfl
  | cons entry log ih => rw [List.cons_append, numbered, numbered, ih, attempts_cons, List.cons_append,
    Nat.add_assoc]

/-! ## Writes -/

inductive Writer where
  | framework
  | component (attempt : Nat)
  deriving DecidableEq, Repr

def issuedBy : Nat × TraceEntry → Option (Nat × Writer)
  | (n, .writeDescr handle _ true) => some (handle, .component n)
  | _ => none

/-- The writes that the stack accepted in the new part of the log. -/
def issued (old new : List TraceEntry) : List (Nat × Writer) :=
  (numbered (attempts old) (new.drop old.length)).filterMap issuedBy

/-- The oldest write in flight on the handle, and the others. -/
def pop (handle : Nat) : List (Nat × Writer) → Option (Writer × List (Nat × Writer))
  | [] => none
  | write :: rest =>
    if write.1 = handle then some (write.2, rest)
    else (pop handle rest).map fun out => (out.1, write :: out.2)

/-! ## What a move does to the attempt -/

/-- No begin, no accepted write and no failure. -/
def TraceEntry.isPlain : TraceEntry → Bool
  | .begin _ | .writeDescr _ _ true | .cccdResult _ _ _ .failed => false
  | _ => true

inductive AttemptChange (fails : Bool) (s t : Setup) : List TraceEntry → Prop where
  | same (entries : List TraceEntry) (hplain : ∀ entry ∈ entries, entry.isPlain = true)
      (hactive : t.activeSubscription = s.activeSubscription) (hstate : t.subscriptionState = s.subscriptionState) :
      AttemptChange fails s t entries
  | begin (sub : SubscriptionInfo) (hstate : t.subscriptionState.ownCccdWriteAttempted = false) :
      AttemptChange fails s t [.begin sub]
  | beginOver (sub : SubscriptionInfo) (entries : List TraceEntry)
    (hplain : ∀ entry ∈ entries, entry.isPlain = true)
      (hstate : t.subscriptionState = {}) : AttemptChange fails s t (.begin sub :: entries)
  | registered (entries : List TraceEntry) (hplain : ∀ entry ∈ entries, entry.isPlain = true)
      (fallbackAtMs : UInt32) (hactive : t.activeSubscription = s.activeSubscription)
      (hstate : t.subscriptionState = { s.subscriptionState with stage := .waitingForCccd, fallbackAtMs }) :
      AttemptChange fails s t entries
  | write (value : Nat) (hactive : s.activeSubscription ≠ none)
    (hactive' : t.activeSubscription = s.activeSubscription)
      (hstage : s.subscriptionState.stage = .waitingForCccd)
        (hown : s.subscriptionState.ownCccdWriteAttempted = false)
      (hstate : t.subscriptionState = s.subscriptionState.markOwnCccdWriteAttempted) :
      AttemptChange fails s t [.writeDescr s.subscriptionState.cccdHandle value true]
  | ended (entries : List TraceEntry) (hplain : ∀ entry ∈ entries, entry.isPlain = true)
      (hactive : t.activeSubscription = none) (hstate : t.subscriptionState = {}) :
      AttemptChange fails s t entries
  | failed (hfails : fails = true) (active : Option SubscriptionInfo) (handle : Nat) (entries : List TraceEntry)
      (hplain : ∀ entry ∈ entries, entry.isPlain = true)
      (hactive : t.activeSubscription = none) (hstate : t.subscriptionState = {}) :
      AttemptChange fails s t (.cccdResult active handle false .failed :: entries)

theorem isPlain_of_isNote {entry : TraceEntry} (h : entry.isNote = true) : entry.isPlain = true := by
  cases entry <;> simp_all [TraceEntry.isNote, TraceEntry.isPlain]

theorem Notes.plain {entries : List TraceEntry} (h : Notes entries) : ∀ entry ∈ entries, entry.isPlain = true :=
  fun entry hentry => isPlain_of_isNote (h entry hentry)

theorem abandon_trace (sub : SubscriptionInfo) (entries : List TraceEntry) (phase : SetupPhase) (s : Setup) :
    ((s.abandon sub entries).goto phase).trace =
      s.trace ++ (entries ++ [.subscriptionReset] ++ [.transition phase]) := by
  simp [abandon, goto]

def Change (fails : Bool) (s t : Setup) : Prop :=
  ∃ entries, t.trace = s.trace ++ entries ∧ AttemptChange fails s t entries

theorem Setup.Move.change {s t : Setup} (h : Aligned s) (hmove : Move fails s t) : Change fails s t := by
  have hplain {entries : List TraceEntry} {entry : TraceEntry} (hnotes : Notes entries)
      (hentry : entry.isPlain = true) : ∀ e ∈ entry :: entries, e.isPlain = true :=
    List.forall_mem_cons.mpr ⟨hentry, hnotes.plain⟩
  have hsnoc {entries : List TraceEntry} {entry : TraceEntry} (h : ∀ e ∈ entries, e.isPlain = true)
      (hentry : entry.isPlain = true) : ∀ e ∈ entries ++ [entry], e.isPlain = true := by
    simpa [or_imp, forall_and] using ⟨h, hentry⟩
  have hnil : Notes [] := by simp [Notes]
  cases hmove with
  | mark d entries hnotes => exact ⟨entries, rfl, .same _ hnotes.plain rfl rfl⟩
  | inventory => exact ⟨[], (List.append_nil _).symm, .same _ hnil.plain rfl rfl⟩
  | inventoryFailed entries hphase hnotes | finish entries hphase hidle hqueue hnotes =>
    exact ⟨_, List.append_assoc .., .same _ (hsnoc hnotes.plain rfl) rfl rfl⟩
  | noHid | planReads | readsDone | planSubscriptions =>
    exact ⟨_, rfl, .same _ (hplain hnil rfl) rfl rfl⟩
  | startRead operation rest accepted entries hphase hidle hqueue hnotes =>
    exact ⟨entries, rfl, .same _ hnotes.plain rfl rfl⟩
  | finishRead operation contexts sources d entries hactive heffect hnotes =>
    exact ⟨entries, rfl, .same _ hnotes.plain rfl rfl⟩
  | buildProfiles s hphase =>
    obtain ⟨d, contexts, sources, heq⟩ := s.buildHidProfiles_profiles
    rw [heq]
    exact ⟨_, rfl, .same _ (hplain hnil rfl) rfl rfl⟩
  | writeMode handle rest accepted entries hphase hhandles hnotes =>
    exact ⟨_, rfl, .same _ (hplain hnotes rfl) rfl rfl⟩
  | begin sub rest => exact ⟨_, rfl, .begin sub rfl⟩
  | beginWithoutCccd sub rest entries hphase hidle hqueue hcccd hnotes =>
    exact ⟨.begin sub :: (entries ++ [.subscriptionReset]), by simp [begun, abandon],
      .beginOver sub _ (hsnoc hnotes.plain rfl) rfl⟩
  | notScheduled sub entries hactive hnotes =>
    exact ⟨_, List.append_assoc .., .ended _ (hsnoc hnotes.plain rfl) rfl rfl⟩
  | registrationIgnored | cccdIgnored | retry => exact ⟨_, rfl, .same _ (hplain hnil rfl) rfl rfl⟩
  | registered sub fallbackAtMs hactive hstage =>
    exact ⟨_, List.append_assoc .., .registered _ (hsnoc (hplain hnil rfl) rfl) fallbackAtMs rfl rfl⟩
  | writeCccd sub value hactive hstage hown =>
    -- the only move that issues a write
    obtain ⟨-, -, hcccd⟩ := h.running sub hactive
    rw [← hcccd]
    exact ⟨_, rfl, .write value (by simp [hactive]) rfl hstage hown rfl⟩
  | registrationFailed sub entries hactive hnotes =>
    exact ⟨_, abandon_trace .., .ended _ (hsnoc (hsnoc (hplain hnotes rfl) rfl) rfl) rfl rfl⟩
  | writeRejected sub value entries hactive hown hnotes =>
    exact ⟨_, abandon_trace .., .ended _ (hsnoc (hsnoc (hplain hnotes rfl) rfl) rfl) rfl rfl⟩
  | complete sub hactive hstage hcccd =>
    exact ⟨_, List.append_assoc .., .ended _ (by simp [TraceEntry.isPlain]) rfl rfl⟩
  | cccdFailed sub entries hfails hactive hown hnotes =>
    -- the failure itself stands in the log before the plain entries
    exact ⟨_, abandon_trace .., .failed hfails _ _ _ (hsnoc (hsnoc hnotes.plain rfl) rfl) rfl rfl⟩
  | readTimeout entries hphase hnotes | timeout entries hphase hphase' hreading hwaits hnotes =>
    exact ⟨_, List.append_assoc .., .same _ (hsnoc (hplain hnotes rfl) rfl) rfl rfl⟩
  | subscriptionTimeout entries entries' hphase hnotes hnotes' =>
    -- the attempt is dropped with its reset
    refine ⟨_, List.append_assoc .., .ended _ (hsnoc ?_ rfl) rfl rfl⟩
    exact List.forall_mem_cons.mpr ⟨rfl, List.forall_mem_append.mpr ⟨hnotes.plain, hplain hnotes' rfl⟩⟩

/-- A step within a connection is a chain of changes. -/
abbrev Changes (fails : Bool) : Setup → Setup → Prop := Relation.ReflTransGen (Change fails)

theorem Moves.changes {s t : Setup} (hmoves : Moves fails s t) (h : Aligned s) : Changes fails s t := by
  induction hmoves with
  | refl => exact .refl
  | tail hmoves hmove ih => exact ih.tail (hmove.change (Moves.aligned hmoves h))

theorem searched_change (s : Setup) (status : GattStatus) {entries : List TraceEntry} (hnotes : Notes entries) :
    Change fails s (s.searched status entries) := by
  have hsearch : (TraceEntry.searchComplete status).isPlain = true := rfl
  unfold searched
  split
  · exact ⟨_, List.append_assoc .., .same _ (by simp [TraceEntry.isPlain]) rfl rfl⟩
  · refine ⟨_, List.append_assoc .., .same _ ?_ rfl rfl⟩
    simpa [or_imp, forall_and, TraceEntry.isPlain] using hnotes.plain

theorem Setup.Step.changes {s t : Setup} (h : Aligned s) (hstep : Step fails s false t) : Changes fails s t := by
  cases hstep with
  | moves hmoves => exact Moves.changes hmoves h
  | searched status entries hnotes => exact .single (searched_change s status hnotes)

/-! ## Writes are numbered and in flight -/

theorem issued_append (old entries : List TraceEntry) :
    issued old (old ++ entries) = (numbered (attempts old) entries).filterMap issuedBy := by
  rw [issued, List.drop_left]

theorem issued_trans {old mid new : List TraceEntry} (h : old <+: mid) (h' : mid <+: new) :
    issued old new = issued old mid ++ issued mid new := by
  obtain ⟨entries, rfl⟩ := h
  obtain ⟨entries', rfl⟩ := h'
  rw [issued_append (old ++ entries), issued_append, List.append_assoc, issued_append, numbered_append,
    List.filterMap_append, attempts_append]

theorem Changes.trace {s t : Setup} (h : Changes fails s t) : s.trace <+: t.trace := by
  induction h with
  | refl => exact List.prefix_rfl
  | tail _ hchange ih =>
    obtain ⟨entries, htrace, -⟩ := hchange
    rw [htrace]
    exact ih.trans (List.prefix_append _ _)

/-- What a change keeps, with the writes that it issues, a step within a connection keeps. -/
theorem Changes.carry (inv : Setup → List (Nat × Writer) → Prop)
    (hchange : ∀ s t inFlight entries, inv s inFlight → t.trace = s.trace ++ entries →
      AttemptChange fails s t entries → inv t (inFlight ++ issued s.trace t.trace))
    {s t : Setup} (h : Changes fails s t) {inFlight : List (Nat × Writer)} (hinv : inv s inFlight) :
    inv t (inFlight ++ issued s.trace t.trace) := by
  induction h with
  | refl => simpa [issued, numbered] using hinv
  | @tail mid last hmid hlast ih =>
    obtain ⟨entries, htrace, hlast⟩ := hlast
    rw [issued_trans (Changes.trace hmid) (htrace ▸ List.prefix_append _ _), ← List.append_assoc]
    exact hchange mid last _ entries ih htrace hlast

theorem attempts_plain {entries : List TraceEntry} (h : ∀ entry ∈ entries, entry.isPlain = true) :
    attempts entries = 0 := by
  apply List.countP_eq_zero.mpr
  intro entry hentry hbegin
  have hplain := h entry hentry
  cases entry <;> simp_all [TraceEntry.isBegin, TraceEntry.isPlain]

theorem mem_numbered {n m : Nat} {entry : TraceEntry} {log : List TraceEntry} (h : (m, entry) ∈ numbered n log) :
    entry ∈ log ∧ m ≤ n + attempts log := by
  induction log generalizing n with
  | nil => simp [numbered] at h
  | cons head log ih =>
    rw [numbered, List.mem_cons] at h
    rw [attempts_cons]
    obtain heq | hrest := h
    · obtain ⟨rfl, rfl⟩ := Prod.mk.inj heq
      exact ⟨List.mem_cons_self, by omega⟩
    · obtain ⟨hmem, hle⟩ := ih hrest
      exact ⟨List.mem_cons_of_mem _ hmem, by omega⟩

theorem issued_plain {entries : List TraceEntry} (h : ∀ entry ∈ entries, entry.isPlain = true) (n : Nat) :
    (numbered n entries).filterMap issuedBy = [] := by
  apply List.filterMap_eq_nil_iff.mpr
  rintro ⟨m, entry⟩ hentry
  have hplain := h entry (mem_numbered hentry).1
  cases entry with
  | writeDescr handle value accepted => cases accepted <;> simp_all [TraceEntry.isPlain, issuedBy]
  | _ => rfl

/-- The attempt is over once its failure is logged, and the number does not change. -/
theorem attempts_failed {entries : List TraceEntry} (h : ∀ entry ∈ entries, entry.isPlain = true)
    (active : Option SubscriptionInfo) (handle : Nat) (success : Bool) (decision : SubscriptionDecision) :
    attempts (.cccdResult active handle success decision :: entries) = 0 := by
  rw [attempts_cons, attempts_plain h]
  rfl

/-! ### Each attempt writes once -/

def writers (inFlight : List (Nat × Writer)) (answered : List (Writer × Bool)) : List Writer :=
  answered.map (·.1) ++ inFlight.map (·.2)

theorem writers_append (inFlight more : List (Nat × Writer)) (answered : List (Writer × Bool)) :
    writers (inFlight ++ more) answered = writers inFlight answered ++ more.map (·.2) := by
  simp [writers]

/-- An attempt has at most one write, and the running one has none before the write is marked. -/
structure Counted (s : Setup) (writers : List Writer) : Prop where
  waiting : s.subscriptionState.ownCccdWriteAttempted = true → s.subscriptionState.stage = .waitingForCccd
  numbers : ∀ n, Writer.component n ∈ writers → n ≤ attempts s.trace ∧ (n = attempts s.trace →
    s.activeSubscription = none ∨ s.subscriptionState.ownCccdWriteAttempted = true)
  once : ∀ n, writers.count (.component n) ≤ 1

/-- The own write of the attempt is in flight. -/
def Behind (s : Setup) (inFlight : List (Nat × Writer)) : Prop :=
  s.subscriptionState.ownCccdWriteAttempted = true →
    (s.subscriptionState.cccdHandle, Writer.component (attempts s.trace)) ∈ inFlight

section

variable {s t : Setup} {ws : List Writer} {inFlight : List (Nat × Writer)} {entries : List TraceEntry}

theorem Counted.perm {ws' : List Writer} (h : Counted s ws) (hperm : ws'.Perm ws) : Counted s ws' where
  waiting := h.waiting
  numbers n hn := h.numbers n (hperm.mem_iff.mp hn)
  once n := by
    rw [hperm.count_eq]
    exact h.once n

theorem Counted.congr (h : Counted s ws) (hattempts : attempts t.trace = attempts s.trace)
    (hactive : t.activeSubscription = s.activeSubscription) (hstate : t.subscriptionState = s.subscriptionState) :
    Counted t ws := by
  obtain ⟨hwaiting, hnumbers, honce⟩ := h
  exact ⟨by rwa [hstate], by rwa [hattempts, hactive, hstate], honce⟩

theorem Counted.ended (h : Counted s ws) (hattempts : attempts t.trace = attempts s.trace)
    (hactive : t.activeSubscription = none) (hstate : t.subscriptionState = {}) : Counted t ws where
  waiting := by simp [hstate]
  numbers n hn := by
    rw [hattempts]
    exact ⟨(h.numbers n hn).1, fun _ => .inl hactive⟩
  once := h.once

theorem Counted.begin (h : Counted s ws) (hattempts : attempts s.trace < attempts t.trace)
    (hstate : t.subscriptionState.ownCccdWriteAttempted = false) : Counted t ws where
  waiting := by simp [hstate]
  numbers n hn := by
    have hle := (h.numbers n hn).1
    exact ⟨by omega, by omega⟩
  once := h.once

theorem Counted.change (h : Counted s ws) (htrace : t.trace = s.trace ++ entries)
    (hchange : AttemptChange fails s t entries) : Counted t (ws ++ (issued s.trace t.trace).map (·.2)) := by
  have hattempts : attempts t.trace = attempts s.trace + attempts entries := by rw [htrace, attempts_append]
  rw [htrace, issued_append]
  cases hchange with
  | same _ hplain hactive hstate =>
    rw [issued_plain hplain, List.map_nil, List.append_nil]
    exact h.congr (by rw [hattempts, attempts_plain hplain, Nat.add_zero]) hactive hstate
  | begin sub hown =>
    -- the new attempt has the next number and no write yet
    have hissued : (numbered (attempts s.trace) [.begin sub]).filterMap issuedBy = [] := rfl
    rw [hissued, List.map_nil, List.append_nil]
    exact h.begin (by rw [hattempts]; exact Nat.lt_succ_self _) hown
  | beginOver sub rest hplain hstate =>
    have hissued : (numbered (attempts s.trace) (.begin sub :: rest)).filterMap issuedBy = [] :=
      issued_plain hplain _
    have hlater : attempts (.begin sub :: rest) = 1 := by rw [attempts_cons, attempts_plain hplain]; rfl
    rw [hissued, List.map_nil, List.append_nil]
    exact h.begin (by omega) (by simp [hstate])
  | registered _ hplain fallbackAtMs hactive hstate =>
    -- the CCCD is expected now, under the same number
    rw [issued_plain hplain, List.map_nil, List.append_nil]
    rw [attempts_plain hplain, Nat.add_zero] at hattempts
    refine ⟨by simp [hstate], ?_, h.once⟩
    rw [hattempts, hactive, hstate]
    exact h.numbers
  | write value hactive hactive' hstage hown hstate =>
    -- no write has this number so far: the attempt had not written
    have hnew : .component (attempts s.trace) ∉ ws := fun hmem => by
      simpa [hactive, hown] using (h.numbers _ hmem).2 rfl
    have hsame : attempts t.trace = attempts s.trace := hattempts
    have hissued : ((numbered (attempts s.trace) [.writeDescr s.subscriptionState.cccdHandle value true]).filterMap
      issuedBy).map (·.2) = [.component (attempts s.trace)] := rfl
    rw [hissued]
    refine ⟨fun _ => by simpa [hstate, SubscriptionAttemptState.markOwnCccdWriteAttempted] using hstage,
      fun n hn => ⟨?_, fun _ => .inr (by simp [hstate, SubscriptionAttemptState.markOwnCccdWriteAttempted])⟩,
      fun n => ?_⟩
    · rw [hsame]
      obtain hold | hlast := List.mem_append.mp hn
      · exact (h.numbers n hold).1
      · simp only [List.mem_singleton, Writer.component.injEq] at hlast
        exact hlast.le
    · rw [List.count_append]
      by_cases hn : n = attempts s.trace
      · rw [hn, List.count_eq_zero_of_not_mem hnew]
        simp
      · have hother : List.count (Writer.component n) [.component (attempts s.trace)] = 0 := by
          simp [List.count_eq_zero, hn]
        rw [hother]
        exact h.once n
  | ended _ hplain hactive hstate =>
    rw [issued_plain hplain, List.map_nil, List.append_nil]
    exact h.ended (by rw [hattempts, attempts_plain hplain, Nat.add_zero]) hactive hstate
  | failed _ active handle rest hplain hactive hstate =>
    have hissued : (numbered (attempts s.trace) (.cccdResult active handle false .failed :: rest)).filterMap
      issuedBy =
      [] := issued_plain hplain _
    rw [hissued, List.map_nil, List.append_nil]
    exact h.ended (by rw [hattempts, attempts_failed hplain, Nat.add_zero]) hactive hstate

theorem Behind.change (h : Behind s inFlight) (htrace : t.trace = s.trace ++ entries)
    (hchange : AttemptChange fails s t entries) : Behind t (inFlight ++ issued s.trace t.trace) := by
  have hattempts : attempts t.trace = attempts s.trace + attempts entries := by rw [htrace, attempts_append]
  intro hown
  cases hchange with
  | same _ hplain hactive hstate =>
    rw [hattempts, attempts_plain hplain, hstate]
    exact List.mem_append_left _ (h (by rwa [← hstate]))
  | registered _ hplain fallbackAtMs hactive hstate =>
    rw [hattempts, attempts_plain hplain, hstate]
    exact List.mem_append_left _ (h (by simpa [hstate] using hown))
  | begin sub hfresh => simp [hfresh] at hown
  | beginOver sub rest hplain hstate => simp [hstate] at hown
  | write value hactive hactive' hstage hown' hstate =>
    have hsame : attempts t.trace = attempts s.trace := hattempts
    rw [hsame, htrace, issued_append, hstate]
    exact List.mem_append_right _ (List.mem_singleton.mpr rfl)
  | ended _ hplain hactive hstate | failed _ active handle rest hplain hactive hstate => simp [hstate] at hown

/-- The writes stay numbered and in flight through a step within the connection. -/
theorem Counted.carry {answered : List (Writer × Bool)} (h : Counted s (writers inFlight answered))
    (hchanges : Changes fails s t) : Counted t (writers (inFlight ++ issued s.trace t.trace) answered) := by
  refine Changes.carry (fun s inFlight => Counted s (writers inFlight answered)) ?_ hchanges h
  intro s t inFlight entries h htrace hchange
  rw [writers_append]
  exact h.change htrace hchange

theorem Behind.carry (h : Behind s inFlight) (hchanges : Changes fails s t) :
    Behind t (inFlight ++ issued s.trace t.trace) :=
  Changes.carry Behind (fun _ _ _ _ h htrace hchange => h.change htrace hchange) hchanges h

end

end BleClientHid

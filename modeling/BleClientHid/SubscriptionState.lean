import Mathlib.Tactic.Common

/-! # One subscription attempt

`SubscriptionAttemptState`: from `begin` to the result of a CCCD write.
-/

namespace BleClientHid

inductive SubscriptionDecision where
  | unmatched
  | waitForCccd
  | retryCccd
  | complete
  | failed
  deriving DecidableEq, Repr

/-- The attempt ends with this decision. -/
def SubscriptionDecision.terminal : SubscriptionDecision → Bool
  | .complete | .failed => true
  | _ => false

inductive Stage where
  | idle
  | registering
  | waitingForCccd
  deriving DecidableEq, Repr

structure SubscriptionAttemptState where
  stage : Stage := .idle
  characteristicHandle : Nat := 0
  cccdHandle : Nat := 0
  fallbackAtMs : UInt32 := 0
  ownCccdWriteAttempted : Bool := false
  deriving DecidableEq, Repr

namespace SubscriptionAttemptState

def begin (characteristicHandle cccdHandle : Nat) : SubscriptionAttemptState :=
  { stage := .registering, characteristicHandle, cccdHandle }

def registrationResult (s : SubscriptionAttemptState) (handle : Nat) (success : Bool)
    (nowMs fallbackDelayMs : UInt32) : SubscriptionAttemptState × SubscriptionDecision :=
  if s.stage ≠ .registering ∨ handle ≠ s.characteristicHandle then (s, .unmatched)
  else if !success then ({ s with stage := .idle }, .failed)
  else ({ s with stage := .waitingForCccd, fallbackAtMs := nowMs + fallbackDelayMs }, .waitForCccd)

/-- `static_cast<int32_t>(now_ms - fallback_at_ms_) >= 0` -/
def fallbackDue (s : SubscriptionAttemptState) (nowMs : UInt32) : Bool :=
  s.stage == .waitingForCccd && !s.ownCccdWriteAttempted && decide (nowMs - s.fallbackAtMs < 0x80000000)

def markOwnCccdWriteAttempted (s : SubscriptionAttemptState) : SubscriptionAttemptState :=
  { s with ownCccdWriteAttempted := true }

def cccdResult (s : SubscriptionAttemptState) (handle : Nat) (success : Bool) :
    SubscriptionAttemptState × SubscriptionDecision :=
  if s.stage ≠ .waitingForCccd ∨ handle ≠ s.cccdHandle then (s, .unmatched)
  else if success then ({ s with stage := .idle }, .complete)
  else if !s.ownCccdWriteAttempted then (s, .retryCccd)
  else ({ s with stage := .idle }, .failed)

/-! ## What a result can do -/

variable {s s' : SubscriptionAttemptState} {handle : Nat} {success : Bool} {d : SubscriptionDecision}

theorem registrationResult_cases {nowMs fallbackDelayMs : UInt32}
    (h : s.registrationResult handle success nowMs fallbackDelayMs = (s', d)) :
    (d = .unmatched ∧ s' = s ∧ (s.stage ≠ .registering ∨ handle ≠ s.characteristicHandle)) ∨
    (d = .failed ∧ success = false ∧ s.stage = .registering ∧ handle = s.characteristicHandle ∧
      s' = { s with stage := .idle }) ∨
    (d = .waitForCccd ∧ success = true ∧ s.stage = .registering ∧ handle = s.characteristicHandle ∧
      s' = { s with stage := .waitingForCccd, fallbackAtMs := nowMs + fallbackDelayMs }) := by
  rw [registrationResult] at h
  split at h
  · rename_i hskip
    obtain ⟨rfl, rfl⟩ := Prod.mk.inj h
    exact .inl ⟨rfl, rfl, hskip⟩
  · rename_i hmatch
    simp only [ne_eq, not_or, not_not] at hmatch
    cases success with
    | false =>
      obtain ⟨rfl, rfl⟩ := Prod.mk.inj h
      exact .inr (.inl ⟨rfl, rfl, hmatch.1, hmatch.2, rfl⟩)
    | true =>
      obtain ⟨rfl, rfl⟩ := Prod.mk.inj h
      exact .inr (.inr ⟨rfl, rfl, hmatch.1, hmatch.2, rfl⟩)

theorem cccdResult_cases (h : s.cccdResult handle success = (s', d)) :
    (d = .unmatched ∧ s' = s ∧ (s.stage ≠ .waitingForCccd ∨ handle ≠ s.cccdHandle)) ∨
    (d = .complete ∧ success = true ∧ s.stage = .waitingForCccd ∧ handle = s.cccdHandle ∧
      s' = { s with stage := .idle }) ∨
    (d = .retryCccd ∧ success = false ∧ s.stage = .waitingForCccd ∧ handle = s.cccdHandle ∧
      s.ownCccdWriteAttempted = false ∧ s' = s) ∨
    (d = .failed ∧ success = false ∧ s.stage = .waitingForCccd ∧ handle = s.cccdHandle ∧
      s.ownCccdWriteAttempted = true ∧ s' = { s with stage := .idle }) := by
  rw [cccdResult] at h
  split at h
  · rename_i hskip
    obtain ⟨rfl, rfl⟩ := Prod.mk.inj h
    exact .inl ⟨rfl, rfl, hskip⟩
  · rename_i hmatch
    simp only [ne_eq, not_or, not_not] at hmatch
    cases success with
    | true =>
      obtain ⟨rfl, rfl⟩ := Prod.mk.inj h
      exact .inr (.inl ⟨rfl, rfl, hmatch.1, hmatch.2, rfl⟩)
    | false =>
      cases hown : s.ownCccdWriteAttempted with
      | false =>
        simp only [hown] at h
        obtain ⟨rfl, rfl⟩ := Prod.mk.inj h
        exact .inr (.inr (.inl ⟨rfl, rfl, hmatch.1, hmatch.2, rfl, rfl⟩))
      | true =>
        simp only [hown] at h
        obtain ⟨rfl, rfl⟩ := Prod.mk.inj h
        exact .inr (.inr (.inr ⟨rfl, rfl, hmatch.1, hmatch.2, rfl, rfl⟩))

/-- The deadline comparison survives the wrap of the clock. -/
example : let s := ((begin 50 51).registrationResult 50 true (0 - 101) 250).1
    (s.fallbackDue 100, s.fallbackDue 149) = (false, true) := by decide

end SubscriptionAttemptState

end BleClientHid

import Mathlib.Data.List.Basic
import Mathlib.Tactic.Common

/-! # Scopes

Histories in which some events enter a scope and some leave it. Leaving a scope takes
back what happened inside.
-/

namespace BleClientHid.Lib

variable {α β : Type}

/-! ## Prefixes -/

theorem forall_prefix_concat {l : List α} {a : α} {P : List α → Prop} :
    (∀ p, p <+: l ++ [a] → P p) ↔ (∀ p, p <+: l → P p) ∧ P (l ++ [a]) := by
  simp only [List.prefix_concat_iff]
  constructor
  · intro h
    exact ⟨fun p hp => h p (.inr hp), h _ (.inl rfl)⟩
  · rintro ⟨h, hlast⟩ p (rfl | hp)
    · exact hlast
    · exact h p hp

/-- The same for a property of an event and the history before it. -/
theorem forall_event_concat {l : List α} {a : α} {P : List α → α → Prop} :
    (∀ p b, p ++ [b] <+: l ++ [a] → P p b) ↔ (∀ p b, p ++ [b] <+: l → P p b) ∧ P l a := by
  simp only [List.prefix_concat_iff]
  constructor
  · intro h
    exact ⟨fun p b hp => h p b (.inr hp), h _ _ (.inl rfl)⟩
  · rintro ⟨h, hlast⟩ p b (heq | hp)
    · obtain ⟨rfl, rfl⟩ := List.append_singleton_inj.mp heq
      exact hlast
    · exact h p b hp

/-! ## Nesting -/

/-- No prefix has more closing events than opening ones, or more than `limit` open at its end. -/
def Nested (opens closes : α → Bool) (limit : Nat) (l : List α) : Prop :=
  ∀ p, p <+: l → p.countP closes ≤ p.countP opens ∧ p.countP opens ≤ p.countP closes + limit

theorem nested_nil (opens closes : α → Bool) (limit : Nat) : Nested opens closes limit [] := by
  intro p hp
  rw [List.prefix_nil.mp hp]
  simp

theorem nested_concat {opens closes : α → Bool} {limit : Nat} {l : List α} {a : α}
    (ha : ¬ (opens a = true ∧ closes a = true)) :
    Nested opens closes limit (l ++ [a]) ↔
      Nested opens closes limit l ∧ (closes a = true → l.countP closes < l.countP opens) ∧
        (opens a = true → l.countP opens < l.countP closes + limit) := by
  unfold Nested
  rw [forall_prefix_concat]
  apply and_congr_right
  intro h
  have hl := h l (List.prefix_refl l)
  simp only [List.countP_append, List.countP_singleton]
  cases hopens : opens a <;> cases hcloses : closes a
  · simpa using hl
  · simp
    omega
  · simp
    omega
  · exact absurd ⟨hopens, hcloses⟩ ha

/-! ## What is in force -/

inductive Scope where
  | enter
  | leave
  | plain
  deriving DecidableEq

variable (scope : α → Scope)

/-- Newest first: the plain events in force once `n` more scopes have been left. -/
def lookBack : Nat → List α → List α
  | _, [] => []
  | n, a :: before =>
    match scope a, n with
    | .leave, n => lookBack (n + 1) before
    | .enter, 0 => lookBack 0 before
    | .enter, n + 1 => lookBack n before
    | .plain, 0 => a :: lookBack 0 before
    | .plain, n + 1 => lookBack (n + 1) before

/-- What is left of a history, oldest first, when everything between an entry and the exit
that matches it is taken back. -/
def inForce (n : Nat) (l : List α) : List α := (lookBack scope n l.reverse).reverse

variable {scope}

theorem inForce_enter {l : List α} {a : α} (ha : scope a = .enter) (n : Nat) :
    inForce scope n (l ++ [a]) = inForce scope (n - 1) l := by
  cases n <;> simp [inForce, lookBack, ha]

theorem inForce_leave {l : List α} {a : α} (ha : scope a = .leave) (n : Nat) :
    inForce scope n (l ++ [a]) = inForce scope (n + 1) l := by
  simp [inForce, lookBack, ha]

theorem inForce_plain {l : List α} {a : α} (ha : scope a = .plain) :
    inForce scope 0 (l ++ [a]) = inForce scope 0 l ++ [a] := by
  simp [inForce, lookBack, ha]

theorem inForce_plain_outside {l : List α} {a : α} (ha : scope a = .plain) (n : Nat) :
    inForce scope (n + 1) (l ++ [a]) = inForce scope (n + 1) l := by
  simp [inForce, lookBack, ha]

/-! ## A current value above saved ones -/

variable (scope) in
/-- The head is the value now, and below it is the value after each exit to come. -/
def Holds (note : β → α → β) (init : β) (l : List α) (values : List β) : Prop :=
  ∀ n v, values[n]? = some v → v = (inForce scope n l).foldl note init

section
variable {note : β → α → β} {init : β} {l : List α} {a : α} {v w : β} {saved : List β}

theorem holds_nil : Holds scope note init [] [init] := by
  rintro (_ | n) v hv
  · cases hv
    rfl
  · cases hv

theorem Holds.plain (h : Holds scope note init l (v :: saved)) (ha : scope a = .plain) :
    Holds scope note init (l ++ [a]) (note v a :: saved) := by
  rintro (_ | n) u hu
  · cases hu
    rw [inForce_plain ha, List.foldl_append, ← h 0 v rfl]
    rfl
  · rw [inForce_plain_outside ha]
    exact h (n + 1) u hu

theorem Holds.enter (h : Holds scope note init l (v :: saved)) (ha : scope a = .enter) :
    Holds scope note init (l ++ [a]) (v :: v :: saved) := by
  rintro (_ | n) u hu
  · rw [inForce_enter ha]
    exact h 0 u hu
  · rw [inForce_enter ha]
    exact h n u hu

theorem Holds.leave (h : Holds scope note init l (v :: w :: saved)) (ha : scope a = .leave) :
    Holds scope note init (l ++ [a]) (w :: saved) := by
  intro n u hu
  rw [inForce_leave ha]
  exact h (n + 1) u hu

end

end BleClientHid.Lib

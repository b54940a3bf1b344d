import Mathlib.Data.List.Basic
import Mathlib.Data.List.Induction
import Mathlib.Data.List.Sort
import Mathlib.Tactic.Common

/-! # Events that are still open

Histories in which some events open and some close. A closing event closes the last one that
is open, so a stack of the numbers of the opening events holds exactly those that are open.
-/

namespace BleClientHid.Lib

variable {α : Type} (opens closes : α → Bool)

/-- The opening event with `k` opening ones before it is open at the end: behind it there are never more
closing events than opening ones. -/
def OpenAt (l : List α) (k : Nat) : Prop :=
  ∃ before a inside, l = before ++ a :: inside ∧ opens a = true ∧ before.countP opens = k ∧
    ∀ p, p <+: inside → p.countP closes ≤ p.countP opens

/-- It would be open after `n` closing events more. -/
def StillOpen (n : Nat) (l : List α) (k : Nat) : Prop :=
  ∃ before a inside, l = before ++ a :: inside ∧ opens a = true ∧ before.countP opens = k ∧
    (∀ p, p <+: inside → p.countP closes ≤ p.countP opens) ∧
    inside.countP closes + n ≤ inside.countP opens

/-- The open events by number, innermost first. -/
structure OpenStack (l : List α) (stack : List Nat) : Prop where
  innermost_first : stack.Pairwise (· > ·)
  mem_drop_iff : ∀ n k, k ∈ stack.drop n ↔ StillOpen opens closes n l k

variable {opens closes} {l : List α} {a : α} {stack : List Nat}

theorem stillOpen_zero {k : Nat} : StillOpen opens closes 0 l k ↔ OpenAt opens closes l k := by
  unfold StillOpen OpenAt
  constructor
  · rintro ⟨before, a, inside, hl, ha, hk, hinside, -⟩
    exact ⟨before, a, inside, hl, ha, hk, hinside⟩
  · rintro ⟨before, a, inside, hl, ha, hk, hinside⟩
    exact ⟨before, a, inside, hl, ha, hk, hinside, hinside inside List.prefix_rfl⟩

theorem OpenStack.mem_iff (h : OpenStack opens closes l stack) (k : Nat) :
    k ∈ stack ↔ OpenAt opens closes l k := by
  rw [← stillOpen_zero, ← h.mem_drop_iff, List.drop_zero]

theorem StillOpen.lt {n k : Nat} (h : StillOpen opens closes n l k) : k < l.countP opens := by
  obtain ⟨before, a, inside, rfl, ha, rfl, -⟩ := h
  rw [List.countP_append, List.countP_cons_of_pos ha]
  omega

/-- The innermost open event is the last of those that are open. -/
theorem OpenStack.head?_eq [DecidablePred (OpenAt opens closes l)] (h : OpenStack opens closes l stack) :
    stack.head? = ((List.range (l.countP opens)).filter fun k => OpenAt opens closes l k).getLast? := by
  have hreverse : stack.reverse.Pairwise (· < ·) := List.pairwise_reverse.mpr h.innermost_first
  have heq : stack.reverse = (List.range (l.countP opens)).filter fun k => OpenAt opens closes l k := by
    apply hreverse.eq_of_mem_iff (List.pairwise_lt_range.filter _)
    intro k
    have hlt : OpenAt opens closes l k → k < l.countP opens := fun hk => (stillOpen_zero.mpr hk).lt
    simp only [List.mem_reverse, h.mem_iff, List.mem_filter, List.mem_range, decide_eq_true_eq]
    exact ⟨fun hk => ⟨hlt hk, hk⟩, fun hk => hk.2⟩
  rw [← heq, List.getLast?_reverse]

/-- One more event: the last one itself, or one of the others with the last one inside. -/
theorem stillOpen_concat {n k : Nat} :
    StillOpen opens closes n (l ++ [a]) k ↔
      (opens a = true ∧ k = l.countP opens ∧ n = 0) ∨
      ∃ before b inside, l = before ++ b :: inside ∧ opens b = true ∧ before.countP opens = k ∧
        (∀ p, p <+: inside → p.countP closes ≤ p.countP opens) ∧
        (inside ++ [a]).countP closes + n ≤ (inside ++ [a]).countP opens := by
  constructor
  · rintro ⟨before, b, inside, hl, hb, hk, hinside, hn⟩
    rcases List.eq_nil_or_concat inside with rfl | ⟨inside, c, rfl⟩
    · obtain ⟨rfl, rfl⟩ := List.append_singleton_inj.mp hl
      rw [List.countP_nil, List.countP_nil] at hn
      exact .inl ⟨hb, hk.symm, by omega⟩
    · rw [List.concat_eq_append] at hl hinside hn
      rw [← List.cons_append, ← List.append_assoc] at hl
      obtain ⟨rfl, rfl⟩ := List.append_singleton_inj.mp hl
      exact .inr ⟨before, b, inside, rfl, hb, hk,
        fun p hp => hinside p (hp.trans (List.prefix_append _ _)), hn⟩
  · rintro (⟨ha, rfl, rfl⟩ | ⟨before, b, inside, rfl, hb, hk, hinside, hn⟩)
    · refine ⟨l, a, [], rfl, ha, rfl, ?_, by simp⟩
      intro p hp
      rw [List.prefix_nil.mp hp]
      exact Nat.le_refl _
    · refine ⟨before, b, inside ++ [a], by simp, hb, hk, ?_, hn⟩
      intro p hp
      rcases List.prefix_concat_iff.mp hp with rfl | hp
      · omega
      · exact hinside p hp

theorem openStack_nil : OpenStack opens closes [] [] where
  innermost_first := .nil
  mem_drop_iff n k := by simp [StillOpen]

theorem OpenStack.plain (h : OpenStack opens closes l stack) (ha : opens a = false) (hc : closes a = false) :
    OpenStack opens closes (l ++ [a]) stack where
  innermost_first := h.innermost_first
  mem_drop_iff n k := by
    rw [h.mem_drop_iff, stillOpen_concat]
    simp [StillOpen, ha, hc]

theorem OpenStack.push (h : OpenStack opens closes l stack) (ha : opens a = true) (hc : closes a = false) :
    OpenStack opens closes (l ++ [a]) (l.countP opens :: stack) where
  innermost_first := by
    refine List.pairwise_cons.mpr ⟨?_, h.innermost_first⟩
    intro k hk
    exact ((h.mem_drop_iff 0 k).mp hk).lt
  mem_drop_iff n k := by
    rw [stillOpen_concat]
    cases n with
    | zero =>
      rw [List.drop_zero, List.mem_cons, h.mem_iff]
      refine or_congr ⟨fun hk => ⟨ha, hk, rfl⟩, fun hk => hk.2.1⟩ ?_
      constructor
      · rintro ⟨before, b, inside, rfl, hb, hk, hinside⟩
        have hle := hinside inside List.prefix_rfl
        refine ⟨before, b, inside, rfl, hb, hk, hinside, ?_⟩
        simp [ha, hc]
        omega
      · rintro ⟨before, b, inside, rfl, hb, hk, hinside, -⟩
        exact ⟨before, b, inside, rfl, hb, hk, hinside⟩
    | succ n =>
      rw [List.drop_succ_cons, h.mem_drop_iff]
      simp [StillOpen, ha, hc, ← Nat.add_assoc]

theorem OpenStack.pop {k : Nat} (h : OpenStack opens closes l (k :: stack)) (ha : opens a = false)
    (hc : closes a = true) : OpenStack opens closes (l ++ [a]) stack where
  innermost_first := (List.pairwise_cons.mp h.innermost_first).2
  mem_drop_iff n j := by
    rw [stillOpen_concat, ← List.drop_succ_cons, h.mem_drop_iff]
    simp [StillOpen, ha, hc, Nat.add_assoc, Nat.add_comm 1]

end BleClientHid.Lib

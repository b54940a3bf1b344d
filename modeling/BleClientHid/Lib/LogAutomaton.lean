import Mathlib.Data.List.Basic
import Mathlib.Tactic.Common

/-! # Logs read by an automaton

A partial automaton reads a log entry by entry. What one entry can do to the
state bounds what a whole stretch of the log can hold.
-/

namespace BleClientHid.Lib

variable {σ α : Type} {δ : σ → α → Option σ}

/-- The state after a log, `none` when some entry has no move. -/
def after (δ : σ → α → Option σ) (p : σ) (log : List α) : Option σ := log.foldlM δ p

theorem after_cons (p : σ) (a : α) (log : List α) :
    after δ p (a :: log) = (δ p a).bind (after δ · log) := rfl

theorem after_append (p : σ) (log log' : List α) :
    after δ p (log ++ log') = (after δ p log).bind (after δ · log') := by
  simp only [after, List.foldlM_append]
  rfl

theorem after_cons_eq_some {p q : σ} {a : α} {log : List α} (h : after δ p (a :: log) = some q) :
    ∃ m, δ p a = some m ∧ after δ m log = some q := by
  rw [after_cons, Option.bind_eq_some_iff] at h
  exact h

theorem after_append_eq_some {p q : σ} {log log' : List α} (h : after δ p (log ++ log') = some q) :
    ∃ m, after δ p log = some m ∧ after δ m log' = some q := by
  rw [after_append, Option.bind_eq_some_iff] at h
  exact h

theorem after_of_forall_stay {p : σ} {log : List α} (h : ∀ a ∈ log, δ p a = some p) :
    after δ p log = some p := by
  induction log with
  | nil => rfl
  | cons a log ih =>
    rw [after_cons, h a List.mem_cons_self]
    exact ih fun b hb => h b (List.mem_cons_of_mem a hb)

/-- When every entry of a kind is paid from a potential, the potential bounds how many there are. -/
theorem countP_add_le {potential : σ → Nat} (counts : α → Bool) {allowed : α → Prop}
    (hpay : ∀ p a q, allowed a → δ p a = some q → (counts a).toNat + potential q ≤ potential p)
    {p q : σ} {log : List α} (hlog : ∀ a ∈ log, allowed a) (h : after δ p log = some q) :
    log.countP counts + potential q ≤ potential p := by
  induction log generalizing p with
  | nil =>
    obtain rfl := Option.some.inj h
    simp
  | cons a log ih =>
    obtain ⟨m, hm, hq⟩ := after_cons_eq_some h
    have hhead := hpay p a m (hlog a List.mem_cons_self) hm
    have htail := ih (fun b hb => hlog b (List.mem_cons_of_mem a hb)) hq
    rw [List.countP_cons]
    cases hcounts : counts a <;> simp only [hcounts, Bool.toNat_true, Bool.toNat_false] at hhead ⊢ <;>
      simp only [if_true, if_false, Bool.false_eq_true] <;> omega

/-- States that no allowed entry leaves, and what the entries from them look like. -/
theorem forall_mem_of_closed (stays : σ → Prop) {allowed quiet : α → Prop}
    (hclosed : ∀ p a q, stays p → allowed a → δ p a = some q → stays q ∧ quiet a)
    {p q : σ} {log : List α} (hp : stays p) (hlog : ∀ a ∈ log, allowed a)
    (h : after δ p log = some q) : stays q ∧ ∀ a ∈ log, quiet a := by
  induction log generalizing p with
  | nil =>
    obtain rfl := Option.some.inj h
    exact ⟨hp, by simp⟩
  | cons a log ih =>
    obtain ⟨m, hm, hq⟩ := after_cons_eq_some h
    obtain ⟨hstay, ha⟩ := hclosed p a m hp (hlog a List.mem_cons_self) hm
    obtain ⟨hend, hrest⟩ := ih hstay (fun b hb => hlog b (List.mem_cons_of_mem a hb)) hq
    exact ⟨hend, List.forall_mem_cons.mpr ⟨ha, hrest⟩⟩

end BleClientHid.Lib

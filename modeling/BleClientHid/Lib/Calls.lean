import Mathlib.Tactic.Common

/-! # Calls

An object with a state: every call yields the next state and an answer.
-/

namespace BleClientHid.Lib

variable {σ κ α ι : Type} (step : σ → κ → σ × α)

def stateAfter (s : σ) (calls : List κ) : σ := calls.foldl (fun s call => (step s call).1) s

def transcript : σ → List κ → List (κ × α)
  | _, [] => []
  | s, call :: calls => (call, (step s call).2) :: transcript (step s call).1 calls

def Indistinguishable (s t : σ) : Prop := ∀ calls, transcript step s calls = transcript step t calls

variable {step}

theorem Indistinguishable.of_eq {s t : σ} (h : s = t) : Indistinguishable step s t := by
  intro calls
  rw [h]

theorem stateAfter_induct {I : σ → Prop} (hstep : ∀ s call, I s → I (step s call).1) {s : σ} (hs : I s)
    (calls : List κ) : I (stateAfter step s calls) := by
  induction calls generalizing s with
  | nil => exact hs
  | cons call calls ih => exact ih (hstep s call hs)

/-! ## Streams -/

variable (step) in
/-- The answers to the calls of one stream depend on a part of the state, and the calls of
the other streams leave that part alone. -/
structure Isolated [DecidableEq ι] (stream : κ → ι) (agree : ι → σ → σ → Prop) : Prop where
  own : ∀ s t call, agree (stream call) s t →
    (step s call).2 = (step t call).2 ∧ agree (stream call) (step s call).1 (step t call).1
  other : ∀ k s t call, stream call ≠ k → agree k s t → agree k (step s call).1 t

/-- In any interleaving, a stream is answered as if it were alone. -/
theorem Isolated.transcript_filter [DecidableEq ι] {stream : κ → ι} {agree : ι → σ → σ → Prop}
    (h : Isolated step stream agree) {k : ι} (calls : List κ) {s t : σ} (hst : agree k s t) :
    (transcript step s calls).filter (fun entry => stream entry.1 = k) =
      transcript step t (calls.filter fun call => stream call = k) := by
  induction calls generalizing s t with
  | nil => rfl
  | cons call calls ih =>
    by_cases hk : stream call = k
    · -- a call of the stream is kept, and answered alike
      subst hk
      obtain ⟨hanswer, hnext⟩ := h.own s t call hst
      simp only [transcript, decide_true, List.filter_cons_of_pos, hanswer, ih hnext]
    · -- a call of another one is left out, and `t` does not move
      simp only [transcript, decide_eq_true_eq, hk, not_false_eq_true, List.filter_cons_of_neg]
      exact ih (h.other k s t call hk hst)

theorem Isolated.stateAfter [DecidableEq ι] {stream : κ → ι} {agree : ι → σ → σ → Prop}
    (h : Isolated step stream agree) {k : ι} {calls : List κ} (hcalls : ∀ call ∈ calls, stream call ≠ k) {s t : σ}
    (hst : agree k s t) : agree k (Lib.stateAfter step s calls) t := by
  induction calls generalizing s with
  | nil => exact hst
  | cons call calls ih =>
    obtain ⟨hcall, hrest⟩ := List.forall_mem_cons.mp hcalls
    exact ih hrest (h.other k s t call hcall hst)

end BleClientHid.Lib

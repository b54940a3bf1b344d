import Mathlib.Tactic.Common

/-! # What a run has emitted

A machine whose steps emit, and some of which begin anew.
-/

namespace BleClientHid.Lib

variable {σ ε α β γ : Type} (step : σ → ε → σ) (emit : σ → ε → List α) (renews : ε → Bool)

/-- What was emitted since the last step that begins anew; `past` comes before the events. -/
def historyFrom (s : σ) (past : List α) : List ε → List α
  | [] => past
  | event :: events =>
    historyFrom (step s event) (if renews event then [] else past ++ emit s event) events

def history (s : σ) (events : List ε) : List α := historyFrom step emit renews s [] events

variable {step emit renews}

@[simp]
theorem history_nil (s : σ) : history step emit renews s [] = [] := rfl

theorem historyFrom_concat (s : σ) (past : List α) (events : List ε) (event : ε) :
    historyFrom step emit renews s past (events ++ [event]) =
      if renews event then []
      else historyFrom step emit renews s past events ++ emit (events.foldl step s) event := by
  induction events generalizing s past with
  | nil => rfl
  | cons first events ih => exact ih _ _

theorem history_concat (s : σ) (events : List ε) (event : ε) :
    history step emit renews s (events ++ [event]) =
      if renews event then [] else history step emit renews s events ++ emit (events.foldl step s) event :=
  historyFrom_concat s [] events event

/-- Whatever is in the history was emitted at one of the events. -/
theorem mem_history {s : σ} {events : List ε} {a : α} (h : a ∈ history step emit renews s events) :
    ∃ event ∈ events, ∃ t, a ∈ emit t event := by
  suffices hfrom : ∀ past, a ∈ historyFrom step emit renews s past events →
      a ∈ past ∨ ∃ event ∈ events, ∃ t, a ∈ emit t event from (hfrom [] h).resolve_left List.not_mem_nil
  clear h
  induction events generalizing s with
  | nil => exact fun past hpast => .inl hpast
  | cons event events ih =>
    intro past hpast
    rcases ih _ hpast with hbefore | ⟨later, hlater, t, ht⟩
    · split at hbefore
      · cases hbefore
      · rcases List.mem_append.mp hbefore with hpast | hnow
        · exact .inl hpast
        · exact .inr ⟨event, List.mem_cons_self, s, hnow⟩
    · exact .inr ⟨later, List.mem_cons_of_mem _ hlater, t, ht⟩

/-- Two readings of what is emitted that agree at every step agree on the history. -/
theorem history_filterMap {emit' : σ → ε → List β} {f : α → Option γ} {g : β → Option γ}
    (h : ∀ s event, (emit s event).filterMap f = (emit' s event).filterMap g) (s : σ) (events : List ε) :
    (history step emit renews s events).filterMap f = (history step emit' renews s events).filterMap g := by
  suffices hfrom : ∀ past past', past.filterMap f = past'.filterMap g →
      (historyFrom step emit renews s past events).filterMap f =
        (historyFrom step emit' renews s past' events).filterMap g from hfrom [] [] rfl
  induction events generalizing s with
  | nil => exact fun past past' hpast => hpast
  | cons event events ih =>
    intro past past' hpast
    apply ih
    split
    · rfl
    · rw [List.filterMap_append, List.filterMap_append, hpast, h]

end BleClientHid.Lib

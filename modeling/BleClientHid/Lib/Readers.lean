import BleClientHid.Lib.Blocks
import Mathlib.Logic.Function.Basic

/-! # Readers

A reader keeps a value for each key and moves it with every contribution of the key. A coalesced
stream brings it to the same values, at every barrier and at the end.
-/

namespace BleClientHid.Lib

variable {κ γ β σ ω : Type}

/-! ## Segments -/

/-- The contributions before the first barrier, then every barrier with those behind it. -/
def segments : List (Arrival κ γ β) → List (κ × γ) × List (β × List (κ × γ))
  | [] => ([], [])
  | .contribution k c :: as => ((k, c) :: (segments as).1, (segments as).2)
  | .barrier b :: as => ([], (b, (segments as).1) :: (segments as).2)

def Arrival.barrier? : Arrival κ γ β → Option β
  | .contribution _ _ => none
  | .barrier b => some b

theorem segments_barriers (as : List (Arrival κ γ β)) :
    (segments as).2.map Prod.fst = as.filterMap Arrival.barrier? := by
  induction as with
  | nil => rfl
  | cons a as ih =>
    cases a with
    | contribution k c => exact ih
    | barrier b => exact congrArg (b :: ·) ih

theorem segments_block (b : Block κ γ) (as : List (Arrival κ γ β)) :
    segments ((Emission.block b).arrivals ++ as) =
      (b.contributions.map (b.key, ·) ++ (segments as).1, (segments as).2) := by
  change segments (b.contributions.map (.contribution b.key) ++ as) = _
  induction b.contributions with
  | nil => rfl
  | cons c cs ih =>
    rw [List.map_cons, List.cons_append, segments, ih]
    rfl

variable [DecidableEq κ]

def ofKey (k : κ) (cs : List (κ × γ)) : List (κ × γ) := cs.filter fun c => c.1 = k

theorem segments_filter (k : κ) (as : List (Arrival κ γ β)) :
    segments (as.filter (Arrival.concerns k)) =
      (ofKey k (segments as).1, (segments as).2.map fun segment => (segment.1, ofKey k segment.2)) := by
  induction as with
  | nil => rfl
  | cons a as ih =>
    cases a with
    | contribution key c =>
      by_cases hk : key = k
      · rw [List.filter_cons_of_pos (by simp [Arrival.concerns, hk]), segments, ih]
        simp [segments, ofKey, hk]
      · rw [List.filter_cons_of_neg (by simp [Arrival.concerns, hk]), ih]
        simp [segments, ofKey, hk]
    | barrier b =>
      rw [List.filter_cons_of_pos (by simp [Arrival.concerns]), segments, ih]
      simp [segments, ofKey]

theorem Coalesces.sublist [Nonempty κ] {as : List (Arrival κ γ β)} {es : List (Emission κ γ β)}
    (h : Coalesces as es) {e : Emission κ γ β} (he : e ∈ es) : e.arrivals.Sublist as := by
  obtain ⟨k, hk⟩ : ∃ k, ∀ a ∈ e.arrivals, a.concerns k = true := by
    cases e with
    | block b => exact ⟨b.key, by simp [Emission.arrivals, Arrival.concerns]⟩
    | barrier b => exact ⟨Classical.arbitrary κ, by simp [Emission.arrivals, Arrival.concerns]⟩
  have hflat : e.arrivals.Sublist (es.flatMap Emission.arrivals) :=
    List.sublist_flatten_of_mem (List.mem_map.mpr ⟨e, he, rfl⟩)
  have hfilter := hflat.filter (Arrival.concerns k)
  rw [List.filter_eq_self.mpr hk, h k] at hfilter
  exact hfilter.trans List.filter_sublist

omit [DecidableEq κ] in
theorem Block.last_mem (b : Block κ γ) : b.last ∈ b.contributions := by
  unfold Block.last Block.contributions
  rcases List.eq_nil_or_concat b.rest with hrest | ⟨front, last, hrest⟩
  · rw [hrest]
    exact List.mem_cons_self
  · rw [hrest, List.concat_eq_append, List.getLastD_concat]
    simp

omit [DecidableEq κ] in
theorem Block.first_last (b : Block κ γ) : b.first = b.last ∨ [b.first, b.last].Sublist b.contributions := by
  unfold Block.last Block.contributions
  rcases List.eq_nil_or_concat b.rest with hrest | ⟨front, last, hrest⟩
  · rw [hrest]
    exact .inl rfl
  · rw [hrest, List.concat_eq_append, List.getLastD_concat]
    exact .inr ((List.sublist_append_right front [last]).cons_cons b.first)

/-- A contribution that goes out by itself. -/
def Arrival.alone : Arrival κ γ β → Emission κ γ β
  | .contribution k c => .block { key := k, first := c }
  | .barrier b => .barrier b

omit [DecidableEq κ] in
theorem alone_arrivals (as : List (Arrival κ γ β)) : (as.map Arrival.alone).flatMap Emission.arrivals = as := by
  induction as with
  | nil => rfl
  | cons a as ih =>
    rw [List.map_cons, List.flatMap_cons, ih]
    cases a <;> rfl

theorem coalesces_alone (as : List (Arrival κ γ β)) : Coalesces as (as.map Arrival.alone) := by
  intro k
  rw [alone_arrivals]

/-! ## Following contributions -/

section

variable (act : κ → γ → σ → σ)

def follow (values : κ → σ) (cs : List (κ × γ)) : κ → σ :=
  cs.foldl (fun values c => Function.update values c.1 (act c.1 c.2 (values c.1))) values

/-- The value of a key depends on the contributions of the key alone. -/
theorem follow_key (values : κ → σ) (cs : List (κ × γ)) (k : κ) :
    follow act values cs k = (ofKey k cs).foldl (fun v c => act k c.2 v) (values k) := by
  unfold follow ofKey
  induction cs generalizing values with
  | nil => rfl
  | cons c cs ih =>
    rw [List.foldl_cons, ih]
    by_cases hk : c.1 = k
    · rw [List.filter_cons_of_pos (by simp [hk]), List.foldl_cons]
      subst hk
      rw [Function.update_self]
    · rw [List.filter_cons_of_neg (by simp [hk]), Function.update_of_ne (Ne.symm hk)]

theorem follow_congr {cs cs' : List (κ × γ)} (h : ∀ k, ofKey k cs = ofKey k cs') (values : κ → σ) :
    follow act values cs = follow act values cs' := by
  funext k
  rw [follow_key, follow_key, h k]

theorem follow_block (values : κ → σ) (k : κ) (cs : List γ) :
    follow act values (cs.map (k, ·)) = Function.update values k (cs.foldl (fun v c => act k c v) (values k)) := by
  unfold follow
  induction cs generalizing values with
  | nil => rw [List.map_nil, List.foldl_nil, List.foldl_nil, Function.update_eq_self]
  | cons c cs ih =>
    rw [List.map_cons, List.foldl_cons, ih, Function.update_self, Function.update_idem, List.foldl_cons]

theorem follow_append (values : κ → σ) (cs cs' : List (κ × γ)) :
    follow act values (cs ++ cs') = follow act (follow act values cs) cs' := List.foldl_append

end

/-! ## Two streams -/

/-- The two streams hold these barriers, and lead the reader to the same state before each of them and at the end. -/
inductive SameAtBarriers (read : ω → β → ω) : ω → List β → List β → List β → Prop where
  | last {w : ω} {events events' : List β} (h : events.foldl read w = events'.foldl read w) :
      SameAtBarriers read w [] events events'
  | barrier {w : ω} {b : β} {barriers events events' rest rest' : List β}
      (h : events.foldl read w = events'.foldl read w)
      (hrest : SameAtBarriers read (read (events.foldl read w) b) barriers rest rest') :
      SameAtBarriers read w (b :: barriers) (events ++ b :: rest) (events' ++ b :: rest')

section

variable {act : κ → γ → σ → σ} {read : (κ → σ) → β → (κ → σ)} {Out : Emission κ γ β → β → Prop}

/-- Events behind a barrier that say what the contributions behind it say. -/
def Tells (act : κ → γ → σ → σ) (read : (κ → σ) → β → (κ → σ)) (said : β × List β)
    (segment : β × List (κ × γ)) : Prop :=
  said.1 = segment.1 ∧ ∀ values, said.2.foldl read values = follow act values segment.2

theorem exists_tells (hblock : ∀ b event, Out (.block b) event → ∀ values,
      read values event = follow act values (b.contributions.map (b.key, ·)))
    (hbarrier : ∀ b event, Out (.barrier b) event → event = b) {es : List (Emission κ γ β)} {events : List β}
    (h : List.Forall₂ Out es events) :
    ∃ first rest, events = first ++ rest.flatMap (fun said => said.1 :: said.2) ∧
      (∀ values, first.foldl read values = follow act values (segments (es.flatMap Emission.arrivals)).1) ∧
      List.Forall₂ (Tells act read) rest (segments (es.flatMap Emission.arrivals)).2 := by
  induction h with
  | nil => exact ⟨[], [], rfl, fun _ => rfl, .nil⟩
  | @cons e event es events hhead _ ih =>
    obtain ⟨first, rest, rfl, hfirst, hrest⟩ := ih
    rw [List.flatMap_cons]
    cases e with
    | block b =>
      rw [segments_block]
      refine ⟨event :: first, rest, rfl, ?_, hrest⟩
      intro values
      rw [List.foldl_cons, hblock b event hhead, hfirst, follow_append]
    | barrier b =>
      obtain rfl := hbarrier b event hhead
      exact ⟨[], (event, first) :: rest, rfl, fun _ => rfl, .cons ⟨rfl, hfirst⟩ hrest⟩

/-- The same barriers, with the same contributions of each key behind them. -/
theorem segments_alike [Nonempty κ] {r r' : List (β × List (κ × γ))}
    (h : ∀ k, r.map (fun segment => (segment.1, ofKey k segment.2)) =
      r'.map fun segment => (segment.1, ofKey k segment.2)) :
    List.Forall₂ (fun segment segment' => segment.1 = segment'.1 ∧ ∀ k, ofKey k segment.2 = ofKey k segment'.2)
      r r' := by
  induction r generalizing r' with
  | nil =>
    have hnil := h (Classical.arbitrary κ)
    rw [List.map_nil, eq_comm, List.map_eq_nil_iff] at hnil
    rw [hnil]
    exact .nil
  | cons segment r ih =>
    cases r' with
    | nil => exact absurd (h (Classical.arbitrary κ)) (List.cons_ne_nil _ _)
    | cons segment' r' =>
      have hcons := fun k => List.cons.inj (h k)
      exact .cons ⟨(Prod.mk.inj (hcons (Classical.arbitrary κ)).1).1, fun k => (Prod.mk.inj (hcons k).1).2⟩
        (ih fun k => (hcons k).2)

theorem sameAtBarriers_of_tells {first first' : List β} {cs cs' : List (κ × γ)} {rest rest' : List (β × List β)}
    {r r' : List (β × List (κ × γ))} {values : κ → σ}
    (hfirst : ∀ values, first.foldl read values = follow act values cs)
    (hfirst' : ∀ values, first'.foldl read values = follow act values cs') (hkeys : ∀ k, ofKey k cs = ofKey k cs')
    (hrest : List.Forall₂ (Tells act read) rest r) (hrest' : List.Forall₂ (Tells act read) rest' r')
    (halike : List.Forall₂
      (fun segment segment' => segment.1 = segment'.1 ∧ ∀ k, ofKey k segment.2 = ofKey k segment'.2) r r') :
    SameAtBarriers read values (r.map Prod.fst) (first ++ rest.flatMap fun said => said.1 :: said.2)
      (first' ++ rest'.flatMap fun said => said.1 :: said.2) := by
  induction halike generalizing first first' cs cs' rest rest' values with
  | nil =>
    obtain rfl := List.forall₂_nil_right_iff.mp hrest
    obtain rfl := List.forall₂_nil_right_iff.mp hrest'
    refine .last ?_
    rw [List.flatMap_nil, List.append_nil, List.append_nil, hfirst, hfirst', follow_congr act hkeys]
  | @cons segment segment' r r' hhead _ ih =>
    obtain ⟨hsame, hbehind⟩ := hhead
    cases hrest with
    | @cons said _ rest _ htold htail =>
      cases hrest' with
      | @cons said' _ rest' _ htold' htail' =>
        obtain ⟨hbarrier, hsaid⟩ := htold
        obtain ⟨hbarrier', hsaid'⟩ := htold'
        rw [List.flatMap_cons, List.flatMap_cons, List.map_cons, List.cons_append, List.cons_append, hbarrier,
          hbarrier', ← hsame]
        refine .barrier ?_ (ih hsaid hsaid' hbehind htail htail')
        rw [hfirst, hfirst', follow_congr act hkeys]

/-- Two streams that account for the same arrivals cannot be told apart at the barriers. -/
theorem Coalesces.sameAtBarriers [Nonempty κ] (hblock : ∀ b event, Out (.block b) event → ∀ values,
      read values event = follow act values (b.contributions.map (b.key, ·)))
    (hbarrier : ∀ b event, Out (.barrier b) event → event = b) {as : List (Arrival κ γ β)}
    {es es' : List (Emission κ γ β)} {events events' : List β} (h : Coalesces as es) (h' : Coalesces as es')
    (hout : List.Forall₂ Out es events) (hout' : List.Forall₂ Out es' events') (values : κ → σ) :
    SameAtBarriers read values (as.filterMap Arrival.barrier?) events events' := by
  obtain ⟨first, rest, rfl, hfirst, hrest⟩ := exists_tells hblock hbarrier hout
  obtain ⟨first', rest', rfl, hfirst', hrest'⟩ := exists_tells hblock hbarrier hout'
  have hsegments {es : List (Emission κ γ β)} (h : Coalesces as es) (k : κ) :
      (ofKey k (segments (es.flatMap Emission.arrivals)).1,
        (segments (es.flatMap Emission.arrivals)).2.map fun segment => (segment.1, ofKey k segment.2)) =
      (ofKey k (segments as).1, (segments as).2.map fun segment => (segment.1, ofKey k segment.2)) := by
    rw [← segments_filter, ← segments_filter, h k]
  have hboth (k : κ) := Prod.mk.inj ((hsegments h k).trans (hsegments h' k).symm)
  have hbarriers : as.filterMap Arrival.barrier? =
      (segments (es.flatMap Emission.arrivals)).2.map Prod.fst := by
    have hmap := congrArg (List.map Prod.fst) (Prod.mk.inj (hsegments h (Classical.arbitrary κ))).2
    rw [List.map_map, List.map_map] at hmap
    rw [← segments_barriers]
    exact hmap.symm
  rw [hbarriers]
  exact sameAtBarriers_of_tells hfirst hfirst' (fun k => (hboth k).1) hrest hrest'
    (segments_alike fun k => (hboth k).2)

end

end BleClientHid.Lib

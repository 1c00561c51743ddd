/-
  Runs of a system that takes one event after the other.

  1. **Visits** — `visits step s es`: the steps of a run, each event with the state it finds.
  2. **Rules** — what a step keeps holds at every visit (`visits_inv`); and a property of the steps
     holds all through exactly if a condition on the steps does (`forall_visits_iff`), when the two
     agree wherever an invariant holds and the invariant outlives every step that meets the
     condition.  The second rule is for systems that go wrong: after a step that does not meet the
     condition nothing has to hold.
  3. **Clocks** — what holds up to a limit of the time that events take (`foldl_clock`).
-/
import Mathlib.Algebra.Ring.Int.Defs
import Mathlib.Logic.Basic

namespace Runs

variable {σ ε : Type*} (step : σ → ε → σ)

/-! ## Visits -/

/-- The steps of the run of `es` from `s`: each event with the state it finds. -/
def visits (s : σ) : List ε → List (σ × ε)
  | [] => []
  | e :: es => (s, e) :: visits (step s e) es

@[simp] theorem visits_cons (s : σ) (e : ε) (es : List ε) :
    visits step s (e :: es) = (s, e) :: visits step (step s e) es := rfl

/-- The visits of a run are the prefixes of its events. -/
theorem mem_visits_iff {s : σ} {es : List ε} {v : σ × ε} :
    v ∈ visits step s es ↔ ∃ before after, es = before ++ v.2 :: after ∧ v.1 = before.foldl step s := by
  induction es generalizing s with
  | nil =>
    constructor
    · intro h; cases h
    · rintro ⟨before, after, h, -⟩
      cases before <;> cases h
  | cons e es ih =>
    rw [visits_cons, List.mem_cons, ih]
    constructor
    · rintro (rfl | ⟨before, after, rfl, hv⟩)
      · exact ⟨[], es, rfl, rfl⟩
      · exact ⟨e :: before, after, rfl, hv⟩
    · rintro ⟨before, after, h, hv⟩
      cases before with
      | nil =>
        obtain ⟨rfl, rfl⟩ := List.cons.inj h
        exact Or.inl (Prod.ext hv rfl)
      | cons b before =>
        obtain ⟨rfl, rfl⟩ := List.cons.inj h
        exact Or.inr ⟨before, after, rfl, hv⟩

/-! ## Rules -/

variable {step}

/-- **The invariant rule**: what every event of a run keeps holds in every state it visits. -/
theorem visits_inv (Inv : σ → Prop) {es : List ε} (hstep : ∀ s, ∀ e ∈ es, Inv s → Inv (step s e))
    {s : σ} (hs : Inv s) : ∀ v ∈ visits step s es, Inv v.1 := by
  induction es generalizing s with
  | nil => intro v hv; cases hv
  | cons e es ih =>
    intro v hv
    rcases List.mem_cons.mp hv with rfl | hv
    · exact hs
    · have hrest : ∀ t, ∀ e' ∈ es, Inv t → Inv (step t e') :=
        fun t e' he' => hstep t e' (List.mem_cons_of_mem e he')
      exact ih hrest (hstep s e List.mem_cons_self hs) v hv

/-- The invariant rule, where the steps are assumed to meet `H`. -/
theorem visits_inv_of (Inv : σ → Prop) (H : σ → ε → Prop)
    (hstep : ∀ s e, Inv s → H s e → Inv (step s e)) {s : σ} (hs : Inv s) (es : List ε)
    (hH : ∀ v ∈ visits step s es, H v.1 v.2) : ∀ v ∈ visits step s es, Inv v.1 := by
  induction es generalizing s with
  | nil => intro v hv; cases hv
  | cons e es ih =>
    rw [visits_cons, List.forall_mem_cons] at hH
    rw [visits_cons, List.forall_mem_cons]
    exact ⟨hs, ih (hstep s e hs hH.1) hH.2⟩

/-- What the invariant rule says of the state a run ends in. -/
theorem foldl_inv_of (Inv : σ → Prop) (H : σ → ε → Prop)
    (hstep : ∀ s e, Inv s → H s e → Inv (step s e)) {s : σ} (hs : Inv s) (es : List ε)
    (hH : ∀ v ∈ visits step s es, H v.1 v.2) : Inv (es.foldl step s) := by
  induction es generalizing s with
  | nil => exact hs
  | cons e es ih =>
    rw [visits_cons, List.forall_mem_cons] at hH
    exact ih (hstep s e hs hH.1) hH.2

/-- **The rule for systems that go wrong.**  `Q` is the condition on a step, `P` what it is to
    bring; `H` is assumed of every step.  The invariant is only kept by steps that meet `Q`, so the
    induction carries it as far as the run is good on either side. -/
theorem forall_visits_iff (Inv : σ → Prop) (H : σ → ε → Prop) {P Q : σ → ε → Prop}
    (hiff : ∀ s e, Inv s → H s e → (P s e ↔ Q s e))
    (hinv : ∀ s e, Inv s → H s e → Q s e → Inv (step s e)) {s : σ} (hs : Inv s) (es : List ε)
    (hH : ∀ v ∈ visits step s es, H v.1 v.2) :
    (∀ v ∈ visits step s es, P v.1 v.2) ↔ ∀ v ∈ visits step s es, Q v.1 v.2 := by
  induction es generalizing s with
  | nil =>
    constructor
    · intro _ v hv; cases hv
    · intro _ v hv; cases hv
  | cons e es ih =>
    rw [visits_cons] at hH ⊢
    rw [List.forall_mem_cons] at hH
    rw [List.forall_mem_cons, List.forall_mem_cons]
    have hhead : P s e ↔ Q s e := hiff s e hs hH.1
    constructor
    · rintro ⟨hp, hrest⟩
      have hq := hhead.mp hp
      exact ⟨hq, (ih (hinv s e hs hH.1 hq) hH.2).mp hrest⟩
    · rintro ⟨hq, hrest⟩
      exact ⟨hhead.mpr hq, (ih (hinv s e hs hH.1 hq) hH.2).mpr hrest⟩

/-! ## Clocks -/

/-- The time that events take. -/
def elapsed (time : ε → Int) (es : List ε) : Int := (es.map time).sum

theorem elapsed_nonneg {time : ε → Int} {es : List ε} (h : ∀ e ∈ es, 0 ≤ time e) :
    0 ≤ elapsed time es := by
  induction es with
  | nil => exact Int.le_refl 0
  | cons e es ih =>
    rw [List.forall_mem_cons] at h
    have hrest := ih h.2
    rw [elapsed] at hrest
    rw [elapsed, List.map_cons, List.sum_cons]
    have hfirst := h.1
    omega

/-- **The rule for clocks**: what a step keeps, with its clock put forward, as long as the limit is
    not passed, holds after any run that does not pass it. -/
theorem foldl_clock (At : Int → σ → Prop) (H : σ → ε → Prop) {time : ε → Int} {limit : Int}
    (hstep : ∀ s e t, At t s → H s e → t + time e ≤ limit → At (t + time e) (step s e))
    {s : σ} {t : Int} (hs : At t s) (es : List ε) (htime : ∀ e ∈ es, 0 ≤ time e)
    (hH : ∀ v ∈ visits step s es, H v.1 v.2) (hlimit : t + elapsed time es ≤ limit) :
    At (t + elapsed time es) (es.foldl step s) := by
  induction es generalizing s t with
  | nil =>
    show At (t + 0) s
    rw [Int.add_zero]
    exact hs
  | cons e es ih =>
    rw [visits_cons, List.forall_mem_cons] at hH
    rw [List.forall_mem_cons] at htime
    have hsum : t + elapsed time (e :: es) = t + time e + elapsed time es := by
      rw [elapsed, List.map_cons, List.sum_cons, ← Int.add_assoc]
      rfl
    have hrest := elapsed_nonneg htime.2
    rw [hsum] at hlimit ⊢
    exact ih (hstep s e t hs hH.1 (by omega)) htime.2 hH.2 hlimit

end Runs

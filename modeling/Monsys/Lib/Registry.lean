/-
  A registry of parties under keys, filled when a party enters and emptied when it leaves.

  A party enters once, under a key of its own choice, and over whoever is there; when it leaves, the
  entry of its key is taken out, whosever it is.

  1. **The registry** — the table, what each party has entered as, who is gone; and the history:
     who has entered last under each key.
  2. **What always holds** — `Sound`: an entry is the last one to enter, and is not gone.
  3. **What may go wrong** — `Current`: the last to enter under a key is in the table as long as it
     stays.  Entering and expiring keep it; leaving keeps it exactly if the party is not
     `Overtaken` (`current_leave_iff`).
-/
import Mathlib.Logic.Function.Basic

/-- Parties `ι` under keys `κ`. -/
@[ext] structure Registry (κ ι : Type*) where
  entry : κ → Option ι
  key : ι → Option κ
  gone : ι → Bool
  latest : κ → Option ι

namespace Registry

variable {κ ι : Type*} [DecidableEq κ] [DecidableEq ι]

/-- The party `i` enters under the key `k`. -/
def enter (r : Registry κ ι) (k : κ) (i : ι) : Registry κ ι where
  entry := Function.update r.entry k (some i)
  key := Function.update r.key i (some k)
  gone := r.gone
  latest := Function.update r.latest k (some i)

/-- The party `i` leaves. -/
def leave (r : Registry κ ι) (i : ι) : Registry κ ι where
  entry := fun k => if r.key i = some k then none else r.entry k
  key := r.key
  gone := Function.update r.gone i true
  latest := r.latest

/-- All parties of whom `p` holds are gone, and out of the table. -/
def expire (r : Registry κ ι) (p : ι → Bool) : Registry κ ι where
  entry := fun k => (r.entry k).filter fun i => !p i
  key := r.key
  gone := fun i => r.gone i || p i
  latest := r.latest

/-! ## What always holds -/

structure Sound (r : Registry κ ι) : Prop where
  key_of_latest : ∀ k i, r.latest k = some i → r.key i = some k
  latest_of_entry : ∀ k i, r.entry k = some i → r.latest k = some i
  open_of_entry : ∀ k i, r.entry k = some i → r.gone i = false

variable {r : Registry κ ι}

theorem Sound.enter (h : r.Sound) (k : κ) {i : ι} (hkey : r.key i = none) (hi : r.gone i = false) :
    (r.enter k i).Sound where
  key_of_latest := by
    intro j m hm
    change Function.update r.latest k (some i) j = some m at hm
    show Function.update r.key i (some k) m = some j
    rw [Function.update_apply] at hm ⊢
    split at hm
    · next hj =>
      rw [if_pos (Option.some.inj hm).symm, hj]
    · have hmj := h.key_of_latest j m hm
      rw [if_neg, hmj]
      rintro rfl
      rw [hkey] at hmj
      cases hmj
  latest_of_entry := by
    intro j m hm
    change Function.update r.entry k (some i) j = some m at hm
    show Function.update r.latest k (some i) j = some m
    rw [Function.update_apply] at hm ⊢
    split at hm
    · next hj => rw [if_pos hj, hm]
    · next hj =>
      rw [if_neg hj]
      exact h.latest_of_entry j m hm
  open_of_entry := by
    intro j m hm
    change Function.update r.entry k (some i) j = some m at hm
    rw [Function.update_apply] at hm
    split at hm
    · rw [← Option.some.inj hm]
      exact hi
    · exact h.open_of_entry j m hm

omit [DecidableEq κ] [DecidableEq ι] in
theorem Sound.key_of_entry (h : r.Sound) {k : κ} {i : ι} (hi : r.entry k = some i) :
    r.key i = some k :=
  h.key_of_latest k i (h.latest_of_entry k i hi)

theorem Sound.leave (h : r.Sound) (i : ι) : (r.leave i).Sound where
  key_of_latest := h.key_of_latest
  latest_of_entry := by
    intro k j hj
    change (if r.key i = some k then none else r.entry k) = some j at hj
    split at hj
    · cases hj
    · exact h.latest_of_entry k j hj
  open_of_entry := by
    intro k j hj
    change (if r.key i = some k then none else r.entry k) = some j at hj
    split at hj
    · cases hj
    · next hne =>
      -- whoever is left in the table had entered under another key
      have hother : j ≠ i := by
        rintro rfl
        exact hne (h.key_of_entry hj)
      exact (Function.update_of_ne hother _ _).trans (h.open_of_entry k j hj)

/-! ## What may go wrong -/

/-- Whoever has entered last under a key and is not gone is in the table. -/
def Current (r : Registry κ ι) : Prop :=
  ∀ k i, r.latest k = some i → r.gone i = false → r.entry k = some i

/-- Somebody else has entered under the key of `i` since, and is not gone. -/
def Overtaken (r : Registry κ ι) (i : ι) : Prop :=
  ∃ k j, r.key i = some k ∧ r.latest k = some j ∧ j ≠ i ∧ r.gone j = false

theorem Current.enter (h : r.Current) (k : κ) (i : ι) : (r.enter k i).Current := by
  intro j m hm hopen
  change Function.update r.latest k (some i) j = some m at hm
  show Function.update r.entry k (some i) j = some m
  rw [Function.update_apply] at hm ⊢
  split at hm
  · next hj => rw [if_pos hj, hm]
  · next hj =>
    rw [if_neg hj]
    exact h j m hm hopen

omit [DecidableEq κ] [DecidableEq ι] in
/-- Whoever expires is taken out of the table as who he is, and nobody else with him. -/
theorem Current.expire (h : r.Current) (p : ι → Bool) : (r.expire p).Current := by
  intro k i hlatest hopen
  change (r.gone i || p i) = false at hopen
  rw [Bool.or_eq_false_iff] at hopen
  show (r.entry k).filter _ = some i
  rw [h k i hlatest hopen.1, Option.filter_some, hopen.2]
  rfl

/-- **Leaving keeps the table current exactly if the party is not overtaken.** -/
theorem current_leave_iff (h : r.Current) (i : ι) : (r.leave i).Current ↔ ¬ r.Overtaken i := by
  constructor
  · rintro hcur ⟨k, j, hkey, hlatest, hne, hopen⟩
    have hentry : (if r.key i = some k then none else r.entry k) = some j :=
      hcur k j hlatest ((Function.update_of_ne hne _ _).trans hopen)
    rw [if_pos hkey] at hentry
    cases hentry
  · intro hover k j hlatest hopen
    change Function.update r.gone i true j = false at hopen
    have hne : j ≠ i := by
      rintro rfl
      rw [Function.update_self] at hopen
      cases hopen
    rw [Function.update_of_ne hne] at hopen
    show (if r.key i = some k then none else r.entry k) = some j
    rw [if_neg fun hkey => hover ⟨k, j, hkey, hlatest, hne, hopen⟩]
    exact h k j hlatest hopen

end Registry

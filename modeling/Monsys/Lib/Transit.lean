/-
  Letters under way.

  What parties have sent each other lies at places, in one row for all of them, the oldest first.
  The first letter at a place can be picked up; who picks one up may send one on.  A letter may
  carry a tag, which goes over from the letter that was picked up to the one that is sent for it.

  1. **Picking up** — `pick`: the letter is one that was meant, and the others are still there
     (`perm_of_pick`).
  2. **Tags** — `Apart`: no two letters carry the same tag.  It stays so when one is picked up
     (`Apart.picked`), and when one with a new tag is sent (`Apart.send`).
-/
import Mathlib.Data.List.Nodup
import Mathlib.Data.List.Perm.Basic

/-- Letters `μ` at places `π`, the oldest first. -/
abbrev Transit (π μ : Type*) := List (π × μ)

namespace Transit

variable {π μ τ : Type*}

/-! ## Picking up -/

/-- The first letter that is meant, and what is under way without it. -/
def pick (meant : π × μ → Bool) (t : Transit π μ) : Option ((π × μ) × Transit π μ) :=
  (t.find? meant).map fun l => (l, t.eraseP meant)

variable {meant : π × μ → Bool} {t rest : Transit π μ} {l : π × μ}

theorem meant_of_pick (h : t.pick meant = some (l, rest)) : meant l = true := by
  obtain ⟨l', hl, heq⟩ := Option.map_eq_some_iff.mp h
  obtain ⟨rfl, -⟩ := Prod.mk.inj heq
  exact List.find?_some hl

/-- What was under way is the letter, and what is under way without it. -/
theorem perm_of_pick (h : t.pick meant = some (l, rest)) : t.Perm (l :: rest) := by
  obtain ⟨l', hl, heq⟩ := Option.map_eq_some_iff.mp h
  obtain ⟨rfl, rfl⟩ := Prod.mk.inj heq
  obtain ⟨hmeant, before, after, rfl, hbefore⟩ := List.find?_eq_some_iff_append.mp hl
  have hskip : ∀ q ∈ before, ¬ meant q = true := fun q hq => by simpa using hbefore q hq
  rw [List.eraseP_append_right _ hskip, List.eraseP_cons_of_pos hmeant]
  exact List.perm_middle

theorem mem_of_pick (h : t.pick meant = some (l, rest)) : l ∈ t :=
  (perm_of_pick h).mem_iff.mpr List.mem_cons_self

theorem mem_of_mem_rest (h : t.pick meant = some (l, rest)) {q : π × μ} (hq : q ∈ rest) : q ∈ t :=
  (perm_of_pick h).mem_iff.mpr (List.mem_cons_of_mem l hq)

/-! ## Tags -/

variable {tag : μ → Option τ}

/-- No two letters carry the same tag. -/
def Apart (tag : μ → Option τ) (t : Transit π μ) : Prop := (t.filterMap fun l => tag l.2).Nodup

theorem apart_nil : Apart tag ([] : Transit π μ) := List.nodup_nil

theorem Apart.perm {t' : Transit π μ} (h : Apart tag t) (hp : t.Perm t') : Apart tag t' :=
  (List.Perm.nodup_iff (hp.filterMap _)).mp h

theorem Apart.sublist {t' : Transit π μ} (h : Apart tag t) (hs : t'.Sublist t) : Apart tag t' :=
  List.Nodup.sublist (hs.filterMap _) h

theorem apart_cons {l : π × μ} {t : Transit π μ} :
    Apart tag (l :: t) ↔ (∀ x, tag l.2 = some x → ∀ q ∈ t, tag q.2 ≠ some x) ∧ Apart tag t := by
  rw [Apart, List.filterMap_cons]
  cases hl : tag l.2 with
  | none =>
    constructor
    · intro h
      refine ⟨fun _ hx => ?_, h⟩
      cases hx
    · exact fun h => h.2
  | some x =>
    rw [List.nodup_cons, List.mem_filterMap]
    constructor
    · rintro ⟨hfree, h⟩
      refine ⟨fun y hy q hq htag => ?_, h⟩
      cases hy
      exact hfree ⟨q, hq, htag⟩
    · rintro ⟨hfree, h⟩
      refine ⟨?_, h⟩
      rintro ⟨q, hq, htag⟩
      exact hfree x rfl q hq htag

/-- **A letter with a tag that is not under way.** -/
theorem Apart.send (h : Apart tag t) (hnew : ∀ x, tag l.2 = some x → ∀ q ∈ t, tag q.2 ≠ some x) :
    Apart tag (t ++ [l]) :=
  (apart_cons.mpr ⟨hnew, h⟩).perm (List.perm_append_singleton l t).symm

/-- The letter that was picked up had its tag for itself. -/
theorem Apart.picked (h : Apart tag t) (hpick : t.pick meant = some (l, rest)) :
    (∀ x, tag l.2 = some x → ∀ q ∈ rest, tag q.2 ≠ some x) ∧ Apart tag rest :=
  apart_cons.mp (h.perm (perm_of_pick hpick))

end Transit

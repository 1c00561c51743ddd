/-
  Where one list occurs in another.

  1. **Occurrences** — `OccursAt xs ys i`: `ys` stands in `xs`, from the position `i` on.
  2. **The first one** — `FirstAt`; and `Answers`, what a search for it is to return: the position, or
     -1 if there is none.
  3. **Behind a first element** — how the occurrences in `x :: xs` are those in `xs`.
-/
import Mathlib.Data.List.Basic
import Mathlib.Data.Nat.Find
import Mathlib.Algebra.Ring.Int.Defs
import Mathlib.Algebra.Ring.Nat

namespace Occurrence

variable {α : Type*} {xs ys : List α} {i j : Nat}

/-! ## Occurrences -/

/-- `ys` stands in `xs` from `i` on. -/
def OccursAt (xs ys : List α) (i : Nat) : Prop :=
  ∃ before behind, xs = before ++ (ys ++ behind) ∧ before.length = i

theorem OccursAt.add_le (h : OccursAt xs ys i) : i + ys.length ≤ xs.length := by
  obtain ⟨before, behind, rfl, rfl⟩ := h
  simp only [List.length_append]
  omega

/-- As a comparison finds it. -/
theorem occursAt_iff_take (hle : i + ys.length ≤ xs.length) :
    OccursAt xs ys i ↔ (xs.drop i).take ys.length = ys := by
  constructor
  · rintro ⟨before, behind, rfl, rfl⟩
    rw [List.drop_left, List.take_left]
  · intro htake
    refine ⟨xs.take i, (xs.drop i).drop ys.length, ?_, ?_⟩
    · have hrest := List.take_append_drop ys.length (xs.drop i)
      rw [htake] at hrest
      rw [hrest, List.take_append_drop]
    · rw [List.length_take]
      omega

theorem occursAt_nil (hle : i ≤ xs.length) : OccursAt xs [] i := by
  refine ⟨xs.take i, xs.drop i, ?_, ?_⟩
  · rw [List.nil_append, List.take_append_drop]
  · rw [List.length_take]
    omega

/-! ## The first one -/

def FirstAt (xs ys : List α) (i : Nat) : Prop := OccursAt xs ys i ∧ ∀ j < i, ¬ OccursAt xs ys j

theorem FirstAt.unique (h : FirstAt xs ys i) (h' : FirstAt xs ys j) : i = j := by
  rcases Nat.lt_trichotomy i j with hlt | heq | hlt
  · exact absurd h.1 (h'.2 i hlt)
  · exact heq
  · exact absurd h'.1 (h.2 j hlt)

/-- Where there is an occurrence, there is a first one. -/
theorem OccursAt.exists_first (h : OccursAt xs ys i) : ∃ j, j ≤ i ∧ FirstAt xs ys j := by
  classical
  have hsome : ∃ j, OccursAt xs ys j := ⟨i, h⟩
  exact ⟨Nat.find hsome, Nat.find_min' hsome h, Nat.find_spec hsome, fun _ => Nat.find_min hsome⟩

/-- The answer to a search: the position of the first occurrence, or -1. -/
def Answers (xs ys : List α) (r : Int) : Prop :=
  (∃ i : Nat, FirstAt xs ys i ∧ r = i) ∨ ((∀ i, ¬ OccursAt xs ys i) ∧ r = -1)

theorem FirstAt.answers_iff (h : FirstAt xs ys i) (r : Int) : Answers xs ys r ↔ r = i := by
  constructor
  · rintro (⟨j, hj, rfl⟩ | ⟨hnone, -⟩)
    · rw [hj.unique h]
    · exact absurd h.1 (hnone i)
  · exact fun hr => Or.inl ⟨i, h, hr⟩

theorem answers_none_iff (h : ∀ i, ¬ OccursAt xs ys i) (r : Int) : Answers xs ys r ↔ r = -1 := by
  constructor
  · rintro (⟨j, hj, -⟩ | ⟨-, hr⟩)
    · exact absurd hj.1 (h j)
    · exact hr
  · exact fun hr => Or.inr ⟨h, hr⟩

/-- There is a first occurrence, or none at all. -/
theorem first_or_none (xs ys : List α) : (∃ i, FirstAt xs ys i) ∨ ∀ i, ¬ OccursAt xs ys i := by
  by_cases h : ∃ i, OccursAt xs ys i
  · obtain ⟨i, hi⟩ := h
    obtain ⟨j, -, hj⟩ := hi.exists_first
    exact Or.inl ⟨j, hj⟩
  · exact Or.inr fun i hi => h ⟨i, hi⟩

/-! ## Behind a first element -/

/-- An occurrence begins with the first element of what occurs. -/
theorem OccursAt.getElem? {y : α} (h : OccursAt xs (y :: ys) i) : xs[i]? = some y := by
  obtain ⟨before, behind, rfl, rfl⟩ := h
  rw [List.getElem?_append_right (Nat.le_refl _), Nat.sub_self]
  rfl

/-- As long as the first element is not met, nothing occurs. -/
theorem not_occursAt_of_lt {y : α} {before behind : List α} (h : y ∉ before)
    (hi : i < before.length) : ¬ OccursAt (before ++ behind) (y :: ys) i := by
  intro hocc
  have hget := hocc.getElem?
  rw [List.getElem?_append_left hi] at hget
  exact h (List.mem_of_getElem? hget)

theorem occursAt_length_iff {before behind : List α} :
    OccursAt (before ++ behind) ys before.length ↔ ys <+: behind := by
  constructor
  · rintro ⟨before', behind', hsplit, hlen⟩
    obtain ⟨-, rfl⟩ := List.append_inj hsplit hlen.symm
    exact List.prefix_append _ _
  · rintro ⟨rest, rfl⟩
    exact ⟨before, rest, rfl, rfl⟩

/-- The first element is met, and there it is. -/
theorem firstAt_of_prefix {y : α} {before behind : List α} (h : y ∉ before)
    (hpre : y :: ys <+: behind) : FirstAt (before ++ behind) (y :: ys) before.length :=
  ⟨occursAt_length_iff.mpr hpre, fun _ hi => not_occursAt_of_lt h hi⟩

theorem not_occursAt_of_not_mem {y : α} (h : y ∉ xs) (i : Nat) : ¬ OccursAt xs (y :: ys) i :=
  fun hocc => h (List.mem_of_getElem? hocc.getElem?)

end Occurrence

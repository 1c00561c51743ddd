/-
  Fields with separators between them.

  1. **Joined** — a row of fields, and that it is split into these again (`splitOn_joined`).
  2. **Trimmed** — splitting without the empty fields at the end.  So many fields are left as there
     are separators in front of the last element that is none, and one more (`length_trimmed`).
-/
import Mathlib.Data.List.DropRight

namespace Separated

variable {α : Type*}

/-! ## Joined -/

/-- The first field, and the others with a separator in front of each. -/
def joined (sep : α) (x : List α) (xs : List (List α)) : List α := x ++ xs.flatMap (sep :: ·)

theorem joined_cons (sep : α) (x y : List α) (xs : List (List α)) :
    joined sep x (y :: xs) = x ++ sep :: joined sep y xs := by
  rw [joined, List.flatMap_cons]
  rfl

/-- What has no separator is its own last field; anything else has one behind a separator. -/
theorem last_field (sep : α) (xs : List α) :
    sep ∉ xs ∨ ∃ front last, xs = front ++ sep :: last ∧ sep ∉ last := by
  induction xs with
  | nil => exact Or.inl List.not_mem_nil
  | cons x xs ih =>
    rcases ih with hnone | ⟨front, last, rfl, hlast⟩
    · by_cases hx : sep = x
      · exact Or.inr ⟨[], xs, by rw [hx, List.nil_append], hnone⟩
      · refine Or.inl fun hmem => ?_
        rcases List.mem_cons.mp hmem with heq | hmem
        · exact hx heq
        · exact hnone hmem
    · exact Or.inr ⟨x :: front, last, rfl, hlast⟩

theorem length_splitOn [BEq α] (sep : α) (xs : List α) :
    (xs.splitOn sep).length = xs.count sep + 1 := by
  induction xs with
  | nil => rfl
  | cons x xs ih =>
    rw [List.splitOn_cons_eq_if_modifyHead, List.count_cons]
    by_cases hx : (x == sep) = true
    · rw [if_pos hx, if_pos hx, List.length_cons, ih]
    · rw [if_neg hx, if_neg hx, List.length_modifyHead, ih]

variable [BEq α] [LawfulBEq α] {sep c : α} {xs : List α}

theorem splitOn_joined {x : List α} {ys : List (List α)} (hx : sep ∉ x) (hys : ∀ y ∈ ys, sep ∉ y) :
    (joined sep x ys).splitOn sep = x :: ys := by
  induction ys generalizing x with
  | nil =>
    rw [joined, List.flatMap_nil, List.append_nil]
    exact List.splitOn_eq_singleton hx
  | cons y ys ih =>
    rw [List.forall_mem_cons] at hys
    rw [joined_cons, List.splitOn_append_cons_self_of_not_mem hx, ih hys.1 hys.2]

/-! ## Trimmed -/

/-- The fields, without the empty ones at the end. -/
def trimmed (sep : α) (xs : List α) : List (List α) := (xs.splitOn sep).rdropWhile List.isEmpty

theorem trimmed_concat_sep (sep : α) (xs : List α) :
    trimmed sep (xs ++ [sep]) = trimmed sep xs := by
  have hsplit : (xs ++ [sep]).splitOn sep = xs.splitOn sep ++ [[]] :=
    List.splitOn_append_cons_self xs []
  rw [trimmed, hsplit, List.rdropWhile_concat_pos _ _ _ rfl]
  rfl

/-- Behind what is no separator there is no empty field. -/
theorem trimmed_concat (hc : c ≠ sep) (xs : List α) :
    trimmed sep (xs ++ [c]) = (xs ++ [c]).splitOn sep := by
  have hend : ∀ last : List α, ¬ (last ++ [c]).isEmpty = true := by
    intro last hempty
    have hsome := List.append_ne_nil_of_right_ne_nil last (List.cons_ne_nil c [])
    exact hsome (List.isEmpty_iff.mp hempty)
  have hfield : ∀ last : List α, sep ∉ last → (last ++ [c]).splitOn sep = [last ++ [c]] := by
    intro last hlast
    refine List.splitOn_eq_singleton fun hmem => ?_
    rcases List.mem_append.mp hmem with hmem | hmem
    · exact hlast hmem
    · exact hc (List.mem_singleton.mp hmem).symm
  -- the last field is the one that the element is in
  rw [trimmed]
  rcases last_field sep xs with hnone | ⟨front, last, rfl, hlast⟩
  · rw [hfield xs hnone]
    exact List.rdropWhile_concat_neg _ [] _ (hend xs)
  · rw [List.append_assoc, List.cons_append, List.splitOn_append_cons_self, hfield last hlast]
    exact List.rdropWhile_concat_neg _ _ _ (hend last)

/-- How many separators there are in front of the last element that is none. -/
def inFront (sep : α) (xs : List α) : Nat := (xs.rdropWhile (· == sep)).count sep

theorem length_trimmed (sep : α) (xs : List α) :
    (trimmed sep xs).length = if xs.rdropWhile (· == sep) = [] then 0 else inFront sep xs + 1 := by
  induction xs using List.reverseRecOn with
  | nil => rfl
  | append_singleton xs c ih =>
    by_cases hc : c = sep
    · have hdrop : (xs ++ [sep]).rdropWhile (· == sep) = xs.rdropWhile (· == sep) :=
        List.rdropWhile_concat_pos _ xs sep BEq.rfl
      rw [hc, trimmed_concat_sep, ih, inFront, inFront, hdrop]
    · have hdrop : (xs ++ [c]).rdropWhile (· == sep) = xs ++ [c] :=
        List.rdropWhile_concat_neg _ xs c fun heq => hc (eq_of_beq heq)
      have hsome : xs ++ [c] ≠ [] := List.append_ne_nil_of_right_ne_nil xs (List.cons_ne_nil c [])
      rw [trimmed_concat hc, length_splitOn, inFront, hdrop, if_neg hsome]

theorem inFront_of_not_mem (h : sep ∉ xs) : inFront sep xs = 0 :=
  List.count_eq_zero.mpr fun hmem => h ((List.rdropWhile_prefix _ xs).subset hmem)

/-- At the end of the last field there is nothing to trim. -/
theorem trimmed_joined {x : List α} {ys : List (List α)} (hx : sep ∉ x) (hsome : ys ≠ [])
    (hys : ∀ y ∈ ys, sep ∉ y ∧ y ≠ []) : trimmed sep (joined sep x ys) = x :: ys := by
  rw [trimmed, splitOn_joined hx fun y hy => (hys y hy).1]
  refine List.rdropWhile_eq_self_iff.mpr fun hne => ?_
  rw [List.getLast_cons hsome, List.isEmpty_iff]
  exact (hys _ (List.getLast_mem hsome)).2

end Separated

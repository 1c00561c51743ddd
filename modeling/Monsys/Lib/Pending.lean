/-
  Requests that wait for an answer, each under the key it was sent with.

  A party that hands requests on keeps a table from keys to records, looks an answer's key up in
  it and takes the record out.  What the table is for is the history: the requests sent and not
  answered yet.

  1. **The history** — `Pending`: the newest first, so that `lookup` finds the last request sent
     under a key.  `ask`, `settle`, `sweep`.
  2. **Keys** — `Sole`: no two waiting requests share a key.  Asking keeps it exactly if the key is
     free (`sole_ask_iff`).
  3. **The table** — `Tracks`: a table holds the record of the last request under every key.  A
     `put` keeps it along with `ask`, a `remove` along with `settle`.
-/
import Mathlib.Data.List.Nodup
import Mathlib.Logic.Function.Basic

/-- Requests `ρ` that wait for an answer under keys `κ`, the newest first. -/
abbrev Pending (κ ρ : Type*) := List (κ × ρ)

namespace Pending

variable {κ ρ β : Type*} [DecidableEq κ]

/-- The request `r` is sent under the key `k`. -/
def ask (k : κ) (r : ρ) (p : Pending κ ρ) : Pending κ ρ := (k, r) :: p

/-- An answer under the key `k` has come. -/
def settle (k : κ) (p : Pending κ ρ) : Pending κ ρ := p.filter fun q => q.1 ≠ k

omit [DecidableEq κ] in
theorem mem_ask {k : κ} {r : ρ} {p : Pending κ ρ} {q : κ × ρ} :
    q ∈ p.ask k r ↔ q = (k, r) ∨ q ∈ p := List.mem_cons

theorem mem_settle {k : κ} {p : Pending κ ρ} {q : κ × ρ} :
    q ∈ p.settle k ↔ q ∈ p ∧ q.1 ≠ k := by
  rw [settle, List.mem_filter, decide_eq_true_eq]

/-- Every waiting request becomes what `f` makes of it, or is given up. -/
def sweep (f : ρ → Option ρ) (p : Pending κ ρ) : Pending κ ρ :=
  p.filterMap fun q => (f q.2).map (Prod.mk q.1)

omit [DecidableEq κ] in
theorem mem_sweep {f : ρ → Option ρ} {p : Pending κ ρ} {k : κ} {r : ρ} :
    (k, r) ∈ p.sweep f ↔ ∃ t, (k, t) ∈ p ∧ f t = some r := by
  rw [sweep, List.mem_filterMap]
  constructor
  · rintro ⟨⟨i, t⟩, ht, heq⟩
    obtain ⟨r', hr', heq⟩ := Option.map_eq_some_iff.mp heq
    cases heq
    exact ⟨t, ht, hr'⟩
  · rintro ⟨t, ht, heq⟩
    exact ⟨(k, t), ht, by rw [heq]; rfl⟩

theorem lookup_ask (k j : κ) (r : ρ) (p : Pending κ ρ) :
    (p.ask k r).lookup j = if j = k then some r else p.lookup j := by
  rw [ask, List.lookup_cons]
  by_cases h : j = k
  · rw [if_pos h, beq_iff_eq.mpr h]
  · rw [if_neg h, beq_eq_false_iff_ne.mpr h]

theorem lookup_settle (k j : κ) (p : Pending κ ρ) :
    (p.settle k).lookup j = if j = k then none else p.lookup j := by
  induction p with
  | nil => exact (ite_self none).symm
  | cons q p ih =>
    obtain ⟨i, r⟩ := q
    by_cases hi : i = k
    · have hdrop : settle k ((i, r) :: p) = settle k p := by simp [settle, hi]
      rw [hdrop, ih]
      split
      · rfl
      · next hj => rw [List.lookup_cons, beq_eq_false_iff_ne.mpr (hi ▸ hj)]
    · have hkeep : settle k ((i, r) :: p) = ask i r (settle k p) := by simp [settle, ask, hi]
      rw [hkeep, lookup_ask, ih, ← ask, lookup_ask]
      by_cases hj : j = i
      · rw [if_pos hj, if_neg (hj ▸ hi), if_pos hj]
      · rw [if_neg hj, if_neg hj]

theorem mem_of_lookup {k : κ} {r : ρ} {p : Pending κ ρ} (h : p.lookup k = some r) : (k, r) ∈ p := by
  obtain ⟨l₁, l₂, rfl, -⟩ := List.lookup_eq_some_iff.mp h
  exact List.mem_append_right _ List.mem_cons_self

theorem lookup_eq_none {k : κ} {p : Pending κ ρ} : p.lookup k = none ↔ ∀ r, (k, r) ∉ p := by
  rw [List.lookup_eq_none_iff]
  constructor
  · intro h r hr
    exact absurd rfl (bne_iff_ne.mp (h (k, r) hr))
  · rintro h ⟨i, r⟩ hr
    exact bne_iff_ne.mpr fun hk => h r (by rwa [hk])

/-! ## Keys -/

/-- No two waiting requests share a key. -/
def Sole (p : Pending κ ρ) : Prop := (p.map Prod.fst).Nodup

omit [DecidableEq κ] in
theorem sole_nil : Sole ([] : Pending κ ρ) := List.nodup_nil

/-- **Asking keeps keys apart exactly if the key is free.** -/
theorem sole_ask_iff {k : κ} {r : ρ} {p : Pending κ ρ} :
    (p.ask k r).Sole ↔ p.lookup k = none ∧ p.Sole := by
  have hfree : k ∉ p.map Prod.fst ↔ p.lookup k = none := by
    rw [lookup_eq_none, List.mem_map]
    constructor
    · intro h r hr
      exact h ⟨(k, r), hr, rfl⟩
    · rintro h ⟨⟨i, r⟩, hr, rfl⟩
      exact h r hr
  rw [Sole, ask, List.map_cons, List.nodup_cons, hfree, Sole]

theorem Sole.settle {p : Pending κ ρ} (h : p.Sole) (k : κ) : (p.settle k).Sole :=
  List.Nodup.sublist (List.Sublist.map Prod.fst List.filter_sublist) h

omit [DecidableEq κ] in
theorem Sole.sweep {p : Pending κ ρ} (h : p.Sole) (f : ρ → Option ρ) : (p.sweep f).Sole := by
  refine List.Nodup.sublist ?_ h
  rw [Pending.sweep, List.map_filterMap]
  induction p with
  | nil => exact List.Sublist.slnil
  | cons q p ih =>
    obtain ⟨-, hp⟩ := List.nodup_cons.mp h
    cases hq : f q.2 with
    | none =>
      rw [List.filterMap_cons_none (by rw [hq]; rfl)]
      exact (ih hp).cons _
    | some r =>
      rw [List.filterMap_cons_some (by rw [hq]; rfl)]
      exact (ih hp).cons_cons _

/-- With keys apart, every waiting request is the one its key finds. -/
theorem Sole.lookup_eq {p : Pending κ ρ} (h : p.Sole) {k : κ} {r : ρ} (hr : (k, r) ∈ p) :
    p.lookup k = some r := by
  induction p with
  | nil => cases hr
  | cons q p ih =>
    obtain ⟨i, t⟩ := q
    obtain ⟨hfree, hp⟩ := sole_ask_iff.mp h
    rcases List.mem_cons.mp hr with heq | hmem
    · cases heq
      exact List.lookup_cons_self
    · have hne : k ≠ i := by
        rintro rfl
        exact lookup_eq_none.mp hfree r hmem
      rw [List.lookup_cons, beq_eq_false_iff_ne.mpr hne]
      exact ih hp hmem

theorem Sole.eq_of_mem {p : Pending κ ρ} (h : p.Sole) {k : κ} {r t : ρ} (hr : (k, r) ∈ p)
    (ht : (k, t) ∈ p) : r = t :=
  Option.some.inj ((h.lookup_eq hr).symm.trans (h.lookup_eq ht))

theorem Sole.lookup_iff {p : Pending κ ρ} (h : p.Sole) {k : κ} {r : ρ} :
    p.lookup k = some r ↔ (k, r) ∈ p := ⟨mem_of_lookup, h.lookup_eq⟩

/-- With keys apart, sweeping is done key by key. -/
theorem Sole.lookup_sweep {p : Pending κ ρ} (h : p.Sole) (f : ρ → Option ρ) (k : κ) :
    (p.sweep f).lookup k = (p.lookup k).bind f := by
  refine Option.ext fun r => ?_
  rw [(h.sweep f).lookup_iff, mem_sweep, Option.bind_eq_some_iff]
  exact exists_congr fun t => and_congr_left fun _ => h.lookup_iff.symm

/-! ## The table -/

/-- `table` holds, under every key, what `record` makes of the last request that waits there. -/
def Tracks (record : κ → ρ → β) (table : κ → Option β) (p : Pending κ ρ) : Prop :=
  ∀ k, table k = (p.lookup k).map (record k)

variable {record : κ → ρ → β} {table : κ → Option β} {p : Pending κ ρ}

theorem tracks_nil : Tracks record (fun _ => none) [] := fun _ => rfl

/-- A `put` of the record, as the request is sent. -/
theorem Tracks.ask (h : Tracks record table p) (k : κ) (r : ρ) :
    Tracks record (Function.update table k (some (record k r))) (p.ask k r) := by
  intro j
  rw [lookup_ask, Function.update_apply, h j]
  split
  · next hj => rw [hj, Option.map_some]
  · rfl

/-- A `remove` of the record, as the answer comes. -/
theorem Tracks.settle (h : Tracks record table p) (k : κ) :
    Tracks record (Function.update table k none) (p.settle k) := by
  intro j
  rw [lookup_settle, Function.update_apply, h j]
  split <;> rfl

theorem Tracks.eq_none_iff (h : Tracks record table p) (k : κ) :
    table k = none ↔ p.lookup k = none := by
  rw [h k, Option.map_eq_none_iff]

end Pending

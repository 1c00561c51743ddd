/-
  Finite partial bijections with a value for every pair.

  Something is known under two keys at once, a left one in `α` and a right one in `β`; no key of
  either side stands for two things.  The two sides are a `PEquiv` of Mathlib, the value hangs on
  the left key.

  1. **Pairings** — `Pairing`, which carries the agreement of its two parts, and its lookups.
  2. **Operations** — `pair`, `unpair`, `setValue`, `move`, each with what it does to the lookups.
  3. **Partial operations** — `add`, which refuses a key that is taken, and `removeRight`.
-/
import Mathlib.Data.PEquiv
import Mathlib.Data.Set.Finite.Basic

/-- A finite partial bijection of `α` and `β` with a value in `σ` for every pair. -/
@[ext] structure Pairing (α β σ : Type*) where
  keys : α ≃. β
  value : α → Option σ
  value_isSome : ∀ a, (value a).isSome = (keys a).isSome
  finite : {a | (keys a).isSome}.Finite

namespace Pairing

variable {α β σ : Type*}

/-! ## Lookups -/

theorem mem_symm_iff (p : Pairing α β σ) {a : α} {b : β} :
    p.keys.symm b = some a ↔ p.keys a = some b := p.keys.inv a b

theorem value_eq_none_iff (p : Pairing α β σ) (a : α) : p.value a = none ↔ p.keys a = none := by
  rw [← Option.not_isSome_iff_eq_none, ← Option.not_isSome_iff_eq_none, p.value_isSome]

/-- A pair has a value. -/
theorem exists_value (p : Pairing α β σ) {a : α} {b : β} (h : p.keys a = some b) :
    ∃ s, p.value a = some s := by
  rw [← Option.isSome_iff_exists, p.value_isSome, h]
  rfl

/-- What has a value has a right key. -/
theorem exists_right (p : Pairing α β σ) {a : α} {s : σ} (h : p.value a = some s) :
    ∃ b, p.keys a = some b := by
  rw [← Option.isSome_iff_exists, ← p.value_isSome, h]
  rfl

/-- Two left keys of one right key are one. -/
theorem left_unique (p : Pairing α β σ) {a a' : α} {b : β} (h : p.keys a = some b)
    (h' : p.keys a' = some b) : a = a' :=
  Option.some.inj ((p.mem_symm_iff.mpr h).symm.trans (p.mem_symm_iff.mpr h'))

/-- The value under a right key. -/
def valueRight (p : Pairing α β σ) (b : β) : Option σ := (p.keys.symm b).bind p.value

theorem valueRight_eq_some_iff (p : Pairing α β σ) {b : β} {s : σ} :
    p.valueRight b = some s ↔ ∃ a, p.keys a = some b ∧ p.value a = some s := by
  rw [valueRight, Option.bind_eq_some_iff]
  exact exists_congr fun a => and_congr_left fun _ => p.mem_symm_iff

theorem valueRight_eq_none_iff (p : Pairing α β σ) (b : β) :
    p.valueRight b = none ↔ p.keys.symm b = none := by
  rw [valueRight, Option.bind_eq_none_iff]
  constructor
  · intro h
    cases ha : p.keys.symm b with
    | none => rfl
    | some a =>
      obtain ⟨s, hs⟩ := p.exists_value (p.mem_symm_iff.mp ha)
      rw [h a ha] at hs
      cases hs
  · intro h a ha
    rw [h] at ha
    cases ha

/-- Neither key is in use. -/
def Free (p : Pairing α β σ) (a : α) (b : β) : Prop := p.keys a = none ∧ p.keys.symm b = none

instance (p : Pairing α β σ) (a : α) (b : β) : Decidable (p.Free a b) :=
  inferInstanceAs (Decidable (_ ∧ _))

/-- The right key is not in use, or it is the one of `a`. -/
def FreeFor (p : Pairing α β σ) (a : α) (b : β) : Prop :=
  p.keys.symm b = none ∨ p.keys.symm b = some a

/-- Nothing is paired. -/
def empty : Pairing α β σ where
  keys := ⊥
  value := fun _ => none
  value_isSome := fun _ => rfl
  finite := Set.finite_empty.subset fun _ h => nomatch h

@[simp] theorem empty_keys (a : α) : (empty : Pairing α β σ).keys a = none := rfl
@[simp] theorem empty_symm (b : β) : (empty : Pairing α β σ).keys.symm b = none := rfl
@[simp] theorem empty_value (a : α) : (empty : Pairing α β σ).value a = none := rfl

/-! ## Operations -/

variable [DecidableEq α]

instance (p : Pairing α β σ) (a : α) (b : β) : Decidable (p.FreeFor a b) :=
  inferInstanceAs (Decidable (_ ∨ _))

/-- The pair of the left key `a` goes out, if there is one. -/
def unpair (p : Pairing α β σ) (a : α) : Pairing α β σ where
  keys :=
    { toFun := Function.update p.keys a none
      invFun := fun b => if p.keys.symm b = some a then none else p.keys.symm b
      inv := by
        intro a' b'
        rw [Function.update_apply]
        by_cases ha : a' = a
        · rw [if_pos ha, ha]
          split
          · exact ⟨(nomatch ·), (nomatch ·)⟩
          · next hb => exact ⟨fun h => absurd h hb, (nomatch ·)⟩
        · rw [if_neg ha, ← p.mem_symm_iff]
          split
          · next hb =>
            rw [hb]
            exact ⟨(nomatch ·), fun h => absurd (Option.some.inj h).symm ha⟩
          · rfl }
  value := Function.update p.value a none
  value_isSome := by
    intro a'
    show (Function.update p.value a none a').isSome = (Function.update p.keys a none a').isSome
    rw [Function.update_apply, Function.update_apply]
    split
    · rfl
    · exact p.value_isSome a'
  finite := by
    refine p.finite.subset fun a' ha' => ?_
    change (Function.update p.keys a none a').isSome at ha'
    rw [Function.update_apply] at ha'
    split at ha'
    · cases ha'
    · exact ha'

@[simp] theorem unpair_keys (p : Pairing α β σ) (a a' : α) :
    (p.unpair a).keys a' = if a' = a then none else p.keys a' :=
  Function.update_apply ..

@[simp] theorem unpair_symm (p : Pairing α β σ) (a : α) (b : β) :
    (p.unpair a).keys.symm b = if p.keys.symm b = some a then none else p.keys.symm b := rfl

@[simp] theorem unpair_value (p : Pairing α β σ) (a a' : α) :
    (p.unpair a).value a' = if a' = a then none else p.value a' :=
  Function.update_apply ..

/-- Taking out a left key that is not there changes nothing. -/
theorem unpair_of_none (p : Pairing α β σ) {a : α} (h : p.keys a = none) : p.unpair a = p := by
  apply Pairing.ext
  · refine PEquiv.ext fun a' => ?_
    rw [unpair_keys]
    split
    · next ha => rw [ha, h]
    · rfl
  · refine funext fun a' => ?_
    rw [unpair_value]
    split
    · next ha => rw [ha, (p.value_eq_none_iff a).mpr h]
    · rfl

/-- Without its pair, a left key is free for any right key that is free or was its own. -/
theorem unpair_free (p : Pairing α β σ) {a : α} {b : β} (hb : p.FreeFor a b) :
    (p.unpair a).Free a b := by
  constructor
  · rw [unpair_keys, if_pos rfl]
  · rw [unpair_symm]
    split
    · rfl
    · next hne => exact hb.resolve_right hne

/-- The pair of `a`, if there is one, gets the value `s`. -/
def setValue (p : Pairing α β σ) (a : α) (s : σ) : Pairing α β σ where
  keys := p.keys
  value := Function.update p.value a ((p.value a).map fun _ => s)
  value_isSome := by
    intro a'
    rw [Function.update_apply]
    split
    · next ha => rw [ha, Option.isSome_map, p.value_isSome]
    · exact p.value_isSome a'
  finite := p.finite

@[simp] theorem setValue_keys (p : Pairing α β σ) (a : α) (s : σ) :
    (p.setValue a s).keys = p.keys := rfl

@[simp] theorem setValue_value (p : Pairing α β σ) (a a' : α) (s : σ) :
    (p.setValue a s).value a' = if a' = a then (p.value a).map fun _ => s else p.value a' :=
  Function.update_apply ..

variable [DecidableEq β]

/-- The pair `a`, `b` comes in with the value `s`. -/
def pair (p : Pairing α β σ) (a : α) (b : β) (s : σ) (h : p.Free a b) : Pairing α β σ where
  keys :=
    { toFun := Function.update p.keys a (some b)
      invFun := Function.update p.keys.symm b (some a)
      inv := by
        intro a' b'
        rw [Function.update_apply, Function.update_apply]
        by_cases ha : a' = a <;> by_cases hb : b' = b
        · rw [if_pos ha, if_pos hb, ha, hb]
          exact ⟨fun _ => rfl, fun _ => rfl⟩
        · rw [if_pos ha, if_neg hb, ha, p.mem_symm_iff, h.1]
          exact ⟨(nomatch ·), fun h => absurd (Option.some.inj h).symm hb⟩
        · rw [if_neg ha, if_pos hb, hb, ← p.mem_symm_iff, h.2]
          exact ⟨fun h => absurd (Option.some.inj h).symm ha, (nomatch ·)⟩
        · rw [if_neg ha, if_neg hb]
          exact p.mem_symm_iff }
  value := Function.update p.value a (some s)
  value_isSome := by
    intro a'
    show (Function.update p.value a (some s) a').isSome = (Function.update p.keys a (some b) a').isSome
    rw [Function.update_apply, Function.update_apply]
    split
    · rfl
    · exact p.value_isSome a'
  finite := by
    refine (p.finite.insert a).subset fun a' ha' => ?_
    change (Function.update p.keys a (some b) a').isSome at ha'
    rw [Function.update_apply] at ha'
    split at ha'
    · next heq => exact Or.inl heq
    · exact Or.inr ha'

section Pair

variable (p : Pairing α β σ) (a : α) (b : β) (s : σ) (h : p.Free a b)

@[simp] theorem pair_keys (a' : α) :
    (p.pair a b s h).keys a' = if a' = a then some b else p.keys a' :=
  Function.update_apply ..

@[simp] theorem pair_symm (b' : β) :
    (p.pair a b s h).keys.symm b' = if b' = b then some a else p.keys.symm b' :=
  Function.update_apply ..

@[simp] theorem pair_value (a' : α) :
    (p.pair a b s h).value a' = if a' = a then some s else p.value a' :=
  Function.update_apply ..

end Pair

/-- A pair that has come in goes out again. -/
theorem unpair_pair (p : Pairing α β σ) {a : α} {b : β} (s : σ) (h : p.Free a b) :
    (p.pair a b s h).unpair a = p := by
  refine Pairing.ext (PEquiv.ext fun a' => ?_) (funext fun a' => ?_)
  · rw [unpair_keys, pair_keys]
    split
    · next ha => rw [ha, h.1]
    · rfl
  · rw [unpair_value, pair_value]
    split
    · next ha => rw [ha, (p.value_eq_none_iff a).mpr h.1]
    · rfl

omit [DecidableEq α] [DecidableEq β] in
theorem empty_free (a : α) (b : β) : (empty : Pairing α β σ).Free a b := ⟨rfl, rfl⟩

/-- One pair. -/
def single (a : α) (b : β) (s : σ) : Pairing α β σ := empty.pair a b s (empty_free a b)

section Single

variable (a : α) (b : β) (s : σ)

theorem single_value (a' : α) : (single a b s).value a' = if a' = a then some s else none :=
  pair_value ..

theorem single_keys (a' : α) : (single a b s).keys a' = if a' = a then some b else none :=
  pair_keys ..

theorem single_symm (b' : β) : (single a b s).keys.symm b' = if b' = b then some a else none :=
  pair_symm ..

theorem unpair_single : (single a b s).unpair a = empty := unpair_pair _ s _

theorem single_valueRight (b' : β) :
    (single a b s).valueRight b' = if b' = b then some s else none := by
  rw [valueRight, single_symm]
  split
  · rw [Option.bind_some, single_value, if_pos rfl]
  · rfl

end Single

/-- The pair of `a` gets the right key `b` and the value `s`. -/
def move (p : Pairing α β σ) (a : α) (b : β) (s : σ)
    (hb : p.FreeFor a b) : Pairing α β σ :=
  (p.unpair a).pair a b s (p.unpair_free hb)

section Move

variable (p : Pairing α β σ) (a : α) (b : β) (s : σ) (hb : p.FreeFor a b)

@[simp] theorem move_keys (a' : α) :
    (p.move a b s hb).keys a' = if a' = a then some b else p.keys a' := by
  rw [move, pair_keys, unpair_keys]
  split <;> rfl

@[simp] theorem move_symm (b' : β) :
    (p.move a b s hb).keys.symm b' =
      if b' = b then some a else if p.keys.symm b' = some a then none else p.keys.symm b' := by
  rw [move, pair_symm, unpair_symm]

@[simp] theorem move_value (a' : α) :
    (p.move a b s hb).value a' = if a' = a then some s else p.value a' := by
  rw [move, pair_value, unpair_value]
  split <;> rfl

theorem move_valueRight (b' : β) :
    (p.move a b s hb).valueRight b' =
      if b' = b then some s else if p.keys.symm b' = some a then none else p.valueRight b' := by
  rw [valueRight, move_symm]
  split
  · rw [Option.bind_some, move_value, if_pos rfl]
  · split
    · rfl
    · next ha =>
      rw [valueRight]
      cases h : p.keys.symm b' with
      | none => rfl
      | some a' =>
        rw [Option.bind_some, move_value, if_neg fun heq => ha (by rw [h, heq]), Option.bind_some]

end Move

/-! ## Partial operations -/

/-- The pair comes in if neither key is in use. -/
def add (p : Pairing α β σ) (a : α) (b : β) (s : σ) : Bool × Pairing α β σ :=
  if h : p.Free a b then (true, p.pair a b s h) else (false, p)

theorem add_of_free {p : Pairing α β σ} {a : α} {b : β} (s : σ) (h : p.Free a b) :
    p.add a b s = (true, p.pair a b s h) := dif_pos h

theorem add_of_not_free {p : Pairing α β σ} {a : α} {b : β} (s : σ) (h : ¬ p.Free a b) :
    p.add a b s = (false, p) := dif_neg h

/-- The pair of the right key `b` goes out, if there is one. -/
def unpairRight (p : Pairing α β σ) (b : β) : Pairing α β σ :=
  match p.keys.symm b with
  | none => p
  | some a => p.unpair a

end Pairing

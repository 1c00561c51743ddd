/-
  `genHandlerId` of `FGWServer` and of `ZWebApiServer`: the two are the same.

  1. **The loop** — it draws numbers until one is free, or until the first one comes again.
  2. **A round** — from wherever it stands the generator goes through all of `min .. max` before a
     number comes again, so that a loop that finds nothing has looked at every id.
-/
import Monsys.Generator
import Std.Data.TreeMap.Lemmas

namespace Monsys

/-- `INVALID_ID`. -/
def invalidId : Int := -1

/-! ## The loop -/

section

variable {H : Type} (handlerMap : Std.TreeMap Int H)

/-- The `do` loop, entered with the number `finalId`, for as many rounds as `fuel` allows. -/
def genHandlerIdLoop (firstId : Int) :
    Nat → Int → HandlerIdGenerator → Option (Int × HandlerIdGenerator)
  | 0, _, _ => none
  | fuel + 1, finalId, g =>
    if finalId ∉ handlerMap then some (finalId, g)
    else
      let (finalId, g) := g.next
      if finalId ≠ firstId then genHandlerIdLoop firstId fuel finalId g else some (invalidId, g)

/-- The id, and the generator afterwards. -/
def genHandlerId (fuel : Nat) (g : HandlerIdGenerator) : Option (Int × HandlerIdGenerator) :=
  let (firstId, g) := g.next
  genHandlerIdLoop handlerMap firstId fuel firstId g

/-- `FGWServer::genHandlerId`. -/
def FGWServer.genHandlerId : Nat → HandlerIdGenerator → Option (Int × HandlerIdGenerator) :=
  Monsys.genHandlerId handlerMap

/-- `ZWebApiServer::genHandlerId`. -/
def ZWebApiServer.genHandlerId : Nat → HandlerIdGenerator → Option (Int × HandlerIdGenerator) :=
  Monsys.genHandlerId handlerMap

end

/-! ## A round -/

namespace HandlerIdGenerator

/-- The draw number `n` of a generator, counted from 0. -/
def draw (min max : Int) (n : Nat) : Int := min + (n % (max - min + 1).toNat : Nat)

section

variable {min max : Int}

theorem draw_mem (hle : min ≤ max) (n : Nat) : min ≤ draw min max n ∧ draw min max n ≤ max := by
  have hlt := Nat.mod_lt n (show 0 < (max - min + 1).toNat by omega)
  rw [draw]
  omega

/-- Within a round a number comes again only at its end. -/
theorem draw_again {n i : Nat} (hi : i < (max - min + 1).toNat) :
    draw min max (n + i) = draw min max n ↔ i = 0 := by
  rw [draw, draw, Int.add_right_inj, Int.natCast_inj, Nat.add_mod_eq_ite, Nat.mod_eq_of_lt hi]
  have hlt := Nat.mod_lt n (show 0 < (max - min + 1).toNat by omega)
  split <;> omega

/-- What a generator gives after `n` calls, and how it goes on. -/
theorem next_after (hlo : -2 ^ 31 ≤ min) (hle : min ≤ max) (hhi : max < 2 ^ 31 - 1) (n : Nat) :
    ((new min max).after n).next = (draw min max n, (new min max).after (n + 1)) :=
  Prod.ext (after_next hlo hle hhi n) (after_succ _ n).symm

theorem draw_round (n : Nat) : draw min max (n + (max - min + 1).toNat) = draw min max n := by
  rw [draw, draw, Nat.add_mod_right]

/-- A round has every id. -/
theorem exists_draw {id : Int} (hlo : min ≤ id) (hhi : id ≤ max) (n : Nat) :
    ∃ i < (max - min + 1).toNat, draw min max (n + i) = id := by
  obtain ⟨size, hsize⟩ : ∃ size : Nat, max - min + 1 = size :=
    ⟨_, (Int.toNat_of_nonneg (by omega)).symm⟩
  obtain ⟨k, hk⟩ : ∃ k : Nat, id - min = k := ⟨_, (Int.toNat_of_nonneg (by omega)).symm⟩
  have hlt := Nat.mod_lt n (show 0 < size by omega)
  refine ⟨(k + size - n % size) % size, ?_, ?_⟩
  · rw [hsize, Int.toNat_natCast]
    exact Nat.mod_lt _ (by omega)
  · have hmod : (n + (k + size - n % size) % size) % size = k := by
      have hdiv := Nat.mod_add_div n size
      have hsum : n + (k + size - n % size) = k + size * (n / size + 1) := by
        rw [Nat.mul_add, Nat.mul_one]
        omega
      rw [Nat.add_mod_mod, hsum, Nat.add_mul_mod_self_left, Nat.mod_eq_of_lt (by omega)]
    rw [draw, hsize, Int.toNat_natCast, hmod]
    omega

end

end HandlerIdGenerator

section

open HandlerIdGenerator

variable {H : Type} {handlerMap : Std.TreeMap Int H} {min max : Int}

/-- What a search comes to: a free id, or none is free. -/
def Searched (handlerMap : Std.TreeMap Int H) (min max id : Int) : Prop :=
  (min ≤ id ∧ id ≤ max ∧ id ∉ handlerMap) ∨
    (id = invalidId ∧ ∀ k, min ≤ k → k ≤ max → k ∈ handlerMap)

/-- **From the `i`th draw of a round on**, if those before it were in use.  The loop has as many rounds
    left as the round of the generator has numbers. -/
theorem genHandlerIdLoop_searches (hlo : -2 ^ 31 ≤ min) (hle : min ≤ max) (hhi : max < 2 ^ 31 - 1)
    {n : Nat} (left : Nat) {i : Nat} (hleft : i + left = (max - min + 1).toNat) (hpos : 0 < left)
    (hused : ∀ j < i, draw min max (n + j) ∈ handlerMap) :
    ∃ id m, Searched handlerMap min max id ∧ ∀ fuel, left ≤ fuel →
      genHandlerIdLoop handlerMap (draw min max n) fuel (draw min max (n + i))
        ((new min max).after (n + i + 1)) = some (id, (new min max).after m) := by
  induction left generalizing i with
  | zero => exact absurd hpos (Nat.lt_irrefl 0)
  | succ left ih =>
    by_cases hfree : draw min max (n + i) ∉ handlerMap
    · obtain ⟨hmin, hmax⟩ := draw_mem hle (n + i)
      refine ⟨draw min max (n + i), n + i + 1, Or.inl ⟨hmin, hmax, hfree⟩, fun fuel hfuel => ?_⟩
      obtain ⟨k, rfl⟩ := Nat.exists_eq_add_of_lt hfuel
      rw [genHandlerIdLoop, if_pos hfree]
    · have hmem : draw min max (n + i) ∈ handlerMap := not_not.mp hfree
      have hused' : ∀ j < i + 1, draw min max (n + j) ∈ handlerMap := by
        intro j hj
        rcases Nat.eq_or_lt_of_le (Nat.le_of_lt_succ hj) with rfl | hlt
        · exact hmem
        · exact hused j hlt
      have hstep : ∀ fuel, genHandlerIdLoop handlerMap (draw min max n) (fuel + 1)
          (draw min max (n + i)) ((new min max).after (n + i + 1)) =
          if draw min max (n + (i + 1)) ≠ draw min max n then
            genHandlerIdLoop handlerMap (draw min max n) fuel (draw min max (n + (i + 1)))
              ((new min max).after (n + (i + 1) + 1))
          else some (invalidId, (new min max).after (n + (i + 1) + 1)) := by
        intro fuel
        rw [genHandlerIdLoop, if_neg hfree, next_after hlo hle hhi]
        rfl
      rcases Nat.eq_zero_or_pos left with rfl | hleft'
      · -- the round is over
        refine ⟨invalidId, n + (i + 1) + 1, Or.inr ⟨rfl, fun k hmin hmax => ?_⟩, fun fuel hfuel => ?_⟩
        · obtain ⟨j, hj, rfl⟩ := exists_draw hmin hmax n
          exact hused' j (by omega)
        · obtain ⟨k, rfl⟩ := Nat.exists_eq_add_of_lt hfuel
          have hend : draw min max (n + (i + 1)) = draw min max n := by
            rw [show i + 1 = (max - min + 1).toNat by omega]
            exact draw_round n
          rw [hstep, if_neg (not_not.mpr hend)]
      · have hother : draw min max (n + (i + 1)) ≠ draw min max n := by
          rw [ne_eq, draw_again (by omega)]
          omega
        obtain ⟨id, m, hid, hloop⟩ := ih (by omega) hleft' hused'
        refine ⟨id, m, hid, fun fuel hfuel => ?_⟩
        obtain ⟨k, rfl⟩ := Nat.exists_eq_add_of_le' (Nat.le_trans (Nat.succ_le_succ hleft') hfuel)
        rw [hstep, if_pos hother]
        exact hloop _ (by omega)

/-- The call ends, and the generator is one that has made so many calls. -/
theorem genHandlerId_searches (hlo : -2 ^ 31 ≤ min) (hle : min ≤ max) (hhi : max < 2 ^ 31 - 1)
    (n : Nat) (handlerMap : Std.TreeMap Int H) :
    ∃ id m, Searched handlerMap min max id ∧ ∀ fuel, (max - min + 1).toNat ≤ fuel →
      genHandlerId handlerMap fuel ((new min max).after n) = some (id, (new min max).after m) := by
  obtain ⟨id, m, hid, hloop⟩ := genHandlerIdLoop_searches hlo hle hhi (n := n)
    (max - min + 1).toNat (Nat.zero_add _) (by omega) fun j hj => absurd hj (Nat.not_lt_zero j)
  refine ⟨id, m, hid, fun fuel hfuel => ?_⟩
  rw [genHandlerId, next_after hlo hle hhi]
  exact hloop fuel hfuel

/-- **An id is found** if there is one.  `INVALID_ID` says that there is none, as long as it is no id
    of the range itself. -/
theorem genHandlerId_finds (hlo : -2 ^ 31 ≤ min) (hle : min ≤ max) (hhi : max < 2 ^ 31 - 1)
    (n : Nat) (handlerMap : Std.TreeMap Int H) :
    ∃ id m,
      (∀ fuel, (max - min + 1).toNat ≤ fuel →
        FGWServer.genHandlerId handlerMap fuel ((new min max).after n) =
            some (id, (new min max).after m) ∧
          ZWebApiServer.genHandlerId handlerMap fuel ((new min max).after n) =
            some (id, (new min max).after m)) ∧
      ((∃ k, min ≤ k ∧ k ≤ max ∧ k ∉ handlerMap) → min ≤ id ∧ id ≤ max ∧ id ∉ handlerMap) ∧
      ((∀ k, min ≤ k → k ≤ max → k ∈ handlerMap) → id = invalidId) ∧
      (¬ (min ≤ invalidId ∧ invalidId ≤ max) → id = invalidId →
        ∀ k, min ≤ k → k ≤ max → k ∈ handlerMap) := by
  obtain ⟨id, m, hid, hcall⟩ := genHandlerId_searches hlo hle hhi n handlerMap
  refine ⟨id, m, fun fuel hfuel => ⟨hcall fuel hfuel, hcall fuel hfuel⟩, ?_⟩
  rcases hid with ⟨hmin, hmax, hfree⟩ | ⟨rfl, hall⟩
  · refine ⟨fun _ => ⟨hmin, hmax, hfree⟩, fun hused => ?_, fun hout hinvalid => ?_⟩
    · exact absurd (hused id hmin hmax) hfree
    · rw [hinvalid] at hmin hmax
      exact absurd ⟨hmin, hmax⟩ hout
  · refine ⟨?_, fun _ => rfl, fun _ _ => hall⟩
    rintro ⟨k, hmin, hmax, hfree⟩
    exact absurd (hall k hmin hmax) hfree

/-- Two handlers. -/
def twoHandlers : Std.TreeMap Int String := .ofList [((1 : Int), "a"), (2, "b")]

/-- The ids of the servers begin with 1; of three, two are in use. -/
theorem genHandlerId_finds_third : ∃ id m,
    (∀ fuel, 3 ≤ fuel →
      FGWServer.genHandlerId twoHandlers fuel (new 1 3) = some (id, (new 1 3).after m) ∧
        ZWebApiServer.genHandlerId twoHandlers fuel (new 1 3) = some (id, (new 1 3).after m)) ∧
    1 ≤ id ∧ id ≤ 3 ∧ id ∉ twoHandlers := by
  obtain ⟨id, m, hcall, hfinds, -⟩ := genHandlerId_finds (show -2 ^ 31 ≤ (1 : Int) by decide)
    (show (1 : Int) ≤ 3 by decide) (by decide) 0 twoHandlers
  refine ⟨id, m, hcall, hfinds ⟨3, by decide, by decide, ?_⟩⟩
  rw [twoHandlers, Std.TreeMap.mem_ofList]
  decide

/-- From -1 on, with nothing in use: the first id is `INVALID_ID`. -/
theorem invalidId_given_out :
    ¬ ∀ (min max : Int) (n : Nat) (handlerMap : Std.TreeMap Int String),
      -2 ^ 31 ≤ min → min ≤ max → max < 2 ^ 31 - 1 → (∀ k ∈ handlerMap, min ≤ k ∧ k ≤ max) →
      ∃ fuel id g, FGWServer.genHandlerId handlerMap fuel ((new min max).after n) = some (id, g) ∧
        ((∃ k, min ≤ k ∧ k ≤ max ∧ k ∉ handlerMap) → min ≤ id ∧ id ≤ max ∧ id ∉ handlerMap) ∧
        (id = invalidId → ∀ k, min ≤ k → k ≤ max → k ∈ handlerMap) := by
  intro hall
  obtain ⟨fuel, id, g, hcall, -, honly⟩ := hall (-1) 0 0 ∅ (by decide) (by decide) (by decide)
    fun k hk => absurd hk Std.TreeMap.not_mem_emptyc
  cases fuel with
  | zero => cases hcall
  | succ fuel =>
    have hfirst : FGWServer.genHandlerId (∅ : Std.TreeMap Int String) (fuel + 1)
        ((new (-1) 0).after 0) = some (-1, (new (-1) 0).next.2) := by
      show genHandlerIdLoop (∅ : Std.TreeMap Int String) (-1) (fuel + 1) (-1) (new (-1) 0).next.2 = _
      rw [genHandlerIdLoop, if_pos Std.TreeMap.not_mem_emptyc]
    obtain ⟨rfl, -⟩ := Prod.mk.inj (Option.some.inj (hfirst.symm.trans hcall))
    exact absurd (honly rfl 0 (by decide) (by decide)) Std.TreeMap.not_mem_emptyc

end

end Monsys

/-
  `ZSessionCtrl2Key` of `libframework/zsession_ctrl.h`.

  Sessions are filed under two keys: an ordered map takes the first key to the session, and an
  unordered vector of pairs takes either key to the other.  Five mutators keep the two in step,
  each with a search loop of its own.

  1. **The controller** — as the source has it.  `none` is an `assert(found)` that fails.
  2. **Refinement** — `Refines`: map and vector are the two parts of one finite partial bijection
     with a session for every pair.  One lemma for each member function.
  3. **Runs** — `run_refines`: any row of calls gives what the bijection gives.
  4. **Controllers in order** — `SessionTable`, which carries that its map and vector agree, so that
     removing cannot fail.
  5. **Ticks** — the loop with which the handlers time their sessions out.

  A session is given by value and `NULL` is `none`: every caller adds a session it has just made.
-/
import Monsys.Lib.Pairing
import Monsys.Lib.Runs

namespace Monsys

/-! ## The controller -/

/-- `key_pair_t`. -/
structure KeyPair (K1 K2 : Type) where
  key1 : K1
  key2 : K2
deriving DecidableEq, Repr

structure ZSessionCtrl2Key (K1 K2 S : Type) [Ord K1] where
  sessionMap : Std.TreeMap K1 S
  keyMap : List (KeyPair K1 K2)

namespace ZSessionCtrl2Key

variable {K1 K2 S : Type} [Ord K1]

def new : ZSessionCtrl2Key K1 K2 S := ⟨∅, []⟩

def findByKey1 (c : ZSessionCtrl2Key K1 K2 S) (key1 : K1) : Option S := c.sessionMap[key1]?

section Lookups

variable [DecidableEq K1] [DecidableEq K2]

omit [DecidableEq K1] in
def getKey1ByKey2 (c : ZSessionCtrl2Key K1 K2 S) (key2 : K2) : Option K1 :=
  (c.keyMap.find? fun p => p.key2 = key2).map fun p => p.key1

def getKey2ByKey1 (c : ZSessionCtrl2Key K1 K2 S) (key1 : K1) : Option K2 :=
  (c.keyMap.find? fun p => p.key1 = key1).map fun p => p.key2

def findByKey2 (c : ZSessionCtrl2Key K1 K2 S) (key2 : K2) : Option S :=
  match c.getKey1ByKey2 key2 with
  | none => none
  | some key1 => c.findByKey1 key1

def add (c : ZSessionCtrl2Key K1 K2 S) (key1 : K1) (key2 : K2) (session : S) :
    Bool × ZSessionCtrl2Key K1 K2 S :=
  -- check if there's already one in there
  if c.keyMap.any fun p => p.key1 = key1 ∨ p.key2 = key2 then (false, c)
  else if key1 ∈ c.sessionMap then (false, c)
  else (true, ⟨c.sessionMap.insert key1 session, c.keyMap ++ [⟨key1, key2⟩]⟩)

/-- The search loop of `removeByKey1` and of `erase`, up to its `assert(found)`. -/
def eraseKey1 (keyMap : List (KeyPair K1 K2)) (key1 : K1) : Option (List (KeyPair K1 K2)) :=
  if keyMap.any fun p => p.key1 = key1 then some (keyMap.eraseP fun p => p.key1 = key1) else none

def removeByKey1 (c : ZSessionCtrl2Key K1 K2 S) (key1 : K1) :
    Option (Option S × ZSessionCtrl2Key K1 K2 S) :=
  match c.sessionMap[key1]? with
  | none => some (none, c)
  | some session =>
    (eraseKey1 c.keyMap key1).map fun keyMap => (some session, ⟨c.sessionMap.erase key1, keyMap⟩)

def removeByKey2 (c : ZSessionCtrl2Key K1 K2 S) (key2 : K2) :
    Option (Option S × ZSessionCtrl2Key K1 K2 S) :=
  match c.getKey1ByKey2 key2 with
  | none => some (none, c)
  | some key1 => c.removeByKey1 key1

/-- `erase`.  An iterator is given by the key it stands at. -/
def erase (c : ZSessionCtrl2Key K1 K2 S) (iter : K1) : Option (ZSessionCtrl2Key K1 K2 S) :=
  (eraseKey1 c.keyMap iter).map fun keyMap => ⟨c.sessionMap.erase iter, keyMap⟩

end Lookups

/-! ## Refinement -/

/-- The map and the vector are the two parts of the bijection `p`. -/
structure Refines (c : ZSessionCtrl2Key K1 K2 S) (p : Pairing K1 K2 S) : Prop where
  value : ∀ k, c.sessionMap[k]? = p.value k
  pairs : ∀ k1 k2, ⟨k1, k2⟩ ∈ c.keyMap ↔ p.keys k1 = some k2
  nodup1 : (c.keyMap.map KeyPair.key1).Nodup

theorem refines_new [Std.TransOrd K1] : (new : ZSessionCtrl2Key K1 K2 S).Refines .empty where
  value := fun _ => Std.TreeMap.getElem?_emptyc
  pairs := fun _ _ => ⟨fun h => (nomatch h), fun h => (nomatch h)⟩
  nodup1 := List.nodup_nil

variable {c : ZSessionCtrl2Key K1 K2 S} {p : Pairing K1 K2 S}

/-- No second key occurs twice either. -/
theorem Refines.nodup2 (h : c.Refines p) : (c.keyMap.map KeyPair.key2).Nodup := by
  refine List.Nodup.map_on ?_ (List.Nodup.of_map _ h.nodup1)
  rintro ⟨a, b⟩ ha ⟨a', b'⟩ ha' hb
  obtain rfl : b = b' := hb
  rw [p.left_unique ((h.pairs a b).mp ha) ((h.pairs a' b).mp ha')]

theorem Refines.mem_keyMap (h : c.Refines p) {q : KeyPair K1 K2} :
    q ∈ c.keyMap ↔ p.keys q.key1 = some q.key2 := h.pairs q.key1 q.key2

/-- The first keys of the vector are the keys of the map. -/
theorem Refines.mem_sessionMap [Std.TransOrd K1] (h : c.Refines p) (k : K1) :
    k ∈ c.sessionMap ↔ k ∈ c.keyMap.map KeyPair.key1 := by
  rw [Std.TreeMap.mem_iff_isSome_getElem?, h.value, p.value_isSome, Option.isSome_iff_exists,
    List.mem_map]
  constructor
  · rintro ⟨k2, hk⟩
    exact ⟨⟨k, k2⟩, h.mem_keyMap.mpr hk, rfl⟩
  · rintro ⟨q, hq, rfl⟩
    exact ⟨q.key2, h.mem_keyMap.mp hq⟩

theorem Refines.findByKey1 (h : c.Refines p) (k : K1) : c.findByKey1 k = p.value k := h.value k

section Members

variable [DecidableEq K1] [DecidableEq K2]

omit [DecidableEq K1] in
theorem Refines.getKey1ByKey2 (h : c.Refines p) (k : K2) : c.getKey1ByKey2 k = p.keys.symm k := by
  rw [ZSessionCtrl2Key.getKey1ByKey2]
  cases hq : c.keyMap.find? fun q => decide (q.key2 = k) with
  | none =>
    cases hk : p.keys.symm k with
    | none => rfl
    | some a =>
      have hmem := h.mem_keyMap.mpr (show p.keys (KeyPair.mk a k).key1 = _ from p.mem_symm_iff.mp hk)
      exact absurd (decide_eq_true rfl) (List.find?_eq_none.mp hq _ hmem)
  | some q =>
    have hkey : q.key2 = k := by simpa using List.find?_some hq
    rw [Option.map_some, eq_comm, p.mem_symm_iff, ← hkey]
    exact h.mem_keyMap.mp (List.mem_of_find?_eq_some hq)

omit [DecidableEq K2] in
theorem Refines.getKey2ByKey1 (h : c.Refines p) (k : K1) : c.getKey2ByKey1 k = p.keys k := by
  rw [ZSessionCtrl2Key.getKey2ByKey1]
  cases hq : c.keyMap.find? fun q => decide (q.key1 = k) with
  | none =>
    cases hk : p.keys k with
    | none => rfl
    | some b =>
      have hmem := h.mem_keyMap.mpr (show p.keys (KeyPair.mk k b).key1 = _ from hk)
      exact absurd (decide_eq_true rfl) (List.find?_eq_none.mp hq _ hmem)
  | some q =>
    have hkey : q.key1 = k := by simpa using List.find?_some hq
    rw [Option.map_some, ← hkey]
    exact (h.mem_keyMap.mp (List.mem_of_find?_eq_some hq)).symm

omit [DecidableEq K1] in
theorem Refines.findByKey2 (h : c.Refines p) (k : K2) : c.findByKey2 k = p.valueRight k := by
  rw [ZSessionCtrl2Key.findByKey2, h.getKey1ByKey2, Pairing.valueRight]
  cases p.keys.symm k with
  | none => rfl
  | some a => exact h.findByKey1 a

/-- The loop of `add` looks whether either key is in use. -/
theorem Refines.any_iff (h : c.Refines p) (k1 : K1) (k2 : K2) :
    (c.keyMap.any fun q => q.key1 = k1 ∨ q.key2 = k2) = true ↔ ¬ p.Free k1 k2 := by
  rw [List.any_eq_true, Pairing.Free, not_and_or]
  constructor
  · rintro ⟨q, hq, hkeys⟩
    have hpair := h.mem_keyMap.mp hq
    rcases of_decide_eq_true hkeys with rfl | rfl
    · exact Or.inl (by rw [hpair]; exact Option.some_ne_none _)
    · exact Or.inr (by rw [p.mem_symm_iff.mpr hpair]; exact Option.some_ne_none _)
  · rintro (hk | hk)
    · obtain ⟨b, hb⟩ := Option.ne_none_iff_exists'.mp hk
      exact ⟨⟨k1, b⟩, (h.pairs k1 b).mpr hb, decide_eq_true (Or.inl rfl)⟩
    · obtain ⟨a, ha⟩ := Option.ne_none_iff_exists'.mp hk
      exact ⟨⟨a, k2⟩, (h.pairs a k2).mpr (p.mem_symm_iff.mp ha), decide_eq_true (Or.inr rfl)⟩

variable [Std.TransOrd K1] [Std.LawfulEqOrd K1]

omit [DecidableEq K1] [Std.TransOrd K1] in
theorem compare_eq_iff {k a : K1} : compare k a = .eq ↔ a = k := by
  rw [Std.LawfulEqOrd.compare_eq_iff_eq, eq_comm]

/-- **`add`.** -/
theorem Refines.add (h : c.Refines p) (k1 : K1) (k2 : K2) (s : S) :
    (c.add k1 k2 s).1 = (p.add k1 k2 s).1 ∧ (c.add k1 k2 s).2.Refines (p.add k1 k2 s).2 := by
  rw [ZSessionCtrl2Key.add, Pairing.add]
  by_cases hfree : p.Free k1 k2
  · have hmap : k1 ∉ c.sessionMap := by
      rw [Std.TreeMap.mem_iff_isSome_getElem?, h.value, p.value_isSome, hfree.1]
      exact Bool.false_ne_true
    rw [if_neg (fun hany => (h.any_iff k1 k2).mp hany hfree), if_neg hmap, dif_pos hfree]
    refine ⟨rfl, ⟨fun k => ?_, fun a b => ?_, ?_⟩⟩
    · rw [Std.TreeMap.getElem?_insert, Pairing.pair_value, h.value]
      exact if_congr compare_eq_iff rfl rfl
    · rw [List.mem_append, List.mem_singleton, Pairing.pair_keys, h.pairs, KeyPair.mk.injEq]
      split
      · next ha =>
        rw [ha, hfree.1]
        exact ⟨fun hb => by rw [(hb.resolve_left nofun).2], fun hb =>
          Or.inr ⟨rfl, (Option.some.inj hb).symm⟩⟩
      · next ha => exact ⟨fun hb => hb.resolve_right fun hb => ha hb.1, Or.inl⟩
    · rw [List.map_append, List.map_singleton]
      refine List.nodup_append.mpr ⟨h.nodup1, List.nodup_singleton _, ?_⟩
      rintro a ha b hb rfl
      obtain rfl : a = k1 := List.mem_singleton.mp hb
      exact hmap ((h.mem_sessionMap a).mpr ha)
  · rw [if_pos ((h.any_iff k1 k2).mpr hfree), dif_neg hfree]
    exact ⟨rfl, h⟩

omit [Ord K1] [DecidableEq K2] [Std.TransOrd K1] [Std.LawfulEqOrd K1] in
/-- The search loop takes out the one pair of the key. -/
theorem mem_eraseP {keyMap : List (KeyPair K1 K2)} (hnodup : (keyMap.map KeyPair.key1).Nodup)
    (k : K1) (q : KeyPair K1 K2) :
    q ∈ keyMap.eraseP (fun q => q.key1 = k) ↔ q ∈ keyMap ∧ q.key1 ≠ k := by
  induction keyMap with
  | nil => exact ⟨nofun, fun h => nomatch h.1⟩
  | cons r keyMap ih =>
    obtain ⟨hfresh, hnodup⟩ := List.nodup_cons.mp hnodup
    by_cases hr : r.key1 = k
    · rw [List.eraseP_cons, decide_eq_true hr, cond_true]
      constructor
      · intro hq
        refine ⟨List.mem_cons_of_mem _ hq, fun hk => hfresh ?_⟩
        exact hr.trans hk.symm ▸ List.mem_map_of_mem hq
      · rintro ⟨hq, hk⟩
        rcases List.mem_cons.mp hq with rfl | hq
        · exact absurd hr hk
        · exact hq
    · rw [List.eraseP_cons, decide_eq_false hr, cond_false, List.mem_cons, ih hnodup, List.mem_cons]
      constructor
      · rintro (rfl | ⟨hq, hk⟩)
        · exact ⟨Or.inl rfl, hr⟩
        · exact ⟨Or.inr hq, hk⟩
      · rintro ⟨rfl | hq, hk⟩
        · exact Or.inl rfl
        · exact Or.inr ⟨hq, hk⟩

omit [DecidableEq K2] in
/-- What `removeByKey1` and `erase` have in common, for a key that is there: the loop finds it. -/
theorem Refines.eraseKey1 (h : c.Refines p) {k : K1} (hk : (p.value k).isSome) :
    ∃ keyMap, ZSessionCtrl2Key.eraseKey1 c.keyMap k = some keyMap ∧
      (⟨c.sessionMap.erase k, keyMap⟩ : ZSessionCtrl2Key K1 K2 S).Refines (p.unpair k) := by
  have hfound : (c.keyMap.any fun q => q.key1 = k) = true := by
    obtain ⟨b, hb⟩ := Option.isSome_iff_exists.mp (p.value_isSome k ▸ hk)
    exact List.any_eq_true.mpr ⟨⟨k, b⟩, (h.pairs k b).mpr hb, decide_eq_true rfl⟩
  refine ⟨_, if_pos hfound, ⟨fun a => ?_, fun a b => ?_, ?_⟩⟩
  · rw [Std.TreeMap.getElem?_erase, Pairing.unpair_value, h.value]
    exact if_congr compare_eq_iff rfl rfl
  · rw [mem_eraseP h.nodup1, h.pairs, Pairing.unpair_keys]
    split
    · next ha => exact ⟨fun hb => absurd ha hb.2, nofun⟩
    · next ha => exact ⟨And.left, fun hb => ⟨hb, ha⟩⟩
  · exact h.nodup1.sublist (List.Sublist.map _ List.eraseP_sublist)

omit [DecidableEq K2] in
/-- **`removeByKey1`**: the assertion holds. -/
theorem Refines.removeByKey1 (h : c.Refines p) (k : K1) :
    ∃ c', c.removeByKey1 k = some (p.value k, c') ∧ c'.Refines (p.unpair k) := by
  rw [ZSessionCtrl2Key.removeByKey1, h.value]
  cases hk : p.value k with
  | none =>
    refine ⟨c, rfl, ?_⟩
    rw [p.unpair_of_none ((p.value_eq_none_iff k).mp hk)]
    exact h
  | some s =>
    obtain ⟨keyMap, heq, href⟩ := h.eraseKey1 (k := k) (by rw [hk]; rfl)
    exact ⟨_, by rw [heq]; rfl, href⟩

/-- **`removeByKey2`.** -/
theorem Refines.removeByKey2 (h : c.Refines p) (k : K2) :
    ∃ c', c.removeByKey2 k = some (p.valueRight k, c') ∧ c'.Refines (p.unpairRight k) := by
  rw [ZSessionCtrl2Key.removeByKey2, h.getKey1ByKey2, Pairing.valueRight, Pairing.unpairRight]
  cases p.keys.symm k with
  | none => exact ⟨c, rfl, h⟩
  | some a => exact h.removeByKey1 a

omit [DecidableEq K2] in
/-- A session that is filed is changed through the pointer to it. -/
theorem Refines.store (h : c.Refines p) {k : K1} (hk : (p.value k).isSome) (s : S) :
    ({ c with sessionMap := c.sessionMap.insert k s } : ZSessionCtrl2Key K1 K2 S).Refines
      (p.setValue k s) where
  value := by
    intro a
    rw [Std.TreeMap.getElem?_insert, Pairing.setValue_value, h.value]
    obtain ⟨t, ht⟩ := Option.isSome_iff_exists.mp hk
    rw [ht, Option.map_some]
    exact if_congr compare_eq_iff rfl rfl
  pairs := h.pairs
  nodup1 := h.nodup1

omit [DecidableEq K2] in
/-- **`erase`**, at an entry that is there: the assertion holds. -/
theorem Refines.erase (h : c.Refines p) {k : K1} (hk : (p.value k).isSome) :
    ∃ c', c.erase k = some c' ∧ c'.Refines (p.unpair k) := by
  obtain ⟨keyMap, heq, href⟩ := h.eraseKey1 hk
  exact ⟨_, by rw [ZSessionCtrl2Key.erase, heq]; rfl, href⟩

end Members

/-! ## Runs -/

/-- A call of a member function. -/
inductive Call (K1 K2 S : Type)
  | add (key1 : K1) (key2 : K2) (session : S)
  | removeByKey1 (key1 : K1)
  | removeByKey2 (key2 : K2)
  | erase (iter : K1)
  | findByKey1 (key1 : K1)
  | findByKey2 (key2 : K2)
  | getKey1ByKey2 (key2 : K2)
  | getKey2ByKey1 (key1 : K1)

/-- What a call returns. -/
inductive Returned (K1 K2 S : Type)
  | bool (b : Bool)
  | session (s : Option S)
  | key1 (k : Option K1)
  | key2 (k : Option K2)
  | void
deriving DecidableEq

section Runs

variable [DecidableEq K1] [DecidableEq K2]

/-- A call of the controller. -/
def call (c : ZSessionCtrl2Key K1 K2 S) :
    Call K1 K2 S → Option (Returned K1 K2 S × ZSessionCtrl2Key K1 K2 S)
  | .add key1 key2 session => some ((c.add key1 key2 session).map .bool id)
  | .removeByKey1 key1 => (c.removeByKey1 key1).map (Prod.map .session id)
  | .removeByKey2 key2 => (c.removeByKey2 key2).map (Prod.map .session id)
  | .erase iter => (c.erase iter).map fun c => (.void, c)
  | .findByKey1 key1 => some (.session (c.findByKey1 key1), c)
  | .findByKey2 key2 => some (.session (c.findByKey2 key2), c)
  | .getKey1ByKey2 key2 => some (.key1 (c.getKey1ByKey2 key2), c)
  | .getKey2ByKey1 key1 => some (.key2 (c.getKey2ByKey1 key1), c)

/-- The same call of the bijection. -/
def specCall (p : Pairing K1 K2 S) : Call K1 K2 S → Returned K1 K2 S × Pairing K1 K2 S
  | .add key1 key2 session => (p.add key1 key2 session).map .bool id
  | .removeByKey1 key1 => (.session (p.value key1), p.unpair key1)
  | .removeByKey2 key2 => (.session (p.valueRight key2), p.unpairRight key2)
  | .erase iter => (.void, p.unpair iter)
  | .findByKey1 key1 => (.session (p.value key1), p)
  | .findByKey2 key2 => (.session (p.valueRight key2), p)
  | .getKey1ByKey2 key2 => (.key1 (p.keys.symm key2), p)
  | .getKey2ByKey1 key1 => (.key2 (p.keys key1), p)

/-- An iterator that is handed to `erase` stands at an entry. -/
def Valid (p : Pairing K1 K2 S) : Call K1 K2 S → Prop
  | .erase iter => (p.value iter).isSome
  | _ => True

instance (p : Pairing K1 K2 S) : (f : Call K1 K2 S) → Decidable (Valid p f)
  | .erase iter => inferInstanceAs (Decidable ((p.value iter).isSome = true))
  | .add .. | .removeByKey1 _ | .removeByKey2 _ | .findByKey1 _ | .findByKey2 _ | .getKey1ByKey2 _
  | .getKey2ByKey1 _ => isTrue trivial

/-- A row of calls, with what they return. -/
def run (c : ZSessionCtrl2Key K1 K2 S) :
    List (Call K1 K2 S) → Option (List (Returned K1 K2 S) × ZSessionCtrl2Key K1 K2 S)
  | [] => some ([], c)
  | f :: fs => do
    let (r, c) ← c.call f
    let (rs, c) ← c.run fs
    return (r :: rs, c)

/-- The same row of calls of the bijection. -/
def specRun (p : Pairing K1 K2 S) :
    List (Call K1 K2 S) → List (Returned K1 K2 S) × Pairing K1 K2 S
  | [] => ([], p)
  | f :: fs =>
    let (r, p) := specCall p f
    let (rs, p) := specRun p fs
    (r :: rs, p)

variable [Std.TransOrd K1] [Std.LawfulEqOrd K1]

/-- One call returns what the bijection returns, and the two stay in step. -/
theorem Refines.call (h : c.Refines p) {f : Call K1 K2 S} (hf : Valid p f) :
    ∃ c', c.call f = some ((specCall p f).1, c') ∧ c'.Refines (specCall p f).2 := by
  cases f with
  | add key1 key2 session =>
    obtain ⟨hret, href⟩ := h.add key1 key2 session
    refine ⟨(c.add key1 key2 session).2, ?_, href⟩
    rw [ZSessionCtrl2Key.call, specCall, Prod.map_fst, ← hret]
    rfl
  | removeByKey1 key1 =>
    obtain ⟨c', heq, href⟩ := h.removeByKey1 key1
    exact ⟨c', by rw [ZSessionCtrl2Key.call, heq]; rfl, href⟩
  | removeByKey2 key2 =>
    obtain ⟨c', heq, href⟩ := h.removeByKey2 key2
    exact ⟨c', by rw [ZSessionCtrl2Key.call, heq]; rfl, href⟩
  | erase iter =>
    obtain ⟨c', heq, href⟩ := h.erase hf
    exact ⟨c', by rw [ZSessionCtrl2Key.call, heq]; rfl, href⟩
  | findByKey1 key1 => exact ⟨c, by rw [ZSessionCtrl2Key.call, h.findByKey1]; rfl, h⟩
  | findByKey2 key2 => exact ⟨c, by rw [ZSessionCtrl2Key.call, h.findByKey2]; rfl, h⟩
  | getKey1ByKey2 key2 => exact ⟨c, by rw [ZSessionCtrl2Key.call, h.getKey1ByKey2]; rfl, h⟩
  | getKey2ByKey1 key1 => exact ⟨c, by rw [ZSessionCtrl2Key.call, h.getKey2ByKey1]; rfl, h⟩

theorem Refines.run (h : c.Refines p) {fs : List (Call K1 K2 S)}
    (hfs : ∀ v ∈ Runs.visits (fun p f => (specCall p f).2) p fs, Valid v.1 v.2) :
    ∃ c', c.run fs = some ((specRun p fs).1, c') ∧ c'.Refines (specRun p fs).2 := by
  induction fs generalizing c p with
  | nil => exact ⟨c, rfl, h⟩
  | cons f fs ih =>
    rw [Runs.visits_cons, List.forall_mem_cons] at hfs
    obtain ⟨c₁, hcall, h₁⟩ := h.call hfs.1
    obtain ⟨c₂, hrun, h₂⟩ := ih h₁ hfs.2
    refine ⟨c₂, ?_, h₂⟩
    rw [ZSessionCtrl2Key.run, hcall]
    dsimp only [Option.bind_eq_bind, Option.bind_some]
    rw [hrun]
    rfl

/-- **The controller is a partial bijection.**  Any row of calls goes through without a failed
    assertion and returns what the bijection returns; the keys of the map are the first keys of the
    vector, no key occurs twice, and an `add` that is refused changes nothing. -/
theorem run_refines (fs : List (Call K1 K2 S))
    (hfs : ∀ v ∈ Runs.visits (fun p f => (specCall p f).2) .empty fs, Valid v.1 v.2) :
    ∃ c, (new : ZSessionCtrl2Key K1 K2 S).run fs = some ((specRun .empty fs).1, c) ∧
      c.Refines (specRun .empty fs).2 ∧
      (∀ k, k ∈ c.sessionMap ↔ k ∈ c.keyMap.map KeyPair.key1) ∧
      (c.keyMap.map KeyPair.key1).Nodup ∧ (c.keyMap.map KeyPair.key2).Nodup ∧
      ∀ key1 key2 session, (c.add key1 key2 session).1 = false →
        (c.add key1 key2 session).2 = c := by
  obtain ⟨c, hrun, h⟩ := refines_new.run hfs
  refine ⟨c, hrun, h, h.mem_sessionMap, h.nodup1, h.nodup2, ?_⟩
  intro key1 key2 session hret
  rw [ZSessionCtrl2Key.add] at hret ⊢
  split at hret
  · next hany => rw [if_pos hany]
  · next hany =>
    rw [if_neg hany]
    split at hret
    · next hmem => rw [if_pos hmem]
    · cases hret

end Runs

/-- Two sessions come and go, with a second one under a key that is taken. -/
theorem run_refines_four :
    ∃ c, (new : ZSessionCtrl2Key UInt32 UInt32 Nat).run
        [.add 1 10 7, .add 2 10 8, .add 2 20 9, .findByKey2 20, .erase 1, .removeByKey2 10] =
          some ([.bool true, .bool false, .bool true, .session (some 9), .void, .session none], c) ∧
      ∀ k, k ∈ c.sessionMap ↔ k ∈ c.keyMap.map KeyPair.key1 := by
  have hvalid : ∀ v ∈ Runs.visits (fun p f => (specCall p f).2) .empty
      ([.add 1 10 7, .add 2 10 8, .add 2 20 9, .findByKey2 20, .erase 1, .removeByKey2 10] :
        List (Call UInt32 UInt32 Nat)), Valid v.1 v.2 := by decide
  obtain ⟨c, hrun, -, hkeys, -⟩ := run_refines _ hvalid
  exact ⟨c, hrun, hkeys⟩

end ZSessionCtrl2Key

/-! ## Controllers in order -/

/-- A controller whose map and vector agree. -/
structure SessionTable (K1 K2 S : Type) [Ord K1] extends ZSessionCtrl2Key K1 K2 S where
  inOrder : ∃ p, toZSessionCtrl2Key.Refines p

namespace SessionTable

variable {K1 K2 S : Type} [Ord K1] [DecidableEq K1] [DecidableEq K2] [Std.TransOrd K1]

omit [DecidableEq K1] [DecidableEq K2] in
def new : SessionTable K1 K2 S := ⟨.new, .empty, ZSessionCtrl2Key.refines_new⟩

/-- The bijection, by the lookups of the controller. -/
def pairing (t : SessionTable K1 K2 S) : Pairing K1 K2 S where
  keys :=
    { toFun := t.getKey2ByKey1
      invFun := t.getKey1ByKey2
      inv := by
        intro a b
        obtain ⟨p, h⟩ := t.inOrder
        rw [h.getKey1ByKey2, h.getKey2ByKey1]
        exact p.mem_symm_iff }
  value := t.findByKey1
  value_isSome := by
    intro a
    obtain ⟨p, h⟩ := t.inOrder
    show (t.findByKey1 a).isSome = (t.getKey2ByKey1 a).isSome
    rw [h.findByKey1, h.getKey2ByKey1, p.value_isSome]
  finite := by
    obtain ⟨p, h⟩ := t.inOrder
    refine p.finite.subset fun a ha => ?_
    change (t.getKey2ByKey1 a).isSome = true at ha
    rw [h.getKey2ByKey1] at ha
    exact ha

omit [Std.TransOrd K1] in
/-- There is only one bijection that a controller refines. -/
theorem pairing_eq (t : SessionTable K1 K2 S) {p : Pairing K1 K2 S}
    (h : t.toZSessionCtrl2Key.Refines p) : t.pairing = p :=
  Pairing.ext (PEquiv.ext h.getKey2ByKey1) (funext h.findByKey1)

omit [Std.TransOrd K1] in
theorem refines (t : SessionTable K1 K2 S) : t.toZSessionCtrl2Key.Refines t.pairing := by
  obtain ⟨p, h⟩ := t.inOrder
  rw [t.pairing_eq h]
  exact h

@[simp] theorem new_pairing : (new : SessionTable K1 K2 S).pairing = .empty :=
  pairing_eq _ ZSessionCtrl2Key.refines_new

variable [Std.LawfulEqOrd K1]

def add (t : SessionTable K1 K2 S) (key1 : K1) (key2 : K2) (session : S) :
    Bool × SessionTable K1 K2 S :=
  ((t.toZSessionCtrl2Key.add key1 key2 session).1,
    ⟨(t.toZSessionCtrl2Key.add key1 key2 session).2, _, (t.refines.add key1 key2 session).2⟩)

theorem removeByKey1_isSome (t : SessionTable K1 K2 S) (key1 : K1) :
    (t.toZSessionCtrl2Key.removeByKey1 key1).isSome := by
  obtain ⟨c, heq, -⟩ := t.refines.removeByKey1 key1
  rw [heq]
  rfl

theorem removeByKey1_refines (t : SessionTable K1 K2 S) (key1 : K1) :
    ((t.toZSessionCtrl2Key.removeByKey1 key1).get (t.removeByKey1_isSome key1)).2.Refines
      (t.pairing.unpair key1) := by
  obtain ⟨c, heq, href⟩ := t.refines.removeByKey1 key1
  rw [Option.get_of_eq_some _ heq]
  exact href

/-- `removeByKey1`, whose assertion holds. -/
def removeByKey1 (t : SessionTable K1 K2 S) (key1 : K1) : Option S × SessionTable K1 K2 S :=
  let r := (t.toZSessionCtrl2Key.removeByKey1 key1).get (t.removeByKey1_isSome key1)
  (r.1, ⟨r.2, _, t.removeByKey1_refines key1⟩)

theorem erase_isSome (t : SessionTable K1 K2 S) {iter : K1} (hk : (t.findByKey1 iter).isSome) :
    (t.toZSessionCtrl2Key.erase iter).isSome := by
  obtain ⟨c, heq, -⟩ := t.refines.erase hk
  rw [heq]
  rfl

theorem erase_refines (t : SessionTable K1 K2 S) {iter : K1} (hk : (t.findByKey1 iter).isSome) :
    ((t.toZSessionCtrl2Key.erase iter).get (t.erase_isSome hk)).Refines
      (t.pairing.unpair iter) := by
  obtain ⟨c, heq, href⟩ := t.refines.erase hk
  rw [Option.get_of_eq_some _ heq]
  exact href

/-- `erase`, at an entry, where its assertion holds. -/
def erase (t : SessionTable K1 K2 S) (iter : K1) (hk : (t.findByKey1 iter).isSome) :
    SessionTable K1 K2 S :=
  ⟨(t.toZSessionCtrl2Key.erase iter).get (t.erase_isSome hk), _, t.erase_refines hk⟩

/-- A session that is filed is changed through the pointer to it. -/
def store (t : SessionTable K1 K2 S) (key1 : K1) (session : S)
    (hk : (t.findByKey1 key1).isSome) : SessionTable K1 K2 S :=
  ⟨{ t.toZSessionCtrl2Key with sessionMap := t.sessionMap.insert key1 session },
    _, t.refines.store hk session⟩

section Pairing

variable (t : SessionTable K1 K2 S) (k1 : K1) (k2 : K2) (s : S)

@[simp] theorem add_fst : (t.add k1 k2 s).1 = (t.pairing.add k1 k2 s).1 := (t.refines.add k1 k2 s).1

@[simp] theorem add_pairing : (t.add k1 k2 s).2.pairing = (t.pairing.add k1 k2 s).2 :=
  pairing_eq _ (t.refines.add k1 k2 s).2

@[simp] theorem removeByKey1_pairing : (t.removeByKey1 k1).2.pairing = t.pairing.unpair k1 :=
  pairing_eq _ (t.removeByKey1_refines k1)

@[simp] theorem erase_pairing (hk : (t.findByKey1 k1).isSome) :
    (t.erase k1 hk).pairing = t.pairing.unpair k1 :=
  pairing_eq _ (t.erase_refines hk)

@[simp] theorem store_pairing (hk : (t.findByKey1 k1).isSome) :
    (t.store k1 s hk).pairing = t.pairing.setValue k1 s :=
  pairing_eq _ (t.refines.store hk s)

omit [Std.TransOrd K1] [Std.LawfulEqOrd K1] in
theorem findByKey1_eq : t.findByKey1 k1 = t.pairing.value k1 := rfl

omit [Std.TransOrd K1] [Std.LawfulEqOrd K1] in
theorem findByKey2_eq : t.findByKey2 k2 = t.pairing.valueRight k2 := t.refines.findByKey2 k2

end Pairing

/-! ## Ticks -/

section Ticks

variable (doTimeout : S → S) (isComplete : S → Bool)

/-- What a tick leaves of a session. -/
def ticked (s : S) : Option S := if isComplete (doTimeout s) then none else some (doTimeout s)

/-- A loop over the sessions, by their first keys, that ticks each and deletes the complete ones. -/
def tickLoop (t : SessionTable K1 K2 S) : List K1 → SessionTable K1 K2 S
  | [] => t
  | key :: keys =>
    match hk : t.findByKey1 key with
    | none => t.tickLoop keys
    | some session =>
      let session := doTimeout session
      if isComplete session then (t.erase key (by rw [hk]; rfl)).tickLoop keys
      else (t.store key session (by rw [hk]; rfl)).tickLoop keys

theorem tickLoop_cons_none {t : SessionTable K1 K2 S} {key : K1} (hk : t.findByKey1 key = none)
    (keys : List K1) :
    tickLoop doTimeout isComplete t (key :: keys) = tickLoop doTimeout isComplete t keys := by
  rw [tickLoop]
  split
  · rfl
  · next s hs =>
    rw [hk] at hs
    cases hs

theorem tickLoop_cons_some {t : SessionTable K1 K2 S} {key : K1} {s : S}
    (hk : t.findByKey1 key = some s) (keys : List K1) :
    tickLoop doTimeout isComplete t (key :: keys) =
      if isComplete (doTimeout s) then
        tickLoop doTimeout isComplete (t.erase key (by rw [hk]; rfl)) keys
      else tickLoop doTimeout isComplete (t.store key (doTimeout s) (by rw [hk]; rfl)) keys := by
  rw [tickLoop]
  split
  · next hnone =>
    rw [hk] at hnone
    cases hnone
  · next s' hs =>
    obtain rfl : s = s' := Option.some.inj (hk.symm.trans hs)
    rfl

/-- The loop ticks the sessions of its keys, each once. -/
theorem tickLoop_lookup {keys : List K1} (hnodup : keys.Nodup) (t : SessionTable K1 K2 S) (k : K1) :
    (tickLoop doTimeout isComplete t keys).pairing.value k =
        (if k ∈ keys then (t.pairing.value k).bind (ticked doTimeout isComplete)
          else t.pairing.value k) ∧
      (tickLoop doTimeout isComplete t keys).pairing.keys k =
        if ((tickLoop doTimeout isComplete t keys).pairing.value k).isSome then t.pairing.keys k
        else none := by
  induction keys generalizing t with
  | nil =>
    rw [tickLoop, if_neg List.not_mem_nil]
    refine ⟨rfl, ?_⟩
    rw [t.pairing.value_isSome]
    cases t.pairing.keys k <;> rfl
  | cons key keys ih =>
    obtain ⟨hfresh, hnodup⟩ := List.nodup_cons.mp hnodup
    cases hk : t.findByKey1 key with
    | none =>
      rw [tickLoop_cons_none doTimeout isComplete hk]
      rw [findByKey1_eq] at hk
      obtain ⟨hvalue, hkeys⟩ := ih hnodup t
      refine ⟨?_, hkeys⟩
      rw [hvalue]
      by_cases heq : k = key
      · rw [heq, if_neg hfresh, if_pos List.mem_cons_self, hk]
        rfl
      · exact if_congr (by rw [List.mem_cons, or_iff_right heq]) rfl rfl
    | some s =>
      rw [tickLoop_cons_some doTimeout isComplete hk]
      rw [findByKey1_eq] at hk
      split
      · next hdone =>
        obtain ⟨hvalue, hkeys⟩ := ih hnodup (t.erase key (by rw [findByKey1_eq, hk]; rfl))
        rw [hkeys, hvalue, erase_pairing, Pairing.unpair_value, Pairing.unpair_keys]
        by_cases heq : k = key
        · rw [heq, if_neg hfresh, if_pos List.mem_cons_self, if_pos rfl, hk, Option.bind_some, ticked,
            if_pos hdone]
          exact ⟨rfl, rfl⟩
        · rw [if_neg heq, if_neg heq]
          exact ⟨if_congr (by rw [List.mem_cons, or_iff_right heq]) rfl rfl, rfl⟩
      · next hdone =>
        obtain ⟨hvalue, hkeys⟩ := ih hnodup
          (t.store key (doTimeout s) (by rw [findByKey1_eq, hk]; rfl))
        rw [hkeys, hvalue, store_pairing, Pairing.setValue_value, Pairing.setValue_keys]
        by_cases heq : k = key
        · rw [heq, if_neg hfresh, if_pos List.mem_cons_self, if_pos rfl, hk, Option.bind_some, ticked,
            if_neg hdone]
          exact ⟨rfl, rfl⟩
        · rw [if_neg heq]
          exact ⟨if_congr (by rw [List.mem_cons, or_iff_right heq]) rfl rfl, rfl⟩

/-- **A loop over all keys ticks every session.** -/
theorem tickLoop_keys_lookup (t : SessionTable K1 K2 S) (k : K1) :
    (tickLoop doTimeout isComplete t t.sessionMap.keys).pairing.value k =
        (t.pairing.value k).bind (ticked doTimeout isComplete) ∧
      (tickLoop doTimeout isComplete t t.sessionMap.keys).pairing.keys k =
        if ((tickLoop doTimeout isComplete t t.sessionMap.keys).pairing.value k).isSome then
          t.pairing.keys k
        else none := by
  have hnodup : t.sessionMap.keys.Nodup := Std.TreeMap.nodup_keys
  obtain ⟨hvalue, hkeys⟩ := tickLoop_lookup doTimeout isComplete hnodup t k
  refine ⟨?_, hkeys⟩
  refine hvalue.trans ?_
  split
  · rfl
  · next hmem =>
    have hnone : t.pairing.value k = none := by
      rw [Std.TreeMap.mem_keys, Std.TreeMap.mem_iff_isSome_getElem?, Option.not_isSome_iff_eq_none] at hmem
      exact hmem
    rw [hnone]
    rfl

end Ticks

end SessionTable

end Monsys

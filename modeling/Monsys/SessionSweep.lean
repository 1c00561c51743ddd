/-
  How sessions expire: `FGWClientHandler::routine` and `ZZigBeeHandler::routine`.

  Both walk an iterator over the map of sessions and, where a session is complete, delete it and
  erase the entry that the iterator has just left.

  1. **The loop** — `sweepLoop`, with the iterator as the key it stands at.
  2. **What it comes to** — `Ahead`: the entries that the iterator still has to come to.  Every
     session is visited once, and ticked (`sweepLoop_spec`).
  3. **The handlers** — their `routine`, and what other events leave of a session.
  4. **Runs** — a session that nobody answers goes at the tick at which its time is up.
-/
import Monsys.FgwClientHandler
import Monsys.ZigBeeSessions

namespace Monsys

namespace SessionTable

/-! ## The loop -/

variable {K1 K2 S : Type} [Ord K1] [DecidableEq K1] [DecidableEq K2] [Std.TransOrd K1]
  [Std.LawfulEqOrd K1]

omit [DecidableEq K1] [DecidableEq K2] [Std.TransOrd K1] [Std.LawfulEqOrd K1] in
/-- `begin`; `end` is `none`. -/
def begin? (t : SessionTable K1 K2 S) : Option K1 := t.sessionMap.keys.head?

omit [DecidableEq K1] [DecidableEq K2] [Std.TransOrd K1] [Std.LawfulEqOrd K1] in
/-- `++iter`: the first key behind it. -/
def next? (t : SessionTable K1 K2 S) (iter : K1) : Option K1 :=
  t.sessionMap.keys.find? fun k => compare iter k = .lt

omit [DecidableEq K1] [DecidableEq K2] [Std.TransOrd K1] [Std.LawfulEqOrd K1] in
theorem isSome_of_findByKey1 {t : SessionTable K1 K2 S} {k : K1} {s : S}
    (h : t.findByKey1 k = some s) : (t.findByKey1 k).isSome := by
  rw [h]
  rfl

/-- A session that is stored stays findable. -/
theorem isSome_store {t : SessionTable K1 K2 S} {k : K1} {s : S} (h : (t.findByKey1 k).isSome) :
    ((t.store k s h).findByKey1 k).isSome := by
  rw [findByKey1_eq, store_pairing, Pairing.setValue_value, if_pos rfl, ← findByKey1_eq]
  obtain ⟨old, hold⟩ := Option.isSome_iff_exists.mp h
  rw [hold]
  rfl

/-- What a loop leaves: the table, the sessions it came to and those it deleted, in order. -/
structure Swept (K1 K2 S : Type) [Ord K1] where
  table : SessionTable K1 K2 S
  visited : List K1
  deleted : List K1

section

variable (doTimeout : S → S) (isComplete : S → Bool)

/-- The loop of `routine`, entered at an iterator, for as many rounds as `fuel` allows.  There would
    be no result either if the iterator stood at no entry. -/
def sweepLoop : Nat → SessionTable K1 K2 S → Option K1 → Option (Swept K1 K2 S)
  | 0, _, _ => none
  | _ + 1, t, none => some ⟨t, [], []⟩
  | fuel + 1, t, some iter =>
    match hk : t.findByKey1 iter with
    | some session =>
      let ticked := t.store iter (doTimeout session) (isSome_of_findByKey1 hk)
      if isComplete (doTimeout session) then
        -- the iterator goes on before the entry is erased
        let erased := ticked.erase iter (isSome_store (isSome_of_findByKey1 hk))
        (sweepLoop fuel erased (ticked.next? iter)).map fun r =>
          ⟨r.table, iter :: r.visited, iter :: r.deleted⟩
      else
        (sweepLoop fuel ticked (ticked.next? iter)).map fun r =>
          ⟨r.table, iter :: r.visited, r.deleted⟩
    | none => none

end

/-! ## What it comes to -/

omit [Ord K1] [DecidableEq K2] [Std.TransOrd K1] [Std.LawfulEqOrd K1] in
theorem unpair_setValue (p : Pairing K1 K2 S) (a : K1) (s : S) :
    (p.setValue a s).unpair a = p.unpair a := by
  refine Pairing.ext rfl (funext fun k => ?_)
  rw [Pairing.unpair_value, Pairing.unpair_value, Pairing.setValue_value]
  split <;> rfl

omit [DecidableEq K1] [DecidableEq K2] [Std.LawfulEqOrd K1] in
theorem compare_ne_lt_self (k : K1) : compare k k ≠ .lt := by
  rw [Std.ReflOrd.compare_self]
  exact Ordering.noConfusion

theorem mem_keys_iff (t : SessionTable K1 K2 S) (k : K1) :
    k ∈ t.sessionMap.keys ↔ (t.pairing.value k).isSome := by
  rw [Std.TreeMap.mem_keys, Std.TreeMap.mem_iff_isSome_getElem?]
  rfl

/-- The iterator stands at the first of the keys `ks`, and those behind it in the map are the others. -/
structure Ahead (t : SessionTable K1 K2 S) (ks : List K1) : Prop where
  sorted : ks.Pairwise fun a b => compare a b = .lt
  filed : ∀ k ∈ ks, (t.pairing.value k).isSome
  behind : ∀ key rest, ks = key :: rest → ∀ k, (t.pairing.value k).isSome →
    compare key k = .lt → k ∈ rest

theorem ahead_keys (t : SessionTable K1 K2 S) : Ahead t t.sessionMap.keys where
  sorted := Std.TreeMap.ordered_keys
  filed := fun k hk => (t.mem_keys_iff k).mp hk
  behind := by
    intro key rest hks k hk hlt
    rw [← mem_keys_iff, hks, List.mem_cons] at hk
    rcases hk with rfl | hk
    · exact absurd hlt (compare_ne_lt_self k)
    · exact hk

/-- Where the iterator goes on. -/
theorem Ahead.next {t : SessionTable K1 K2 S} {key : K1} {rest : List K1}
    (h : Ahead t (key :: rest)) : t.next? key = rest.head? := by
  have hbehind := h.behind key rest rfl
  obtain ⟨hkey, hsorted⟩ := List.pairwise_cons.mp h.sorted
  cases rest with
  | nil =>
    rw [next?, List.head?_nil, List.find?_eq_none]
    intro k hk hlt
    rw [decide_eq_true_eq] at hlt
    exact absurd (hbehind k ((t.mem_keys_iff k).mp hk) hlt) List.not_mem_nil
  | cons key' rest =>
    have hmem : key' ∈ t.sessionMap.keys :=
      (t.mem_keys_iff key').mpr (h.filed key' (List.mem_cons_of_mem _ List.mem_cons_self))
    obtain ⟨before, after, hkeys⟩ := List.append_of_mem hmem
    rw [next?, List.head?_cons, List.find?_eq_some_iff_append]
    refine ⟨decide_eq_true (hkey key' List.mem_cons_self), before, after, hkeys, fun k hk => ?_⟩
    -- a key in front of `key'` cannot be behind `key`, or it would be behind `key'` too
    have hordered : t.sessionMap.keys.Pairwise fun a b => compare a b = .lt :=
      Std.TreeMap.ordered_keys
    rw [hkeys] at hordered
    have hlt : compare k key' = .lt :=
      (List.pairwise_append.mp hordered).2.2 k hk key' List.mem_cons_self
    have hfiled : (t.pairing.value k).isSome := by
      rw [← mem_keys_iff, hkeys]
      exact List.mem_append_left _ hk
    rw [Bool.not_eq_true', decide_eq_false_iff_not]
    intro hbetween
    rcases List.mem_cons.mp (hbehind k hfiled hbetween) with rfl | hrest
    · exact compare_ne_lt_self k hlt
    · have hback : compare key' k = .lt := (List.pairwise_cons.mp hsorted).1 k hrest
      exact compare_ne_lt_self k (Std.TransCmp.lt_trans hlt hback)

omit [Std.LawfulEqOrd K1] in
/-- What is left ahead once the entry of the iterator has been dealt with. -/
theorem Ahead.tail {t t' : SessionTable K1 K2 S} {key : K1} {rest : List K1}
    (h : Ahead t (key :: rest)) (hold : ∀ k, (t'.pairing.value k).isSome → (t.pairing.value k).isSome)
    (hkept : ∀ k, k ≠ key → (t.pairing.value k).isSome → (t'.pairing.value k).isSome) :
    Ahead t' rest where
  sorted := (List.pairwise_cons.mp h.sorted).2
  filed := by
    intro k hk
    refine hkept k ?_ (h.filed k (List.mem_cons_of_mem _ hk))
    rintro rfl
    exact compare_ne_lt_self k ((List.pairwise_cons.mp h.sorted).1 k hk)
  behind := by
    rintro key' rest' rfl k hk hlt
    have hfirst : compare key key' = .lt := (List.pairwise_cons.mp h.sorted).1 key' List.mem_cons_self
    have hmem := h.behind key _ rfl k (hold k hk) (Std.TransCmp.lt_trans hfirst hlt)
    rcases List.mem_cons.mp hmem with rfl | hmem
    · exact absurd hlt (compare_ne_lt_self k)
    · exact hmem

omit [Std.TransOrd K1] [Std.LawfulEqOrd K1] in
/-- Only the keys matter. -/
theorem Ahead.congr {t t' : SessionTable K1 K2 S} {ks : List K1} (h : Ahead t ks)
    (hsame : ∀ k, (t'.pairing.value k).isSome ↔ (t.pairing.value k).isSome) : Ahead t' ks where
  sorted := h.sorted
  filed := fun k hk => (hsame k).mpr (h.filed k hk)
  behind := fun key rest hks k hk => h.behind key rest hks k ((hsame k).mp hk)

theorem store_filed {t : SessionTable K1 K2 S} {key : K1} (s : S)
    (hk : (t.findByKey1 key).isSome) (k : K1) :
    ((t.store key s hk).pairing.value k).isSome ↔ (t.pairing.value k).isSome := by
  rw [store_pairing, Pairing.setValue_value]
  split
  · next heq => rw [heq, Option.isSome_map]
  · rfl

omit [Std.LawfulEqOrd K1] in
theorem Ahead.nodup {t : SessionTable K1 K2 S} {ks : List K1} (h : Ahead t ks) : ks.Nodup := by
  refine h.sorted.imp ?_
  rintro a b hlt rfl
  exact compare_ne_lt_self a hlt

section

variable (doTimeout : S → S) (isComplete : S → Bool)

/-- A loop over the keys `ks` has visited each, in order, and ticked its session; those that are gone
    it has deleted. -/
structure Sweeps (t : SessionTable K1 K2 S) (ks : List K1) (r : Swept K1 K2 S) : Prop where
  visited : r.visited = ks
  deleted : r.deleted = ks.filter fun k => (r.table.pairing.value k).isNone
  value : ∀ k, r.table.pairing.value k =
    if k ∈ ks then (t.pairing.value k).bind (ticked doTimeout isComplete) else t.pairing.value k
  keys : ∀ k, r.table.pairing.keys k =
    if (r.table.pairing.value k).isSome then t.pairing.keys k else none

omit [Std.TransOrd K1] [Std.LawfulEqOrd K1] in
theorem sweeps_nil (t : SessionTable K1 K2 S) : Sweeps doTimeout isComplete t [] ⟨t, [], []⟩ where
  visited := rfl
  deleted := rfl
  value := fun k => (if_neg List.not_mem_nil).symm
  keys := by
    intro k
    show t.pairing.keys k = if (t.pairing.value k).isSome then t.pairing.keys k else none
    rw [t.pairing.value_isSome]
    cases t.pairing.keys k <;> rfl

variable {doTimeout isComplete} {t t' : SessionTable K1 K2 S} {key : K1} {rest : List K1} {s : S}
  {r : Swept K1 K2 S}

omit [Std.TransOrd K1] [Std.LawfulEqOrd K1] in
/-- A session that is complete goes, and then the rest is swept. -/
theorem Sweeps.cons_complete (hs : t.pairing.value key = some s) (hfresh : key ∉ rest)
    (hdone : isComplete (doTimeout s) = true) (ht' : t'.pairing = t.pairing.unpair key)
    (h : Sweeps doTimeout isComplete t' rest r) :
    Sweeps doTimeout isComplete t (key :: rest) ⟨r.table, key :: r.visited, key :: r.deleted⟩ := by
  have hgone : r.table.pairing.value key = none := by
    rw [h.value, if_neg hfresh, ht', Pairing.unpair_value, if_pos rfl]
  constructor
  · exact congrArg _ h.visited
  · rw [List.filter_cons_of_pos (by rw [hgone]; rfl)]
    exact congrArg _ h.deleted
  · intro k
    dsimp only
    rw [h.value, ht', Pairing.unpair_value]
    by_cases heq : k = key
    · rw [heq, if_neg hfresh, if_pos rfl, if_pos List.mem_cons_self, hs, Option.bind_some, ticked,
        if_pos hdone]
    · rw [if_neg heq]
      exact if_congr (by rw [List.mem_cons, or_iff_right heq]) rfl rfl
  · intro k
    dsimp only
    rw [h.keys, ht', Pairing.unpair_keys]
    by_cases heq : k = key
    · rw [heq, hgone]
      rfl
    · rw [if_neg heq]

omit [Std.TransOrd K1] [Std.LawfulEqOrd K1] in
/-- A session that is not stays, and then the rest is swept. -/
theorem Sweeps.cons_stays (hs : t.pairing.value key = some s) (hfresh : key ∉ rest)
    (hdone : isComplete (doTimeout s) = false)
    (ht' : t'.pairing = t.pairing.setValue key (doTimeout s))
    (h : Sweeps doTimeout isComplete t' rest r) :
    Sweeps doTimeout isComplete t (key :: rest) ⟨r.table, key :: r.visited, r.deleted⟩ := by
  have hstays : r.table.pairing.value key = some (doTimeout s) := by
    rw [h.value, if_neg hfresh, ht', Pairing.setValue_value, if_pos rfl, hs]
    rfl
  constructor
  · exact congrArg _ h.visited
  · rw [List.filter_cons_of_neg (by rw [hstays]; exact Bool.false_ne_true)]
    exact h.deleted
  · intro k
    dsimp only
    by_cases heq : k = key
    · rw [heq, hstays, if_pos List.mem_cons_self, hs, Option.bind_some, ticked, hdone]
      rfl
    · rw [h.value, ht', Pairing.setValue_value, if_neg heq]
      exact if_congr (by rw [List.mem_cons, or_iff_right heq]) rfl rfl
  · intro k
    dsimp only
    rw [h.keys, ht', Pairing.setValue_keys]

variable (doTimeout isComplete)

/-- **From an iterator on, the loop comes to every entry ahead**, given fuel for each. -/
theorem sweepLoop_ahead {ks : List K1} (h : Ahead t ks) {fuel : Nat} (hfuel : ks.length < fuel) :
    ∃ r, sweepLoop doTimeout isComplete fuel t ks.head? = some r ∧
      Sweeps doTimeout isComplete t ks r := by
  induction ks generalizing t fuel with
  | nil =>
    obtain ⟨n, rfl⟩ := Nat.exists_eq_add_of_lt hfuel
    exact ⟨_, rfl, sweeps_nil doTimeout isComplete t⟩
  | cons key rest ih =>
    obtain ⟨n, rfl⟩ := Nat.exists_eq_add_of_lt hfuel
    have hfresh : key ∉ rest := (List.nodup_cons.mp h.nodup).1
    obtain ⟨s, hs⟩ := Option.isSome_iff_exists.mp (h.filed key List.mem_cons_self)
    rw [List.head?_cons, sweepLoop]
    split
    · next s' hk =>
      obtain rfl : s = s' := Option.some.inj (hs.symm.trans hk)
      dsimp only
      have hlt : rest.length < (key :: rest).length + n := by
        rw [List.length_cons]
        omega
      have hsome := isSome_of_findByKey1 hk
      -- when the iterator goes on, the entry is still there
      have hticked := h.congr (store_filed (doTimeout s) hsome)
      rw [hticked.next]
      split
      · next hdone =>
        have hfiled := isSome_store (s := doTimeout s) hsome
        have hrest : Ahead ((t.store key (doTimeout s) hsome).erase key hfiled) rest := by
          refine hticked.tail (fun k => ?_) (fun k hne hk => ?_)
          · rw [erase_pairing, Pairing.unpair_value]
            split
            · exact fun h => by cases h
            · exact id
          · rw [erase_pairing, Pairing.unpair_value, if_neg hne]
            exact hk
        obtain ⟨r, hr, hsweeps⟩ := ih hrest hlt
        refine ⟨_, congrArg (Option.map _) hr, hsweeps.cons_complete hs hfresh hdone ?_⟩
        rw [erase_pairing, store_pairing, unpair_setValue]
      · next hdone =>
        have hrest : Ahead (t.store key (doTimeout s) hsome) rest :=
          hticked.tail (fun _ => id) fun _ _ => id
        obtain ⟨r, hr, hsweeps⟩ := ih hrest hlt
        refine ⟨_, congrArg (Option.map _) hr, hsweeps.cons_stays hs hfresh ?_ (store_pairing ..)⟩
        exact Bool.eq_false_iff.mpr hdone
    · next hk =>
      rw [findByKey1_eq, hs] at hk
      cases hk

/-- **`routine`**: whatever the sessions are, the loop comes to its end and has visited each once. -/
theorem sweepLoop_begin (t : SessionTable K1 K2 S) :
    ∃ fuel r, sweepLoop doTimeout isComplete fuel t t.begin? = some r ∧
      Sweeps doTimeout isComplete t t.sessionMap.keys r := by
  obtain ⟨r, hr, h⟩ := sweepLoop_ahead doTimeout isComplete t.ahead_keys (Nat.lt_succ_self _)
  exact ⟨_, r, hr, h⟩

end

/-- Map and vector hold the same keys, each once. -/
def Consistent (t : SessionTable K1 K2 S) : Prop :=
  (∀ k, k ∈ t.sessionMap ↔ k ∈ t.keyMap.map KeyPair.key1) ∧
    (t.keyMap.map KeyPair.key1).Nodup ∧ (t.keyMap.map KeyPair.key2).Nodup

omit [DecidableEq K1] [DecidableEq K2] [Std.LawfulEqOrd K1] in
theorem consistent (t : SessionTable K1 K2 S) : t.Consistent := by
  obtain ⟨p, h⟩ := t.inOrder
  exact ⟨h.mem_sessionMap, h.nodup1, h.nodup2⟩

/-- A session is filed under its two keys. -/
def Files (t : SessionTable K1 K2 S) (k1 : K1) (k2 : K2) (s : S) : Prop :=
  t.findByKey1 k1 = some s ∧ t.getKey2ByKey1 k1 = some k2

section

variable {t : SessionTable K1 K2 S} {k1 : K1} {k2 : K2} {s : S}

theorem Files.add (h : t.Files k1 k2 s) (a : K1) (b : K2) (x : S) :
    (t.add a b x).2.Files k1 k2 s := by
  have hvalue : t.pairing.value k1 = some s := h.1
  have hkeys : t.pairing.keys k1 = some k2 := h.2
  show (t.add a b x).2.pairing.value k1 = some s ∧ (t.add a b x).2.pairing.keys k1 = some k2
  rw [add_pairing]
  by_cases hfree : t.pairing.Free a b
  · have hne : k1 ≠ a := by
      rintro rfl
      rw [hfree.1] at hkeys
      cases hkeys
    rw [Pairing.add_of_free x hfree, Pairing.pair_value, Pairing.pair_keys, if_neg hne, if_neg hne]
    exact ⟨hvalue, hkeys⟩
  · rw [Pairing.add_of_not_free x hfree]
    exact ⟨hvalue, hkeys⟩

theorem Files.removeByKey1 (h : t.Files k1 k2 s) {a : K1} (hne : a ≠ k1) :
    (t.removeByKey1 a).2.Files k1 k2 s := by
  show (t.removeByKey1 a).2.pairing.value k1 = some s ∧ (t.removeByKey1 a).2.pairing.keys k1 = some k2
  rw [removeByKey1_pairing, Pairing.unpair_value, Pairing.unpair_keys, if_neg hne.symm,
    if_neg hne.symm]
  exact h

theorem Files.store (h : t.Files k1 k2 s) {a : K1} (hne : a ≠ k1) (x : S)
    (ha : (t.findByKey1 a).isSome) : (t.store a x ha).Files k1 k2 s := by
  show (t.store a x ha).pairing.value k1 = some s ∧ (t.store a x ha).pairing.keys k1 = some k2
  rw [store_pairing, Pairing.setValue_value, Pairing.setValue_keys, if_neg hne.symm]
  exact h

omit [Std.TransOrd K1] [Std.LawfulEqOrd K1] in
/-- Tables with the same pairing file the same sessions. -/
theorem Files.congr (h : t.Files k1 k2 s) {t' : SessionTable K1 K2 S} (ht' : t'.pairing = t.pairing) :
    t'.Files k1 k2 s := by
  show t'.pairing.value k1 = some s ∧ t'.pairing.keys k1 = some k2
  rw [ht']
  exact h

end

/-- What a sweep is to do: it visits each session once and deletes exactly those that are expired;
    the others are left where they are, `aged`. -/
structure Expires (expired : S → Prop) (aged : S → S) (t : SessionTable K1 K2 S)
    (r : Swept K1 K2 S) : Prop where
  once : r.visited.Nodup
  all : ∀ k, k ∈ r.visited ↔ (t.findByKey1 k).isSome
  gone : ∀ k1 k2 s, t.Files k1 k2 s → (r.table.findByKey1 k1 = none ↔ expired s)
  left : ∀ k1 k2 s, t.Files k1 k2 s → ¬ expired s → r.table.Files k1 k2 (aged s)
  noNew : ∀ k, t.findByKey1 k = none → r.table.findByKey1 k = none
  deletedOnce : r.deleted.Nodup
  deleted : ∀ k, k ∈ r.deleted ↔ (t.findByKey1 k).isSome ∧ r.table.findByKey1 k = none
  consistent : r.table.Consistent

/-- Of every session the loop makes what a tick makes of it. -/
theorem Sweeps.ticks {doTimeout : S → S} {isComplete : S → Bool} {t : SessionTable K1 K2 S}
    {r : Swept K1 K2 S} (h : Sweeps doTimeout isComplete t t.sessionMap.keys r) (k : K1) :
    r.table.pairing.value k = (t.pairing.value k).bind (ticked doTimeout isComplete) := by
  rw [h.value]
  split
  · rfl
  · next hk =>
    rw [mem_keys_iff, Option.not_isSome_iff_eq_none] at hk
    rw [hk]
    rfl

/-- It leaves what the loop over the keys leaves. -/
theorem Sweeps.tickLoop_pairing {doTimeout : S → S} {isComplete : S → Bool}
    {t : SessionTable K1 K2 S} {r : Swept K1 K2 S}
    (h : Sweeps doTimeout isComplete t t.sessionMap.keys r) :
    (tickLoop doTimeout isComplete t t.sessionMap.keys).pairing = r.table.pairing := by
  have hvalue : (tickLoop doTimeout isComplete t t.sessionMap.keys).pairing.value =
      r.table.pairing.value := by
    funext k
    rw [(t.tickLoop_keys_lookup doTimeout isComplete k).1, h.ticks]
  refine Pairing.ext (PEquiv.ext fun k => ?_) hvalue
  rw [(t.tickLoop_keys_lookup doTimeout isComplete k).2, h.keys, hvalue]

omit [Ord K1] [DecidableEq K1] [DecidableEq K2] [Std.TransOrd K1] [Std.LawfulEqOrd K1] in
/-- A tick sets the clock of a session forward, and closes it if that is too late. -/
theorem ticked_of_clock {doTimeout : S → S} {isComplete : S → Bool} {aged close : S → S} {s : S}
    {late : Prop} [Decidable late]
    (hdo : doTimeout s = if late then close (aged s) else aged s)
    (hclose : isComplete (close (aged s)) = true) :
    ticked doTimeout isComplete s =
      if late ∨ isComplete (aged s) = true then none else some (aged s) := by
  rw [ticked, hdo]
  by_cases hlate : late
  · rw [if_pos hlate, if_pos hclose, if_pos (Or.inl hlate)]
  · rw [if_neg hlate]
    by_cases hclosed : isComplete (aged s) = true
    · rw [if_pos hclosed, if_pos (Or.inr hclosed)]
    · rw [if_neg hclosed, if_neg fun h => h.elim hlate hclosed]

omit [Ord K1] [DecidableEq K1] [DecidableEq K2] [Std.TransOrd K1] [Std.LawfulEqOrd K1] in
theorem not_late {time delta timeout : Int} {closed : Bool} (hle : time + delta ≤ timeout)
    (hopen : closed = false) : ¬ (time + delta > timeout ∨ closed = true) := by
  rintro (hlate | hclosed)
  · omega
  · rw [hopen] at hclosed
    cases hclosed

theorem Sweeps.expires {doTimeout : S → S} {isComplete : S → Bool} {expired : S → Prop}
    [DecidablePred expired] {aged : S → S} {t : SessionTable K1 K2 S} {r : Swept K1 K2 S}
    (h : Sweeps doTimeout isComplete t t.sessionMap.keys r)
    (hticked : ∀ s, ticked doTimeout isComplete s = if expired s then none else some (aged s)) :
    Expires expired aged t r := by
  have hfiled : ∀ k1 k2 s, t.Files k1 k2 s →
      r.table.pairing.value k1 = if expired s then none else some (aged s) := by
    intro k1 k2 s hs
    rw [h.ticks, ← findByKey1_eq, hs.1, Option.bind_some, hticked]
  constructor
  · rw [h.visited]
    exact t.ahead_keys.nodup
  · intro k
    rw [h.visited]
    exact t.mem_keys_iff k
  · intro k1 k2 s hs
    rw [findByKey1_eq, hfiled k1 k2 s hs]
    by_cases hexp : expired s
    · rw [if_pos hexp]
      exact iff_of_true rfl hexp
    · rw [if_neg hexp]
      exact iff_of_false (Option.some_ne_none _) hexp
  · intro k1 k2 s hs hexp
    have hstays := hfiled k1 k2 s hs
    rw [if_neg hexp] at hstays
    refine ⟨hstays, (h.keys k1).trans ?_⟩
    rw [hstays]
    exact hs.2
  · intro k hk
    rw [findByKey1_eq] at hk ⊢
    rw [h.ticks, hk]
    rfl
  · rw [h.deleted]
    exact t.ahead_keys.nodup.filter _
  · intro k
    rw [h.deleted, List.mem_filter, mem_keys_iff, Option.isNone_iff_eq_none]
    rfl
  · exact r.table.consistent

end SessionTable

/-! ## The handlers -/

namespace FGWClientForwardSession

/-- The time is up with this tick, or the session was closed before. -/
def Expired (delta : Int) (s : FGWClientForwardSession) : Prop :=
  s.touchTime + delta > s.timeout ∨ s.closed = true

instance (delta : Int) : DecidablePred (Expired delta) := fun _ => inferInstanceAs (Decidable (_ ∨ _))

def aged (delta : Int) (s : FGWClientForwardSession) : FGWClientForwardSession :=
  { s with touchTime := s.touchTime + delta }

theorem ticked_eq (delta : Int) (s : FGWClientForwardSession) :
    SessionTable.ticked (doTimeout · delta) isComplete s =
      if s.Expired delta then none else some (s.aged delta) := by
  have hdo : s.doTimeout delta =
      if s.touchTime + delta > s.timeout then close (s.aged delta) else s.aged delta := rfl
  have hclose : isComplete (close (s.aged delta)) = true := rfl
  exact SessionTable.ticked_of_clock hdo hclose

end FGWClientForwardSession

namespace ZZigBeeSession

/-- The time is up with this tick, or the session was closed before. -/
def Expired (delta : Int) (s : ZZigBeeSession) : Prop :=
  s.touchTime + delta > s.timeout ∨ s.closed = true

instance (delta : Int) : DecidablePred (Expired delta) := fun _ => inferInstanceAs (Decidable (_ ∨ _))

def aged (delta : Int) (s : ZZigBeeSession) : ZZigBeeSession :=
  { s with touchTime := s.touchTime + delta }

theorem ticked_eq (delta : Int) (s : ZZigBeeSession) :
    SessionTable.ticked (doTimeout · delta) isComplete s =
      if s.Expired delta then none else some (s.aged delta) := by
  have hdo : s.doTimeout delta =
      if s.touchTime + delta > s.timeout then close (s.aged delta) else s.aged delta := rfl
  have hclose : isComplete (close (s.aged delta)) = true := rfl
  exact SessionTable.ticked_of_clock hdo hclose

end ZZigBeeSession

namespace FGWClientHandler

/-- The loop of `routine`, with its iterator. -/
def sweep (h : FGWClientHandler) (delta : Int) (fuel : Nat) :=
  SessionTable.sweepLoop (FGWClientForwardSession.doTimeout · delta)
    FGWClientForwardSession.isComplete fuel h.sessionCtrl h.sessionCtrl.begin?

/-- It comes to its end, with the sessions expired whose time is up. -/
theorem sweep_expires (h : FGWClientHandler) (delta : Int) :
    ∃ fuel r, h.sweep delta fuel = some r ∧
      SessionTable.Expires (FGWClientForwardSession.Expired delta)
        (FGWClientForwardSession.aged delta) h.sessionCtrl r ∧
      (h.routine delta).sessionCtrl.pairing = r.table.pairing := by
  obtain ⟨fuel, r, hr, hsweeps⟩ := SessionTable.sweepLoop_begin
    (FGWClientForwardSession.doTimeout · delta) FGWClientForwardSession.isComplete h.sessionCtrl
  refine ⟨fuel, r, hr, hsweeps.expires (FGWClientForwardSession.ticked_eq delta), ?_⟩
  rw [routine]
  dsimp only
  rw [routineLoop_eq, hsweeps.tickLoop_pairing]

/-- The handler after an event. -/
def next (pb : Protobuf) (h : FGWClientHandler) (e : Event) : FGWClientHandler := (h.step pb e).1

def Event.time : Event → Int
  | .routine delta => delta
  | _ => 0

/-- An inner message goes to the session under its number. -/
def Event.Answers (k : UInt32) : Event → Prop
  | .inner msg => msg.seq = k
  | _ => False

section

variable {pb : Protobuf} {h : FGWClientHandler} {k k2 : UInt32} {s : FGWClientForwardSession}

theorem onInnerMsg_files (hs : h.sessionCtrl.Files k k2 s) {msg : ZInnerMsg} (hne : msg.seq ≠ k) :
    (h.onInnerMsg pb msg).1.sessionCtrl.Files k k2 s := by
  rw [onInnerMsg]
  split
  · exact hs
  · dsimp only
    split
    · exact hs.removeByKey1 hne
    · exact hs.store hne _ _

theorem onRead_files (hs : h.sessionCtrl.Files k k2 s) (buf : List UInt8) :
    (h.onRead pb buf).1.sessionCtrl.Files k k2 s := by
  rw [onRead]
  split
  · exact hs
  · rw [(onReadWaitForServer_frame pb h buf).1]
    exact hs
  · by_cases hbuf : buf = []
    · rw [hbuf]
      exact hs
    · rcases onReadRegistered_cases pb h hbuf with
        ⟨-, heq⟩ | ⟨msg, -, ⟨-, heq⟩ | ⟨-, -, heq⟩ | ⟨body, -, -, heq⟩⟩
      · rw [heq]
        exact hs
      · rw [heq]
        exact hs
      · rw [heq]
        exact hs
      · rw [heq]
        exact hs.add _ _ _

/-- **What an event leaves of a session**: but for an answer it stays, and gets older with a tick. -/
theorem next_files (hs : h.sessionCtrl.Files k k2 s) (hopen : s.closed = false) {e : Event}
    (hans : ¬ e.Answers k) (htime : s.touchTime + e.time ≤ s.timeout) :
    (h.next pb e).sessionCtrl.Files k k2 (s.aged e.time) := by
  have hsame : s.aged 0 = s := by rw [FGWClientForwardSession.aged, Int.add_zero]
  cases e with
  | init =>
    show h.sessionCtrl.Files k k2 (s.aged 0)
    rw [hsame]
    exact hs
  | connected fd =>
    show (onConnected pb { h with fd := fd }).1.sessionCtrl.Files k k2 (s.aged 0)
    rw [hsame, onConnected, (fgwLogin_frame pb _).1]
    exact hs
  | read buf =>
    show (h.onRead pb buf).1.sessionCtrl.Files k k2 (s.aged 0)
    rw [hsame]
    exact onRead_files hs buf
  | inner msg =>
    show (h.onInnerMsg pb msg).1.sessionCtrl.Files k k2 (s.aged 0)
    rw [hsame]
    exact onInnerMsg_files hs hans
  | timer id =>
    show (h.timerCallback pb id).1.sessionCtrl.Files k k2 (s.aged 0)
    rw [hsame, (timerCallback_frame pb h id).1]
    exact hs
  | routine delta =>
    have hyoung : ¬ s.Expired delta := SessionTable.not_late htime hopen
    obtain ⟨fuel, r, -, hexpires, hpairing⟩ := sweep_expires h delta
    exact (hexpires.left k k2 s hs hyoung).congr hpairing

end

/-- A session that nobody answers is there, with its keys, as long as the ticks do not add up to more
    than its timeout, and goes at the first with which they do. -/
def ExpiresInTime (pb : Protobuf) (h : FGWClientHandler) : Prop :=
  ∀ (es : List Event) (k k2 : UInt32) (s : FGWClientForwardSession) (delta : Int),
    h.sessionCtrl.Files k k2 s → s.closed = false →
    (∀ e ∈ es, 0 ≤ e.time) → (∀ v ∈ Runs.visits (next pb) h es, ¬ v.2.Answers k) →
    s.touchTime + Runs.elapsed Event.time es ≤ s.timeout →
    (es.foldl (next pb) h).sessionCtrl.Files k k2 (s.aged (Runs.elapsed Event.time es)) ∧
      (s.touchTime + Runs.elapsed Event.time es + delta > s.timeout →
        ((es.foldl (next pb) h).routine delta).sessionCtrl.findByKey1 k = none)

theorem expires_in_time (pb : Protobuf) (h : FGWClientHandler) : h.ExpiresInTime pb := by
  intro es k k2 s delta hs hopen htime hans hlimit
  have hrun := @Runs.foldl_clock _ _ (next pb)
    (fun t h => h.sessionCtrl.Files k k2 { s with touchTime := t }) (fun _ e => ¬ e.Answers k)
    Event.time s.timeout (fun h e t hs hans hle => next_files hs hopen hans hle) h s.touchTime hs es
    htime hans hlimit
  refine ⟨hrun, fun hlate => ?_⟩
  obtain ⟨fuel, r, -, hexpires, hpairing⟩ := sweep_expires (es.foldl (next pb) h) delta
  have hgone := (hexpires.gone k k2 _ hrun).mpr (Or.inl hlate)
  rw [SessionTable.findByKey1_eq, hpairing]
  exact hgone

end FGWClientHandler

namespace ZZigBeeHandler

/-- The loop of `routine`, with its iterator. -/
def sweep (h : ZZigBeeHandler) (delta : Int) (fuel : Nat) :=
  SessionTable.sweepLoop (ZZigBeeSession.doTimeout · delta) ZZigBeeSession.isComplete fuel
    h.sessionCtrl h.sessionCtrl.begin?

theorem sweep_expires (h : ZZigBeeHandler) (delta : Int) :
    ∃ fuel r, h.sweep delta fuel = some r ∧
      SessionTable.Expires (ZZigBeeSession.Expired delta) (ZZigBeeSession.aged delta)
        h.sessionCtrl r ∧
      (h.routine delta).sessionCtrl.pairing = r.table.pairing := by
  obtain ⟨fuel, r, hr, hsweeps⟩ := SessionTable.sweepLoop_begin (ZZigBeeSession.doTimeout · delta)
    ZZigBeeSession.isComplete h.sessionCtrl
  exact ⟨fuel, r, hr, hsweeps.expires (ZZigBeeSession.ticked_eq delta), hsweeps.tickLoop_pairing⟩

/-- The handler after an event.  A program that stops changes nothing any more. -/
def next (h : ZZigBeeHandler) (e : Event) : ZZigBeeHandler :=
  match h.step e with
  | .ok (h', _) => h'
  | .error _ => h

def Event.time : Event → Int
  | .routine delta => delta
  | _ => 0

/-- An answer of the module goes to the session that its address finds. -/
def Answers (h : ZZigBeeHandler) (k : UInt32) : Event → Prop
  | .read msg _ _ => (responseKind msg).isSome ∧
      ∃ s, h.sessionCtrl.findByKey2 (addrKey msg.header.addr) = some s ∧ s.key = k
  | _ => False

section

variable {h : ZZigBeeHandler} {k k2 : UInt32} {s : ZZigBeeSession}

theorem next_of_quiet {e : Event} (hquiet : ∀ r, h.step e = .ok r → r.1.sessionCtrl = h.sessionCtrl) :
    (h.next e).sessionCtrl = h.sessionCtrl := by
  rw [next]
  cases hstep : h.step e with
  | error a => rfl
  | ok r => exact hquiet r hstep

theorem processRsp_files (hs : h.sessionCtrl.Files k k2 s) {addr : UInt16}
    (hans : ∀ x, h.sessionCtrl.findByKey2 (addrKey addr) = some x → x.key ≠ k) (rsp : InnerBody) :
    (h.processRsp addr rsp).1.sessionCtrl.Files k k2 s := by
  rw [processRsp]
  split
  · exact hs
  · next x hx => exact hs.removeByKey1 (hans x hx)

theorem next_read_files (hs : h.sessionCtrl.Files k k2 s) {msg : ZbMsg} {j : Junk} {written : Int}
    (hans : ¬ h.Answers k (.read msg j written)) :
    (h.next (.read msg j written)).sessionCtrl.Files k k2 s := by
  cases hkind : responseKind msg with
  | none =>
    have hquiet := next_of_quiet (h := h) (e := .read msg j written)
      fun r hr => ModuleExchange.onRead_quiet hkind hr
    rw [hquiet]
    exact hs
  | some kind =>
    obtain ⟨body, hstep⟩ := ModuleExchange.step_response h hkind j written
    have hother : ∀ x, h.sessionCtrl.findByKey2 (addrKey msg.header.addr) = some x → x.key ≠ k := by
      intro x hx hkey
      exact hans ⟨by rw [hkind]; rfl, x, hx, hkey⟩
    rw [next, hstep]
    exact processRsp_files hs hother body

theorem next_inner_files (hs : h.sessionCtrl.Files k k2 s) (msg : ZInnerMsg) (j : Junk)
    (written : Int) : (h.next (.inner msg j written)).sessionCtrl.Files k k2 s := by
  by_cases hbody : msg.body = .bindReq
  · obtain ⟨bytes, hbind⟩ := ModuleExchange.processBindReq_eq h msg j written
    have hstep : h.step (.inner msg j written) = .ok (h.processBindReq msg j written) := by
      rw [step, onInnerMsg, hbody]
    rw [next, hstep, hbind]
    by_cases hfd : h.fd ≤ 0
    · rw [if_pos hfd]
      exact hs
    · rw [if_neg hfd]
      by_cases hwritten : written ≤ 0
      · rw [if_pos hwritten]
        exact hs
      · rw [if_neg hwritten]
        exact hs.add _ _ _
  · have hquiet := next_of_quiet (h := h) (e := .inner msg j written)
      fun r hr => congrArg _ (ModuleExchange.onInnerMsg_quiet hbody hr).1
    rw [hquiet]
    exact hs

/-- **What an event leaves of a session.** -/
theorem next_files (hs : h.sessionCtrl.Files k k2 s) (hopen : s.closed = false) {e : Event}
    (hans : ¬ h.Answers k e) (htime : s.touchTime + e.time ≤ s.timeout) :
    (h.next e).sessionCtrl.Files k k2 (s.aged e.time) := by
  have hsame : s.aged 0 = s := by rw [ZZigBeeSession.aged, Int.add_zero]
  cases e with
  | connected fd j written =>
    show (h.next _).sessionCtrl.Files k k2 (s.aged 0)
    rw [hsame, next_of_quiet fun r hr => ModuleExchange.onConnected_quiet hr]
    exact hs
  | read msg j written =>
    show (h.next _).sessionCtrl.Files k k2 (s.aged 0)
    rw [hsame]
    exact next_read_files hs hans
  | inner msg j written =>
    show (h.next _).sessionCtrl.Files k k2 (s.aged 0)
    rw [hsame]
    exact next_inner_files hs msg j written
  | routine delta =>
    have hyoung : ¬ s.Expired delta := SessionTable.not_late htime hopen
    obtain ⟨fuel, r, -, hexpires, hpairing⟩ := sweep_expires h delta
    exact (hexpires.left k k2 s hs hyoung).congr hpairing

end

/-- As for the handler of the server's requests. -/
def ExpiresInTime (h : ZZigBeeHandler) : Prop :=
  ∀ (es : List Event) (k k2 : UInt32) (s : ZZigBeeSession) (delta : Int),
    h.sessionCtrl.Files k k2 s → s.closed = false →
    (∀ e ∈ es, 0 ≤ e.time) → (∀ v ∈ Runs.visits next h es, ¬ v.1.Answers k v.2) →
    s.touchTime + Runs.elapsed Event.time es ≤ s.timeout →
    (es.foldl next h).sessionCtrl.Files k k2 (s.aged (Runs.elapsed Event.time es)) ∧
      (s.touchTime + Runs.elapsed Event.time es + delta > s.timeout →
        ((es.foldl next h).routine delta).sessionCtrl.findByKey1 k = none)

theorem expires_in_time (h : ZZigBeeHandler) : h.ExpiresInTime := by
  intro es k k2 s delta hs hopen htime hans hlimit
  have hrun := @Runs.foldl_clock _ _ next
    (fun t h => h.sessionCtrl.Files k k2 { s with touchTime := t }) (fun h e => ¬ h.Answers k e)
    Event.time s.timeout (fun h e t hs hans hle => next_files hs hopen hans hle) h s.touchTime hs es
    htime hans hlimit
  refine ⟨hrun, fun hlate => ?_⟩
  obtain ⟨fuel, r, -, hexpires, hpairing⟩ := sweep_expires (es.foldl next h) delta
  have hgone := (hexpires.gone k k2 _ hrun).mpr (Or.inl hlate)
  rw [SessionTable.findByKey1_eq, hpairing]
  exact hgone

end ZZigBeeHandler

/-- **Sessions expire** as they should, of either handler, whatever its table: with one sweep, and
    over any run of events. -/
theorem sessions_expire (pb : Protobuf) (h : FGWClientHandler) (z : ZZigBeeHandler) (delta : Int) :
    (∃ fuel r, h.sweep delta fuel = some r ∧
      SessionTable.Expires (FGWClientForwardSession.Expired delta)
        (FGWClientForwardSession.aged delta) h.sessionCtrl r ∧
      (h.routine delta).sessionCtrl.pairing = r.table.pairing) ∧
    (∃ fuel r, z.sweep delta fuel = some r ∧
      SessionTable.Expires (ZZigBeeSession.Expired delta) (ZZigBeeSession.aged delta)
        z.sessionCtrl r ∧
      (z.routine delta).sessionCtrl.pairing = r.table.pairing) ∧
    h.ExpiresInTime pb ∧ z.ExpiresInTime :=
  ⟨h.sweep_expires delta, z.sweep_expires delta, h.expires_in_time pb, z.expires_in_time⟩

end Monsys

/-
  The two tables of the Python server's gateway handler, over whole runs.

  1. **Tables** — `InStep`: both hold the same sessions, each under its own keys.  What adding,
     removing and timing out do to it.
  2. **Order** — `Ordered`: what holds of a handler until a session is added where it must not be:
     the keys of the sessions are drawn in turn, and those whose query is out are in no table.
  3. **Runs** — `sound_iff`: the tables stay in step exactly if no request comes back from its query
     while a session stands under its key, and none is added with a key that no dictionary takes.
-/
import Monsys.FgwServer
import Monsys.Lib.Runs
import Mathlib.Data.List.Nodup
import Mathlib.Logic.Function.Basic

namespace Monsys

namespace FgwServer

variable {κ : Type}

/-! ## Tables -/

theorem Session.checkTimeout_keys (s : Session κ) (timeout curTime : Int) :
    (s.checkTimeout timeout curTime).key = s.key ∧
      (s.checkTimeout timeout curTime).extKey = s.extKey := by
  unfold Session.checkTimeout
  split
  · exact ⟨rfl, rfl⟩
  · split <;> exact ⟨rfl, rfl⟩

/-- The keys of a session. -/
def label (sessions : List (Session κ)) (r : Nat) : Option (Nat × κ) :=
  sessions[r]?.map fun session => (session.key, session.extKey)

theorem label_lt {sessions : List (Session κ)} {r : Nat} {p : Nat × κ}
    (h : label sessions r = some p) : r < sessions.length := by
  obtain ⟨session, hs, -⟩ := Option.map_eq_some_iff.mp h
  exact (List.getElem?_eq_some_iff.mp hs).1

/-- A session that changes keeps its keys. -/
theorem label_set {sessions : List (Session κ)} {r : Nat} {session session' : Session κ}
    (hs : sessions[r]? = some session) (hkey : session'.key = session.key)
    (hext : session'.extKey = session.extKey) :
    label (sessions.set r session') = label sessions := by
  funext r'
  unfold label
  by_cases hr : r' = r
  · subst hr
    rw [List.getElem?_set_self (List.getElem?_eq_some_iff.mp hs).1, hs, Option.map_some,
      Option.map_some, hkey, hext]
  · rw [List.getElem?_set_ne (Ne.symm hr)]

theorem label_append (sessions : List (Session κ)) (session : Session κ) (r : Nat) :
    label (sessions ++ [session]) r =
      if r = sessions.length then some (session.key, session.extKey) else label sessions r := by
  unfold label
  rcases Nat.lt_trichotomy r sessions.length with hlt | rfl | hgt
  · rw [if_neg (by omega), List.getElem?_append_left hlt]
  · rw [if_pos rfl, List.getElem?_concat_length, Option.map_some]
  · rw [if_neg (by omega), List.getElem?_eq_none (by rw [List.length_append]; exact hgt),
      List.getElem?_eq_none (Nat.le_of_lt hgt)]

/-- Where a table changes at one key, who is not concerned stands in it as before. -/
theorem exists_find_congr {α : Type} {find find' : α → Option Nat} {a : α} {r : Nat}
    (hsame : ∀ b, b ≠ a → find' b = find b) (h : find a ≠ some r) (h' : find' a ≠ some r) :
    (∃ b, find' b = some r) ↔ ∃ b, find b = some r := by
  refine exists_congr fun b => ?_
  by_cases hb : b = a
  · rw [hb]
    exact iff_of_false h' h
  · rw [hsame b hb]

namespace SessionCtrl

variable [DecidableEq κ] {c : SessionCtrl κ} {labels : Nat → Option (Nat × κ)}

/-- Both tables hold the same sessions, each under its own keys. -/
structure InStep (c : SessionCtrl κ) (labels : Nat → Option (Nat × κ)) : Prop where
  own : ∀ k r, c.find k = some r → ∃ x, labels r = some (k, x)
  ownExt : ∀ x r, c.findByExternalKey x = some r → ∃ k, labels r = some (k, x)
  same : ∀ r, (∃ k, c.find k = some r) ↔ ∃ x, c.findByExternalKey x = some r

theorem inStep_new (labels : Nat → Option (Nat × κ)) : (new : SessionCtrl κ).InStep labels where
  own := fun k r h => by cases h
  ownExt := fun x r h => by cases h
  same := fun r => ⟨fun ⟨k, h⟩ => (by cases h), fun ⟨x, h⟩ => (by cases h)⟩

/-- A session that is in the tables is found under both of its keys. -/
theorem InStep.both (h : c.InStep labels) {k k' r : Nat} {x : κ} (hr : c.find k' = some r)
    (hlabel : labels r = some (k, x)) :
    c.find k = some r ∧ c.findByExternalKey x = some r := by
  obtain ⟨x', hx'⟩ := h.own k' r hr
  obtain ⟨rfl, rfl⟩ := Prod.mk.inj (Option.some.inj (hlabel.symm.trans hx'))
  obtain ⟨x'', hext⟩ := (h.same r).mp ⟨k, hr⟩
  obtain ⟨k'', hk''⟩ := h.ownExt x'' r hext
  obtain ⟨-, rfl⟩ := Prod.mk.inj (Option.some.inj (hlabel.symm.trans hk''))
  exact ⟨hr, hext⟩

/-- Two sessions of the tables have not one key. -/
theorem InStep.distinct (h : c.InStep labels) {k₁ k₂ k k' r r' : Nat} {x : κ}
    (hr : c.find k₁ = some r) (hr' : c.find k₂ = some r') (hlabel : labels r = some (k, x))
    (hlabel' : labels r' = some (k', x)) : r = r' :=
  Option.some.inj ((h.both hr hlabel).2.symm.trans (h.both hr' hlabel').2)

variable {hashable : κ → Bool}

theorem find_add (c : SessionCtrl κ) (key : Nat) (extKey : κ) (r k : Nat) :
    (c.add hashable key extKey r).1.find k = if k = key then some r else c.find k := by
  have hfind : (c.sessionMap.insert key r).lookup k = if k = key then some r else c.find k := by
    by_cases hk : k = key
    · rw [if_pos hk, hk, AList.lookup_insert]
    · rw [if_neg hk, AList.lookup_insert_ne hk]
      rfl
  unfold add
  split <;> exact hfind

theorem findByExternalKey_add (c : SessionCtrl κ) (key : Nat) (extKey : κ) (r : Nat) (x : κ) :
    (c.add hashable key extKey r).1.findByExternalKey x =
      if x = extKey ∧ hashable extKey = true then some r else c.findByExternalKey x := by
  unfold add
  by_cases hhash : hashable extKey = true
  · rw [if_pos hhash]
    by_cases hx : x = extKey
    · rw [if_pos ⟨hx, hhash⟩, hx]
      exact AList.lookup_insert _
    · rw [if_neg fun h => hx h.1]
      exact AList.lookup_insert_ne hx
  · rw [if_neg hhash, if_neg fun h => hhash h.2]
    rfl

/-- A session that is in neither table is added under keys that are free. -/
theorem InStep.add (h : c.InStep labels) {key r : Nat} {extKey : κ}
    (hlabel : labels r = some (key, extKey)) (hnew : ¬ ∃ k, c.find k = some r)
    (hkey : c.find key = none) (hext : c.findByExternalKey extKey = none)
    (hhash : hashable extKey = true) :
    (c.add hashable key extKey r).1.InStep labels := by
  refine ⟨?_, ?_, ?_⟩
  · intro k r' hr'
    rw [find_add] at hr'
    split at hr'
    · next hk =>
      rw [hk, ← Option.some.inj hr']
      exact ⟨extKey, hlabel⟩
    · exact h.own k r' hr'
  · intro x r' hr'
    rw [findByExternalKey_add] at hr'
    split at hr'
    · next hx =>
      rw [hx.1, ← Option.some.inj hr']
      exact ⟨key, hlabel⟩
    · exact h.ownExt x r' hr'
  · intro r'
    by_cases hr' : r' = r
    · subst hr'
      refine iff_of_true ⟨key, ?_⟩ ⟨extKey, ?_⟩
      · rw [find_add, if_pos rfl]
      · rw [findByExternalKey_add, if_pos ⟨rfl, hhash⟩]
    · -- nobody else gains or loses a place
      have hsm : (∃ k, (c.add hashable key extKey r).1.find k = some r') ↔
          ∃ k, c.find k = some r' := by
        refine exists_find_congr (fun k hk => by rw [find_add, if_neg hk]) ?_ ?_
        · rw [hkey]
          exact nofun
        · rw [find_add, if_pos rfl]
          exact fun hcon => hr' (Option.some.inj hcon).symm
      have hem : (∃ x, (c.add hashable key extKey r).1.findByExternalKey x = some r') ↔
          ∃ x, c.findByExternalKey x = some r' := by
        refine exists_find_congr
          (fun x hx => by rw [findByExternalKey_add, if_neg fun h' => hx h'.1]) ?_ ?_
        · rw [hext]
          exact nofun
        · rw [findByExternalKey_add, if_pos ⟨rfl, hhash⟩]
          exact fun hcon => hr' (Option.some.inj hcon).symm
      rw [hsm, hem]
      exact h.same r'

theorem find_remove (c : SessionCtrl κ) (sessions : List (Session κ)) (key k : Nat) :
    (c.remove sessions key).find k = if k = key then none else c.find k := by
  have herase : (c.sessionMap.erase key).lookup k = if k = key then none else c.find k := by
    by_cases hk : k = key
    · rw [if_pos hk, hk, AList.lookup_erase]
    · rw [if_neg hk, AList.lookup_erase_ne hk]
      rfl
  unfold remove
  cases hr : c.find key with
  | none =>
    by_cases hk : k = key
    · rw [if_pos hk, hk]
      exact hr
    · rw [if_neg hk]
  | some r =>
    simp only
    split <;> exact herase

theorem findByExternalKey_remove (c : SessionCtrl κ) {sessions : List (Session κ)} {key k r : Nat}
    {extKey : κ} (hr : c.find key = some r) (hlabel : label sessions r = some (k, extKey)) (x : κ) :
    (c.remove sessions key).findByExternalKey x =
      if x = extKey then none else c.findByExternalKey x := by
  obtain ⟨session, hs, hlabel⟩ := Option.map_eq_some_iff.mp hlabel
  obtain ⟨-, rfl⟩ := Prod.mk.inj hlabel
  simp only [remove, hr, hs, findByExternalKey]
  by_cases hx : x = session.extKey
  · rw [if_pos hx, hx, AList.lookup_erase]
  · rw [if_neg hx, AList.lookup_erase_ne hx]

theorem remove_of_none {c : SessionCtrl κ} {key : Nat} (h : c.find key = none)
    (sessions : List (Session κ)) : c.remove sessions key = c := by
  simp only [remove, h]

/-- A session is removed from both. -/
theorem InStep.remove {sessions : List (Session κ)} (h : c.InStep (label sessions)) (key : Nat) :
    (c.remove sessions key).InStep (label sessions) := by
  cases hr : c.find key with
  | none =>
    rw [remove_of_none hr]
    exact h
  | some r =>
    obtain ⟨extKey, hlabel⟩ := h.own key r hr
    have hem := fun x => findByExternalKey_remove c hr hlabel x
    have hext := (h.both hr hlabel).2
    refine ⟨?_, ?_, ?_⟩
    · intro k r' hr'
      rw [find_remove] at hr'
      split at hr'
      · cases hr'
      · exact h.own k r' hr'
    · intro x r' hr'
      rw [hem] at hr'
      split at hr'
      · cases hr'
      · exact h.ownExt x r' hr'
    · intro r'
      by_cases hr' : r' = r
      · subst hr'
        refine iff_of_false ?_ ?_
        · rintro ⟨k, hk⟩
          rw [find_remove] at hk
          split at hk
          · cases hk
          · next hne =>
            obtain ⟨x, hx⟩ := h.own k r' hk
            exact hne (Prod.mk.inj (Option.some.inj (hx.symm.trans hlabel))).1
        · rintro ⟨x, hx⟩
          rw [hem] at hx
          split at hx
          · cases hx
          · next hne =>
            obtain ⟨k, hk⟩ := h.ownExt x r' hx
            exact hne (Prod.mk.inj (Option.some.inj (hk.symm.trans hlabel))).2
      · have hsm : (∃ k, (c.remove sessions key).find k = some r') ↔ ∃ k, c.find k = some r' := by
          refine exists_find_congr (fun k hk => by rw [find_remove, if_neg hk]) ?_ ?_
          · rw [hr]
            exact fun hcon => hr' (Option.some.inj hcon).symm
          · rw [find_remove, if_pos rfl]
            exact nofun
        have hem' : (∃ x, (c.remove sessions key).findByExternalKey x = some r') ↔
            ∃ x, c.findByExternalKey x = some r' := by
          refine exists_find_congr (fun x hx => by rw [hem, if_neg hx]) ?_ ?_
          · rw [hext]
            exact fun hcon => hr' (Option.some.inj hcon).symm
          · rw [hem, if_pos rfl]
            exact nofun
        rw [hsm, hem']
        exact h.same r'

/-- Entries are lost, and no key is drawn. -/
structure Shrinks (c' c : SessionCtrl κ) : Prop where
  find : ∀ k r, c'.find k = some r → c.find k = some r
  findByExternalKey : ∀ x r, c'.findByExternalKey x = some r → c.findByExternalKey x = some r
  lastKey : c'.lastKey = c.lastKey

theorem Shrinks.refl (c : SessionCtrl κ) : Shrinks c c := ⟨fun _ _ h => h, fun _ _ h => h, rfl⟩

theorem Shrinks.trans {c₁ c₂ c₃ : SessionCtrl κ} (h : Shrinks c₁ c₂) (h' : Shrinks c₂ c₃) :
    Shrinks c₁ c₃ where
  find := fun k r hr => h'.find k r (h.find k r hr)
  findByExternalKey := fun x r hr => h'.findByExternalKey x r (h.findByExternalKey x r hr)
  lastKey := h.lastKey.trans h'.lastKey

theorem shrinks_remove (c : SessionCtrl κ) (sessions : List (Session κ)) (key : Nat) :
    Shrinks (c.remove sessions key) c where
  find := by
    intro k r hr
    rw [find_remove] at hr
    split at hr
    · cases hr
    · exact hr
  findByExternalKey := by
    intro x r hx
    unfold remove at hx
    split at hx
    · exact hx
    · simp only at hx
      split at hx
      · exact hx
      · next session _ =>
        by_cases hne : x = session.extKey
        · rw [SessionCtrl.findByExternalKey, hne, AList.lookup_erase] at hx
          cases hx
        · rw [SessionCtrl.findByExternalKey, AList.lookup_erase_ne hne] at hx
          exact hx
  lastKey := by
    unfold remove
    split
    · rfl
    · simp only
      split <;> rfl

/-! ### Timeouts -/

omit [DecidableEq κ] in
/-- The first loop changes no keys, and takes down the keys of sessions that it has met. -/
theorem timeoutLoop_spec (timeout curTime : Int) :
    ∀ (entries : List (Sigma fun _ : Nat => Nat)) (sessions : List (Session κ)),
      label (timeoutLoop timeout curTime entries sessions).2 = label sessions ∧
      (timeoutLoop timeout curTime entries sessions).2.length = sessions.length ∧
      (((timeoutLoop timeout curTime entries sessions).1.map Prod.fst).Sublist
        (entries.map Sigma.fst)) ∧
      ∀ p ∈ (timeoutLoop timeout curTime entries sessions).1,
        ∃ e ∈ entries, e.1 = p.1 ∧ ∃ k, label sessions e.2 = some (k, p.2) := by
  intro entries
  induction entries with
  | nil =>
    intro sessions
    exact ⟨rfl, rfl, List.Sublist.refl _, fun p hp => by cases hp⟩
  | cons e entries ih =>
    intro sessions
    obtain ⟨key, r⟩ := e
    unfold timeoutLoop
    cases hs : sessions[r]? with
    | none =>
      obtain ⟨hlabel, hlength, hkeys, hmem⟩ := ih sessions
      refine ⟨hlabel, hlength, hkeys.cons _, fun p hp => ?_⟩
      obtain ⟨e, he, hp⟩ := hmem p hp
      exact ⟨e, List.mem_cons_of_mem _ he, hp⟩
    | some session =>
      have hkeys' := Session.checkTimeout_keys session timeout curTime
      have hset := label_set hs hkeys'.1 hkeys'.2
      obtain ⟨hlabel, hlength, hkeys, hmem⟩ :=
        ih (sessions.set r (session.checkTimeout timeout curTime))
      rw [hset] at hlabel hmem
      rw [List.length_set] at hlength
      have hrest : ∀ p ∈ (timeoutLoop timeout curTime entries
          (sessions.set r (session.checkTimeout timeout curTime))).1,
          ∃ e ∈ (⟨key, r⟩ : Sigma fun _ : Nat => Nat) :: entries,
            e.1 = p.1 ∧ ∃ k, label sessions e.2 = some (k, p.2) := by
        intro p hp
        obtain ⟨e, he, hp⟩ := hmem p hp
        exact ⟨e, List.mem_cons_of_mem _ he, hp⟩
      refine ⟨hlabel, hlength, ?_, ?_⟩
      · simp only
        split
        · exact hkeys.cons_cons _
        · exact hkeys.cons _
      · simp only
        split
        · intro p hp
          rcases List.mem_cons.mp hp with rfl | hp
          · refine ⟨_, List.mem_cons_self, rfl, session.key, ?_⟩
            rw [label, hs, hkeys'.2]
            rfl
          · exact hrest p hp
        · exact hrest

/-- One round of the second loop removes the session. -/
theorem popLoop_cons {sessions : List (Session κ)} (h : c.InStep (label sessions)) {key r k : Nat}
    {extKey : κ} (hr : c.find key = some r) (hlabel : label sessions r = some (k, extKey))
    (hhash : hashable extKey = true) (rest : List (Nat × κ)) :
    popLoop hashable ((key, extKey) :: rest) c = popLoop hashable rest (c.remove sessions key) := by
  have hext := (h.both hr hlabel).2
  obtain ⟨session, hs, hkeys⟩ := Option.map_eq_some_iff.mp hlabel
  obtain ⟨-, rfl⟩ := Prod.mk.inj hkeys
  have hext' : (SessionCtrl.findByExternalKey
      { c with sessionMap := c.sessionMap.erase key } session.extKey).isSome = true := by
    show (c.findByExternalKey session.extKey).isSome = true
    rw [hext]
    rfl
  rw [popLoop, if_pos (by rw [hr]; rfl), if_pos hhash, if_pos hext']
  simp only [remove, hr, hs]

/-- What the tables hold is removed by the second loop, and nothing raises. -/
theorem popLoop_spec {sessions : List (Session κ)} :
    ∀ (tobeDeleted : List (Nat × κ)) (c : SessionCtrl κ), c.InStep (label sessions) →
      (∀ p ∈ tobeDeleted, ∃ r k, c.find p.1 = some r ∧ label sessions r = some (k, p.2)) →
      (tobeDeleted.map Prod.fst).Nodup →
      (∀ x r, c.findByExternalKey x = some r → hashable x = true) →
      (popLoop hashable tobeDeleted c).2 = none ∧
      (popLoop hashable tobeDeleted c).1.InStep (label sessions) ∧
      Shrinks (popLoop hashable tobeDeleted c).1 c := by
  intro tobeDeleted
  induction tobeDeleted with
  | nil => exact fun c h _ _ _ => ⟨rfl, h, Shrinks.refl c⟩
  | cons p rest ih =>
    intro c h hall hnodup hhash
    obtain ⟨key, extKey⟩ := p
    obtain ⟨r, k, hr, hlabel⟩ := hall (key, extKey) List.mem_cons_self
    rw [List.map_cons, List.nodup_cons] at hnodup
    have hext := (h.both hr hlabel).2
    have hshrinks := shrinks_remove c sessions key
    rw [popLoop_cons h hr hlabel (hhash extKey r hext)]
    -- the others are still there
    have hrest : ∀ p ∈ rest, ∃ r k, (c.remove sessions key).find p.1 = some r ∧
        label sessions r = some (k, p.2) := by
      intro p hp
      obtain ⟨r', k', hr', hlabel'⟩ := hall p (List.mem_cons_of_mem _ hp)
      refine ⟨r', k', ?_, hlabel'⟩
      rw [find_remove, if_neg]
      · exact hr'
      · intro hkey
        have hmem : p.1 ∈ rest.map Prod.fst := List.mem_map_of_mem hp
        exact hnodup.1 (hkey ▸ hmem)
    obtain ⟨hnone, hin, hshrinks'⟩ := ih (c.remove sessions key) (h.remove key) hrest hnodup.2
      fun x r' hx => hhash x r' (hshrinks.findByExternalKey x r' hx)
    exact ⟨hnone, hin, hshrinks'.trans hshrinks⟩

/-- **`check_timeout`** keeps the tables in step and does not raise. -/
theorem checkTimeout_spec {sessions : List (Session κ)} (h : c.InStep (label sessions))
    (hhash : ∀ x r, c.findByExternalKey x = some r → hashable x = true) (timeout curTime : Int) :
    (c.checkTimeout hashable sessions timeout curTime).2.2 = none ∧
    label (c.checkTimeout hashable sessions timeout curTime).1 = label sessions ∧
    (c.checkTimeout hashable sessions timeout curTime).1.length = sessions.length ∧
    (c.checkTimeout hashable sessions timeout curTime).2.1.InStep (label sessions) ∧
    Shrinks (c.checkTimeout hashable sessions timeout curTime).2.1 c := by
  obtain ⟨hlabel, hlength, hkeys, hmem⟩ :=
    timeoutLoop_spec timeout curTime c.sessionMap.entries.reverse sessions
  have hnodup : ((timeoutLoop timeout curTime c.sessionMap.entries.reverse sessions).1.map
      Prod.fst).Nodup := by
    refine hkeys.nodup ?_
    rw [List.map_reverse, List.nodup_reverse]
    exact c.sessionMap.nodupKeys
  have hall : ∀ p ∈ (timeoutLoop timeout curTime c.sessionMap.entries.reverse sessions).1,
      ∃ r k, c.find p.1 = some r ∧ label sessions r = some (k, p.2) := by
    intro p hp
    obtain ⟨e, he, hep, k, hk⟩ := hmem p hp
    refine ⟨e.2, k, ?_, hk⟩
    rw [← hep]
    exact AList.mem_lookup_iff.mpr (List.mem_reverse.mp he)
  obtain ⟨hnone, hin, hshrinks⟩ := @popLoop_spec κ _ hashable _ _ c h hall hnodup hhash
  exact ⟨hnone, hlabel, hlength, hin, hshrinks⟩

end SessionCtrl

/-! ## Order -/

namespace FgwHandler

variable [DecidableEq κ] {w : FgwHandler κ}

omit [DecidableEq κ] in
/-- The session is in the first table. -/
def Pending (w : FgwHandler κ) (r : Nat) : Prop := ∃ k, w.ctrl.find k = some r

/-- The session's first query is out, or it stands in a table. -/
def Alive (w : FgwHandler κ) (r : Nat) : Prop :=
  (∃ g, w.calls g = some r) ∨ w.Pending r ∨ ∃ x, w.ctrl.findByExternalKey x = some r

variable (hashable : κ → Bool)

/-- Fewer keys are drawn while a session lives, this step among them, than there are keys.  A key is
    drawn for every session that is made. -/
def KeysFresh (w : FgwHandler κ) (e : Event κ) : Prop :=
  ∀ r, w.Alive r → (w.next hashable e).sessions.length - (r + 1) < 0xFFFFFF

structure Ordered (w : FgwHandler κ) : Prop where
  tables : w.ctrl.InStep (label w.sessions)
  hashed : ∀ x r, w.ctrl.findByExternalKey x = some r → hashable x = true
  keys : ∀ r k x, label w.sessions r = some (k, x) → k = r % 0xFFFFFF + 1
  drawn : w.ctrl.genKey.1 = w.sessions.length % 0xFFFFFF + 1
  made : ∀ g r, w.calls g = some r → r < w.sessions.length
  sole : ∀ g g' r, w.calls g = some r → w.calls g' = some r → g = g'
  out : ∀ g r, w.calls g = some r → ¬ w.Pending r

theorem ordered_init : (init : FgwHandler κ).Ordered hashable where
  tables := SessionCtrl.inStep_new _
  hashed := fun x r h => by cases h
  keys := fun r k x h => by cases h
  drawn := rfl
  made := fun g r h => by cases h
  sole := fun g g' r h => by cases h
  out := fun g r h => by cases h

variable {hashable}

/-- The tables lose entries, and sessions change but for their keys. -/
theorem Ordered.shrink (h : w.Ordered hashable) {w' : FgwHandler κ}
    (hlabel : label w'.sessions = label w.sessions)
    (hlength : w'.sessions.length = w.sessions.length) (hcalls : w'.calls = w.calls)
    (htables : w'.ctrl.InStep (label w.sessions)) (hshrinks : w'.ctrl.Shrinks w.ctrl) :
    w'.Ordered hashable where
  tables := by
    rw [hlabel]
    exact htables
  hashed := fun x r hr => h.hashed x r (hshrinks.findByExternalKey x r hr)
  keys := by
    rw [hlabel]
    exact h.keys
  drawn := by
    have hkey : w'.ctrl.genKey.1 = w.ctrl.genKey.1 := by
      simp only [SessionCtrl.genKey, hshrinks.lastKey]
    rw [hkey, hlength]
    exact h.drawn
  made := by
    rw [hcalls, hlength]
    exact h.made
  sole := by
    rw [hcalls]
    exact h.sole
  out := by
    intro g r hr
    rw [hcalls] at hr
    rintro ⟨k, hk⟩
    exact h.out g r hr ⟨k, hshrinks.find k r hk⟩

/-- Nothing happens to sessions and tables. -/
theorem Ordered.frame (h : w.Ordered hashable) {w' : FgwHandler κ}
    (hsessions : w'.sessions = w.sessions) (hctrl : w'.ctrl = w.ctrl) (hcalls : w'.calls = w.calls) :
    w'.Ordered hashable := by
  refine h.shrink (by rw [hsessions]) (by rw [hsessions]) hcalls ?_ ?_
  · rw [hctrl]
    exact h.tables
  · rw [hctrl]
    exact SessionCtrl.Shrinks.refl w.ctrl

theorem Ordered.closeSession (h : w.Ordered hashable) (seq r : Nat) :
    (w.closeSession seq r).Ordered hashable := by
  unfold FgwHandler.closeSession
  cases hs : w.sessions[r]? with
  | none => exact h
  | some session =>
    have hlabel : label (w.sessions.set r session.close) = label w.sessions := label_set hs rfl rfl
    refine h.shrink hlabel (List.length_set) rfl ?_ (SessionCtrl.shrinks_remove _ _ _)
    have htables : w.ctrl.InStep (label (w.sessions.set r session.close)) := by
      rw [hlabel]
      exact h.tables
    rw [← hlabel]
    exact htables.remove seq

theorem Ordered.eventLoggedIn (h : w.Ordered hashable) (msg : Response) (sent : Bool) :
    (w.eventLoggedIn msg sent).Ordered hashable := by
  unfold FgwHandler.eventLoggedIn
  cases msg.cmd with
  | none => exact h
  | some cmd =>
    simp only
    split
    · exact h.frame rfl rfl rfl
    · next r _ =>
      split
      · exact h
      · split
        · split
          · exact h.frame rfl rfl rfl
          · split
            · exact h.closeSession msg.seq r
            · exact h.frame rfl rfl rfl
        · exact h.closeSession msg.seq r

theorem Ordered.routine (h : w.Ordered hashable) (curTime : Int) :
    (w.next hashable (.routine curTime)).Ordered hashable := by
  rw [FgwHandler.next]
  split
  · obtain ⟨-, hlabel, hlength, hin, hshrinks⟩ :=
      SessionCtrl.checkTimeout_spec h.tables h.hashed 1000 curTime
    exact h.shrink hlabel hlength rfl hin hshrinks
  · exact h

/-! ### Adding -/

/-- Two sessions that live have different keys. -/
theorem Ordered.key_inj (h : w.Ordered hashable) {e : Event κ} (hfresh : w.KeysFresh hashable e)
    (hlength : w.sessions.length ≤ (w.next hashable e).sessions.length) {r r' k : Nat} {x x' : κ}
    (hr : w.Alive r) (hr' : w.Alive r') (hlabel : label w.sessions r = some (k, x))
    (hlabel' : label w.sessions r' = some (k, x')) : r = r' := by
  have hk := h.keys r k x hlabel
  have hk' := h.keys r' k x' hlabel'
  have hlt := label_lt hlabel
  have hlt' := label_lt hlabel'
  have hf := hfresh r hr
  have hf' := hfresh r' hr'
  omega

/-- A key is drawn for a new session. -/
theorem Ordered.draw (h : w.Ordered hashable) (session : Session κ)
    (hkey : session.key = w.ctrl.genKey.1) :
    (w.draw session).Ordered hashable where
  tables := by
    have hlabel : ∀ r k x, label w.sessions r = some (k, x) →
        label (w.sessions ++ [session]) r = some (k, x) := by
      intro r k x hr
      have hlt := label_lt hr
      rw [label_append, if_neg (by omega)]
      exact hr
    refine ⟨?_, ?_, h.tables.same⟩
    · intro k r hr
      obtain ⟨x, hx⟩ := h.tables.own k r hr
      exact ⟨x, hlabel r k x hx⟩
    · intro x r hr
      obtain ⟨k, hk⟩ := h.tables.ownExt x r hr
      exact ⟨k, hlabel r k x hk⟩
  hashed := h.hashed
  keys := by
    intro r k x hr
    change label (w.sessions ++ [session]) r = some (k, x) at hr
    rw [label_append] at hr
    split at hr
    · next hlast =>
      obtain ⟨hk, -⟩ := Prod.mk.inj (Option.some.inj hr)
      rw [← hk, hkey, h.drawn, hlast]
    · exact h.keys r k x hr
  drawn := by
    have hdrawn := h.drawn
    show (SessionCtrl.genKey w.ctrl.genKey.2).1 = (w.sessions ++ [session]).length % 0xFFFFFF + 1
    rw [List.length_append, List.length_singleton]
    -- the key is the last one that was drawn
    have hnext : (SessionCtrl.genKey w.ctrl.genKey.2).1 =
        (if w.ctrl.genKey.1 ≥ 0xFFFFFF then 0 else w.ctrl.genKey.1) + 1 := rfl
    rw [hnext]
    split <;> omega
  made := by
    intro g r hr
    have hlt := h.made g r hr
    show r < (w.sessions ++ [session]).length
    rw [List.length_append]
    omega
  sole := h.sole
  out := h.out

/-- The session can be added: it has a place in neither table, and its keys are free. -/
structure Addable (w : FgwHandler κ) (hashable : κ → Bool) (r : Nat) (session : Session κ) :
    Prop where
  made : w.sessions[r]? = some session
  new : ¬ w.Pending r
  out : ∀ g, w.calls g ≠ some r
  key : w.ctrl.find session.key = none
  extKey : w.ctrl.findByExternalKey session.extKey = none
  hashed : hashable session.extKey = true

theorem Ordered.addSession (h : w.Ordered hashable) {r : Nat} {session : Session κ}
    (ha : w.Addable hashable r session) : (w.addSession hashable r session).Ordered hashable := by
  have hlabel : label (w.sessions.set r { session with state := 2 }) = label w.sessions :=
    label_set ha.made rfl rfl
  have hstate : Ordered hashable
      { w with sessions := w.sessions.set r { session with state := 2 } } :=
    h.shrink hlabel (List.length_set) rfl h.tables (SessionCtrl.Shrinks.refl _)
  have hown : label w.sessions r = some (session.key, session.extKey) := by
    rw [label, ha.made]
    rfl
  unfold FgwHandler.addSession
  simp only
  split
  · exact hstate
  · refine ⟨?_, ?_, hstate.keys, ?_, hstate.made, hstate.sole, ?_⟩
    · show SessionCtrl.InStep _ (label (w.sessions.set r { session with state := 2 }))
      rw [hlabel]
      exact h.tables.add hown ha.new ha.key ha.extKey ha.hashed
    · intro x r' hr'
      rw [SessionCtrl.findByExternalKey_add] at hr'
      split at hr'
      · next hx =>
        rw [hx.1]
        exact hx.2
      · exact h.hashed x r' hr'
    · have hkey : (w.ctrl.add hashable session.key session.extKey r).1.genKey.1 =
          w.ctrl.genKey.1 := by
        unfold SessionCtrl.add
        split <;> rfl
      exact hkey.trans hstate.drawn
    · rintro g r' hr' ⟨k, hk⟩
      rw [SessionCtrl.find_add] at hk
      split at hk
      · obtain rfl := Option.some.inj hk
        exact ha.out g hr'
      · exact h.out g r' hr' ⟨k, hk⟩

/-- A session that is added under a key that another one has, or that no dictionary takes, brings the
    tables apart. -/
theorem not_inStep_addSession (h : w.Ordered hashable) {r : Nat} {session : Session κ}
    (hmade : w.sessions[r]? = some session) (hopen : session.closed = false)
    (hnew : ¬ w.Pending r) (hkey : w.ctrl.find session.key = none)
    (hext : (w.ctrl.findByExternalKey session.extKey).isSome = true ∨
      hashable session.extKey = false) :
    ¬ (w.addSession hashable r session).ctrl.InStep
      (label (w.addSession hashable r session).sessions) := by
  have hadd : (w.addSession hashable r session).ctrl =
      (w.ctrl.add hashable session.key session.extKey r).1 := by
    simp only [addSession, hopen, Bool.false_eq_true, if_false]
  have hlabel : label (w.addSession hashable r session).sessions = label w.sessions := by
    simp only [addSession, hopen, Bool.false_eq_true, if_false]
    exact label_set hmade rfl rfl
  rw [hadd, hlabel]
  intro hin
  have hown : label w.sessions r = some (session.key, session.extKey) := by
    rw [label, hmade]
    rfl
  have hfirst : (w.ctrl.add hashable session.key session.extKey r).1.find session.key = some r := by
    rw [SessionCtrl.find_add, if_pos rfl]
  have hsecond := (hin.both hfirst hown).2
  rw [SessionCtrl.findByExternalKey_add] at hsecond
  split at hsecond
  · next hhash =>
    -- the one that stood there is still in the first table
    rcases hext with hext | hext
    · obtain ⟨r', hr'⟩ := Option.isSome_iff_exists.mp hext
      obtain ⟨k', hk'⟩ := (h.tables.same r').mpr ⟨_, hr'⟩
      obtain ⟨k'', hlabel'⟩ := h.tables.ownExt _ r' hr'
      have hthere : (w.ctrl.add hashable session.key session.extKey r).1.find k' = some r' := by
        rw [SessionCtrl.find_add, if_neg]
        · exact hk'
        · rintro rfl
          rw [hkey] at hk'
          cases hk'
      have hsame := hin.distinct hthere hfirst hlabel' hown
      subst hsame
      exact hnew ⟨k', hk'⟩
    · rw [hhash.2] at hext
      cases hext
  · exact hnew ((h.tables.same r).mpr ⟨_, hsecond⟩)

theorem length_addSession (w : FgwHandler κ) (r : Nat) (session : Session κ) :
    (w.addSession hashable r session).sessions.length = w.sessions.length := by
  unfold addSession
  simp only
  split <;> exact List.length_set

/-! ## Runs -/

variable (hashable)

/-- A request comes back from its query while a session stands under its key; or its key is none of a
    dictionary when it is added. -/
def Clashes (w : FgwHandler κ) : Event κ → Prop
  | .onInner g msg _ => w.calls g = none ∧ w.loggedIn = true ∧
      (∃ cmd, msg.cmd = some cmd ∧ cmd.queries = false) ∧
      w.ctrl.findByExternalKey msg.seq = none ∧ hashable msg.seq = false
  | .answered g row => row = .found ∧ ∃ r session, w.calls g = some r ∧
      w.sessions[r]? = some session ∧ session.closed = false ∧
      ((w.ctrl.findByExternalKey session.extKey).isSome = true ∨ hashable session.extKey = false)
  | _ => False

/-- What the tables are to be: they hold the same sessions, each under its own keys; `check_timeout`
    does not raise; and no two sessions share an external key. -/
structure Sound (w : FgwHandler κ) : Prop where
  tables : w.ctrl.InStep (label w.sessions)
  timeouts : ∀ timeout curTime,
    (w.ctrl.checkTimeout hashable w.sessions timeout curTime).2.2 = none
  distinct : ∀ r r' k k' x, w.Pending r → w.Pending r' → label w.sessions r = some (k, x) →
    label w.sessions r' = some (k', x) → r = r'

variable {hashable}

theorem Ordered.sound (h : w.Ordered hashable) : w.Sound hashable where
  tables := h.tables
  timeouts := fun timeout curTime =>
    (SessionCtrl.checkTimeout_spec h.tables h.hashed timeout curTime).1
  distinct := by
    rintro r r' k k' x ⟨k₁, hr⟩ ⟨k₂, hr'⟩ hlabel hlabel'
    exact h.tables.distinct hr hr' hlabel hlabel'

/-- A call that there is once `g` has ended. -/
theorem update_none {calls : Nat → Option Nat} {g g' r : Nat}
    (h : Function.update calls g none g' = some r) : g' ≠ g ∧ calls g' = some r := by
  rw [Function.update_apply] at h
  split at h
  · cases h
  · next hne => exact ⟨hne, h⟩

/-- A call that there is once `g` has begun. -/
theorem update_some {calls : Nat → Option Nat} {g g' n r : Nat}
    (h : Function.update calls g (some n) g' = some r) : (g' = g ∧ n = r) ∨ calls g' = some r := by
  rw [Function.update_apply] at h
  split at h
  · next hg => exact Or.inl ⟨hg, Option.some.inj h⟩
  · exact Or.inr h

/-- The step of a query that has found a row. -/
theorem next_answered {g r : Nat} {session : Session κ} (hcall : w.calls g = some r)
    (hs : w.sessions[r]? = some session) :
    w.next hashable (.answered g .found) =
      { w with calls := Function.update w.calls g none }.addSession hashable r session := by
  simp only [next, answered, hcall, hs]

/-- The key of a session that comes back from its query is not in use. -/
theorem Ordered.find_answered (h : w.Ordered hashable) {g r : Nat} {session : Session κ}
    (hcall : w.calls g = some r) (hs : w.sessions[r]? = some session)
    (hfresh : w.KeysFresh hashable (.answered g .found)) : w.ctrl.find session.key = none := by
  cases hfind : w.ctrl.find session.key with
  | none => rfl
  | some r' =>
    obtain ⟨x', hx'⟩ := h.tables.own session.key r' hfind
    have hown : label w.sessions r = some (session.key, session.extKey) := by
      rw [label, hs]
      rfl
    have hlength : w.sessions.length ≤ (w.next hashable (.answered g .found)).sessions.length := by
      rw [next_answered hcall hs, length_addSession]
    have hsame := h.key_inj hfresh hlength (Or.inl ⟨g, hcall⟩) (Or.inr (Or.inl ⟨_, hfind⟩)) hown hx'
    subst hsame
    exact absurd ⟨_, hfind⟩ (h.out g r hcall)

/-- The call of `on_inner` is over. -/
theorem Ordered.call_ends (h : w.Ordered hashable) (g : Nat) :
    Ordered hashable { w with calls := Function.update w.calls g none } where
  tables := h.tables
  hashed := h.hashed
  keys := h.keys
  drawn := h.drawn
  made := fun g' r hr => h.made g' r (update_none hr).2
  sole := fun g₁ g₂ r h₁ h₂ => h.sole g₁ g₂ r (update_none h₁).2 (update_none h₂).2
  out := fun g' r hr => h.out g' r (update_none hr).2

/-- No other call has the session. -/
theorem Ordered.call_sole (h : w.Ordered hashable) {g r : Nat} (hcall : w.calls g = some r)
    (g' : Nat) : Function.update w.calls g none g' ≠ some r := by
  intro hcon
  obtain ⟨hne, hcall'⟩ := update_none hcon
  exact hne (h.sole g' g r hcall' hcall)

theorem Ordered.answered (h : w.Ordered hashable) {g : Nat} {row : Row}
    (hfresh : w.KeysFresh hashable (.answered g row))
    (hclash : ¬ w.Clashes hashable (.answered g row)) :
    (w.next hashable (.answered g row)).Ordered hashable := by
  have hends := h.call_ends g
  cases hcall : w.calls g with
  | none =>
    simp only [next, FgwHandler.answered, hcall]
    exact h
  | some r =>
    cases hs : w.sessions[r]? with
    | none =>
      simp only [next, FgwHandler.answered, hcall, hs]
      exact hends
    | some session =>
      cases row with
      | none =>
        simp only [next, FgwHandler.answered, hcall, hs]
        exact hends.shrink (label_set hs rfl rfl) (List.length_set) rfl hends.tables
          (SessionCtrl.Shrinks.refl _)
      | error =>
        simp only [next, FgwHandler.answered, hcall, hs]
        exact hends
      | found =>
        rw [next_answered hcall hs]
        cases hopen : session.closed with
        | true =>
          simp only [FgwHandler.addSession, hopen, if_true]
          exact hends.shrink (label_set hs rfl rfl) (List.length_set) rfl hends.tables
            (SessionCtrl.Shrinks.refl _)
        | false =>
          have hfree : ¬ ((w.ctrl.findByExternalKey session.extKey).isSome = true ∨
              hashable session.extKey = false) :=
            fun hcon => hclash ⟨rfl, r, session, hcall, hs, hopen, hcon⟩
          rw [not_or, Bool.not_eq_true, Option.isSome_eq_false_iff, Option.isNone_iff_eq_none,
            Bool.not_eq_false] at hfree
          exact hends.addSession ⟨hs, h.out g r hcall, h.call_sole hcall,
            h.find_answered hcall hs hfresh, hfree.1, hfree.2⟩

/-- A request that opens no session changes nothing. -/
theorem next_onInner_cases (w : FgwHandler κ) (g : Nat) (msg : Request κ) (now : Int) :
    w.next hashable (.onInner g msg now) = w ∨
    (w.calls g = none ∧ w.loggedIn = true ∧ w.ctrl.findByExternalKey msg.seq = none ∧
      ∃ cmd, msg.cmd = some cmd ∧
        w.next hashable (.onInner g msg now) = w.openSession hashable g msg cmd now) := by
  rw [next]
  cases hcall : w.calls g with
  | some r => exact Or.inl (if_pos rfl)
  | none =>
    rw [if_neg (by rw [Option.isSome_none]; exact Bool.false_ne_true)]
    unfold onInner
    cases hlogin : w.loggedIn with
    | false => exact Or.inl rfl
    | true =>
      cases hcmd : msg.cmd with
      | none => exact Or.inl rfl
      | some cmd =>
        cases hext : w.ctrl.findByExternalKey msg.seq with
        | some r => exact Or.inl (if_pos rfl)
        | none => exact Or.inr ⟨rfl, rfl, rfl, cmd, rfl, if_neg Bool.false_ne_true⟩

/-- A session that has no query is added at once. -/
theorem openSession_add (w : FgwHandler κ) (g : Nat) (msg : Request κ) {cmd : Cmd}
    (hqueries : cmd.queries = false) (now : Int) :
    w.openSession hashable g msg cmd now =
      (w.draw (w.createSession msg.seq cmd now)).addSession hashable w.sessions.length
        (w.createSession msg.seq cmd now) := by
  rw [openSession, hqueries]
  exact if_neg Bool.false_ne_true

omit [DecidableEq κ] in
/-- The new session is the last one. -/
theorem sessions_draw (w : FgwHandler κ) (session : Session κ) :
    (w.draw session).sessions[w.sessions.length]? = some session := List.getElem?_concat_length

theorem Ordered.not_pending_new (h : w.Ordered hashable) : ¬ w.Pending w.sessions.length := by
  rintro ⟨k, hk⟩
  obtain ⟨x, hx⟩ := h.tables.own k _ hk
  exact absurd (label_lt hx) (Nat.lt_irrefl _)

theorem Ordered.call_new (h : w.Ordered hashable) (g : Nat) :
    w.calls g ≠ some w.sessions.length := fun hcon => absurd (h.made g _ hcon) (Nat.lt_irrefl _)

/-- The call of `on_inner` waits for the query of its new session. -/
theorem Ordered.call_begins (h : w.Ordered hashable) (g : Nat) {session : Session κ}
    (hkey : session.key = w.ctrl.genKey.1) :
    Ordered hashable { w.draw session with
      calls := Function.update w.calls g (some w.sessions.length) } := by
  have hdraw := h.draw session hkey
  refine ⟨hdraw.tables, hdraw.hashed, hdraw.keys, hdraw.drawn, ?_, ?_, ?_⟩
  · intro g' r hr
    rcases update_some hr with ⟨-, rfl⟩ | hr
    · exact (List.getElem?_eq_some_iff.mp (sessions_draw w session)).1
    · exact hdraw.made g' r hr
  · intro g₁ g₂ r h₁ h₂
    rcases update_some h₁ with ⟨rfl, rfl⟩ | hold₁
    · rcases update_some h₂ with ⟨rfl, -⟩ | hold₂
      · rfl
      · exact absurd hold₂ (h.call_new g₂)
    · rcases update_some h₂ with ⟨rfl, rfl⟩ | hold₂
      · exact absurd hold₁ (h.call_new g₁)
      · exact h.sole g₁ g₂ r hold₁ hold₂
  · intro g' r hr
    rcases update_some hr with ⟨-, rfl⟩ | hr
    · exact h.not_pending_new
    · exact h.out g' r hr

/-- The key that is drawn is not in use. -/
theorem Ordered.find_new (h : w.Ordered hashable) {e : Event κ}
    (hfresh : w.KeysFresh hashable e)
    (hlength : (w.next hashable e).sessions.length = w.sessions.length + 1) :
    w.ctrl.find w.ctrl.genKey.1 = none := by
  cases hfind : w.ctrl.find w.ctrl.genKey.1 with
  | none => rfl
  | some r =>
    obtain ⟨x, hx⟩ := h.tables.own _ r hfind
    have hkey := h.keys r _ x hx
    have hdrawn := h.drawn
    have hlt := label_lt hx
    have hfew := hfresh r (Or.inr (Or.inl ⟨_, hfind⟩))
    omega

theorem length_openSession (w : FgwHandler κ) (g : Nat) (msg : Request κ) {cmd : Cmd}
    (hqueries : cmd.queries = false) (now : Int) :
    (w.openSession hashable g msg cmd now).sessions.length = w.sessions.length + 1 := by
  rw [openSession_add w g msg hqueries now, length_addSession]
  exact List.length_append

theorem Ordered.onInner (h : w.Ordered hashable) {g : Nat} {msg : Request κ} {now : Int}
    (hfresh : w.KeysFresh hashable (.onInner g msg now))
    (hclash : ¬ w.Clashes hashable (.onInner g msg now)) :
    (w.next hashable (.onInner g msg now)).Ordered hashable := by
  rcases next_onInner_cases w g msg now with heq | ⟨hcall, hlogin, hext, cmd, hcmd, heq⟩
  · rw [heq]
    exact h
  · have hdraw : (w.draw (w.createSession msg.seq cmd now)).Ordered hashable := h.draw _ rfl
    cases hqueries : cmd.queries with
    | true =>
      rw [heq, openSession, hqueries]
      simp only [if_true]
      split
      · exact h.call_begins g rfl
      · exact hdraw
    | false =>
      have hhash : hashable msg.seq = true := by
        cases hhash : hashable msg.seq with
        | true => rfl
        | false => exact absurd ⟨hcall, hlogin, ⟨cmd, hcmd, hqueries⟩, hext, hhash⟩ hclash
      have hkey := h.find_new hfresh (by rw [heq]; exact length_openSession w g msg hqueries now)
      rw [heq, openSession_add w g msg hqueries now]
      exact hdraw.addSession ⟨sessions_draw w _, h.not_pending_new, h.call_new, hkey, hext, hhash⟩

/-- **One step.** -/
theorem Ordered.next (h : w.Ordered hashable) (e : Event κ) (hfresh : w.KeysFresh hashable e)
    (hclash : ¬ w.Clashes hashable e) : (w.next hashable e).Ordered hashable := by
  cases e with
  | login =>
    rw [FgwHandler.next]
    split
    · exact h.frame rfl rfl rfl
    · exact h
  | onInner g msg now => exact h.onInner hfresh hclash
  | answered g row => exact h.answered hfresh hclash
  | message msg sent =>
    rw [FgwHandler.next]
    split
    · exact h.eventLoggedIn msg sent
    · exact h
  | selected row =>
    rw [FgwHandler.next]
    split
    · split <;> exact h.frame rfl rfl rfl
    · exact h
  | updated sent =>
    rw [FgwHandler.next]
    split
    · next seq r _ =>
      split
      · exact (h.closeSession seq r).frame rfl rfl rfl
      · exact h.frame rfl rfl rfl
    · exact h
  | routine curTime => exact h.routine curTime

theorem not_sound_of_clashes (h : w.Ordered hashable) {e : Event κ}
    (hfresh : w.KeysFresh hashable e) (hclash : w.Clashes hashable e) :
    ¬ (w.next hashable e).Sound hashable := by
  intro hsound
  cases e with
  | onInner g msg now =>
    obtain ⟨hcall, hlogin, ⟨cmd, hcmd, hqueries⟩, hext, hhash⟩ := hclash
    have heq : w.next hashable (.onInner g msg now) = w.openSession hashable g msg cmd now := by
      simp only [FgwHandler.next, FgwHandler.onInner, hcall, hlogin, hcmd, hext,
        Option.isSome_none, Bool.false_eq_true, if_false]
    have hkey := h.find_new hfresh (by rw [heq]; exact length_openSession w g msg hqueries now)
    have htables := hsound.tables
    rw [heq, openSession_add w g msg hqueries now] at htables
    have hdraw : (w.draw (w.createSession msg.seq cmd now)).Ordered hashable := h.draw _ rfl
    exact not_inStep_addSession hdraw (sessions_draw w _) rfl h.not_pending_new hkey
      (Or.inr hhash) htables
  | answered g row =>
    obtain ⟨rfl, r, session, hcall, hs, hopen, hext⟩ := hclash
    have htables := hsound.tables
    rw [next_answered hcall hs] at htables
    exact not_inStep_addSession (h.call_ends g) hs hopen (h.out g r hcall)
      (h.find_answered hcall hs hfresh) hext htables
  | login => exact hclash
  | message msg sent => exact hclash
  | selected row => exact hclash
  | updated sent => exact hclash
  | routine curTime => exact hclash

/-- **The tables stay in step exactly if no request clashes**, as long as fewer keys are drawn while
    a session lives than there are. -/
theorem sound_iff (hashable : κ → Bool) (es : List (Event κ))
    (hfresh : ∀ v ∈ Runs.visits (next hashable) init es, v.1.KeysFresh hashable v.2) :
    (∀ v ∈ Runs.visits (next hashable) init es, (v.1.next hashable v.2).Sound hashable) ↔
      ∀ v ∈ Runs.visits (next hashable) init es, ¬ v.1.Clashes hashable v.2 := by
  refine @Runs.forall_visits_iff _ _ (next hashable) (Ordered hashable) (KeysFresh hashable)
    (fun w e => (w.next hashable e).Sound hashable) (fun w e => ¬ w.Clashes hashable e) ?_ ?_ init
    (ordered_init hashable) es hfresh
  · intro w e h hf
    constructor
    · exact fun hsound hclash => not_sound_of_clashes h hf hclash hsound
    · exact fun hclash => (h.next e hf hclash).sound
  · exact fun w e h hf hclash => h.next e hf hclash

/-- There are keys enough for so many sessions. -/
theorem keysFresh_of_length {e : Event κ}
    (h : (w.next hashable e).sessions.length ≤ 0xFFFFFF) : w.KeysFresh hashable e := by
  intro r _
  omega

/-- A client asks, and the gateway answers. -/
def oneAsks : List (Event Nat) :=
  [.login, .onInner 0 ⟨some .getDevList, 7, none, none⟩ 0, .message ⟨some .getDevList, 1⟩ true]

theorem oneAsks_fresh : ∀ v ∈ Runs.visits (next fun _ => true) init oneAsks,
    v.1.KeysFresh (fun _ => true) v.2 := by
  refine List.forall_mem_cons.mpr ⟨keysFresh_of_length ?_, List.forall_mem_cons.mpr
    ⟨keysFresh_of_length ?_, List.forall_mem_cons.mpr ⟨keysFresh_of_length ?_,
      fun _ hv => (by cases hv)⟩⟩⟩ <;> decide

theorem oneAsks_clashes : ∀ v ∈ Runs.visits (next fun _ => true) init oneAsks,
    ¬ v.1.Clashes (fun _ => true) v.2 :=
  List.forall_mem_cons.mpr ⟨id, List.forall_mem_cons.mpr
    ⟨fun hclash => absurd hclash.2.2.2.2 (by decide), List.forall_mem_cons.mpr
      ⟨id, fun _ hv => (by cases hv)⟩⟩⟩

theorem sound_oneAsks : (oneAsks.foldl (next fun _ => true) init).Sound fun _ => true :=
  (sound_iff (fun _ => true) oneAsks oneAsks_fresh).mpr oneAsks_clashes
    (oneAsks.dropLast.foldl (next fun _ => true) init, .message ⟨some .getDevList, 1⟩ true)
    ((Runs.mem_visits_iff _).mpr ⟨oneAsks.dropLast, [], rfl, rfl⟩)

/-- Two clients ask under one key, the second of them while the first one's query is out. -/
def twoAsk : List (Event Nat) :=
  [.login, .onInner 0 ⟨some .bind, 7, some "account", some "fgw"⟩ 0,
    .onInner 1 ⟨some .getDevList, 7, none, none⟩ 0]

/-- Both have timed out when the routine comes, and the second one is under its key no more. -/
theorem sound_fails :
    ¬ ∀ (hashable : Nat → Bool) (es : List (Event Nat)),
      (∀ v ∈ Runs.visits (next hashable) init es, v.1.KeysFresh hashable v.2) →
      ∀ v ∈ Runs.visits (next hashable) init es, (v.1.next hashable v.2).Sound hashable := by
  intro hall
  have hsound := hall (fun _ => true) (twoAsk ++ [.answered 0 .found]) (by
      refine List.forall_mem_cons.mpr ⟨keysFresh_of_length ?_, List.forall_mem_cons.mpr
        ⟨keysFresh_of_length ?_, List.forall_mem_cons.mpr ⟨keysFresh_of_length ?_,
          List.forall_mem_cons.mpr ⟨keysFresh_of_length ?_, fun _ hv => (by cases hv)⟩⟩⟩⟩ <;> decide)
    (twoAsk.foldl (next fun _ => true) init, .answered 0 .found)
    ((Runs.mem_visits_iff _).mpr ⟨twoAsk, [], rfl, rfl⟩)
  exact absurd (hsound.timeouts 1000 5000) (by decide)

end FgwHandler

end FgwServer

end Monsys

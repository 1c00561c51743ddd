/-
  The sessions of the Java servers: package `session`.

  A `SessionManager` finds sessions by their keys.  A session closes by having the manager remove
  what is under its key, and times out a minute after it was made.

  1. **The classes** — `BaseSession`, and `SessionManager` over references to sessions.
  2. **Histories** — `Sessions`: the sessions there are, their manager, and which of them was added
     last under each key and which are closed or timed out.  It is a `Registry`.
  3. **Runs** — `found_iff`: the last session to be added is found as long as it lives, exactly if
     no session is closed after a newer one has been added under its key, while that one lives.
-/
import Monsys.Lib.Registry
import Monsys.Lib.Runs
import Mathlib.Data.List.AList

namespace Monsys

variable {κ : Type} [DecidableEq κ]

/-! ## The classes -/

/-- `BaseSession<T>`. -/
structure BaseSession (κ : Type) where
  key : κ
  lastTouchedTime : Int
deriving DecidableEq

namespace BaseSession

/-- `mTimeout`, in milliseconds. -/
def timeout : Int := 60 * 1000

/-- The condition of `checkTimeout(long current)`. -/
def isTimeout (s : BaseSession κ) (current : Int) : Bool := current > s.lastTouchedTime + timeout

end BaseSession

/-- `SessionManager<KEY_T, SESSION_T>`: `mSessionMap`, to the references of sessions. -/
structure SessionManager (κ : Type) where
  sessionMap : AList fun _ : κ => Nat

namespace SessionManager

def new : SessionManager κ := ⟨∅⟩

/-- `add`. -/
def add (m : SessionManager κ) (key : κ) (session : Nat) : SessionManager κ :=
  ⟨m.sessionMap.insert key session⟩

/-- `find`. -/
def find (m : SessionManager κ) (key : κ) : Option Nat := m.sessionMap.lookup key

/-- `remove`, of a session with this key: which one it is does not matter. -/
def remove (m : SessionManager κ) (key : κ) : SessionManager κ := ⟨m.sessionMap.erase key⟩

/-- `session.checkTimeout(current)`. -/
def checkOne (m : SessionManager κ) (session : BaseSession κ) (current : Int) : SessionManager κ :=
  if session.isTimeout current then m.remove session.key else m

/-- The loop of `checkTimeout`, over entries of the map. -/
def checkLoop (sessionOf : Nat → Option (BaseSession κ)) (current : Int) :
    List (Sigma fun _ : κ => Nat) → SessionManager κ → SessionManager κ
  | [], m => m
  | ⟨_, session⟩ :: entries, m =>
    checkLoop sessionOf current entries
      (match sessionOf session with
        | some s => m.checkOne s current
        | none => m)

/-- `checkTimeout`. -/
def checkTimeout (m : SessionManager κ) (sessionOf : Nat → Option (BaseSession κ))
    (current : Int) : SessionManager κ := checkLoop sessionOf current m.sessionMap.entries m

/-! ### What is found -/

@[simp] theorem find_new (key : κ) : (new : SessionManager κ).find key = none := rfl

theorem find_add (m : SessionManager κ) (key key' : κ) (session : Nat) :
    (m.add key session).find key' = if key' = key then some session else m.find key' := by
  unfold find add
  by_cases h : key' = key
  · rw [if_pos h, h, AList.lookup_insert]
  · rw [if_neg h, AList.lookup_insert_ne h]

theorem find_remove (m : SessionManager κ) (key key' : κ) :
    (m.remove key).find key' = if key' = key then none else m.find key' := by
  unfold find remove
  by_cases h : key' = key
  · rw [if_pos h, h, AList.lookup_erase]
  · rw [if_neg h, AList.lookup_erase_ne h]

/-- Every entry leads to a session with its key. -/
def Filed (m : SessionManager κ) (sessionOf : Nat → Option (BaseSession κ)) : Prop :=
  ∀ key r, m.find key = some r → ∃ s, sessionOf r = some s ∧ s.key = key

/-- The session behind a reference has timed out. -/
def expired (sessionOf : Nat → Option (BaseSession κ)) (current : Int) (r : Nat) : Bool :=
  (sessionOf r).any fun s => s.isTimeout current

theorem find_checkOne (m : SessionManager κ) (s : BaseSession κ) (current : Int) (key : κ) :
    (m.checkOne s current).find key =
      if s.key = key ∧ s.isTimeout current = true then none else m.find key := by
  unfold checkOne
  by_cases htime : s.isTimeout current
  · simp only [htime, if_true, and_true, find_remove, eq_comm]
  · rw [if_neg htime, if_neg fun h => htime h.2]

/-- The loop takes out what has timed out of the entries it goes through. -/
theorem find_checkLoop {sessionOf : Nat → Option (BaseSession κ)} (current : Int) {key : κ} :
    ∀ {entries : List (Sigma fun _ : κ => Nat)} (m : SessionManager κ),
      (∀ e ∈ entries, ∃ s, sessionOf e.2 = some s ∧ s.key = e.1) →
      (checkLoop sessionOf current entries m).find key =
        if entries.any fun e => e.1 = key && expired sessionOf current e.2 then none
        else m.find key := by
  intro entries
  induction entries with
  | nil => intro m _; rfl
  | cons e entries ih =>
    intro m hfiled
    obtain ⟨s, hs, hkey⟩ := hfiled e List.mem_cons_self
    have hrest := ih (m.checkOne s current) fun e' he' => hfiled e' (List.mem_cons_of_mem e he')
    rw [find_checkOne, hkey] at hrest
    have hexpired : expired sessionOf current e.2 = s.isTimeout current := by
      rw [expired, hs, Option.any_some]
    rw [checkLoop, hs]
    refine hrest.trans ?_
    rw [List.any_cons, hexpired]
    by_cases hlater : entries.any fun e => e.1 = key && expired sessionOf current e.2
    · rw [if_pos hlater, hlater, Bool.or_true, if_pos rfl]
    · rw [if_neg hlater, Bool.eq_false_iff.mpr hlater, Bool.or_false]
      simp only [Bool.and_eq_true, decide_eq_true_eq]

/-- `checkTimeout` takes out the sessions that have timed out. -/
theorem find_checkTimeout {m : SessionManager κ} {sessionOf : Nat → Option (BaseSession κ)}
    (h : m.Filed sessionOf) (current : Int) (key : κ) :
    (m.checkTimeout sessionOf current).find key =
      (m.find key).filter fun r => !expired sessionOf current r := by
  have hmem : ∀ e : (Sigma fun _ : κ => Nat), e ∈ m.sessionMap.entries ↔ m.find e.1 = some e.2 :=
    fun e => AList.mem_lookup_iff.symm
  rw [checkTimeout, find_checkLoop current m fun e he => h e.1 e.2 ((hmem e).mp he)]
  -- the entry of the key is the only one of its own that the loop goes through
  have hany : (m.sessionMap.entries.any fun e => e.1 = key && expired sessionOf current e.2) =
      (m.find key).any (expired sessionOf current) := by
    rw [Bool.eq_iff_iff, List.any_eq_true, Option.any_eq_true]
    constructor
    · rintro ⟨⟨k, r⟩, he, hx⟩
      rw [Bool.and_eq_true, decide_eq_true_eq] at hx
      obtain ⟨rfl, hx⟩ := hx
      exact ⟨r, (hmem ⟨k, r⟩).mp he, hx⟩
    · rintro ⟨r, hr, hx⟩
      exact ⟨⟨key, r⟩, (hmem ⟨key, r⟩).mpr hr, by rw [hx, Bool.and_true]; exact decide_eq_true rfl⟩
  rw [hany]
  cases m.find key with
  | none => rfl
  | some r =>
    rw [Option.any_some, Option.filter_some]
    cases expired sessionOf current r with
    | true => rfl
    | false => rfl

end SessionManager

/-! ## Histories -/

/-- The sessions that were made, in the order of their references, and their manager; and what has
    happened: `latest`, the session that was added last under a key, and `gone`, what is closed or
    timed out. -/
structure Sessions (κ : Type) where
  made : List (BaseSession κ)
  manager : SessionManager κ
  latest : κ → Option Nat
  gone : Nat → Bool

namespace Sessions

/-- What is done with sessions.  `checkTimeout` is that of one session, `sweep` the manager's. -/
inductive Event (κ : Type)
  | create (key : κ) (now : Int)
  | add (r : Nat)
  | find (key : κ)
  | close (r : Nat)
  | checkTimeout (r : Nat) (current : Int)
  | sweep (current : Int)

/-- The time at which it is done, where it is asked for. -/
def Event.clock : Event κ → Option Int
  | .create _ now => some now
  | .checkTimeout _ current => some current
  | .sweep current => some current
  | _ => none

def init : Sessions κ := ⟨[], .new, fun _ => none, fun _ => false⟩

/-- `close()` of a session. -/
def closeSession (w : Sessions κ) (r : Nat) : Sessions κ :=
  match w.made[r]? with
  | none => w
  | some s => { w with manager := w.manager.remove s.key, gone := Function.update w.gone r true }

/-- One step. -/
def next (w : Sessions κ) : Event κ → Sessions κ
  | .create key now => { w with made := w.made ++ [⟨key, now⟩] }
  | .add r =>
    match w.made[r]? with
    | none => w
    | some s =>
      { w with
        manager := w.manager.add s.key r
        latest := Function.update w.latest s.key (some r) }
  | .find _ => w
  | .close r => w.closeSession r
  | .checkTimeout r current =>
    if SessionManager.expired (w.made[·]?) current r then w.closeSession r else w
  | .sweep current =>
    { w with
      manager := w.manager.checkTimeout (w.made[·]?) current
      gone := fun r => w.gone r || SessionManager.expired (w.made[·]?) current r }

/-- The session that was added last under a key is found there, unless it is closed or timed out. -/
def Found (w : Sessions κ) : Prop :=
  ∀ key r, w.latest key = some r → w.gone r = false → w.manager.find key = some r

/-- The session that an event closes by itself. -/
def closes (w : Sessions κ) : Event κ → Option Nat
  | .close r => some r
  | .checkTimeout r current =>
    if SessionManager.expired (w.made[·]?) current r then some r else none
  | _ => none

/-- A session is closed after another one has been added under its key, while that one lives. -/
def Displaces (w : Sessions κ) (e : Event κ) : Prop :=
  ∃ r s r', w.closes e = some r ∧ w.made[r]? = some s ∧ w.latest s.key = some r' ∧ r' ≠ r ∧
    w.gone r' = false

/-! ## Runs -/

/-- The sessions as a registry: a session's key is there from the beginning. -/
def registry (w : Sessions κ) : Registry κ Nat where
  entry := w.manager.find
  key := fun r => w.made[r]?.map BaseSession.key
  gone := w.gone
  latest := w.latest

theorem found_iff_current (w : Sessions κ) : w.Found ↔ w.registry.Current := Iff.rfl

theorem displaces_iff {w : Sessions κ} {e : Event κ} {r : Nat} (h : w.closes e = some r) :
    w.Displaces e ↔ w.registry.Overtaken r := by
  constructor
  · rintro ⟨r₁, s, r', hr₁, hs, hlatest, hne, hopen⟩
    obtain rfl := Option.some.inj (h.symm.trans hr₁)
    exact ⟨s.key, r', by show w.made[r]?.map _ = _; rw [hs]; rfl, hlatest, hne, hopen⟩
  · rintro ⟨k, r', hkey, hlatest, hne, hopen⟩
    obtain ⟨s, hs, rfl⟩ := Option.map_eq_some_iff.mp hkey
    exact ⟨r, s, r', h, hs, hlatest, hne, hopen⟩

/-- Every entry is that of a session with its key. -/
def InStep (w : Sessions κ) : Prop := w.manager.Filed (w.made[·]?)

theorem inStep_init : (init : Sessions κ).InStep := fun key r h => by cases h

theorem InStep.remove {w : Sessions κ} (h : w.InStep) (key : κ) :
    (w.manager.remove key).Filed (w.made[·]?) := by
  intro k r hr
  rw [SessionManager.find_remove] at hr
  split at hr
  · cases hr
  · exact h k r hr

theorem InStep.closeSession {w : Sessions κ} (h : w.InStep) (r : Nat) :
    (w.closeSession r).InStep := by
  unfold Sessions.closeSession
  cases hs : w.made[r]? with
  | none => exact h
  | some s => exact h.remove s.key

theorem InStep.next {w : Sessions κ} (h : w.InStep) (e : Event κ) : (w.next e).InStep := by
  cases e with
  | create key now =>
    intro k r hr
    obtain ⟨s, hs, hkey⟩ := h k r hr
    exact ⟨s, (List.getElem?_append_left (List.getElem?_eq_some_iff.mp hs).1).trans hs, hkey⟩
  | add r =>
    rw [Sessions.next]
    cases hs : w.made[r]? with
    | none => exact h
    | some s =>
      intro k r' hr'
      change (w.manager.add s.key r).find k = some r' at hr'
      rw [SessionManager.find_add] at hr'
      split at hr'
      · next hk =>
        obtain rfl := Option.some.inj hr'
        exact ⟨s, hs, hk.symm⟩
      · exact h k r' hr'
  | find key => exact h
  | close r => exact h.closeSession r
  | checkTimeout r current =>
    rw [Sessions.next]
    split
    · exact h.closeSession r
    · exact h
  | sweep current =>
    intro k r hr
    change (w.manager.checkTimeout _ current).find k = some r at hr
    rw [SessionManager.find_checkTimeout h] at hr
    exact h k r (Option.eq_some_of_filter_eq_some hr)

theorem registry_add {w : Sessions κ} {r : Nat} {s : BaseSession κ} (hs : w.made[r]? = some s) :
    (w.next (.add r)).registry = w.registry.enter s.key r := by
  rw [next, hs]
  refine Registry.ext ?_ ?_ rfl rfl
  · funext key
    show (w.manager.add s.key r).find key = Function.update w.manager.find s.key (some r) key
    rw [SessionManager.find_add, Function.update_apply]
  · -- the key of a session is its own from the beginning
    refine (Function.update_eq_self_iff.mpr ?_).symm
    show some s.key = w.made[r]?.map BaseSession.key
    rw [hs, Option.map_some]

theorem registry_closeSession {w : Sessions κ} {r : Nat} {s : BaseSession κ}
    (hs : w.made[r]? = some s) : (w.closeSession r).registry = w.registry.leave r := by
  unfold Sessions.closeSession
  rw [hs]
  refine Registry.ext ?_ rfl rfl rfl
  funext key
  show (w.manager.remove s.key).find key =
    if w.made[r]?.map BaseSession.key = some key then none else w.manager.find key
  rw [SessionManager.find_remove, hs]
  simp only [Option.map_some, Option.some.injEq, eq_comm]

/-- Closing a session keeps the others findable exactly if none is displaced. -/
theorem found_closeSession_iff {w : Sessions κ} (h : w.Found) {e : Event κ} {r : Nat}
    (he : w.closes e = some r) : (w.closeSession r).Found ↔ ¬ w.Displaces e := by
  rw [displaces_iff he, found_iff_current]
  cases hs : w.made[r]? with
  | none =>
    -- there is no such session
    have hsame : w.closeSession r = w := by rw [closeSession, hs]
    rw [hsame]
    refine iff_of_true h ?_
    rintro ⟨k, r', hkey, -⟩
    change w.made[r]?.map _ = some k at hkey
    rw [hs] at hkey
    cases hkey
  | some s =>
    rw [registry_closeSession hs]
    exact Registry.current_leave_iff (r := w.registry) h r

omit [DecidableEq κ] in
theorem not_displaces {w : Sessions κ} {e : Event κ} (he : w.closes e = none) :
    ¬ w.Displaces e := by
  rintro ⟨r, s, r', hr, -⟩
  rw [he] at hr
  cases hr

/-- **One step.** -/
theorem found_next_iff {w : Sessions κ} (h : w.Found) (hin : w.InStep) (e : Event κ) :
    (w.next e).Found ↔ ¬ w.Displaces e := by
  cases e with
  | create key now => exact iff_of_true h (not_displaces rfl)
  | add r =>
    refine iff_of_true ?_ (not_displaces rfl)
    cases hs : w.made[r]? with
    | none =>
      rw [next, hs]
      exact h
    | some s =>
      rw [found_iff_current, registry_add hs]
      exact Registry.Current.enter (r := w.registry) h s.key r
  | find key => exact iff_of_true h (not_displaces rfl)
  | close r => exact found_closeSession_iff h rfl
  | checkTimeout r current =>
    rw [next]
    by_cases hx : SessionManager.expired (w.made[·]?) current r
    · rw [if_pos hx]
      exact found_closeSession_iff h (by rw [closes, if_pos hx])
    · rw [if_neg hx]
      exact iff_of_true h (not_displaces (by rw [closes, if_neg hx]))
  | sweep current =>
    refine iff_of_true ?_ (not_displaces rfl)
    intro key r hlatest hopen
    show (w.manager.checkTimeout _ current).find key = some r
    rw [SessionManager.find_checkTimeout hin]
    exact Registry.Current.expire (r := w.registry) h _ key r hlatest hopen

/-- **A session is never lost to an older one exactly if none is displaced**: no session is closed
    after a newer one has been added under its key, while the newer one is neither closed nor timed
    out. -/
theorem found_iff (es : List (Event κ)) :
    (∀ v ∈ Runs.visits next init es, (v.1.next v.2).Found) ↔
      ∀ v ∈ Runs.visits next init es, ¬ v.1.Displaces v.2 := by
  refine @Runs.forall_visits_iff _ _ next (fun w => w.Found ∧ w.InStep) (fun _ _ => True)
    (fun w e => (w.next e).Found) (fun w e => ¬ w.Displaces e) ?_ ?_ init ?_ es fun _ _ => trivial
  · exact fun w e h _ => found_next_iff h.1 h.2 e
  · exact fun w e h _ hnot => ⟨(found_next_iff h.1 h.2 e).mpr hnot, h.2.next e⟩
  · exact ⟨fun _ _ hlatest => (by cases hlatest), inStep_init⟩

/-- A token is requested twice, and the session of the first request closes. -/
theorem found_fails :
    ¬ ∀ es : List (Event String), (es.filterMap Event.clock).Pairwise (· ≤ ·) →
      ∀ v ∈ Runs.visits next init es, (v.1.next v.2).Found := by
  intro hall
  let twice : List (Event String) := [.create "token" 0, .add 0, .create "token" 1, .add 1]
  have hlost := hall (twice ++ [.close 0]) (by decide) (twice.foldl next init, .close 0)
    ((Runs.mem_visits_iff _).mpr ⟨twice, [], rfl, rfl⟩)
  have hfind := hlost "token" 1 (by decide) (by decide)
  exact absurd hfind (by decide)

end Sessions

end Monsys

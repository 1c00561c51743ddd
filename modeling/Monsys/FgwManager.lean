/-
  Which gateway is at which handler: `FGWManager` of `fgw_manager.py`, and the login and the end of
  `FGWHandler` of `fgw_server.py`.

  1. **The manager** — a dictionary from the ids of gateways to the ids of handlers.
  2. **Handlers** — `Gateways`: all handlers with their manager, and who has logged in last with each
     id.  A login registers; at its end a handler has the manager remove its gateway's id.
  3. **What is to be** — `EndsWell` and `Found`; and the end that goes wrong (`Strips`).
  4. **Runs** — `registered_iff`, over the rules of `Registry`.

  A handler's id is its own while it runs.  What a query finds is given.  `hashable` tells whether an
  id, which can be any value, can be a key of a dictionary.
-/
import Monsys.Lib.Registry
import Monsys.Lib.Runs
import Mathlib.Data.List.AList

namespace Monsys

/-! ## The manager -/

/-- `FGWManager`, with its `_fgw_map`. -/
structure FgwManager (κ ι : Type) where
  fgwMap : AList fun _ : κ => ι

namespace FgwManager

variable {κ ι : Type}

/-- What `remove_handler` raises. -/
inductive Error (κ : Type)
  | notHere (fgwId : Option κ)
deriving DecidableEq, Repr

def new : FgwManager κ ι := ⟨∅⟩

variable [DecidableEq κ]

def findHandler (m : FgwManager κ ι) (fgwId : κ) : Option ι := m.fgwMap.lookup fgwId

def addHandler (m : FgwManager κ ι) (fgwId : κ) (handlerId : ι) : FgwManager κ ι :=
  ⟨m.fgwMap.insert fgwId handlerId⟩

/-- `remove_handler`; `None` is never there. -/
def removeHandler (m : FgwManager κ ι) (fgwId : Option κ) : Except (Error κ) (FgwManager κ ι) :=
  match fgwId with
  | some id =>
    if (m.findHandler id).isSome then .ok ⟨m.fgwMap.erase id⟩ else .error (.notHere (some id))
  | none => .error (.notHere none)

theorem findHandler_addHandler (m : FgwManager κ ι) (fgwId : κ) (handlerId : ι) :
    (m.addHandler fgwId handlerId).findHandler =
      Function.update m.findHandler fgwId (some handlerId) := by
  funext id
  rw [Function.update_apply]
  split
  · next h =>
    rw [h]
    exact AList.lookup_insert _
  · next h => exact AList.lookup_insert_ne h

/-- Who is there is removed, whosever the entry is. -/
theorem removeHandler_some {m : FgwManager κ ι} {id : κ} (h : (m.findHandler id).isSome = true) :
    ∃ m', m.removeHandler (some id) = .ok m' ∧
      ∀ id', m'.findHandler id' = if id' = id then none else m.findHandler id' := by
  refine ⟨_, if_pos h, fun id' => ?_⟩
  split
  · next heq =>
    rw [heq]
    exact AList.lookup_erase _ _
  · next hne => exact AList.lookup_erase_ne hne

end FgwManager

/-! ## Handlers -/

/-- `eventLoop` tells whether the event loop goes on, `running` whether `start` does. -/
structure GatewayHandler (κ : Type) where
  loggedIn : Bool := false
  fgwId : Option κ := none
  eventLoop : Bool := true
  running : Bool := true

/-- A message to a handler that waits for a login. -/
structure LoginMsg (κ : Type) where
  cmd : Option String
  st : Option String
  devid : Option κ

/-- What the query of a login comes back with: no row, a count, or an exception. -/
inductive Counted
  | none
  | count (n : Nat)
  | error
deriving DecidableEq, Repr

/-- The handlers, their manager, and who has logged in last with each id. -/
structure Gateways (κ ι : Type) where
  handlers : ι → GatewayHandler κ
  manager : FgwManager κ ι
  newest : κ → Option ι

namespace Gateways

variable {κ ι : Type} [DecidableEq κ] [DecidableEq ι]

omit [DecidableEq κ] [DecidableEq ι] in
def init : Gateways κ ι := ⟨fun _ => {}, .new, fun _ => none⟩

inductive Event (κ ι : Type)
  | message (i : ι) (msg : LoginMsg κ) (row : Counted)
  | finish (i : ι)

omit [DecidableEq κ] in
/-- `event_wait_for_login` raises. -/
def raise (w : Gateways κ ι) (i : ι) : Gateways κ ι :=
  { w with handlers := Function.update w.handlers i { w.handlers i with eventLoop := false } }

/-- It registers the handler. -/
def logIn (w : Gateways κ ι) (i : ι) (devId : κ) : Gateways κ ι where
  handlers := Function.update w.handlers i
    { w.handlers i with loggedIn := true, fgwId := some devId }
  manager := w.manager.addHandler devId i
  newest := Function.update w.newest devId (some i)

variable (hashable : κ → Bool)

def eventWaitForLogin (w : Gateways κ ι) (i : ι) (msg : LoginMsg κ) (row : Counted) :
    Gateways κ ι :=
  if msg.cmd = some "login" then
    match msg.st, msg.devid with
    | some _, some devId =>
      match row with
      | .none => w
      | .error => w.raise i
      | .count n =>
        if n = 1 then
          if hashable devId then w.logIn i devId else w.raise i
        else w
    | _, _ => w.raise i
  else w

/-- The end of `start`: what it raises, and what it leaves. -/
def finish (w : Gateways κ ι) (i : ι) : Option (FgwManager.Error κ) × Gateways κ ι :=
  let handlers := Function.update w.handlers i { w.handlers i with running := false }
  match w.manager.removeHandler (w.handlers i).fgwId with
  | .ok manager => (none, { w with handlers := handlers, manager := manager })
  | .error e => (some e, { w with handlers := handlers })

def next (w : Gateways κ ι) : Event κ ι → Gateways κ ι
  | .message i msg row =>
    if (w.handlers i).running ∧ (w.handlers i).eventLoop ∧ (w.handlers i).loggedIn = false then
      w.eventWaitForLogin hashable i msg row
    else w
  | .finish i => if (w.handlers i).running then (w.finish i).2 else w

/-! ## What is to be -/

omit [DecidableEq ι] in
/-- Who has logged in last with an id is found as long as it runs, and nobody is found where nobody
    runs who has logged in with it. -/
def Found (w : Gateways κ ι) : Prop :=
  ∀ k, (∀ i, w.newest k = some i → (w.handlers i).running = true →
      w.manager.findHandler k = some i) ∧
    ((∀ i, (w.handlers i).fgwId = some k → (w.handlers i).running = false) →
      w.manager.findHandler k = none)

/-- The end of a handler raises nothing, and takes out its own entry, if that is there. -/
def EndsWell (w : Gateways κ ι) (e : Event κ ι) : Prop :=
  ∀ i, e = .finish i → (w.handlers i).running = true →
    (w.finish i).1 = none ∧ ∀ k, (w.finish i).2.manager.findHandler k =
      if w.manager.findHandler k = some i then none else w.manager.findHandler k

omit [DecidableEq κ] [DecidableEq ι] in
/-- A handler ends that has not logged in, or somebody has logged in with its id after it. -/
def Strips (w : Gateways κ ι) (e : Event κ ι) : Prop :=
  ∃ i, e = .finish i ∧ (w.handlers i).running = true ∧
    ∀ k, (w.handlers i).fgwId = some k → w.newest k ≠ some i

omit [DecidableEq ι] in
def registry (w : Gateways κ ι) : Registry κ ι where
  entry := w.manager.findHandler
  key := fun i => (w.handlers i).fgwId
  gone := fun i => !(w.handlers i).running
  latest := w.newest

omit [DecidableEq ι] in
/-- What is kept until an end goes wrong. -/
structure InStep (w : Gateways κ ι) : Prop where
  sound : w.registry.Sound
  current : w.registry.Current
  waiting : ∀ i, (w.handlers i).loggedIn = false → (w.handlers i).fgwId = none

section Steps

variable {hashable : κ → Bool} {w : Gateways κ ι}

omit [DecidableEq ι] in
theorem inStep_init : (init : Gateways κ ι).InStep where
  sound := ⟨nofun, nofun, nofun⟩
  current := nofun
  waiting := fun _ _ => rfl

omit [DecidableEq ι] in
theorem registry_open {i : ι} (hrunning : (w.handlers i).running = true) :
    w.registry.gone i = false := by
  show (!(w.handlers i).running) = false
  rw [hrunning]
  rfl

omit [DecidableEq κ] in
/-- Who has not logged in has no id yet, also where a handler changes. -/
theorem waiting_update {i : ι} {handler : GatewayHandler κ}
    (h : ∀ j, (w.handlers j).loggedIn = false → (w.handlers j).fgwId = none)
    (hi : handler.loggedIn = false → handler.fgwId = none) (j : ι)
    (hj : (Function.update w.handlers i handler j).loggedIn = false) :
    (Function.update w.handlers i handler j).fgwId = none := by
  rw [Function.update_apply] at hj ⊢
  split at hj
  · next hji =>
    rw [if_pos hji]
    exact hi hj
  · next hji =>
    rw [if_neg hji]
    exact h j hj

omit [DecidableEq ι] in
theorem InStep.found (h : w.InStep) : w.Found := by
  intro k
  constructor
  · exact fun i hi hrunning => h.current k i hi (registry_open hrunning)
  · intro hnobody
    cases hentry : w.manager.findHandler k with
    | none => rfl
    | some i =>
      -- whoever is in the table has logged in with its key, and runs
      have hopen := h.sound.open_of_entry k i hentry
      change (!(w.handlers i).running) = false at hopen
      rw [hnobody i (h.sound.key_of_entry hentry)] at hopen
      cases hopen

/-- A handler changes, but for what the registry sees of it. -/
theorem registry_update (i : ι) {handler : GatewayHandler κ}
    (hkey : handler.fgwId = (w.handlers i).fgwId) (hrunning : handler.running = (w.handlers i).running) :
    registry { w with handlers := Function.update w.handlers i handler } = w.registry := by
  refine Registry.ext rfl ?_ ?_ rfl
  · funext j
    show (Function.update w.handlers i handler j).fgwId = (w.handlers j).fgwId
    rw [Function.update_apply]
    split
    · next hj => rw [hkey, hj]
    · rfl
  · funext j
    show (!(Function.update w.handlers i handler j).running) = !(w.handlers j).running
    rw [Function.update_apply]
    split
    · next hj => rw [hrunning, hj]
    · rfl

theorem InStep.raise (h : w.InStep) (i : ι) : (w.raise i).InStep := by
  have hsame : (w.raise i).registry = w.registry := registry_update i rfl rfl
  exact ⟨hsame ▸ h.sound, hsame ▸ h.current, waiting_update h.waiting (h.waiting i)⟩

/-- A login enters the registry. -/
theorem registry_logIn (w : Gateways κ ι) (i : ι) (devId : κ) :
    (w.logIn i devId).registry = w.registry.enter devId i := by
  refine Registry.ext (w.manager.findHandler_addHandler devId i) ?_ ?_ rfl
  · funext j
    show (Function.update w.handlers i _ j).fgwId =
      Function.update (fun i => (w.handlers i).fgwId) i (some devId) j
    rw [Function.update_apply, Function.update_apply]
    split <;> rfl
  · funext j
    show (!(Function.update w.handlers i _ j).running) = !(w.handlers j).running
    rw [Function.update_apply]
    split
    · next hj => rw [hj]
    · rfl

theorem InStep.logIn (h : w.InStep) {i : ι} (hrunning : (w.handlers i).running = true)
    (hwaits : (w.handlers i).loggedIn = false) (devId : κ) : (w.logIn i devId).InStep := by
  refine ⟨?_, ?_, waiting_update h.waiting fun hlogin => by cases hlogin⟩
  · rw [registry_logIn]
    exact h.sound.enter devId (h.waiting i hwaits) (registry_open hrunning)
  · rw [registry_logIn]
    exact h.current.enter devId i

/-- **A message to a handler that waits for its login.** -/
theorem InStep.message (h : w.InStep) (i : ι) (msg : LoginMsg κ) (row : Counted) :
    (w.next hashable (.message i msg row)).InStep := by
  rw [next]
  split
  · next hready =>
    unfold eventWaitForLogin
    split
    · split
      · next devId _ _ =>
        cases row with
        | none => exact h
        | error => exact h.raise i
        | count n =>
          simp only
          split
          · split
            · exact h.logIn hready.1 hready.2.2 devId
            · exact h.raise i
          · exact h
      · exact h.raise i
    · exact h
  · exact h

/-- What an end raises, and what is found after it. -/
theorem finish_spec (w : Gateways κ ι) (i : ι) :
    ((w.finish i).1 = none ↔
      ∃ k, (w.handlers i).fgwId = some k ∧ (w.manager.findHandler k).isSome = true) ∧
    ∀ k, (w.finish i).2.manager.findHandler k =
      if (w.handlers i).fgwId = some k then none else w.manager.findHandler k := by
  unfold finish
  cases hid : (w.handlers i).fgwId with
  | none =>
    refine ⟨iff_of_false nofun ?_, fun k => ?_⟩
    · rintro ⟨k, hk, -⟩
      cases hk
    · rw [if_neg nofun]
      rfl
  | some id =>
    rcases Bool.eq_false_or_eq_true (w.manager.findHandler id).isSome with hthere | hnot
    · -- the entry goes, whosever it is
      obtain ⟨m', hm', hfind⟩ := FgwManager.removeHandler_some hthere
      rw [hm']
      refine ⟨iff_of_true rfl ⟨id, rfl, hthere⟩, fun k => (hfind k).trans ?_⟩
      exact if_congr (by rw [Option.some.injEq, eq_comm]) rfl rfl
    · have hremove : w.manager.removeHandler (some id) = .error (.notHere (some id)) := by
        rw [FgwManager.removeHandler, hnot]
        exact if_neg Bool.false_ne_true
      rw [hremove]
      refine ⟨iff_of_false nofun ?_, fun k => ?_⟩
      · rintro ⟨k, hk, hthere⟩
        rw [← Option.some.inj hk, hnot] at hthere
        cases hthere
      · show w.manager.findHandler k = _
        split
        · next hk =>
          rw [← Option.some.inj hk]
          exact Option.isNone_iff_eq_none.mp (Option.isSome_eq_false_iff.mp hnot)
        · rfl

theorem finish_handlers (w : Gateways κ ι) (i : ι) : (w.finish i).2.handlers =
    Function.update w.handlers i { w.handlers i with running := false } := by
  unfold finish
  split <;> rfl

theorem finish_newest (w : Gateways κ ι) (i : ι) : (w.finish i).2.newest = w.newest := by
  unfold finish
  split <;> rfl

/-- **An end leaves the registry**, whether it raises or not. -/
theorem registry_finish (w : Gateways κ ι) (i : ι) :
    (w.finish i).2.registry = w.registry.leave i := by
  refine Registry.ext (funext (finish_spec w i).2) ?_ ?_ (finish_newest w i)
  · funext j
    show ((w.finish i).2.handlers j).fgwId = (w.handlers j).fgwId
    rw [finish_handlers, Function.update_apply]
    split
    · next hj => rw [hj]
    · rfl
  · funext j
    show (!((w.finish i).2.handlers j).running) =
      Function.update (fun i => !(w.handlers i).running) i true j
    rw [finish_handlers, Function.update_apply, Function.update_apply]
    split <;> rfl

/-- **An end is as it is to be exactly if nobody has logged in with the id after the handler.** -/
theorem InStep.finish_iff (h : w.InStep) {i : ι} (hrunning : (w.handlers i).running = true) :
    ((w.finish i).1 = none ∧ ∀ k, (w.finish i).2.manager.findHandler k =
      if w.manager.findHandler k = some i then none else w.manager.findHandler k) ↔
    ∃ k, (w.handlers i).fgwId = some k ∧ w.newest k = some i := by
  obtain ⟨hraises, hfind⟩ := finish_spec w i
  rw [hraises]
  constructor
  · rintro ⟨⟨k, hkey, hthere⟩, hown⟩
    refine ⟨k, hkey, h.sound.latest_of_entry k i ?_⟩
    -- the entry of `k` is taken out, so that it has to be the handler's own
    have hgone := hown k
    rw [hfind, if_pos hkey] at hgone
    by_cases hmine : w.manager.findHandler k = some i
    · exact hmine
    · rw [if_neg hmine] at hgone
      rw [← hgone] at hthere
      cases hthere
  · rintro ⟨k, hkey, hnewest⟩
    have hentry : w.manager.findHandler k = some i :=
      h.current k i hnewest (registry_open hrunning)
    refine ⟨⟨k, hkey, by rw [hentry]; rfl⟩, fun k' => ?_⟩
    rw [hfind]
    -- no other entry is the handler's, for it has one id
    refine if_congr ⟨fun hk => ?_, fun hk => h.sound.key_of_entry hk⟩ rfl rfl
    obtain rfl : k = k' := Option.some.inj (hkey.symm.trans hk)
    exact hentry

/-- An end that is as it is to be leaves all in step. -/
theorem InStep.finish (h : w.InStep) {i : ι} {k : κ} (hkey : (w.handlers i).fgwId = some k)
    (hnewest : w.newest k = some i) : (w.finish i).2.InStep := by
  have hovertaken : ¬ w.registry.Overtaken i := by
    rintro ⟨k', j, hkey', hlatest, hne, -⟩
    obtain rfl : k = k' := Option.some.inj (hkey.symm.trans hkey')
    exact hne (Option.some.inj (hlatest.symm.trans hnewest))
  refine ⟨?_, ?_, ?_⟩
  · rw [registry_finish]
    exact h.sound.leave i
  · rw [registry_finish]
    exact (Registry.current_leave_iff h.current i).mpr hovertaken
  · rw [finish_handlers]
    exact waiting_update h.waiting (h.waiting i)

omit [DecidableEq κ] [DecidableEq ι] in
theorem strips_finish_iff {i : ι} (hrunning : (w.handlers i).running = true) :
    ¬ w.Strips (.finish i) ↔ ∃ k, (w.handlers i).fgwId = some k ∧ w.newest k = some i := by
  constructor
  · intro hnot
    by_contra hall
    refine hnot ⟨i, rfl, hrunning, fun k hkey hnewest => hall ⟨k, hkey, hnewest⟩⟩
  · rintro ⟨k, hkey, hnewest⟩ ⟨j, hj, -, hall⟩
    obtain rfl : i = j := by cases hj; rfl
    exact hall k hkey hnewest

theorem InStep.next (h : w.InStep) (e : Event κ ι) (hnot : ¬ w.Strips e) :
    (w.next hashable e).InStep := by
  cases e with
  | message i msg row => exact h.message i msg row
  | finish i =>
    rw [Gateways.next]
    split
    · next hrunning =>
      obtain ⟨k, hkey, hnewest⟩ := (strips_finish_iff hrunning).mp hnot
      exact h.finish hkey hnewest
    · exact h

end Steps

/-! ## Runs -/

/-- **Ends take out what is their own, and the last to log in is found as long as it runs, exactly if
    nobody ends who has not logged in or after whom somebody has logged in with the same id.** -/
theorem registered_iff (hashable : κ → Bool) (es : List (Event κ ι)) :
    (∀ v ∈ Runs.visits (next hashable) init es,
      v.1.EndsWell v.2 ∧ (v.1.next hashable v.2).Found) ↔
      ∀ v ∈ Runs.visits (next hashable) init es, ¬ v.1.Strips v.2 := by
  refine @Runs.forall_visits_iff _ _ (next hashable) InStep (fun _ _ => True)
    (fun w e => w.EndsWell e ∧ (w.next hashable e).Found) (fun w e => ¬ w.Strips e) ?_ ?_ init
    inStep_init es fun _ _ => trivial
  · intro w e h _
    constructor
    · rintro ⟨hends, -⟩ ⟨i, rfl, hrunning, hall⟩
      obtain ⟨k, hkey, hnewest⟩ := (h.finish_iff hrunning).mp (hends i rfl hrunning)
      exact hall k hkey hnewest
    · intro hnot
      refine ⟨?_, (h.next e hnot).found⟩
      rintro i rfl hrunning
      exact (h.finish_iff hrunning).mpr ((strips_finish_iff hrunning).mp hnot)
  · exact fun w e h _ hnot => h.next e hnot

/-- A gateway connects again, and the end of its first handler strips the second one. -/
theorem reconnect_stripped :
    ¬ ∀ (hashable : String → Bool) (es : List (Event String Nat)),
      ∀ v ∈ Runs.visits (next hashable) init es,
        v.1.EndsWell v.2 ∧ (v.1.next hashable v.2).Found := by
  intro hall
  have hes := hall (fun _ => true)
    [.message 0 ⟨some "login", some "key", some "gateway"⟩ (.count 1),
      .message 1 ⟨some "login", some "key", some "gateway"⟩ (.count 1), .finish 0] _
    (List.mem_cons_of_mem _ (List.mem_cons_of_mem _ List.mem_cons_self))
  have hfound := (hes.2 "gateway").1 1 rfl rfl
  exact absurd hfound (by decide)

end Gateways

end Monsys

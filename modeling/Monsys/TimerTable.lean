/-
  The timers of `libframework/ztimer.h` with the records behind their slots, and callbacks that set
  and cancel timers while one fires.

  1. **Records** — `TimerStore`: a slot points to a record that was allocated.  What is freed stays
     freed; to look at it, or to free it again, is a `Fault`.
  2. **Calls** — `setTimer` and `cancelTimer`, which do to the slots what they do to those of a
     `ZTimer`, and what a row of them does (`Effect`).
  3. **A timer fires** — `timerCallback` looks at its record again after the callback, which is safe
     exactly if the callback has not cancelled this timer.
-/
import Monsys.FgwClientHandler

namespace Monsys

/-! ## Records -/

inductive TimerStore.Fault
  | usedFreed
  | freedTwice
deriving DecidableEq, Repr

/-- `TimerData` as it is allocated; the interval is that of its event. -/
structure TimerRecord where
  data : TimerData
  id : Fin maxTimerCount
deriving DecidableEq, Repr

/-- The slots, the records that are allocated, and how many ever were. -/
structure TimerStore where
  evList : Fin maxTimerCount → Option Nat
  heap : Nat → Option TimerRecord
  made : Nat

namespace TimerStore

def new : TimerStore := ⟨fun _ => none, fun _ => none, 0⟩

/-- A look at a record. -/
def read (t : TimerStore) (a : Nat) : Except Fault TimerRecord :=
  match t.heap a with
  | none => .error .usedFreed
  | some r => .ok r

/-- `delete`. -/
def free (t : TimerStore) (a : Nat) : Except Fault TimerStore :=
  match t.heap a with
  | none => .error .freedTwice
  | some _ => .ok { t with heap := Function.update t.heap a none }

/-- The timers as they are elsewhere: each slot with what its record says. -/
def toZTimer (t : TimerStore) : ZTimer :=
  ⟨fun i => (t.evList i).bind fun a => (t.heap a).map TimerRecord.data⟩

/-! ## Calls -/

/-- `getAvailableIndex`, `none` for -1. -/
def getAvailableIndex (t : TimerStore) : Option (Fin maxTimerCount) :=
  (List.finRange maxTimerCount).find? fun i => (t.evList i).isNone

def setTimer (t : TimerStore) (interval : Int) (isRepeat : Bool) : Int × TimerStore :=
  match t.getAvailableIndex with
  | none => (-1, t)
  | some id =>
    (id,
      { evList := Function.update t.evList id (some t.made)
        heap := Function.update t.heap t.made (some ⟨⟨interval, isRepeat⟩, id⟩)
        made := t.made + 1 })

/-- The slot of an id, if it is one. -/
def slot? (id : Int) : Option (Fin maxTimerCount) :=
  if h : 0 ≤ id ∧ id < maxTimerCount then some ⟨id.toNat, by omega⟩ else none

def cancelTimer (t : TimerStore) (id : Int) : Except Fault TimerStore :=
  match slot? id with
  | none => .ok t
  | some i =>
    match t.evList i with
    | none => .ok t
    | some a => do
      let _ ← t.read a  -- its event is freed
      let t ← t.free a
      return { t with evList := Function.update t.evList i none }

/-- What a callback may call. -/
inductive Call
  | setTimer (interval : Int) (isRepeat : Bool)
  | cancelTimer (id : Int)
deriving DecidableEq, Repr

/-- The records that a callback has made, and those it has cancelled. -/
structure Log where
  created : List Nat
  cancelled : List Nat
deriving DecidableEq, Repr

def call (t : TimerStore) : Call → Except Fault (TimerStore × Log)
  | .setTimer interval isRepeat =>
    .ok ((t.setTimer interval isRepeat).2,
      ⟨if t.getAvailableIndex.isSome then [t.made] else [], []⟩)
  | .cancelTimer id =>
    (t.cancelTimer id).map fun t' => (t', ⟨[], ((slot? id).bind t.evList).toList⟩)

/-- A callback: one call after the other. -/
def run (t : TimerStore) : List Call → Except Fault (TimerStore × Log)
  | [] => .ok (t, ⟨[], []⟩)
  | c :: calls => do
    let (t, log) ← t.call c
    let (t, rest) ← t.run calls
    return (t, ⟨log.created ++ rest.created, log.cancelled ++ rest.cancelled⟩)

/-- `timer_callback` with the record `a`, whose `onTimeout` makes the calls. -/
def timerCallback (t : TimerStore) (a : Nat) (calls : List Call) :
    Except Fault (TimerStore × Log) := do
  let _ ← t.read a
  let (t, log) ← t.run calls
  let timerData ← t.read a
  if timerData.data.isRepeat then return (t, log)
  let t ← t.cancelTimer timerData.id
  return (t, log)

/-! ### What the slots hold -/

/-- A record of a timer that is set. -/
def Live (t : TimerStore) (a : Nat) : Prop := ∃ i, t.evList i = some a

/-- The records that are allocated are those of the slots, each in the slot of its id. -/
structure Proper (t : TimerStore) : Prop where
  filed : ∀ i a, t.evList i = some a → ∃ r, t.heap a = some r ∧ r.id = i
  owned : ∀ a r, t.heap a = some r → t.evList r.id = some a
  past : ∀ a, (t.heap a).isSome → a < t.made

theorem proper_new : new.Proper := ⟨nofun, nofun, nofun⟩

variable {t t' : TimerStore}

theorem Proper.live_iff (h : t.Proper) (a : Nat) : t.Live a ↔ (t.heap a).isSome := by
  constructor
  · rintro ⟨i, hi⟩
    obtain ⟨r, hr, -⟩ := h.filed i a hi
    rw [hr]
    rfl
  · intro ha
    obtain ⟨r, hr⟩ := Option.isSome_iff_exists.mp ha
    exact ⟨r.id, h.owned a r hr⟩

/-- A record stands in one slot only. -/
theorem Proper.slot_unique (h : t.Proper) {i j : Fin maxTimerCount} {a : Nat}
    (hi : t.evList i = some a) (hj : t.evList j = some a) : i = j := by
  obtain ⟨r, hr, rfl⟩ := h.filed i a hi
  obtain ⟨r', hr', rfl⟩ := h.filed j a hj
  rw [hr] at hr'
  rw [Option.some.inj hr']

/-! ### What a call does -/

/-- From `t` to `t'`, with the records of the log made and cancelled, and every other as it was. -/
structure Effect (t t' : TimerStore) (log : Log) : Prop where
  proper : t'.Proper
  grows : t.made ≤ t'.made
  fresh : ∀ b ∈ log.created, t.made ≤ b
  past : ∀ b ∈ log.cancelled, b < t'.made
  live : ∀ b, t'.Live b ↔ (t.Live b ∨ b ∈ log.created) ∧ b ∉ log.cancelled
  kept : ∀ b r, t.heap b = some r → b ∉ log.cancelled → t'.heap b = some r

theorem Effect.refl (h : t.Proper) : Effect t t ⟨[], []⟩ where
  proper := h
  grows := Nat.le_refl _
  fresh := nofun
  past := nofun
  live := fun _ =>
    ⟨fun hb => ⟨Or.inl hb, List.not_mem_nil⟩, fun hb => hb.1.resolve_right List.not_mem_nil⟩
  kept := fun _ _ hb _ => hb

/-- What is made later has not been cancelled before. -/
theorem Effect.trans {t'' : TimerStore} {log log' : Log} (h : Effect t t' log)
    (h' : Effect t' t'' log') :
    Effect t t'' ⟨log.created ++ log'.created, log.cancelled ++ log'.cancelled⟩ where
  proper := h'.proper
  grows := Nat.le_trans h.grows h'.grows
  fresh := by
    intro b hb
    rcases List.mem_append.mp hb with hb | hb
    · exact h.fresh b hb
    · exact Nat.le_trans h.grows (h'.fresh b hb)
  past := by
    intro b hb
    rcases List.mem_append.mp hb with hb | hb
    · exact Nat.lt_of_lt_of_le (h.past b hb) h'.grows
    · exact h'.past b hb
  live := by
    intro b
    have hlater : b ∈ log'.created → b ∉ log.cancelled := by
      intro hmade hgone
      exact Nat.lt_irrefl b (Nat.lt_of_lt_of_le (h.past b hgone) (h'.fresh b hmade))
    rw [h'.live, h.live, List.mem_append, List.mem_append, not_or]
    constructor
    · rintro ⟨⟨hb | hb, hgone⟩ | hb, hgone'⟩
      · exact ⟨Or.inl hb, hgone, hgone'⟩
      · exact ⟨Or.inr (Or.inl hb), hgone, hgone'⟩
      · exact ⟨Or.inr (Or.inr hb), hlater hb, hgone'⟩
    · rintro ⟨hb | hb | hb, hgone, hgone'⟩
      · exact ⟨Or.inl ⟨Or.inl hb, hgone⟩, hgone'⟩
      · exact ⟨Or.inl ⟨Or.inr hb, hgone⟩, hgone'⟩
      · exact ⟨Or.inr hb, hgone'⟩
  kept := by
    intro b r hb hgone
    rw [List.mem_append, not_or] at hgone
    exact h'.kept b r (h.kept b r hb hgone.1) hgone.2

/-- The state with a new record in a slot. -/
def filled (t : TimerStore) (id : Fin maxTimerCount) (data : TimerData) : TimerStore where
  evList := Function.update t.evList id (some t.made)
  heap := Function.update t.heap t.made (some ⟨data, id⟩)
  made := t.made + 1

/-- The state with a slot's record gone. -/
def emptied (t : TimerStore) (id : Fin maxTimerCount) (a : Nat) : TimerStore where
  evList := Function.update t.evList id none
  heap := Function.update t.heap a none
  made := t.made

section Update

variable {ι α : Type} [DecidableEq ι] {f : ι → Option α} {i j : ι} {a b : α}

theorem update_some_iff (hi : f i = none) :
    Function.update f i (some a) j = some b ↔ f j = some b ∨ j = i ∧ b = a := by
  by_cases hj : j = i
  · rw [hj, Function.update_self, hi, Option.some.injEq]
    exact ⟨fun hb => Or.inr ⟨rfl, hb.symm⟩, fun hb => (hb.resolve_left nofun).2.symm⟩
  · rw [Function.update_of_ne hj]
    exact ⟨Or.inl, fun hb => hb.resolve_right fun hb => hj hb.1⟩

theorem update_none_iff : Function.update f i none j = some b ↔ f j = some b ∧ j ≠ i := by
  by_cases hj : j = i
  · rw [hj, Function.update_self]
    exact iff_of_false (fun hb => by cases hb) fun hb => hb.2 rfl
  · rw [Function.update_of_ne hj]
    exact ⟨fun hb => ⟨hb, hj⟩, fun hb => hb.1⟩

end Update

theorem Proper.filled (h : t.Proper) {id : Fin maxTimerCount} (hfree : t.evList id = none)
    (data : TimerData) : Effect t (t.filled id data) ⟨[t.made], []⟩ := by
  have hnew : t.heap t.made = none := by
    rw [← Option.not_isSome_iff_eq_none]
    exact fun hmade => Nat.lt_irrefl _ (h.past _ hmade)
  have hslots : ∀ i b, (t.filled id data).evList i = some b ↔
      t.evList i = some b ∨ i = id ∧ b = t.made := fun _ _ => update_some_iff hfree
  have hheap : ∀ b r, (t.filled id data).heap b = some r ↔
      t.heap b = some r ∨ b = t.made ∧ r = ⟨data, id⟩ := fun _ _ => update_some_iff hnew
  constructor
  · constructor
    · intro i b hi
      rcases (hslots i b).mp hi with hi | ⟨rfl, rfl⟩
      · obtain ⟨r, hr, hrid⟩ := h.filed i b hi
        exact ⟨r, (hheap b r).mpr (Or.inl hr), hrid⟩
      · exact ⟨_, (hheap _ _).mpr (Or.inr ⟨rfl, rfl⟩), rfl⟩
    · intro b r hb
      rcases (hheap b r).mp hb with hb | ⟨rfl, rfl⟩
      · exact (hslots r.id b).mpr (Or.inl (h.owned b r hb))
      · exact (hslots _ _).mpr (Or.inr ⟨rfl, rfl⟩)
    · intro b hb
      obtain ⟨r, hr⟩ := Option.isSome_iff_exists.mp hb
      rcases (hheap b r).mp hr with hr | ⟨rfl, -⟩
      · exact Nat.lt_succ_of_lt (h.past b (by rw [hr]; rfl))
      · exact Nat.lt_succ_self _
  · exact Nat.le_succ _
  · exact List.forall_mem_singleton.mpr (Nat.le_refl _)
  · exact nofun
  · intro b
    rw [List.mem_singleton]
    constructor
    · rintro ⟨i, hi⟩
      refine ⟨?_, List.not_mem_nil⟩
      rcases (hslots i b).mp hi with hi | ⟨-, hb⟩
      · exact Or.inl ⟨i, hi⟩
      · exact Or.inr hb
    · rintro ⟨⟨i, hi⟩ | hb, -⟩
      · exact ⟨i, (hslots i b).mpr (Or.inl hi)⟩
      · exact ⟨id, (hslots id b).mpr (Or.inr ⟨rfl, hb⟩)⟩
  · exact fun b r hb _ => (hheap b r).mpr (Or.inl hb)

theorem Proper.emptied (h : t.Proper) {id : Fin maxTimerCount} {a : Nat}
    (ha : t.evList id = some a) : Effect t (t.emptied id a) ⟨[], [a]⟩ := by
  have hother : ∀ i b, i ≠ id → t.evList i = some b → b ≠ a := by
    rintro i b hne hi rfl
    exact hne (h.slot_unique hi ha)
  have hslots : ∀ i b, (t.emptied id a).evList i = some b ↔ t.evList i = some b ∧ i ≠ id :=
    fun _ _ => update_none_iff
  have hheap : ∀ b r, (t.emptied id a).heap b = some r ↔ t.heap b = some r ∧ b ≠ a :=
    fun _ _ => update_none_iff
  have hpast : a < t.made := by
    obtain ⟨r, hr, -⟩ := h.filed id a ha
    exact h.past a (by rw [hr]; rfl)
  constructor
  · constructor
    · intro i b hi
      obtain ⟨hi, hne⟩ := (hslots i b).mp hi
      obtain ⟨r, hr, hrid⟩ := h.filed i b hi
      exact ⟨r, (hheap b r).mpr ⟨hr, hother i b hne hi⟩, hrid⟩
    · intro b r hb
      obtain ⟨hb, hne⟩ := (hheap b r).mp hb
      have hslot := h.owned b r hb
      refine (hslots r.id b).mpr ⟨hslot, fun hid => hne ?_⟩
      rw [hid, ha] at hslot
      exact (Option.some.inj hslot).symm
    · intro b hb
      obtain ⟨r, hr⟩ := Option.isSome_iff_exists.mp hb
      exact h.past b (by rw [((hheap b r).mp hr).1]; rfl)
  · exact Nat.le_refl _
  · exact nofun
  · exact List.forall_mem_singleton.mpr hpast
  · intro b
    rw [List.mem_singleton]
    constructor
    · rintro ⟨i, hi⟩
      obtain ⟨hi, hne⟩ := (hslots i b).mp hi
      exact ⟨Or.inl ⟨i, hi⟩, hother i b hne hi⟩
    · rintro ⟨⟨i, hi⟩ | hb, hne⟩
      · refine ⟨i, (hslots i b).mpr ⟨hi, ?_⟩⟩
        rintro rfl
        rw [ha] at hi
        exact hne (Option.some.inj hi).symm
      · cases hb
  · intro b r hb hne
    exact (hheap b r).mpr ⟨hb, fun heq => hne (List.mem_singleton.mpr heq)⟩

theorem setTimer_of_none (hslot : t.getAvailableIndex = none) (interval : Int) (isRepeat : Bool) :
    t.setTimer interval isRepeat = (-1, t) := by
  rw [setTimer, hslot]

theorem setTimer_of_some {id : Fin maxTimerCount} (hslot : t.getAvailableIndex = some id)
    (interval : Int) (isRepeat : Bool) :
    t.setTimer interval isRepeat = ((id : Int), t.filled id ⟨interval, isRepeat⟩) := by
  rw [setTimer, hslot]
  rfl

/-- A timer that is set is cancelled without a fault. -/
theorem cancelTimer_of_some (h : t.Proper) {id : Int} {i : Fin maxTimerCount}
    (hid : slot? id = some i) {a : Nat} (ha : t.evList i = some a) :
    t.cancelTimer id = .ok (t.emptied i a) := by
  obtain ⟨r, hr, -⟩ := h.filed i a ha
  rw [cancelTimer, hid]
  dsimp only
  rw [ha]
  dsimp only
  rw [read, hr]
  show (t.free a).bind _ = _
  rw [free, hr]
  rfl

theorem cancelTimer_of_none {id : Int} (hid : (slot? id).bind t.evList = none) :
    t.cancelTimer id = .ok t := by
  rw [cancelTimer]
  split
  · rfl
  · next i hi =>
    rw [hi, Option.bind_some] at hid
    rw [hid]

/-- **A call goes through** and does what its log says. -/
theorem call_effect (h : t.Proper) (c : Call) :
    ∃ t' log, t.call c = .ok (t', log) ∧ Effect t t' log := by
  cases c with
  | setTimer interval isRepeat =>
    rw [call]
    cases hslot : t.getAvailableIndex with
    | none =>
      rw [setTimer_of_none hslot]
      exact ⟨_, _, rfl, .refl h⟩
    | some id =>
      have hfree := List.find?_some (p := fun i => (t.evList i).isNone) hslot
      rw [setTimer_of_some hslot]
      exact ⟨_, _, rfl, h.filled (Option.isNone_iff_eq_none.mp hfree) _⟩
  | cancelTimer id =>
    rw [call]
    cases hslot : (slot? id).bind t.evList with
    | none =>
      rw [cancelTimer_of_none hslot]
      exact ⟨_, _, rfl, .refl h⟩
    | some a =>
      obtain ⟨i, hi, ha⟩ := Option.bind_eq_some_iff.mp hslot
      rw [cancelTimer_of_some h hi ha]
      exact ⟨_, _, rfl, h.emptied ha⟩

/-- **A row of calls.** -/
theorem run_effect (h : t.Proper) (calls : List Call) :
    ∃ t' log, t.run calls = .ok (t', log) ∧ Effect t t' log := by
  induction calls generalizing t with
  | nil => exact ⟨t, _, rfl, .refl h⟩
  | cons c calls ih =>
    obtain ⟨t₁, log₁, hcall, h₁⟩ := call_effect h c
    obtain ⟨t₂, log₂, hrun, h₂⟩ := ih h₁.proper
    refine ⟨t₂, _, ?_, h₁.trans h₂⟩
    rw [run, hcall]
    show (t₁.run calls).bind _ = _
    rw [hrun]
    rfl

/-! ### The timers as they are elsewhere -/

theorem toZTimer_isNone (h : t.Proper) (i : Fin maxTimerCount) :
    (t.toZTimer.evList i).isNone = (t.evList i).isNone := by
  show ((t.evList i).bind fun a => (t.heap a).map TimerRecord.data).isNone = _
  cases hi : t.evList i with
  | none => rfl
  | some a =>
    obtain ⟨r, hr, -⟩ := h.filed i a hi
    rw [Option.bind_some, hr]
    rfl

/-- Setting a timer is that of a `ZTimer`. -/
theorem setTimer_toZTimer (h : t.Proper) (interval : Int) (isRepeat : Bool) :
    ((t.setTimer interval isRepeat).1, (t.setTimer interval isRepeat).2.toZTimer) =
      t.toZTimer.setTimer interval isRepeat := by
  have hindex : t.toZTimer.getAvailableIndex = t.getAvailableIndex := by
    rw [ZTimer.getAvailableIndex, getAvailableIndex]
    congr 1
    exact funext (toZTimer_isNone h)
  rw [ZTimer.setTimer, hindex]
  cases hslot : t.getAvailableIndex with
  | none => rw [setTimer_of_none hslot]
  | some id =>
    rw [setTimer_of_some hslot]
    refine Prod.ext rfl (congrArg ZTimer.mk (funext fun i => ?_))
    show (Function.update t.evList id (some t.made) i).bind (fun a =>
        (Function.update t.heap t.made (some ⟨⟨interval, isRepeat⟩, id⟩) a).map TimerRecord.data) =
      Function.update t.toZTimer.evList id (some ⟨interval, isRepeat⟩) i
    by_cases hid : i = id
    · rw [hid, Function.update_self, Function.update_self, Option.bind_some, Function.update_self]
      rfl
    · rw [Function.update_of_ne hid, Function.update_of_ne hid]
      show _ = (t.evList i).bind _
      refine Option.bind_congr fun a ha => ?_
      obtain ⟨r, hr, -⟩ := h.filed i a ha
      have hne : a ≠ t.made := Nat.ne_of_lt (h.past a (by rw [hr]; rfl))
      rw [Function.update_of_ne hne]

theorem slot?_eq_some_iff {id : Int} {i : Fin maxTimerCount} : slot? id = some i ↔ id = i := by
  rw [slot?]
  constructor
  · intro h
    split at h
    · next hid =>
      rw [← Option.some.inj h]
      exact (Int.toNat_of_nonneg hid.1).symm
    · cases h
  · rintro rfl
    have hi := i.isLt
    rw [dif_pos ⟨by omega, by omega⟩]
    rfl

/-- Cancelling is, too. -/
theorem cancelTimer_toZTimer (h : t.Proper) (id : Int) :
    (t.cancelTimer id).map toZTimer = .ok (t.toZTimer.cancelTimer id) := by
  cases hslot : (slot? id).bind t.evList with
  | none =>
    rw [cancelTimer_of_none hslot]
    refine congrArg Except.ok (congrArg ZTimer.mk (funext fun i => ?_))
    show _ = if (i : Int) = id then none else t.toZTimer.evList i
    split
    · next hi =>
      rw [slot?_eq_some_iff.mpr hi.symm, Option.bind_some] at hslot
      rw [hslot]
      rfl
    · rfl
  | some a =>
    obtain ⟨j, hj, ha⟩ := Option.bind_eq_some_iff.mp hslot
    rw [cancelTimer_of_some h hj ha]
    obtain rfl := slot?_eq_some_iff.mp hj
    refine congrArg Except.ok (congrArg ZTimer.mk (funext fun i => ?_))
    show (Function.update t.evList j none i).bind _ =
      if (i : Int) = j then none else (t.evList i).bind _
    by_cases hij : i = j
    · rw [hij, Function.update_self, if_pos rfl]
      rfl
    · rw [Function.update_of_ne hij, if_neg fun heq => hij (Fin.ext (by omega))]
      refine Option.bind_congr fun b hb => ?_
      have hne : b ≠ a := by
        rintro rfl
        exact hij (h.slot_unique hb ha)
      show Option.map _ (Function.update t.heap a none b) = _
      rw [Function.update_of_ne hne]

/-! ## A timer fires -/

/-- A call that does not cancel a timer leaves it in its slot. -/
theorem call_slot (h : t.Proper) {c : Call} {log : Log} (hcall : t.call c = .ok (t', log))
    {i : Fin maxTimerCount} {a : Nat} (hi : t.evList i = some a) (hc : c ≠ .cancelTimer i) :
    t'.evList i = some a := by
  cases c with
  | setTimer interval isRepeat =>
    cases hslot : t.getAvailableIndex with
    | none =>
      rw [call, setTimer_of_none hslot] at hcall
      obtain ⟨rfl, -⟩ := Prod.mk.inj (Except.ok.inj hcall)
      exact hi
    | some id =>
      rw [call, setTimer_of_some hslot] at hcall
      obtain ⟨rfl, -⟩ := Prod.mk.inj (Except.ok.inj hcall)
      have hfree := List.find?_some (p := fun i => (t.evList i).isNone) hslot
      have hne : i ≠ id := by
        rintro rfl
        rw [hi] at hfree
        cases hfree
      exact (Function.update_of_ne hne _ _).trans hi
  | cancelTimer id =>
    rw [call] at hcall
    cases hslot : (slot? id).bind t.evList with
    | none =>
      rw [cancelTimer_of_none hslot] at hcall
      obtain ⟨rfl, -⟩ := Prod.mk.inj (Except.ok.inj hcall)
      exact hi
    | some b =>
      obtain ⟨j, hj, hb⟩ := Option.bind_eq_some_iff.mp hslot
      rw [cancelTimer_of_some h hj hb] at hcall
      obtain ⟨rfl, -⟩ := Prod.mk.inj (Except.ok.inj hcall)
      have hne : i ≠ j := by
        rintro rfl
        exact hc (congrArg Call.cancelTimer (slot?_eq_some_iff.mp hj))
      exact (Function.update_of_ne hne _ _).trans hi

/-- The call that cancels it logs its record. -/
theorem call_cancels (h : t.Proper) {log : Log} {i : Fin maxTimerCount} {a : Nat}
    (hcall : t.call (.cancelTimer i) = .ok (t', log)) (hi : t.evList i = some a) :
    a ∈ log.cancelled := by
  have hslot : slot? (i : Int) = some i := slot?_eq_some_iff.mpr rfl
  rw [call, cancelTimer_of_some h hslot hi] at hcall
  obtain ⟨-, rfl⟩ := Prod.mk.inj (Except.ok.inj hcall)
  rw [hslot, Option.bind_some, hi]
  exact List.mem_singleton_self a

/-- A callback cancels a timer exactly if it calls for it. -/
theorem run_cancels_iff (h : t.Proper) {calls : List Call} {log : Log}
    (hrun : t.run calls = .ok (t', log)) {i : Fin maxTimerCount} {a : Nat}
    (hi : t.evList i = some a) : a ∈ log.cancelled ↔ .cancelTimer (i : Int) ∈ calls := by
  induction calls generalizing t log with
  | nil =>
    obtain ⟨-, rfl⟩ := Prod.mk.inj (Except.ok.inj hrun)
    exact iff_of_false List.not_mem_nil List.not_mem_nil
  | cons c calls ih =>
    obtain ⟨t₁, log₁, hcall, h₁⟩ := call_effect h c
    obtain ⟨t₂, log₂, hrest, h₂⟩ := run_effect h₁.proper calls
    have hboth : t.run (c :: calls) =
        .ok (t₂, ⟨log₁.created ++ log₂.created, log₁.cancelled ++ log₂.cancelled⟩) := by
      rw [run, hcall]
      show (t₁.run calls).bind _ = _
      rw [hrest]
      rfl
    obtain ⟨rfl, rfl⟩ := Prod.mk.inj (Except.ok.inj (hboth.symm.trans hrun))
    rw [List.mem_append, List.mem_cons]
    by_cases hc : c = .cancelTimer i
    · -- whatever the later calls do to the slot
      rw [hc] at hcall
      exact iff_of_true (Or.inl (call_cancels h hcall hi)) (Or.inl hc.symm)
    · have hstays := call_slot h hcall hi hc
      have hkept : a ∉ log₁.cancelled := ((h₁.live a).mp ⟨i, hstays⟩).2
      rw [or_iff_right hkept, or_iff_right (Ne.symm hc)]
      exact ih h₁.proper hrest hstays

/-- A timer fires as it should: what is live afterwards are the timers that were and those that the
    callback has set, but for those it has cancelled, and for the one that fired if it is one-shot;
    and each in the slot of its id.  There is no fault. -/
def FiresCleanly (t : TimerStore) (a : Nat) (calls : List Call) : Prop :=
  ∃ r t' log, t.heap a = some r ∧ t.timerCallback a calls = .ok (t', log) ∧ t'.Proper ∧
    ∀ b, t'.Live b ↔ (t.Live b ∨ b ∈ log.created) ∧ b ∉ log.cancelled ∧
      ¬ (b = a ∧ r.data.isRepeat = false)

/-- **A timer fires cleanly** exactly if its callback does not cancel it. -/
theorem firesCleanly_iff (h : t.Proper) {i : Fin maxTimerCount} {a : Nat}
    (hi : t.evList i = some a) (calls : List Call) :
    t.FiresCleanly a calls ↔ .cancelTimer (i : Int) ∉ calls := by
  obtain ⟨r, hr, hid⟩ := h.filed i a hi
  obtain ⟨t₁, log, hrun, h₁⟩ := run_effect h calls
  rw [← not_congr (run_cancels_iff h hrun hi)]
  have hcallback : t.timerCallback a calls = (t₁.read a).bind fun timerData =>
      if timerData.data.isRepeat then .ok (t₁, log)
      else (t₁.cancelTimer timerData.id).bind fun t₂ => .ok (t₂, log) := by
    rw [timerCallback, read, hr]
    show (t.run calls).bind _ = _
    rw [hrun]
    rfl
  constructor
  · rintro ⟨-, t', log', -, hfires, -⟩ hgone
    -- `repeat` is read of a record that is gone
    have hfreed : t₁.heap a = none := by
      rw [← Option.not_isSome_iff_eq_none, ← h₁.proper.live_iff, h₁.live]
      exact fun hlive => hlive.2 hgone
    rw [hcallback, read, hfreed] at hfires
    cases hfires
  · intro hkept
    have hrecord : t₁.heap a = some r := h₁.kept a r hr hkept
    have hslot : t₁.evList r.id = some a := h₁.proper.owned a r hrecord
    rw [FiresCleanly]
    rw [read, hrecord] at hcallback
    cases hrep : r.data.isRepeat with
    | true =>
      refine ⟨r, t₁, log, hr, ?_, h₁.proper, fun b => ?_⟩
      · rw [hcallback]
        exact if_pos hrep
      · rw [h₁.live]
        exact ⟨fun hb => ⟨hb.1, hb.2, fun hb => by rw [hrep] at hb; cases hb.2⟩,
          fun hb => ⟨hb.1, hb.2.1⟩⟩
    | false =>
      -- the record still has its slot, so the epilogue cancels no other timer
      have hgone := h₁.proper.emptied hslot
      have hcancel : t₁.cancelTimer r.id = .ok (t₁.emptied r.id a) :=
        cancelTimer_of_some h₁.proper (slot?_eq_some_iff.mpr rfl) hslot
      refine ⟨r, t₁.emptied r.id a, log, hr, ?_, hgone.proper, fun b => ?_⟩
      · rw [hcallback]
        refine (if_neg (by rw [hrep]; exact Bool.false_ne_true)).trans ?_
        rw [hcancel]
        rfl
      · rw [hgone.live, h₁.live, List.mem_singleton, hrep]
        constructor
        · rintro ⟨hb | hb, hne⟩
          · exact ⟨hb.1, hb.2, fun heq => hne heq.1⟩
          · cases hb
        · rintro ⟨hb, hkept, hne⟩
          exact ⟨Or.inl ⟨hb, hkept⟩, fun heq => hne ⟨heq, rfl⟩⟩

/-- The slot that a first timer gets. -/
def firstSlot : Fin maxTimerCount := ⟨0, by decide⟩

/-- One timer, which fires once. -/
def oneShot : TimerStore := (new.setTimer 1000 false).2

theorem oneShot_proper : oneShot.Proper := by
  have hslot : new.getAvailableIndex = some firstSlot := rfl
  rw [oneShot, setTimer_of_some hslot]
  exact (proper_new.filled rfl _).proper

/-- The callback sets another timer. -/
theorem firesCleanly_another :
    oneShot.FiresCleanly 0 [.setTimer 500 true] ↔
      Call.cancelTimer (firstSlot : Int) ∉ [Call.setTimer 500 true] :=
  firesCleanly_iff oneShot_proper (i := firstSlot) rfl _

/-- The callback cancels the timer and sets one that gets its slot. -/
theorem cancelled_timer_read :
    ¬ ∀ (t : TimerStore) (i : Fin maxTimerCount) (a : Nat) (calls : List Call), t.Proper →
      t.evList i = some a → t.FiresCleanly a calls := by
  intro hall
  have h := hall oneShot firstSlot 0 [.cancelTimer 0, .setTimer 500 false] oneShot_proper rfl
  exact (firesCleanly_iff oneShot_proper (i := firstSlot) rfl _).mp h List.mem_cons_self

end TimerStore

end Monsys

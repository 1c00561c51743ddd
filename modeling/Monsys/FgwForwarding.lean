/-
  Requests of the server that the gateway forwards, over whole runs of its handler.

  A request is given an inner number and waits, under this number and under the server's own, for
  the answer from inside the gateway; or it times out.

  1. **The history** — `Forwarding`: the handler, with the requests that wait, how many inner
     numbers have been drawn, and which requests were answered.
  2. **The invariant** — `InStep`: the table of sessions holds the requests that wait, and these are
     filed under the numbers that were drawn for them.
  3. **Runs** — `forwards`: answers go up for the request that waits under the number of the inner
     answer, and with its number.
-/
import Monsys.FgwClientHandler
import Monsys.Lib.Pending
import Monsys.Lib.Runs

namespace Monsys

open Push

/-! ## The history -/

/-- A request that was forwarded: its place among the draws, its number, and for how long it has
    waited. -/
structure Forwarded where
  index : Nat
  external : UInt32
  elapsed : Int
deriving DecidableEq, Repr

namespace Forwarded

/-- The session of a request under the inner number `k`. -/
def session (k : UInt32) (r : Forwarded) : FGWClientForwardSession :=
  .waiting k r.external r.elapsed

/-- What a tick leaves of a request. -/
def age (delta : Int) (r : Forwarded) : Option Forwarded :=
  if r.elapsed + delta > fgwClientSessionTimeout then none
  else some { r with elapsed := r.elapsed + delta }

theorem session_tick (delta : Int) (k : UInt32) (r : Forwarded) :
    (r.session k).tick delta = (r.age delta).map (session k) := by
  rw [session, FGWClientForwardSession.tick_waiting, age]
  split <;> rfl

end Forwarded

/-- The handler, and what has passed through it. -/
structure Forwarding where
  handler : FGWClientHandler
  waiting : Pending UInt32 Forwarded
  drawn : Nat
  answered : List Nat

namespace Forwarding

/-- The beginning. -/
def init : Forwarding := ⟨.new, [], 0, []⟩

/-- A request under the server's number waits. -/
def IsPending (w : Forwarding) (external : UInt32) : Prop := ∃ q ∈ w.waiting, q.2.external = external

instance (w : Forwarding) (external : UInt32) : Decidable (w.IsPending external) :=
  inferInstanceAs (Decidable (∃ q ∈ w.waiting, q.2.external = external))

/-- The request a read makes: an inner number is drawn for it. -/
def request (pb : Protobuf) (w : Forwarding) (buf : List UInt8) : Option PushMsg :=
  if w.handler.state = .registered ∧ buf ≠ [] then
    (decoded pb buf).filter fun msg => ¬ w.IsPending (FGWClientForwardSession.external msg)
  else none

/-- The message for the inside among what was put out. -/
def dispatched (out : List Output) : Option ZInnerMsg :=
  out.findSome? fun
    | .dispatch msg => some msg
    | _ => none

/-- Whether anything goes up. -/
def sends (out : List Output) : Bool :=
  out.any fun
    | .send _ _ => true
    | _ => false

/-- One event. -/
def step (pb : Protobuf) (w : Forwarding) (e : FGWClientHandler.Event) : Forwarding :=
  let (h, out) := w.handler.step pb e
  match e with
  | .read buf =>
    match w.request pb buf with
    | none => { w with handler := h }
    | some msg =>
      { w with
        handler := h
        drawn := w.drawn + 1
        waiting := match dispatched out with
          | none => w.waiting
          | some m => w.waiting.ask m.seq ⟨w.drawn, FGWClientForwardSession.external msg, 0⟩ }
  | .inner msg =>
    { w with
      handler := h
      waiting := w.waiting.settle msg.seq
      answered := match w.waiting.lookup msg.seq with
        | none => w.answered
        | some r => if sends out then r.index :: w.answered else w.answered }
  | .routine delta => { w with handler := h, waiting := w.waiting.sweep (Forwarded.age delta) }
  | _ => { w with handler := h }

/-! ## The invariant -/

/-- The inner number of the draw number `n`, counted from 0. -/
def innerSeq (n : Nat) : UInt32 := UInt32.ofInt (1 + (n % 0xFFFFFF : Nat))

theorem innerSeq_toNat (n : Nat) : (innerSeq n).toNat = 1 + n % 0xFFFFFF := by
  have hn := Nat.mod_lt n (show 0 < 0xFFFFFF by decide)
  have hcast : (1 + (n % 0xFFFFFF : Nat) : Int) % 2 ^ 32 = (1 + n % 0xFFFFFF : Nat) := by omega
  rw [innerSeq, UInt32.ofInt, hcast, Int.toNat_natCast]
  apply UInt32.toNat_ofNat_of_lt'
  show _ < 2 ^ 32
  omega

/-- Fewer than a round after a draw its number does not come again. -/
theorem innerSeq_ne {n m : Nat} (hlt : n < m) (hround : m - n < 0xFFFFFF) : innerSeq n ≠ innerSeq m := by
  intro h
  have h := congrArg UInt32.toNat h
  rw [innerSeq_toNat, innerSeq_toNat] at h
  omega

/-- **The invariant.** -/
structure InStep (w : Forwarding) : Prop where
  generator : w.handler.idGenerator = (HandlerIdGenerator.new 1 0xFFFFFF).after w.drawn
  sole : w.waiting.Sole
  table : ∀ k, w.handler.sessionCtrl.pairing.value k = (w.waiting.lookup k).map (Forwarded.session k)
  keys : ∀ k, w.handler.sessionCtrl.pairing.keys k = (w.waiting.lookup k).map Forwarded.external
  place : ∀ k r, (k, r) ∈ w.waiting → k = innerSeq r.index ∧ r.index < w.drawn
  fresh : ∀ k r, (k, r) ∈ w.waiting → r.index ∉ w.answered
  early : ∀ k r, (k, r) ∈ w.waiting → r.elapsed ≤ fgwClientSessionTimeout
  past : ∀ i ∈ w.answered, i < w.drawn
  once : w.answered.Nodup

theorem inStep_init : InStep init where
  generator := rfl
  sole := Pending.sole_nil
  table := fun _ => congrArg (fun p : Pairing _ _ _ => p.value _) SessionTable.new_pairing
  keys := fun _ => congrArg (fun p : Pairing _ _ _ => p.keys _) SessionTable.new_pairing
  place := nofun
  fresh := nofun
  early := nofun
  past := nofun
  once := List.nodup_nil

/-- No session lives through a whole round of the generator: fewer than 0xFFFFFF numbers are drawn
    after its own. -/
def Lifetimes (w : Forwarding) : Prop := ∀ q ∈ w.waiting, w.drawn - q.2.index - 1 < 0xFFFFFF

instance (w : Forwarding) : Decidable w.Lifetimes :=
  inferInstanceAs (Decidable (∀ q ∈ w.waiting, w.drawn - q.2.index - 1 < 0xFFFFFF))

variable {pb : Protobuf} {w : Forwarding}

/-- The next inner number. -/
theorem InStep.draw (h : InStep w) :
    UInt32.ofInt w.handler.idGenerator.next.1 = innerSeq w.drawn := by
  rw [h.generator, HandlerIdGenerator.after_next (by decide) (by decide) (by decide)]
  rfl

/-- A request under the server's number waits exactly if a session is filed under it. -/
theorem InStep.findByKey2 (h : InStep w) (external : UInt32) :
    (w.handler.sessionCtrl.findByKey2 external).isSome ↔ w.IsPending external := by
  rw [SessionTable.findByKey2_eq, Option.isSome_iff_exists]
  constructor
  · rintro ⟨s, hs⟩
    obtain ⟨k, hk, -⟩ := Pairing.valueRight_eq_some_iff _ |>.mp hs
    rw [h.keys, Option.map_eq_some_iff] at hk
    obtain ⟨r, hr, hext⟩ := hk
    exact ⟨(k, r), Pending.mem_of_lookup hr, hext⟩
  · rintro ⟨⟨k, r⟩, hr, hext⟩
    refine ⟨r.session k, (Pairing.valueRight_eq_some_iff _).mpr ⟨k, ?_, ?_⟩⟩
    · rw [h.keys, h.sole.lookup_eq hr, Option.map_some, hext]
    · rw [h.table, h.sole.lookup_eq hr, Option.map_some]

/-- What leaves sessions and numbers alone keeps the invariant. -/
theorem InStep.quiet (h : InStep w) {h' : FGWClientHandler}
    (hsessions : h'.sessionCtrl = w.handler.sessionCtrl)
    (hgen : h'.idGenerator = w.handler.idGenerator) : InStep { w with handler := h' } where
  generator := hgen.trans h.generator
  sole := h.sole
  table := by
    intro k
    show h'.sessionCtrl.pairing.value k = _
    rw [hsessions]
    exact h.table k
  keys := by
    intro k
    show h'.sessionCtrl.pairing.keys k = _
    rw [hsessions]
    exact h.keys k
  place := h.place
  fresh := h.fresh
  early := h.early
  past := h.past
  once := h.once

/-- A number is drawn and no session is opened. -/
theorem InStep.skip (h : InStep w) :
    InStep { w with
      handler := { w.handler with idGenerator := w.handler.idGenerator.next.2 }
      drawn := w.drawn + 1 } where
  generator := by
    rw [HandlerIdGenerator.after_succ, ← h.generator]
  sole := h.sole
  table := h.table
  keys := h.keys
  place := fun k r hr => ⟨(h.place k r hr).1, Nat.lt_succ_of_lt (h.place k r hr).2⟩
  fresh := h.fresh
  early := h.early
  past := fun i hi => Nat.lt_succ_of_lt (h.past i hi)
  once := h.once

/-- The next number is free, if no session lives through a whole round. -/
theorem InStep.lookup_next (h : InStep w) {r : Forwarded}
    (hlife : Lifetimes { w with
      drawn := w.drawn + 1, waiting := w.waiting.ask (innerSeq w.drawn) r }) :
    w.waiting.lookup (innerSeq w.drawn) = none := by
  rw [Pending.lookup_eq_none]
  intro t ht
  obtain ⟨hk, hlt⟩ := h.place _ t ht
  have hround := hlife (_, t) (List.mem_cons_of_mem _ ht)
  refine innerSeq_ne hlt ?_ hk.symm
  change w.drawn + 1 - t.index - 1 < 0xFFFFFF at hround
  omega

/-- A session is opened for a request whose number does not wait. -/
theorem InStep.accept (h : InStep w) {external : UInt32} (hfree : ¬ w.IsPending external)
    (hlife : Lifetimes { w with
      drawn := w.drawn + 1, waiting := w.waiting.ask (innerSeq w.drawn) ⟨w.drawn, external, 0⟩ }) :
    InStep { w with
      handler := { w.handler with
        idGenerator := w.handler.idGenerator.next.2
        sessionCtrl := (w.handler.sessionCtrl.add (innerSeq w.drawn) external
          (.waiting (innerSeq w.drawn) external 0)).2 }
      drawn := w.drawn + 1
      waiting := w.waiting.ask (innerSeq w.drawn) ⟨w.drawn, external, 0⟩ } := by
  have hnext := h.lookup_next hlife
  have hboth : w.handler.sessionCtrl.pairing.Free (innerSeq w.drawn) external := by
    refine ⟨by rw [h.keys, hnext]; rfl, ?_⟩
    rw [← Pairing.valueRight_eq_none_iff, ← SessionTable.findByKey2_eq, ← Option.not_isSome_iff_eq_none,
      h.findByKey2]
    exact hfree
  constructor
  · rw [HandlerIdGenerator.after_succ, ← h.generator]
  · exact Pending.sole_ask_iff.mpr ⟨hnext, h.sole⟩
  · intro k
    dsimp only
    rw [SessionTable.add_pairing, Pairing.add, dif_pos hboth, Pairing.pair_value, Pending.lookup_ask,
      h.table]
    split
    · next hk => rw [hk]; rfl
    · rfl
  · intro k
    dsimp only
    rw [SessionTable.add_pairing, Pairing.add, dif_pos hboth, Pairing.pair_keys, Pending.lookup_ask,
      h.keys]
    split <;> rfl
  · intro k r hr
    rcases Pending.mem_ask.mp hr with heq | hr
    · cases heq
      exact ⟨rfl, Nat.lt_succ_self _⟩
    · exact ⟨(h.place k r hr).1, Nat.lt_succ_of_lt (h.place k r hr).2⟩
  · intro k r hr
    rcases Pending.mem_ask.mp hr with heq | hr
    · cases heq
      exact fun hmem => Nat.lt_irrefl _ (h.past _ hmem)
    · exact h.fresh k r hr
  · intro k r hr
    rcases Pending.mem_ask.mp hr with heq | hr
    · cases heq
      show (0 : Int) ≤ fgwClientSessionTimeout
      decide
    · exact h.early k r hr
  · exact fun i hi => Nat.lt_succ_of_lt (h.past i hi)
  · exact h.once

/-- The session under a number ends, and may have been answered. -/
theorem InStep.settle (h : InStep w) (k : UInt32) {h' : FGWClientHandler} {answered : List Nat}
    (hsessions : h'.sessionCtrl.pairing = w.handler.sessionCtrl.pairing.unpair k)
    (hgen : h'.idGenerator = w.handler.idGenerator)
    (hans : answered = w.answered ∨
      ∃ r, w.waiting.lookup k = some r ∧ answered = r.index :: w.answered) :
    InStep { w with handler := h', waiting := w.waiting.settle k, answered := answered } where
  generator := hgen.trans h.generator
  sole := h.sole.settle k
  table := by
    intro j
    dsimp only
    rw [hsessions, Pairing.unpair_value, Pending.lookup_settle, h.table]
    split <;> rfl
  keys := by
    intro j
    dsimp only
    rw [hsessions, Pairing.unpair_keys, Pending.lookup_settle, h.keys]
    split <;> rfl
  place := fun j r hr => h.place j r (Pending.mem_settle.mp hr).1
  fresh := by
    intro j r hr
    obtain ⟨hmem, hne⟩ := Pending.mem_settle.mp hr
    rcases hans with rfl | ⟨t, ht, rfl⟩
    · exact h.fresh j r hmem
    · -- a request with the place of the one that is answered would wait under the same number
      have htk := (h.place k t (Pending.mem_of_lookup ht)).1
      have hrj := (h.place j r hmem).1
      rw [List.mem_cons, not_or]
      refine ⟨fun heq => hne ?_, h.fresh j r hmem⟩
      change j = k
      rw [hrj, heq, ← htk]
  early := fun j r hr => h.early j r (Pending.mem_settle.mp hr).1
  past := by
    rcases hans with rfl | ⟨t, ht, rfl⟩
    · exact h.past
    · intro i hi
      rcases List.mem_cons.mp hi with rfl | hi
      · exact (h.place k t (Pending.mem_of_lookup ht)).2
      · exact h.past i hi
  once := by
    rcases hans with rfl | ⟨t, ht, rfl⟩
    · exact h.once
    · exact List.nodup_cons.mpr ⟨h.fresh k t (Pending.mem_of_lookup ht), h.once⟩

theorem Forwarded.age_eq_some {delta : Int} {t r : Forwarded} (h : t.age delta = some r) :
    r.index = t.index ∧ r.external = t.external ∧ r.elapsed ≤ fgwClientSessionTimeout := by
  rw [Forwarded.age] at h
  split at h
  · cases h
  · next hle =>
    obtain rfl := Option.some.inj h
    exact ⟨rfl, rfl, Int.not_lt.mp hle⟩

/-- A tick. -/
theorem InStep.sweep (h : InStep w) (delta : Int) :
    InStep { w with
      handler := w.handler.routine delta
      waiting := w.waiting.sweep (Forwarded.age delta) } := by
  have hvalue : ∀ k, (w.handler.routine delta).sessionCtrl.pairing.value k =
      ((w.waiting.lookup k).bind (Forwarded.age delta)).map (Forwarded.session k) := by
    intro k
    rw [(FGWClientHandler.routine_lookup w.handler delta k).1, h.table]
    cases w.waiting.lookup k with
    | none => rfl
    | some r => exact r.session_tick delta k
  constructor
  · exact h.generator
  · exact h.sole.sweep _
  · intro k
    rw [h.sole.lookup_sweep]
    exact hvalue k
  · intro k
    rw [h.sole.lookup_sweep]
    refine (FGWClientHandler.routine_lookup w.handler delta k).2.trans ?_
    rw [hvalue, Option.isSome_map, h.keys]
    cases w.waiting.lookup k with
    | none => rfl
    | some t =>
      show (if ((t.age delta).isSome = true) then some t.external else none) =
        (t.age delta).map Forwarded.external
      cases hage : t.age delta with
      | none => rfl
      | some r => exact congrArg some (Forwarded.age_eq_some hage).2.1.symm
  · intro k r hr
    obtain ⟨t, ht, hage⟩ := Pending.mem_sweep.mp hr
    dsimp only
    rw [(Forwarded.age_eq_some hage).1]
    exact h.place k t ht
  · intro k r hr
    obtain ⟨t, ht, hage⟩ := Pending.mem_sweep.mp hr
    dsimp only
    rw [(Forwarded.age_eq_some hage).1]
    exact h.fresh k t ht
  · intro k r hr
    obtain ⟨t, -, hage⟩ := Pending.mem_sweep.mp hr
    exact (Forwarded.age_eq_some hage).2.2
  · exact h.past
  · exact h.once

/-! ### Steps -/

/-- A read that makes no request. -/
theorem step_read_none {buf : List UInt8} (hreq : w.request pb buf = none) :
    w.step pb (.read buf) = { w with handler := (w.handler.onRead pb buf).1 } := by
  simp only [step, hreq]
  rfl

/-- A read that makes a request. -/
theorem step_read_some {buf : List UInt8} {msg : PushMsg} (hreq : w.request pb buf = some msg) :
    w.step pb (.read buf) =
      { w with
        handler := (w.handler.onRead pb buf).1
        drawn := w.drawn + 1
        waiting := match dispatched (w.handler.onRead pb buf).2 with
          | none => w.waiting
          | some m => w.waiting.ask m.seq ⟨w.drawn, FGWClientForwardSession.external msg, 0⟩ } := by
  simp only [step, hreq]
  rfl

/-- **What a message of the server does**, in the registered state: it is not understood; or its
    number waits, and nothing happens; or a number is drawn for nothing; or it is forwarded. -/
theorem InStep.read_cases (h : InStep w) (pb : Protobuf) (hst : w.handler.state = .registered) {buf : List UInt8}
    (hbuf : buf ≠ []) :
    (decoded pb buf = none ∧ w.handler.onRead pb buf = (w.handler, []) ∧ w.request pb buf = none) ∨
    ∃ msg, decoded pb buf = some msg ∧
      ((w.IsPending (FGWClientForwardSession.external msg) ∧
          w.handler.onRead pb buf = (w.handler, [.decoded msg]) ∧ w.request pb buf = none) ∨
       (¬ w.IsPending (FGWClientForwardSession.external msg) ∧ w.request pb buf = some msg ∧
          w.handler.onRead pb buf =
            ({ w.handler with idGenerator := w.handler.idGenerator.next.2 }, [.decoded msg])) ∨
       ∃ body, ¬ w.IsPending (FGWClientForwardSession.external msg) ∧ w.request pb buf = some msg ∧
          w.handler.onRead pb buf =
            ({ w.handler with
                idGenerator := w.handler.idGenerator.next.2
                sessionCtrl := (w.handler.sessionCtrl.add (innerSeq w.drawn)
                  (FGWClientForwardSession.external msg)
                  (.waiting (innerSeq w.drawn) (FGWClientForwardSession.external msg) 0)).2 },
              [.decoded msg, .dispatch ⟨⟨moduleFgwClient, -1, 1⟩, ⟨moduleSerial, -1, anyId⟩,
                innerSeq w.drawn, body⟩])) := by
  have honRead : w.handler.onRead pb buf = w.handler.onReadRegistered pb buf := by
    rw [FGWClientHandler.onRead, hst]
  have hreq : w.request pb buf =
      (decoded pb buf).filter fun msg => ¬ w.IsPending (FGWClientForwardSession.external msg) :=
    if_pos ⟨hst, hbuf⟩
  have hfilter : ∀ msg, decoded pb buf = some msg → w.request pb buf =
      if ¬ w.IsPending (FGWClientForwardSession.external msg) then some msg else none := by
    intro msg hmsg
    rw [hreq, hmsg, Option.filter_some]
    exact if_congr decide_eq_true_iff rfl rfl
  rw [honRead, ← h.draw]
  rcases FGWClientHandler.onReadRegistered_cases pb w.handler hbuf with
    ⟨hnone, heq⟩ | ⟨msg, hmsg, ⟨hdup, heq⟩ | ⟨hnew, -, heq⟩ | ⟨body, hnew, -, heq⟩⟩
  · exact Or.inl ⟨hnone, heq, by rw [hreq, hnone]; rfl⟩
  · have hpending := (h.findByKey2 _).mp hdup
    exact Or.inr ⟨msg, hmsg, Or.inl ⟨hpending, heq, by
      rw [hfilter msg hmsg, if_neg (not_not.mpr hpending)]⟩⟩
  · have hfree : ¬ w.IsPending (FGWClientForwardSession.external msg) := by
      rw [← h.findByKey2, hnew]
      exact Bool.false_ne_true
    exact Or.inr ⟨msg, hmsg, Or.inr (Or.inl ⟨hfree, by rw [hfilter msg hmsg, if_pos hfree], heq⟩)⟩
  · have hfree : ¬ w.IsPending (FGWClientForwardSession.external msg) := by
      rw [← h.findByKey2, hnew]
      exact Bool.false_ne_true
    exact Or.inr ⟨msg, hmsg, Or.inr (Or.inr
      ⟨body, hfree, by rw [hfilter msg hmsg, if_pos hfree], heq⟩)⟩

/-- **What an inner answer does**: nothing, if nobody waits under its number; else the request that
    waits there is answered, or given up. -/
theorem InStep.inner_cases (h : InStep w) (pb : Protobuf) (msg : ZInnerMsg) :
    (w.waiting.lookup msg.seq = none ∧ w.handler.onInnerMsg pb msg = (w.handler, [])) ∨
    ∃ r, w.waiting.lookup msg.seq = some r ∧
      w.handler.onInnerMsg pb msg =
        ({ w.handler with sessionCtrl := (w.handler.sessionCtrl.removeByKey1 msg.seq).2 },
          (FGWClientForwardSession.answer pb msg.body r.external).toList.map
            (Output.send w.handler.fd)) := by
  have hvalue : w.handler.sessionCtrl.findByKey1 msg.seq =
      (w.waiting.lookup msg.seq).map (Forwarded.session msg.seq) := h.table msg.seq
  cases hr : w.waiting.lookup msg.seq with
  | none =>
    rw [hr] at hvalue
    exact Or.inl ⟨rfl, FGWClientHandler.onInnerMsg_none hvalue⟩
  | some r =>
    rw [hr] at hvalue
    exact Or.inr ⟨r, rfl, FGWClientHandler.onInnerMsg_waiting hvalue⟩

theorem InStep.step_read (h : InStep w) {buf : List UInt8}
    (hlife : (w.step pb (.read buf)).Lifetimes) : InStep (w.step pb (.read buf)) := by
  by_cases hreg : w.handler.state = .registered ∧ buf ≠ []
  · rcases h.read_cases pb hreg.1 hreg.2 with
      ⟨-, heq, hreq⟩ | ⟨msg, -, ⟨-, heq, hreq⟩ | ⟨-, hreq, heq⟩ | ⟨body, hfree, hreq, heq⟩⟩
    · rw [step_read_none hreq, heq]
      exact h
    · rw [step_read_none hreq, heq]
      exact h
    · rw [step_read_some hreq, heq]
      exact h.skip
    · rw [step_read_some hreq, heq] at hlife ⊢
      exact h.accept hfree hlife
  · have hreq : w.request pb buf = none := if_neg hreg
    rw [step_read_none hreq, FGWClientHandler.onRead]
    split
    · exact h
    · obtain ⟨hsessions, hgen⟩ := FGWClientHandler.onReadWaitForServer_frame pb w.handler buf
      exact h.quiet hsessions hgen
    · next hst =>
      obtain rfl : buf = [] := not_not.mp fun hne => hreg ⟨hst, hne⟩
      exact h

theorem InStep.step_inner (h : InStep w) (msg : ZInnerMsg) : InStep (w.step pb (.inner msg)) := by
  rcases h.inner_cases pb msg with ⟨hr, heq⟩ | ⟨r, hr, heq⟩
  · simp only [step, FGWClientHandler.step, heq, hr]
    refine h.settle msg.seq ?_ rfl (Or.inl rfl)
    rw [Pairing.unpair_of_none]
    rw [h.keys, hr]
    rfl
  · simp only [step, FGWClientHandler.step, heq, hr]
    refine h.settle msg.seq (SessionTable.removeByKey1_pairing _ _) rfl ?_
    split
    · exact Or.inr ⟨r, hr, rfl⟩
    · exact Or.inl rfl

/-- **The invariant holds after every step.** -/
theorem InStep.step (h : InStep w) (e : FGWClientHandler.Event) (hlife : (w.step pb e).Lifetimes) :
    InStep (w.step pb e) := by
  cases e with
  | init => exact h.quiet rfl rfl
  | connected fd =>
    obtain ⟨hsessions, hgen⟩ := FGWClientHandler.fgwLogin_frame pb
      { w.handler with fd := fd, state := .unregistered }
    exact h.quiet hsessions hgen
  | read buf => exact h.step_read hlife
  | inner msg => exact h.step_inner msg
  | routine delta => exact h.sweep delta
  | timer id =>
    obtain ⟨hsessions, hgen⟩ := FGWClientHandler.timerCallback_frame pb w.handler id
    exact h.quiet hsessions hgen

/-! ## Runs -/

/-- **What forwarding asks of a step** in the registered state.  `answers`: what goes up on an inner
    answer is that answer, with the number of the one request that waits under the number it comes
    with, which has neither been answered nor timed out; and it goes up once.  `once`: no request is
    answered twice.  `silent`: on messages of the server and on ticks nothing goes up.  `duplicate`: a
    request whose number waits is rejected, and nothing changes. -/
structure Forwards (pb : Protobuf) (w : Forwarding) (e : FGWClientHandler.Event) : Prop where
  answers : ∀ msg, e = .inner msg → ∀ fd bytes, .send fd bytes ∈ (w.handler.step pb e).2 →
    (w.handler.step pb e).2 = [.send fd bytes] ∧
    ∃ r, (msg.seq, r) ∈ w.waiting ∧ (∀ r', (msg.seq, r') ∈ w.waiting → r' = r) ∧
      r.index ∉ w.answered ∧ r.elapsed ≤ fgwClientSessionTimeout ∧
      FGWClientForwardSession.answer pb msg.body r.external = some bytes ∧
      (w.step pb e).answered = r.index :: w.answered
  once : (w.step pb e).answered.Nodup
  silent : ((∃ buf, buf ≠ [] ∧ e = .read buf) ∨ ∃ delta, e = .routine delta) →
    ∀ fd bytes, .send fd bytes ∉ (w.handler.step pb e).2
  duplicate : ∀ buf msg, e = .read buf → buf ≠ [] → decoded pb buf = some msg →
    w.IsPending (FGWClientForwardSession.external msg) →
      w.handler.step pb e = (w.handler, [.decoded msg]) ∧ (w.step pb e).waiting = w.waiting

theorem InStep.forwards (h : InStep w) (hst : w.handler.state = .registered)
    (e : FGWClientHandler.Event) (hlife : (w.step pb e).Lifetimes) : Forwards pb w e where
  answers := by
    rintro msg rfl fd bytes hmem
    rw [FGWClientHandler.step] at hmem ⊢
    rcases h.inner_cases pb msg with ⟨hr, heq⟩ | ⟨r, hr, heq⟩
    · rw [heq] at hmem
      cases hmem
    · rw [heq] at hmem ⊢
      obtain ⟨bytes', hans, hsend⟩ := List.mem_map.mp hmem
      rw [Option.mem_toList] at hans
      cases hsend
      have hwait := Pending.mem_of_lookup hr
      rw [Option.mem_def.mp hans]
      refine ⟨rfl, r, hwait, fun r' hr' => h.sole.eq_of_mem hr' hwait, h.fresh _ r hwait,
        h.early _ r hwait, Option.mem_def.mp hans, ?_⟩
      simp only [Forwarding.step, FGWClientHandler.step, heq, hr, Option.mem_def.mp hans]
      rfl
  once := (h.step e hlife).once
  silent := by
    rintro (⟨buf, hbuf, rfl⟩ | ⟨delta, rfl⟩) fd bytes hmem
    · rw [FGWClientHandler.step] at hmem
      rcases h.read_cases pb hst hbuf with
        ⟨-, heq, -⟩ | ⟨msg, -, ⟨-, heq, -⟩ | ⟨-, -, heq⟩ | ⟨body, -, -, heq⟩⟩
      · rw [heq] at hmem
        cases hmem
      · rw [heq] at hmem
        cases List.mem_singleton.mp hmem
      · rw [heq] at hmem
        cases List.mem_singleton.mp hmem
      · rw [heq] at hmem
        rcases List.mem_cons.mp hmem with hfirst | hrest
        · cases hfirst
        · cases List.mem_singleton.mp hrest
    · cases hmem
  duplicate := by
    rintro buf msg rfl hbuf hmsg hpending
    rw [FGWClientHandler.step]
    rcases h.read_cases pb hst hbuf with ⟨hnone, -, -⟩ | ⟨msg', hmsg', hcases⟩
    · rw [hmsg] at hnone
      cases hnone
    · obtain rfl : msg = msg' := Option.some.inj (hmsg.symm.trans hmsg')
      rcases hcases with ⟨-, heq, hreq⟩ | ⟨hfree, -, -⟩ | ⟨body, hfree, -, -⟩
      · exact ⟨heq, by rw [step_read_none hreq]⟩
      · exact absurd hpending hfree
      · exact absurd hpending hfree

end Forwarding

end Monsys

/-
  The dispatcher of the gateway and the queues of its modules: `ZDispatcher` of
  `libframework/zdispatcher.{h,cc}` and `ZModule` of `libframework/zmodule.h`.

  A module registers under its type.  A message for a type goes into the queue of the module of this
  type, and stays there until the main loop has the module check its queue.

  1. **The dispatcher** — `ZDispatcher`, with `registerModule`, `findModule` and `sendDirect`.
  2. **The queue** — `checkMsgQueue`: `onInnerMsg` for every message, until the queue is empty.
     What the module sends meanwhile goes through the dispatcher.
  3. **The mail** — the queues as the mail of the modules; `checkMsgQueue` drains it
     (`check_drains`).
  4. **Runs** — `Traffic.in_order`: whatever the modules do, each handles the messages that were
     sent to it once and in the order they were sent.

  The modules are known by their types, which `registerModule` keeps apart.  What a module does with
  a message is a parameter; a message that finds no module is never freed.
-/
import Monsys.GatewayMessages
import Monsys.Lib.Mailbox

namespace Monsys

/-! ## The dispatcher -/

/-- `ZModule`: `type_` and `inner_msg_queue_`. -/
structure ZModule where
  type : Int
  innerMsgQueue : List ZInnerMsg

/-- `ZDispatcher`, less its timer. -/
structure ZDispatcher where
  moduleList : List ZModule
  types_nodup : (moduleList.map ZModule.type).Nodup

namespace ZDispatcher

def new : ZDispatcher := ⟨[], List.nodup_nil⟩

def findModule (d : ZDispatcher) (moduleType : Int) : Option ZModule :=
  d.moduleList.find? fun m => m.type = moduleType

theorem findModule_eq_none {d : ZDispatcher} {moduleType : Int}
    (h : (d.findModule moduleType).isSome = false) :
    moduleType ∉ d.moduleList.map ZModule.type := by
  rw [findModule, Option.isSome_eq_false_iff, Option.isNone_iff_eq_none, List.find?_eq_none] at h
  intro hmem
  obtain ⟨m, hm, htype⟩ := List.mem_map.mp hmem
  exact h m hm (decide_eq_true htype)

/-- `registerModule`, with a module whose queue is empty; whether it returns `OK`. -/
def registerModule (d : ZDispatcher) (type : Int) : Bool × ZDispatcher :=
  if h : (d.findModule type).isSome then (false, d)
  else (true, {
    moduleList := d.moduleList ++ [⟨type, []⟩]
    types_nodup := by
      rw [List.map_append, List.nodup_append']
      exact ⟨d.types_nodup, List.nodup_singleton type,
        List.disjoint_singleton.mpr (findModule_eq_none (by simpa using h))⟩ })

/-- The queue of the module of a type becomes what `f` makes of it. -/
def withQueue (d : ZDispatcher) (type : Int) (f : List ZInnerMsg → List ZInnerMsg) :
    ZDispatcher where
  moduleList := d.moduleList.map fun m =>
    if m.type = type then { m with innerMsgQueue := f m.innerMsgQueue } else m
  types_nodup := by
    have htypes : (ZModule.type ∘ fun m : ZModule =>
        if m.type = type then { m with innerMsgQueue := f m.innerMsgQueue } else m) =
          ZModule.type := by
      funext m
      rw [Function.comp_apply]
      split <;> rfl
    rw [List.map_map, htypes]
    exact d.types_nodup

/-- `sendDirect`; whether it returns `OK`. -/
def sendDirect (d : ZDispatcher) (msg : ZInnerMsg) : Bool × ZDispatcher :=
  match d.findModule msg.dstAddr.moduleType with
  | none => (false, d)
  | some m => (true, d.withQueue m.type fun q => q ++ [msg])

/-- One `sendDirect` after the other. -/
def sendAll (d : ZDispatcher) (msgs : List ZInnerMsg) : ZDispatcher :=
  msgs.foldl (fun d msg => (d.sendDirect msg).2) d

/-! ## The queue -/

variable {σ ε : Type}

/-- `checkMsgQueue` of the module of a type, for so many rounds at most; with every message goes
    what the module sent while it had it.  The message is taken off the queue after `onInnerMsg`.
    -/
def checkMsgQueue (onInnerMsg : σ → ZInnerMsg → Except ε (σ × List ZInnerMsg)) (type : Int) :
    Nat → σ → ZDispatcher →
      Except (Option ε) ((σ × ZDispatcher) × List (ZInnerMsg × List ZInnerMsg))
  | 0, _, _ => .error none
  | n + 1, s, d =>
    match (d.findModule type).bind fun m => m.innerMsgQueue.head? with
    | none => .ok ((s, d), [])
    | some msg =>
      match onInnerMsg s msg with
      | .error e => .error (some e)
      | .ok (s, sent) =>
        (checkMsgQueue onInnerMsg type n s ((d.sendAll sent).withQueue type List.tail)).map
          fun r => (r.1, (msg, sent) :: r.2)

/-- `moduleRoutine`: `routine` of every module. -/
def moduleRoutine (routine : Int → σ → σ) (s : σ) (d : ZDispatcher) : σ :=
  d.moduleList.foldl (fun s m => routine m.type s) s

/-! ## The mail -/

/-- What waits for the modules. -/
def mail (d : ZDispatcher) : Mail Int ZInnerMsg := fun type =>
  (d.findModule type).map ZModule.innerMsgQueue

/-- A message, with the type it is for. -/
def addr (msg : ZInnerMsg) : Int × ZInnerMsg := (msg.dstAddr.moduleType, msg)

theorem findModule_type {d : ZDispatcher} {type : Int} {m : ZModule}
    (h : d.findModule type = some m) : m.type = type :=
  of_decide_eq_true (List.find?_some (p := fun m : ZModule => decide (m.type = type)) h)

theorem mail_withQueue (d : ZDispatcher) (type : Int) (f : List ZInnerMsg → List ZInnerMsg) :
    (d.withQueue type f).mail = Function.update d.mail type ((d.mail type).map f) := by
  funext t
  have hcomp : ((fun m : ZModule => decide (m.type = t)) ∘ fun m : ZModule =>
      if m.type = type then { m with innerMsgQueue := f m.innerMsgQueue } else m) =
        fun m : ZModule => decide (m.type = t) := by
    funext m
    rw [Function.comp_apply]
    split <;> rfl
  rw [mail, findModule, withQueue, List.find?_map, hcomp, ← findModule, Function.update_apply]
  cases ht : d.findModule t with
  | none =>
    split
    · next heq => rw [← heq, mail, ht]; rfl
    · rw [mail, ht]; rfl
  | some m =>
    have htype := findModule_type ht
    split
    · next heq => rw [Option.map_some, if_pos (htype.trans heq), ← heq, mail, ht]; rfl
    · next hne => rw [Option.map_some, if_neg fun h => hne (htype.symm.trans h), mail, ht]

theorem mail_sendDirect (d : ZDispatcher) (msg : ZInnerMsg) :
    (d.sendDirect msg).2.mail = d.mail.post (addr msg) := by
  rw [sendDirect, Mail.post, addr]
  cases hfind : d.findModule msg.dstAddr.moduleType with
  | none =>
    have hmail : d.mail msg.dstAddr.moduleType = none := by rw [mail, hfind]; rfl
    dsimp only
    rw [hmail, Option.map_none, ← hmail, Function.update_eq_self]
  | some m => rw [mail_withQueue, findModule_type hfind]

theorem mail_sendAll (d : ZDispatcher) (msgs : List ZInnerMsg) :
    (d.sendAll msgs).mail = d.mail.postAll (msgs.map addr) := by
  induction msgs generalizing d with
  | nil => rfl
  | cons msg msgs ih =>
    show ((d.sendDirect msg).2.sendAll msgs).mail = (d.mail.post (addr msg)).postAll (msgs.map addr)
    rw [ih, mail_sendDirect]

theorem mail_registerModule (d : ZDispatcher) (type : Int) :
    (d.registerModule type).2.mail =
      if (d.mail type).isSome then d.mail else Function.update d.mail type (some []) := by
  rw [registerModule, mail, Option.isSome_map]
  by_cases h : (d.findModule type).isSome
  · rw [dif_pos h, if_pos h]
  · rw [dif_neg h, if_neg h]
    have hnone : d.findModule type = none := by simpa using h
    funext t
    rw [mail, findModule, List.find?_append, ← findModule, Function.update_apply]
    by_cases ht : t = type
    · rw [if_pos ht, ht, hnone, List.find?_singleton, if_pos (decide_eq_true rfl)]
      rfl
    · have hlast : List.find? (fun m : ZModule => decide (m.type = t)) [⟨type, []⟩] = none := by
        rw [List.find?_singleton, if_neg (by simpa using fun h => ht h.symm)]
      rw [if_neg ht, hlast, Option.or_none]
      rfl

/-- `onInnerMsg`, as it handles its mail. -/
def handle (onInnerMsg : σ → ZInnerMsg → Except ε (σ × List ZInnerMsg)) (s : σ) (msg : ZInnerMsg) :
    Except ε (σ × List (Int × ZInnerMsg)) :=
  (onInnerMsg s msg).map fun r => (r.1, r.2.map addr)

/-- **`checkMsgQueue` drains the mail of its module.** -/
theorem check_drains (onInnerMsg : σ → ZInnerMsg → Except ε (σ × List ZInnerMsg)) (type : Int)
    (n : Nat) (s : σ) (d : ZDispatcher) :
    Mail.drain (handle onInnerMsg) type n s d.mail =
      (checkMsgQueue onInnerMsg type n s d).map fun r =>
        ((r.1.1, r.1.2.mail), r.2.map fun t => (t.1, t.2.map addr)) := by
  induction n generalizing s d with
  | zero => rfl
  | succ n ih =>
    have hfront : (d.mail type).bind List.head? =
        (d.findModule type).bind fun m => m.innerMsgQueue.head? := by
      rw [mail]
      cases d.findModule type <;> rfl
    rw [Mail.drain, checkMsgQueue, hfront]
    cases (d.findModule type).bind fun m => m.innerMsgQueue.head? with
    | none => rfl
    | some msg =>
      dsimp only
      rw [handle]
      cases onInnerMsg s msg with
      | error e => rfl
      | ok r =>
        obtain ⟨s, sent⟩ := r
        have hafter : d.mail.afterFront type (sent.map addr) =
            ((d.sendAll sent).withQueue type List.tail).mail := by
          rw [mail_withQueue, mail_sendAll]
          rfl
        dsimp only [Except.map]
        rw [hafter, ih]
        cases checkMsgQueue onInnerMsg type n s ((d.sendAll sent).withQueue type List.tail) <;> rfl

/-! ## Runs -/

/-- Whether a message finds a module. -/
def accepts (d : ZDispatcher) (msg : ZInnerMsg) : Bool := (d.sendDirect msg).1

theorem accepts_eq (d : ZDispatcher) (msg : ZInnerMsg) :
    d.accepts msg = (d.mail msg.dstAddr.moduleType).isSome := by
  rw [accepts, sendDirect, mail, Option.isSome_map]
  cases d.findModule msg.dstAddr.moduleType <;> rfl

/-- What is accepted of a row of messages for a type. -/
theorem addressed_accepted (d : ZDispatcher) (type : Int) (msgs : List ZInnerMsg) :
    Mail.addressed type ((msgs.filter d.accepts).map addr) =
      if (d.mail type).isSome then Mail.addressed type (msgs.map addr) else [] := by
  induction msgs with
  | nil => simp [Mail.addressed]
  | cons msg msgs ih =>
    have hrow : (msg :: msgs).map addr = [addr msg] ++ msgs.map addr := rfl
    rw [hrow, Mail.addressed_append, List.filter_cons, accepts_eq]
    by_cases htype : msg.dstAddr.moduleType = type
    · rw [htype]
      by_cases hsome : (d.mail type).isSome
      · rw [if_pos hsome] at ih ⊢
        have hfirst : (msg :: msgs.filter d.accepts).map addr =
            [addr msg] ++ (msgs.filter d.accepts).map addr := rfl
        rw [if_pos hsome, hfirst, Mail.addressed_append, ih]
      · rw [if_neg hsome] at ih ⊢
        rw [if_neg hsome, ih]
    · have hnot : Mail.addressed type [addr msg] = [] :=
        Mail.addressed_of_ne fun p hp => by rw [List.mem_singleton.mp hp]; exact htype
      rw [hnot, List.nil_append, ← ih]
      split
      · have hfirst : (msg :: msgs.filter d.accepts).map addr =
            [addr msg] ++ (msgs.filter d.accepts).map addr := rfl
        rw [hfirst, Mail.addressed_append, hnot, List.nil_append]
      · rfl

/-- What can happen: a module registers; a callback of the event loop, which may do anything else,
    sends messages; a module checks its queue. -/
inductive Event (σ : Type)
  | register (type : Int)
  | callback (world : σ) (sent : List ZInnerMsg)
  | check (type : Int) (fuel : Nat)

end ZDispatcher

/-- The dispatcher and all else; the messages it has accepted, and those that the modules have
    handled, each with the type of its module.  -/
structure Traffic (σ : Type) where
  world : σ
  dispatcher : ZDispatcher
  accepted : List ZInnerMsg
  handled : List (Int × ZInnerMsg)

namespace Traffic

open ZDispatcher

variable {σ ε : Type}

def init (world : σ) : Traffic σ := ⟨world, .new, [], []⟩

/-- One event; `onInnerMsg` is that of the module of a type. -/
def step (onInnerMsg : Int → σ → ZInnerMsg → Except ε (σ × List ZInnerMsg)) (w : Traffic σ) :
    ZDispatcher.Event σ → Except (Option ε) (Traffic σ)
  | .register type => .ok { w with dispatcher := (w.dispatcher.registerModule type).2 }
  | .callback world sent =>
    .ok { w with
      world
      dispatcher := w.dispatcher.sendAll sent
      accepted := w.accepted ++ sent.filter w.dispatcher.accepts }
  | .check type fuel =>
    (w.dispatcher.checkMsgQueue (onInnerMsg type) type fuel w.world).map fun r =>
      { world := r.1.1
        dispatcher := r.1.2
        accepted := w.accepted ++ (r.2.flatMap Prod.snd).filter w.dispatcher.accepts
        handled := w.handled ++ r.2.map fun t => (type, t.1) }

/-- Every module has handled what was sent to it, in order, but for what waits in its queue. -/
def InOrder (w : Traffic σ) : Prop :=
  ∀ type, Mail.addressed type w.handled ++ (w.dispatcher.mail type).getD [] =
    Mail.addressed type (w.accepted.map addr)

theorem inOrder_init (world : σ) : (init world).InOrder := fun _ => rfl

variable {w : Traffic σ}

/-- Messages are sent, and none is handled. -/
theorem InOrder.sent (h : w.InOrder) {d' : ZDispatcher} {msgs : List ZInnerMsg} (type : Int)
    (hmail : d'.mail type = w.dispatcher.mail.postAll (msgs.map addr) type) :
    Mail.addressed type w.handled ++ (d'.mail type).getD [] =
      Mail.addressed type ((w.accepted ++ msgs.filter w.dispatcher.accepts).map addr) := by
  rw [List.map_append, Mail.addressed_append, ← h type, addressed_accepted, hmail,
    Mail.postAll_apply]
  cases w.dispatcher.mail type with
  | none => exact (List.append_nil _).symm
  | some q => exact (List.append_assoc _ _ _).symm

theorem InOrder.register (h : w.InOrder) (type : Int) :
    InOrder { w with dispatcher := (w.dispatcher.registerModule type).2 } := by
  intro t
  dsimp only
  rw [mail_registerModule, ← h t]
  split
  · rfl
  · next hnone =>
    rw [Function.update_apply]
    split
    · next heq => rw [heq, Option.not_isSome_iff_eq_none.mp hnone]; rfl
    · rfl

/-- A module checks its queue. -/
theorem InOrder.check (h : w.InOrder)
    {onInnerMsg : σ → ZInnerMsg → Except ε (σ × List ZInnerMsg)} {type : Int} {fuel : Nat} {s' : σ}
    {d' : ZDispatcher} {trace : List (ZInnerMsg × List ZInnerMsg)}
    (hcheck : w.dispatcher.checkMsgQueue onInnerMsg type fuel w.world = .ok ((s', d'), trace)) :
    InOrder { world := s', dispatcher := d',
              accepted := w.accepted ++ (trace.flatMap Prod.snd).filter w.dispatcher.accepts,
              handled := w.handled ++ trace.map fun t => (type, t.1) } := by
  have hdrain := check_drains onInnerMsg type fuel w.world w.dispatcher
  rw [hcheck] at hdrain
  dsimp only [Except.map] at hdrain
  have hposted : Mail.posted (trace.map fun t => (t.1, t.2.map addr)) =
      (trace.flatMap Prod.snd).map addr := by
    rw [Mail.posted, List.flatMap_map, List.map_flatMap]
  have hhandled : Mail.addressed type (trace.map fun t => (type, t.1)) = trace.map Prod.fst := by
    have hall : ∀ p ∈ trace.map fun t => (type, t.1), p.1 = type :=
      List.forall_mem_map.mpr fun _ _ => rfl
    rw [Mail.addressed_of_eq hall, List.map_map]
    rfl
  intro t
  dsimp only
  cases hq : w.dispatcher.mail type with
  | none =>
    -- no such module: nothing waits for it
    have hnone : w.dispatcher.findModule type = none := Option.map_eq_none_iff.mp hq
    cases fuel with
    | zero => cases hcheck
    | succ n =>
      rw [checkMsgQueue, hnone] at hcheck
      cases hcheck
      simpa using h t
  | some q =>
    obtain ⟨hempty, hfst, hother⟩ := Mail.drain_fifo hq hdrain
    rw [hposted, List.map_map] at hfst
    rw [hposted] at hother
    have hfirst : trace.map Prod.fst =
        q ++ Mail.addressed type ((trace.flatMap Prod.snd).map addr) := hfst
    rw [Mail.addressed_append]
    by_cases ht : t = type
    · subst ht
      rw [hempty, hhandled, hfirst, Option.getD_some, List.append_nil, List.map_append,
        Mail.addressed_append, ← h t, hq, addressed_accepted, hq]
      exact (List.append_assoc _ _ _).symm
    · have hnot : Mail.addressed t (trace.map fun x => (type, x.1)) = [] := by
        refine Mail.addressed_of_ne fun p hp => ?_
        obtain ⟨x, -, rfl⟩ := List.mem_map.mp hp
        exact fun heq => ht heq.symm
      rw [hnot, List.append_nil]
      exact h.sent t (hother t ht)

theorem InOrder.step (h : w.InOrder)
    {onInnerMsg : Int → σ → ZInnerMsg → Except ε (σ × List ZInnerMsg)} {e : ZDispatcher.Event σ}
    {w' : Traffic σ} (hstep : w.step onInnerMsg e = .ok w') : w'.InOrder := by
  cases e with
  | register type =>
    cases hstep
    exact h.register type
  | callback world sent =>
    cases hstep
    intro type
    exact h.sent type (by rw [mail_sendAll])
  | check type fuel =>
    rw [Traffic.step] at hstep
    cases hcheck : w.dispatcher.checkMsgQueue (onInnerMsg type) type fuel w.world with
    | error e =>
      rw [hcheck] at hstep
      cases hstep
    | ok r =>
      rw [hcheck] at hstep
      cases hstep
      exact h.check hcheck

/-- **Every module handles what is sent to it, once and in order.** Whatever the modules do with
    their messages, and whatever is sent from outside: after any run, the messages for a type that
    the dispatcher accepted are those that its module has handled, and behind them those in its
    queue.  -/
theorem in_order {onInnerMsg : Int → σ → ZInnerMsg → Except ε (σ × List ZInnerMsg)} {world : σ}
    {es : List (ZDispatcher.Event σ)} {w : Traffic σ}
    (hrun : es.foldlM (step onInnerMsg) (init world) = .ok w) (type : Int) :
    Mail.addressed type (w.accepted.map addr) =
      Mail.addressed type w.handled ++ (w.dispatcher.mail type).getD [] := by
  suffices hinv : ∀ (es : List (ZDispatcher.Event σ)) (v : Traffic σ), v.InOrder →
      es.foldlM (Traffic.step onInnerMsg) v = .ok w → w.InOrder from
    (hinv es _ (inOrder_init world) hrun type).symm
  intro es
  induction es with
  | nil =>
    intro v hv hrun
    cases hrun
    exact hv
  | cons e es ih =>
    intro v hv hrun
    rw [List.foldlM_cons] at hrun
    cases hstep : v.step onInnerMsg e with
    | error e =>
      rw [hstep] at hrun
      cases hrun
    | ok v' =>
      rw [hstep] at hrun
      exact ih v' (hv.step hstep) hrun

/-- A module that sends every message back to where it comes from. -/
def sendBack (_ : Int) (_ : Unit) (msg : ZInnerMsg) : Except Empty (Unit × List ZInnerMsg) :=
  .ok ((), [{ msg with srcAddr := msg.dstAddr, dstAddr := msg.srcAddr }])

def fromClient (seq : UInt32) : ZInnerMsg :=
  ⟨⟨moduleFgwClient, -1, 1⟩, ⟨moduleSerial, -1, anyId⟩, seq, .getDevListReq⟩

/-- Two messages are sent to the serial module, which sends them back, and one to a module that is
    not there. -/
def twoAndOneLost : List (ZDispatcher.Event Unit) :=
  [.register moduleSerial, .register moduleFgwClient,
    .callback () [fromClient 1, { fromClient 7 with dstAddr := ⟨9, -1, 0⟩ }, fromClient 2],
    .check moduleSerial 3]

theorem in_order_two : ∃ w, twoAndOneLost.foldlM (step sendBack) (init ()) = .ok w ∧
    w.accepted.length = 4 ∧
    Mail.addressed moduleFgwClient (w.accepted.map addr) =
      Mail.addressed moduleFgwClient w.handled ++ (w.dispatcher.mail moduleFgwClient).getD [] :=
  ⟨_, rfl, by decide, @in_order _ _ sendBack () twoAndOneLost _ rfl moduleFgwClient⟩

end Traffic

end Monsys

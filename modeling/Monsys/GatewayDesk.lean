/-
  What a round of the gateway is for.

  Seen from the server, the gateway is a desk: requests come in, and are answered in the order they
  came.  A request whose number is on the desk already is ignored, one that lies there for too long
  is taken away, and when the queues are checked every request that is left gets its answer.

  1. **The desk** — `Desk`, in terms of the requests alone.
  2. **The gateway keeps a desk** — `Seated`: queue and sessions are the requests on the desk.
  3. **Answers** — `answered_in_round`.
-/
import Monsys.FgwForwarding
import Monsys.GatewayRounds

namespace Monsys

open Push FGWClientForwardSession

/-! ## The desk -/

/-- A request of the server: its number, what it asks for, and for how long it has been there. -/
structure DeskRequest where
  external : UInt32
  body : InnerBody
  elapsed : Int
deriving DecidableEq

abbrev Desk := List DeskRequest

namespace Desk

/-- A message of the server comes in. -/
def hear (d : Desk) (msg : PushMsg) : Desk :=
  if ∃ r ∈ d, r.external = external msg then d
  else d ++ (push2inner msg).toList.map fun body => ⟨external msg, body, 0⟩

/-- Time goes by. -/
def tick (delta : Int) (d : Desk) : Desk :=
  d.filterMap fun r =>
    if r.elapsed + delta > fgwClientSessionTimeout then none
    else some { r with elapsed := r.elapsed + delta }

/-- The answers, each with the number of its request. -/
def answers (pb : Protobuf) (devices : ZZBDevManager) (fd : Int) (d : Desk) : List Put :=
  d.filterMap fun r =>
    (devices.reply r.body).bind fun rsp => (answer pb rsp r.external).map (Put.up fd)

end Desk

namespace Gateway

/-- The desk behind a callback. -/
def desk (pb : Protobuf) (g : Gateway) (d : Desk) : Event → Desk
  | .routine => d.tick routineInterval
  | e => (g.heard pb e).foldl Desk.hear d

/-- A callback, with the desk. -/
def watch (pb : Protobuf) (w : Gateway × Desk) (e : Event) : Except Halt (Gateway × Desk) :=
  (w.1.step pb e).map fun g => (g, w.1.desk pb w.2 e)

/-! ## The gateway keeps a desk -/

/-- The request behind a message in the queue, if its session still waits. -/
def seat (h : FGWClientHandler) (m : ZInnerMsg) : Option DeskRequest :=
  (h.sessionCtrl.pairing.value m.seq).map fun s => ⟨s.externalKey, m.body, s.touchTime⟩

/-- **The gateway keeps a desk.** Queue and sessions are the requests on the desk; the numbers of
    the messages are drawn one after the other, the first of them at place `first`.  -/
structure Seated (g : Gateway) (h : FGWClientHandler) (q : List ZInnerMsg) (d : Desk)
    (first n : Nat) : Prop extends g.Gathered h q where
  drawn : h.idGenerator = (HandlerIdGenerator.new 1 0xFFFFFF).after n
  first_le : first ≤ n
  places : ∃ is : List Nat, q.map ZInnerMsg.seq = is.map Forwarding.innerSeq ∧
    is.Pairwise (· < ·) ∧ ∀ i ∈ is, first ≤ i ∧ i < n
  keys : ∀ k, h.sessionCtrl.pairing.keys k =
    (h.sessionCtrl.pairing.value k).map FGWClientForwardSession.externalKey
  desk : d = q.filterMap (seat h)

variable {pb : Protobuf} {g g' : Gateway} {h : FGWClientHandler} {q : List ZInnerMsg} {d : Desk}
  {first n : Nat}

/-- A number has a session exactly if a request with it is on the desk. -/
theorem Seated.pending_iff (hg : g.Seated h q d first n) (key : UInt32) :
    (h.sessionCtrl.findByKey2 key).isSome ↔ ∃ r ∈ d, r.external = key := by
  rw [SessionTable.findByKey2_eq, Option.isSome_iff_exists, hg.desk]
  constructor
  · rintro ⟨s, hs⟩
    obtain ⟨k, hk, hv⟩ := (Pairing.valueRight_eq_some_iff _).mp hs
    rw [hg.keys, hv, Option.map_some] at hk
    obtain ⟨m, hm, rfl⟩ := List.mem_map.mp (hg.asked k (by rw [hv]; rfl))
    exact ⟨_, List.mem_filterMap.mpr ⟨m, hm, by rw [seat, hv]; rfl⟩, Option.some.inj hk⟩
  · rintro ⟨r, hr, rfl⟩
    obtain ⟨m, hm, hseat⟩ := List.mem_filterMap.mp hr
    obtain ⟨s, hv, rfl⟩ := Option.map_eq_some_iff.mp hseat
    exact ⟨s, (Pairing.valueRight_eq_some_iff _).mpr ⟨m.seq, by rw [hg.keys, hv]; rfl, hv⟩⟩

theorem Seated.quiet (hg : g.Seated h q d first n) {h' : FGWClientHandler} {n' : Nat}
    (hsteady : g'.Steady h') (hd : g'.dispatcher = g.dispatcher)
    (hsessions : h'.sessionCtrl = h.sessionCtrl) (hle : n ≤ n')
    (hgen : h'.idGenerator = (HandlerIdGenerator.new 1 0xFFFFFF).after n') :
    g'.Seated h' q d first n' where
  toGathered := hg.toGathered.quiet hsteady hd hsessions ⟨n', hgen⟩
  drawn := hgen
  first_le := Nat.le_trans hg.first_le hle
  places := by
    obtain ⟨is, his, hpair, hbounds⟩ := hg.places
    exact ⟨is, his, hpair, fun i hi =>
      ⟨(hbounds i hi).1, Nat.lt_of_lt_of_le (hbounds i hi).2 hle⟩⟩
  keys := by
    intro k
    rw [hsessions]
    exact hg.keys k
  desk := by
    have hseat : seat h' = seat h := by
      funext m
      rw [seat, seat, hsessions]
    rw [hseat]
    exact hg.desk

/-- Fewer than 0xFFFFFF draws after the first, the next number is none of those in the queue. -/
theorem Seated.innerSeq_not_mem (hg : g.Seated h q d first n) (hn : n - first < 0xFFFFFF) :
    Forwarding.innerSeq n ∉ q.map ZInnerMsg.seq := by
  obtain ⟨is, his, -, hbounds⟩ := hg.places
  rw [his]
  intro hmem
  obtain ⟨i, hi, heq⟩ := List.mem_map.mp hmem
  obtain ⟨hlo, hhi⟩ := hbounds i hi
  exact Forwarding.innerSeq_ne hhi (by omega) heq

theorem Seated.seq_nodup (hg : g.Seated h q d first n) (hn : n - first ≤ 0xFFFFFF) :
    (q.map ZInnerMsg.seq).Nodup := by
  obtain ⟨is, his, hpair, hbounds⟩ := hg.places
  rw [his]
  refine List.Nodup.map_on (fun i hi j hj heq => ?_) (hpair.imp Nat.ne_of_lt)
  have hi' := hbounds i hi
  have hj' := hbounds j hj
  rcases Nat.lt_trichotomy i j with hlt | heq' | hlt
  · exact absurd heq (Forwarding.innerSeq_ne hlt (by omega))
  · exact heq'
  · exact absurd heq.symm (Forwarding.innerSeq_ne hlt (by omega))

/-- A tick ages the requests on the desk. -/
theorem seat_tick (hw : h.AllWait) (delta : Int) (m : ZInnerMsg) :
    seat (h.routine delta) m =
      (seat h m).bind fun r => if r.elapsed + delta > fgwClientSessionTimeout then none
        else some { r with elapsed := r.elapsed + delta } := by
  rw [seat, seat, (FGWClientHandler.routine_lookup h delta m.seq).1]
  cases hv : h.sessionCtrl.pairing.value m.seq with
  | none => rfl
  | some s =>
    obtain ⟨external, touchTime, rfl⟩ := hw m.seq s hv
    rw [Option.bind_some, tick_waiting, Option.map_some, Option.bind_some]
    show Option.map _ (if touchTime + delta > fgwClientSessionTimeout then none else _) =
      if touchTime + delta > fgwClientSessionTimeout then none else _
    split <;> rfl

/-- **A callback** does to the desk what is written there. -/
theorem Seated.step (hg : g.Seated h q d first n) {e : Event} (hstep : g.step pb e = .ok g')
    (hn : n - first < 0xFFFFFF) :
    ∃ h' q' n', g'.Seated h' q' (g.desk pb d e) first n' ∧ n' ≤ n + 1 := by
  obtain ⟨h', hsteady, htaken⟩ := hg.toSteady.step hstep
  have hnext : h'.idGenerator = h.idGenerator.next.2 →
      h'.idGenerator = (HandlerIdGenerator.new 1 0xFFFFFF).after (n + 1) := fun hgen => by
    rw [hgen, hg.drawn, HandlerIdGenerator.after_succ]
  have hdesk : e ≠ .routine → g.desk pb d e = (g.heard pb e).foldl Desk.hear d := fun he => by
    cases e with
    | routine => exact absurd rfl he
    | _ => rfl
  cases htaken with
  | quiet he hheard hd hsessions hgen =>
    have hsame : (g.heard pb e).foldl Desk.hear d = d := by
      generalize g.heard pb e = msgs at hheard
      induction msgs with
      | nil => rfl
      | cons msg msgs ih =>
        have hpending := (hg.pending_iff _).mp (hheard msg List.mem_cons_self)
        rw [List.foldl_cons, Desk.hear, if_pos hpending]
        exact ih fun m hm => hheard m (List.mem_cons_of_mem msg hm)
    rw [hdesk he, hsame]
    exact ⟨h', q, n, hg.quiet hsteady hd hsessions (Nat.le_refl n) (hgen.trans hg.drawn),
      Nat.le_succ n⟩
  | @dropped msg he hheard hfree hnone hd hsessions hgen =>
    have hnew : ¬ ∃ r ∈ d, r.external = external msg := by
      rw [← hg.pending_iff, hfree]
      exact Bool.false_ne_true
    have hsame : d.hear msg = d := by
      rw [Desk.hear, if_neg hnew, hnone]
      exact List.append_nil d
    rw [hdesk he, hheard, List.foldl_cons, List.foldl_nil, hsame]
    exact ⟨h', q, n + 1, hg.quiet hsteady hd hsessions (Nat.le_succ n) (hnext hgen), Nat.le_refl _⟩
  | tick he hd hh =>
    subst he hh
    refine ⟨_, q, n, ⟨hg.toGathered.tick hsteady hd, hg.drawn, hg.first_le, hg.places, ?_, ?_⟩,
      Nat.le_succ n⟩
    · intro k
      rw [(FGWClientHandler.routine_lookup h routineInterval k).2,
        (FGWClientHandler.routine_lookup h routineInterval k).1, hg.keys]
      cases hv : h.sessionCtrl.pairing.value k with
      | none => rfl
      | some s =>
        obtain ⟨external, touchTime, rfl⟩ := hg.allWait k s hv
        rw [Option.bind_some, tick_waiting]
        split <;> rfl
    · have hseat : seat (h.routine routineInterval) = fun m => _ :=
        funext (seat_tick hg.allWait routineInterval)
      rw [hseat, ← List.filterMap_filterMap, ← hg.desk]
      rfl
  | @forwarded msg body seq he hheard hseq hfree hbody hd hsessions hgen =>
    have hseq : seq = Forwarding.innerSeq n := by
      rw [hseq, hg.drawn, HandlerIdGenerator.after_next (by decide) (by decide) (by decide)]
      rfl
    have hnot : seq ∉ q.map ZInnerMsg.seq := hseq ▸ hg.innerSeq_not_mem hn
    have hvalue : h.sessionCtrl.pairing.value seq = none :=
      Option.not_isSome_iff_eq_none.mp fun hs => hnot (hg.asked seq hs)
    have hboth : h.sessionCtrl.pairing.Free seq (external msg) := by
      refine ⟨(Pairing.value_eq_none_iff _ _).mp hvalue, ?_⟩
      rw [← Pairing.valueRight_eq_none_iff, ← SessionTable.findByKey2_eq]
      exact hfree
    have hpairing : h'.sessionCtrl.pairing = h.sessionCtrl.pairing.pair seq (external msg)
        (.waiting seq (external msg) 0) hboth := by
      rw [hsessions, SessionTable.add_pairing, Pairing.add_of_free _ hboth]
    have hnew : ¬ ∃ r ∈ d, r.external = external msg := by
      rw [← hg.pending_iff, hfree]
      exact Bool.false_ne_true
    have hheardOne : d.hear msg = d ++ [⟨external msg, body, 0⟩] := by
      rw [Desk.hear, if_neg hnew, hbody]
      rfl
    rw [hdesk he, hheard, List.foldl_cons, List.foldl_nil, hheardOne]
    refine ⟨h', _, n + 1, ⟨hg.toGathered.forward hsteady hbody hd hsessions ⟨n + 1, hnext hgen⟩,
      hnext hgen, Nat.le_succ_of_le hg.first_le, ?_, ?_, ?_⟩, Nat.le_refl _⟩
    · obtain ⟨is, his, hpair, hbounds⟩ := hg.places
      refine ⟨is ++ [n], ?_, ?_, ?_⟩
      · rw [List.map_append, List.map_append, his, hseq]
        rfl
      · rw [List.pairwise_append]
        refine ⟨hpair, List.pairwise_singleton _ _, fun i hi j hj => ?_⟩
        rw [List.mem_singleton.mp hj]
        exact (hbounds i hi).2
      · intro i hi
        rcases List.mem_append.mp hi with hi | hi
        · exact ⟨(hbounds i hi).1, Nat.lt_succ_of_lt (hbounds i hi).2⟩
        · rw [List.mem_singleton.mp hi]
          exact ⟨hg.first_le, Nat.lt_succ_self n⟩
    · intro k
      rw [hpairing, Pairing.pair_keys, Pairing.pair_value, hg.keys]
      split <;> rfl
    · have hseat : ∀ m ∈ q, seat h' m = seat h m := by
        intro m hm
        have hne : m.seq ≠ seq := fun heq => hnot (heq ▸ List.mem_map_of_mem hm)
        rw [seat, seat, hpairing, Pairing.pair_value, if_neg hne]
      have hlast : seat h' (Monsys.forwarded seq body) = some ⟨external msg, body, 0⟩ := by
        rw [seat, hpairing, Pairing.pair_value]
        exact congrArg _ (if_pos rfl)
      rw [List.filterMap_append, List.filterMap_congr hseat, ← hg.desk,
        List.filterMap_cons_some hlast]
      rfl

theorem Seated.callbacks (hg : g.Seated h q d first n) {es : List Event} {d' : Desk}
    (hrun : es.foldlM (watch pb) (g, d) = .ok (g', d')) (hn : n - first + es.length ≤ 0xFFFFFF) :
    ∃ h' q' n', g'.Seated h' q' d' first n' ∧ n' ≤ n + es.length ∧ g.callbacks pb es = .ok g' := by
  induction es generalizing g h q d n with
  | nil =>
    cases hrun
    exact ⟨h, q, n, hg, Nat.le_refl n, rfl⟩
  | cons e es ih =>
    rw [List.length_cons] at hn
    rw [List.foldlM_cons] at hrun
    obtain ⟨⟨g₁, d₁⟩, hwatch, hrest⟩ := Except.bind_eq_ok.mp hrun
    rw [watch] at hwatch
    cases hstep : g.step pb e with
    | error a =>
      rw [hstep] at hwatch
      cases hwatch
    | ok g₂ =>
      rw [hstep] at hwatch
      obtain ⟨rfl, rfl⟩ := Prod.mk.inj (Except.ok.inj hwatch)
      obtain ⟨h₁, q₁, n₁, hg₁, hn₁⟩ := hg.step hstep (by omega)
      obtain ⟨h', q', n', hg', hn', hcall⟩ := ih hg₁ hrest (by omega)
      refine ⟨h', q', n', hg', by rw [List.length_cons]; omega, ?_⟩
      rw [Gateway.callbacks, List.foldlM_cons, hstep]
      exact hcall

/-! ## Answers -/

/-- The answers to the messages in the queue are those to the requests on the desk. -/
theorem Seated.answers (pb : Protobuf) (hg : g.Seated h q d first n) (m : ZZBDevManager) :
    Put.ofClient ((q.flatMap m.replyTo).flatMap (h.answersTo pb)) = d.answers pb m h.fd := by
  have hone : ∀ msg ∈ q, Put.ofClient ((m.replyTo msg).flatMap (h.answersTo pb)) =
      Desk.answers pb m h.fd (seat h msg).toList := by
    intro msg hmsg
    obtain ⟨seq, push, body, hbody, rfl⟩ := hg.requests msg hmsg
    obtain ⟨rsp, hrsp⟩ := push2inner_reply hbody m
    rw [ZZBDevManager.replyTo_eq hrsp, List.flatMap_singleton, FGWClientHandler.answersTo, seat]
    dsimp only
    cases hv : h.sessionCtrl.pairing.value (forwarded seq body).seq with
    | none => rfl
    | some s =>
      show Put.ofClient ((answer pb rsp s.externalKey).toList.map (Output.send h.fd)) =
        List.filterMap _ [_]
      have hbody : m.reply (forwarded seq body).body = some rsp := hrsp
      rw [List.filterMap_cons]
      dsimp only
      rw [hbody, Option.bind_some]
      cases answer pb rsp s.externalKey <;> rfl
  have hdesk : d = q.flatMap fun msg => (seat h msg).toList := by
    rw [hg.desk, List.filterMap_eq_flatMap_toList]
  rw [List.flatMap_assoc, hdesk, Put.ofClient, Desk.answers, List.filterMap_flatMap,
    List.filterMap_flatMap]
  exact List.flatMap_congr hone

/-- After the login the list of devices is asked for twice under one number, and a tick goes by. -/
def twiceUnderOneNumber : List Event :=
  [received (0x0D :: devListBytes) devList_readable, .routine,
    received (0x0D :: devListBytes) devList_readable]

end Gateway

end Monsys

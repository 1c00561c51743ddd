/-
  Answers from inside the gateway, and what goes up of them.

  1. **The full answer** — what the server is to be told: every entry of the inner message, in
     order, under the number of its request.
  2. **What is sent** — `answer` takes as many entries as an `int` counts and has 1024 bytes for the
     message with its count in front.
  3. **In full** — exactly the answers that are sent whole.  An entry takes a byte at least, so that
     what fits into the buffer was not cut before.
-/
import Monsys.FgwClientHandler

namespace Monsys

open Push

/-! ## The full answer -/

/-- The responses that an inner message is turned into a push message for. -/
def InnerBody.IsAnswer : InnerBody → Prop
  | .getDevListRsp .. | .getDevInfoRsp .. | .setDevInfoRsp .. => True
  | _ => False

/-- The answer to the request with a number: its type goes with the inner one, and it lists the
    entries of the inner response. -/
def fullAnswer (sequence : Int) : InnerBody → Option PushMsg
  | .getDevListRsp infoList => some
    { newPushMsg .getDevListRsp sequence with
      getDevListRsp := some
        { code := 0, devInfos := infoList.map fun i => ⟨i.addr.toNat, i.type.toNat, i.name⟩ } }
  | .getDevInfoRsp devInfos => some
    { newPushMsg .getDevInfoRsp sequence with
      getDevInfoRsp := some
        { code := 0, idValuePairs := devInfos.map fun pair => ⟨pair.id.toNat, pair.val.toNat⟩ } }
  | .setDevInfoRsp status => some
    { newPushMsg .setDevInfoRsp sequence with setDevInfoRsp := some { code := status.toNat } }
  | _ => none

/-- The entries of an answer's list. -/
def Push.PushMsg.entries (msg : PushMsg) : Nat :=
  (msg.getDevListRsp.map fun rsp => rsp.devInfos.length).getD 0 +
    (msg.getDevInfoRsp.map fun rsp => rsp.idValuePairs.length).getD 0

/-- An entry takes at least a byte, its tag. -/
def Protobuf.ListsEntries (pb : Protobuf) : Prop :=
  ∀ msg : PushMsg, msg.entries ≤ (pb.serialize msg).length

/-- A message behind its count. -/
def Protobuf.frame (pb : Protobuf) (msg : PushMsg) : List UInt8 :=
  pb.writeVarint32 (pb.serialize msg).length ++ pb.serialize msg

theorem protobufEncode_eq (pb : Protobuf) (msg : PushMsg) (bufLen : Nat) :
    protobufEncode pb msg bufLen =
      if bufLen < (pb.frame msg).length then none else some (pb.frame msg) := by
  rw [Protobuf.frame, List.length_append]
  rfl

/-! ## What is sent -/

/-- A list whose size an `int` holds is gone through whole. -/
theorem take_intCount {α : Type} {xs : List α} (h : xs.length < 2 ^ 31) :
    xs.take (intCount xs.length) = xs := by
  rw [intCount, Wire.toInt32_of_lt h, Int.toNat_natCast, List.take_length]

/-- The entries of an inner message. -/
def InnerBody.entries : InnerBody → Nat
  | .getDevListRsp infoList => infoList.length
  | .getDevInfoRsp devInfos => devInfos.length
  | _ => 0

theorem fullAnswer_entries {body : InnerBody} {sequence : Int} {full : PushMsg}
    (h : fullAnswer sequence body = some full) : full.entries = body.entries := by
  cases body with
  | getDevListRsp infoList =>
    obtain rfl := Option.some.inj h
    exact List.length_map _
  | getDevInfoRsp devInfos =>
    obtain rfl := Option.some.inj h
    show 0 + (devInfos.map _).length = _
    rw [Nat.zero_add, List.length_map]
    rfl
  | setDevInfoRsp status =>
    obtain rfl := Option.some.inj h
    rfl
  | _ => cases h

/-- Of a list that is not cut the full answer is made. -/
theorem inner2push_full {body : InnerBody} (h : body.entries < 2 ^ 31) (sequence : Int) :
    (inner2push body).map (fun msg => { msg with sequence := sequence }) =
      fullAnswer sequence body := by
  cases body with
  | getDevListRsp infoList =>
    rw [inner2push, getDevListRsp2push, take_intCount h]
    rfl
  | getDevInfoRsp devInfos =>
    rw [inner2push, getDevInfoRsp2push, take_intCount h]
    rfl
  | _ => rfl

section

variable {pb : Protobuf} {body : InnerBody}

/-- Whatever is sent fits into the buffer. -/
theorem answer_length {externalKey : UInt32} {bytes : List UInt8}
    (h : FGWClientForwardSession.answer pb body externalKey = some bytes) : bytes.length ≤ 1024 := by
  rw [FGWClientForwardSession.answer] at h
  split at h
  · cases h
  · rw [protobufEncode_eq] at h
    split at h
    · cases h
    · obtain rfl := Option.some.inj h
      omega

/-- The full answer is sent exactly if it does fit. -/
theorem answer_full_iff (hpb : pb.ListsEntries) (externalKey : UInt32) {full : PushMsg}
    (hfull : fullAnswer externalKey.toInt32.toInt body = some full) :
    FGWClientForwardSession.answer pb body externalKey = some (pb.frame full) ↔
      (pb.frame full).length ≤ 1024 := by
  constructor
  · exact answer_length
  · intro hle
    have hentries : body.entries ≤ (pb.serialize full).length := by
      rw [← fullAnswer_entries hfull]
      exact hpb full
    have hshort : body.entries < 2 ^ 31 := by
      rw [Protobuf.frame, List.length_append] at hle
      omega
    have hmade := (inner2push_full hshort externalKey.toInt32.toInt).trans hfull
    obtain ⟨msg, hmsg, rfl⟩ := Option.map_eq_some_iff.mp hmade
    rw [FGWClientForwardSession.answer, hmsg]
    dsimp only
    rw [protobufEncode_eq, if_neg (by omega)]

end

/-! ## In full -/

namespace FGWClientHandler

/-- A session under the inner number waits for the answer to the request. -/
def Awaits (h : FGWClientHandler) (seq : UInt32) (request : PushMsg) : Prop :=
  ∃ s, h.sessionCtrl.findByKey1 seq = some s ∧ s.state = .waitForZbProxy ∧
    s.externalKey = FGWClientForwardSession.external request

/-- What an inner message does to the session that waits for it. -/
theorem onInnerMsg_awaited {pb : Protobuf} {h : FGWClientHandler} {msg : ZInnerMsg}
    {request : PushMsg} (hwait : h.Awaits msg.seq request) :
    h.onInnerMsg pb msg =
      ({ h with sessionCtrl := (h.sessionCtrl.removeByKey1 msg.seq).2 },
        (FGWClientForwardSession.answer pb msg.body
          (FGWClientForwardSession.external request)).toList.map (Output.send h.fd)) := by
  obtain ⟨s, hs, hstate, hext⟩ := hwait
  have hevent : s.eventInner pb h.fd msg =
      (s.close, (FGWClientForwardSession.answer pb msg.body
        (FGWClientForwardSession.external request)).toList.map (Output.send h.fd)) := by
    rw [FGWClientForwardSession.eventInner, if_neg (fun hne => hne hstate), hext]
    cases FGWClientForwardSession.answer pb msg.body (FGWClientForwardSession.external request) <;>
      rfl
  rw [onInnerMsg]
  split
  · next hnone =>
    rw [hs] at hnone
    cases hnone
  · next s' hs' =>
    obtain rfl : s = s' := Option.some.inj (hs.symm.trans hs')
    dsimp only
    rw [hevent]
    rfl

/-- One message goes up, the full answer to the request, and the session is gone. -/
def AnswersInFull (pb : Protobuf) (h : FGWClientHandler) (msg : ZInnerMsg) (request : PushMsg) :
    Prop :=
  ∃ full, fullAnswer request.sequence msg.body = some full ∧
    h.onInnerMsg pb msg =
      ({ h with sessionCtrl := (h.sessionCtrl.removeByKey1 msg.seq).2 }, [.send h.fd (pb.frame full)])

/-- The full answer takes 1024 bytes at most, with its count. -/
def AnswerFits (pb : Protobuf) (msg : ZInnerMsg) (request : PushMsg) : Prop :=
  ∀ full, fullAnswer request.sequence msg.body = some full → (pb.frame full).length ≤ 1024

theorem isAnswer_full {body : InnerBody} (h : body.IsAnswer) (sequence : Int) :
    ∃ full, fullAnswer sequence body = some full := by
  cases body with
  | getDevListRsp infoList => exact ⟨_, rfl⟩
  | getDevInfoRsp devInfos => exact ⟨_, rfl⟩
  | setDevInfoRsp status => exact ⟨_, rfl⟩
  | _ => cases h

/-- What is sent is what the session makes of the inner message. -/
theorem answersInFull_iff_answer {pb : Protobuf} {h : FGWClientHandler} {msg : ZInnerMsg}
    {request : PushMsg} (hwait : h.Awaits msg.seq request) :
    h.AnswersInFull pb msg request ↔
      ∃ full, fullAnswer request.sequence msg.body = some full ∧
        FGWClientForwardSession.answer pb msg.body (FGWClientForwardSession.external request) =
          some (pb.frame full) := by
  rw [AnswersInFull, onInnerMsg_awaited hwait]
  refine exists_congr fun full => and_congr_right fun _ => ?_
  constructor
  · intro hout
    have hsent := congrArg Prod.snd hout
    cases ha : FGWClientForwardSession.answer pb msg.body
      (FGWClientForwardSession.external request) with
    | none =>
      rw [ha] at hsent
      cases hsent
    | some bytes =>
      rw [ha] at hsent
      obtain ⟨hbytes, -⟩ := List.cons.inj hsent
      obtain ⟨-, rfl⟩ := Output.send.inj hbytes
      rfl
  · intro ha
    rw [ha]
    rfl

/-- **Answers are passed on in full** exactly if they fit into the buffer.  The number of a request
    is an `int`. -/
theorem answered_in_full_iff {pb : Protobuf} (hpb : pb.ListsEntries) {h : FGWClientHandler}
    {msg : ZInnerMsg} (hmsg : msg.body.IsAnswer) {request : PushMsg}
    (hlo : -2 ^ 31 ≤ request.sequence) (hhi : request.sequence < 2 ^ 31)
    (hwait : h.Awaits msg.seq request) :
    h.AnswersInFull pb msg request ↔ AnswerFits pb msg request := by
  have hseq := FGWClientForwardSession.external_toInt hlo hhi
  obtain ⟨full, hfull⟩ := isAnswer_full hmsg request.sequence
  have hsent := answer_full_iff hpb (FGWClientForwardSession.external request)
    (hseq.symm ▸ hfull)
  rw [answersInFull_iff_answer hwait, AnswerFits, hfull]
  simp only [Option.some.injEq, forall_eq', exists_eq_left']
  exact hsent

/-- A handler that waits for the answer to the request for the list of devices, under 1. -/
def awaiting : FGWClientHandler :=
  { new with fd := 3, sessionCtrl := (SessionTable.new.add 1 7 (.waiting 1 7 0)).2 }

theorem awaiting_devList : awaiting.Awaits 1 devListMsg := ⟨.waiting 1 7 0, rfl, rfl, rfl⟩

end FGWClientHandler

/-- The sample library, where a message with entries is so many zeros. -/
def Protobuf.sampleListing : Protobuf :=
  { Protobuf.sample with
    serialize := fun msg =>
      if msg.entries = 0 then Protobuf.sample.serialize msg else List.replicate msg.entries 0 }

theorem Protobuf.sampleListing_listsEntries : sampleListing.ListsEntries := by
  intro msg
  show msg.entries ≤ (if msg.entries = 0 then _ else List.replicate msg.entries 0).length
  split
  · omega
  · rw [List.length_replicate]

namespace FGWClientHandler

/-- No devices. -/
def noDevices : ZInnerMsg := ⟨{}, {}, 1, .getDevListRsp []⟩

theorem answered_in_full_noDevices :
    awaiting.AnswersInFull .sampleListing noDevices devListMsg ↔
      AnswerFits .sampleListing noDevices devListMsg := by
  have hmsg : noDevices.body.IsAnswer := trivial
  exact answered_in_full_iff Protobuf.sampleListing_listsEntries hmsg (by decide) (by decide)
    awaiting_devList

/-- So many items. -/
def itemValues (n : Nat) : ZInnerMsg := ⟨{}, {}, 1, .getDevInfoRsp (List.replicate n ⟨1, 23⟩)⟩

/-- The values of 1025 items are not passed on. -/
theorem long_answer_dropped :
    ¬ ∀ (pb : Protobuf) (h : FGWClientHandler) (msg : ZInnerMsg) (request : PushMsg),
      pb.ListsEntries → msg.body.IsAnswer → -2 ^ 31 ≤ request.sequence → request.sequence < 2 ^ 31 →
      h.Awaits msg.seq request → h.AnswersInFull pb msg request := by
  intro hall
  have h := hall .sampleListing awaiting (itemValues 1025) devListMsg
    Protobuf.sampleListing_listsEntries trivial (by decide) (by decide) awaiting_devList
  obtain ⟨full, hfull, hsent⟩ := (answersInFull_iff_answer awaiting_devList).mp h
  have hle := answer_length hsent
  have hentries : full.entries = 1025 :=
    (fullAnswer_entries hfull).trans (List.length_replicate ..)
  have hroom := Protobuf.sampleListing_listsEntries full
  rw [Protobuf.frame, List.length_append] at hle
  omega

end FGWClientHandler

end Monsys

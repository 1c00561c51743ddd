/-
  Decoding into an object that has been used before.

  A handler may decode one message after another into the same object.  All eighteen decoders set
  every field that their class has on the wire; but `ZZBGetReq`, `ZZBGetRsp`, `ZZBSetReq` and
  `push::GetDevListRsp` put the items they decode behind those that are there already, where
  `ZZBUpdateIdInfoReq` and the other push messages clear their list first.  So what an object holds
  after a successful `decode` depends on what it held before exactly through these four lists
  (`decode_forgets_iff`).
-/
import Monsys.ZigBeeMessage
import Monsys.PushCodec

namespace Monsys

open Wire (Stop Reader Decoder ok_of_bind bind_of_ok)

/-! ## ZigBee messages -/

namespace ZbMsg

/-- Objects of the same class. -/
inductive SameClass : ZbMsg → ZbMsg → Prop
  | regReq (x y : ZZBRegReq) : SameClass (.regReq x) (.regReq y)
  | regRsp (x y : ZZBRegRsp) : SameClass (.regRsp x) (.regRsp y)
  | getReq (x y : ZZBGetReq) : SameClass (.getReq x) (.getReq y)
  | getRsp (x y : ZZBGetRsp) : SameClass (.getRsp x) (.getRsp y)
  | setReq (x y : ZZBSetReq) : SameClass (.setReq x) (.setReq y)
  | setRsp (x y : ZZBSetRsp) : SameClass (.setRsp x) (.setRsp y)
  | bindReq (x y : ZZBBindReq) : SameClass (.bindReq x) (.bindReq y)
  | bindRsp (x y : ZZBBindRsp) : SameClass (.bindRsp x) (.bindRsp y)
  | updateIdInfoReq (x y : ZZBUpdateIdInfoReq) : SameClass (.updateIdInfoReq x) (.updateIdInfoReq y)
  | updateIdInfoRsp (x y : ZZBUpdateIdInfoRsp) : SameClass (.updateIdInfoRsp x) (.updateIdInfoRsp y)
  | broadcastInd (x y : ZZBBroadcastInd) : SameClass (.broadcastInd x) (.broadcastInd y)

/-- The lists that a `decode` appends to are equal. -/
def SameList : ZbMsg → ZbMsg → Prop
  | getReq x, getReq y => x.items = y.items
  | getRsp x, getRsp y => x.items = y.items
  | setReq x, setReq y => x.items = y.items
  | _, _ => True

end ZbMsg

/-- A header, a count, and so many items behind those that are there. -/
def decodeItems {β γ : Type} (d : Decoder γ) (mk : ZZigBeeMsg → List γ → β) (items : List γ) :
    Decoder β := fun buf bufLen => do
  let (hdr, r) ← (Reader.start buf bufLen).call ZZigBeeMsg.decode
  Wire.failIf (r.room < hdr.len.toNat)
  let (itemCount, r) ← r.call zDecodeByte
  let (items, r) ← r.times d items itemCount.toNat
  return (r.len, mk hdr items)

theorem getReq_decode_eq (m : ZZBGetReq) :
    m.decode = decodeItems peekByte (fun hdr items => ⟨hdr, items⟩) m.items := rfl

theorem getRsp_decode_eq (m : ZZBGetRsp) :
    m.decode = decodeItems decodeItemPair (fun hdr items => ⟨hdr, items⟩) m.items := rfl

theorem setReq_decode_eq (m : ZZBSetReq) :
    m.decode = decodeItems decodeItemPair (fun hdr items => ⟨hdr, items⟩) m.items := rfl

/-- With other items in front the outcome is the same, but for them. -/
theorem decodeItems_forgets {β γ : Type} {d : Decoder γ} {mk : ZZigBeeMsg → List γ → β}
    (hmk : ∀ hdr xs ys, mk hdr xs = mk hdr ys ↔ xs = ys) {xs : List γ} (ys : List γ)
    {buf : List UInt8} {n : Nat} {rv : Int} {x : β} (h : decodeItems d mk xs buf n = .ok (rv, x)) :
    ∃ y, decodeItems d mk ys buf n = .ok (rv, y) ∧ (x = y ↔ xs = ys) := by
  obtain ⟨⟨hdr, r⟩, hheader, h⟩ := ok_of_bind h
  obtain ⟨u, hcheck, h⟩ := ok_of_bind h
  obtain ⟨⟨itemCount, r'⟩, hcount, h⟩ := ok_of_bind h
  obtain ⟨⟨all, r''⟩, htimes, h⟩ := ok_of_bind h
  obtain ⟨rfl, rfl⟩ := Prod.mk.inj (Except.ok.inj h)
  -- the loop reads the same items behind whatever is there
  have hacc := Reader.times_acc d itemCount.toNat r' xs
  have hacc' := Reader.times_acc d itemCount.toNat r' ys
  rw [htimes] at hacc
  cases hitems : r'.times d [] itemCount.toNat with
  | error stop =>
    rw [hitems] at hacc
    cases hacc
  | ok p =>
    obtain ⟨items, last⟩ := p
    rw [hitems] at hacc hacc'
    obtain ⟨rfl, rfl⟩ := Prod.mk.inj (Except.ok.inj hacc)
    refine ⟨mk hdr (ys ++ items), ?_, ?_⟩
    · refine (bind_of_ok _ hheader).trans ?_
      refine (bind_of_ok _ hcheck).trans ?_
      refine (bind_of_ok _ hcount).trans ?_
      exact bind_of_ok _ hacc'
    · rw [hmk, List.append_left_inj]

/-- Two decoders of a class, of which one yields what the other does, or not. -/
theorem lift_forgets {β : Type} {wrap : β → ZbMsg} (hwrap : ∀ a b, wrap a = wrap b ↔ a = b)
    {d d' : Decoder β} {buf : List UInt8} {n : Nat} {P : Prop}
    (h : ∀ rv a, d buf n = .ok (rv, a) → ∃ b, d' buf n = .ok (rv, b) ∧ (a = b ↔ P)) {rv : Int}
    {x : ZbMsg} (hx : ZbMsg.lift wrap d buf n = .ok (rv, x)) :
    ∃ y, ZbMsg.lift wrap d' buf n = .ok (rv, y) ∧ (x = y ↔ P) := by
  unfold ZbMsg.lift at hx ⊢
  cases hd : d buf n with
  | error stop =>
    rw [hd] at hx
    cases hx
  | ok p =>
    obtain ⟨rv', a⟩ := p
    rw [hd] at hx
    obtain ⟨rfl, rfl⟩ := Prod.mk.inj (Except.ok.inj hx)
    obtain ⟨b, hb, hiff⟩ := h rv' a hd
    rw [hb]
    exact ⟨wrap b, rfl, (hwrap a b).trans hiff⟩

namespace ZbMsg

/-- **ZigBee messages**: an object's past shows exactly in the list it appends to. -/
theorem decode_forgets {x y : ZbMsg} (h : x.SameClass y) {buf : List UInt8} {n : Nat} {rv : Int}
    {x' : ZbMsg} (hx : x.decode buf n = .ok (rv, x')) :
    ∃ y', y.decode buf n = .ok (rv, y') ∧ (x' = y' ↔ x.SameList y) := by
  cases h with
  | getReq x y =>
    apply lift_forgets (fun a b => by rw [getReq.injEq]) _ hx
    intro rv a ha
    rw [getReq_decode_eq] at ha ⊢
    exact decodeItems_forgets (fun hdr xs ys => by simp) y.items ha
  | getRsp x y =>
    apply lift_forgets (fun a b => by rw [getRsp.injEq]) _ hx
    intro rv a ha
    rw [getRsp_decode_eq] at ha ⊢
    exact decodeItems_forgets (fun hdr xs ys => by simp) y.items ha
  | setReq x y =>
    apply lift_forgets (fun a b => by rw [setReq.injEq]) _ hx
    intro rv a ha
    rw [setReq_decode_eq] at ha ⊢
    exact decodeItems_forgets (fun hdr xs ys => by simp) y.items ha
  | regReq x y => exact ⟨x', hx, iff_of_true rfl trivial⟩
  | regRsp x y => exact ⟨x', hx, iff_of_true rfl trivial⟩
  | setRsp x y => exact ⟨x', hx, iff_of_true rfl trivial⟩
  | bindReq x y => exact ⟨x', hx, iff_of_true rfl trivial⟩
  | bindRsp x y => exact ⟨x', hx, iff_of_true rfl trivial⟩
  | updateIdInfoReq x y => exact ⟨x', hx, iff_of_true rfl trivial⟩
  | updateIdInfoRsp x y => exact ⟨x', hx, iff_of_true rfl trivial⟩
  | broadcastInd x y => exact ⟨x', hx, iff_of_true rfl trivial⟩

end ZbMsg

/-! ## Push messages -/

namespace PushCodec

namespace AnyMsg

/-- Objects of the same class. -/
inductive SameClass : AnyMsg → AnyMsg → Prop
  | heartbeat (x y : Heartbeat) : SameClass (.heartbeat x) (.heartbeat y)
  | getDevListReq (x y : GetDevListReq) : SameClass (.getDevListReq x) (.getDevListReq y)
  | getDevListRsp (x y : GetDevListRsp) : SameClass (.getDevListRsp x) (.getDevListRsp y)
  | getReq (x y : GetReq) : SameClass (.getReq x) (.getReq y)
  | getRsp (x y : GetRsp) : SameClass (.getRsp x) (.getRsp y)
  | setReq (x y : SetReq) : SameClass (.setReq x) (.setReq y)
  | setRsp (x y : SetRsp) : SameClass (.setRsp x) (.setRsp y)

/-- The lists that a `decode` appends to are equal. -/
def SameList : AnyMsg → AnyMsg → Prop
  | getDevListRsp x, getDevListRsp y => x.infoList = y.infoList
  | _, _ => True

end AnyMsg

/-- What `GetDevListRsp::decode` reads, whatever the object's list. -/
def readDevList : Code (Msg × List DevInfo) := do
  let header ← value Msg.decode
  let infoList ← decodeList (value DevInfo.decode) []
  return (header, infoList)

/-- The devices read are put behind those of the object. -/
theorem getDevListRsp_decode_eq (m : GetDevListRsp) :
    (AnyMsg.getDevListRsp m).decode = do
      let (n, header, infoList) ← ZByteBuffer.decoding readDevList
      return (n, .getDevListRsp ⟨header, m.infoList ++ infoList⟩) := by
  have hlist : decodeList (value DevInfo.decode) m.infoList = do
      return m.infoList ++ (← decodeList (value DevInfo.decode) []) := by
    unfold decodeList
    simp only [bind_assoc]
    congr 1
    funext len
    exact Tape.times_acc _ len.toNat m.infoList
  show AnyMsg.wrap AnyMsg.getDevListRsp m.decode = _
  unfold AnyMsg.wrap GetDevListRsp.decode ZByteBuffer.decoding readDevList Tape.counted
  rw [hlist]
  simp only [bind_assoc, pure_bind]

namespace AnyMsg

/-- **Push messages**: the same. -/
theorem decode_forgets {x y : AnyMsg} (h : x.SameClass y) {b b' : ZByteBuffer} {n : Int}
    {x' : AnyMsg} (hx : x.decode b = .ok ((n, x'), b')) :
    ∃ y', y.decode b = .ok ((n, y'), b') ∧ (x' = y' ↔ x.SameList y) := by
  cases h with
  | getDevListRsp x y =>
    rw [getDevListRsp_decode_eq] at hx ⊢
    cases hread : ZByteBuffer.decoding readDevList b with
    | error stop =>
      simp only [bind, StateT.bind, Except.bind, hread] at hx
      cases hx
    | ok p =>
      obtain ⟨⟨n', header, infoList⟩, b''⟩ := p
      simp only [bind, StateT.bind, Except.bind, hread] at hx ⊢
      obtain ⟨hvalue, rfl⟩ := Prod.mk.inj (Except.ok.inj hx)
      obtain ⟨rfl, rfl⟩ := Prod.mk.inj hvalue
      refine ⟨_, rfl, ?_⟩
      simp [SameList]
  | heartbeat x y => exact ⟨x', hx, iff_of_true rfl trivial⟩
  | getDevListReq x y => exact ⟨x', hx, iff_of_true rfl trivial⟩
  | getReq x y => exact ⟨x', hx, iff_of_true rfl trivial⟩
  | getRsp x y => exact ⟨x', hx, iff_of_true rfl trivial⟩
  | setReq x y => exact ⟨x', hx, iff_of_true rfl trivial⟩
  | setRsp x y => exact ⟨x', hx, iff_of_true rfl trivial⟩

end AnyMsg

end PushCodec

/-- **Decoding into used objects.**  Where `decode` succeeds with one object of a class it does so
    with every other, returns the same, and takes the same from the buffer; the objects are equal
    afterwards exactly if the lists that it appends to were equal before. -/
theorem decode_forgets_iff (x y : ZbMsg) (p q : PushCodec.AnyMsg) :
    (x.SameClass y → ∀ (buf : List UInt8) (n : Nat) (rv : Int) (x' : ZbMsg),
      x.decode buf n = .ok (rv, x') →
        ∃ y', y.decode buf n = .ok (rv, y') ∧ (x' = y' ↔ x.SameList y)) ∧
    (p.SameClass q → ∀ (b b' : ZByteBuffer) (n : Int) (p' : PushCodec.AnyMsg),
      p.decode b = .ok ((n, p'), b') →
        ∃ q', q.decode b = .ok ((n, q'), b') ∧ (p' = q' ↔ p.SameList q)) :=
  ⟨fun h _ _ _ _ hx => ZbMsg.decode_forgets h hx,
    fun h _ _ _ _ hp => PushCodec.AnyMsg.decode_forgets h hp⟩

/-- A request for the item 5, decoded into an object that holds the item 3 and into one that holds
    none. -/
theorem getReq_decode_leaks :
    let used : ZbMsg := .getReq ⟨⟨1, 0, zIdZbGetReq, 9⟩, [3]⟩
    let fresh : ZbMsg := .getReq ⟨⟨1, 0, zIdZbGetReq, 9⟩, []⟩
    used.decode [1, 0, 2, 2, 0, 9, 1, 5] 8 = .ok (8, .getReq ⟨⟨1, 2, 2, 9⟩, [3, 5]⟩) ∧
    fresh.decode [1, 0, 2, 2, 0, 9, 1, 5] 8 = .ok (8, .getReq ⟨⟨1, 2, 2, 9⟩, [5]⟩) ∧
    ZbMsg.getReq ⟨⟨1, 2, 2, 9⟩, [3, 5]⟩ ≠ .getReq ⟨⟨1, 2, 2, 9⟩, [5]⟩ :=
  ⟨rfl, rfl, by decide⟩

/-- Into objects of which one held what the other did, the same is decoded. -/
theorem getReq_decode_same :
    ∃ y', (ZbMsg.getReq ⟨⟨7, 7, 7, 7⟩, []⟩).decode [1, 0, 2, 2, 0, 9, 1, 5] 8 = .ok (8, y') ∧
      (ZbMsg.getReq ⟨⟨1, 2, 2, 9⟩, [5]⟩ = y' ↔ ([] : List UInt8) = []) :=
  let heartbeat : PushCodec.AnyMsg := .heartbeat ⟨PushCodec.Msg.new PushCodec.HEARTBEAT 0⟩
  (decode_forgets_iff (.getReq ⟨⟨1, 0, zIdZbGetReq, 9⟩, []⟩) (.getReq ⟨⟨7, 7, 7, 7⟩, []⟩)
    heartbeat heartbeat).1 (.getReq _ _) [1, 0, 2, 2, 0, 9, 1, 5] 8 8
    (.getReq ⟨⟨1, 2, 2, 9⟩, [5]⟩) rfl

end Monsys

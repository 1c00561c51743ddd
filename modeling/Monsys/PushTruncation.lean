/-
  Push messages in buffers too small for them.

  The integer puts of a `ZByteBuffer` fail where there is no room; the puts of one byte and of many
  write what there is room for and say how much that was, which no encoder looks at.  Behind such a
  put, where something else follows, the next integer fails.  Where nothing follows, the encoder
  reports success: that is so of the last TLV of a `GetRsp` or a `SetReq`, if it is a byte or a
  string.  The bytes then do not decode.

  1. **Writing into too little** — each encoder `Cuts` at its last `loose` bytes.
  2. **Reading too little** — each decoder `Starves` on the first bytes of a message.
  3. **Truncation** — `encode_truthful_iff`.
-/
import Monsys.Lib.TapeEnd
import Monsys.PushRoundTrip

namespace Monsys

open Wire (Stop be16 be32 ofBe16 ofBe32)

namespace ZByteBuffer

/-! ## Writing into too little -/

/-- `return -1;` -/
def failed : Stop := .err (-1)

theorem cuts_put (v : List UInt8) : writing.Cuts failed (put v v.length) v v.length where
  moves := by
    intro b _
    obtain ⟨n, b', hput, hheld, hlimit, _⟩ :=
      @ZDataBuffer.put_held _ b v v.length (Nat.le_refl _)
    refine ⟨n, b', ?_, ?_, hlimit⟩
    · unfold put
      rw [hput]
    · -- what was there stays, and of the new bytes as many as reach up to the limit
      have hold : b.held.take b.limit = b.held := by
        apply List.take_of_length_le
        rw [ZDataBuffer.held_length]
        exact b.pos_le
      rw [hheld, List.take_length, List.take_append, hold, ZDataBuffer.held_length]
      rfl
  fails b h := absurd h (by omega)

theorem cuts_putOne (v : UInt8) : writing.Cuts failed (putOne v) [v] 1 where
  moves := by
    intro b _
    rcases Nat.eq_zero_or_pos b.remaining with hfull | hroom
    · refine ⟨0, b, ?_, ?_⟩
      · unfold putOne ZDataBuffer.putOne
        rw [dif_neg (by omega)]
      · have hleft : writing.left b = 0 := hfull
        rw [hleft]
        exact writing.moved_nil b
    · obtain ⟨b', hrun, hmoved⟩ := writes_putOne v b hroom
      refine ⟨1, b', hrun, ?_⟩
      rwa [List.take_of_length_le (show 1 ≤ b.remaining from hroom)]
  fails b h := absurd h (by rw [List.length_singleton]; omega)

theorem cuts_putInt16 (v : UInt16) : writing.Cuts failed (putInt16 v) (be16 v) 0 := by
  refine .strict (writes_putInt16 v) (fun _ h => h) fun b hlt => ?_
  have hshort : b.remaining < 2 := hlt
  unfold putInt16 failIf Tape.failIf
  simp only [bind, StateT.bind, Except.bind, hshort, decide_true, if_true]
  rfl

theorem cuts_putInt32 (v : UInt32) : writing.Cuts failed (putInt32 v) (be32 v) 0 := by
  refine .strict (writes_putInt32 v) (fun _ h => h) fun b hlt => ?_
  have hshort : b.remaining < 4 := hlt
  unfold putInt32 failIf Tape.failIf
  simp only [bind, StateT.bind, Except.bind, hshort, decide_true, if_true]
  rfl

theorem cuts_encoding {c : Code Unit} {bs : List UInt8} {loose : Nat}
    (hc : writing.Cuts failed c bs loose) : writing.Cuts failed (encoding c) bs loose :=
  hc.counted.last

end ZByteBuffer

namespace PushCodec

open ZByteBuffer

/-- How many bytes of a value go without a check of what was written. -/
def VData.loose (v : VData) : Nat :=
  if v.type = TYPE_INT8 then 1 else if v.type = TYPE_STR then v.dataLen else 0

/-- They are no more than the value's. -/
theorem VData.loose_le {v : VData} (h : v.WasPut) : v.loose ≤ v.wire.length := by
  cases h with
  | byte w x hv =>
    rw [hv, wire_putByte, loose, putByte_type, if_pos rfl]
    exact Nat.le_refl 1
  | int16 w x hv =>
    rw [hv, loose, putInt16_type, if_neg (by decide), if_neg (by decide)]
    exact Nat.zero_le _
  | int32 w x hv =>
    rw [hv, loose, putInt32_type, if_neg (by decide), if_neg (by decide)]
    exact Nat.zero_le _
  | str w s hs hv =>
    rw [hv, wire_putStr, loose, putStr_type, if_neg (by decide), if_pos rfl, putStr_dataLen,
      List.length_append]
    omega

namespace TLV

theorem loose_lt {v : TLV} (h : v.value.WasPut) : v.value.loose < v.wire.length := by
  have hle := VData.loose_le h
  rw [wire, List.length_append, List.length_append, Wire.be16_length]
  omega

theorem cuts_encode {v : TLV} (h : v.value.WasPut) :
    writing.Cuts failed v.encode v.wire v.value.loose := by
  obtain ⟨tag, value⟩ := v
  have hle : value.loose ≤ value.wire.length := VData.loose_le h
  apply cuts_encoding
  apply (cuts_putInt16 tag).bind
  · intro _
    apply (cuts_putInt16 _).bind
    · intro _
      show writing.Cuts failed (if value.type = _ then _ else _) value.wire value.loose
      cases h with
      | byte w x hv =>
        subst hv
        rw [VData.putByte_type, if_pos rfl, VData.getByte_putByte, VData.wire_putByte]
        exact .given (cuts_putOne x.toUInt8).last
      | int16 w x hv =>
        subst hv
        rw [VData.putInt16_type, if_neg (by decide), if_pos rfl, VData.getInt16_putInt16,
          VData.wire_putInt16]
        exact .given (cuts_putInt16 x.toUInt16).last
      | int32 w x hv =>
        subst hv
        rw [VData.putInt32_type, if_neg (by decide), if_neg (by decide), if_pos rfl,
          VData.getInt32_putInt32, VData.wire_putInt32]
        exact .given (cuts_putInt32 x.toUInt32).last
      | str w s hs hv =>
        subst hv
        have hload : (w.putStr s).load s.length = some s := VData.store_load w VData.TYPE_STR s
        have hloose : (w.putStr s).loose = s.length := by
          rw [VData.loose, VData.putStr_type, if_neg (by decide), if_pos rfl, VData.putStr_dataLen]
        rw [VData.putStr_type, if_neg (by decide), if_neg (by decide), if_neg (by decide),
          if_pos rfl, VData.putStr_dataLen, VData.wire_putStr, hloose]
        apply (cuts_putInt16 _).bind
        · intro _
          rw [lengthOfNat hs, hload]
          exact .given (cuts_put s).last
        · exact Or.inr ⟨rfl, Nat.le_refl _⟩
    · exact Or.inr ⟨rfl, hle⟩
  · refine Or.inl ?_
    show value.loose < (be16 _ ++ value.wire).length
    rw [List.length_append, Wire.be16_length]
    omega

end TLV

/-- In a description the name has integers behind it. -/
theorem DevInfo.cuts_encode {v : DevInfo} (h : v.name.length ≤ 65535) :
    writing.Cuts failed v.encode v.wire 0 := by
  apply cuts_encoding
  apply (cuts_putInt32 v.addr).bind
  · intro _
    apply (cuts_putInt16 _).bind
    · intro _
      rw [lengthOfNat h]
      apply (cuts_put v.name).bind
      · intro _
        apply (cuts_putInt32 v.state).bind
        · exact fun _ => (cuts_putInt32 v.type).last
        · exact Or.inr ⟨rfl, Nat.zero_le _⟩
      · exact Or.inl (show 0 < 8 by omega)
    · exact Or.inr ⟨rfl, Nat.zero_le _⟩
  · exact Or.inr ⟨rfl, Nat.zero_le _⟩

theorem Msg.cuts_encode (m : Msg) : writing.Cuts failed m.encode m.wire 0 := by
  apply cuts_encoding
  apply (cuts_putInt32 m.header.seq).bind
  · exact fun _ => (cuts_putInt32 m.header.type).last
  · exact Or.inr ⟨rfl, Nat.zero_le _⟩

theorem cuts_encodeList {α : Type} {encode : α → Code Int} {wire : α → List UInt8} {loose : α → Nat}
    {list : List α} (hlen : list.length ≤ 65535)
    (h : ∀ x ∈ list, writing.Cuts failed (encode x) (wire x) (loose x) ∧
      loose x < (wire x).length) :
    writing.Cuts failed (encodeList encode list) (listWire wire list)
      (Tape.lastLoose loose list) := by
  apply (cuts_putInt16 _).bind
  · intro _
    rw [lengthOfNat hlen, List.take_length]
    exact Tape.Cuts.each h
  · refine Or.inr ⟨rfl, ?_⟩
    cases list with
    | nil => exact Nat.zero_le _
    | cons x xs =>
      exact Nat.le_of_lt (Tape.lastLoose_lt (List.cons_ne_nil x xs) fun y hy => (h y hy).2)

namespace AnyMsg

/-- How many bytes at a message's end go without a check. -/
def loose : AnyMsg → Nat
  | .getRsp m => Tape.lastLoose (fun v : TLV => v.value.loose) m.valueList
  | .setReq m => Tape.lastLoose (fun v : TLV => v.value.loose) m.valueList
  | _ => 0

theorem cuts_values {list : List TLV} (h : SendableValues list) :
    writing.Cuts failed (encodeList TLV.encode list) (listWire TLV.wire list)
      (Tape.lastLoose (fun v : TLV => v.value.loose) list) :=
  cuts_encodeList h.1 fun v hv => ⟨TLV.cuts_encode (h.2 v hv), TLV.loose_lt (h.2 v hv)⟩

/-- A header, and what fails in front of it or is cut. -/
theorem cuts_message (hdr : Msg) {c : Code Unit} {bs : List UInt8} {loose : Nat}
    (hc : writing.Cuts failed c bs loose) (hle : loose ≤ bs.length) :
    writing.Cuts failed (encoding (do let _ ← hdr.encode; c)) (hdr.wire ++ bs) loose := by
  apply cuts_encoding
  apply (Msg.cuts_encode hdr).bind
  · exact fun _ => hc
  · exact Or.inr ⟨rfl, hle⟩

theorem values_loose_le {list : List TLV} (h : SendableValues list) :
    Tape.lastLoose (fun v : TLV => v.value.loose) list ≤ (listWire TLV.wire list).length := by
  rw [listWire, List.length_append]
  cases list with
  | nil => exact Nat.zero_le _
  | cons v vs =>
    have hlt : Tape.lastLoose (fun v : TLV => v.value.loose) (v :: vs) <
        ((v :: vs).flatMap TLV.wire).length :=
      Tape.lastLoose_lt (List.cons_ne_nil v vs) fun y hy => TLV.loose_lt (h.2 y hy)
    omega

/-- Lists of which no element ends without a check. -/
theorem cuts_strictList {α : Type} {encode : α → Code Int} {wire : α → List UInt8} {list : List α}
    (hlen : list.length ≤ 65535)
    (h : ∀ x ∈ list, writing.Cuts failed (encode x) (wire x) 0 ∧ 0 < (wire x).length) :
    writing.Cuts failed (encodeList encode list) (listWire wire list) 0 := by
  have hlist := @cuts_encodeList _ encode wire (fun _ => 0) list hlen h
  rwa [Tape.lastLoose_zero] at hlist

/-- **Each class's encoder**, whatever the room. -/
theorem cuts_encode {m : AnyMsg} (h : m.Sendable) :
    writing.Cuts failed m.encode m.wire m.loose := by
  cases m with
  | heartbeat m => exact cuts_message m.toMsg (.ret ()) (Nat.zero_le _)
  | getDevListReq m => exact cuts_message m.toMsg (.ret ()) (Nat.zero_le _)
  | getDevListRsp m =>
    apply cuts_message m.toMsg _ (Nat.zero_le _)
    apply cuts_strictList h.1
    intro d hd
    refine ⟨DevInfo.cuts_encode (h.2 d hd), ?_⟩
    rw [DevInfo.wire, List.length_append, Wire.be32_length]
    omega
  | getReq m =>
    apply cuts_message m.toMsg _ (Nat.zero_le _)
    apply cuts_strictList h
    exact fun id _ => ⟨cuts_putInt32 id.toUInt32, show 0 < 4 by omega⟩
  | getRsp m => exact cuts_message m.toMsg (cuts_values h) (values_loose_le h)
  | setReq m => exact cuts_message m.toMsg (cuts_values h) (values_loose_le h)
  | setRsp m => exact cuts_message m.toMsg (cuts_putInt16 m.status).last (Nat.zero_le _)

end AnyMsg

end PushCodec

/-! ## Reading too little -/

namespace ZByteBuffer

/-- What is unread is only the first of some bytes. -/
def readingShort : reading.Shortage where
  Short bs b := ∃ tail, tail ≠ [] ∧ bs = b.unread ++ tail
  not_short_nil := by
    rintro b ⟨tail, hne, hnil⟩
    exact hne (List.append_eq_nil_iff.mp hnil.symm).2
  split := by
    rintro bs bs' b ⟨tail, hne, heq⟩
    rcases List.append_eq_append_iff.mp heq with ⟨mid, hunread, hbs'⟩ | ⟨mid, hbs, htail⟩
    · -- the first bytes are all there
      refine Or.inr ⟨⟨mid, hunread⟩, fun b' hmoved => ⟨tail, hne, ?_⟩⟩
      have hmid : mid = b'.unread := List.append_cancel_left (hunread.symm.trans hmoved)
      rw [hbs', hmid]
    · cases mid with
      | cons c mid => exact Or.inl ⟨c :: mid, List.cons_ne_nil c mid, hbs⟩
      | nil =>
        rw [List.append_nil] at hbs
        refine Or.inr ⟨⟨[], by rw [hbs, List.append_nil]⟩, fun b' hmoved => ⟨tail, hne, ?_⟩⟩
        have hnone : b'.unread = [] := by
          have hself : bs ++ b'.unread = bs := hmoved.symm.trans hbs.symm
          exact List.append_right_eq_self.mp hself
        rw [hnone, List.nil_append, htail, List.nil_append]

/-- As many bytes are missing as the tail has. -/
theorem remaining_lt {bs : List UInt8} {b : ZByteBuffer} (h : readingShort.Short bs b) :
    b.remaining < bs.length := by
  obtain ⟨tail, hne, rfl⟩ := h
  have hpos := List.length_pos_iff.mpr hne
  rw [List.length_append, ZDataBuffer.unread_length]
  omega

theorem starves_check {α : Type} {n : Nat} {f : Unit → Code α} {bs : List UInt8}
    (hn : bs.length ≤ n) :
    Tape.Starves readingShort failed (failIf (fun b => b.remaining < n) >>= f) bs := by
  intro b hshort
  have hlt := remaining_lt hshort
  have hcheck : b.remaining < n := by omega
  unfold failIf Tape.failIf
  simp only [bind, StateT.bind, Except.bind, hcheck, decide_true, if_true]
  rfl

theorem starves_getInt16 (v : UInt16) : Tape.Starves readingShort failed getInt16 (be16 v) :=
  starves_check (Nat.le_refl 2)

theorem starves_getInt32 (v : UInt32) : Tape.Starves readingShort failed getInt32 (be32 v) :=
  starves_check (Nat.le_refl 4)

theorem starves_raw (bs : List UInt8) : Tape.Starves readingShort failed (raw bs.length) bs := by
  intro b hshort
  have hlt := remaining_lt hshort
  unfold raw
  rw [dif_neg (by omega)]
  rfl

end ZByteBuffer

namespace PushCodec

open ZByteBuffer

theorem starves_value {α : Type} {c : Code (Int × α)} {bs : List UInt8}
    (h : Tape.Starves readingShort failed c bs) : Tape.Starves readingShort failed (value c) bs :=
  h.last

theorem TLV.starves_decode {v : TLV} (h : v.value.WasPut) :
    Tape.Starves readingShort failed TLV.new.decode v.wire := by
  obtain ⟨tag, value⟩ := v
  refine .counted (.bind (reads_getInt16 tag) (starves_getInt16 tag)
    (.bind (reads_getInt16 _) (starves_getInt16 _) ?_))
  show Tape.Starves readingShort failed
    (if (TLV.new.value.setType value.type.toUInt32.toUInt16.toUInt32.toInt32).type = _ then _ else _)
    value.wire
  -- the type has arrived, so that the branch is the value's
  rw [h.received, VData.setType_type]
  cases h with
  | byte w x hv =>
    subst hv
    rw [VData.putByte_type, if_pos rfl, VData.wire_putByte]
    exact starves_check (Nat.le_refl 1)
  | int16 w x hv =>
    subst hv
    rw [VData.putInt16_type, if_neg (by decide), if_pos rfl, VData.wire_putInt16]
    exact starves_check (Nat.le_refl 2)
  | int32 w x hv =>
    subst hv
    rw [VData.putInt32_type, if_neg (by decide), if_neg (by decide), if_pos rfl,
      VData.wire_putInt32]
    exact starves_check (Nat.le_refl 4)
  | str w s hs hv =>
    subst hv
    rw [VData.putStr_type, if_neg (by decide), if_neg (by decide), if_neg (by decide), if_pos rfl,
      VData.wire_putStr]
    refine .bind (reads_getInt16 _) (starves_getInt16 _) ?_
    rw [lengthOfNat hs]
    exact (starves_raw s).last

theorem DevInfo.starves_decode {v : DevInfo} (h : v.name.length ≤ 65535) :
    Tape.Starves readingShort failed DevInfo.decode v.wire := by
  refine .counted (.bind (reads_getInt32 v.addr) (starves_getInt32 _)
    (.bind (reads_getInt16 _) (starves_getInt16 _) ?_))
  rw [lengthOfNat h]
  exact .bind (reads_raw v.name) (starves_raw v.name) (.bind (reads_getInt32 v.state)
    (starves_getInt32 _) (starves_getInt32 v.type).last)

theorem Msg.starves_decode (m : Msg) : Tape.Starves readingShort failed (value Msg.decode) m.wire :=
  starves_value (.counted (.bind (reads_getInt32 m.header.seq) (starves_getInt32 _)
    (starves_getInt32 m.header.type).last))

theorem starves_decodeList {α β : Type} {decode : Code β} {wire : α → List UInt8} {val : α → β}
    {list : List α} (hlen : list.length ≤ 65535)
    (hreads : ∀ x ∈ list, reading.Passes decode (wire x) (val x))
    (h : ∀ x ∈ list, Tape.Starves readingShort failed decode (wire x)) :
    Tape.Starves readingShort failed (decodeList decode []) (listWire wire list) := by
  refine .bind (reads_getInt16 _) (starves_getInt16 _) ?_
  rw [lengthOfNat hlen]
  exact .times hreads h

namespace AnyMsg

theorem starves_values {list : List TLV} (h : SendableValues list) :
    Tape.Starves readingShort failed (decodeList (value TLV.new.decode) [])
      (listWire TLV.wire list) :=
  starves_decodeList h.1 (fun v hv => reads_value (TLV.reads_decode (h.2 v hv)))
    fun v hv => starves_value (TLV.starves_decode (h.2 v hv))

/-- A header, and what comes behind it. -/
theorem starves_message {α β : Type} (hdr : Msg) {f : α → AnyMsg} {c : Msg → Code β}
    {g : Msg → β → α} {bs : List UInt8} (hc : Tape.Starves readingShort failed (c hdr) bs) :
    Tape.Starves readingShort failed (wrap f (decoding do
      let header ← value Msg.decode
      let x ← c header
      return g header x)) (hdr.wire ++ bs) := by
  apply Tape.Starves.last
  apply Tape.Starves.counted
  exact .bind (Msg.reads_decode hdr) (Msg.starves_decode hdr) hc.last

/-- A header alone. -/
theorem starves_header {α : Type} (hdr : Msg) {f : α → AnyMsg} {g : Msg → α} :
    Tape.Starves readingShort failed (wrap f (decoding do return g (← value Msg.decode)))
      (hdr.wire ++ []) := by
  rw [List.append_nil]
  apply Tape.Starves.last
  apply Tape.Starves.counted
  exact (Msg.starves_decode hdr).last

/-- **Each class's decoder** fails on the first bytes of a message. -/
theorem starves_decode {m : AnyMsg} (h : m.Sendable) (seq : UInt32) (status : UInt16) :
    Tape.Starves readingShort failed (m.fresh seq status).decode m.wire := by
  cases m with
  | heartbeat m => exact starves_header m.toMsg
  | getDevListReq m => exact starves_header m.toMsg
  | getDevListRsp m =>
    apply starves_message m.toMsg
    exact starves_decodeList h.1 (fun d hd => reads_value (DevInfo.reads_decode (h.2 d hd)))
      fun d hd => starves_value (DevInfo.starves_decode (h.2 d hd))
  | getReq m =>
    apply starves_message m.toMsg
    exact starves_decodeList h (fun id _ => (reads_getInt32 id.toUInt32).last)
      fun id _ => (starves_getInt32 id.toUInt32).last
  | getRsp m => exact starves_message m.toMsg (starves_values h)
  | setReq m => exact starves_message m.toMsg (starves_values h)
  | setRsp m => exact starves_message m.toMsg (starves_getInt16 m.status)

/-! ## Truncation -/

/-- The buffer turned round, with the position where the writing began. -/
def turned (b b' : ZByteBuffer) : ZByteBuffer :=
  { b'.flip with
    pos := min b.pos b'.pos
    pos_le := Nat.min_le_right _ _ }

theorem turned_unread {b b' : ZByteBuffer} {bs : List UInt8} (h : b'.held = b.held ++ bs) :
    (turned b b').unread = bs := by
  have hpos := pos_of_held h
  have hmin : min b.pos b'.pos = b.pos := Nat.min_eq_left (by omega)
  have hheld : (b'.buf.take b'.pos).drop b.held.length = bs := by
    show b'.held.drop b.held.length = bs
    rw [h, List.drop_left]
  rw [ZDataBuffer.held_length, List.drop_take] at hheld
  show (b'.buf.drop (min b.pos b'.pos)).take (b'.pos - min b.pos b'.pos) = bs
  rw [hmin]
  exact hheld

/-- Encoding fails and says so, or the bytes it wrote decode to the message. -/
def Truthful (m : AnyMsg) (b : ZByteBuffer) : Prop :=
  m.encode b = .error (.err (-1)) ∨
    ∃ n b', m.encode b = .ok (n, b') ∧ ∀ seq status, ∃ k m' b'',
      (m.fresh seq status).decode (turned b b') = .ok ((k, m'), b'') ∧
        m'.toMsg.header = m.toMsg.header ∧ m'.payload = m.payload

/-- The room ends inside of what the encoder does not check: of a byte, or of a string, that is the
    last of a message's values. -/
def CutOff (m : AnyMsg) (room : Nat) : Prop :=
  room < m.wire.length ∧ m.wire.length ≤ room + m.loose

/-- Cut off, the bytes are only the first of the message. -/
theorem not_truthful_of_cutOff {m : AnyMsg} (hm : m.Sendable) {b : ZByteBuffer}
    (h : m.CutOff b.remaining) : ¬ m.Truthful b := by
  obtain ⟨hshort, hloose⟩ := h
  obtain ⟨n, b', hrun, hheld, _⟩ := (cuts_encode hm).moves b hloose
  have hfirst : readingShort.Short m.wire (turned b b') := by
    refine ⟨m.wire.drop b.remaining, ?_, ?_⟩
    · intro hnil
      exact absurd (List.drop_eq_nil_iff.mp hnil) (Nat.not_le.mpr hshort)
    · rw [turned_unread hheld]
      exact (List.take_append_drop _ _).symm
  have hstarved := starves_decode hm 0 0 _ hfirst
  rintro (herr | ⟨n', b₁, hrun', hdecode⟩)
  · rw [hrun] at herr
    cases herr
  · obtain ⟨_, rfl⟩ := Prod.mk.inj (Except.ok.inj (hrun.symm.trans hrun'))
    obtain ⟨k, m', b'', hok, _⟩ := hdecode 0 0
    rw [hstarved] at hok
    cases hok

/-- With room for all of it the message comes back. -/
theorem truthful_of_room {m : AnyMsg} (hm : m.Sendable) {b : ZByteBuffer}
    (h : m.wire.length ≤ b.remaining) : m.Truthful b := by
  obtain ⟨b', hrun, hheld, _⟩ := writes_encode hm b h
  refine Or.inr ⟨_, b', hrun, fun seq status => ?_⟩
  obtain ⟨m', hreads, hheader, hpayload⟩ := reads_decode hm seq status
  have hall := turned_unread hheld
  obtain ⟨b'', hdecode, _⟩ := hreads (turned b b') ⟨[], by rw [hall, List.append_nil]⟩
  exact ⟨_, m', b'', hdecode, hheader, hpayload⟩

/-- **Truncation.**  Whatever the room, `encode` fails or writes a message that decodes to the one
    given, exactly if the room does not end inside of a last value that is a byte or a string. -/
theorem encode_truthful_iff {m : AnyMsg} (hm : m.Sendable) (b : ZByteBuffer) :
    m.Truthful b ↔ ¬ m.CutOff b.remaining := by
  constructor
  · exact fun h hcut => not_truthful_of_cutOff hm hcut h
  · intro hno
    rcases Nat.lt_or_ge b.remaining m.wire.length with hshort | hfits
    · apply Or.inl
      apply (cuts_encode hm).fails
      show b.remaining + m.loose < m.wire.length
      by_contra hle
      exact hno ⟨hshort, Nat.not_lt.mp hle⟩
    · exact truthful_of_room hm hfits

/-- An answer with one byte, as its only value. -/
def byteRsp : AnyMsg := .getRsp ⟨Msg.new GET_RSP 7, [⟨1, VData.new.putByte 5⟩]⟩

theorem byteRsp_sendable : byteRsp.Sendable := by
  refine ⟨by decide, fun v hv => ?_⟩
  obtain rfl := List.mem_singleton.mp hv
  exact .byte VData.new 5 rfl

theorem byteRsp_truthful :
    byteRsp.Truthful (ZDataBuffer.new (List.replicate 15 0)) ↔
      ¬ byteRsp.CutOff (ZDataBuffer.new (List.replicate 15 (0 : UInt8))).remaining :=
  encode_truthful_iff byteRsp_sendable _

/-- It takes 15 bytes.  In a buffer of 14 it is said to have been written, and does not decode. -/
theorem byteRsp_not_truthful :
    ¬ byteRsp.Truthful (ZDataBuffer.new (List.replicate 14 0)) :=
  not_truthful_of_cutOff byteRsp_sendable ⟨by decide, by decide⟩

end AnyMsg

end PushCodec

end Monsys

/-
  The list of item descriptions there and back.

  A description carries three strings.  One without a zero byte, and short enough for a 16-bit
  length, is `Clean`: it is read back to its end.  So is a list of descriptions, in order; but the
  vector decoder, which has counted the count byte with its first call, adds one for it again at
  its end, and so returns one more than was written (`decode_one_more`), whatever the list.
-/
import Monsys.ZigBeeLayout

namespace Monsys

open Wire

/-! ## Strings that come back -/

/-- A string that its bytes end: no zero in it, and its length short of what wraps. -/
def CleanString (s : List UInt8) : Prop := 0 ∉ s ∧ s.length ≤ 65534

def ZbItemIdInfo.Clean (v : ZbItemIdInfo) : Prop :=
  CleanString v.name ∧ CleanString v.desc ∧ CleanString v.formatter

theorem CleanString.bytes_eq {s : List UInt8} (h : CleanString s) : stringBytes s = s ++ [0] := by
  have hle := h.2
  rw [stringBytes, Nat.mod_eq_of_lt (by omega), List.take_length]

/-- The scan runs to the zero byte. -/
theorem scanString_clean {bufLen : Nat} (rest : List UInt8) : ∀ (s : List UInt8) (len : Nat),
    0 ∉ s → len + s.length < 2 ^ 16 → len + s.length ≤ bufLen →
    scanString bufLen len (s ++ 0 :: rest) = .ok (len + s.length) := by
  intro s
  induction s with
  | nil =>
    intro len _ _ _
    rw [List.nil_append, scanString, if_neg (fun h => h.1 rfl)]
    rfl
  | cons b s ih =>
    intro len hclean hlt hle
    rw [List.length_cons] at hlt hle
    have hb : b ≠ 0 := fun h => hclean (h ▸ List.mem_cons_self)
    have hs : 0 ∉ s := fun h => hclean (List.mem_cons_of_mem b h)
    rw [List.cons_append, scanString, if_pos ⟨hb, by omega⟩, Nat.mod_eq_of_lt (by omega),
      ih (len + 1) hs (by omega) (by omega), List.length_cons]
    congr 1
    omega

theorem decodeString_reads {s : List UInt8} (h : CleanString s) :
    Reads decodeString (stringBytes s) s := by
  intro rest n hn hle
  have hlen := h.2
  rw [h.bytes_eq, List.length_append, List.length_singleton] at hle ⊢
  have hscan : scanString n 0 (s ++ [0] ++ rest) = .ok s.length := by
    rw [List.append_assoc, List.singleton_append, scanString_clean rest s 0 h.1 (by omega) (by omega),
      Nat.zero_add]
  have htake : (s ++ [0] ++ rest).take s.length = s := by
    rw [List.append_assoc]
    exact List.take_left
  have hroom : ¬ subU32 n 1 < s.length := by
    rw [subU32_of_le hn (by omega)]
    omega
  rw [decodeString, hscan]
  show (failIf (n ≤ s.length) >>= fun _ => failIf (subU32 n 1 < s.length) >>= fun _ =>
    pure ((s.length : Int) + 1, (s ++ [0] ++ rest).take s.length)) = _
  rw [failIf, if_neg (by omega), failIf, if_neg hroom, htake]
  rfl

/-! ## Descriptions that come back -/

theorem decodeItemIdInfo_reads {v : ZbItemIdInfo} (h : v.Clean) :
    Reads decodeItemIdInfo (itemIdInfoBytes v) v := by
  obtain ⟨hname, hdesc, hfmt⟩ := h
  refine Reads.start (zDecodeByte_reads _) ?_
  refine Takes.call (decodeString_reads hname) ?_
  refine Takes.call (decodeString_reads hdesc) ?_
  refine Takes.call (zDecodeByte_reads _) ?_
  refine Takes.call (decodeString_reads hfmt) ?_
  exact Takes.ret v

/-- The bytes of a list of descriptions on the wire. -/
def idListBytes (vs : List ZbItemIdInfo) : List UInt8 :=
  UInt8.ofNat vs.length :: vs.flatMap itemIdInfoBytes

/-- A list that a count byte can count is read back, and one byte more is said to have been. -/
theorem decodeVector_one_more {vs : List ZbItemIdInfo} (hclean : ∀ v ∈ vs, v.Clean)
    (hcount : vs.length ≤ 255) (rest : List UInt8) {n : Nat} (hn : n < 2 ^ 32)
    (hle : (idListBytes vs).length ≤ n) :
    decodeVector decodeItemIdInfo (idListBytes vs ++ rest) n =
      .ok ((idListBytes vs).length + 1, vs) := by
  have hlen : (idListBytes vs).length = 1 + (vs.flatMap itemIdInfoBytes).length := by
    rw [idListBytes, List.length_cons, Nat.add_comm]
  rw [hlen] at hle ⊢
  have hbyte : (Reader.start (idListBytes vs ++ rest) n).call zDecodeByte =
      .ok (UInt8.ofNat vs.length, ⟨vs.flatMap itemIdInfoBytes ++ rest, n - 1, 0 + 1⟩) :=
    Reader.call_reads (zDecodeByte_reads _) hn (show 1 ≤ n by omega)
  have htimes := @Reader.times_reads _ decodeItemIdInfo itemIdInfoBytes rest vs [] (n - 1) (0 + 1)
    (fun v hv => decodeItemIdInfo_reads (hclean v hv)) (by omega) (by omega)
  rw [decodeVector, hbyte]
  show ((Reader.mk (vs.flatMap itemIdInfoBytes ++ rest) (n - 1) (0 + 1)).times decodeItemIdInfo []
    (UInt8.ofNat vs.length).toNat >>= fun p => pure (1 + p.2.len, p.1)) = _
  rw [count_toNat hcount, htimes]
  show Except.ok (1 + (0 + 1 + ((vs.flatMap itemIdInfoBytes).length : Int)), [] ++ vs) = _
  rw [List.nil_append]
  congr 2
  push_cast
  omega

/-! ## Lists and messages that come back -/

/-- What `encode` writes of a list, with anything behind it, is decoded to the list, and `decode`
    returns `more` than was written. -/
def IdListComesBack (vs : List ZbItemIdInfo) (n : Nat) (more : Int) : Prop :=
  let w := encodeVector encodeItemIdInfo vs n
  w.rv = w.out.length ∧
    ∀ following : List UInt8,
      let buf := w.out ++ following
      buf.length < 2 ^ 32 →
        decodeVector decodeItemIdInfo buf buf.length = .ok (w.out.length + more, vs)

/-- What `encode` writes of a message behind the sync bytes, with anything behind it, is decoded to
    the message, and `decode` returns `more` than was written. -/
def ZZBUpdateIdInfoReq.ComesBack (m : ZZBUpdateIdInfoReq) (n : Nat) (more : Int) : Prop :=
  let w := (m.encode n).2
  w.rv = w.out.length ∧
    ∀ following : List UInt8,
      let buf := w.out.drop 8 ++ following
      buf.length < 2 ^ 32 → decode buf buf.length = .ok (w.out.length - 8 + more, m)

theorem idListBytes_length_lt {vs : List ZbItemIdInfo} (hcount : vs.length ≤ 255) :
    (idListBytes vs).length < 2 ^ 30 := by
  have hitem : ∀ v : ZbItemIdInfo, (itemIdInfoBytes v).length ≤ 2 + 3 * 2 ^ 16 := by
    intro v
    have h1 := stringBytes_length_le v.name
    have h2 := stringBytes_length_le v.desc
    have h3 := stringBytes_length_le v.formatter
    simp only [itemIdInfoBytes, List.length_append, List.length_singleton, List.length_nil]
    omega
  have hall : (vs.flatMap itemIdInfoBytes).length ≤ vs.length * (2 + 3 * 2 ^ 16) := by
    clear hcount
    induction vs with
    | nil => exact Nat.zero_le _
    | cons v vs ih =>
      have hv := hitem v
      rw [List.flatMap_cons, List.length_append, List.length_cons, Nat.succ_mul]
      omega
  rw [idListBytes, List.length_cons]
  omega

theorem encodeIdList_emits {vs : List ZbItemIdInfo} (hcount : vs.length ≤ 255) :
    Emits (encodeVector encodeItemIdInfo vs) (idListBytes vs) := by
  have hlt := idListBytes_length_lt hcount
  exact encodeCalls_emits (Spells.cons (zEncodeByte_emits _) (Spells.map encodeItemIdInfo_emits vs))
    (by omega)

theorem idList_one_more {vs : List ZbItemIdInfo} (hclean : ∀ v ∈ vs, v.Clean)
    (hcount : vs.length ≤ 255) {n : Nat} (hn : n < 2 ^ 32) (hroom : (idListBytes vs).length ≤ n) :
    IdListComesBack vs n 1 := by
  have hw := (encodeIdList_emits hcount).fits n hn hroom
  simp only [IdListComesBack, hw]
  refine ⟨trivial, fun following hbuf => ?_⟩
  exact decodeVector_one_more hclean hcount following hbuf
    (List.prefix_append _ following).length_le

namespace ZZBUpdateIdInfoReq

theorem encode_fits {m : ZZBUpdateIdInfoReq} (hcount : m.idList.length ≤ 255) {n : Nat}
    (hn : n < 2 ^ 32) (hroom : 14 + (idListBytes m.idList).length ≤ n) :
    (m.encode n).2 = ⟨(ZbMsg.frame m.toZZigBeeMsg (idListBytes m.idList)).length,
      ZbMsg.frame m.toZZigBeeMsg (idListBytes m.idList)⟩ := by
  have hlt := idListBytes_length_lt hcount
  have hemits := encodeCalls_emits (message_spells m.toZZigBeeMsg
    (Spells.single (encodeIdList_emits hcount))) (by rw [ZbMsg.frame_length]; omega)
  exact hemits.fits n hn (by rw [ZbMsg.frame_length]; exact hroom)

/-- The message decoder adds up what the header's and the list's return. -/
theorem decode_one_more {m : ZZBUpdateIdInfoReq} (hclean : ∀ v ∈ m.idList, v.Clean)
    (hcount : m.idList.length ≤ 255) (rest : List UInt8) {n : Nat} (hn : n < 2 ^ 32)
    (hle : 6 + (idListBytes m.idList).length ≤ n) :
    decode (m.toZZigBeeMsg.bytes ++ (idListBytes m.idList ++ rest)) n =
      .ok (6 + (idListBytes m.idList).length + 1, m) := by
  have hheader : (Reader.start (m.toZZigBeeMsg.bytes ++ (idListBytes m.idList ++ rest)) n).call
      ZZigBeeMsg.decode = .ok (m.toZZigBeeMsg, ⟨idListBytes m.idList ++ rest, n - 6, 0 + 6⟩) :=
    Reader.call_reads (header_reads _) hn (show 6 ≤ n by omega)
  have hlist := decodeVector_one_more hclean hcount rest (show n - 6 < 2 ^ 32 by omega) (by omega)
  rw [decode, hheader]
  show ((Reader.mk (idListBytes m.idList ++ rest) (n - 6) (0 + 6)).call
    (decodeVector decodeItemIdInfo) >>= fun p =>
      pure (p.2.len, ZZBUpdateIdInfoReq.mk m.toZZigBeeMsg p.1)) = _
  rw [Reader.call, hlist]
  simp only [Except.bind]
  rw [if_neg (by omega)]
  show Except.ok (0 + 6 + (((idListBytes m.idList).length : Int) + 1), _) = _
  rw [Int.zero_add, Int.add_assoc]

theorem one_more {m : ZZBUpdateIdInfoReq} (hclean : ∀ v ∈ m.idList, v.Clean)
    (hcount : m.idList.length ≤ 255) {n : Nat} (hn : n < 2 ^ 32)
    (hroom : 14 + (idListBytes m.idList).length ≤ n) : m.ComesBack n 1 := by
  have hw := encode_fits hcount hn hroom
  simp only [ComesBack, hw]
  refine ⟨trivial, fun following hbuf => ?_⟩
  have hdrop : (ZbMsg.frame m.toZZigBeeMsg (idListBytes m.idList)).drop 8 ++ following =
      m.toZZigBeeMsg.bytes ++ (idListBytes m.idList ++ following) := by
    rw [ZbMsg.frame, List.append_assoc, List.drop_append_of_le_length (Nat.le_refl 8),
      List.append_assoc]
    rfl
  rw [hdrop] at hbuf ⊢
  have hle : 6 + (idListBytes m.idList).length ≤
      (m.toZZigBeeMsg.bytes ++ (idListBytes m.idList ++ following)).length := by
    rw [List.length_append, List.length_append, ZZigBeeMsg.bytes_length]
    omega
  rw [decode_one_more hclean hcount following hbuf hle, ZbMsg.frame_length]
  congr 2
  push_cast
  omega

end ZZBUpdateIdInfoReq

/-- `decode` cannot return both what was written and one more. -/
theorem IdListComesBack.not_exact {vs : List ZbItemIdInfo} {n : Nat} (h : IdListComesBack vs n 1)
    (hlen : (encodeVector encodeItemIdInfo vs n).out.length < 2 ^ 32) : ¬ IdListComesBack vs n 0 := by
  intro hexact
  have hbuf : ((encodeVector encodeItemIdInfo vs n).out ++ []).length < 2 ^ 32 := by
    rwa [List.append_nil]
  have hsame := (h.2 [] hbuf).symm.trans (hexact.2 [] hbuf)
  simp only [Except.ok.injEq, Prod.mk.injEq] at hsame
  omega

theorem ZZBUpdateIdInfoReq.ComesBack.not_exact {m : ZZBUpdateIdInfoReq} {n : Nat}
    (h : m.ComesBack n 1) (hlen : (m.encode n).2.out.length < 2 ^ 32) : ¬ m.ComesBack n 0 := by
  intro hexact
  have hbuf : ((m.encode n).2.out.drop 8 ++ []).length < 2 ^ 32 := by
    rw [List.append_nil, List.length_drop]
    omega
  have hsame := (h.2 [] hbuf).symm.trans (hexact.2 [] hbuf)
  simp only [Except.ok.injEq, Prod.mk.injEq] at hsame
  omega

/-- **The list comes back, and its length does not.**  A list of clean descriptions, and a message
    that carries it, are decoded to what they were; `decode` says that it has read one byte more
    than `encode` wrote, always. -/
theorem idInfo_comes_back_one_more (m : ZZBUpdateIdInfoReq) (hclean : ∀ v ∈ m.idList, v.Clean)
    (hcount : m.idList.length ≤ 255) {n : Nat} (hn : n < 2 ^ 32) :
    ((idListBytes m.idList).length ≤ n →
      IdListComesBack m.idList n 1 ∧ ¬ IdListComesBack m.idList n 0) ∧
    (14 + (idListBytes m.idList).length ≤ n → m.ComesBack n 1 ∧ ¬ m.ComesBack n 0) := by
  have hlt := idListBytes_length_lt hcount
  constructor
  · intro hroom
    have hmore := idList_one_more hclean hcount hn hroom
    refine ⟨hmore, hmore.not_exact ?_⟩
    rw [(encodeIdList_emits hcount).fits n hn hroom]
    show (idListBytes m.idList).length < _
    omega
  · intro hroom
    have hmore := ZZBUpdateIdInfoReq.one_more hclean hcount hn hroom
    refine ⟨hmore, hmore.not_exact ?_⟩
    rw [ZZBUpdateIdInfoReq.encode_fits hcount hn hroom]
    show (ZbMsg.frame m.toZZigBeeMsg (idListBytes m.idList)).length < _
    rw [ZbMsg.frame_length]
    omega

/-- A lamp, described. -/
def lampInfo : ZbItemIdInfo := ⟨0x34, [0x6C], [0x67, 0x6F], 8, []⟩

theorem idInfo_comes_back_lamp :
    let m : ZZBUpdateIdInfoReq := ⟨⟨1, 0, zIdZbUpdateIdReq, 9⟩, [lampInfo]⟩
    (IdListComesBack m.idList 64 1 ∧ ¬ IdListComesBack m.idList 64 0) ∧
      m.ComesBack 64 1 ∧ ¬ m.ComesBack 64 0 := by
  have hclean : ∀ v ∈ [lampInfo], v.Clean := by
    intro v hv
    obtain rfl := List.mem_singleton.mp hv
    refine ⟨⟨?_, ?_⟩, ⟨?_, ?_⟩, ⟨?_, ?_⟩⟩ <;> decide
  obtain ⟨hlist, hmessage⟩ := idInfo_comes_back_one_more ⟨⟨1, 0, zIdZbUpdateIdReq, 9⟩, [lampInfo]⟩
    hclean (by decide) (show 64 < 2 ^ 32 by decide)
  exact ⟨hlist (by decide), hmessage (by decide)⟩

/-- One byte is written of an empty list, and `decode` returns 2. -/
theorem empty_idList_not_exact :
    encodeVector encodeItemIdInfo [] 1 = ⟨1, [0]⟩ ∧
    decodeVector decodeItemIdInfo [0] 1 = .ok (2, []) ∧ ¬ IdListComesBack [] 1 0 := by
  refine ⟨by decide, by rfl, ?_⟩
  rintro ⟨_, hexact⟩
  have hread : decodeVector decodeItemIdInfo [0] 1 = .ok (1, []) :=
    hexact [] (show 1 < 2 ^ 32 by decide)
  have hmore : decodeVector decodeItemIdInfo [0] 1 = .ok (2, []) := rfl
  rw [hmore] at hread
  exact absurd hread (by simp)

end Monsys

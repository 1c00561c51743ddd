/-
  Decoders and the ends of their buffers.

  A buffer of `buf_len` bytes is all the memory there is.  Most decoders look at the room that is
  left before they read.  Four do not: that of `std::string` goes on to the zero byte, wherever that
  is, and so does `z_decode_string`; `ZZBGetReq::decode` reads as many items as the count says; and
  that of `std::vector` says that it has read one byte more than it has.

  1. **Scans** — what the decoders of each type go over.
  2. **Vectors** — `decodeVector_inBounds_iff`.
  3. **Messages** — `ZbMsg.Confined`: the buffers that a class's decoder stays inside of.
-/
import Monsys.Lib.Scan
import Monsys.CodecTypes
import Monsys.ZigBeeLayout

namespace Monsys

open Wire

/-! ## Scans -/

theorem zDecodeByte_follows : Follows zDecodeByte (.fixed 1) := by
  intro buf _
  cases buf with
  | nil => exact .short trivial (show 0 < 1 by omega) (-1)
  | cons b rest =>
    exact .takes trivial (show ¬ rest.length + 1 < 1 by omega) 1 (Nat.le_add_left 1 _) rfl b

theorem zDecodeInteger16_follows : Follows zDecodeInteger16 (.fixed 2) := by
  intro buf _
  match buf with
  | [] => exact .short trivial (show 0 < 2 by omega) (-1)
  | [b] => exact .short trivial (show 1 < 2 by omega) (-1)
  | hi :: lo :: rest =>
    exact .takes trivial (show ¬ rest.length + 2 < 2 by omega) 2 (Nat.le_add_left 2 _) rfl
      (ofBe16 hi lo)

theorem zDecodeInteger32_follows : Follows zDecodeInteger32 (.fixed 4) := by
  intro buf _
  match buf with
  | [] => exact .short trivial (show 0 < 4 by omega) (-1)
  | [_] => exact .short trivial (show 1 < 4 by omega) (-1)
  | [_, _] => exact .short trivial (show 2 < 4 by omega) (-1)
  | [_, _, _] => exact .short trivial (show 3 < 4 by omega) (-1)
  | b₃ :: b₂ :: b₁ :: b₀ :: rest =>
    exact .takes trivial (show ¬ rest.length + 4 < 4 by omega) 4 (Nat.le_add_left 4 _) rfl
      (ofBe32 b₃ b₂ b₁ b₀)

theorem byte_call (b : UInt8) {rest : List UInt8} (len : Int) (h : rest.length + 1 < 2 ^ 32) :
    (Reader.whole (b :: rest) len).call zDecodeByte = .ok (b, Reader.whole rest (len + 1)) := by
  show Except.ok (b, Reader.mk rest (subU32 (rest.length + 1) 1) (len + 1)) = _
  rw [subU32_of_le h (by omega)]
  rfl

/-- A string ends at the first zero byte.  How far that is, is counted in 16 bits. -/
def stringScan : Scan where
  closed buf := 0 ∈ buf
  short _ := False
  after buf := buf.drop (buf.idxOf 0 % 2 ^ 16 + 1)

theorem scanString_of_mem {bufLen : Nat} : ∀ (buf : List UInt8) (len : Nat), 0 ∈ buf →
    len < 2 ^ 16 → len + buf.idxOf 0 ≤ bufLen →
    scanString bufLen len buf = .ok ((len + buf.idxOf 0) % 2 ^ 16) := by
  intro buf
  induction buf with
  | nil => exact fun _ hmem => absurd hmem List.not_mem_nil
  | cons b rest ih =>
    intro len hmem hlt hle
    by_cases hb : b = 0
    · subst hb
      rw [scanString, if_neg (fun h => h.1 rfl), List.idxOf_cons_self, Nat.add_zero,
        Nat.mod_eq_of_lt hlt]
    · have hrest : 0 ∈ rest := (List.mem_cons.mp hmem).resolve_left (Ne.symm hb)
      have hidx : (b :: rest).idxOf 0 = rest.idxOf 0 + 1 := List.idxOf_cons_ne rest hb
      rw [hidx] at hle ⊢
      rw [scanString, if_pos ⟨hb, by omega⟩,
        ih ((len + 1) % 2 ^ 16) hrest (Nat.mod_lt _ (by decide)) (by omega)]
      congr 1
      omega

theorem scanString_of_not_mem {bufLen : Nat} : ∀ (buf : List UInt8) (len : Nat), 0 ∉ buf →
    len + buf.length ≤ bufLen → scanString bufLen len buf = .error .fault := by
  intro buf
  induction buf with
  | nil => exact fun _ _ _ => rfl
  | cons b rest ih =>
    intro len hmem hle
    rw [List.length_cons] at hle
    have hb : b ≠ 0 := fun h => hmem (h ▸ List.mem_cons_self)
    rw [scanString, if_pos ⟨hb, by omega⟩,
      ih ((len + 1) % 2 ^ 16) (fun h => hmem (List.mem_cons_of_mem b h)) (by omega)]

theorem decodeString_follows : Follows decodeString stringScan := by
  intro buf hbuf
  by_cases hmem : (0 : UInt8) ∈ buf
  · have hidx := List.idxOf_lt_length_of_mem hmem
    let k := buf.idxOf 0 % 2 ^ 16
    have hk : k < buf.length := by show buf.idxOf 0 % 2 ^ 16 < _; omega
    have hscan : scanString buf.length 0 buf = .ok k := by
      rw [scanString_of_mem buf 0 hmem (by decide) (by omega), Nat.zero_add]
    have hroom : ¬ subU32 buf.length 1 < k := by
      rw [subU32_of_le hbuf (by omega)]
      omega
    have hread : decodeString buf buf.length = .ok (0 + (k + 1 : Nat), buf.take k) := by
      rw [decodeString, hscan]
      show (failIf (buf.length ≤ k) >>= fun _ => failIf (subU32 buf.length 1 < k) >>= fun _ =>
        pure ((k : Int) + 1, buf.take k)) = _
      rw [failIf, if_neg (by omega), failIf, if_neg hroom, Int.zero_add]
      rfl
    rw [hread]
    exact .takes hmem not_false (k + 1) hk rfl _
  · rw [decodeString, scanString_of_not_mem buf 0 hmem (by omega)]
    exact .outside hmem

def itemIdInfoScan : Scan :=
  (Scan.fixed 1).andThen (stringScan.andThen (stringScan.andThen
    ((Scan.fixed 1).andThen (stringScan.andThen .done))))

theorem decodeItemIdInfo_follows : Follows decodeItemIdInfo itemIdInfoScan := by
  refine Runs.follows (Runs.call zDecodeByte_follows fun id => ?_)
  refine Runs.call decodeString_follows fun name => ?_
  refine Runs.call decodeString_follows fun desc => ?_
  refine Runs.call zDecodeByte_follows fun type => ?_
  refine Runs.call decodeString_follows fun formatter => ?_
  exact Runs.ret _

def headerScan : Scan :=
  (Scan.fixed 1).andThen ((Scan.fixed 1).andThen ((Scan.fixed 2).andThen
    ((Scan.fixed 1).andThen ((Scan.fixed 2).andThen .done))))

theorem decodeHeader_follows : Follows decodeHeader headerScan := by
  refine Runs.follows (Runs.call zDecodeByte_follows fun syn => ?_)
  refine Runs.call zDecodeByte_follows fun ver => ?_
  refine Runs.call zDecodeInteger16_follows fun len => ?_
  refine Runs.call zDecodeByte_follows fun cmd => ?_
  refine Runs.call zDecodeInteger16_follows fun addr => ?_
  exact Runs.ret _

namespace ElemType

/-- `decode`, into a value of the decoder's own.  That of `fixed_binary_t` wants to be told where to
    and how much, by the value it is given. -/
def decode : (t : ElemType) → t ≠ fixedBinary → Decoder t.Val
  | byte, _ => zDecodeByte
  | integer16, _ => zDecodeInteger16
  | integer32, _ => zDecodeInteger32
  | string, _ => decodeString
  | fixedBinary, h => absurd rfl h
  | itemIdInfo, _ => decodeItemIdInfo
  | header, _ => decodeHeader

/-- What `decode` goes over. -/
def scan : ElemType → Scan
  | byte => .fixed 1
  | integer16 => .fixed 2
  | integer32 => .fixed 4
  | string => stringScan
  | fixedBinary => .done
  | itemIdInfo => itemIdInfoScan
  | header => headerScan

theorem decode_follows (t : ElemType) (ht : t ≠ fixedBinary) : Follows (t.decode ht) t.scan :=
  match t with
  | byte => zDecodeByte_follows
  | integer16 => zDecodeInteger16_follows
  | integer32 => zDecodeInteger32_follows
  | string => decodeString_follows
  | fixedBinary => absurd rfl ht
  | itemIdInfo => decodeItemIdInfo_follows
  | header => decodeHeader_follows

end ElemType

/-! ## Vectors -/

/-- The count byte and its elements, before the count byte is counted again. -/
theorem counted_follows {T : Type} {d : Decoder T} {s : Scan} (hd : Follows d s) :
    Follows (fun buf n => (Reader.start buf n).call zDecodeByte >>= fun (listLen, r) =>
      r.times d [] listLen.toNat >>= fun (v, r) => pure (r.len, v)) s.counted := by
  intro buf hbuf
  cases buf with
  | nil => exact .short trivial trivial (-1)
  | cons count rest =>
    rw [List.length_cons] at hbuf
    have hcall := byte_call count 0 hbuf
    have hmeets := @Runs.times (List T) T d s .done (fun (v, r) => pure (r.len, v)) hd
      (fun v => Runs.ret v) count.toNat [] rest 1 (by omega)
    show Meets s.counted (count :: rest) 0 ((Reader.whole (count :: rest) 0).call zDecodeByte >>= _)
    rw [hcall]
    change Meets s.counted (count :: rest) 0 ((Reader.whole rest 1).times d [] count.toNat >>= _)
    simp only at hmeets
    generalize (Reader.whole rest 1).times d [] count.toNat >>= _ = outcome at hmeets ⊢
    cases hmeets with
    | outside hopen => exact .outside hopen
    | short hclosed hshort rv =>
      have hclosed' : s.counted.closed (count :: rest) := hclosed
      exact .short hclosed' hshort rv
    | takes hclosed hfull k hk hafter v =>
      have hclosed' : s.counted.closed (count :: rest) := hclosed
      have hmeets : Meets s.counted (count :: rest) 0 (.ok (0 + (k + 1 : Nat), v)) :=
        .takes hclosed' hfull (k + 1) (Nat.succ_le_succ hk) hafter v
      rwa [Int.natCast_add, Int.zero_add, Int.add_comm] at hmeets

/-- What a vector's decoder stays inside of: its elements are in the buffer, and either they end
    too early or something is left behind them. -/
def VectorConfined (s : Scan) (buf : List UInt8) : Prop :=
  s.counted.closed buf ∧ (s.counted.short buf ∨ s.counted.after buf ≠ [])

/-- **Vectors.**  The value returned is one too high, so that a vector that ends where the buffer
    does is out of bounds. -/
theorem decodeVector_inBounds_iff {T : Type} {d : Decoder T} {s : Scan} (hd : Follows d s)
    {buf : List UInt8} (hbuf : buf.length < 2 ^ 32) :
    InBounds (decodeVector d) buf ↔ VectorConfined s buf := by
  have hmeets := counted_follows hd buf hbuf
  have hvector : decodeVector d buf buf.length =
      (((Reader.start buf buf.length).call zDecodeByte >>= fun (listLen, r) =>
        r.times d [] listLen.toNat >>= fun (v, r) => pure (r.len, v)).map
        fun (rv, v) => (1 + rv, v)) := by
    rw [decodeVector]
    cases (Reader.start buf buf.length).call zDecodeByte with
    | error stop => rfl
    | ok p =>
      obtain ⟨listLen, r⟩ := p
      show (r.times d [] listLen.toNat >>= _) = (r.times d [] listLen.toNat >>= _).map _
      cases r.times d [] listLen.toNat <;> rfl
  unfold InBounds VectorConfined
  rw [hvector]
  simp only at hmeets
  generalize (Reader.start buf buf.length).call zDecodeByte >>= _ = outcome at hmeets ⊢
  cases hmeets with
  | outside hopen => exact iff_of_false (fun hin => hin.1 rfl) fun h => hopen h.1
  | short hclosed hshort rv =>
    exact iff_of_true ⟨by simp [Except.map], fun _ _ heq => by cases heq⟩ ⟨hclosed, Or.inl hshort⟩
  | takes hclosed hfull k hk hafter v =>
    have hleft : s.counted.after buf ≠ [] ↔ k < buf.length := by
      rw [hafter, Ne, List.drop_eq_nil_iff, Nat.not_le]
    rw [or_iff_right hfull, hleft]
    -- what is returned is one more than what has been taken
    constructor
    · rintro ⟨_, hle⟩
      have hrv := hle (1 + (0 + k)) v rfl
      exact ⟨hclosed, by omega⟩
    · rintro ⟨_, hlt⟩
      refine ⟨by simp [Except.map], fun rv v' heq => ?_⟩
      simp only [Except.map, Except.ok.injEq, Prod.mk.injEq] at heq
      omega

/-! ## C strings -/

theorem zScanString_of_mem : ∀ (buf : List UInt8) (bufLen strLen : Nat), 0 ∈ buf →
    buf.idxOf 0 ≤ bufLen → zScanString bufLen strLen buf = .ok (strLen + buf.idxOf 0) := by
  intro buf
  induction buf with
  | nil => exact fun _ _ hmem => absurd hmem List.not_mem_nil
  | cons b rest ih =>
    intro bufLen strLen hmem hle
    by_cases hb : b = 0
    · subst hb
      rw [zScanString, if_neg (fun h => h.1 rfl), if_neg (fun h => h rfl), List.idxOf_cons_self]
      rfl
    · have hrest : 0 ∈ rest := (List.mem_cons.mp hmem).resolve_left (Ne.symm hb)
      have hidx : (b :: rest).idxOf 0 = rest.idxOf 0 + 1 := List.idxOf_cons_ne rest hb
      rw [hidx] at hle ⊢
      rw [zScanString, if_pos ⟨hb, by omega⟩, ih (bufLen - 1) (strLen + 1) hrest (by omega)]
      congr 1
      omega

theorem zScanString_of_not_mem : ∀ (buf : List UInt8) (strLen : Nat), 0 ∉ buf →
    zScanString buf.length strLen buf = .error .fault := by
  intro buf
  induction buf with
  | nil => exact fun _ _ => rfl
  | cons b rest ih =>
    intro strLen hmem
    have hb : b ≠ 0 := fun h => hmem (h ▸ List.mem_cons_self)
    rw [zScanString, if_pos ⟨hb, Nat.succ_pos _⟩, List.length_cons, Nat.add_sub_cancel]
    exact ih (strLen + 1) fun h => hmem (List.mem_cons_of_mem b h)

theorem zDecodeString_inBounds_iff (buf : List UInt8) : InBounds zDecodeString buf ↔ 0 ∈ buf := by
  unfold InBounds zDecodeString
  by_cases hmem : (0 : UInt8) ∈ buf
  · have hidx := List.idxOf_lt_length_of_mem hmem
    have hle := toInt32_le (buf.idxOf 0 + 1)
    rw [zScanString_of_mem buf _ 0 hmem (by omega), Nat.zero_add]
    refine iff_of_true ⟨by simp [bind, Except.bind, pure, Except.pure], fun rv v heq => ?_⟩ hmem
    simp only [bind, Except.bind, pure, Except.pure, Except.ok.injEq, Prod.mk.injEq] at heq
    omega
  · rw [zScanString_of_not_mem buf 0 hmem]
    exact iff_of_false (fun hin => hin.1 rfl) hmem

/-! ## Messages -/

/-- A header's six bytes. -/
def msgHeaderScan : Scan :=
  (Scan.fixed 1).andThen ((Scan.fixed 2).andThen ((Scan.fixed 1).andThen
    ((Scan.fixed 2).andThen .done)))

theorem ZZigBeeMsg.decode_follows : Follows ZZigBeeMsg.decode msgHeaderScan := by
  refine Runs.follows (Runs.call zDecodeByte_follows fun ver => ?_)
  refine Runs.call zDecodeInteger16_follows fun len => ?_
  refine Runs.call zDecodeByte_follows fun cmd => ?_
  refine Runs.call zDecodeInteger16_follows fun addr => ?_
  exact Runs.ret _

theorem msgHeaderScan_closed (buf : List UInt8) : msgHeaderScan.closed buf :=
  ⟨trivial, Or.inr ⟨trivial, Or.inr ⟨trivial, Or.inr ⟨trivial, Or.inr trivial⟩⟩⟩⟩

theorem decodeMac_follows : Follows decodeMac (.blind 8) := by
  intro buf _
  rw [decodeMac]
  split
  · rename_i hlen
    exact .takes hlen not_false 8 hlen rfl _
  · rename_i hlen
    exact .outside hlen

theorem peekByte_follows : Follows peekByte (.blind 1) := by
  intro buf _
  cases buf with
  | nil => exact .outside (show ¬ 1 ≤ 0 by omega)
  | cons b rest => exact .takes (Nat.le_add_left 1 _) not_false 1 (Nat.le_add_left 1 _) rfl b

def itemPairScan : Scan := (Scan.fixed 1).andThen ((Scan.fixed 2).andThen .done)

theorem decodeItemPair_follows : Follows decodeItemPair itemPairScan := by
  refine Runs.follows (Runs.call zDecodeByte_follows fun id => ?_)
  refine Runs.call zDecodeInteger16_follows fun val => ?_
  exact Runs.ret _

/-- A loop of looks at the room is closed. -/
theorem pairs_closed (k : Nat) (buf : List UInt8) : (itemPairScan.times k .done).closed buf := by
  induction k generalizing buf with
  | zero => exact trivial
  | succ k ih => exact ⟨⟨trivial, Or.inr ⟨trivial, Or.inr trivial⟩⟩, Or.inr (ih _)⟩

/-- A loop of bytes without a look at the room is closed if there are as many. -/
theorem bytes_closed_iff (k : Nat) (buf : List UInt8) :
    ((Scan.blind 1).times k .done).closed buf ↔ k ≤ buf.length := by
  induction k generalizing buf with
  | zero => exact iff_of_true trivial (Nat.zero_le _)
  | succ k ih =>
    show 1 ≤ buf.length ∧ (False ∨ ((Scan.blind 1).times k .done).closed (buf.drop 1)) ↔ _
    rw [false_or, ih, List.length_drop]
    omega

/-- A decoder that begins with the header is in bounds if its rest is, whatever the header says. -/
theorem message_inBounds {β : Type} {f : ZZigBeeMsg × Reader → Except Stop (Int × β)}
    (hf : ∀ (hdr : ZZigBeeMsg) (rest : List UInt8) (len : Int), rest.length < 2 ^ 32 →
      SafeAt (fun r => f (hdr, r)) rest len) {buf : List UInt8} (hbuf : buf.length < 2 ^ 32) :
    InBounds (fun buf n => (Reader.start buf n).call ZZigBeeMsg.decode >>= f) buf := by
  have hsafe : SafeAt (fun r => r.call ZZigBeeMsg.decode >>= f) buf 0 := by
    apply SafeAt.call ZZigBeeMsg.decode_follows hbuf (msgHeaderScan_closed buf)
    intro hdr k hk
    apply hf
    rw [List.length_drop]
    omega
  exact hsafe.inBounds

/-- A last call to a decoder that looks at the room. -/
theorem safeAt_last {β γ : Type} {d : Decoder γ} {k : Nat} (hd : Follows d (.fixed k)) (g : γ → β)
    {buf : List UInt8} (hbuf : buf.length < 2 ^ 32) (len : Int) :
    SafeAt (fun r => r.call d >>= fun (x, r') => pure (r'.len, g x)) buf len :=
  (safeAt_last_iff g buf len).mpr ((hd.inBounds_iff hbuf).mpr trivial)

/-- The header of a buffer of six bytes or more. -/
theorem header_call (ver hi lo cmd hi' lo' : UInt8) {rest : List UInt8}
    (hrest : rest.length + 6 < 2 ^ 32) :
    (Reader.start (ver :: hi :: lo :: cmd :: hi' :: lo' :: rest) (rest.length + 6)).call
      ZZigBeeMsg.decode = .ok (⟨ver, ofBe16 hi lo, cmd, ofBe16 hi' lo'⟩, Reader.whole rest 6) := by
  have hbytes : (ZZigBeeMsg.mk ver (ofBe16 hi lo) cmd (ofBe16 hi' lo')).bytes =
      [ver, hi, lo, cmd, hi', lo'] := by
    rw [ZZigBeeMsg.bytes, be16_ofBe16, be16_ofBe16]
    rfl
  have hcall := @Reader.call_reads _ ZZigBeeMsg.decode _ rest _ (rest.length + 6) 0
    (header_reads ⟨ver, ofBe16 hi lo, cmd, ofBe16 hi' lo'⟩) hrest
    (by rw [hbytes]; exact Nat.le_add_left 6 _)
  rw [hbytes] at hcall
  exact hcall

/-- A buffer is too short for a header, or begins with one. -/
theorem header_cases (buf : List UInt8) : buf.length < 6 ∨
    ∃ ver hi lo cmd hi' lo' rest, buf = ver :: hi :: lo :: cmd :: hi' :: lo' :: rest := by
  match buf with
  | ver :: hi :: lo :: cmd :: hi' :: lo' :: rest =>
    exact Or.inr ⟨ver, hi, lo, cmd, hi', lo', rest, rfl⟩
  | [] => exact Or.inl (show 0 < 6 by omega)
  | [_] => exact Or.inl (show 1 < 6 by omega)
  | [_, _] => exact Or.inl (show 2 < 6 by omega)
  | [_, _, _] => exact Or.inl (show 3 < 6 by omega)
  | [_, _, _, _] => exact Or.inl (show 4 < 6 by omega)
  | [_, _, _, _, _] => exact Or.inl (show 5 < 6 by omega)

/-- A buffer too short for a header. -/
theorem short_inBounds {β : Type} (f : ZZigBeeMsg × Reader → Except Stop (Int × β))
    {buf : List UInt8} (hlen : buf.length < 6) :
    InBounds (fun buf n => (Reader.start buf n).call ZZigBeeMsg.decode >>= f) buf := by
  have hcall := ZZigBeeMsg.decode_follows.call (show buf.length < 2 ^ 32 by omega) 0
  have hstart : Reader.start buf buf.length = Reader.whole buf 0 := rfl
  unfold InBounds
  simp only [hstart]
  rcases hcall with ⟨hopen, _⟩ | ⟨_, _, rv, hc⟩ | ⟨_, hfull, _⟩
  · exact absurd (msgHeaderScan_closed buf) hopen
  · rw [hc]
    exact ⟨by simp [bind, Except.bind], fun _ _ heq => by cases heq⟩
  · have hshort : msgHeaderScan.short buf := by
      simp only [msgHeaderScan, Scan.andThen, Scan.fixed, Scan.done, List.length_drop]
      omega
    exact absurd hshort hfull

/-- Behind a header. -/
theorem header_inBounds_iff {β : Type} {f : ZZigBeeMsg × Reader → Except Stop (Int × β)}
    (ver hi lo cmd hi' lo' : UInt8) {rest : List UInt8} (hrest : rest.length + 6 < 2 ^ 32) :
    InBounds (fun buf n => (Reader.start buf n).call ZZigBeeMsg.decode >>= f)
      (ver :: hi :: lo :: cmd :: hi' :: lo' :: rest) ↔
    SafeAt (fun r => f (⟨ver, ofBe16 hi lo, cmd, ofBe16 hi' lo'⟩, r)) rest 6 := by
  have hlen : ((ver :: hi :: lo :: cmd :: hi' :: lo' :: rest).length : Int) = 6 + rest.length := by
    simp only [List.length_cons]
    omega
  unfold InBounds SafeAt
  rw [hlen]
  simp only [List.length_cons]
  rw [header_call ver hi lo cmd hi' lo' hrest]
  exact Iff.rfl

namespace ZbMsg

/-- The buffers that `decode` stays inside of.  Only two classes leave any. -/
def Confined : ZbMsg → List UInt8 → Prop
  | getReq _, _ :: hi :: lo :: _ :: _ :: _ :: rest =>
    -- the length field asks for more than there is, or the count for no more
    rest.length < (ofBe16 hi lo).toNat ∨ (rest.headD 0).toNat ≤ rest.length - 1
  | updateIdInfoReq _, _ :: _ :: _ :: _ :: _ :: _ :: rest => VectorConfined itemIdInfoScan rest
  | _, _ => True

theorem confined_of_short (m : ZbMsg) {buf : List UInt8} (h : buf.length < 6) : m.Confined buf := by
  unfold Confined
  split
  · simp only [List.length_cons] at h
    omega
  · simp only [List.length_cons] at h
    omega
  · trivial

/-- The items of a request are read as the count says. -/
theorem getReq_body_iff (hdr : ZZigBeeMsg) (items : List UInt8) {rest : List UInt8}
    (hrest : rest.length < 2 ^ 32) :
    SafeAt (fun r => r.call zDecodeByte >>= fun (itemCount, r) =>
      r.times peekByte items itemCount.toNat >>= fun (items, r) =>
        pure (r.len, ZZBGetReq.mk hdr items)) rest 6 ↔ (rest.headD 0).toNat ≤ rest.length - 1 := by
  cases rest with
  | nil =>
    -- no count is left: the call for it fails
    have hcall : (Reader.whole [] 6).call zDecodeByte = .error (.err (-1)) := rfl
    unfold SafeAt
    simp only [hcall]
    exact iff_of_true ⟨by simp [bind, Except.bind], fun _ _ heq => by cases heq⟩ (Nat.zero_le _)
  | cons count rest =>
    -- behind the count, as many bytes as it says
    rw [List.length_cons] at hrest
    have hruns := @Runs.times ZZBGetReq UInt8 peekByte _ .done
      (fun (items, r) => pure (r.len, ZZBGetReq.mk hdr items)) peekByte_follows
      (fun items => Runs.ret (ZZBGetReq.mk hdr items)) count.toNat items
    have hsafe := hruns.safeAt_iff (show rest.length < 2 ^ 32 by omega) 7
    rw [bytes_closed_iff] at hsafe
    show _ ↔ count.toNat ≤ rest.length
    rw [← hsafe]
    have hlen : ((6 : Int) + (count :: rest).length) = 7 + rest.length := by
      rw [List.length_cons]
      omega
    unfold SafeAt
    rw [hlen]
    simp only [byte_call count 6 hrest]
    exact Iff.rfl

theorem getReq_inBounds_iff (m : ZZBGetReq) {buf : List UInt8} (hbuf : buf.length < 2 ^ 32) :
    InBounds m.decode buf ↔ (getReq m).Confined buf := by
  rcases header_cases buf with hshort | ⟨ver, hi, lo, cmd, hi', lo', rest, rfl⟩
  · exact iff_of_true (short_inBounds _ hshort) (confined_of_short _ hshort)
  · simp only [List.length_cons] at hbuf
    have hbody := getReq_body_iff ⟨ver, ofBe16 hi lo, cmd, ofBe16 hi' lo'⟩ m.items
      (show rest.length < 2 ^ 32 by omega)
    refine (header_inBounds_iff ver hi lo cmd hi' lo' hbuf).trans ?_
    show _ ↔ rest.length < (ofBe16 hi lo).toNat ∨ (rest.headD 0).toNat ≤ rest.length - 1
    by_cases hroom : rest.length < (ofBe16 hi lo).toNat
    · -- the length field asks for more than there is
      exact iff_of_true (SafeAt.failIf fun hno => absurd hroom hno) (Or.inl hroom)
    · rw [or_iff_right hroom, ← hbody]
      unfold SafeAt
      have hpass : failIf ((Reader.whole rest 6).room < (ofBe16 hi lo).toNat) = .ok () :=
        if_neg hroom
      simp only [hpass]
      exact Iff.rfl

theorem updateIdInfoReq_inBounds_iff (m : ZZBUpdateIdInfoReq) {buf : List UInt8}
    (hbuf : buf.length < 2 ^ 32) :
    InBounds ZZBUpdateIdInfoReq.decode buf ↔ (updateIdInfoReq m).Confined buf := by
  rcases header_cases buf with hshort | ⟨ver, hi, lo, cmd, hi', lo', rest, rfl⟩
  · exact iff_of_true (short_inBounds _ hshort) (confined_of_short _ hshort)
  · simp only [List.length_cons] at hbuf
    refine (header_inBounds_iff ver hi lo cmd hi' lo' hbuf).trans ?_
    refine (safeAt_last_iff (ZZBUpdateIdInfoReq.mk _) rest 6).trans ?_
    exact decodeVector_inBounds_iff decodeItemIdInfo_follows (by omega)

theorem regReq_inBounds {buf : List UInt8} (hbuf : buf.length < 2 ^ 32) :
    InBounds ZZBRegReq.decode buf := by
  refine message_inBounds (fun hdr rest len hrest => ?_) hbuf
  refine SafeAt.failIf fun hroom => ?_
  refine SafeAt.failIf fun hmac => ?_
  have hroom' : ¬ rest.length < hdr.len.toNat := hroom
  have hclosed : (Scan.blind 8).closed rest := by
    show 8 ≤ rest.length
    omega
  apply SafeAt.call decodeMac_follows hrest hclosed
  intro mac k hk
  exact safeAt_last zDecodeInteger16_follows _ (by rw [List.length_drop]; omega) _

/-- The two classes whose loop looks at the room. -/
theorem pairs_body {β : Type} (g : List ZItemPair → β) (items : List ZItemPair) {rest : List UInt8}
    (hrest : rest.length < 2 ^ 32) (len : Int) :
    SafeAt (fun r => r.call zDecodeByte >>= fun (itemCount, r) =>
      r.times decodeItemPair items itemCount.toNat >>= fun (items, r) => pure (r.len, g items))
      rest len := by
  refine SafeAt.call zDecodeByte_follows hrest trivial fun itemCount k hk => ?_
  have hruns := @Runs.times β ZItemPair decodeItemPair _ .done
    (fun (items, r) => pure (r.len, g items)) decodeItemPair_follows
    (fun items => Runs.ret (g items)) itemCount.toNat items
  exact (hruns.safeAt_iff (by rw [List.length_drop]; omega) _).mpr (pairs_closed _ _)

/-- The wrapper reads nothing. -/
theorem lift_inBounds_iff {β : Type} (wrap : β → ZbMsg) (d : Decoder β) (buf : List UInt8) :
    InBounds (lift wrap d) buf ↔ InBounds d buf := by
  unfold InBounds lift
  cases d buf buf.length with
  | error stop =>
    refine ⟨fun h => ⟨fun hf => h.1 ?_, fun _ _ heq => by cases heq⟩,
      fun h => ⟨fun hf => h.1 ?_, fun _ _ heq => by cases heq⟩⟩
    · rw [hf]
      rfl
    · obtain rfl := Except.error.inj hf
      rfl
  | ok r =>
    obtain ⟨rv, v⟩ := r
    constructor
    · rintro ⟨_, hle⟩
      refine ⟨by simp, fun rv' v' heq => ?_⟩
      obtain ⟨rfl, _⟩ := Prod.mk.inj (Except.ok.inj heq)
      exact hle rv (wrap v) rfl
    · rintro ⟨_, hle⟩
      refine ⟨by simp [Except.map], fun rv' v' heq => ?_⟩
      obtain ⟨rfl, _⟩ := Prod.mk.inj (Except.ok.inj heq)
      exact hle rv v rfl

/-- **Every message decoder** stays inside of the buffers that its class confines it to. -/
theorem decode_inBounds_iff (m : ZbMsg) {buf : List UInt8} (hbuf : buf.length < 2 ^ 32) :
    InBounds m.decode buf ↔ m.Confined buf := by
  cases m with
  | getReq m => exact (lift_inBounds_iff _ _ _).trans (getReq_inBounds_iff m hbuf)
  | updateIdInfoReq m =>
    exact (lift_inBounds_iff _ _ _).trans (updateIdInfoReq_inBounds_iff m hbuf)
  | regReq m => exact iff_of_true ((lift_inBounds_iff _ _ _).mpr (regReq_inBounds hbuf)) trivial
  | regRsp m =>
    refine iff_of_true ((lift_inBounds_iff _ _ _).mpr ?_) trivial
    refine message_inBounds (fun hdr rest len hrest => ?_) hbuf
    exact SafeAt.failIf fun _ => safeAt_last zDecodeByte_follows _ hrest len
  | setRsp m =>
    refine iff_of_true ((lift_inBounds_iff _ _ _).mpr ?_) trivial
    refine message_inBounds (fun hdr rest len hrest => ?_) hbuf
    exact SafeAt.failIf fun _ => safeAt_last zDecodeByte_follows _ hrest len
  | getRsp m =>
    refine iff_of_true ((lift_inBounds_iff _ _ _).mpr ?_) trivial
    refine message_inBounds (fun hdr rest len hrest => ?_) hbuf
    exact SafeAt.failIf fun _ => pairs_body _ m.items hrest len
  | setReq m =>
    refine iff_of_true ((lift_inBounds_iff _ _ _).mpr ?_) trivial
    refine message_inBounds (fun hdr rest len hrest => ?_) hbuf
    exact SafeAt.failIf fun _ => pairs_body _ m.items hrest len
  | bindReq m =>
    refine iff_of_true ((lift_inBounds_iff _ _ _).mpr ?_) trivial
    exact message_inBounds (fun hdr rest len _ => SafeAt.ret _ rest len) hbuf
  | bindRsp m =>
    refine iff_of_true ((lift_inBounds_iff _ _ _).mpr ?_) trivial
    exact message_inBounds (fun hdr rest len _ => SafeAt.ret _ rest len) hbuf
  | updateIdInfoRsp m =>
    refine iff_of_true ((lift_inBounds_iff _ _ _).mpr ?_) trivial
    refine message_inBounds (fun hdr rest len hrest => ?_) hbuf
    exact safeAt_last zDecodeByte_follows _ hrest len
  | broadcastInd m =>
    refine iff_of_true ((lift_inBounds_iff _ _ _).mpr ?_) trivial
    refine message_inBounds (fun hdr rest len hrest => ?_) hbuf
    exact SafeAt.failIf fun _ => safeAt_last zDecodeInteger16_follows _ hrest len

end ZbMsg

/-- **Decoders stay inside the buffer** exactly if, for a request or a list of descriptions, the
    class confines them to it; for a string, a zero byte ends it; for a description, one ends each
    of its strings; for a vector, its elements are closed and something is left behind them. -/
theorem decoders_inBounds_iff {buf : List UInt8} (hbuf : buf.length < 2 ^ 32) :
    (∀ m : ZbMsg, InBounds m.decode buf ↔ m.Confined buf) ∧
    (InBounds decodeString buf ↔ 0 ∈ buf) ∧ (InBounds zDecodeString buf ↔ 0 ∈ buf) ∧
    (InBounds decodeItemIdInfo buf ↔ itemIdInfoScan.closed buf) ∧
    ∀ (t : ElemType) (ht : t ≠ .fixedBinary),
      InBounds (decodeVector (t.decode ht)) buf ↔ VectorConfined t.scan buf := by
  refine ⟨fun m => m.decode_inBounds_iff hbuf, ?_, zDecodeString_inBounds_iff buf, ?_, ?_⟩
  · exact decodeString_follows.inBounds_iff hbuf
  · exact decodeItemIdInfo_follows.inBounds_iff hbuf
  · exact fun t ht => decodeVector_inBounds_iff (t.decode_follows ht) hbuf

theorem decoders_inBounds_empty :
    (∀ m : ZbMsg, InBounds m.decode [] ↔ m.Confined []) ∧
    (InBounds decodeString [] ↔ 0 ∈ ([] : List UInt8)) ∧
    (InBounds zDecodeString [] ↔ 0 ∈ ([] : List UInt8)) ∧
    (InBounds decodeItemIdInfo [] ↔ itemIdInfoScan.closed []) ∧
    ∀ (t : ElemType) (ht : t ≠ .fixedBinary),
      InBounds (decodeVector (t.decode ht)) [] ↔ VectorConfined t.scan [] :=
  decoders_inBounds_iff (by decide)

/-- A request that says it has five items, and ends there. -/
theorem getReq_reads_behind :
    (ZbMsg.getReq ⟨⟨1, 0, zIdZbGetReq, 9⟩, []⟩).decode [1, 0, 1, 2, 0, 9, 5] 7 = .error .fault ∧
    ¬ InBounds (ZbMsg.getReq ⟨⟨1, 0, zIdZbGetReq, 9⟩, []⟩).decode [1, 0, 1, 2, 0, 9, 5] := by
  have hfault : (ZbMsg.getReq ⟨⟨1, 0, zIdZbGetReq, 9⟩, []⟩).decode [1, 0, 1, 2, 0, 9, 5] 7 =
      .error .fault := rfl
  exact ⟨hfault, fun hin => hin.1 hfault⟩

end Monsys

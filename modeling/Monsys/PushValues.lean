/-
  The value of a TLV through its life: `VData` and `TLV` of `server/push_msg.h`.

  A TLV's value is set by `putByte`, `putInt16`, `putInt32` and `putStr`, which set its type with its
  bytes, and by `setValue`, which copies the bytes and the length of another value but not its type.
  The block is kept from one to the next and only grows, and nothing of it is cleared.

  1. **Operations** — `VData.copy`, `TLV.setValue`, and a TLV `after` a row of operations.
  2. **Contents** — `content_after`: what a reader of the TLV sees is what a record of tag, type,
     length and bytes would be after the same operations, whatever block they went through.
  3. **What a codec carries** — `Content.Sound`; all that a decoder produces is sound, and all that
     is sound comes back.
  4. **Values** — `last_operation_holds_iff`.
-/
import Monsys.PushRoundTrip
import Mathlib.Data.List.Induction

namespace Monsys

open Wire (Stop be16 be32 ofBe16 ofBe32)

namespace PushCodec

open ZByteBuffer

/-! ## Operations -/

namespace VData

/-- `data_len_ <= alloc_len_`. -/
def Fits (v : VData) : Prop := v.dataLen ≤ v.data.length

/-- `copy` of another value: `resize`, and a `memcpy` of its bytes, written or not. -/
def copy (v other : VData) : VData :=
  let r := v.resize other.dataLen
  { r with data := other.bytes ++ r.data.drop other.dataLen }

theorem bytes_length {v : VData} (h : v.Fits) : v.bytes.length = v.dataLen :=
  List.length_take_of_le h

@[simp] theorem resize_type (v : VData) (n : Nat) : (v.resize n).type = v.type := by
  unfold resize
  split <;> rfl

@[simp] theorem resize_dataLen (v : VData) (n : Nat) : (v.resize n).dataLen = n := by
  unfold resize
  split <;> rfl

theorem copy_type (v other : VData) : (v.copy other).type = v.type := resize_type v other.dataLen

theorem copy_dataLen (v other : VData) : (v.copy other).dataLen = other.dataLen :=
  resize_dataLen v other.dataLen

theorem copy_bytes (v : VData) {other : VData} (h : other.Fits) :
    (v.copy other).bytes = other.bytes := by
  rw [bytes, copy_dataLen, ← bytes_length h]
  exact List.take_left

/-- A block holds what was copied to its front. -/
theorem front_fits {front rest : List (Option UInt8)} {n : Nat} {t : Int32} (h : n = front.length) :
    (VData.mk (front ++ rest) n t).Fits := by
  show n ≤ (front ++ rest).length
  rw [List.length_append]
  omega

theorem store_fits (v : VData) (t : Int32) (bs : List UInt8) : (v.store t bs).Fits :=
  front_fits (by rw [resize_dataLen, List.length_map])

theorem copy_fits (v : VData) {other : VData} (h : other.Fits) : (v.copy other).Fits :=
  front_fits (by rw [resize_dataLen, bytes_length h])

end VData

namespace TLV

/-- `setValue`, of a value other than the TLV's own. -/
def setValue (v : TLV) (value : VData) : TLV := { v with value := v.value.copy value }

/-- What can be done to the value of a TLV.  A `VData` that is handed over fits its block. -/
inductive Op
  | putByte (x : Int8)
  | putInt16 (x : Int16)
  | putInt32 (x : Int32)
  | putStr (str : List UInt8)
  | setValue (value : VData) (fits : value.Fits)
  /-- `setValue(getValue())`: `copy` returns at once. -/
  | setOwn

/-- One operation, on `getValue()` or on the TLV. -/
def apply (v : TLV) : Op → TLV
  | .putByte x => { v with value := v.value.putByte x }
  | .putInt16 x => { v with value := v.value.putInt16 x }
  | .putInt32 x => { v with value := v.value.putInt32 x }
  | .putStr str => { v with value := v.value.putStr str }
  | .setValue value _ => v.setValue value
  | .setOwn => v

/-- `TLV()` and `setTag(tag)`, then the operations. -/
def after (tag : UInt16) (ops : List Op) : TLV := ops.foldl apply ⟨tag, VData.new⟩

theorem apply_fits {v : TLV} (h : v.value.Fits) (op : Op) : (v.apply op).value.Fits := by
  cases op with
  | putByte x => exact VData.store_fits ..
  | putInt16 x => exact VData.store_fits ..
  | putInt32 x => exact VData.store_fits ..
  | putStr str => exact VData.store_fits ..
  | setValue value fits => exact VData.copy_fits _ fits
  | setOwn => exact h

/-- So the value of a TLV can be handed to another TLV. -/
theorem after_fits (tag : UInt16) (ops : List Op) : (after tag ops).value.Fits := by
  induction ops using List.reverseRecOn with
  | nil => exact Nat.le_refl 0
  | append_singleton ops op ih =>
    rw [after, List.foldl_append]
    exact apply_fits ih op

/-! ## Contents -/

namespace Content

/-- Tag, type, length and bytes after the operation. -/
def apply (c : Content) : Op → Content
  | .putByte x => ⟨c.tag, VData.TYPE_INT8, 1, [some x.toUInt8]⟩
  | .putInt16 x => ⟨c.tag, VData.TYPE_INT16, 2, (be16 x.toUInt16).reverse.map some⟩
  | .putInt32 x => ⟨c.tag, VData.TYPE_INT32, 4, (be32 x.toUInt32).reverse.map some⟩
  | .putStr str => ⟨c.tag, VData.TYPE_STR, str.length, str.map some⟩
  | .setValue value _ => { c with dataLen := value.dataLen, bytes := value.bytes }
  | .setOwn => c

/-- The content of a fresh TLV after the operations. -/
def after (tag : UInt16) (ops : List Op) : Content :=
  ops.foldl apply ⟨tag, VData.TYPE_UNKNOWN, 0, []⟩

end Content

/-- A `put` leaves what was put, whatever was there. -/
theorem content_store (v : TLV) (t : Int32) (bs : List UInt8) :
    content { v with value := v.value.store t bs } = ⟨v.tag, t, bs.length, bs.map some⟩ := by
  unfold content
  simp only [VData.store_type, VData.store_dataLen, VData.store_bytes]

theorem content_apply (v : TLV) (op : Op) : (v.apply op).content = v.content.apply op := by
  cases op with
  | putByte x => exact content_store v _ [x.toUInt8]
  | putInt16 x => exact content_store v _ (be16 x.toUInt16).reverse
  | putInt32 x => exact content_store v _ (be32 x.toUInt32).reverse
  | putStr str => exact content_store v _ str
  | setValue value fits =>
    show content ⟨v.tag, v.value.copy value⟩ = ⟨v.tag, v.value.type, value.dataLen, value.bytes⟩
    unfold content
    rw [VData.copy_type, VData.copy_dataLen, VData.copy_bytes _ fits]
  | setOwn => rfl

theorem content_foldl (ops : List Op) :
    ∀ v : TLV, (ops.foldl apply v).content = ops.foldl Content.apply v.content := by
  induction ops with
  | nil => exact fun _ => rfl
  | cons op ops ih =>
    intro v
    rw [List.foldl_cons, List.foldl_cons, ih, content_apply]

/-- **The block does not show**: what a TLV contains is what the operations say. -/
theorem content_after (tag : UInt16) (ops : List Op) :
    (after tag ops).content = Content.after tag ops := content_foldl ops _

/-- The type that an operation sets, if it sets one. -/
def Op.type? : Op → Option Int32
  | .putByte _ => some VData.TYPE_INT8
  | .putInt16 _ => some VData.TYPE_INT16
  | .putInt32 _ => some VData.TYPE_INT32
  | .putStr _ => some VData.TYPE_STR
  | .setValue _ _ => none
  | .setOwn => none

/-- The type of the last `put` of a row. -/
def lastType (ops : List Op) : Int32 := (ops.filterMap Op.type?).getLast?.getD VData.TYPE_UNKNOWN

namespace Content

theorem after_append (tag : UInt16) (ops : List Op) (op : Op) :
    after tag (ops ++ [op]) = (after tag ops).apply op := List.foldl_append ..

theorem apply_type (c : Content) (op : Op) : (c.apply op).type = op.type?.getD c.type := by
  cases op <;> rfl

@[simp] theorem apply_tag (c : Content) (op : Op) : (c.apply op).tag = c.tag := by
  cases op <;> rfl

theorem after_tag (tag : UInt16) (ops : List Op) : (after tag ops).tag = tag := by
  induction ops using List.reverseRecOn with
  | nil => rfl
  | append_singleton ops op ih => rw [after_append, apply_tag, ih]

/-- Copies do not change the type. -/
theorem after_type (tag : UInt16) (ops : List Op) : (after tag ops).type = lastType ops := by
  induction ops using List.reverseRecOn with
  | nil => rfl
  | append_singleton ops op ih =>
    rw [after_append, apply_type, ih, lastType, lastType, List.filterMap_append,
      List.getLast?_append]
    cases op <;> rfl

end Content

/-! ## What a codec carries -/

namespace Content

/-- A length that values of the type have; of a string, one that its count holds. -/
def Sized (type : Int32) (len : Nat) : Prop :=
  (type = VData.TYPE_INT8 ∧ len = 1) ∨ (type = VData.TYPE_INT16 ∧ len = 2) ∨
    (type = VData.TYPE_INT32 ∧ len = 4) ∨ (type = VData.TYPE_STR ∧ len ≤ 65535)

/-- There are as many bytes as the type asks for, and all of them have been written. -/
structure Sound (c : Content) : Prop where
  sized : Sized c.type c.dataLen
  length : c.bytes.length = c.dataLen
  written : none ∉ c.bytes

theorem sound_put (tag : UInt16) {t : Int32} (bs : List UInt8) (h : Sized t bs.length) :
    Sound ⟨tag, t, bs.length, bs.map some⟩ where
  sized := h
  length := List.length_map ..
  written := by simp

end Content

/-- What was set by a `put`, or might have been. -/
theorem value_eq_store {v : TLV} (h : v.content.Sound) :
    v.value.written.length = v.value.dataLen ∧
      v.value = v.value.store v.value.type v.value.written := by
  have hbytes : v.value.written.map some = v.value.bytes := by
    rw [VData.written, List.map_map]
    conv => rhs; rw [← List.map_id v.value.bytes]
    apply List.map_congr_left
    intro x hx
    cases x with
    | none => exact absurd hx h.written
    | some x => rfl
  have hlen : v.value.written.length = v.value.dataLen := by
    rw [VData.written, List.length_map]
    exact h.length
  have hfits : v.value.dataLen ≤ v.value.data.length := by
    have htake : (v.value.data.take v.value.dataLen).length = v.value.dataLen := h.length
    rw [List.length_take] at htake
    omega
  refine ⟨hlen, ?_⟩
  unfold VData.store VData.resize
  rw [hlen, if_pos hfits, hbytes, VData.bytes]
  show v.value = ⟨v.value.data.take v.value.dataLen ++ v.value.data.drop v.value.dataLen, _, _⟩
  rw [List.take_append_drop]

theorem exists_of_length_four {l : List UInt8} (h : l.length = 4) :
    ∃ b₀ b₁ b₂ b₃, l = [b₀, b₁, b₂, b₃] := by
  obtain ⟨b₀, l, rfl⟩ := List.exists_cons_of_length_eq_add_one h
  obtain ⟨b₁, b₂, b₃, rfl⟩ := List.length_eq_three.mp (Nat.succ.inj h)
  exact ⟨b₀, b₁, b₂, b₃, rfl⟩

theorem wasPut_of_sound {v : TLV} (h : v.content.Sound) : v.value.WasPut := by
  obtain ⟨hlen, hv⟩ := value_eq_store h
  rcases h.sized with ⟨ht, hn⟩ | ⟨ht, hn⟩ | ⟨ht, hn⟩ | ⟨ht, hn⟩
  · obtain ⟨x, hx⟩ := List.length_eq_one_iff.mp (hlen.trans hn)
    have ht' : v.value.type = VData.TYPE_INT8 := ht
    refine .byte v.value x.toInt8 ?_
    rw [VData.putByte, UInt8.toUInt8_toInt8, ← hx, ← ht', ← hv]
  · obtain ⟨lo, hi, hx⟩ := List.length_eq_two.mp (hlen.trans hn)
    have ht' : v.value.type = VData.TYPE_INT16 := ht
    refine .int16 v.value (ofBe16 hi lo).toInt16 ?_
    rw [VData.putInt16, UInt16.toUInt16_toInt16, Wire.be16_ofBe16]
    show v.value = v.value.store _ [lo, hi]
    rw [← hx, ← ht', ← hv]
  · obtain ⟨b₀, b₁, b₂, b₃, hx⟩ := exists_of_length_four (hlen.trans hn)
    have ht' : v.value.type = VData.TYPE_INT32 := ht
    refine .int32 v.value (ofBe32 b₃ b₂ b₁ b₀).toInt32 ?_
    rw [VData.putInt32, UInt32.toUInt32_toInt32, Wire.be32_ofBe32]
    show v.value = v.value.store _ [b₀, b₁, b₂, b₃]
    rw [← hx, ← ht', ← hv]
  · have ht' : v.value.type = VData.TYPE_STR := ht
    have hn' : v.value.dataLen ≤ 65535 := hn
    refine .str v.value v.value.written (by omega) ?_
    rw [VData.putStr, ← ht', ← hv]

theorem yields_raw (len : Nat) : Tape.Yields (raw len) fun bs => bs.length ≤ len := by
  intro b bs b' hrun
  unfold raw at hrun
  split at hrun
  · cases hrun
    exact List.length_take_le ..
  · cases hrun

theorem sound_store (tag : UInt16) (v : VData) {t : Int32} {bs : List UInt8}
    (h : Content.Sized t bs.length) : (content ⟨tag, v.store t bs⟩).Sound := by
  rw [show content ⟨tag, v.store t bs⟩ = ⟨tag, t, bs.length, bs.map some⟩ from
    content_store ⟨tag, v⟩ t bs]
  exact Content.sound_put tag bs h

/-- **Whatever a decoder produces is sound**, over any TLV and from any bytes. -/
theorem decode_sound (d : TLV) : Tape.Yields d.decode fun r => r.2.content.Sound := by
  unfold decode decoding
  refine .counted (P := fun v : TLV => v.content.Sound) (.behind fun tag => .behind fun type => ?_)
  refine .branch ?_ (.branch ?_ (.branch ?_ (.branch ?_ (.error _))))
  · exact .behind fun _ => .behind fun tmp => .ret (sound_store tag _ (.inl ⟨rfl, rfl⟩))
  · exact .behind fun _ => .behind fun tmp => .ret (sound_store tag _ (.inr (.inl ⟨rfl, rfl⟩)))
  · exact .behind fun _ => .behind fun tmp =>
      .ret (sound_store tag _ (.inr (.inr (.inl ⟨rfl, rfl⟩))))
  · refine .behind fun len => .bind (yields_raw len.toNat) fun str hstr => .ret ?_
    have hlt := len.toNat_lt
    exact sound_store tag _ (.inr (.inr (.inr ⟨rfl, by omega⟩)))

/-- In a buffer that is large enough the TLV is encoded, and decoded, over whatever TLV, to one with
    the same content. -/
def ComesThrough (v : TLV) : Prop :=
  ∃ room, ∀ b : ZByteBuffer, room ≤ b.capability → ∀ d : TLV, ∃ n b' v' b'',
    v.encode b.clear = .ok (n, b') ∧ d.decode b'.flip = .ok ((n, v'), b'') ∧
      v'.content = v.content

theorem comesThrough_of_sound {v : TLV} (h : v.content.Sound) : ComesThrough v := by
  have hput := wasPut_of_sound h
  refine ⟨v.wire.length, fun b hroom d => ?_⟩
  obtain ⟨b', b'', hencode, hdecode, -⟩ :=
    AnyMsg.through_buffer (writes_encode hput) (reads_decode_inBlock d hput) b hroom
  exact ⟨_, b', v.inBlock d, b'', hencode, hdecode, inBlock_content d hput⟩

theorem sound_of_comesThrough {v : TLV} (h : ComesThrough v) : v.content.Sound := by
  obtain ⟨room, hall⟩ := h
  have hroom : room ≤ (ZDataBuffer.new (List.replicate room (0 : UInt8))).capability := by
    show room ≤ (List.replicate room 0).length
    rw [List.length_replicate]
  obtain ⟨n, b', v', b'', -, hdecode, hsame⟩ := hall _ hroom TLV.new
  rw [← hsame]
  exact decode_sound TLV.new _ _ _ hdecode

/-! ## Values -/

/-- The content that an operation is meant to leave: what was put, or that of the value. -/
def Op.meant (before : Content) : Op → Content
  | .setValue value _ => content ⟨before.tag, value⟩
  | op => before.apply op

/-- After the last operation the TLV contains what was meant, and can be sent. -/
def LastHolds (tag : UInt16) (ops : List Op) (op : Op) : Prop :=
  (after tag (ops ++ [op])).content = op.meant (after tag ops).content ∧
    ComesThrough (after tag (ops ++ [op]))

/-- A string that its count holds; a value of the type that was put last, with the bytes that this
    type has; the TLV's own value where that can be sent. -/
def Op.Kept (tag : UInt16) (ops : List Op) : Op → Prop
  | .putByte _ => True
  | .putInt16 _ => True
  | .putInt32 _ => True
  | .putStr str => str.length ≤ 65535
  | .setValue value _ => value.type = lastType ops ∧ (content ⟨tag, value⟩).Sound
  | .setOwn => (Content.after tag ops).Sound

theorem sound_str {tag : UInt16} {str : List UInt8}
    (h : Content.Sound ⟨tag, VData.TYPE_STR, str.length, str.map some⟩) :
    str.length ≤ 65535 := by
  have hsized : Content.Sized VData.TYPE_STR str.length := h.sized
  rcases hsized with ⟨ht, -⟩ | ⟨ht, -⟩ | ⟨ht, -⟩ | ⟨-, hlen⟩
  · exact absurd ht (by decide)
  · exact absurd ht (by decide)
  · exact absurd ht (by decide)
  · exact hlen

/-- The copy keeps the type that was there, which is that of the last `put`. -/
theorem apply_setValue (tag : UInt16) (ops : List Op) {value : VData} (fits : value.Fits) :
    (Content.after tag ops).apply (.setValue value fits) =
      ⟨tag, lastType ops, value.dataLen, value.bytes⟩ := by
  show (⟨(Content.after tag ops).tag, (Content.after tag ops).type, _, _⟩ : Content) = _
  rw [Content.after_tag, Content.after_type]

theorem meant_setValue (tag : UInt16) (ops : List Op) {value : VData} (fits : value.Fits) :
    Op.meant (Content.after tag ops) (.setValue value fits) = content ⟨tag, value⟩ := by
  show content ⟨(Content.after tag ops).tag, value⟩ = _
  rw [Content.after_tag]

/-- On contents: an operation does what is meant, soundly, exactly if it is kept. -/
theorem meant_sound_iff (tag : UInt16) (ops : List Op) (op : Op) :
    ((Content.after tag ops).apply op = op.meant (Content.after tag ops) ∧
      ((Content.after tag ops).apply op).Sound) ↔ op.Kept tag ops := by
  cases op with
  | putByte x =>
    have hsound := Content.sound_put (Content.after tag ops).tag [x.toUInt8] (.inl ⟨rfl, rfl⟩)
    exact ⟨fun _ => trivial, fun _ => ⟨rfl, hsound⟩⟩
  | putInt16 x =>
    have hsound := Content.sound_put (Content.after tag ops).tag (be16 x.toUInt16).reverse
      (.inr (.inl ⟨rfl, rfl⟩))
    exact ⟨fun _ => trivial, fun _ => ⟨rfl, hsound⟩⟩
  | putInt32 x =>
    have hsound := Content.sound_put (Content.after tag ops).tag (be32 x.toUInt32).reverse
      (.inr (.inr (.inl ⟨rfl, rfl⟩)))
    exact ⟨fun _ => trivial, fun _ => ⟨rfl, hsound⟩⟩
  | putStr str =>
    constructor
    · exact fun h => sound_str h.2
    · exact fun h => ⟨rfl, Content.sound_put _ str (.inr (.inr (.inr ⟨rfl, h⟩)))⟩
  | setValue value fits =>
    rw [apply_setValue, meant_setValue]
    constructor
    · rintro ⟨hsame, hsound⟩
      -- the contents differ in the type alone
      rw [hsame] at hsound
      exact ⟨(congrArg Content.type hsame).symm, hsound⟩
    · rintro ⟨htype, hsound⟩
      have hsame : (⟨tag, lastType ops, value.dataLen, value.bytes⟩ : Content) =
          content ⟨tag, value⟩ := by
        rw [← htype]
        rfl
      exact ⟨hsame, hsame ▸ hsound⟩
  | setOwn => exact ⟨fun h => h.2, fun h => ⟨rfl, h⟩⟩

/-- **Values**: after any operations, the last one holds exactly if it is kept. -/
theorem last_operation_holds_iff (tag : UInt16) (ops : List Op) (op : Op) :
    LastHolds tag ops op ↔ op.Kept tag ops := by
  have hthrough : ComesThrough (after tag (ops ++ [op])) ↔
      ((Content.after tag ops).apply op).Sound := by
    rw [← Content.after_append, ← content_after]
    exact ⟨sound_of_comesThrough, comesThrough_of_sound⟩
  rw [← meant_sound_iff, LastHolds, content_after, content_after, Content.after_append, hthrough]

/-- A number that is set in a fresh TLV: its bytes are, its type is not. -/
theorem setValue_loses_type :
    ¬ LastHolds 0 [] (.setValue (VData.new.putInt32 7) (Nat.le_refl 4)) := by
  rintro ⟨hcontent, -⟩
  rw [content_after, content_after] at hcontent
  have htype : VData.TYPE_UNKNOWN = VData.TYPE_INT32 := congrArg Content.type hcontent
  exact absurd htype (by decide)

end TLV

end PushCodec

end Monsys

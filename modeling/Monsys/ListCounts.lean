/-
  The counts in front of lists.

  Four encoders write the length of a list as one byte, and then the whole list: those of
  `ZZBGetReq`, `ZZBGetRsp`, `ZZBSetReq` and of `std::vector<T>`.  None of them looks whether the
  length is one of a byte.  So the count is right exactly if it is, or if nothing is sent at all
  (`count_holds_iff`).
-/
import Monsys.EncoderBounds

namespace Monsys

open Wire

/-! ## What has a list -/

/-- Something encoded as a list. -/
inductive Listed
  | getReq (m : ZZBGetReq)
  | getRsp (m : ZZBGetRsp)
  | setReq (m : ZZBSetReq)
  | vector (t : ElemType) (vs : List t.Val)

namespace Listed

def encode : Listed → Encoder
  | getReq m => fun n => (m.encode n).2
  | getRsp m => fun n => (m.encode n).2
  | setReq m => fun n => (m.encode n).2
  | vector t vs => encodeVector t.encode vs

/-- How many elements the list has. -/
def length : Listed → Nat
  | getReq m => m.items.length
  | getRsp m => m.items.length
  | setReq m => m.items.length
  | vector _ vs => vs.length

/-- Where the count stands. -/
def countAt : Listed → Nat
  | vector _ _ => 0
  | _ => 14

/-- The elements, one behind the other, and the byte that the last one may leave. -/
def elements : Listed → List UInt8
  | getReq m => m.items
  | getRsp m => m.items.flatMap ZItemPair.bytes
  | setReq m => m.items.flatMap ZItemPair.bytes
  | vector t vs => vs.flatMap t.bytes ++ (CodecVal.vector t vs).stray

/-- The count is right: nothing is sent, or a count byte that is the length, and all elements. -/
def CountHolds (l : Listed) (n : Nat) : Prop :=
  (l.encode n).rv < 0 ∨
    ∃ count : UInt8, (l.encode n).out.drop l.countAt = count :: l.elements ∧ count.toNat = l.length

/-- The buffers that are too small, or of a size for which the value returned, or the one compared,
    is no positive `int`. -/
def Refuses : Listed → Nat → Prop
  | getReq m, n => n < 15 + m.items.length ∨ 2 ^ 31 ≤ 15 + m.items.length
  | getRsp m, n => n < 15 + m.items.length * 3 ∨ 2 ^ 31 ≤ n
  | setReq m, n => n < 15 + m.items.length * 3 ∨ 2 ^ 31 ≤ 15 + m.items.length * 3
  | vector t vs, n =>
    ¬ (CodecVal.vector t vs).Room n ∨ 2 ^ 31 ≤ (CodecVal.vector t vs).bytes.length % 2 ^ 32

end Listed

/-! ## When nothing is sent -/

namespace Listed

theorem refuses_iff (l : Listed) {n : Nat} (hn : n < 2 ^ 32) :
    (l.encode n).rv < 0 ↔ l.Refuses n := by
  cases l with
  | getReq m =>
    have hrow := (message_row { m.toZZigBeeMsg with len := m.getBodyLen }
      (bytes_row (UInt8.ofNat m.items.length) m.items)).bounded_byRoom
    rw [← Nat.add_assoc] at hrow
    exact hrow.rv_neg_iff hn
  | setReq m =>
    have hrow := (message_row { m.toZZigBeeMsg with len := m.getBodyLen }
      (pairs_row (UInt8.ofNat m.items.length) m.items)).bounded_byRoom
    rw [← Nat.add_assoc] at hrow
    exact hrow.rv_neg_iff hn
  | getRsp m =>
    obtain ⟨hyes, hno, _⟩ := m.encode_ends hn
    show (m.encode n).2.rv < 0 ↔ n < 15 + m.items.length * 3 ∨ 2 ^ 31 ≤ n
    -- this class compares its own length with the buffer's as an `int`
    constructor
    · intro hneg
      by_contra hfits
      have hrv := (hyes (by omega)).1
      omega
    · intro hrefuses
      exact hno (by omega)
  | vector t vs =>
    obtain ⟨hyes, hno⟩ := (CodecVal.vector t vs).encode_leaves hn
    show ((CodecVal.vector t vs).encode n).rv < 0 ↔ _
    by_cases hroom : (CodecVal.vector t vs).Room n
    · rw [hyes hroom]
      show toInt32 _ < 0 ↔ _
      rw [toInt32_neg_iff, Refuses, or_iff_right (not_not_intro hroom)]
    · exact iff_of_true (hno hroom) (Or.inl hroom)

/-! ## What is sent -/

/-- What is sent has the count, as a byte, and all elements. -/
theorem encode_sends (l : Listed) {n : Nat} (hn : n < 2 ^ 32) (hrv : 0 ≤ (l.encode n).rv) :
    (l.encode n).out.drop l.countAt = UInt8.ofNat l.length :: l.elements := by
  cases l with
  | getReq m =>
    have hw := encodeCallsByRoom_writes (message_spells { m.toZZigBeeMsg with len := m.getBodyLen }
      (getReq_spells m.items)) n hn hrv
    exact congrArg (fun w : Wrote => w.out.drop 14) hw
  | setReq m =>
    have hw := encodeCallsByRoom_writes (message_spells { m.toZZigBeeMsg with len := m.getBodyLen }
      (pairs_spells m.items)) n hn hrv
    exact congrArg (fun w : Wrote => w.out.drop 14) hw
  | getRsp m =>
    show (m.encode n).2.out.drop 14 = _
    change 0 ≤ (m.encode n).2.rv at hrv
    simp only [ZZBGetRsp.encode] at hrv ⊢
    split at hrv
    · exact absurd hrv (show ¬ (0 : Int) ≤ -1 by decide)
    · rename_i hguard
      rw [if_neg hguard]
      have hw := encodeCallsWith_writes (message_spells
        { m.toZZigBeeMsg with len := m.getBodyLen } (pairs_spells m.items)) hn hrv
      exact congrArg (fun w : Wrote => w.out.drop 14) hw
  | vector t vs =>
    obtain ⟨hyes, hno⟩ := (CodecVal.vector t vs).encode_leaves hn
    have hroom : (CodecVal.vector t vs).Room n := by
      by_contra hno'
      exact absurd hrv (Int.not_le.mpr (hno hno'))
    exact congrArg Wrote.out (hyes hroom)

theorem count_holds_of_sent (l : Listed) {n : Nat} (hn : n < 2 ^ 32) (hrv : 0 ≤ (l.encode n).rv) :
    l.CountHolds n ↔ l.length ≤ 255 := by
  have hsends := l.encode_sends hn hrv
  rw [CountHolds, or_iff_right (Int.not_lt.mpr hrv), hsends]
  constructor
  · rintro ⟨count, hcons, hcount⟩
    obtain ⟨rfl, _⟩ := List.cons.inj hcons
    have hlt := (UInt8.ofNat l.length).toNat_lt
    omega
  · intro hle
    exact ⟨_, rfl, count_toNat hle⟩

/-- **List counts on the wire.**  The count byte is the length, or nothing is sent, exactly if a
    byte holds the length, or the buffer is refused. -/
theorem count_holds_iff (l : Listed) {n : Nat} (hn : n < 2 ^ 32) :
    l.CountHolds n ↔ l.length ≤ 255 ∨ l.Refuses n := by
  by_cases hrefuses : l.Refuses n
  · exact iff_of_true (Or.inl ((l.refuses_iff hn).mpr hrefuses)) (Or.inr hrefuses)
  · have hrv : 0 ≤ (l.encode n).rv := Int.not_lt.mp fun hneg => hrefuses ((l.refuses_iff hn).mp hneg)
    rw [l.count_holds_of_sent hn hrv, or_iff_left hrefuses]

theorem count_holds_two :
    (getReq ⟨⟨1, 0, zIdZbGetReq, 9⟩, [3, 4]⟩).CountHolds 4096 ↔
      2 ≤ 255 ∨ (getReq ⟨⟨1, 0, zIdZbGetReq, 9⟩, [3, 4]⟩).Refuses 4096 :=
  count_holds_iff (getReq ⟨⟨1, 0, zIdZbGetReq, 9⟩, [3, 4]⟩) (show 4096 < 2 ^ 32 by decide)

/-- A request for 256 items, in a buffer of 4096 bytes, says that it has none. -/
theorem getReq_count_wraps :
    ¬ (getReq ⟨⟨1, 0, zIdZbGetReq, 9⟩, List.replicate 256 3⟩).CountHolds 4096 := by
  have hall : ∀ items : List UInt8, items.length = 256 →
      ¬ (getReq ⟨⟨1, 0, zIdZbGetReq, 9⟩, items⟩).CountHolds 4096 := by
    intro items hlen
    have hn : 4096 < 2 ^ 32 := by decide
    have hrv : 0 ≤ ((getReq ⟨⟨1, 0, zIdZbGetReq, 9⟩, items⟩).encode 4096).rv := by
      refine Int.not_lt.mp fun hneg => ?_
      have hrefuses := (refuses_iff _ hn).mp hneg
      rw [Refuses, hlen] at hrefuses
      omega
    rw [count_holds_of_sent _ hn hrv, length, hlen]
    decide
  exact hall _ List.length_replicate

end Listed

end Monsys

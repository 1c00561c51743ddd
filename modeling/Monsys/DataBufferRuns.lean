/-
  Runs of `ZDataBuffer<char>` (`libframework/zdata_buffer.h`), with its fields as they are declared.

  `ZDataBuffer` carries `pos ≤ limit ≤ capacity` with it.  Here are the four fields alone, three of
  them `int`s of which nothing is promised, and the methods as they are written.

  1. **Fields** — the methods.  A sum that is no `int`, a length below zero and a copy that leaves
     one of its blocks are undefined behaviour, and have no result.
  2. **Refinement** — on the fields of a `ZDataBuffer` each method does what it does there
     (`fields_step`).
  3. **Runs** — so the invariant holds all through; and what goes in comes out.
-/
import Mathlib.Algebra.Ring.Int.Defs
import Mathlib.Algebra.Ring.Nat
import Monsys.DataBuffer

namespace Monsys

namespace ZDataBuffer

/-! ## Fields -/

structure Fields where
  buf : List UInt8
  bufSize : Int
  pos : Int
  limit : Int
deriving DecidableEq, Repr

namespace Fields

/-- An `int` that comes out. -/
def int (v : Int) : Option Int := if -2 ^ 31 ≤ v ∧ v < 2 ^ 31 then some v else none

/-- `ZDataBuffer(int size)`, and what is in the block; `ZDataBuffer(data, size)` copies `data`. -/
def new (mem : List UInt8) : Fields := ⟨mem, mem.length, 0, mem.length⟩

def hasRemaining (f : Fields) : Bool := decide (f.limit > f.pos)

def remaining (f : Fields) : Option Int := int (f.limit - f.pos)

/-- `memcpy(buf_ + pos_, v, n);` -/
def copyIn (f : Fields) (v : List UInt8) (n : Int) : Option (List UInt8) :=
  if 0 ≤ n ∧ n ≤ v.length ∧ 0 ≤ f.pos ∧ f.pos + n ≤ f.buf.length then
    some (f.buf.take f.pos.toNat ++ v.take n.toNat ++ f.buf.drop (f.pos + n).toNat)
  else none

/-- `memcpy(v, buf_ + pos_, n);`, and what is in `v` then. -/
def copyOut (f : Fields) (n : Int) : Option (List UInt8) :=
  if 0 ≤ n ∧ 0 ≤ f.pos ∧ f.pos + n ≤ f.buf.length then
    some ((f.buf.drop f.pos.toNat).take n.toNat)
  else none

/-- `int put(const T &v)`. -/
def putOne (f : Fields) (v : UInt8) : Option (Int × Fields) := do
  if f.hasRemaining = false then
    return (0, f)
  let buf ← f.copyIn [v] 1
  let pos ← int (f.pos + 1)
  return (1, { f with buf, pos })

/-- `int put(const T *v, int len)`. -/
def put (f : Fields) (v : List UInt8) (len : Int) : Option (Int × Fields) := do
  let remain ← f.remaining
  if remain ≤ 0 then
    return (0, f)
  let putLen := if remain < len then remain else len
  let buf ← f.copyIn v putLen
  let pos ← int (f.pos + putLen)
  return (putLen, { f with buf, pos })

/-- `int get(T *v, int len)`: the bytes copied out, in place of their number. -/
def get (f : Fields) (len : Int) : Option (List UInt8 × Fields) := do
  let remain ← f.remaining
  if remain < 0 then
    return ([], f)
  let getLen := if remain < len then remain else len
  let out ← f.copyOut getLen
  let pos ← int (f.pos + getLen)
  return (out, { f with pos })

def clear (f : Fields) : Fields := { f with pos := 0, limit := f.bufSize }

def flip (f : Fields) : Fields := { f with limit := f.pos, pos := 0 }

end Fields

/-- A `put`: of one byte, or of the `len` bytes of an array. -/
inductive Put
  | one (v : UInt8)
  | bulk (v : List UInt8)
deriving DecidableEq, Repr

def Put.bytes : Put → List UInt8
  | one v => [v]
  | bulk v => v

inductive Op
  | put (p : Put)
  | get (len : Nat)
  | flip
  | clear
deriving DecidableEq, Repr

/-- One call, and the bytes that it gets. -/
def Fields.step (f : Fields) : Op → Option (List UInt8 × Fields)
  | .put (.one v) => (f.putOne v).map fun r => ([], r.2)
  | .put (.bulk v) => (f.put v v.length).map fun r => ([], r.2)
  | .get len => f.get len
  | .flip => some ([], f.flip)
  | .clear => some ([], f.clear)

/-- A row of calls, and all bytes that are got. -/
def Fields.run (f : Fields) : List Op → Option (List UInt8 × Fields)
  | [] => some ([], f)
  | op :: ops => do
    let (out, f) ← f.step op
    let (outs, f) ← f.run ops
    return (out ++ outs, f)

/-! ## Refinement -/

/-- The same, of a buffer that keeps its invariant. -/
def step (b : ZDataBuffer UInt8) : Op → Option (List UInt8 × ZDataBuffer UInt8)
  | .put (.one v) => some ([], (b.putOne v).2)
  | .put (.bulk v) => (b.put v v.length).map fun r => ([], r.2)
  | .get len => b.get len
  | .flip => some ([], b.flip)
  | .clear => some ([], b.clear)

def fields (b : ZDataBuffer UInt8) : Fields := ⟨b.buf, b.buf.length, b.pos, b.limit⟩

section Refinement

variable {b : ZDataBuffer UInt8}

theorem fields_remaining (h : b.capability < 2 ^ 31) :
    b.fields.remaining = some (b.remaining : Int) := by
  have hpos := b.pos_le
  have hlimit := b.limit_le
  change b.buf.length < 2 ^ 31 at h
  have hdiff : b.fields.limit - b.fields.pos = (b.remaining : Int) := by
    show (b.limit : Int) - (b.pos : Int) = (b.limit - b.pos : Nat)
    omega
  have hle : b.remaining ≤ b.limit := Nat.sub_le _ _
  rw [Fields.remaining, hdiff, Fields.int, if_pos ⟨by omega, by omega⟩]

/-- A copy of what there is room for is a `store`. -/
theorem fields_store (h : b.capability < 2 ^ 31) {v : List UInt8} {n : Nat} (hv : n ≤ v.length)
    (hn : (v.take n).length ≤ b.remaining) :
    b.fields.copyIn v n = some (b.store (v.take n) hn).buf ∧
      Fields.int (b.fields.pos + n) = some ((b.store (v.take n) hn).pos : Int) := by
  have hpos := b.pos_le
  have hlimit := b.limit_le
  have hlen : (v.take n).length = n := List.length_take_of_le hv
  have hroom : n ≤ b.remaining := hlen ▸ hn
  unfold remaining at hroom
  change b.buf.length < 2 ^ 31 at h
  have hsum : b.fields.pos + (n : Int) = (b.pos + n : Nat) := (Int.natCast_add _ _).symm
  have hend : (b.pos + n : Nat) ≤ (b.buf.length : Int) := by omega
  refine ⟨?_, ?_⟩
  · rw [Fields.copyIn, hsum, if_pos ⟨by omega, by omega, Int.natCast_nonneg _, hend⟩]
    simp only [Int.toNat_natCast, store, hlen]
    rfl
  · rw [hsum, Fields.int, if_pos ⟨by omega, by omega⟩]
    simp only [store, hlen]

/-- The fields after a `store`: the block is as long as before. -/
theorem store_fields (w : List UInt8) (hw : w.length ≤ b.remaining) :
    (⟨(b.store w hw).buf, b.buf.length, ((b.store w hw).pos : Int), b.limit⟩ : Fields) =
      (b.store w hw).fields :=
  congrArg (fun n : Nat => (⟨_, n, _, _⟩ : Fields)) (b.store_capability w hw).symm

theorem fields_fetch (h : b.capability < 2 ^ 31) {n : Nat} (hn : n ≤ b.remaining) :
    b.fields.copyOut n = some (b.fetch n hn).1 ∧
      Fields.int (b.fields.pos + n) = some ((b.fetch n hn).2.pos : Int) := by
  have hpos := b.pos_le
  have hlimit := b.limit_le
  have hroom : n ≤ b.limit - b.pos := hn
  change b.buf.length < 2 ^ 31 at h
  have hsum : b.fields.pos + (n : Int) = (b.pos + n : Nat) := (Int.natCast_add _ _).symm
  have hend : (b.pos + n : Nat) ≤ (b.buf.length : Int) := by omega
  refine ⟨?_, ?_⟩
  · rw [Fields.copyOut, hsum, if_pos ⟨Int.natCast_nonneg _, Int.natCast_nonneg _, hend⟩]
    rfl
  · rw [hsum, Fields.int, if_pos ⟨by omega, by omega⟩]
    rfl

theorem fields_putOne (h : b.capability < 2 ^ 31) (v : UInt8) :
    b.fields.putOne v = some ((b.putOne v).1, (b.putOne v).2.fields) := by
  unfold putOne
  by_cases hroom : 0 < b.remaining
  · have hremaining : b.fields.hasRemaining = true := by
      unfold remaining at hroom
      exact decide_eq_true (show (b.limit : Int) > b.pos by omega)
    obtain ⟨hbuf, hpos⟩ := fields_store h (v := [v]) (n := 1) (Nat.le_refl 1) hroom
    rw [dif_pos hroom, Fields.putOne, hremaining]
    show (b.fields.copyIn [v] 1 >>= fun buf => Fields.int (b.fields.pos + 1) >>= fun pos => _) = _
    rw [show b.fields.copyIn [v] 1 = _ from hbuf, Option.bind_eq_bind, Option.bind_some,
      show Fields.int (b.fields.pos + 1) = _ from hpos, Option.bind_eq_bind, Option.bind_some]
    exact congrArg some (Prod.ext rfl (store_fields [v] hroom))
  · have hremaining : b.fields.hasRemaining = false := by
      unfold remaining at hroom
      exact decide_eq_false (show ¬ (b.limit : Int) > b.pos by omega)
    rw [dif_neg hroom, Fields.putOne, hremaining]
    rfl

/-- **A bulk put**, of any length. -/
theorem fields_put (h : b.capability < 2 ^ 31) (v : List UInt8) (len : Int) :
    b.fields.put v len = (b.put v len).map fun r => (r.1, r.2.fields) := by
  have hle := copyLen_le b.remaining len
  have hread : b.fields.put v len = if (b.remaining : Int) ≤ 0 then some (0, b.fields) else
      b.fields.copyIn v (copyLen b.remaining len) >>= fun buf =>
        Fields.int (b.fields.pos + copyLen b.remaining len) >>= fun pos =>
          some (copyLen b.remaining len, { b.fields with buf, pos }) := by
    rw [Fields.put, fields_remaining h]
    rfl
  rw [hread]
  unfold put
  by_cases hfull : b.remaining = 0
  · rw [if_pos (by omega), if_pos hfull]
    rfl
  · rw [if_neg (by omega), if_neg hfull]
    by_cases hcopy : 0 ≤ copyLen b.remaining len ∧ copyLen b.remaining len ≤ v.length
    · obtain ⟨n, hn⟩ := Int.eq_ofNat_of_zero_le hcopy.1
      rw [hn] at hcopy hle
      have htake : (v.take n).length ≤ b.remaining := by
        rw [List.length_take]
        omega
      obtain ⟨hbuf, hpos⟩ := fields_store h (v := v) (n := n) (by omega) htake
      simp only [hn, Int.toNat_natCast]
      rw [dif_pos hcopy, hbuf, Option.bind_eq_bind, Option.bind_some, hpos, Option.bind_eq_bind,
        Option.bind_some]
      exact congrArg some (Prod.ext rfl (store_fields (v.take n) htake))
    · -- a negative length, or an array that is too short
      have hnone : b.fields.copyIn v (copyLen b.remaining len) = none :=
        if_neg fun hall => hcopy ⟨hall.1, hall.2.1⟩
      rw [dif_neg hcopy, hnone]
      rfl

/-- **A bulk get**, of any length. -/
theorem fields_get (h : b.capability < 2 ^ 31) (len : Int) :
    b.fields.get len = (b.get len).map fun r => (r.1, r.2.fields) := by
  have hle := copyLen_le b.remaining len
  have hread : b.fields.get len = if (b.remaining : Int) < 0 then some ([], b.fields) else
      b.fields.copyOut (copyLen b.remaining len) >>= fun out =>
        Fields.int (b.fields.pos + copyLen b.remaining len) >>= fun pos =>
          some (out, { b.fields with pos }) := by
    rw [Fields.get, fields_remaining h]
    rfl
  -- less than nothing never remains
  rw [hread, if_neg (by omega)]
  unfold get
  by_cases hcopy : 0 ≤ copyLen b.remaining len
  · obtain ⟨n, hn⟩ := Int.eq_ofNat_of_zero_le hcopy
    rw [hn] at hle
    obtain ⟨hout, hpos⟩ := fields_fetch h (n := n) (by omega)
    simp only [hn, Int.toNat_natCast]
    rw [if_pos (Int.natCast_nonneg n), hout, Option.bind_eq_bind, Option.bind_some, hpos,
      Option.bind_eq_bind, Option.bind_some]
    rfl
  · have hnone : b.fields.copyOut (copyLen b.remaining len) = none :=
      if_neg fun hall => hcopy hall.1
    rw [if_neg hcopy, hnone]
    rfl

/-- **One call** on the fields is one on the buffer. -/
theorem fields_step (h : b.capability < 2 ^ 31) (op : Op) :
    b.fields.step op = (b.step op).map fun r => (r.1, r.2.fields) := by
  cases op with
  | put p =>
    cases p with
    | one v =>
      rw [Fields.step, fields_putOne h]
      rfl
    | bulk v =>
      rw [Fields.step, fields_put h, step, Option.map_map, Option.map_map]
      rfl
  | get len => exact fields_get h len
  | flip => rfl
  | clear => rfl

end Refinement

/-! ## Runs -/

section Runs

variable {b : ZDataBuffer UInt8}

/-- What has been put is held, as far as the limit goes. -/
theorem step_put (b : ZDataBuffer UInt8) (p : Put) :
    ∃ b', b.step (.put p) = some ([], b') ∧ b'.held = (b.held ++ p.bytes).take b.limit ∧
      b'.limit = b.limit ∧ b'.capability = b.capability := by
  cases p with
  | one v =>
    have hpos := b.pos_le
    refine ⟨_, rfl, ?_⟩
    unfold putOne
    by_cases hroom : 0 < b.remaining
    · rw [dif_pos hroom]
      refine ⟨?_, rfl, b.store_capability [v] hroom⟩
      have hfits : (b.held ++ [v]).length ≤ b.limit := by
        have hlimit : 0 < b.limit - b.pos := hroom
        rw [List.length_append, held_length, List.length_singleton]
        omega
      exact (b.store_held [v] hroom).trans (List.take_of_length_le hfits).symm
    · rw [dif_neg hroom]
      refine ⟨?_, rfl, rfl⟩
      unfold remaining at hroom
      have hfull : b.limit = b.held.length := by
        rw [held_length]
        omega
      rw [hfull, List.take_left]
  | bulk v =>
    obtain ⟨n, b', hput, hheld, hlimit, hcap⟩ := b.put_held (Nat.le_refl v.length)
    rw [List.take_length] at hheld
    exact ⟨b', by rw [step, hput]; rfl, hheld, hlimit, hcap⟩

/-- What is got is the front of what is unread. -/
theorem step_get (b : ZDataBuffer UInt8) (len : Nat) :
    ∃ b', b.step (.get len) = some (b.unread.take len, b') ∧ b'.unread = b.unread.drop len ∧
      b'.capability = b.capability := by
  obtain ⟨hle, hout, hrest⟩ := b.fetch_unread (List.take_append_drop len b.unread).symm
  have hcopy : copyLen b.remaining len = ((b.unread.take len).length : Nat) := by
    rw [List.length_take, unread_length]
    unfold copyLen
    split <;> omega
  refine ⟨(b.fetch _ hle).2, ?_, hrest, rfl⟩
  show b.get len = _
  unfold get
  simp only [hcopy, Int.toNat_natCast]
  rw [if_pos (Int.natCast_nonneg _)]
  exact congrArg some (Prod.ext hout rfl)

/-- No call is undefined. -/
theorem step_some (b : ZDataBuffer UInt8) (op : Op) :
    ∃ out b', b.step op = some (out, b') ∧ b'.capability = b.capability := by
  cases op with
  | put p =>
    obtain ⟨b', hstep, -, -, hcap⟩ := b.step_put p
    exact ⟨_, b', hstep, hcap⟩
  | get len =>
    obtain ⟨b', hstep, -, hcap⟩ := b.step_get len
    exact ⟨_, b', hstep, hcap⟩
  | flip => exact ⟨_, _, rfl, rfl⟩
  | clear => exact ⟨_, _, rfl, rfl⟩

theorem run_cons (h : b.capability < 2 ^ 31) {op : Op} {out : List UInt8}
    {b' : ZDataBuffer UInt8} (hstep : b.step op = some (out, b')) (ops : List Op) :
    b.fields.run (op :: ops) = (b'.fields.run ops).map fun r => (out ++ r.1, r.2) := by
  rw [Fields.run, fields_step h, hstep]
  show (b'.fields.run ops >>= _) = _
  cases b'.fields.run ops with
  | none => rfl
  | some r => rfl

/-- **A row of calls** ends on the fields of a buffer, which has its invariant. -/
theorem run_some (h : b.capability < 2 ^ 31) (ops : List Op) :
    ∃ (outs : List UInt8) (b' : ZDataBuffer UInt8),
      b.fields.run ops = some (outs, b'.fields) ∧ b'.capability = b.capability := by
  induction ops generalizing b with
  | nil => exact ⟨[], b, rfl, rfl⟩
  | cons op ops ih =>
    obtain ⟨out, b₁, hstep, hcap⟩ := b.step_some op
    obtain ⟨outs, b', hrun, hcap'⟩ := ih (hcap.symm ▸ h)
    refine ⟨out ++ outs, b', ?_, hcap'.trans hcap⟩
    rw [run_cons h hstep, hrun]
    rfl

/-- What is cut already, is cut as before. -/
theorem take_append_take {α : Type} (n : Nat) (xs ys : List α) :
    (xs.take n ++ ys).take n = (xs ++ ys).take n := by
  rcases Nat.le_total xs.length n with hle | hge
  · rw [List.take_of_length_le hle]
  · have hlen : n ≤ (xs.take n).length := Nat.le_of_eq (List.length_take_of_le hge).symm
    rw [List.take_append_of_le_length hge, List.take_append_of_le_length hlen, List.take_take,
      Nat.min_self]

/-- A row of puts. -/
theorem run_puts (h : b.capability < 2 ^ 31) (puts : List Put) (ops : List Op) :
    ∃ b' : ZDataBuffer UInt8, b.fields.run (puts.map .put ++ ops) = b'.fields.run ops ∧
      b'.held = (b.held ++ puts.flatMap Put.bytes).take b.limit ∧ b'.capability = b.capability := by
  induction puts generalizing b with
  | nil =>
    refine ⟨b, rfl, ?_, rfl⟩
    have hfits : b.held.length ≤ b.limit := by
      rw [held_length]
      exact b.pos_le
    rw [List.flatMap_nil, List.append_nil, List.take_of_length_le hfits]
  | cons p puts ih =>
    obtain ⟨b₁, hstep, hheld, hlimit, hcap⟩ := b.step_put p
    obtain ⟨b', hrun, hheld', hcap'⟩ := ih (hcap.symm ▸ h)
    refine ⟨b', ?_, ?_, hcap'.trans hcap⟩
    · rw [List.map_cons, List.cons_append, run_cons h hstep, hrun]
      exact Option.map_id_apply
    · rw [hheld', hheld, hlimit, take_append_take, List.flatMap_cons, List.append_assoc]

/-- A row of gets. -/
theorem run_gets (h : b.capability < 2 ^ 31) (lens : List Nat) :
    ∃ b' : ZDataBuffer UInt8,
      b.fields.run (lens.map .get) = some (b.unread.take lens.sum, b'.fields) := by
  induction lens generalizing b with
  | nil => exact ⟨b, rfl⟩
  | cons len lens ih =>
    obtain ⟨b₁, hstep, hunread, hcap⟩ := b.step_get len
    obtain ⟨b', hrun⟩ := ih (hcap.symm ▸ h)
    refine ⟨b', ?_⟩
    rw [List.map_cons, run_cons h hstep, hrun, hunread, List.sum_cons, List.take_add]
    rfl

end Runs

/-- The cursors are in order. -/
structure Fields.InBounds (f : Fields) : Prop where
  pos_nonneg : 0 ≤ f.pos
  pos_le : f.pos ≤ f.limit
  limit_le : f.limit ≤ f.bufSize

theorem fields_inBounds (b : ZDataBuffer UInt8) : b.fields.InBounds where
  pos_nonneg := Int.natCast_nonneg _
  pos_le := Int.ofNat_le.mpr b.pos_le
  limit_le := Int.ofNat_le.mpr b.limit_le

/-- **What goes in comes out.** -/
theorem run_fifo {b : ZDataBuffer UInt8} (h : b.capability < 2 ^ 31) (puts : List Put)
    (lens : List Nat) :
    ∃ b' : ZDataBuffer UInt8, b.fields.run (.clear :: (puts.map .put ++ .flip :: lens.map .get)) =
      some (((puts.flatMap Put.bytes).take b.capability).take lens.sum, b'.fields) := by
  -- `clear` leaves nothing held and the whole block to be filled; `flip` makes what is held unread
  have hclear : b.step .clear = some ([], b.clear) := rfl
  obtain ⟨b₁, hputs, hheld, hcap⟩ := run_puts (b := b.clear) h puts (.flip :: lens.map .get)
  have hflip : b₁.step .flip = some ([], b₁.flip) := rfl
  obtain ⟨b', hgets⟩ := run_gets (b := b₁.flip) (hcap.symm ▸ h) lens
  refine ⟨b', ?_⟩
  rw [run_cons h hclear, hputs, run_cons (hcap.symm ▸ h) hflip, hgets, flip_unread, hheld]
  rfl

/-- **The cursors stay in order, and what goes in comes out**: in every state that is reached, and
    from every one. -/
theorem run_ordered (mem : List UInt8) (hsize : mem.length < 2 ^ 31) (ops : List Op) :
    ∃ outs f, (Fields.new mem).run ops = some (outs, f) ∧ f.InBounds ∧ f.bufSize = mem.length ∧
      ∀ (puts : List Put) (lens : List Nat), ∃ f',
        f.run (.clear :: (puts.map .put ++ .flip :: lens.map .get)) =
          some (((puts.flatMap Put.bytes).take mem.length).take lens.sum, f') := by
  obtain ⟨outs, b, hrun, hcap⟩ := run_some (b := ZDataBuffer.new mem) hsize ops
  refine ⟨outs, b.fields, hrun, fields_inBounds b, congrArg Nat.cast hcap, fun puts lens => ?_⟩
  obtain ⟨b', hfifo⟩ := run_fifo (b := b) (hcap.symm ▸ hsize) puts lens
  rw [show b.capability = mem.length from hcap] at hfifo
  exact ⟨b'.fields, hfifo⟩

/-- Two bytes of three are kept, and are got one by one. -/
theorem run_ordered_two : ∃ outs f,
    (Fields.new [0, 0]).run [.put (.one 9), .flip] = some (outs, f) ∧ f.InBounds ∧
      ∃ f', f.run [.clear, .put (.bulk [1, 2, 3]), .flip, .get 1, .get 1] = some ([1, 2], f') := by
  obtain ⟨outs, f, hrun, hbounds, -, hfifo⟩ := run_ordered [0, 0] (by decide) [.put (.one 9), .flip]
  exact ⟨outs, f, hrun, hbounds, hfifo [.bulk [1, 2, 3]] [1, 1]⟩

end ZDataBuffer

end Monsys

/-
  Walking along a C string with an index.

  A parser that keeps an index into a string looks at the byte there, steps on, or runs ahead as long
  as the bytes meet a condition.  It is told how long the string is, and should not get behind that:
  at the end itself it sees the NUL.

  1. **Cursors** — `Cursor`: the string, the length that the parser believes, and the index.  A look
     or a step behind that length is a `Fault`.
  2. **In front of a rest** — `front s t`, the cursor where `t` is what remains of `s`, and what each
     operation does there.
  3. **A string that is too long** — steps up to the believed end are possible, a copy is not.
-/
import Mathlib.Data.List.Basic
import Mathlib.Data.List.Infix
import Mathlib.Data.List.TakeWhile

/-- The bytes of a string in front of its NUL, how many of them there should be, and an index. -/
structure Cursor where
  text : List UInt8
  stop : Nat
  pos : Nat
deriving DecidableEq, Repr

namespace Cursor

inductive Fault
  | outside
  | unfinished
deriving DecidableEq, Repr

/-- A parser: what it returns, and where it stands then. -/
abbrev Parser (α : Type) := StateT Cursor (Except Fault) α

/-! ## Cursors -/

/-- What remains. -/
def rest (c : Cursor) : List UInt8 := (c.text.take c.stop).drop c.pos

/-- `str[pos + n]`. -/
def ahead (n : Nat) : Parser UInt8 := fun c =>
  if c.pos + n ≤ c.stop then .ok (c.text.getD (c.pos + n) 0, c) else .error .outside

/-- `str[pos]`. -/
def peek : Parser UInt8 := ahead 0

/-- `pos += n;` -/
def move (n : Nat) : Parser Unit := fun c =>
  if c.pos + n ≤ c.stop then .ok ((), { c with pos := c.pos + n }) else .error .outside

/-- `++pos;` -/
def next : Parser Unit := move 1

/-- `end = pos; while (end < stop && p(str[end])) ++end;`, and how far that is. -/
def scan (p : UInt8 → Bool) : Parser Nat := fun c => .ok ((c.rest.takeWhile p).length, c)

/-- `std::string(str, pos - n, n)`, for which the string is gone through up to its NUL. -/
def behind (n : Nat) : Parser (List UInt8) := fun c =>
  if c.text.length ≤ c.stop then .ok ((c.text.drop (c.pos - n)).take n, c) else .error .outside

def skip (p : UInt8 → Bool) : Parser Unit := do
  let n ← scan p
  move n

/-- The bytes that meet the condition, as a string. -/
def word (p : UInt8 → Bool) : Parser (List UInt8) := do
  let n ← scan p
  move n
  behind n

/-- `if (b) p;` -/
def onlyIf (b : Bool) (p : Parser Unit) : Parser Unit := if b then p else pure ()

theorem onlyIf_true (p : Parser Unit) : onlyIf true p = p := rfl

theorem onlyIf_false (p : Parser Unit) (c : Cursor) : onlyIf false p c = .ok ((), c) := rfl

theorem bind_ok {α β : Type} {p : Parser α} {f : α → Parser β} {c c' : Cursor} {a : α}
    (h : p c = .ok (a, c')) : (p >>= f) c = f a c' := by
  show (p c >>= fun r => f r.1 r.2) = _
  rw [h]
  rfl

theorem bind_error {α β : Type} {p : Parser α} {f : α → Parser β} {c : Cursor} {e : Fault}
    (h : p c = .error e) : (p >>= f) c = .error e := by
  show (p c >>= fun r => f r.1 r.2) = _
  rw [h]
  rfl

/-! ## In front of a rest -/

/-- The cursor where `t` remains of `s`. -/
def front (s t : List UInt8) : Cursor := ⟨s, s.length, s.length - t.length⟩

section Front

variable {s t : List UInt8}

theorem front_pos (h : t <:+ s) : (front s t).pos + t.length = s.length :=
  Nat.sub_add_cancel h.length_le

theorem front_rest (h : t <:+ s) : (front s t).rest = t := by
  obtain ⟨u, rfl⟩ := h
  show ((u ++ t).take (u ++ t).length).drop ((u ++ t).length - t.length) = t
  rw [List.take_length, List.length_append, Nat.add_sub_cancel, List.drop_left]

theorem ahead_front (h : t <:+ s) {n : Nat} (hn : n ≤ t.length) :
    ahead n (front s t) = .ok ((t.drop n).headD 0, front s t) := by
  have hpos := front_pos h
  obtain ⟨u, rfl⟩ := h
  have hbyte : (u ++ t).getD ((u ++ t).length - t.length + n) 0 = (t.drop n).headD 0 := by
    rw [List.length_append, Nat.add_sub_cancel, List.getD_eq_getElem?_getD,
      List.getElem?_append_right (Nat.le_add_right _ _), Nat.add_sub_cancel_left,
      List.headD_eq_head?_getD, List.head?_drop]
  have hle : (front (u ++ t) t).pos + n ≤ (front (u ++ t) t).stop := by
    show _ ≤ (u ++ t).length
    omega
  unfold ahead
  rw [if_pos hle]
  exact congrArg (fun b => Except.ok (b, front (u ++ t) t)) hbyte

theorem peek_front (h : t <:+ s) : peek (front s t) = .ok (t.headD 0, front s t) :=
  ahead_front h (Nat.zero_le _)

theorem peek_cons {b : UInt8} (h : b :: t <:+ s) :
    peek (front s (b :: t)) = .ok (b, front s (b :: t)) := peek_front h

theorem move_front {x : List UInt8} (h : x ++ t <:+ s) :
    move x.length (front s (x ++ t)) = .ok ((), front s t) := by
  have hpos := front_pos h
  rw [List.length_append] at hpos
  have hle : (front s (x ++ t)).pos + x.length ≤ (front s (x ++ t)).stop := by
    show _ ≤ s.length
    omega
  unfold move
  rw [if_pos hle]
  refine congrArg (fun i => Except.ok ((), Cursor.mk s s.length i)) ?_
  show (front s (x ++ t)).pos + x.length = s.length - t.length
  omega

theorem next_front {b : UInt8} (h : b :: t <:+ s) : next (front s (b :: t)) = .ok ((), front s t) :=
  move_front (x := [b]) h

theorem scan_front (h : t <:+ s) (p : UInt8 → Bool) :
    scan p (front s t) = .ok ((t.takeWhile p).length, front s t) := by
  unfold scan
  rw [front_rest h]

theorem behind_front {x : List UInt8} (h : x ++ t <:+ s) :
    behind x.length (front s t) = .ok (x, front s t) := by
  obtain ⟨u, rfl⟩ := h
  have hle : (front (u ++ (x ++ t)) t).text.length ≤ (front (u ++ (x ++ t)) t).stop := Nat.le_refl _
  unfold behind
  rw [if_pos hle]
  refine congrArg (fun y => Except.ok (y, front _ t)) ?_
  show ((u ++ (x ++ t)).drop ((u ++ (x ++ t)).length - t.length - x.length)).take x.length = x
  rw [List.length_append, List.length_append, show u.length + (x.length + t.length) - t.length -
    x.length = u.length by omega, List.drop_left, List.take_left]

theorem skip_front (h : t <:+ s) (p : UInt8 → Bool) :
    skip p (front s t) = .ok ((), front s (t.dropWhile p)) := by
  have hsplit := List.takeWhile_append_dropWhile (p := p) (l := t)
  rw [skip, bind_ok (scan_front h p)]
  have hmove := move_front (s := s) (x := t.takeWhile p) (t := t.dropWhile p) (by rwa [hsplit])
  rwa [hsplit] at hmove

theorem word_front (h : t <:+ s) (p : UInt8 → Bool) :
    word p (front s t) = .ok (t.takeWhile p, front s (t.dropWhile p)) := by
  have hsplit := List.takeWhile_append_dropWhile (p := p) (l := t)
  have hmove := move_front (s := s) (x := t.takeWhile p) (t := t.dropWhile p) (by rwa [hsplit])
  rw [hsplit] at hmove
  rw [word, bind_ok (scan_front h p), bind_ok hmove]
  exact behind_front (by rwa [hsplit])

end Front

/-! ## A string that is too long -/

/-- The string goes on behind the end that the parser knows. -/
structure Cut (c : Cursor) : Prop where
  pos_le : c.pos ≤ c.stop
  longer : c.stop < c.text.length

section Cut

variable {c : Cursor}

theorem rest_length_le (c : Cursor) : c.rest.length ≤ c.stop - c.pos := by
  rw [rest, List.length_drop, List.length_take]
  omega

theorem peek_of_rest {b : UInt8} {t : List UInt8} (h : c.rest = b :: t) : peek c = .ok (b, c) := by
  have hle := c.rest_length_le
  have hbyte := congrArg List.head? h
  rw [h, List.length_cons] at hle
  rw [rest, List.head?_drop, List.getElem?_take_of_lt (by omega), List.head?_cons] at hbyte
  unfold peek ahead
  rw [if_pos (by omega), List.getD_eq_getElem?_getD]
  exact congrArg (fun o : Option UInt8 => Except.ok (o.getD 0, c)) hbyte

theorem peek_start (s : List UInt8) (n : Nat) :
    peek ⟨s, n, 0⟩ = .ok (s.headD 0, ⟨s, n, 0⟩) := by
  unfold peek ahead
  rw [if_pos (Nat.zero_le n), List.headD_eq_head?_getD, List.head?_eq_getElem?]
  exact congrArg (fun b => Except.ok (b, Cursor.mk s n 0)) (List.getD_eq_getElem?_getD ..)

theorem Cut.rest_length (h : c.Cut) : c.rest.length = c.stop - c.pos := by
  rw [rest, List.length_drop, List.length_take, Nat.min_eq_left h.longer.le]

theorem Cut.behind (h : c.Cut) (n : Nat) : behind n c = .error .outside :=
  if_neg (Nat.not_le_of_lt h.longer)

theorem Cut.move (h : c.Cut) {n : Nat} (hn : c.pos + n ≤ c.stop) :
    ∃ c', move n c = .ok ((), c') ∧ c'.Cut :=
  ⟨_, if_pos hn, hn, h.longer⟩

theorem Cut.scan_le (h : c.Cut) (p : UInt8 → Bool) :
    c.pos + (c.rest.takeWhile p).length ≤ c.stop := by
  have hle := h.pos_le
  have hrest := c.rest_length_le
  have hscan := (List.takeWhile_prefix p (l := c.rest)).length_le
  omega

theorem Cut.skip (h : c.Cut) (p : UInt8 → Bool) : ∃ c', skip p c = .ok ((), c') ∧ c'.Cut :=
  h.move (h.scan_le p)

/-- A word is looked for as long as it should be, and then cut out of all there is. -/
theorem Cut.word (h : c.Cut) (p : UInt8 → Bool) : word p c = .error .outside := by
  obtain ⟨c', hmove, hcut⟩ := h.move (h.scan_le p)
  have hscan : scan p c = .ok ((c.rest.takeWhile p).length, c) := rfl
  rw [Cursor.word, bind_ok hscan, bind_ok hmove, hcut.behind]

end Cut

end Cursor

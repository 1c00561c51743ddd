/-
  The cursor buffer of `libframework/zdata_buffer.h`.

  `ZDataBuffer<T>` is a block of memory with a position and a limit, filled by `put`, turned round
  by `flip`, emptied by `get` and reset by `clear`.  The block is the list `buf`, whatever it held
  when it was allocated; the cursor invariant `pos ≤ limit ≤ capacity` is carried by the structure,
  so no operation below can leave it.

  A bulk `put` or `get` copies with `memcpy` and takes its length as an `int`.  A negative length
  becomes a huge `size_t` there, and a length beyond the source reads past it: both are undefined
  behaviour and have no result (`none`).  A length beyond what remains is silently shortened.

  What a writer of the buffer has filled is `held`, the bytes below the position; `put_held` says
  what a put adds to them and `get_flip` that flipping and getting gives them back.  What a reader
  has before it is `unread`, from the position to the limit; a get takes from its front.
-/
import Mathlib.Data.List.Basic

namespace Monsys

/-- `ZDataBuffer<T>`; `buf.length` is `buf_size_`. -/
structure ZDataBuffer (α : Type) where
  buf : List α
  pos : Nat
  limit : Nat
  pos_le : pos ≤ limit
  limit_le : limit ≤ buf.length

namespace ZDataBuffer

variable {α : Type}

/-- `ZDataBuffer(int size)`: `mem` is what the fresh block happens to contain. -/
def new (mem : List α) : ZDataBuffer α := ⟨mem, 0, mem.length, Nat.zero_le _, Nat.le_refl _⟩

def capability (b : ZDataBuffer α) : Nat := b.buf.length

def remaining (b : ZDataBuffer α) : Nat := b.limit - b.pos

/-- `remain < len ? remain : len`, the length a bulk copy works with. -/
def copyLen (remain : Nat) (len : Int) : Int := if (remain : Int) < len then remain else len

theorem copyLen_le (remain : Nat) (len : Int) : copyLen remain len ≤ remain := by
  unfold copyLen; split <;> omega

/-- `memcpy(buf_ + pos_, v, n); pos_ += n;` for `n` elements that fit. -/
def store (b : ZDataBuffer α) (w : List α) (h : w.length ≤ b.remaining) : ZDataBuffer α where
  buf := b.buf.take b.pos ++ w ++ b.buf.drop (b.pos + w.length)
  pos := b.pos + w.length
  limit := b.limit
  pos_le := by
    have := b.pos_le
    unfold remaining at h
    omega
  limit_le := by
    have h1 := b.pos_le
    have h2 := b.limit_le
    unfold remaining at h
    simp only [List.length_append, List.length_take, List.length_drop]
    omega

/-- `memcpy(v, buf_ + pos_, n); pos_ += n;` for `n` elements that remain. -/
def fetch (b : ZDataBuffer α) (n : Nat) (h : n ≤ b.remaining) : List α × ZDataBuffer α :=
  ((b.buf.drop b.pos).take n,
    { b with
      pos := b.pos + n
      pos_le := by
        have := b.pos_le
        unfold remaining at h
        omega })

/-- `int put(const T *v, int len)`. -/
def put (b : ZDataBuffer α) (v : List α) (len : Int) : Option (Int × ZDataBuffer α) :=
  if b.remaining = 0 then some (0, b)
  else if h : 0 ≤ copyLen b.remaining len ∧ copyLen b.remaining len ≤ v.length then
    some (copyLen b.remaining len, b.store (v.take (copyLen b.remaining len).toNat) (by
      have := copyLen_le b.remaining len
      rw [List.length_take]
      omega))
  else none

/-- `int get(T *v, int len)`: the elements copied out, in place of their number. -/
def get (b : ZDataBuffer α) (len : Int) : Option (List α × ZDataBuffer α) :=
  if 0 ≤ copyLen b.remaining len then
    some (b.fetch (copyLen b.remaining len).toNat (by
      have := copyLen_le b.remaining len
      omega))
  else none

/-- `int put(const T &v)`. -/
def putOne (b : ZDataBuffer α) (v : α) : Int × ZDataBuffer α :=
  if h : 0 < b.remaining then (1, b.store [v] h) else (0, b)

/-- `T get()`: where nothing remains, the element at the position, which may be past the block. -/
def getOne (b : ZDataBuffer α) : Option (α × ZDataBuffer α) :=
  match b.buf[b.pos]? with
  | none => none
  | some v => if h : 0 < b.remaining then some (v, (b.fetch 1 h).2) else some (v, b)

/-- `void clear()`. -/
def clear (b : ZDataBuffer α) : ZDataBuffer α :=
  ⟨b.buf, 0, b.buf.length, Nat.zero_le _, Nat.le_refl _⟩

/-- `void flip()`. -/
def flip (b : ZDataBuffer α) : ZDataBuffer α :=
  ⟨b.buf, 0, b.pos, Nat.zero_le _, Nat.le_trans b.pos_le b.limit_le⟩

/-! ## What the buffer holds -/

/-- The elements below the position. -/
def held (b : ZDataBuffer α) : List α := b.buf.take b.pos

@[simp] theorem held_length (b : ZDataBuffer α) : b.held.length = b.pos := by
  have h1 := b.pos_le
  have h2 := b.limit_le
  rw [held, List.length_take]
  omega

theorem store_held (b : ZDataBuffer α) (w : List α) (h : w.length ≤ b.remaining) :
    (b.store w h).held = b.held ++ w := by
  have hlen : (b.held ++ w).length = b.pos + w.length := by rw [List.length_append, held_length]
  show (b.held ++ w ++ _).take (b.pos + w.length) = b.held ++ w
  rw [← hlen, List.take_left]

theorem store_capability (b : ZDataBuffer α) (w : List α) (h : w.length ≤ b.remaining) :
    (b.store w h).capability = b.capability := by
  have h1 := b.pos_le
  have h2 := b.limit_le
  unfold remaining at h
  simp only [capability, store, List.length_append, List.length_take, List.length_drop]
  omega

/-- **What a put adds**: the elements given, as far as the limit goes.  What does not fit is
    dropped without a word. -/
theorem put_held (b : ZDataBuffer α) {v : List α} {len : Nat} (hlen : len ≤ v.length) :
    ∃ n b', b.put v len = some (n, b') ∧ b'.held = (b.held ++ v.take len).take b.limit ∧
      b'.limit = b.limit ∧ b'.capability = b.capability := by
  have hpos := b.pos_le
  unfold put
  by_cases hfull : b.remaining = 0
  · rw [if_pos hfull]
    refine ⟨0, b, rfl, ?_, rfl, rfl⟩
    unfold remaining at hfull
    rw [List.take_append_of_le_length (by rw [held_length]; omega),
      List.take_of_length_le (by rw [held_length]; exact hpos)]
  · have hcopy : copyLen b.remaining len = (min b.remaining len : Nat) := by
      unfold copyLen; split <;> omega
    rw [if_neg hfull, dif_pos (by rw [hcopy]; omega)]
    refine ⟨_, _, rfl, ?_, rfl, store_capability _ _ _⟩
    have hkeep : b.held.take b.limit = b.held :=
      List.take_of_length_le (by rw [held_length]; exact hpos)
    rw [store_held, hcopy, Int.toNat_natCast, List.take_append, held_length, hkeep, List.take_take]
    rfl

/-- A put of what there is room for. -/
theorem put_room (b : ZDataBuffer α) {v : List α} (h : v.length ≤ b.remaining) :
    ∃ b', b.put v v.length = some ((v.length : Int), b') ∧ b'.held = b.held ++ v ∧
      b'.limit = b.limit := by
  unfold put
  by_cases hfull : b.remaining = 0
  · -- nothing remains, so nothing was given
    have hnil : v = [] := List.eq_nil_of_length_eq_zero (by omega)
    subst hnil
    rw [if_pos hfull]
    exact ⟨b, rfl, (List.append_nil _).symm, rfl⟩
  · have hcopy : copyLen b.remaining v.length = v.length := by unfold copyLen; split <;> omega
    rw [if_neg hfull, dif_pos (by rw [hcopy]; omega)]
    refine ⟨_, congrArg some (Prod.ext hcopy rfl), ?_, rfl⟩
    rw [store_held, hcopy, Int.toNat_natCast, List.take_length]

/-- A put of a negative length, while anything remains. -/
theorem put_neg (b : ZDataBuffer α) (v : List α) {len : Int} (hlen : len < 0)
    (hrem : b.remaining ≠ 0) : b.put v len = none := by
  unfold put
  rw [if_neg hrem, dif_neg]
  unfold copyLen
  split <;> omega

/-- **Flip and get**: what was held comes out whole, and nothing remains. -/
theorem get_flip (b : ZDataBuffer α) :
    ∃ b', b.flip.get b.flip.remaining = some (b.held, b') ∧ b'.remaining = 0 ∧
      b'.capability = b.capability := by
  have hrem : b.flip.remaining = b.pos := Nat.sub_zero b.pos
  have hcopy : (copyLen b.flip.remaining b.flip.remaining).toNat = b.pos := by
    unfold copyLen; rw [hrem]; split <;> rfl
  have hnonneg : 0 ≤ copyLen b.flip.remaining b.flip.remaining := by
    unfold copyLen; split <;> omega
  refine ⟨(b.flip.fetch b.pos (Nat.le_of_eq hrem.symm)).2, ?_, ?_, rfl⟩
  · unfold get
    rw [if_pos hnonneg]
    simp only [hcopy]
    rfl
  · show b.pos - (0 + b.pos) = 0
    omega

/-- The elements between the position and the limit. -/
def unread (b : ZDataBuffer α) : List α := (b.buf.drop b.pos).take b.remaining

@[simp] theorem unread_length (b : ZDataBuffer α) : b.unread.length = b.remaining := by
  have h1 := b.pos_le
  have h2 := b.limit_le
  rw [unread, List.length_take, List.length_drop, remaining]
  omega

theorem flip_unread (b : ZDataBuffer α) : b.flip.unread = b.held := by
  show (b.buf.drop 0).take (b.pos - 0) = b.buf.take b.pos
  rw [List.drop_zero, Nat.sub_zero]

/-- A fetch takes the first of what is unread. -/
theorem fetch_unread (b : ZDataBuffer α) {bs tail : List α} (h : b.unread = bs ++ tail) :
    ∃ hle : bs.length ≤ b.remaining,
      (b.fetch bs.length hle).1 = bs ∧ (b.fetch bs.length hle).2.unread = tail := by
  have hlen : b.remaining = bs.length + tail.length := by
    rw [← unread_length, h, List.length_append]
  have hle : bs.length ≤ b.remaining := by omega
  have htake : b.unread.take bs.length = (b.buf.drop b.pos).take bs.length := by
    rw [unread, List.take_take, Nat.min_eq_left hle]
  have hdrop : b.unread.drop bs.length = (b.fetch bs.length hle).2.unread := by
    show _ = (b.buf.drop (b.pos + bs.length)).take (b.limit - (b.pos + bs.length))
    rw [unread, List.drop_take, List.drop_drop, remaining, Nat.sub_sub]
  refine ⟨hle, ?_, ?_⟩
  · show (b.buf.drop b.pos).take bs.length = bs
    rw [← htake, h, List.take_left]
  · rw [← hdrop, h, List.drop_left]

/-- A get of what is there. -/
theorem get_unread (b : ZDataBuffer α) {bs tail : List α} (h : b.unread = bs ++ tail) :
    ∃ b', b.get bs.length = some (bs, b') ∧ b'.unread = tail := by
  obtain ⟨hle, hfst, hsnd⟩ := b.fetch_unread h
  have hcopy : copyLen b.remaining bs.length = bs.length := by unfold copyLen; split <;> omega
  refine ⟨_, ?_, hsnd⟩
  unfold get
  rw [if_pos (by rw [hcopy]; omega)]
  simp only [hcopy, Int.toNat_natCast]
  exact congrArg some (Prod.ext hfst rfl)

theorem getOne_unread (b : ZDataBuffer α) {v : α} {tail : List α} (h : b.unread = v :: tail) :
    ∃ b', b.getOne = some (v, b') ∧ b'.unread = tail := by
  obtain ⟨hle, hfst, hsnd⟩ := @fetch_unread _ b [v] tail h
  have hat : b.buf[b.pos]? = some v := by
    have hhead : ((b.buf.drop b.pos).take 1).head? = some v := by
      show (b.fetch 1 hle).1.head? = some v
      rw [show (b.fetch 1 hle).1 = [v] from hfst]
      rfl
    rwa [List.head?_take, if_neg (by decide), List.head?_drop] at hhead
  refine ⟨_, ?_, hsnd⟩
  unfold getOne
  rw [hat]
  exact dif_pos hle

end ZDataBuffer

end Monsys

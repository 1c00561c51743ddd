/-
  Programs on a tape that ends too early.

  `Tape.lean` says what a program does where there are cells enough.  This says what it does where
  there are not.

  1. **Cuts** — a program that moves as far as there are cells: it fails for want of them, except
     that its last `loose` cells may be cut off without a word.  Of two programs in a row the first
     may only be cut where the second is left with too little.
  2. **Shortage** — the states that have only the first of some cells, and `Starves`, the programs
     that fail in them.
-/
import Monsys.Lib.Tape

namespace Tape

variable {σ β ε α γ : Type}

/-! ## Cuts -/

/-- The program moves over as many of its cells as are left, if at most `loose` are missing; else it
    fails. -/
structure Cuts (T : Tape σ β) (e : ε) (c : Prog σ ε α) (bs : List β) (loose : Nat) : Prop where
  moves : ∀ s, bs.length ≤ T.left s + loose →
    ∃ a s', c s = .ok (a, s') ∧ T.Moved (bs.take (T.left s)) s s'
  fails : ∀ s, T.left s + loose < bs.length → c s = .error e

namespace Cuts

variable {T : Tape σ β} {e : ε}

/-- What is left after a cut move. -/
theorem left_of_moved {bs : List β} {s s' : σ} (h : T.Moved (bs.take (T.left s)) s s') :
    T.left s' = T.left s - bs.length := by
  have hleft := T.moved_left h
  rw [List.length_take] at hleft
  omega

theorem ret (a : α) : T.Cuts e (pure a : Prog σ ε α) [] 0 where
  moves s _ := ⟨a, s, rfl, by rw [List.take_nil]; exact T.moved_nil s⟩
  fails s h := absurd h (Nat.not_lt_zero _)

/-- A program that checks for its cells. -/
theorem strict {c : Prog σ ε α} {bs : List β} {a : α} (hc : T.Passes c bs a)
    (hready : ∀ s, bs.length ≤ T.left s → T.Ready bs s)
    (hfails : ∀ s, T.left s < bs.length → c s = .error e) : T.Cuts e c bs 0 where
  moves := by
    intro s hle
    have hfits : bs.length ≤ T.left s := hle
    obtain ⟨s', hrun, hmoved⟩ := hc s (hready s hfits)
    exact ⟨a, s', hrun, by rwa [List.take_of_length_le hfits]⟩
  fails s h := hfails s h

/-- One after the other, where the second sees a cut of the first, or the first is not cut. -/
theorem bind {c : Prog σ ε α} {f : α → Prog σ ε γ} {bs bs' : List β} {loose loose' : Nat}
    (hc : T.Cuts e c bs loose) (hf : ∀ a, T.Cuts e (f a) bs' loose')
    (h : loose' < bs'.length ∨ loose = 0 ∧ loose' ≤ bs'.length) :
    T.Cuts e (c >>= f) (bs ++ bs') loose' where
  moves := by
    intro s hle
    rw [List.length_append] at hle
    have hfits : bs.length ≤ T.left s := by omega
    obtain ⟨a, s', hrun, hmoved⟩ := hc.moves s (by omega)
    have hleft := left_of_moved hmoved
    obtain ⟨g, s'', hrun', hmoved'⟩ := (hf a).moves s' (by omega)
    refine ⟨g, s'', ?_, ?_⟩
    · show (c s >>= fun p => f p.1 p.2) = _
      rw [hrun]
      exact hrun'
    · rw [List.take_append, ← hleft]
      exact T.moved_append hmoved hmoved'
  fails := by
    intro s hlt
    rw [List.length_append] at hlt
    show (c s >>= fun p => f p.1 p.2) = _
    rcases Nat.lt_or_ge (T.left s + loose) bs.length with hshort | hfits
    · rw [hc.fails s hshort]
      rfl
    · obtain ⟨a, s', hrun, hmoved⟩ := hc.moves s hfits
      have hleft := left_of_moved hmoved
      rw [hrun]
      exact (hf a).fails s' (by omega)

/-- Before something that moves nothing. -/
theorem still {c : Prog σ ε α} {f : α → Prog σ ε γ} {bs : List β} {loose : Nat}
    (hc : T.Cuts e c bs loose) (hf : ∀ a, T.Cuts e (f a) [] 0) : T.Cuts e (c >>= f) bs loose where
  moves := by
    intro s hle
    obtain ⟨a, s', hrun, hmoved⟩ := hc.moves s hle
    obtain ⟨g, s'', hrun', hmoved'⟩ := (hf a).moves s' (Nat.zero_le _)
    refine ⟨g, s'', ?_, ?_⟩
    · show (c s >>= fun p => f p.1 p.2) = _
      rw [hrun]
      exact hrun'
    · have hboth := T.moved_append hmoved hmoved'
      rwa [List.take_nil, List.append_nil] at hboth
  fails := by
    intro s hlt
    show (c s >>= fun p => f p.1 p.2) = _
    rw [hc.fails s hlt]
    rfl

/-- The last of a row. -/
theorem last {c : Prog σ ε α} {f : α → γ} {bs : List β} {loose : Nat} (hc : T.Cuts e c bs loose) :
    T.Cuts e (do let v ← c; pure (f v)) bs loose := hc.still fun a => ret (f a)

/-- Past a value. -/
theorem given {f : α → Prog σ ε γ} {bs : List β} {a : α} {loose : Nat}
    (hf : T.Cuts e (f a) bs loose) : T.Cuts e (pure a >>= f) bs loose := hf

/-- A program that reports how much it has moved. -/
theorem counted {c : Prog σ ε α} {bs : List β} {loose : Nat} (hc : T.Cuts e c bs loose) :
    T.Cuts e (Tape.counted T.left c) bs loose where
  moves := by
    intro s hle
    obtain ⟨a, s', hrun, hmoved⟩ := hc.moves s hle
    refine ⟨((T.left s : Int) - T.left s', a), s', ?_, hmoved⟩
    show (c s >>= fun p => Except.ok (((T.left s : Int) - T.left p.2, p.1), p.2)) = _
    rw [hrun]
    rfl
  fails := by
    intro s hlt
    show (c s >>= fun p => Except.ok (((T.left s : Int) - T.left p.2, p.1), p.2)) = _
    rw [hc.fails s hlt]
    rfl

end Cuts

/-- How much of a list's last element may be cut. -/
def lastLoose (loose : α → Nat) : List α → Nat
  | [] => 0
  | [x] => loose x
  | _ :: y :: xs => lastLoose loose (y :: xs)

theorem lastLoose_lt {loose : α → Nat} {cells : α → List β} : ∀ {xs : List α}, xs ≠ [] →
    (∀ x ∈ xs, loose x < (cells x).length) → lastLoose loose xs < (xs.flatMap cells).length := by
  intro xs
  induction xs with
  | nil => exact fun h => absurd rfl h
  | cons x xs ih =>
    intro _ h
    rw [List.flatMap_cons, List.length_append]
    cases xs with
    | nil =>
      have hx := h x List.mem_cons_self
      show loose x < _
      omega
    | cons y ys =>
      have hrest := ih (List.cons_ne_nil y ys) fun z hz => h z (List.mem_cons_of_mem x hz)
      show lastLoose loose (y :: ys) < _
      omega

theorem lastLoose_zero (xs : List α) : lastLoose (fun _ => 0) xs = 0 := by
  induction xs with
  | nil => rfl
  | cons x xs ih =>
    cases xs with
    | nil => rfl
    | cons y ys => exact ih

/-- A loop over a list: the last element may be cut. -/
theorem Cuts.each {T : Tape σ β} {e : ε} {f : α → Prog σ ε γ} {cells : α → List β}
    {loose : α → Nat} : ∀ {xs : List α},
    (∀ x ∈ xs, T.Cuts e (f x) (cells x) (loose x) ∧ loose x < (cells x).length) →
      T.Cuts e (Tape.each f xs) (xs.flatMap cells) (lastLoose loose xs) := by
  intro xs
  induction xs with
  | nil => exact fun _ => ret ()
  | cons x xs ih =>
    intro h
    obtain ⟨hx, _⟩ := h x List.mem_cons_self
    have hrest := ih fun y hy => h y (List.mem_cons_of_mem x hy)
    cases xs with
    | nil =>
      rw [List.flatMap_cons, List.flatMap_nil, List.append_nil]
      exact hx.still fun _ => ret ()
    | cons y ys =>
      have hlt := lastLoose_lt (List.cons_ne_nil y ys) fun z hz =>
        (h z (List.mem_cons_of_mem x hz)).2
      exact hx.bind (fun _ => hrest) (Or.inl hlt)

/-! ## Shortage -/

/-- The states of a tape that have only the first of some cells. -/
structure Shortage (T : Tape σ β) where
  Short : List β → σ → Prop
  not_short_nil : ∀ s, ¬ Short [] s
  split : ∀ {bs bs' s}, Short (bs ++ bs') s →
    Short bs s ∨ T.Ready bs s ∧ ∀ s', T.Moved bs s s' → Short bs' s'

/-- The program fails in every state that has only the first of its cells. -/
def Starves {T : Tape σ β} (S : T.Shortage) (e : ε) (c : Prog σ ε α) (bs : List β) : Prop :=
  ∀ s, S.Short bs s → c s = .error e

namespace Starves

variable {T : Tape σ β} {S : T.Shortage} {e : ε}

theorem nil (c : Prog σ ε α) : Starves S e c [] := fun s h => absurd h (S.not_short_nil s)

/-- One after the other. -/
theorem bind {c : Prog σ ε α} {f : α → Prog σ ε γ} {bs bs' : List β} {a : α}
    (hpasses : T.Passes c bs a) (hc : Starves S e c bs) (hf : Starves S e (f a) bs') :
    Starves S e (c >>= f) (bs ++ bs') := by
  intro s hshort
  show (c s >>= fun p => f p.1 p.2) = _
  rcases S.split hshort with hfirst | ⟨hready, hrest⟩
  · rw [hc s hfirst]
    rfl
  · obtain ⟨s', hrun, hmoved⟩ := hpasses s hready
    rw [hrun]
    exact hf s' (hrest s' hmoved)

/-- The last of a row. -/
theorem last {c : Prog σ ε α} {f : α → γ} {bs : List β} (hc : Starves S e c bs) :
    Starves S e (do let v ← c; pure (f v)) bs := by
  intro s hshort
  show (c s >>= fun p => Except.ok (f p.1, p.2)) = _
  rw [hc s hshort]
  rfl

/-- Past a check, whether it fails or not. -/
theorem check {p : σ → Bool} {f : Unit → Prog σ ε γ} {bs : List β} (hf : Starves S e (f ()) bs) :
    Starves S e (failIf e p >>= f) bs := by
  intro s hshort
  show (failIf e p s >>= fun q => f q.1 q.2) = _
  unfold failIf
  split
  · rfl
  · exact hf s hshort

/-- A loop that collects. -/
theorem times {δ : Type} {c : Prog σ ε α} {cells : δ → List β} {val : δ → α} :
    ∀ {xs : List δ} {acc : List α}, (∀ x ∈ xs, T.Passes c (cells x) (val x)) →
      (∀ x ∈ xs, Starves S e c (cells x)) →
      Starves S e (Tape.times c acc xs.length) (xs.flatMap cells) := by
  intro xs
  induction xs with
  | nil => exact fun _ _ => nil _
  | cons x xs ih =>
    intro acc hpasses hstarves
    exact bind (hpasses x List.mem_cons_self) (hstarves x List.mem_cons_self)
      (ih (fun y hy => hpasses y (List.mem_cons_of_mem x hy))
        fun y hy => hstarves y (List.mem_cons_of_mem x hy))

theorem counted {left : σ → Nat} {c : Prog σ ε α} {bs : List β} (hc : Starves S e c bs) :
    Starves S e (Tape.counted left c) bs := by
  intro s hshort
  show (c s >>= fun p => Except.ok (((left s : Int) - left p.2, p.1), p.2)) = _
  rw [hc s hshort]
  rfl

end Starves

end Tape

/-
  Where `compile` looks, and that it ends.

  `input_len_` is a `uint32_t`.  A script whose length is one is read inside its bounds, and `compile`
  comes to an end: each text is read in some way (`exists_script`).  Of a longer one `input_len_` is a
  part only, while each `std::string` that is made goes through all of it.

  1. **Longer scripts** — what `constStr` and `varFunc` do in front of one.
  2. **Bounds** — `compile_inBounds_iff`.
-/
import Monsys.FormatterReading

namespace Monsys

open Cursor

namespace ZFormatter

/-! ## Longer scripts -/

/-- Of such a script `compile` sees the first byte only, and that is no '$'. -/
def Unseen (script : List UInt8) : Prop := script.length % 2 ^ 32 = 0 ∧ script.headD 0 ≠ dollar

section Long

variable {c : Cursor} {t : List UInt8}

/-- Where `constStr` finds nothing, the text is at its end, or a name begins. -/
theorem constEnd_zero (h : constEnd false 0 t = 0) : t = [] ∨ ∃ b u, t = dollar :: b :: u := by
  cases t with
  | nil => exact Or.inl rfl
  | cons a t =>
    have hclear := constEnd_ge t false (0 + 1)
    rw [Bool.toNat_false] at hclear
    rw [constEnd] at h
    split_ifs at h with hdollar _ hflag
    · cases t with
      | nil => cases h
      | cons b u => exact Or.inr ⟨b, u, by rw [hdollar]⟩
    · exact hflag.elim
    · omega
    · omega

theorem constStr_cut (h : c.Cut) (hsome : constEnd false 0 c.rest ≠ 0) :
    constStr c = .error .outside := by
  have hscan : constScan c = .ok (constEnd false 0 c.rest, c) := rfl
  have hend := constEnd_le c.rest false 0
  have hrest := c.rest_length_le
  have hle := h.pos_le
  obtain ⟨c', hmove, hcut⟩ := h.move (n := constEnd false 0 c.rest) (by omega)
  rw [constStr, bind_ok hscan, if_neg hsome, bind_ok hmove, bind_error (hcut.behind _)]

/-- `varFunc` behind a '$' makes a string of the name. -/
theorem varFunc_cut (h : c.Cut) (fuel : Nat) {b : UInt8} {u : List UInt8}
    (hrest : c.rest = dollar :: b :: u) : varFunc (fuel + 1) c = .error .outside := by
  have hroom := c.rest_length_le
  rw [hrest, List.length_cons, List.length_cons] at hroom
  have hcut : Cut { c with pos := c.pos + 1 } := ⟨show c.pos + 1 ≤ c.stop by omega, h.longer⟩
  have hnext : next c = .ok ((), { c with pos := c.pos + 1 }) := if_pos (by omega)
  have hbrace : ∃ brace, opensBrace { c with pos := c.pos + 1 } =
      .ok (brace, { c with pos := c.pos + 1 }) := by
    have hpeek : peek { c with pos := c.pos + 1 } = .ok (_, _) := if_pos hcut.pos_le
    rw [opensBrace, bind_ok hpeek]
    exact ⟨_, rfl⟩
  obtain ⟨brace, hbrace⟩ := hbrace
  have hopen : ∃ c', onlyIf brace next { c with pos := c.pos + 1 } = .ok ((), c') ∧ c'.Cut := by
    cases brace with
    | false => exact ⟨_, rfl, hcut⟩
    | true => exact hcut.move (show c.pos + 1 + 1 ≤ c.stop by omega)
  obtain ⟨c', hopen, hcut'⟩ := hopen
  obtain ⟨c'', hblank, hcut''⟩ := hcut'.skip isBlank
  rw [varFunc, varFuncWith, bind_ok (peek_of_rest hrest), if_neg (not_not_intro rfl), bind_ok hnext,
    bind_ok hbrace, bind_ok hopen, skipBlank, bind_ok hblank, bind_error (hcut''.word _)]

theorem compile_error {fuel : Nat} {f : ZFormatter} {script : List UInt8} {e : Fault}
    (hsome : script ≠ [])
    (h : segment (fuel + 1) ⟨script, script.length % 2 ^ 32, 0⟩ = .error e) :
    compile (fuel + 1) f script = .error e := by
  have hlen : ¬ script.length ≤ 0 :=
    fun hle => hsome (List.length_eq_zero_iff.mp (Nat.le_zero.mp hle))
  rw [compile, if_neg hlen, segments, bind_error h]
  rfl

/-- A script longer than a `uint32_t` says is copied as a whole, unless nothing of it is seen. -/
theorem segment_cut (h : c.Cut) (fuel : Nat) (hseen : c.rest = [] → peek c = .ok (dollar, c)) :
    segment (fuel + 1) c = .error .outside := by
  by_cases hconst : constEnd false 0 c.rest = 0
  · rw [segment, bind_ok (constStr_none hconst)]
    show varFunc (fuel + 1) c = _
    rcases constEnd_zero hconst with hnil | ⟨b, u, hname⟩
    · have hleft := h.rest_length
      rw [hnil, List.length_nil] at hleft
      have hnext : next c = .error .outside := if_neg (by omega)
      rw [varFunc, varFuncWith, bind_ok (hseen hnil), if_neg (not_not_intro rfl), bind_error hnext]
    · exact varFunc_cut h fuel hname
  · rw [segment, bind_error (constStr_cut h hconst)]

theorem compiles_unseen (f : ZFormatter) {script : List UInt8} (hsome : script ≠ [])
    (h : Unseen script) : Compiles f script (true, ⟨⟨script, 0, 0⟩, f.funcList⟩) := by
  obtain ⟨hmod, hhead⟩ := h
  intro fuel hfuel
  obtain ⟨fuel, rfl⟩ := Nat.exists_eq_add_one_of_ne_zero (Nat.ne_zero_of_lt hfuel)
  have hlen : ¬ script.length ≤ 0 :=
    fun hle => hsome (List.length_eq_zero_iff.mp (Nat.le_zero.mp hle))
  have hrest : constEnd false 0 (Cursor.rest ⟨script, 0, 0⟩) = 0 := rfl
  have hfunc : varFunc (fuel + 1) ⟨script, 0, 0⟩ = .ok (none, ⟨script, 0, 0⟩) := by
    rw [varFunc, varFuncWith, bind_ok (peek_start script 0), if_pos hhead]
    rfl
  have hsegment : segment (fuel + 1) ⟨script, 0, 0⟩ = .ok (none, ⟨script, 0, 0⟩) := by
    rw [segment, bind_ok (constStr_none hrest)]
    exact hfunc
  rw [compile, if_neg hlen, hmod, segments, bind_ok hsegment]
  show Except.ok (true, (⟨_, f.funcList ++ []⟩ : ZFormatter)) = _
  rw [List.append_nil]

end Long

/-! ## Bounds -/

/-- `compile` comes to an end, and neither looks nor steps behind `input_len_`. -/
def InBounds (f : ZFormatter) (script : List UInt8) : Prop := ∃ r, Compiles f script r

/-- What comes to a result has a length that is a `uint32_t`, or is not looked at. -/
theorem Compiles.short_or_unseen {f : ZFormatter} {script : List UInt8} {r : Bool × ZFormatter}
    (h : Compiles f script r) : script.length < 2 ^ 32 ∨ Unseen script := by
  by_contra hlong
  rw [Unseen, not_or, not_and, not_not, not_lt] at hlong
  have hrun := h (script.length + 1) (Nat.lt_succ_self _)
  have hsome : script ≠ [] := by
    rintro rfl
    exact absurd hlong.1 (by decide)
  have hmod : script.length % 2 ^ 32 < 2 ^ 32 := Nat.mod_lt _ (by decide)
  have hcut : Cut ⟨script, script.length % 2 ^ 32, 0⟩ :=
    ⟨Nat.zero_le _, lt_of_lt_of_le hmod hlong.1⟩
  rw [compile_error hsome (segment_cut hcut script.length fun hnil => ?_)] at hrun
  · cases hrun
  · have hstop := hcut.rest_length
    rw [hnil, List.length_nil] at hstop
    rw [peek_start, hlong.2 hstop.symm]

/-- What `compile` has listed when it returns true. -/
theorem Compiles.listed {f f' : ZFormatter} {script : List UInt8}
    (h : Compiles f script (true, f')) :
    (script.length < 2 ^ 32 ∧ ∃ fs ok, Script script fs ok [] ∧ f'.funcList = f.funcList ++ fs) ∨
      (2 ^ 32 ≤ script.length ∧ f'.funcList = f.funcList) := by
  have hsome : script ≠ [] := by
    rintro rfl
    cases (compiles_nil f).unique h
  rcases lt_or_ge script.length (2 ^ 32) with hlen | hlen
  · obtain ⟨fs, ok, r, hscript⟩ := exists_script _ script (Nat.lt_succ_self _)
    obtain ⟨hr, rfl⟩ := Prod.mk.inj ((hscript.compiles f hsome hlen).unique h)
    obtain rfl := of_decide_eq_true hr.symm
    exact Or.inl ⟨hlen, fs, ok, hscript, rfl⟩
  · have hunseen := h.short_or_unseen.resolve_left (not_lt.mpr hlen)
    cases (compiles_unseen f hsome hunseen).unique h
    exact Or.inr ⟨hlen, rfl⟩

/-- **Termination and bounds of `compile`**, for every script. -/
theorem compile_inBounds_iff (f : ZFormatter) (script : List UInt8) :
    InBounds f script ↔ script.length < 2 ^ 32 ∨ Unseen script := by
  constructor
  · rintro ⟨r, hr⟩
    exact hr.short_or_unseen
  · rintro (hlen | hunseen)
    · by_cases hnil : script = []
      · exact ⟨_, hnil ▸ compiles_nil f⟩
      · obtain ⟨fs, ok, r, h⟩ := exists_script (script.length + 1) script (Nat.lt_succ_self _)
        exact ⟨_, h.compiles f hnil hlen⟩
    · by_cases hnil : script = []
      · exact ⟨_, hnil ▸ compiles_nil f⟩
      · exact ⟨_, compiles_unseen f hnil hunseen⟩

/-- A formatter as it is made. -/
def new : ZFormatter := ⟨⟨[], 0, 0⟩, []⟩

/-- A script of 2³² bytes has an `input_len_` of 0. -/
theorem long_script_overrun :
    ¬ InBounds new (dollar :: List.replicate (2 ^ 32 - 1) 'a'.toUInt8) := by
  have hrest : (List.replicate (2 ^ 32 - 1) 'a'.toUInt8).length = 2 ^ 32 - 1 := List.length_replicate
  have hlen : (dollar :: List.replicate (2 ^ 32 - 1) 'a'.toUInt8).length = 2 ^ 32 := by
    rw [List.length_cons]
    omega
  rintro ⟨r, hr⟩
  rcases hr.short_or_unseen with hshort | hunseen
  · exact absurd hlen hshort.ne
  · exact hunseen.2 rfl

end ZFormatter

end Monsys

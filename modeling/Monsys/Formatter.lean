/-
  `ZFormatter` of `server/zformatter.{h,cc}`: the compiler for format scripts, such as
  "power: $div($1, 10) W".

  1. **Functions** — `ZFunc`, what a script is compiled into.
  2. **The parser** — `constStr`, `varFunc`, `param`, `quoteStr` and `constNumber`, which share an index
     into the script.  `varFunc` and `param` call each other; how deep, and how often a loop goes
     round, is bounded by fuel (`Fault.unfinished`).
  3. **`compile`** — segments are parsed until there is none; then the index is compared with the
     length.  The functions come behind those that are there.

  Modelling choices: the index keeps to `input_len_`, as a step or a look behind it is a
  `Fault.outside` and ends the run.  Characters are those of the C locale.  `arg_` is a leaf of the
  functions.
-/
import Mathlib.Algebra.Ring.Int.Defs
import Mathlib.Algebra.Ring.Nat
import Monsys.Lib.Cursor

namespace Monsys

open Cursor

/-! ## Functions -/

/-- The classes behind `ZFunc*`. -/
inductive ZFunc
  | stringFunc (str : List UInt8)
  | numberFunc (v : Int)
  /-- `&arg_` -/
  | arg
  | divFunc (argList : List ZFunc)
  | multiFunc (argList : List ZFunc)
deriving Repr

namespace ZFormatter

/-! ## The parser -/

def dollar : UInt8 := '$'.toUInt8
def quote : UInt8 := 34
def comma : UInt8 := ','.toUInt8
def openBrace : UInt8 := '{'.toUInt8
def closeBrace : UInt8 := '}'.toUInt8
def openParen : UInt8 := '('.toUInt8
def closeParen : UInt8 := ')'.toUInt8

def isBlank (c : UInt8) : Bool := c == ' '.toUInt8 || c == 9

def isDigit (c : UInt8) : Bool := '0'.toUInt8 ≤ c && c ≤ '9'.toUInt8

def isAlpha (c : UInt8) : Bool :=
  ('a'.toUInt8 ≤ c && c ≤ 'z'.toUInt8) || ('A'.toUInt8 ≤ c && c ≤ 'Z'.toUInt8)

def isIdentifierChar (c : UInt8) : Bool := c == '_'.toUInt8 || isDigit c || isAlpha c

def isNumber (str : List UInt8) : Bool := str.all isDigit

/-- The number that digits stand for. -/
def decimal (digits : List UInt8) : Nat :=
  digits.foldl (fun n c => 10 * n + (c.toNat - '0'.toNat)) 0

/-- `strtol` of digits stops at the largest `long`. -/
def strtol (digits : List UInt8) : Nat :=
  if decimal digits < 9223372036854775808 then decimal digits else 9223372036854775807

/-- `(int) strtol(..)` -/
def atoi (digits : List UInt8) : Int := (strtol digits : Int).bmod (2 ^ 32)

/-- The loop of `constStr`, from `start_pos` on: where it ends, behind it. -/
def constEnd (hasDollar : Bool) (endPos : Nat) : List UInt8 → Nat
  | [] => endPos
  | c :: cs =>
    if c = dollar then constEnd true (endPos + 1) cs
    else if c = openBrace ∨ isIdentifierChar c then
      if hasDollar then endPos - 1 else constEnd false (endPos + 1) cs
    else constEnd hasDollar (endPos + 1) cs

def constScan : Parser Nat := fun c => .ok (constEnd false 0 c.rest, c)

def constStr : Parser (Option ZFunc) := do
  let n ← constScan
  if n = 0 then return none
  else do
    move n
    let constStr ← behind n
    return some (.stringFunc constStr)

def getFuncByName (name : List UInt8) : Option (List ZFunc → ZFunc) :=
  if name = ['d', 'i', 'v'].map Char.toUInt8 then some .divFunc
  else if name = ['m', 'u', 'l', 't', 'i'].map Char.toUInt8 then some .multiFunc
  else none

def skipBlank : Parser Unit := skip isBlank

def quoteStr : Parser (Option ZFunc) := do
  if (← peek) ≠ quote then return none
  else do
    next
    let n ← scan (· != quote)
    if (← ahead n) ≠ quote then return none
    else do
      -- up to the closing quote, not behind it
      move n
      let s ← behind n
      return some (.stringFunc s)

def constNumber : Parser (Option ZFunc) := do
  let n ← scan isDigit
  if n = 0 then return none
  else do
    move n
    let s ← behind n
    return some (.numberFunc (atoi s))

def opensBrace : Parser Bool := do
  return (← peek) == openBrace

/-- `varFunc` behind the arguments of a function. -/
def closeCall (hasParenthesis : Bool) (func : ZFunc) : Parser (Option ZFunc) := do
  if (← peek) ≠ closeParen then return none
  else do
    next
    onlyIf hasParenthesis skipBlank
    if hasParenthesis then do
      if (← peek) ≠ closeBrace then return none
      else do
        next
        return some func
    else return some func

/-- `varFunc` behind the name, with the loop that reads the arguments of a function. -/
def funcOrVariable (params : Parser (List ZFunc)) (hasParenthesis : Bool) (funcName : List UInt8) :
    Parser (Option ZFunc) := do
  if (← peek) = openParen then do
    next
    skipBlank
    match getFuncByName funcName with
    | none => return none
    | some func => do
      let argList ← params
      closeCall hasParenthesis (func argList)
  else if !isNumber funcName then return none
  else if atoi funcName ≠ 1 then return none
  else return some .arg  -- whether or not a '}' follows

def varFuncWith (params : Parser (List ZFunc)) : Parser (Option ZFunc) := do
  if (← peek) ≠ dollar then return none
  else do
    next
    let hasParenthesis ← opensBrace
    onlyIf hasParenthesis next
    skipBlank
    let funcName ← word isIdentifierChar
    onlyIf hasParenthesis skipBlank
    funcOrVariable params hasParenthesis funcName

/-- `param`, with `varFunc`. -/
def paramWith (varFunc : Parser (Option ZFunc)) : Parser (Option ZFunc) := do
  let c ← peek
  if c = quote then quoteStr
  else if isDigit c then constNumber
  else if c = dollar then varFunc
  else return none

/-- The loop over the arguments, at most so many rounds of it. -/
def params (param : Parser (Option ZFunc)) : Nat → Parser (List ZFunc)
  | 0 => fun _ => .error .unfinished
  | n + 1 => do
    match ← param with
    | none => return []  -- that it has failed is not kept
    | some pa => do
      skipBlank
      if (← peek) ≠ comma then return [pa]
      else do
        -- finds none, as a comma is there
        skipBlank
        next
        skipBlank
        return pa :: (← params param n)

/-- The depth of the calls is bounded, and with it the rounds of their loops. -/
def varFunc : Nat → Parser (Option ZFunc)
  | 0 => fun _ => .error .unfinished
  | n + 1 => varFuncWith (params (paramWith (varFunc n)) n)

/-! ## `compile` -/

/-- One round of `compile`. -/
def segment (fuel : Nat) : Parser (Option ZFunc) := do
  match ← constStr with
  | some func => return some func
  | none => varFunc fuel

/-- The rounds, and what they push. -/
def segments (segment : Parser (Option ZFunc)) : Nat → Parser (List ZFunc)
  | 0 => fun _ => .error .unfinished
  | n + 1 => do
    match ← segment with
    | none => return []
    | some func => return func :: (← segments segment n)

end ZFormatter

/-- The cursor is `input_`, `input_len_` and `input_idx_`. -/
structure ZFormatter where
  cursor : Cursor
  funcList : List ZFunc
deriving Repr

namespace ZFormatter

/-- A script is what stands in front of its NUL; `input_len_` is a `uint32_t`. -/
def compile (fuel : Nat) (f : ZFormatter) :
    (script : Option (List UInt8)) → Except Fault (Bool × ZFormatter)
  | none => return (false, f)
  | some script => do
    if script.length ≤ 0 then return (false, f)
    else do
      let (funcs, c) ← segments (segment fuel) fuel ⟨script, script.length % 2 ^ 32, 0⟩
      if c.pos ≠ c.stop then do
        let _ ← peek c  -- for the message
        return (false, ⟨c, f.funcList ++ funcs⟩)
      else return (true, ⟨c, f.funcList ++ funcs⟩)

/-- What `compile` comes to, however much fuel there is. -/
def Compiles (f : ZFormatter) (script : List UInt8) (r : Bool × ZFormatter) : Prop :=
  ∀ fuel, script.length < fuel → compile fuel f (some script) = .ok r

end ZFormatter

end Monsys

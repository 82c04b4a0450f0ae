/-
JSON values as JavaScript programs handle them: field access that never fails, truthiness, and the
conversions `Number(x)` and `String(x)`. A number is the decimal that prints it, and conversions to
numbers are exact where a double would round.
-/
import Xahc.Data.JsString
import Mathlib.Data.Rat.Floor

namespace Xahc.Data

/-! ## Numbers -/

/-- A finite number `±digits · 10^exp`, its digits without trailing zeros. -/
structure JsNum where
  neg : Bool
  digits : Nat
  exp : Int
  canonical : digits % 10 ≠ 0 ∨ (digits = 0 ∧ exp = 0)
  deriving DecidableEq, Repr

/-- `m · 10^e`. -/
def scale (m : Int) (e : Int) : ℚ := if 0 ≤ e then (m * 10 ^ e.toNat : Int) else mkRat m (10 ^ (-e).toNat)

/-- The value of a number. -/
def JsNum.toRat (n : JsNum) : ℚ := scale (if n.neg then -n.digits else n.digits) n.exp

/-- `String(n)`. -/
def JsNum.toStr (n : JsNum) : String :=
  let s := (toString n.digits).toList
  let point := s.length + n.exp
  let body :=
    if n.digits = 0 then ['0']
    else if 0 ≤ n.exp ∧ point ≤ 21 then s ++ List.replicate n.exp.toNat '0'
    else if 0 < point ∧ point ≤ 21 then s.take point.toNat ++ '.' :: s.drop point.toNat
    else if -6 < point ∧ point ≤ 0 then '0' :: '.' :: List.replicate (-point).toNat '0' ++ s
    else
      let e := point - 1
      let tail := 'e' :: (if 0 ≤ e then '+' else '-') :: (toString e.natAbs).toList
      match s with
      | [d] => d :: tail
      | d :: ds => d :: '.' :: ds ++ tail
      | [] => tail
  String.ofList (if n.neg ∧ n.digits ≠ 0 then '-' :: body else body)

/-! ## Decimal text -/

/-- The number that decimal digits write. -/
abbrev digitsNat (s : List Char) : Nat := Nat.ofDigitChars 10 s 0

theorem isDigit_of_mem_toString {n : Nat} {c : Char} (h : c ∈ (toString n).toList) : c.isDigit = true := by
  rw [Nat.toString_eq_ofList_toDigits, String.toList_ofList] at h
  exact Nat.isDigit_of_mem_toDigits (by decide) (by decide) h

theorem digitsNat_toString (n : Nat) : digitsNat (toString n).toList = n := by
  rw [Nat.toString_eq_ofList_toDigits, String.toList_ofList, digitsNat, Nat.ofDigitChars_ten_toDigits]

theorem toString_toList_ne_nil (n : Nat) : (toString n).toList ≠ [] := by
  rw [Nat.toString_eq_ofList_toDigits, String.toList_ofList]
  exact Nat.toDigits_ne_nil

/-- Digits in the given base. -/
def radixNat (base : Nat) (s : List Char) : Option Nat :=
  if s.isEmpty then none
  else s.foldl (fun acc c => acc.bind fun n =>
    let d := if c.isDigit then some (c.toNat - '0'.toNat)
      else if 'a' ≤ c.toLower ∧ c.toLower ≤ 'f' then some (c.toLower.toNat - 'a'.toNat + 10)
      else none
    d.bind fun d => if d < base then some (base * n + d) else none) (some 0)

/-- `[+-]?digits`, after an `e`. -/
def signedDigits (s : List Char) : Option Int :=
  let (neg, ds) := match s with
    | '-' :: ds => (true, ds)
    | '+' :: ds => (false, ds)
    | ds => (false, ds)
  if ds.isEmpty || !ds.all Char.isDigit then none
  else some (if neg then -digitsNat ds else digitsNat ds)

/-- An unsigned decimal literal: digits with at most one point and an optional exponent. -/
def decimalLiteral (s : List Char) : Option ℚ :=
  let int := s.takeWhile Char.isDigit
  let rest := s.dropWhile Char.isDigit
  let (frac, rest) := match rest with
    | '.' :: rest => (rest.takeWhile Char.isDigit, rest.dropWhile Char.isDigit)
    | rest => ([], rest)
  if int.isEmpty && frac.isEmpty then none
  else
    let m := digitsNat (int ++ frac)
    match rest with
    | [] => some (scale m (-frac.length))
    | c :: rest =>
      if c = 'e' ∨ c = 'E' then (signedDigits rest).map fun e => scale m (e - frac.length) else none

/-- The magnitudes that round to an infinity. -/
def overflow : ℚ := 2 ^ 1024 - 2 ^ 970

/-- `Number(s)` where it is finite. -/
def stringToNumber (s : String) : Option ℚ :=
  let q : Option ℚ := match jsTrim s.toList with
    | [] => some 0
    | '0' :: 'x' :: ds | '0' :: 'X' :: ds => (radixNat 16 ds).map (↑)
    | '0' :: 'o' :: ds | '0' :: 'O' :: ds => (radixNat 8 ds).map (↑)
    | '0' :: 'b' :: ds | '0' :: 'B' :: ds => (radixNat 2 ds).map (↑)
    | '-' :: ds => (decimalLiteral ds).map (- ·)
    | '+' :: ds => decimalLiteral ds
    | ds => decimalLiteral ds
  q.filter fun q => -overflow < q && q < overflow

/-! ## Values -/

/-- A JSON value; the keys of an object are distinct. -/
inductive Json
  | null
  | bool (b : Bool)
  | num (n : JsNum)
  | str (s : String)
  | arr (xs : List Json)
  | obj (fields : List (String × Json))
  deriving Repr

namespace Json

/-- `j[k]`, and `j?.[k]` where `j` is `null`. -/
def get (j : Json) (k : String) : Option Json :=
  match j with
  | obj fields => fields.lookup k
  | _ => none

/-- `j?.[k]` of a value that may be `undefined`. -/
def get? (j : Option Json) (k : String) : Option Json := j.bind (·.get k)

/-- `a ?? b`. -/
def orElse (a b : Option Json) : Option Json :=
  match a with
  | none | some null => b
  | some a => some a

/-- The text of a string. -/
def asString : Json → Option String
  | str s => some s
  | _ => none

/-- The string under a key, where there is one. -/
def getString (j : Json) (k : String) : Option String := (j.get k).bind asString

/-- The elements of an array. -/
def asArray : Json → Option (List Json)
  | arr xs => some xs
  | _ => none

/-- `typeof j === "object"` of a value that is not `null`. -/
def isObject : Json → Bool
  | arr _ | obj _ => true
  | _ => false

/-- `Boolean(x)`. -/
def truthy : Json → Bool
  | null => false
  | bool b => b
  | num n => n.digits ≠ 0
  | str s => s ≠ ""
  | arr _ | obj _ => true

mutual

/-- `Number(j)` where it is finite. -/
def toNumber : Json → Option ℚ
  | null => some 0
  | bool b => some (if b then 1 else 0)
  | num n => some n.toRat
  | str s => stringToNumber s
  | arr xs => elemsToNumber xs
  | obj _ => none

/-- An array is converted through the text of its elements. -/
def elemsToNumber : List Json → Option ℚ
  | [] => some 0
  | [bool _] => none
  | [x] => toNumber x
  | _ :: _ :: _ => none

end

mutual

/-- `String(j)`. -/
def toStr : Json → String
  | null => "null"
  | bool b => if b then "true" else "false"
  | num n => n.toStr
  | str s => s
  | arr xs => ",".intercalate (elemsToStr xs)
  | obj _ => "[object Object]"

/-- The elements of an array as `String` joins them; `null` gives no text. -/
def elemsToStr : List Json → List String
  | [] => []
  | null :: xs => "" :: elemsToStr xs
  | x :: xs => toStr x :: elemsToStr xs

end

/-- `j.length > 0`. -/
def hasLength : Json → Bool
  | arr xs => !xs.isEmpty
  | str s => s ≠ ""
  | obj fields => ((get (obj fields) "length").bind toNumber).any (0 < ·)
  | _ => false

end Json

end Xahc.Data

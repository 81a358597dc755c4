import Decillion.JsonStrings
import Decillion.PyErrors
import Mathlib.Data.List.DropRight
import Mathlib.Data.Rat.Cast.Order
import Mathlib.Data.Rat.Floor

/-!
How the language compares a JSON value with an integer. Whole numbers, truth values and
floating-point numbers are compared by their value; the infinities are beyond all others
and what is not a number compares as false. Other values are equal to no number and have
no order.
-/
namespace Decillion.PyValues

open ByteText JsonValues JsonText JsonStrings PyErrors

inductive Number where
  | finite (value : ℚ)
  | infinite (positive : Bool)
  | nan

def Number.eq : Number → Number → Bool
  | .finite a, .finite b => a = b
  | .infinite a, .infinite b => a = b
  | _, _ => false

def Number.less : Number → Number → Bool
  | .finite a, .finite b => a < b
  | .finite _, .infinite positive => positive
  | .infinite positive, .finite _ => !positive
  | .infinite a, .infinite b => !a && b
  | _, _ => false

/-- The value of a floating-point number. -/
class FloatNumber (F : Type) where
  number : F → Number

instance : FloatNumber WholeFloat := ⟨fun x => .finite x.value⟩

variable {F : Type} [FloatNumber F]

def number? : Json F → Option Number
  | .int n => some (.finite n)
  | .bool b => some (.finite (if b then 1 else 0))
  | .float x => some (FloatNumber.number x)
  | _ => none

/-- The digit zero of each script; these are the scripts of Unicode 14. -/
def zeros : List ℕ :=
  [0x30, 0x660, 0x6f0, 0x7c0, 0x966, 0x9e6, 0xa66, 0xae6, 0xb66, 0xbe6, 0xc66, 0xce6, 0xd66, 0xde6,
   0xe50, 0xed0, 0xf20, 0x1040, 0x1090, 0x17e0, 0x1810, 0x1946, 0x19d0, 0x1a80, 0x1a90, 0x1b50,
   0x1bb0, 0x1c40, 0x1c50, 0xa620, 0xa8d0, 0xa900, 0xa9d0, 0xa9f0, 0xaa50, 0xabf0, 0xff10, 0x104a0,
   0x10d30, 0x11066, 0x110f0, 0x11136, 0x111d0, 0x112f0, 0x11450, 0x114d0, 0x11650, 0x116c0,
   0x11730, 0x118e0, 0x11950, 0x11c50, 0x11d50, 0x11da0, 0x16a60, 0x16ac0, 0x16b50, 0x1d7ce,
   0x1d7d8, 0x1d7e2, 0x1d7ec, 0x1d7f6, 0x1e140, 0x1e2f0, 0x1e950, 0x1fbf0]

/-- The value of a decimal digit. -/
def decimal (c : Char) : Option ℕ :=
  (zeros.find? (fun first => first ≤ c.toNat ∧ c.toNat < first + 10)).map
    (fun first => c.toNat - first)

/-- `c.isspace()` -/
def isWhitespace (c : Char) : Bool :=
  (0x9 ≤ c.toNat ∧ c.toNat ≤ 0xd) ∨ (0x1c ≤ c.toNat ∧ c.toNat ≤ 0x20) ∨
    (0x2000 ≤ c.toNat ∧ c.toNat ≤ 0x200a) ∨
    c.toNat ∈ [0x85, 0xa0, 0x1680, 0x2028, 0x2029, 0x202f, 0x205f, 0x3000]

/-- The blanks that may stand around a number, which the four separators of files, groups,
records and units are not among. -/
def isNumberSpace (c : Char) : Bool := isWhitespace c && !(0x1c ≤ c.toNat ∧ c.toNat ≤ 0x1f)

/-- The digits of a whole number, with single underscores between them. -/
def digitsOf : List Char → Option (List ℕ)
  | [] => none
  | [c] => (decimal c).map (fun d => [d])
  | c :: '_' :: rest => (decimal c).bind (fun d => (digitsOf rest).map (d :: ·))
  | c :: rest => (decimal c).bind (fun d => (digitsOf rest).map (d :: ·))

def ofDecimals (digits : List ℕ) : ℤ := (digits.foldl (fun n d => 10 * n + d) 0 : ℕ)

/-- A longer text of digits is converted in neither direction. -/
def maxDigits : ℕ := 4300

/-- `text.strip()` -/
def strip (text : String) : String :=
  String.ofList (((chars text).dropWhile isWhitespace).rdropWhile isWhitespace)

/-- `text.lower()`, whose table beyond ASCII is left open. -/
structure Lowering where
  lower : String → String
  lower_ascii : ∀ text, isAscii text = true →
    lower text = String.ofList ((chars text).map Char.toLower)

/-- The lower case of ASCII letters and no other. -/
def Lowering.sample : Lowering where
  lower := fun text => String.ofList ((chars text).map Char.toLower)
  lower_ascii := fun _ _ => rfl

variable (repr : String → String)

/-- `int(text)` -/
def intOfText (text : String) : Except PyError ℤ :=
  let stripped := ((chars text).dropWhile isNumberSpace).rdropWhile isNumberSpace
  let number := match stripped with
    | '-' :: rest => (true, digitsOf rest)
    | '+' :: rest => (false, digitsOf rest)
    | rest => (false, digitsOf rest)
  match number with
  | (_, none) => .error (.valueError ("invalid literal for int() with base 10: " ++ repr text))
  | (negative, some digits) =>
      if maxDigits < digits.length then
        .error (.valueError ("Exceeds the limit (4300 digits) for integer string conversion: " ++
          "value has " ++ toString digits.length ++
          " digits; use sys.set_int_max_str_digits() to increase the limit"))
      else .ok (if negative then -ofDecimals digits else ofDecimals digits)

/-- `int(value)` -/
def toInt : Json F → Except PyError ℤ
  | .int n => .ok n
  | .bool b => .ok (if b then 1 else 0)
  | .float x =>
      match FloatNumber.number x with
      | .finite q => .ok (if 0 ≤ q then ⌊q⌋ else ⌈q⌉)
      | .infinite _ => .error .overflowError
      | .nan => .error (.valueError "cannot convert float NaN to integer")
  | .str text => intOfText repr text
  | _ => .error .typeError

/-- Numbers beyond the largest floating-point number are refused by `float(n)`, other texts
than those of numbers by `float(text)`. -/
class FloatConversion (F : Type) where
  ofInt : ℤ → Option F
  ofString : String → Option F

/-- `float(value)` -/
def toFloat [FloatConversion F] : Json F → Except PyError F
  | .int n => (FloatConversion.ofInt n).elim (.error .overflowError) .ok
  | .bool b => (FloatConversion.ofInt (if b then 1 else 0)).elim (.error .overflowError) .ok
  | .float x => .ok x
  | .str text => (FloatConversion.ofString text).elim
      (.error (.valueError ("could not convert string to float: " ++ repr text))) .ok
  | _ => .error .typeError

instance : FloatConversion WholeFloat where
  ofInt := fun n => if 0 ≤ n then some ⟨n.toNat⟩ else none
  ofString := fun _ => none

/-- `value == n` -/
def equalsInt (value : Json F) (n : ℤ) : Bool := (number? value).any (fun v => v.eq (.finite n))

/-- `value == text` -/
def equalsStr : Json F → String → Bool
  | .str s, text => s = text
  | _, _ => false

/-- `n < value` -/
def intLess (n : ℤ) (value : Json F) : Except PyError Bool :=
  match number? value with
  | none => .error .typeError
  | some v => .ok (Number.less (.finite n) v)

/-- `bool(value)` -/
def truthy : Json F → Bool
  | .null => false
  | .bool b => b
  | .int n => decide (n ≠ 0)
  | .float x => !(FloatNumber.number x).eq (.finite 0)
  | .str text => decide (text ≠ "")
  | .list items => !items.isEmpty
  | .obj members => !members.isEmpty

@[simp]
theorem equalsInt_int (k n : ℤ) : equalsInt (.int k : Json F) n = decide (k = n) := by
  simp [equalsInt, number?, Number.eq]

omit [FloatNumber F] in
theorem eq_of_equalsStr {value : Json F} {text : String} (h : equalsStr value text = true) :
    value = .str text := by
  cases value <;> simp_all [equalsStr]

omit [FloatNumber F] in
@[simp]
theorem equalsStr_str (s text : String) : equalsStr (.str s : Json F) text = decide (s = text) :=
  rfl

theorem equalsInt_eq_false (k n : ℤ) : equalsInt (.int k : Json F) n = false ↔ n ≠ k := by
  rw [equalsInt_int, decide_eq_false_iff_not, eq_comm]

omit [FloatNumber F] in
theorem equalsStr_eq_false (s text : String) :
    equalsStr (.str s : Json F) text = false ↔ text ≠ s := by
  rw [equalsStr_str, decide_eq_false_iff_not, eq_comm]

@[simp]
theorem intLess_int (n k : ℤ) : intLess n (.int k : Json F) = .ok (decide (n < k)) := by
  simp [intLess, number?, Number.less]

end Decillion.PyValues

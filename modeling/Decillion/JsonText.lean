import Decillion.ByteText
import Decillion.JsonValues
import Mathlib.Data.List.TakeWhile

/-!
The text of a JSON value and its parser. The writer follows the standard library's
encoder (compact or indented, escaping everything outside printable ASCII or only what
JSON requires) and the parser its decoder: blanks between tokens, escapes with surrogate
pairs, numbers split into integers and floating-point tokens, the last of two equal keys.
A floating-point number is known through its text and the inverse of that text. Lone
surrogates have no character here, so a text that spells one is refused.
-/
namespace Decillion.JsonText

open ByteText JsonValues

structure Style where
  ensureAscii : Bool
  indent : Option ℕ

/-- Separators "," and ":" with every other character escaped. -/
def compact : Style := ⟨true, none⟩

/-- Separators "," and ":" with characters outside ASCII written as they are. -/
def compactUnicode : Style := ⟨false, none⟩

def indented (width : ℕ) : Style := ⟨true, some width⟩

def newline (st : Style) (level : ℕ) : List Char :=
  match st.indent with
  | none => []
  | some width => '\n' :: List.replicate (width * level) ' '

def colon (st : Style) : List Char :=
  match st.indent with
  | none => [':']
  | some _ => [':', ' ']

def hexDigit (n : ℕ) : Char := Nat.digitChar (n % 16)

/-- The escape \uXXXX of a code unit. -/
def escapeUnit (n : ℕ) : List Char :=
  ['\\', 'u', hexDigit (n / 4096), hexDigit (n / 256), hexDigit (n / 16), hexDigit n]

def escapeChar (ensureAscii : Bool) (c : Char) : List Char :=
  if c = '"' then ['\\', '"']
  else if c = '\\' then ['\\', '\\']
  else if c = '\n' then ['\\', 'n']
  else if c = '\r' then ['\\', 'r']
  else if c = '\t' then ['\\', 't']
  else if c = '\x0c' then ['\\', 'f']
  else if c = '\x08' then ['\\', 'b']
  else if c.toNat < 32 ∨ (ensureAscii = true ∧ 126 < c.toNat) then
    if c.toNat < 65536 then escapeUnit c.toNat
    else escapeUnit (55296 + (c.toNat - 65536) / 1024) ++
      escapeUnit (56320 + (c.toNat - 65536) % 1024)
  else [c]

def dumpString (st : Style) (s : String) : List Char :=
  '"' :: ((chars s).flatMap (escapeChar st.ensureAscii) ++ ['"'])

def dumpInt (n : ℤ) : List Char :=
  if n < 0 then '-' :: Nat.toDigits 10 n.natAbs else Nat.toDigits 10 n.natAbs

def isTokenChar (c : Char) : Bool := c.isAlphanum || c = '+' || c = '-' || c = '.'

def isWhole : List Char → Bool
  | [] => false
  | ['0'] => true
  | c :: rest => c ≠ '0' && c.isDigit && rest.all Char.isDigit

def unsigned : List Char → List Char
  | '-' :: rest => rest
  | token => token

def isExponent : List Char → Bool
  | e :: '+' :: rest => (e = 'e' || e = 'E') && !rest.isEmpty && rest.all Char.isDigit
  | e :: '-' :: rest => (e = 'e' || e = 'E') && !rest.isEmpty && rest.all Char.isDigit
  | e :: rest => (e = 'e' || e = 'E') && !rest.isEmpty && rest.all Char.isDigit
  | [] => false

/-- A fraction, an exponent or both after the whole part. -/
def isFraction : List Char → Bool
  | '.' :: rest => !(rest.takeWhile Char.isDigit).isEmpty &&
      ((rest.dropWhile Char.isDigit).isEmpty || isExponent (rest.dropWhile Char.isDigit))
  | rest => isExponent rest

def isIntToken (token : List Char) : Bool := isWhole (unsigned token)

def isFloatToken (token : List Char) : Bool :=
  token.all isTokenChar &&
    (token = "NaN".toList || token = "Infinity".toList || token = "-Infinity".toList ||
      (isWhole ((unsigned token).takeWhile Char.isDigit) &&
        isFraction ((unsigned token).dropWhile Char.isDigit)))

/-- Floating-point numbers with the text the encoder prints for them. -/
class FloatText (F : Type) where
  text : F → List Char
  ofText : List Char → Option F
  ofText_text : ∀ x, ofText (text x) = some x
  isFloatToken_text : ∀ x, isFloatToken (text x) = true

/-- Documents that hold no floating-point number. -/
instance : FloatText Empty where
  text := Empty.elim
  ofText := fun _ => none
  ofText_text := fun x => x.elim
  isFloatToken_text := fun x => x.elim

variable {F : Type} [FloatText F]

mutual

def dump (st : Style) : ℕ → Json F → List Char
  | _, .null => "null".toList
  | _, .bool true => "true".toList
  | _, .bool false => "false".toList
  | _, .int n => dumpInt n
  | _, .float x => FloatText.text x
  | _, .str s => dumpString st s
  | _, .list [] => ['[', ']']
  | level, .list (x :: xs) =>
      '[' :: (newline st (level + 1) ++ (dump st (level + 1) x ++
        (dumpItems st (level + 1) xs ++ (newline st level ++ [']']))))
  | _, .obj [] => ['{', '}']
  | level, .obj ((k, v) :: rest) =>
      '{' :: (newline st (level + 1) ++ (dumpString st k ++ (colon st ++
        (dump st (level + 1) v ++ (dumpMembers st (level + 1) rest ++
          (newline st level ++ ['}']))))))

def dumpItems (st : Style) (level : ℕ) : List (Json F) → List Char
  | [] => []
  | x :: xs => ',' :: (newline st level ++ (dump st level x ++ dumpItems st level xs))

def dumpMembers (st : Style) (level : ℕ) : Members F → List Char
  | [] => []
  | (k, v) :: rest =>
      ',' :: (newline st level ++ (dumpString st k ++ (colon st ++
        (dump st level v ++ dumpMembers st level rest))))

end

/-- `json.dumps(value, ..)`, where no integer has more digits than the language writes out. -/
def dumps (st : Style) (value : Json F) : String := String.ofList (dump st 0 value)

/-- `json.dumps(value, sort_keys=True, ..)` -/
def dumpsSorted (st : Style) (value : Json F) : String := dumps st (sortKeys value)

def isSpace (c : Char) : Bool := c = ' ' || c = '\t' || c = '\n' || c = '\r'

def skipSpace (text : List Char) : List Char := text.dropWhile isSpace

def parseUnit : List Char → Option (ℕ × List Char)
  | a :: b :: c :: d :: rest =>
      match hexValue a, hexValue b, hexValue c, hexValue d with
      | some a, some b, some c, some d => some (a * 4096 + b * 256 + c * 16 + d, rest)
      | _, _, _, _ => none
  | _ => none

/-- The character after \u; a high surrogate needs a low one behind it. -/
def parseUnicode (text : List Char) : Option (Char × List Char) :=
  match parseUnit text with
  | none => none
  | some (high, rest) =>
      if 55296 ≤ high ∧ high < 56320 then
        match rest with
        | '\\' :: 'u' :: more =>
            match parseUnit more with
            | some (low, rest) =>
                if 56320 ≤ low ∧ low < 57344 then
                  some (Char.ofNat (65536 + (high - 55296) * 1024 + (low - 56320)), rest)
                else none
            | none => none
        | _ => none
      else if 56320 ≤ high ∧ high < 57344 then none
      else some (Char.ofNat high, rest)

def parseChar : List Char → Option (Char × List Char)
  | '\\' :: '"' :: rest => some ('"', rest)
  | '\\' :: '\\' :: rest => some ('\\', rest)
  | '\\' :: '/' :: rest => some ('/', rest)
  | '\\' :: 'b' :: rest => some ('\x08', rest)
  | '\\' :: 'f' :: rest => some ('\x0c', rest)
  | '\\' :: 'n' :: rest => some ('\n', rest)
  | '\\' :: 'r' :: rest => some ('\r', rest)
  | '\\' :: 't' :: rest => some ('\t', rest)
  | '\\' :: 'u' :: rest => parseUnicode rest
  | c :: rest => if c = '\\' ∨ c = '"' ∨ c.toNat < 32 then none else some (c, rest)
  | [] => none

def parseString : ℕ → List Char → Option (List Char × List Char)
  | 0, _ => none
  | fuel + 1, text =>
      match text with
      | '"' :: rest => some ([], rest)
      | _ =>
          match parseChar text with
          | none => none
          | some (c, rest) =>
              match parseString fuel rest with
              | none => none
              | some (cs, rest) => some (c :: cs, rest)

def intOfToken (token : List Char) : ℤ :=
  match token with
  | '-' :: digits => -(Nat.ofDigitChars 10 digits 0 : ℤ)
  | digits => (Nat.ofDigitChars 10 digits 0 : ℤ)

def parseNumber (text : List Char) : Option (Json F × List Char) :=
  let token := text.takeWhile isTokenChar
  let rest := text.dropWhile isTokenChar
  if isFloatToken token then (FloatText.ofText token).map (fun x => (.float x, rest))
  else if isIntToken token then some (.int (intOfToken token), rest)
  else none

mutual

def parseValue : ℕ → List Char → Option (Json F × List Char)
  | 0, _ => none
  | fuel + 1, text =>
      match text with
      | '"' :: rest => (parseString rest.length rest).map (fun p => (.str (String.ofList p.1), p.2))
      | '[' :: rest =>
          match skipSpace rest with
          | ']' :: rest => some (.list [], rest)
          | rest => (parseItems fuel rest).map (fun p => (.list p.1, p.2))
      | '{' :: rest =>
          match skipSpace rest with
          | '}' :: rest => some (.obj [], rest)
          | rest => (parseMembers fuel rest).map (fun p => (.obj (ofPairs p.1), p.2))
      | 'n' :: 'u' :: 'l' :: 'l' :: rest => some (.null, rest)
      | 't' :: 'r' :: 'u' :: 'e' :: rest => some (.bool true, rest)
      | 'f' :: 'a' :: 'l' :: 's' :: 'e' :: rest => some (.bool false, rest)
      | text => parseNumber text

/-- The items of an array from the first one to the closing bracket. -/
def parseItems : ℕ → List Char → Option (List (Json F) × List Char)
  | 0, _ => none
  | fuel + 1, text =>
      match parseValue fuel text with
      | none => none
      | some (x, rest) =>
          match skipSpace rest with
          | ']' :: rest => some ([x], rest)
          | ',' :: rest => (parseItems fuel (skipSpace rest)).map (fun p => (x :: p.1, p.2))
          | _ => none

/-- The members of an object from the first key to the closing brace. -/
def parseMembers : ℕ → List Char → Option (Members F × List Char)
  | 0, _ => none
  | fuel + 1, text =>
      match text with
      | '"' :: rest =>
          match parseString rest.length rest with
          | none => none
          | some (key, rest) =>
              match skipSpace rest with
              | ':' :: rest =>
                  match parseValue fuel (skipSpace rest) with
                  | none => none
                  | some (v, rest) =>
                      match skipSpace rest with
                      | '}' :: rest => some ([(String.ofList key, v)], rest)
                      | ',' :: rest =>
                          (parseMembers fuel (skipSpace rest)).map
                            (fun p => ((String.ofList key, v) :: p.1, p.2))
                      | _ => none
              | _ => none
      | _ => none

end

def loads (text : String) : Option (Json F) :=
  match parseValue (text.length + 1) (skipSpace (chars text)) with
  | none => none
  | some (value, rest) => if skipSpace rest = [] then some value else none

end Decillion.JsonText

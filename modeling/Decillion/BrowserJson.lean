import Decillion.BrowserValues
import Decillion.JsonRoundTrip

/-!
`JSON.stringify` and `JSON.parse`. The writer leaves out every blank, escapes control
characters and surrogates that are not paired, and writes a number that is not finite as null.
The parser defines the properties of an object one after another, so the last of two equal keys
stays and the integer-like keys come first.
-/
namespace Decillion.BrowserJson

open BrowserValues ByteText JsonText

def isHigh (u : CodeUnit) : Bool := 55296 ≤ u.val && u.val < 56320

def isLow (u : CodeUnit) : Bool := 56320 ≤ u.val && u.val < 57344

/-- A code unit that stands alone. -/
def escapeAlone (u : CodeUnit) : JsString :=
  if u = unit '"' then units "\\\"".toList
  else if u = unit '\\' then units "\\\\".toList
  else if u = unit '\x08' then units "\\b".toList
  else if u = unit '\t' then units "\\t".toList
  else if u = unit '\n' then units "\\n".toList
  else if u = unit '\x0c' then units "\\f".toList
  else if u = unit '\r' then units "\\r".toList
  else if u.val < 32 ∨ isHigh u = true ∨ isLow u = true then units (escapeUnit u.val)
  else [u]

/-- A high surrogate and the low one behind it are one code point. -/
def escape : JsString → JsString
  | high :: low :: rest =>
      if isHigh high && isLow low then high :: low :: escape rest
      else escapeAlone high ++ escape (low :: rest)
  | [u] => escapeAlone u
  | [] => []

def quote (s : JsString) : JsString := unit '"' :: (escape s ++ [unit '"'])

variable {N : Type} [JsNumber N]

mutual

/-- `JSON.stringify` -/
def stringify : Value N → JsString
  | .null => units "null".toList
  | .bool true => units "true".toList
  | .bool false => units "false".toList
  | .number n =>
      if JsNumber.isFinite n then units (JsNumber.toText n) else units "null".toList
  | .string s => quote s
  | .array [] => units "[]".toList
  | .array (x :: xs) => unit '[' :: (stringify x ++ (stringifyItems xs ++ [unit ']']))
  | .object [] => units "{}".toList
  | .object ((k, v) :: rest) =>
      unit '{' :: (quote k ++ (unit ':' :: (stringify v ++ (stringifyMembers rest ++ [unit '}']))))

def stringifyItems : List (Value N) → JsString
  | [] => []
  | x :: xs => unit ',' :: (stringify x ++ stringifyItems xs)

def stringifyMembers : List (JsString × Value N) → JsString
  | [] => []
  | (k, v) :: rest =>
      unit ',' :: (quote k ++ (unit ':' :: (stringify v ++ stringifyMembers rest)))

end

/-- The first character of a text and what follows it. -/
def lead : JsString → Option (Char × JsString)
  | [] => none
  | u :: rest => some (character u, rest)

def skipBlanks (text : JsString) : JsString := text.dropWhile (fun u => isSpace (character u))

/-- The rest of a word. -/
def word : List Char → JsString → Option JsString
  | [], text => some text
  | c :: more, text =>
      match lead text with
      | some (d, rest) => if d = c then word more rest else none
      | none => none

def parseEscape (text : JsString) : Option (CodeUnit × JsString) :=
  match lead text with
  | some ('"', rest) => some (unit '"', rest)
  | some ('\\', rest) => some (unit '\\', rest)
  | some ('/', rest) => some (unit '/', rest)
  | some ('b', rest) => some (unit '\x08', rest)
  | some ('f', rest) => some (unit '\x0c', rest)
  | some ('n', rest) => some (unit '\n', rest)
  | some ('r', rest) => some (unit '\r', rest)
  | some ('t', rest) => some (unit '\t', rest)
  | some ('u', a :: b :: c :: d :: rest) =>
      (parseUnit ([a, b, c, d].map character)).map (fun p => (codeUnit p.1, rest))
  | _ => none

def parseString : ℕ → JsString → Option (JsString × JsString)
  | 0, _ => none
  | _ + 1, [] => none
  | fuel + 1, u :: rest =>
      if u = unit '"' then some ([], rest)
      else if u = unit '\\' then
        match parseEscape rest with
        | none => none
        | some (v, rest) => (parseString fuel rest).map (fun p => (v :: p.1, p.2))
      else if u.val < 32 then none
      else (parseString fuel rest).map (fun p => (u :: p.1, p.2))

def parseNumber (text : JsString) : Option (Value N × JsString) :=
  let token := (text.takeWhile (fun u => isTokenChar (character u))).map character
  let rest := text.dropWhile (fun u => isTokenChar (character u))
  if isNumberToken token then some (.number (JsNumber.ofToken token), rest) else none

mutual

def parseValue : ℕ → JsString → Option (Value N × JsString)
  | 0, _ => none
  | fuel + 1, text =>
      match lead text with
      | some ('"', rest) => (parseString rest.length rest).map (fun p => (.string p.1, p.2))
      | some ('[', rest) =>
          match lead (skipBlanks rest) with
          | some (']', rest) => some (.array [], rest)
          | _ => (parseItems fuel (skipBlanks rest)).map (fun p => (.array p.1, p.2))
      | some ('{', rest) =>
          match lead (skipBlanks rest) with
          | some ('}', rest) => some (.object [], rest)
          | _ => (parseMembers fuel (skipBlanks rest)).map
              (fun p => (.object (fromEntries p.1), p.2))
      | some ('n', rest) => (word "ull".toList rest).map (fun rest => (.null, rest))
      | some ('t', rest) => (word "rue".toList rest).map (fun rest => (.bool true, rest))
      | some ('f', rest) => (word "alse".toList rest).map (fun rest => (.bool false, rest))
      | _ => parseNumber text

/-- The items of an array from the first one to the closing bracket. -/
def parseItems : ℕ → JsString → Option (List (Value N) × JsString)
  | 0, _ => none
  | fuel + 1, text =>
      match parseValue fuel text with
      | none => none
      | some (x, rest) =>
          match lead (skipBlanks rest) with
          | some (']', rest) => some ([x], rest)
          | some (',', rest) =>
              (parseItems fuel (skipBlanks rest)).map (fun p => (x :: p.1, p.2))
          | _ => none

/-- The properties of an object from the first key to the closing brace. -/
def parseMembers : ℕ → JsString → Option (List (JsString × Value N) × JsString)
  | 0, _ => none
  | fuel + 1, text =>
      match lead text with
      | some ('"', rest) =>
          match parseString rest.length rest with
          | none => none
          | some (key, rest) =>
              match lead (skipBlanks rest) with
              | some (':', rest) =>
                  match parseValue fuel (skipBlanks rest) with
                  | none => none
                  | some (v, rest) =>
                      match lead (skipBlanks rest) with
                      | some ('}', rest) => some ([(key, v)], rest)
                      | some (',', rest) =>
                          (parseMembers fuel (skipBlanks rest)).map
                            (fun p => ((key, v) :: p.1, p.2))
                      | _ => none
              | _ => none
      | _ => none

end

/-- `JSON.parse` -/
def parse (text : JsString) : Option (Value N) :=
  match parseValue (text.length + 1) (skipBlanks text) with
  | none => none
  | some (value, rest) => if skipBlanks rest = [] then some value else none

section WellFormedValues

/-- What every call of the parser returns lists its properties in order. -/
theorem wellFormed_all (fuel : ℕ) :
    (∀ text (v : Value N) rest, parseValue fuel text = some (v, rest) → WellFormed v) ∧
    (∀ text (items : List (Value N)) rest, parseItems fuel text = some (items, rest) →
      ∀ x ∈ items, WellFormed x) ∧
    ∀ text (members : List (JsString × Value N)) rest,
      parseMembers fuel text = some (members, rest) → ∀ entry ∈ members, WellFormed entry.2 := by
  induction fuel with
  | zero =>
    refine ⟨fun _ _ _ h => ?_, fun _ _ _ h => ?_, fun _ _ _ h => ?_⟩
    · cases h
    · cases h
    · cases h
  | succ fuel ih =>
    obtain ⟨hvalue, hitems, hmembers⟩ := ih
    refine ⟨fun text v rest h => ?_, fun text items rest h => ?_, fun text members rest h => ?_⟩
    · unfold parseValue at h
      split at h
      · obtain ⟨p, -, hp⟩ := Option.map_eq_some_iff.mp h
        cases hp
        trivial
      · split at h
        · cases h
          trivial
        · obtain ⟨p, hparsed, hp⟩ := Option.map_eq_some_iff.mp h
          cases hp
          exact (wellFormedItems_iff _).mpr (hitems _ _ _ hparsed)
      · split at h
        · cases h
          exact ⟨List.Pairwise.nil, trivial⟩
        · obtain ⟨p, hparsed, hp⟩ := Option.map_eq_some_iff.mp h
          cases hp
          exact ⟨ordered_fromEntries _, (wellFormedMembers_iff _).mpr fun entry hin =>
            hmembers _ _ _ hparsed entry (mem_fromEntries hin)⟩
      · obtain ⟨p, -, hp⟩ := Option.map_eq_some_iff.mp h
        cases hp
        trivial
      · obtain ⟨p, -, hp⟩ := Option.map_eq_some_iff.mp h
        cases hp
        trivial
      · obtain ⟨p, -, hp⟩ := Option.map_eq_some_iff.mp h
        cases hp
        trivial
      · unfold parseNumber at h
        dsimp only at h
        split at h
        · cases h
          trivial
        · cases h
    · unfold parseItems at h
      split at h
      · cases h
      · rename_i x more hx
        split at h
        · cases h
          exact fun y hy => List.mem_singleton.mp hy ▸ hvalue _ _ _ hx
        · obtain ⟨p, hparsed, hp⟩ := Option.map_eq_some_iff.mp h
          cases hp
          exact fun y hy => (List.mem_cons.mp hy).elim (fun heq => heq ▸ hvalue _ _ _ hx)
            (hitems _ _ _ hparsed y)
        · cases h
    · unfold parseMembers at h
      split at h
      · split at h
        · cases h
        · split at h
          · split at h
            · cases h
            · rename_i v more hv
              split at h
              · cases h
                exact fun y hy => List.mem_singleton.mp hy ▸ hvalue _ _ _ hv
              · obtain ⟨p, hparsed, hp⟩ := Option.map_eq_some_iff.mp h
                cases hp
                exact fun y hy => (List.mem_cons.mp hy).elim (fun heq => heq ▸ hvalue _ _ _ hv)
                  (hmembers _ _ _ hparsed y)
              · cases h
          · cases h
      · cases h

/-- The values that `JSON.parse` returns list their properties in order. -/
theorem wellFormed_parse {text : JsString} {v : Value N} (h : parse text = some v) :
    WellFormed v := by
  unfold parse at h
  split at h
  · cases h
  · rename_i value rest hvalue
    split at h
    · cases h
      exact (wellFormed_all _).1 _ _ _ hvalue
    · cases h

end WellFormedValues

end Decillion.BrowserJson

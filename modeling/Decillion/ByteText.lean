import Mathlib.Data.List.Basic
import Mathlib.Data.Nat.Basic
import Mathlib.Logic.Function.Basic

/-!
Byte strings, their UTF-8 texts and their hexadecimal spelling. A byte string is a
list of octets. Encoding is inverted by decoding, the lower-case spelling of a byte
string is inverted by the parser that also accepts capitals and blanks, so both
encodings are injective.
-/
namespace Decillion.ByteText

abbrev Bytes := List UInt8

/-- The names on the way to a file. -/
abbrev Path := List String

def encode (text : String) : Bytes := text.toByteArray.data.toList

def decode (bytes : Bytes) : Option String := String.fromUTF8? ⟨bytes.toArray⟩

theorem decode_encode (text : String) : decode (encode text) = some text := by
  have harray : (⟨(encode text).toArray⟩ : ByteArray) = text.toByteArray := by
    simp [encode]
  unfold decode
  rw [harray]
  simp [String.fromUTF8?, text.isValidUTF8, String.fromUTF8]

theorem encode_injective : Function.Injective encode := by
  intro a b h
  have hdecode := congrArg decode h
  rw [decode_encode, decode_encode] at hdecode
  exact Option.some.inj hdecode

theorem encode_append (a b : String) : encode (a ++ b) = encode a ++ encode b := by
  simp [encode]

theorem length_le_encode_length (text : String) : text.length ≤ (encode text).length := by
  rw [← String.length_toList]
  have hencode : (encode text).length = text.toList.utf8Encode.size := by
    rw [encode, Array.length_toList, ← String.utf8Encode_toList]
    rfl
  rw [hencode]
  induction text.toList with
  | nil => simp
  | cons c rest ih =>
    have hpos := c.utf8Size_pos
    rw [List.utf8Encode_cons, ByteArray.size_append, List.utf8Encode_singleton,
      List.size_toByteArray, String.length_utf8EncodeChar, List.length_cons]
    omega

theorem encode_eq_flatMap (text : String) :
    encode text = text.toList.flatMap String.utf8EncodeChar := by
  have hbytes : text.toByteArray = (text.toList.flatMap String.utf8EncodeChar).toByteArray := by
    rw [← String.utf8Encode_toList]
    rfl
  rw [encode, hbytes]
  simp

/-- `encode` of the text with these characters. -/
def utf8 (cs : List Char) : Bytes := cs.flatMap String.utf8EncodeChar

theorem encode_ofList (cs : List Char) : encode (String.ofList cs) = utf8 cs := by
  rw [encode_eq_flatMap, String.toList_ofList, utf8]

/-- An octet of a text that stands for a character of its own. -/
def isAsciiByte (b : UInt8) : Bool := b.toNat < 128

theorem utf8EncodeChar_of_ascii (c : Char) (h : (String.utf8EncodeChar c).all isAsciiByte = true) :
    (String.utf8EncodeChar c).map (fun b => Char.ofNat b.toNat) = [c] := by
  unfold String.utf8EncodeChar at h ⊢
  by_cases hsmall : c.val.toNat ≤ 0x7f
  · simp only [hsmall, if_true, List.map_cons, List.map_nil, UInt8.toNat_ofNat']
    rw [Nat.mod_eq_of_lt (by omega)]
    exact congrArg (fun c => [c]) (Char.ofNat_toNat c)
  · exfalso
    simp only [hsmall, if_false] at h
    split at h
    · simp only [List.all_cons, isAsciiByte, UInt8.toNat_ofNat', Bool.and_eq_true,
        decide_eq_true_eq] at h
      omega
    · split at h
      · simp only [List.all_cons, isAsciiByte, UInt8.toNat_ofNat', Bool.and_eq_true,
          decide_eq_true_eq] at h
        omega
      · simp only [List.all_cons, isAsciiByte, UInt8.toNat_ofNat', Bool.and_eq_true,
          decide_eq_true_eq] at h
        omega

/-- The characters of a text; one in ASCII is read octet by octet, which evaluates fast. -/
def chars (text : String) : List Char :=
  if (encode text).all isAsciiByte then (encode text).map (fun b => Char.ofNat b.toNat)
  else text.toList

theorem chars_eq (text : String) : chars text = text.toList := by
  unfold chars
  split
  · rename_i hall
    rw [encode_eq_flatMap] at hall ⊢
    generalize text.toList = cs at hall ⊢
    induction cs with
    | nil => rfl
    | cons c rest ih =>
      rw [List.flatMap_cons, List.all_append, Bool.and_eq_true] at hall
      rw [List.flatMap_cons, List.map_append, utf8EncodeChar_of_ascii c hall.1, ih hall.2]
      rfl
  · rfl

def isAscii (text : String) : Bool := (chars text).all (fun c => decide (c.toNat < 128))

def hexByte (b : UInt8) : List Char :=
  [Nat.digitChar (b.toNat / 16), Nat.digitChar (b.toNat % 16)]

def hexChars (bytes : Bytes) : List Char := bytes.flatMap hexByte

/-- The lower-case spelling, two digits a byte. -/
def hex (bytes : Bytes) : String := String.ofList (hexChars bytes)

def hexValue (c : Char) : Option ℕ :=
  if '0' ≤ c ∧ c ≤ '9' then some (c.toNat - '0'.toNat)
  else if 'a' ≤ c ∧ c ≤ 'f' then some (c.toNat - 'a'.toNat + 10)
  else if 'A' ≤ c ∧ c ≤ 'F' then some (c.toNat - 'A'.toNat + 10)
  else none

def isBlank (c : Char) : Bool :=
  c = ' ' || c = '\t' || c = '\n' || c = '\r' || c = '\x0b' || c = '\x0c'

/-- Blanks may stand between the pairs of digits, never inside one. -/
def fromHexChars : List Char → Option Bytes
  | [] => some []
  | [c] => if isBlank c then some [] else none
  | c :: d :: rest =>
      if isBlank c then fromHexChars (d :: rest)
      else match hexValue c, hexValue d, fromHexChars rest with
        | some high, some low, some tail => some (UInt8.ofNat (16 * high + low) :: tail)
        | _, _, _ => none

def fromHex (text : String) : Option Bytes := fromHexChars (chars text)

theorem hexValue_digitChar : ∀ d, d < 16 → hexValue (Nat.digitChar d) = some d := by
  decide

theorem isBlank_digitChar : ∀ d, d < 16 → isBlank (Nat.digitChar d) = false := by
  decide

theorem fromHexChars_hexChars (bytes : Bytes) :
    fromHexChars (hexChars bytes) = some bytes := by
  induction bytes with
  | nil => rfl
  | cons b rest ih =>
    have hb : b.toNat < 256 := b.toNat_lt
    have hhigh : b.toNat / 16 < 16 := by omega
    have hlow : b.toNat % 16 < 16 := Nat.mod_lt _ (by omega)
    have hcons : hexChars (b :: rest) =
        Nat.digitChar (b.toNat / 16) :: Nat.digitChar (b.toNat % 16) :: hexChars rest := rfl
    have hbyte : UInt8.ofNat (16 * (b.toNat / 16) + b.toNat % 16) = b := by
      rw [Nat.div_add_mod]
      exact UInt8.ofNat_toNat
    rw [hcons, fromHexChars, isBlank_digitChar _ hhigh, hexValue_digitChar _ hhigh,
      hexValue_digitChar _ hlow, ih]
    simp [hbyte]

theorem fromHex_hex (bytes : Bytes) : fromHex (hex bytes) = some bytes := by
  unfold fromHex hex
  rw [chars_eq, String.toList_ofList]
  exact fromHexChars_hexChars bytes

theorem hex_injective : Function.Injective hex := by
  intro a b h
  have hparse := congrArg fromHex h
  rw [fromHex_hex, fromHex_hex] at hparse
  exact Option.some.inj hparse

theorem hexChars_length (bytes : Bytes) : (hexChars bytes).length = 2 * bytes.length := by
  induction bytes with
  | nil => rfl
  | cons b rest ih =>
    have hcons : (hexChars (b :: rest)).length = (hexChars rest).length + 2 := rfl
    rw [hcons, ih, List.length_cons]
    omega

theorem hex_length (bytes : Bytes) : (hex bytes).length = 2 * bytes.length := by
  rw [← String.length_toList, hex, String.toList_ofList, hexChars_length]

theorem mem_hexChars (bytes : Bytes) (c : Char) (hc : c ∈ hexChars bytes) :
    ∃ d, d < 16 ∧ c = Nat.digitChar d := by
  obtain ⟨b, -, hb⟩ := List.mem_flatMap.mp hc
  have hlt : b.toNat < 256 := b.toNat_lt
  simp only [hexByte, List.mem_cons, List.not_mem_nil, or_false] at hb
  rcases hb with rfl | rfl
  · exact ⟨_, by omega, rfl⟩
  · exact ⟨_, Nat.mod_lt _ (by omega), rfl⟩

/-- `text[start:stop]` -/
def slice (text : String) (start stop : ℕ) : String :=
  String.ofList (((chars text).take stop).drop start)

end Decillion.ByteText

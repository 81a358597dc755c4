import Decillion.ByteText

/-!
Base64 in the URL-safe and in the standard alphabet. The decoder follows the quad machine of
the standard library: the strict one refuses every character outside the alphabet and every
misplaced padding, the lax one skips them. The decoders of the URL-safe alphabet read either
alphabet. All decoders invert their encoder.
-/
namespace Decillion.Base64Text

open ByteText

def alphabet : List Char :=
  "ABCDEFGHIJKLMNOPQRSTUVWXYZabcdefghijklmnopqrstuvwxyz0123456789-_".toList

def digit (n : ℕ) : Char := alphabet.getD n 'A'

def digitValue (c : Char) : Option ℕ :=
  if 'A' ≤ c ∧ c ≤ 'Z' then some (c.toNat - 'A'.toNat)
  else if 'a' ≤ c ∧ c ≤ 'z' then some (c.toNat - 'a'.toNat + 26)
  else if '0' ≤ c ∧ c ≤ '9' then some (c.toNat - '0'.toNat + 52)
  else if c = '-' ∨ c = '+' then some 62
  else if c = '_' ∨ c = '/' then some 63
  else none

theorem digitValue_digit : ∀ n, n < 64 → digitValue (digit n) = some n := by
  decide +kernel

theorem digit_ne_pad : ∀ n, n < 64 → digit n ≠ '=' := by
  decide +kernel

def encodeChars : Bytes → List Char
  | [] => []
  | [a] => [digit (a.toNat / 4), digit (a.toNat % 4 * 16), '=', '=']
  | [a, b] => [digit (a.toNat / 4), digit (a.toNat % 4 * 16 + b.toNat / 16),
      digit (b.toNat % 16 * 4), '=']
  | a :: b :: c :: rest =>
      digit (a.toNat / 4) :: digit (a.toNat % 4 * 16 + b.toNat / 16) ::
        digit (b.toNat % 16 * 4 + c.toNat / 64) :: digit (c.toNat % 64) :: encodeChars rest

/-- The decoder between two characters: the place in the quad, the bits that are
still to be written, the paddings in a row and whether any padding was met. -/
structure Quad where
  place : ℕ
  bits : ℕ
  pads : ℕ
  padded : Bool

def Quad.start : Quad := ⟨0, 0, 0, false⟩

/-- One data character writes the byte it completes, if any. -/
def Quad.push (q : Quad) (v : ℕ) : Option UInt8 × Quad :=
  if q.place = 0 then (none, ⟨1, v, 0, q.padded⟩)
  else if q.place = 1 then (some (UInt8.ofNat (q.bits * 4 + v / 16)), ⟨2, v % 16, 0, q.padded⟩)
  else if q.place = 2 then (some (UInt8.ofNat (q.bits * 16 + v / 4)), ⟨3, v % 4, 0, q.padded⟩)
  else (some (UInt8.ofNat (q.bits * 64 + v)), ⟨0, 0, 0, q.padded⟩)

/-- `a2b_base64`. The strict decoder refuses any padding behind a complete quad, as the language
does from version 3.13 on. -/
def decodeChars (strict : Bool) : Quad → List Char → Option Bytes
  | q, [] => if q.place = 0 then some [] else none
  | q, c :: rest =>
      if c = '=' then
        if strict ∧ q.place = 0 then none
        else if 2 ≤ q.place ∧ 4 ≤ q.place + (q.pads + 1) then
          if strict ∧ rest ≠ [] then none else some []
        else decodeChars strict
          ⟨q.place, q.bits, if 2 ≤ q.place then q.pads + 1 else q.pads, true⟩ rest
      else match digitValue c with
        | none => if strict then none else decodeChars strict q rest
        | some v =>
            if strict ∧ q.padded then none
            else match (q.push v).1 with
              | none => decodeChars strict (q.push v).2 rest
              | some b => (decodeChars strict (q.push v).2 rest).map (b :: ·)

def urlsafeB64encode (bytes : Bytes) : String := String.ofList (encodeChars bytes)

/-- The lax decoder of `urlsafe_b64decode`. -/
def urlsafeB64decode (text : String) : Option Bytes :=
  if (chars text).all (fun c => c.toNat < 128) then decodeChars false Quad.start (chars text)
  else none

/-- The strict decoder, `b64decode(text, altchars=b"-_", validate=True)`. -/
def b64decodeValidate (text : String) : Option Bytes :=
  if (chars text).all (fun c => c.toNat < 128) then decodeChars true Quad.start (chars text)
  else none

theorem decodeChars_digit (strict : Bool) (place bits v : ℕ) (rest : List Char)
    (hv : v < 64) :
    decodeChars strict ⟨place, bits, 0, false⟩ (digit v :: rest) =
      match (Quad.push ⟨place, bits, 0, false⟩ v).1 with
      | none => decodeChars strict (Quad.push ⟨place, bits, 0, false⟩ v).2 rest
      | some b =>
          (decodeChars strict (Quad.push ⟨place, bits, 0, false⟩ v).2 rest).map (b :: ·) := by
  rw [decodeChars, if_neg (digit_ne_pad v hv), digitValue_digit v hv]
  simp

theorem decodeChars_first (strict : Bool) (bits v : ℕ) (rest : List Char) (hv : v < 64) :
    decodeChars strict ⟨0, bits, 0, false⟩ (digit v :: rest) =
      decodeChars strict ⟨1, v, 0, false⟩ rest :=
  decodeChars_digit strict 0 bits v rest hv

theorem decodeChars_second (strict : Bool) (bits v : ℕ) (rest : List Char) (hv : v < 64) :
    decodeChars strict ⟨1, bits, 0, false⟩ (digit v :: rest) =
      (decodeChars strict ⟨2, v % 16, 0, false⟩ rest).map
        (UInt8.ofNat (bits * 4 + v / 16) :: ·) :=
  decodeChars_digit strict 1 bits v rest hv

theorem decodeChars_third (strict : Bool) (bits v : ℕ) (rest : List Char) (hv : v < 64) :
    decodeChars strict ⟨2, bits, 0, false⟩ (digit v :: rest) =
      (decodeChars strict ⟨3, v % 4, 0, false⟩ rest).map
        (UInt8.ofNat (bits * 16 + v / 4) :: ·) :=
  decodeChars_digit strict 2 bits v rest hv

theorem decodeChars_fourth (strict : Bool) (bits v : ℕ) (rest : List Char) (hv : v < 64) :
    decodeChars strict ⟨3, bits, 0, false⟩ (digit v :: rest) =
      (decodeChars strict Quad.start rest).map (UInt8.ofNat (bits * 64 + v) :: ·) :=
  decodeChars_digit strict 3 bits v rest hv

private theorem high_byte (a : UInt8) (low : ℕ) (hlow : low < 16) :
    UInt8.ofNat (a.toNat / 4 * 4 + (a.toNat % 4 * 16 + low) / 16) = a := by
  have harith : a.toNat / 4 * 4 + (a.toNat % 4 * 16 + low) / 16 = a.toNat := by omega
  rw [harith]
  exact UInt8.ofNat_toNat

private theorem middle_byte (b : UInt8) (high low : ℕ) (hlow : low < 4) :
    UInt8.ofNat ((high * 16 + b.toNat / 16) % 16 * 16 + (b.toNat % 16 * 4 + low) / 4) = b := by
  have hb : b.toNat < 256 := b.toNat_lt
  have harith : (high * 16 + b.toNat / 16) % 16 * 16 + (b.toNat % 16 * 4 + low) / 4 =
      b.toNat := by omega
  rw [harith]
  exact UInt8.ofNat_toNat

private theorem low_byte (c : UInt8) (high : ℕ) :
    UInt8.ofNat ((high * 4 + c.toNat / 64) % 4 * 64 + c.toNat % 64) = c := by
  have hc : c.toNat < 256 := c.toNat_lt
  have harith : (high * 4 + c.toNat / 64) % 4 * 64 + c.toNat % 64 = c.toNat := by omega
  rw [harith]
  exact UInt8.ofNat_toNat

theorem decodeChars_encodeChars (strict : Bool) (bytes : Bytes) :
    decodeChars strict Quad.start (encodeChars bytes) = some bytes := by
  induction bytes using encodeChars.induct with
  | case1 => rfl
  | case2 a =>
    have ha : a.toNat < 256 := a.toNat_lt
    have hbyte := high_byte a 0 (by omega)
    simp only [Nat.add_zero] at hbyte
    rw [encodeChars, Quad.start, decodeChars_first _ _ _ _ (by omega),
      decodeChars_second _ _ _ _ (by omega), hbyte]
    cases strict <;> rfl
  | case3 a b =>
    have ha : a.toNat < 256 := a.toNat_lt
    have hb : b.toNat < 256 := b.toNat_lt
    have hmiddle := middle_byte b (a.toNat % 4) 0 (by omega)
    simp only [Nat.add_zero] at hmiddle
    rw [encodeChars, Quad.start, decodeChars_first _ _ _ _ (by omega),
      decodeChars_second _ _ _ _ (by omega), decodeChars_third _ _ _ _ (by omega),
      high_byte a (b.toNat / 16) (by omega), hmiddle]
    cases strict <;> rfl
  | case4 a b c rest ih =>
    have ha : a.toNat < 256 := a.toNat_lt
    have hb : b.toNat < 256 := b.toNat_lt
    have hc : c.toNat < 256 := c.toNat_lt
    rw [encodeChars, Quad.start, decodeChars_first _ _ _ _ (by omega),
      decodeChars_second _ _ _ _ (by omega), decodeChars_third _ _ _ _ (by omega),
      decodeChars_fourth _ _ _ _ (by omega), ih, high_byte a (b.toNat / 16) (by omega),
      middle_byte b (a.toNat % 4) (c.toNat / 64) (by omega), low_byte c (b.toNat % 16)]
    rfl

theorem digit_ascii : ∀ n, n < 64 → (digit n).toNat < 128 := by
  decide +kernel

/-- What holds of the digits and of the padding holds of all characters of a text. -/
theorem encodeChars_forall {p : Char → Prop} (hdigit : ∀ n, n < 64 → p (digit n)) (hpad : p '=')
    (bytes : Bytes) : ∀ c ∈ encodeChars bytes, p c := by
  induction bytes using encodeChars.induct with
  | case1 => simp [encodeChars]
  | case2 a =>
    have ha : a.toNat < 256 := a.toNat_lt
    simp only [encodeChars, List.mem_cons, List.not_mem_nil, or_false]
    rintro c (rfl | rfl | rfl | rfl)
    · exact hdigit _ (by omega)
    · exact hdigit _ (by omega)
    · exact hpad
    · exact hpad
  | case3 a b =>
    have ha : a.toNat < 256 := a.toNat_lt
    have hb : b.toNat < 256 := b.toNat_lt
    simp only [encodeChars, List.mem_cons, List.not_mem_nil, or_false]
    rintro c (rfl | rfl | rfl | rfl)
    · exact hdigit _ (by omega)
    · exact hdigit _ (by omega)
    · exact hdigit _ (by omega)
    · exact hpad
  | case4 a b c rest ih =>
    have ha : a.toNat < 256 := a.toNat_lt
    have hb : b.toNat < 256 := b.toNat_lt
    have hc : c.toNat < 256 := c.toNat_lt
    simp only [encodeChars, List.mem_cons]
    rintro d (rfl | rfl | rfl | rfl | hd)
    · exact hdigit _ (by omega)
    · exact hdigit _ (by omega)
    · exact hdigit _ (by omega)
    · exact hdigit _ (by omega)
    · exact ih d hd

theorem encodeChars_ascii (bytes : Bytes) : ∀ c ∈ encodeChars bytes, c.toNat < 128 :=
  encodeChars_forall digit_ascii (by decide) bytes

private theorem encode_all_ascii (bytes : Bytes) :
    (chars (urlsafeB64encode bytes)).all (fun c => c.toNat < 128) = true := by
  rw [chars_eq, urlsafeB64encode, String.toList_ofList, List.all_eq_true]
  intro c hc
  exact decide_eq_true (encodeChars_ascii bytes c hc)

theorem urlsafeB64decode_encode (bytes : Bytes) :
    urlsafeB64decode (urlsafeB64encode bytes) = some bytes := by
  rw [urlsafeB64decode, if_pos (encode_all_ascii bytes), chars_eq, urlsafeB64encode,
    String.toList_ofList]
  exact decodeChars_encodeChars false bytes

theorem b64decodeValidate_encode (bytes : Bytes) :
    b64decodeValidate (urlsafeB64encode bytes) = some bytes := by
  rw [b64decodeValidate, if_pos (encode_all_ascii bytes), chars_eq, urlsafeB64encode,
    String.toList_ofList]
  exact decodeChars_encodeChars true bytes

section Standard

/-- The digit of the standard alphabet for a digit of the URL-safe one. -/
def toStandard (c : Char) : Char := if c = '-' then '+' else if c = '_' then '/' else c

/-- `base64.b64encode(bytes).decode()` -/
def b64encode (bytes : Bytes) : String := String.ofList ((encodeChars bytes).map toStandard)

/-- `base64.b64decode(text, validate=True)` -/
def b64decode (text : String) : Option Bytes :=
  if (chars text).any (fun c => c = '-' ∨ c = '_') then none else b64decodeValidate text

theorem toStandard_eq_pad (c : Char) : toStandard c = '=' ↔ c = '=' := by
  unfold toStandard
  split_ifs with hminus hunderscore
  · simp [hminus]
  · simp [hunderscore]
  · rfl

theorem digitValue_toStandard (c : Char) : digitValue (toStandard c) = digitValue c := by
  unfold toStandard
  split_ifs with hminus hunderscore
  · subst hminus
    decide
  · subst hunderscore
    decide
  · rfl

theorem decodeChars_toStandard (strict : Bool) (text : List Char) (q : Quad) :
    decodeChars strict q (text.map toStandard) = decodeChars strict q text := by
  induction text generalizing q with
  | nil => rfl
  | cons c rest ih =>
    rw [List.map_cons, decodeChars, decodeChars]
    simp only [toStandard_eq_pad, digitValue_toStandard, ih, Ne, List.map_eq_nil_iff]

theorem toStandard_ne (c : Char) : toStandard c ≠ '-' ∧ toStandard c ≠ '_' := by
  unfold toStandard
  split_ifs with hminus hunderscore
  · decide
  · decide
  · exact ⟨hminus, hunderscore⟩

theorem toStandard_ascii (c : Char) (hc : c.toNat < 128) : (toStandard c).toNat < 128 := by
  unfold toStandard
  split_ifs
  · decide
  · decide
  · exact hc

theorem b64decode_b64encode (bytes : Bytes) : b64decode (b64encode bytes) = some bytes := by
  have hchars : chars (b64encode bytes) = (encodeChars bytes).map toStandard := by
    rw [chars_eq, b64encode, String.toList_ofList]
  have hstandard : (chars (b64encode bytes)).any (fun c => c = '-' ∨ c = '_') = false := by
    rw [hchars, List.any_map, List.any_eq_false]
    intro c _
    simp [toStandard_ne c]
  have hascii : (chars (b64encode bytes)).all (fun c => c.toNat < 128) = true := by
    rw [hchars, List.all_map, List.all_eq_true]
    intro c hc
    exact decide_eq_true (toStandard_ascii c (encodeChars_ascii bytes c hc))
  rw [b64decode, hstandard, if_neg Bool.false_ne_true, b64decodeValidate, if_pos hascii, hchars,
    decodeChars_toStandard, decodeChars_encodeChars]

theorem encodeChars_length (bytes : Bytes) :
    (encodeChars bytes).length = 4 * ((bytes.length + 2) / 3) := by
  induction bytes using encodeChars.induct with
  | case1 => rfl
  | case2 a => simp [encodeChars]
  | case3 a b => simp [encodeChars]
  | case4 a b c rest ih =>
    simp only [encodeChars, List.length_cons, ih]
    omega

end Standard

end Decillion.Base64Text

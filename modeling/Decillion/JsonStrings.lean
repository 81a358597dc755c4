import Decillion.JsonText

/-!
Reading back the strings and the numbers the encoder writes. A character is recovered
from its escape whether it stands for itself, has a short escape or is spelled by one
or two code units; a number token ends where the next separator starts.
-/
namespace Decillion.JsonStrings

open ByteText JsonValues JsonText

theorem hexValue_hexDigit (n : ℕ) : hexValue (hexDigit n) = some (n % 16) :=
  hexValue_digitChar (n % 16) (Nat.mod_lt _ (by omega))

theorem parseUnit_escapeUnit (n : ℕ) (rest : List Char) (hn : n < 65536) :
    parseUnit (hexDigit (n / 4096) :: hexDigit (n / 256) :: hexDigit (n / 16) ::
      hexDigit n :: rest) = some (n, rest) := by
  simp only [parseUnit, hexValue_hexDigit]
  have hsum : n / 4096 % 16 * 4096 + n / 256 % 16 * 256 + n / 16 % 16 * 16 + n % 16 = n := by
    omega
  rw [hsum]

theorem char_not_surrogate (c : Char) : c.toNat < 55296 ∨ 57344 ≤ c.toNat := by
  have hvalid := c.valid
  simp only [UInt32.isValidChar, Nat.isValidChar] at hvalid
  rcases hvalid with h | h
  · exact Or.inl h
  · exact Or.inr h.1

theorem char_lt (c : Char) : c.toNat < 1114112 := by
  have hvalid := c.valid
  simp only [UInt32.isValidChar, Nat.isValidChar] at hvalid
  rcases hvalid with h | h
  · exact Nat.lt_trans h (by omega)
  · exact h.2

theorem parseUnicode_unit (c : Char) (rest : List Char) (hc : c.toNat < 65536) :
    parseUnicode (hexDigit (c.toNat / 4096) :: hexDigit (c.toNat / 256) ::
      hexDigit (c.toNat / 16) :: hexDigit c.toNat :: rest) = some (c, rest) := by
  have hsurrogate := char_not_surrogate c
  rw [parseUnicode, parseUnit_escapeUnit _ _ hc]
  simp only
  rw [if_neg (by omega), if_neg (by omega), Char.ofNat_toNat]

theorem parseUnicode_pair (high low : ℕ) (rest : List Char)
    (hhigh : 55296 ≤ high ∧ high < 56320) (hlow : 56320 ≤ low ∧ low < 57344) :
    parseUnicode (hexDigit (high / 4096) :: hexDigit (high / 256) :: hexDigit (high / 16) ::
      hexDigit high :: (escapeUnit low ++ rest)) =
        some (Char.ofNat (65536 + (high - 55296) * 1024 + (low - 56320)), rest) := by
  simp only [escapeUnit, List.cons_append, List.nil_append]
  rw [parseUnicode, parseUnit_escapeUnit _ _ (by omega)]
  simp only
  rw [if_pos hhigh, parseUnit_escapeUnit _ _ (by omega)]
  simp only
  rw [if_pos hlow]

theorem parseChar_escapeUnit (n : ℕ) (rest : List Char) :
    parseChar (escapeUnit n ++ rest) = parseUnicode (hexDigit (n / 4096) ::
      hexDigit (n / 256) :: hexDigit (n / 16) :: hexDigit n :: rest) := rfl

theorem parseChar_self (c : Char) (rest : List Char) (hslash : c ≠ '\\') (hquote : c ≠ '"')
    (hcontrol : ¬ c.toNat < 32) : parseChar (c :: rest) = some (c, rest) := by
  unfold parseChar
  split <;> simp_all

theorem parseChar_escapeChar (ascii : Bool) (c : Char) (rest : List Char) :
    parseChar (escapeChar ascii c ++ rest) = some (c, rest) := by
  unfold escapeChar
  split_ifs with hquote hslash hn hr ht hf hb hother hunit
  · subst hquote; rfl
  · subst hslash; rfl
  · subst hn; rfl
  · subst hr; rfl
  · subst ht; rfl
  · subst hf; rfl
  · subst hb; rfl
  · rw [parseChar_escapeUnit, parseUnicode_unit c rest hunit]
  · have hlt := char_lt c
    have hcode : 65536 + (55296 + (c.toNat - 65536) / 1024 - 55296) * 1024 +
        (56320 + (c.toNat - 65536) % 1024 - 56320) = c.toNat := by omega
    rw [List.append_assoc, parseChar_escapeUnit,
      parseUnicode_pair _ _ rest (by omega) (by omega), hcode, Char.ofNat_toNat]
  · exact parseChar_self c rest hslash hquote (fun h => hother (Or.inl h))

theorem escapeChar_head_ne_quote (ascii : Bool) (c : Char) (rest : List Char) :
    ∃ d more, escapeChar ascii c ++ rest = d :: more ∧ d ≠ '"' := by
  unfold escapeChar
  split_ifs with hquote hslash hn hr ht hf hb hother hunit
  all_goals first
    | exact ⟨_, _, rfl, by decide⟩
    | exact ⟨c, rest, rfl, hquote⟩

theorem parseString_cons (fuel : ℕ) (c d : Char) (more rest : List Char) (hd : d ≠ '"')
    (hchar : parseChar (d :: more) = some (c, rest)) :
    parseString (fuel + 1) (d :: more) =
      (parseString fuel rest).map (fun found => (c :: found.1, found.2)) := by
  conv_lhs => unfold parseString
  split
  · rename_i heq
    exact absurd (List.cons.inj heq).1 hd
  · simp only [hchar]
    cases parseString fuel rest with
    | none => rfl
    | some found => rfl

theorem parseString_flatMap (ascii : Bool) (chars rest : List Char) (fuel : ℕ)
    (hfuel : chars.length < fuel) :
    parseString fuel (chars.flatMap (escapeChar ascii) ++ '"' :: rest) = some (chars, rest) := by
  induction chars generalizing fuel with
  | nil =>
    obtain ⟨fuel, rfl⟩ : ∃ n, fuel = n + 1 :=
      ⟨fuel - 1, by simp only [List.length_nil] at hfuel; omega⟩
    rfl
  | cons c cs ih =>
    obtain ⟨fuel, rfl⟩ : ∃ n, fuel = n + 1 := ⟨fuel - 1, by omega⟩
    simp only [List.length_cons, Nat.add_lt_add_iff_right] at hfuel
    rw [List.flatMap_cons, List.append_assoc]
    obtain ⟨d, more, hhead, hd⟩ :=
      escapeChar_head_ne_quote ascii c (cs.flatMap (escapeChar ascii) ++ '"' :: rest)
    have hchar := parseChar_escapeChar ascii c (cs.flatMap (escapeChar ascii) ++ '"' :: rest)
    rw [hhead] at hchar ⊢
    rw [parseString_cons _ _ _ _ _ hd hchar, ih fuel hfuel, Option.map_some]

theorem length_le_flatMap (ascii : Bool) (chars : List Char) :
    chars.length ≤ (chars.flatMap (escapeChar ascii)).length := by
  induction chars with
  | nil => simp
  | cons c cs ih =>
    obtain ⟨d, more, hhead, -⟩ := escapeChar_head_ne_quote ascii c []
    rw [List.append_nil] at hhead
    rw [List.flatMap_cons, List.length_append, List.length_cons, hhead, List.length_cons]
    omega

/-- A string is read back from the text behind its opening quote. -/
theorem parseString_dumpString (st : Style) (s : String) (rest : List Char) :
    dumpString st s ++ rest = '"' :: (s.toList.flatMap (escapeChar st.ensureAscii) ++ '"' :: rest) ∧
      parseString (s.toList.flatMap (escapeChar st.ensureAscii) ++ '"' :: rest).length
        (s.toList.flatMap (escapeChar st.ensureAscii) ++ '"' :: rest) =
          some (s.toList, rest) := by
  constructor
  · simp [dumpString, chars_eq]
  · apply parseString_flatMap
    have hlen := length_le_flatMap st.ensureAscii s.toList
    simp only [List.length_append, List.length_cons]
    omega

/-- What may follow a number: nothing, or a character that ends its token. -/
def Ends (rest : List Char) : Prop := ∀ c more, rest = c :: more → isTokenChar c = false

theorem ends_nil : Ends [] := by
  intro c more h
  cases h

theorem ends_cons (c : Char) (more : List Char) (hc : isTokenChar c = false) :
    Ends (c :: more) := by
  intro d rest h
  cases h
  exact hc

theorem takeWhile_token (token rest : List Char) (htoken : token.all isTokenChar = true)
    (hrest : Ends rest) : (token ++ rest).takeWhile isTokenChar = token ∧
      (token ++ rest).dropWhile isTokenChar = rest := by
  induction token with
  | nil =>
    cases rest with
    | nil => exact ⟨rfl, rfl⟩
    | cons c more => simp [hrest c more rfl]
  | cons c cs ih =>
    simp only [List.all_cons, Bool.and_eq_true] at htoken
    obtain ⟨htake, hdrop⟩ := ih htoken.2
    simp [htoken.1, htake, hdrop]

theorem isTokenChar_of_isDigit (c : Char) (hc : c.isDigit = true) : isTokenChar c = true := by
  simp [isTokenChar, Char.isAlphanum, hc]

theorem all_isDigit_toDigits (n : ℕ) : (Nat.toDigits 10 n).all Char.isDigit = true := by
  rw [List.all_eq_true]
  intro c hc
  exact Nat.isDigit_of_mem_toDigits (by omega) (by omega) hc

theorem digitChar_ne_zero : ∀ n, n < 10 → n ≠ 0 → Nat.digitChar n ≠ '0' := by
  decide

theorem head_toDigits_ne_zero (n : ℕ) (hn : n ≠ 0) :
    (Nat.toDigits 10 n).head? ≠ some '0' := by
  induction n using Nat.strong_induction_on with
  | h n ih =>
    by_cases hsmall : n < 10
    · rw [Nat.toDigits_of_lt_base hsmall, List.head?_cons]
      exact fun h => digitChar_ne_zero n hsmall hn (Option.some.inj h)
    · have hne : Nat.toDigits 10 (n / 10) ≠ [] := Nat.toDigits_ne_nil
      rw [Nat.toDigits_of_base_le (by omega) (by omega), List.head?_append_of_ne_nil _ hne]
      exact ih (n / 10) (by omega) (by omega)

theorem isWhole_cons (c : Char) (rest : List Char) (hc : c ≠ '0')
    (hall : (c :: rest).all Char.isDigit = true) : isWhole (c :: rest) = true := by
  simp only [List.all_cons, Bool.and_eq_true] at hall
  simp [isWhole, hc, hall]

theorem isWhole_toDigits (n : ℕ) : isWhole (Nat.toDigits 10 n) = true := by
  by_cases hn : n = 0
  · subst hn
    rfl
  · have hall := all_isDigit_toDigits n
    have hhead := head_toDigits_ne_zero n hn
    cases hdigits : Nat.toDigits 10 n with
    | nil => exact absurd hdigits Nat.toDigits_ne_nil
    | cons c rest =>
      rw [hdigits] at hall hhead
      exact isWhole_cons c rest (fun h => hhead (congrArg some h)) hall

theorem dumpInt_token (n : ℤ) : (dumpInt n).all isTokenChar = true := by
  have hdigits : (Nat.toDigits 10 n.natAbs).all isTokenChar = true := by
    have hall := all_isDigit_toDigits n.natAbs
    rw [List.all_eq_true] at hall ⊢
    intro c hc
    exact isTokenChar_of_isDigit c (hall c hc)
  unfold dumpInt
  split
  · simp only [List.all_cons, hdigits, Bool.and_true]
    decide
  · exact hdigits

theorem toDigits_cons (n : ℕ) :
    ∃ c rest, Nat.toDigits 10 n = c :: rest ∧ c.isDigit = true := by
  have hall := all_isDigit_toDigits n
  cases hdigits : Nat.toDigits 10 n with
  | nil => exact absurd hdigits Nat.toDigits_ne_nil
  | cons c rest =>
    rw [hdigits] at hall
    simp only [List.all_cons, Bool.and_eq_true] at hall
    exact ⟨c, rest, rfl, hall.1⟩

theorem unsigned_of_ne (c : Char) (rest : List Char) (hc : c ≠ '-') :
    unsigned (c :: rest) = c :: rest := by
  unfold unsigned
  split
  · rename_i heq
    exact absurd (List.cons.inj heq).1 hc
  · rfl

theorem digit_ne_minus (c : Char) (hc : c.isDigit = true) : c ≠ '-' := by
  rintro rfl
  exact absurd hc (by decide)

theorem unsigned_dumpInt (n : ℤ) : unsigned (dumpInt n) = Nat.toDigits 10 n.natAbs := by
  unfold dumpInt
  split
  · rfl
  · obtain ⟨c, rest, hcons, hc⟩ := toDigits_cons n.natAbs
    rw [hcons]
    exact unsigned_of_ne c rest (digit_ne_minus c hc)

theorem intOfToken_dumpInt (n : ℤ) : intOfToken (dumpInt n) = n := by
  unfold dumpInt
  split
  · simp only [intOfToken, Nat.ofDigitChars_ten_toDigits]
    omega
  · obtain ⟨c, rest, hcons, hc⟩ := toDigits_cons n.natAbs
    have hvalue : (Nat.ofDigitChars 10 (c :: rest) 0 : ℤ) = n := by
      rw [← hcons, Nat.ofDigitChars_ten_toDigits]
      omega
    rw [hcons]
    unfold intOfToken
    split
    · rename_i heq
      exact absurd (List.cons.inj heq).1 (digit_ne_minus c hc)
    · exact hvalue

/-- A floating-point token has a character that an integer token has not. -/
theorem isFloatToken_of_digits (token : List Char)
    (hall : (unsigned token).all Char.isDigit = true) : isFloatToken token = false := by
  have hdrop : (unsigned token).dropWhile Char.isDigit = [] := by
    rw [List.dropWhile_eq_nil_iff]
    exact List.all_eq_true.mp hall
  have hnan : token ≠ "NaN".toList := by
    rintro rfl
    exact absurd hall (by decide)
  have hinf : token ≠ "Infinity".toList := by
    rintro rfl
    exact absurd hall (by decide)
  have hneg : token ≠ "-Infinity".toList := by
    rintro rfl
    exact absurd hall (by decide)
  have hfraction : isFraction [] = false := rfl
  rw [isFloatToken, hdrop, hfraction, decide_eq_false hnan, decide_eq_false hinf,
    decide_eq_false hneg]
  simp

theorem isFloatToken_dumpInt (n : ℤ) : isFloatToken (dumpInt n) = false := by
  apply isFloatToken_of_digits
  rw [unsigned_dumpInt]
  exact all_isDigit_toDigits n.natAbs

/-- Floating-point numbers without a fraction, printed with the decimal ".0". -/
structure WholeFloat where
  value : ℕ
deriving DecidableEq

theorem takeWhile_isDigit_toDigits (n : ℕ) :
    (Nat.toDigits 10 n ++ ".0".toList).takeWhile Char.isDigit = Nat.toDigits 10 n ∧
      (Nat.toDigits 10 n ++ ".0".toList).dropWhile Char.isDigit = ".0".toList := by
  have hall := List.all_eq_true.mp (all_isDigit_toDigits n)
  rw [List.takeWhile_append_of_pos hall, List.dropWhile_append_of_pos hall]
  simp

instance : FloatText WholeFloat where
  text := fun x => Nat.toDigits 10 x.value ++ ".0".toList
  ofText := fun token => some ⟨Nat.ofDigitChars 10 (token.takeWhile Char.isDigit) 0⟩
  ofText_text := by
    intro x
    rw [(takeWhile_isDigit_toDigits x.value).1, Nat.ofDigitChars_ten_toDigits]
  isFloatToken_text := by
    intro x
    obtain ⟨c, rest, hcons, hc⟩ := toDigits_cons x.value
    have hunsigned : unsigned (Nat.toDigits 10 x.value ++ ".0".toList) =
        Nat.toDigits 10 x.value ++ ".0".toList := by
      rw [hcons, List.cons_append]
      exact unsigned_of_ne c _ (digit_ne_minus c hc)
    have htoken : (Nat.toDigits 10 x.value ++ ".0".toList).all isTokenChar = true := by
      rw [List.all_append, Bool.and_eq_true]
      refine ⟨?_, by decide⟩
      rw [List.all_eq_true]
      exact fun d hd => isTokenChar_of_isDigit d (List.all_eq_true.mp (all_isDigit_toDigits _) d hd)
    have hfraction : isFraction ".0".toList = true := by decide
    rw [isFloatToken, htoken, hunsigned, (takeWhile_isDigit_toDigits x.value).1,
      (takeWhile_isDigit_toDigits x.value).2, isWhole_toDigits, hfraction]
    simp

variable {F : Type} [FloatText F]

theorem parseNumber_dumpInt (n : ℤ) (rest : List Char) (hrest : Ends rest) :
    parseNumber (dumpInt n ++ rest) = some (Json.int (F := F) n, rest) := by
  obtain ⟨htake, hdrop⟩ := takeWhile_token (dumpInt n) rest (dumpInt_token n) hrest
  unfold parseNumber
  rw [htake, hdrop]
  simp [isFloatToken_dumpInt, isIntToken, unsigned_dumpInt, isWhole_toDigits, intOfToken_dumpInt]

theorem parseNumber_text (x : F) (rest : List Char) (hrest : Ends rest) :
    parseNumber (FloatText.text x ++ rest) = some (Json.float x, rest) := by
  have htoken := FloatText.isFloatToken_text x
  have hall : (FloatText.text x).all isTokenChar = true := by
    rw [isFloatToken, Bool.and_eq_true] at htoken
    exact htoken.1
  obtain ⟨htake, hdrop⟩ := takeWhile_token (FloatText.text x) rest hall hrest
  unfold parseNumber
  rw [htake, hdrop]
  simp [htoken, FloatText.ofText_text]

end Decillion.JsonStrings

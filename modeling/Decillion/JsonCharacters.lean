import Decillion.JsonStrings

/-!
The characters that stand in the text of a JSON value: those of the escapes, those of
numbers and words, and the punctuation. A text that escapes everything outside printable
ASCII has as many octets as characters.
-/
namespace Decillion.JsonCharacters

open ByteText JsonValues JsonText JsonStrings

def isPunctuation (c : Char) : Bool := "\n ,:[]{}\"".toList.contains c

/-- What holds of the punctuation, of the characters of tokens and of all escapes. -/
structure Covers (st : Style) (P : Char → Prop) : Prop where
  punctuation : ∀ c, isPunctuation c = true → P c
  token : ∀ c, isTokenChar c = true → P c
  escape : ∀ c, ∀ d ∈ escapeChar st.ensureAscii c, P d

variable {st : Style} {P : Char → Prop}

theorem Covers.forall_token (h : Covers st P) (token : List Char)
    (htoken : token.all isTokenChar = true) : ∀ c ∈ token, P c :=
  fun c hc => h.token c (List.all_eq_true.mp htoken c hc)

theorem Covers.forall_newline (h : Covers st P) (level : ℕ) : ∀ c ∈ newline st level, P c := by
  intro c hc
  apply h.punctuation
  unfold newline at hc
  split at hc
  · exact absurd hc List.not_mem_nil
  · rcases List.mem_cons.mp hc with rfl | hc
    · rfl
    · rw [List.eq_of_mem_replicate hc]
      rfl

theorem Covers.forall_colon (h : Covers st P) : ∀ c ∈ colon st, P c := by
  have hcolon : P ':' := h.punctuation _ rfl
  have hblank : P ' ' := h.punctuation _ rfl
  unfold colon
  split <;> simp [hcolon, hblank]

theorem Covers.forall_dumpString (h : Covers st P) (s : String) : ∀ c ∈ dumpString st s, P c := by
  have hquote : P '"' := h.punctuation _ rfl
  intro c hc
  rw [dumpString, List.mem_cons, List.mem_append, List.mem_singleton, List.mem_flatMap] at hc
  rcases hc with rfl | ⟨d, -, hd⟩ | rfl
  · exact hquote
  · exact h.escape d c hd
  · exact hquote

variable {F : Type} [FloatText F]

mutual

theorem Covers.forall_dump (h : Covers st P) : (v : Json F) → (level : ℕ) →
    ∀ c ∈ dump st level v, P c
  | .null, _ => h.forall_token "null".toList (by decide)
  | .bool true, _ => h.forall_token "true".toList (by decide)
  | .bool false, _ => h.forall_token "false".toList (by decide)
  | .int n, _ => h.forall_token _ (dumpInt_token n)
  | .float x, _ => by
    have htoken := FloatText.isFloatToken_text x
    rw [isFloatToken, Bool.and_eq_true] at htoken
    exact h.forall_token _ htoken.1
  | .str s, _ => h.forall_dumpString s
  | .list [], _ => by
    have hopen : P '[' := h.punctuation _ rfl
    have hclose : P ']' := h.punctuation _ rfl
    simp [dump, hopen, hclose]
  | .list (x :: xs), level => by
    have hopen : P '[' := h.punctuation _ rfl
    have hclose : P ']' := h.punctuation _ rfl
    have hfirst := h.forall_dump x (level + 1)
    have hitems := h.forall_dumpItems xs (level + 1)
    have hbreak := h.forall_newline
    intro c hc
    simp only [dump, List.mem_cons, List.mem_append, List.not_mem_nil, or_false] at hc
    rcases hc with rfl | hc | hc | hc | hc | rfl
    · exact hopen
    · exact hbreak _ c hc
    · exact hfirst c hc
    · exact hitems c hc
    · exact hbreak _ c hc
    · exact hclose
  | .obj [], _ => by
    have hopen : P '{' := h.punctuation _ rfl
    have hclose : P '}' := h.punctuation _ rfl
    simp [dump, hopen, hclose]
  | .obj ((k, v) :: rest), level => by
    have hopen : P '{' := h.punctuation _ rfl
    have hclose : P '}' := h.punctuation _ rfl
    have hvalue := h.forall_dump v (level + 1)
    have hmembers := h.forall_dumpMembers rest (level + 1)
    have hbreak := h.forall_newline
    intro c hc
    simp only [dump, List.mem_cons, List.mem_append, List.not_mem_nil, or_false] at hc
    rcases hc with rfl | hc | hc | hc | hc | hc | hc | rfl
    · exact hopen
    · exact hbreak _ c hc
    · exact h.forall_dumpString k c hc
    · exact h.forall_colon c hc
    · exact hvalue c hc
    · exact hmembers c hc
    · exact hbreak _ c hc
    · exact hclose

theorem Covers.forall_dumpItems (h : Covers st P) : (xs : List (Json F)) → (level : ℕ) →
    ∀ c ∈ dumpItems st level xs, P c
  | [], _ => fun _ hc => absurd hc List.not_mem_nil
  | x :: xs, level => by
    have hcomma : P ',' := h.punctuation _ rfl
    have hfirst := h.forall_dump x level
    have hitems := h.forall_dumpItems xs level
    intro c hc
    simp only [dumpItems, List.mem_cons, List.mem_append] at hc
    rcases hc with rfl | hc | hc | hc
    · exact hcomma
    · exact h.forall_newline _ c hc
    · exact hfirst c hc
    · exact hitems c hc

theorem Covers.forall_dumpMembers (h : Covers st P) : (members : Members F) → (level : ℕ) →
    ∀ c ∈ dumpMembers st level members, P c
  | [], _ => fun _ hc => absurd hc List.not_mem_nil
  | (k, v) :: rest, level => by
    have hcomma : P ',' := h.punctuation _ rfl
    have hvalue := h.forall_dump v level
    have hmembers := h.forall_dumpMembers rest level
    intro c hc
    simp only [dumpMembers, List.mem_cons, List.mem_append] at hc
    rcases hc with rfl | hc | hc | hc | hc | hc
    · exact hcomma
    · exact h.forall_newline _ c hc
    · exact h.forall_dumpString k c hc
    · exact h.forall_colon c hc
    · exact hvalue c hc
    · exact hmembers c hc

end

section Ascii

def IsAscii (c : Char) : Prop := c.toNat < 128

instance : DecidablePred IsAscii := fun c => inferInstanceAs (Decidable (c.toNat < 128))

theorem isAscii_hexDigit (n : ℕ) : IsAscii (hexDigit n) := by
  have hdigit : ∀ d, d < 16 → (Nat.digitChar d).toNat < 128 := by decide
  exact hdigit (n % 16) (Nat.mod_lt _ (by omega))

theorem isAscii_escapeUnit (n : ℕ) : ∀ c ∈ escapeUnit n, IsAscii c := by
  have hslash : IsAscii '\\' := by decide
  have hu : IsAscii 'u' := by decide
  simp [escapeUnit, hslash, hu, isAscii_hexDigit]

theorem isAscii_escapeChar (c : Char) : ∀ d ∈ escapeChar true c, IsAscii d := by
  have hpair : ∀ d, IsAscii d → ∀ e ∈ ['\\', d], IsAscii e := by
    intro d hd e he
    rcases List.mem_pair.mp he with rfl | rfl
    · exact (by decide : IsAscii '\\')
    · exact hd
  unfold escapeChar
  split_ifs with h1 h2 h3 h4 h5 h6 h7 h8 h9
  · exact hpair _ (by decide)
  · exact hpair _ (by decide)
  · exact hpair _ (by decide)
  · exact hpair _ (by decide)
  · exact hpair _ (by decide)
  · exact hpair _ (by decide)
  · exact hpair _ (by decide)
  · exact isAscii_escapeUnit _
  · intro d hd
    exact (List.mem_append.mp hd).elim (isAscii_escapeUnit _ d) (isAscii_escapeUnit _ d)
  · intro d hd
    rw [List.mem_singleton] at hd
    subst hd
    rw [not_or, not_and] at h8
    have hle := not_lt.mp (h8.2 rfl)
    unfold IsAscii
    omega

theorem isAscii_token (c : Char) (hc : isTokenChar c = true) : IsAscii c := by
  delta isTokenChar Char.isAlphanum Char.isAlpha Char.isUpper Char.isLower Char.isDigit at hc
  simp only [Bool.or_eq_true, Bool.and_eq_true, decide_eq_true_eq] at hc
  unfold IsAscii
  rcases hc with (((((h | h) | h) | rfl) | rfl) | rfl)
  · exact Nat.lt_of_le_of_lt h.2 (by decide)
  · exact Nat.lt_of_le_of_lt h.2 (by decide)
  · exact Nat.lt_of_le_of_lt h.2 (by decide)
  · decide
  · decide
  · decide

theorem covers_ascii (st : Style) (hst : st.ensureAscii = true) : Covers st IsAscii where
  punctuation := by
    intro c hc
    have hall : "\n ,:[]{}\"".toList.all (fun d => decide (IsAscii d)) = true := by decide
    exact of_decide_eq_true (List.all_eq_true.mp hall c (List.contains_iff_mem.mp hc))
  token := isAscii_token
  escape := by
    rw [hst]
    exact isAscii_escapeChar

theorem utf8_length (text : List Char) (h : ∀ c ∈ text, IsAscii c) :
    (utf8 text).length = text.length := by
  induction text with
  | nil => rfl
  | cons c rest ih =>
    have hone : (String.utf8EncodeChar c).length = 1 := by
      rw [String.length_utf8EncodeChar]
      exact Char.utf8Size_eq_one_iff.mpr (Nat.lt_succ_iff.mp (h c List.mem_cons_self))
    have htail : (utf8 rest).length = rest.length :=
      ih (fun d hd => h d (List.mem_cons_of_mem c hd))
    rw [utf8, List.flatMap_cons, List.length_append, hone, List.length_cons, Nat.add_comm]
    exact congrArg (· + 1) htail

/-- A text in ASCII has one octet for each character. -/
theorem encode_dumps_length (v : Json F) :
    (encode (dumps compact v)).length = (dump compact 0 v).length := by
  rw [dumps, encode_ofList]
  exact utf8_length _ ((covers_ascii compact rfl).forall_dump v 0)

end Ascii

end Decillion.JsonCharacters

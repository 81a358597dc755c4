import Decillion.JsonCharacters
import Decillion.JsonRoundTrip

/-!
Text files. Reading one in text mode turns every spelling of the end of a line into a
line feed; the encoder escapes the carriage return, so the text of a JSON value comes
back from a file as it was written.
-/
namespace Decillion.TextFiles

open ByteText JsonValues JsonText JsonStrings JsonCharacters JsonRoundTrip

def universalNewlines : List Char → List Char
  | [] => []
  | '\r' :: '\n' :: rest => '\n' :: universalNewlines rest
  | '\r' :: rest => '\n' :: universalNewlines rest
  | c :: rest => c :: universalNewlines rest

/-- `Path.read_text(encoding="utf-8")` -/
def readText (bytes : Bytes) : Option String :=
  (decode bytes).map (fun text => String.ofList (universalNewlines (chars text)))

def NoReturn (text : List Char) : Prop := ∀ c ∈ text, c ≠ '\r'

theorem universalNewlines_of_noReturn (text : List Char) (h : NoReturn text) :
    universalNewlines text = text := by
  induction text using universalNewlines.induct with
  | case1 => rfl
  | case2 rest => exact absurd rfl (h _ (by simp))
  | case3 rest => exact absurd rfl (h _ (by simp))
  | case4 c rest h1 h2 ih =>
    rw [universalNewlines, ih (fun d hd => h d (List.mem_cons_of_mem c hd))]
    all_goals assumption

theorem noReturn_append (a b : List Char) :
    NoReturn (a ++ b) ↔ NoReturn a ∧ NoReturn b := by
  simp only [NoReturn, List.mem_append, or_imp, forall_and]

theorem noReturn_escapeUnit (n : ℕ) : NoReturn (escapeUnit n) := by
  have hdigit : ∀ d, d < 16 → Nat.digitChar d ≠ '\r' := by decide
  have hhex : ∀ k, hexDigit k ≠ '\r' := fun k => hdigit (k % 16) (Nat.mod_lt _ (by omega))
  simp [NoReturn, escapeUnit, hhex]

theorem noReturn_escapeChar (ascii : Bool) (c : Char) : NoReturn (escapeChar ascii c) := by
  unfold escapeChar
  split_ifs with h1 h2 h3 h4 h5 h6 h7 h8 h9
  all_goals first
    | exact noReturn_escapeUnit _
    | exact (noReturn_append _ _).mpr ⟨noReturn_escapeUnit _, noReturn_escapeUnit _⟩
    | simp [NoReturn]
  exact h4

theorem covers_noReturn (st : Style) : Covers st (fun c => c ≠ '\r') where
  punctuation := by
    rintro c hc rfl
    exact absurd hc (by decide)
  token := by
    rintro c hc rfl
    exact absurd hc (by decide)
  escape := noReturn_escapeChar st.ensureAscii

variable {F : Type} [FloatText F]

theorem noReturn_dump (v : Json F) (st : Style) (level : ℕ) : NoReturn (dump st level v) :=
  (covers_noReturn st).forall_dump v level

/-- A JSON value written to a file with a line feed behind it is read back. -/
theorem loads_readText (st : Style) (v : Json F) (hkeys : DistinctKeys v) :
    (readText (encode (dumps st v ++ "\n"))).bind loads = some v := by
  have hchars : (dumps st v ++ "\n").toList = dump st 0 v ++ ['\n'] := by
    rw [String.toList_append, dumps, String.toList_ofList]
    rfl
  have hnewlines : universalNewlines (dump st 0 v ++ ['\n']) = dump st 0 v ++ ['\n'] :=
    universalNewlines_of_noReturn _ ((noReturn_append _ _).mpr
      ⟨noReturn_dump v st 0, by simp [NoReturn]⟩)
  rw [readText, decode_encode, Option.map_some, chars_eq, hchars, hnewlines, Option.bind_some]
  exact loads_dumps st v hkeys ['\n'] (by simp [isSpace])

end Decillion.TextFiles

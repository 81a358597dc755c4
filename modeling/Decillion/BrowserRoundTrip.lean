import Decillion.BrowserJson
import Decillion.JsonCharacters

/-!
What `JSON.parse` makes of the text of a value. A string is read back unit by unit whether a
unit is escaped or not, and an object in the order in which it was written; a number becomes
the number that its text stands for, which is null when it is not finite.
-/
namespace Decillion.BrowserRoundTrip

open BrowserJson BrowserValues ByteText
open JsonRoundTrip (StartsNumber)
open JsonStrings (parseUnit_escapeUnit)
open JsonText (escapeUnit hexDigit isFraction isSpace isTokenChar isWhole parseUnit unsigned)

section Strings

theorem hexDigit_lt (n : ℕ) : (hexDigit n).toNat < 65536 := by
  have hdigits : ∀ d, d < 16 → (Nat.digitChar d).toNat < 65536 := by decide
  exact hdigits _ (Nat.mod_lt _ (by omega))

theorem parseString_escaped (fuel : ℕ) {v : CodeUnit} {text rest : JsString}
    (h : parseEscape text = some (v, rest)) :
    parseString (fuel + 1) (unit '\\' :: text) =
      (parseString fuel rest).map (fun p => (v :: p.1, p.2)) := by
  rw [parseString, if_neg (by decide), if_pos rfl, h]

theorem parseString_raw (fuel : ℕ) {u : CodeUnit} (text : JsString) (hquote : u ≠ unit '"')
    (hslash : u ≠ unit '\\') (hcontrol : ¬ u.val < 32) :
    parseString (fuel + 1) (u :: text) =
      (parseString fuel text).map (fun p => (u :: p.1, p.2)) := by
  rw [parseString, if_neg hquote, if_neg hslash, if_neg hcontrol]

theorem parseEscape_unit (u : CodeUnit) (text : JsString) :
    parseEscape (units (escapeUnit u.val).tail ++ text) = some (u, text) := by
  have hunit := parseUnit_escapeUnit u.val [] u.isLt
  have htext : units (escapeUnit u.val).tail ++ text = unit 'u' :: unit (hexDigit (u.val / 4096)) ::
      unit (hexDigit (u.val / 256)) :: unit (hexDigit (u.val / 16)) ::
        unit (hexDigit u.val) :: text := rfl
  have hlead : lead (units (escapeUnit u.val).tail ++ text) = some ('u',
      unit (hexDigit (u.val / 4096)) :: unit (hexDigit (u.val / 256)) ::
        unit (hexDigit (u.val / 16)) :: unit (hexDigit u.val) :: text) := rfl
  rw [parseEscape, hlead]
  simp only [List.map_cons, List.map_nil, character_unit (hexDigit_lt _), hunit, Option.map_some]
  rw [codeUnit, Fin.ofNat_val_eq_self]

theorem parseString_alone (fuel : ℕ) (u : CodeUnit) (text : JsString) :
    parseString (fuel + 1) (escapeAlone u ++ text) =
      (parseString fuel text).map (fun p => (u :: p.1, p.2)) := by
  unfold escapeAlone
  split_ifs with hquote hslash hb ht hn hf hr hother
  · exact hquote ▸ parseString_escaped fuel rfl
  · exact hslash ▸ parseString_escaped fuel rfl
  · exact hb ▸ parseString_escaped fuel rfl
  · exact ht ▸ parseString_escaped fuel rfl
  · exact hn ▸ parseString_escaped fuel rfl
  · exact hf ▸ parseString_escaped fuel rfl
  · exact hr ▸ parseString_escaped fuel rfl
  · exact parseString_escaped fuel (parseEscape_unit u text)
  · exact parseString_raw fuel text hquote hslash (fun h => hother (Or.inl h))

theorem surrogate_raw {u : CodeUnit} (h : 55296 ≤ u.val) :
    u ≠ unit '"' ∧ u ≠ unit '\\' ∧ ¬ u.val < 32 := by
  refine ⟨?_, ?_, by omega⟩
  · rintro rfl
    exact absurd h (by decide)
  · rintro rfl
    exact absurd h (by decide)

/-- A string is read back from its escapes and its closing quote. -/
theorem parseString_escape (s rest : JsString) (fuel : ℕ) (hfuel : s.length < fuel) :
    parseString fuel (escape s ++ unit '"' :: rest) = some (s, rest) := by
  induction s using escape.induct generalizing fuel with
  | case1 high low more hpair ih =>
    have hhigh := hpair
    simp only [Bool.and_eq_true, isHigh, isLow, decide_eq_true_eq] at hhigh
    simp only [List.length_cons] at hfuel
    obtain ⟨fuel, rfl⟩ : ∃ n, fuel = n + 2 := ⟨fuel - 2, by omega⟩
    obtain ⟨hquote, hslash, hcontrol⟩ := surrogate_raw hhigh.1.1
    obtain ⟨hquote', hslash', hcontrol'⟩ := surrogate_raw (u := low) (by omega)
    rw [escape, if_pos hpair, List.cons_append, List.cons_append,
      parseString_raw _ _ hquote hslash hcontrol, parseString_raw _ _ hquote' hslash' hcontrol',
      ih fuel (by omega)]
    rfl
  | case2 high low more hpair ih =>
    obtain ⟨fuel, rfl⟩ : ∃ n, fuel = n + 1 := ⟨fuel - 1, by omega⟩
    rw [List.length_cons, Nat.add_lt_add_iff_right] at hfuel
    rw [escape, if_neg hpair, List.append_assoc, parseString_alone, ih fuel hfuel]
    rfl
  | case3 u =>
    obtain ⟨fuel, rfl⟩ : ∃ n, fuel = n + 2 := ⟨fuel - 2, by
      rw [List.length_singleton] at hfuel
      omega⟩
    rw [escape, parseString_alone]
    rfl
  | case4 =>
    obtain ⟨fuel, rfl⟩ : ∃ n, fuel = n + 1 := ⟨fuel - 1, by
      rw [List.length_nil] at hfuel
      omega⟩
    rfl

theorem escapeAlone_length (u : CodeUnit) : 1 ≤ (escapeAlone u).length := by
  unfold escapeAlone
  split_ifs <;> simp [units, escapeUnit]

theorem length_le_escape (s : JsString) : s.length ≤ (escape s).length := by
  induction s using escape.induct with
  | case1 high low more hpair ih =>
    rw [escape, if_pos hpair]
    simpa using ih
  | case2 high low more hpair ih =>
    have halone := escapeAlone_length high
    rw [escape, if_neg hpair, List.length_append]
    simp only [List.length_cons] at ih ⊢
    omega
  | case3 u => exact escapeAlone_length u
  | case4 => exact le_rfl

/-- A quoted string is read back and what follows it is left. -/
theorem parseString_quote (s rest : JsString) :
    ∃ text, quote s ++ rest = unit '"' :: text ∧
      parseString text.length text = some (s, rest) := by
  refine ⟨escape s ++ unit '"' :: rest, by simp [quote], parseString_escape s rest _ ?_⟩
  have hlength := length_le_escape s
  simp only [List.length_append, List.length_cons]
  omega

end Strings

section Numbers

/-- What may follow a number. -/
def Ends (rest : JsString) : Prop :=
  ∀ u more, rest = u :: more → isTokenChar (character u) = false

theorem ends_unit {c : Char} (more : JsString) (h : isTokenChar (character (unit c)) = false) :
    Ends (unit c :: more) := by
  intro u rest heq
  cases heq
  exact h

theorem character_token {token : List Char} (h : token.all isTokenChar = true) :
    (units token).map character = token := by
  rw [units, List.map_map]
  refine (List.map_congr_left fun c hc => ?_).trans (List.map_id token)
  have hascii := JsonCharacters.isAscii_token c (List.all_eq_true.mp h c hc)
  exact character_unit (Nat.lt_of_lt_of_le hascii (by decide))

theorem takeWhile_units {token : List Char} {rest : JsString}
    (h : token.all isTokenChar = true) (hrest : Ends rest) :
    (units token ++ rest).takeWhile (fun u => isTokenChar (character u)) = units token ∧
      (units token ++ rest).dropWhile (fun u => isTokenChar (character u)) = rest := by
  have hall : ∀ u ∈ units token, isTokenChar (character u) = true := by
    intro u hu
    have hchars := character_token h
    have hin : character u ∈ token := hchars ▸ List.mem_map_of_mem hu
    exact List.all_eq_true.mp h _ hin
  rw [List.takeWhile_append_of_pos hall, List.dropWhile_append_of_pos hall]
  cases rest with
  | nil => simp
  | cons u more =>
    have hu := hrest u more rfl
    rw [List.takeWhile_cons_of_neg (by simp [hu]), List.dropWhile_cons_of_neg (by simp [hu])]
    exact ⟨List.append_nil _, rfl⟩

variable {N : Type} [JsNumber N]

theorem parseNumber_toText {n : N} (h : JsNumber.isFinite n = true) {rest : JsString}
    (hrest : Ends rest) : parseNumber (units (JsNumber.toText n) ++ rest) =
      some (.number (JsNumber.ofToken (JsNumber.toText n) : N), rest) := by
  have htoken := JsNumber.isNumberToken_toText n h
  have hall : (JsNumber.toText n).all isTokenChar = true := by
    rw [isNumberToken, Bool.and_eq_true, Bool.and_eq_true] at htoken
    exact htoken.1.1
  obtain ⟨htake, hdrop⟩ := takeWhile_units hall hrest
  unfold parseNumber
  rw [htake, hdrop, character_token hall]
  exact if_pos htoken

theorem startsNumber_lt {c : Char} (h : StartsNumber c) : c.toNat < 65536 := by
  rcases h with hdigit | rfl | rfl | rfl
  · exact Nat.lt_of_le_of_lt (Char.isDigit_iff_toNat.mp hdigit).2 (by decide)
  · decide
  · decide
  · decide

/-- A number starts with a digit or with its sign. -/
theorem numberToken_cons {token : List Char} (h : isNumberToken token = true) :
    ∃ c more, token = c :: more ∧ StartsNumber c := by
  cases token with
  | nil => exact absurd h (by decide)
  | cons c more =>
    refine ⟨c, more, rfl, ?_⟩
    by_cases hminus : c = '-'
    · exact Or.inr (Or.inl hminus)
    · simp only [isNumberToken, Bool.and_eq_true] at h
      have hwhole := h.1.2
      rw [JsonStrings.unsigned_of_ne c more hminus] at hwhole
      by_cases hdigit : c.isDigit = true
      · exact Or.inl hdigit
      · rw [List.takeWhile_cons_of_neg hdigit] at hwhole
        exact absurd hwhole (by decide)

end Numbers

section Values

variable {N : Type} [JsNumber N]

mutual

/-- What a value becomes when its text is read again. -/
def reread : Value N → Value N
  | .number n =>
      if JsNumber.isFinite n then .number (JsNumber.ofToken (JsNumber.toText n)) else .null
  | .array items => .array (rereadItems items)
  | .object members => .object (rereadMembers members)
  | v => v

def rereadItems : List (Value N) → List (Value N)
  | [] => []
  | x :: xs => reread x :: rereadItems xs

def rereadMembers : List (JsString × Value N) → List (JsString × Value N)
  | [] => []
  | (k, v) :: rest => (k, reread v) :: rereadMembers rest

end

theorem rereadItems_eq (items : List (Value N)) : rereadItems items = items.map reread := by
  induction items with
  | nil => rfl
  | cons x xs ih => rw [rereadItems, ih, List.map_cons]

theorem rereadMembers_eq (members : List (JsString × Value N)) :
    rereadMembers members = members.map (fun entry => (entry.1, reread entry.2)) := by
  induction members with
  | nil => rfl
  | cons entry rest ih =>
    obtain ⟨k, v⟩ := entry
    rw [rereadMembers, ih, List.map_cons]

theorem keys_rereadMembers (members : List (JsString × Value N)) :
    keys (rereadMembers members) = keys members := by
  rw [rereadMembers_eq, keys, List.map_map]
  rfl

mutual

/-- The nested calls the parser makes on the text of a value. -/
def depth : Value N → ℕ
  | .array items => depthItems items + 1
  | .object members => depthMembers members + 1
  | _ => 1

def depthItems : List (Value N) → ℕ
  | [] => 0
  | x :: xs => max (depth x) (depthItems xs) + 1

def depthMembers : List (JsString × Value N) → ℕ
  | [] => 0
  | (_, v) :: rest => max (depth v) (depthMembers rest) + 1

end

/-- The text of a value starts with no blank and with no closing bracket. -/
theorem stringify_cons (v : Value N) : ∃ u more, stringify v = u :: more ∧
    isSpace (character u) = false ∧ character u ≠ ']' := by
  have hfixed : ∀ c : Char, ∀ more, isSpace (character (unit c)) = false →
      character (unit c) ≠ ']' → ∃ u rest, unit c :: more = u :: rest ∧
        isSpace (character u) = false ∧ character u ≠ ']' :=
    fun c more hspace hbracket => ⟨_, _, rfl, hspace, hbracket⟩
  cases v with
  | null => exact hfixed 'n' _ (by decide) (by decide)
  | bool b =>
    cases b with
    | true => exact hfixed 't' _ (by decide) (by decide)
    | false => exact hfixed 'f' _ (by decide) (by decide)
  | number n =>
    by_cases hfinite : JsNumber.isFinite n = true
    · obtain ⟨c, more, hcons, hc⟩ := numberToken_cons (JsNumber.isNumberToken_toText n hfinite)
      have hspace : isSpace c = false := by
        have hblanks : c ≠ ' ' ∧ c ≠ '\t' ∧ c ≠ '\n' ∧ c ≠ '\r' :=
          ⟨hc.ne (by decide), hc.ne (by decide), hc.ne (by decide), hc.ne (by decide)⟩
        simp [isSpace, hblanks]
      have hchar := character_unit (startsNumber_lt hc)
      rw [stringify, if_pos hfinite, hcons]
      refine ⟨unit c, units more, rfl, ?_, ?_⟩
      · rwa [hchar]
      · rw [hchar]
        exact hc.ne (by decide)
    · rw [stringify, if_neg hfinite]
      exact hfixed 'n' _ (by decide) (by decide)
  | string s => exact hfixed '"' _ (by decide) (by decide)
  | array items =>
    cases items with
    | nil => exact hfixed '[' _ (by decide) (by decide)
    | cons x xs => exact hfixed '[' _ (by decide) (by decide)
  | object members =>
    rcases members with _ | ⟨⟨k, v⟩, rest⟩
    · exact hfixed '{' _ (by decide) (by decide)
    · exact hfixed '{' _ (by decide) (by decide)

theorem skipBlanks_unit {u : CodeUnit} (more : JsString) (h : isSpace (character u) = false) :
    skipBlanks (u :: more) = u :: more := by
  rw [skipBlanks, List.dropWhile_cons_of_neg (by simp [h])]

theorem skipBlanks_stringify (v : Value N) (text : JsString) :
    skipBlanks (stringify v ++ text) = stringify v ++ text := by
  obtain ⟨u, more, hcons, hspace, -⟩ := stringify_cons v
  rw [hcons, List.cons_append]
  exact skipBlanks_unit _ hspace

theorem lead_unit {c : Char} (rest : JsString) (h : c.toNat < 65536) :
    lead (unit c :: rest) = some (c, rest) := by
  rw [lead, character_unit h]

theorem parseValue_number (fuel : ℕ) {c : Char} (text : JsString)
    (hc : StartsNumber c) :
    parseValue (fuel + 1) (unit c :: text) = parseNumber (N := N) (unit c :: text) := by
  have hne : c ≠ '"' ∧ c ≠ '[' ∧ c ≠ '{' ∧ c ≠ 'n' ∧ c ≠ 't' ∧ c ≠ 'f' :=
    ⟨hc.ne (by decide), hc.ne (by decide), hc.ne (by decide), hc.ne (by decide),
      hc.ne (by decide), hc.ne (by decide)⟩
  rw [parseValue, lead_unit text (startsNumber_lt hc)]
  simp [hne]

theorem parseValue_quote (fuel : ℕ) (s rest : JsString) :
    parseValue (N := N) (fuel + 1) (quote s ++ rest) = some (.string s, rest) := by
  obtain ⟨text, htext, hparse⟩ := parseString_quote s rest
  have hlead : lead (unit '"' :: text) = some ('"', text) := lead_unit text (by decide)
  rw [htext, parseValue, hlead]
  simp only [hparse]
  rfl

/-- Past the opening bracket comes the text of an item, never the closing bracket. -/
theorem parseValue_array (fuel : ℕ) (x : Value N) (text : JsString) :
    parseValue (N := N) (fuel + 1) (unit '[' :: (stringify x ++ text)) =
      (parseItems fuel (stringify x ++ text)).map (fun p => (Value.array p.1, p.2)) := by
  obtain ⟨u, more, hcons, hspace, hbracket⟩ := stringify_cons x
  have hlead : lead (unit '[' :: (stringify x ++ text)) = some ('[', stringify x ++ text) :=
    lead_unit _ (by decide)
  rw [parseValue, hlead]
  simp only [skipBlanks_stringify]
  rw [hcons, List.cons_append, lead]
  split
  · rename_i heq
    exact absurd (Prod.mk.inj (Option.some.inj heq)).1 hbracket
  · rfl

theorem parseValue_object (fuel : ℕ) (k text : JsString) :
    parseValue (N := N) (fuel + 1) (unit '{' :: (quote k ++ text)) =
      (parseMembers (N := N) fuel (quote k ++ text)).map
        (fun p => (Value.object (fromEntries p.1), p.2)) := by
  have hlead : lead (unit '{' :: (quote k ++ text)) = some ('{', quote k ++ text) :=
    lead_unit _ (by decide)
  rw [parseValue, hlead]
  rfl

theorem parseItems_last (fuel : ℕ) {x : Value N} {text rest : JsString}
    (hx : parseValue fuel text = some (x, unit ']' :: rest)) :
    parseItems (fuel + 1) text = some ([x], rest) := by
  rw [parseItems, hx]
  rfl

theorem parseItems_more (fuel : ℕ) {x : Value N} (y : Value N) {text rest : JsString}
    (hx : parseValue fuel text = some (x, unit ',' :: (stringify y ++ rest))) :
    parseItems (fuel + 1) text =
      (parseItems fuel (stringify y ++ rest)).map (fun p => (x :: p.1, p.2)) := by
  have hlead : lead (skipBlanks (unit ',' :: (stringify y ++ rest))) =
      some (',', stringify y ++ rest) := rfl
  rw [parseItems, hx]
  simp only [hlead, skipBlanks_stringify]

theorem parseMembers_last (fuel : ℕ) (k : JsString) (v : Value N) {w : Value N}
    {text rest : JsString}
    (hv : parseValue fuel (stringify v ++ text) = some (w, unit '}' :: rest)) :
    parseMembers (fuel + 1) (quote k ++ (unit ':' :: (stringify v ++ text))) =
      some ([(k, w)], rest) := by
  obtain ⟨more, htext, hparse⟩ := parseString_quote k (unit ':' :: (stringify v ++ text))
  have hlead : lead (unit '"' :: more) = some ('"', more) := lead_unit _ (by decide)
  have hcolon : lead (skipBlanks (unit ':' :: (stringify v ++ text))) =
      some (':', stringify v ++ text) := rfl
  have hend : lead (skipBlanks (unit '}' :: rest)) = some ('}', rest) := rfl
  rw [htext, parseMembers, hlead]
  simp only [hparse, hcolon, skipBlanks_stringify, hv, hend]

theorem parseMembers_more (fuel : ℕ) (k l : JsString) (v : Value N) {w : Value N}
    {text rest : JsString} (hv : parseValue fuel (stringify v ++ text) =
      some (w, unit ',' :: (quote l ++ rest))) :
    parseMembers (fuel + 1) (quote k ++ (unit ':' :: (stringify v ++ text))) =
      (parseMembers fuel (quote l ++ rest)).map (fun p => ((k, w) :: p.1, p.2)) := by
  obtain ⟨more, htext, hparse⟩ := parseString_quote k (unit ':' :: (stringify v ++ text))
  have hlead : lead (unit '"' :: more) = some ('"', more) := lead_unit _ (by decide)
  have hcolon : lead (skipBlanks (unit ':' :: (stringify v ++ text))) =
      some (':', stringify v ++ text) := rfl
  have hcomma : lead (skipBlanks (unit ',' :: (quote l ++ rest))) = some (',', quote l ++ rest) :=
    rfl
  have hquote : skipBlanks (quote l ++ rest) = quote l ++ rest := skipBlanks_unit _ (by decide)
  rw [htext, parseMembers, hlead]
  simp only [hparse, hcolon, skipBlanks_stringify, hv, hcomma, hquote]

theorem ends_items (xs : List (Value N)) (rest : JsString) :
    Ends (stringifyItems xs ++ unit ']' :: rest) := by
  cases xs with
  | nil => exact ends_unit rest (by decide)
  | cons x xs => exact ends_unit _ (by decide)

theorem ends_members (members : List (JsString × Value N)) (rest : JsString) :
    Ends (stringifyMembers members ++ unit '}' :: rest) := by
  rcases members with _ | ⟨⟨k, v⟩, members⟩
  · exact ends_unit rest (by decide)
  · exact ends_unit _ (by decide)

mutual

/-- Enough fuel reads a value from its text and leaves what follows it. -/
theorem parseValue_stringify : (v : Value N) → (fuel : ℕ) → (rest : JsString) →
    depth v ≤ fuel → WellFormed v → Ends rest →
    parseValue fuel (stringify v ++ rest) = some (reread v, rest)
  | v, 0, rest, hfuel, hwell, hrest => by cases v <;> simp [depth] at hfuel
  | .null, fuel + 1, rest, hfuel, hwell, hrest => rfl
  | .bool true, fuel + 1, rest, hfuel, hwell, hrest => rfl
  | .bool false, fuel + 1, rest, hfuel, hwell, hrest => rfl
  | .number n, fuel + 1, rest, hfuel, hwell, hrest => by
    by_cases hfinite : JsNumber.isFinite n = true
    · have hparse := parseNumber_toText hfinite hrest
      obtain ⟨c, more, hcons, hc⟩ := numberToken_cons (JsNumber.isNumberToken_toText n hfinite)
      rw [stringify, reread, if_pos hfinite, if_pos hfinite, ← hparse, hcons]
      exact parseValue_number fuel _ hc
    · rw [stringify, reread, if_neg hfinite, if_neg hfinite]
      rfl
  | .string s, fuel + 1, rest, hfuel, hwell, hrest => parseValue_quote fuel s rest
  | .array [], fuel + 1, rest, hfuel, hwell, hrest => rfl
  | .array (x :: xs), fuel + 1, rest, hfuel, hwell, hrest => by
    rw [depth, Nat.add_le_add_iff_right] at hfuel
    simp only [stringify, List.cons_append, List.append_assoc, List.nil_append]
    rw [parseValue_array, parseItems_stringify x xs fuel rest hfuel hwell]
    rfl
  | .object [], fuel + 1, rest, hfuel, hwell, hrest => rfl
  | .object ((k, v) :: members), fuel + 1, rest, hfuel, hwell, hrest => by
    rw [depth, Nat.add_le_add_iff_right] at hfuel
    simp only [stringify, List.cons_append, List.append_assoc, List.nil_append]
    rw [parseValue_object, parseMembers_stringify k v members fuel rest hfuel hwell.2]
    simp only [Option.map_some, reread]
    rw [fromEntries_of_ordered _ ((keys_rereadMembers ((k, v) :: members)).symm ▸ hwell.1)]
termination_by _ fuel => fuel

theorem parseItems_stringify : (x : Value N) → (xs : List (Value N)) → (fuel : ℕ) →
    (rest : JsString) → depthItems (x :: xs) ≤ fuel → WellFormedItems (x :: xs) →
    parseItems fuel (stringify x ++ (stringifyItems xs ++ unit ']' :: rest)) =
      some (rereadItems (x :: xs), rest)
  | x, xs, 0, rest, hfuel, hwell => by simp [depthItems] at hfuel
  | x, [], fuel + 1, rest, hfuel, hwell => by
    rw [depthItems, Nat.add_le_add_iff_right] at hfuel
    exact parseItems_last fuel (parseValue_stringify x fuel _
      (le_trans (le_max_left ..) hfuel) hwell.1 (ends_items (N := N) [] rest))
  | x, y :: ys, fuel + 1, rest, hfuel, hwell => by
    rw [depthItems, Nat.add_le_add_iff_right] at hfuel
    have hx := parseValue_stringify x fuel _ (le_trans (le_max_left ..) hfuel) hwell.1
      (ends_items (y :: ys) rest)
    have hys := parseItems_stringify y ys fuel rest (le_trans (le_max_right ..) hfuel) hwell.2
    simp only [stringifyItems, List.cons_append, List.append_assoc] at hx ⊢
    rw [parseItems_more fuel y hx, hys]
    rfl
termination_by _ _ fuel => fuel

theorem parseMembers_stringify : (k : JsString) → (v : Value N) →
    (members : List (JsString × Value N)) → (fuel : ℕ) → (rest : JsString) →
    depthMembers ((k, v) :: members) ≤ fuel → WellFormedMembers ((k, v) :: members) →
    parseMembers fuel (quote k ++ (unit ':' :: (stringify v ++
      (stringifyMembers members ++ unit '}' :: rest)))) =
        some (rereadMembers ((k, v) :: members), rest)
  | k, v, members, 0, rest, hfuel, hwell => by simp [depthMembers] at hfuel
  | k, v, [], fuel + 1, rest, hfuel, hwell => by
    rw [depthMembers, Nat.add_le_add_iff_right] at hfuel
    have hv := parseValue_stringify v fuel _ (le_trans (le_max_left ..) hfuel) hwell.1
      (ends_members (N := N) [] rest)
    exact parseMembers_last fuel k v hv
  | k, v, (l, w) :: members, fuel + 1, rest, hfuel, hwell => by
    rw [depthMembers, Nat.add_le_add_iff_right] at hfuel
    have hv := parseValue_stringify v fuel _ (le_trans (le_max_left ..) hfuel) hwell.1
      (ends_members ((l, w) :: members) rest)
    have hrest := parseMembers_stringify l w members fuel rest
      (le_trans (le_max_right ..) hfuel) hwell.2
    simp only [stringifyMembers, List.cons_append, List.append_assoc] at hv ⊢
    rw [parseMembers_more fuel k l v hv, hrest]
    rfl
termination_by _ _ _ fuel => fuel

end

mutual

theorem depth_le_length : (v : Value N) → depth v ≤ (stringify v).length
  | .array [] => by simp [depth, depthItems, stringify, units]
  | .array (x :: xs) => by
    have hx := depth_le_length x
    have hxs := depthItems_le_length xs
    simp only [depth, depthItems, stringify, List.length_cons, List.length_append,
      List.length_nil]
    omega
  | .object [] => by simp [depth, depthMembers, stringify, units]
  | .object ((k, v) :: members) => by
    have hv := depth_le_length v
    have hmembers := depthMembers_le_length members
    simp only [depth, depthMembers, stringify, List.length_cons, List.length_append,
      List.length_nil]
    omega
  | .null => by simp [depth, stringify, units]
  | .bool true => by simp [depth, stringify, units]
  | .bool false => by simp [depth, stringify, units]
  | .number n => by
    obtain ⟨u, more, hcons, -⟩ := stringify_cons (Value.number n)
    simp [depth, hcons]
  | .string s => by simp [depth, stringify, quote]

theorem depthItems_le_length : (xs : List (Value N)) →
    depthItems xs ≤ (stringifyItems xs).length
  | [] => Nat.zero_le _
  | x :: xs => by
    have hx := depth_le_length x
    have hxs := depthItems_le_length xs
    simp only [depthItems, stringifyItems, List.length_cons, List.length_append]
    omega

theorem depthMembers_le_length : (members : List (JsString × Value N)) →
    depthMembers members ≤ (stringifyMembers members).length
  | [] => Nat.zero_le _
  | (k, v) :: members => by
    have hv := depth_le_length v
    have hmembers := depthMembers_le_length members
    simp only [depthMembers, stringifyMembers, List.length_cons, List.length_append]
    omega

end

/-- `JSON.parse` reads back what `JSON.stringify` has written, up to numbers. -/
theorem parse_stringify (v : Value N) (h : WellFormed v) :
    parse (stringify v) = some (reread v) := by
  have hfuel : depth v ≤ (stringify v).length + 1 := Nat.le_succ_of_le (depth_le_length v)
  have hends : Ends [] := fun _ _ heq => nomatch heq
  have hskip := skipBlanks_stringify v []
  have hparse := parseValue_stringify v _ [] hfuel h hends
  rw [List.append_nil] at hskip hparse
  unfold parse
  rw [hskip, hparse]
  rfl

end Values

end Decillion.BrowserRoundTrip

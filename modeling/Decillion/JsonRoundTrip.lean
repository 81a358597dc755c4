import Decillion.JsonStrings

/-!
The parser inverts the encoder, whatever the style, on every value whose objects have
distinct keys; printing with sorted keys is inverted up to the order of the keys. So two
values with one text are one value, which is what a signature over the text relies on.
-/
namespace Decillion.JsonRoundTrip

open ByteText JsonValues JsonText JsonStrings

variable {F : Type}

mutual

/-- The nested calls the parser makes on the text of a value. -/
def depth : Json F → ℕ
  | .list items => depthItems items + 1
  | .obj members => depthMembers members + 1
  | .null => 1
  | .bool _ => 1
  | .int _ => 1
  | .float _ => 1
  | .str _ => 1

def depthItems : List (Json F) → ℕ
  | [] => 0
  | x :: xs => max (depth x) (depthItems xs) + 1

def depthMembers : Members F → ℕ
  | [] => 0
  | (_, v) :: rest => max (depth v) (depthMembers rest) + 1

end

theorem skipSpace_cons (c : Char) (rest : List Char) (hc : isSpace c = false) :
    skipSpace (c :: rest) = c :: rest := by
  simp [skipSpace, hc]

theorem skipSpace_newline (st : Style) (level : ℕ) (text : List Char) :
    skipSpace (newline st level ++ text) = skipSpace text := by
  unfold newline skipSpace
  cases st.indent with
  | none => rfl
  | some width =>
    have hblank : isSpace '\n' = true := rfl
    have hpad : isSpace ' ' = true := rfl
    rw [List.cons_append, List.dropWhile_cons_of_pos hblank]
    induction width * level with
    | zero => rfl
    | succ n ih => rw [List.replicate_succ, List.cons_append, List.dropWhile_cons_of_pos hpad, ih]

theorem skipSpace_colon (st : Style) (text : List Char) :
    ∃ more, colon st ++ text = ':' :: more ∧ skipSpace more = skipSpace text := by
  unfold colon
  cases st.indent with
  | none => exact ⟨text, rfl, rfl⟩
  | some width => exact ⟨' ' :: text, rfl, rfl⟩

theorem ends_newline (st : Style) (level : ℕ) (c : Char) (rest : List Char)
    (hc : isTokenChar c = false) : Ends (newline st level ++ c :: rest) := by
  unfold newline
  cases st.indent with
  | none => exact ends_cons c rest hc
  | some width => exact ends_cons '\n' _ rfl

/-- The characters a number can start with. -/
def StartsNumber (c : Char) : Prop := c.isDigit = true ∨ c = '-' ∨ c = 'N' ∨ c = 'I'

theorem StartsNumber.ne {c d : Char} (hc : StartsNumber c) (hd : ¬ StartsNumber d) : c ≠ d := by
  rintro rfl
  exact hd hc

instance (c : Char) : Decidable (StartsNumber c) :=
  inferInstanceAs (Decidable (c.isDigit = true ∨ c = '-' ∨ c = 'N' ∨ c = 'I'))

theorem dumpInt_cons (n : ℤ) : ∃ c more, dumpInt n = c :: more ∧ StartsNumber c := by
  obtain ⟨c, more, hcons, hc⟩ := toDigits_cons n.natAbs
  unfold dumpInt
  split
  · exact ⟨'-', _, rfl, Or.inr (Or.inl rfl)⟩
  · exact ⟨c, more, hcons, Or.inl hc⟩

theorem floatToken_cons (token : List Char) (htoken : isFloatToken token = true) :
    ∃ c more, token = c :: more ∧ StartsNumber c := by
  cases token with
  | nil => exact absurd htoken (by decide)
  | cons c more =>
    refine ⟨c, more, rfl, ?_⟩
    simp only [isFloatToken, Bool.and_eq_true, Bool.or_eq_true, decide_eq_true_eq] at htoken
    rcases htoken.2 with ((hnan | hinf) | hneg) | ⟨hwhole, -⟩
    · exact Or.inr (Or.inr (Or.inl (List.cons.inj hnan).1))
    · exact Or.inr (Or.inr (Or.inr (List.cons.inj hinf).1))
    · exact Or.inr (Or.inl (List.cons.inj hneg).1)
    · by_cases hminus : c = '-'
      · exact Or.inr (Or.inl hminus)
      · rw [unsigned_of_ne c more hminus] at hwhole
        by_cases hdigit : c.isDigit = true
        · exact Or.inl hdigit
        · rw [List.takeWhile_cons_of_neg hdigit] at hwhole
          exact absurd hwhole (by decide)

section Text

variable [FloatText F]

/-- The text of a value starts with no blank and with no closing bracket. -/
theorem dump_cons (st : Style) (level : ℕ) (v : Json F) : ∃ c more, dump st level v = c :: more ∧
    isSpace c = false ∧ c ≠ ']' ∧ c ≠ '}' := by
  have hstart : ∀ c, StartsNumber c → isSpace c = false ∧ c ≠ ']' ∧ c ≠ '}' := by
    intro c hc
    have hspace : c ≠ ' ' ∧ c ≠ '\t' ∧ c ≠ '\n' ∧ c ≠ '\r' :=
      ⟨hc.ne (by decide), hc.ne (by decide), hc.ne (by decide), hc.ne (by decide)⟩
    exact ⟨by simp [isSpace, hspace], hc.ne (by decide), hc.ne (by decide)⟩
  cases v with
  | null => exact ⟨'n', _, rfl, by decide⟩
  | bool b => cases b <;> exact ⟨_, _, rfl, by decide⟩
  | int n =>
    obtain ⟨c, more, hcons, hc⟩ := dumpInt_cons n
    exact ⟨c, more, by rw [dump, hcons], hstart c hc⟩
  | float x =>
    obtain ⟨c, more, hcons, hc⟩ := floatToken_cons _ (FloatText.isFloatToken_text x)
    exact ⟨c, more, by rw [dump, hcons], hstart c hc⟩
  | str s => exact ⟨'"', _, rfl, by decide⟩
  | list items => cases items <;> exact ⟨'[', _, rfl, by decide⟩
  | obj members => rcases members with _ | ⟨⟨k, v⟩, rest⟩ <;> exact ⟨'{', _, rfl, by decide⟩

theorem skipSpace_dump (st : Style) (level : ℕ) (v : Json F) (text : List Char) :
    skipSpace (dump st level v ++ text) = dump st level v ++ text := by
  obtain ⟨c, more, hcons, hspace, -⟩ := dump_cons st level v
  rw [hcons, List.cons_append]
  exact skipSpace_cons c _ hspace

theorem ends_dumpItems (st : Style) (level close : ℕ) (xs : List (Json F)) (rest : List Char) :
    Ends (dumpItems st level xs ++ (newline st close ++ ']' :: rest)) := by
  cases xs with
  | nil => exact ends_newline st close ']' rest rfl
  | cons x xs => exact ends_cons ',' _ rfl

theorem ends_dumpMembers (st : Style) (level close : ℕ) (members : Members F)
    (rest : List Char) :
    Ends (dumpMembers st level members ++ (newline st close ++ '}' :: rest)) := by
  rcases members with _ | ⟨⟨k, v⟩, members⟩
  · exact ends_newline st close '}' rest rfl
  · exact ends_cons ',' _ rfl

theorem parseValue_number (fuel : ℕ) (c : Char) (more : List Char) (hc : StartsNumber c) :
    parseValue (fuel + 1) (c :: more) = parseNumber (F := F) (c :: more) := by
  have hne : c ≠ '"' ∧ c ≠ '[' ∧ c ≠ '{' ∧ c ≠ 'n' ∧ c ≠ 't' ∧ c ≠ 'f' :=
    ⟨hc.ne (by decide), hc.ne (by decide), hc.ne (by decide), hc.ne (by decide),
      hc.ne (by decide), hc.ne (by decide)⟩
  unfold parseValue
  split <;> simp_all

theorem parseValue_string (fuel : ℕ) (st : Style) (s : String) (rest : List Char) :
    parseValue (F := F) (fuel + 1) (dumpString st s ++ rest) = some (.str s, rest) := by
  obtain ⟨htext, hparse⟩ := parseString_dumpString st s rest
  rw [htext, parseValue, hparse]
  simp

/-- Past the opening bracket comes the text of an item, never the closing bracket. -/
theorem parseValue_list (fuel : ℕ) (st : Style) (level : ℕ) (x : Json F) (text : List Char) :
    parseValue (fuel + 1) ('[' :: (newline st (level + 1) ++ (dump st (level + 1) x ++ text))) =
      (parseItems (F := F) fuel (dump st (level + 1) x ++ text)).map
        (fun p => (Json.list p.1, p.2)) := by
  obtain ⟨c, more, hcons, -, hbracket, -⟩ := dump_cons st (level + 1) x
  rw [parseValue, skipSpace_newline, skipSpace_dump, hcons, List.cons_append]
  split
  · rename_i heq
    exact absurd (List.cons.inj heq).1 hbracket
  · rfl

theorem parseValue_obj (fuel : ℕ) (st : Style) (level : ℕ) (k : String) (text : List Char) :
    parseValue (F := F) (fuel + 1)
      ('{' :: (newline st (level + 1) ++ (dumpString st k ++ text))) =
      (parseMembers fuel (dumpString st k ++ text)).map (fun p => (.obj (ofPairs p.1), p.2)) := by
  rw [parseValue, skipSpace_newline]
  rfl

theorem parseItems_last (fuel : ℕ) (st : Style) (close : ℕ) (x : Json F)
    (text rest : List Char)
    (hx : parseValue fuel text = some (x, newline st close ++ ']' :: rest)) :
    parseItems (fuel + 1) text = some ([x], rest) := by
  rw [parseItems, hx]
  simp only
  rw [skipSpace_newline, skipSpace_cons _ _ rfl]
  rfl

theorem parseItems_more (fuel : ℕ) (st : Style) (level : ℕ) (x y : Json F)
    (text rest : List Char) (hx : parseValue fuel text =
      some (x, ',' :: (newline st level ++ (dump st level y ++ rest)))) :
    parseItems (fuel + 1) text =
      (parseItems fuel (dump st level y ++ rest)).map (fun p => (x :: p.1, p.2)) := by
  rw [parseItems, hx]
  simp only
  rw [skipSpace_cons _ _ rfl]
  simp only
  rw [skipSpace_newline, skipSpace_dump]

theorem parseMembers_cons (fuel : ℕ) (st : Style) (level : ℕ) (k : String) (v : Json F)
    (text rest : List Char) (hv : parseValue fuel (dump st level v ++ text) = some (v, rest)) :
    parseMembers (fuel + 1) (dumpString st k ++ (colon st ++ (dump st level v ++ text))) =
      match skipSpace rest with
      | '}' :: rest => some ([(k, v)], rest)
      | ',' :: rest =>
          (parseMembers fuel (skipSpace rest)).map (fun p => ((k, v) :: p.1, p.2))
      | _ => none := by
  obtain ⟨htext, hparse⟩ := parseString_dumpString st k (colon st ++ (dump st level v ++ text))
  obtain ⟨more, hcolon, hskip⟩ := skipSpace_colon st (dump st level v ++ text)
  rw [htext, parseMembers, hparse]
  simp only
  rw [hcolon, skipSpace_cons _ _ rfl]
  simp only
  rw [hskip, skipSpace_dump, hv]
  have hname : String.ofList k.toList = k := String.ofList_toList
  generalize String.ofList k.toList = name at hname ⊢
  subst hname
  rfl

mutual

/-- Enough fuel reads a value back from its text and leaves what follows it. -/
theorem parseValue_dump : (v : Json F) → (st : Style) → (level fuel : ℕ) → (rest : List Char) →
    depth v ≤ fuel → DistinctKeys v → Ends rest →
    parseValue fuel (dump st level v ++ rest) = some (v, rest)
  | v, st, level, 0, rest, hfuel, hkeys, hrest => by cases v <;> simp [depth] at hfuel
  | .null, st, level, fuel + 1, rest, hfuel, hkeys, hrest => rfl
  | .bool true, st, level, fuel + 1, rest, hfuel, hkeys, hrest => rfl
  | .bool false, st, level, fuel + 1, rest, hfuel, hkeys, hrest => rfl
  | .int n, st, level, fuel + 1, rest, hfuel, hkeys, hrest => by
    have hparse := parseNumber_dumpInt (F := F) n rest hrest
    obtain ⟨c, more, hcons, hc⟩ := dumpInt_cons n
    rw [dump]
    rw [hcons, List.cons_append] at hparse ⊢
    rw [parseValue_number fuel c _ hc, hparse]
  | .float x, st, level, fuel + 1, rest, hfuel, hkeys, hrest => by
    have hparse := parseNumber_text x rest hrest
    obtain ⟨c, more, hcons, hc⟩ := floatToken_cons _ (FloatText.isFloatToken_text x)
    rw [dump]
    rw [hcons, List.cons_append] at hparse ⊢
    rw [parseValue_number fuel c _ hc, hparse]
  | .str s, st, level, fuel + 1, rest, hfuel, hkeys, hrest => parseValue_string fuel st s rest
  | .list [], st, level, fuel + 1, rest, hfuel, hkeys, hrest => rfl
  | .list (x :: xs), st, level, fuel + 1, rest, hfuel, hkeys, hrest => by
    rw [depth, Nat.add_le_add_iff_right] at hfuel
    simp only [dump, List.cons_append, List.append_assoc, List.nil_append]
    rw [parseValue_list, parseItems_dump x xs st (level + 1) level fuel rest hfuel hkeys]
    rfl
  | .obj [], st, level, fuel + 1, rest, hfuel, hkeys, hrest => rfl
  | .obj ((k, v) :: members), st, level, fuel + 1, rest, hfuel, hkeys, hrest => by
    rw [depth, Nat.add_le_add_iff_right] at hfuel
    simp only [dump, List.cons_append, List.append_assoc, List.nil_append]
    rw [parseValue_obj, parseMembers_dump k v members st (level + 1) level fuel rest hfuel hkeys.2]
    simp only [Option.map_some]
    rw [ofPairs_of_nodup _ hkeys.1]
termination_by _ _ _ fuel => fuel

theorem parseItems_dump : (x : Json F) → (xs : List (Json F)) → (st : Style) →
    (level close fuel : ℕ) → (rest : List Char) →
    depthItems (x :: xs) ≤ fuel → DistinctKeysItems (x :: xs) →
    parseItems fuel (dump st level x ++ (dumpItems st level xs ++
      (newline st close ++ ']' :: rest))) = some (x :: xs, rest)
  | x, xs, st, level, close, 0, rest, hfuel, hkeys => by simp [depthItems] at hfuel
  | x, [], st, level, close, fuel + 1, rest, hfuel, hkeys => by
    rw [depthItems, Nat.add_le_add_iff_right] at hfuel
    exact parseItems_last fuel st close x _ rest
      (parseValue_dump x st level fuel _ (le_trans (le_max_left ..) hfuel) hkeys.1
        (ends_dumpItems (F := F) st level close [] rest))
  | x, y :: ys, st, level, close, fuel + 1, rest, hfuel, hkeys => by
    rw [depthItems, Nat.add_le_add_iff_right] at hfuel
    have hx := parseValue_dump x st level fuel _ (le_trans (le_max_left ..) hfuel) hkeys.1
      (ends_dumpItems st level close (y :: ys) rest)
    have hys := parseItems_dump y ys st level close fuel rest (le_trans (le_max_right ..) hfuel)
      hkeys.2
    simp only [dumpItems, List.cons_append, List.append_assoc] at hx ⊢
    rw [parseItems_more fuel st level x y _ _ hx, hys]
    rfl
termination_by _ _ _ _ _ fuel => fuel

theorem parseMembers_dump : (k : String) → (v : Json F) → (members : Members F) →
    (st : Style) → (level close fuel : ℕ) → (rest : List Char) →
    depthMembers ((k, v) :: members) ≤ fuel → DistinctKeysMembers ((k, v) :: members) →
    parseMembers fuel (dumpString st k ++ (colon st ++ (dump st level v ++
      (dumpMembers st level members ++ (newline st close ++ '}' :: rest))))) =
        some ((k, v) :: members, rest)
  | k, v, members, st, level, close, 0, rest, hfuel, hkeys => by simp [depthMembers] at hfuel
  | k, v, [], st, level, close, fuel + 1, rest, hfuel, hkeys => by
    rw [depthMembers, Nat.add_le_add_iff_right] at hfuel
    have hv := parseValue_dump v st level fuel _ (le_trans (le_max_left ..) hfuel) hkeys.1
      (ends_dumpMembers (F := F) st level close [] rest)
    rw [parseMembers_cons fuel st level k v _ _ hv]
    simp only [dumpMembers, List.nil_append]
    rw [skipSpace_newline, skipSpace_cons _ _ rfl]
    rfl
  | k, v, (l, w) :: members, st, level, close, fuel + 1, rest, hfuel, hkeys => by
    rw [depthMembers, Nat.add_le_add_iff_right] at hfuel
    have hv := parseValue_dump v st level fuel _ (le_trans (le_max_left ..) hfuel) hkeys.1
      (ends_dumpMembers st level close ((l, w) :: members) rest)
    have hrest := parseMembers_dump l w members st level close fuel rest
      (le_trans (le_max_right ..) hfuel) hkeys.2
    have hquote : ∀ text, skipSpace (dumpString st l ++ text) = dumpString st l ++ text :=
      fun text => skipSpace_cons '"' _ rfl
    rw [parseMembers_cons fuel st level k v _ _ hv]
    simp only [dumpMembers, List.cons_append, List.append_assoc]
    rw [skipSpace_cons _ _ rfl]
    simp only
    rw [skipSpace_newline, hquote, hrest]
    rfl
termination_by _ _ _ _ _ _ fuel => fuel

end

mutual

theorem depth_le_length : (v : Json F) → (st : Style) → (level : ℕ) →
    depth v ≤ (dump st level v).length
  | .list [], st, level => by simp [depth, depthItems, dump]
  | .list (x :: xs), st, level => by
    have hx := depth_le_length x st (level + 1)
    have hxs := depthItems_le_length xs st (level + 1)
    simp only [depth, depthItems, dump, List.length_cons, List.length_append, List.length_nil]
    omega
  | .obj [], st, level => by simp [depth, depthMembers, dump]
  | .obj ((k, v) :: members), st, level => by
    have hv := depth_le_length v st (level + 1)
    have hmembers := depthMembers_le_length members st (level + 1)
    simp only [depth, depthMembers, dump, List.length_cons, List.length_append, List.length_nil]
    omega
  | .null, st, level => by simp [depth, dump]
  | .bool true, st, level => by simp [depth, dump]
  | .bool false, st, level => by simp [depth, dump]
  | .int n, st, level => by
    obtain ⟨c, more, hcons, -⟩ := dumpInt_cons n
    simp [depth, dump, hcons]
  | .float x, st, level => by
    obtain ⟨c, more, hcons, -⟩ := floatToken_cons _ (FloatText.isFloatToken_text x)
    simp [depth, dump, hcons]
  | .str s, st, level => by simp [depth, dump, dumpString]

theorem depthItems_le_length : (xs : List (Json F)) → (st : Style) → (level : ℕ) →
    depthItems xs ≤ (dumpItems st level xs).length
  | [], st, level => Nat.zero_le _
  | x :: xs, st, level => by
    have hx := depth_le_length x st level
    have hxs := depthItems_le_length xs st level
    simp only [depthItems, dumpItems, List.length_cons, List.length_append]
    omega

theorem depthMembers_le_length : (members : Members F) → (st : Style) → (level : ℕ) →
    depthMembers members ≤ (dumpMembers st level members).length
  | [], st, level => Nat.zero_le _
  | (k, v) :: members, st, level => by
    have hv := depth_le_length v st level
    have hmembers := depthMembers_le_length members st level
    simp only [depthMembers, dumpMembers, List.length_cons, List.length_append]
    omega

end

/-- `json.loads` inverts `json.dumps`; text files end their JSON with a line break. -/
theorem loads_dumps (st : Style) (v : Json F) (hkeys : DistinctKeys v) (tail : List Char)
    (htail : tail.all isSpace = true) :
    loads (String.ofList (dump st 0 v ++ tail)) = some v := by
  have hends : Ends tail := by
    cases tail with
    | nil => exact ends_nil
    | cons c more =>
      simp only [List.all_cons, Bool.and_eq_true, isSpace, Bool.or_eq_true, decide_eq_true_eq]
        at htail
      apply ends_cons
      rcases htail.1 with ((rfl | rfl) | rfl) | rfl <;> rfl
  have hfuel : depth v ≤ (dump st 0 v ++ tail).length + 1 := by
    have hle := depth_le_length v st 0
    rw [List.length_append]
    omega
  have hskip : skipSpace tail = [] := by
    rw [skipSpace, List.dropWhile_eq_nil_iff]
    exact List.all_eq_true.mp htail
  unfold loads
  rw [← String.length_toList, chars_eq, String.toList_ofList, skipSpace_dump,
    parseValue_dump v st 0 _ tail hfuel hkeys hends]
  simp [hskip]

theorem dumps_injective (st : Style) {v w : Json F} (hv : DistinctKeys v) (hw : DistinctKeys w)
    (h : dumps st v = dumps st w) : v = w := by
  have hloads := congrArg (loads (F := F)) h
  have hinverse : ∀ u : Json F, DistinctKeys u → loads (dumps st u) = some u := by
    intro u hu
    simpa [dumps] using loads_dumps st u hu [] rfl
  rw [hinverse v hv, hinverse w hw] at hloads
  exact Option.some.inj hloads

/-- Printing with sorted keys is injective up to the order of the keys. -/
theorem dumpsSorted_injective (st : Style) {v w : Json F} (hv : DistinctKeys v)
    (hw : DistinctKeys w) (h : dumpsSorted st v = dumpsSorted st w) : SameValue v w :=
  dumps_injective st (sortKeys_distinctKeys v hv) (sortKeys_distinctKeys w hw) h

omit [FloatText F] in
theorem ofPairs_distinctKeys (pairs : Members F) (hpairs : DistinctKeysMembers pairs) :
    DistinctKeys (.obj (ofPairs pairs)) := by
  have hfold : ∀ (pairs members : Members F), DistinctKeysMembers pairs →
      DistinctKeys (.obj members) →
      DistinctKeys (.obj (pairs.foldl (fun acc pair => setMember pair.1 pair.2 acc) members)) := by
    intro pairs
    induction pairs with
    | nil => exact fun members _ h => h
    | cons pair rest ih =>
      intro members hpairs h
      exact ih _ hpairs.2 (distinctKeys_setMember _ _ _ hpairs.1 h)
  exact hfold pairs [] hpairs ⟨List.nodup_nil, trivial⟩

theorem parseNumber_distinctKeys (text rest : List Char) (v : Json F)
    (h : parseNumber text = some (v, rest)) : DistinctKeys v := by
  unfold parseNumber at h
  simp only at h
  split at h
  · obtain ⟨x, -, hx⟩ := Option.map_eq_some_iff.mp h
    obtain ⟨rfl, -⟩ := Prod.mk.inj hx
    trivial
  · split at h
    · obtain ⟨rfl, -⟩ := Prod.mk.inj (Option.some.inj h)
      trivial
    · simp at h

/-- The three parsers, with the fuel they share. -/
theorem parse_distinctKeys (fuel : ℕ) :
    (∀ text (v : Json F) rest, parseValue fuel text = some (v, rest) → DistinctKeys v) ∧
    (∀ text (items : List (Json F)) rest, parseItems fuel text = some (items, rest) →
      DistinctKeysItems items) ∧
    (∀ text (members : Members F) rest, parseMembers fuel text = some (members, rest) →
      DistinctKeysMembers members) := by
  induction fuel with
  | zero => simp [parseValue, parseItems, parseMembers]
  | succ fuel ih =>
    obtain ⟨hvalue, hitems, hmembers⟩ := ih
    refine ⟨?_, ?_, ?_⟩
    · intro text v rest h
      unfold parseValue at h
      split at h
      · obtain ⟨p, -, hp⟩ := Option.map_eq_some_iff.mp h
        obtain ⟨rfl, -⟩ := Prod.mk.inj hp
        trivial
      · split at h
        · obtain ⟨rfl, -⟩ := Prod.mk.inj (Option.some.inj h)
          trivial
        · obtain ⟨p, hitem, hp⟩ := Option.map_eq_some_iff.mp h
          obtain ⟨rfl, -⟩ := Prod.mk.inj hp
          exact hitems _ _ _ hitem
      · split at h
        · obtain ⟨rfl, -⟩ := Prod.mk.inj (Option.some.inj h)
          exact ⟨List.nodup_nil, trivial⟩
        · obtain ⟨p, hmember, hp⟩ := Option.map_eq_some_iff.mp h
          obtain ⟨rfl, -⟩ := Prod.mk.inj hp
          exact ofPairs_distinctKeys _ (hmembers _ _ _ hmember)
      · obtain ⟨rfl, -⟩ := Prod.mk.inj (Option.some.inj h)
        trivial
      · obtain ⟨rfl, -⟩ := Prod.mk.inj (Option.some.inj h)
        trivial
      · obtain ⟨rfl, -⟩ := Prod.mk.inj (Option.some.inj h)
        trivial
      · exact parseNumber_distinctKeys _ _ _ h
    · intro text items rest h
      unfold parseItems at h
      split at h
      · simp at h
      · rename_i x more hx
        split at h
        · obtain ⟨rfl, -⟩ := Prod.mk.inj (Option.some.inj h)
          exact ⟨hvalue _ _ _ hx, trivial⟩
        · obtain ⟨p, hitem, hp⟩ := Option.map_eq_some_iff.mp h
          obtain ⟨rfl, -⟩ := Prod.mk.inj hp
          exact ⟨hvalue _ _ _ hx, hitems _ _ _ hitem⟩
        · simp at h
    · intro text members rest h
      unfold parseMembers at h
      split at h
      · split at h
        · simp at h
        · split at h
          · split at h
            · simp at h
            · rename_i v more hv
              split at h
              · obtain ⟨rfl, -⟩ := Prod.mk.inj (Option.some.inj h)
                exact ⟨hvalue _ _ _ hv, trivial⟩
              · obtain ⟨p, hmember, hp⟩ := Option.map_eq_some_iff.mp h
                obtain ⟨rfl, -⟩ := Prod.mk.inj hp
                exact ⟨hvalue _ _ _ hv, hmembers _ _ _ hmember⟩
              · simp at h
          · simp at h
      · simp at h

/-- What is read from any text has no key twice in one object. -/
theorem loads_distinctKeys (text : String) (v : Json F) (h : loads text = some v) :
    DistinctKeys v := by
  unfold loads at h
  split at h
  · simp at h
  · rename_i value rest hvalue
    split at h
    · obtain rfl := Option.some.inj h
      exact (parse_distinctKeys _).1 _ _ _ hvalue
    · simp at h

end Text

end Decillion.JsonRoundTrip

import Decillion.JsonStrings
import Mathlib.Data.List.Lex
import Mathlib.Data.List.Sort
import Mathlib.Order.Fin.Basic

/-!
The values that the browser reads from JSON. A string is a list of UTF-16 code units and two
strings are compared unit by unit. An object lists its properties in the order in which they
are enumerated: the integer-like keys first in numeric order, the others as they were defined.
-/
namespace Decillion.BrowserValues

open JsonText

abbrev CodeUnit := Fin 65536

abbrev JsString := List CodeUnit

def codeUnit (n : ℕ) : CodeUnit := Fin.ofNat 65536 n

def unit (c : Char) : CodeUnit := codeUnit c.toNat

def units (text : List Char) : JsString := text.map unit

/-- The character of a code unit that is no surrogate. -/
def character (u : CodeUnit) : Char := Char.ofNat u.val

theorem character_unit {c : Char} (h : c.toNat < 65536) : character (unit c) = c := by
  rw [character, unit, codeUnit, Fin.val_ofNat, Nat.mod_eq_of_lt h, Char.ofNat_toNat]

/-- The number that an integer-like key spells. -/
def arrayIndex (key : JsString) : Option ℕ :=
  let index := Nat.ofDigitChars 10 (key.map character) 0
  if units (Nat.toDigits 10 index) = key ∧ index < 4294967295 then some index else none

/-- A key is enumerated before a key that was defined earlier. -/
def ahead (key other : JsString) : Bool :=
  match arrayIndex key, arrayIndex other with
  | some i, some j => i < j
  | some _, none => true
  | none, _ => false

/-- The order of `Array.prototype.sort` on strings. -/
def sortKeys (keys : List JsString) : List JsString := keys.insertionSort (· ≤ ·)

theorem sortKeys_perm (keys : List JsString) : (sortKeys keys).Perm keys :=
  List.perm_insertionSort _ _

theorem sortKeys_congr {keys others : List JsString} (h : keys.Perm others) :
    sortKeys keys = sortKeys others := by
  have hsorted : ∀ ks : List JsString, (sortKeys ks).Pairwise (· ≤ ·) :=
    fun ks => List.pairwise_insertionSort _ ks
  exact List.Perm.eq_of_pairwise (fun _ _ _ _ hab hba => le_antisymm hab hba) (hsorted keys)
    (hsorted others) ((sortKeys_perm keys).trans (h.trans (sortKeys_perm others).symm))

section Properties

variable {V : Type}

/-- `CreateDataProperty`: a property keeps its place when it is there. -/
def define (key : JsString) (value : V) : List (JsString × V) → List (JsString × V)
  | [] => [(key, value)]
  | (k, v) :: rest =>
      if k = key then (key, value) :: rest
      else if ahead key k then (key, value) :: (k, v) :: rest
      else (k, v) :: define key value rest

/-- `Object.fromEntries` -/
def fromEntries (entries : List (JsString × V)) : List (JsString × V) :=
  entries.foldl (fun members entry => define entry.1 entry.2 members) []

/-- `Object.keys` -/
def keys (members : List (JsString × V)) : List JsString := members.map Prod.fst

/-- The keys are distinct and in the order of their enumeration. -/
def Ordered (keys : List JsString) : Prop :=
  keys.Pairwise (fun k l => k ≠ l ∧ ahead l k = false)

instance (keys : List JsString) : Decidable (Ordered keys) :=
  inferInstanceAs (Decidable (keys.Pairwise (fun k l => k ≠ l ∧ ahead l k = false)))

theorem Ordered.nodup {keys : List JsString} (h : Ordered keys) : keys.Nodup :=
  h.imp (fun hkl => hkl.1)

theorem mem_define {key : JsString} {value : V} {members : List (JsString × V)}
    {entry : JsString × V} (h : entry ∈ define key value members) :
    entry = (key, value) ∨ entry ∈ members := by
  induction members with
  | nil => exact Or.inl (List.mem_singleton.mp h)
  | cons member rest ih =>
    obtain ⟨k, v⟩ := member
    rw [define] at h
    split at h
    · exact (List.mem_cons.mp h).imp_right (List.mem_cons_of_mem _)
    · split at h
      · exact List.mem_cons.mp h
      · rcases List.mem_cons.mp h with heq | hin
        · exact Or.inr (heq ▸ List.mem_cons_self)
        · exact (ih hin).imp_right (List.mem_cons_of_mem _)

theorem mem_keys_define {key k : JsString} {value : V} {members : List (JsString × V)}
    (h : k ∈ keys (define key value members)) : k = key ∨ k ∈ keys members := by
  obtain ⟨entry, hin, rfl⟩ := List.mem_map.mp h
  rcases mem_define hin with rfl | hmember
  · exact Or.inl rfl
  · exact Or.inr (List.mem_map_of_mem hmember)

theorem ahead_of_ahead {key k l : JsString} (h : ahead key k = true) (hl : ahead l k = false) :
    key ≠ l ∧ ahead l key = false := by
  unfold ahead at h hl ⊢
  cases hkey : arrayIndex key with
  | none => simp [hkey] at h
  | some i =>
    cases hindex : arrayIndex l with
    | none => exact ⟨fun heq => by simp [heq, hindex] at hkey, rfl⟩
    | some n =>
      cases hk : arrayIndex k with
      | none => simp [hindex, hk] at hl
      | some j =>
        simp only [hkey, hindex, hk, decide_eq_true_eq, decide_eq_false_iff_not] at h hl ⊢
        refine ⟨fun heq => ?_, by omega⟩
        rw [heq, hindex] at hkey
        have := Option.some.inj hkey
        omega

/-- A property that is defined finds its place among the others. -/
theorem ordered_define (key : JsString) (value : V) (members : List (JsString × V))
    (h : Ordered (keys members)) : Ordered (keys (define key value members)) := by
  induction members with
  | nil => exact List.pairwise_singleton _ _
  | cons member rest ih =>
    obtain ⟨k, v⟩ := member
    obtain ⟨hfirst, hrest⟩ := List.pairwise_cons.mp h
    rw [define]
    split
    · rename_i heq
      exact heq ▸ h
    · rename_i hne
      split
      · rename_i hahead
        refine List.pairwise_cons.mpr ⟨fun l hl => ?_, h⟩
        rcases List.mem_cons.mp hl with rfl | hin
        · refine ⟨Ne.symm hne, ?_⟩
          have hself : ahead l l = false := by
            unfold ahead
            cases arrayIndex l with
            | none => rfl
            | some i => simp
          exact (ahead_of_ahead hahead hself).2
        · exact ahead_of_ahead hahead (hfirst l hin).2
      · rename_i hahead
        refine List.pairwise_cons.mpr ⟨fun l hl => ?_, ih hrest⟩
        rcases mem_keys_define hl with rfl | hin
        · exact ⟨hne, Bool.not_eq_true _ ▸ hahead⟩
        · exact hfirst l hin

theorem ordered_fromEntries (entries : List (JsString × V)) :
    Ordered (keys (fromEntries entries)) := by
  have hfold : ∀ members : List (JsString × V), Ordered (keys members) →
      Ordered (keys (entries.foldl (fun ms entry => define entry.1 entry.2 ms) members)) := by
    induction entries with
    | nil => exact fun _ h => h
    | cons entry rest ih => exact fun members h => ih _ (ordered_define _ _ members h)
  exact hfold [] List.Pairwise.nil

theorem mem_fromEntries {entries : List (JsString × V)} {entry : JsString × V}
    (h : entry ∈ fromEntries entries) : entry ∈ entries := by
  have hfold : ∀ members : List (JsString × V),
      entry ∈ entries.foldl (fun ms entry => define entry.1 entry.2 ms) members →
        entry ∈ members ∨ entry ∈ entries := by
    clear h
    induction entries with
    | nil => exact fun _ h => Or.inl h
    | cons first rest ih =>
      intro members h
      rcases ih _ h with hin | hin
      · rcases mem_define hin with rfl | hmember
        · exact Or.inr List.mem_cons_self
        · exact Or.inl hmember
      · exact Or.inr (List.mem_cons_of_mem _ hin)
  exact (hfold [] h).resolve_left List.not_mem_nil

theorem define_last {key : JsString} {value : V} {members : List (JsString × V)}
    (h : ∀ k ∈ keys members, k ≠ key ∧ ahead key k = false) :
    define key value members = members ++ [(key, value)] := by
  induction members with
  | nil => rfl
  | cons member rest ih =>
    obtain ⟨k, v⟩ := member
    obtain ⟨hne, hahead⟩ := h k List.mem_cons_self
    rw [define, if_neg hne, hahead, ih (fun l hl => h l (List.mem_cons_of_mem _ hl))]
    rfl

/-- Properties in the order of their enumeration keep it. -/
theorem fromEntries_of_ordered (entries : List (JsString × V)) (h : Ordered (keys entries)) :
    fromEntries entries = entries := by
  have hfold : ∀ members : List (JsString × V), Ordered (keys (members ++ entries)) →
      entries.foldl (fun ms entry => define entry.1 entry.2 ms) members = members ++ entries := by
    clear h
    induction entries with
    | nil => exact fun members _ => (List.append_nil members).symm
    | cons entry rest ih =>
      intro members hall
      have hlast : define entry.1 entry.2 members = members ++ [entry] := by
        apply define_last
        intro k hk
        rw [Ordered, keys, List.map_append, List.pairwise_append] at hall
        exact hall.2.2 k hk entry.1 List.mem_cons_self
      have hsplit : members ++ entry :: rest = (members ++ [entry]) ++ rest := by simp
      rw [List.foldl_cons, hlast, hsplit]
      exact ih _ (hsplit ▸ hall)
  exact hfold [] h

theorem define_perm {key : JsString} (value : V) {members : List (JsString × V)}
    (h : key ∉ keys members) : (define key value members).Perm ((key, value) :: members) := by
  induction members with
  | nil => exact List.Perm.refl _
  | cons member rest ih =>
    obtain ⟨k, v⟩ := member
    have hkey : key ≠ k ∧ key ∉ keys rest := by
      simpa only [keys, List.map_cons, List.mem_cons, not_or] using h
    rw [define, if_neg (Ne.symm hkey.1)]
    split
    · exact List.Perm.refl _
    · exact ((ih hkey.2).cons _).trans (List.Perm.swap _ _ _)

/-- Entries with distinct keys are all there, in some order. -/
theorem fromEntries_perm (entries : List (JsString × V)) (h : (keys entries).Nodup) :
    (fromEntries entries).Perm entries := by
  have hfold : ∀ members : List (JsString × V), (keys (members ++ entries)).Nodup →
      (entries.foldl (fun ms entry => define entry.1 entry.2 ms) members).Perm
        (members ++ entries) := by
    clear h
    induction entries with
    | nil => exact fun members _ => (List.append_nil members).symm ▸ List.Perm.refl _
    | cons entry rest ih =>
      intro members hall
      have hkey : entry.1 ∉ keys members := by
        rw [keys, List.map_append, List.nodup_append] at hall
        exact fun hin => hall.2.2 _ hin entry.1 List.mem_cons_self rfl
      have hdefine := define_perm entry.2 hkey
      have hmiddle : (define entry.1 entry.2 members ++ rest).Perm (members ++ entry :: rest) :=
        (hdefine.append_right rest).trans List.perm_middle.symm
      exact (ih _ ((hmiddle.map Prod.fst).nodup_iff.mpr hall)).trans hmiddle
  exact hfold [] h

end Properties

/-- The tokens of numbers: a whole part, then a fraction, an exponent or both. -/
def isNumberToken (token : List Char) : Bool :=
  token.all isTokenChar && isWhole ((unsigned token).takeWhile Char.isDigit) &&
    (((unsigned token).dropWhile Char.isDigit).isEmpty ||
      isFraction ((unsigned token).dropWhile Char.isDigit))

/-- The numbers of the browser: comparison by value, where both zeros are equal, the text of a
finite number, and the number that a token stands for, infinite when the token overflows. -/
class JsNumber (N : Type) where
  equals : N → N → Bool
  isFinite : N → Bool
  toText : N → List Char
  ofToken : List Char → N
  equals_refl : ∀ n, equals n n = true
  equals_symm : ∀ n m, equals n m = true → equals m n = true
  equals_trans : ∀ n m k, equals n m = true → equals m k = true → equals n k = true
  isFinite_equals : ∀ n m, equals n m = true → isFinite n = isFinite m
  toText_equals : ∀ n m, equals n m = true → toText n = toText m
  isNumberToken_toText : ∀ n, isFinite n = true → isNumberToken (toText n) = true
  equals_ofToken : ∀ n, isFinite n = true → equals (ofToken (toText n)) n = true

inductive Value (N : Type) where
  | null
  | bool (b : Bool)
  | number (n : N)
  | string (s : JsString)
  | array (items : List (Value N))
  | object (members : List (JsString × Value N))

variable {N : Type}

/-- What holds of a value when it holds of its parts holds of every value. -/
theorem Value.induction {P : Value N → Prop} (null : P .null) (bool : ∀ b, P (.bool b))
    (number : ∀ n, P (.number n)) (string : ∀ s, P (.string s))
    (array : ∀ items, (∀ x ∈ items, P x) → P (.array items))
    (object : ∀ members, (∀ entry ∈ members, P entry.2) → P (.object members)) (v : Value N) :
    P v := by
  refine @Value.rec N P (fun items => ∀ x ∈ items, P x)
    (fun members => ∀ entry ∈ members, P entry.2) (fun entry => P entry.2)
    null bool number string array object ?_ ?_ ?_ ?_ ?_ v
  · exact fun _ h => absurd h List.not_mem_nil
  · exact fun x xs hx hxs y hy => (List.mem_cons.mp hy).elim (fun heq => heq ▸ hx) (hxs y)
  · exact fun _ h => absurd h List.not_mem_nil
  · exact fun x xs hx hxs y hy => (List.mem_cons.mp hy).elim (fun heq => heq ▸ hx) (hxs y)
  · exact fun _ _ h => h

mutual

/-- The objects of a value list their properties in the order of enumeration. -/
def WellFormed : Value N → Prop
  | .array items => WellFormedItems items
  | .object members => Ordered (keys members) ∧ WellFormedMembers members
  | _ => True

def WellFormedItems : List (Value N) → Prop
  | [] => True
  | x :: xs => WellFormed x ∧ WellFormedItems xs

def WellFormedMembers : List (JsString × Value N) → Prop
  | [] => True
  | (_, v) :: rest => WellFormed v ∧ WellFormedMembers rest

end

theorem wellFormedItems_iff (items : List (Value N)) :
    WellFormedItems items ↔ ∀ x ∈ items, WellFormed x := by
  induction items with
  | nil => simp [WellFormedItems]
  | cons x xs ih => simp [WellFormedItems, ih]

theorem wellFormedMembers_iff (members : List (JsString × Value N)) :
    WellFormedMembers members ↔ ∀ entry ∈ members, WellFormed entry.2 := by
  induction members with
  | nil => simp [WellFormedMembers]
  | cons entry rest ih => simp [WellFormedMembers, ih]

variable [JsNumber N]

mutual

/-- Equality up to the order of the keys at every depth, numbers compared by value. -/
def Same : Value N → Value N → Prop
  | .null, .null => True
  | .bool b, .bool c => b = c
  | .number n, .number m => JsNumber.equals n m = true
  | .string s, .string t => s = t
  | .array xs, .array ys => SameItems xs ys
  | .object ms, .object ns => (keys ms).Perm (keys ns) ∧ SameMembers ms ns
  | _, _ => False

def SameItems : List (Value N) → List (Value N) → Prop
  | [], [] => True
  | x :: xs, y :: ys => Same x y ∧ SameItems xs ys
  | _, _ => False

/-- Every property has the same value on the other side. -/
def SameMembers : List (JsString × Value N) → List (JsString × Value N) → Prop
  | [], _ => True
  | (k, v) :: rest, others => (∃ w, (k, w) ∈ others ∧ Same v w) ∧ SameMembers rest others

end

theorem sameItems_iff (xs ys : List (Value N)) : SameItems xs ys ↔ List.Forall₂ Same xs ys := by
  induction xs generalizing ys with
  | nil => cases ys <;> simp [SameItems]
  | cons x xs ih => cases ys <;> simp [SameItems, ih]

theorem sameMembers_iff (ms ns : List (JsString × Value N)) :
    SameMembers ms ns ↔ ∀ entry ∈ ms, ∃ w, (entry.1, w) ∈ ns ∧ Same entry.2 w := by
  induction ms with
  | nil => simp [SameMembers]
  | cons entry rest ih => simp [SameMembers, ih]

omit [JsNumber N] in
theorem value_unique {members : List (JsString × Value N)} (h : (keys members).Nodup)
    {key : JsString} {v w : Value N} (hv : (key, v) ∈ members) (hw : (key, w) ∈ members) :
    v = w := by
  have heq := List.inj_on_of_nodup_map h hv hw rfl
  exact congrArg Prod.snd heq

theorem Same.null_left {x : Value N} (h : Same .null x) : x = .null := by
  cases x <;> first | rfl | exact h.elim

theorem Same.bool_left {b : Bool} {x : Value N} (h : Same (.bool b) x) : x = .bool b := by
  cases x <;> first | exact congrArg _ (Eq.symm h) | exact h.elim

theorem Same.string_left {s : JsString} {x : Value N} (h : Same (.string s) x) :
    x = .string s := by
  cases x <;> first | exact congrArg _ (Eq.symm h) | exact h.elim

theorem Same.number_left {n : N} {x : Value N} (h : Same (.number n) x) :
    ∃ m, x = .number m ∧ JsNumber.equals n m = true := by
  cases x <;> first | exact ⟨_, rfl, h⟩ | exact h.elim

theorem Same.array_left {xs : List (Value N)} {x : Value N} (h : Same (.array xs) x) :
    ∃ ys, x = .array ys ∧ List.Forall₂ Same xs ys := by
  cases x <;> first | exact ⟨_, rfl, (sameItems_iff _ _).mp h⟩ | exact h.elim

theorem Same.object_left {ms : List (JsString × Value N)} {x : Value N}
    (h : Same (.object ms) x) : ∃ ns, x = .object ns ∧ (keys ms).Perm (keys ns) ∧
      ∀ entry ∈ ms, ∃ w, (entry.1, w) ∈ ns ∧ Same entry.2 w := by
  cases x <;> first | exact ⟨_, rfl, h.1, (sameMembers_iff _ _).mp h.2⟩ | exact h.elim

/-- Two values that a third one is the same as are the same. -/
theorem same_of_same (v : Value N) :
    ∀ x y, WellFormed x → Same v x → Same v y → Same x y := by
  induction v using Value.induction with
  | null =>
    intro x y _ hx hy
    rw [hx.null_left, hy.null_left]
    trivial
  | bool b =>
    intro x y _ hx hy
    rw [hx.bool_left, hy.bool_left]
    exact rfl
  | string s =>
    intro x y _ hx hy
    rw [hx.string_left, hy.string_left]
    exact rfl
  | number n =>
    intro x y _ hx hy
    obtain ⟨m, rfl, hm⟩ := hx.number_left
    obtain ⟨k, rfl, hk⟩ := hy.number_left
    exact JsNumber.equals_trans _ _ _ (JsNumber.equals_symm _ _ hm) hk
  | array items ih =>
    intro x y hwell hx hy
    obtain ⟨xs, rfl, hxs⟩ := hx.array_left
    obtain ⟨ys, rfl, hys⟩ := hy.array_left
    rw [Same, sameItems_iff]
    rw [WellFormed, wellFormedItems_iff] at hwell
    clear hx hy
    induction hxs generalizing ys with
    | nil =>
      cases hys
      exact List.Forall₂.nil
    | cons hx _ ihs =>
      cases hys with
      | cons hy hrest =>
        refine List.Forall₂.cons ?_ (ihs (fun z hz => ih z (List.mem_cons_of_mem _ hz))
          (fun z hz => hwell z (List.mem_cons_of_mem _ hz)) _ hrest)
        exact ih _ List.mem_cons_self _ _ (hwell _ List.mem_cons_self) hx hy
  | object members ih =>
    intro x y hwell hx hy
    obtain ⟨ms, rfl, hkeys, hms⟩ := hx.object_left
    obtain ⟨ns, rfl, hkeys', hns⟩ := hy.object_left
    rw [WellFormed, wellFormedMembers_iff] at hwell
    refine ⟨hkeys.symm.trans hkeys', (sameMembers_iff _ _).mpr ?_⟩
    rintro ⟨k, a⟩ ha
    obtain ⟨⟨k', c⟩, hc, rfl⟩ : ∃ entry ∈ members, entry.1 = k :=
      List.mem_map.mp (hkeys.mem_iff.mpr (List.mem_map_of_mem ha))
    obtain ⟨a', ha', hca⟩ := hms _ hc
    obtain rfl := value_unique hwell.1.nodup ha ha'
    obtain ⟨b, hb, hcb⟩ := hns _ hc
    exact ⟨b, hb, ih _ hc _ _ (hwell.2 _ ha) hca hcb⟩

theorem same_refl (v : Value N) : Same v v := by
  induction v using Value.induction with
  | null => trivial
  | bool b => exact rfl
  | number n => exact JsNumber.equals_refl n
  | string s => exact rfl
  | array items ih => exact (sameItems_iff _ _).mpr (List.forall₂_same.mpr ih)
  | object members ih =>
    exact ⟨List.Perm.refl _, (sameMembers_iff _ _).mpr fun entry h => ⟨entry.2, h, ih entry h⟩⟩

theorem same_symm {v w : Value N} (hw : WellFormed w) (h : Same v w) : Same w v :=
  same_of_same v w v hw h (same_refl v)

end Decillion.BrowserValues

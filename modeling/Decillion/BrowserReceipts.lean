import Decillion.BrowserRoundTrip
import Decillion.Primitives

/-!
The receipts of the browser. `canon` sorts the keys of an object and reads the canonical text of
every part again, so the text of a value is settled by the value alone: it does not depend on
the order of the keys at any depth, and reading it gives the value back. A number that has
overflowed is outside of this, as `JSON.stringify` writes it as null.
-/
namespace Decillion.BrowserReceipts

open BrowserJson BrowserRoundTrip BrowserValues ByteText Primitives

variable {N : Type} [JsNumber N]

mutual

def canon : Value N → Option JsString
  | .object members => do
      let entries ← (sortKeys (keys members)).mapM (fun k => do
        let text ← canonAt members k
        let value ← parse (N := N) text
        pure (k, value))
      pure (stringify (.object (fromEntries entries)))
  | .array items => do
      let values ← canonItems items
      pure (stringify (.array values))
  | v => pure (stringify v)

/-- `canon(x[k])` -/
def canonAt : List (JsString × Value N) → JsString → Option JsString
  | [], _ => none
  | (k, v) :: rest, key => if k = key then canon v else canonAt rest key

def canonItems : List (Value N) → Option (List (Value N))
  | [] => some []
  | x :: xs => do
      let text ← canon x
      let value ← parse text
      let values ← canonItems xs
      pure (value :: values)

end

/-- The code points of a string; `TextEncoder` replaces a surrogate that is not paired. -/
def codePoints : JsString → List Char
  | high :: low :: rest =>
      if isHigh high && isLow low then
        Char.ofNat (65536 + (high.val - 55296) * 1024 + (low.val - 56320)) :: codePoints rest
      else (if isHigh high || isLow high then '\uFFFD' else character high) ::
        codePoints (low :: rest)
  | [u] => [if isHigh u || isLow u then '\uFFFD' else character u]
  | [] => []

def hash (sha : Sha256) (s : JsString) : JsString :=
  units ("sha256:" ++ sha.hexdigest (encode (String.ofList (codePoints s)))).toList

/-- The id of a receipt with this body. -/
def receiptId (sha : Sha256) (body : Value N) : Option JsString := (canon body).map (hash sha)

def property (key : String) : Value N → Option (Value N)
  | .object members => members.lookup (units key.toList)
  | _ => none

def truthy : Value N → Bool
  | .null => false
  | .bool b => b
  | .number n => !JsNumber.equals n (JsNumber.ofToken ['0'])
  | .string s => !s.isEmpty
  | _ => true

def verify (sha : Sha256) (r : Value N) : Option Bool :=
  match property "body" r, property "id" r with
  | some body, some (.string id) =>
      if truthy body then (receiptId sha body).map (fun other => decide (id = other))
      else some false
  | _, _ => some false

section Congruence

theorem canonAt_eq {members : List (JsString × Value N)} (h : (keys members).Nodup)
    {key : JsString} {v : Value N} (hv : (key, v) ∈ members) : canonAt members key = canon v := by
  induction members with
  | nil => exact absurd hv List.not_mem_nil
  | cons entry rest ih =>
    obtain ⟨k, w⟩ := entry
    obtain ⟨hfirst, hrest⟩ := List.nodup_cons.mp h
    rcases List.mem_cons.mp hv with heq | hin
    · cases heq
      exact if_pos rfl
    · have hne : k ≠ key := by
        rintro rfl
        exact hfirst (List.mem_map.mpr ⟨_, hin, rfl⟩)
      exact (if_neg hne).trans (ih hrest hin)

theorem mapM_congr {A B : Type} {f g : A → Option B} {l : List A} (h : ∀ a ∈ l, f a = g a) :
    l.mapM f = l.mapM g := by
  induction l with
  | nil => rfl
  | cons a l ih =>
    rw [List.mapM_cons, List.mapM_cons, h a List.mem_cons_self,
      ih (fun b hb => h b (List.mem_cons_of_mem _ hb))]

/-- Values that are the same have one canonical text. -/
theorem canon_congr (x : Value N) :
    ∀ y, WellFormed x → WellFormed y → Same x y → canon x = canon y := by
  induction x using Value.induction with
  | null =>
    intro y _ _ h
    rw [h.null_left]
  | bool b =>
    intro y _ _ h
    rw [h.bool_left]
  | string s =>
    intro y _ _ h
    rw [h.string_left]
  | number n =>
    intro y _ _ h
    obtain ⟨m, rfl, hm⟩ := h.number_left
    simp only [canon, stringify, JsNumber.isFinite_equals _ _ hm, JsNumber.toText_equals _ _ hm]
  | array items ih =>
    intro y hx hy h
    obtain ⟨others, rfl, hothers⟩ := h.array_left
    rw [WellFormed, wellFormedItems_iff] at hx hy
    have hitems : canonItems items = canonItems others := by
      clear h
      induction hothers with
      | nil => rfl
      | cons hfirst _ ihs =>
        rw [canonItems, canonItems, ih _ List.mem_cons_self _ (hx _ List.mem_cons_self)
          (hy _ List.mem_cons_self) hfirst, ihs
            (fun z hz => ih z (List.mem_cons_of_mem _ hz))
            (fun z hz => hx z (List.mem_cons_of_mem _ hz))
            (fun z hz => hy z (List.mem_cons_of_mem _ hz))]
    rw [canon, canon, hitems]
  | object members ih =>
    intro y hx hy h
    obtain ⟨others, rfl, hkeys, hothers⟩ := h.object_left
    rw [WellFormed, wellFormedMembers_iff] at hx hy
    have hentries : ∀ k ∈ sortKeys (keys members), canonAt members k = canonAt others k := by
      intro k hk
      obtain ⟨⟨k', v⟩, hv, rfl⟩ := List.mem_map.mp ((sortKeys_perm _).mem_iff.mp hk)
      obtain ⟨w, hw, hsame⟩ := hothers _ hv
      rw [canonAt_eq hx.1.nodup hv, canonAt_eq hy.1.nodup hw]
      exact ih _ hv w (hx.2 _ hv) (hy.2 _ hw) hsame
    rw [canon, canon, ← sortKeys_congr hkeys, mapM_congr (fun k hk => by rw [hentries k hk])]

end Congruence

section Rereading

theorem reread_number {n : N} (h : JsNumber.isFinite n = true) :
    reread (.number n) = .number (JsNumber.ofToken (JsNumber.toText n)) := by
  rw [reread, if_pos h]

mutual

/-- What is read again has the same text. -/
theorem stringify_reread : (v : Value N) → stringify (reread v) = stringify v
  | .null => rfl
  | .bool b => rfl
  | .string s => rfl
  | .number n => by
    by_cases h : JsNumber.isFinite n = true
    · have hequals := JsNumber.equals_ofToken n h
      rw [reread_number h, stringify, stringify, JsNumber.isFinite_equals _ _ hequals,
        JsNumber.toText_equals _ _ hequals]
    · rw [reread, if_neg h, stringify, stringify, if_neg h]
  | .array [] => rfl
  | .array (x :: xs) => by
    have hx := stringify_reread x
    have hxs := stringifyItems_reread xs
    rw [reread, rereadItems, stringify, stringify, hx, hxs]
  | .object [] => rfl
  | .object ((k, v) :: members) => by
    have hv := stringify_reread v
    have hmembers := stringifyMembers_reread members
    rw [reread, rereadMembers, stringify, stringify, hv, hmembers]

theorem stringifyItems_reread : (xs : List (Value N)) →
    stringifyItems (rereadItems xs) = stringifyItems xs
  | [] => rfl
  | x :: xs => by
    have hx := stringify_reread x
    have hxs := stringifyItems_reread xs
    rw [rereadItems, stringifyItems, stringifyItems, hx, hxs]

theorem stringifyMembers_reread : (members : List (JsString × Value N)) →
    stringifyMembers (rereadMembers members) = stringifyMembers members
  | [] => rfl
  | (k, v) :: members => by
    have hv := stringify_reread v
    have hmembers := stringifyMembers_reread members
    rw [rereadMembers, stringifyMembers, stringifyMembers, hv, hmembers]

end

mutual

/-- What is read again has the same canonical text, also where a number has overflowed. -/
theorem canon_reread : (v : Value N) → canon (reread v) = canon v
  | .null => rfl
  | .bool b => rfl
  | .string s => rfl
  | .number n => by
    have htext := stringify_reread (Value.number n)
    by_cases h : JsNumber.isFinite n = true
    · rw [reread_number h] at htext ⊢
      rw [canon, canon, htext]
      all_goals nofun
    · have hread : reread (Value.number n) = .null := by rw [reread, if_neg h]
      rw [hread] at htext ⊢
      rw [canon, canon, htext]
      all_goals nofun
  | .array items => by
    have hitems := canonItems_reread items
    rw [reread, canon, canon, hitems]
  | .object members => by
    have hat := canonAt_reread members
    rw [reread, canon, canon, keys_rereadMembers]
    simp only [hat]

theorem canonAt_reread : (members : List (JsString × Value N)) → (key : JsString) →
    canonAt (rereadMembers members) key = canonAt members key
  | [], _ => rfl
  | (k, v) :: rest, key => by
    have hv := canon_reread v
    have hrest := canonAt_reread rest key
    rw [rereadMembers, canonAt, canonAt, hv, hrest]

theorem canonItems_reread : (xs : List (Value N)) → canonItems (rereadItems xs) = canonItems xs
  | [] => rfl
  | x :: xs => by
    have hx := canon_reread x
    have hxs := canonItems_reread xs
    rw [rereadItems, canonItems, canonItems, hx, hxs]

end

theorem wellFormed_reread (v : Value N) (h : WellFormed v) : WellFormed (reread v) := by
  induction v using Value.induction with
  | null => trivial
  | bool b => trivial
  | string s => trivial
  | number n =>
    rw [reread]
    split
    · trivial
    · trivial
  | array items ih =>
    rw [WellFormed, wellFormedItems_iff] at h
    rw [reread, rereadItems_eq, WellFormed, wellFormedItems_iff]
    intro y hy
    obtain ⟨x, hx, rfl⟩ := List.mem_map.mp hy
    exact ih x hx (h x hx)
  | object members ih =>
    rw [WellFormed, wellFormedMembers_iff] at h
    rw [reread, WellFormed, keys_rereadMembers, wellFormedMembers_iff, rereadMembers_eq]
    refine ⟨h.1, fun y hy => ?_⟩
    obtain ⟨entry, hin, rfl⟩ := List.mem_map.mp hy
    exact ih entry hin (h.2 entry hin)

end Rereading

section Inverses

mutual

/-- No number in the value has overflowed. -/
def Finite : Value N → Prop
  | .number n => JsNumber.isFinite n = true
  | .array items => FiniteItems items
  | .object members => FiniteMembers members
  | _ => True

def FiniteItems : List (Value N) → Prop
  | [] => True
  | x :: xs => Finite x ∧ FiniteItems xs

def FiniteMembers : List (JsString × Value N) → Prop
  | [] => True
  | (_, v) :: rest => Finite v ∧ FiniteMembers rest

end

theorem finiteItems_iff (items : List (Value N)) :
    FiniteItems items ↔ ∀ x ∈ items, Finite x := by
  induction items with
  | nil => simp [FiniteItems]
  | cons x xs ih => simp [FiniteItems, ih]

theorem finiteMembers_iff (members : List (JsString × Value N)) :
    FiniteMembers members ↔ ∀ entry ∈ members, Finite entry.2 := by
  induction members with
  | nil => simp [FiniteMembers]
  | cons entry rest ih => simp [FiniteMembers, ih]

/-- `JSON.parse` inverts `JSON.stringify` on the value. -/
def Inverts (v : Value N) : Prop := ∃ w, parse (stringify v) = some w ∧ Same w v

/-- What is read again is the same value, and none of it has overflowed. -/
theorem reread_same (v : Value N) (h : Finite v) : Same (reread v) v ∧ Finite (reread v) := by
  induction v using Value.induction with
  | null => exact ⟨trivial, trivial⟩
  | bool b => exact ⟨rfl, trivial⟩
  | string s => exact ⟨rfl, trivial⟩
  | number n =>
    have hequals := JsNumber.equals_ofToken n h
    rw [reread_number h]
    exact ⟨hequals, (JsNumber.isFinite_equals _ _ hequals).trans h⟩
  | array items ih =>
    rw [Finite, finiteItems_iff] at h
    have hall := fun x hx => ih x hx (h x hx)
    rw [reread, rereadItems_eq, Same, sameItems_iff, Finite, finiteItems_iff,
      List.forall₂_map_left_iff, List.forall₂_same]
    refine ⟨fun x hx => (hall x hx).1, fun y hy => ?_⟩
    obtain ⟨x, hx, rfl⟩ := List.mem_map.mp hy
    exact (hall x hx).2
  | object members ih =>
    rw [Finite, finiteMembers_iff] at h
    have hall := fun entry hin => ih entry hin (h entry hin)
    rw [reread, Same, keys_rereadMembers, sameMembers_iff, Finite, finiteMembers_iff,
      rereadMembers_eq]
    refine ⟨⟨List.Perm.refl _, fun y hy => ?_⟩, fun y hy => ?_⟩
    · obtain ⟨entry, hin, rfl⟩ := List.mem_map.mp hy
      exact ⟨entry.2, hin, (hall entry hin).1⟩
    · obtain ⟨entry, hin, rfl⟩ := List.mem_map.mp hy
      exact (hall entry hin).2

theorem finite_of_same_reread (v : Value N) (hwell : WellFormed v) (h : Same (reread v) v) :
    Finite v := by
  induction v using Value.induction with
  | null => trivial
  | bool b => trivial
  | string s => trivial
  | number n =>
    by_contra hinfinite
    have hnot : ¬ JsNumber.isFinite n = true := hinfinite
    rw [reread, if_neg hnot] at h
    exact h
  | array items ih =>
    rw [WellFormed, wellFormedItems_iff] at hwell
    rw [reread, rereadItems_eq, Same, sameItems_iff, List.forall₂_map_left_iff,
      List.forall₂_same] at h
    exact (finiteItems_iff _).mpr fun x hx => ih x hx (hwell x hx) (h x hx)
  | object members ih =>
    rw [WellFormed, wellFormedMembers_iff] at hwell
    rw [reread, Same, sameMembers_iff, rereadMembers_eq] at h
    refine (finiteMembers_iff _).mpr fun entry hin => ih entry hin (hwell.2 entry hin) ?_
    obtain ⟨w, hw, hsame⟩ := h.2 _ (List.mem_map_of_mem hin)
    exact value_unique hwell.1.nodup hw hin ▸ hsame

/-- The values on which `JSON.parse` inverts `JSON.stringify` are those without an overflow. -/
theorem inverts_iff {v : Value N} (hwell : WellFormed v) : Inverts v ↔ Finite v := by
  constructor
  · rintro ⟨w, hparse, hsame⟩
    rw [parse_stringify v hwell] at hparse
    obtain rfl := Option.some.inj hparse
    exact finite_of_same_reread v hwell hsame
  · exact fun h => ⟨_, parse_stringify v hwell, (reread_same v h).1⟩

end Inverses

section Canonical

/-- A value that is the same as another one, without an overflow. -/
structure Reads (w x : Value N) : Prop where
  wellFormed : WellFormed w
  finite : Finite w
  same : Same w x

/-- A canonical text is the text of a value that is the same. -/
def Canonical (x : Value N) (text : JsString) : Prop := ∃ w, text = stringify w ∧ Reads w x

theorem same_trans {x y z : Value N} (hx : WellFormed x) (hy : WellFormed y) (h : Same x y)
    (h' : Same y z) : Same x z :=
  same_of_same y x z hx (same_symm hy h) h'

theorem Canonical.read {x : Value N} {text : JsString} (h : Canonical x text) :
    ∃ w, parse text = some w ∧ Reads w x := by
  obtain ⟨w, rfl, hw⟩ := h
  obtain ⟨hreread, hfinite⟩ := reread_same w hw.finite
  have hwell := wellFormed_reread w hw.wellFormed
  exact ⟨_, parse_stringify w hw.wellFormed, hwell, hfinite,
    same_trans hwell hw.wellFormed hreread hw.same⟩

theorem mapM_some {A B : Type} {f : A → Option B} {P : A → B → Prop} {l : List A}
    (h : ∀ a ∈ l, ∃ b, f a = some b ∧ P a b) : ∃ bs, l.mapM f = some bs ∧ List.Forall₂ P l bs := by
  induction l with
  | nil => exact ⟨[], rfl, List.Forall₂.nil⟩
  | cons a l ih =>
    obtain ⟨b, hb, hab⟩ := h a List.mem_cons_self
    obtain ⟨bs, hbs, hall⟩ := ih (fun c hc => h c (List.mem_cons_of_mem _ hc))
    refine ⟨b :: bs, ?_, List.Forall₂.cons hab hall⟩
    rw [List.mapM_cons, hb, hbs]
    rfl

theorem exists_related {A B : Type} {P : A → B → Prop} {l : List A} {bs : List B}
    (h : List.Forall₂ P l bs) : ∀ b ∈ bs, ∃ a ∈ l, P a b := by
  induction h with
  | nil => exact fun _ h => absurd h List.not_mem_nil
  | cons hab _ ih =>
    intro b hb
    rcases List.mem_cons.mp hb with rfl | hin
    · exact ⟨_, List.mem_cons_self, hab⟩
    · obtain ⟨a, ha, hab⟩ := ih b hin
      exact ⟨a, List.mem_cons_of_mem _ ha, hab⟩

theorem reads_array {items values : List (Value N)}
    (h : List.Forall₂ (fun x w => Reads w x) items values) :
    Reads (.array values) (.array items) where
  wellFormed := (wellFormedItems_iff _).mpr fun w hw => by
    obtain ⟨x, -, hx⟩ := exists_related h w hw
    exact hx.wellFormed
  finite := (finiteItems_iff _).mpr fun w hw => by
    obtain ⟨x, -, hx⟩ := exists_related h w hw
    exact hx.finite
  same := (sameItems_iff _ _).mpr (h.flip.imp fun _ _ hread => hread.same)

theorem canonItems_some {items : List (Value N)}
    (h : ∀ x ∈ items, ∃ text, canon x = some text ∧ Canonical x text) :
    ∃ values, canonItems items = some values ∧
      List.Forall₂ (fun x w => Reads w x) items values := by
  induction items with
  | nil => exact ⟨[], rfl, List.Forall₂.nil⟩
  | cons x xs ih =>
    obtain ⟨text, htext, hcanonical⟩ := h x List.mem_cons_self
    obtain ⟨w, hparse, hw⟩ := hcanonical.read
    obtain ⟨values, hvalues, hall⟩ := ih (fun z hz => h z (List.mem_cons_of_mem _ hz))
    refine ⟨w :: values, ?_, List.Forall₂.cons hw hall⟩
    rw [canonItems, htext, Option.bind_eq_bind, Option.bind_some, hparse, hvalues]
    rfl

/-- The properties are read again under their sorted keys. -/
theorem reads_object {members entries : List (JsString × Value N)}
    (hwell : Ordered (keys members))
    (h : List.Forall₂ (fun k entry => entry.1 = k ∧ ∃ v, (k, v) ∈ members ∧ Reads entry.2 v)
      (sortKeys (keys members)) entries) :
    Reads (.object (fromEntries entries)) (.object members) := by
  have hkeys : keys entries = sortKeys (keys members) := by
    have hmap : List.Forall₂ (· = ·) (keys entries) (sortKeys (keys members)) := by
      rw [keys, List.forall₂_map_left_iff]
      exact h.flip.imp fun _ _ hentry => hentry.1
    exact List.forall₂_eq_eq_eq ▸ hmap
  have hnodup : (keys entries).Nodup := by
    rw [hkeys]
    exact (sortKeys_perm _).nodup_iff.mpr hwell.nodup
  have hperm := fromEntries_perm entries hnodup
  have hread : ∀ entry ∈ fromEntries entries,
      ∃ v, (entry.1, v) ∈ members ∧ Reads entry.2 v := by
    intro entry hentry
    obtain ⟨k, -, rfl, hv⟩ := exists_related h entry (hperm.mem_iff.mp hentry)
    exact hv
  refine ⟨⟨ordered_fromEntries _, (wellFormedMembers_iff _).mpr fun entry hin => ?_⟩,
    (finiteMembers_iff _).mpr fun entry hin => ?_,
    ⟨?_, (sameMembers_iff _ _).mpr fun entry hin => ?_⟩⟩
  · obtain ⟨v, -, hv⟩ := hread entry hin
    exact hv.wellFormed
  · obtain ⟨v, -, hv⟩ := hread entry hin
    exact hv.finite
  · have hsorted : (keys entries).Perm (keys members) := by
      rw [hkeys]
      exact sortKeys_perm _
    exact (hperm.map Prod.fst).trans hsorted
  · obtain ⟨v, hmember, hv⟩ := hread entry hin
    exact ⟨v, hmember, hv.same⟩

/-- Every value without an overflow has a canonical text. -/
theorem exists_canon (x : Value N) (hwell : WellFormed x) (hfinite : Finite x) :
    ∃ text, canon x = some text ∧ Canonical x text := by
  induction x using Value.induction with
  | null => exact ⟨_, rfl, .null, rfl, trivial, trivial, trivial⟩
  | bool b => exact ⟨_, rfl, .bool b, rfl, trivial, trivial, rfl⟩
  | string s => exact ⟨_, rfl, .string s, rfl, trivial, trivial, rfl⟩
  | number n => exact ⟨_, rfl, .number n, rfl, trivial, hfinite, JsNumber.equals_refl n⟩
  | array items ih =>
    rw [WellFormed, wellFormedItems_iff] at hwell
    rw [Finite, finiteItems_iff] at hfinite
    obtain ⟨values, hvalues, hall⟩ :=
      canonItems_some (fun x hx => ih x hx (hwell x hx) (hfinite x hx))
    refine ⟨stringify (.array values), ?_, .array values, rfl, reads_array hall⟩
    rw [canon, hvalues]
    rfl
  | object members ih =>
    rw [WellFormed, wellFormedMembers_iff] at hwell
    rw [Finite, finiteMembers_iff] at hfinite
    obtain ⟨entries, hentries, hall⟩ := mapM_some
      (f := fun k => do
        let text ← canonAt members k
        let value ← parse (N := N) text
        pure (k, value))
      (P := fun k entry => entry.1 = k ∧ ∃ v, (k, v) ∈ members ∧ Reads entry.2 v)
      (l := sortKeys (keys members)) (by
        intro k hk
        obtain ⟨⟨k', v⟩, hv, rfl⟩ := List.mem_map.mp ((sortKeys_perm _).mem_iff.mp hk)
        obtain ⟨text, htext, hcanonical⟩ := ih _ hv (hwell.2 _ hv) (hfinite _ hv)
        obtain ⟨w, hparse, hw⟩ := hcanonical.read
        refine ⟨(k', w), ?_, rfl, v, hv, hw⟩
        have hat : canonAt members k' = some text :=
          (canonAt_eq hwell.1.nodup hv).trans htext
        rw [hat, Option.bind_eq_bind, Option.bind_some, hparse]
        rfl)
    refine ⟨stringify (.object (fromEntries entries)), ?_, .object (fromEntries entries), rfl,
      reads_object hwell.1 hall⟩
    rw [canon, hentries]
    rfl

variable (sha : Sha256)

/-- `canon` is a canonical form of the values that `JSON.parse` returns, and the id of a receipt
does not depend on the order of the keys. -/
theorem canon_canonical {s t : JsString} {x y : Value N} (hs : parse s = some x)
    (ht : parse t = some y) (hx : Inverts x) (hy : Inverts y) :
    (canon x = canon y ↔ Same x y) ∧
    (∃ text w, canon x = some text ∧ parse text = some w ∧ Same w x ∧ canon w = some text) ∧
    (Same x y → receiptId sha x = receiptId sha y) := by
  have hwellx := wellFormed_parse hs
  have hwelly := wellFormed_parse ht
  obtain ⟨text, htext, hcanonical⟩ := exists_canon x hwellx ((inverts_iff hwellx).mp hx)
  obtain ⟨other, hother, hcanonical'⟩ := exists_canon y hwelly ((inverts_iff hwelly).mp hy)
  obtain ⟨w, hparse, hw⟩ := hcanonical.read
  have hcongr : Same x y → canon x = canon y := canon_congr x y hwellx hwelly
  refine ⟨⟨fun heq => ?_, hcongr⟩, ⟨text, w, htext, hparse, hw.same, ?_⟩, fun hsame => ?_⟩
  · obtain ⟨w', hparse', hw'⟩ := hcanonical'.read
    rw [htext, hother] at heq
    obtain rfl := Option.some.inj heq
    rw [hparse] at hparse'
    obtain rfl := Option.some.inj hparse'
    exact same_of_same w x y hwellx hw.same hw'.same
  · exact (canon_congr w x hw.wellFormed hwellx hw.same).trans htext
  · rw [receiptId, receiptId, hcongr hsame]

omit [JsNumber N] in
/-- The receipt that `create` makes of a body. -/
def receipt (id : JsString) (body : Value N) : Value N :=
  .object (fromEntries [(units "id".toList, .string id), (units "body".toList, body)])

omit [JsNumber N] in
theorem lookup_of_mem {members : List (JsString × Value N)} (h : (keys members).Nodup)
    {key : JsString} {v : Value N} (hv : (key, v) ∈ members) : members.lookup key = some v := by
  induction members with
  | nil => exact absurd hv List.not_mem_nil
  | cons entry rest ih =>
    obtain ⟨k, w⟩ := entry
    obtain ⟨hfirst, hrest⟩ := List.nodup_cons.mp h
    rcases List.mem_cons.mp hv with heq | hin
    · cases heq
      exact List.lookup_cons_self
    · have hne : (key == k) = false := by
        rw [beq_eq_false_iff_ne]
        rintro rfl
        exact hfirst (List.mem_map.mpr ⟨_, hin, rfl⟩)
      rw [List.lookup_cons, hne]
      exact ih hrest hin

/-- A receipt of an object verifies after it has been stored and read again. -/
theorem verify_stored {id : JsString} {members : List (JsString × Value N)}
    (hwell : WellFormed (.object members)) (hid : receiptId sha (.object members) = some id)
    {r : Value N} (hr : WellFormed r) (hsame : Same (receipt id (.object members)) r) :
    verify sha r = some true := by
  obtain ⟨others, rfl, hkeys, hothers⟩ := hsame.object_left
  have hnodup := hr.1.nodup
  have hentries : fromEntries [(units "id".toList, Value.string id),
      (units "body".toList, .object members)] =
      [(units "id".toList, .string id), (units "body".toList, .object members)] := by
    apply fromEntries_of_ordered
    have hordered : Ordered [units "id".toList, units "body".toList] := by decide
    exact hordered
  rw [hentries] at hothers
  obtain ⟨w, hw, hstring⟩ := hothers (units "id".toList, .string id) List.mem_cons_self
  obtain ⟨body, hbody, hobject⟩ := hothers (units "body".toList, .object members)
    (List.mem_cons_of_mem _ List.mem_cons_self)
  obtain rfl := hstring.string_left
  have hbodyId : receiptId sha body = some id := by
    have hwellBody := (wellFormedMembers_iff _).mp hr.2 _ hbody
    rw [receiptId, ← canon_congr _ body hwell hwellBody hobject]
    exact hid
  obtain ⟨ns, rfl, -⟩ := hobject.object_left
  have hpropertyId : property "id" (.object others) = some (.string id) :=
    lookup_of_mem hnodup hw
  have hpropertyBody : property "body" (.object others) = some (.object ns) :=
    lookup_of_mem hnodup hbody
  unfold verify
  rw [hpropertyBody, hpropertyId]
  simp only [truthy, if_true, hbodyId, Option.map_some, decide_true]

/-- A number that has overflowed has the canonical text of null. -/
theorem canon_overflow {n : N} (h : JsNumber.isFinite n = false) :
    canon (.number n) = canon (.null : Value N) := by
  simp only [canon, stringify, h]
  rfl

end Canonical

section Samples

/-- Numbers of the browser without a fraction; a token with a fraction or an exponent is read as
one that overflows. -/
inductive WholeNumber where
  | whole (n : ℤ)
  | negativeZero
  | infinite (negative : Bool)
deriving DecidableEq

/-- Both zeros are the zero without a sign. -/
def WholeNumber.plain : WholeNumber → WholeNumber
  | .negativeZero => .whole 0
  | n => n

theorem isNumberToken_dumpInt (n : ℤ) : isNumberToken (JsonText.dumpInt n) = true := by
  have hdigits := List.all_eq_true.mp (JsonStrings.all_isDigit_toDigits n.natAbs)
  rw [isNumberToken, JsonStrings.dumpInt_token, JsonStrings.unsigned_dumpInt,
    List.takeWhile_eq_self_iff.mpr hdigits, List.dropWhile_eq_nil_iff.mpr hdigits,
    JsonStrings.isWhole_toDigits]
  rfl

instance : JsNumber WholeNumber where
  equals n m := decide (n.plain = m.plain)
  isFinite n := match n with
    | .infinite _ => false
    | _ => true
  toText n := match n with
    | .whole n => JsonText.dumpInt n
    | .negativeZero => ['0']
    | .infinite true => "-Infinity".toList
    | .infinite false => "Infinity".toList
  ofToken token :=
    if token = ['-', '0'] then .negativeZero
    else if JsonText.isIntToken token then .whole (JsonText.intOfToken token)
    else .infinite (token.head? = some '-')
  equals_refl n := decide_eq_true rfl
  equals_symm n m h := decide_eq_true (of_decide_eq_true h).symm
  equals_trans n m k h h' := decide_eq_true ((of_decide_eq_true h).trans (of_decide_eq_true h'))
  isFinite_equals n m h := by
    have heq := of_decide_eq_true h
    cases n <;> cases m <;> simp_all [WholeNumber.plain]
  toText_equals n m h := by
    have heq := of_decide_eq_true h
    cases n with
    | whole n =>
      cases m with
      | whole m =>
        cases heq
        rfl
      | negativeZero =>
        cases heq
        rfl
      | infinite negative => cases heq
    | negativeZero =>
      cases m with
      | whole m =>
        cases heq
        rfl
      | negativeZero => rfl
      | infinite negative => cases heq
    | infinite negative =>
      cases m with
      | whole m => cases heq
      | negativeZero => cases heq
      | infinite other =>
        cases heq
        rfl
  isNumberToken_toText n h := by
    cases n with
    | whole n => exact isNumberToken_dumpInt n
    | negativeZero => decide
    | infinite negative => cases h
  equals_ofToken n h := by
    cases n with
    | whole n =>
      have hzero : JsonText.dumpInt n ≠ ['-', '0'] := by
        intro heq
        have hvalue := JsonStrings.intOfToken_dumpInt n
        rw [heq] at hvalue
        rw [← hvalue] at heq
        exact absurd heq (by decide)
      have hint : JsonText.isIntToken (JsonText.dumpInt n) = true := by
        rw [JsonText.isIntToken, JsonStrings.unsigned_dumpInt]
        exact JsonStrings.isWhole_toDigits _
      simp only [if_neg hzero, if_pos hint, JsonStrings.intOfToken_dumpInt, decide_true]
    | negativeZero => decide
    | infinite negative => cases h

def sampleMembers : List (JsString × Value WholeNumber) :=
  [(units ['b'], .array [.number (.whole 10)]), (units ['a'], .null)]

def sampleValue : Value WholeNumber := .object sampleMembers

def sampleReversed : Value WholeNumber := .object sampleMembers.reverse

theorem sample_read : parse (stringify sampleValue) = some sampleValue := by
  have hwell : WellFormed sampleValue := ⟨by decide, ⟨trivial, trivial⟩, trivial, trivial⟩
  exact parse_stringify sampleValue hwell

theorem sample_reversed : parse (stringify sampleReversed) = some sampleReversed := by
  have hwell : WellFormed sampleReversed := ⟨by decide, trivial, ⟨trivial, trivial⟩, trivial⟩
  exact parse_stringify sampleReversed hwell

theorem canon_canonical_sample : canon sampleValue = canon sampleReversed := by
  have hsame : Same sampleValue sampleReversed :=
    ⟨(List.reverse_perm _).symm.map _, (sameMembers_iff _ _).mpr fun entry h =>
      ⟨entry.2, List.mem_reverse.mpr h, same_refl _⟩⟩
  exact (canon_canonical Sha256.sample sample_read sample_reversed
    ⟨_, sample_read, same_refl _⟩ ⟨_, sample_reversed, same_refl _⟩).1.mpr hsame

end Samples

end Decillion.BrowserReceipts

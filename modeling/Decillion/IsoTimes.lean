import Decillion.ByteText
import Mathlib.Data.List.Lex
import Mathlib.Tactic.NormNum

/-!
Instants of the calendar in the years 1 to 9999 and their texts. The fraction of a second is
left out when it is zero, so the texts differ in length; still the octets of two texts are
in the same order as the instants, since a plus sign comes before a point.
-/
namespace Decillion.IsoTimes

open ByteText

def isLeap (year : ℕ) : Bool := year % 4 = 0 ∧ (year % 100 ≠ 0 ∨ year % 400 = 0)

def daysInMonth (year month : ℕ) : ℕ :=
  if month = 2 then (if isLeap year then 29 else 28)
  else if month = 4 ∨ month = 6 ∨ month = 9 ∨ month = 11 then 30
  else 31

/-- A time in UTC. -/
structure Instant where
  year : ℕ
  month : ℕ
  day : ℕ
  hour : ℕ
  minute : ℕ
  second : ℕ
  micro : ℕ
  year_bounds : 1 ≤ year ∧ year ≤ 9999
  month_bounds : 1 ≤ month ∧ month ≤ 12
  day_bounds : 1 ≤ day ∧ day ≤ daysInMonth year month
  hour_lt : hour < 24
  minute_lt : minute < 60
  second_lt : second < 60
  micro_lt : micro < 1000000

def daysBeforeYear (year : ℕ) : ℕ :=
  (year - 1) * 365 + (year - 1) / 4 - (year - 1) / 100 + (year - 1) / 400

def daysBeforeMonth (year : ℕ) : ℕ → ℕ
  | 0 => 0
  | 1 => 0
  | month + 2 => daysBeforeMonth year (month + 1) + daysInMonth year (month + 1)

def ordinal (year month day : ℕ) : ℕ := daysBeforeYear year + daysBeforeMonth year month + day

/-- The microseconds since the last day before the year 1. -/
def Instant.micros (t : Instant) : ℕ :=
  (((ordinal t.year t.month t.day * 24 + t.hour) * 60 + t.minute) * 60 + t.second) * 1000000 +
    t.micro

/-- A number in decimal with leading zeros. -/
def padded : ℕ → ℕ → List Char
  | 0, _ => []
  | width + 1, n => padded width (n / 10) ++ [Nat.digitChar (n % 10)]

def fraction (micro : ℕ) : List Char :=
  (if micro = 0 then [] else '.' :: padded 6 micro) ++ ['+', '0', '0', ':', '0', '0']

/-- `isoformat` of a time in UTC. -/
def Instant.isoformat (t : Instant) : String :=
  String.ofList (padded 4 t.year ++ '-' :: (padded 2 t.month ++ '-' :: (padded 2 t.day ++
    'T' :: (padded 2 t.hour ++ ':' :: (padded 2 t.minute ++ ':' :: (padded 2 t.second ++
      fraction t.micro))))))

section Calendar

theorem div_succ (n k : ℕ) :
    (n + 1) / k = n / k + (if (n + 1) % k = 0 then 1 else 0) := by
  rw [Nat.succ_div]
  simp only [Nat.dvd_iff_mod_eq_zero]

theorem daysBeforeYear_succ {year : ℕ} (h : 1 ≤ year) :
    daysBeforeYear (year + 1) = daysBeforeYear year + 365 + (if isLeap year then 1 else 0) := by
  obtain ⟨k, rfl⟩ : ∃ k, year = k + 1 := ⟨year - 1, by omega⟩
  have hfour := div_succ k 4
  have hcentury := div_succ k 100
  have hcycle := div_succ k 400
  have hsmall : k / 100 ≤ k := Nat.div_le_self k 100
  have hmultiple : (k + 1) % 100 = 0 → (k + 1) % 4 = 0 := by omega
  have hmultiple' : (k + 1) % 400 = 0 → (k + 1) % 100 = 0 := by omega
  simp only [daysBeforeYear, isLeap, Nat.add_sub_cancel, decide_eq_true_eq, hfour, hcentury, hcycle]
  split_ifs <;> omega

theorem daysBeforeMonth_succ {year month : ℕ} (h : 1 ≤ month) :
    daysBeforeMonth year (month + 1) = daysBeforeMonth year month + daysInMonth year month := by
  obtain ⟨k, rfl⟩ : ∃ k, month = k + 1 := ⟨month - 1, by omega⟩
  rfl

theorem daysBeforeMonth_year (year : ℕ) :
    daysBeforeMonth year 13 = 365 + (if isLeap year then 1 else 0) := by
  simp only [daysBeforeMonth, daysInMonth]
  norm_num
  split <;> rfl

theorem daysBeforeMonth_mono (year : ℕ) {month later : ℕ} (h : 1 ≤ month) (hle : month ≤ later) :
    daysBeforeMonth year month ≤ daysBeforeMonth year later := by
  induction later, hle using Nat.le_induction with
  | base => exact le_rfl
  | succ k hk ih =>
    rw [daysBeforeMonth_succ (h.trans hk)]
    omega

/-- The days of a month come before those of a later one. -/
theorem ordinal_lt_of_month {year month later day day' : ℕ} (hmonth : 1 ≤ month)
    (hday : day ≤ daysInMonth year month) (hday' : 1 ≤ day') (hlt : month < later) :
    ordinal year month day < ordinal year later day' := by
  have hsucc : daysBeforeMonth year (month + 1) = _ := daysBeforeMonth_succ hmonth
  have hmono := daysBeforeMonth_mono year (Nat.le_add_left 1 month) hlt
  unfold ordinal
  omega

theorem daysBeforeYear_mono {year later : ℕ} (h : 1 ≤ year) (hle : year ≤ later) :
    daysBeforeYear year ≤ daysBeforeYear later := by
  induction later, hle using Nat.le_induction with
  | base => exact le_rfl
  | succ k hk ih =>
    rw [daysBeforeYear_succ (h.trans hk)]
    omega

/-- The days of a year come before those of a later one. -/
theorem ordinal_lt_of_year {year later month month' day day' : ℕ} (hyear : 1 ≤ year)
    (hmonth : 1 ≤ month ∧ month ≤ 12) (hday : day ≤ daysInMonth year month)
    (hday' : 1 ≤ day') (hlt : year < later) :
    ordinal year month day < ordinal later month' day' := by
  have hend : daysBeforeMonth year (month + 1) ≤ daysBeforeMonth year 13 :=
    daysBeforeMonth_mono year (Nat.le_add_left 1 month) (Nat.succ_le_succ hmonth.2)
  have hsucc : daysBeforeMonth year (month + 1) = _ := daysBeforeMonth_succ hmonth.1
  have hyears := daysBeforeYear_mono (Nat.le_add_left 1 year) hlt
  have hnext := daysBeforeYear_succ hyear
  have hmonths := daysBeforeMonth_year year
  unfold ordinal
  omega

/-- The instants of one day are ordered by their times, and the days by their dates. -/
def Instant.Before (t u : Instant) : Prop :=
  t.year < u.year ∨ t.year = u.year ∧ (t.month < u.month ∨ t.month = u.month ∧
    (t.day < u.day ∨ t.day = u.day ∧ (t.hour < u.hour ∨ t.hour = u.hour ∧
      (t.minute < u.minute ∨ t.minute = u.minute ∧ (t.second < u.second ∨
        t.second = u.second ∧ t.micro < u.micro)))))

theorem ordinal_lt {t u : Instant} (h : t.year < u.year ∨ t.year = u.year ∧
      (t.month < u.month ∨ t.month = u.month ∧ t.day < u.day)) :
    ordinal t.year t.month t.day < ordinal u.year u.month u.day := by
  rcases h with hyear | ⟨hyear, hmonth | ⟨hmonth, hday⟩⟩
  · exact ordinal_lt_of_year t.year_bounds.1 t.month_bounds t.day_bounds.2 u.day_bounds.1 hyear
  · rw [hyear]
    exact ordinal_lt_of_month t.month_bounds.1 (hyear ▸ t.day_bounds.2) u.day_bounds.1 hmonth
  · rw [hyear, hmonth]
    exact Nat.add_lt_add_left hday _

theorem micros_lt_of_before {t u : Instant} (h : t.Before u) : t.micros < u.micros := by
  have hhour := t.hour_lt
  have hminute := t.minute_lt
  have hsecond := t.second_lt
  have hmicro := t.micro_lt
  unfold Instant.micros
  rcases h with hyear | ⟨hyear, hmonth | ⟨hmonth, hday | ⟨hday, hclock⟩⟩⟩
  · have hordinal := ordinal_lt (Or.inl hyear)
    omega
  · have hordinal := ordinal_lt (Or.inr ⟨hyear, Or.inl hmonth⟩)
    omega
  · have hordinal := ordinal_lt (Or.inr ⟨hyear, Or.inr ⟨hmonth, hday⟩⟩)
    omega
  · rw [hyear, hmonth, hday]
    omega

theorem micros_lt_iff (t u : Instant) : t.micros < u.micros ↔ t.Before u := by
  refine ⟨fun hlt => ?_, micros_lt_of_before⟩
  by_contra hbefore
  have hback : u.Before t ∨ u.micros = t.micros := by
    by_cases hafter : u.Before t
    · exact Or.inl hafter
    · right
      unfold Instant.Before at hbefore hafter
      have hyear : u.year = t.year := by omega
      have hmonth : u.month = t.month := by omega
      have hday : u.day = t.day := by omega
      have hhour : u.hour = t.hour := by omega
      have hminute : u.minute = t.minute := by omega
      have hsecond : u.second = t.second := by omega
      have hmicro : u.micro = t.micro := by omega
      unfold Instant.micros
      rw [hyear, hmonth, hday, hhour, hminute, hsecond, hmicro]
  rcases hback with hback | hback
  · exact absurd (micros_lt_of_before hback) (by omega)
  · omega

end Calendar

section Texts

/-- The octet of a character in ASCII. -/
def code (c : Char) : UInt8 := UInt8.ofNat c.toNat

theorem utf8_ascii (cs : List Char) (h : ∀ c ∈ cs, c.toNat < 128) : utf8 cs = cs.map code := by
  induction cs with
  | nil => rfl
  | cons c rest ih =>
    have hc : c.val.toNat ≤ 0x7f := by
      have := h c (List.mem_cons_self ..)
      simp only [Char.toNat] at this
      omega
    have hone : String.utf8EncodeChar c = [code c] := by
      unfold String.utf8EncodeChar
      simp only [hc, if_true]
      rfl
    have hrest := ih (fun d hd => h d (List.mem_cons_of_mem _ hd))
    rw [utf8] at hrest ⊢
    rw [List.flatMap_cons, hone, hrest]
    rfl

theorem toNat_code_digitChar (d : ℕ) (h : d < 10) : (code (Nat.digitChar d)).toNat = 48 + d := by
  revert d
  decide

theorem padded_ascii (width n : ℕ) : ∀ c ∈ padded width n, c.toNat < 128 := by
  have hdigit : ∀ d, d < 10 → (Nat.digitChar d).toNat < 128 := by decide
  induction width generalizing n with
  | zero => simp [padded]
  | succ width ih =>
    intro c hc
    rw [padded, List.mem_append, List.mem_singleton] at hc
    rcases hc with hc | rfl
    · exact ih _ c hc
    · exact hdigit _ (Nat.mod_lt _ (by decide))

/-- Texts that begin with numbers of one width are ordered by these numbers first. -/
theorem padded_lt_iff (width : ℕ) {n m : ℕ} (hn : n < 10 ^ width) (hm : m < 10 ^ width)
    (s t : List UInt8) :
    (padded width n).map code ++ s < (padded width m).map code ++ t ↔ n < m ∨ n = m ∧ s < t := by
  induction width generalizing n m s t with
  | zero =>
    obtain rfl : n = 0 := by simpa using hn
    obtain rfl : m = 0 := by simpa using hm
    simp [padded]
  | succ width ih =>
    have hn' : n / 10 < 10 ^ width := Nat.div_lt_of_lt_mul (by rwa [pow_succ, mul_comm] at hn)
    have hm' : m / 10 < 10 ^ width := Nat.div_lt_of_lt_mul (by rwa [pow_succ, mul_comm] at hm)
    have hlast := toNat_code_digitChar (n % 10) (Nat.mod_lt _ (by decide))
    have hlast' := toNat_code_digitChar (m % 10) (Nat.mod_lt _ (by decide))
    simp only [padded, List.map_append, List.map_cons, List.map_nil, List.append_assoc,
      List.cons_append, List.nil_append]
    rw [ih hn' hm', List.cons_lt_cons_iff, UInt8.lt_iff_toNat_lt, ← UInt8.toNat_inj, hlast, hlast']
    constructor
    · rintro (h | ⟨h, h' | ⟨h', hrest⟩⟩)
      · exact Or.inl (by omega)
      · exact Or.inl (by omega)
      · exact Or.inr ⟨by omega, hrest⟩
    · rintro (h | ⟨rfl, hrest⟩)
      · by_cases hdiv : n / 10 < m / 10
        · exact Or.inl hdiv
        · exact Or.inr ⟨by omega, Or.inl (by omega)⟩
      · exact Or.inr ⟨rfl, Or.inr ⟨rfl, hrest⟩⟩

theorem separator_lt_iff (c : Char) (s t : List UInt8) :
    code c :: s < code c :: t ↔ s < t := List.cons_lt_cons_self

/-- A fraction begins with a point, which comes after the plus sign. -/
theorem fraction_lt_iff {n m : ℕ} (hn : n < 1000000) (hm : m < 1000000) :
    (fraction n).map code < (fraction m).map code ↔ n < m := by
  have hplus : ∀ s t : List UInt8, code '+' :: s < code '.' :: t :=
    fun s t => List.cons_lt_cons_iff.mpr (Or.inl (by decide))
  have hpoint : ∀ s t : List UInt8, ¬ code '.' :: s < code '+' :: t := by
    intro s t h
    rcases List.cons_lt_cons_iff.mp h with h | ⟨h, -⟩
    · exact absurd h (by decide)
    · exact absurd h (by decide)
  by_cases hzero : n = 0 <;> by_cases hzero' : m = 0
  · rw [hzero, hzero']
    exact iff_of_false (List.lt_irrefl _) (lt_irrefl _)
  · rw [hzero, fraction, fraction, if_pos rfl, if_neg hzero']
    exact iff_of_true (hplus _ _) (by omega)
  · rw [hzero', fraction, fraction, if_pos rfl, if_neg hzero]
    exact iff_of_false (hpoint _ _) (by omega)
  · rw [fraction, fraction, if_neg hzero, if_neg hzero']
    simp only [List.cons_append, List.map_cons, List.map_append, separator_lt_iff]
    rw [padded_lt_iff 6 (by omega) (by omega)]
    exact ⟨fun h => h.elim id (fun h => absurd h.2 (List.lt_irrefl _)), Or.inl⟩

theorem isoformat_encoded (t : Instant) : encode t.isoformat =
    (padded 4 t.year).map code ++ code '-' :: ((padded 2 t.month).map code ++
      code '-' :: ((padded 2 t.day).map code ++ code 'T' :: ((padded 2 t.hour).map code ++
        code ':' :: ((padded 2 t.minute).map code ++ code ':' :: ((padded 2 t.second).map code ++
          (fraction t.micro).map code))))) := by
  have hoffset : ∀ c ∈ ['+', '0', '0', ':', '0', '0'], c.toNat < 128 := by
    have hall : ['+', '0', '0', ':', '0', '0'].all (fun c => decide (c.toNat < 128)) = true := rfl
    exact fun c hc => of_decide_eq_true (List.all_eq_true.mp hall c hc)
  have hfraction : ∀ c ∈ fraction t.micro, c.toNat < 128 := by
    intro c hc
    unfold fraction at hc
    rcases List.mem_append.mp hc with hc | hc
    · split at hc
      · cases hc
      · rcases List.mem_cons.mp hc with rfl | hc
        · decide
        · exact padded_ascii _ _ c hc
    · exact hoffset c hc
  rw [Instant.isoformat, encode_ofList, utf8_ascii]
  · simp only [List.map_append, List.map_cons]
  · intro c hc
    simp only [List.mem_append, List.mem_cons] at hc
    rcases hc with hc | rfl | hc | rfl | hc | rfl | hc | rfl | hc | rfl | hc | hc
    all_goals first | exact padded_ascii _ _ c hc | exact hfraction c hc | decide

/-- The octets of two texts are in the same order as the instants. -/
theorem isoformat_lt_iff (t u : Instant) :
    encode t.isoformat < encode u.isoformat ↔ t.micros < u.micros := by
  have hyear : ∀ t : Instant, t.year < 10 ^ 4 := by
    intro t
    have hbounds := t.year_bounds
    omega
  have hmonth : ∀ t : Instant, t.month < 10 ^ 2 := by
    intro t
    have hbounds := t.month_bounds
    omega
  have hday : ∀ t : Instant, t.day < 10 ^ 2 := by
    intro t
    have hbounds := t.day_bounds
    unfold daysInMonth at hbounds
    split_ifs at hbounds <;> omega
  have hhour : ∀ t : Instant, t.hour < 10 ^ 2 := fun t => t.hour_lt.trans (by decide)
  have hminute : ∀ t : Instant, t.minute < 10 ^ 2 := fun t => t.minute_lt.trans (by decide)
  have hsecond : ∀ t : Instant, t.second < 10 ^ 2 := fun t => t.second_lt.trans (by decide)
  rw [isoformat_encoded, isoformat_encoded, padded_lt_iff 4 (hyear t) (hyear u), separator_lt_iff,
    padded_lt_iff 2 (hmonth t) (hmonth u), separator_lt_iff, padded_lt_iff 2 (hday t) (hday u),
    separator_lt_iff, padded_lt_iff 2 (hhour t) (hhour u), separator_lt_iff,
    padded_lt_iff 2 (hminute t) (hminute u), separator_lt_iff,
    padded_lt_iff 2 (hsecond t) (hsecond u), fraction_lt_iff t.micro_lt u.micro_lt,
    micros_lt_iff, Instant.Before]

end Texts

end Decillion.IsoTimes

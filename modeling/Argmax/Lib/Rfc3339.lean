import Mathlib.Data.Nat.Find
import Mathlib.Algebra.GroupWithZero.Nat

/-!
# Instants as RFC 3339 text

An instant is a number of milliseconds since the start of year 0 in the proleptic
Gregorian calendar. It is written in UTC with milliseconds, every field of a fixed
width, so within the years of four digits the order of the texts is the order of the
instants. A year beyond is written with a sign and sorts before all of them.
-/

namespace Argmax.Lib.Rfc3339

/-! ## The calendar -/

/-- The days before a year begins. -/
def yearStart (year : ℕ) : ℕ :=
  365 * year + (year + 3) / 4 - (year + 99) / 100 + (year + 399) / 400

def isLeap (year : ℕ) : Bool := year % 4 == 0 && (year % 100 != 0 || year % 400 == 0)

/-- The days of a year before its month begins; months count from zero. -/
def monthStart (leap : Bool) (month : ℕ) : ℕ :=
  [0, 31, 59, 90, 120, 151, 181, 212, 243, 273, 304, 334].getD month 0 +
    if leap && 2 ≤ month then 1 else 0

/-- The last year that has begun on a day. -/
def yearOf (day : ℕ) : ℕ := Nat.findGreatest (fun year => yearStart year ≤ day) (day / 365)

/-- The last month of a year that has begun on one of its days. -/
def monthOf (leap : Bool) (dayOfYear : ℕ) : ℕ :=
  Nat.findGreatest (fun month => monthStart leap month ≤ dayOfYear) 11

/-- Year, month, day, hour, minute, second and millisecond. -/
def fields (instant : ℕ) : List ℕ :=
  let day := instant / 86400000
  let rest := instant % 86400000
  let year := yearOf day
  let dayOfYear := day - yearStart year
  let month := monthOf (isLeap year) dayOfYear
  [year, month + 1, dayOfYear - monthStart (isLeap year) month + 1, rest / 3600000,
    rest / 60000 % 60, rest / 1000 % 60, rest % 1000]

/-- The first instant of year 10000. -/
def fourDigitEnd : ℕ := yearStart 10000 * 86400000

theorem yearStart_succ (year : ℕ) : yearStart year + 365 ≤ yearStart (year + 1) := by
  rw [yearStart, yearStart]
  omega

theorem yearStart_mono {year year' : ℕ} (h : year ≤ year') : yearStart year ≤ yearStart year' := by
  induction h with
  | refl => exact Nat.le_refl _
  | step _ ih => exact Nat.le_trans ih (Nat.le_of_add_right_le (yearStart_succ _))

theorem le_yearStart (year : ℕ) : 365 * year ≤ yearStart year := by
  rw [yearStart]
  omega

theorem yearStart_yearOf (day : ℕ) : yearStart (yearOf day) ≤ day :=
  Nat.findGreatest_spec (m := 0) (P := fun year => yearStart year ≤ day) (Nat.zero_le _)
    (Nat.zero_le _)

theorem le_yearOf {year day : ℕ} (h : yearStart year ≤ day) : year ≤ yearOf day := by
  have hle := le_yearStart year
  exact Nat.le_findGreatest (by omega) h

theorem yearOf_mono {day day' : ℕ} (h : day ≤ day') : yearOf day ≤ yearOf day' :=
  le_yearOf (Nat.le_trans (yearStart_yearOf day) h)

theorem lt_yearStart_succ (day : ℕ) : day < yearStart (yearOf day + 1) := by
  by_contra h
  have hle := le_yearOf (Nat.not_lt.mp h)
  omega

theorem monthStart_monthOf (leap : Bool) (dayOfYear : ℕ) :
    monthStart leap (monthOf leap dayOfYear) ≤ dayOfYear := by
  refine Nat.findGreatest_spec (m := 0) (P := fun month => monthStart leap month ≤ dayOfYear)
    (Nat.zero_le _) ?_
  cases leap <;> exact Nat.zero_le _

theorem monthOf_mono (leap : Bool) {day day' : ℕ} (h : day ≤ day') :
    monthOf leap day ≤ monthOf leap day' :=
  Nat.le_findGreatest (Nat.findGreatest_le _) (Nat.le_trans (monthStart_monthOf leap day) h)

theorem monthOf_le (leap : Bool) (day : ℕ) : monthOf leap day ≤ 11 := Nat.findGreatest_le _

theorem monthStart_succ_le (leap : Bool) :
    ∀ month < 11, monthStart leap (month + 1) ≤ monthStart leap month + 31 := by
  cases leap <;> decide

/-- A month has no more than thirty-one days. -/
theorem day_lt (leap : Bool) {dayOfYear : ℕ} (h : dayOfYear < 366) :
    dayOfYear - monthStart leap (monthOf leap dayOfYear) < 32 := by
  have hle := monthOf_le leap dayOfYear
  by_cases hlast : monthOf leap dayOfYear = 11
  · have hdecember : 334 ≤ monthStart leap 11 := by cases leap <;> decide
    rw [hlast]
    omega
  · have hnext := Nat.findGreatest_is_greatest (P := fun month => monthStart leap month ≤ dayOfYear)
      (n := 11) (k := monthOf leap dayOfYear + 1) (Nat.lt_succ_self _) (by omega)
    have hlength := monthStart_succ_le leap (monthOf leap dayOfYear) (by omega)
    omega

theorem dayOfYear_lt (day : ℕ) : day - yearStart (yearOf day) < 366 := by
  have hlt := lt_yearStart_succ day
  have hlength : yearStart (yearOf day + 1) ≤ yearStart (yearOf day) + 366 := by
    rw [yearStart, yearStart]
    omega
  omega

theorem yearOf_lt {instant : ℕ} (h : instant < fourDigitEnd) :
    yearOf (instant / 86400000) < 10000 := by
  have hday : instant / 86400000 < yearStart 10000 :=
    (Nat.div_lt_iff_lt_mul (by decide)).mpr h
  have hbegun := yearStart_yearOf (instant / 86400000)
  rw [← Nat.not_le]
  intro hlate
  exact absurd (Nat.le_trans (yearStart_mono hlate) hbegun) (Nat.not_le.mpr hday)

/-! ## The order of the fields -/

/-- An earlier instant has the smaller fields, compared in their order. -/
theorem fields_lt {instant instant' : ℕ} (h : instant < instant') :
    fields instant < fields instant' := by
  have hday : instant / 86400000 ≤ instant' / 86400000 := Nat.div_le_div_right (Nat.le_of_lt h)
  have hyear := yearOf_mono hday
  simp only [fields, List.cons_lt_cons_iff]
  by_cases hsameYear : yearOf (instant / 86400000) = yearOf (instant' / 86400000)
  · refine Or.inr ⟨hsameYear, ?_⟩
    have hbegun := yearStart_yearOf (instant / 86400000)
    rw [hsameYear] at hbegun ⊢
    revert hbegun
    generalize yearStart (yearOf (instant' / 86400000)) = begun
    generalize isLeap (yearOf (instant' / 86400000)) = leap
    intro hbegun
    have hmonth := monthOf_mono leap (Nat.sub_le_sub_right hday begun)
    by_cases hsameMonth : monthOf leap (instant / 86400000 - begun) =
        monthOf leap (instant' / 86400000 - begun)
    · refine Or.inr ⟨by rw [hsameMonth], ?_⟩
      have hfrom := monthStart_monthOf leap (instant / 86400000 - begun)
      rw [hsameMonth] at hfrom ⊢
      by_cases hsameDay : instant / 86400000 = instant' / 86400000
      · rw [hsameDay]
        refine Or.inr ⟨rfl, ?_⟩
        omega
      · exact Or.inl (by omega)
    · exact Or.inl (by omega)
  · exact Or.inl (by omega)

/-! ## The text -/

/-- The last digits of a number, as many as the width says. -/
def digits : ℕ → ℕ → List Char
  | 0, _ => []
  | width + 1, n => digits width (n / 10) ++ [Nat.digitChar (n % 10)]

/-- The widths of the fields and what follows each. -/
def template : List (ℕ × Char) :=
  [(4, '-'), (2, '-'), (2, 'T'), (2, ':'), (2, ':'), (2, '.'), (3, 'Z')]

def render : List (ℕ × Char) → List ℕ → List Char
  | (width, sep) :: template, value :: values =>
    digits width value ++ sep :: render template values
  | _, _ => []

/-- The text of an instant: a year of more than four digits is written with its sign. -/
def text (instant : ℕ) : List Char :=
  if instant < fourDigitEnd then render template (fields instant)
  else '+' :: render ((5, '-') :: template.tail) (fields instant)

theorem length_digits (width n : ℕ) : (digits width n).length = width := by
  induction width generalizing n with
  | zero => rfl
  | succ width ih => simp [digits, ih]

/-- Texts of one length are compared before what follows them. -/
theorem append_lt_append {a b : List Char} (hlen : a.length = b.length) (h : a < b)
    (x y : List Char) : a ++ x < b ++ y := by
  induction a generalizing b with
  | nil =>
    cases b with
    | nil => exact absurd h (List.lt_irrefl [])
    | cons c b => simp at hlen
  | cons c a ih =>
    cases b with
    | nil => simp at hlen
    | cons d b =>
      simp only [List.cons_append, List.cons_lt_cons_iff] at h ⊢
      rcases h with h | ⟨rfl, h⟩
      · exact Or.inl h
      · exact Or.inr ⟨rfl, ih (by simpa using hlen) h⟩

theorem digitChar_lt : ∀ m < 10, ∀ n < m, Nat.digitChar n < Nat.digitChar m := by decide

theorem digits_lt {width n m : ℕ} (h : n < m) (hm : m < 10 ^ width) :
    digits width n < digits width m := by
  induction width generalizing n m with
  | zero => omega
  | succ width ih =>
    rw [digits]
    by_cases hsame : n / 10 = m / 10
    · rw [hsame]
      refine List.append_left_lt ?_
      simp only [List.cons_lt_cons_iff]
      exact Or.inl (digitChar_lt _ (Nat.mod_lt _ (by decide)) _ (by omega))
    · refine append_lt_append (by simp [length_digits]) (ih (by omega) ?_) _ _
      exact (Nat.div_lt_iff_lt_mul (by decide)).mpr hm

/-- Every value fits its field. -/
def Fits : List (ℕ × Char) → List ℕ → Prop
  | (width, _) :: template, value :: values => value < 10 ^ width ∧ Fits template values
  | [], [] => True
  | _, _ => False

theorem render_lt {template : List (ℕ × Char)} {values values' : List ℕ}
    (h : values < values') (hfits : Fits template values) (hfits' : Fits template values') :
    render template values < render template values' := by
  induction template generalizing values values' with
  | nil =>
    cases values with
    | nil =>
      cases values' with
      | nil => exact absurd h (List.lt_irrefl [])
      | cons _ _ => exact hfits'.elim
    | cons _ _ => exact hfits.elim
  | cons field template ih =>
    cases values with
    | nil => exact hfits.elim
    | cons value values =>
      cases values' with
      | nil => exact hfits'.elim
      | cons value' values' =>
        rw [List.cons_lt_cons_iff] at h
        rcases h with h | ⟨rfl, h⟩
        · exact append_lt_append (by simp [length_digits]) (digits_lt h hfits'.1) _ _
        · refine List.append_left_lt ?_
          simp only [List.cons_lt_cons_iff]
          exact Or.inr ⟨trivial, ih h hfits.2 hfits'.2⟩

theorem fields_fit {instant : ℕ} (h : instant < fourDigitEnd) : Fits template (fields instant) := by
  have hyear := yearOf_lt h
  have hmonth := monthOf_le (isLeap (yearOf (instant / 86400000)))
    (instant / 86400000 - yearStart (yearOf (instant / 86400000)))
  have hday := day_lt (isLeap (yearOf (instant / 86400000))) (dayOfYear_lt (instant / 86400000))
  refine ⟨by omega, by omega, by omega, by omega, by omega, by omega, by omega, trivial⟩

/-- **The order of the texts is the order of the instants**, up to year 9999. -/
theorem text_lt {instant instant' : ℕ} (h : instant < instant')
    (hend : instant' < fourDigitEnd) : text instant < text instant' := by
  have hend' : instant < fourDigitEnd := Nat.lt_trans h hend
  rw [text, text, if_pos hend', if_pos hend]
  exact render_lt (fields_lt h) (fields_fit hend') (fields_fit hend)

theorem text_lt_iff {instant instant' : ℕ} (h : instant < fourDigitEnd)
    (h' : instant' < fourDigitEnd) : text instant < text instant' ↔ instant < instant' := by
  refine ⟨fun hlt => ?_, fun hlt => text_lt hlt h'⟩
  by_contra hge
  rcases Nat.eq_or_lt_of_le (Nat.not_lt.mp hge) with heq | hgt
  · rw [heq] at hlt
    exact List.lt_irrefl _ hlt
  · exact List.lt_irrefl _ (List.lt_trans hlt (text_lt hgt h))

/-! ## Reading it back -/

def ofDigits (text : List Char) : ℕ := text.foldl (fun n c => 10 * n + (c.toNat - 48)) 0

/-- Read the fields of a template, each with what follows it. -/
def scan : List (ℕ × Char) → List Char → Option (List ℕ)
  | [], [] => some []
  | [], _ :: _ => none
  | (width, sep) :: template, text =>
    if (text.drop width).head? = some sep then
      (scan template (text.drop (width + 1))).map (ofDigits (text.take width) :: ·)
    else none

/-- The instant with these fields. -/
def ofFields : List ℕ → Option ℕ
  | [year, month, day, hour, minute, second, milli] =>
    some ((yearStart year + monthStart (isLeap year) (month - 1) + (day - 1)) * 86400000 +
      hour * 3600000 + minute * 60000 + second * 1000 + milli)
  | _ => none

/-- Read a text of this form: one that an instant is written as. -/
def parse (written : List Char) : Option ℕ :=
  ((scan template written).bind ofFields).filter fun instant => text instant == written

theorem ofDigits_digits {width n : ℕ} (h : n < 10 ^ width) : ofDigits (digits width n) = n := by
  induction width generalizing n with
  | zero =>
    have hn : n = 0 := by omega
    rw [hn]
    rfl
  | succ width ih =>
    have hdigit : ∀ d < 10, (Nat.digitChar d).toNat - 48 = d := by decide
    have hdiv : n / 10 < 10 ^ width := by
      exact (Nat.div_lt_iff_lt_mul (by decide)).mpr h
    have hprefix := ih hdiv
    rw [ofDigits] at hprefix ⊢
    rw [digits, List.foldl_append, List.foldl_cons, List.foldl_nil,
      hdigit _ (Nat.mod_lt _ (by decide))]
    omega

theorem scan_render {template : List (ℕ × Char)} {values : List ℕ}
    (h : Fits template values) : scan template (render template values) = some values := by
  induction template generalizing values with
  | nil =>
    cases values with
    | nil => rfl
    | cons _ _ => exact h.elim
  | cons field template ih =>
    have ⟨width, sep⟩ := field
    cases values with
    | nil => exact h.elim
    | cons value values =>
      have hlen := length_digits width value
      have hrest : (digits width value ++ sep :: render template values).drop (width + 1) =
          render template values := by
        rw [List.drop_append, List.drop_of_length_le (by omega), hlen, Nat.add_sub_cancel_left]
        rfl
      rw [render, scan, List.drop_left' hlen, List.take_left' hlen, hrest, ih h.2,
        ofDigits_digits h.1]
      simp

theorem ofFields_fields (instant : ℕ) : ofFields (fields instant) = some instant := by
  have hyear := yearStart_yearOf (instant / 86400000)
  have hmonth := monthStart_monthOf (isLeap (yearOf (instant / 86400000)))
    (instant / 86400000 - yearStart (yearOf (instant / 86400000)))
  simp only [fields, ofFields, Option.some.injEq, Nat.add_sub_cancel]
  omega

/-- **What is written is read back**, up to year 9999. -/
theorem parse_text {instant : ℕ} (h : instant < fourDigitEnd) :
    parse (text instant) = some instant := by
  have hscan : scan template (text instant) = some (fields instant) := by
    rw [text, if_pos h]
    exact scan_render (fields_fit h)
  rw [parse, hscan, Option.bind_some, ofFields_fields]
  simp

example : text 62167219200000 = "1970-01-01T00:00:00.000Z".toList := by decide +kernel

example : text 63908707503042 = "2025-03-09T02:45:03.042Z".toList := by decide +kernel

end Argmax.Lib.Rfc3339

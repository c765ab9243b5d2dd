import Mathlib.Algebra.Group.Nat.Defs
import Statechart.Time

/-!
# Instants read back

The date of a day number has that number, and the text of a proper instant is read as the instant. A
day of an era of 400 years is counted by the century, the four years, the year and the day of a year
that begins in March.
-/

namespace Statechart.Instant

/-! ## Dates -/

/-- A day of an era. Only the last of four years has a day 365, and the last of a century only at
the end of the era. -/
structure EraDay (c q y r : Int) : Prop where
  century : 0 ≤ c ∧ c ≤ 3
  fourYears : 0 ≤ q ∧ q ≤ 24
  year : 0 ≤ y ∧ y ≤ 3
  day : 0 ≤ r ∧ r ≤ 365
  leap : r = 365 → y = 3 ∧ (q = 24 → c = 3)

theorem exists_eraDay {d : Int} (h0 : 0 ≤ d) (h : d < 146097) :
    ∃ c q y r, EraDay c q y r ∧ d = 36524 * c + 1461 * q + 365 * y + r := by
  obtain ⟨c, e, hc0, hc, he0, he, hd⟩ : ∃ c e : Int, 0 ≤ c ∧ c ≤ 3 ∧ 0 ≤ e ∧
      (e ≤ 36523 ∨ c = 3 ∧ e = 36524) ∧ d = 36524 * c + e :=
    ⟨min (d / 36524) 3, d - 36524 * min (d / 36524) 3, by omega⟩
  obtain ⟨q, f, hq0, hq, hf0, hf, he'⟩ : ∃ q f : Int, 0 ≤ q ∧ q ≤ 24 ∧ 0 ≤ f ∧ f ≤ 1460 ∧
      e = 1461 * q + f :=
    ⟨e / 1461, e % 1461, by omega⟩
  obtain ⟨y, r, hy0, hy, hr0, hr, hf'⟩ : ∃ y r : Int, 0 ≤ y ∧ y ≤ 3 ∧ 0 ≤ r ∧
      (r ≤ 364 ∨ y = 3 ∧ r = 365) ∧ f = 365 * y + r :=
    ⟨min (f / 365) 3, f - 365 * min (f / 365) 3, by omega⟩
  exact ⟨c, q, y, r, ⟨⟨hc0, hc⟩, ⟨hq0, hq⟩, ⟨hy0, hy⟩, ⟨hr0, by omega⟩, by omega⟩, by omega⟩

/-- The year of the era: the leap days before are taken out of the day, and what is left is counted
in years. -/
theorem EraDay.yearOfEra {c q y r d : Int} (h : EraDay c q y r)
    (hd : d = 36524 * c + 1461 * q + 365 * y + r) :
    (d - d / 1460 + d / 36524 - d / 146096) / 365 = 100 * c + 4 * q + y := by
  obtain ⟨hc, hq, hy, hr, hleap⟩ := h
  have hcentury : d / 36524 = c ∨ (c = 3 ∧ q = 24 ∧ y = 3 ∧ r = 365) := by omega
  have hera : d / 146096 = if c = 3 ∧ q = 24 ∧ y = 3 ∧ r = 365 then 1 else 0 := by split <;> omega
  have hfour : d / 1460 = 25 * c + q + (24 * c + q + 365 * y + r) / 1460 := by omega
  omega

theorem EraDay.leapDays {c q y r : Int} (h : EraDay c q y r) :
    (100 * c + 4 * q + y) / 4 = 25 * c + q := by
  obtain ⟨hc, hq, hy, -, -⟩ := h
  omega

theorem EraDay.centuries {c q y r : Int} (h : EraDay c q y r) :
    (100 * c + 4 * q + y) / 100 = c := by
  obtain ⟨hc, hq, hy, -, -⟩ := h
  omega

/-- The month of a day of the year. -/
def monthOfDay (r : Nat) : Nat :=
  if (5 * r + 2) / 153 < 10 then (5 * r + 2) / 153 + 3 else (5 * r + 2) / 153 - 9

/-- The day in that month. -/
def dayOfMonth (r : Nat) : Nat := r - (153 * ((5 * r + 2) / 153) + 2) / 5 + 1

/-- The date of a day by its place in the era. January and February are in the next year. -/
theorem exists_dateOfDay (n : Int) :
    ∃ (era c q y : Int) (r : Nat), EraDay c q y r ∧
    n = era * 146097 + (36524 * c + 1461 * q + 365 * y + r) - 719468 ∧
    dateOfDay n = (if monthOfDay r ≤ 2 then 100 * c + 4 * q + y + era * 400 + 1
      else 100 * c + 4 * q + y + era * 400,
      monthOfDay r, dayOfMonth r) := by
  obtain ⟨era, d, hera, hd0, hd, hn⟩ : ∃ era d : Int, (n + 719468).fdiv 146097 = era ∧
      0 ≤ d ∧ d < 146097 ∧ n = era * 146097 + d - 719468 := by
    refine ⟨_, n + 719468 - (n + 719468).fdiv 146097 * 146097, rfl, ?_⟩
    rw [Int.fdiv_eq_ediv_of_nonneg _ (by decide)]
    omega
  obtain ⟨c, q, y, r, h, hd'⟩ := exists_eraDay hd0 hd
  obtain ⟨r, rfl⟩ := Int.eq_ofNat_of_zero_le h.day.1
  refine ⟨era, c, q, y, r, h, by omega, ?_⟩
  have hday : n + 719468 - era * 146097 = d := by omega
  have hyear :
      (d - (365 * (100 * c + 4 * q + y) +
      (100 * c + 4 * q + y) / 4 - (100 * c + 4 * q + y) / 100)).toNat =
      r := by
    rw [h.leapDays, h.centuries]
    omega
  unfold dateOfDay
  dsimp only
  rw [hera, hday, h.yearOfEra hd', hyear]
  rfl

/-- The date of a day has the number of the day. -/
theorem dayOfDate_dateOfDay (n : Int) :
    dayOfDate (dateOfDay n).1 (dateOfDay n).2.1 (dateOfDay n).2.2 = n := by
  obtain ⟨era, c, q, y, r, h, hn, hdate⟩ := exists_dateOfDay n
  have hr := h.day.2
  have hleap := h.leapDays
  have hcenturies := h.centuries
  obtain ⟨hc, hq, hy, -, -⟩ := h
  -- Whether the date is in the next year or not, counting from March gives the year of the era.
  obtain ⟨hera, hyear⟩ : (100 * c + 4 * q + y + era * 400).fdiv 400 = era ∧
      100 * c + 4 * q + y + era * 400 - era * 400 = 100 * c + 4 * q + y := by
    rw [Int.fdiv_eq_ediv_of_nonneg _ (by decide)]
    omega
  have hshift : (if monthOfDay r ≤ 2 then (dateOfDay n).1 - 1 else (dateOfDay n).1) =
      100 * c + 4 * q + y + era * 400 := by
    rw [hdate]
    split <;> omega
  have hmonth : (monthOfDay r + 9) % 12 = (5 * r + 2) / 153 := by
    rw [monthOfDay]
    split <;> omega
  have hday : (153 * ((monthOfDay r + 9) % 12) + 2) / 5 + dayOfMonth r - 1 = r := by
    rw [hmonth, dayOfMonth]
    omega
  rw [dayOfDate]
  rw [hdate] at hshift ⊢
  dsimp only at hshift ⊢
  rw [hshift, hera, hyear, hleap, hcenturies, hday]
  omega

/-- The days of a year lie in its months, day 365 in that of a leap year. -/
theorem dayOfMonth_le :
    ∀ r < 366, 1 ≤ monthOfDay r ∧ monthOfDay r ≤ 12 ∧
    dayOfMonth r ≤ daysInMonth 0 (monthOfDay r) ∧
    (r < 365 → dayOfMonth r ≤ daysInMonth 1 (monthOfDay r)) := by
  decide +kernel

theorem daysInMonth_of_leap {year : Int} (h : isLeapYear year) (m : Nat) :
    daysInMonth year m = daysInMonth 0 m := by
  have hzero : isLeapYear 0 = true := rfl
  unfold daysInMonth
  rw [h, hzero]

theorem daysInMonth_le (year : Int) (m : Nat) : daysInMonth year m ≤ 31 := by
  unfold daysInMonth
  split
  case h_1 => split <;> decide
  all_goals decide

theorem daysInMonth_one_le (year : Int) (m : Nat) : daysInMonth 1 m ≤ daysInMonth year m := by
  unfold daysInMonth
  split <;> simp [isLeapYear]
  split <;> decide

/-- A day 365 ends a leap year. -/
theorem EraDay.isLeapYear {c q y : Int} (h : EraDay c q y 365) (era : Int) :
    isLeapYear (100 * c + 4 * q + y + era * 400 + 1) := by
  obtain ⟨hc, hq, hy, -, hleap⟩ := h
  obtain ⟨rfl, hq'⟩ := hleap rfl
  have hfour : (100 * c + 4 * q + 3 + era * 400 + 1) % 4 = 0 := by omega
  have hcentury : (100 * c + 4 * q + 3 + era * 400 + 1) % 100 = 0 →
      (100 * c + 4 * q + 3 + era * 400 + 1) % 400 = 0 := by
    omega
  rw [Instant.isLeapYear, hfour]
  by_cases h : (100 * c + 4 * q + 3 + era * 400 + 1) % 100 = 0
  · simp [hcentury h]
  · simp [h]

/-- It is a date of the calendar. -/
theorem dateOfDay_mem (n : Int) :
    1 ≤ (dateOfDay n).2.1 ∧ (dateOfDay n).2.1 ≤ 12 ∧ 1 ≤ (dateOfDay n).2.2 ∧
    (dateOfDay n).2.2 ≤ daysInMonth (dateOfDay n).1 (dateOfDay n).2.1 := by
  obtain ⟨era, c, q, y, r, h, -, hdate⟩ := exists_dateOfDay n
  have hr := h.day.2
  obtain ⟨hfirst, hlast, hleap, hcommon⟩ := dayOfMonth_le r (by omega)
  rw [hdate]
  refine ⟨hfirst, hlast, Nat.le_add_left 1 _, ?_⟩
  dsimp only
  by_cases hend : r = 365
  · subst hend
    rw [if_pos (by decide), daysInMonth_of_leap (h.isLeapYear era)]
    exact hleap
  · exact Nat.le_trans (hcommon (by omega)) (daysInMonth_one_le _ _)

/-! ## Numbers in a text -/

variable {cs ds rest : List Char} {width : Option Nat} {w n : Nat}

theorem isBlank_of_isDigit {c : Char} (h : c.isDigit) : Text.isBlank c = false := by
  obtain ⟨hlow, hhigh⟩ : 48 ≤ c.toNat ∧ c.toNat ≤ 57 := by
    simpa [Char.isDigit, UInt32.le_iff_toNat_le] using h
  simp only [Text.isBlank, Bool.or_eq_false_iff, Bool.and_eq_false_iff, decide_eq_false_iff_not,
    beq_eq_false_iff_ne]
  omega

theorem skipBlank_digits (hds : ∀ c ∈ ds, c.isDigit) (hne : ds ≠ []) :
    Text.skipBlank (ds ++ rest) = ds ++ rest := by
  cases ds with
  | nil => exact absurd rfl hne
  | cons c ds =>
    have hblank := isBlank_of_isDigit (hds c List.mem_cons_self)
    rw [Text.skipBlank, List.cons_append, List.dropWhile_cons_of_neg (by rw [hblank]; decide)]

theorem foldl_digits (ds : List Char) :
    ds.foldl (fun n c => n * 10 + (c.toNat - '0'.toNat)) 0 = Nat.ofDigitChars 10 ds 0 := by
  simp only [Nat.ofDigitChars_eq_foldl, Nat.mul_comm]

/-- Digits are read up to the width, whatever follows. -/
theorem number?_width (hds : ∀ c ∈ ds, c.isDigit) (hne : ds ≠ []) (hwidth : ds.length = w) :
    number? (some w) (ds ++ rest) = some (Nat.ofDigitChars 10 ds 0, rest) := by
  have hrun : ((ds ++ rest).takeWhile Char.isDigit).take w = ds := by
    rw [List.takeWhile_append_of_pos hds, List.take_left' hwidth]
  unfold number?
  dsimp only
  rw [hrun, if_neg (by simpa using hne), foldl_digits, List.drop_left]

/-- Without a width, or within it, they are read up to where they end. -/
theorem number?_end (hds : ∀ c ∈ ds, c.isDigit) (hne : ds ≠ [])
    (hwidth : ∀ w ∈ width, ds.length ≤ w) (hend : rest.takeWhile Char.isDigit = []) :
    number? width (ds ++ rest) = some (Nat.ofDigitChars 10 ds 0, rest) := by
  have hrun : (ds ++ rest).takeWhile Char.isDigit = ds := by
    rw [List.takeWhile_append_of_pos hds, hend, List.append_nil]
  unfold number?
  dsimp only
  cases width with
  | none =>
    dsimp only
    rw [hrun, if_neg (by simpa using hne), foldl_digits, List.drop_left]
  | some w =>
    have hwhole := List.take_of_length_le (hwidth w rfl)
    simp only [hrun, hwhole]
    rw [if_neg (by simpa using hne), foldl_digits, List.drop_left]

theorem toList_padded (w n : Nat) :
    (padded w n).toList = List.replicate (w - (Nat.toDigits 10 n).length) '0' ++
      Nat.toDigits 10 n := by
  simp [padded]

theorem isDigit_padded : ∀ c ∈ (padded w n).toList, c.isDigit := by
  intro c hc
  rw [toList_padded] at hc
  rcases List.mem_append.mp hc with hc | hc
  · obtain ⟨-, rfl⟩ := List.mem_replicate.mp hc
    rfl
  · exact Nat.isDigit_of_mem_toDigits (by decide) (by decide) hc

theorem padded_ne_nil : (padded w n).toList ≠ [] := by
  rw [toList_padded]
  exact List.append_ne_nil_of_right_ne_nil _ Nat.toDigits_ne_nil

theorem ofDigitChars_padded : Nat.ofDigitChars 10 (padded w n).toList 0 = n := by
  rw [toList_padded, Nat.ofDigitChars_append, Nat.ofDigitChars_replicate_zero, Nat.mul_zero,
    Nat.ofDigitChars_ten_toDigits]

theorem length_padded (hw : 0 < w) (h : n < 10 ^ w) : (padded w n).toList.length = w := by
  have hdigits := (Nat.length_toDigits_le_iff (by decide) hw).mpr h
  rw [toList_padded, List.length_append, List.length_replicate]
  omega

theorem number?_padded (hw : 0 < w) (h : n < 10 ^ w) :
    number? (some w) ((padded w n).toList ++ rest) = some (n, rest) := by
  rw [number?_width isDigit_padded padded_ne_nil (length_padded hw h), ofDigitChars_padded]

theorem part?_padded (h : n < 100) : part? ((padded 2 n).toList ++ rest) = some (n, rest) := by
  rw [part?, skipBlank_digits isDigit_padded padded_ne_nil, number?_padded (by decide) h]

theorem mark?_cons {m : Char} (h : Text.isBlank m = false) : mark? m (m :: rest) = some rest := by
  rw [mark?, Text.skipBlank, List.dropWhile_cons_of_neg (by rw [h]; decide)]
  exact if_pos rfl

/-! ## Parts of the text of an instant -/

/-- Digits begin with neither sign, so the year is read from four of them. -/
theorem year?_digits (hds : ∀ c ∈ ds, c.isDigit) (hne : ds ≠ []) :
    year? (ds ++ rest) = (number? (some 4) (ds ++ rest)).map fun (n, rest) =>
      ((n : Int), rest) := by
  rw [year?, skipBlank_digits hds hne]
  cases ds with
  | nil => exact absurd rfl hne
  | cons c ds =>
    have hc := hds c List.mem_cons_self
    rw [List.cons_append]
    split
    · next hcons =>
      obtain ⟨rfl, -⟩ := List.cons.inj hcons
      exact absurd hc (by decide)
    · next hcons =>
      obtain ⟨rfl, -⟩ := List.cons.inj hcons
      exact absurd hc (by decide)
    · rfl

theorem year?_minus :
    year? ('-' :: cs) = (number? none cs).map fun (n, rest) => (-(n : Int), rest) := by
  rw [year?, Text.skipBlank, List.dropWhile_cons_of_neg (by decide)]
  rfl

theorem year?_plus :
    year? ('+' :: cs) = (number? none cs).map fun (n, rest) => ((n : Int), rest) := by
  rw [year?, Text.skipBlank, List.dropWhile_cons_of_neg (by decide)]
  rfl

theorem year?_yearText (y : Int) :
    year? ((yearText y).toList ++ '-' :: rest) = some (y, '-' :: rest) := by
  have hsigned (n : Nat) : number? none ((padded 4 n).toList ++ '-' :: rest) =
      some (n, '-' :: rest) := by
    rw [number?_end isDigit_padded padded_ne_nil (fun _ h => by cases h) rfl, ofDigitChars_padded]
  rw [yearText]
  by_cases hy : 0 ≤ y ∧ y ≤ 9999
  · rw [if_pos hy, year?_digits isDigit_padded padded_ne_nil, number?_padded (by decide) (by omega),
      Option.map_some]
    dsimp only
    rw [Int.toNat_of_nonneg hy.1]
  rw [if_neg hy, String.toList_append, List.append_assoc]
  by_cases hneg : y < 0
  · rw [if_pos hneg, show "-".toList = ['-'] from rfl, List.singleton_append, year?_minus,
      hsigned, Option.map_some]
    dsimp only
    rw [show -(y.natAbs : Int) = y by omega]
  · rw [if_neg hneg, show "+".toList = ['+'] from rfl, List.singleton_append, year?_plus,
      hsigned, Option.map_some]
    dsimp only
    rw [show (y.natAbs : Int) = y by omega]

/-- A fraction of three, six or nine digits says how many billionths it is. -/
theorem fraction?_padded (hw : 0 < w) (hw' : w ≤ 9) (h : n < 10 ^ w) :
    fraction? ('.' :: ((padded w n).toList ++ ['Z'])) = some (n * 10 ^ (9 - w), ['Z']) := by
  have hlength := length_padded hw h
  have hwidth : ∀ v ∈ some 9, (padded w n).toList.length ≤ v := by
    intro v hv
    rw [← Option.some.inj hv, hlength]
    exact hw'
  have hnumber : number? (some 9) ((padded w n).toList ++ ['Z']) = some (n, ['Z']) := by
    rw [number?_end isDigit_padded padded_ne_nil hwidth rfl, ofDigitChars_padded]
  have hcount : ((padded w n).toList ++ ['Z']).length - ['Z'].length = w := by
    rw [List.length_append, hlength, Nat.add_sub_cancel]
  simp only [fraction?, hnumber, hcount, Nat.pow_eq]
  rfl

theorem fraction?_fractionText (h : n < 1000000000) :
    fraction? ((fractionText n).toList ++ ['Z']) = some (n, ['Z']) := by
  rw [fractionText]
  by_cases hzero : n = 0
  · rw [if_pos hzero, hzero]
    rfl
  rw [if_neg hzero]
  by_cases hmilli : n % 1000000 = 0
  · rw [if_pos hmilli, String.toList_append]
    refine (fraction?_padded (w := 3) (by decide) (by decide) (by omega)).trans ?_
    show some (n / 1000000 * 1000000, ['Z']) = some (n, ['Z'])
    rw [Nat.div_mul_cancel (Nat.dvd_of_mod_eq_zero hmilli)]
  rw [if_neg hmilli]
  by_cases hmicro : n % 1000 = 0
  · rw [if_pos hmicro, String.toList_append]
    refine (fraction?_padded (w := 6) (by decide) (by decide) (by omega)).trans ?_
    show some (n / 1000 * 1000, ['Z']) = some (n, ['Z'])
    rw [Nat.div_mul_cancel (Nat.dvd_of_mod_eq_zero hmicro)]
  rw [if_neg hmicro, String.toList_append]
  refine (fraction?_padded (w := 9) (by decide) (by decide) (by omega)).trans ?_
  rw [Nat.sub_self, Nat.pow_zero, Nat.mul_one]

/-! ## Instants -/

variable {t : Instant}

/-- The year is one that a date may have, and only the last second of a minute runs on into a leap
second. -/
structure Proper (t : Instant) : Prop where
  year : minYear ≤ (dateOfDay t.day).1 ∧ (dateOfDay t.day).1 ≤ maxYear
  second : t.second < 86400
  nano : t.nano < 1000000000 ∨ t.second % 60 = 59 ∧ t.nano < 2000000000

/-- The second of the minute as written, 60 in a leap second. -/
def secondOfMinute (t : Instant) : Nat := t.second % 60 + if 1000000000 ≤ t.nano then 1 else 0

/-- The nanoseconds as written. -/
def nanoOfSecond (t : Instant) : Nat := if 1000000000 ≤ t.nano then t.nano - 1000000000 else t.nano

theorem toList_render (t : Instant) :
    t.render.toList =
    (yearText (dateOfDay t.day).1).toList ++ '-' :: ((padded 2 (dateOfDay t.day).2.1).toList ++
      '-' :: ((padded 2 (dateOfDay t.day).2.2).toList ++ 'T' ::
        ((padded 2 (t.second / 3600)).toList ++
        ':' :: ((padded 2 (t.second / 60 % 60)).toList ++ ':' ::
          ((padded 2 t.secondOfMinute).toList ++
          ((fractionText t.nanoOfSecond).toList ++ ['Z'])))))) := by
  have hdash : "-".toList = ['-'] := rfl
  have hcolon : ":".toList = [':'] := rfl
  have ht : "T".toList = ['T'] := rfl
  have hz : "Z".toList = ['Z'] := rfl
  simp only [render, String.toList_append, List.append_assoc, hdash, hcolon, ht,
    hz, List.cons_append, List.nil_append, secondOfMinute, nanoOfSecond]

/-- The civil date and time of a proper instant are those of the instant. -/
theorem Proper.ofCivil?_eq (h : t.Proper) :
    ofCivil? (dateOfDay t.day).1 (dateOfDay t.day).2.1 (dateOfDay t.day).2.2 (t.second / 3600)
      (t.second / 60 % 60)
      t.secondOfMinute t.nanoOfSecond 0 = some t := by
  obtain ⟨hmonth, hmonth', hday, hday'⟩ := dateOfDay_mem t.day
  obtain ⟨hyear, hyear'⟩ := h.year
  have hsecond := h.second
  -- A leap second is written as second 60, and the clock stands at the second that it belongs to.
  obtain ⟨hlast, hclock, hnano⟩ : t.secondOfMinute ≤ 60 ∧
      (if t.secondOfMinute = 60 then 59 else t.secondOfMinute) = t.second % 60 ∧
      (if t.secondOfMinute = 60 then t.nanoOfSecond + 1000000000 else t.nanoOfSecond) = t.nano := by
    rw [secondOfMinute, nanoOfSecond]
    by_cases hleap : 1000000000 ≤ t.nano
    · obtain ⟨hend, -⟩ := h.nano.resolve_left (by omega)
      have hmod : t.second % 60 + 1 = 60 := by omega
      rw [if_pos hleap, if_pos hleap, if_pos hmod, if_pos hmod]
      omega
    · have hmod : ¬ t.second % 60 + 0 = 60 := by omega
      rw [if_neg hleap, if_neg hleap, if_neg hmod, if_neg hmod]
      omega
  have htotal : ((t.second / 3600 : Nat) : Int) * 3600 + ((t.second / 60 % 60 : Nat) : Int) * 60 +
      ((t.second % 60 : Nat) : Int) - 0 = t.second := by
    omega
  have hdays : (t.second : Int).fdiv 86400 = 0 := by
    rw [Int.fdiv_eq_ediv_of_nonneg _ (by decide)]
    omega
  have hrest : (t.second : Int).fmod 86400 = t.second := by
    rw [Int.fmod_eq_emod_of_nonneg _ (by decide)]
    omega
  rw [ofCivil?, if_neg (by omega)]
  simp only [hclock, hnano, htotal, hdays, hrest, dayOfDate_dateOfDay, Int.add_zero,
    Int.toNat_natCast]
  rw [if_neg (by omega)]

/-- The text of a proper instant is read as the instant. -/
theorem Proper.parse_render (h : t.Proper) : parse t.render = some t := by
  have hcivil := h.ofCivil?_eq
  obtain ⟨-, hmonth, -, hday⟩ := dateOfDay_mem t.day
  have hmonth' : (dateOfDay t.day).2.1 < 100 := by omega
  have hday' : (dateOfDay t.day).2.2 < 100 := by
    have hlast := daysInMonth_le (dateOfDay t.day).1 (dateOfDay t.day).2.1
    omega
  have hsecond := h.second
  have hhour : t.second / 3600 < 100 := by omega
  have hminute : t.second / 60 % 60 < 100 := by omega
  have hsecond' : t.secondOfMinute < 100 := by
    rw [secondOfMinute]
    split <;> omega
  have hnano : t.nanoOfSecond < 1000000000 := by
    rw [nanoOfSecond]
    have hnano := h.nano
    split <;> omega
  have hdash (cs : List Char) : mark? '-' ('-' :: cs) = some cs := mark?_cons (by decide)
  have hcolon (cs : List Char) : mark? ':' (':' :: cs) = some cs := mark?_cons (by decide)
  have hpart (n : Nat) (h : n < 100) (cs : List Char) :
      part? ((padded 2 n).toList ++ cs) = some (n, cs) :=
    part?_padded h
  simp only [parse, toList_render, year?_yearText, hdash, hcolon, hpart _ hmonth',
    hpart _ hday', hpart _ hhour,
    hpart _ hminute, hpart _ hsecond', fraction?_fractionText hnano,
    Option.bind_eq_bind, Option.bind_some]
  exact hcivil

end Statechart.Instant

import ModelOperator.Time.Instant

/-!
# The calendar

    `Date.ofDay` cuts a day count into cycles of 400 years, a cycle into years from March,
    and a year into months.  `Date.ofDay_spec` says what the pieces are; from it follow
    that every date it gives exists (`Date.ofDay_exists`) and that `Date.toDay` leads back
    (`Date.toDay_ofDay`). -/

namespace ModelOperator

namespace Date

/-- The first day of a year from March, counted within its cycle of 400 years. -/
def yearStart (y : Int) : Int := 365 * y + y / 4 - y / 100

/-- The first day of a month from March, counted within its year. -/
def monthStart (m : Int) : Int := (153 * m + 2) / 5

/-- A day of a cycle as centuries, leap periods of four years, years and days: the last day
    of a leap period counts to its last year. -/
structure Pieces (d c b a r : Int) : Prop where
  sum : d = 36524 * c + 1461 * b + 365 * a + r
  century : 0 ≤ c ∧ c ≤ 3
  period : 0 ≤ b ∧ b ≤ 24
  year : 0 ≤ a ∧ a ≤ 3
  rest : 0 ≤ r ∧ r ≤ 365
  leapDay : r = 365 → a = 3 ∧ b ≤ 23

theorem exists_pieces {d : Int} (hlow : 0 ≤ d) (hhigh : d ≤ 146095) :
    ∃ c b a r, Pieces d c b a r := by
  -- one division at a time, with a name for each rest
  obtain ⟨c, s, hs, hc, hs0, hs1⟩ : ∃ c s, d = 36524 * c + s ∧ (0 ≤ c ∧ c ≤ 3) ∧ 0 ≤ s ∧
      s ≤ 36523 := ⟨d / 36524, d % 36524, by omega, by omega, by omega, by omega⟩
  clear hlow hhigh
  obtain ⟨b, t, ht, hb, ht0, ht1, ht2⟩ : ∃ b t, s = 1461 * b + t ∧ (0 ≤ b ∧ b ≤ 24) ∧ 0 ≤ t ∧
      t ≤ 1460 ∧ (b = 24 → t ≤ 1459) :=
    ⟨s / 1461, s % 1461, by omega, by omega, by omega, by omega, by omega⟩
  clear hs0 hs1
  -- the leap day at the end of a period counts to its last year
  by_cases hlast : t = 1460
  · exact ⟨c, b, 3, 365, by omega, hc, hb, by omega, by omega, fun _ => ⟨rfl, by omega⟩⟩
  · exact ⟨c, b, t / 365, t % 365, by omega, hc, hb, by omega, by omega, by omega⟩

namespace Pieces

variable {d c b a r : Int} (h : Pieces d c b a r)

include h

/-- The leap days before a day, up to one for the last days of a leap period. -/
theorem div_1460 : ∃ e, d / 1460 = 25 * c + b + e ∧ (e = 0 ∧ r ≤ 364 ∨ e = 1 ∧ a = 3 ∧ 1 ≤ r) := by
  obtain ⟨rfl, hc, hb, ha, hr, hleap⟩ := h
  refine ⟨(24 * c + b + 365 * a + r) / 1460, by omega, ?_⟩
  by_cases hsmall : 24 * c + b + 365 * a + r < 1460
  · exact Or.inl (by omega)
  · exact Or.inr (by omega)

theorem div_36524 : d / 36524 = c := by
  obtain ⟨rfl, hc, hb, ha, hr, hleap⟩ := h
  omega

theorem div_146096 : d / 146096 = 0 := by
  obtain ⟨rfl, hc, hb, ha, hr, hleap⟩ := h
  omega

/-- The corrections of the formula cancel the leap days. -/
theorem yearOfCycle : (d - d / 1460 + d / 36524 - d / 146096) / 365 = 100 * c + 4 * b + a := by
  obtain ⟨e, he, hecases⟩ := h.div_1460
  rw [he, h.div_36524, h.div_146096]
  obtain ⟨rfl, -, -, ha, hr, -⟩ := h
  have hnumerator : 36524 * c + 1461 * b + 365 * a + r - (25 * c + b + e) + c - 0 =
      365 * (100 * c + 4 * b + a) + (r - e) := by omega
  rw [hnumerator]
  clear he hnumerator
  omega

theorem yearStart_add : yearStart (100 * c + 4 * b + a) + r = d := by
  obtain ⟨rfl, hc, hb, ha, -, -⟩ := h
  have hfours : (100 * c + 4 * b + a) / 4 = 25 * c + b := by omega
  have hcenturies : (100 * c + 4 * b + a) / 100 = c := by omega
  rw [yearStart]
  rw [hfours, hcenturies]
  omega

theorem isLeap_succ (hr : r = 365) : isLeap (100 * c + 4 * b + a + 1) = true := by
  obtain ⟨rfl, hb⟩ := h.leapDay hr
  have hperiod := h.period
  have hmod4 : (100 * c + 4 * b + 3 + 1) % 4 = 0 := by omega
  have hmod100 : (100 * c + 4 * b + 3 + 1) % 100 ≠ 0 := by omega
  simp [isLeap, hmod4, hmod100]

end Pieces

/-- **The year of a day within its cycle.**  It starts on or before the day, at most 365
    days earlier, and that many only if February at its end has a leap day. -/
theorem yearOfCycle_spec {d y : Int} (hlow : 0 ≤ d) (hhigh : d ≤ 146096)
    (hy : y = (d - d / 1460 + d / 36524 - d / 146096) / 365) :
    ∃ r, d = yearStart y + r ∧ (0 ≤ y ∧ y ≤ 399) ∧ (0 ≤ r ∧ r ≤ 365) ∧
      (r = 365 → isLeap (y + 1) = true) := by
  by_cases hlast : d = 146096
  · -- the last day of the cycle belongs to no full piece of it
    subst hlast
    have hy399 : y = 399 := hy
    subst hy399
    exact ⟨365, by decide⟩
  · obtain ⟨c, b, a, r, h⟩ := exists_pieces hlow (by omega)
    have hyear : y = 100 * c + 4 * b + a := hy.trans h.yearOfCycle
    subst hyear
    have hcentury := h.century
    have hperiod := h.period
    have ha := h.year
    exact ⟨r, h.yearStart_add.symm, by omega, h.rest, h.isLeap_succ⟩

/-- The most days that a month from March has; the last is February. -/
def monthLength (m : Int) : Int :=
  if m = 11 then 29 else if m = 1 ∨ m = 3 ∨ m = 6 ∨ m = 8 then 30 else 31

/-- **The month of a day within its year.**  The days that remain fit the month, and reach
    29 in February only on the last day of the year. -/
theorem monthOfYear_spec {r m : Int} (hr : 0 ≤ r ∧ r ≤ 365) (hm : m = (5 * r + 2) / 153) :
    ∃ k, r = monthStart m + k ∧ (0 ≤ m ∧ m ≤ 11) ∧ (0 ≤ k ∧ k < monthLength m) ∧
      (m = 11 → k = 28 → r = 365) := by
  refine ⟨r - monthStart m, by omega, by omega, ?_⟩
  have hcases : m = 0 ∨ m = 1 ∨ m = 2 ∨ m = 3 ∨ m = 4 ∨ m = 5 ∨ m = 6 ∨ m = 7 ∨ m = 8 ∨ m = 9 ∨
      m = 10 ∨ m = 11 := by omega
  rw [monthStart, monthLength]
  rcases hcases with h | h | h | h | h | h | h | h | h | h | h | h <;> subst h <;>
    refine ⟨⟨by omega, ?_⟩, by omega⟩ <;> simp <;> omega

/-- **A day as a date.**  Its cycle of 400 years, its year and month from March, and its
    day of the month. -/
theorem ofDay_spec (n : Int) :
    ∃ q y m k : Int, n + 719468 = 146097 * q + yearStart y + monthStart m + k ∧
      (0 ≤ y ∧ y ≤ 399) ∧ (0 ≤ m ∧ m ≤ 11) ∧ (0 ≤ k ∧ k < monthLength m) ∧
      (m = 11 → k = 28 → isLeap (y + 1) = true) ∧
      ofDay n = ⟨y + q * 400 + (if m < 10 then 0 else 1),
        (if m < 10 then m + 3 else m - 9).toNat, (k + 1).toNat⟩ := by
  -- every part of the formula gets a name, so that the next one is about variables only
  obtain ⟨q, hq⟩ : ∃ q, q = (n + 719468).fdiv 146097 := ⟨_, rfl⟩
  obtain ⟨d, hd⟩ : ∃ d, d = n + 719468 - q * 146097 := ⟨_, rfl⟩
  have hdrange : 0 ≤ d ∧ d ≤ 146096 := by
    rw [Int.fdiv_eq_ediv_of_nonneg _ (by decide)] at hq
    omega
  obtain ⟨y, hy⟩ : ∃ y, y = (d - d / 1460 + d / 36524 - d / 146096) / 365 := ⟨_, rfl⟩
  obtain ⟨r, hyear, hyrange, hrrange, hleap⟩ := yearOfCycle_spec hdrange.1 hdrange.2 hy
  obtain ⟨m, hm⟩ : ∃ m, m = (5 * r + 2) / 153 := ⟨_, rfl⟩
  obtain ⟨k, hmonth, hmrange, hkrange, hlast⟩ := monthOfYear_spec hrrange hm
  refine ⟨q, y, m, k, by omega, hyrange, hmrange, hkrange, fun h1 h2 => hleap (hlast h1 h2), ?_⟩
  have hrest : d - (365 * y + y / 4 - y / 100) = r := by
    rw [yearStart] at hyear
    omega
  have hday : r - (153 * m + 2) / 5 + 1 = k + 1 := by
    rw [monthStart] at hmonth
    omega
  have hmarch : (if (if m < 10 then m + 3 else m - 9) ≤ 2 then (1 : Int) else 0) =
      if m < 10 then 0 else 1 := by
    by_cases hm10 : m < 10
    · rw [if_pos hm10, if_pos hm10, if_neg (by omega)]
    · rw [if_neg hm10, if_neg hm10, if_pos (by omega)]
  rw [ofDay]
  simp only [← hq, ← hd, ← hy, hrest, ← hm, hday, hmarch]

/-- **The way back.**  A date leads to the day it was made from. -/
theorem toDay_ofDay (n : Int) : (ofDay n).toDay = n := by
  obtain ⟨q, y, m, k, hsum, hy, hm, hk, -, heq⟩ := ofDay_spec n
  have hcycle : (y + q * 400).fdiv 400 = q := by
    rw [Int.fdiv_eq_ediv_of_nonneg _ (by decide)]
    omega
  have hyear : y + q * 400 - q * 400 = y := by omega
  have hday : ((k + 1).toNat : Int) = k + 1 := Int.toNat_of_nonneg (by omega)
  rw [yearStart, monthStart] at hsum
  rw [heq]
  -- from January on the calendar is a year ahead of the year from March
  by_cases hm10 : m < 10
  · have hmonth : ((m + 3).toNat : Int) = m + 3 := Int.toNat_of_nonneg (by omega)
    have hlate : ¬ (m + 3).toNat ≤ 2 := by omega
    simp only [toDay, if_pos hm10, if_neg hlate, hmonth, hday, Int.add_zero, Int.add_sub_cancel,
      hcycle, hyear]
    omega
  · have hmonth : ((m - 9).toNat : Int) = m - 9 := Int.toNat_of_nonneg (by omega)
    have hearly : (m - 9).toNat ≤ 2 := by omega
    simp only [toDay, if_neg hm10, if_pos hearly, hmonth, hday, Int.add_sub_cancel, hcycle, hyear,
      Int.sub_add_cancel]
    omega

/-- The months up to January have the length of the calendar. -/
theorem monthLength_le {m : Int} (hm : 0 ≤ m ∧ m ≤ 10) (year : Int) :
    (monthLength m).toNat ≤ daysInMonth year (if m < 10 then m + 3 else m - 9).toNat := by
  have hcases : m = 0 ∨ m = 1 ∨ m = 2 ∨ m = 3 ∨ m = 4 ∨ m = 5 ∨ m = 6 ∨ m = 7 ∨ m = 8 ∨ m = 9 ∨
      m = 10 := by omega
  rcases hcases with h | h | h | h | h | h | h | h | h | h | h <;> subst h <;>
    exact Nat.le_refl _

/-- **A date exists.**  Month and day are those of the calendar. -/
theorem ofDay_exists (n : Int) :
    (1 ≤ (ofDay n).month ∧ (ofDay n).month ≤ 12) ∧
      1 ≤ (ofDay n).day ∧ (ofDay n).day ≤ daysInMonth (ofDay n).year (ofDay n).month := by
  obtain ⟨q, y, m, k, -, hy, hm, hk, hleap, heq⟩ := ofDay_spec n
  rw [heq]
  refine ⟨?_, by show 1 ≤ (k + 1).toNat; omega, ?_⟩
  · show 1 ≤ (if m < 10 then m + 3 else m - 9).toNat ∧ (if m < 10 then m + 3 else m - 9).toNat ≤ 12
    by_cases hm10 : m < 10
    · rw [if_pos hm10]
      omega
    · rw [if_neg hm10]
      omega
  · -- only February depends on the year, and whole cycles do not change its leap day
    by_cases hfebruary : m = 11
    · subst hfebruary
      show (k + 1).toNat ≤ if isLeap (y + q * 400 + 1) then 29 else 28
      have hcycle : isLeap (y + q * 400 + 1) = isLeap (y + 1) := by
        have h4 : (y + q * 400 + 1) % 4 = (y + 1) % 4 := by omega
        have h100 : (y + q * 400 + 1) % 100 = (y + 1) % 100 := by omega
        have h400 : (y + q * 400 + 1) % 400 = (y + 1) % 400 := by omega
        simp only [isLeap]
        rw [h4, h100, h400]
      have hk29 : k < 29 := hk.2
      rw [hcycle]
      by_cases hlast : k = 28
      · rw [if_pos (hleap rfl hlast)]
        omega
      · cases isLeap (y + 1) with
        | true =>
            rw [if_pos rfl]
            omega
        | false =>
            rw [if_neg Bool.false_ne_true]
            omega
    · exact Nat.le_trans (by show (k + 1).toNat ≤ (monthLength m).toNat; omega)
        (monthLength_le ⟨hm.1, by omega⟩ _)

end Date

end ModelOperator

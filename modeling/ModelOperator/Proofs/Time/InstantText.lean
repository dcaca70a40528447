import ModelOperator.Proofs.Number.Digits
import ModelOperator.Proofs.Time.Calendar

/-!
# Instants and their text

    An instant is valid if its year is in range and its second and nanoseconds are those
    of a day, where a minute may end with a leap second.  Reading gives valid instants
    only (`Instant.valid_of_read`).  The text of a valid instant reads back as what its
    fraction keeps of the instant (`Instant.read_text_kept`), which has the same text
    (`Instant.text_kept`); the shortest fraction keeps everything (`Instant.read_text`). -/

namespace ModelOperator

/-- What a fraction keeps of nanoseconds. -/
def Fraction.kept : Fraction → Nat → Nat
  | .none, _ => 0
  | .micros, nano => nano / 1000 * 1000
  | .shortest, nano => nano

theorem Fraction.kept_le (f : Fraction) (nano : Nat) : f.kept nano ≤ nano := by
  cases f with
  | none => exact Nat.zero_le nano
  | micros => exact Nat.div_mul_le_self nano 1000
  | shortest => exact Nat.le_refl nano

namespace Instant

open Json Duration

/-- **What a clock can show.** -/
structure Valid (t : Instant) : Prop where
  year : Date.yearInRange (Date.ofDay t.day).year = true
  second : t.second < 86400
  nano : t.nano < 1000000000 ∨ t.second % 60 = 59 ∧ t.nano < 2000000000

/-- What a fraction keeps of an instant; a leap second stays one. -/
def kept (f : Fraction) (t : Instant) : Instant :=
  { t with nano :=
      if Duration.second ≤ t.nano then f.kept (t.nano - Duration.second) + Duration.second
      else f.kept t.nano }

@[simp] theorem kept_shortest (t : Instant) : t.kept .shortest = t := by
  have hnano : (if Duration.second ≤ t.nano then t.nano - Duration.second + Duration.second
      else t.nano) = t.nano := by
    split
    · rename_i hleap
      exact Nat.sub_add_cancel hleap
    · rfl
  show ({ t with nano := if Duration.second ≤ t.nano then
    t.nano - Duration.second + Duration.second else t.nano } : Instant) = t
  rw [hnano]

theorem Valid.kept {t : Instant} (h : t.Valid) (f : Fraction) : (t.kept f).Valid := by
  refine ⟨h.year, h.second, ?_⟩
  show (if Duration.second ≤ t.nano then f.kept (t.nano - Duration.second) + Duration.second
    else f.kept t.nano) < 1000000000 ∨ t.second % 60 = 59 ∧
    (if Duration.second ≤ t.nano then f.kept (t.nano - Duration.second) + Duration.second
      else f.kept t.nano) < 2000000000
  have hleapKept := f.kept_le (t.nano - Duration.second)
  have hkept := f.kept_le t.nano
  have hsecond : Duration.second = 1000000000 := rfl
  have hnano := h.nano
  split <;> omega

/-! ## Numbers in front of other characters -/

theorem not_isBlankChar_of_digit {c : Char} (h : (digitValue? c).isSome = true) :
    isBlankChar c = false := by
  rw [digitValue?] at h
  by_cases hc : '0' ≤ c ∧ c ≤ '9'
  · have hlow : 48 ≤ c.toNat := hc.1
    have hhigh : c.toNat ≤ 57 := hc.2
    simp only [isBlankChar, Bool.or_eq_false_iff, Bool.and_eq_false_iff, decide_eq_false_iff_not,
      beq_eq_false_iff_ne]
    omega
  · rw [if_neg hc] at h
    cases h

/-- Where no blank stands first, nothing is cut. -/
theorem trimStartChars_cons {c : Char} (h : isBlankChar c = false) (cs : List Char) :
    Blank.trimStartChars (c :: cs) = c :: cs := by
  rw [Blank.trimStartChars]
  rw [List.dropWhile_cons_of_neg (Bool.eq_false_iff.mp h)]

/-- A span of digits is read as a number when it fills the width, or something else
    follows it. -/
theorem readNumber_append {ds rest : List Char} {width : Nat} (hne : ds ≠ [])
    (hdigits : ∀ c ∈ ds, (digitValue? c).isSome = true) (hlength : ds.length ≤ width)
    (hend : ds.length = width ∨ ∃ c tail, rest = c :: tail ∧ (digitValue? c).isSome = false) :
    readNumber width (ds ++ rest) = some (digitsValue ds, ds.length, rest) := by
  have htake : ((ds ++ rest).take width).takeWhile (fun c => (digitValue? c).isSome) = ds := by
    rw [List.take_append, List.take_of_length_le hlength,
      List.takeWhile_append_of_pos hdigits]
    have hnone : (rest.take (width - ds.length)).takeWhile (fun c => (digitValue? c).isSome) =
        [] := by
      rcases hend with hfull | ⟨c, tail, rfl, hc⟩
      · rw [hfull, Nat.sub_self, List.take_zero]
        rfl
      · cases width - ds.length with
        | zero => rfl
        | succ k =>
            rw [List.take_succ_cons]
            exact List.takeWhile_cons_of_neg (p := fun c => (digitValue? c).isSome)
              (Bool.eq_false_iff.mp hc)
    rw [hnone, List.append_nil]
  have hsome : ds.isEmpty = false := by
    cases ds with
    | nil => exact absurd rfl hne
    | cons c cs => rfl
  rw [readNumber]
  simp only [htake, hsome, Bool.false_eq_true, if_false, List.drop_left]

theorem readNumber_padded {width n : Nat} (hpos : 0 < width) (h : n < 10 ^ width)
    (rest : List Char) : readNumber width (padded width n ++ rest) = some (n, width, rest) := by
  have hlength := length_padded hpos h
  rw [readNumber_append (padded_ne_nil _ _) (fun c hc => isDigit_of_mem_padded hc)
    (Nat.le_of_eq hlength) (Or.inl hlength), digitsValue_padded, hlength]

/-- A padded number starts with a digit. -/
theorem exists_padded (width n : Nat) :
    ∃ c cs, padded width n = c :: cs ∧ (digitValue? c).isSome = true := by
  cases hpadded : padded width n with
  | nil => exact absurd hpadded (padded_ne_nil width n)
  | cons c cs =>
      exact ⟨c, cs, rfl, isDigit_of_mem_padded (hpadded ▸ List.mem_cons_self)⟩

theorem trimStartChars_padded (width n : Nat) (rest : List Char) :
    Blank.trimStartChars (padded width n ++ rest) = padded width n ++ rest := by
  obtain ⟨c, cs, hpadded, hc⟩ := exists_padded width n
  rw [hpadded]
  exact trimStartChars_cons (not_isBlankChar_of_digit hc) _

theorem readField_twoDigits {n : Nat} (h : n < 100) (rest : List Char) :
    readField 2 (twoDigits n ++ rest) = some (n, rest) := by
  rw [readField, twoDigits]
  rw [trimStartChars_padded, readNumber_padded (by decide) h]
  rfl

theorem readMarked_twoDigits {mark : Char} (hmark : isBlankChar mark = false) {n : Nat}
    (h : n < 100) (rest : List Char) :
    readMarked mark 2 (mark :: (twoDigits n ++ rest)) = some (n, rest) := by
  rw [readMarked]
  rw [trimStartChars_cons hmark]
  simp only [if_true]
  exact readField_twoDigits h rest

/-! ## The parts of a text -/

/-- A year in front of the mark that ends it. -/
theorem readYear_yearText (year : Int) (rest : List Char) :
    readYear (yearText year ++ '-' :: rest) = some (year, '-' :: rest) := by
  have hsigned : readNumber (padded 4 year.natAbs ++ '-' :: rest).length
      (padded 4 year.natAbs ++ '-' :: rest) =
        some (year.natAbs, (padded 4 year.natAbs).length, '-' :: rest) := by
    rw [readNumber_append (padded_ne_nil _ _) (fun c hc => isDigit_of_mem_padded hc)
      (by rw [List.length_append]; omega) (Or.inr ⟨'-', rest, rfl, rfl⟩), digitsValue_padded]
  rw [yearText]
  by_cases hplain : 0 ≤ year ∧ year ≤ 9999
  · rw [if_pos hplain]
    rw [readYear]
    rw [trimStartChars_padded]
    obtain ⟨c, cs, hpadded, hc⟩ := exists_padded 4 year.natAbs
    have hnumber : readNumber 4 (padded 4 year.natAbs ++ '-' :: rest) =
        some (year.natAbs, 4, '-' :: rest) := readNumber_padded (by decide) (by omega) _
    -- a year of four digits starts with a digit, so no sign is read
    have hdown : c ≠ '-' := by
      rintro rfl
      cases hc
    have hup : c ≠ '+' := by
      rintro rfl
      cases hc
    rw [hpadded] at hnumber ⊢
    split
    · rename_i heq
      exact absurd (List.cons.inj heq).1 hdown
    · rename_i heq
      exact absurd (List.cons.inj heq).1 hup
    · rw [hnumber]
      show some ((year.natAbs : Int), '-' :: rest) = _
      rw [Int.natAbs_of_nonneg hplain.1]
  · rw [if_neg hplain]
    by_cases hneg : year < 0
    · rw [if_pos hneg]
      show (readNumber (padded 4 year.natAbs ++ '-' :: rest).length
        (padded 4 year.natAbs ++ '-' :: rest)).bind _ = _
      rw [hsigned]
      show some (-(year.natAbs : Int), '-' :: rest) = _
      rw [Int.ofNat_natAbs_of_nonpos (Int.le_of_lt hneg), Int.neg_neg]
    · rw [if_neg hneg]
      show (readNumber (padded 4 year.natAbs ++ '-' :: rest).length
        (padded 4 year.natAbs ++ '-' :: rest)).bind _ = _
      rw [hsigned]
      show some ((year.natAbs : Int), '-' :: rest) = _
      rw [Int.natAbs_of_nonneg (by omega)]

/-- A fraction in front of the mark of UTC. -/
theorem readFraction_fractionText (f : Fraction) {nano : Nat} (h : nano < 1000000000) :
    readFraction (fractionText f nano ++ ['Z']) = some (f.kept nano, ['Z']) := by
  have hread : ∀ width value, 0 < width → width ≤ 9 → value < 10 ^ width →
      readFraction ('.' :: padded width value ++ ['Z']) =
        some (value * 10 ^ (9 - width), ['Z']) := by
    intro width value hpos hle hvalue
    have hlength := length_padded hpos hvalue
    show (readNumber 9 (padded width value ++ ['Z'])).bind _ = _
    rw [readNumber_append (padded_ne_nil _ _) (fun c hc => isDigit_of_mem_padded hc)
      (by omega) (Or.inr ⟨'Z', [], rfl, rfl⟩), digitsValue_padded, hlength]
    rfl
  cases f with
  | none => rfl
  | micros => exact hread 6 (nano / 1000) (by decide) (by decide) (by omega)
  | shortest =>
      rw [fractionText, Fraction.kept]
      by_cases hzero : nano = 0
      · rw [if_pos hzero, hzero]
        rfl
      · rw [if_neg hzero]
        by_cases hmilli : nano % 1000000 = 0
        · rw [if_pos hmilli, hread 3 _ (by decide) (by decide) (by omega)]
          have hback : nano / 1000000 * 1000000 = nano := by omega
          exact congrArg (fun n => some (n, ['Z'])) hback
        · -- three, six or nine places, the fewest that lose nothing
          rw [if_neg hmilli]
          by_cases hmicro : nano % 1000 = 0
          · rw [if_pos hmicro, hread 6 _ (by decide) (by decide) (by omega)]
            have hback : nano / 1000 * 1000 = nano := by omega
            exact congrArg (fun n => some (n, ['Z'])) hback
          · rw [if_neg hmicro, hread 9 _ (by decide) (by decide) (by omega)]
            exact congrArg (fun n => some (n, ['Z'])) (Nat.mul_one nano)

/-! ## The whole text -/

/-- The date and time of a valid instant make it up again. -/
theorem ofFields?_parts {t : Instant} (h : t.Valid) {sec nano : Nat}
    (hparts : sec = t.second % 60 ∧ nano = t.nano ∧ t.nano < 1000000000 ∨
      sec = 60 ∧ t.second % 60 = 59 ∧ t.nano = nano + 1000000000) :
    ofFields? (Date.ofDay t.day) (t.second / 3600) (t.second / 60 % 60) sec nano 0 = some t := by
  have hsecond := h.second
  obtain ⟨⟨hmonth1, hmonth12⟩, hday1, hdaymax⟩ := Date.ofDay_exists t.day
  have hhour : t.second / 3600 < 24 := by omega
  have hminute : t.second / 60 % 60 < 60 := by omega
  have hsec : sec ≤ 60 := by omega
  have hquot : ((t.second : Int) + -0).fdiv daySeconds = 0 := by
    show ((t.second : Int) + -0).fdiv 86400 = 0
    rw [Int.fdiv_eq_ediv_of_nonneg _ (by decide)]
    omega
  have hrest : (((t.second : Int) + -0).fmod daySeconds).toNat = t.second := by
    show (((t.second : Int) + -0).fmod 86400).toNat = t.second
    rw [Int.fmod_eq_emod_of_nonneg _ (by decide)]
    omega
  have hadd : ∀ n, (⟨t.day, t.second, n⟩ : Instant).addSeconds (-0) = ⟨t.day, t.second, n⟩ := by
    intro n
    show (⟨t.day + ((t.second : Int) + -0).fdiv daySeconds,
      (((t.second : Int) + -0).fmod daySeconds).toNat, n⟩ : Instant) = _
    rw [hquot, hrest, Int.add_zero]
  rw [ofFields?]
  simp only [h.year, hmonth1, hmonth12, hday1, hdaymax, hhour, hminute, hsec, decide_true,
    Bool.and_true, Date.toDay_ofDay]
  -- an ordinary second is written as it is, a leap second as second 60
  rcases hparts with ⟨rfl, rfl, -⟩ | ⟨rfl, hlast, hnano⟩
  · have hne : ¬ t.second % 60 = 60 := by omega
    have hsum : t.second / 3600 * 3600 + t.second / 60 % 60 * 60 + t.second % 60 = t.second := by
      omega
    simp only [if_neg hne, hsum, hadd, h.year, if_true]
    rfl
  · have hsum : t.second / 3600 * 3600 + t.second / 60 % 60 * 60 + 59 = t.second := by omega
    have hback : nano + Duration.second = t.nano := hnano.symm
    simp only [if_true, hsum, hback, hadd, h.year]
    rfl

/-- The text of an instant, part by part, with the second and the nanoseconds as written. -/
theorem readChars_parts (f : Fraction) {year : Int} {month day hour minute sec nano : Nat}
    (hmonth : month < 100)
    (hday : day < 100) (hhour : hour < 100) (hminute : minute < 100) (hsec : sec < 100)
    (hnano : nano < 1000000000) :
    readChars (yearText year ++ '-' :: (twoDigits month ++ '-' :: (twoDigits day ++
      'T' :: (twoDigits hour ++ ':' :: (twoDigits minute ++ ':' :: (twoDigits sec ++
        (fractionText f nano ++ ['Z']))))))) =
      ofFields? ⟨year, month, day⟩ hour minute sec (f.kept nano) 0 := by
  have hdash : isBlankChar '-' = false := rfl
  have hcolon : isBlankChar ':' = false := rfl
  rw [readChars]
  simp only [readYear_yearText, readMarked_twoDigits hdash hmonth,
    readMarked_twoDigits hdash hday, readField_twoDigits hhour,
    readMarked_twoDigits hcolon hminute, readMarked_twoDigits hcolon hsec,
    readFraction_fractionText f hnano, Option.bind_eq_bind, Option.bind_some]
  rfl

/-- **Texts read back.**  The text of a valid instant names what its fraction keeps of that
    instant. -/
theorem read_text_kept {t : Instant} (h : t.Valid) (f : Fraction) :
    read (t.text f) = some (t.kept f) := by
  obtain ⟨⟨-, hmonth⟩, -, hday⟩ := Date.ofDay_exists t.day
  have hsecond := h.second
  have hdays : ∀ year month, Date.daysInMonth year month ≤ 31 := by
    intro year month
    rw [Date.daysInMonth]
    split
    · split <;> decide
    · split <;> decide
  have hday31 := hdays (Date.ofDay t.day).year (Date.ofDay t.day).month
  rw [read, text]
  rw [String.toList_ofList]
  rw [chars]
  -- a leap second is written as second 60 with the nanoseconds that are left
  by_cases hleap : Duration.second ≤ t.nano
  · have hnano : 1000000000 ≤ t.nano := hleap
    have hlast : t.second % 60 = 59 ∧ t.nano < 2000000000 :=
      h.nano.resolve_left (Nat.not_lt.mpr hnano)
    have hless : t.nano - Duration.second < 1000000000 := by
      show t.nano - 1000000000 < 1000000000
      omega
    have hkept : (t.kept f).nano = f.kept (t.nano - Duration.second) + 1000000000 := if_pos hleap
    simp only [hleap, if_true, List.append_assoc, List.cons_append]
    rw [readChars_parts f (by omega) (by omega) (by omega) (by omega) (by omega) hless]
    exact ofFields?_parts (h.kept f) (Or.inr ⟨by omega, hlast.1, hkept⟩)
  · have hnano : t.nano < 1000000000 := Nat.lt_of_not_le hleap
    have hkept : (t.kept f).nano = f.kept t.nano := if_neg hleap
    have hle := f.kept_le t.nano
    simp only [hleap, if_false, List.append_assoc, List.cons_append]
    rw [readChars_parts f (by omega) (by omega) (by omega) (by omega) (by omega) hnano]
    exact ofFields?_parts (h.kept f) (Or.inl ⟨rfl, hkept.symm, by omega⟩)

/-- With the shortest fraction, a text names the instant itself. -/
theorem read_text {t : Instant} (h : t.Valid) : read (t.text .shortest) = some t := by
  rw [read_text_kept h, kept_shortest]

theorem fractionText_kept (f : Fraction) (nano : Nat) :
    fractionText f (f.kept nano) = fractionText f nano := by
  cases f with
  | none => rfl
  | micros =>
      have hsame : nano / 1000 * 1000 / 1000 = nano / 1000 := Nat.mul_div_cancel _ (by decide)
      rw [Fraction.kept, fractionText, fractionText, hsame]
  | shortest => rfl

/-- What a fraction keeps of an instant has the same text. -/
theorem text_kept (t : Instant) (f : Fraction) : (t.kept f).text f = t.text f := by
  rw [text, text]
  rw [chars, chars]
  by_cases hleap : Duration.second ≤ t.nano
  · have hkept : (t.kept f).nano = f.kept (t.nano - Duration.second) + Duration.second :=
      if_pos hleap
    have hstays : Duration.second ≤ (t.kept f).nano := hkept ▸ Nat.le_add_left _ _
    simp only [hleap, hstays, if_true]
    rw [hkept, Nat.add_sub_cancel, fractionText_kept]
    rfl
  · have hkept : (t.kept f).nano = f.kept t.nano := if_neg hleap
    have hstays : ¬ Duration.second ≤ (t.kept f).nano := by
      have hle := f.kept_le t.nano
      omega
    simp only [hleap, hstays, if_false]
    rw [hkept, fractionText_kept]
    rfl

/-! ## What is read -/

theorem readNumber_lt {width n count : Nat} {cs rest : List Char}
    (h : readNumber width cs = some (n, count, rest)) : n < 10 ^ count ∧ count ≤ width := by
  unfold readNumber at h
  simp only at h
  split at h
  · cases h
  · obtain ⟨rfl, rfl, -⟩ := by simpa only [Option.some.injEq, Prod.mk.injEq] using h
    refine ⟨digitsValue_lt _, ?_⟩
    exact Nat.le_trans (List.takeWhile_prefix _).length_le (List.length_take_le _ _)

/-- A fraction is less than a second. -/
theorem readFraction_lt {nano : Nat} {cs rest : List Char}
    (h : readFraction cs = some (nano, rest)) : nano < 1000000000 := by
  simp only [readFraction] at h
  split at h
  · obtain ⟨⟨n, count, tail⟩, hnumber, hvalue⟩ := Option.bind_eq_some_iff.mp h
    obtain ⟨hn, hcount⟩ := readNumber_lt hnumber
    have hnano : n * 10 ^ (9 - count) = nano := congrArg Prod.fst (Option.some.inj hvalue)
    calc nano = n * 10 ^ (9 - count) := hnano.symm
      _ < 10 ^ count * 10 ^ (9 - count) :=
        Nat.mul_lt_mul_of_pos_right hn (Nat.pow_pos (by decide))
      _ = 10 ^ 9 := by rw [← Nat.pow_add, Nat.add_sub_cancel' hcount]
  · cases h
    decide

/-- An offset that is written out is a number of minutes, whatever its sign. -/
theorem signedOffset_minutes {sign offset : Int} {cs rest : List Char}
    (h : (do
      let (hours, rest) ← readPair cs
      let (minutes, rest) ← readPair (rest.dropWhile fun c => c == ':' || isBlankChar c)
      if 60 ≤ minutes then none
      else some (sign * (hours * 3600 + minutes * 60 : Nat), rest)) = some (offset, rest)) :
    offset % 60 = 0 := by
  obtain ⟨⟨hours, behind⟩, -, h⟩ := Option.bind_eq_some_iff.mp h
  obtain ⟨⟨minutes, tail⟩, -, h⟩ := Option.bind_eq_some_iff.mp h
  simp only at h
  split at h
  · cases h
  · have hvalue : sign * (hours * 3600 + minutes * 60 : Nat) = offset :=
      congrArg Prod.fst (Option.some.inj h)
    have hminute : ((hours * 3600 + minutes * 60 : Nat) : Int) =
        (hours * 60 + minutes : Nat) * 60 := by omega
    rw [← hvalue, hminute, ← Int.mul_assoc]
    exact Int.mul_emod_left _ _

/-- An offset is a number of minutes. -/
theorem readOffset_minutes {offset : Int} {cs rest : List Char}
    (h : readOffset cs = some (offset, rest)) : offset % 60 = 0 := by
  have hzero : ∀ tail, some ((0 : Int), tail) = some (offset, rest) → offset % 60 = 0 := by
    intro tail h
    cases h
    rfl
  simp only [readOffset] at h
  split at h
  · exact hzero _ h
  · exact hzero _ h
  · exact signedOffset_minutes h
  · exact signedOffset_minutes h
  · exact signedOffset_minutes h
  · split at h
    · exact hzero _ h
    · cases h
  · cases h

/-- A valid time of day stays one at a whole number of minutes' distance. -/
theorem valid_addSeconds {t : Instant} {n : Int} (hn : n % 60 = 0)
    (hnano : t.nano < 1000000000 ∨ t.second % 60 = 59 ∧ t.nano < 2000000000)
    (hyear : Date.yearInRange (Date.ofDay (t.addSeconds n).day).year = true) :
    (t.addSeconds n).Valid := by
  have hrest : ((t.addSeconds n).second : Int) = ((t.second : Int) + n) % 86400 := by
    show ((((t.second : Int) + n).fmod 86400).toNat : Int) = _
    rw [Int.fmod_eq_emod_of_nonneg _ (by decide)]
    omega
  refine ⟨hyear, by omega, ?_⟩
  rcases hnano with hnano | ⟨hlast, hnano⟩
  · exact Or.inl hnano
  · exact Or.inr ⟨by omega, hnano⟩

/-- A day, a second and nanoseconds that the calendar and the clock have make up a valid
    instant. -/
theorem valid_of_ofFields? {date : Date} {hour minute sec nano : Nat} {offset : Int} {t : Instant}
    (hnano : nano < 1000000000) (hoffset : offset % 60 = 0)
    (h : ofFields? date hour minute sec nano offset = some t) : t.Valid := by
  have hminus : -offset % 60 = 0 := by omega
  rw [ofFields?] at h
  simp only at h
  split at h
  · by_cases hsec : sec = 60
    · simp only [if_pos hsec] at h
      split at h
      · rename_i hyear
        cases h
        refine valid_addSeconds hminus (Or.inr ⟨?_, ?_⟩) hyear
        · show (hour * 3600 + minute * 60 + 59) % 60 = 59
          omega
        · show nano + 1000000000 < 2000000000
          omega
      · cases h
    · simp only [if_neg hsec] at h
      split at h
      · rename_i hyear
        cases h
        exact valid_addSeconds hminus (Or.inl hnano) hyear
      · cases h
  · cases h

/-- The time and the offset that are read behind a date make up a valid instant. -/
theorem valid_of_readTime {date : Date} {cs : List Char} {t : Instant}
    (h : (do
      let (hour, cs) ← readField 2 cs
      let (minute, cs) ← readMarked ':' 2 cs
      let (sec, cs) ← readMarked ':' 2 cs
      let (nano, cs) ← readFraction cs
      let (offset, cs) ← readOffset (Blank.trimStartChars cs)
      if (Blank.trimStartChars cs).isEmpty then ofFields? date hour minute sec nano offset
      else none) = some t) :
    t.Valid := by
  obtain ⟨⟨hour, cs⟩, -, h⟩ := Option.bind_eq_some_iff.mp h
  obtain ⟨⟨minute, cs⟩, -, h⟩ := Option.bind_eq_some_iff.mp h
  obtain ⟨⟨sec, cs⟩, -, h⟩ := Option.bind_eq_some_iff.mp h
  obtain ⟨⟨nano, cs⟩, hfraction, h⟩ := Option.bind_eq_some_iff.mp h
  obtain ⟨⟨offset, cs⟩, hoffset, h⟩ := Option.bind_eq_some_iff.mp h
  simp only at h
  split at h
  · exact valid_of_ofFields? (readFraction_lt hfraction) (readOffset_minutes hoffset) h
  · cases h

/-- **Only valid instants are read.** -/
theorem valid_of_read {s : String} {t : Instant} (h : read s = some t) : t.Valid := by
  rw [read, readChars] at h
  obtain ⟨⟨year, cs⟩, -, h⟩ := Option.bind_eq_some_iff.mp h
  obtain ⟨⟨month, cs⟩, -, h⟩ := Option.bind_eq_some_iff.mp h
  obtain ⟨⟨day, cs⟩, -, h⟩ := Option.bind_eq_some_iff.mp h
  simp only at h
  -- three separators may stand before the time, and all go on in the same way
  split at h
  · exact valid_of_readTime h
  · exact valid_of_readTime h
  · exact valid_of_readTime h
  · cases h

end Instant

end ModelOperator

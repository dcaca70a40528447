import Mathlib.Data.List.DropRight
import Mathlib.Data.Rat.Cast.Order
import Mathlib.Tactic.FieldSimp
import Mathlib.Tactic.Ring
import ModelOperator.Proofs.Number.Digits

/-!
# Durations and their text

    A duration is written as a sum of terms, each a decimal number of some unit.
    `Duration.readTerms?` reads every such sum, whatever its units and in whatever order, and
    `Duration.Term.value` is the exact number of nanoseconds that a term stands for.

    The text of a duration is such a sum (`Duration.chars_eq_terms`), so it is read back term
    by term (`Duration.readTerms?_chars`), and the terms come to the duration again.  The text
    is a canonical one, too: a unit below a larger one stays below sixty, and no fraction has a
    zero at its end (`Duration.text_exact`). -/

namespace ModelOperator

namespace Duration

open Json

/-! ## The notation -/

/-- The units of the notation, from the largest. -/
inductive TimeUnit where
  | hour
  | minute
  | second
  | milli
  | micro
  | nano
  deriving DecidableEq, Repr

namespace TimeUnit

/-- How a unit is written. -/
def symbol : TimeUnit → List Char
  | hour => ['h']
  | minute => ['m']
  | second => ['s']
  | milli => ['m', 's']
  | micro => ['µ', 's']
  | nano => ['n', 's']

/-- The nanoseconds of a unit. -/
def nanos : TimeUnit → Nat
  | hour => 3600 * Duration.second
  | minute => 60 * Duration.second
  | second => Duration.second
  | milli => Duration.milli
  | micro => Duration.micro
  | nano => 1

/-- The unit that is written so. -/
def ofSymbol? (cs : List Char) : Option TimeUnit :=
  [hour, minute, second, milli, micro, nano].find? fun unit => unit.symbol == cs

/-- A unit is known by its symbol. -/
theorem ofSymbol?_symbol (unit : TimeUnit) : ofSymbol? unit.symbol = some unit := by
  cases unit <;> rfl

theorem symbol_ne_nil (unit : TimeUnit) : unit.symbol ≠ [] := by
  cases unit <;> decide

/-- Only its symbol stands for a unit. -/
theorem symbol_of_ofSymbol? {cs : List Char} {unit : TimeUnit} (h : ofSymbol? cs = some unit) :
    cs = unit.symbol := by
  have hsymbol := List.find?_some h
  exact (beq_iff_eq.mp hsymbol).symm

end TimeUnit

/-- A term: digits, the digits behind a point if there is one, and a unit. -/
structure Term where
  whole : List Char
  fraction : Option (List Char)
  unit : TimeUnit
  deriving DecidableEq, Repr

namespace Term

/-- The digits behind the point. -/
def places (t : Term) : List Char := t.fraction.getD []

/-- The nanoseconds that a term stands for. -/
def value (t : Term) : ℚ :=
  (digitsValue t.whole + digitsValue t.places / 10 ^ t.places.length) * t.unit.nanos

/-- How a term is written. -/
def chars (t : Term) : List Char :=
  t.whole ++ ((t.fraction.map ('.' :: ·)).getD [] ++ t.unit.symbol)

end Term

/-- The digits behind a point, if the text goes on with one, and the rest. -/
def spanFraction : List Char → Option (List Char) × List Char
  | '.' :: rest => (some (spanDigits rest).1, (spanDigits rest).2)
  | cs => (none, cs)

/-- Whether a character may stand in the symbol of a unit. -/
def isSymbolChar (c : Char) : Bool := c != '.' && (digitValue? c).isNone

/-- One term and the rest; a term has a digit before or behind its point. -/
def readTerm? (cs : List Char) : Option (Term × List Char) :=
  let whole := spanDigits cs
  let fraction := spanFraction whole.2
  match TimeUnit.ofSymbol? (fraction.2.takeWhile isSymbolChar) with
  | none => none
  | some unit =>
    let t : Term := ⟨whole.1, fraction.1, unit⟩
    if t.whole = [] ∧ t.places = [] then none
    else some (t, fraction.2.dropWhile isSymbolChar)

/-- What follows digits is no longer than what they begin. -/
theorem length_spanDigits_le (cs : List Char) : (spanDigits cs).2.length ≤ cs.length := by
  rw [spanDigits, List.span_eq_takeWhile_dropWhile]
  exact (List.dropWhile_sublist _).length_le

/-- What follows a fraction is no longer than what it begins. -/
theorem length_spanFraction_le (cs : List Char) : (spanFraction cs).2.length ≤ cs.length := by
  rw [spanFraction.eq_def]
  split
  · exact Nat.le_succ_of_le (length_spanDigits_le _)
  · exact Nat.le_refl _

/-- A term takes the symbol of its unit at least. -/
theorem length_lt_of_readTerm? {cs rest : List Char} {t : Term}
    (h : readTerm? cs = some (t, rest)) : rest.length < cs.length := by
  have hdigits := length_spanDigits_le cs
  have hfraction := length_spanFraction_le (spanDigits cs).2
  rw [readTerm?] at h
  dsimp only at h
  split at h
  · cases h
  · rename_i unit hunit
    split at h
    · cases h
    · cases h
      have hsplit := congrArg List.length (List.takeWhile_append_dropWhile (p := isSymbolChar)
        (l := (spanFraction (spanDigits cs).2).2))
      rw [List.length_append, TimeUnit.symbol_of_ofSymbol? hunit] at hsplit
      have hpos := List.length_pos_iff.mpr unit.symbol_ne_nil
      omega

/-- The terms of a sum. -/
def readTerms? (cs : List Char) : Option (List Term) :=
  match _hread : readTerm? cs with
  | none => none
  | some (t, rest) => if rest = [] then some [t] else (readTerms? rest).map (t :: ·)
termination_by cs.length
decreasing_by exact length_lt_of_readTerm? _hread

/-! ## Sums of terms read back -/

/-- A term that the notation has: digits before the point, and behind it. -/
structure Term.WellFormed (t : Term) : Prop where
  whole : ∀ c ∈ t.whole, (digitValue? c).isSome = true
  places : ∀ c ∈ t.places, (digitValue? c).isSome = true
  ne_nil : t.whole ≠ []

/-- What a symbol is followed by: nothing, or what is no part of a symbol. -/
def EndsSymbol (rest : List Char) : Prop := ∀ c ∈ rest.head?, isSymbolChar c = false

/-- Digits end where something else follows. -/
theorem spanDigits_append {ds rest : List Char} (hds : ∀ c ∈ ds, (digitValue? c).isSome = true)
    (hrest : ∀ c ∈ rest.head?, (digitValue? c).isSome = false) :
    spanDigits (ds ++ rest) = (ds, rest) := by
  have htake : rest.takeWhile (fun c => (digitValue? c).isSome) = [] := by
    cases rest with
    | nil => rfl
    | cons c cs =>
        exact List.takeWhile_cons_of_neg (Bool.eq_false_iff.mp (hrest c rfl))
  have hdrop : rest.dropWhile (fun c => (digitValue? c).isSome) = rest := by
    cases rest with
    | nil => rfl
    | cons c cs =>
        exact List.dropWhile_cons_of_neg (Bool.eq_false_iff.mp (hrest c rfl))
  rw [spanDigits, List.span_eq_takeWhile_dropWhile, List.takeWhile_append_of_pos hds,
    List.dropWhile_append_of_pos hds, htake, hdrop, List.append_nil]

/-- Symbols are made of the characters that symbols may have. -/
theorem isSymbolChar_of_mem_symbol {unit : TimeUnit} {c : Char} (h : c ∈ unit.symbol) :
    isSymbolChar c = true := by
  have hall : unit.symbol.all isSymbolChar = true := by cases unit <;> rfl
  exact List.all_eq_true.mp hall c h

/-- A symbol goes on with no digit and no point. -/
theorem head?_symbol_append (unit : TimeUnit) (rest : List Char) :
    ∃ c tail, unit.symbol ++ rest = c :: tail ∧ isSymbolChar c = true := by
  cases hsymbol : unit.symbol with
  | nil => exact absurd hsymbol unit.symbol_ne_nil
  | cons c tail =>
      exact ⟨c, tail ++ rest, rfl, isSymbolChar_of_mem_symbol (hsymbol ▸ List.mem_cons_self)⟩

/-- Such a character is no part of a number. -/
theorem not_digit_of_isSymbolChar {c : Char} (h : isSymbolChar c = true) :
    c ≠ '.' ∧ (digitValue? c).isSome = false := by
  obtain ⟨hpoint, hdigit⟩ := Bool.and_eq_true_iff.mp h
  exact ⟨bne_iff_ne.mp hpoint, by simpa using hdigit⟩

/-- A fraction, or none, is read in front of a symbol. -/
theorem spanFraction_symbol {t : Term} (h : t.WellFormed) (rest : List Char) :
    spanFraction ((t.fraction.map ('.' :: ·)).getD [] ++ (t.unit.symbol ++ rest)) =
      (t.fraction, t.unit.symbol ++ rest) := by
  obtain ⟨c, tail, hsymbol, hc⟩ := head?_symbol_append t.unit rest
  obtain ⟨hpoint, hdigit⟩ := not_digit_of_isSymbolChar hc
  cases hfraction : t.fraction with
  | none =>
      show spanFraction (t.unit.symbol ++ rest) = _
      rw [hsymbol, spanFraction]
      rintro _ ⟨⟩
      exact hpoint rfl
  | some ds =>
      have hds : ∀ c ∈ ds, (digitValue? c).isSome = true := by
        have hplaces := h.places
        rwa [Term.places, hfraction] at hplaces
      have hspan : spanDigits (ds ++ (t.unit.symbol ++ rest)) = (ds, t.unit.symbol ++ rest) := by
        refine spanDigits_append hds ?_
        rw [hsymbol]
        rintro c' ⟨⟩
        exact hdigit
      show ((some (spanDigits (ds ++ (t.unit.symbol ++ rest))).1,
        (spanDigits (ds ++ (t.unit.symbol ++ rest))).2) : Option (List Char) × List Char) = _
      rw [hspan]

/-- **A term is read back.** -/
theorem readTerm?_chars {t : Term} (h : t.WellFormed) {rest : List Char}
    (hrest : EndsSymbol rest) : readTerm? (t.chars ++ rest) = some (t, rest) := by
  have hwhole : spanDigits (t.chars ++ rest) =
      (t.whole, (t.fraction.map ('.' :: ·)).getD [] ++ (t.unit.symbol ++ rest)) := by
    rw [Term.chars, List.append_assoc, List.append_assoc]
    refine spanDigits_append h.whole ?_
    cases t.fraction with
    | none =>
        obtain ⟨c, tail, hsymbol, hc⟩ := head?_symbol_append t.unit rest
        show ∀ c ∈ (t.unit.symbol ++ rest).head?, _
        rw [hsymbol]
        rintro c' ⟨⟩
        exact (not_digit_of_isSymbolChar hc).2
    | some ds =>
        rintro c' ⟨⟩
        rfl
  have hsymbol : (t.unit.symbol ++ rest).takeWhile isSymbolChar = t.unit.symbol ∧
      (t.unit.symbol ++ rest).dropWhile isSymbolChar = rest := by
    have hall : ∀ c ∈ t.unit.symbol, isSymbolChar c = true := fun c => isSymbolChar_of_mem_symbol
    rw [List.takeWhile_append_of_pos hall, List.dropWhile_append_of_pos hall]
    cases rest with
    | nil => exact ⟨List.append_nil _, rfl⟩
    | cons c tail =>
        have hc : ¬ isSymbolChar c = true := Bool.eq_false_iff.mp (hrest c rfl)
        rw [List.takeWhile_cons_of_neg hc, List.dropWhile_cons_of_neg hc]
        exact ⟨List.append_nil _, rfl⟩
  rw [readTerm?, hwhole]
  dsimp only
  rw [spanFraction_symbol h]
  dsimp only
  rw [hsymbol.1, hsymbol.2, TimeUnit.ofSymbol?_symbol]
  exact if_neg fun hnil => h.ne_nil hnil.1

/-- A sum goes on with a digit behind each of its terms. -/
theorem endsSymbol_chars {t : Term} (h : t.WellFormed) (rest : List Char) :
    EndsSymbol (t.chars ++ rest) := by
  intro c hc
  cases hwhole : t.whole with
  | nil => exact absurd hwhole h.ne_nil
  | cons d ds =>
      rw [Term.chars, hwhole] at hc
      obtain rfl : d = c := Option.some.inj hc
      have hd := h.whole d (hwhole ▸ List.mem_cons_self)
      rw [isSymbolChar, Option.isNone_eq_false_iff.mpr hd, Bool.and_false]

/-- **A sum is read back term by term.** -/
theorem readTerms?_chars {t : Term} {ts : List Term} (h : ∀ u ∈ t :: ts, u.WellFormed) :
    readTerms? ((t :: ts).flatMap Term.chars) = some (t :: ts) := by
  induction ts generalizing t with
  | nil =>
      have hread : readTerm? ([t].flatMap Term.chars) = some (t, []) :=
        readTerm?_chars (h t List.mem_cons_self) (fun c hc => nomatch hc)
      rw [readTerms?]
      split
      · rename_i hnone
        cases hnone.symm.trans hread
      · rename_i hsome
        cases hsome.symm.trans hread
        exact if_pos rfl
  | cons u us ih =>
      obtain ⟨ht, hmore⟩ := List.forall_mem_cons.mp h
      have hu := hmore u List.mem_cons_self
      have hne : (u :: us).flatMap Term.chars ≠ [] := by
        rw [List.flatMap_cons, Term.chars]
        simp [hu.ne_nil]
      have hread : readTerm? ((t :: u :: us).flatMap Term.chars) =
          some (t, (u :: us).flatMap Term.chars) :=
        readTerm?_chars ht (endsSymbol_chars hu _)
      rw [readTerms?]
      split
      · rename_i hnone
        cases hnone.symm.trans hread
      · rename_i hsome
        cases hsome.symm.trans hread
        rw [if_neg hne, ih hmore]
        rfl

/-! ## The terms of a duration -/

namespace Term

/-- A whole number of a unit. -/
def ofWhole (n : Nat) (unit : TimeUnit) : Term := ⟨decimalDigits n, none, unit⟩

/-- Nanoseconds in a unit that is a power of ten of them. -/
def ofNanos (n places : Nat) (unit : TimeUnit) : Term where
  whole := decimalDigits (n / unit.nanos)
  fraction :=
    if n % unit.nanos = 0 then none else some (trimZeros (padded places (n % unit.nanos)))
  unit := unit

end Term

/-- The terms of a second or more: hours, minutes and seconds, without what is zero in front. -/
def clockTerms (n : Nat) : List Term :=
  let total := n / second
  (if 0 < total / 3600 then [.ofWhole (total / 3600) .hour] else []) ++
  (if 0 < total / 3600 ∨ 0 < total / 60 % 60 then [.ofWhole (total / 60 % 60) .minute]
    else []) ++
  [.ofNanos (total % 60 * second + n % second) 9 .second]

/-- The terms of which the text of a duration is the sum. -/
def terms (d : Duration) : List Term :=
  if d.nanos = 0 then [.ofWhole 0 .second]
  else if d.nanos < micro then [.ofWhole d.nanos .nano]
  else if d.nanos < milli then [.ofNanos d.nanos 3 .micro]
  else if d.nanos < second then [.ofNanos d.nanos 6 .milli]
  else clockTerms d.nanos

/-- A count of nanoseconds is written as a decimal of its unit, and then the unit. -/
theorem chars_ofNanos (n places : Nat) (unit : TimeUnit) :
    (Term.ofNanos n places unit).chars = inUnit n unit.nanos places ++ unit.symbol := by
  rw [Term.chars, Term.ofNanos, inUnit]
  by_cases hzero : n % unit.nanos = 0
  · rw [if_pos hzero, if_pos hzero]
    rfl
  · rw [if_neg hzero, if_neg hzero]
    exact (List.append_assoc _ _ _).symm

/-- **The ranges.**  A duration is written as a whole number of one unit, in one unit with a
    fraction, or from a second on in several. -/
theorem terms_cases (d : Duration) :
    (∃ n unit, d.terms = [.ofWhole n unit] ∧ d.chars = (Term.ofWhole n unit).chars ∧
      n * unit.nanos = d.nanos) ∨
    (∃ places unit, d.terms = [.ofNanos d.nanos places unit] ∧
      d.chars = (Term.ofNanos d.nanos places unit).chars ∧
      0 < places ∧ unit.nanos = 10 ^ places) ∨
    (d.terms = clockTerms d.nanos ∧ d.chars = (clockTerms d.nanos).flatMap Term.chars) := by
  rw [terms, chars]
  dsimp only
  by_cases hzero : d.nanos = 0
  · rw [if_pos hzero, if_pos hzero, hzero]
    exact Or.inl ⟨0, .second, rfl, rfl, rfl⟩
  rw [if_neg hzero, if_neg hzero]
  by_cases hmicro : d.nanos < micro
  · rw [if_pos hmicro, if_pos hmicro]
    exact Or.inl ⟨d.nanos, .nano, rfl, rfl, Nat.mul_one _⟩
  rw [if_neg hmicro, if_neg hmicro]
  by_cases hmilli : d.nanos < milli
  · rw [if_pos hmilli, if_pos hmilli]
    exact Or.inr (Or.inl ⟨3, .micro, rfl, (chars_ofNanos _ 3 .micro).symm, by decide, rfl⟩)
  rw [if_neg hmilli, if_neg hmilli]
  by_cases hsecond : d.nanos < second
  · rw [if_pos hsecond, if_pos hsecond]
    exact Or.inr (Or.inl ⟨6, .milli, rfl, (chars_ofNanos _ 6 .milli).symm, by decide, rfl⟩)
  rw [if_neg hsecond, if_neg hsecond]
  refine Or.inr (Or.inr ⟨rfl, ?_⟩)
  rw [clockTerms, List.flatMap_append, List.flatMap_append, List.flatMap_singleton, chars_ofNanos]
  -- each of the larger units is there under one condition in the text and in the terms
  refine congrArg (· ++ _) (congrArg₂ (· ++ ·) ?_ ?_)
  · split
    · exact (List.append_nil _).symm
    · rfl
  · split
    · exact (List.append_nil _).symm
    · rfl

/-- **The text is the sum of the terms.** -/
theorem chars_eq_terms (d : Duration) : d.chars = d.terms.flatMap Term.chars := by
  obtain ⟨n, unit, hterms, hchars, -⟩ | ⟨places, unit, hterms, hchars, -⟩ | ⟨hterms, hchars⟩ :=
    terms_cases d
  · rw [hterms, hchars, List.flatMap_singleton]
  · rw [hterms, hchars, List.flatMap_singleton]
  · rw [hterms, hchars]

/-! ## Digits without the zeros at their end -/

theorem trimZeros_eq (ds : List Char) : trimZeros ds = ds.rdropWhile (· == '0') := rfl

/-- Zeros at the end are powers of ten. -/
theorem digitsValue_append_zeros (ds : List Char) (k : Nat) :
    digitsValue (ds ++ List.replicate k '0') = digitsValue ds * 10 ^ k := by
  induction k with
  | zero => rw [List.replicate_zero, List.append_nil, Nat.pow_zero, Nat.mul_one]
  | succ k ih =>
      have hzero : ('0' : Char) = (0 : Nat).digitChar := rfl
      rw [List.replicate_succ', ← List.append_assoc, hzero, digitsValue_concat _ (by decide),
        ← hzero, ih, Nat.pow_succ, Nat.add_zero, Nat.mul_assoc]

/-- What is cut from the end of digits are zeros. -/
theorem exists_trimZeros (ds : List Char) :
    ∃ k, ds = trimZeros ds ++ List.replicate k '0' := by
  have hall : ∀ c ∈ ds.rtakeWhile (· == '0'), c = '0' := by
    intro c hc
    have hzero := List.mem_rtakeWhile_imp hc
    exact beq_iff_eq.mp hzero
  refine ⟨(ds.rtakeWhile (· == '0')).length, ?_⟩
  rw [← List.eq_replicate_iff.mpr ⟨rfl, hall⟩, trimZeros_eq,
    List.rdropWhile_append_rtakeWhile]

/-- Cutting zeros keeps the fraction. -/
theorem trimZeros_fraction (ds : List Char) :
    (digitsValue (trimZeros ds) / 10 ^ (trimZeros ds).length : ℚ) =
      digitsValue ds / 10 ^ ds.length := by
  obtain ⟨k, hds⟩ := exists_trimZeros ds
  have hvalue := digitsValue_append_zeros (trimZeros ds) k
  have hlength := congrArg List.length hds
  rw [← hds] at hvalue
  rw [List.length_append, List.length_replicate] at hlength
  rw [hvalue, hlength, pow_add]
  push_cast
  field_simp

/-! ## What the terms come to -/

/-- A whole count of a unit is worth that many of it. -/
theorem value_ofWhole (n : Nat) (unit : TimeUnit) :
    (Term.ofWhole n unit).value = n * unit.nanos := by
  rw [Term.value, Term.ofWhole, digitsValue_decimalDigits]
  simp [Term.places, digitsValue]

/-- A decimal is worth its nanoseconds, if it has as many places as its unit needs. -/
theorem value_ofNanos (n : Nat) {places : Nat} {unit : TimeUnit} (hpos : 0 < places)
    (hunit : unit.nanos = 10 ^ places) : (Term.ofNanos n places unit).value = n := by
  have hsplit : ((n / unit.nanos * unit.nanos + n % unit.nanos : Nat) : ℚ) = n :=
    congrArg Nat.cast (Nat.div_add_mod' n unit.nanos)
  have hunitq : (unit.nanos : ℚ) = 10 ^ places := by exact_mod_cast hunit
  have hunitpos : (unit.nanos : ℚ) ≠ 0 := by
    rw [hunitq]
    exact pow_ne_zero _ (by decide)
  rw [← hsplit]
  push_cast
  rw [Term.value, Term.places, Term.ofNanos]
  dsimp only
  by_cases hzero : n % unit.nanos = 0
  · rw [if_pos hzero, hzero, digitsValue_decimalDigits]
    simp [digitsValue]
  · have hrest : n % unit.nanos < 10 ^ places := by
      rw [← hunit]
      exact Nat.mod_lt _ (by rw [hunit]; exact Nat.pow_pos (by decide))
    rw [if_neg hzero, Option.getD_some, digitsValue_decimalDigits, trimZeros_fraction,
      digitsValue_padded, length_padded hpos hrest, ← hunitq]
    field_simp

/-- Hours, minutes and seconds together are worth the whole. -/
theorem sum_clockTerms (n : Nat) : ((clockTerms n).map Term.value).sum = n := by
  rw [clockTerms]
  -- a unit that is not written is zero
  have hhours : ((if 0 < n / second / 3600 then [Term.ofWhole (n / second / 3600) .hour]
      else []).map Term.value).sum = ((n / second / 3600 * TimeUnit.hour.nanos : Nat) : ℚ) := by
    split
    · rw [List.map_singleton, List.sum_singleton, value_ofWhole, Nat.cast_mul]
    · rename_i hnone
      rw [Nat.eq_zero_of_not_pos hnone]
      simp
  have hminutes : ((if 0 < n / second / 3600 ∨ 0 < n / second / 60 % 60 then
      [Term.ofWhole (n / second / 60 % 60) .minute] else []).map Term.value).sum =
        ((n / second / 60 % 60 * TimeUnit.minute.nanos : Nat) : ℚ) := by
    split
    · rw [List.map_singleton, List.sum_singleton, value_ofWhole, Nat.cast_mul]
    · rename_i hnone
      rw [Nat.eq_zero_of_not_pos fun h => hnone (Or.inr h)]
      simp
  rw [List.map_append, List.map_append, List.sum_append, List.sum_append, hhours, hminutes,
    List.map_singleton, List.sum_singleton, value_ofNanos _ (by decide) rfl]
  have htotal : n / second / 3600 * TimeUnit.hour.nanos +
      n / second / 60 % 60 * TimeUnit.minute.nanos +
      (n / second % 60 * second + n % second) = n := by
    simp only [TimeUnit.nanos, second]
    omega
  exact_mod_cast htotal

/-- **The terms come to the duration.** -/
theorem sum_terms (d : Duration) : (d.terms.map Term.value).sum = d.nanos := by
  obtain ⟨n, unit, hterms, -, hnanos⟩ | ⟨places, unit, hterms, -, hpos, hunit⟩ | ⟨hterms, -⟩ :=
    terms_cases d
  · rw [hterms, List.map_singleton, List.sum_singleton, value_ofWhole, ← hnanos, Nat.cast_mul]
  · rw [hterms, List.map_singleton, List.sum_singleton, value_ofNanos _ hpos hunit]
  · rw [hterms, sum_clockTerms]

/-! ## The form of the terms -/

/-- A whole count is well formed. -/
theorem wellFormed_ofWhole (n : Nat) (unit : TimeUnit) : (Term.ofWhole n unit).WellFormed where
  whole _ hc := isDigit_of_mem_decimalDigits hc
  places _ hc := nomatch hc
  ne_nil := Nat.toDigits_ne_nil

/-- A decimal is well formed. -/
theorem wellFormed_ofNanos (n places : Nat) (unit : TimeUnit) :
    (Term.ofNanos n places unit).WellFormed where
  whole _ hc := isDigit_of_mem_decimalDigits hc
  places := by
    intro c hc
    rw [Term.places, Term.ofNanos] at hc
    dsimp only at hc
    split at hc
    · cases hc
    · exact isDigit_of_mem_padded ((List.rdropWhile_prefix _ _).subset hc)
  ne_nil := Nat.toDigits_ne_nil

/-- **No zero at the end.**  Behind a point there are digits, and the last one is not zero. -/
def Term.Trimmed (t : Term) : Prop :=
  ∀ ds, t.fraction = some ds → ds ≠ [] ∧ ds.getLast? ≠ some '0'

/-- A whole count has no fraction to trim. -/
theorem trimmed_ofWhole (n : Nat) (unit : TimeUnit) : (Term.ofWhole n unit).Trimmed := by
  intro ds hds
  cases hds

/-- Decimals are written without the zeros at their end. -/
theorem trimmed_ofNanos (n places : Nat) (unit : TimeUnit) :
    (Term.ofNanos n places unit).Trimmed := by
  intro ds hds
  rw [Term.ofNanos] at hds
  dsimp only at hds
  split at hds
  · cases hds
  · rename_i hrest
    obtain rfl := Option.some.inj hds
    have hne : trimZeros (padded places (n % unit.nanos)) ≠ [] := by
      -- digits that are all zeros name zero
      intro hnil
      obtain ⟨k, hzeros⟩ := exists_trimZeros (padded places (n % unit.nanos))
      have hvalue := digitsValue_padded places (n % unit.nanos)
      rw [hzeros, hnil, digitsValue_append_zeros] at hvalue
      exact hrest (hvalue.symm.trans (Nat.zero_mul _))
    refine ⟨hne, fun hlast => ?_⟩
    have hnot := List.rdropWhile_last_not (· == '0') (padded places (n % unit.nanos)) hne
    rw [List.getLast?_eq_some_getLast hne] at hlast
    exact hnot (beq_iff_eq.mpr (Option.some.inj hlast))

/-- A term under a larger unit: less than sixty of its own. -/
def Term.Carries (a b : Term) : Prop :=
  b.unit.nanos < a.unit.nanos ∧ b.value < 60 * b.unit.nanos

/-- **The form of a sum.**  There is a term at least, all terms can be read, what stands behind a
    larger unit is less than sixty, and no fraction ends in a zero. -/
structure Canonical (ts : List Term) : Prop where
  ne_nil : ts ≠ []
  wellFormed : ∀ t ∈ ts, t.WellFormed
  carries : ts.Pairwise Term.Carries
  trimmed : ∀ t ∈ ts, t.Trimmed

/-- One whole count is in canonical form. -/
theorem canonical_ofWhole (n : Nat) (unit : TimeUnit) : Canonical [.ofWhole n unit] where
  ne_nil := List.cons_ne_nil _ _
  wellFormed := List.forall_mem_singleton.mpr (wellFormed_ofWhole n unit)
  carries := List.pairwise_singleton _ _
  trimmed := List.forall_mem_singleton.mpr (trimmed_ofWhole n unit)

/-- One decimal is in canonical form. -/
theorem canonical_ofNanos (n places : Nat) (unit : TimeUnit) :
    Canonical [.ofNanos n places unit] where
  ne_nil := List.cons_ne_nil _ _
  wellFormed := List.forall_mem_singleton.mpr (wellFormed_ofNanos n places unit)
  carries := List.pairwise_singleton _ _
  trimmed := List.forall_mem_singleton.mpr (trimmed_ofNanos n places unit)

/-- A larger unit in front. -/
theorem Canonical.cons {ts : List Term} (h : Canonical ts) {n : Nat} {unit : TimeUnit}
    (hcarries : ∀ t ∈ ts, (Term.ofWhole n unit).Carries t) :
    Canonical (.ofWhole n unit :: ts) where
  ne_nil := List.cons_ne_nil _ _
  wellFormed := List.forall_mem_cons.mpr ⟨wellFormed_ofWhole n unit, h.wellFormed⟩
  carries := List.pairwise_cons.mpr ⟨hcarries, h.carries⟩
  trimmed := List.forall_mem_cons.mpr ⟨trimmed_ofWhole n unit, h.trimmed⟩

/-- Hours, minutes and seconds are in canonical form. -/
theorem canonical_clockTerms (n : Nat) : Canonical (clockTerms n) := by
  rw [clockTerms]
  generalize n / second = total
  -- seconds and minutes are what is left of a larger unit
  have hseconds : ∀ {m unit}, TimeUnit.second.nanos < unit.nanos →
      (Term.ofWhole m unit).Carries (.ofNanos (total % 60 * second + n % second) 9 .second) := by
    intro m unit hunit
    refine ⟨hunit, ?_⟩
    have hbelow : total % 60 * second + n % second < 60 * second := by
      rw [second]
      omega
    rw [value_ofNanos _ (by decide) rfl]
    exact_mod_cast hbelow
  have hminutes : (Term.ofWhole (total / 3600) .hour).Carries
      (.ofWhole (total / 60 % 60) .minute) := by
    have hunit : TimeUnit.minute.nanos < TimeUnit.hour.nanos := by decide
    refine ⟨hunit, ?_⟩
    have hbelow : total / 60 % 60 * TimeUnit.minute.nanos < 60 * TimeUnit.minute.nanos :=
      Nat.mul_lt_mul_of_pos_right (Nat.mod_lt _ (by decide)) (by decide)
    rw [value_ofWhole]
    exact_mod_cast hbelow
  have hshort : Canonical [.ofWhole (total / 60 % 60) .minute,
      .ofNanos (total % 60 * second + n % second) 9 .second] :=
    (canonical_ofNanos _ 9 .second).cons (List.forall_mem_singleton.mpr (hseconds (by decide)))
  by_cases hhours : 0 < total / 3600
  · rw [if_pos hhours, if_pos (Or.inl hhours)]
    refine hshort.cons ?_
    rw [List.forall_mem_cons, List.forall_mem_singleton]
    exact ⟨hminutes, hseconds (by decide)⟩
  rw [if_neg hhours]
  by_cases hmore : 0 < total / 60 % 60
  · rw [if_pos (Or.inr hmore)]
    exact hshort
  · rw [if_neg (not_or.mpr ⟨hhours, hmore⟩)]
    exact canonical_ofNanos _ 9 .second

/-- Every duration is written in canonical form. -/
theorem canonical_terms (d : Duration) : Canonical d.terms := by
  obtain ⟨n, unit, hterms, -⟩ | ⟨places, unit, hterms, -⟩ | ⟨hterms, -⟩ := terms_cases d
  · rw [hterms]
    exact canonical_ofWhole n unit
  · rw [hterms]
    exact canonical_ofNanos d.nanos places unit
  · rw [hterms]
    exact canonical_clockTerms d.nanos

/-- **Durations are written exactly, and in one way.**  The text of a duration is a sum of terms
    in the notation, which come to exactly its nanoseconds; minutes and seconds behind a larger
    unit are below sixty, a fraction does not end in a zero, and two durations never have the
    same text. -/
theorem text_exact :
    (∀ d : Duration, ∃ ts, readTerms? d.text.toList = some ts ∧
      (ts.map Term.value).sum = d.nanos ∧ ts.Pairwise Term.Carries ∧ ∀ t ∈ ts, t.Trimmed) ∧
    Function.Injective Duration.text := by
  have hread : ∀ d : Duration, readTerms? d.text.toList = some d.terms := by
    intro d
    have hwell := (canonical_terms d).wellFormed
    obtain ⟨t, ts, hterms⟩ := List.exists_cons_of_ne_nil (canonical_terms d).ne_nil
    rw [text, String.toList_ofList, chars_eq_terms]
    rw [hterms] at hwell ⊢
    exact readTerms?_chars hwell
  refine ⟨fun d => ⟨d.terms, hread d, sum_terms d, (canonical_terms d).carries,
    (canonical_terms d).trimmed⟩, fun d e hsame => ?_⟩
  -- one text is read in one way, and what is read comes to the duration
  have hterms : d.terms = e.terms := Option.some.inj ((hread d).symm.trans (hsame ▸ hread e))
  have hnanos : (d.nanos : ℚ) = e.nanos := by rw [← sum_terms d, ← sum_terms e, hterms]
  cases d
  cases e
  exact congrArg Duration.mk (Nat.cast_injective hnanos)

end Duration

end ModelOperator

import Mathlib.Tactic.IntervalCases
import ModelOperator.Json.Printer
import ModelOperator.Proofs.Json.Containers
import ModelOperator.Proofs.Number.Digits

/-!
# Lists of whole numbers read back

    The text of a whole number is read as that number as long as it fits 64 bits and something
    follows that ends it (`Json.EndsNumber`).  In a list each number is followed by a comma or
    the bracket, so a list of such numbers is read back as a whole, and its reader needs no more
    than one unit of fuel for each (`Json.parse_compact_numbers`). -/

namespace ModelOperator

namespace Json

/-! ## Digits -/

/-- The leading digit of a number is zero only where the number is. -/
theorem exists_decimalDigits (n : Nat) :
    ∃ d tail, d < 10 ∧ decimalDigits n = d.digitChar :: tail ∧ (d = 0 → n = 0 ∧ tail = []) := by
  induction n using Nat.strongRecOn with
  | ind n ih =>
      rw [decimalDigits]
      by_cases hsmall : n < 10
      · rw [Nat.toDigits_of_lt_base hsmall]
        exact ⟨n, [], hsmall, rfl, fun h => ⟨h, rfl⟩⟩
      · obtain ⟨d, tail, hd, hdigits, hzero⟩ := ih (n / 10) (by omega)
        rw [decimalDigits] at hdigits
        rw [Nat.toDigits_of_base_le (by decide) (Nat.le_of_not_lt hsmall), hdigits]
        refine ⟨d, tail ++ [(n % 10).digitChar], hd, rfl, fun h => ?_⟩
        have htens := (hzero h).1
        omega

/-- What a number goes on with in a list: a comma or the bracket. -/
def EndsNumber (rest : List Char) : Prop := ∃ c tail, rest = c :: tail ∧ (c = ',' ∨ c = ']')

theorem EndsNumber.readAfterDigits {rest : List Char} (h : EndsNumber rest) (negative : Bool)
    (n : Nat) : readAfterDigits negative n rest = finishInt negative n rest := by
  obtain ⟨c, tail, rfl, rfl | rfl⟩ := h <;> rfl

theorem EndsNumber.readDigits {rest : List Char} (h : EndsNumber rest) (n : Nat) :
    readDigits n rest = (n, 0, rest) := by
  obtain ⟨c, tail, rfl, rfl | rfl⟩ := h <;> rfl

/-- The number that digits make behind those of another number. -/
def digitsFrom (n : Nat) (ds : List Char) : Nat :=
  ds.foldl (fun n c => n * 10 + (digitValue? c).getD 0) n

/-- Digits only add to a number. -/
theorem le_digitsFrom (n : Nat) (ds : List Char) : n ≤ digitsFrom n ds := by
  induction ds generalizing n with
  | nil => exact Nat.le_refl n
  | cons c rest ih =>
      have hstep : n ≤ n * 10 + (digitValue? c).getD 0 := by omega
      exact Nat.le_trans hstep (ih _)

/-- Digits whose number fits are read to their end. -/
theorem readDigits_append {ds rest : List Char} (hd : ∀ c ∈ ds, (digitValue? c).isSome = true)
    (hrest : EndsNumber rest) {n : Nat} (hfits : digitsFrom n ds ≤ maxWord) :
    readDigits n (ds ++ rest) = (digitsFrom n ds, ds.length, rest) := by
  induction ds generalizing n with
  | nil => exact hrest.readDigits n
  | cons c cs ih =>
      obtain ⟨d, hc⟩ := Option.isSome_iff_exists.mp (hd c List.mem_cons_self)
      have hfrom : digitsFrom n (c :: cs) = digitsFrom (n * 10 + d) cs := by
        rw [digitsFrom, List.foldl_cons, hc]
        rfl
      rw [hfrom] at hfits ⊢
      -- the number on the way fits because the last one does
      have hstep : n * 10 + d ≤ maxWord := Nat.le_trans (le_digitsFrom _ cs) hfits
      rw [List.cons_append, readDigits, hc]
      dsimp only
      rw [if_pos hstep, ih (fun c hc => hd c (List.mem_cons_of_mem _ hc)) hfits]
      rfl

/-- The digits of a number that fits are read as that number. -/
theorem readNumber_decimalDigits {n : Nat} (hn : n ≤ maxWord) {rest : List Char}
    (hrest : EndsNumber rest) (negative : Bool) :
    readNumber negative (decimalDigits n ++ rest) = finishInt negative n rest := by
  obtain ⟨d, tail, hd, hdigits, hzero⟩ := exists_decimalDigits n
  have hvalue := digitsValue_decimalDigits n
  have hall : ∀ c ∈ tail, (digitValue? c).isSome = true := by
    intro c hc
    refine isDigit_of_mem_decimalDigits (n := n) ?_
    rw [hdigits]
    exact List.mem_cons_of_mem _ hc
  rw [hdigits, digitsValue, List.foldl_cons, digitValue?_digitChar hd, Option.getD_some,
    Nat.zero_mul, Nat.zero_add, ← digitsFrom] at hvalue
  rw [hdigits, List.cons_append]
  by_cases hd0 : d = 0
  · -- a zero stands alone
    obtain ⟨rfl, rfl⟩ := hzero hd0
    subst hd0
    obtain ⟨c, tail, rfl, rfl | rfl⟩ := hrest <;> rfl
  · have hne : d.digitChar ≠ '0' := by
      intro h
      have hvalue := digitValue?_digitChar hd
      rw [h] at hvalue
      exact hd0 (Option.some_inj.mp hvalue).symm
    have hread := readDigits_append hall hrest (hvalue ▸ hn)
    rw [hvalue] at hread
    rw [readNumber]
    · rw [digitValue?_digitChar hd]
      dsimp only
      rw [hread]
      exact hrest.readAfterDigits negative n
    · exact hne

/-! ## Values -/

theorem readValue_minus (fuel depth : Nat) (rest : List Char) :
    readValue (fuel + 1) depth ('-' :: rest) = readNumber true rest := by
  rw [readValue]
  rfl

theorem readValue_digit {d : Nat} (h : d < 10) (fuel depth : Nat) (rest : List Char) :
    readValue (fuel + 1) depth (d.digitChar :: rest) = readNumber false (d.digitChar :: rest) := by
  rw [readValue]
  interval_cases d <;> rfl

/-- A whole number of 64 bits is read back. -/
theorem readValue_intDigits {n : Int}
    (hn : -9223372036854775808 ≤ n ∧ n ≤ 9223372036854775807) {rest : List Char}
    (hrest : EndsNumber rest) (fuel depth : Nat) :
    readValue (fuel + 1) depth (intDigits n ++ rest) = some (.int n, rest) := by
  have hfits : n.natAbs ≤ maxWord := by
    rw [maxWord]
    omega
  by_cases hneg : n < 0
  · have hzero : n.natAbs ≠ 0 := by omega
    have hlow : n.natAbs ≤ 9223372036854775808 := by omega
    have hvalue : -(n.natAbs : Int) = n := by omega
    rw [intDigits, if_pos hneg, List.cons_append, readValue_minus,
      readNumber_decimalDigits hfits hrest, finishInt, if_pos rfl, if_neg hzero, if_pos hlow,
      hvalue]
  · have hvalue : (n.natAbs : Int) = n := by omega
    obtain ⟨d, tail, hd, hdigits, -⟩ := exists_decimalDigits n.natAbs
    have hread := readNumber_decimalDigits hfits hrest false
    rw [hdigits, List.cons_append] at hread
    rw [intDigits, if_neg hneg, hdigits, List.cons_append, readValue_digit hd, hread, finishInt,
      if_neg Bool.false_ne_true, hvalue]

/-! ## Lists -/

/-- A list does not close where a whole number stands. -/
theorem skipBlanks_intDigits (n : Int) (rest tail : List Char) :
    skipBlanks (intDigits n ++ rest) = ']' :: tail → False := by
  obtain ⟨d, more, hd, hdigits, -⟩ := exists_decimalDigits n.natAbs
  rw [intDigits]
  by_cases hneg : n < 0
  · rw [if_pos hneg]
    nofun
  · rw [if_neg hneg, hdigits]
    interval_cases d <;> nofun

theorem endsNumber_writeItems (items : List Json) (rest : List Char) :
    EndsNumber (writeItems items rest) := by
  cases items with
  | nil => exact ⟨']', rest, by rw [writeItems], Or.inr rfl⟩
  | cons v more => exact ⟨',', write v (writeItems more rest), by rw [writeItems], Or.inl rfl⟩

/-- The items behind the first are read back, with one unit of fuel for each. -/
theorem readItems_numbers {ns : List Int}
    (hns : ∀ n ∈ ns, -9223372036854775808 ≤ n ∧ n ≤ 9223372036854775807) (depth : Nat)
    (rest : List Char) {fuel : Nat} (hfuel : ns.length < fuel) :
    readItems fuel depth (writeItems (ns.map .int) rest) = some (ns.map .int, rest) := by
  induction ns generalizing fuel with
  | nil =>
      obtain ⟨fuel, rfl⟩ := Nat.exists_eq_add_one.mpr hfuel
      rw [List.map_nil, writeItems, readItems]
      rfl
  | cons n more ih =>
      obtain ⟨hn, hmore⟩ := List.forall_mem_cons.mp hns
      rw [List.length_cons] at hfuel
      obtain ⟨fuel, rfl⟩ : ∃ k, fuel = k + 2 := ⟨fuel - 2, by omega⟩
      rw [List.map_cons, writeItems, write, readItems_comma depth rfl,
        readValue_intDigits hn (endsNumber_writeItems _ rest), Option.bind_some,
        ih hmore (by omega)]
      rfl

theorem length_le_writeItems (ns : List Int) (rest : List Char) :
    ns.length ≤ (writeItems (ns.map .int) rest).length := by
  induction ns with
  | nil => exact Nat.zero_le _
  | cons n more ih =>
      rw [List.map_cons, writeItems, write]
      simp only [List.length_cons, List.length_append]
      omega

theorem canonicalItems_numbers (ns : List Int) :
    canonicalItems (ns.map .int) = ns.map .int := by
  induction ns with
  | nil => rfl
  | cons n more ih => simp only [List.map_cons, canonicalItems, canonical, ih]

/-- **A list of whole numbers is read back.** -/
theorem parse_compact_numbers {ns : List Int}
    (hns : ∀ n ∈ ns, -9223372036854775808 ≤ n ∧ n ≤ 9223372036854775807) :
    parse (Json.arr (ns.map .int)).compact = some (.arr (ns.map .int)) := by
  have hcanonical : canonical (.arr (ns.map .int)) = .arr (ns.map .int) := by
    rw [canonical, canonicalItems_numbers]
  -- the text has a character for each number, so there is fuel enough
  have hread : ∀ fuel, ns.length + 1 < fuel →
      readValue fuel maxDepth (write (.arr (ns.map .int)) []) = some (.arr (ns.map .int), []) := by
    intro fuel hfuel
    obtain ⟨fuel, rfl⟩ : ∃ k, fuel = k + 2 := ⟨fuel - 2, by omega⟩
    cases ns with
    | nil =>
        rw [List.map_nil, write, readValue]
        rfl
    | cons n more =>
        obtain ⟨hn, hmore⟩ := List.forall_mem_cons.mp hns
        rw [List.length_cons] at hfuel
        rw [List.map_cons, write, write, maxDepth,
          readValue_arr _ rfl (skipBlanks_intDigits n _),
          readValue_intDigits hn (endsNumber_writeItems _ []), Option.bind_some,
          readItems_numbers hmore _ _ (by omega)]
        rfl
  have hlength : ns.length ≤ (write (.arr (ns.map .int)) []).length := by
    cases ns with
    | nil => exact Nat.zero_le _
    | cons n more =>
        have hmore := length_le_writeItems more []
        rw [List.map_cons, write, write]
        simp only [List.length_cons, List.length_append]
        omega
  rw [parse, parseOrdered, compact, String.toList_ofList]
  rw [hread _ (by omega)]
  exact congrArg some hcanonical

end Json

end ModelOperator

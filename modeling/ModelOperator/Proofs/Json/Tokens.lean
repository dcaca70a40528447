import Mathlib.Data.List.TakeDrop
import ModelOperator.Json.Raw

/-!
# Texts and numbers that are passed over

    The reader of raw documents takes a text or a number by its syntax and asks for its value
    afterwards.  That is reading it: a text has the same value once it is taken
    (`Json.readChars_eq_takeText`), and a number that has one ends where it is passed over
    (`Json.endsAt_readNumber`). -/

namespace ModelOperator

namespace Json

/-! ## Texts -/

/-- The characters of a text as they are written: each is escaped or stands for itself. -/
inductive Written : List Char → Prop
  | nil : Written []
  | unit {a b c d : Char} {n : Nat} {cs : List Char} (h : hexUnit? a b c d = some n)
      (hcs : Written cs) : Written ('\\' :: 'u' :: a :: b :: c :: d :: cs)
  | short {e c : Char} {cs : List Char} (h : shortEscape? e = some c) (hcs : Written cs) :
      Written ('\\' :: e :: cs)
  | plain {c : Char} {cs : List Char} (hquote : c ≠ '"') (hslash : c ≠ '\\')
      (hprint : ¬ c.toNat < 32) (hcs : Written cs) : Written (c :: cs)

/-- The letter of the long escape has no short one. -/
theorem ne_unit_of_shortEscape {e c : Char} (h : shortEscape? e = some c) : e ≠ 'u' := by
  rintro rfl
  cases h

/-- What is written as a text is taken up to its closing quote. -/
theorem takeText_written {cs : List Char} (h : Written cs) (tail : List Char) :
    takeText (cs ++ '"' :: tail) = some (cs, tail) := by
  induction h with
  | nil => rfl
  | unit h _ ih =>
      simp only [List.cons_append, takeText, h, ih]
      rfl
  | short h _ ih =>
      have hne := ne_unit_of_shortEscape h
      simp only [List.cons_append]
      rw [takeText]
      · simp only [h, ih]
        rfl
      · rintro _ _ _ _ _ rfl
        exact absurd rfl hne
  | plain hquote hslash hprint _ ih =>
      rw [List.cons_append, takeText, if_neg hprint, ih]
      · rfl
      · exact hquote
      · exact fun _ _ _ _ _ h _ => hslash h
      · exact fun _ _ h _ => hslash h

/-- Behind a character that opens no escape, more of the text. -/
theorem Written.of_rest {c : Char} {cs tail : List Char} (hcs : Written cs) (hquote : c ≠ '"')
    (hslash : ∀ e rest, c = '\\' → cs ++ '"' :: tail = e :: rest → False)
    (hprint : ¬ c.toNat < 32) : Written (c :: cs) := by
  obtain ⟨e, rest, hrest⟩ := List.exists_cons_of_ne_nil
    (List.append_ne_nil_of_right_ne_nil cs (List.cons_ne_nil '"' tail))
  exact .plain hquote (fun h => hslash e rest h hrest) hprint hcs

/-- What is taken is written as a text, with the closing quote behind it. -/
theorem written_of_takeText {cs written tail : List Char}
    (h : takeText cs = some (written, tail)) : Written written ∧ cs = written ++ '"' :: tail := by
  fun_induction takeText cs generalizing written tail with
  | case1 | case3 | case5 | case7 => cases h
  | case2 rest =>
      cases h
      exact ⟨.nil, rfl⟩
  | case4 a b c d rest n hn ih =>
      obtain ⟨_, hrest, heq⟩ := Option.map_eq_some_iff.mp h
      cases heq
      obtain ⟨hw, rfl⟩ := ih hrest
      exact ⟨.unit hn hw, rfl⟩
  | case6 e rest _ c hc ih =>
      obtain ⟨_, hrest, heq⟩ := Option.map_eq_some_iff.mp h
      cases heq
      obtain ⟨hw, rfl⟩ := ih hrest
      exact ⟨.short hc hw, rfl⟩
  | case8 c rest hquote _ hslash hprint ih =>
      obtain ⟨_, hrest, heq⟩ := Option.map_eq_some_iff.mp h
      cases heq
      obtain ⟨hw, rfl⟩ := ih hrest
      exact ⟨hw.of_rest hquote hslash hprint, rfl⟩

/-- What can be read is written as a text. -/
theorem written_of_readChars {acc cs : List Char} {r : List Char × List Char}
    (h : readChars acc cs = some r) : ∃ written, Written written ∧ cs = written ++ '"' :: r.2 := by
  fun_induction readChars acc cs with
  | case1 | case3 | case5 | case6 | case7 | case8 | case11 | case12 => cases h
  | case2 acc rest =>
      cases h
      exact ⟨[], .nil, rfl⟩
  | case4 acc a b c d n hn _ e f g h' tail low hlow _ ih =>
      obtain ⟨w, hw, rfl⟩ := ih h
      exact ⟨_, .unit hn (.unit hlow hw), rfl⟩
  | case9 acc a b c d rest n hn _ _ ih =>
      obtain ⟨w, hw, rfl⟩ := ih h
      exact ⟨_, .unit hn hw, rfl⟩
  | case10 acc e rest _ c hc ih =>
      obtain ⟨w, hw, rfl⟩ := ih h
      exact ⟨_, .short hc hw, rfl⟩
  | case13 acc c rest hquote _ hslash hprint ih =>
      obtain ⟨w, hw, rfl⟩ := ih h
      exact ⟨_, hw.of_rest hquote hslash hprint, rfl⟩

/-- What the characters of a text stand for does not depend on what follows its closing quote. -/
def ReadsAlone (cs : List Char) : Prop :=
  ∀ acc tail, readChars acc (cs ++ '"' :: tail) =
    (readChars acc (cs ++ ['"'])).map fun r => (r.1, tail)

section

variable {a b c d : Char} {unit : Nat} {cs : List Char}

/-- The first half of a surrogate pair is no text without a second one. -/
theorem readChars_lone (h : hexUnit? a b c d = some unit) (hhigh : 0xD800 ≤ unit ∧ unit < 0xDC00)
    (hlone : ∀ e f g h rest, cs ≠ '\\' :: 'u' :: e :: f :: g :: h :: rest) (acc : List Char) :
    readChars acc ('\\' :: 'u' :: a :: b :: c :: d :: cs) = none := by
  rw [readChars, h]
  dsimp only
  rw [if_pos hhigh]
  split
  · exact absurd rfl (hlone _ _ _ _ _)
  · rfl

theorem ReadsAlone.lone (h : hexUnit? a b c d = some unit)
    (hhigh : 0xD800 ≤ unit ∧ unit < 0xDC00)
    (hlone : ∀ tail e f g h rest,
      cs ++ '"' :: tail ≠ '\\' :: 'u' :: e :: f :: g :: h :: rest) :
    ReadsAlone ('\\' :: 'u' :: a :: b :: c :: d :: cs) := by
  intro acc tail
  simp only [List.cons_append]
  rw [readChars_lone h hhigh (hlone tail), readChars_lone h hhigh (hlone [])]
  rfl

end

/-- A written text stands for something on its own, and so it does behind the first half of a
    surrogate pair. -/
theorem Written.readsAlone_both {cs : List Char} (hcs : Written cs) :
    ReadsAlone cs ∧ ∀ {a b c d : Char} {unit : Nat}, hexUnit? a b c d = some unit →
      0xD800 ≤ unit ∧ unit < 0xDC00 → ReadsAlone ('\\' :: 'u' :: a :: b :: c :: d :: cs) := by
  induction hcs with
  | nil => exact ⟨fun _ _ => rfl, fun h hhigh => .lone h hhigh nofun⟩
  | @unit _ _ _ _ n rest hn _ ih =>
      obtain ⟨halone, hpair⟩ := ih
      constructor
      · by_cases hhigh : 0xD800 ≤ n ∧ n < 0xDC00
        · exact hpair hn hhigh
        · intro acc tail
          simp only [List.cons_append]
          rw [readChars, readChars, hn]
          dsimp only
          rw [if_neg hhigh, if_neg hhigh]
          split
          · rfl
          · exact halone _ tail
      · intro a b c d unit h hhigh acc tail
        simp only [List.cons_append]
        rw [readChars, readChars, h]
        dsimp only
        rw [if_pos hhigh, if_pos hhigh]
        simp only [hn]
        split
        · exact halone _ tail
        · rfl
  | @short e _ rest he _ ih =>
      have hne := ne_unit_of_shortEscape he
      constructor
      · intro acc tail
        simp only [List.cons_append]
        rw [readChars, readChars, he]
        · exact ih.1 _ tail
        · exact fun _ _ _ _ _ h _ => hne h
        · exact fun _ _ _ _ _ h _ => hne h
      · refine fun h hhigh => .lone h hhigh ?_
        intro tail _ _ _ _ _ heq
        exact hne (List.cons.inj (List.cons.inj heq).2).1
  | @plain c rest hquote hslash hprint _ ih =>
      constructor
      · intro acc tail
        rw [List.cons_append, List.cons_append, readChars, readChars, if_neg hprint, if_neg hprint]
        · exact ih.1 _ tail
        · exact hquote
        · exact fun _ _ _ _ _ h _ => hslash h
        · exact fun _ _ h _ => hslash h
        · exact hquote
        · exact fun _ _ _ _ _ h _ => hslash h
        · exact fun _ _ h _ => hslash h
      · refine fun h hhigh => .lone h hhigh ?_
        intro tail _ _ _ _ _ heq
        exact hslash (List.cons.inj heq).1

/-- **Taking a text and reading it is reading it.** -/
theorem readChars_eq_takeText (acc cs : List Char) :
    readChars acc cs = (takeText cs).bind fun taken =>
      (readChars acc (taken.1 ++ ['"'])).map fun r => (r.1, taken.2) := by
  cases htake : takeText cs with
  | some taken =>
      obtain ⟨hwritten, rfl⟩ := written_of_takeText htake
      exact hwritten.readsAlone_both.1 acc taken.2
  | none =>
      cases hread : readChars acc cs with
      | none => rfl
      | some r =>
          obtain ⟨written, hwritten, rfl⟩ := written_of_readChars hread
          cases htake.symm.trans (takeText_written hwritten r.2)

/-! ## Numbers -/

/-- Digits are counted one by one. -/
theorem spanDigits_cons (c : Char) (rest : List Char) :
    spanDigits (c :: rest) = if (digitValue? c).isSome
      then (c :: (spanDigits rest).1, (spanDigits rest).2) else ([], c :: rest) := by
  simp only [spanDigits, List.span_eq_takeWhile_dropWhile, List.takeWhile_cons,
    List.dropWhile_cons]
  split <;> rfl

/-- The digits that still fit, and the digits behind them. -/
theorem spanDigits_readDigits (acc : Nat) (cs : List Char) :
    (spanDigits cs).2 = (spanDigits (readDigits acc cs).2.2).2 ∧
      ((spanDigits cs).1 = [] ↔
        (readDigits acc cs).2.1 = 0 ∧ (spanDigits (readDigits acc cs).2.2).1 = []) := by
  fun_induction readDigits acc cs with
  | case1 => exact ⟨rfl, by simp [spanDigits]⟩
  | case2 acc c rest d hd _ n count tail hread ih =>
      rw [hread] at ih
      rw [spanDigits_cons, hd]
      simpa using ih.1
  | case3 => simp
  | case4 => simp

theorem skipDigits_of_span {cs ds rest : List Char} (h : spanDigits cs = (ds, rest))
    (hds : ¬ ds.isEmpty = true) : skipDigits cs = some rest := by
  rw [skipDigits, h]
  exact if_neg hds

/-- What was read is no container, and ends where it is passed over. -/
def EndsAt (passed : Option (List Char)) (r : Json × List Char) : Prop :=
  passed = some r.2 ∧ canonical r.1 = r.1

section

variable {negative : Bool} {digits n : Nat} {power : Int} {cs rest : List Char}
  {r : Json × List Char}

/-- A double is at its end once its digits are read. -/
theorem endsAt_finishFloat (h : finishFloat negative digits power rest = some r) :
    EndsAt (some rest) r := by
  obtain ⟨_, -, rfl⟩ := Option.map_eq_some_iff.mp h
  exact ⟨rfl, rfl⟩

theorem endsAt_finishInt (h : finishInt negative n rest = some r) : EndsAt (some rest) r := by
  revert h
  fun_cases finishInt negative n rest with
  | case1 | case2 | case4 =>
      rintro ⟨⟩
      exact ⟨rfl, rfl⟩
  | case3 => exact endsAt_finishFloat

/-- An exponent ends with its digits. -/
theorem endsAt_readExponent (h : readExponent negative digits power cs = some r) :
    EndsAt (skipExponent cs) r := by
  revert h
  fun_cases readExponent negative digits power cs with
  | case1 | case2 => exact nofun
  | case3 down after hsign ds rest hspan hds =>
      rintro ⟨⟩
      have hskip := skipDigits_of_span hspan hds
      refine ⟨?_, rfl⟩
      split at hsign <;> cases hsign <;> rw [skipExponent] <;> assumption
  | case4 down after hsign ds rest hspan hds =>
      intro h
      have hends := endsAt_finishFloat h
      rw [← skipDigits_of_span hspan hds] at hends
      split at hsign <;> cases hsign <;> rw [skipExponent] <;> assumption

theorem endsAt_readFloatEnd (h : readFloatEnd negative digits power cs = some r) :
    EndsAt (skipPower cs) r := by
  revert h
  fun_cases readFloatEnd negative digits power cs with
  | case1 | case2 => exact endsAt_readExponent
  | case3 _ hlower hupper =>
      intro h
      rw [skipPower]
      · exact endsAt_finishFloat h
      · exact hlower
      · exact hupper

/-- A fraction has a digit or more. -/
theorem endsAt_readFraction (h : readFraction negative digits power cs = some r) :
    EndsAt (skipFraction ('.' :: cs)) r := by
  obtain ⟨htail, hnone⟩ := spanDigits_readDigits digits cs
  rw [readFraction] at h
  dsimp only at h
  split at h
  · cases h
  · rename_i hsome
    have hdigits : ¬ (spanDigits cs).1.isEmpty = true := by
      rwa [List.isEmpty_iff, hnone, ← List.isEmpty_iff]
    rw [skipFraction, skipDigits_of_span (Prod.eta _).symm hdigits, htail]
    exact endsAt_readFloatEnd h

/-- Behind the digits that fit, a number goes on with those that do not. -/
theorem endsAt_readAfterDigits (h : readAfterDigits negative n cs = some r) :
    EndsAt (skipFraction (spanDigits cs).2) r := by
  revert h
  fun_cases readAfterDigits negative n cs with
  | case1 _ tail hspan =>
      rw [hspan]
      exact endsAt_readFraction
  | case2 _ tail hspan | case3 _ tail hspan =>
      rw [hspan]
      exact endsAt_readExponent
  | case4 _ rest hspan _ hpoint hlower hupper =>
      intro h
      rw [hspan, skipFraction, skipPower]
      · exact endsAt_finishInt h
      · exact hlower
      · exact hupper
      · exact hpoint
  | case5 _ rest hspan _ hpoint hlower hupper =>
      intro h
      rw [hspan, skipFraction, skipPower]
      · exact endsAt_finishFloat h
      · exact hlower
      · exact hupper
      · exact hpoint

/-- **A number ends where it is passed over.**  Passing over it asks for less: a number that is
    out of range is passed over as well. -/
theorem endsAt_readNumber (h : readNumber negative cs = some r) : EndsAt (skipNumber cs) r := by
  revert h
  fun_cases readNumber negative cs with
  | case1 | case2 | case5 => exact nofun
  | case3 c tail hc =>
      intro h
      have hends := endsAt_readAfterDigits h
      rw [spanDigits_cons, if_neg hc] at hends
      rw [skipNumber]
      exact (if_neg hc).symm ▸ hends
  | case4 => exact endsAt_readAfterDigits
  | case6 c rest hzero d hd _ _ tail hread =>
      intro h
      have hends := endsAt_readAfterDigits h
      rw [skipNumber, hd]
      · rw [(spanDigits_readDigits d rest).1, hread]
        exact hends
      · exact hzero

end

end Json

end ModelOperator

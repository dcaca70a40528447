import Mathlib.Data.List.Basic
import ModelOperator.Text.Quoted
import ModelOperator.Yaml.Scalar

/-!
# Quotations are unique

    A quoted text can be read back in one way only: the escape of a character says where it
    ends and which character it stands for, whatever follows, and the quote that ends the
    text is the first one that is not escaped.  So two texts with the same quotation are the
    same text (`quoted_injective`). -/

namespace ModelOperator

/-! ## Hexadecimal numbers -/

section Hexadecimal

open Yaml

theorem hexValue?_digitChar {d : Nat} (h : d < 16) : hexValue? d.digitChar = some d := by
  have hall : ∀ d, d < 16 → hexValue? d.digitChar = some d := by decide
  exact hall d h

/-- One more digit on the right. -/
theorem hexNumber?_concat {digits : List Char} {n d : Nat} (hfront : hexNumber? digits = some n)
    (hd : d < 16) : hexNumber? (digits ++ [d.digitChar]) = some (16 * n + d) := by
  rw [hexNumber?] at hfront
  rw [hexNumber?, List.foldl_append, hfront]
  show (hexValue? d.digitChar).bind (fun x => some (16 * n + x)) = some (16 * n + d)
  rw [hexValue?_digitChar hd]
  rfl

/-- A number in hexadecimal reads back. -/
theorem hexNumber?_hexText (n : Nat) : hexNumber? (hexText n) = some n := by
  induction n using Nat.strongRecOn with
  | ind n ih =>
      rw [hexText]
      by_cases hsmall : n < 16
      · rw [Nat.toDigits_of_lt_base hsmall]
        have hnone : hexNumber? [] = some 0 := rfl
        have hone := hexNumber?_concat hnone hsmall
        rw [Nat.mul_zero, Nat.zero_add] at hone
        exact hone
      · rw [Nat.toDigits_of_base_le (by decide) (Nat.le_of_not_lt hsmall)]
        have hfront : hexNumber? (Nat.toDigits 16 (n / 16)) = some (n / 16) :=
          ih (n / 16) (by omega)
        rw [hexNumber?_concat hfront (Nat.mod_lt n (by decide)), Nat.div_add_mod]

theorem hexText_injective : Function.Injective hexText := by
  intro a b h
  have hread := congrArg hexNumber? h
  rw [hexNumber?_hexText, hexNumber?_hexText] at hread
  exact Option.some_inj.mp hread

/-- A hexadecimal number ends before the brace. -/
theorem brace_notMem_hexText (n : Nat) : '\x7d' ∉ hexText n := by
  induction n using Nat.strongRecOn with
  | ind n ih =>
      have hdigit : ∀ d, d < 16 → '\x7d' ∉ [d.digitChar] := by decide
      rw [hexText]
      by_cases hsmall : n < 16
      · rw [Nat.toDigits_of_lt_base hsmall]
        exact hdigit n hsmall
      · rw [Nat.toDigits_of_base_le (by decide) (Nat.le_of_not_lt hsmall), List.mem_append]
        rintro (hfront | hlast)
        · exact ih (n / 16) (by omega) hfront
        · exact hdigit _ (Nat.mod_lt n (by decide)) hlast

end Hexadecimal

namespace Quoted

/-! ## Escapes -/

/-- The letters behind a backslash, and the characters they stand for. -/
def letters : List (Char × Char) :=
  [('"', '"'), ('\\', '\\'), ('t', '\t'), ('r', '\r'), ('n', '\n'), ('0', '\x00')]

/-- The escape by number. -/
def byNumber (c : Char) : List Char :=
  ['\\', 'u', '\x7b'] ++ hexText c.toNat ++ ['\x7d']

/-- What comes before the first of a sign is one list only. -/
theorem first_unique {c : Char} {xs ys x y : List Char} (hx : c ∉ xs) (hy : c ∉ ys)
    (h : xs ++ c :: x = ys ++ c :: y) : xs = ys ∧ x = y := by
  have hshort : ∀ {ys zs x y : List Char}, c ∉ ys ++ zs → c :: x = zs ++ c :: y → zs = [] := by
    intro ys zs x y hnot heq
    cases zs with
    | nil => rfl
    | cons d zs =>
        cases (List.cons_eq_cons.mp heq).1
        exact absurd (List.mem_append_right ys List.mem_cons_self) hnot
  rcases List.append_eq_append_iff.mp h with ⟨zs, rfl, heq⟩ | ⟨zs, rfl, heq⟩
  · cases hshort hy heq
    exact ⟨(List.append_nil xs).symm, (List.cons_eq_cons.mp heq).2⟩
  · cases hshort hx heq
    exact ⟨List.append_nil ys, (List.cons_eq_cons.mp heq).2.symm⟩

/-- A character is written by a letter, by its number, or as it is. -/
inductive Escaped (c : Char) : List Char → Prop
  | letter {k : Char} (h : (k, c) ∈ letters) : Escaped c ['\\', k]
  | number : Escaped c (byNumber c)
  | plain (hquote : c ≠ '"') (hslash : c ≠ '\\') : Escaped c [c]

theorem escaped_escapeChar (c : Char) : Escaped c (escapeChar c) := by
  have hletter : ∀ k d, (k, d) ∈ letters → c = d → Escaped c ['\\', k] := by
    rintro k d h rfl
    exact .letter h
  rw [escapeChar]
  by_cases hquote : c = '"'
  · rw [if_pos hquote]
    exact hletter '"' '"' (by decide) hquote
  rw [if_neg hquote]
  by_cases hslash : c = '\\'
  · rw [if_pos hslash]
    exact hletter '\\' '\\' (by decide) hslash
  rw [if_neg hslash]
  split
  · exact hletter 't' '\t' (by decide) ‹_›
  split
  · exact hletter 'r' '\r' (by decide) ‹_›
  split
  · exact hletter 'n' '\n' (by decide) ‹_›
  split
  · exact hletter '0' '\x00' (by decide) ‹_›
  split
  · exact .number
  · exact .plain hquote hslash

/-- An escape never begins with the quote that ends a text. -/
theorem Escaped.ne_quote {c : Char} {e x y : List Char} (h : Escaped c e) :
    e ++ x ≠ '"' :: y := by
  intro heq
  cases h with
  | letter | number => exact absurd (List.cons_eq_cons.mp heq).1 (by decide)
  | plain hquote => exact hquote (List.cons_eq_cons.mp heq).1

/-- **An escape stands for one character**, and says where it ends. -/
theorem Escaped.unique {a b : Char} {d e x y : List Char} (ha : Escaped a d) (hb : Escaped b e)
    (h : d ++ x = e ++ y) : a = b ∧ x = y := by
  have hletters : ∀ p ∈ letters, ∀ q ∈ letters, p.1 = q.1 → p.2 = q.2 := by decide
  have hnumber : ∀ p ∈ letters, p.1 ≠ 'u' := by decide
  cases ha with
  | letter ha =>
      cases hb with
      | letter hb =>
          obtain ⟨-, htail⟩ := List.cons_eq_cons.mp h
          obtain ⟨hk, hrest⟩ := List.cons_eq_cons.mp htail
          exact ⟨hletters _ ha _ hb hk, hrest⟩
      | number =>
          obtain ⟨-, htail⟩ := List.cons_eq_cons.mp h
          exact absurd (List.cons_eq_cons.mp htail).1 (hnumber _ ha)
      | plain _ hslash => exact absurd (List.cons_eq_cons.mp h).1.symm hslash
  | number =>
      cases hb with
      | letter hb =>
          obtain ⟨-, htail⟩ := List.cons_eq_cons.mp h
          exact absurd (List.cons_eq_cons.mp htail).1.symm (hnumber _ hb)
      | number =>
          -- the braces are where the digits end
          simp only [byNumber, List.append_assoc, List.cons_append, List.nil_append,
            List.cons.injEq, true_and] at h
          obtain ⟨hdigits, hrest⟩ :=
            first_unique (brace_notMem_hexText _) (brace_notMem_hexText _) h
          exact ⟨Char.toNat_inj.mp (hexText_injective hdigits), hrest⟩
      | plain _ hslash => exact absurd (List.cons_eq_cons.mp h).1.symm hslash
  | plain hquote hslash =>
      cases hb with
      | letter | number => exact absurd (List.cons_eq_cons.mp h).1 hslash
      | plain => exact List.cons_eq_cons.mp h

/-- The first quote that is not escaped ends the text. -/
theorem escapes_unique {cs ds x y : List Char}
    (h : cs.flatMap escapeChar ++ '"' :: x = ds.flatMap escapeChar ++ '"' :: y) :
    cs = ds ∧ x = y := by
  induction cs generalizing ds with
  | nil =>
      cases ds with
      | nil => exact ⟨rfl, (List.cons_eq_cons.mp h).2⟩
      | cons d ds =>
          rw [List.flatMap_cons, List.append_assoc] at h
          exact absurd h.symm (escaped_escapeChar d).ne_quote
  | cons c cs ih =>
      cases ds with
      | nil =>
          rw [List.flatMap_cons, List.append_assoc] at h
          exact absurd h (escaped_escapeChar c).ne_quote
      | cons d ds =>
          rw [List.flatMap_cons, List.flatMap_cons, List.append_assoc, List.append_assoc] at h
          obtain ⟨rfl, htail⟩ := (escaped_escapeChar c).unique (escaped_escapeChar d) h
          obtain ⟨rfl, hrest⟩ := ih htail
          exact ⟨rfl, hrest⟩

end Quoted

/-- **Quotations are unique.** -/
theorem quoted_injective : Function.Injective quoted := by
  intro a b h
  have hchars : Quoted.chars a.toList = Quoted.chars b.toList := String.ofList_injective h
  exact String.toList_inj.mp (Quoted.escapes_unique (List.cons_eq_cons.mp hchars).2).1

end ModelOperator

import Mathlib.Data.List.TakeWhile
import ModelOperator.Text.Blank

/-!
# Texts without the blanks around them

    What is cut off the end of a text are blanks, and what is left does not end in one
    (`TrimsEnd`).  So nothing is left of a text exactly if all of it is blank.

    Blanks that are put around a text without any are cut off again (`trimText_surrounded`). -/

namespace ModelOperator

/-- One text is the other without the blanks at its end. -/
structure TrimsEnd (text trimmed : String) : Prop where
  cut : ∃ blanks, text.toList = trimmed.toList ++ blanks ∧ ∀ c ∈ blanks, isBlankChar c = true
  ends : ∀ c, trimmed.toList.getLast? = some c → isBlankChar c = false

theorem trimsEnd_trimTextEnd (s : String) : TrimsEnd s (trimTextEnd s) := by
  constructor
  · refine ⟨(s.toList.reverse.takeWhile isBlankChar).reverse, ?_, ?_⟩
    · rw [trimTextEnd, String.toList_ofList, Blank.trimEndChars, Blank.trimStartChars,
        ← List.reverse_append, List.takeWhile_append_dropWhile, List.reverse_reverse]
    · intro c hc
      exact List.mem_takeWhile_imp (List.mem_reverse.mp hc)
  · intro c hc
    rw [trimTextEnd, String.toList_ofList, Blank.trimEndChars, Blank.trimStartChars,
      List.getLast?_reverse] at hc
    obtain ⟨rest, hrest⟩ := List.head?_eq_some_iff.mp hc
    have hne : s.toList.reverse.dropWhile isBlankChar ≠ [] := by
      rw [hrest]
      exact List.cons_ne_nil c rest
    have hhead := List.head_dropWhile_not isBlankChar hne
    simpa [hrest] using hhead

/-- Something is left of a text that is not all blank. -/
theorem TrimsEnd.ne_empty {text trimmed : String} (h : TrimsEnd text trimmed) {c : Char}
    (hmem : c ∈ text.toList) (hc : isBlankChar c = false) : trimmed ≠ "" := by
  rintro rfl
  obtain ⟨blanks, htext, hblanks⟩ := h.cut
  rw [htext] at hmem
  exact Bool.false_ne_true (hc.symm.trans (hblanks c hmem))

namespace Blank

/-- Blanks in front are cut off. -/
theorem trimStartChars_append {front : List Char} (h : ∀ c ∈ front, isBlankChar c = true)
    (cs : List Char) : trimStartChars (front ++ cs) = trimStartChars cs :=
  List.dropWhile_append_of_pos h

/-- Nothing is cut off in front of what is no blank, unless there is nothing else. -/
theorem trimStartChars_word {word : List Char} (h : ∀ c ∈ word, isBlankChar c = false)
    {blanks : List Char} (hblanks : ∀ c ∈ blanks, isBlankChar c = true) :
    trimStartChars (word ++ blanks) = word ++ if word = [] then [] else blanks := by
  cases word with
  | nil =>
      show trimStartChars blanks = []
      exact List.dropWhile_eq_nil_iff.mpr hblanks
  | cons c rest =>
      show List.dropWhile isBlankChar (c :: (rest ++ blanks)) = _
      rw [List.dropWhile_cons_of_neg (by rw [h c List.mem_cons_self]; exact Bool.false_ne_true),
        if_neg (List.cons_ne_nil c rest), List.cons_append]

theorem trimChars_surrounded {front word back : List Char}
    (hfront : ∀ c ∈ front, isBlankChar c = true) (hword : ∀ c ∈ word, isBlankChar c = false)
    (hback : ∀ c ∈ back, isBlankChar c = true) : trimChars (front ++ (word ++ back)) = word := by
  have hreversed : ∀ blanks : List Char, (∀ c ∈ blanks, isBlankChar c = true) →
      trimEndChars (word ++ blanks) = word := by
    intro blanks hblanks
    rw [trimEndChars, List.reverse_append, trimStartChars_append (by simpa using hblanks)]
    have hstart : trimStartChars (word.reverse ++ []) =
        word.reverse ++ if word.reverse = [] then [] else [] :=
      trimStartChars_word (by simpa using hword) (List.forall_mem_nil _)
    rw [List.append_nil, ite_self, List.append_nil] at hstart
    rw [hstart, List.reverse_reverse]
  rw [trimChars, trimStartChars_append hfront, trimStartChars_word hword hback]
  by_cases hnil : word = []
  · rw [if_pos hnil]
    exact hreversed [] (List.forall_mem_nil _)
  · rw [if_neg hnil]
    exact hreversed back hback

end Blank

/-- Blanks around a text without any are cut off. -/
theorem trimText_surrounded {front back : List Char} {word : String}
    (hfront : ∀ c ∈ front, isBlankChar c = true) (hword : ∀ c ∈ word.toList, isBlankChar c = false)
    (hback : ∀ c ∈ back, isBlankChar c = true) :
    trimText (String.ofList (front ++ (word.toList ++ back))) = word := by
  rw [trimText, String.toList_ofList, Blank.trimChars_surrounded hfront hword hback,
    String.ofList_toList]

end ModelOperator

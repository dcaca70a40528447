import Mathlib.Data.List.Basic
import ModelOperator.Json.Pointer

/-!
# Pointers written and read back

    A pointer is read as it was written: `Pointer.join` and `Pointer.split?` are inverse to each
    other on the tokens of every list and on every pointer whose tildes all start an escape
    (`Pointer.WellFormed`).

    A token is read in two passes over it.  The first one puts a slash for `~1`, and the second one
    a tilde for `~0`.  Taken together they replace each escape once, from the left: what the first
    pass writes is no tilde, and it leaves a zero behind a tilde where it is (`unescape_tilde`,
    `unescape_slash`, `unescape_cons`). -/

namespace ModelOperator

namespace Pointer

/-! ## Tokens -/

section Replacing

variable {first : Char} (second new : Char)

/-- What starts no pair stays. -/
theorem replacePair_cons {c : Char} (h : c ≠ first) (cs : List Char) :
    replacePair first second new (c :: cs) = c :: replacePair first second new cs := by
  cases cs with
  | nil => rfl
  | cons d rest => rw [replacePair, if_neg fun hboth => h hboth.1]

/-- A pair becomes one character. -/
theorem replacePair_pair (first : Char) (cs : List Char) :
    replacePair first second new (first :: second :: cs) =
      new :: replacePair first second new cs := by
  rw [replacePair, if_pos ⟨rfl, rfl⟩]

/-- A character that could start a pair stays when another one follows it. -/
theorem replacePair_apart (first : Char) {d : Char} (h : d ≠ second) (cs : List Char) :
    replacePair first second new (first :: d :: cs) =
      first :: replacePair first second new (d :: cs) := by
  rw [replacePair, if_neg fun hboth => h hboth.2]

end Replacing

theorem unescape_tilde (cs : List Char) : unescape ('~' :: '0' :: cs) = '~' :: unescape cs := by
  have hfirst : replacePair '~' '1' '/' ('~' :: '0' :: cs) =
      '~' :: '0' :: replacePair '~' '1' '/' cs := by
    rw [replacePair_apart _ _ _ (by decide), replacePair_cons _ _ (by decide)]
  rw [unescape, hfirst, replacePair_pair]
  rfl

theorem unescape_slash (cs : List Char) : unescape ('~' :: '1' :: cs) = '/' :: unescape cs := by
  rw [unescape, replacePair_pair, replacePair_cons _ _ (by decide)]
  rfl

theorem unescape_cons {c : Char} (h : c ≠ '~') (cs : List Char) :
    unescape (c :: cs) = c :: unescape cs := by
  rw [unescape, replacePair_cons _ _ h, replacePair_cons _ _ h]
  rfl

/-- A token is read back. -/
theorem unescape_escape (token : List Char) : unescape (escape token) = token := by
  induction token with
  | nil => rfl
  | cons c rest ih =>
      rw [escape]
      by_cases htilde : c = '~'
      · rw [if_pos htilde, unescape_tilde, ih, htilde]
      · rw [if_neg htilde]
        by_cases hslash : c = '/'
        · rw [if_pos hslash, unescape_slash, ih, hslash]
        · rw [if_neg hslash, unescape_cons htilde, ih]

/-- The text of a token holds no slash. -/
theorem slash_notMem_escape (token : List Char) : '/' ∉ escape token := by
  induction token with
  | nil => exact List.not_mem_nil
  | cons c rest ih =>
      rw [escape]
      by_cases htilde : c = '~'
      · simp [if_pos htilde, ih]
      · rw [if_neg htilde]
        by_cases hslash : c = '/'
        · simp [if_pos hslash, ih]
        · simp [if_neg hslash, Ne.symm hslash, ih]

/-! ## Escapes -/

/-- Every tilde is followed by a zero or a one. -/
def Escaped (cs : List Char) : Prop :=
  ∀ before after, cs = before ++ '~' :: after →
    ∃ c rest, after = c :: rest ∧ (c = '0' ∨ c = '1')

/-- A character other than the tilde stands for itself. -/
theorem escaped_cons_iff {c : Char} (h : c ≠ '~') (cs : List Char) :
    Escaped (c :: cs) ↔ Escaped cs := by
  constructor
  · intro hescaped before after heq
    exact hescaped (c :: before) after (by rw [heq, List.cons_append])
  · intro hescaped before after heq
    cases before with
    | nil => exact absurd (List.cons.inj heq).1 h
    | cons b before => exact hescaped before after (List.cons.inj heq).2

/-- A tilde is escaped by one of two digits. -/
theorem escaped_tilde_iff (cs : List Char) :
    Escaped ('~' :: cs) ↔ ∃ c rest, cs = c :: rest ∧ (c = '0' ∨ c = '1') ∧ Escaped rest := by
  constructor
  · intro hescaped
    obtain ⟨c, rest, rfl, hc⟩ := hescaped [] cs rfl
    refine ⟨c, rest, rfl, hc, ?_⟩
    intro before after heq
    exact hescaped ('~' :: c :: before) after (by rw [heq]; rfl)
  · rintro ⟨c, rest, rfl, hc, hescaped⟩ before after heq
    have hne : c ≠ '~' := by rcases hc with rfl | rfl <;> decide
    match before with
    | [] => exact ⟨c, rest, (List.cons.inj heq).2.symm, hc⟩
    | b :: before =>
      exact (escaped_cons_iff hne rest).mpr hescaped before after (List.cons.inj heq).2

/-- A character is no tilde if it neither stands in front of another one as a tilde nor is a
    tilde at the end. -/
theorem ne_tilde {c : Char} {rest : List Char}
    (hpair : ∀ d more, c = '~' → rest = d :: more → False) (hlone : c = '~' → rest = [] → False) :
    c ≠ '~' := by
  intro hc
  cases rest with
  | nil => exact hlone hc rfl
  | cons d more => exact hpair d more hc rfl

/-- The check of the escapes is what it says. -/
theorem escapesValid_iff (cs : List Char) : escapesValid cs = true ↔ Escaped cs := by
  induction cs using escapesValid.induct with
  | case1 =>
      refine iff_of_true rfl ?_
      intro before after heq
      simp at heq
  | case2 c rest ih =>
      rw [escapesValid, Bool.and_eq_true, Bool.or_eq_true, beq_iff_eq, beq_iff_eq, ih,
        escaped_tilde_iff]
      constructor
      · rintro ⟨hc, hrest⟩
        exact ⟨c, rest, rfl, hc, hrest⟩
      · rintro ⟨c, rest, heq, hc, hrest⟩
        cases heq
        exact ⟨hc, hrest⟩
  | case3 =>
      refine iff_of_false Bool.false_ne_true ?_
      rw [escaped_tilde_iff]
      rintro ⟨c, rest, heq, -⟩
      cases heq
  | case4 c rest hpair hlone ih =>
      have hne := ne_tilde hpair hlone
      rw [escaped_cons_iff hne, ← ih, escapesValid]
      · exact hpair
      · exact hlone

/-- The text of a token in which every tilde starts an escape is written back, if it holds no
    slash. -/
theorem escape_unescape {cs : List Char} (hescaped : Escaped cs) (hslash : '/' ∉ cs) :
    escape (unescape cs) = cs := by
  induction cs using escapesValid.induct with
  | case1 => rfl
  | case2 c rest ih =>
      obtain ⟨_, _, heq, hc, hrest⟩ := (escaped_tilde_iff _).mp hescaped
      cases heq
      have hback := ih hrest fun hmem =>
        hslash (List.mem_cons_of_mem _ (List.mem_cons_of_mem _ hmem))
      rcases hc with rfl | rfl
      · rw [unescape_tilde, escape, if_pos rfl, hback]
      · rw [unescape_slash, escape, if_neg (by decide), if_pos rfl, hback]
  | case3 =>
      obtain ⟨_, _, heq, -⟩ := (escaped_tilde_iff _).mp hescaped
      cases heq
  | case4 c rest hpair hlone ih =>
      have hne := ne_tilde hpair hlone
      rw [List.mem_cons, not_or] at hslash
      rw [unescape_cons hne, escape, if_neg hne, if_neg (Ne.symm hslash.1),
        ih ((escaped_cons_iff hne rest).mp hescaped) hslash.2]

/-! ## Pieces -/

theorem pieces_slash (cs : List Char) : pieces ('/' :: cs) = [] :: pieces cs := by
  rw [pieces, if_pos rfl]

theorem exists_pieces (cs : List Char) : ∃ piece more, pieces cs = piece :: more := by
  induction cs with
  | nil => exact ⟨[], [], rfl⟩
  | cons c rest ih =>
      obtain ⟨piece, more, heq⟩ := ih
      rw [pieces]
      by_cases hslash : c = '/'
      · exact ⟨[], pieces rest, if_pos hslash⟩
      · exact ⟨c :: piece, more, by rw [if_neg hslash, heq]⟩

/-- What is no slash goes to the first piece. -/
theorem pieces_cons {c : Char} (h : c ≠ '/') {cs piece : List Char} {more : List (List Char)}
    (hpieces : pieces cs = piece :: more) : pieces (c :: cs) = (c :: piece) :: more := by
  rw [pieces, if_neg h, hpieces]

/-- A text without a slash goes to the first piece. -/
theorem pieces_append {front cs piece : List Char} {more : List (List Char)} (h : '/' ∉ front)
    (hpieces : pieces cs = piece :: more) : pieces (front ++ cs) = (front ++ piece) :: more := by
  induction front with
  | nil => exact hpieces
  | cons c rest ih =>
      rw [List.mem_cons, not_or] at h
      exact pieces_cons (Ne.symm h.1) (ih h.2)

/-- The pieces behind the first slash are the texts of the tokens. -/
theorem pieces_escape_append (token : List Char) (tokens : List (List Char)) :
    pieces (escape token ++ joinChars tokens) = (token :: tokens).map escape := by
  induction tokens generalizing token with
  | nil =>
      rw [pieces_append (slash_notMem_escape token) (by rfl), List.append_nil]
      rfl
  | cons next rest ih =>
      have hnext : pieces (joinChars (next :: rest)) = [] :: (next :: rest).map escape := by
        rw [← ih next]
        exact pieces_slash _
      rw [pieces_append (slash_notMem_escape token) hnext, List.append_nil]
      rfl

/-- Put together, the pieces are what was taken apart. -/
theorem flatMap_pieces (cs : List Char) : ((pieces cs).flatMap fun piece => '/' :: piece) =
    '/' :: cs := by
  induction cs with
  | nil => rfl
  | cons c rest ih =>
      by_cases hslash : c = '/'
      · rw [hslash, pieces_slash, List.flatMap_cons, ih]
        rfl
      · obtain ⟨piece, more, heq⟩ := exists_pieces rest
        rw [heq, List.flatMap_cons, List.cons_append, List.cons.injEq] at ih
        rw [pieces_cons hslash heq, List.flatMap_cons, ← ih.2]
        rfl

/-- No piece of a text has a slash. -/
theorem slash_notMem_piece (cs : List Char) : ∀ piece ∈ pieces cs, '/' ∉ piece := by
  induction cs with
  | nil =>
      intro piece hmem
      rw [List.mem_singleton.mp hmem]
      exact List.not_mem_nil
  | cons c rest ih =>
      intro piece hmem
      by_cases hslash : c = '/'
      · rw [hslash, pieces_slash, List.mem_cons] at hmem
        rcases hmem with rfl | hmem
        · exact List.not_mem_nil
        · exact ih piece hmem
      · obtain ⟨front, more, heq⟩ := exists_pieces rest
        rw [pieces_cons hslash heq, List.mem_cons] at hmem
        rw [heq] at ih
        rcases hmem with rfl | hmem
        · rw [List.mem_cons, not_or]
          exact ⟨Ne.symm hslash, ih front List.mem_cons_self⟩
        · exact ih piece (List.mem_cons_of_mem _ hmem)

/-- An escape lies within one piece. -/
theorem escaped_piece {cs : List Char} (h : Escaped cs) : ∀ piece ∈ pieces cs, Escaped piece := by
  induction cs using escapesValid.induct with
  | case1 =>
      intro piece hmem
      rw [List.mem_singleton.mp hmem]
      exact h
  | case2 c rest ih =>
      obtain ⟨_, _, hcons, hc, hrest⟩ := (escaped_tilde_iff _).mp h
      cases hcons
      have hne : c ≠ '/' := by rcases hc with rfl | rfl <;> decide
      obtain ⟨front, more, heq⟩ := exists_pieces rest
      have hpieces := ih hrest
      rw [heq] at hpieces
      rw [pieces_cons (by decide) (pieces_cons hne heq)]
      intro piece hmem
      rcases List.mem_cons.mp hmem with rfl | hmem
      · exact (escaped_tilde_iff _).mpr ⟨c, front, rfl, hc, hpieces front List.mem_cons_self⟩
      · exact hpieces piece (List.mem_cons_of_mem _ hmem)
  | case3 =>
      obtain ⟨_, _, hcons, -⟩ := (escaped_tilde_iff _).mp h
      cases hcons
  | case4 c rest hpair hlone ih =>
      have hne := ne_tilde hpair hlone
      have hpieces := ih ((escaped_cons_iff hne rest).mp h)
      intro piece hmem
      by_cases hslash : c = '/'
      · rw [hslash, pieces_slash, List.mem_cons] at hmem
        rcases hmem with rfl | hmem
        · intro before after heq
          simp at heq
        · exact hpieces piece hmem
      · obtain ⟨front, more, heq⟩ := exists_pieces rest
        rw [pieces_cons hslash heq, List.mem_cons] at hmem
        rw [heq] at hpieces
        rcases hmem with rfl | hmem
        · exact (escaped_cons_iff hne front).mpr (hpieces front List.mem_cons_self)
        · exact hpieces piece (List.mem_cons_of_mem _ hmem)

/-! ## Pointers -/

/-- Tokens are read back from the characters they are joined into. -/
theorem splitChars?_joinChars (tokens : List (List Char)) :
    splitChars? (joinChars tokens) = some tokens := by
  cases tokens with
  | nil => rfl
  | cons token rest =>
      have hid : unescape ∘ escape = id := funext unescape_escape
      show some ((pieces (escape token ++ joinChars rest)).map unescape) = _
      rw [pieces_escape_append, List.map_map, hid, List.map_id]

/-- A pointer behind its first slash is written back. -/
theorem joinChars_unescape_pieces {cs : List Char} (h : Escaped cs) :
    joinChars ((pieces cs).map unescape) = '/' :: cs := by
  have hpiece : ∀ piece ∈ pieces cs, '/' :: escape (unescape piece) = '/' :: piece := by
    intro piece hmem
    rw [escape_unescape (escaped_piece h piece hmem) (slash_notMem_piece cs piece hmem)]
  rw [joinChars, List.flatMap_map]
  calc ((pieces cs).flatMap fun piece => '/' :: escape (unescape piece))
      = (pieces cs).flatMap fun piece => '/' :: piece := List.flatMap_congr hpiece
    _ = '/' :: cs := flatMap_pieces cs

/-- A pointer that is empty or starts with a slash, and in which each tilde is followed by a zero
    or a one. -/
structure WellFormed (pointer : String) : Prop where
  start : pointer = "" ∨ ∃ rest, pointer.toList = '/' :: rest
  escaped : Escaped pointer.toList

/-- Tokens are read back from the pointer they are joined into. -/
theorem split?_join (tokens : List String) : split? (join tokens) = some tokens := by
  have hid : String.ofList ∘ String.toList = id := funext fun _ => String.ofList_toList
  rw [split?, join, String.toList_ofList, splitChars?_joinChars, Option.map_some, List.map_map,
    hid, List.map_id]

/-- A well-formed pointer has tokens, and they are written as that pointer. -/
theorem join_split? {pointer : String} (h : WellFormed pointer) :
    ∃ tokens, split? pointer = some tokens ∧ join tokens = pointer := by
  have hchars : ∀ chars, splitChars? pointer.toList = some chars →
      joinChars chars = pointer.toList →
      ∃ tokens, split? pointer = some tokens ∧ join tokens = pointer := by
    intro chars hsplit hjoin
    have hid : String.toList ∘ String.ofList = id := funext fun _ => String.toList_ofList
    refine ⟨chars.map String.ofList, ?_, ?_⟩
    · rw [split?, hsplit, Option.map_some]
    · rw [join, List.map_map, hid, List.map_id, hjoin, String.ofList_toList]
  rcases h.start with hempty | ⟨rest, hrest⟩
  · exact hchars [] (by rw [hempty]; rfl) (by rw [hempty]; rfl)
  · have hescaped : Escaped rest := by
      have hall := h.escaped
      rw [hrest] at hall
      exact (escaped_cons_iff (by decide) rest).mp hall
    refine hchars ((pieces rest).map unescape) ?_ ?_
    · rw [hrest]
      rfl
    · rw [joinChars_unescape_pieces hescaped, hrest]

/-- **Tokens are read back.**  Every list of tokens is read back from its pointer, every
    well-formed pointer is written back from its tokens, and two different well-formed pointers
    never have the same tokens. -/
theorem tokens_round_trip :
    (∀ tokens : List String, split? (join tokens) = some tokens) ∧
    (∀ pointer : String, WellFormed pointer →
      ∃ tokens, split? pointer = some tokens ∧ join tokens = pointer) ∧
    ∀ a b : String, WellFormed a → WellFormed b → split? a = split? b → a = b := by
  refine ⟨split?_join, fun _ => join_split?, ?_⟩
  intro a b ha hb hsame
  obtain ⟨tokens, hsplit, hjoin⟩ := join_split? ha
  obtain ⟨others, hsplit', hjoin'⟩ := join_split? hb
  rw [hsplit, hsplit', Option.some_inj] at hsame
  rw [← hjoin, ← hjoin', hsame]

/-- A pointer whose tildes are all followed by one of the digits is well-formed. -/
theorem wellFormed_of_escapesValid {pointer : String} {rest : List Char}
    (hstart : pointer.toList = '/' :: rest) (h : escapesValid pointer.toList = true) :
    WellFormed pointer :=
  ⟨Or.inr ⟨rest, hstart⟩, (escapesValid_iff _).mp h⟩

/-- Escapes that touch are read one by one: `~01` is a tilde and a one, and `~10` a slash and a
    zero.  So the first pointer is not read as the second one. -/
theorem tokens_round_trip_touching :
    WellFormed "/~01/~10//" ∧ WellFormed "/~1/~10//" ∧
    split? "/~01/~10//" = some ["~1", "/0", "", ""] ∧
    join ["~1", "/0", "", ""] = "/~01/~10//" ∧ split? "/~01/~10//" ≠ split? "/~1/~10//" := by
  have hfirst : WellFormed "/~01/~10//" := wellFormed_of_escapesValid rfl (by decide +kernel)
  have hsecond : WellFormed "/~1/~10//" := wellFormed_of_escapesValid rfl (by decide +kernel)
  obtain ⟨-, hwritten, hinjective⟩ := tokens_round_trip
  obtain ⟨tokens, hsplit, hjoin⟩ := hwritten _ hfirst
  have htokens : split? "/~01/~10//" = some ["~1", "/0", "", ""] := by decide +kernel
  rw [hsplit, Option.some_inj] at htokens
  refine ⟨hfirst, hsecond, hsplit.trans (congrArg some htokens), htokens ▸ hjoin, ?_⟩
  intro hsame
  exact absurd (hinjective _ _ hfirst hsecond hsame) (by decide)

end Pointer

end ModelOperator

import ModelOperator.Json.Extent
import ModelOperator.Proofs.Json.Tokens

/-!
# What stands in a container

    A list or an object that does not close at once has a first part, and behind a comma there is
    one more.  The lemmas say so of the reader of values and of the reader of raw documents, part
    by part, and for a member that it is a name, a colon and a value. -/

namespace ModelOperator

open Json

section

variable {fuel : Nat} (depth : Nat) {cs rest : List Char}

/-- A list that does not close at once has a first item. -/
theorem Json.readValue_arr (hstart : skipBlanks cs = '[' :: rest)
    (hopen : ∀ tail, skipBlanks rest = ']' :: tail → False) :
    Json.readValue (fuel + 1) (depth + 2) cs =
      (Json.readValue fuel (depth + 1) rest).bind fun r =>
        (Json.readItems fuel (depth + 1) r.2).map fun s => (.arr (r.1 :: s.1), s.2) := by
  rw [Json.readValue]
  simp only [hstart]
  cases Json.readValue fuel (depth + 1) rest <;> rfl

theorem Raw.readValue_arr (meaning : List Char → Option String)
    (hstart : skipBlanks cs = '[' :: rest) (hopen : ∀ tail, skipBlanks rest = ']' :: tail → False) :
    Raw.readValue meaning (fuel + 1) cs = (Raw.readValue meaning fuel rest).bind fun r =>
      (Raw.readItems meaning fuel r.2).map fun s => (.arr (r.1 :: s.1), s.2) := by
  rw [Raw.readValue]
  simp only [hstart]
  cases Raw.readValue meaning fuel rest <;> rfl

/-- An object that does not close at once has a first member. -/
theorem Json.readValue_obj (hstart : skipBlanks cs = '\x7b' :: rest)
    (hopen : ∀ tail, skipBlanks rest = '\x7d' :: tail → False) :
    Json.readValue (fuel + 1) (depth + 2) cs =
      (Json.readMember fuel (depth + 1) (skipBlanks rest)).bind fun r =>
        (Json.readMembers fuel (depth + 1) r.2).map fun s => (.obj (r.1 :: s.1), s.2) := by
  rw [Json.readValue]
  simp only [hstart]
  cases Json.readMember fuel (depth + 1) (skipBlanks rest) <;> rfl

theorem Raw.readValue_obj (meaning : List Char → Option String)
    (hstart : skipBlanks cs = '\x7b' :: rest)
    (hopen : ∀ tail, skipBlanks rest = '\x7d' :: tail → False) :
    Raw.readValue meaning (fuel + 1) cs =
      (Raw.readMember meaning fuel (skipBlanks rest)).bind fun r =>
        (Raw.readMembers meaning fuel r.2).map fun s => (.obj (r.1 :: s.1), s.2) := by
  rw [Raw.readValue]
  simp only [hstart]
  cases Raw.readMember meaning fuel (skipBlanks rest) <;> rfl

/-- Behind a comma there is one more item. -/
theorem Json.readItems_comma (hstart : skipBlanks cs = ',' :: rest) :
    Json.readItems (fuel + 1) depth cs = (Json.readValue fuel depth rest).bind fun r =>
      (Json.readItems fuel depth r.2).map fun s => (r.1 :: s.1, s.2) := by
  rw [Json.readItems]
  simp only [hstart]
  cases Json.readValue fuel depth rest <;> rfl

theorem Raw.readItems_comma (meaning : List Char → Option String)
    (hstart : skipBlanks cs = ',' :: rest) :
    Raw.readItems meaning (fuel + 1) cs = (Raw.readValue meaning fuel rest).bind fun r =>
      (Raw.readItems meaning fuel r.2).map fun s => (r.1 :: s.1, s.2) := by
  rw [Raw.readItems]
  simp only [hstart]
  cases Raw.readValue meaning fuel rest <;> rfl

/-- Behind a comma there is one more member. -/
theorem Json.readMembers_comma (hstart : skipBlanks cs = ',' :: rest) :
    Json.readMembers (fuel + 1) depth cs =
      (Json.readMember fuel depth (skipBlanks rest)).bind fun r =>
        (Json.readMembers fuel depth r.2).map fun s => (r.1 :: s.1, s.2) := by
  rw [Json.readMembers]
  simp only [hstart]
  cases Json.readMember fuel depth (skipBlanks rest) <;> rfl

theorem Raw.readMembers_comma (meaning : List Char → Option String)
    (hstart : skipBlanks cs = ',' :: rest) :
    Raw.readMembers meaning (fuel + 1) cs =
      (Raw.readMember meaning fuel (skipBlanks rest)).bind fun r =>
        (Raw.readMembers meaning fuel r.2).map fun s => (r.1 :: s.1, s.2) := by
  rw [Raw.readMembers]
  simp only [hstart]
  cases Raw.readMember meaning fuel (skipBlanks rest) <;> rfl

/-- A name with its colon: what the name is written as, and what stands behind the colon. -/
def Names (cs written rest : List Char) : Prop :=
  ∃ quoted tail, cs = '"' :: quoted ∧ takeText quoted = some (written, tail) ∧
    skipBlanks tail = ':' :: rest

/-- A quoted text is taken and read. -/
theorem readText_quoted (quoted : List Char) :
    readText ('"' :: quoted) = (takeText quoted).bind fun taken =>
      (textOfChars taken.1).map fun name => (name, taken.2) := by
  rw [readText, readChars_eq_takeText]
  cases takeText quoted with
  | none => rfl
  | some taken => simp [textOfChars, Function.comp_def]

/-- A member is a name, a colon and a value. -/
theorem Json.readMember_names {written : List Char} (h : Names cs written rest) :
    Json.readMember (fuel + 1) depth cs = (textOfChars written).bind fun name =>
      (Json.readValue fuel depth rest).map fun r => ((name, r.1), r.2) := by
  obtain ⟨quoted, tail, rfl, htake, hcolon⟩ := h
  rw [Json.readMember, readText_quoted, htake, Option.bind_some]
  cases textOfChars written with
  | none => rfl
  | some name => simp only [Option.map_some, hcolon, Option.bind_some]

theorem Raw.readMember_names (meaning : List Char → Option String) {written : List Char}
    (h : Names cs written rest) :
    Raw.readMember meaning (fuel + 1) cs =
      (Raw.readValue meaning fuel rest).map fun r => ((meaning written, r.1), r.2) := by
  obtain ⟨quoted, tail, rfl, htake, hcolon⟩ := h
  rw [Raw.readMember]
  simp only [htake, hcolon]

/-- Without a name and a colon there is no member. -/
theorem Json.readMember_eq_none (h : ∀ written rest, ¬ Names cs written rest) :
    Json.readMember (fuel + 1) depth cs = none := by
  rw [Json.readMember]
  cases cs with
  | nil => rfl
  | cons c quoted =>
      by_cases hquote : c = '"'
      · subst hquote
        rw [readText_quoted]
        cases htake : takeText quoted with
        | none => rfl
        | some taken =>
            rw [Option.bind_some]
            cases textOfChars taken.1 with
            | none => rfl
            | some name =>
                simp only [Option.map_some]
                split
                · rename_i hcolon
                  exact absurd ⟨quoted, taken.2, rfl, htake, hcolon⟩ (h _ _)
                · rfl
      · rw [readText]
        exact fun rest heq => hquote (List.cons.inj heq).1

theorem Raw.readMember_eq_none (meaning : List Char → Option String)
    (h : ∀ written rest, ¬ Names cs written rest) :
    Raw.readMember meaning (fuel + 1) cs = none := by
  rw [Raw.readMember.eq_def]
  dsimp only
  split
  · rename_i quoted
    split
    · rfl
    · rename_i written tail htake
      split
      · rename_i hcolon
        exact absurd ⟨quoted, tail, rfl, htake, hcolon⟩ (h _ _)
      · rfl
  · rfl

end

end ModelOperator

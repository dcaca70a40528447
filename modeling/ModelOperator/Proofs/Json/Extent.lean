import ModelOperator.Proofs.Json.Containers

/-!
# Looking at a document and reading it

    A document that is looked at as a whole is the document that is read at once
    (`Extent.ofText?_whole`): both readers take the same steps (`Extent.Agrees`), and a part
    without a value, or one that stands too deep, is refused when it is looked at.  Where less is
    looked at, members that are not known are passed over (`Extent.decodeMembers_unknown`). -/

namespace ModelOperator

open Json

/-! ## Documents -/

namespace Extent

section

variable {α β γ : Type}

/-- What is read at once, and what is read raw and then looked at: both come to the same value
    and leave the same, or looking finds no value. -/
inductive Agrees (canon : α → β) (look : γ → Option β) :
    Option (α × List Char) → Option (γ × List Char) → Prop
  | both {a : α} {c : γ} {rest : List Char} (h : look c = some (canon a)) :
      Agrees canon look (some (a, rest)) (some (c, rest))
  | refused {raw : Option (γ × List Char)} (h : ∀ c rest, raw = some (c, rest) → look c = none) :
      Agrees canon look none raw

/-- Two readers that both refuse agree. -/
theorem Agrees.neither (canon : α → β) (look : γ → Option β) : Agrees canon look none none := by
  refine .refused ?_
  intro c rest h
  cases h

variable {α' β' γ' δ δ' ε : Type}

/-- One part after the other: where the parts agree, what is built of them does. -/
theorem Agrees.seq {canon : α → β} {look : γ → Option β} {read : Option (α × List Char)}
    {raw : Option (γ × List Char)} (h : Agrees canon look read raw) {canon' : α' → β'}
    {look' : γ' → Option β'} {read' : List Char → Option (α' × List Char)}
    {raw' : List Char → Option (γ' × List Char)}
    (h' : ∀ rest, Agrees canon' look' (read' rest) (raw' rest)) {f : α → α' → δ}
    {g : γ → γ' → δ'} {k : β → β' → ε} {canonAll : δ → ε} {lookAll : δ' → Option ε}
    (hcanon : ∀ a a', canonAll (f a a') = k (canon a) (canon' a'))
    (hlook : ∀ c c', lookAll (g c c') =
      (look c).bind fun b => (look' c').map fun b' => k b b') :
    Agrees canonAll lookAll
      (read.bind fun r => (read' r.2).map fun s => (f r.1 s.1, s.2))
      (raw.bind fun r => (raw' r.2).map fun s => (g r.1 s.1, s.2)) := by
  cases h with
  | refused h =>
      refine .refused ?_
      intro c rest hc
      obtain ⟨⟨first, tail⟩, hraw, hrest⟩ := Option.bind_eq_some_iff.mp hc
      obtain ⟨_, -, heq⟩ := Option.map_eq_some_iff.mp hrest
      cases heq
      rw [hlook, h first tail hraw, Option.bind_none]
  | @both a c rest h =>
      rw [Option.bind_some, Option.bind_some]
      have hrest := h' rest
      revert hrest
      generalize read' rest = second
      generalize raw' rest = second'
      intro hrest
      cases hrest with
      | refused hnone =>
          refine .refused ?_
          intro c' tail hc'
          obtain ⟨⟨more, _⟩, hraw, heq⟩ := Option.map_eq_some_iff.mp hc'
          cases heq
          rw [hlook, hnone more _ hraw, h]
          rfl
      | both hsome =>
          refine .both ?_
          rw [hlook, h, hsome, hcanon]
          rfl

end

/-- What is looked at of a member. -/
def decodeMember (depth : Nat) (m : Option String × Raw) : Option (String × Json) :=
  m.1.bind fun name => (whole.decode depth m.2).map fun v => (name, v)

/-- The member with its value in canonical form. -/
def canonicalMember (m : String × Json) : String × Json := (m.1, canonical m.2)

/-- With so many steps, a document is read at once as it is read raw and then looked at. -/
structure AgreeWithin (fuel : Nat) : Prop where
  value : ∀ depth cs, Agrees canonical (whole.decode depth) (Json.readValue fuel depth cs)
    (Raw.readValue textOfChars fuel cs)
  items : ∀ depth place cs, Agrees canonicalItems (whole.decodeItems depth place)
    (Json.readItems fuel depth cs) (Raw.readItems textOfChars fuel cs)
  member : ∀ depth cs, Agrees canonicalMember (decodeMember depth)
    (Json.readMember fuel depth cs) (Raw.readMember textOfChars fuel cs)
  members : ∀ depth cs, Agrees canonicalMembers (whole.decodeMembers depth)
    (Json.readMembers fuel depth cs) (Raw.readMembers textOfChars fuel cs)

/-- Of a list that is looked at as a whole, each item is. -/
theorem decodeItems_whole_cons (depth place : Nat) (raw : Raw) (rest : List Raw) :
    whole.decodeItems depth place (raw :: rest) = (whole.decode depth raw).bind fun v =>
      (whole.decodeItems depth (place + 1) rest).map fun vs => v :: vs := by
  rw [decodeItems, show whole.item? place = some whole from rfl]
  dsimp only
  cases decode depth whole raw <;> rfl

/-- Of an object that is looked at as a whole, each member is. -/
theorem decodeMembers_whole_cons (depth : Nat) (m : Option String × Raw)
    (rest : List (Option String × Raw)) :
    whole.decodeMembers depth (m :: rest) = (decodeMember depth m).bind fun v =>
      (whole.decodeMembers depth rest).map fun vs => v :: vs := by
  obtain ⟨_ | name, raw⟩ := m
  · rfl
  · rw [decodeMembers, member?, decodeMember]
    dsimp only
    cases decode depth whole raw <;> rfl

/-- A list that is looked at as a whole, from its first item on. -/
theorem decode_whole_arr (depth : Nat) (raw : Raw) (rest : List Raw) :
    whole.decode (depth + 2) (.arr (raw :: rest)) = (whole.decode (depth + 1) raw).bind fun v =>
      (whole.decodeItems (depth + 1) 1 rest).map fun vs => .arr (v :: vs) := by
  rw [decode, if_neg (by omega), Nat.add_sub_cancel_right (depth + 1) 1, decodeItems_whole_cons,
    Option.map_bind]
  simp only [Function.comp_def, Option.map_map]

/-- An object that is looked at as a whole, from its first member on. -/
theorem decode_whole_obj (depth : Nat) (m : Option String × Raw)
    (rest : List (Option String × Raw)) :
    whole.decode (depth + 2) (.obj (m :: rest)) = (decodeMember (depth + 1) m).bind fun v =>
      (whole.decodeMembers (depth + 1) rest).map fun vs => Json.ofMembers (v :: vs) := by
  rw [decode, if_neg (by omega), Nat.add_sub_cancel_right (depth + 1) 1, decodeMembers_whole_cons,
    Option.map_bind]
  simp only [Function.comp_def, Option.map_map]
  rfl

/-- A member with a name agrees as its value does. -/
theorem Agrees.named {depth : Nat} {read : Option (Json × List Char)}
    {raw : Option (Raw × List Char)} (h : Agrees canonical (whole.decode depth) read raw)
    (name : Option String) :
    Agrees canonicalMember (decodeMember depth)
      (name.bind fun name => read.map fun r => ((name, r.1), r.2))
      (raw.map fun r => ((name, r.1), r.2)) := by
  cases name with
  | none =>
      refine .refused ?_
      intro c rest hc
      obtain ⟨_, -, heq⟩ := Option.map_eq_some_iff.mp hc
      cases heq
      rfl
  | some name =>
      cases h with
      | refused h =>
          refine .refused ?_
          intro c rest hc
          obtain ⟨r, hr, heq⟩ := Option.map_eq_some_iff.mp hc
          cases heq
          exact congrArg (Option.map fun v => (name, v)) (h _ _ hr)
      | both h => exact .both (congrArg (Option.map fun v => (name, v)) h)

section

variable {fuel : Nat} (h : AgreeWithin fuel) (depth : Nat) {cs rest : List Char}

/-- A number without a value, one that is out of range, is refused when it is looked at. -/
theorem agrees_number (negative : Bool) (cs : List Char) :
    Agrees canonical (whole.decode depth) (readNumber negative cs)
      ((skipNumber cs).map fun rest => (.leaf ((readNumber negative cs).map (·.1)), rest)) := by
  cases hread : readNumber negative cs with
  | none =>
      refine .refused ?_
      intro c rest hc
      obtain ⟨_, -, heq⟩ := Option.map_eq_some_iff.mp hc
      cases heq
      rfl
  | some r =>
      obtain ⟨hskip, hleaf⟩ := endsAt_readNumber hread
      rw [hskip]
      exact .both (congrArg some hleaf.symm)

/-- So is a text without a value. -/
theorem agrees_text (cs : List Char) :
    Agrees canonical (whole.decode depth)
      ((readChars [] cs).map fun r => (.str (String.ofList r.1), r.2))
      ((takeText cs).map fun r => (.leaf ((textOfChars r.1).map .str), r.2)) := by
  rw [readChars_eq_takeText]
  cases takeText cs with
  | none => exact .neither ..
  | some taken =>
      obtain ⟨written, rest⟩ := taken
      simp only [Option.bind_some, Option.map_some, textOfChars]
      cases readChars [] (written ++ ['"']) with
      | none =>
          refine .refused ?_
          rintro c rest ⟨⟩
          rfl
      | some r => exact .both rfl

/-- Behind a bracket or a brace there is a container. -/
theorem container_of_readValue {c : Raw} {tail : List Char}
    (hstart : skipBlanks cs = '[' :: rest ∨ skipBlanks cs = '\x7b' :: rest)
    (hraw : Raw.readValue textOfChars (fuel + 1) cs = some (c, tail)) :
    (∃ items, c = .arr items) ∨ ∃ members, c = .obj members := by
  rcases hstart with hstart | hstart
  · refine Or.inl ?_
    by_cases hclose : ∃ tail, skipBlanks rest = ']' :: tail
    · obtain ⟨after, hclose⟩ := hclose
      rw [Raw.readValue] at hraw
      simp only [hstart, hclose] at hraw
      cases hraw
      exact ⟨_, rfl⟩
    · rw [Raw.readValue_arr _ hstart (not_exists.mp hclose)] at hraw
      obtain ⟨_, -, hrest⟩ := Option.bind_eq_some_iff.mp hraw
      obtain ⟨_, -, heq⟩ := Option.map_eq_some_iff.mp hrest
      cases heq
      exact ⟨_, rfl⟩
  · refine Or.inr ?_
    by_cases hclose : ∃ tail, skipBlanks rest = '\x7d' :: tail
    · obtain ⟨after, hclose⟩ := hclose
      rw [Raw.readValue] at hraw
      simp only [hstart, hclose] at hraw
      cases hraw
      exact ⟨_, rfl⟩
    · rw [Raw.readValue_obj _ hstart (not_exists.mp hclose)] at hraw
      obtain ⟨_, -, hrest⟩ := Option.bind_eq_some_iff.mp hraw
      obtain ⟨_, -, heq⟩ := Option.map_eq_some_iff.mp hrest
      cases heq
      exact ⟨_, rfl⟩

/-- A container that opens too deep is refused when it is looked at. -/
theorem agrees_deep (hdepth : depth ≤ 1)
    (hstart : skipBlanks cs = '[' :: rest ∨ skipBlanks cs = '\x7b' :: rest) :
    Agrees canonical (whole.decode depth) (Json.readValue (fuel + 1) depth cs)
      (Raw.readValue textOfChars (fuel + 1) cs) := by
  have hread : Json.readValue (fuel + 1) depth cs = none := by
    rw [Json.readValue]
    rcases hstart with hstart | hstart <;> simp only [hstart] <;>
      rcases Nat.le_one_iff_eq_zero_or_eq_one.mp hdepth with rfl | rfl <;> rfl
  rw [hread]
  refine .refused ?_
  intro c tail hraw
  obtain ⟨items, rfl⟩ | ⟨members, rfl⟩ := container_of_readValue hstart hraw <;>
    rw [decode, if_pos hdepth]

include h

/-- A list agrees if its items do. -/
theorem agrees_arr (hstart : skipBlanks cs = '[' :: rest) :
    Agrees canonical (whole.decode (depth + 2)) (Json.readValue (fuel + 1) (depth + 2) cs)
      (Raw.readValue textOfChars (fuel + 1) cs) := by
  by_cases hclose : ∃ tail, skipBlanks rest = ']' :: tail
  · obtain ⟨tail, hclose⟩ := hclose
    rw [Json.readValue, Raw.readValue]
    simp only [hstart, hclose]
    exact .both rfl
  · rw [Json.readValue_arr depth hstart (not_exists.mp hclose),
      Raw.readValue_arr _ hstart (not_exists.mp hclose)]
    exact (h.value _ rest).seq (h.items _ 1) (f := fun v vs => Json.arr (v :: vs))
      (fun _ _ => rfl) (decode_whole_arr depth)

/-- An object agrees if its members do. -/
theorem agrees_obj (hstart : skipBlanks cs = '\x7b' :: rest) :
    Agrees canonical (whole.decode (depth + 2)) (Json.readValue (fuel + 1) (depth + 2) cs)
      (Raw.readValue textOfChars (fuel + 1) cs) := by
  by_cases hclose : ∃ tail, skipBlanks rest = '\x7d' :: tail
  · obtain ⟨tail, hclose⟩ := hclose
    rw [Json.readValue, Raw.readValue]
    simp only [hstart, hclose]
    exact .both rfl
  · rw [Json.readValue_obj depth hstart (not_exists.mp hclose),
      Raw.readValue_obj _ hstart (not_exists.mp hclose)]
    exact (h.member _ _).seq (h.members _) (f := fun m ms => Json.obj (m :: ms))
      (fun _ _ => rfl) (decode_whole_obj depth)

/-- A container agrees at any depth. -/
theorem agrees_container
    (hstart : skipBlanks cs = '[' :: rest ∨ skipBlanks cs = '\x7b' :: rest) :
    Agrees canonical (whole.decode depth) (Json.readValue (fuel + 1) depth cs)
      (Raw.readValue textOfChars (fuel + 1) cs) := by
  by_cases hdepth : depth ≤ 1
  · exact agrees_deep depth hdepth hstart
  · obtain ⟨depth, rfl⟩ : ∃ d, depth = d + 2 := ⟨depth - 2, by omega⟩
    rcases hstart with hstart | hstart
    · exact agrees_arr h depth hstart
    · exact agrees_obj h depth hstart

/-- A value agrees, whatever it starts with. -/
theorem agrees_value (cs : List Char) :
    Agrees canonical (whole.decode depth) (Json.readValue (fuel + 1) depth cs)
      (Raw.readValue textOfChars (fuel + 1) cs) := by
  by_cases hcontainer : ∃ rest, skipBlanks cs = '[' :: rest ∨ skipBlanks cs = '\x7b' :: rest
  · obtain ⟨rest, hstart⟩ := hcontainer
    exact agrees_container h depth hstart
  rw [Json.readValue, Raw.readValue]
  generalize skipBlanks cs = start at hcontainer
  split
  · exact .both rfl
  · exact .both rfl
  · exact .both rfl
  · exact agrees_text depth _
  · exact agrees_number depth true _
  · exact absurd ⟨_, Or.inl rfl⟩ hcontainer
  · exact absurd ⟨_, Or.inr rfl⟩ hcontainer
  · simpa only [] using agrees_number depth false _

/-- Items agree if each of them does. -/
theorem agrees_items (place : Nat) (cs : List Char) :
    Agrees canonicalItems (whole.decodeItems depth place) (Json.readItems (fuel + 1) depth cs)
      (Raw.readItems textOfChars (fuel + 1) cs) := by
  by_cases hcomma : ∃ rest, skipBlanks cs = ',' :: rest
  · obtain ⟨rest, hstart⟩ := hcomma
    rw [Json.readItems_comma depth hstart, Raw.readItems_comma _ hstart]
    exact (h.value depth rest).seq (h.items depth (place + 1)) (fun _ _ => rfl)
      (decodeItems_whole_cons depth place)
  · rw [Json.readItems, Raw.readItems]
    generalize skipBlanks cs = start at hcomma
    split
    · exact .both rfl
    · exact absurd ⟨_, rfl⟩ hcomma
    · exact .refused (by simp)

/-- Members agree if each of them does. -/
theorem agrees_members (cs : List Char) :
    Agrees canonicalMembers (whole.decodeMembers depth) (Json.readMembers (fuel + 1) depth cs)
      (Raw.readMembers textOfChars (fuel + 1) cs) := by
  by_cases hcomma : ∃ rest, skipBlanks cs = ',' :: rest
  · obtain ⟨rest, hstart⟩ := hcomma
    rw [Json.readMembers_comma depth hstart, Raw.readMembers_comma _ hstart]
    exact (h.member depth _).seq (h.members depth) (fun _ _ => rfl)
      (decodeMembers_whole_cons depth)
  · rw [Json.readMembers, Raw.readMembers]
    generalize skipBlanks cs = start at hcomma
    split
    · exact .both rfl
    · exact absurd ⟨_, rfl⟩ hcomma
    · exact .refused (by simp)

/-- A member agrees if its value does. -/
theorem agrees_member (cs : List Char) :
    Agrees canonicalMember (decodeMember depth) (Json.readMember (fuel + 1) depth cs)
      (Raw.readMember textOfChars (fuel + 1) cs) := by
  by_cases hnames : ∃ written rest, Names cs written rest
  · obtain ⟨written, rest, hnames⟩ := hnames
    rw [Json.readMember_names depth hnames, Raw.readMember_names _ hnames]
    exact (h.value depth rest).named (textOfChars written)
  · have hnone : ∀ written rest, ¬ Names cs written rest :=
      fun written rest hw => hnames ⟨written, rest, hw⟩
    rw [Json.readMember_eq_none depth hnone, Raw.readMember_eq_none _ hnone]
    exact .neither ..

end

/-- Both readers agree with any number of steps. -/
theorem agreeWithin (fuel : Nat) : AgreeWithin fuel := by
  induction fuel with
  | zero =>
      constructor <;> intros
      · rw [Json.readValue, Raw.readValue]
        exact .neither ..
      · rw [Json.readItems, Raw.readItems]
        exact .neither ..
      · rw [Json.readMember, Raw.readMember]
        exact .neither ..
      · rw [Json.readMembers, Raw.readMembers]
        exact .neither ..
  | succ fuel ih =>
      exact ⟨agrees_value ih, agrees_items ih, agrees_member ih, agrees_members ih⟩

/-- **Looking at the whole of a document is reading it.** -/
theorem ofText?_whole (text : String) : whole.ofText? text = Json.parse text := by
  have hagree := (agreeWithin (2 * text.toList.length + 2)).value Json.maxDepth text.toList
  rw [ofText?, Raw.ofText?, Raw.readDocument, Json.parse, Json.parseOrdered]
  generalize Raw.readValue textOfChars (2 * text.toList.length + 2) text.toList = raw at hagree ⊢
  generalize Json.readValue (2 * text.toList.length + 2) maxDepth text.toList = read at hagree ⊢
  cases hagree with
  | refused h =>
      cases raw with
      | none => rfl
      | some r =>
          obtain ⟨c, rest⟩ := r
          dsimp only
          split
          · exact h c rest rfl
          · rfl
  | @both a c rest h =>
      dsimp only
      split
      · exact h
      · rfl

/-! ## What is passed over -/

/-- **A member that is not known is passed over.**  Whatever its value is, and whether it has one
    at all, the members around it are read as if it were not there. -/
theorem decodeMembers_unknown {e : Extent} {name : String} (h : e.member? name = none)
    (depth : Nat) (raw : Raw) (before after : List (Option String × Raw)) :
    e.decodeMembers depth (before ++ (some name, raw) :: after) =
      e.decodeMembers depth (before ++ after) := by
  induction before with
  | nil => rw [List.nil_append, List.nil_append, decodeMembers, h]
  | cons m rest ih =>
      obtain ⟨_ | other, value⟩ := m
      · rfl
      · rw [List.cons_append, List.cons_append, decodeMembers, decodeMembers, ih]

example : (plain ["status"]).ofText? "\x7b\"status\":\"success\",\"note\":\"\\ud800\"\x7d" =
    some (.obj [("status", .str "success")]) := by cbv

end Extent

end ModelOperator

import ModelOperator.Proofs.Patch.Addition

/-!
# Containers that an addition creates

    An addition creates the containers that are missing from the first token on that leads
    nowhere, as a member of an object or behind the items of a list (`grow`).  Each is a list if
    the next token asks for one, and else an object (`nest`).

    They are created before the value is added, and the second pass has to find its way through
    them.  It finds none into a list that has just been created, where a dash and a zero lead
    nowhere, and none past a dash.  So an addition creates what is missing exactly if a token that
    asks for a list is the last one (`applyOperations_creates_iff`). -/

namespace ModelOperator

namespace Patch

/-- The container that a token is to go into is a list. -/
def AsksForList (token : String) : Prop := token = "-" ∨ (Pointer.looseIndex? token).isSome

instance (token : String) : Decidable (AsksForList token) :=
  inferInstanceAs (Decidable (token = "-" ∨ (Pointer.looseIndex? token).isSome))

/-- A token asks for no list, or for a place that a new list has. -/
def FitsNew (token : String) : Prop := ¬ AsksForList token ∨ token = "0" ∨ token = "-"

/-- The containers that tokens ask for, one within the other, around a value. -/
def nest (value : Json) : List String → Json
  | [] => value
  | token :: rest =>
    if AsksForList token then .arr [nest value rest] else .obj [(token, nest value rest)]

/-- A value with what is created behind a token that leads nowhere in it. -/
def grow (value : Json) (first : String) (later : List String) : Json → Json
  | .obj ms => .obj (Members.insert first (nest value later) ms)
  | .arr items => .arr (items ++ [nest value later])
  | leaf => leaf

/-- An operation adds a value behind a token that leads nowhere: it names a new member of an
    object or is a dash in a list, and what is missing behind it can be created. -/
structure OpensAt (op : Operation) (value doc : Json) (known : List String) (first : String)
    (later : List String) (found : Json) : Prop where
  kind : op.kind = .add
  value : op.value = some value
  /-- The pointer is escaped well. -/
  path : Pointer.parse? op.path = some (known ++ first :: later)
  /-- No token is an index below zero. -/
  signless : ∀ token ∈ known ++ first :: later, isNegativeIndex token = false
  /-- What the tokens before lead to. -/
  known : doc.at? known = some found
  /-- The token leads nowhere. -/
  missing : found.child? first = none
  /-- The token is a new name or a dash. -/
  place : (∃ ms, found = .obj ms) ∨ (∃ items, found = .arr items) ∧ first = "-"
  /-- Each of the other tokens is a name, or leads into a new list. -/
  later : ∀ token ∈ later, FitsNew token

variable {value doc out : Json}

/-! ## Tokens that lead nowhere -/

theorem freshFor_list {next : String} (h : AsksForList next) : freshFor next = .arr [] := if_pos h

theorem freshFor_object {next : String} (h : ¬ AsksForList next) : freshFor next = .obj [] :=
  if_neg h

/-- The place in a new list that a token leads to. -/
theorem newPlace?_nil {token : String} (h : AsksForList token) (hfits : FitsNew token) :
    Json.newPlace? token [] = some 0 := by
  rcases hfits with hname | rfl | rfl
  · exact absurd h hname
  · decide +kernel
  · rfl

/-- A value goes into a container that is created for its token. -/
theorem adds_last_iff {token : String} (hfits : FitsNew token) :
    Adds value [token] (freshFor token) out ↔ out = nest value [token] := by
  rw [nest, nest]
  by_cases hlist : AsksForList token
  · rw [freshFor_list hlist, if_pos hlist]
    have hplace := newPlace?_nil hlist hfits
    constructor
    · intro h
      cases h with
      | item hi =>
          cases hplace.symm.trans hi
          rfl
    · rintro rfl
      exact .item hplace
  · rw [freshFor_object hlist, if_neg hlist]
    constructor
    · intro h
      cases h with
      | member => rfl
    · rintro rfl
      exact .member

/-- **Containers that are created one within the other** are as the tokens ask for, and a list is
    found among them only if it is the last one. -/
theorem adds_fresh_iff {next : String} {rest : List String}
    (hfits : ∀ token ∈ next :: rest, FitsNew token) :
    Adds value (next :: rest) (freshFor next) out ↔
      (∀ token ∈ (next :: rest).dropLast, ¬ AsksForList token) ∧
        out = nest value (next :: rest) := by
  induction rest generalizing next out with
  | nil =>
      rw [adds_last_iff (hfits next List.mem_cons_self)]
      exact (and_iff_right (List.forall_mem_nil _)).symm
  | cons second rest ih =>
      obtain ⟨-, hrest⟩ := List.forall_mem_cons.mp hfits
      rw [List.dropLast_cons_cons, List.forall_mem_cons, nest]
      by_cases hlist : AsksForList next
      · rw [freshFor_list hlist]
        constructor
        · intro h
          cases h with
          | inItem hi hitem h => cases hitem
        · rintro ⟨⟨hname, -⟩, -⟩
          exact absurd hlist hname
      · rw [freshFor_object hlist, if_neg hlist]
        constructor
        · intro h
          cases h with
          | inMember h =>
              obtain ⟨hnames, rfl⟩ := (ih hrest).mp h
              exact ⟨⟨hlist, hnames⟩, rfl⟩
        · rintro ⟨⟨-, hnames⟩, rfl⟩
          exact .inMember ((ih hrest).mpr ⟨hnames, rfl⟩)

/-- What an addition makes of a value in which its first token leads nowhere. -/
theorem adds_missing_iff {found : Json} {first : String} {later : List String}
    (hmissing : found.child? first = none)
    (hplace : (∃ ms, found = .obj ms) ∨ (∃ items, found = .arr items) ∧ first = "-")
    (hfits : ∀ token ∈ later, FitsNew token) :
    Adds value (first :: later) found out ↔
      (((∃ ms, found = .obj ms) ∨ later = []) ∧ ∀ token ∈ later.dropLast, ¬ AsksForList token) ∧
        out = grow value first later found := by
  rcases hplace with ⟨ms, rfl⟩ | ⟨⟨items, rfl⟩, rfl⟩
  · have hget : Members.get? first ms = none := hmissing
    rw [grow, and_iff_right (Or.inl ⟨ms, rfl⟩)]
    cases later with
    | nil =>
        constructor
        · intro h
          cases h with
          | member => exact ⟨List.forall_mem_nil _, rfl⟩
        · rintro ⟨-, rfl⟩
          exact .member
    | cons next rest =>
        constructor
        · intro h
          cases h with
          | inMember h =>
              rw [hget] at h
              obtain ⟨hnames, rfl⟩ := (adds_fresh_iff hfits).mp h
              exact ⟨hnames, rfl⟩
        · rintro ⟨hnames, rfl⟩
          refine .inMember ?_
          rw [hget]
          exact (adds_fresh_iff hfits).mpr ⟨hnames, rfl⟩
  · rw [grow]
    cases later with
    | nil =>
        constructor
        · intro h
          cases h with
          | item hi =>
              cases hi
              exact ⟨⟨Or.inr rfl, List.forall_mem_nil _⟩, by rw [List.insertIdx_length_self]; rfl⟩
        · rintro ⟨-, rfl⟩
          have h : Adds value ["-"] (.arr items) _ := .item rfl
          rw [List.insertIdx_length_self] at h
          exact h
    | cons next rest =>
        constructor
        · intro h
          cases h with
          | inItem hi hitem h => cases Pointer.index?_dash.symm.trans hi
        · rintro ⟨⟨⟨ms, hobject⟩ | hlast, -⟩, -⟩
          · cases hobject
          · cases hlast

/-! ## Tokens that lead somewhere -/

/-- Behind a token that leads to a child, the child is changed. -/
theorem adds_child_iff {token next : String} {rest : List String} {part : Json}
    (h : doc.child? token = some part) :
    Adds value (token :: next :: rest) doc out ↔
      ∃ new, Adds value (next :: rest) part new ∧ Json.setChild token new doc = out := by
  cases doc with
  | obj ms =>
      have hget : Members.get? token ms = some part := h
      constructor
      · intro hadds
        cases hadds with
        | inMember hnew =>
            rw [hget] at hnew
            exact ⟨_, hnew, rfl⟩
      · rintro ⟨new, hnew, rfl⟩
        refine .inMember ?_
        rw [hget]
        exact hnew
  | arr items =>
      obtain ⟨i, hi, hitem⟩ := Option.bind_eq_some_iff.mp h
      simp only [Json.setChild, hi]
      constructor
      · intro hadds
        cases hadds with
        | inItem hindex hthere hnew =>
            cases hi.symm.trans hindex
            cases hitem.symm.trans hthere
            exact ⟨_, hnew, rfl⟩
      · rintro ⟨new, hnew, rfl⟩
        exact .inItem hi hitem hnew
  | _ => cases h

/-- **Behind tokens that lead somewhere**, what they lead to is changed. -/
theorem adds_known_iff {known later : List String} {first : String} {found : Json}
    (h : doc.at? known = some found) :
    Adds value (known ++ first :: later) doc out ↔
      ∃ new, Adds value (first :: later) found new ∧
        doc.change? (fun _ => some new) known = some out := by
  induction known generalizing doc out with
  | nil =>
      cases h
      constructor
      · intro hadds
        exact ⟨out, hadds, rfl⟩
      · rintro ⟨new, hadds, ⟨⟩⟩
        exact hadds
  | cons token rest ih =>
      obtain ⟨part, hpart, hrest⟩ := Option.bind_eq_some_iff.mp h
      obtain ⟨next, more, heq⟩ : ∃ next more, rest ++ first :: later = next :: more :=
        List.exists_cons_of_ne_nil (by simp)
      rw [List.cons_append, heq, adds_child_iff hpart, ← heq]
      simp only [ih hrest, Json.change?, hpart, Option.map_eq_some_iff]
      constructor
      · rintro ⟨new, ⟨inner, hadds, hchange⟩, hset⟩
        exact ⟨inner, hadds, new, hchange, hset⟩
      · rintro ⟨inner, hadds, new, hchange, hset⟩
        exact ⟨new, ⟨inner, hadds, hchange⟩, hset⟩

/-! ## The operation -/

section Operation

variable {op : Operation} {known later : List String} {first : String} {found : Json}

/-- An addition behind a token that leads nowhere, and what it makes of the document. -/
theorem OpensAt.applyOperations_iff (h : OpensAt op value doc known first later found) :
    applyOperations [op] doc = .ok out ↔
      ((∀ source ∈ op.source, Operation.Passes source) ∧
        ((∃ ms, found = .obj ms) ∨ later = []) ∧ ∀ token ∈ later.dropLast, ¬ AsksForList token) ∧
      doc.change? (fun _ => some (grow value first later found)) known = some out := by
  have hcheck : op.check = .ok () := by
    rw [Operation.check, h.kind, h.value]
    rfl
  have hpath : Operation.Passes op.path := ⟨_, split?_of_parse? h.path, h.signless⟩
  have hadmitted : op.Admitted ↔ ∀ source ∈ op.source, Operation.Passes source := by
    rw [Operation.Admitted, Operation.pointers, List.forall_mem_cons, and_iff_right hpath]
    simp only [Option.mem_toList, Option.mem_def]
  rw [applyOperations_single, applyOperation_ok_iff, and_iff_right hcheck, hadmitted,
    evaluate_add_iff h.kind h.value, and_assoc]
  refine and_congr_right fun _ => ?_
  constructor
  · rintro ⟨tokens, htokens, hadds⟩
    cases h.path.symm.trans htokens
    obtain ⟨new, hnew, hchange⟩ := (adds_known_iff h.known).mp hadds
    obtain ⟨hnames, rfl⟩ := (adds_missing_iff h.missing h.place h.later).mp hnew
    exact ⟨hnames, hchange⟩
  · rintro ⟨hnames, hchange⟩
    have hnew : Adds value (first :: later) found (grow value first later found) :=
      (adds_missing_iff h.missing h.place h.later).mpr ⟨hnames, rfl⟩
    exact ⟨_, h.path, (adds_known_iff h.known).mpr ⟨_, hnew, hchange⟩⟩

/-- **An addition creates what is missing** behind a token that leads nowhere exactly if it gives
    no source that is not let through, does not go on behind a dash, and has no token that asks for
    a list before its last one.  Then the containers are created that the tokens ask for, and the
    value is found where the pointer leads. -/
theorem applyOperations_creates_iff (h : OpensAt op value doc known first later found) :
    ((∃ out, applyOperations [op] doc = .ok out) ↔
      (∀ source ∈ op.source, Operation.Passes source) ∧
        ((∃ ms, found = .obj ms) ∨ later = []) ∧ ∀ token ∈ later.dropLast, ¬ AsksForList token) ∧
    ∀ out, applyOperations [op] doc = .ok out →
      doc.change? (fun _ => some (grow value first later found)) known = some out ∧
      ∃ target, out.locate? (known ++ first :: later) = some target ∧
        out.partAt? target = some value := by
  refine ⟨?_, ?_⟩
  · constructor
    · rintro ⟨out, hout⟩
      exact (h.applyOperations_iff.mp hout).1
    · intro hcreates
      obtain ⟨out, hchange⟩ := Json.exists_change?_of_at? h.known (grow value first later found)
      exact ⟨out, h.applyOperations_iff.mpr ⟨hcreates, hchange⟩⟩
  · intro out hout
    refine ⟨(h.applyOperations_iff.mp hout).2, ?_⟩
    rw [applyOperations_single, applyOperation_ok_iff] at hout
    obtain ⟨tokens, htokens, hadds⟩ := (evaluate_add_iff h.kind h.value).mp hout.2.2
    cases h.path.symm.trans htokens
    obtain ⟨target, htarget, hadded⟩ := hadds.addedAt
    exact ⟨target, htarget, hadded.there⟩

/-- An addition of an argument where there is no template. -/
def argumentAddition : Operation := ⟨.add, "/spec/template/args/-", none, some (.str "--verbose")⟩

theorem opensAt_argumentAddition :
    OpensAt argumentAddition (.str "--verbose") (.obj [("spec", .obj [])]) ["spec"] "template"
      ["args", "-"] (.obj []) where
  kind := rfl
  value := rfl
  path := by decide +kernel
  signless := by decide +kernel
  known := rfl
  missing := rfl
  place := Or.inl ⟨[], rfl⟩
  later := List.forall_mem_cons.mpr
    ⟨Or.inl (by decide +kernel), List.forall_mem_singleton.mpr (Or.inr (Or.inr rfl))⟩

/-- An object and a list are created for the argument. -/
theorem applyOperations_creates_argument :
    applyOperations [argumentAddition] (.obj [("spec", .obj [])]) =
      .ok (.obj [("spec", .obj [("template", .obj [("args", .arr [.str "--verbose"])])])]) := by
  have hnames : ¬ AsksForList "args" := by decide +kernel
  have hlist : AsksForList "-" := Or.inl rfl
  obtain ⟨out, hout⟩ := (applyOperations_creates_iff opensAt_argumentAddition).1.mpr
    ⟨nofun, Or.inl ⟨[], rfl⟩, List.forall_mem_singleton.mpr hnames⟩
  have hchange := ((applyOperations_creates_iff opensAt_argumentAddition).2 out hout).1
  rw [hout]
  have hnest : nest (.str "--verbose") ["args", "-"] =
      .obj [("args", .arr [.str "--verbose"])] := by
    rw [nest, if_neg hnames, nest, if_pos hlist, nest]
  rw [grow, hnest] at hchange
  exact congrArg _ (Option.some.inj hchange).symm

/-- An addition to an item that is to be created at the end of a list. -/
def itemAddition : Operation := ⟨.add, "/items/-/name", none, some (.str "a")⟩

/-- An addition to an item that is to be created in a new list. -/
def placeAddition : Operation := ⟨.add, "/spec/args/0/x", none, some (.int 1)⟩

theorem opensAt_itemAddition :
    OpensAt itemAddition (.str "a") (.obj [("items", .arr [])]) ["items"] "-" ["name"]
      (.arr []) where
  kind := rfl
  value := rfl
  path := by decide +kernel
  signless := by decide +kernel
  known := rfl
  missing := by decide +kernel
  place := Or.inr ⟨⟨[], rfl⟩, rfl⟩
  later := List.forall_mem_singleton.mpr (Or.inl (by decide +kernel))

theorem opensAt_placeAddition :
    OpensAt placeAddition (.int 1) (.obj []) [] "spec" ["args", "0", "x"] (.obj []) where
  kind := rfl
  value := rfl
  path := by decide +kernel
  signless := by decide +kernel
  known := rfl
  missing := rfl
  place := Or.inl ⟨[], rfl⟩
  later := by
    have hargs : FitsNew "args" := Or.inl (by decide +kernel)
    have hname : FitsNew "x" := Or.inl (by decide +kernel)
    simp only [List.forall_mem_cons]
    exact ⟨hargs, Or.inr (Or.inl rfl), hname, List.forall_mem_nil _⟩

/-- Neither item is created: no token leads into a list that has just been created, and none past a
    dash. -/
theorem creation_refused :
    (OpensAt itemAddition (.str "a") (.obj [("items", .arr [])]) ["items"] "-" ["name"] (.arr []) ∧
      applyOperations [itemAddition] (.obj [("items", .arr [])]) =
        .error (.failedOperation "/items/-/name" "path is invalid")) ∧
    OpensAt placeAddition (.int 1) (.obj []) [] "spec" ["args", "0", "x"] (.obj []) ∧
      applyOperations [placeAddition] (.obj []) =
        .error (.indexOutOfBounds 0 "/spec/args/0/x") := by
  refine ⟨⟨opensAt_itemAddition, ?_⟩, opensAt_placeAddition, ?_⟩
  · rfl
  · rfl

end Operation

end Patch

end ModelOperator

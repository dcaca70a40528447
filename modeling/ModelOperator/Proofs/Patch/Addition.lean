import ModelOperator.Proofs.Json.Addition
import ModelOperator.Proofs.Json.Pointer
import ModelOperator.Proofs.Patch.Operation

/-!
# Additions that create what is missing

    An operation that adds a value goes through the document twice: once to create the
    containers that are missing on the way, and once to put the value there.

    `Adds` says what both make of the document together, one token after the other, and
    `adds_iff` that it is what they make of it.  So what is said of one token holds of the whole
    pointer: the value is found where the pointer leads, and nothing else has changed
    (`applyOperations_add`). -/

namespace ModelOperator

namespace Patch

open Json (newPlace?)

/-- What an addition makes of a document, with the containers created that are missing. -/
inductive Adds (value : Json) : List String → Json → Json → Prop
  /-- No token is left: the document is replaced. -/
  | whole {doc : Json} : Adds value [] doc value
  /-- The last token names a member. -/
  | member {name : String} {ms : Members} :
      Adds value [name] (.obj ms) (.obj (Members.insert name value ms))
  /-- The last token is a position in a list, or its end. -/
  | item {token : String} {items : List Json} {i : Nat} (hi : newPlace? token items = some i) :
      Adds value [token] (.arr items) (.arr (items.insertIdx i value))
  /-- A token leads to a member, which is created if there is none. -/
  | inMember {name next : String} {rest : List String} {ms : Members} {child : Json}
      (h : Adds value (next :: rest) ((Members.get? name ms).getD (freshFor next)) child) :
      Adds value (name :: next :: rest) (.obj ms) (.obj (Members.insert name child ms))
  /-- A token leads to an item. -/
  | inItem {token next : String} {rest : List String} {items : List Json} {i : Nat}
      {item child : Json} (hi : Pointer.index? token = some i) (hitem : items[i]? = some item)
      (h : Adds value (next :: rest) item child) :
      Adds value (token :: next :: rest) (.arr items) (.arr (items.set i child))

variable {value : Json}

/-! ## The two passes -/

/-- The document with the parents on a path created, and a value added at its end. -/
def createAndAdd (path : String) (tokens : List String) (value doc : Json) : Option Json :=
  match ensureParents path tokens doc with
  | .ok parents => parents.addAt? tokens value
  | .error _ => none

theorem createAndAdd_eq_some {path : String} {tokens : List String} {doc out : Json} :
    createAndAdd path tokens value doc = some out ↔
      ∃ parents, ensureParents path tokens doc = .ok parents ∧
        parents.addAt? tokens value = some out := by
  rw [createAndAdd]
  cases ensureParents path tokens doc with
  | error e => exact iff_of_false nofun (by rintro ⟨_, ⟨⟩, -⟩)
  | ok parents =>
      constructor
      · intro h
        exact ⟨parents, rfl, h⟩
      · rintro ⟨_, ⟨⟩, h⟩
        exact h

/-- Nothing is created for the last token. -/
theorem createAndAdd_last (path token : String) (doc : Json) :
    createAndAdd path [token] value doc = Json.insertChild? token value doc := by
  cases doc <;> rfl

/-- A token names a member: both passes go on with it, or with what is created for it. -/
theorem createAndAdd_obj (path name next : String) (rest : List String) (ms : Members) :
    createAndAdd path (name :: next :: rest) value (.obj ms) =
      (createAndAdd path (next :: rest) value ((Members.get? name ms).getD (freshFor next))).map
        fun child => .obj (Members.insert name child ms) := by
  rw [createAndAdd, createAndAdd, ensureParents]
  cases ensureParents path (next :: rest) ((Members.get? name ms).getD (freshFor next)) with
  | error e => rfl
  | ok parents =>
      dsimp only
      rw [Json.addAt?_cons, Json.child?, Members.get?_insert, if_pos rfl, Option.bind_some]
      refine congrArg (fun f => Option.map f _) (funext fun child => ?_)
      rw [Json.setChild, Members.insert_insert]

/-- A token is an index: both passes go on with the item.  A dash leads to an item that the
    first pass creates and the second one does not find. -/
theorem createAndAdd_arr (path token next : String) (rest : List String) (items : List Json) :
    createAndAdd path (token :: next :: rest) value (.arr items) =
      (Pointer.index? token).bind fun i => items[i]?.bind fun item =>
        (createAndAdd path (next :: rest) value item).map fun child =>
          .arr (items.set i child) := by
  have hlost : ∀ others : List Json, Pointer.index? token = none →
      (Json.arr others).addAt? (token :: next :: rest) value = none := by
    intro others hindex
    rw [Json.addAt?_cons, Json.child?, hindex]
    rfl
  rw [createAndAdd, ensureParents]
  by_cases hdash : token = "-"
  · subst hdash
    rw [if_pos rfl, Pointer.index?_dash, Option.bind_none]
    cases ensureParents path (next :: rest) (freshFor next) with
    | error e => rfl
    | ok child => exact hlost _ Pointer.index?_dash
  · rw [if_neg hdash]
    cases hindex : Pointer.index? token with
    | none =>
        rw [Option.bind_none]
        cases Pointer.looseIndex? token with
        | none => rfl
        | some i =>
            dsimp only
            cases items[i]? with
            | none => rfl
            | some item =>
                dsimp only
                cases ensureParents path (next :: rest) item with
                | error e => rfl
                | ok child => exact hlost _ hindex
    | some i =>
        rw [Pointer.looseIndex?_of_index? hindex, Option.bind_some]
        dsimp only
        cases hitem : items[i]? with
        | none => rfl
        | some item =>
            dsimp only
            rw [Option.bind_some, createAndAdd]
            cases ensureParents path (next :: rest) item with
            | error e => rfl
            | ok child =>
                dsimp only
                obtain ⟨hlt, -⟩ := List.getElem?_eq_some_iff.mp hitem
                rw [Json.addAt?_cons, Json.child?, hindex, Option.bind_some,
                  List.getElem?_set_self hlt, Option.bind_some]
                refine congrArg (fun f => Option.map f _) (funext fun new => ?_)
                rw [Json.setChild, hindex]
                dsimp only
                rw [List.set_set]

/-- A value without parts has nothing that a token leads to. -/
theorem createAndAdd_leaf (path token next : String) (rest : List String) {doc : Json}
    (hobject : doc.isObject = false) (hlist : doc.asItems? = none) :
    createAndAdd path (token :: next :: rest) value doc = none := by
  cases doc with
  | obj => cases hobject
  | arr => cases hlist
  | _ =>
      show Json.addAt? _ (token :: next :: rest) value = none
      rw [Json.addAt?_cons]
      rfl

/-- **What the two passes make of a document.** -/
theorem adds_iff (path : String) {tokens : List String} {doc out : Json} :
    createAndAdd path tokens value doc = some out ↔ Adds value tokens doc out := by
  induction tokens generalizing doc out with
  | nil =>
      show ((match ensureParents path [] doc with
        | .ok parents => some value
        | .error _ => none : Option Json) = some out) ↔ _
      rw [ensureParents]
      constructor
      · rintro ⟨⟩
        exact .whole
      · rintro ⟨⟩
        rfl
      all_goals nofun
  | cons token rest ih =>
      cases rest with
      | nil =>
          rw [createAndAdd_last]
          constructor
          · intro h
            cases doc with
            | obj ms =>
                cases h
                exact .member
            | arr items =>
                rw [Json.insertChild?_arr] at h
                obtain ⟨i, hi, rfl⟩ := Option.map_eq_some_iff.mp h
                exact .item hi
            | _ => cases h
          · intro h
            cases h with
            | member => rfl
            | item hi => rw [Json.insertChild?_arr, hi, Option.map_some]
      | cons next rest =>
          constructor
          · intro h
            cases doc with
            | obj ms =>
                rw [createAndAdd_obj] at h
                obtain ⟨child, hchild, rfl⟩ := Option.map_eq_some_iff.mp h
                exact .inMember (ih.mp hchild)
            | arr items =>
                rw [createAndAdd_arr] at h
                obtain ⟨i, hi, h⟩ := Option.bind_eq_some_iff.mp h
                obtain ⟨item, hitem, h⟩ := Option.bind_eq_some_iff.mp h
                obtain ⟨child, hchild, rfl⟩ := Option.map_eq_some_iff.mp h
                exact .inItem hi hitem (ih.mp hchild)
            | _ =>
                rw [createAndAdd_leaf path token next rest rfl rfl] at h
                cases h
          · intro h
            cases h with
            | inMember h => rw [createAndAdd_obj, ih.mpr h, Option.map_some]
            | inItem hi hitem h =>
                rw [createAndAdd_arr, hi, Option.bind_some, hitem, Option.bind_some, ih.mpr h,
                  Option.map_some]

/-- An operation that adds a value makes of a document what its tokens and its value say. -/
theorem evaluate_add_iff {op : Operation} (hkind : op.kind = .add) (hvalue : op.value = some value)
    {doc out : Json} : op.evaluate doc = .ok out ↔
      ∃ tokens, Pointer.parse? op.path = some tokens ∧ Adds value tokens doc out := by
  rw [Operation.evaluate, if_pos hkind]
  have hedit : op.edit? = (Pointer.parse? op.path).map fun path => .add path value := by
    rw [Operation.edit?, hkind, hvalue]
    cases Pointer.parse? op.path <;> rfl
  constructor
  · intro h
    obtain ⟨parents, hparents, hperform⟩ := bind_ok h
    obtain ⟨edit, hof, hrun⟩ := perform_ok_iff.mp hperform
    obtain ⟨tokens, htokens, rfl⟩ := Option.map_eq_some_iff.mp (hedit.symm.trans hof)
    rw [split?_of_parse? htokens, Option.getD_some] at hparents
    refine ⟨tokens, htokens, (adds_iff op.path).mp ?_⟩
    exact createAndAdd_eq_some.mpr ⟨parents, hparents, Edit.orFault_ok hrun⟩
  · rintro ⟨tokens, htokens, hadds⟩
    obtain ⟨parents, hparents, hadd⟩ := createAndAdd_eq_some.mp ((adds_iff op.path).mpr hadds)
    rw [split?_of_parse? htokens, Option.getD_some, hparents]
    refine perform_ok_iff.mpr ⟨.add tokens value, ?_, ?_⟩
    · rw [hedit, htokens]
      rfl
    · rw [Edit.run, hadd]
      rfl

theorem applyOperations_single (op : Operation) (doc : Json) :
    applyOperations [op] doc = applyOperation op doc := by
  rw [applyOperations]
  cases applyOperation op doc <;> rfl

/-! ## What an addition leaves alone -/

/-- Nothing stands in a container that is created. -/
theorem partAt?_freshFor (next : String) (step : PathStep) (p : List PathStep) :
    (freshFor next).partAt? (step :: p) = none := by
  rw [freshFor]
  split
  · cases step <;> rfl
  · cases step <;> rfl

theorem locate?_ne_nil {token : String} {rest : List String} {v : Json} {target : List PathStep}
    (h : v.locate? (token :: rest) = some target) : target ≠ [] := by
  rintro rfl
  cases v with
  | obj ms =>
      obtain ⟨_, -, heq⟩ := Option.map_eq_some_iff.mp h
      cases heq
  | arr items =>
      obtain ⟨_, -, h⟩ := Option.bind_eq_some_iff.mp h
      obtain ⟨_, -, heq⟩ := Option.map_eq_some_iff.mp h
      cases heq
  | _ => cases h

/-- A value is added at the place that the tokens lead to in the outcome. -/
theorem Adds.addedAt {tokens : List String} {doc out : Json} (h : Adds value tokens doc out) :
    ∃ target, out.locate? tokens = some target ∧ Json.AddedAt value target doc out := by
  induction h with
  | @whole doc => exact ⟨[], rfl, .whole value doc⟩
  | @member name ms =>
      refine ⟨[.member name], ?_, .member value name ms⟩
      rw [Json.locate?, Members.get?_insert, if_pos rfl]
      rfl
  | @item token items i hi =>
      have hle := Json.newPlace?_le hi
      refine ⟨[.place i], ?_, .item value hle⟩
      have hindex : (if token = "-" ∧ ([] : List String) = [] then
          some ((items.insertIdx i value).length - 1) else Pointer.index? token) = some i := by
        rw [Json.newPlace?] at hi
        by_cases hdash : token = "-"
        · rw [if_pos hdash] at hi
          rw [if_pos ⟨hdash, rfl⟩, List.length_insertIdx_of_le_length hle, Nat.add_sub_cancel]
          exact hi
        · rw [if_neg hdash] at hi
          rw [if_neg fun h => hdash h.1]
          exact (Option.filter_eq_some_iff.mp hi).1
      rw [Json.locate?, hindex, Option.bind_some, List.getElem?_insertIdx_self, if_pos hle]
      rfl
  | @inMember name next rest ms child _ ih =>
      obtain ⟨target, htarget, hadded⟩ := ih
      refine ⟨.member name :: target, ?_, ?_⟩
      · rw [Json.locate?, Members.get?_insert, if_pos rfl, Option.bind_some, htarget]
        rfl
      · refine hadded.below (locate?_ne_nil htarget) ?_ ?_ ?_ ?_ ?_
        · intro w hw
          rw [Json.partAt?] at hw
          cases hget : Members.get? name ms with
          | none =>
              rw [hget] at hw
              cases hw
          | some part =>
              rw [hget] at hw
              exact (Option.some.inj hw).symm
        · intro step p
          rw [Json.partAt?]
          cases Members.get? name ms with
          | none => exact (partAt?_freshFor next step p).symm
          | some part => rfl
        · intro p
          rw [Json.partAt?, Members.get?_insert, if_pos rfl, Option.bind_some]
        · intro first p hfirst
          exact Json.partAt?_insert_of_ne hfirst child ms p
        · exact .object fun other hhas => Json.has_insert hhas name child
  | @inItem token next rest items i item child hi hitem _ ih =>
      obtain ⟨target, htarget, hadded⟩ := ih
      obtain ⟨hlt, -⟩ := List.getElem?_eq_some_iff.mp hitem
      refine ⟨.place i :: target, ?_, ?_⟩
      · rw [Json.locate?, if_neg (fun h => List.cons_ne_nil _ _ h.2), hi, Option.bind_some,
          List.getElem?_set_self hlt, Option.bind_some, htarget]
        rfl
      · refine hadded.below (locate?_ne_nil htarget) ?_ ?_ ?_ ?_ ?_
        · intro w hw
          rw [Json.partAt?, hitem] at hw
          exact (Option.some.inj hw).symm
        · intro other p
          rw [Json.partAt?, hitem]
          rfl
        · intro p
          rw [Json.partAt?, List.getElem?_set_self hlt, Option.bind_some]
        · intro first p hfirst
          cases first with
          | member name => rfl
          | place j =>
              rw [Json.partAt?, Json.partAt?, List.getElem?_set_ne]
              rintro rfl
              exact hfirst rfl
        · exact .list (by simp) (by simp)

/-- **An addition stores its value and changes nothing else.**  If a single addition is applied,
    the value is found where the pointer leads in the outcome, a dash behind all others leading to
    the last item of a list.  What stood elsewhere stands there still, or one position further on
    in a list that the value was put into; what is above it has at least what it had; and what is
    new is on the way to the value or within it. -/
theorem applyOperations_add {op : Operation} (hkind : op.kind = .add) {doc out : Json}
    (h : applyOperations [op] doc = .ok out) :
    ∃ tokens value target, Pointer.parse? op.path = some tokens ∧ op.value = some value ∧
      out.locate? tokens = some target ∧ Json.AddedAt value target doc out := by
  rw [applyOperations_single, applyOperation_ok_iff] at h
  obtain ⟨hcheck, -, h⟩ := h
  have hneeds : op.kind.needsValue = true := by
    rw [hkind]
    rfl
  obtain ⟨value, hvalue⟩ := value_of_check hneeds hcheck
  obtain ⟨tokens, htokens, hadds⟩ := (evaluate_add_iff hkind hvalue).mp h
  obtain ⟨target, htarget, hadded⟩ := hadds.addedAt
  exact ⟨tokens, value, target, htokens, hvalue, htarget, hadded⟩

/-- Items of which the first one has no notes yet. -/
def bareItems : Json := .obj [("items", .arr [.obj [("size", .int 1)], .obj []])]

/-- These items with a note. -/
def notedItems : Json :=
  .obj [("items", .arr [.obj [("a/b", .arr [.str "new"]), ("size", .int 1)], .obj []])]

/-- The addition of the note. -/
def noteAddition : Operation := ⟨.add, "/items/0/a~1b/-", none, some (.str "new")⟩

theorem applyOperations_noteAddition :
    applyOperations [noteAddition] bareItems = .ok notedItems := by
  have hparse : Pointer.parse? noteAddition.path = some ["items", "0", "a/b", "-"] := by
    decide +kernel
  have hlist : freshFor "-" = .arr [] := if_pos (Or.inl rfl)
  have hnote : Adds (.str "new") ["-"] (freshFor "-") (.arr [.str "new"]) := by
    rw [hlist]
    exact .item (i := 0) rfl
  have hitem : Adds (.str "new") ["a/b", "-"] (.obj [("size", .int 1)])
      (.obj [("a/b", .arr [.str "new"]), ("size", .int 1)]) :=
    .inMember hnote
  have hadds : Adds (.str "new") ["items", "0", "a/b", "-"] bareItems notedItems :=
    .inMember (.inItem (i := 0) (by decide +kernel) rfl hitem)
  rw [applyOperations_single, applyOperation_ok_iff]
  refine ⟨rfl, ?_, (evaluate_add_iff rfl rfl).mpr ⟨_, hparse, hadds⟩⟩
  refine List.forall_mem_singleton.mpr ⟨_, split?_of_parse? hparse, ?_⟩
  decide +kernel

/-- A list is created for the note, and nothing else changes. -/
theorem applyOperations_add_note :
    applyOperations [noteAddition] bareItems = .ok notedItems ∧
      Json.AddedAt (.str "new") [.member "items", .place 0, .member "a/b", .place 0] bareItems
        notedItems := by
  refine ⟨applyOperations_noteAddition, ?_⟩
  obtain ⟨tokens, value, target, htokens, hvalue, htarget, hadded⟩ :=
    applyOperations_add rfl applyOperations_noteAddition
  have hparse : Pointer.parse? noteAddition.path = some ["items", "0", "a/b", "-"] := by
    decide +kernel
  cases hparse.symm.trans htokens
  cases hvalue
  have hplace : notedItems.locate? ["items", "0", "a/b", "-"] =
      some [.member "items", .place 0, .member "a/b", .place 0] := by
    decide +kernel
  cases hplace.symm.trans htarget
  exact hadded

end Patch

end ModelOperator

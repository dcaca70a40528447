import ModelOperator.Proofs.Json.Outline

/-!
# What an addition leaves alone

    A value that is added at a place of a document becomes a member of an object, whatever the
    member was before, or an item of a list, whose items from there on move by one
    (`Json.moved`).  `Json.AddedAt` says that nothing else happens: what stands elsewhere stays,
    the objects and lists on the way keep what they have, and what is new is on the way to the
    place or below it.

    It is so of one step (`AddedAt.member`, `AddedAt.item`), and of an addition to a part of a
    document if it is so in the part (`AddedAt.below`). -/

namespace ModelOperator

/-- Where a step leads after an item was put into a list at another step. -/
def PathStep.shifted : PathStep → PathStep → PathStep
  | .place i, .place j => .place (if i ≤ j then j + 1 else j)
  | _, step => step

namespace Json

/-- Where what stands at a place is found after an addition at a target. -/
def moved : List PathStep → List PathStep → List PathStep
  | [step], first :: p => step.shifted first :: p
  | step :: next :: target, first :: p =>
    if step = first then first :: moved (next :: target) p else first :: p
  | _, p => p

/-- A place is strictly above another one. -/
def Above (p target : List PathStep) : Prop := p <+: target ∧ p ≠ target

/-- What is added becomes an item of a list. -/
def EndsInList (target : List PathStep) : Prop := ∃ i, target.getLast? = some (.place i)

/-- An object or a list has what another one has, and in the case of a list one item more at
    most. -/
inductive Grown : Json → Json → Prop
  | object {ms grown : Members}
      (h : ∀ name, Members.has name ms = true → Members.has name grown = true) :
      Grown (.obj ms) (.obj grown)
  | list {items grown : List Json} (hle : items.length ≤ grown.length)
      (hlt : grown.length ≤ items.length + 1) : Grown (.arr items) (.arr grown)

/-- A document after a value was added at a target. -/
structure AddedAt (value : Json) (target : List PathStep) (doc out : Json) : Prop where
  /-- The value stands at the target. -/
  there : out.partAt? target = some value
  /-- What is not above the target stands where it moved to, as does nothing; but what was at or
      below a member that is set is gone. -/
  kept : ∀ p, ¬ Above p target → (target <+: p → EndsInList target) →
    out.partAt? (moved target p) = doc.partAt? p
  /-- What is above the target keeps what it has. -/
  above : ∀ p w, Above p target → doc.partAt? p = some w →
    ∃ x, out.partAt? p = some x ∧ Grown w x
  /-- What is new is on the way to the target, or below it. -/
  new : ∀ q, (out.partAt? q).isSome = true →
    q <+: target ∨ target <+: q ∨ ∃ p, moved target p = q ∧ (doc.partAt? p).isSome = true

variable {value doc out : Json} {target : List PathStep}

/-! ## Places that move -/

theorem moved_nil (target : List PathStep) : moved target [] = [] := by
  rcases target with _ | ⟨step, _ | ⟨next, target⟩⟩
  · rfl
  · rfl
  · rfl

theorem moved_cons_self (hne : target ≠ []) (step : PathStep) (p : List PathStep) :
    moved (step :: target) (step :: p) = step :: moved target p := by
  obtain ⟨next, rest, rfl⟩ := List.exists_cons_of_ne_nil hne
  rw [moved, if_pos rfl]

theorem moved_cons_other (hne : target ≠ []) {step first : PathStep} (h : step ≠ first)
    (p : List PathStep) : moved (step :: target) (first :: p) = first :: p := by
  obtain ⟨next, rest, rfl⟩ := List.exists_cons_of_ne_nil hne
  rw [moved, if_neg h]

theorem above_nil (step : PathStep) (target : List PathStep) : Above [] (step :: target) :=
  ⟨List.nil_prefix, nofun⟩

theorem above_cons (step : PathStep) (p : List PathStep) :
    Above (step :: p) (step :: target) ↔ Above p target := by
  rw [Above, Above, List.prefix_cons_inj, ne_eq, ne_eq, List.cons.injEq]
  simp

/-- Only a whole document is above its parts. -/
theorem above_singleton {p : List PathStep} {step : PathStep} : Above p [step] ↔ p = [] := by
  constructor
  · rintro ⟨hle, hne⟩
    rcases List.prefix_cons_iff.mp hle with rfl | ⟨rest, rfl, hrest⟩
    · rfl
    · rw [List.prefix_nil.mp hrest] at hne
      exact absurd rfl hne
  · rintro rfl
    exact above_nil step []

theorem endsInList_cons (hne : target ≠ []) (step : PathStep) :
    EndsInList (step :: target) ↔ EndsInList target := by
  obtain ⟨first, rest, rfl⟩ := List.exists_cons_of_ne_nil hne
  rw [EndsInList, EndsInList, List.getLast?_cons_cons]

theorem prefix_of_singleton (step : PathStep) (p : List PathStep) : [step] <+: step :: p :=
  List.cons_prefix_cons.mpr ⟨rfl, List.nil_prefix⟩

/-! ## Additions -/

/-- A whole document is replaced. -/
theorem AddedAt.whole (value doc : Json) : AddedAt value [] doc value where
  there := rfl
  kept := by
    intro p _ hends
    obtain ⟨i, hlast⟩ := hends List.nil_prefix
    cases hlast
  above := by
    rintro p w ⟨hle, hne⟩ -
    exact absurd (List.prefix_nil.mp hle) hne
  new := by
    intro q _
    exact Or.inr (Or.inl List.nil_prefix)

/-- What stands under other names when a member is set. -/
theorem partAt?_insert_of_ne {name : String} {first : PathStep} (h : first ≠ .member name)
    (value : Json) (ms : Members) (p : List PathStep) :
    partAt? (first :: p) (.obj (Members.insert name value ms)) =
      partAt? (first :: p) (.obj ms) := by
  cases first with
  | place j => rfl
  | member other =>
      rw [partAt?, partAt?, Members.get?_insert, if_neg]
      rintro rfl
      exact h rfl

theorem has_insert {other : String} {ms : Members} (h : Members.has other ms = true)
    (name : String) (value : Json) : Members.has other (Members.insert name value ms) = true := by
  rw [Members.has, Members.get?_insert]
  split
  · rfl
  · exact h

/-- A member is set. -/
theorem AddedAt.member (value : Json) (name : String) (ms : Members) :
    AddedAt value [.member name] (.obj ms) (.obj (Members.insert name value ms)) where
  there := by
    rw [partAt?, Members.get?_insert, if_pos rfl]
    rfl
  kept := by
    intro p habove hends
    cases p with
    | nil => exact absurd (above_nil _ _) habove
    | cons first p =>
        have hne : first ≠ .member name := by
          rintro rfl
          obtain ⟨i, hlast⟩ := hends (prefix_of_singleton _ _)
          cases hlast
        show partAt? (first :: p) _ = _
        exact partAt?_insert_of_ne hne value ms p
  above := by
    intro p w habove hw
    rw [above_singleton.mp habove] at hw ⊢
    cases hw
    exact ⟨_, rfl, .object fun other hhas => has_insert hhas name value⟩
  new := by
    intro q hq
    cases q with
    | nil => exact Or.inl List.nil_prefix
    | cons first q =>
        by_cases hfirst : first = .member name
        · rw [hfirst]
          exact Or.inr (Or.inl (prefix_of_singleton _ _))
        · rw [partAt?_insert_of_ne hfirst] at hq
          exact Or.inr (Or.inr ⟨first :: q, rfl, hq⟩)

/-- An item is put into a list. -/
theorem AddedAt.item (value : Json) {i : Nat} {items : List Json} (hi : i ≤ items.length) :
    AddedAt value [.place i] (.arr items) (.arr (items.insertIdx i value)) where
  there := by
    rw [partAt?, List.getElem?_insertIdx_self, if_pos hi]
    rfl
  kept := by
    intro p habove _
    cases p with
    | nil => exact absurd (above_nil _ _) habove
    | cons first p =>
        cases first with
        | member name => rfl
        | place j =>
            show partAt? (.place (if i ≤ j then j + 1 else j) :: p) _ = _
            rw [partAt?, partAt?]
            by_cases hij : i ≤ j
            · rw [if_pos hij, List.getElem?_insertIdx_of_gt (Nat.lt_succ_of_le hij)]
              rfl
            · rw [if_neg hij, List.getElem?_insertIdx_of_lt (Nat.lt_of_not_le hij)]
  above := by
    intro p w habove hw
    rw [above_singleton.mp habove] at hw ⊢
    cases hw
    have hlength := List.length_insertIdx_of_le_length hi value
    exact ⟨_, rfl, .list (by omega) (by omega)⟩
  new := by
    intro q hq
    cases q with
    | nil => exact Or.inl List.nil_prefix
    | cons first q =>
        cases first with
        | member name => cases hq
        | place j =>
            rw [partAt?] at hq
            rcases Nat.lt_trichotomy j i with hlt | rfl | hgt
            · rw [List.getElem?_insertIdx_of_lt hlt] at hq
              refine Or.inr (Or.inr ⟨.place j :: q, ?_, hq⟩)
              rw [moved, PathStep.shifted, if_neg (Nat.not_le_of_lt hlt)]
            · exact Or.inr (Or.inl (prefix_of_singleton _ _))
            · rw [List.getElem?_insertIdx_of_gt hgt] at hq
              have hle : i ≤ j - 1 := by omega
              have hback : j - 1 + 1 = j := by omega
              refine Or.inr (Or.inr ⟨.place (j - 1) :: q, ?_, hq⟩)
              rw [moved, PathStep.shifted, if_pos hle, hback]

/-- **An addition to a part of a document.**  The part may have been made for it, if there was
    none. -/
theorem AddedAt.below {step : PathStep} {part new : Json} (h : AddedAt value target part new)
    (hne : target ≠ []) (hhere : ∀ w, doc.partAt? [step] = some w → w = part)
    (hparts : ∀ next p, doc.partAt? (step :: next :: p) = part.partAt? (next :: p))
    (hnew : ∀ p, out.partAt? (step :: p) = new.partAt? p)
    (hother : ∀ first p, first ≠ step → out.partAt? (first :: p) = doc.partAt? (first :: p))
    (hgrown : Grown doc out) : AddedAt value (step :: target) doc out where
  there := (hnew target).trans h.there
  kept := by
    intro p habove hends
    rcases p with _ | ⟨first, p⟩
    · exact absurd (above_nil step target) habove
    · by_cases hfirst : first = step
      · subst hfirst
        rw [above_cons] at habove
        rw [List.prefix_cons_inj, endsInList_cons hne] at hends
        rw [moved_cons_self hne, hnew, h.kept p habove hends]
        cases p with
        | nil =>
            obtain ⟨next, rest, rfl⟩ := List.exists_cons_of_ne_nil hne
            exact absurd (above_nil next rest) habove
        | cons next p => exact (hparts next p).symm
      · rw [moved_cons_other hne (Ne.symm hfirst)]
        exact hother first p hfirst
  above := by
    intro p w habove hw
    rcases p with _ | ⟨first, p⟩
    · cases hw
      exact ⟨out, rfl, hgrown⟩
    · obtain ⟨rfl, -⟩ := List.cons_prefix_cons.mp habove.1
      rw [above_cons] at habove
      rw [hnew]
      cases p with
      | nil => exact h.above [] w habove (congrArg some (hhere w hw).symm)
      | cons next p => exact h.above _ w habove ((hparts next p).symm.trans hw)
  new := by
    intro q hq
    rcases q with _ | ⟨first, q⟩
    · exact Or.inl List.nil_prefix
    · by_cases hfirst : first = step
      · subst hfirst
        rw [hnew] at hq
        rw [List.prefix_cons_inj, List.prefix_cons_inj]
        rcases h.new q hq with habove | hbelow | ⟨p, rfl, hp⟩
        · exact Or.inl habove
        · exact Or.inr (Or.inl hbelow)
        · cases p with
          | nil =>
              rw [moved_nil]
              exact Or.inl List.nil_prefix
          | cons next p =>
              refine Or.inr (Or.inr ⟨first :: next :: p, moved_cons_self hne first _, ?_⟩)
              rw [hparts]
              exact hp
      · rw [hother first q hfirst] at hq
        exact Or.inr (Or.inr ⟨first :: q, moved_cons_other hne (Ne.symm hfirst) q, hq⟩)

end Json

end ModelOperator

import ModelOperator.Proofs.Json.Record

/-!
# Records that are written and read back

    A record is written as an object of the members that are present.  Its reader then gets a
    record that carries just these members (`Record.Carries`), and each member is read back on
    its own:

    * one that is always written (`Carries.required`, `Carries.defaulted`);
    * one that is left out where it has its default (`Carries.defaulted_unless`);
    * one that is left out, or null, where there is none (`Carries.nullable`,
      `Carries.nullable_orNull`).

    A kind of value whose wire form is stable (`Reader.Stable`) is read back after it was read
    once.  Members of such a kind pass that on to their record. -/

namespace ModelOperator

/-- What a document gives for a member of a record, under its name or in its place. -/
def Json.member? (place : Nat) (name : String) : Json → Option Json
  | .obj members => Members.get? name members
  | .arr items => items[place]?
  | _ => none

namespace Record

variable {α β : Type} {r : Record} {place : Nat} {key : String} {read : Reader α} {a dflt : α}

/-- A record finds what its document gives. -/
theorem find?_of {name key : String} {size place : Nat} {v : Json} {r : Record}
    {x : Option Json} (hr : of name size v = .ok r) (hx : r.find? place key = .ok x) :
    x = v.member? place key := by
  cases v with
  | obj members =>
      cases hr
      rw [Json.member?, Members.get?_eq_head?]
      simp only [find?] at hx
      split at hx
      · next hnone =>
        cases hx
        rw [hnone]
        rfl
      · next hone =>
        cases hx
        rw [hone]
        rfl
      · cases hx
  | arr items =>
      simp only [of] at hr
      split at hr
      · cases hr
        exact (Except.ok.inj hx).symm
      · cases hr
  | _ => cases hr

/-- A member that may be null is not read as null. -/
theorem isNull_of_nullable {x : Option Json} {v : Json}
    (h : r.nullable place key Reader.any = .ok x) (hx : x = some v) : v.isNull = false := by
  subst hx
  rcases defaulted_ok h with h | ⟨w, h⟩
  · cases h
  · cases w with
    | null => cases h
    | _ =>
        cases h
        rfl

/-! ## What a written record carries -/

/-- The record has these members under their names, and no others. -/
structure Carries (r : Record) (entries : List (String × Option Json)) : Prop where
  byName : ∃ members, r.body = .named members
  find? : ∀ place key, r.find? place key = .ok (entries.lookup key).join

/-- **Reading what is written.**  What follows needs to know only what the record carries. -/
theorem read_ofPresent {name : String} {size : Nat} {entries : List (String × Option Json)}
    {f : Record → Reading β} {y : Reading β} (hnodup : (entries.map Prod.fst).Nodup)
    (h : ∀ r : Record, r.Carries entries → f r = y) :
    (of name size (.ofPresent entries) >>= f) = y := by
  refine Reading.bind_eq (of_obj name size _) (h _ ⟨⟨_, rfl⟩, fun place key => ?_⟩)
  rw [find?_named (Members.increasing_ofList _), Members.get?_ofPresent hnodup]

theorem read_ofMembers {name : String} {size : Nat} {entries : List (String × Json)}
    {f : Record → Reading β} {y : Reading β} (hnodup : (entries.map Prod.fst).Nodup)
    (h : ∀ r : Record, r.Carries (entries.map fun entry => (entry.1, some entry.2)) → f r = y) :
    (of name size (.ofMembers entries) >>= f) = y := by
  have hpresent : present (entries.map fun entry => (entry.1, some entry.2)) = entries := by
    rw [present, List.filterMap_map]
    exact List.filterMap_some
  rw [← hpresent]
  refine read_ofPresent ?_ h
  rw [List.map_map]
  exact hnodup

namespace Carries

variable {entries : List (String × Option Json)} (hr : r.Carries entries)

include hr

/-- A member that must be given is read back. -/
theorem required {v : Json} (hv : (entries.lookup key).join = some v) (h : read v = .ok a) :
    r.required place key read = .ok a := by
  rw [Record.required, hr.find?, hv]
  exact h

/-- A member that must be given and was not written is missing. -/
theorem required_absent (hv : (entries.lookup key).join = none) :
    r.required place key read = .error (.missing key) := by
  obtain ⟨members, hbody⟩ := hr.byName
  rw [Record.required, hr.find?, hv]
  show r.lacks place key = _
  rw [lacks, hbody]

theorem defaulted_eq {x : Option Json} (hx : (entries.lookup key).join = x) :
    r.defaulted place key read dflt = x.elim (.ok dflt) read := by
  rw [Record.defaulted, hr.find?, hx]
  cases x <;> rfl

/-- A member with a default that is always written is read back. -/
theorem defaulted {v : Json} (hv : (entries.lookup key).join = some v) (h : read v = .ok a) :
    r.defaulted place key read dflt = .ok a :=
  (hr.defaulted_eq hv).trans h

/-- A member that is left out where it has its default is read back. -/
theorem defaulted_unless {p : Prop} [Decidable p] {v : Json}
    (hv : (entries.lookup key).join = if p then none else some v) (hp : p → dflt = a)
    (h : read v = .ok a) : r.defaulted place key read dflt = .ok a := by
  rw [hr.defaulted_eq hv]
  by_cases hdefault : p
  · rw [if_pos hdefault, hp hdefault]
    rfl
  · rw [if_neg hdefault]
    exact h

/-- A list that is left out where it is empty is read back. -/
theorem list_unlessEmpty {as : List α} {w : α → Json}
    (hv : (entries.lookup key).join = if as.isEmpty then none else some (.arr (as.map w)))
    (h : ∀ a ∈ as, read (w a) = .ok a) :
    r.defaulted place key (Reader.list read) [] = .ok as :=
  hr.defaulted_unless hv (fun hempty => (List.isEmpty_iff.mp hempty).symm) (Reader.each_map h)

/-- A member that is left out where there is none is read back, if it is not written as null
    where there is one. -/
theorem nullable {x : Option α} {w : α → Json} (hx : (entries.lookup key).join = x.map w)
    (hnull : ∀ a, x = some a → (w a).isNull = false) (h : ∀ a, x = some a → read (w a) = .ok a) :
    r.nullable place key read = .ok x := by
  refine (hr.defaulted_eq hx).trans ?_
  cases x with
  | none => rfl
  | some a => exact orNull_eq (hnull a rfl) (h a rfl)

theorem nullable_text {x : Option String} (hx : (entries.lookup key).join = x.map .str) :
    r.nullable place key Reader.text = .ok x :=
  hr.nullable hx (fun _ _ => rfl) fun _ _ => rfl

/-- A member that is null where there is none is read back. -/
theorem nullable_orNull {x : Option α} {w : α → Json}
    (hx : (entries.lookup key).join = some (.orNull (x.map w)))
    (hnull : ∀ a, x = some a → (w a).isNull = false) (h : ∀ a, x = some a → read (w a) = .ok a) :
    r.nullable place key read = .ok x := by
  refine (hr.defaulted_eq hx).trans ?_
  cases x with
  | none => rfl
  | some a => exact orNull_eq (hnull a rfl) (h a rfl)

/-- A member of any value that was read without being null is read back. -/
theorem nullable_any {old : Record} {x : Option Json}
    (hold : old.nullable place key Reader.any = .ok x) (hx : (entries.lookup key).join = x) :
    r.nullable place key Reader.any = .ok x :=
  hr.nullable (w := id) (hx.trans (congrFun Option.map_id x).symm) (fun _ => isNull_of_nullable hold)
    fun _ _ => rfl

/-- In an object a member may be missing wherever it may be null. -/
theorem positional_eq : r.positional place key read = r.nullable place key read := by
  obtain ⟨members, hbody⟩ := hr.byName
  rw [Record.positional, hbody]

end Carries

end Record

/-! ## Stable wire forms -/

namespace Reader

open Record

variable {α : Type} {read : Reader α} {w : α → Json}

/-- **A stable wire form.**  What was read is read again once it is written. -/
def Stable (read : Reader α) (write : α → Json) : Prop :=
  ∀ v a, read v = .ok a → read (write a) = .ok a

theorem stable_int64 : Stable int64 .int := fun _ _ h => within_int (within_ok h).2

namespace Stable

variable (h : Stable read w) {entries : List (String × Option Json)} {old r : Record}
  (hr : r.Carries entries) {place : Nat} {key : String}

include h hr

theorem required {a : α} (hold : old.required place key read = .ok a)
    (hv : (entries.lookup key).join = some (w a)) : r.required place key read = .ok a := by
  obtain ⟨v, hread⟩ := required_ok hold
  exact hr.required hv (h v a hread)

theorem defaulted {a dflt : α} (hdefault : read (w dflt) = .ok dflt)
    (hold : old.defaulted place key read dflt = .ok a)
    (hv : (entries.lookup key).join = some (w a)) : r.defaulted place key read dflt = .ok a := by
  refine hr.defaulted hv ?_
  rcases defaulted_ok hold with rfl | ⟨v, hread⟩
  · exact hdefault
  · exact h v a hread

variable (hnull : ∀ a, (w a).isNull = false)

include hnull

theorem nullable {x : Option α} (hold : old.nullable place key read = .ok x)
    (hx : (entries.lookup key).join = x.map w) : r.nullable place key read = .ok x := by
  refine hr.nullable hx (fun a _ => hnull a) fun a ha => ?_
  obtain ⟨v, hread⟩ := nullable_ok hold ha
  exact h v a hread

theorem positional {x : Option α} (hold : old.positional place key read = .ok x)
    (hx : (entries.lookup key).join = x.map w) : r.positional place key read = .ok x := by
  rw [hr.positional_eq]
  refine hr.nullable hx (fun a _ => hnull a) fun a ha => ?_
  obtain ⟨v, hread⟩ := positional_ok hold ha
  exact h v a hread

end Stable

end Reader

end ModelOperator

import ModelOperator.Proofs.Json.Members

/-!
# The outline of a value

    A place in a value is given by the names of members and the positions of items that lead to
    it.  The outline of a value is what stands at its places up to kind: where there is an
    object, and where there is a list of which length.

    * `Json.Spans` says that one value has everything that another one has, in outline, and
      `Json.spans_mergePatch` that a merged document has all that the patch gives;
    * `Json.Mirrors` says that one value agrees with another in outline wherever both have
      something, which may be less than everything;
    * `Json.memberPaths` lists the places of all members that are not null. -/

namespace ModelOperator

/-- One step into a value. -/
inductive PathStep where
  | member (name : String)
  | place (index : Nat)
  deriving DecidableEq, Repr

/-- A step as it is written in a path. -/
def PathStep.text : PathStep → String
  | .member name => name
  | .place index => toString index

namespace Json

/-- What stands at a place. -/
def partAt? : List PathStep → Json → Option Json
  | [], v => some v
  | .member name :: path, .obj members => (Members.get? name members).bind (partAt? path)
  | .place index :: path, .arr items => items[index]?.bind (partAt? path)
  | _, _ => none

/-- Whether anything stands at a place. -/
def hasPart (path : List PathStep) (v : Json) : Bool := (v.partAt? path).isSome

mutual
/-- The places of the members that are not null, in document order. -/
def memberPaths : Json → List (List PathStep)
  | .obj members => pathsOfMembers members
  | .arr items => pathsOfItems 0 items
  | _ => []

/-- The members that are not null, each before what is in it. -/
def pathsOfMembers : Members → List (List PathStep)
  | [] => []
  | (name, v) :: rest =>
    if v.isNull then pathsOfMembers rest
    else [.member name] :: (memberPaths v).map (.member name :: ·) ++ pathsOfMembers rest

/-- The members in the items of a list, from a position on. -/
def pathsOfItems : Nat → List Json → List (List PathStep)
  | _, [] => []
  | index, v :: rest =>
    (memberPaths v).map (.place index :: ·) ++ pathsOfItems (index + 1) rest
end

theorem partAt?_member (name : String) (members : Members) :
    partAt? [.member name] (.obj members) = Members.get? name members := by
  rw [partAt?, show partAt? [] = some from funext fun _ => rfl, Option.bind_fun_some]

theorem partAt?_place (index : Nat) (items : List Json) :
    partAt? [.place index] (.arr items) = items[index]? := by
  rw [partAt?, show partAt? [] = some from funext fun _ => rfl, Option.bind_fun_some]

/-- A path is followed step by step. -/
theorem partAt?_cons_eq (step : PathStep) (path : List PathStep) (v : Json) :
    v.partAt? (step :: path) = (v.partAt? [step]).bind (partAt? path) := by
  cases step with
  | member name =>
      cases v with
      | obj members => rw [partAt?_member, partAt?]
      | _ => rfl
  | place index =>
      cases v with
      | arr items => rw [partAt?_place, partAt?]
      | _ => rfl

/-- What stands behind a step is what stands in the part that the step leads to. -/
theorem partAt?_cons {step : PathStep} {v w : Json} (h : v.partAt? [step] = some w)
    (path : List PathStep) : v.partAt? (step :: path) = w.partAt? path := by
  rw [partAt?_cons_eq, h, Option.bind_some]

/-- Nothing stands in a value without parts. -/
theorem partAt?_leaf {v : Json} (hobject : v.isObject = false) (hlist : v.asItems? = none)
    (step : PathStep) (path : List PathStep) : partAt? (step :: path) v = none := by
  cases v with
  | obj => cases hobject
  | arr => cases hlist
  | _ => cases step <;> rfl

/-! ## Values of one outline -/

/-- The values are objects or lists of one length together; other values are as any. -/
def SameKind : Json → Json → Prop
  | .obj _, w => w.isObject = true
  | .arr items, w => ∃ others, w = .arr others ∧ others.length = items.length
  | _, _ => True

/-- At every place where the first value has something that is not null, so does the second
    one, and it is of the same kind. -/
def Spans (v w : Json) : Prop :=
  ∀ path u, v.partAt? path = some u → u.isNull = false → ∃ x, w.partAt? path = some x ∧ SameKind u x

/-- At every place where both values have something, it is of the same kind. -/
def Mirrors (v w : Json) : Prop :=
  ∀ path u x, v.partAt? path = some u → w.partAt? path = some x → SameKind u x

theorem sameKind_refl (v : Json) : SameKind v v := by
  cases v with
  | obj => rfl
  | arr items => exact ⟨items, rfl, rfl⟩
  | _ => exact trivial

/-- A value without parts is of the same kind as any. -/
theorem sameKind_of_leaf {v : Json} (hobject : v.isObject = false) (hlist : v.asItems? = none)
    (w : Json) : SameKind v w := by
  cases v with
  | obj => cases hobject
  | arr => cases hlist
  | _ => exact trivial

theorem SameKind.trans {u v w : Json} (huv : SameKind u v) (hvw : SameKind v w) :
    SameKind u w := by
  cases u with
  | obj =>
      cases v with
      | obj => exact hvw
      | _ => cases huv
  | arr items =>
      obtain ⟨others, rfl, hlength⟩ := huv
      obtain ⟨last, rfl, hlast⟩ := hvw
      exact ⟨last, rfl, hlast.trans hlength⟩
  | _ => exact trivial

theorem spans_refl (v : Json) : Spans v v := fun _ u hu _ => ⟨u, hu, sameKind_refl u⟩

/-- A value that mirrors another one mirrors every value that the other one spans. -/
theorem Mirrors.of_spans {u v w : Json} (huv : Spans u v) (hvw : Mirrors v w) : Mirrors u w := by
  intro path x z hx hz
  cases hnull : x.isNull with
  | true =>
      cases x with
      | null => exact trivial
      | _ => cases hnull
  | false =>
      obtain ⟨y, hy, hxy⟩ := huv path x hx hnull
      exact hxy.trans (hvw path y z hy hz)

/-- Values that mirror each other do so at every member that both have. -/
theorem Mirrors.member {ms known : Members} (h : Mirrors (.obj ms) (.obj known)) {name : String}
    {v w : Json} (hv : Members.get? name ms = some v) (hw : Members.get? name known = some w) :
    Mirrors v w := by
  intro path u x hu hx
  refine h (.member name :: path) u x ?_ ?_
  · rw [partAt?, hv]
    exact hu
  · rw [partAt?, hw]
    exact hx

/-- Lists that mirror each other do so at every item that both have. -/
theorem Mirrors.item {items known : List Json} (h : Mirrors (.arr items) (.arr known))
    {index : Nat} {v w : Json} (hv : items[index]? = some v) (hw : known[index]? = some w) :
    Mirrors v w := by
  intro path u x hu hx
  refine h (.place index :: path) u x ?_ ?_
  · rw [partAt?, hv]
    exact hu
  · rw [partAt?, hw]
    exact hx

/-- Where anything but a null is found, there was none on the way. -/
theorem isNull_of_partAt? {v u : Json} {path : List PathStep} (h : v.partAt? path = some u)
    (hu : u.isNull = false) : v.isNull = false := by
  cases v with
  | null =>
      cases path with
      | nil =>
          cases h
          exact hu
      | cons step path =>
          rw [partAt?_leaf rfl rfl] at h
          cases h
  | _ => rfl

/-- A merged document has the outline of the patch. -/
theorem spans_mergePatch {patch : Json} (hcanonical : patch.isCanonical = true) (target : Json) :
    Spans patch (patch.mergePatch target) := by
  intro path u hu hnull
  induction path generalizing patch target with
  | nil =>
      cases hu
      refine ⟨_, rfl, ?_⟩
      cases u with
      | obj ms =>
          obtain ⟨members, hmerged⟩ := mergePatch_obj ms target
          rw [hmerged]
          rfl
      | _ =>
          rw [mergePatch_of_not_obj rfl]
          exact sameKind_refl _
  | cons step path ih =>
      cases patch with
      | obj ms =>
          cases step with
          | place index => cases hu
          | member name =>
              obtain ⟨v, hv, hin⟩ := Option.bind_eq_some_iff.mp hu
              obtain ⟨members, hmerged⟩ := mergePatch_obj ms target
              obtain ⟨old, hold⟩ := get?_mergeMembers_given
                (increasing_of_isCanonical hcanonical) hv (isNull_of_partAt? hin hnull) members
              obtain ⟨y, hy, hkind⟩ := ih (isCanonical_of_get? hcanonical hv) old hin
              refine ⟨y, ?_, hkind⟩
              rw [hmerged, partAt?, hold]
              exact hy
      | _ =>
          -- anything but an object is taken over as it is
          rw [mergePatch_of_not_obj rfl]
          exact spans_refl _ _ u hu hnull

end Json

end ModelOperator

import Mathlib.Data.List.Basic
import ModelOperator.Proofs.Cluster.Amounts
import ModelOperator.Proofs.Json.Outline

/-!
# Where amounts stand

    The rewriting of amounts descends into what it rewrites: a member named `resources` opens a
    place of its own wherever it stands, also among amounts.  Whether a member is an amount is
    told by the last three steps of its path alone (`Quantity.IsAmount`, `placeAt_eq_amounts_iff`),
    and the rewriting changes what stands at such paths if it is a number, and nothing else
    (`Quantity.toTexts_confined`).

    What stands at a path is compared without what is in it (`Json.shell`): the kinds, the names
    of members, the lengths of lists and all values without parts. -/

namespace ModelOperator

namespace Json

/-- A value without what is in it: an object with its names only, and a list with its length
    only. -/
def shell : Json → Json
  | .obj ms => .obj (ms.map fun m => (m.1, .null))
  | .arr items => .arr (items.map fun _ => .null)
  | v => v

/-- Whether a value is a number. -/
def isNumber : Json → Bool
  | .int _ | .float _ => true
  | _ => false

/-- A number as the text that it is written as, and any other value as it is. -/
def numberAsText (v : Json) : Json := if v.isNumber then .str v.compact else v

theorem numberText?_eq (v : Json) :
    v.numberText? = if v.isNumber then some v.compact else none := by
  cases v with
  | int n =>
      show some (String.ofList (intDigits n)) = some (String.ofList (intDigits n ++ []))
      rw [List.append_nil]
  | float x =>
      show some (String.ofList x.text) = some (String.ofList (x.text ++ []))
      rw [List.append_nil]
  | _ => rfl

theorem isNumber_numberAsText (v : Json) : v.numberAsText.isNumber = false := by
  rw [numberAsText]
  cases hnumber : v.isNumber with
  | true => rfl
  | false => exact hnumber

/-- Nothing but the names and the length is lost, so a number is told by its shell. -/
theorem isNumber_shell (v : Json) : v.shell.isNumber = v.isNumber := by
  cases v <;> rfl

end Json

namespace Quantity

open Json (shell)

/-! ## Places along a path -/

/-- The place behind a step. -/
def Place.step (place : Place) : PathStep → Place
  | .member name => place.member name
  | .place _ => .elsewhere

/-- The place that a path leads to. -/
def placeAt (place : Place) (path : List PathStep) : Place := path.foldl Place.step place

/-- An amount: a member of the limits or requests of resources. -/
def IsAmount (path : List PathStep) : Prop :=
  ∃ front list name, (list = "limits" ∨ list = "requests") ∧
    path = front ++ [.member "resources", .member list, .member name]

theorem member_eq_resources_iff (place : Place) (name : String) :
    place.member name = .resources ↔ name = "resources" := by
  rw [Place.member]
  by_cases hname : name = "resources"
  · simp [hname]
  · rw [if_neg hname]
    split <;> simp [hname]

theorem member_eq_amounts_iff (place : Place) (name : String) :
    place.member name = .amounts ↔ place = .resources ∧ (name = "limits" ∨ name = "requests") := by
  rw [Place.member]
  by_cases hname : name = "resources"
  · simp [hname]
  · rw [if_neg hname]
    split <;> simp_all

theorem placeAt_concat (place : Place) (path : List PathStep) (step : PathStep) :
    placeAt place (path ++ [step]) = (placeAt place path).step step :=
  List.foldl_append

/-- A path leads to resources exactly if that is its last name. -/
theorem placeAt_eq_resources_iff (path : List PathStep) :
    placeAt .elsewhere path = .resources ↔ ∃ front, path = front ++ [.member "resources"] := by
  rcases List.eq_nil_or_concat' path with rfl | ⟨front, step, rfl⟩
  · simp [placeAt]
  · rw [placeAt_concat]
    cases step with
    | member name => simp [Place.step, member_eq_resources_iff]
    | place index => simp [Place.step]

/-- A path leads to a list of amounts exactly if its last two names say so. -/
theorem placeAt_eq_amounts_iff (path : List PathStep) :
    placeAt .elsewhere path = .amounts ↔ ∃ front list, (list = "limits" ∨ list = "requests") ∧
      path = front ++ [.member "resources", .member list] := by
  rcases List.eq_nil_or_concat' path with rfl | ⟨before, step, rfl⟩
  · simp [placeAt]
  · rw [placeAt_concat]
    have hlast : ∀ {front : List PathStep} {list : String},
        before ++ [step] = front ++ [.member "resources", .member list] →
          before = front ++ [.member "resources"] ∧ step = .member list := by
      intro front list heq
      have hsplit : before ++ [step] = (front ++ [.member "resources"]) ++ [.member list] := by
        rw [heq, List.append_assoc]
        rfl
      obtain ⟨hbefore, hstep⟩ := List.append_inj' hsplit rfl
      exact ⟨hbefore, (List.cons.inj hstep).1⟩
    cases step with
    | member name =>
        rw [Place.step, member_eq_amounts_iff, placeAt_eq_resources_iff]
        constructor
        · rintro ⟨⟨front, rfl⟩, hname⟩
          exact ⟨front, name, hname, List.append_assoc ..⟩
        · rintro ⟨front, list, hlist, heq⟩
          obtain ⟨hbefore, hstep⟩ := hlast heq
          cases hstep
          exact ⟨⟨front, hbefore⟩, hlist⟩
    | place index =>
        refine iff_of_false (fun h => by cases h) ?_
        rintro ⟨front, list, -, heq⟩
        cases (hlast heq).2

/-- A path leads to an amount exactly if it ends with a name in a list of amounts. -/
theorem isAmount_iff (path : List PathStep) :
    IsAmount path ↔ ∃ before name, path = before ++ [.member name] ∧
      placeAt .elsewhere before = .amounts := by
  constructor
  · rintro ⟨front, list, name, hlist, rfl⟩
    refine ⟨front ++ [.member "resources", .member list], name, by simp, ?_⟩
    exact (placeAt_eq_amounts_iff _).mpr ⟨front, list, hlist, rfl⟩
  · rintro ⟨before, name, rfl, hplace⟩
    obtain ⟨front, list, hlist, rfl⟩ := (placeAt_eq_amounts_iff before).mp hplace
    exact ⟨front, list, name, hlist, by simp⟩

/-! ## What becomes of a part -/

/-- What becomes of the part behind a step. -/
def stepText (place : Place) : PathStep → Json → Json
  | .member name, v => memberText place name v
  | .place _, v => textsAt .elsewhere v

theorem partAt?_textsAt_step (place : Place) (step : PathStep) (v : Json) :
    (textsAt place v).partAt? [step] = (v.partAt? [step]).map (stepText place step) := by
  by_cases hobject : v.isObject = true
  · cases v with
    | obj ms =>
        rw [textsAt_obj]
        cases step with
        | member name =>
            rw [Json.partAt?_member, Json.partAt?_member, Members.get?_map (memberText place)]
            rfl
        | place index => rfl
    | _ => cases hobject
  · rw [Bool.not_eq_true] at hobject
    by_cases hlist : ∃ vs, v = .arr vs
    · obtain ⟨vs, rfl⟩ := hlist
      rw [textsAt_arr]
      cases step with
      | member name => rfl
      | place index =>
          rw [Json.partAt?_place, Json.partAt?_place, List.getElem?_map]
          rfl
    · -- a value without parts stays as it is
      have hleaf : v.asItems? = none := by
        cases v with
        | arr vs => exact absurd ⟨vs, rfl⟩ hlist
        | _ => rfl
      have hsettled : textsAt place v = v :=
        settled_leaf place hobject fun vs heq => hlist ⟨vs, heq⟩
      rw [hsettled, Json.partAt?_leaf hobject hleaf]
      rfl

/-- Within a part only the place counts: a number has no parts, be it an amount or not. -/
theorem partAt?_stepText (place : Place) (step : PathStep) (v : Json) (next : PathStep)
    (path : List PathStep) :
    (stepText place step v).partAt? (next :: path) =
      (textsAt (place.step step) v).partAt? (next :: path) := by
  cases step with
  | place index => rfl
  | member name =>
      show (memberText place name v).partAt? _ = (textsAt (place.member name) v).partAt? _
      by_cases hnumber : place = .amounts → v.numberText? = none
      · rw [memberText_other hnumber]
      · obtain ⟨rfl, hsome⟩ := Classical.not_imp.mp hnumber
        obtain ⟨digits, hdigits⟩ := Option.ne_none_iff_exists'.mp hsome
        have hleaf : v.isObject = false ∧ v.asItems? = none := by
          cases v <;> first | exact ⟨rfl, rfl⟩ | cases hdigits
        have hsettled : textsAt (Place.amounts.member name) v = v := by
          refine settled_leaf _ hleaf.1 ?_
          rintro vs rfl
          cases hleaf.2
        rw [memberText_number hdigits, hsettled, Json.partAt?_leaf hleaf.1 hleaf.2,
          Json.partAt?_leaf rfl rfl]

/-- **What becomes of a part.**  It depends on the place in which the part is found. -/
theorem partAt?_textsAt (path : List PathStep) (step : PathStep) (place : Place) (v : Json) :
    (textsAt place v).partAt? (path ++ [step]) =
      (v.partAt? (path ++ [step])).map (stepText (placeAt place path) step) := by
  induction path generalizing place v with
  | nil => exact partAt?_textsAt_step place step v
  | cons first rest ih =>
      rw [List.cons_append, Json.partAt?_cons_eq, Json.partAt?_cons_eq first _ v,
        partAt?_textsAt_step]
      cases v.partAt? [first] with
      | none => rfl
      | some w =>
          obtain ⟨next, more, heq⟩ : ∃ next more, rest ++ [step] = next :: more := by
            cases rest with
            | nil => exact ⟨step, [], rfl⟩
            | cons next more => exact ⟨next, more ++ [step], rfl⟩
          show (stepText place first w).partAt? (rest ++ [step]) = _
          rw [heq, partAt?_stepText, ← heq, ih]
          rfl

/-! ## Shells -/

theorem shell_textsAt (place : Place) (v : Json) : (textsAt place v).shell = v.shell := by
  cases v with
  | obj ms =>
      rw [textsAt_obj, shell, shell, List.map_map]
      rfl
  | arr items =>
      rw [textsAt_arr, shell, shell, List.map_map]
      rfl
  | _ => rw [show textsAt place _ = _ from settled_leaf place rfl fun _ => Json.noConfusion]

/-- An amount that is a number becomes its text. -/
theorem shell_memberText_amounts (name : String) (v : Json) :
    (memberText .amounts name v).shell = v.numberAsText.shell := by
  have htext := v.numberText?_eq
  rw [Json.numberAsText]
  cases hnumber : v.isNumber with
  | true =>
      rw [hnumber, if_pos rfl] at htext
      rw [memberText_number htext, if_pos rfl]
  | false =>
      rw [hnumber, if_neg Bool.false_ne_true] at htext
      rw [memberText_other fun _ => htext, if_neg Bool.false_ne_true, shell_textsAt]

/-- **The rewriting is confined.**  What stands at the path of an amount becomes its text if it is
    a number.  At every other path the document keeps what it has, without regard to what is in it:
    names, lengths and all values without parts.  No amount is a number any more, and what was
    rewritten once is not changed again. -/
theorem toTexts_confined (doc : Json) :
    (∀ path, IsAmount path → ((toTexts doc).partAt? path).map shell =
      (doc.partAt? path).map fun v => v.numberAsText.shell) ∧
    (∀ path, ¬ IsAmount path →
      ((toTexts doc).partAt? path).map shell = (doc.partAt? path).map shell) ∧
    (∀ path v, IsAmount path → (toTexts doc).partAt? path = some v → v.isNumber = false) ∧
    toTexts (toTexts doc) = toTexts doc := by
  have hamount : ∀ path, IsAmount path → ((toTexts doc).partAt? path).map shell =
      (doc.partAt? path).map fun v => v.numberAsText.shell := by
    intro path hpath
    obtain ⟨before, name, rfl, hplace⟩ := (isAmount_iff path).mp hpath
    rw [toTexts, partAt?_textsAt, hplace, Option.map_map]
    exact congrArg (Option.map · _) (funext fun v => shell_memberText_amounts name v)
  refine ⟨hamount, ?_, ?_, settled_textsAt doc .elsewhere⟩
  · intro path hpath
    rcases List.eq_nil_or_concat' path with rfl | ⟨before, step, rfl⟩
    · exact congrArg some (shell_textsAt _ doc)
    · rw [toTexts, partAt?_textsAt, Option.map_map]
      refine congrArg (Option.map · _) (funext fun v => ?_)
      cases step with
      | place index => exact shell_textsAt _ v
      | member name =>
          have hplace : placeAt .elsewhere before ≠ .amounts := fun heq =>
            hpath ((isAmount_iff _).mpr ⟨before, name, rfl, heq⟩)
          show (memberText _ name v).shell = _
          rw [memberText_other fun heq => absurd heq hplace, shell_textsAt]
  · intro path v hpath hv
    have hshell := hamount path hpath
    rw [hv] at hshell
    obtain ⟨w, -, hw⟩ := Option.map_eq_some_iff.mp hshell.symm
    rw [← Json.isNumber_shell, ← hw, Json.isNumber_shell, Json.isNumber_numberAsText]

/-- Resources among the limits of resources, with a number beside the inner limits. -/
def nestedResources : Json :=
  .obj [("resources", .obj [("limits", .obj [("gpu", .int 1),
    ("resources", .obj [("limits", .obj [("cpu", .int 2)]), ("replicas", .int 3)])])])]

/-- The amounts of both lists become texts, and the number beside the inner list stays. -/
theorem toTexts_confined_nested :
    let limits := [PathStep.member "resources", .member "limits"]
    let outer := limits ++ [.member "gpu"]
    let inner := limits ++ limits ++ [.member "cpu"]
    let beside := limits ++ [.member "resources", .member "replicas"]
    (IsAmount outer ∧ IsAmount inner ∧ ¬ IsAmount beside) ∧
      ((toTexts nestedResources).partAt? outer).map shell = some (.str "1") ∧
      ((toTexts nestedResources).partAt? inner).map shell = some (.str "2") ∧
      ((toTexts nestedResources).partAt? beside).map shell = some (.int 3) := by
  intro limits outer inner beside
  have houter : IsAmount outer := ⟨[], "limits", "gpu", Or.inl rfl, rfl⟩
  have hinner : IsAmount inner := ⟨limits, "limits", "cpu", Or.inl rfl, rfl⟩
  have hbeside : ¬ IsAmount beside := by
    rw [isAmount_iff]
    rintro ⟨before, name, heq, hplace⟩
    have hsplit : (limits ++ [.member "resources"]) ++ [.member "replicas"] =
        before ++ [.member name] := heq
    obtain ⟨hbefore, -⟩ := List.append_inj' hsplit rfl
    rw [← hbefore] at hplace
    exact absurd hplace (by decide)
  obtain ⟨hamount, hother, -⟩ := toTexts_confined nestedResources
  exact ⟨⟨houter, hinner, hbeside⟩, hamount outer houter, hamount inner hinner,
    hother beside hbeside⟩

end Quantity

end ModelOperator

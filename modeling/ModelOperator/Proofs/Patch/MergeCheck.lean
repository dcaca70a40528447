import Mathlib.Data.List.Forall2
import ModelOperator.Patch.Merge
import ModelOperator.Proofs.Cluster.Parts
import ModelOperator.Proofs.Json.Outline
import ModelOperator.Proofs.Patch.Pipeline

/-!
# What the merge stage checks

    A merged document is read by its target, which drops the members that it does not know.
    The body is then compared with what is left, so that nothing that the body asks for is lost
    silently.

    The comparison walks through both documents side by side and stops where they differ in
    kind.  That it misses nothing takes that they never do: reading and writing a document
    keeps its outline wherever it keeps anything (`Shape.mirrors_normalize`).  So a merge patch
    is applied exactly if every place that it gives is there in the end
    (`Patch.applyMerge_exact`). -/

namespace ModelOperator

open Json (Mirrors Spans SameKind)

/-! ## Reading keeps the outline -/

namespace Shape

theorem forall₂_of_eachItem {read : Reader Json} {vs ws : List Json}
    (h : eachItem read vs = .ok ws) : List.Forall₂ (fun v w => read v = .ok w) vs ws := by
  induction vs generalizing ws with
  | nil =>
      cases h
      exact .nil
  | cons v rest ih =>
      rw [eachItem] at h
      split at h
      · cases h
      · rename_i w hw
        split at h
        · cases h
        · rename_i more hmore
          cases h
          exact .cons hw (ih hmore)

/-- One member of a map: what stands under a name was read from what stood there. -/
theorem read_of_eachValue {read : Reader Json} {ms out : Members}
    (h : eachValue read ms = .ok out) {name : String} {v w : Json}
    (hv : Members.get? name ms = some v) (hw : Members.get? name out = some w) :
    read v = .ok w := by
  have hmember := memberOfMap_of_ok h name
  rw [memberOfMap, hv, hw] at hmember
  obtain ⟨_, hread, heq⟩ := Reading.map_ok hmember
  cases heq
  exact hread

/-- One member of a record: what stands under a name was read from what stood there, unless
    that was a null. -/
theorem read_of_normalizeFields {fields : List (String × Bool × Shape)} {ms out : Members}
    (hdistinct : distinctFields fields = true) (h : normalizeFields fields ms = .ok out)
    {name : String} {v w : Json} (hv : Members.get? name ms = some v)
    (hw : Members.get? name out = some w) :
    v = .null ∨ ∃ s : Shape, s.distinct = true ∧ normalize s v = .ok w := by
  obtain ⟨hnodup, hfields⟩ := nodup_of_distinctFields hdistinct
  obtain ⟨⟨field, required, s⟩, hfield, hname⟩ :=
    List.mem_map.mp (fst_mem_of_normalizeFields h (Members.mem_of_get? hw))
  cases hname
  obtain ⟨hnone, hsome⟩ := get?_normalizeFields hnodup h hfield
  cases hgiven : given s name ms with
  | none =>
      refine Or.inl (by_contra fun hnull => ?_)
      cases hgiven.symm.trans (given_of_get? hv hnull)
  | some u =>
      obtain ⟨x, hx, hget⟩ := hsome u hgiven
      cases hv.symm.trans (get?_of_given hgiven)
      cases hw.symm.trans hget
      exact Or.inr ⟨s, hfields _ hfield, hx⟩

/-- What is written is of the kind of what was read. -/
theorem sameKind_normalize {s : Shape} {v w : Json} (h : normalize s v = .ok w) :
    SameKind v w := by
  cases hplain : s.isPlain with
  | true =>
      rw [normalize_plain hplain h]
      exact Json.sameKind_refl v
  | false =>
      cases s with
      | time | microTime =>
          cases v with
          | obj | arr => cases h
          | _ => exact trivial
      | list item =>
          obtain ⟨vs, ws, rfl, rfl, hws⟩ := normalize_list_ok h
          exact ⟨ws, rfl, (forall₂_of_eachItem hws).length_eq.symm⟩
      | map value =>
          obtain ⟨ms, out, rfl, rfl, -⟩ := normalize_map_ok h
          exact rfl
      | record name fields =>
          obtain ⟨ms, out, rfl, rfl, -⟩ := normalize_record_ok h
          exact rfl
      | _ => cases hplain

/-- **Reading keeps the outline.**  Where a document still has something after it was read and
    written, that is of the kind it was. -/
theorem mirrors_normalize {s : Shape} (hdistinct : s.distinct = true) {v w : Json}
    (h : normalize s v = .ok w) : Mirrors v w := by
  intro path u x hu hx
  induction path generalizing s v w with
  | nil =>
      cases hu
      cases hx
      exact sameKind_normalize h
  | cons step path ih =>
      cases hplain : s.isPlain with
      | true =>
          rw [normalize_plain hplain h] at hx
          cases hu.symm.trans hx
          exact Json.sameKind_refl u
      | false =>
          cases s with
          | time | microTime =>
              obtain ⟨text, rfl⟩ := normalizeTime_ok h
              rw [Json.partAt?_leaf rfl rfl] at hx
              cases hx
          | list item =>
              have hitem : item.distinct = true := hdistinct
              obtain ⟨vs, ws, rfl, rfl, hws⟩ := normalize_list_ok h
              cases step with
              | member name => cases hu
              | place index =>
                  obtain ⟨v, hv, hin⟩ := Option.bind_eq_some_iff.mp hu
                  obtain ⟨w, hw, hout⟩ := Option.bind_eq_some_iff.mp hx
                  obtain ⟨hlt, rfl⟩ := List.getElem?_eq_some_iff.mp hv
                  obtain ⟨hlt', rfl⟩ := List.getElem?_eq_some_iff.mp hw
                  exact ih hitem ((forall₂_of_eachItem hws).get hlt hlt') hin hout
          | map value =>
              have hvalue : value.distinct = true := hdistinct
              obtain ⟨ms, out, rfl, rfl, hvalues⟩ := normalize_map_ok h
              cases step with
              | place index => cases hu
              | member name =>
                  obtain ⟨v, hv, hin⟩ := Option.bind_eq_some_iff.mp hu
                  obtain ⟨w, hw, hout⟩ := Option.bind_eq_some_iff.mp hx
                  exact ih hvalue (read_of_eachValue hvalues hv hw) hin hout
          | record kind fields =>
              obtain ⟨ms, out, rfl, rfl, hfields⟩ := normalize_record_ok h
              cases step with
              | place index => cases hu
              | member name =>
                  obtain ⟨v, hv, hin⟩ := Option.bind_eq_some_iff.mp hu
                  obtain ⟨w, hw, hout⟩ := Option.bind_eq_some_iff.mp hx
                  rcases read_of_normalizeFields hdistinct hfields hv hw with rfl | ⟨s, hs, hread⟩
                  · -- in a null there is only the null itself
                    cases path with
                    | nil =>
                        cases hin
                        exact trivial
                    | cons =>
                        rw [Json.partAt?_leaf rfl rfl] at hin
                        cases hin
                  · exact ih hs hread hin hout
          | _ => cases hplain

end Shape

namespace Quantity

/-- A number has no parts. -/
theorem leaf_of_numberText? {v : Json} {digits : String} (h : v.numberText? = some digits) :
    v.isObject = false ∧ v.asItems? = none := by
  cases v with
  | obj | arr => cases h
  | _ => exact ⟨rfl, rfl⟩

/-- Amounts that become texts leave the outline as it is. -/
theorem spans_textsAt (place : Place) (v : Json) : Spans v (textsAt place v) := by
  intro path u hu hnull
  induction path generalizing place v with
  | nil =>
      cases hu
      refine ⟨_, rfl, ?_⟩
      cases u with
      | obj ms =>
          rw [textsAt_obj]
          rfl
      | arr vs =>
          rw [textsAt_arr]
          exact ⟨_, rfl, List.length_map _⟩
      | _ => exact trivial
  | cons step path ih =>
      cases v with
      | obj ms =>
          cases step with
          | place index => cases hu
          | member name =>
              obtain ⟨v, hv, hin⟩ := Option.bind_eq_some_iff.mp hu
              have hmember : ∃ x, (memberText place name v).partAt? path = some x ∧
                  SameKind u x := by
                by_cases hnumber : place = .amounts → v.numberText? = none
                · rw [memberText_other hnumber]
                  exact ih _ v hin
                · -- an amount is a number, and so is all that is in it
                  obtain ⟨rfl, hsome⟩ := Classical.not_imp.mp hnumber
                  obtain ⟨digits, hdigits⟩ := Option.ne_none_iff_exists'.mp hsome
                  obtain ⟨hobject, hlist⟩ := leaf_of_numberText? hdigits
                  cases path with
                  | nil =>
                      cases hin
                      exact ⟨_, rfl, Json.sameKind_of_leaf hobject hlist _⟩
                  | cons =>
                      rw [Json.partAt?_leaf hobject hlist] at hin
                      cases hin
              obtain ⟨x, hx, hkind⟩ := hmember
              refine ⟨x, ?_, hkind⟩
              rw [textsAt_obj, Json.partAt?, Members.get?_map (memberText place), hv]
              exact hx
      | arr vs =>
          cases step with
          | member name => cases hu
          | place index =>
              obtain ⟨v, hv, hin⟩ := Option.bind_eq_some_iff.mp hu
              obtain ⟨x, hx, hkind⟩ := ih .elsewhere v hin
              refine ⟨x, ?_, hkind⟩
              rw [textsAt_arr, Json.partAt?, List.getElem?_map, hv]
              exact hx
      | _ =>
          rw [Json.partAt?_leaf rfl rfl] at hu
          cases hu

end Quantity

namespace Patch

/-- A document that is refused is refused at the stage that reads it. -/
theorem Target.read_error {t : Target} {stage : Stage} {doc : Json} {e : Error}
    (h : t.read stage doc = .error e) : e.stage = stage ∧ e.errorClass = .decode := by
  rw [read] at h
  split at h
  · cases h
  · cases h
    exact ⟨rfl, rfl⟩

/-- What a typed target reads of a merged document mirrors the patch. -/
theorem Target.mirrors_read {t : Target} (ht : t.isTyped = true) {stage : Stage} {body : Json}
    (hcanonical : body.isCanonical = true) {doc known : Json}
    (h : t.read stage (body.mergePatch doc) = .ok known) : Mirrors body known := by
  have hnormal := read_ok h
  obtain ⟨shape, hshape⟩ := shape?_of_isTyped ht
  rw [if_pos ht, normalize_of_shape? hshape] at hnormal
  have hdistinct := (shape?_regular hshape).1
  refine .of_spans (Json.spans_mergePatch hcanonical doc) ?_
  exact .of_spans (Quantity.spans_textsAt .elsewhere _) (Shape.mirrors_normalize hdistinct hnormal)

/-! ## The comparison -/

/-- A path as it is written in messages. -/
def dotted (path : List PathStep) : String := ".".intercalate (path.map PathStep.text)

/-- The first of the paths that a document lacks. -/
def firstMissing (paths : List (List PathStep)) (known : Json) : Option (List PathStep) :=
  paths.find? fun path => !known.hasPart path

theorem firstMissing_append (paths others : List (List PathStep)) (known : Json) :
    firstMissing (paths ++ others) known =
      (firstMissing paths known).or (firstMissing others known) :=
  List.find?_append

/-- Paths into one part are missing where they are missing in that part. -/
theorem firstMissing_map {step : PathStep} {known w : Json}
    (h : known.partAt? [step] = some w) (paths : List (List PathStep)) :
    firstMissing (paths.map (step :: ·)) known = (firstMissing paths w).map (step :: ·) := by
  have hpart : ∀ path, known.hasPart (step :: path) = w.hasPart path := by
    intro path
    rw [Json.hasPart, Json.partAt?_cons h, Json.hasPart]
  rw [firstMissing, List.find?_map]
  simp only [Function.comp_def, hpart]
  rfl

mutual
/-- **The comparison finds the first place that is missing.** -/
theorem unknownPath?_eq : ∀ (v w : Json), v.isCanonical = true → Mirrors v w →
    unknownPath? v w =
      (firstMissing v.memberPaths w).map (·.map PathStep.text)
  | .obj ms, w, hcanonical, hmirrors => by
      cases w with
      | obj known =>
          rw [unknownPath?, Json.memberPaths]
          exact unknownMember?_eq ms known hcanonical fun m hm w hw => hmirrors.member
            (Members.get?_of_mem (Json.increasing_of_isCanonical hcanonical) hm) hw
      | _ => cases hmirrors [] _ _ rfl rfl
  | .arr vs, w, hcanonical, hmirrors => by
      obtain ⟨ws, rfl, hlength⟩ := hmirrors [] _ _ rfl rfl
      rw [unknownPath?, Json.memberPaths]
      exact unknownItem?_eq vs 0 ws hcanonical hlength.symm fun i v w hv hw => hmirrors.item hv (by simpa using hw)
  | .null, w, _, _ => by rw [unknownPath?]; rfl; all_goals nofun
  | .bool _, w, _, _ => by rw [unknownPath?]; rfl; all_goals nofun
  | .int _, w, _, _ => by rw [unknownPath?]; rfl; all_goals nofun
  | .float _, w, _, _ => by rw [unknownPath?]; rfl; all_goals nofun
  | .str _, w, _, _ => by rw [unknownPath?]; rfl; all_goals nofun

theorem unknownMember?_eq : ∀ (ms known : Members), (Json.obj ms).isCanonical = true →
    (∀ m ∈ ms, ∀ w, Members.get? m.1 known = some w → Mirrors m.2 w) →
    unknownMember? ms known =
      (firstMissing (Json.pathsOfMembers ms) (.obj known)).map (·.map PathStep.text)
  | [], known, _, _ => by rw [unknownMember?, Json.pathsOfMembers]; rfl
  | (name, v) :: rest, known, hcanonical, hmirrors => by
      obtain ⟨hv, hrest, -⟩ := Json.isCanonical_cons hcanonical
      have ih := unknownMember?_eq rest known hrest
        fun m hm => hmirrors m (List.mem_cons_of_mem _ hm)
      rw [unknownMember?, Json.pathsOfMembers]
      cases hnull : v.isNull with
      | true => exact ih
      | false =>
          cases hget : Members.get? name known with
          | none =>
              have hmissing : (Json.obj known).hasPart [.member name] = false := by
                rw [Json.hasPart, Json.partAt?, hget]
                rfl
              simp [firstMissing, hmissing, PathStep.text]
          | some w =>
              have hpart : (Json.obj known).partAt? [.member name] = some w := by
                rw [Json.partAt?, hget]
                rfl
              have hthere : (Json.obj known).hasPart [.member name] = true := by
                rw [Json.hasPart, hpart]
                rfl
              have hin := unknownPath?_eq v w hv (hmirrors _ List.mem_cons_self w hget)
              have hskip : firstMissing ([.member name] ::
                  (v.memberPaths.map (.member name :: ·) ++ Json.pathsOfMembers rest)) (.obj known) =
                    ((firstMissing v.memberPaths w).map (.member name :: ·)).or
                      (firstMissing (Json.pathsOfMembers rest) (.obj known)) := by
                rw [← firstMissing_map hpart, ← firstMissing_append]
                exact List.find?_cons_of_neg (by simp [hthere])
              simp only [Bool.false_eq_true, if_false, List.cons_append, hskip, hin]
              cases firstMissing v.memberPaths w with
              | none => exact ih
              | some path => rfl

theorem unknownItem?_eq : ∀ (vs : List Json) (index : Nat) (ws : List Json),
    Json.areCanonical vs = true → vs.length = (ws.drop index).length →
    (∀ i v w, vs[i]? = some v → ws[index + i]? = some w → Mirrors v w) →
    unknownItem? index vs (ws.drop index) =
      (firstMissing (Json.pathsOfItems index vs) (.arr ws)).map (·.map PathStep.text)
  | [], index, ws, _, _, _ => by rw [unknownItem?, Json.pathsOfItems]; rfl; nofun
  | v :: rest, index, ws, hcanonical, hlength, hmirrors => by
      rw [Json.areCanonical, Bool.and_eq_true] at hcanonical
      have hlt : index < ws.length := by
        rw [List.length_drop, List.length_cons] at hlength
        omega
      have hget : ws[index]? = some ws[index] := List.getElem?_eq_getElem hlt
      have hpart : (Json.arr ws).partAt? [.place index] = some ws[index] := by
        rw [Json.partAt?, hget]
        rfl
      have hdrop := List.drop_eq_getElem_cons hlt
      have hin := unknownPath?_eq v ws[index] hcanonical.1 (hmirrors 0 v _ rfl hget)
      have ih := unknownItem?_eq rest (index + 1) ws hcanonical.2
        (by rw [hdrop] at hlength; exact Nat.succ_inj.mp hlength)
        fun i v w hv hw => hmirrors (i + 1) v w hv (by rwa [← Nat.add_assoc, Nat.add_right_comm])
      rw [hdrop, unknownItem?, Json.pathsOfItems, firstMissing_append, firstMissing_map hpart, hin]
      cases firstMissing v.memberPaths ws[index] with
      | none => exact ih
      | some path => rfl
end

/-! ## The merge stage -/

section

variable {t : Target} (ht : t.isTyped = true) {body : Json} (hobject : body.isObject = true)
  (hcanonical : body.isCanonical = true) (doc : Json)

include ht hobject hcanonical

/-- The stage reads the merged document, and then looks for the first place of the body that is
    missing from what was read. -/
theorem applyMerge_eq :
    applyMerge t body doc =
      match t.read .merge (body.mergePatch doc) with
      | .error e => .error e
      | .ok known =>
        match firstMissing body.memberPaths known with
        | some path => .error (.unknownField (dotted path) t.typeName)
        | none => .ok known := by
  rw [applyMerge]
  simp only [hobject, Bool.not_true, Bool.false_eq_true, if_false, ht, if_true]
  cases hread : t.read .merge (body.mergePatch doc) with
  | error e => rfl
  | ok known =>
      simp only [unknownPath?_eq body known hcanonical (Target.mirrors_read ht hcanonical hread)]
      cases firstMissing body.memberPaths known <;> rfl

/-- **The merge stage is exact.**  Let a typed target be patched with an object.  The stage
    succeeds exactly if the target reads the merged document and no place that the body gives is
    missing from what it reads, which is then the result.  Otherwise it fails as a patch that
    makes no sense for the target: because the target does not read the merged document, or
    with the first of the places that are missing. -/
theorem applyMerge_exact :
    (∀ out, applyMerge t body doc = .ok out ↔
        t.read .merge (body.mergePatch doc) = .ok out ∧
          ∀ path ∈ body.memberPaths, out.hasPart path = true) ∧
      ∀ e, applyMerge t body doc = .error e →
        e.stage = .merge ∧ e.errorClass = .decode ∧
          (t.read .merge (body.mergePatch doc) = .error e ∨
            ∃ known path, t.read .merge (body.mergePatch doc) = .ok known ∧
              firstMissing body.memberPaths known = some path ∧
              e = .unknownField (dotted path) t.typeName) := by
  have heq := applyMerge_eq ht hobject hcanonical doc
  cases hread : t.read .merge (body.mergePatch doc) with
  | error e =>
      rw [hread] at heq
      rw [heq]
      refine ⟨fun out => iff_of_false nofun (fun h => nomatch h.1), fun e' he => ?_⟩
      cases he
      obtain ⟨hstage, hclass⟩ := Target.read_error hread
      exact ⟨hstage, hclass, Or.inl rfl⟩
  | ok known =>
      rw [hread] at heq
      dsimp only at heq
      cases hmissing : firstMissing body.memberPaths known with
      | some path =>
          rw [hmissing] at heq
          rw [heq]
          have hlacks := List.find?_some (p := fun path => !known.hasPart path) hmissing
          refine ⟨fun out => iff_of_false nofun ?_, fun e he => ?_⟩
          · rintro ⟨hout, hall⟩
            cases hout
            rw [hall path (List.mem_of_find?_eq_some hmissing)] at hlacks
            cases hlacks
          · cases he
            exact ⟨rfl, rfl, Or.inr ⟨known, path, rfl, hmissing, rfl⟩⟩
      | none =>
          rw [hmissing] at heq
          rw [heq]
          refine ⟨fun out => ⟨fun hout => ⟨hout, fun path hpath => ?_⟩, fun h => h.1⟩, nofun⟩
          cases hout
          simpa using List.find?_eq_none.mp hmissing path hpath

end

/-- A merge body for a service, with a null among the members of an item. -/
def portBody : Json :=
  .obj [("metadata", .obj [("labels", .obj [("app", .str "gemma")])]),
    ("spec", .obj [("ports", .arr [.obj [("name", .str "http"), ("nodePort", .null),
      ("port", .int 11434)]]), ("sessionAffinity", .null)])]

/-- The service with that body merged. -/
def portService : Json :=
  .obj [("apiVersion", .str "v1"), ("kind", .str "Service"),
    ("metadata", .obj [("labels", .obj [("app", .str "gemma")]), ("name", .str "gemma")]),
    ("spec", .obj [("ports", .arr [.obj [("name", .str "http"), ("port", .int 11434)]]),
      ("type", .str "ClusterIP")])]

/-- A body whose nulls are all that its target leaves out is merged. -/
theorem applyMerge_exact_service : Target.service.isTyped = true ∧ portBody.isObject = true ∧
    portBody.isCanonical = true ∧
    applyMerge .service portBody Patches.patchedService = .ok portService := by
  have ht : Target.service.isTyped = true := rfl
  have hobject : portBody.isObject = true := rfl
  have hcanonical : portBody.isCanonical = true := by decide +kernel
  have hread : Target.service.read .merge (portBody.mergePatch Patches.patchedService) =
      .ok portService := by cbv
  refine ⟨ht, hobject, hcanonical, ?_⟩
  exact ((applyMerge_exact ht hobject hcanonical Patches.patchedService).1 portService).mpr
    ⟨hread, by decide +kernel⟩

end Patch

end ModelOperator

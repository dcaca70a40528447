import ModelOperator.Proofs.Cluster.Parts
import ModelOperator.Proofs.Patch.Pipeline

/-!
# Merge patches applied twice

    A merge patch that was applied is applied again with the same outcome
    (`Patches.apply_merge_idempotent`).

    The second merge does not find what the first one found: in between the document was read
    by its shape and written again, so members were left out, defaults were added, amounts
    became texts and times lost a part of their fraction.  Name by name there are three cases
    (`Json.get?_mergeMembers_twice`).  The patch may give both merges the same member.  It may
    leave the member alone, and then the second merge keeps what was written, which is read as
    it is (`Shape.readAt_readAt`).  Or it may merge an object into the member, and then the
    member is a document with a shape of its own, and a patch that is smaller. -/

namespace ModelOperator

open Quantity (Place textsAt memberText)

namespace Shape

/-- A shape by which documents at a place are read again as they were written, in order. -/
structure Regular (place : Place) (s : Shape) : Prop where
  distinct : s.distinct = true
  sorted : s.sorted = true
  spares : s.sparesAmounts place = true

/-- The fields of a record spare the amounts if the record does. -/
theorem sparesAmounts_of_mem {place : Place} {fields : List (String × Bool × Shape)}
    (h : fieldsSpareAmounts place fields = true) {field : String × Bool × Shape}
    (hfield : field ∈ fields) : sparesAmounts (place.member field.1) field.2.2 = true := by
  induction fields with
  | nil => cases hfield
  | cons first rest ih =>
      obtain ⟨name, required, s⟩ := first
      rw [fieldsSpareAmounts, Bool.and_eq_true] at h
      rcases List.mem_cons.mp hfield with rfl | hfield
      · exact h.1
      · exact ih h.2 hfield

/-- The members of a regular shape have regular shapes. -/
theorem Regular.member {place : Place} {s : Shape} (h : Regular place s) {name : String}
    {shape : Shape} (hshape : s.memberShape? name = some shape) :
    Regular (place.member name) shape := by
  obtain ⟨hdistinct, hsorted, hspares⟩ := h
  cases s with
  | record _ fields =>
      obtain ⟨field, hfind, rfl⟩ := Option.map_eq_some_iff.mp hshape
      have hfield := List.mem_of_find?_eq_some hfind
      have hname : (field.1 == name) = true :=
        List.find?_some (p := fun field : String × Bool × Shape => field.1 == name) hfind
      cases beq_iff_eq.mp hname
      rw [sparesAmounts, Bool.and_eq_true] at hspares
      exact ⟨(nodup_of_distinctFields hdistinct).2 field hfield,
        ((sortedFields_iff fields).mp hsorted).2 field hfield,
        sparesAmounts_of_mem hspares.2 hfield⟩
  | map value =>
      cases hshape
      exact ⟨hdistinct, hsorted, sparesAmounts_member hspares name⟩
  | _ =>
      cases hshape
      exact ⟨rfl, rfl, rfl⟩

/-- A document at a place as it is read: its amounts become texts first. -/
def readAt (place : Place) (s : Shape) (v : Json) : Reading Json := normalize s (textsAt place v)

variable {place : Place} {s : Shape}

/-- What was written is read as it is. -/
theorem readAt_readAt (hs : Regular place s) {v w : Json} (h : readAt place s v = .ok w) :
    readAt place s w = .ok w := by
  have hsettled : textsAt place w = w :=
    (settled_written s place hs.spares).1 _ w (Quantity.settled_textsAt v place) h
  rw [readAt, hsettled]
  exact normalize_normalize hs.distinct h

/-- Reading keeps the members in order. -/
theorem isCanonical_readAt (hs : Regular place s) {v w : Json} (hv : v.isCanonical = true)
    (h : readAt place s v = .ok w) : w.isCanonical = true :=
  isCanonical_normalize hs.sorted (Quantity.isCanonical_textsAt hv place) h

/-- The members of an object with their amounts as texts. -/
def texts (place : Place) (ms : Members) : Members :=
  ms.map fun m => (m.1, memberText place m.1 m.2)

/-- What stands under a name, with its amounts as texts. -/
theorem get?_texts (place : Place) (name : String) (ms : Members) :
    Members.get? name (texts place ms) = (Members.get? name ms).map (memberText place name) :=
  Members.get?_map (memberText place) name ms

/-- What is read under a name depends on what stands there, and on nothing else. -/
theorem memberOf_texts_congr {name : String} {ms others : Members}
    (h : Members.get? name ms = Members.get? name others) :
    s.memberOf name (texts place ms) = s.memberOf name (texts place others) := by
  refine memberOf_congr ?_ s
  rw [get?_texts, get?_texts, h]

/-- Objects at a place are read name by name as well. -/
theorem readAt_obj_iff (hs : Regular place s) (hobjects : s.admitsObjects = true) {ms out : Members}
    (hms : (Json.obj ms).isCanonical = true) (hout : Members.increasing out = true) :
    readAt place s (.obj ms) = .ok (.obj out) ↔
      ∀ name, s.memberOf name (texts place ms) = .ok (Members.get? name out) := by
  have hcanonical := Quantity.isCanonical_textsAt hms place
  rw [Quantity.textsAt_obj] at hcanonical
  rw [readAt, Quantity.textsAt_obj]
  exact normalize_obj_iff hs.distinct hs.sorted hobjects hcanonical hout

/-- What is read out of an object is an object. -/
theorem obj_of_readAt {ms : Members} {w : Json} (h : readAt place s (.obj ms) = .ok w) :
    s.admitsObjects = true ∧ ∃ out, w = .obj out := by
  rw [readAt, Quantity.textsAt_obj] at h
  exact obj_of_normalize h

/-- An object that stands under a name of an object. -/
theorem memberOf_texts_obj {name : String} {ms sub : Members}
    (h : Members.get? name ms = some (.obj sub)) :
    s.memberOf name (texts place ms) =
      match s.memberShape? name with
      | none => .ok none
      | some shape => (readAt (place.member name) shape (.obj sub)).map some := by
  have hget : Members.get? name (texts place ms) = some (.obj (texts (place.member name) sub)) := by
    rw [get?_texts, h, Option.map_some, Quantity.memberText_other fun _ => rfl,
      Quantity.textsAt_obj]
    rfl
  rw [memberOf_obj hget]
  simp only [readAt, Quantity.textsAt_obj]
  rfl

/-- A patch that changes nothing where it is merged into what was read of its first merge. -/
def MergesTwice (patch : Json) : Prop :=
  ∀ {place : Place} {s : Shape}, Regular place s → ∀ {target result : Json},
    target.isCanonical = true → readAt place s (patch.mergePatch target) = .ok result →
      readAt place s (patch.mergePatch result) = .ok result

/-- A member into which both merges merge an object: it is a document of its own. -/
theorem memberOf_merged_twice (hs : Regular place s) {name : String}
    {sub first second out : Members} {old : Json} (hsub : MergesTwice (.obj sub)) (hold : old.isCanonical = true)
    (hfirst : Members.get? name first = some (.mergePatch (.obj sub) old))
    (hsecond : Members.get? name second =
      some (.mergePatch (.obj sub) ((Members.get? name out).getD .null)))
    (h : s.memberOf name (texts place first) = .ok (Members.get? name out)) :
    s.memberOf name (texts place second) = .ok (Members.get? name out) := by
  obtain ⟨ms, hms⟩ := Json.mergePatch_obj sub old
  obtain ⟨others, hothers⟩ := Json.mergePatch_obj sub ((Members.get? name out).getD .null)
  rw [hms] at hfirst
  rw [hothers] at hsecond
  rw [memberOf_texts_obj hfirst] at h
  rw [memberOf_texts_obj hsecond]
  cases hshape : s.memberShape? name with
  | none =>
      -- both are left out
      rw [hshape] at h
      exact h
  | some shape =>
      rw [hshape] at h
      obtain ⟨w, hw, hout⟩ := Reading.map_ok h
      rw [← hms] at hw
      have hagain := hsub (hs.member hshape) hold hw
      rw [← hout] at hothers ⊢
      rw [Option.getD_some] at hothers
      dsimp only
      rw [← hothers, hagain]
      rfl

/-- The members of two merges of one patch, where the second goes into what was read of the
    first. -/
theorem memberOf_mergeMembers_twice (hs : Regular place s) {patch members out : Members}
    (hpatch : Members.increasing patch = true) (hmembers : (Json.obj members).isCanonical = true)
    (hout : Members.increasing out = true) (hsubs : ∀ m ∈ patch, MergesTwice m.2)
    (hread : ∀ name, s.memberOf name (texts place (Json.mergeMembers patch members)) =
      .ok (Members.get? name out))
    (hagain : ∀ name, s.memberOf name (texts place out) = .ok (Members.get? name out))
    (name : String) : s.memberOf name (texts place (Json.mergeMembers patch out)) =
      .ok (Members.get? name out) := by
  rcases Json.get?_mergeMembers_twice hpatch (Json.increasing_of_isCanonical hmembers) hout name
    with hsame | hleft | ⟨sub, hsub, hfirst, hsecond⟩
  · rw [memberOf_texts_congr hsame]
    exact hread name
  · rw [memberOf_texts_congr hleft]
    exact hagain name
  · exact memberOf_merged_twice hs (hsubs _ (Members.mem_of_get? hsub))
      (Json.isCanonical_getD hmembers name) hfirst hsecond (hread name)

/-- **A merge is read twice alike.**  A patch is merged into a document, and what comes of it is
    read.  Merged into what was read, the patch gives a document that is read as the same. -/
theorem mergesTwice {patch : Json} (hpatch : patch.isCanonical = true) : MergesTwice patch := by
  induction patch using Json.parts_induction with
  | obj patch ih =>
      intro place s hs target result htarget h
      have hmerged := Json.isCanonical_mergePatch hpatch htarget
      have hresult := isCanonical_readAt hs hmerged h
      have hstays := readAt_readAt hs h
      have hagain := Json.isCanonical_mergePatch hpatch hresult
      obtain ⟨members, hmembers, heq⟩ := Json.mergePatch_obj_of_isCanonical patch htarget
      rw [heq] at h hmerged
      obtain ⟨hobjects, out, rfl⟩ := obj_of_readAt h
      obtain ⟨hinc, hvalues⟩ := (Json.isCanonical_obj_iff patch).mp hpatch
      have hout := Json.increasing_of_isCanonical hresult
      rw [Json.mergePatch] at hagain ⊢
      rw [readAt_obj_iff hs hobjects hagain hout]
      exact memberOf_mergeMembers_twice hs hinc hmembers hout (fun m hm => ih m hm (hvalues m hm))
        ((readAt_obj_iff hs hobjects hmerged hout).mp h)
        ((readAt_obj_iff hs hobjects hresult hout).mp hstays)
  | _ =>
      intro place s _ target result _ h
      rw [Json.mergePatch_of_not_obj rfl] at h ⊢
      exact h

/-! ## The shapes of the targets -/

/-- The fields of the metadata are in order. -/
theorem sorted_objectMeta : objectMeta.sorted = true := by decide +kernel

theorem sorted_podSpec : podSpec.sorted = true := by decide +kernel

theorem sorted_podTemplateSpec : podTemplateSpec.sorted = true := by
  simp only [podTemplateSpec, may, sorted, sortedFields, sorted_objectMeta, sorted_podSpec]
  decide +kernel

end Shape

namespace Patch

/-- The shapes of the typed targets are regular. -/
theorem Target.regular_of_shape? {t : Target} {shape : Shape} (h : t.shape? = some shape) :
    shape.Regular .elsewhere := by
  obtain ⟨hdistinct, hspares⟩ := shape?_regular h
  refine ⟨hdistinct, ?_, hspares⟩
  -- the parts that the targets share are compared once
  cases t with
  | statefulSet =>
      cases h
      simp only [Shape.statefulSet, Shape.statefulSetSpec, Shape.must, Shape.may, Shape.sorted,
        Shape.sortedFields, Shape.sorted_objectMeta, Shape.sorted_podTemplateSpec]
      decide +kernel
  | deployment =>
      cases h
      simp only [Shape.deployment, Shape.deploymentSpec, Shape.must, Shape.may, Shape.sorted,
        Shape.sortedFields, Shape.sorted_objectMeta, Shape.sorted_podTemplateSpec]
      decide +kernel
  | pod =>
      cases h
      simp only [Shape.pod, Shape.must, Shape.may, Shape.sorted, Shape.sortedFields,
        Shape.sorted_objectMeta, Shape.sorted_podSpec]
      decide +kernel
  | service | configMap =>
      cases h
      decide +kernel
  | dynamicObject | value => cases h

/-- A target of a known shape is read by that shape, whatever the stage. -/
theorem Target.read_of_shape? {t : Target} {shape : Shape} (h : t.shape? = some shape)
    (stage : Stage) {doc v : Json} :
    t.read stage doc = .ok v ↔ shape.readAt .elsewhere doc = .ok v := by
  have hnormal : t.normalize (if t.isTyped then Quantity.toTexts doc else doc) =
      shape.readAt .elsewhere doc := by
    rw [if_pos (isTyped_of_shape? h), normalize_of_shape? h]
    rfl
  rw [read, hnormal]
  cases shape.readAt .elsewhere doc <;> simp

/-- The merge stage succeeds with what the target reads of the merged document, if that has all
    that the body asks for. -/
theorem applyMerge_ok_iff {t : Target} (ht : t.isTyped = true) {body doc out : Json} :
    applyMerge t body doc = .ok out ↔
      body.isObject = true ∧ t.read .merge (body.mergePatch doc) = .ok out ∧
        unknownPath? body out = none := by
  rw [applyMerge]
  cases body.isObject with
  | false => simp
  | true =>
      simp only [ht, Bool.not_true, Bool.false_eq_true, if_false, if_true, true_and]
      cases t.read .merge (body.mergePatch doc) with
      | error e => simp
      | ok known =>
          dsimp only
          cases hunknown : unknownPath? body known with
          | none =>
              simp only [Except.ok.injEq]
              exact ⟨fun h => ⟨h, h ▸ hunknown⟩, And.left⟩
          | some path =>
              simp only [Except.ok.injEq, reduceCtorEq, false_iff, not_and]
              rintro rfl hnone
              cases hunknown.symm.trans hnone

/-- The merge stage, done once more. -/
theorem applyMerge_again {t : Target} (ht : t.isTyped = true) {body doc out : Json}
    (hbody : body.isCanonical = true) (hdoc : doc.isCanonical = true)
    (h : applyMerge t body doc = .ok out) : applyMerge t body out = .ok out := by
  obtain ⟨shape, hshape⟩ := Target.shape?_of_isTyped ht
  obtain ⟨hobject, hread, hknown⟩ := (applyMerge_ok_iff ht).mp h
  rw [Target.read_of_shape? hshape .merge] at hread
  have hagain := Shape.mergesTwice hbody (Target.regular_of_shape? hshape) hdoc hread
  rw [← Target.read_of_shape? hshape .merge] at hagain
  exact (applyMerge_ok_iff ht).mpr ⟨hobject, hagain, hknown⟩

end Patch

namespace Patches

open Patch

/-- **A merge patch is idempotent.**  Let a merge patch be applied to any document of a typed
    target.  It is applied to the outcome as well, which stays as it is. -/
theorem apply_merge_idempotent {t : Target} (ht : t.isTyped = true) {body doc out : Json}
    (hbody : body.isCanonical = true) (hdoc : doc.isCanonical = true)
    (h : apply t doc (some { merge := some body }) = .ok out) :
    apply t out (some { merge := some body }) = .ok out := by
  have hdynamic : t ≠ .dynamicObject := by
    rintro rfl
    cases ht
  have hfinal : ∀ known, apply t known (some { merge := some body }) = applyMerge t body known := by
    intro known
    rw [apply_merge]
    cases hmerge : applyMerge t body known with
    | error e => rfl
    | ok merged => exact read_of_applyMerge hdynamic hmerge .merge
  rw [hfinal] at h ⊢
  exact applyMerge_again ht hbody hdoc h

/-- A pod whose annotations and containers are changed. -/
def idlePod : Json :=
  .obj [("apiVersion", .str "v1"), ("kind", .str "Pod"),
    ("metadata", .obj [("annotations", .obj [("idle", .str "yes")]), ("name", .str "gemma")]),
    ("spec", .obj [("containers", .arr [.obj [("name", .str "proxy")]])])]

/-- A merge body with nulls, in an object and in an item of a list, amounts that are numbers, and
    a time with an offset. -/
def busyBody : Json :=
  .obj [
    ("metadata", .obj [("annotations", .obj [("idle", .null)]),
      ("creationTimestamp", .str "1970-01-01T01:00:00+01:00")]),
    ("spec", .obj [("containers", .arr [.obj [("command", .null), ("name", .str "server"),
      ("resources", .obj [("limits", .obj [("cpu", .int 2), ("nvidia.com/gpu", .int 1)])])]])])]

/-- The pod after it. -/
def busyPod : Json :=
  .obj [("apiVersion", .str "v1"), ("kind", .str "Pod"),
    ("metadata", .obj [("annotations", .obj []),
      ("creationTimestamp", .str "1970-01-01T00:00:00Z"), ("name", .str "gemma")]),
    ("spec", .obj [("containers", .arr [.obj [("name", .str "server"),
      ("resources", .obj [("limits",
        .obj [("cpu", .str "2"), ("nvidia.com/gpu", .str "1")])])]])])]

theorem apply_busyBody : apply .pod idlePod (some { merge := some busyBody }) = .ok busyPod := by
  cbv

/-- A pod to which a merge patch is applied twice. -/
theorem apply_merge_idempotent_pod : Target.pod.isTyped = true ∧ busyBody.isCanonical = true ∧
    idlePod.isCanonical = true ∧
      apply .pod idlePod (some { merge := some busyBody }) = .ok busyPod ∧
      apply .pod busyPod (some { merge := some busyBody }) = .ok busyPod := by
  have htyped : Target.pod.isTyped = true := rfl
  have hbody : busyBody.isCanonical = true := by decide +kernel
  have hpod : idlePod.isCanonical = true := by decide +kernel
  exact ⟨htyped, hbody, hpod, apply_busyBody,
    apply_merge_idempotent htyped hbody hpod apply_busyBody⟩

end Patches

end ModelOperator

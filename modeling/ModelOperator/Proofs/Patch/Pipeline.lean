import Mathlib
import ModelOperator.Patch.Apply
import ModelOperator.Proofs.Cluster.Amounts

/-!
# Patches one at a time

    Patches are applied in three stages, and between the stages a document goes from one to
    the next without being read in full.  Applied one at a time, each stage begins and ends
    with a document of the target.  Both come to the same, the same document or the same
    refusal (`Patches.apply_decomposes`), because what a target has read it reads again as
    it is, at any stage (`Patch.Target.read_read`). -/

namespace ModelOperator

namespace Patch

namespace Target

/-- The shapes of the typed targets have no name twice and make up no amounts. -/
theorem shape?_regular {t : Target} {shape : Shape} (h : t.shape? = some shape) :
    shape.distinct = true ∧ shape.sparesAmounts .elsewhere = true := by
  cases t with
  | statefulSet | deployment | service | pod | configMap =>
      cases h
      constructor <;> decide +kernel
  | dynamicObject | value => cases h

theorem isTyped_of_shape? {t : Target} {shape : Shape} (h : t.shape? = some shape) :
    t.isTyped = true := by
  cases t with
  | dynamicObject | value => cases h
  | _ => rfl

theorem shape?_of_isTyped {t : Target} (h : t.isTyped = true) : ∃ shape, t.shape? = some shape := by
  cases t with
  | dynamicObject | value => cases h
  | _ => exact ⟨_, rfl⟩

theorem normalize_of_shape? {t : Target} {shape : Shape} (h : t.shape? = some shape)
    (doc : Json) : t.normalize doc = shape.normalize doc := by
  unfold normalize
  rw [h]

theorem read_ok {t : Target} {stage : Stage} {doc v : Json} (h : t.read stage doc = .ok v) :
    t.normalize (if t.isTyped then Quantity.toTexts doc else doc) = .ok v := by
  rw [read] at h
  split at h
  · rename_i w hw
    cases h
    exact hw
  · cases h

/-- **What was read is read as it is.**  At any stage, a document that a target gave is one
    of that target. -/
theorem read_read {t : Target} (ht : t ≠ .dynamicObject) {stage later : Stage} {doc v : Json}
    (h : t.read stage doc = .ok v) : t.read later v = .ok v := by
  have hnormal := read_ok h
  cases hshape : t.shape? with
  | some shape =>
      obtain ⟨hdistinct, hspares⟩ := shape?_regular hshape
      have htyped := isTyped_of_shape? hshape
      rw [htyped, if_pos rfl, normalize_of_shape? hshape] at hnormal
      -- the amounts are texts before the document is read, and still are when it is written
      have hsettled : Quantity.toTexts v = v :=
        (Shape.settled_written shape .elsewhere hspares).1 _ v
          (Quantity.settled_textsAt doc .elsewhere) hnormal
      rw [read, htyped, if_pos rfl, hsettled, normalize_of_shape? hshape,
        Shape.normalize_normalize hdistinct hnormal]
  | none =>
      cases t with
      | value => rfl
      | dynamicObject => exact absurd rfl ht
      | _ => cases hshape

end Target

/-- A merged document is one of its target. -/
theorem read_of_applyMerge {t : Target} (ht : t ≠ .dynamicObject) {body doc v : Json}
    (h : applyMerge t body doc = .ok v) (stage : Stage) : t.read stage v = .ok v := by
  rw [applyMerge] at h
  split at h
  · cases h
  · cases htyped : t.isTyped with
    | true =>
        simp only [htyped, if_true] at h
        split at h
        · cases h
        · rename_i known hknown
          split at h
          · cases h
          · cases h
            exact Target.read_read ht hknown
    | false =>
        -- without a type every document is one of the target
        cases t with
        | value => rfl
        | dynamicObject => exact absurd rfl ht
        | _ => cases htyped

end Patch

namespace Patches

open Patch

variable (t : Target) (doc : Json)

/-! ## The first stage of patches -/

/-- Patches with a merge patch merge it first, and read once more if nothing follows. -/
theorem apply_merge (body : Json) (operations : List Operation) (strategic : Option Json) :
    apply t doc (some ⟨operations, some body, strategic⟩) =
      applyMerge t body doc >>= fun merged =>
        if operations.isEmpty && strategic.isNone then t.read .merge merged
        else apply t merged (some ⟨operations, none, strategic⟩) := by
  cases operations with
  | nil => cases strategic <;> rfl
  | cons op rest => cases strategic <;> rfl

/-- Without one, the operations come first, and read once more if nothing follows. -/
theorem apply_operations (op : Operation) (rest : List Operation) (strategic : Option Json) :
    apply t doc (some ⟨op :: rest, none, strategic⟩) =
      applyOperations (op :: rest) doc >>= fun edited =>
        t.read .json edited >>= fun known =>
          if strategic.isNone then t.read .json known
          else apply t known (some ⟨[], none, strategic⟩) := by
  cases strategic <;> rfl

variable {t} (ht : t ≠ .dynamicObject)

include ht

/-- **The merge patch on its own.**  What it gives is a document of the target, so the
    reading that ends it changes nothing. -/
theorem apply_merge_first (p : Patches) :
    apply t doc (some p) =
      apply t doc (some { merge := p.merge }) >>= fun merged =>
        apply t merged (some { p with merge := none }) := by
  obtain ⟨operations, merge, strategic⟩ := p
  cases merge with
  | none => rfl
  | some body =>
      rw [apply_merge, apply_merge]
      cases hmerge : applyMerge t body doc with
      | error e => rfl
      | ok merged =>
          have hread := read_of_applyMerge ht hmerge .merge
          show (if operations.isEmpty && strategic.isNone then t.read .merge merged
            else apply t merged (some ⟨operations, none, strategic⟩)) =
              (t.read .merge merged >>= fun merged =>
                apply t merged (some ⟨operations, none, strategic⟩))
          rw [hread]
          cases operations with
          | nil => cases strategic <;> rfl
          | cons op rest => rfl

/-- **The operations on their own.** -/
theorem apply_operations_first (operations : List Operation) (strategic : Option Json) :
    apply t doc (some { operations, strategic }) =
      apply t doc (some { operations }) >>= fun edited =>
        apply t edited (some { strategic }) := by
  cases operations with
  | nil => rfl
  | cons op rest =>
      rw [apply_operations, apply_operations]
      cases applyOperations (op :: rest) doc with
      | error e => rfl
      | ok edited =>
          show (t.read .json edited >>= fun known => if strategic.isNone then t.read .json known
            else apply t known (some { strategic })) =
              ((t.read .json edited >>= fun known => t.read .json known) >>= fun edited =>
                apply t edited (some { strategic }))
          cases hread : t.read .json edited with
          | error e => rfl
          | ok known =>
              show (if strategic.isNone then t.read .json known
                else apply t known (some { strategic })) =
                  (t.read .json known >>= fun edited => apply t edited (some { strategic }))
              rw [Target.read_read ht hread]
              cases strategic <;> rfl

/-- **Patches one at a time.**  On every document, the patches of all three kinds come to
    what the merge patch, the operations and the strategic merge patch come to one after
    the other: the same document, or the refusal of the first that fails. -/
theorem apply_decomposes (p : Patches) :
    apply t doc (some p) = (do
      let merged ← apply t doc (some { merge := p.merge })
      let edited ← apply t merged (some { operations := p.operations })
      apply t edited (some { strategic := p.strategic })) := by
  rw [apply_merge_first doc ht]
  cases apply t doc (some { merge := p.merge }) with
  | error e => rfl
  | ok merged => exact apply_operations_first merged ht p.operations p.strategic

/-- A service that is patched. -/
def patchedService : Json :=
  .obj [("apiVersion", .str "v1"), ("kind", .str "Service"),
    ("metadata", .obj [("name", .str "gemma")]),
    ("spec", .obj [("type", .str "ClusterIP")])]

/-- Patches of all three kinds. -/
def threePatches : Patches where
  merge := some (.obj [("metadata", .obj [("namespace", .str "llms")])])
  operations := [⟨.replace, "/spec/type", none, some (.str "NodePort")⟩]
  strategic := some (.obj [("spec", .obj [("sessionAffinity", .str "None")])])

omit ht in
/-- Three patches of a service, one after the other. -/
theorem apply_decomposes_service : Target.service ≠ .dynamicObject ∧
    apply .service patchedService (some threePatches) = .ok (.obj [
      ("apiVersion", .str "v1"), ("kind", .str "Service"),
      ("metadata", .obj [("name", .str "gemma"), ("namespace", .str "llms")]),
      ("spec", .obj [("sessionAffinity", .str "None"), ("type", .str "NodePort")])]) := by
  have htyped : Target.service ≠ .dynamicObject := by decide
  refine ⟨htyped, (apply_decomposes patchedService htyped threePatches).trans ?_⟩
  cbv

end Patches

end ModelOperator

import ModelOperator.Proofs.Controller.SelfReport

/-!
# Conflicts in a chain of errors

    What ends a pass may have several failed calls behind it: the call that the body could not
    do without, and, when the status could not be written either, the write, joined to whatever
    failed before.  A conflict with another writer anywhere in that chain is no error but a
    reason to try again soon.

    The failed calls behind an error are listed once, by their place in the chain
    (`ModelError.failedCalls`, `PromptError.failedCalls`).  A conflict is seen wherever it
    stands, with one exception: behind an image of a prompt nobody looks for it
    (`conflict_seen_iff`), so a pass whose config map or secret meets a conflict fails loudly
    (`image_conflict_overlooked`). -/

namespace ModelOperator

/-! ## The failed calls behind an error -/

/-- The code that the server gave. -/
def CallError.code? : CallError → Option Nat
  | .api s => some s.code
  | _ => none

/-- The call that failed, if it was made at all. -/
def ClusterError.failedCall? : ClusterError → Option CallError
  | .call e => some e
  | _ => none

/-- The call that failed while an image was looked up. -/
def AttachmentError.failedCall? : AttachmentError → Option CallError
  | .lookup _ e => e.failedCall?
  | _ => none

/-- The failed calls behind the failure of a pass over a model, the write of the status
    first. -/
def ModelError.failedCalls : ModelError → List CallError
  | .cluster e => e.failedCall?.toList
  | .persist none source => source.failedCall?.toList
  | .persist (some e) source => source.failedCall?.toList ++ e.failedCalls
  | _ => []

/-- What a call of a pass over a prompt was made for. -/
inductive CallPurpose where
  | image
  | other
  deriving DecidableEq, Repr

/-- The failed calls behind the failure of a pass over a prompt, the write of the status
    first, each with its purpose. -/
def PromptError.failedCalls : PromptError → List (CallPurpose × CallError)
  | .cluster e => e.failedCall?.toList.map (CallPurpose.other, ·)
  | .model e => e.failedCall?.toList.map (CallPurpose.other, ·)
  | .extractImage _ e => e.failedCall?.toList.map (CallPurpose.image, ·)
  | .decodeImage _ e => e.failedCall?.toList.map (CallPurpose.image, ·)
  | .persist none source => source.failedCall?.toList.map (CallPurpose.other, ·)
  | .persist (some e) source =>
    source.failedCall?.toList.map (CallPurpose.other, ·) ++ e.failedCalls
  | _ => []

/-- A conflict is somewhere in the chain. -/
def ModelError.ConflictInChain (e : ModelError) : Prop :=
  ∃ c ∈ e.failedCalls, c.code? = some 409

/-- A conflict is somewhere in the chain, with this purpose. -/
def PromptError.ConflictFor (e : PromptError) (purpose : CallPurpose) : Prop :=
  ∃ c, (purpose, c) ∈ e.failedCalls ∧ c.code? = some 409

/-- A conflict is somewhere in the chain. -/
def PromptError.ConflictInChain (e : PromptError) : Prop := ∃ purpose, e.ConflictFor purpose

/-! ## Where a conflict is seen -/

theorem CallError.isConflict_iff (e : CallError) : e.isConflict = true ↔ e.code? = some 409 := by
  cases e with
  | api s => simp [isConflict, code?]
  | unreadable | dropped | unbuilt =>
      exact iff_of_false Bool.false_ne_true (Option.some_ne_none _).symm

theorem ClusterError.isConflict_iff (e : ClusterError) :
    e.isConflict = true ↔ ∃ c ∈ e.failedCall?.toList, c.code? = some 409 := by
  cases e with
  | call e =>
      rw [isConflict, e.isConflict_iff]
      simp [failedCall?]
  | invalid | serialization | internal =>
      refine iff_of_false Bool.false_ne_true ?_
      rintro ⟨_, hc, -⟩
      exact List.not_mem_nil hc

/-- The chain behind a model's error is searched to its end. -/
theorem ModelError.isConflict_iff : ∀ e : ModelError, e.isConflict = true ↔ e.ConflictInChain
  | .cluster e => e.isConflict_iff
  | .persist none source => source.isConflict_iff
  | .persist (some e) source => by
      rw [isConflict, Bool.or_eq_true, source.isConflict_iff, e.isConflict_iff, ConflictInChain,
        ConflictInChain, failedCalls]
      simp only [List.mem_append, or_and_right, exists_or]
  | .render _ | .readiness _ | .inference _ _ =>
      iff_of_false Bool.false_ne_true fun ⟨_, hc, _⟩ => List.not_mem_nil hc

namespace PromptError

theorem mem_failedCalls_other {e : ClusterError} {purpose : CallPurpose} {c : CallError} :
    (purpose, c) ∈ e.failedCall?.toList.map (CallPurpose.other, ·) ↔
      purpose = .other ∧ c ∈ e.failedCall?.toList := by
  rw [List.mem_map]
  constructor
  · rintro ⟨c', hc', heq⟩
    cases heq
    exact ⟨rfl, hc'⟩
  · rintro ⟨rfl, hc⟩
    exact ⟨c, hc, rfl⟩

/-- A failed call for another purpose than an image is a conflict if the error says so. -/
theorem conflict_other_iff (e : ClusterError) :
    (∃ c, (CallPurpose.other, c) ∈ e.failedCall?.toList.map (CallPurpose.other, ·) ∧
      c.code? = some 409) ↔ e.isConflict = true := by
  simp only [mem_failedCalls_other, true_and]
  exact e.isConflict_iff.symm

/-- Behind an image there is no call for another purpose. -/
theorem not_conflict_image (e : AttachmentError) :
    ¬ ∃ c, (CallPurpose.other, c) ∈ e.failedCall?.toList.map (CallPurpose.image, ·) ∧
      c.code? = some 409 := by
  rintro ⟨c, hc, -⟩
  obtain ⟨_, -, heq⟩ := List.mem_map.mp hc
  cases heq

/-- The chain behind a prompt's error is searched to its end, but for the images. -/
theorem isConflict_iff : ∀ e : PromptError, e.isConflict = true ↔ e.ConflictFor .other
  | .cluster e => (conflict_other_iff e).symm
  | .model e => (conflict_other_iff e).symm
  | .extractImage _ e => iff_of_false Bool.false_ne_true (not_conflict_image e)
  | .decodeImage _ e => iff_of_false Bool.false_ne_true (not_conflict_image e)
  | .persist none source => (conflict_other_iff source).symm
  | .persist (some e) source => by
      rw [isConflict, Bool.or_eq_true, ← conflict_other_iff source, isConflict_iff e, ConflictFor,
        ConflictFor, failedCalls]
      simp only [List.mem_append, or_and_right, exists_or]
  | .options _ | .context _ | .generate _ =>
      iff_of_false Bool.false_ne_true fun ⟨_, hc, _⟩ => List.not_mem_nil hc

/-- The only conflicts in the chain are behind images. -/
def OverlooksConflict (e : PromptError) : Prop := e.ConflictFor .image ∧ ¬ e.ConflictFor .other

theorem conflictInChain_iff (e : PromptError) :
    e.ConflictInChain ↔ e.ConflictFor .other ∨ e.ConflictFor .image := by
  constructor
  · rintro ⟨purpose, h⟩
    cases purpose with
    | image => exact Or.inr h
    | other => exact Or.inl h
  · exact fun h => h.elim (fun h => ⟨_, h⟩) fun h => ⟨_, h⟩

end PromptError

/-- **Conflicts are seen in the whole chain, images apart.**  The failure of a pass over a model
    counts as a conflict exactly if one of the failed calls behind it was refused with code 409,
    however deep it stands.  For a pass over a prompt that holds of the calls that were not made
    for an image; and of all calls unless the only conflicts are behind images. -/
theorem conflict_seen_iff (failed : ModelError) (e : PromptError) :
    (failed.isConflict = true ↔ failed.ConflictInChain) ∧
      (e.isConflict = true ↔ e.ConflictFor .other) ∧
        ((e.isConflict = true ↔ e.ConflictInChain) ↔ ¬ e.OverlooksConflict) := by
  refine ⟨failed.isConflict_iff, e.isConflict_iff, ?_⟩
  rw [e.isConflict_iff, e.conflictInChain_iff, PromptError.OverlooksConflict]
  by_cases hother : e.ConflictFor .other
  · simp [hother]
  · simp [hother]

/-- A prompt with an image in a secret, and a world in which the secret meets a conflict. -/
def turnWithContestedSecret : PromptTurn :=
  let t := turnWithReply "Blue.\n"
  { t with
    world := { t.world with store := fun _ => ⟨fun _ => .error conflictRefusal⟩ }
    spec := { t.spec with images := [{ secretKey := some { name := "vault", key := "k" } }] } }

/-- **A conflict that is not seen.**  The prompt waits for its answer, its image is looked up,
    and the lookup meets a conflict.  The pass fails: the error is not taken for a conflict,
    although one is in its chain, which in the lookup of the model would be seen. -/
theorem image_conflict_overlooked :
    let t := turnWithContestedSecret
    ∃ e, (t.report (storedAfter none [t])).result = .error e ∧
      e.ConflictInChain ∧ e.isConflict = false ∧
      (PromptError.model conflictRefusal).isConflict = true := by
  intro t
  refine ⟨.extractImage 0 (.lookup ⟨.secret, "default", "vault"⟩ conflictRefusal), rfl, ?_, rfl,
    rfl⟩
  exact ⟨.image, _, List.mem_singleton.mpr rfl, rfl⟩

end ModelOperator

import ModelOperator.Proofs.Cluster.NormalForm
import ModelOperator.Proofs.Resource.ModelWire
import ModelOperator.Proofs.Resource.PromptWire

/-!
# Resources are read as they were written

    An object of the cluster is read, changed and written back.  Nothing may be lost on the
    way: whatever document a value was read from, by names or by places, with nulls, with
    another word for the same thing or with members that nobody knows, what is written of the
    value is read as the same value (`Reader.Stable`).

    Each record passes that on from its members.  Images, references and operations are read
    back from any value; patches, options, counts and times from any that was read. -/

namespace ModelOperator

open Record

/-! ## Images -/

/-- An image is read as it was written. -/
theorem ImageData.read_toJson (i : ImageData) : read i.toJson = .ok i := by
  have hword : Reader.word ImageFormat.words (.str i.format.text) = .ok i.format := by
    cases i.format <;> rfl
  refine read_ofMembers (by simp) fun r hr => ?_
  refine Reading.bind_eq (hr.defaulted rfl hword) ?_
  refine Reading.bind_eq (hr.required rfl rfl) ?_
  rfl

/-- A selector of a key is read as it was written. -/
theorem KeySelector.read_toJson (s : KeySelector) : read s.toJson = .ok s := by
  refine read_ofPresent (by simp) fun r hr => ?_
  refine Reading.bind_eq (hr.required rfl rfl) ?_
  refine Reading.bind_eq (hr.nullable_text rfl) ?_
  refine Reading.bind_eq (hr.required rfl rfl) ?_
  rfl

/-- A source of an image is read as it was written. -/
theorem ImageSource.read_toJson (s : ImageSource) : read s.toJson = .ok s := by
  refine read_ofPresent (by simp) fun r hr => ?_
  refine Reading.bind_eq (hr.nullable (x := s.inline) rfl (fun _ _ => rfl)
    fun i _ => i.read_toJson) ?_
  refine Reading.bind_eq (hr.nullable (x := s.configMapKey) rfl (fun _ _ => rfl)
    fun k _ => k.read_toJson) ?_
  refine Reading.bind_eq (hr.nullable (x := s.secretKey) rfl (fun _ _ => rfl)
    fun k _ => k.read_toJson) ?_
  rfl

/-! ## Patches -/

namespace Patch.Operation

/-- An operation is read as it was written. -/
theorem read_toJson (op : Operation) : read op.toJson = .ok op := by
  have hword : Reader.word OperationKind.words (.str op.kind.text) = .ok op.kind := by
    cases op.kind <;> rfl
  refine read_ofPresent (by simp) fun r hr => ?_
  refine Reading.bind_eq (hr.required rfl hword) ?_
  refine Reading.bind_eq (hr.required rfl rfl) ?_
  refine Reading.bind_eq (hr.nullable_text rfl) ?_
  refine Reading.bind_eq (hr.find? _ _) ?_
  rfl

/-- **The value of an operation.**  It is written just as it was given: a null as a null, and not
    at all where there was none. -/
theorem get?_value_toJson {v : Json} {op : Operation} (h : read v = .ok op) :
    op.toJson.get? "value" = v.member? 3 "value" := by
  obtain ⟨r, hr, h⟩ := Reading.bind_ok h
  obtain ⟨kind, -, h⟩ := Reading.bind_ok h
  obtain ⟨path, -, h⟩ := Reading.bind_ok h
  obtain ⟨source, -, h⟩ := Reading.bind_ok h
  obtain ⟨value, hvalue, h⟩ := Reading.bind_ok h
  cases h
  rw [← find?_of hr hvalue]
  exact Members.get?_ofPresent (by simp) "value"

end Patch.Operation

/-- Patches that were read are read again as they are written. -/
theorem Patches.stable : Reader.Stable read toJson := by
  intro v p h
  obtain ⟨old, -, h⟩ := Reading.bind_ok h
  obtain ⟨operations, -, h⟩ := Reading.bind_ok h
  obtain ⟨merge, hmerge, h⟩ := Reading.bind_ok h
  obtain ⟨strategic, hstrategic, h⟩ := Reading.bind_ok h
  cases h
  refine read_ofPresent (by simp) fun r hr => ?_
  refine Reading.bind_eq (hr.list_unlessEmpty rfl fun op _ => op.read_toJson) ?_
  refine Reading.bind_eq (hr.nullable_any hmerge rfl) ?_
  refine Reading.bind_eq (hr.nullable_any hstrategic rfl) ?_
  rfl

/-! ## Specifications -/

/-- So are specifications of models. -/
theorem ModelSpec.stable : Reader.Stable read toJson := by
  intro v s h
  obtain ⟨old, -, h⟩ := Reading.bind_ok h
  obtain ⟨image, -, h⟩ := Reading.bind_ok h
  obtain ⟨model, -, h⟩ := Reading.bind_ok h
  obtain ⟨statefulSetPatches, hstatefulSet, h⟩ := Reading.bind_ok h
  obtain ⟨servicePatches, hservice, h⟩ := Reading.bind_ok h
  cases h
  refine read_ofPresent (by simp) fun r hr => ?_
  refine Reading.bind_eq (hr.nullable_text rfl) ?_
  refine Reading.bind_eq (hr.required rfl rfl) ?_
  refine Reading.bind_eq (Patches.stable.nullable hr (fun _ => rfl) hstatefulSet rfl) ?_
  refine Reading.bind_eq (Patches.stable.nullable hr (fun _ => rfl) hservice rfl) ?_
  rfl

/-- A reference to a model is read as it was written. -/
theorem ModelRef.read_toJson (m : ModelRef) : read m.toJson = .ok m := by
  refine read_ofPresent (by simp) fun r hr => ?_
  refine Reading.bind_eq (hr.required rfl rfl) ?_
  refine Reading.bind_eq (hr.nullable_text rfl) ?_
  rfl

/-- Specifications of prompts that were read are read again as they are written. -/
theorem PromptSpec.stable : Reader.Stable read toJson := by
  intro v s h
  obtain ⟨old, -, h⟩ := Reading.bind_ok h
  obtain ⟨modelRef, -, h⟩ := Reading.bind_ok h
  obtain ⟨prompt, -, h⟩ := Reading.bind_ok h
  obtain ⟨context, -, h⟩ := Reading.bind_ok h
  obtain ⟨suffix, -, h⟩ := Reading.bind_ok h
  obtain ⟨system, -, h⟩ := Reading.bind_ok h
  obtain ⟨template, -, h⟩ := Reading.bind_ok h
  obtain ⟨options, hoptions, h⟩ := Reading.bind_ok h
  obtain ⟨images, -, h⟩ := Reading.bind_ok h
  cases h
  refine read_ofPresent (by simp) fun r hr => ?_
  refine Reading.bind_eq (hr.required rfl modelRef.read_toJson) ?_
  refine Reading.bind_eq (hr.required rfl rfl) ?_
  refine Reading.bind_eq (hr.nullable_text rfl) ?_
  refine Reading.bind_eq (hr.nullable_text rfl) ?_
  refine Reading.bind_eq (hr.nullable_text rfl) ?_
  refine Reading.bind_eq (hr.nullable_text rfl) ?_
  refine Reading.bind_eq (hr.nullable_any hoptions rfl) ?_
  refine Reading.bind_eq (hr.list_unlessEmpty rfl fun image _ => image.read_toJson) ?_
  rfl

/-! ## Statuses -/

theorem Condition.stable : Reader.Stable read toJson :=
  fun _ _ h => read_toJson (writable_of_read h)

/-- Recorded details are read as they were written. -/
theorem RecordedDetails.read_toJson (d : RecordedDetails) : read d.toJson = .ok d := by
  refine read_ofPresent (by simp) fun r hr => ?_
  refine Reading.bind_eq (hr.unlessEmpty rfl) ?_
  refine Reading.bind_eq (hr.unlessEmpty rfl) ?_
  refine Reading.bind_eq (hr.unlessEmpty rfl) ?_
  refine Reading.bind_eq (hr.unlessEmpty rfl) ?_
  refine Reading.bind_eq (hr.unlessEmpty rfl) ?_
  refine Reading.bind_eq (hr.list_unlessEmpty rfl fun _ _ => rfl) ?_
  rfl

/-- Statuses of models that were read are read again as they are written. -/
theorem ModelStatus.stable : Reader.Stable read toJson := by
  intro v s h
  obtain ⟨old, -, h⟩ := Reading.bind_ok h
  obtain ⟨conditions, hconditions, h⟩ := Reading.bind_ok h
  obtain ⟨observedGeneration, hgeneration, h⟩ := Reading.bind_ok h
  obtain ⟨image, -, h⟩ := Reading.bind_ok h
  obtain ⟨details, -, h⟩ := Reading.bind_ok h
  cases h
  refine read_ofPresent (by simp) fun r hr => ?_
  refine Reading.bind_eq (ConditionSet.defaulted_again hr hconditions rfl) ?_
  refine Reading.bind_eq (Reader.stable_int64.defaulted hr rfl hgeneration rfl) ?_
  refine Reading.bind_eq (hr.nullable_text rfl) ?_
  refine Reading.bind_eq (hr.nullable (x := details) rfl (fun _ _ => rfl)
    fun d _ => d.read_toJson) ?_
  rfl

/-- So is the metadata of an answer, whose time is written to the last digit. -/
theorem ResponseMeta.stable : Reader.Stable read toJson := by
  intro v m h
  refine read_ofPresent (by simp) fun r hr => ?_
  refine Reading.bind_eq (hr.nullable (x := m.createdAt) (w := fun t => .str (t.text .shortest))
    rfl (fun _ _ => rfl) fun t ht => Condition.readInstant_text (valid_of_read h ht)) ?_
  rfl

/-- So are the measurements of an answer. -/
theorem ResponseMetrics.stable : Reader.Stable read toJson := by
  intro v m h
  have hwritable := writable_of_read h
  refine read_ofMembers (by simp) fun r hr => ?_
  refine Reading.bind_eq (hr.required rfl rfl) ?_
  refine Reading.bind_eq (hr.required rfl rfl) ?_
  refine Reading.bind_eq (hr.required rfl (Reader.within_int hwritable.promptEvalCount)) ?_
  refine Reading.bind_eq (hr.required rfl rfl) ?_
  refine Reading.bind_eq (hr.required rfl rfl) ?_
  refine Reading.bind_eq (hr.required rfl (Reader.within_int hwritable.evalCount)) ?_
  refine Reading.bind_eq (hr.required rfl rfl) ?_
  refine Reading.bind_eq (hr.required rfl rfl) ?_
  rfl

/-- So are statuses of prompts. -/
theorem PromptStatus.stable : Reader.Stable read toJson := by
  intro v s h
  obtain ⟨old, -, h⟩ := Reading.bind_ok h
  obtain ⟨conditions, hconditions, h⟩ := Reading.bind_ok h
  obtain ⟨observedGeneration, hgeneration, h⟩ := Reading.bind_ok h
  obtain ⟨response, -, h⟩ := Reading.bind_ok h
  obtain ⟨context, -, h⟩ := Reading.bind_ok h
  obtain ⟨responseMeta, hmeta, h⟩ := Reading.bind_ok h
  obtain ⟨metrics, hmetrics, h⟩ := Reading.bind_ok h
  cases h
  refine read_ofPresent (by simp) fun r hr => ?_
  refine Reading.bind_eq (ConditionSet.defaulted_again hr hconditions rfl) ?_
  refine Reading.bind_eq (Reader.stable_int64.defaulted hr rfl hgeneration rfl) ?_
  refine Reading.bind_eq (hr.unlessEmpty rfl) ?_
  refine Reading.bind_eq (hr.unlessEmpty rfl) ?_
  refine Reading.bind_eq (ResponseMeta.stable.nullable hr (fun _ => rfl) hmeta rfl) ?_
  refine Reading.bind_eq (ResponseMetrics.stable.nullable hr (fun _ => rfl) hmetrics rfl) ?_
  rfl

/-! ## Resources -/

/-- Metadata are kept in their normal form. -/
theorem Metadata.stable : Reader.Stable read toJson := by
  intro v m h
  obtain ⟨written, hwritten, h⟩ := Reading.bind_ok h
  obtain ⟨ms, out, -, rfl, -⟩ := Shape.normalize_record_ok hwritten
  obtain ⟨members, hmembers, h⟩ := Reading.bind_ok h
  cases hmembers
  cases h
  have hnormal := Shape.normalize_normalize (by decide) hwritten
  exact Reading.bind_eq hnormal rfl

/-- A resource is stable if its specification and its status are. -/
theorem stable_resource {α σ ρ : Type} {kind : String} {spec : Reader α} {specJson : α → Json}
    {status : Reader σ} {statusJson : σ → Json} {make : Metadata → α → Option σ → ρ}
    {toJson : ρ → Json} (hspec : Reader.Stable spec specJson)
    (hstatus : Reader.Stable status statusJson) (hobject : ∀ s, (statusJson s).isNull = false)
    (hwritten : ∀ metadata a s, toJson (make metadata a s) =
      resourceJson kind metadata (specJson a) (s.map statusJson)) :
    Reader.Stable (readResource kind spec status make) toJson := by
  intro v r h
  obtain ⟨old, -, h⟩ := Reading.bind_ok h
  obtain ⟨metadata, hmetadata, h⟩ := Reading.bind_ok h
  obtain ⟨a, ha, h⟩ := Reading.bind_ok h
  obtain ⟨s, hs, h⟩ := Reading.bind_ok h
  cases h
  rw [hwritten]
  refine read_ofPresent (by simp) fun r hr => ?_
  refine Reading.bind_eq (Metadata.stable.required hr hmetadata rfl) ?_
  refine Reading.bind_eq (hspec.required hr ha rfl) ?_
  refine Reading.bind_eq (hstatus.positional hr hobject hs rfl) ?_
  rfl

theorem Model.stable : Reader.Stable read toJson :=
  stable_resource ModelSpec.stable ModelStatus.stable (fun _ => rfl) fun _ _ _ => rfl

theorem Prompt.stable : Reader.Stable read toJson :=
  stable_resource PromptSpec.stable PromptStatus.stable (fun _ => rfl) fun _ _ _ => rfl

/-- **Wire forms are stable.**  For each kind of value, what is written of a value that was read
    from any document is read as that value, and so written in the same way again.  And what an
    operation of a patch writes as its value is what its document gave, be it a null or nothing
    at all. -/
theorem wire_forms_stable :
    Reader.Stable Model.read Model.toJson ∧ Reader.Stable Prompt.read Prompt.toJson ∧
      Reader.Stable ModelStatus.read ModelStatus.toJson ∧
      Reader.Stable PromptStatus.read PromptStatus.toJson ∧
      Reader.Stable ImageSource.read ImageSource.toJson ∧
      Reader.Stable ImageData.read ImageData.toJson ∧
      Reader.Stable Condition.read Condition.toJson ∧
      Reader.Stable Patches.read Patches.toJson ∧
      ∀ v op, Patch.Operation.read v = .ok op →
        Patch.Operation.read op.toJson = .ok op ∧
          op.toJson.get? "value" = v.member? 3 "value" :=
  ⟨Model.stable, Prompt.stable, ModelStatus.stable, PromptStatus.stable,
    fun _ s _ => s.read_toJson, fun _ i _ => i.read_toJson, Condition.stable, Patches.stable,
    fun _ op h => ⟨op.read_toJson, Patch.Operation.get?_value_toJson h⟩⟩

/-- A model that is written by places, with a null for the value of an operation, and a prompt
    with nulls, an unknown member and an image in a format that has two words. -/
theorem wire_forms_stable_odd_documents :
    let operation : Json := .arr [.str "test", .str "/spec/paused", .null, .null]
    let patches : Json := .obj [("jsonPatch", .arr [operation]), ("mergePatch", .null)]
    let model : Json := .arr [.obj [("name", .str "gemma"), ("labels", .null)],
      .arr [.null, .str "gemma2:2b", patches, .null], .null]
    let prompt : Json := .obj [("kind", .str "Haiku"), ("metadata", .obj []), ("spec", .obj [
      ("images", .arr [.obj [("inline", .arr [.str "", .str "aGk="])]]),
      ("modelRef", .arr [.str "gemma"]), ("options", .null), ("prompt", .str "Write a haiku")])]
    (∃ m, Model.read model = .ok m ∧ Model.read m.toJson = .ok m) ∧
      (∃ p, Prompt.read prompt = .ok p ∧ Prompt.read p.toJson = .ok p) ∧
      ∃ op, Patch.Operation.read operation = .ok op ∧ op.toJson.get? "value" = some .null := by
  intro operation patches model prompt
  obtain ⟨hmodel, hprompt, -, -, -, -, -, -, hoperation⟩ := wire_forms_stable
  exact ⟨⟨_, rfl, hmodel model _ rfl⟩, ⟨_, rfl, hprompt prompt _ rfl⟩,
    ⟨_, rfl, (hoperation operation _ rfl).2⟩⟩

end ModelOperator

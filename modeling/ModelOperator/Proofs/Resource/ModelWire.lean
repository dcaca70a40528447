import ModelOperator.Proofs.Resource.ConditionWire
import ModelOperator.Resource.Model

/-!
# The status of a model on the wire

    A status is merged into the one that is stored.  Details that are left out because they
    are empty keep their old values (`RecordedDetails.laidOver`); everything else is as it was
    written.

    * `RecordedDetails.laidOver_eq_iff` says when nothing of the old details is left over;
    * `ModelStatus.read_merged` is what is read after the merge. -/

namespace ModelOperator

open Record

/-! ## Details -/

namespace RecordedDetails

/-- New details merged over old ones: what is empty keeps its old value. -/
def laidOver (new old : RecordedDetails) : RecordedDetails where
  parameterSize := if new.parameterSize = "" then old.parameterSize else new.parameterSize
  quantizationLevel :=
    if new.quantizationLevel = "" then old.quantizationLevel else new.quantizationLevel
  parentModel := if new.parentModel = "" then old.parentModel else new.parentModel
  format := if new.format = "" then old.format else new.format
  family := if new.family = "" then old.family else new.family
  families := if new.families.isEmpty then old.families else new.families

/-- Details that leave nothing of the old ones over: what they have empty was empty. -/
structure Covers (new old : RecordedDetails) : Prop where
  parameterSize : new.parameterSize = "" → old.parameterSize = ""
  quantizationLevel : new.quantizationLevel = "" → old.quantizationLevel = ""
  parentModel : new.parentModel = "" → old.parentModel = ""
  format : new.format = "" → old.format = ""
  family : new.family = "" → old.family = ""
  families : new.families = [] → old.families = []

theorem laidOver_eq_iff (new old : RecordedDetails) : new.laidOver old = new ↔ new.Covers old := by
  have htext : ∀ a b : String, (if a = "" then b else a) = a ↔ (a = "" → b = "") := by
    intro a b
    by_cases ha : a = "" <;> simp [ha]
  have hlist : (if new.families.isEmpty then old.families else new.families) = new.families ↔
      (new.families = [] → old.families = []) := by
    cases new.families with
    | nil => simp
    | cons f rest => simp
  constructor
  · intro h
    exact ⟨(htext _ _).mp (congrArg parameterSize h), (htext _ _).mp (congrArg quantizationLevel h),
      (htext _ _).mp (congrArg parentModel h), (htext _ _).mp (congrArg format h),
      (htext _ _).mp (congrArg family h), hlist.mp (congrArg families h)⟩
  · intro h
    rw [laidOver]
    rw [(htext _ _).mpr h.parameterSize, (htext _ _).mpr h.quantizationLevel,
      (htext _ _).mpr h.parentModel, (htext _ _).mpr h.format, (htext _ _).mpr h.family,
      hlist.mpr h.families]

/-- The members of details as they are written. -/
def written (d : RecordedDetails) : List (String × Option Json) :=
  [("parameterSize", unlessEmpty d.parameterSize),
    ("quantizationLevel", unlessEmpty d.quantizationLevel),
    ("parentModel", unlessEmpty d.parentModel), ("format", unlessEmpty d.format),
    ("family", unlessEmpty d.family),
    ("families", if d.families.isEmpty then none else some (.arr (d.families.map .str)))]

theorem toJson_eq (d : RecordedDetails) : d.toJson = .ofPresent d.written := rfl

theorem mergeable_written (d : RecordedDetails) : Mergeable d.written := by
  refine ⟨by simp [written], ?_⟩
  intro entry hentry v hv
  simp only [written, List.mem_cons, List.not_mem_nil, or_false] at hentry
  rcases hentry with rfl | rfl | rfl | rfl | rfl | rfl
  · exact isNull_of_unlessEmpty hv
  · exact isNull_of_unlessEmpty hv
  · exact isNull_of_unlessEmpty hv
  · exact isNull_of_unlessEmpty hv
  · exact isNull_of_unlessEmpty hv
  · simp only at hv
    split at hv
    · cases hv
    · cases hv
      rfl

/-- Details are read from their members. -/
theorem read_obj {ms : Members} {d : RecordedDetails} {r : Record}
    (hr : r = named "OllamaModelDetails" 6 ms)
    (hparameterSize : r.defaulted 0 "parameterSize" Reader.text "" = .ok d.parameterSize)
    (hquantizationLevel :
      r.defaulted 1 "quantizationLevel" Reader.text "" = .ok d.quantizationLevel)
    (hparentModel : r.defaulted 2 "parentModel" Reader.text "" = .ok d.parentModel)
    (hformat : r.defaulted 3 "format" Reader.text "" = .ok d.format)
    (hfamily : r.defaulted 4 "family" Reader.text "" = .ok d.family)
    (hfamilies : r.defaulted 5 "families" (Reader.list Reader.text) [] = .ok d.families) :
    read (.obj ms) = .ok d := by
  subst hr
  simp only [read, of_obj, Reading.ok_bind, hparameterSize, hquantizationLevel, hparentModel,
    hformat, hfamily, hfamilies]

/-- **Merged details.**  Details merged into old ones are read as the new over the old. -/
theorem read_merged {target : Members} (htarget : Members.increasing target = true)
    {old : RecordedDetails} (hold : read (.obj target) = .ok old) (new : RecordedDetails) :
    read (Json.mergePatch new.toJson (.obj target)) = .ok (new.laidOver old) := by
  obtain ⟨r, hr, hold⟩ := Reading.bind_ok hold
  cases hr
  obtain ⟨parameterSize, hparameterSize, hold⟩ := Reading.bind_ok hold
  obtain ⟨quantizationLevel, hquantizationLevel, hold⟩ := Reading.bind_ok hold
  obtain ⟨parentModel, hparentModel, hold⟩ := Reading.bind_ok hold
  obtain ⟨format, hformat, hold⟩ := Reading.bind_ok hold
  obtain ⟨family, hfamily, hold⟩ := Reading.bind_ok hold
  obtain ⟨families, hfamilies, hold⟩ := Reading.bind_ok hold
  cases hold
  have hw := mergeable_written new
  rw [toJson_eq, mergePatch_ofPresent]
  refine read_obj rfl ?_ ?_ ?_ ?_ ?_ ?_
  · exact defaulted_unlessEmpty_merged hw htarget rfl hparameterSize
  · exact defaulted_unlessEmpty_merged hw htarget rfl hquantizationLevel
  · exact defaulted_unlessEmpty_merged hw htarget rfl hparentModel
  · exact defaulted_unlessEmpty_merged hw htarget rfl hformat
  · exact defaulted_unlessEmpty_merged hw htarget rfl hfamily
  · have hlookup : (new.written.lookup "families").join =
        if new.families.isEmpty then none else some (.arr (new.families.map .str)) := rfl
    refine (defaulted_mergeable hw htarget hlookup).trans ?_
    show _ = Except.ok (if new.families.isEmpty then families else new.families)
    by_cases hempty : new.families.isEmpty = true
    · rw [if_pos hempty, if_pos hempty]
      exact hfamilies
    · rw [if_neg hempty, if_neg hempty]
      simp only [Option.elim, Json.mergePatch, Reader.list]
      exact Reader.each_map fun _ _ => rfl

end RecordedDetails

/-! ## Statuses -/

namespace ModelStatus

theorem writable_of_read {v : Json} {s : ModelStatus} (h : read v = .ok s) :
    s.conditions.Writable := by
  obtain ⟨r, -, h⟩ := Reading.bind_ok h
  obtain ⟨conditions, hconditions, h⟩ := Reading.bind_ok h
  obtain ⟨observedGeneration, -, h⟩ := Reading.bind_ok h
  obtain ⟨image, -, h⟩ := Reading.bind_ok h
  obtain ⟨details, -, h⟩ := Reading.bind_ok h
  cases h
  exact ConditionSet.writable_of_defaulted hconditions

/-- The details that a stored status holds by name. -/
def namedDetails (status : Json) : RecordedDetails :=
  (namedMember? RecordedDetails.read "modelDetails" status).getD {}

/-- The status that a stored one reads as once this one is merged into it. -/
def onto (s : ModelStatus) (stored : Json) : ModelStatus :=
  { s with details := s.details.map (·.laidOver (namedDetails stored)) }

/-- It is this one exactly if the stored details hold nothing that is empty now. -/
theorem onto_eq_iff (s : ModelStatus) (stored : Json) :
    s.onto stored = s ↔ ∀ d, s.details = some d → d.Covers (namedDetails stored) := by
  obtain ⟨conditions, observedGeneration, image, details⟩ := s
  rw [onto]
  cases details with
  | none => simp
  | some d => simp [RecordedDetails.laidOver_eq_iff]

/-- The members of a status as they are written. -/
def written (s : ModelStatus) : List (String × Option Json) :=
  [("conditions", if s.conditions.items.isEmpty then none else some s.conditions.toJson),
    ("observedGeneration", some (.int s.observedGeneration)),
    ("ollamaImage", s.image.map .str), ("modelDetails", s.details.map RecordedDetails.toJson)]

theorem toJson_eq (s : ModelStatus) : s.toJson = .ofPresent s.written := rfl

theorem mergeable_written (s : ModelStatus) : Mergeable s.written := by
  refine ⟨by simp [written], ?_⟩
  intro entry hentry v hv
  simp only [written, List.mem_cons, List.not_mem_nil, or_false] at hentry
  rcases hentry with rfl | rfl | rfl | rfl
  · simp only at hv
    split at hv
    · cases hv
    · cases hv
      rfl
  · cases hv
    rfl
  · obtain ⟨image, -, rfl⟩ := Option.map_eq_some_iff.mp hv
    rfl
  · obtain ⟨details, -, rfl⟩ := Option.map_eq_some_iff.mp hv
    rfl

/-- A status that can be merged into an old one of which only details may be left over. -/
structure Overwrites (new old : ModelStatus) : Prop where
  conditions : new.conditions.Writable
  nonempty : new.conditions.items ≠ []
  observedGeneration : Fits64 new.observedGeneration
  image : new.image ≠ none
  details : new.details = none → old.details = none

/-- A status is read from its members. -/
theorem read_obj {ms : Members} {s : ModelStatus} {r : Record} (hr : r = named "ModelStatus" 4 ms)
    (hconditions : r.defaulted 0 "conditions" ConditionSet.read {} = .ok s.conditions)
    (hgeneration :
      r.defaulted 1 "observedGeneration" Reader.int64 0 = .ok s.observedGeneration)
    (himage : r.nullable 2 "ollamaImage" Reader.text = .ok s.image)
    (hdetails : r.nullable 3 "modelDetails" RecordedDetails.read = .ok s.details) :
    read (.obj ms) = .ok s := by
  subst hr
  simp only [read, of_obj, Reading.ok_bind, hconditions, hgeneration, himage, hdetails]

/-- **A merged status.**  It is read as the new one, with details over the old ones. -/
theorem read_merged {target : Members} (hcanonical : (Json.obj target).isCanonical = true)
    {old : ModelStatus} (hold : read (.obj target) = .ok old) {new : ModelStatus}
    (h : new.Overwrites old) :
    read (Json.mergePatch new.toJson (.obj target)) =
      .ok (new.onto (.obj target)) := by
  obtain ⟨r₀, hr₀, hold⟩ := Reading.bind_ok hold
  cases hr₀
  obtain ⟨conditions, -, hold⟩ := Reading.bind_ok hold
  obtain ⟨observedGeneration, -, hold⟩ := Reading.bind_ok hold
  obtain ⟨image, -, hold⟩ := Reading.bind_ok hold
  obtain ⟨details, hdetails, hold⟩ := Reading.bind_ok hold
  cases hold
  have hw := mergeable_written new
  have htarget := Json.increasing_of_isCanonical hcanonical
  rw [toJson_eq, mergePatch_ofPresent]
  refine read_obj rfl ?_ ?_ ?_ ?_
  · exact ConditionSet.defaulted_merged hw htarget rfl h.nonempty h.conditions
  · refine (defaulted_mergeable hw htarget rfl).trans ?_
    simp only [Option.elim]
    exact Reader.within_int h.observedGeneration
  · -- the stamp always sets the image
    show _ = Except.ok new.image
    cases hnew : new.image with
    | none => exact absurd hnew h.image
    | some text =>
        have hlookup : (new.written.lookup "ollamaImage").join = some (.str text) :=
          congrArg (Option.map Json.str) hnew
        refine (defaulted_mergeable hw htarget hlookup).trans ?_
        simp only [Option.elim, Json.mergePatch]
        rfl
  · have hlookup : (new.written.lookup "modelDetails").join =
        new.details.map RecordedDetails.toJson := rfl
    refine (defaulted_mergeable hw htarget hlookup).trans ?_
    show _ = Except.ok (new.details.map (·.laidOver (namedDetails (.obj target))))
    -- a pass without details leaves the old ones, of which there are none then
    cases hnew : new.details with
    | none => exact hdetails.trans (congrArg Except.ok (h.details hnew))
    | some d =>
        simp only [Option.map_some, Option.elim, RecordedDetails.toJson_eq]
        exact read_mergedMember hcanonical hdetails (RecordedDetails.read_merged rfl rfl d)
          fun _ _ hms ha => RecordedDetails.read_merged hms ha d

end ModelStatus

end ModelOperator

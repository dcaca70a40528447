import ModelOperator.Proofs.Resource.ConditionWire
import ModelOperator.Resource.Prompt

/-!
# The status of a prompt on the wire

    A status is merged into the one that is stored.  An answer without a time keeps the
    time of an older one (`ResponseMeta.laidOver`); everything else is as it was written.

    * `PromptStatus.writable_of_read` says that a status that was read can be written;
    * `PromptStatus.read_merged` is what is read after the merge. -/

namespace ModelOperator

open Record

/-! ## Answers -/

namespace ResponseMeta

/-- New metadata merged over old ones: a time that is missing keeps its old value. -/
def laidOver (new old : ResponseMeta) : ResponseMeta := ⟨new.createdAt.or old.createdAt⟩

/-- The members of metadata as they are written. -/
def written (m : ResponseMeta) : List (String × Option Json) :=
  [("createdAt", m.createdAt.map fun t => .str (t.text .shortest))]

theorem toJson_eq (m : ResponseMeta) : m.toJson = .ofPresent m.written := rfl

theorem mergeable_written (m : ResponseMeta) : Mergeable m.written := by
  refine ⟨by simp [written], ?_⟩
  intro entry hentry v hv
  obtain rfl := List.mem_singleton.mp hentry
  obtain ⟨t, -, rfl⟩ := Option.map_eq_some_iff.mp hv
  rfl

/-- Metadata are read from their members. -/
theorem read_obj {ms : Members} {m : ResponseMeta} {r : Record}
    (hr : r = named "PromptResponseMeta" 1 ms)
    (hcreatedAt : r.nullable 0 "createdAt" Condition.readInstant = .ok m.createdAt) :
    read (.obj ms) = .ok m := by
  subst hr
  simp only [read, of_obj, Reading.ok_bind, hcreatedAt]

/-- **Merged metadata.**  They are read as the new over the old. -/
theorem read_merged {target : Members} (htarget : Members.increasing target = true)
    {old : ResponseMeta} (hold : read (.obj target) = .ok old) {new : ResponseMeta}
    (hnew : ∀ t, new.createdAt = some t → t.Valid) :
    read (Json.mergePatch new.toJson (.obj target)) = .ok (new.laidOver old) := by
  obtain ⟨r₀, hr₀, hold⟩ := Reading.bind_ok hold
  cases hr₀
  obtain ⟨createdAt, hcreatedAt, hold⟩ := Reading.bind_ok hold
  cases hold
  rw [toJson_eq, mergePatch_ofPresent]
  refine read_obj rfl ?_
  have hlookup : (new.written.lookup "createdAt").join =
      new.createdAt.map fun t => .str (t.text .shortest) := rfl
  refine (defaulted_mergeable (mergeable_written new) htarget hlookup).trans ?_
  show _ = Except.ok (new.createdAt.or createdAt)
  cases hcreated : new.createdAt with
  | none => exact hcreatedAt
  | some t =>
      simp only [Option.map_some, Option.elim, Json.mergePatch]
      show (Condition.readInstant (.str (t.text .shortest))).map some = _
      rw [Condition.readInstant_text (hnew t hcreated)]
      rfl

theorem valid_of_read {v : Json} {m : ResponseMeta} {t : Instant} (h : read v = .ok m)
    (ht : m.createdAt = some t) : t.Valid := by
  obtain ⟨r, -, h⟩ := Reading.bind_ok h
  obtain ⟨createdAt, hcreatedAt, h⟩ := Reading.bind_ok h
  cases h
  obtain ⟨w, hw⟩ := nullable_ok hcreatedAt ht
  exact Condition.valid_of_readInstant hw

end ResponseMeta

/-- Measurements that are read back as they are written. -/
structure ResponseMetrics.Writable (m : ResponseMetrics) : Prop where
  promptEvalCount : Fits64 m.promptEvalCount
  evalCount : Fits64 m.evalCount

namespace ResponseMetrics

/-- The members of measurements as they are written. -/
def written (m : ResponseMetrics) : List (String × Option Json) :=
  [("totalDuration", some (.str m.totalDuration)), ("loadDuration", some (.str m.loadDuration)),
    ("promptEvalCount", some (.int m.promptEvalCount)),
    ("promptEvalDuration", some (.str m.promptEvalDuration)),
    ("promptEvalRate", some (.str m.promptEvalRate)), ("evalCount", some (.int m.evalCount)),
    ("evalDuration", some (.str m.evalDuration)), ("evalRate", some (.str m.evalRate))]

theorem toJson_eq (m : ResponseMetrics) : m.toJson = .ofPresent m.written := rfl

theorem mergeable_written (m : ResponseMetrics) : Mergeable m.written := by
  refine ⟨by simp [written], ?_⟩
  intro entry hentry v hv
  simp only [written, List.mem_cons, List.not_mem_nil, or_false] at hentry
  rcases hentry with rfl | rfl | rfl | rfl | rfl | rfl | rfl | rfl <;> cases hv <;> rfl

/-- Measurements are read from their members. -/
theorem read_obj {ms : Members} {m : ResponseMetrics} {r : Record}
    (hr : r = named "PromptResponseMetrics" 8 ms)
    (htotalDuration : r.required 0 "totalDuration" Reader.text = .ok m.totalDuration)
    (hloadDuration : r.required 1 "loadDuration" Reader.text = .ok m.loadDuration)
    (hpromptEvalCount : r.required 2 "promptEvalCount" Reader.int64 = .ok m.promptEvalCount)
    (hpromptEvalDuration :
      r.required 3 "promptEvalDuration" Reader.text = .ok m.promptEvalDuration)
    (hpromptEvalRate : r.required 4 "promptEvalRate" Reader.text = .ok m.promptEvalRate)
    (hevalCount : r.required 5 "evalCount" Reader.int64 = .ok m.evalCount)
    (hevalDuration : r.required 6 "evalDuration" Reader.text = .ok m.evalDuration)
    (hevalRate : r.required 7 "evalRate" Reader.text = .ok m.evalRate) :
    read (.obj ms) = .ok m := by
  subst hr
  simp only [read, of_obj, Reading.ok_bind, htotalDuration, hloadDuration, hpromptEvalCount,
    hpromptEvalDuration, hpromptEvalRate, hevalCount, hevalDuration, hevalRate]

/-- **Merged measurements.**  They are written as a whole, so nothing old is left over. -/
theorem read_merged {target : Members} (htarget : Members.increasing target = true)
    {m : ResponseMetrics} (h : m.Writable) :
    read (Json.mergePatch m.toJson (.obj target)) = .ok m := by
  have hw := mergeable_written m
  let merged := Json.mergeMembers (Members.ofList (present m.written)) target
  have htext : ∀ {place key s}, (m.written.lookup key).join = some (.str s) →
      (named "PromptResponseMetrics" 8 merged).required place key Reader.text = .ok s := by
    intro place key s hs
    refine (required_mergeable hw htarget hs).trans ?_
    simp only [Json.mergePatch, Reader.text]
  have hcount : ∀ {place key n}, Fits64 n → (m.written.lookup key).join = some (.int n) →
      (named "PromptResponseMetrics" 8 merged).required place key Reader.int64 = .ok n := by
    intro place key n hn hs
    refine (required_mergeable hw htarget hs).trans ?_
    simp only [Json.mergePatch]
    exact Reader.within_int hn
  rw [toJson_eq, mergePatch_ofPresent]
  refine read_obj rfl ?_ ?_ ?_ ?_ ?_ ?_ ?_ ?_
  · exact htext rfl
  · exact htext rfl
  · exact hcount h.promptEvalCount rfl
  · exact htext rfl
  · exact htext rfl
  · exact hcount h.evalCount rfl
  · exact htext rfl
  · exact htext rfl

theorem writable_of_read {v : Json} {m : ResponseMetrics} (h : read v = .ok m) : m.Writable := by
  obtain ⟨r, -, h⟩ := Reading.bind_ok h
  obtain ⟨totalDuration, -, h⟩ := Reading.bind_ok h
  obtain ⟨loadDuration, -, h⟩ := Reading.bind_ok h
  obtain ⟨promptEvalCount, hprompt, h⟩ := Reading.bind_ok h
  obtain ⟨promptEvalDuration, -, h⟩ := Reading.bind_ok h
  obtain ⟨promptEvalRate, -, h⟩ := Reading.bind_ok h
  obtain ⟨evalCount, heval, h⟩ := Reading.bind_ok h
  obtain ⟨evalDuration, -, h⟩ := Reading.bind_ok h
  obtain ⟨evalRate, -, h⟩ := Reading.bind_ok h
  cases h
  obtain ⟨w, hw⟩ := required_ok hprompt
  obtain ⟨w', hw'⟩ := required_ok heval
  exact ⟨(Reader.within_ok hw).2, (Reader.within_ok hw').2⟩

end ResponseMetrics

/-! ## Statuses -/

namespace PromptStatus

/-- What is read of a status can be written again. -/
structure Writable (s : PromptStatus) : Prop where
  conditions : s.conditions.Writable
  createdAt : ∀ m t, s.responseMeta = some m → m.createdAt = some t → t.Valid
  counts : ∀ m, s.metrics = some m → m.Writable

theorem writable_of_read {v : Json} {s : PromptStatus} (h : read v = .ok s) : s.Writable := by
  obtain ⟨r, -, h⟩ := Reading.bind_ok h
  obtain ⟨conditions, hconditions, h⟩ := Reading.bind_ok h
  obtain ⟨observedGeneration, -, h⟩ := Reading.bind_ok h
  obtain ⟨response, -, h⟩ := Reading.bind_ok h
  obtain ⟨context, -, h⟩ := Reading.bind_ok h
  obtain ⟨responseMeta, hmeta, h⟩ := Reading.bind_ok h
  obtain ⟨metrics, hmetrics, h⟩ := Reading.bind_ok h
  cases h
  refine ⟨ConditionSet.writable_of_defaulted hconditions, ?_, ?_⟩
  · intro m t hm ht
    obtain ⟨w, hw⟩ := nullable_ok hmeta hm
    exact ResponseMeta.valid_of_read hw ht
  · intro m hm
    obtain ⟨w, hw⟩ := nullable_ok hmetrics hm
    exact ResponseMetrics.writable_of_read hw

/-- The metadata of the answer that a stored status holds by name. -/
def namedMeta (status : Json) : ResponseMeta :=
  (namedMember? ResponseMeta.read "meta" status).getD {}

/-- The status that a stored one reads as once this one is merged into it. -/
def onto (s : PromptStatus) (stored : Json) : PromptStatus :=
  { s with responseMeta := s.responseMeta.map (·.laidOver (namedMeta stored)) }

/-- It is this one exactly if no time is stored for an answer that has none now. -/
theorem onto_eq_iff (s : PromptStatus) (stored : Json) :
    s.onto stored = s ↔
      ∀ a, s.responseMeta = some a → a.createdAt = none → (namedMeta stored).createdAt = none := by
  obtain ⟨conditions, observedGeneration, response, context, responseMeta, metrics⟩ := s
  rw [onto]
  cases responseMeta with
  | none => simp
  | some a =>
      obtain ⟨createdAt⟩ := a
      cases createdAt with
      | none => simp [ResponseMeta.laidOver]
      | some t => simp [ResponseMeta.laidOver]

/-- The members of a status as they are written. -/
def written (s : PromptStatus) : List (String × Option Json) :=
  [("conditions", if s.conditions.items.isEmpty then none else some s.conditions.toJson),
    ("observedGeneration", some (.int s.observedGeneration)),
    ("response", unlessEmpty s.response), ("context", unlessEmpty s.context),
    ("meta", s.responseMeta.map ResponseMeta.toJson),
    ("metrics", s.metrics.map ResponseMetrics.toJson)]

theorem toJson_eq (s : PromptStatus) : s.toJson = .ofPresent s.written := rfl

theorem mergeable_written (s : PromptStatus) : Mergeable s.written := by
  refine ⟨by simp [written], ?_⟩
  intro entry hentry v hv
  simp only [written, List.mem_cons, List.not_mem_nil, or_false] at hentry
  rcases hentry with rfl | rfl | rfl | rfl | rfl | rfl
  · simp only at hv
    split at hv
    · cases hv
    · cases hv
      rfl
  · cases hv
    rfl
  · exact isNull_of_unlessEmpty hv
  · exact isNull_of_unlessEmpty hv
  · obtain ⟨m, -, rfl⟩ := Option.map_eq_some_iff.mp hv
    rfl
  · obtain ⟨m, -, rfl⟩ := Option.map_eq_some_iff.mp hv
    rfl

/-- A status that can be merged into an old one of which only the time of the answer may
    be left over. -/
structure Overwrites (new old : PromptStatus) : Prop where
  conditions : new.conditions.Writable
  nonempty : new.conditions.items ≠ []
  observedGeneration : Fits64 new.observedGeneration
  response : new.response = "" → old.response = ""
  context : new.context = "" → old.context = ""
  responseMeta : new.responseMeta = none → old.responseMeta = none
  createdAt : ∀ m t, new.responseMeta = some m → m.createdAt = some t → t.Valid
  metrics : new.metrics = none → old.metrics = none
  counts : ∀ m, new.metrics = some m → m.Writable

/-- A status is read from its members. -/
theorem read_obj {ms : Members} {s : PromptStatus} {r : Record}
    (hr : r = named "PromptStatus" 6 ms)
    (hconditions : r.defaulted 0 "conditions" ConditionSet.read {} = .ok s.conditions)
    (hgeneration :
      r.defaulted 1 "observedGeneration" Reader.int64 0 = .ok s.observedGeneration)
    (hresponse : r.defaulted 2 "response" Reader.text "" = .ok s.response)
    (hcontext : r.defaulted 3 "context" Reader.text "" = .ok s.context)
    (hmeta : r.nullable 4 "meta" ResponseMeta.read = .ok s.responseMeta)
    (hmetrics : r.nullable 5 "metrics" ResponseMetrics.read = .ok s.metrics) :
    read (.obj ms) = .ok s := by
  subst hr
  simp only [read, of_obj, Reading.ok_bind, hconditions, hgeneration, hresponse, hcontext, hmeta,
    hmetrics]

/-- **A merged status.**  It is read as the new one, with the metadata of the answer over
    the old ones. -/
theorem read_merged {target : Members} (hcanonical : (Json.obj target).isCanonical = true)
    {old : PromptStatus} (hold : read (.obj target) = .ok old) {new : PromptStatus}
    (h : new.Overwrites old) :
    read (Json.mergePatch new.toJson (.obj target)) =
      .ok (new.onto (.obj target)) := by
  obtain ⟨r₀, hr₀, hold⟩ := Reading.bind_ok hold
  cases hr₀
  obtain ⟨conditions, -, hold⟩ := Reading.bind_ok hold
  obtain ⟨observedGeneration, -, hold⟩ := Reading.bind_ok hold
  obtain ⟨response, hresponse, hold⟩ := Reading.bind_ok hold
  obtain ⟨context, hcontext, hold⟩ := Reading.bind_ok hold
  obtain ⟨responseMeta, hmeta, hold⟩ := Reading.bind_ok hold
  obtain ⟨metrics, hmetrics, hold⟩ := Reading.bind_ok hold
  cases hold
  have hw := mergeable_written new
  have htarget := Json.increasing_of_isCanonical hcanonical
  -- a text that is left out was empty before, so nothing old shows through
  have htext : ∀ {s old : String}, (s = "" → old = "") → (if s = "" then old else s) = s := by
    intro s old hs
    by_cases hempty : s = ""
    · rw [if_pos hempty, hs hempty, hempty]
    · rw [if_neg hempty]
  rw [toJson_eq, mergePatch_ofPresent]
  refine read_obj rfl ?_ ?_ ?_ ?_ ?_ ?_
  · exact ConditionSet.defaulted_merged hw htarget rfl h.nonempty h.conditions
  · refine (defaulted_mergeable hw htarget rfl).trans ?_
    simp only [Option.elim]
    exact Reader.within_int h.observedGeneration
  · exact (defaulted_unlessEmpty_merged hw htarget rfl hresponse).trans
      (congrArg Except.ok (htext h.response))
  · exact (defaulted_unlessEmpty_merged hw htarget rfl hcontext).trans
      (congrArg Except.ok (htext h.context))
  · have hlookup : (new.written.lookup "meta").join =
        new.responseMeta.map ResponseMeta.toJson := rfl
    refine (defaulted_mergeable hw htarget hlookup).trans ?_
    show _ = Except.ok (new.responseMeta.map (·.laidOver (namedMeta (.obj target))))
    cases hnew : new.responseMeta with
    | none => exact hmeta.trans (congrArg Except.ok (h.responseMeta hnew))
    | some m =>
        have hvalid := fun t => h.createdAt m t hnew
        simp only [Option.map_some, Option.elim, ResponseMeta.toJson_eq]
        exact read_mergedMember hcanonical hmeta (ResponseMeta.read_merged rfl rfl hvalid)
          fun _ _ hms ha => ResponseMeta.read_merged hms ha hvalid
  · -- measurements replace each other as a whole
    have hlookup : (new.written.lookup "metrics").join =
        new.metrics.map ResponseMetrics.toJson := rfl
    refine (defaulted_mergeable hw htarget hlookup).trans ?_
    show _ = Except.ok new.metrics
    cases hnew : new.metrics with
    | none => exact hmetrics.trans (congrArg Except.ok (h.metrics hnew))
    | some m =>
        have hcounts := h.counts m hnew
        simp only [Option.map_some, Option.elim, ResponseMetrics.toJson_eq]
        exact read_mergedMember hcanonical hmetrics (f := fun _ => m) (e := m)
          (ResponseMetrics.read_merged rfl hcounts)
          fun _ _ hms _ => ResponseMetrics.read_merged hms hcounts

end PromptStatus

end ModelOperator

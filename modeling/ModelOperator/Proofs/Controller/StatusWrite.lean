import ModelOperator.Cluster.Access
import ModelOperator.Proofs.Controller.ModelRun
import ModelOperator.Proofs.Controller.PromptRun
import ModelOperator.Proofs.Resource.ModelWire
import ModelOperator.Proofs.Resource.PromptWire

/-!
# What a status write leaves behind

    A pass sends its status as a merge patch, and the server merges it into the object that
    it stores.  A merge takes nothing out that the patch leaves out, and the written form
    of a status leaves out what is empty.  So the stored status is not always the one that
    the pass computed: details of a model that are empty now, and the time of an answer
    that is missing now, stay as they were (`status_after_write`).

    All else is as computed, because a pass never empties anything else that was set
    (`Model.overwrites_of_written`, `Prompt.overwrites_of_written`). -/

namespace ModelOperator

open Pass

/-! ## What a pass may write -/

section Resource

variable {ρ σ κ ε : Type}

/-- What a pass makes of a resource before it stamps the status: the metadata are the same, and
    the conditions can be written. -/
structure Conditioned.Prepared (k : Conditioned ρ σ) (r left : ρ) : Prop where
  metadata : k.metadata left = k.metadata r
  conditions : (k.conditions (k.statusOrEmpty left)).Writable

/-- A condition of a valid time may be set. -/
theorem Conditioned.Prepared.setConditions {k : Conditioned ρ σ} {r left : ρ}
    (hgeneration : Fits64 (k.metadata r).generation) (h : k.Prepared r left) {c : Condition}
    (hc : c.since.Valid) : k.Prepared r (k.setConditions left [c]) := by
  refine ⟨(k.metadata_setConditions left [c]).trans h.metadata, ?_⟩
  rw [k.conditions_setConditions, h.metadata]
  exact ConditionSet.writable_set_singleton h.conditions ⟨hc, hgeneration⟩

/-- The stamp makes a status that can be written, with conditions and its generation. -/
theorem Controller.writable_stamped {c : Controller ρ σ κ ε} {r left : ρ} {now : Instant}
    (hgeneration : Fits64 (c.metadata r).generation) (h : c.Prepared r left) (hnow : now.Valid)
    (outcome : Except ε Action) :
    (c.conditions (c.statusOrEmpty (c.stamped now left outcome))).Writable ∧
      (c.conditions (c.statusOrEmpty (c.stamped now left outcome))).items ≠ [] ∧
      Fits64 (c.generation (c.statusOrEmpty (c.stamped now left outcome))) := by
  have hsince : (Condition.ofOutcome now c.message outcome).since.Valid := by
    rw [Condition.since_ofOutcome]
    exact hnow
  rw [c.conditions_stamped, c.generation_stamped, h.metadata]
  exact ⟨ConditionSet.writable_set_singleton h.conditions ⟨hsince, hgeneration⟩,
    ConditionSet.set_singleton_ne_nil _ _, hgeneration⟩

variable {α : Type} {kind : String} {spec : Reader α} {readStatus : Reader σ}
variable {make : Metadata → α → Option σ → ρ} {doc : Json} {r : ρ}

/-- A resource is read from metadata with a generation of 64 bits, and with a status that was
    read, if any. -/
theorem readResource_ok (h : readResource kind spec readStatus make doc = .ok r) :
    ∃ metadata a status, r = make metadata a status ∧ Fits64 metadata.generation ∧
      ∀ s, status = some s → ∃ v, readStatus v = .ok s := by
  obtain ⟨record, -, h⟩ := Reading.bind_ok h
  obtain ⟨metadata, hmetadata, h⟩ := Reading.bind_ok h
  obtain ⟨a, -, h⟩ := Reading.bind_ok h
  obtain ⟨status, hstatus, h⟩ := Reading.bind_ok h
  cases h
  obtain ⟨v, hv⟩ := Record.required_ok hmetadata
  exact ⟨metadata, a, status, rfl, Metadata.generation_of_read hv,
    fun s hs => Record.positional_ok hstatus hs⟩

/-- A status that a stored resource holds by name is the one that is read. -/
theorem readResource_object (hcanonical : doc.isCanonical = true)
    (h : readResource kind spec readStatus make doc = .ok r) {sub : Members}
    (hget : doc.get? "status" = some (.obj sub)) :
    ∃ metadata a s, r = make metadata a (some s) ∧ readStatus (.obj sub) = .ok s ∧
      (Json.obj sub).isCanonical = true := by
  obtain ⟨record, hrecord, h⟩ := Reading.bind_ok h
  obtain ⟨metadata, -, h⟩ := Reading.bind_ok h
  obtain ⟨a, -, h⟩ := Reading.bind_ok h
  obtain ⟨status, hstatus, h⟩ := Reading.bind_ok h
  cases h
  obtain ⟨s, hs, rfl, hsub⟩ := Record.positional_object hcanonical hrecord hget hstatus
  exact ⟨metadata, a, s, rfl, hs, hsub⟩

end Resource

namespace Model

/-- What a pass makes of a model before it stamps the status; it does not take the details
    away. -/
structure Prepared (m m' : Model) : Prop extends conditioned.Prepared m m' where
  details : m'.statusOrEmpty.details = none → m.statusOrEmpty.details = none

variable {now : Instant} {w : ModelWorld} {m : Model}

/-- **The body of a pass** only sets conditions and records details. -/
theorem body_preserves {P : Model → Prop}
    (hset : ∀ m' c, c.since = now → P m' → P (m'.setConditions [c]))
    (hdetails : ∀ m' d, P m' →
      P { m' with status := some { m'.statusOrEmpty with details := some d } }) :
    Preserves P (body now w m) := by
  -- part by part, beginning with those that a pass comes to last
  have hcondition : ∀ c : Condition, c.since = now → Preserves P (setCondition c) :=
    fun c hc => .update fun m' => hset m' c hc
  have hrecord : ∀ id, Preserves P (recordAvailable now w id) := by
    intro id
    refine .bind (.call _ _) fun found => ?_
    cases found with
    | error e => exact .bind (hcondition _ rfl) fun _ => .throw _
    | ok reply =>
        exact .bind (.update fun m' => hdetails m' _) fun _ =>
          .bind (hcondition _ rfl) fun _ => .pure _
  have hfetch : ∀ id, Preserves P (fetch now w id) := by
    intro id
    refine .bind .resource fun m' => ?_
    split
    · exact .bind (hcondition _ rfl) fun _ => .pure _
    · refine .bind (.publish _) fun _ => .bind (.call _ _) fun pulled => ?_
      cases pulled with
      | error e => exact .bind (.publish _) fun _ => .throw _
      | ok last =>
          show Preserves P (if last.isSuccess then recordAvailable now w id else _)
          split
          · exact hrecord id
          · exact .bind (.publish _) fun _ => .bind (hcondition _ rfl) fun _ => .pure _
  have hserve : Preserves P (serve now w m) := by
    refine .bind (.call _ _) fun _ => .bind (.call _ _) fun listed => ?_
    cases listed with
    | error e => exact .throw _
    | ok present =>
        show Preserves P (if present.contains m.spec.model then recordAvailable now w m.spec.model
          else fetch now w m.spec.model)
        split
        · exact hrecord _
        · exact hfetch _
  have hawait : ∀ found, Preserves P (await now w m found) := by
    intro found
    cases found with
    | none => exact .bind (hcondition _ rfl) fun _ => .pure _
    | some doc =>
        simp only [await]
        split
        · exact .bind (hcondition _ rfl) fun _ => .throw _
        · split
          · exact hserve
          · exact .bind (hcondition _ rfl) fun _ => .pure _
  have hor : ∀ {α : Type} (x : Except ClusterError α), Preserves P (orClusterError x) := by
    intro α x
    cases x with
    | ok a => exact .pure _
    | error e => exact .throw _
  rw [body]
  split
  · exact .throw _
  · split
    · exact .throw _
    · exact .bind (.call _ _) fun _ => .bind (hor _) fun _ => .bind (.call _ _) fun _ =>
        .bind (hor _) fun _ => .bind (.call _ _) fun _ => .bind (hor _) fun found => hawait found

/-- A model that was read has a generation and conditions that can be written again. -/
theorem prepared_of_read {doc : Json} (hread : read doc = .ok m) :
    Fits64 m.metadata.generation ∧ m.Prepared m := by
  obtain ⟨metadata, spec, status, rfl, hgeneration, hstatus⟩ := readResource_ok hread
  refine ⟨hgeneration, ⟨rfl, ?_⟩, id⟩
  cases status with
  | none => exact List.forall_mem_nil _
  | some s =>
      obtain ⟨v, hv⟩ := hstatus s rfl
      exact ModelStatus.writable_of_read hv

/-- **What a pass writes over a model** overwrites the stored status, but for details that
    are empty now. -/
theorem overwrites_of_written {doc : Json} (hread : read doc = .ok m) (hnow : now.Valid)
    {s : ModelStatus} (hs : (m.reconcile now w).written = some s) :
    s.Overwrites m.statusOrEmpty := by
  obtain ⟨hgeneration, hprepared⟩ := prepared_of_read hread
  -- every step of the body keeps the model prepared, and the stamp does the rest
  refine controller.written_of_preserves now (P := m.Prepared)
    (Q := fun s => s.Overwrites m.statusOrEmpty) (body_preserves ?_ ?_) hprepared ?_ hs
  · exact fun m' c hc h => ⟨h.setConditions hgeneration (hc ▸ hnow), h.details⟩
  · exact fun m' d h => ⟨⟨h.metadata, h.conditions⟩, nofun⟩
  · intro left outcome h
    obtain ⟨hconditions, hnonempty, hobserved⟩ :=
      controller.writable_stamped hgeneration h.toPrepared hnow outcome
    exact ⟨hconditions, hnonempty, hobserved, Option.some_ne_none _, h.details⟩

end Model

/-- A reply that was read has a valid time, if any. -/
theorem Inference.GenerateReply.valid_of_read {v : Json} {reply : GenerateReply} {t : Instant}
    (h : read v = .ok reply) (ht : reply.createdAt = some t) : t.Valid := by
  obtain ⟨r, -, h⟩ := Reading.bind_ok h
  obtain ⟨model, -, h⟩ := Reading.bind_ok h
  obtain ⟨createdAt, hcreatedAt, h⟩ := Reading.bind_ok h
  -- the ten members behind the time do not change it
  obtain ⟨response, -, h⟩ := Reading.bind_ok h
  obtain ⟨done, -, h⟩ := Reading.bind_ok h
  obtain ⟨doneReason, -, h⟩ := Reading.bind_ok h
  obtain ⟨context, -, h⟩ := Reading.bind_ok h
  obtain ⟨totalDuration, -, h⟩ := Reading.bind_ok h
  obtain ⟨loadDuration, -, h⟩ := Reading.bind_ok h
  obtain ⟨promptEvalCount, -, h⟩ := Reading.bind_ok h
  obtain ⟨promptEvalDuration, -, h⟩ := Reading.bind_ok h
  obtain ⟨evalCount, -, h⟩ := Reading.bind_ok h
  obtain ⟨evalDuration, -, h⟩ := Reading.bind_ok h
  cases h
  obtain ⟨w, hw⟩ := Record.nullable_ok hcreatedAt ht
  exact Condition.valid_of_readInstant hw

/-- The token of a conversation is never empty. -/
theorem Conversation.encode_ne_empty (context : List Int) : encode context ≠ "" := by
  have hbytes : utf8Bytes (Json.arr (context.map .int)).compact ≠ [] := by
    rw [utf8Bytes, Json.compact]
    rw [String.toList_ofList]
    cases context <;> exact List.cons_ne_nil _ _
  have hsymbols : ∀ bytes, bytes ≠ [] → Base64.encode bytes ≠ [] := by
    intro bytes hne
    rcases bytes with _ | ⟨a, _ | ⟨b, _ | ⟨c, rest⟩⟩⟩
    · exact absurd rfl hne
    · exact List.cons_ne_nil _ _
    · exact List.cons_ne_nil _ _
    · exact List.cons_ne_nil _ _
  intro hempty
  have hchars := congrArg String.toList hempty
  rw [encode, Base64.encodeText] at hchars
  rw [String.toList_ofList] at hchars
  exact hsymbols _ hbytes (List.map_eq_nil_iff.mp hchars)

namespace Prompt

/-- What a pass makes of a prompt before it stamps the status: what there is of an answer can be
    written, and nothing of it is taken away. -/
structure Prepared (p p' : Prompt) : Prop extends conditioned.Prepared p p' where
  createdAt : ∀ m t, p'.statusOrEmpty.responseMeta = some m → m.createdAt = some t → t.Valid
  counts : ∀ m, p'.statusOrEmpty.metrics = some m → m.Writable
  context : p'.statusOrEmpty.context = "" → p.statusOrEmpty.context = ""
  responseMeta : p'.statusOrEmpty.responseMeta = none → p.statusOrEmpty.responseMeta = none
  metrics : p'.statusOrEmpty.metrics = none → p.statusOrEmpty.metrics = none

variable {now : Instant} {w : PromptWorld} {p : Prompt}

/-- A reply of a valid time may be recorded. -/
theorem Prepared.record {p' : Prompt} (h : p.Prepared p') {reply : Inference.GenerateReply}
    (hreply : ∀ t, reply.createdAt = some t → t.Valid) :
    p.Prepared { p' with status := some (p'.statusOrEmpty.record reply) } where
  metadata := h.metadata
  conditions := h.conditions
  createdAt := by
    intro m t hm ht
    cases hm
    exact hreply t ht
  counts := by
    intro m hm
    cases hm
    have hcount : ∀ n : Nat, Fits64 (min n largestCount : Nat) := by
      intro n
      rw [Fits64, largestCount]
      omega
    exact ⟨hcount _, hcount _⟩
  context := fun hempty => absurd hempty (Conversation.encode_ne_empty _)
  responseMeta := by rintro ⟨⟩
  metrics := by rintro ⟨⟩

/-- **The body of a pass** only sets conditions and records the reply. -/
theorem body_preserves {P : Prompt → Prop}
    (hset : ∀ p' c, c.since = now → P p' → P (p'.setConditions [c]))
    (hrecord : ∀ p' reply, w.generate = .ok reply → P p' →
      P { p' with status := some (p'.statusOrEmpty.record reply) }) :
    Preserves P (body now w p) := by
  have hcondition : ∀ c : Condition, c.since = now → Preserves P (setCondition c) :=
    fun c hc => .update fun p' => hset p' c hc
  have hor : ∀ {ε α : Type} (wrap : ε → PromptError) (x : Except ε α),
      Preserves P (orError wrap x) := fun wrap x => .of_onlyCalls (onlyCalls_orError wrap x)
  have hgiven : ∀ {ε α β : Type} (wrap : ε → PromptError) (x : Except ε α) (f : α → Step β),
      (∀ a, x = .ok a → Preserves P (f a)) → Preserves P (orError wrap x >>= f) := by
    intro ε α β wrap x f hf
    cases x with
    | ok a => exact hf a rfl
    | error e => exact .throw _
  have hask : ∀ ns m, Preserves P (ask now w p ns m) := by
    intro ns m
    refine .bind (hor _ _) fun options => .bind (.of_onlyCalls (onlyCalls_requestImages _ _ _ _))
      fun images => .bind (hor _ _) fun context => .bind (.call _ _) fun _ => .call_bind ?_
    refine hgiven _ _ _ fun reply hgenerate => .bind (.bind ?_ fun _ => hcondition _ rfl)
      fun _ => .bind (.publish _) fun _ => .pure _
    exact .update fun p' => hrecord p' reply hgenerate
  have hannounced : ∀ ns m, Preserves P (askAnnounced now w p ns m) := by
    intro ns m
    rw [askAnnounced]
    split
    · exact hask ns m
    · exact .bind (hcondition _ rfl) fun _ => .pure _
  rw [body]
  split
  · exact .throw _
  · refine .bind (.call _ _) fun _ => .bind (hor _ _) fun found => ?_
    cases found with
    | none => exact .bind (hcondition _ rfl) fun _ => .pure _
    | some m =>
        show Preserves P (if m.isSyncedAndReady then _ else _)
        split
        · exact hannounced _ _
        · exact .bind (hcondition _ rfl) fun _ => .pure _

/-- A prompt that was read has a generation and a status that can be written again. -/
theorem prepared_of_read {doc : Json} (hread : read doc = .ok p) :
    Fits64 p.metadata.generation ∧ p.Prepared p := by
  obtain ⟨metadata, spec, status, rfl, hgeneration, hstatus⟩ := readResource_ok hread
  have hwritable : (Prompt.mk metadata spec status).statusOrEmpty.Writable := by
    cases status with
    | none => exact ⟨List.forall_mem_nil _, nofun, nofun⟩
    | some s =>
        obtain ⟨v, hv⟩ := hstatus s rfl
        exact PromptStatus.writable_of_read hv
  exact ⟨hgeneration, ⟨rfl, hwritable.conditions⟩, hwritable.createdAt, hwritable.counts, id, id,
    id⟩

/-- **What a pass writes over a prompt** overwrites the stored status, but for a time of the
    answer that is missing now. -/
theorem overwrites_of_written {doc : Json} (hread : read doc = .ok p) (hnow : now.Valid)
    (hreply : ∀ reply t, w.generate = .ok reply → reply.createdAt = some t → t.Valid)
    {s : PromptStatus} (hs : (p.reconcile now w).written = some s) :
    s.Overwrites p.statusOrEmpty := by
  obtain ⟨hgeneration, hprepared⟩ := prepared_of_read hread
  -- a prompt with an answer is left alone, so nothing would be written
  have hunanswered : p.statusOrEmpty.response = "" := by
    refine Decidable.byContradiction fun hne => ?_
    rw [reconcile_answered now w hne] at hs
    cases hs
  rw [reconcile_unanswered now w hunanswered] at hs
  refine controller.written_of_preserves now (P := p.Prepared)
    (Q := fun s => s.Overwrites p.statusOrEmpty) (body_preserves ?_ ?_) hprepared ?_ hs
  · exact fun p' c hc h => { h with toPrepared := h.setConditions hgeneration (hc ▸ hnow) }
  · exact fun p' reply hgenerate h => h.record fun t ht => hreply reply t hgenerate ht
  · intro left outcome h
    obtain ⟨hconditions, hnonempty, hobserved⟩ :=
      controller.writable_stamped hgeneration h.toPrepared hnow outcome
    exact {
      conditions := hconditions
      nonempty := hnonempty
      observedGeneration := hobserved
      response := fun _ => hunanswered
      context := h.context
      responseMeta := h.responseMeta
      createdAt := h.createdAt
      metrics := h.metrics
      counts := h.counts }

end Prompt

/-! ## What the server makes of it -/

/-- The document that a server stores once it has merged the body of a request into the one
    it stored before. -/
def ClusterRequest.mergedInto (r : ClusterRequest) (doc : Json) : Json :=
  match r.body with
  | some patch => Json.mergePatch patch doc
  | none => doc

/-- The status of a stored document. -/
def storedStatus (doc : Json) : Json := (doc.get? "status").getD .null

namespace Access

theorem body_of_patchRequest {c : Collection} {name part : String} {type : PatchType}
    {options : PatchOptions} {body : Json} {request : ClusterRequest}
    (h : c.patchRequest name part type options body = .ok request) : request.body = some body := by
  rw [Collection.patchRequest, Collection.buildNamed] at h
  split at h
  · cases h
  · rw [Collection.build] at h
    split at h
    · cases h
      rfl
    · cases h

/-- A call whose outcome alone is kept asks what the call asks. -/
theorem of_outcome_call {α : Type} {x : Except CallError ClusterRequest} {decoder : Decoder α}
    {request : ClusterRequest} {next : Delivery → Exchange (Except ClusterError Unit)}
    (h : outcome (Exchange.call x decoder) = .ask request next) : x = .ok request := by
  cases x with
  | error e => cases h
  | ok r =>
      cases h
      rfl

/-- The request that writes a status carries its patch. -/
theorem body_of_patchStatus {α : Type} {kind : ObjectKind} {noun manager : String}
    {decoder : Decoder α} {metadata : Metadata} {status : Option Json} {request : ClusterRequest}
    {next : Delivery → Exchange (Except ClusterError Unit)}
    (h : patchStatus kind noun manager decoder metadata status = .ask request next) :
    request.body = some (statusPatch metadata status) := by
  rw [patchStatus] at h
  split at h
  · cases h
  · exact body_of_patchRequest (of_outcome_call h)

/-- With a namespace, a name and an address, the write of a status is a request. -/
theorem exists_ask_of_patchStatus {α : Type} {kind : ObjectKind} {noun manager : String}
    {decoder : Decoder α} {metadata : Metadata} {status : Option Json} {ns : String}
    (hns : metadata.namespace? = some ns) (hname : metadata.nameAny ≠ "")
    (haddress : (Address.ofText ((kind.within ns).path ++ "/" ++ metadata.nameAny ++
      ("/status" ++ (⟨some manager, false⟩ : PatchOptions).query))).toOption.isSome = true) :
    ∃ request next, patchStatus kind noun manager decoder metadata status = .ask request next := by
  simp only [patchStatus, Collection.patchRequest, Collection.buildNamed, Collection.build]
  rw [hns]
  simp only [if_neg hname]
  cases hresult : Address.ofText ((kind.within ns).path ++ "/" ++ metadata.nameAny ++
      ("/status" ++ (⟨some manager, false⟩ : PatchOptions).query)) with
  | error fault =>
      rw [hresult] at haddress
      cases haddress
  | ok uri => exact ⟨_, _, rfl⟩

end Access

/-- The status after the write is the old one with the new one merged in. -/
theorem get?_status_mergedInto {request : ClusterRequest} {metadata : Metadata} {v : Json}
    (hv : v.isNull = false) (hbody : request.body = some (Access.statusPatch metadata (some v)))
    (doc : Json) :
    (request.mergedInto doc).get? "status" = some (Json.mergePatch v (storedStatus doc)) := by
  let entries : List (String × Option Json) := [("metadata", some (.ofMembers
    [("resourceVersion", Json.ofText? metadata.resourceVersion?)])), ("status", some v)]
  -- neither member of the patch is null, so it takes nothing out
  have hpatch : Access.statusPatch metadata (some v) = .obj (Members.ofList (present entries)) :=
    rfl
  have hkeeps : Json.KeepsAll (Members.ofList (present entries)) := by
    refine Json.keepsAll_ofPresent ?_
    intro entry hentry w hw
    simp only [entries, List.mem_cons, List.not_mem_nil, or_false] at hentry
    rcases hentry with rfl | rfl
    · cases hw
      rfl
    · cases hw
      exact hv
  have hget : Members.get? "status" (Members.ofList (present entries)) = some v :=
    Members.get?_ofPresent (by simp [entries]) "status"
  have hmerged : ∀ ms, Members.get? "status"
      (Json.mergeMembers (Members.ofList (present entries)) ms) =
        some (Json.mergePatch v ((Members.get? "status" ms).getD .null)) := by
    intro ms
    rw [Json.get?_mergeMembers (Members.increasing_ofList _) hkeeps, hget]
  rw [ClusterRequest.mergedInto, storedStatus]
  rw [hbody, hpatch]
  cases doc with
  | obj ms =>
      simp only [Json.mergePatch]
      exact hmerged ms
  | _ =>
      simp only [Json.mergePatch]
      exact hmerged []

/-- A status that is merged into the one of a stored resource goes over the members of that, and
    over none where the stored one is missing or no object. -/
theorem read_mergedInto_storedStatus {α ρ σ : Type} {kind : String} {spec : Reader α}
    {readStatus : Reader σ} {make : Metadata → α → Option σ → ρ} {doc : Json} {r : ρ}
    (hcanonical : doc.isCanonical = true)
    (hread : readResource kind spec readStatus make doc = .ok r)
    {entries : List (String × Option Json)} {onto : Json → σ}
    (hother : ∀ v : Json, v.isObject = false → onto v = onto (.obj []))
    (hempty : readStatus (Json.mergePatch (.ofPresent entries) (.obj [])) = .ok (onto (.obj [])))
    (hstored : ∀ sub metadata a s, (Json.obj sub).isCanonical = true →
      readStatus (.obj sub) = .ok s → r = make metadata a (some s) →
      readStatus (Json.mergePatch (.ofPresent entries) (.obj sub)) = .ok (onto (.obj sub))) :
    readStatus (Json.mergePatch (.ofPresent entries) (storedStatus doc)) =
      .ok (onto (storedStatus doc)) := by
  -- what is no object counts as an empty one, on both sides
  have hreplaced : ∀ v : Json, v.isObject = false →
      readStatus (Json.mergePatch (.ofPresent entries) v) = .ok (onto v) := by
    intro v hv
    rw [hother v hv]
    exact (congrArg readStatus (Json.mergePatch_of_not_object _ hv)).trans hempty
  rw [storedStatus]
  cases hget : doc.get? "status" with
  | none => exact hreplaced .null rfl
  | some v =>
      cases v with
      | obj sub =>
          obtain ⟨metadata, a, s, hr, hold, hsub⟩ := readResource_object hcanonical hread hget
          exact hstored sub metadata a s hsub hold hr
      | _ => exact hreplaced _ rfl

/-- A new status merged into the one of a stored model. -/
theorem Model.read_mergedStatus {doc : Json} {m : Model} (hcanonical : doc.isCanonical = true)
    (hread : read doc = .ok m) {s : ModelStatus} (hs : s.Overwrites m.statusOrEmpty) :
    ModelStatus.read (Json.mergePatch s.toJson (storedStatus doc)) =
      .ok (s.onto (storedStatus doc)) := by
  refine read_mergedInto_storedStatus hcanonical hread ?_ ?_ ?_
  · intro v hv
    cases v with
    | obj members => cases hv
    | _ => rfl
  · exact ModelStatus.read_merged rfl rfl ⟨hs.conditions, hs.nonempty, hs.observedGeneration,
      hs.image, fun _ => rfl⟩
  · rintro sub metadata spec old hsub hold rfl
    exact ModelStatus.read_merged hsub hold hs

/-- A new status merged into the one of a stored prompt. -/
theorem Prompt.read_mergedStatus {doc : Json} {p : Prompt} (hcanonical : doc.isCanonical = true)
    (hread : read doc = .ok p) {s : PromptStatus} (hs : s.Overwrites p.statusOrEmpty) :
    PromptStatus.read (Json.mergePatch s.toJson (storedStatus doc)) =
      .ok (s.onto (storedStatus doc)) := by
  refine read_mergedInto_storedStatus hcanonical hread ?_ ?_ ?_
  · intro v hv
    cases v with
    | obj members => cases hv
    | _ => rfl
  · exact PromptStatus.read_merged rfl rfl ⟨hs.conditions, hs.nonempty, hs.observedGeneration,
      fun _ => rfl, fun _ => rfl, fun _ => rfl, hs.createdAt, fun _ => rfl, hs.counts⟩
  · rintro sub metadata spec old hsub hold rfl
    exact PromptStatus.read_merged hsub hold hs

/-- **A status write.**  Take a stored document in order, as every document is that was
    parsed (`Json.isCanonical_of_parse`), the pass over the resource that was read from it,
    with a reply whose time is valid as in every reply that was read
    (`Inference.GenerateReply.valid_of_read`), and the status that the pass wrote.  Once the
    server has merged the request, the stored status reads as the one written, except that
    details of a model that are empty now, and the time of an answer that is missing now,
    keep the value under their name.  So it reads as exactly what was written if and only if
    no such value was there. -/
theorem status_after_write {doc : Json} (hcanonical : doc.isCanonical = true) {now : Instant}
    (hnow : now.Valid) :
    (∀ {m : Model} {w : ModelWorld} {s : ModelStatus} {request : ClusterRequest}
      {next : Delivery → Exchange (Except ClusterError Unit)},
      Model.read doc = .ok m → (m.reconcile now w).written = some s →
      Access.patchModelStatus { m with status := some s } = .ask request next →
      ∃ after, (request.mergedInto doc).get? "status" = some after ∧
        ModelStatus.read after = .ok (s.onto (storedStatus doc)) ∧
        (ModelStatus.read after = .ok s ↔
          ∀ d, s.details = some d → d.Covers (ModelStatus.namedDetails (storedStatus doc)))) ∧
    (∀ {p : Prompt} {w : PromptWorld} {s : PromptStatus} {request : ClusterRequest}
      {next : Delivery → Exchange (Except ClusterError Unit)},
      Prompt.read doc = .ok p →
      (∀ reply t, w.generate = .ok reply → reply.createdAt = some t → t.Valid) →
      (p.reconcile now w).written = some s →
      Access.patchPromptStatus { p with status := some s } = .ask request next →
      ∃ after, (request.mergedInto doc).get? "status" = some after ∧
        PromptStatus.read after = .ok (s.onto (storedStatus doc)) ∧
        (PromptStatus.read after = .ok s ↔
          ∀ a, s.responseMeta = some a → a.createdAt = none →
            (PromptStatus.namedMeta (storedStatus doc)).createdAt = none)) := by
  constructor
  · intro m w s request next hread hwritten hask
    have hoverwrites := Model.overwrites_of_written hread hnow hwritten
    have hstatus := Model.read_mergedStatus hcanonical hread hoverwrites
    refine ⟨_, get?_status_mergedInto rfl (Access.body_of_patchStatus hask) doc, hstatus, ?_⟩
    rw [hstatus, Except.ok.injEq]
    exact s.onto_eq_iff _
  · intro p w s request next hread hreply hwritten hask
    have hoverwrites := Prompt.overwrites_of_written hread hnow hreply hwritten
    have hstatus := Prompt.read_mergedStatus hcanonical hread hoverwrites
    refine ⟨_, get?_status_mergedInto rfl (Access.body_of_patchStatus hask) doc, hstatus, ?_⟩
    rw [hstatus, Except.ok.injEq]
    exact s.onto_eq_iff _

/-! ## Details and a time that stay -/

/-- A stored model whose details name a family. -/
def storedModel : Json :=
  .obj [("metadata", .obj [("name", .str "gemma"), ("namespace", .str "default")]),
    ("spec", .obj [("model", .str "gemma2:2b")]),
    ("status", .obj [("modelDetails", .obj [("family", .str "gemma2")])])]

/-- That model as it is read. -/
def modelWithFamily : Model where
  metadata := ⟨[("name", .str "gemma"), ("namespace", .str "default")]⟩
  spec := { model := "gemma2:2b" }
  status := some { details := some { family := "gemma2" } }

/-- A stored prompt that waits for its answer and has a time of an earlier one. -/
def storedPrompt : Json :=
  .obj [("metadata", .obj [("name", .str "haiku"), ("namespace", .str "default")]),
    ("spec", .obj [("modelRef", .obj [("name", .str "gemma")]), ("prompt", .str "Write a haiku")]),
    ("status", .obj [("conditions", .arr [.obj [
        ("lastTransitionTime", .str "1970-01-01T00:00:00Z"),
        ("message", .str "Waiting for model response"), ("reason", .str "Creating"),
        ("status", .str "False"), ("type", .str "Ready")]]),
      ("meta", .obj [("createdAt", .str "1970-01-01T00:00:00Z")])])]

/-- That prompt as it is read. -/
def promptWithTime : Prompt where
  metadata := ⟨[("name", .str "haiku"), ("namespace", .str "default")]⟩
  spec := { modelRef := { name := "gemma" }, prompt := "Write a haiku" }
  status := some {
    conditions := .ofList [Prompt.waitingCondition default]
    responseMeta := some ⟨some default⟩ }

theorem valid_default : Instant.Valid default := ⟨by decide +kernel, by decide, by decide⟩

theorem ask_modelWithFamily (s : ModelStatus) : ∃ request next,
    Access.patchModelStatus { modelWithFamily with status := some s } = .ask request next := by
  refine Access.exists_ask_of_patchStatus rfl ?_ ?_
  · show modelWithFamily.metadata.nameAny ≠ ""
    decide +kernel
  · show (Address.ofText (_ ++ modelWithFamily.metadata.nameAny ++ _)).toOption.isSome = true
    decide +kernel

theorem ask_promptWithTime (s : PromptStatus) : ∃ request next,
    Access.patchPromptStatus { promptWithTime with status := some s } = .ask request next := by
  refine Access.exists_ask_of_patchStatus rfl ?_ ?_
  · show promptWithTime.metadata.nameAny ≠ ""
    decide +kernel
  · show (Address.ofText (_ ++ promptWithTime.metadata.nameAny ++ _)).toOption.isSome = true
    decide +kernel

set_option maxRecDepth 8000 in
theorem read_storedPrompt : Prompt.read storedPrompt = .ok promptWithTime := rfl

/-- Both writes leave a value in place that the pass had cleared. -/
theorem status_after_write_keeps :
    (∃ s request next after,
      (modelWithFamily.reconcile default (turnListing modelWithFamily ["gemma2:2b"]).world).written =
        some s ∧
      Access.patchModelStatus { modelWithFamily with status := some s } = .ask request next ∧
      (request.mergedInto storedModel).get? "status" = some after ∧ s.details = some {} ∧
      ModelStatus.read after = .ok { s with details := some { family := "gemma2" } }) ∧
    (∃ s request next after,
      (promptWithTime.reconcile default (turnWithReply "Blue.").world).written = some s ∧
      Access.patchPromptStatus { promptWithTime with status := some s } = .ask request next ∧
      (request.mergedInto storedPrompt).get? "status" = some after ∧
      s.responseMeta = some ⟨none⟩ ∧
      PromptStatus.read after = .ok { s with responseMeta := some ⟨some default⟩ }) := by
  constructor
  · obtain ⟨request, next, hask⟩ := ask_modelWithFamily (Model.finalOf default
      (turnListing modelWithFamily ["gemma2:2b"]).world modelWithFamily).statusOrEmpty
    have hwritten : (modelWithFamily.reconcile default
        (turnListing modelWithFamily ["gemma2:2b"]).world).written = some _ :=
      Model.controller.finish_written default _ rfl
    have hcanonical : storedModel.isCanonical = true := by decide +kernel
    have hstored : Model.read storedModel = .ok modelWithFamily := rfl
    obtain ⟨after, hget, hread, -⟩ := (status_after_write hcanonical valid_default).1 hstored
      hwritten hask
    exact ⟨_, request, next, after, hwritten, hask, hget, by decide +kernel, hread⟩
  · obtain ⟨request, next, hask⟩ := ask_promptWithTime (Prompt.finalOf default
      (turnWithReply "Blue.").world promptWithTime).statusOrEmpty
    have hwritten : (promptWithTime.reconcile default (turnWithReply "Blue.").world).written =
        some _ := Prompt.controller.finish_written default _ rfl
    have hreply : ∀ reply t, (turnWithReply "Blue.").world.generate = .ok reply →
        reply.createdAt = some t → t.Valid := by
      intro reply t hreply ht
      cases hreply
      cases ht
    have hcanonical : storedPrompt.isCanonical = true := by decide +kernel
    obtain ⟨after, hget, hread, -⟩ := (status_after_write hcanonical valid_default).2
      read_storedPrompt hreply hwritten hask
    exact ⟨_, request, next, after, hwritten, hask, hget, by decide +kernel,
      hread.trans (congrArg Except.ok (by decide +kernel))⟩

/-- A server that reports no details any more leaves the old family in the stored status. -/
theorem cleared_details_stay :
    storedModel.isCanonical = true ∧ Model.read storedModel = .ok modelWithFamily ∧
      ∃ s request next after,
        (modelWithFamily.reconcile default
          (turnListing modelWithFamily ["gemma2:2b"]).world).written = some s ∧
        Access.patchModelStatus { modelWithFamily with status := some s } = .ask request next ∧
        (request.mergedInto storedModel).get? "status" = some after ∧
        ModelStatus.read after ≠ .ok s := by
  have hread : Model.read storedModel = .ok modelWithFamily := rfl
  have hcanonical : storedModel.isCanonical = true := by decide +kernel
  obtain ⟨request, next, hask⟩ := ask_modelWithFamily (Model.finalOf default
    (turnListing modelWithFamily ["gemma2:2b"]).world modelWithFamily).statusOrEmpty
  have hwritten : (modelWithFamily.reconcile default
      (turnListing modelWithFamily ["gemma2:2b"]).world).written =
        some (Model.finalOf default (turnListing modelWithFamily ["gemma2:2b"]).world
          modelWithFamily).statusOrEmpty := Model.controller.finish_written default _ rfl
  refine ⟨hcanonical, hread, _, request, next, _, hwritten, hask,
    get?_status_mergedInto rfl (Access.body_of_patchStatus hask) storedModel, ?_⟩
  rw [Model.read_mergedStatus hcanonical hread
    (Model.overwrites_of_written hread valid_default hwritten)]
  intro hsame
  have hdetails := congrArg ModelStatus.details (Except.ok.inj hsame)
  exact absurd hdetails (by decide +kernel)

end ModelOperator

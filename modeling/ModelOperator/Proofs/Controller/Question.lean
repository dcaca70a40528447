import Mathlib.Data.List.Forall2
import ModelOperator.Proofs.Controller.PromptPass

/-!
# What a question is made of

    A question carries over what its prompt says, and what the prompt only points to is
    gathered for it: the options as an object, the images from where their sources lead,
    and the conversation that the question goes on from.

    * `ImageSource.Yields` says which image document a source leads to, and
      `ImageSource.Encodes` in which form it is sent;
    * `Prompt.Asked` says what a question holds, part by part;
    * `Prompt.ask_exits`: a pass that comes to its question sends exactly the one that
      `Asked` describes, and fails if there is none. -/

namespace ModelOperator

/-! ## Images -/

/-- The image document under a key of an object that is found for the image at an index. -/
def Holds (w : PromptWorld) (index : Nat) (store : StoreName) (key : String) (image : ImageData) :
    Prop :=
  ∃ doc bytes text, (w.store store).forImage index = .ok (some doc) ∧
    store.kind.bytesAt? doc key = some bytes ∧ utf8Text? bytes = some text ∧
    ImageData.ofText? text = some image

/-- The object of a kind that a selector names, seen from a prompt's namespace. -/
def KeySelector.store (s : KeySelector) (kind : StoreKind) (ns : String) : StoreName :=
  ⟨kind, namespaceOr s.ns ns, s.name⟩

namespace ImageSource

/-- The image document that the source at an index leads to: exactly one of its places is set,
    and the document is found there. -/
inductive Yields (w : PromptWorld) (ns : String) (index : Nat) : ImageSource → ImageData → Prop
  | inline (image : ImageData) : Yields w ns index ⟨some image, none, none⟩ image
  | configMap {selector : KeySelector} {image : ImageData}
      (h : Holds w index (selector.store .configMap ns) selector.key image) :
      Yields w ns index ⟨none, some selector, none⟩ image
  | secret {selector : KeySelector} {image : ImageData}
      (h : Holds w index (selector.store .secret ns) selector.key image) :
      Yields w ns index ⟨none, none, some selector⟩ image

/-- The form in which the image of a source at its index is sent: the base64 of its bytes. -/
def Encodes (w : PromptWorld) (ns : String) (s : ImageSource × Nat) (text : String) : Prop :=
  ∃ image bytes, Yields w ns s.2 s.1 image ∧ image.bytes = .ok bytes ∧
    text = Base64.encodeText bytes

end ImageSource

section Unique

variable {w : PromptWorld} {ns : String} {index : Nat}

/-- There is one document under a key. -/
theorem Holds.unique {store : StoreName} {key : String} {a b : ImageData}
    (ha : Holds w index store key a) (hb : Holds w index store key b) : a = b := by
  obtain ⟨doc, bytes, text, hfound, hbytes, htext, himage⟩ := ha
  obtain ⟨doc', bytes', text', hfound', hbytes', htext', himage'⟩ := hb
  cases hfound.symm.trans hfound'
  cases hbytes.symm.trans hbytes'
  cases htext.symm.trans htext'
  exact Option.some_inj.mp (himage.symm.trans himage')

/-- A source leads to one document. -/
theorem ImageSource.Yields.unique {s : ImageSource} {a b : ImageData} (ha : s.Yields w ns index a)
    (hb : s.Yields w ns index b) : a = b := by
  cases ha with
  | inline => cases hb; rfl
  | configMap ha => cases hb with | configMap hb => exact ha.unique hb
  | secret ha => cases hb with | secret hb => exact ha.unique hb

/-- A source yields one document, so what is sent for it are the bytes of that. -/
theorem ImageSource.encodes_iff {s : ImageSource} {image : ImageData}
    (h : s.Yields w ns index image) (text : String) :
    Encodes w ns (s, index) text ↔
      ∃ bytes, image.bytes = .ok bytes ∧ text = Base64.encodeText bytes := by
  constructor
  · rintro ⟨image', bytes, h', hbytes, htext⟩
    cases h.unique h'
    exact ⟨bytes, hbytes, htext⟩
  · rintro ⟨bytes, hbytes, htext⟩
    exact ⟨image, bytes, h, hbytes, htext⟩

end Unique

/-- The document under a key is an image exactly if its bytes are the text of one. -/
theorem StoreName.imageAt_ok_iff (store : StoreName) (key : String) (doc : Option Json)
    (image : ImageData) :
    store.imageAt key doc = .ok image ↔ ∃ found bytes text, doc = some found ∧
      store.kind.bytesAt? found key = some bytes ∧ utf8Text? bytes = some text ∧
      ImageData.ofText? text = some image := by
  cases doc with
  | none => simp [imageAt]
  | some found =>
      cases hbytes : store.kind.bytesAt? found key with
      | none => simp [imageAt, hbytes]
      | some bytes =>
          cases htext : utf8Text? bytes with
          | none => simp [imageAt, hbytes, htext]
          | some text =>
              cases himage : ImageData.ofText? text with
              | none => simp [imageAt, hbytes, htext, himage]
              | some found => simp [imageAt, hbytes, htext, himage]

namespace Prompt

open Pass

variable {now : Instant} {w : PromptWorld} {p : Prompt} {ns : String} {m : Model}

/-- A step that only passes an outcome on succeeds with it. -/
theorem resume_orError_ok_iff {ε α : Type} (wrap : ε → PromptError) (x : Except ε α)
    (s : Progress Prompt PromptCall) (a : α) :
    ((orError wrap x).resume s).1 = .ok a ↔ x = .ok a := by
  cases x <;> simp

/-- A source is resolved to the document that it yields. -/
theorem resolveImage_ok_iff (index : Nat) (source : ImageSource) (s : Progress Prompt PromptCall)
    (image : ImageData) :
    ((resolveImage w ns index source).resume s).1 = .ok image ↔
      source.Yields w ns index image := by
  -- what is looked up under a key is what the object holds there
  have hkey : ∀ (store : StoreName) (key : String), source.place ns = .ok (.key store key) →
      (((resolveImage w ns index source).resume s).1 = .ok image ↔
        Holds w index store key image) := by
    intro store key hplace
    simp only [resolveImage, resume_bind, hplace, resume_orError_ok, resume_call]
    cases hfound : (w.store store).forImage index with
    | error e => simp [Holds, hfound]
    | ok doc =>
        simp only [resume_orError_ok_iff, StoreName.imageAt_ok_iff, Holds, hfound,
          Except.ok.injEq]
  have hrefused : ∀ e, source.place ns = .error e →
      ((resolveImage w ns index source).resume s).1 ≠ .ok image := by
    intro e hplace
    simp [resolveImage, resume_bind, hplace]
  obtain ⟨inline, configMap, secret⟩ := source
  rcases inline with _ | found <;> rcases configMap with _ | config <;> rcases secret with _ | key
  · exact iff_of_false (hrefused _ rfl) fun h => by cases h
  · rw [hkey _ _ rfl]
    exact ⟨.secret, fun h => by cases h; assumption⟩
  · rw [hkey _ _ rfl]
    exact ⟨.configMap, fun h => by cases h; assumption⟩
  · exact iff_of_false (hrefused _ rfl) fun h => by cases h
  · have hinline : ((resolveImage w ns index ⟨some found, none, none⟩).resume s).1 =
        .ok found := rfl
    rw [hinline]
    refine ⟨fun h => ?_, fun h => by cases h; rfl⟩
    cases h
    exact .inline _
  · exact iff_of_false (hrefused _ rfl) fun h => by cases h
  · exact iff_of_false (hrefused _ rfl) fun h => by cases h
  · exact iff_of_false (hrefused _ rfl) fun h => by cases h

/-- The images are sent in the order of their sources, one for each. -/
theorem requestImages_ok_iff (sources : List ImageSource) (index : Nat) (texts : List String)
    (s : Progress Prompt PromptCall) :
    ((requestImages w ns index sources).resume s).1 = .ok texts ↔
      List.Forall₂ (ImageSource.Encodes w ns) (sources.zipIdx index) texts := by
  induction sources generalizing index texts s with
  | nil =>
      rw [requestImages, resume_pure, List.zipIdx_nil, List.forall₂_nil_left_iff]
      exact ⟨fun h => (Except.ok.inj h).symm, fun h => h ▸ rfl⟩
  | cons source rest ih =>
      rw [List.zipIdx_cons, List.forall₂_cons_left_iff, requestImages, resume_bind]
      -- the first source is resolved and decoded before the rest is looked at
      have hresolve : ∀ image, ((resolveImage w ns index source).resume s).1 = .ok image ↔
          source.Yields w ns index image := resolveImage_ok_iff index source s
      rcases hrun : (resolveImage w ns index source).resume s with ⟨e | image, after⟩
      · rw [hrun] at hresolve
        refine iff_of_false (fun h => by cases h) ?_
        rintro ⟨-, -, ⟨image, -, hyields, -⟩, -⟩
        cases (hresolve image).mpr hyields
      · have hencodes := ImageSource.encodes_iff ((hresolve image).mp (congrArg (·.1) hrun))
        dsimp only
        rw [resume_bind]
        cases hbytes : image.bytes with
        | error fault =>
            refine iff_of_false (fun h => by cases h) ?_
            rintro ⟨text, -, htext, -⟩
            obtain ⟨bytes, hdecoded, -⟩ := (hencodes text).mp htext
            cases hbytes.symm.trans hdecoded
        | ok bytes =>
            rw [resume_orError_ok]
            dsimp only
            rw [resume_bind]
            simp only [hencodes, hbytes, Except.ok.injEq, ← ih (index + 1) _ after]
            rcases (requestImages w ns (index + 1) rest).resume after with ⟨e | more, last⟩
            · exact iff_of_false (fun h => by cases h) (by simp)
            · simp [eq_comm]

/-! ## Options and conversation -/

/-- The options that a prompt asks with: an object as it is, or none. -/
inductive Offers : Option Json → Option Members → Prop
  | unset : Offers none none
  | null : Offers (some .null) none
  | object (members : Members) : Offers (some (.obj members)) (some members)

/-- The options of a question are those that the prompt offers. -/
theorem requestOptions_ok_iff (raw : Option Json) (options : Option Members) :
    requestOptions raw = .ok options ↔ Offers raw options := by
  constructor
  · intro h
    rcases raw with _ | v
    · cases h
      exact .unset
    · cases v with
      | null =>
          cases h
          exact .null
      | obj members =>
          cases h
          exact .object members
      | _ => cases h
  · intro h
    cases h <;> rfl

/-- The conversation that a prompt goes on from: the one in its token, or none. -/
inductive Continues : Option String → Option (List Int) → Prop
  | unset : Continues none none
  | empty : Continues (some "") none
  | token {token : String} {context : List Int} (hne : token ≠ "")
      (h : Conversation.decode token = .ok context) : Continues (some token) (some context)

/-- The conversation of a question is the one that the prompt continues. -/
theorem requestContext_ok_iff (detail : String) (raw : Option String)
    (context : Option (List Int)) :
    requestContext detail raw = .ok context ↔ Continues raw context := by
  constructor
  · intro h
    rcases raw with _ | token
    · cases h
      exact .unset
    · rw [requestContext] at h
      by_cases hempty : token = ""
      · rw [if_pos hempty] at h
        cases h
        rw [hempty]
        exact .empty
      · rw [if_neg hempty] at h
        cases hdecode : Conversation.decode token with
        | error fault =>
            rw [hdecode] at h
            cases h
        | ok found =>
            rw [hdecode] at h
            cases h
            exact .token hempty hdecode
  · intro h
    cases h with
    | unset | empty => rfl
    | token hne h =>
        rw [requestContext, if_neg hne, h]

/-! ## The question -/

/-- **What is asked.**  The question of a prompt to a model, part by part. -/
structure Asked (w : PromptWorld) (p : Prompt) (ns : String) (m : Model)
    (q : Inference.GenerateRequest) : Prop where
  model : q.model = m.spec.model
  prompt : q.prompt = p.spec.prompt
  suffix : q.suffix = p.spec.suffix
  system : q.system = p.spec.system
  template : q.template = p.spec.template
  options : Offers p.spec.options q.options
  context : Continues p.spec.context q.context
  /-- The answer is asked for as a whole, and with the template of the model. -/
  whole : q.stream = false ∧ q.raw = false
  /-- One image for each source, in their order. -/
  images : List.Forall₂ (ImageSource.Encodes w ns) p.spec.images.zipIdx q.images

/-- A question that is asked is the one made of the parts that were gathered. -/
theorem asked_iff (q : Inference.GenerateRequest) :
    Asked w p ns m q ↔ ∃ options images context, Parts w p ns options images context ∧
      q = p.request m options images context := by
  have hparts : ∀ options images context, Parts w p ns options images context ↔
      Offers p.spec.options options ∧
        List.Forall₂ (ImageSource.Encodes w ns) p.spec.images.zipIdx images ∧
        Continues p.spec.context context := by
    intro options images context
    rw [← requestOptions_ok_iff, ← requestContext_ok_iff w.detail]
    constructor
    · exact fun h => ⟨h.options, (requestImages_ok_iff _ _ _ _).mp (h.images { resource := p }),
        h.context⟩
    · rintro ⟨hoptions, himages, hcontext⟩
      exact ⟨hoptions, fun s => (requestImages_ok_iff _ _ _ s).mpr himages, hcontext⟩
  constructor
  · intro h
    refine ⟨q.options, q.images, q.context, (hparts _ _ _).mpr ⟨h.options, h.images, h.context⟩, ?_⟩
    obtain ⟨hmodel, hprompt, hsuffix, hsystem, htemplate, -, -, ⟨hstream, hraw⟩, -⟩ := h
    obtain ⟨model, prompt, suffix, system, template, context, stream, raw, images, options⟩ := q
    cases hmodel; cases hprompt; cases hsuffix; cases hsystem; cases htemplate
    cases hstream; cases hraw
    rfl
  · rintro ⟨options, images, context, h, rfl⟩
    obtain ⟨hoptions, himages, hcontext⟩ := (hparts _ _ _).mp h
    exact ⟨rfl, rfl, rfl, rfl, rfl, hoptions, hcontext, ⟨rfl, rfl⟩, himages⟩

/-- **How asking ends.**  After some lookups the question that `Asked` describes is sent, and
    the pass ends as its reply says; or there is no such question, and the pass fails. -/
theorem ask_exits (now : Instant) (w : PromptWorld) (p : Prompt) (ns : String) (m : Model) :
    ∃ lookups : List PromptCall, (∀ c ∈ lookups, c.IsLookup) ∧
      ((∃ q, Asked w p ns m q ∧ ∀ s, (ask now w p ns m).resume s =
          afterQuestion now w q
            (s.calling (lookups ++ [.forModel m.metadata.nameAny, .generate q]))) ∨
        (∀ q, ¬ Asked w p ns m q) ∧
          ∃ e, ∀ s, (ask now w p ns m).resume s = (.error e, s.calling lookups)) := by
  obtain ⟨lookups, hlookups, ⟨options, images, context, hparts, hrun⟩ | ⟨hnone, e, hfail⟩⟩ :=
    ask_parts w p ns m
  · exact ⟨lookups, hlookups, Or.inl
      ⟨_, (asked_iff _).mpr ⟨options, images, context, hparts, rfl⟩, hrun now⟩⟩
  · refine ⟨lookups, hlookups, Or.inr ⟨?_, e, hfail now⟩⟩
    intro q hasked
    obtain ⟨options, images, context, hparts, -⟩ := (asked_iff q).mp hasked
    exact hnone options images context hparts

end Prompt

end ModelOperator

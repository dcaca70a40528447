import ModelOperator.Proofs.Bytes.Base64
import ModelOperator.Proofs.Controller.PromptExit
import ModelOperator.Proofs.Json.Record
import ModelOperator.Proofs.Text.Blank

/-!
# Images that are not compressed

    The payload of an image is base64 with blanks around it.  When the image is not compressed,
    its bytes are those of the payload, and a question carries them as the base64 that the payload
    was: base64 is canonical, so that writing the bytes again changes nothing
    (`plain_images_pass_through`).

    * `ImageData.PlainTag` lists the tags of documents that are not compressed;
    * `Inference.GenerateRequest.CarriesImage` says which text a question carries as an image. -/

namespace ModelOperator

/-! ## Payloads -/

/-- No symbol of a base64 text is a blank. -/
theorem Base64.not_isBlankChar_of_mem (bytes : List UInt8) :
    ∀ c ∈ (encodeText bytes).toList, isBlankChar c = false := by
  have hsmall : ∀ n, n < 64 → isBlankChar (Char.ofNat (symbol n).toNat) = false := by decide
  have hsymbol : ∀ n, isBlankChar (Char.ofNat (symbol n).toNat) = false := by
    intro n
    by_cases hn : n < 64
    · exact hsmall n hn
    · -- beyond the alphabet every number has the last symbol
      rw [symbol, if_neg (by omega), if_neg (by omega), if_neg (by omega), if_neg (by omega)]
      decide
  have hall : ∀ b ∈ encode bytes, isBlankChar (Char.ofNat b.toNat) = false :=
    forall_mem_encode hsymbol (by decide) bytes
  intro c hc
  rw [encodeText, String.toList_ofList] at hc
  obtain ⟨b, hb, rfl⟩ := List.mem_map.mp hc
  exact hall b hb

namespace ImageData

/-- The payload of an image, without the blanks around it, is the base64 of the bytes. -/
def Carries (image : ImageData) (packed : List UInt8) : Prop :=
  trimText image.data = Base64.encodeText packed

theorem bytes_of_carries {image : ImageData} {packed : List UInt8} (h : image.Carries packed) :
    image.bytes =
      (image.format.unpack packed).elim (.error (.compression image.format)) .ok := by
  rw [ImageData.bytes, (Base64.decodeText_ok_iff _ packed).mpr h]
  cases hunpacked : image.format.unpack packed with
  | none => simp only [hunpacked, Option.elim_none]
  | some bytes => simp only [hunpacked, Option.elim_some]

/-- The bytes of an image are what its payload unpacks to. -/
theorem bytes_ok_iff {image : ImageData} {bytes : List UInt8} :
    image.bytes = .ok bytes ↔
      ∃ packed, image.Carries packed ∧ image.format.unpack packed = some bytes := by
  constructor
  · intro hbytes
    cases hdata : Base64.decodeText (trimText image.data) with
    | error fault =>
        rw [ImageData.bytes, hdata] at hbytes
        cases hbytes
    | ok packed =>
        have hpacked : image.Carries packed := (Base64.decodeText_ok_iff _ packed).mp hdata
        rw [bytes_of_carries hpacked] at hbytes
        cases hunpacked : image.format.unpack packed with
        | none =>
            rw [hunpacked] at hbytes
            cases hbytes
        | some unpacked =>
            rw [hunpacked] at hbytes
            cases hbytes
            exact ⟨packed, hpacked, hunpacked⟩
  · rintro ⟨packed, hpacked, hunpacked⟩
    rw [bytes_of_carries hpacked, hunpacked, Option.elim_some]

/-- The bytes of an image that is not compressed are those of its payload. -/
theorem bytes_plain_iff {image : ImageData} (h : image.format = .plain) (bytes : List UInt8) :
    image.bytes = .ok bytes ↔ trimText image.data = Base64.encodeText bytes := by
  rw [bytes_ok_iff, h]
  constructor
  · rintro ⟨packed, hpacked, hbytes⟩
    cases hbytes
    exact hpacked
  · intro hbytes
    exact ⟨bytes, hbytes, rfl⟩

/-- The tags of documents that are not compressed: the word for that, the empty word, or none. -/
inductive PlainTag : Option Json → Prop
  | word : PlainTag (some (.str "none"))
  | empty : PlainTag (some (.str ""))
  | missing : PlainTag none

/-- A document with such a tag is read as an image that is not compressed. -/
theorem read_plain {ms : Members} (hincreasing : Members.increasing ms = true) {data : String}
    (hdata : Members.get? "data" ms = some (.str data))
    (htag : PlainTag (Members.get? "format" ms)) : read (.obj ms) = .ok ⟨.plain, data⟩ := by
  have hformat : (Record.named "ImageData" 2 ms).defaulted 0 "format"
      (Reader.word ImageFormat.words) .plain = .ok .plain := by
    rw [Record.defaulted_named hincreasing]
    generalize Members.get? "format" ms = tag at htag
    cases htag <;> rfl
  have hpayload : (Record.named "ImageData" 2 ms).required 1 "data" Reader.text = .ok data :=
    Record.required_named hincreasing hdata
  rw [read, Record.of_obj, Reading.ok_bind, hformat, Reading.ok_bind, hpayload]
  rfl

end ImageData

/-! ## Questions -/

namespace Inference.GenerateRequest

/-- The question carries a text as the image at a position, and so does its body. -/
def CarriesImage (q : GenerateRequest) (position : Nat) (text : String) : Prop :=
  q.images[position]? = some text ∧
    ∃ items, q.toJson.get? "images" = some (.arr items) ∧ items[position]? = some (.str text)

theorem carriesImage_iff (q : GenerateRequest) (position : Nat) (text : String) :
    q.CarriesImage position text ↔ q.images[position]? = some text := by
  constructor
  · exact fun h => h.1
  · intro h
    refine ⟨h, q.images.map .str, ?_, ?_⟩
    · have hsome : q.images.isEmpty = false := by
        cases himages : q.images with
        | nil =>
            rw [himages] at h
            cases h
        | cons first rest => rfl
      rw [toJson]
      refine (Members.get?_ofPresent ?_ "images").trans ?_
      · simp
      · simp [List.lookup_cons, hsome]
    · rw [List.getElem?_map, h, Option.map_some]

end Inference.GenerateRequest

/-- What is sent for an image that is not compressed is its payload. -/
theorem ImageSource.Encodes.eq_trimText {w : PromptWorld} {ns : String} {source : ImageSource}
    {index : Nat} {image : ImageData} {text : String} (hyields : source.Yields w ns index image)
    (hplain : image.format = .plain) (h : Encodes w ns (source, index) text) :
    text = trimText image.data := by
  obtain ⟨bytes, hbytes, htext⟩ := (ImageSource.encodes_iff hyields text).mp h
  rw [htext, (ImageData.bytes_plain_iff hplain bytes).mp hbytes]

/-- **Uncompressed images pass through unchanged.**  An image that is not compressed has bytes
    exactly if its payload without the blanks around it is the base64 of some bytes, and these are
    its bytes.  Any bytes are those of such an image, whatever blanks stand around its payload, and
    documents with any of the three tags are such images.  A question carries the payload of each
    of them, without the blanks around it, at the position of its source. -/
theorem plain_images_pass_through :
    (∀ image : ImageData, image.format = .plain → ∀ bytes,
      image.bytes = .ok bytes ↔ trimText image.data = Base64.encodeText bytes) ∧
    (∀ (bytes : List UInt8) (front back : List Char), (∀ c ∈ front, isBlankChar c = true) →
      (∀ c ∈ back, isBlankChar c = true) →
      (ImageData.mk .plain
        (String.ofList (front ++ ((Base64.encodeText bytes).toList ++ back)))).bytes = .ok bytes) ∧
    (∀ (ms : Members) (data : String), Members.increasing ms = true →
      Members.get? "data" ms = some (.str data) →
      ImageData.PlainTag (Members.get? "format" ms) →
      ImageData.read (.obj ms) = .ok ⟨.plain, data⟩) ∧
    ∀ (now : Instant) (w : PromptWorld) (p : Prompt) (q : Inference.GenerateRequest),
      .generate q ∈ (Prompt.reconcile now w p).calls →
      ∃ ns, p.metadata.namespace? = some ns ∧ q.images.length = p.spec.images.length ∧
        ∀ (i : Nat) (source : ImageSource) (image : ImageData), p.spec.images[i]? = some source →
          source.Yields w ns i image → image.format = .plain →
          q.CarriesImage i (trimText image.data) := by
  refine ⟨fun image => ImageData.bytes_plain_iff, ?_, fun _ _ h => ImageData.read_plain h, ?_⟩
  · intro bytes front back hfront hback
    rw [ImageData.bytes_plain_iff rfl]
    exact trimText_surrounded hfront (Base64.not_isBlankChar_of_mem bytes) hback
  · intro now w p q hsent
    obtain ⟨ns, m, hgates, hasked⟩ := Prompt.asked_of_generate_mem hsent
    have hlength : p.spec.images.length = q.images.length := by
      rw [← hasked.images.length_eq, List.length_zipIdx]
    refine ⟨ns, hgates.namespaced, hlength.symm, ?_⟩
    intro i source image hsource hyields hplain
    rw [Inference.GenerateRequest.carriesImage_iff]
    obtain ⟨hi, hget⟩ := List.getElem?_eq_some_iff.mp hsource
    have hencodes := hasked.images.get (List.length_zipIdx ▸ hi) (hlength ▸ hi)
    rw [List.get_eq_getElem, List.get_eq_getElem, List.getElem_zipIdx, hget, Nat.zero_add]
      at hencodes
    rw [List.getElem?_eq_getElem (hlength ▸ hi)]
    exact congrArg some (hencodes.eq_trimText hyields hplain)

/-- A prompt that waits for its answer and brings one image along, of four bytes and with blanks
    around its payload. -/
def promptWithImage : Prompt :=
  let t := turnWithReply "Blue.\n"
  { metadata := t.metadata
    spec := { t.spec with images := [{ inline := some { data := " Qmx1ZQ==\n" } }] }
    status := some { conditions := .ofList [Prompt.waitingCondition default] } }

/-- The image has the four bytes, also when it is read from a document with the empty tag, and the
    question that is sent carries the payload without the blanks. -/
theorem plain_images_pass_through_blank :
    trimText " Qmx1ZQ==\n" = Base64.encodeText [66, 108, 117, 101] ∧
      (ImageData.mk .plain " Qmx1ZQ==\n").bytes = .ok [66, 108, 117, 101] ∧
      (ImageData.mk .plain "\tQmx1ZQ== ").bytes = .ok [66, 108, 117, 101] ∧
      ImageData.read (.obj [("data", .str " Qmx1ZQ==\n"), ("format", .str "")]) =
        .ok ⟨.plain, " Qmx1ZQ==\n"⟩ ∧
      ∃ q, .generate q ∈
          (Prompt.reconcile default (turnWithReply "Blue.\n").world promptWithImage).calls ∧
        q.CarriesImage 0 "Qmx1ZQ==" := by
  obtain ⟨hbytes, hblanks, hread, hcarried⟩ := plain_images_pass_through
  have htrim : trimText " Qmx1ZQ==\n" = Base64.encodeText [66, 108, 117, 101] := by decide +kernel
  have hplain := (hbytes ⟨.plain, " Qmx1ZQ==\n"⟩ rfl _).mpr htrim
  have hsent : ∃ q, .generate q ∈
      (Prompt.reconcile default (turnWithReply "Blue.\n").world promptWithImage).calls := by
    have hgates : Prompt.Gates (turnWithReply "Blue.\n").world promptWithImage "default"
        readyModel := ⟨rfl, rfl, by decide +kernel⟩
    have hasked : Prompt.Asked (turnWithReply "Blue.\n").world promptWithImage "default" readyModel
        (promptWithImage.request readyModel none
          [Base64.encodeText [66, 108, 117, 101]] none) :=
      ⟨rfl, rfl, rfl, rfl, rfl, .unset, .unset, ⟨rfl, rfl⟩,
        .cons ⟨_, _, .inline _, hplain, rfl⟩ .nil⟩
    exact ⟨_, Prompt.generate_mem_of_asked rfl
      ((Prompt.hasCondition_waiting_iff default _).mp rfl) hgates hasked⟩
  refine ⟨htrim, hplain, ?_, hread _ _ (by decide) rfl .empty, ?_⟩
  · exact hblanks [66, 108, 117, 101] ['\t'] [' '] (List.forall_mem_singleton.mpr (by decide))
      (List.forall_mem_singleton.mpr (by decide))
  · obtain ⟨q, hq⟩ := hsent
    obtain ⟨ns, -, -, himages⟩ := hcarried default _ _ q hq
    refine ⟨q, hq, ?_⟩
    have hfirst := himages 0 _ ⟨.plain, " Qmx1ZQ==\n"⟩ rfl (.inline _) rfl
    rw [show trimText " Qmx1ZQ==\n" = "Qmx1ZQ==" by decide +kernel] at hfirst
    exact hfirst

end ModelOperator

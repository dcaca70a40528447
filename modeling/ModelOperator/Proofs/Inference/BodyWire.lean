import ModelOperator.Inference.Wire
import ModelOperator.Proofs.Resource.ConditionWire

/-!
# Bodies of the inference interface on the wire

    A body is written member by member, and each member is read back on its own.  The numbers
    of a body have 64 bits and its time is one of the calendar, or there would be no such body:
    that is said once for each (`InRange`).

    One body is not read back.  A question leaves an empty list of images out, and its reader
    asks for the list (`GenerateRequest.read_toJson`).  All others are, and so is every question
    with an image (`bodies_read_back`). -/

namespace ModelOperator

namespace Inference

open Record

/-- A natural number of 64 bits. -/
def FitsWord (n : Nat) : Prop := n ≤ 18446744073709551615

theorem read_texts (texts : List String) :
    Reader.list Reader.text (.arr (texts.map .str)) = .ok texts :=
  Reader.each_map fun _ _ => rfl

/-! ## Lists of models and their details -/

theorem ModelDetails.read_toJson (d : ModelDetails) : read d.toJson = .ok d := by
  refine read_ofMembers (by simp) fun r hr => ?_
  refine Reading.bind_eq (hr.defaulted rfl rfl) ?_
  refine Reading.bind_eq (hr.defaulted rfl rfl) ?_
  refine Reading.bind_eq (hr.defaulted rfl rfl) ?_
  refine Reading.bind_eq (hr.nullable_orNull (x := d.families) (w := fun fs => .arr (fs.map .str))
    rfl (fun _ _ => rfl) fun fs _ => read_texts fs) ?_
  refine Reading.bind_eq (hr.defaulted rfl rfl) ?_
  refine Reading.bind_eq (hr.defaulted rfl rfl) ?_
  rfl

theorem ListedModel.read_toJson {m : ListedModel} (h : FitsWord m.size) :
    read m.toJson = .ok m := by
  refine read_ofMembers (by simp) fun r hr => ?_
  refine Reading.bind_eq (hr.defaulted rfl rfl) ?_
  refine Reading.bind_eq (hr.defaulted rfl rfl) ?_
  refine Reading.bind_eq (hr.defaulted rfl (Reader.word64_int h)) ?_
  refine Reading.bind_eq (hr.defaulted rfl rfl) ?_
  refine Reading.bind_eq (hr.defaulted rfl m.details.read_toJson) ?_
  rfl

/-- The sizes of the listed models have 64 bits. -/
def ModelList.InRange (l : ModelList) : Prop := ∀ m ∈ l.models, FitsWord m.size

theorem ModelList.read_toJson {l : ModelList} (h : l.InRange) : read l.toJson = .ok l := by
  refine read_ofMembers (by simp) fun r hr => ?_
  refine Reading.bind_eq (hr.defaulted rfl
    (Reader.each_map fun m hm => ListedModel.read_toJson (h m hm))) ?_
  rfl

theorem ShowRequest.read_toJson (s : ShowRequest) : read s.toJson = .ok s := by
  refine read_ofMembers (by simp) fun r hr => ?_
  refine Reading.bind_eq (hr.required rfl rfl) ?_
  rfl

theorem ShowReply.read_toJson (s : ShowReply) : read s.toJson = .ok s := by
  refine read_ofMembers (by simp) fun r hr => ?_
  refine Reading.bind_eq (hr.defaulted rfl rfl) ?_
  refine Reading.bind_eq (hr.defaulted rfl rfl) ?_
  refine Reading.bind_eq (hr.defaulted rfl rfl) ?_
  refine Reading.bind_eq (hr.defaulted rfl s.details.read_toJson) ?_
  rfl

/-! ## Pulls -/

theorem PullRequest.read_toJson (p : PullRequest) : read p.toJson = .ok p := by
  refine read_ofMembers (by simp) fun r hr => ?_
  refine Reading.bind_eq (hr.required rfl rfl) ?_
  refine Reading.bind_eq (hr.defaulted rfl rfl) ?_
  refine Reading.bind_eq (hr.required rfl rfl) ?_
  rfl

/-- The sizes of a progress line have 64 bits. -/
structure PullProgress.InRange (p : PullProgress) : Prop where
  total : ∀ n, p.total = some n → FitsWord n
  completed : ∀ n, p.completed = some n → FitsWord n

theorem PullProgress.read_toJson {p : PullProgress} (h : p.InRange) : read p.toJson = .ok p := by
  refine read_ofPresent (by simp) fun r hr => ?_
  refine Reading.bind_eq (hr.defaulted rfl rfl) ?_
  refine Reading.bind_eq (hr.nullable_text rfl) ?_
  refine Reading.bind_eq (hr.nullable (x := p.total) (w := fun n => .int n)
    (by cases p.total <;> rfl) (fun _ _ => rfl) fun n hn => Reader.word64_int (h.total n hn)) ?_
  refine Reading.bind_eq (hr.nullable (x := p.completed) (w := fun n => .int n)
    (by cases p.completed <;> rfl) (fun _ _ => rfl)
    fun n hn => Reader.word64_int (h.completed n hn)) ?_
  rfl

/-! ## Questions and answers -/

/-- The numbers of a conversation that a question goes on from have 64 bits. -/
def GenerateRequest.InRange (g : GenerateRequest) : Prop :=
  ∀ context, g.context = some context → ∀ n ∈ context, Fits64 n

/-- A question is read back if it has an image, and is refused if it has none. -/
theorem GenerateRequest.read_toJson {g : GenerateRequest} (h : g.InRange) :
    read g.toJson = if g.images = [] then .error (.missing "images") else .ok g := by
  refine read_ofPresent (by simp) fun r hr => ?_
  refine Reading.bind_eq (hr.required rfl rfl) ?_
  refine Reading.bind_eq (hr.required rfl rfl) ?_
  refine Reading.bind_eq (hr.positional_eq.trans (hr.nullable_text rfl)) ?_
  refine Reading.bind_eq (hr.positional_eq.trans (hr.nullable_text rfl)) ?_
  refine Reading.bind_eq (hr.positional_eq.trans (hr.nullable_text rfl)) ?_
  refine Reading.bind_eq (hr.positional_eq.trans (hr.nullable (x := g.context)
    (w := fun ns => .arr (ns.map .int)) rfl (fun _ _ => rfl)
    fun context hcontext => Reader.list_int64 (h context hcontext))) ?_
  refine Reading.bind_eq (hr.required rfl rfl) ?_
  refine Reading.bind_eq (hr.required rfl rfl) ?_
  by_cases himages : g.images = []
  · have habsent : (if g.images.isEmpty then none else some (Json.arr (g.images.map .str))) =
        none := if_pos (List.isEmpty_iff.mpr himages)
    have hmissing : r.required 8 "images" (Reader.list Reader.text) = .error (.missing "images") :=
      hr.required_absent habsent
    rw [if_pos himages, hmissing]
    rfl
  · have hpresent : (if g.images.isEmpty then none else some (Json.arr (g.images.map .str))) =
        some (.arr (g.images.map .str)) := if_neg (mt List.isEmpty_iff.mp himages)
    rw [if_neg himages]
    refine Reading.bind_eq (hr.required hpresent (read_texts g.images)) ?_
    refine Reading.bind_eq (hr.positional_eq.trans (hr.nullable (x := g.options) rfl
      (fun _ _ => rfl) fun _ _ => rfl)) ?_
    rfl

/-- The numbers of an answer have 64 bits, and its time is one of the calendar. -/
structure GenerateReply.InRange (g : GenerateReply) : Prop where
  createdAt : ∀ t, g.createdAt = some t → t.Valid
  context : ∀ n ∈ g.context, Fits64 n
  totalDuration : FitsWord g.totalDuration
  loadDuration : FitsWord g.loadDuration
  promptEvalCount : FitsWord g.promptEvalCount
  promptEvalDuration : FitsWord g.promptEvalDuration
  evalCount : FitsWord g.evalCount
  evalDuration : FitsWord g.evalDuration

theorem GenerateReply.read_toJson {g : GenerateReply} (h : g.InRange) : read g.toJson = .ok g := by
  refine read_ofPresent (by simp) fun r hr => ?_
  refine Reading.bind_eq (hr.defaulted rfl rfl) ?_
  refine Reading.bind_eq (hr.nullable_orNull (x := g.createdAt)
    (w := fun t => .str (t.text .shortest)) rfl (fun _ _ => rfl)
    fun t ht => Condition.readInstant_text (h.createdAt t ht)) ?_
  refine Reading.bind_eq (hr.defaulted rfl rfl) ?_
  refine Reading.bind_eq (hr.defaulted rfl rfl) ?_
  refine Reading.bind_eq (hr.nullable_text rfl) ?_
  refine Reading.bind_eq (hr.defaulted rfl (Reader.list_int64 h.context)) ?_
  refine Reading.bind_eq (hr.defaulted rfl (Reader.word64_int h.totalDuration)) ?_
  refine Reading.bind_eq (hr.defaulted rfl (Reader.word64_int h.loadDuration)) ?_
  refine Reading.bind_eq (hr.defaulted rfl (Reader.word64_int h.promptEvalCount)) ?_
  refine Reading.bind_eq (hr.defaulted rfl (Reader.word64_int h.promptEvalDuration)) ?_
  refine Reading.bind_eq (hr.defaulted rfl (Reader.word64_int h.evalCount)) ?_
  refine Reading.bind_eq (hr.defaulted rfl (Reader.word64_int h.evalDuration)) ?_
  rfl

/-! ## All bodies -/

/-- A body of the interface. -/
inductive Body where
  | models (l : ModelList)
  | showRequest (s : ShowRequest)
  | showReply (s : ShowReply)
  | pullRequest (p : PullRequest)
  | progress (p : PullProgress)
  | question (g : GenerateRequest)
  | answer (g : GenerateReply)

namespace Body

/-- The numbers and the time of the body are such that there is one. -/
def InRange : Body → Prop
  | models l => l.InRange
  | showRequest _ | showReply _ | pullRequest _ => True
  | progress p => p.InRange
  | question g => g.InRange
  | answer g => g.InRange

/-- What is written of the body is read as the body. -/
def ReadsBack : Body → Prop
  | models l => ModelList.read l.toJson = .ok l
  | showRequest s => ShowRequest.read s.toJson = .ok s
  | showReply s => ShowReply.read s.toJson = .ok s
  | pullRequest p => PullRequest.read p.toJson = .ok p
  | progress p => PullProgress.read p.toJson = .ok p
  | question g => GenerateRequest.read g.toJson = .ok g
  | answer g => GenerateReply.read g.toJson = .ok g

/-- The body is a question without images. -/
def LacksImages : Body → Prop
  | question g => g.images = []
  | models _ | showRequest _ | showReply _ | pullRequest _ | progress _ | answer _ => False

end Body

/-- **Bodies are read back.**  Whatever a body holds, set, unset or empty, it is read back as it
    was written, unless it is a question without images. -/
theorem bodies_read_back (b : Body) (h : b.InRange) : b.ReadsBack ↔ ¬ b.LacksImages := by
  cases b with
  | models l => exact iff_of_true (ModelList.read_toJson h) id
  | showRequest s => exact iff_of_true s.read_toJson id
  | showReply s => exact iff_of_true s.read_toJson id
  | pullRequest p => exact iff_of_true p.read_toJson id
  | progress p => exact iff_of_true (PullProgress.read_toJson h) id
  | answer g => exact iff_of_true (GenerateReply.read_toJson h) id
  | question g =>
      show GenerateRequest.read g.toJson = .ok g ↔ g.images ≠ []
      rw [GenerateRequest.read_toJson h]
      by_cases himages : g.images = []
      · rw [if_pos himages]
        exact iff_of_false nofun fun hne => hne himages
      · rw [if_neg himages]
        exact iff_of_true rfl himages

/-- The largest size, an unknown one, the smallest number of a conversation, an empty
    conversation and a leap second are read back. -/
theorem bodies_read_back_extremes :
    let largest : Nat := 18446744073709551615
    let l : ModelList := { models := [{ size := largest, details := { families := some [] } }] }
    let p : PullProgress := { total := some largest, completed := none }
    let answer : GenerateReply := { createdAt := some ⟨19935, 86399, 1500000000⟩
                                    context := [-9223372036854775808], evalCount := largest }
    let question : GenerateRequest := { model := "llava", prompt := "What is this?"
                                        context := some [], images := ["aGk="] }
    ModelList.read l.toJson = .ok l ∧ PullProgress.read p.toJson = .ok p ∧
      GenerateReply.read answer.toJson = .ok answer ∧
      GenerateRequest.read question.toJson = .ok question := by
  intro largest l p answer question
  have hword : FitsWord largest := Nat.le_refl _
  have hzero : FitsWord 0 := Nat.zero_le _
  have htime : Instant.Valid ⟨19935, 86399, 1500000000⟩ :=
    ⟨by decide +kernel, by decide, Or.inr ⟨rfl, by decide⟩⟩
  have hl : l.InRange := by
    intro m hm
    rw [List.mem_singleton.mp hm]
    exact hword
  have hp : p.InRange := by
    refine ⟨?_, nofun⟩
    rintro _ ⟨⟩
    exact hword
  have hanswer : answer.InRange := by
    refine ⟨?_, by decide, hzero, hzero, hzero, hzero, hword, hzero⟩
    rintro _ ⟨⟩
    exact htime
  have hquestion : question.InRange := by
    rintro _ ⟨⟩
    exact List.forall_mem_nil _
  exact ⟨(bodies_read_back (.models l) hl).mpr id,
    (bodies_read_back (.progress p) hp).mpr id,
    (bodies_read_back (.answer answer) hanswer).mpr id,
    (bodies_read_back (.question question) hquestion).mpr (List.cons_ne_nil _ _)⟩

/-- A question without images is written without the list, and not read back. -/
theorem question_without_images_refused :
    let question : GenerateRequest := { model := "gemma2:2b", prompt := "hi" }
    question.InRange ∧ GenerateRequest.read question.toJson ≠ .ok question ∧
      GenerateRequest.read question.toJson = .error (.missing "images") := by
  intro question
  have hrange : question.InRange := nofun
  have hread : GenerateRequest.read question.toJson = .error (.missing "images") :=
    GenerateRequest.read_toJson hrange
  refine ⟨hrange, ?_, hread⟩
  rw [hread]
  exact nofun

end Inference

end ModelOperator

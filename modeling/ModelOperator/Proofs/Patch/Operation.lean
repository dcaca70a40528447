import ModelOperator.Patch.Operations
import ModelOperator.Proofs.Patch.MergeValue

/-!
# One operation

    An operation is checked before it is evaluated: it must have the source or the value that
    its kind needs, and all its pointers must be let through (`Operation.Admitted`), also a source
    that its kind does not use.  An operation that is let through is evaluated, and one that is
    not is refused for a pointer of its own (`applyOperation_eq`). -/

namespace ModelOperator

namespace Patch

namespace Operation

/-- The pointers that an operation gives. -/
def pointers (op : Operation) : List String := op.path :: op.source.toList

/-- A pointer that is let through starts with a slash, if it is not empty, and has no token that
    spells a number below zero. -/
def Passes (pointer : String) : Prop :=
  ∃ tokens, Pointer.split? pointer = some tokens ∧ ∀ token ∈ tokens, isNegativeIndex token = false

/-- All pointers of an operation are let through. -/
def Admitted (op : Operation) : Prop := ∀ pointer ∈ op.pointers, Passes pointer

/-- What the edit of an operation makes of a document. -/
def perform (op : Operation) (doc : Json) : Except Error Json :=
  match op.edit? with
  | none => .error (.invalidOperation op.kind.text op.path)
  | some edit =>
    match edit.run doc with
    | .ok next => .ok next
    | .error fault => .error (.failedOperation op.path fault.message)

/-- What an operation makes of a document once it is let through. -/
def evaluate (op : Operation) (doc : Json) : Except Error Json :=
  if op.kind = .add then
    ensureParents op.path ((Pointer.split? op.path).getD []) doc >>= op.perform
  else op.perform doc

end Operation

variable {op : Operation} {doc : Json}

theorem checkPointer_iff (pointer : String) :
    checkPointer pointer = .ok () ↔ Operation.Passes pointer := by
  rw [checkPointer, Operation.Passes]
  cases Pointer.split? pointer with
  | none => simp
  | some tokens =>
      dsimp only
      cases hfind : tokens.find? isNegativeIndex with
      | none => simpa using hfind
      | some token =>
          have hnegative := List.find?_some hfind
          have hmem := List.mem_of_find?_eq_some hfind
          constructor
          · rintro ⟨⟩
          · rintro ⟨others, heq, hall⟩
            cases heq
            cases hnegative.symm.trans (hall token hmem)

/-- The checks of an operation, and then its evaluation. -/
theorem applyOperation_eq (op : Operation) (doc : Json) :
    applyOperation op doc =
      op.check >>= fun _ => forM op.pointers checkPointer >>= fun _ => op.evaluate doc := by
  rw [applyOperation, Operation.pointers, List.forM_cons, Operation.evaluate]
  cases op.check with
  | error e => rfl
  | ok _ =>
      cases checkPointer op.path with
      | error e => rfl
      | ok _ =>
          cases op.source with
          | none => rfl
          | some source =>
              have hsingle : forM (some source).toList checkPointer = checkPointer source := by
                show (checkPointer source >>= fun _ => pure ()) = _
                cases checkPointer source <;> rfl
              rw [hsingle]
              dsimp only
              cases checkPointer source with
              | error e => rfl
              | ok _ => rfl

/-- The edit of an operation is run. -/
theorem perform_ok_iff {out : Json} :
    op.perform doc = .ok out ↔ ∃ edit, op.edit? = some edit ∧ edit.run doc = .ok out := by
  rw [Operation.perform]
  cases op.edit? with
  | none => exact iff_of_false nofun (by rintro ⟨edit, ⟨⟩, -⟩)
  | some edit =>
      dsimp only
      cases hrun : edit.run doc with
      | error fault =>
          refine iff_of_false nofun ?_
          rintro ⟨_, ⟨⟩, h⟩
          cases hrun.symm.trans h
      | ok next =>
          constructor
          · rintro ⟨⟩
            exact ⟨edit, rfl, hrun⟩
          · rintro ⟨_, ⟨⟩, h⟩
            cases hrun.symm.trans h
            rfl

/-- Pointers are let through together if each of them is. -/
theorem forM_checkPointer_iff (pointers : List String) :
    forM pointers checkPointer = .ok () ↔ ∀ pointer ∈ pointers, Operation.Passes pointer := by
  induction pointers with
  | nil => exact iff_of_true rfl nofun
  | cons pointer rest ih =>
      rw [List.forM_cons, List.forall_mem_cons, ← ih, ← checkPointer_iff]
      cases checkPointer pointer with
      | error e => exact iff_of_false nofun (by rintro ⟨⟨⟩, -⟩)
      | ok _ => exact (and_iff_right rfl).symm

/-- What is refused among pointers is one of them. -/
theorem forM_checkPointer_error {pointers : List String} {e : Error}
    (h : forM pointers checkPointer = .error e) :
    ∃ pointer ∈ pointers, checkPointer pointer = .error e := by
  induction pointers with
  | nil => cases h
  | cons pointer rest ih =>
      rw [List.forM_cons] at h
      rcases bind_error h with hfirst | ⟨_, -, hrest⟩
      · exact ⟨pointer, List.mem_cons_self, hfirst⟩
      · obtain ⟨other, hmem, herror⟩ := ih hrest
        exact ⟨other, List.mem_cons_of_mem _ hmem, herror⟩

/-- **One operation** changes the document exactly if it passes its checks and its evaluation
    does. -/
theorem applyOperation_ok_iff {out : Json} : applyOperation op doc = .ok out ↔
    op.check = .ok () ∧ op.Admitted ∧ op.evaluate doc = .ok out := by
  rw [applyOperation_eq, Operation.Admitted, ← forM_checkPointer_iff]
  constructor
  · intro h
    obtain ⟨_, hcheck, h⟩ := bind_ok h
    obtain ⟨_, hpointers, h⟩ := bind_ok h
    exact ⟨hcheck, hpointers, h⟩
  · rintro ⟨hcheck, hpointers, h⟩
    rw [hcheck, hpointers]
    exact h

/-- An operation that is not let through is refused for a pointer that it gives. -/
theorem applyOperation_not_admitted (hcheck : op.check = .ok ()) (h : ¬ op.Admitted) :
    ∃ pointer ∈ op.pointers, ∃ e, checkPointer pointer = .error e ∧
      applyOperation op doc = .error e := by
  rw [Operation.Admitted, ← forM_checkPointer_iff] at h
  cases hpointers : forM op.pointers checkPointer with
  | ok _ => exact absurd hpointers h
  | error e =>
      obtain ⟨pointer, hmem, herror⟩ := forM_checkPointer_error hpointers
      refine ⟨pointer, hmem, e, herror, ?_⟩
      rw [applyOperation_eq, hcheck, hpointers]
      rfl

/-- Tokens that are read strictly are read leniently, too. -/
theorem split?_of_parse? {pointer : String} {tokens : List String}
    (h : Pointer.parse? pointer = some tokens) : Pointer.split? pointer = some tokens := by
  rw [Pointer.parse?] at h
  split at h
  · exact h
  · cases h

/-- The value of an operation that needs one. -/
theorem value_of_check (hneeds : op.kind.needsValue = true) (h : op.check = .ok ()) :
    ∃ value, op.value = some value := by
  rw [Operation.check] at h
  split at h
  · cases h
  · split at h
    · cases h
    · rename_i hthere
      rw [hneeds, Bool.true_and, Option.isNone_iff_eq_none] at hthere
      exact Option.ne_none_iff_exists'.mp hthere

end Patch

end ModelOperator

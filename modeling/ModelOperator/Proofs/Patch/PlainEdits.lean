import ModelOperator.Proofs.Json.Edits
import ModelOperator.Proofs.Patch.Operation

/-!
# Operations as plain edits

    An operation that has what its kind needs stands for a plain edit (`Operation.plain?`).  Where
    the edit can be run, nothing is missing on its way, so nothing is created for it
    (`ensureParents_of_addAt?`), and it is run as it is (`evaluate_of_run`).

    The check of pointers knows nothing of the document.  It takes each token that spells a number
    below zero for an index, also one that is the name of a member, and it looks at a source that
    the edit has no use for.  So edits that can be run are run exactly if this check lets all
    operations through, and are refused by nothing else (`applyOperations_extends`). -/

namespace ModelOperator

namespace Patch

/-- The edit that an operation stands for, if it has what its kind needs. -/
def Operation.plain? (op : Operation) : Option Edit :=
  match op.check with
  | .ok _ => op.edit?
  | .error _ => none

variable {doc out : Json}

theorem plain?_eq_some {op : Operation} {edit : Edit} (h : op.plain? = some edit) :
    op.check = .ok () ∧ op.edit? = some edit := by
  rw [Operation.plain?] at h
  split at h
  · exact ⟨by assumption, h⟩
  · cases h

/-- An edit brings the value of its operation. -/
theorem value?_of_plain? {op : Operation} {edit : Edit} (h : op.plain? = some edit) :
    ∀ v ∈ edit.value?, op.value = some v := by
  intro v hv
  obtain ⟨hcheck, hedit⟩ := plain?_eq_some h
  obtain ⟨path, -, hedit⟩ := Option.bind_eq_some_iff.mp hedit
  have hbrings : op.kind.needsValue = true → edit.value? = some (op.value.getD .null) →
      op.value = some v := by
    intro hneeds hgiven
    obtain ⟨value, hvalue⟩ := value_of_check hneeds hcheck
    rw [hvalue, Option.getD_some] at hgiven
    rw [hvalue, ← hgiven]
    exact hv
  cases hkind : op.kind with
  | add | replace | test =>
      rw [hkind] at hedit hbrings
      cases hedit
      exact hbrings rfl rfl
  | remove =>
      rw [hkind] at hedit
      cases hedit
      cases hv
  | move | copy =>
      rw [hkind] at hedit
      obtain ⟨source, -, rfl⟩ := Option.map_eq_some_iff.mp hedit
      cases hv

/-- **Nothing is created** where a value can be added without. -/
theorem ensureParents_of_addAt? (path : String) {tokens : List String} {value : Json}
    (hdoc : doc.isCanonical = true) (h : doc.addAt? tokens value = some out) :
    ensureParents path tokens doc = .ok doc := by
  induction tokens generalizing doc out with
  | nil => rfl
  | cons token rest ih =>
      cases rest with
      | nil => rfl
      | cons next rest =>
          rw [Json.addAt?_cons] at h
          obtain ⟨part, hpart, h⟩ := Option.bind_eq_some_iff.mp h
          obtain ⟨new, hnew, -⟩ := Option.map_eq_some_iff.mp h
          have hinner := ih (Json.isCanonical_child? hdoc hpart) hnew
          cases doc with
          | obj ms =>
              have hget : Members.get? token ms = some part := hpart
              rw [ensureParents, hget, Option.getD_some, hinner]
              dsimp only
              rw [Members.insert_of_get? (Json.increasing_of_isCanonical hdoc) hget]
          | arr items =>
              obtain ⟨i, hi, hitem⟩ := Option.bind_eq_some_iff.mp hpart
              have hdash : token ≠ "-" := by
                rintro rfl
                cases Pointer.index?_dash.symm.trans hi
              obtain ⟨hlt, rfl⟩ := List.getElem?_eq_some_iff.mp hitem
              rw [ensureParents, if_neg hdash, Pointer.looseIndex?_of_index? hi]
              dsimp only
              rw [hitem]
              dsimp only
              rw [hinner]
              dsimp only
              rw [List.set_getElem_self]
          | _ => cases hpart

/-- An operation whose edit can be run does just that. -/
theorem evaluate_of_run {op : Operation} {edit : Edit} (hdoc : doc.isCanonical = true)
    (hedit : op.edit? = some edit) (hrun : edit.run doc = .ok out) : op.evaluate doc = .ok out := by
  have hperform : op.perform doc = .ok out := perform_ok_iff.mpr ⟨edit, hedit, hrun⟩
  rw [Operation.evaluate]
  by_cases hkind : op.kind = .add
  · obtain ⟨tokens, htokens, hadd⟩ := Option.bind_eq_some_iff.mp hedit
    rw [hkind] at hadd
    cases hadd
    rw [if_pos hkind, split?_of_parse? htokens, Option.getD_some,
      ensureParents_of_addAt? op.path hdoc (Edit.orFault_ok hrun)]
    exact hperform
  · rw [if_neg hkind]
    exact hperform

/-- Operations whose edits can be run: if all of them are let through, that is what they do, and
    else they are refused for a pointer that one of them gives. -/
theorem applyOperations_of_runAll {ops : List Operation} {edits : List Edit}
    (hdoc : doc.isCanonical = true)
    (hvalues : ∀ op ∈ ops, ∀ v, op.value = some v → v.isCanonical = true)
    (hplain : ops.mapM Operation.plain? = some edits) (hrun : Edit.runAll edits doc = .ok out) :
    ((∀ op ∈ ops, op.Admitted) ∧ applyOperations ops doc = .ok out) ∨
      ∃ op ∈ ops, ∃ pointer ∈ op.pointers, ∃ e, checkPointer pointer = .error e ∧
        applyOperations ops doc = .error e := by
  induction ops generalizing doc edits with
  | nil =>
      cases hplain
      cases hrun
      exact Or.inl ⟨List.forall_mem_nil _, rfl⟩
  | cons op rest ih =>
      rw [List.forall_mem_cons] at hvalues
      rw [List.mapM_cons] at hplain
      obtain ⟨edit, hedit, hplain⟩ := Option.bind_eq_some_iff.mp hplain
      obtain ⟨others, hothers, hedits⟩ := Option.bind_eq_some_iff.mp hplain
      cases hedits
      rw [Edit.runAll] at hrun
      cases hfirst : edit.run doc with
      | error fault =>
          rw [hfirst] at hrun
          cases hrun
      | ok next =>
          rw [hfirst] at hrun
          obtain ⟨hcheck, hof⟩ := plain?_eq_some hedit
          have hnext : next.isCanonical = true :=
            Edit.isCanonical_run (fun v hv => hvalues.1 v (value?_of_plain? hedit v hv)) hdoc hfirst
          by_cases hadmitted : op.Admitted
          · have hop : applyOperation op doc = .ok next :=
              applyOperation_ok_iff.mpr ⟨hcheck, hadmitted, evaluate_of_run hdoc hof hfirst⟩
            rw [applyOperations, hop]
            dsimp only
            rcases ih hnext hvalues.2 hothers hrun with ⟨hall, hout⟩ | ⟨other, hmem, hrefused⟩
            · exact Or.inl ⟨List.forall_mem_cons.mpr ⟨hadmitted, hall⟩, hout⟩
            · exact Or.inr ⟨other, List.mem_cons_of_mem _ hmem, hrefused⟩
          · obtain ⟨pointer, hpointer, e, hcheckPointer, hop⟩ : ∃ pointer ∈ op.pointers, ∃ e,
                checkPointer pointer = .error e ∧ applyOperation op doc = .error e :=
              applyOperation_not_admitted hcheck hadmitted
            refine Or.inr ⟨op, List.mem_cons_self, pointer, hpointer, e, hcheckPointer, ?_⟩
            rw [applyOperations, hop]

/-- **Operations extend plain edits.**  Where the edits that operations stand for can be run in
    order, the operations give the same document exactly if all their pointers are let through, and
    else are refused for one of these; so they never give another document. -/
theorem applyOperations_extends {ops : List Operation} {edits : List Edit}
    (hdoc : doc.isCanonical = true)
    (hvalues : ∀ op ∈ ops, ∀ v, op.value = some v → v.isCanonical = true)
    (hplain : ops.mapM Operation.plain? = some edits) (hrun : Edit.runAll edits doc = .ok out) :
    (applyOperations ops doc = .ok out ↔ ∀ op ∈ ops, op.Admitted) ∧
      ((∃ op ∈ ops, ¬ op.Admitted) → ∃ op ∈ ops, ∃ pointer ∈ op.pointers, ∃ e,
        checkPointer pointer = .error e ∧ applyOperations ops doc = .error e) := by
  rcases applyOperations_of_runAll hdoc hvalues hplain hrun with ⟨hall, hout⟩ | hrefused
  · refine ⟨iff_of_true hout hall, ?_⟩
    rintro ⟨op, hop, hnot⟩
    exact absurd (hall op hop) hnot
  · refine ⟨iff_of_false ?_ ?_, fun _ => hrefused⟩
    · obtain ⟨-, -, -, -, e, -, herror⟩ := hrefused
      intro hout
      cases hout.symm.trans herror
    · obtain ⟨op, hop, pointer, hpointer, e, herror, -⟩ := hrefused
      intro hall
      cases ((checkPointer_iff pointer).mpr (hall op hop pointer hpointer)).symm.trans herror

/-- The addition of a member whose name looks like a number, and a test of it. -/
def numberedAddition : List Operation :=
  [⟨.add, "/5/01", none, some (.int 1)⟩, ⟨.test, "/5/01", none, some (.int 1)⟩]

/-- The name is no index, and the member is added as plain edits add it. -/
theorem applyOperations_extends_numbered :
    Edit.runAll [.add ["5", "01"] (.int 1), .test ["5", "01"] (.int 1)] (.obj [("5", .obj [])]) =
        .ok (.obj [("5", .obj [("01", .int 1)])]) ∧
      applyOperations numberedAddition (.obj [("5", .obj [])]) =
        .ok (.obj [("5", .obj [("01", .int 1)])]) := by
  have hrun : Edit.runAll [.add ["5", "01"] (.int 1), .test ["5", "01"] (.int 1)]
      (.obj [("5", .obj [])]) = .ok (.obj [("5", .obj [("01", .int 1)])]) := rfl
  have hplain : numberedAddition.mapM Operation.plain? =
      some [.add ["5", "01"] (.int 1), .test ["5", "01"] (.int 1)] := rfl
  refine ⟨hrun, (applyOperations_extends rfl ?_ hplain hrun).1.mpr ?_⟩
  · intro op hop v hv
    simp only [numberedAddition, List.mem_cons, List.not_mem_nil, or_false] at hop
    rcases hop with rfl | rfl
    · cases hv
      rfl
    · cases hv
      rfl
  · have hpasses : Operation.Passes "/5/01" := (checkPointer_iff _).mp rfl
    intro op hop pointer hpointer
    simp only [numberedAddition, List.mem_cons, List.not_mem_nil, or_false] at hop
    rcases hop with rfl | rfl
    · cases List.mem_singleton.mp hpointer
      exact hpasses
    · cases List.mem_singleton.mp hpointer
      exact hpasses

/-- A member whose name looks like an index below zero is not added, and neither is one if the
    addition has a source that it has no use for. -/
theorem plain_additions_refused :
    (([⟨.add, "/-1", none, some (.int 1)⟩] : List Operation).mapM Operation.plain? =
        some [.add ["-1"] (.int 1)] ∧
      Edit.runAll [.add ["-1"] (.int 1)] (.obj []) = .ok (.obj [("-1", .int 1)]) ∧
      applyOperations [⟨.add, "/-1", none, some (.int 1)⟩] (.obj []) =
        .error (.negativeIndex "-1" "/-1")) ∧
    ([⟨.add, "/a", some "x", some (.int 1)⟩] : List Operation).mapM Operation.plain? =
        some [.add ["a"] (.int 1)] ∧
      Edit.runAll [.add ["a"] (.int 1)] (.obj []) = .ok (.obj [("a", .int 1)]) ∧
      applyOperations [⟨.add, "/a", some "x", some (.int 1)⟩] (.obj []) =
        .error (.pointerStart "x") :=
  ⟨⟨rfl, rfl, rfl⟩, rfl, rfl, rfl⟩

end Patch

end ModelOperator

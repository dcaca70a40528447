import ModelOperator.Proofs.Json.Pointer

/-!
# Edits of a canonical document

    What is found in a canonical document is canonical, and so is what a change of such a part
    leaves behind.  Hence a canonical document stays one under an edit with a canonical value
    (`Edit.isCanonical_run`), that is under all edits that a patch holds. -/

namespace ModelOperator

namespace Json

variable {v w out value : Json} {token : String} {tokens : List String}

theorem isCanonical_child? (hv : v.isCanonical = true) (h : v.child? token = some w) :
    w.isCanonical = true := by
  cases v with
  | obj ms => exact isCanonical_of_get? hv h
  | arr items =>
      obtain ⟨i, -, hitem⟩ := Option.bind_eq_some_iff.mp h
      exact (isCanonical_arr_iff items).mp hv w (List.mem_of_getElem? hitem)
  | _ => cases h

theorem isCanonical_at? (hv : v.isCanonical = true) (h : v.at? tokens = some w) :
    w.isCanonical = true := by
  induction tokens generalizing v with
  | nil =>
      cases h
      exact hv
  | cons token rest ih =>
      obtain ⟨x, hx, hrest⟩ := Option.bind_eq_some_iff.mp h
      exact ih (isCanonical_child? hv hx) hrest

theorem isCanonical_setChild (hv : v.isCanonical = true) (hw : w.isCanonical = true) :
    (setChild token w v).isCanonical = true := by
  cases v with
  | obj ms => exact isCanonical_insert hv token hw
  | arr items =>
      rw [setChild]
      split
      · rw [isCanonical_arr_iff] at hv ⊢
        intro item hitem
        rcases List.mem_or_eq_of_mem_set hitem with hold | rfl
        · exact hv item hold
        · exact hw
      · exact hv
  | _ => exact hv

/-- A change of a part leaves a canonical document if it leaves a canonical part. -/
theorem isCanonical_change? {f : Json → Option Json}
    (hf : ∀ part new, part.isCanonical = true → f part = some new → new.isCanonical = true)
    (hv : v.isCanonical = true) (h : change? f tokens v = some out) : out.isCanonical = true := by
  induction tokens generalizing v out with
  | nil => exact hf v out hv h
  | cons token rest ih =>
      rw [change?] at h
      cases hx : v.child? token with
      | none =>
          rw [hx] at h
          cases h
      | some x =>
          rw [hx] at h
          obtain ⟨new, hnew, rfl⟩ := Option.map_eq_some_iff.mp h
          exact isCanonical_setChild hv (ih (isCanonical_child? hv hx) hnew)

theorem isCanonical_insertChild? (hvalue : value.isCanonical = true) (hv : v.isCanonical = true)
    (h : insertChild? token value v = some out) : out.isCanonical = true := by
  cases v with
  | obj ms =>
      cases h
      exact isCanonical_insert hv token hvalue
  | arr items =>
      rw [insertChild?_arr] at h
      obtain ⟨i, hi, rfl⟩ := Option.map_eq_some_iff.mp h
      rw [isCanonical_arr_iff] at hv ⊢
      intro item hitem
      rcases (List.mem_insertIdx (newPlace?_le hi)).mp hitem with rfl | hold
      · exact hvalue
      · exact hv item hold
  | _ => cases h

theorem isCanonical_removeChild? (hv : v.isCanonical = true)
    (h : removeChild? token v = some out) : out.isCanonical = true := by
  cases v with
  | obj ms =>
      rw [removeChild?] at h
      split at h
      · cases h
        exact isCanonical_erase hv token
      · cases h
  | arr items =>
      rw [removeChild?] at h
      split at h
      · split at h
        · cases h
          rw [isCanonical_arr_iff] at hv ⊢
          intro item hitem
          exact hv item (List.mem_of_mem_eraseIdx hitem)
        · cases h
      · cases h
  | _ => cases h

theorem isCanonical_addAt? (hvalue : value.isCanonical = true) (hv : v.isCanonical = true)
    (h : v.addAt? tokens value = some out) : out.isCanonical = true := by
  rw [addAt?] at h
  split at h
  · cases h
    exact hvalue
  · exact isCanonical_change? (fun _ _ => isCanonical_insertChild? hvalue) hv h

theorem isCanonical_removeAt? (hv : v.isCanonical = true) (h : v.removeAt? tokens = some out) :
    out.isCanonical = true := by
  rw [removeAt?] at h
  split at h
  · cases h
  · exact isCanonical_change? (fun _ _ => isCanonical_removeChild?) hv h

end Json

namespace Edit

/-- The value that an edit brings. -/
def value? : Edit → Option Json
  | add _ value => some value
  | replace _ value => some value
  | test _ value => some value
  | _ => none

variable {doc out : Json}

/-- **A canonical document stays canonical** under an edit with a canonical value. -/
theorem isCanonical_run {edit : Edit} (hvalue : ∀ v ∈ edit.value?, v.isCanonical = true)
    (hdoc : doc.isCanonical = true) (h : run doc edit = .ok out) : out.isCanonical = true := by
  cases edit with
  | add path value => exact Json.isCanonical_addAt? (hvalue value rfl) hdoc (orFault_ok h)
  | remove path => exact Json.isCanonical_removeAt? hdoc (orFault_ok h)
  | replace path value =>
      refine Json.isCanonical_change? ?_ hdoc (orFault_ok h)
      rintro part new - ⟨⟩
      exact hvalue value rfl
  | move source path =>
      rw [run] at h
      split at h
      · cases h
      · split at h
        · rename_i moved rest hmoved hrest
          exact Json.isCanonical_addAt? (Json.isCanonical_at? hdoc hmoved)
            (Json.isCanonical_removeAt? hdoc hrest) (orFault_ok h)
        · cases h
  | copy source path =>
      rw [run] at h
      split at h
      · rename_i copied hcopied
        exact Json.isCanonical_addAt? (Json.isCanonical_at? hdoc hcopied) hdoc (orFault_ok h)
      · cases h
  | test path value =>
      rw [run] at h
      split at h
      · split at h
        · cases h
          exact hdoc
        · cases h
      · cases h

end Edit

end ModelOperator

import ModelOperator.Proofs.Json.Members

/-!
# Reading records back

    A record whose names increase is read member by member through `Members.get?`.  Two
    kinds of facts follow: what a reader makes of an object that was written or merged
    (`Record.defaulted_named`, `Record.defaulted_merged`), and what must hold of a value
    that any record gave (`Record.required_ok`, `Record.defaulted_ok`). -/

namespace ModelOperator

/-- Two readings in a row succeed if both do. -/
theorem Reading.bind_ok {α β : Type} {x : Reading α} {f : α → Reading β} {b : β}
    (h : (x >>= f) = .ok b) : ∃ a, x = .ok a ∧ f a = .ok b := by
  cases x with
  | error e => cases h
  | ok a => exact ⟨a, rfl, h⟩

theorem Reading.ok_bind {α β : Type} (a : α) (f : α → Reading β) :
    ((.ok a : Reading α) >>= f) = f a :=
  rfl

/-- After a reading that succeeds, what follows decides. -/
theorem Reading.bind_eq {α β : Type} {x : Reading α} {f : α → Reading β} {a : α} {y : Reading β}
    (hx : x = .ok a) (hf : f a = y) : (x >>= f) = y := by
  rw [hx]
  exact hf

/-- A reading whose result is changed has read something. -/
theorem Reading.map_ok {α β : Type} {x : Reading α} {f : α → β} {b : β}
    (h : x.map f = .ok b) : ∃ a, x = .ok a ∧ f a = b := by
  cases x with
  | error e => cases h
  | ok a => exact ⟨a, rfl, Except.ok.inj h⟩

namespace Reader

variable {α : Type} {read : Reader α}

/-- Each item that is read comes from some document. -/
theorem each_ok {vs : List Json} {as : List α} (h : each read vs = .ok as) :
    ∀ a ∈ as, ∃ v, read v = .ok a := by
  induction vs generalizing as with
  | nil =>
      cases h
      intro a ha
      cases ha
  | cons v rest ih =>
      rw [each] at h
      split at h
      · cases h
      · rename_i a ha
        split at h
        · cases h
        · rename_i more hmore
          cases h
          intro b hb
          rcases List.mem_cons.mp hb with rfl | hb
          · exact ⟨v, ha⟩
          · exact ih hmore b hb

/-- A list whose items are read as they were written is read as it was written. -/
theorem each_map {write : α → Json} {as : List α} (h : ∀ a ∈ as, read (write a) = .ok a) :
    each read (as.map write) = .ok as := by
  induction as with
  | nil => rfl
  | cons a rest ih =>
      unfold each
      simp only [List.map_cons, h a List.mem_cons_self,
        ih fun b hb => h b (List.mem_cons_of_mem _ hb)]

/-- An integer that is read lies within its limits. -/
theorem within_ok {name : String} {low high n : Int} {v : Json}
    (h : within name low high v = .ok n) : v = .int n ∧ low ≤ n ∧ n ≤ high := by
  simp only [within] at h
  split at h
  · split at h
    · rename_i hrange
      cases h
      exact ⟨rfl, hrange⟩
    · cases h
  · cases h

/-- An integer within the limits is read as it is. -/
theorem within_int {name : String} {low high n : Int} (h : low ≤ n ∧ n ≤ high) :
    within name low high (.int n) = .ok n := by
  show (if low ≤ n ∧ n ≤ high then .ok n else _) = Except.ok n
  rw [if_pos h]

/-- A natural number below the limit of 64 bits is read as it is. -/
theorem word64_int {n : Nat} (h : n ≤ 18446744073709551615) : word64 (.int n) = .ok n := by
  have hrange : (0 : Int) ≤ n ∧ (n : Int) ≤ 18446744073709551615 := by omega
  rw [word64, within_int hrange]
  rfl

end Reader

namespace Record

variable {α : Type} {r : Record} {place : Nat} {key : String} {read : Reader α} {a dflt : α}

/-! ## What a record gave -/

/-- A required member that is read comes from some document. -/
theorem required_ok (h : r.required place key read = .ok a) : ∃ v, read v = .ok a := by
  rw [required] at h
  split at h
  · cases h
  · rw [lacks] at h
    split at h <;> cases h
  · rename_i v _
    exact ⟨v, h⟩

/-- A member that is read is the default or comes from some document. -/
theorem defaulted_ok (h : r.defaulted place key read dflt = .ok a) :
    a = dflt ∨ ∃ v, read v = .ok a := by
  rw [defaulted] at h
  split at h
  · cases h
  · exact Or.inl (Except.ok.inj h).symm
  · rename_i v _
    exact Or.inr ⟨v, h⟩

/-- A value that is read and not null comes from some document. -/
theorem orNull_ok {v : Json} (h : orNull read v = .ok (some a)) : ∃ v, read v = .ok a := by
  simp only [orNull] at h
  split at h
  · cases h
  · obtain ⟨a', ha, heq⟩ := Reading.map_ok h
    cases heq
    exact ⟨_, ha⟩

/-- What is not null is read as without the null. -/
theorem orNull_eq {v : Json} (hnull : v.isNull = false) (h : read v = .ok a) :
    orNull read v = .ok (some a) := by
  cases v with
  | null => cases hnull
  | _ =>
      show (read _).map some = .ok (some a)
      rw [h]
      rfl

/-- An optional member that is read comes from some document. -/
theorem nullable_ok {x : Option α} (h : r.nullable place key read = .ok x) (hx : x = some a) :
    ∃ v, read v = .ok a := by
  subst hx
  rcases defaulted_ok h with h | ⟨v, h⟩
  · cases h
  · exact orNull_ok h

/-- An optional member that a list must have comes from some document, too. -/
theorem positional_ok {x : Option α} (h : r.positional place key read = .ok x) (hx : x = some a) :
    ∃ v, read v = .ok a := by
  rw [positional] at h
  split at h
  · exact nullable_ok h hx
  · obtain ⟨v, hv⟩ := required_ok h
    exact orNull_ok (hv.trans (congrArg Except.ok hx))

/-! ## Records by name -/

/-- A record whose members are found by name. -/
def named (name : String) (size : Nat) (ms : Members) : Record := ⟨name, size, .named ms⟩

variable {name : String} {size : Nat} {ms : Members}

theorem of_obj (name : String) (size : Nat) (ms : Members) :
    of name size (.obj ms) = .ok (named name size ms) :=
  rfl

/-- Where names are in order, a member is found under its name alone. -/
theorem find?_named (h : Members.increasing ms = true) (place : Nat) (key : String) :
    (named name size ms).find? place key = .ok (Members.get? key ms) := by
  rw [Members.increasing_iff_pairwise] at h
  -- with names that increase, at most one member has the name
  have hfilter : ms.filter (fun m => m.1 == key) =
      ((Members.get? key ms).map fun v => (key, v)).toList := by
    induction ms with
    | nil => rfl
    | cons first rest ih =>
        obtain ⟨k, v⟩ := first
        obtain ⟨hfirst, hrest⟩ := List.pairwise_cons.mp h
        by_cases hk : k = key
        · subst hk
          have habsent : Members.get? k rest = none := Members.get?_eq_none fun m hm heq =>
            String.lt_irrefl k (heq ▸ hfirst m hm)
          rw [List.filter_cons_of_pos (by simp), ih hrest, habsent]
          simp [Members.get?]
        · rw [List.filter_cons_of_neg (by simp [hk]), ih hrest]
          simp [Members.get?, hk]
  rw [find?, named]
  simp only [hfilter]
  cases Members.get? key ms <;> rfl

/-- A required member that is there is what is read. -/
theorem required_named (h : Members.increasing ms = true) {v : Json}
    (hget : Members.get? key ms = some v) :
    (named name size ms).required place key read = read v := by
  rw [required]
  rw [find?_named h, hget]

/-- A member that is there is read, and the default stands for one that is not. -/
theorem defaulted_named (h : Members.increasing ms = true) :
    (named name size ms).defaulted place key read dflt =
      match Members.get? key ms with
      | some v => read v
      | none => .ok dflt := by
  rw [defaulted]
  rw [find?_named h]
  cases Members.get? key ms <;> rfl

/-- **A merged record.**  A member is read from the patch, merged with what was there, or
    else from what was there alone. -/
theorem defaulted_merged {patch target : Members} (hpatch : Members.increasing patch = true)
    (hkeep : Json.KeepsAll patch) (htarget : Members.increasing target = true) :
    (named name size (Json.mergeMembers patch target)).defaulted place key read dflt =
      match Members.get? key patch with
      | some v => read (Json.mergePatch v ((Members.get? key target).getD .null))
      | none => (named name size target).defaulted place key read dflt := by
  rw [defaulted_named (Json.increasing_mergeMembers patch htarget),
    Json.get?_mergeMembers hpatch hkeep, defaulted_named htarget]
  cases Members.get? key patch <;> rfl

/-! ## Members that are merged into a record -/

/-- Members that can be merged into a record: no name is written twice, and nothing that
    is written is null. -/
structure Mergeable (entries : List (String × Option Json)) : Prop where
  nodup : (entries.map Prod.fst).Nodup
  notNull : ∀ entry ∈ entries, ∀ v, entry.2 = some v → v.isNull = false

/-- After a merge a member is read from the patch merged into the old one, or from the old one. -/
theorem defaulted_mergeable {entries : List (String × Option Json)} (h : Mergeable entries)
    {target : Members} (htarget : Members.increasing target = true) {x : Option Json}
    (hx : (entries.lookup key).join = x) :
    (named name size (Json.mergeMembers (Members.ofList (present entries)) target)).defaulted
        place key read dflt =
      x.elim ((named name size target).defaulted place key read dflt)
        fun v => read (Json.mergePatch v ((Members.get? key target).getD .null)) := by
  rw [defaulted_merged (Members.increasing_ofList _) (Json.keepsAll_ofPresent h.notNull) htarget,
    Members.get?_ofPresent h.nodup, hx]
  cases x <;> rfl

/-- A required member of the patch is read from the patch merged into the old one. -/
theorem required_mergeable {entries : List (String × Option Json)} (h : Mergeable entries)
    {target : Members} (htarget : Members.increasing target = true) {v : Json}
    (hv : (entries.lookup key).join = some v) :
    (named name size (Json.mergeMembers (Members.ofList (present entries)) target)).required
        place key read =
      read (Json.mergePatch v ((Members.get? key target).getD .null)) := by
  refine required_named (Json.increasing_mergeMembers _ htarget) ?_
  rw [Json.get?_mergeMembers (Members.increasing_ofList _) (Json.keepsAll_ofPresent h.notNull),
    Members.get?_ofPresent h.nodup, hv]

/-- Members that are written are merged into an object one by one. -/
theorem mergePatch_ofPresent (entries : List (String × Option Json)) (target : Members) :
    Json.mergePatch (.ofPresent entries) (.obj target) =
      .obj (Json.mergeMembers (Members.ofList (present entries)) target) := by
  show Json.mergePatch (.obj (Members.ofList (present entries))) (.obj target) = _
  simp only [Json.mergePatch]

/-- What a stored document holds under the name of a member, if it is an object: that, and
    only that, a merge does not replace as a whole. -/
def namedMember? {α : Type} (read : Reader α) (key : String) (doc : Json) : Option α :=
  match doc.get? key with
  | some (.obj ms) => (read (.obj ms)).toOption
  | _ => none

/-- A member of a stored document that holds an object was read from it. -/
theorem positional_object {doc : Json} (hcanonical : doc.isCanonical = true)
    (hr : of name size doc = .ok r) {sub : Members} (hget : doc.get? key = some (.obj sub))
    {x : Option α} (h : r.positional place key read = .ok x) :
    ∃ a, read (.obj sub) = .ok a ∧ x = some a ∧ (Json.obj sub).isCanonical = true := by
  cases doc with
  | obj ms =>
      cases hr
      have hmember : (named name size ms).nullable place key read = .ok x := h
      rw [nullable] at hmember
      rw [defaulted_named (Json.increasing_of_isCanonical hcanonical),
        show Members.get? key ms = some (.obj sub) from hget] at hmember
      obtain ⟨a, ha, hx⟩ := Reading.map_ok (show (read (.obj sub)).map some = .ok x from hmember)
      exact ⟨a, ha, hx.symm, Json.isCanonical_of_get? hcanonical hget⟩
  | _ => cases hget

/-- **A merged member.**  An object that is merged into a member goes over what the member
    holds by name, and over nothing where it holds something else. -/
theorem read_mergedMember {α : Type} {read : Reader α} {name key : String} {size place : Nat}
    {target : Members} (hcanonical : (Json.obj target).isCanonical = true) {old : Option α}
    (hold : (named name size target).nullable place key read = .ok old)
    {entries : List (String × Option Json)} {f : α → α} {e : α}
    (hempty : read (Json.mergePatch (.ofPresent entries) (.obj [])) = .ok (f e))
    (hmerge : ∀ ms a, Members.increasing ms = true → read (.obj ms) = .ok a →
      read (Json.mergePatch (.ofPresent entries) (.obj ms)) = .ok (f a)) :
    orNull read (Json.mergePatch (.ofPresent entries) ((Members.get? key target).getD .null)) =
      .ok (some (f ((namedMember? read key (.obj target)).getD e))) := by
  -- an object is no null, so the reader goes on to what the object holds
  have hobject : ∀ {target a}, read (Json.mergePatch (.ofPresent entries) target) = .ok a →
      orNull read (Json.mergePatch (.ofPresent entries) target) = .ok (some a) := by
    intro target a h
    rw [Json.ofPresent, Json.ofMembers] at h ⊢
    simp only [Json.mergePatch] at h ⊢
    show (read _).map some = _
    rw [h]
    rfl
  rw [nullable] at hold
  rw [defaulted_named (Json.increasing_of_isCanonical hcanonical)] at hold
  have hmember : namedMember? read key (.obj target) = match Members.get? key target with
      | some (.obj ms) => (read (.obj ms)).toOption
      | _ => none := rfl
  rw [hmember]
  cases hget : Members.get? key target with
  | none => exact hobject ((congrArg read (Json.mergePatch_of_not_object _ rfl)).trans hempty)
  | some v =>
      cases v with
      | obj ms =>
          -- the old member was read from this object, so the new one goes over it
          rw [hget] at hold
          obtain ⟨a, ha, -⟩ := Reading.map_ok (show (read (.obj ms)).map some = .ok old from hold)
          have hms := Json.increasing_of_isCanonical (Json.isCanonical_of_get? hcanonical hget)
          simp only [ha, Except.toOption, Option.getD_some]
          exact hobject (hmerge ms a hms ha)
      | _ => exact hobject ((congrArg read (Json.mergePatch_of_not_object _ rfl)).trans hempty)

end Record

end ModelOperator

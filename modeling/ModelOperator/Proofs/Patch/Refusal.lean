import ModelOperator.Patch.Apply
import ModelOperator.Proofs.Patch.Storing

/-!
# Patches that are refused

    A strategic merge patch can be faulty on its own: with a directive that there is not, with
    `$retainKeys` that are no list, or with an item that lacks the key of its list (`Fault`).  But
    faults are found by merging, and what meets nothing is stored without being looked at.

    So a patch is refused exactly if one of its faults meets a value of the document that it is
    merged with (`Meets`), and the refusal names such a fault (`applyStrategic_refused`).  Whether
    it is refused then depends on the document, unless the fault is on the patch object itself
    (`malformed_accepted`). -/

namespace ModelOperator

namespace Patch

variable {keys : MergeKeys} {path : List String}

/-! ## Faults and where they are met -/

/-- What is wrong with a value of a patch, whatever it is merged with. -/
inductive Fault (keys : MergeKeys) (path : List String) : Json → Error → Prop
  /-- An object has a directive that there is not. -/
  | directive {ms : Members} {other : String} (h : directive? ms = some other)
      (hmerge : other ≠ "merge") (hreplace : other ≠ "replace") :
      Fault keys path (.obj ms) (.unknownDirective other (pathText path))
  /-- It is to be merged, and the members to be kept are no list. -/
  | retain {ms : Members} {v : Json}
      (h : directive? ms = none ∨ directive? ms = some "merge")
      (hv : Members.get? "$retainKeys" ms = some v) (hlist : v.asItems? = none) :
      Fault keys path (.obj ms) (.retainKeysNotList (pathText path))
  /-- A list is to be merged by key, and one of its objects lacks the key. -/
  | item {items : List Json} {fields : Members} {key : String}
      (hkey : keys.keyFor? (".".intercalate path) = some key)
      (hreplace : items.any isReplaceItem = false) (hitem : .obj fields ∈ items)
      (habsent : Members.get? key fields = none) :
      Fault keys path (.arr items) (.missingMergeKey (pathText path) key)

/-- A value of a patch is merged with a value of a document, and on the way a part of it, at a
    path of names, is merged with something of its kind. -/
inductive Meets (keys : MergeKeys) : List String → Json → Json → List String → Json → Prop
  /-- An object meets an object. -/
  | object {path : List String} {child existing : Members} :
      Meets keys path (.obj child) (.obj existing) path (.obj child)
  /-- A list meets a list that is merged by key. -/
  | list {path : List String} {items existing : List Json} {key : String}
      (hkey : keys.keyFor? (".".intercalate path) = some key) :
      Meets keys path (.arr items) (.arr existing) path (.arr items)
  /-- A member of an object that is merged meets the one of its name. -/
  | member {path behind : List String} {child existing : Members} {name : String} {v d u : Json}
      (hmerge : directive? child = none ∨ directive? child = some "merge")
      (hname : isDirectiveName name = false) (hv : Members.get? name child = some v)
      (hkeep : isDeleteItem v = false) (hd : Members.get? name existing = some d)
      (h : Meets keys (path ++ [name]) v d behind u) :
      Meets keys path (.obj child) (.obj existing) behind u
  /-- An item of a list meets the first item with its key, in what the items before it left. -/
  | item {path behind : List String} {before after existing old rest : List Json}
      {fields : Members} {key : String} {d u : Json}
      (hkey : keys.keyFor? (".".intercalate path) = some key)
      (hreplace : (before ++ .obj fields :: after).any isReplaceItem = false)
      (hbefore : mergeItems keys path key before existing = .ok (old ++ d :: rest))
      (hkeep : isDelete fields = false) (hfirst : ∀ other ∈ old, ¬ SameKey key (.obj fields) other)
      (hd : SameKey key (.obj fields) d) (h : Meets keys path (.obj fields) d behind u) :
      Meets keys path (.arr (before ++ .obj fields :: after)) (.arr existing) behind u

/-- A merge of two values of one kind that is refused. -/
inductive Refuses (keys : MergeKeys) (path : List String) : Json → Json → Error → Prop
  | object {child existing : Members} {e : Error}
      (h : mergeObject keys path child existing = .error e) :
      Refuses keys path (.obj child) (.obj existing) e
  | list {items existing : List Json} {key : String} {e : Error}
      (hkey : keys.keyFor? (".".intercalate path) = some key)
      (h : mergeList keys path key items existing = .error e) :
      Refuses keys path (.arr items) (.arr existing) e

/-- Every fault is told as a patch that cannot be decoded, at the strategic stage. -/
theorem Fault.decode {u : Json} {e : Error} (h : Fault keys path u e) :
    e.errorClass = .decode ∧ e.stage = .strategic := by
  cases h <;> exact ⟨rfl, rfl⟩

/-! ## Values -/

/-- A value is refused only where it meets one of its kind. -/
theorem mergeValue_error_iff {v d : Json} {e : Error} :
    mergeValue keys path v (some d) = .error e ↔ isDeleteItem v = false ∧ Refuses keys path v d e := by
  cases v with
  | obj child =>
      cases hdelete : isDelete child with
      | true =>
          rw [mergeValue_delete hdelete, isDeleteItem, hdelete]
          exact iff_of_false (by rintro ⟨⟩) (by rintro ⟨⟨⟩, -⟩)
      | false =>
          rw [isDeleteItem, hdelete, and_iff_right rfl]
          cases d with
          | obj existing =>
              rw [mergeValue_object hdelete, map_error]
              refine ⟨.object, fun h => ?_⟩
              cases h with
              | object h => exact h
          | _ =>
              rw [mergeValue_new_object hdelete (by rintro _ ⟨⟩)]
              exact iff_of_false (by rintro ⟨⟩) (by rintro ⟨⟩)
  | arr items =>
      rw [and_iff_right (show isDeleteItem (.arr items) = false from rfl)]
      by_cases hmeets : ∃ key existing, keys.keyFor? (".".intercalate path) = some key ∧
          d = .arr existing
      · obtain ⟨key, existing, hkey, rfl⟩ := hmeets
        rw [mergeValue_keyed hkey, map_error]
        refine ⟨.list hkey, fun h => ?_⟩
        cases h with
        | list hkey' h =>
            cases hkey.symm.trans hkey'
            exact h
      · rw [mergeValue_unkeyed fun key existing hkey heq =>
          hmeets ⟨key, existing, hkey, Option.some.inj heq⟩]
        refine iff_of_false (by split <;> rintro ⟨⟩) fun h => ?_
        cases h with
        | list hkey => exact hmeets ⟨_, _, hkey, rfl⟩
  | _ => exact iff_of_false (by rintro ⟨⟩) (by rintro ⟨-, ⟨⟩⟩)

/-! ## Objects -/

/-- An object without a directive of its own is merged member by member. -/
theorem mergeObject_merges {child : Members}
    (hmerge : directive? child = none ∨ directive? child = some "merge") (existing : Members) :
    mergeObject keys path child existing =
      mergeMembers keys path child existing >>= retainKeys path child := by
  rw [mergeObject, directed]
  rcases hmerge with h | h <;> rw [h] <;> rfl

/-- Retaining keys fails only for a list of names that is none. -/
theorem retainKeys_error {patch merged : Members} {e : Error}
    (h : retainKeys path patch merged = .error e) :
    ∃ v, Members.get? "$retainKeys" patch = some v ∧ v.asItems? = none ∧
      e = .retainKeysNotList (pathText path) := by
  rw [retainKeys] at h
  split at h
  · cases h
  · cases h
  · rename_i v hlist hv
    cases h
    refine ⟨v, hv, ?_, rfl⟩
    cases v with
    | arr items => exact (hlist items rfl).elim
    | _ => rfl

/-- An object is refused for its own fault or for what is wrong with its members. -/
theorem mergeObject_error {child existing : Members} {e : Error}
    (h : mergeObject keys path child existing = .error e) :
    Fault keys path (.obj child) e ∨
      (directive? child = none ∨ directive? child = some "merge") ∧
        mergeMembers keys path child existing = .error e := by
  by_cases hmerge : directive? child = none ∨ directive? child = some "merge"
  · rw [mergeObject_merges hmerge] at h
    rcases bind_error h with hmembers | ⟨merged, -, hretain⟩
    · exact Or.inr ⟨hmerge, hmembers⟩
    · obtain ⟨v, hv, hlist, rfl⟩ := retainKeys_error hretain
      exact Or.inl (.retain hmerge hv hlist)
  · obtain ⟨hnone, hmerge⟩ := not_or.mp hmerge
    obtain ⟨other, hother⟩ := Option.ne_none_iff_exists'.mp hnone
    rw [mergeObject, directed] at h
    split at h
    · cases h
    · exact absurd ‹_› hmerge
    · exact absurd ‹_› hnone
    · rename_i directive hreplace hmerge' hdirective
      cases h
      exact Or.inl (.directive hdirective hmerge' hreplace)

/-- An object with a fault is refused, whatever it is merged into. -/
theorem mergeObject_of_fault {child : Members} {e : Error} (h : Fault keys path (.obj child) e)
    (existing : Members) : ∃ e, mergeObject keys path child existing = .error e := by
  cases h with
  | @directive _ other hdirective hmerge hreplace =>
      refine ⟨.unknownDirective other (pathText path), ?_⟩
      rw [mergeObject, directed, hdirective]
      split
      · rename_i heq
        exact absurd (Option.some.inj heq) hreplace
      · rename_i heq
        exact absurd (Option.some.inj heq) hmerge
      · rename_i heq
        cases heq
      · rename_i heq
        cases heq
        rfl
  | retain hmerge hv hlist =>
      rw [mergeObject_merges hmerge]
      cases mergeMembers keys path child existing with
      | error e => exact ⟨e, rfl⟩
      | ok merged =>
          refine ⟨.retainKeysNotList (pathText path), ?_⟩
          change retainKeys path child merged = _
          rw [retainKeys, hv]
          split
          · rename_i heq
            cases heq
          · rename_i heq
            cases heq
            cases hlist
          · rfl

/-- Members are refused for one of them, merged with what the object has under its name. -/
theorem mergeMembers_error {patch base : Members} {e : Error}
    (hpatch : Members.increasing patch = true) (hbase : Members.increasing base = true)
    (h : mergeMembers keys path patch base = .error e) :
    ∃ name v, Members.get? name patch = some v ∧ isDirectiveName name = false ∧
      mergeValue keys (path ++ [name]) v (Members.get? name base) = .error e := by
  rw [Members.increasing_iff_pairwise] at hpatch
  induction patch generalizing base with
  | nil =>
      rw [mergeMembers] at h
      cases h
  | cons first rest ih =>
      obtain ⟨k, w⟩ := first
      obtain ⟨hfirst, hrest⟩ := List.pairwise_cons.mp hpatch
      -- the names behind the first one are others
      have hbehind : ∀ {name : String} {v : Json}, Members.get? name rest = some v → k ≠ name := by
        rintro name v hv rfl
        exact String.lt_irrefl k (hfirst _ (Members.mem_of_get? hv))
      rw [mergeMembers_cons] at h
      cases hk : isDirectiveName k with
      | true =>
          rw [if_pos hk] at h
          obtain ⟨name, v, hv, hname, hvalue⟩ := ih hrest hbase h
          refine ⟨name, v, ?_, hname, hvalue⟩
          rw [Members.get?, if_neg (hbehind hv)]
          exact hv
      | false =>
          rw [hk, if_neg Bool.false_ne_true] at h
          rcases bind_error h with hvalue | ⟨value, -, hmore⟩
          · exact ⟨k, w, Members.get?_cons_self k w rest, hk, hvalue⟩
          · obtain ⟨name, v, hv, hname, hvalue⟩ := ih hrest (increasing_putMember hbase k value) hmore
            rw [get?_putMember hbase, if_neg (hbehind hv)] at hvalue
            refine ⟨name, v, ?_, hname, hvalue⟩
            rw [Members.get?, if_neg (hbehind hv)]
            exact hv

/-! ## Lists -/

/-- The first item of a patch is merged, and then the others. -/
theorem mergeItems_first {key : String} (item : Json) (rest base : List Json) :
    mergeItems keys path key (item :: rest) base =
      mergeItems keys path key [item] base >>= mergeItems keys path key rest := by
  cases item with
  | obj fields =>
      rw [mergeItems, mergeItems]
      split
      · rfl
      · split
        · split
          · rw [mergeItems]
            rfl
          · split
            · cases directed path fields (mergeMembers keys path fields _) with
              | error e => rfl
              | ok merged =>
                  change _ = mergeItems keys path key [] _ >>= mergeItems keys path key rest
                  rw [mergeItems]
                  rfl
            · rw [mergeItems]
              rfl
        · split
          · rw [mergeItems]
            rfl
          · rw [mergeItems]
            rfl
  | _ =>
      rw [mergeItems, mergeItems]
      · split
        · rw [mergeItems]
          rfl
        · rw [mergeItems]
          rfl
      · rintro _ ⟨⟩
      · rintro _ ⟨⟩

/-- A list of items is merged as its parts are, one after the other. -/
theorem mergeItems_append {key : String} (before after base : List Json) :
    mergeItems keys path key (before ++ after) base =
      mergeItems keys path key before base >>= mergeItems keys path key after := by
  induction before generalizing base with
  | nil =>
      rw [mergeItems]
      rfl
  | cons item rest ih =>
      rw [List.cons_append, mergeItems_first, mergeItems_first item rest, bind_assoc]
      exact congrArg _ (funext ih)

theorem place?_of_first {key : String} {fields : Members} {id : Json}
    (hid : Members.get? key fields = some id) {old rest : List Json} {d : Json}
    (hfirst : ∀ other ∈ old, ¬ SameKey key (.obj fields) other)
    (hd : SameKey key (.obj fields) d) :
    place? key id (old ++ d :: rest) = some old.length := by
  obtain ⟨id', found, hid', hfound, hsame⟩ := hd
  cases hid.symm.trans hid'
  rw [place?, List.findIdx?_append, List.findIdx?_eq_none_iff.mpr, List.findIdx?_cons, hfound]
  · rw [if_pos hsame]
    simp
  · intro other hother
    cases hget : other.get? key with
    | none => rfl
    | some w =>
        refine Bool.eq_false_iff.mpr fun hsame => hfirst other hother ?_
        exact ⟨id, w, hid, hget, hsame⟩

/-- An item is merged with the first item that has its key. -/
theorem mergeItems_met {key : String} {fields existing : Members} (hkeep : isDelete fields = false)
    {old rest : List Json} (hfirst : ∀ other ∈ old, ¬ SameKey key (.obj fields) other)
    (hd : SameKey key (.obj fields) (.obj existing)) :
    mergeItems keys path key [.obj fields] (old ++ .obj existing :: rest) =
      (mergeObject keys path fields existing).map fun ms => old ++ .obj ms :: rest := by
  obtain ⟨id, hid⟩ : ∃ id, Members.get? key fields = some id := by
    obtain ⟨id, -, hid, -⟩ := hd
    exact ⟨id, hid⟩
  have hthere : (old ++ .obj existing :: rest)[old.length]? = some (.obj existing) := by simp
  rw [mergeItems, hid]
  dsimp only
  rw [place?_of_first hid hfirst hd]
  dsimp only
  rw [hkeep, if_neg Bool.false_ne_true, hthere]
  change (mergeObject keys path fields existing >>= fun merged => mergeItems keys path key []
    ((old ++ .obj existing :: rest).set old.length (.obj merged))) = _
  cases mergeObject keys path fields existing with
  | error e => rfl
  | ok ms =>
      change mergeItems keys path key [] _ = _
      rw [mergeItems, List.set_append_right _ _ (Nat.le_refl _), Nat.sub_self, List.set_cons_zero]
      rfl

/-- An item is refused because it lacks the key, or for what is wrong with it where it meets
    another one. -/
theorem mergeItems_single_error {key : String} {item : Json} {base : List Json} {e : Error}
    (h : mergeItems keys path key [item] base = .error e) :
    ∃ fields, item = .obj fields ∧
      (Members.get? key fields = none ∧ e = .missingMergeKey (pathText path) key ∨
        isDelete fields = false ∧ ∃ old existing rest, base = old ++ .obj existing :: rest ∧
          (∀ other ∈ old, ¬ SameKey key (.obj fields) other) ∧
          SameKey key (.obj fields) (.obj existing) ∧
          mergeObject keys path fields existing = .error e) := by
  cases item with
  | obj fields =>
      refine ⟨fields, rfl, ?_⟩
      cases hid : Members.get? key fields with
      | none =>
          rw [mergeItems, hid] at h
          cases h
          exact Or.inl ⟨rfl, rfl⟩
      | some id =>
          refine Or.inr ?_
          cases hplace : place? key id base with
          | none =>
              rw [mergeItems, hid] at h
              dsimp only at h
              rw [hplace] at h
              dsimp only at h
              split at h
              all_goals
                rw [mergeItems] at h
                cases h
          | some i =>
              obtain ⟨old, d, rest, rfl, -, hfirst, hd⟩ :=
                place?_eq_some hplace (show (Json.obj fields).get? key = some id from hid)
              cases hdelete : isDelete fields with
              | true =>
                  rw [mergeItems, hid] at h
                  dsimp only at h
                  rw [hplace] at h
                  dsimp only at h
                  rw [hdelete, if_pos rfl, mergeItems] at h
                  cases h
              | false =>
                  cases d with
                  | obj existing =>
                      rw [mergeItems_met hdelete hfirst hd, map_error] at h
                      exact ⟨rfl, old, existing, rest, rfl, hfirst, hd, h⟩
                  | _ =>
                      obtain ⟨_, _, _, hfound, _⟩ := hd
                      cases hfound
  | _ =>
      rw [mergeItems] at h
      · split at h
        all_goals
          rw [mergeItems] at h
          cases h
      · rintro _ ⟨⟩

/-- Items are refused for one of them, where the ones before it are not. -/
theorem mergeItems_error {key : String} {items base : List Json} {e : Error}
    (h : mergeItems keys path key items base = .error e) :
    ∃ before item after next, items = before ++ item :: after ∧
      mergeItems keys path key before base = .ok next ∧
      mergeItems keys path key [item] next = .error e := by
  induction items generalizing base with
  | nil =>
      rw [mergeItems] at h
      cases h
  | cons first others ih =>
      rw [mergeItems_first] at h
      rcases bind_error h with hfirst | ⟨between, hbetween, hmore⟩
      · exact ⟨[], first, others, base, rfl, by rw [mergeItems], hfirst⟩
      · obtain ⟨before, item, after, next, rfl, hbefore, hitem⟩ := ih hmore
        refine ⟨first :: before, item, after, next, rfl, ?_, hitem⟩
        rw [mergeItems_first, hbetween]
        exact hbefore

/-- What one item refuses, the whole list refuses. -/
theorem mergeItems_refuses {key : String} {before after base next : List Json} {item : Json}
    {e : Error} (hbefore : mergeItems keys path key before base = .ok next)
    (h : mergeItems keys path key [item] next = .error e) :
    mergeItems keys path key (before ++ item :: after) base = .error e := by
  rw [mergeItems_append, hbefore]
  change mergeItems keys path key (item :: after) next = _
  rw [mergeItems_first, h]
  rfl

/-- Items are refused, for one or another, if one of them lacks the key. -/
theorem mergeItems_keyless {key : String} {items : List Json} {fields : Members}
    (hitem : .obj fields ∈ items) (habsent : Members.get? key fields = none) (base : List Json) :
    ∃ e, mergeItems keys path key items base = .error e := by
  obtain ⟨before, after, rfl⟩ := List.append_of_mem hitem
  cases hbefore : mergeItems keys path key before base with
  | error e =>
      refine ⟨e, ?_⟩
      rw [mergeItems_append, hbefore]
      rfl
  | ok next =>
      refine ⟨.missingMergeKey (pathText path) key, mergeItems_refuses hbefore ?_⟩
      rw [mergeItems, habsent]

/-! ## Refusals -/

/-- **Where a merge is refused, a fault is met.** -/
theorem fault_of_refuses {v d : Json} (hv : v.isCanonical = true) (hd : d.isCanonical = true)
    {e : Error} (h : Refuses keys path v d e) :
    ∃ behind u, Meets keys path v d behind u ∧ Fault keys behind u e := by
  induction v using Json.parts_induction generalizing path d e with
  | obj child ih =>
      cases h with
      | @object _ existing _ h =>
          rcases mergeObject_error h with hfault | ⟨hmerge, hmembers⟩
          · exact ⟨path, _, .object, hfault⟩
          · obtain ⟨name, v, hget, hname, hvalue⟩ := mergeMembers_error
              (Json.increasing_of_isCanonical hv) (Json.increasing_of_isCanonical hd) hmembers
            cases hfound : Members.get? name existing with
            | none =>
                -- what meets nothing is never refused
                rw [hfound, mergeValue_none] at hvalue
                cases hvalue
            | some found =>
                rw [hfound] at hvalue
                obtain ⟨hkeep, hrefuses⟩ := mergeValue_error_iff.mp hvalue
                obtain ⟨behind, u, hmeets, hfault⟩ := ih _ (Members.mem_of_get? hget)
                  (Json.isCanonical_of_get? hv hget) (Json.isCanonical_of_get? hd hfound) hrefuses
                exact ⟨behind, u, .member hmerge hname hget hkeep hfound hmeets, hfault⟩
  | arr items ih =>
      cases h with
      | @list _ existing key _ hkey h =>
          have hitems := (Json.isCanonical_arr_iff items).mp hv
          rw [mergeList] at h
          split at h
          · cases h
          · rename_i hreplace
            obtain ⟨before, item, after, next, rfl, hbefore, hitem⟩ := mergeItems_error h
            have hmem : item ∈ before ++ item :: after := List.mem_append_right _ List.mem_cons_self
            obtain ⟨fields, rfl, ⟨habsent, rfl⟩ | ⟨hkeep, old, existing', rest, rfl, hfirst, hsame,
              hmerge⟩⟩ := mergeItems_single_error hitem
            · exact ⟨path, _, .list hkey, .item hkey (Bool.eq_false_iff.mpr hreplace) hmem habsent⟩
            · have hnext := isCanonical_mergeItems before
                (fun item hitem => hitems item (List.mem_append_left _ hitem))
                ((Json.isCanonical_arr_iff existing).mp hd) hbefore
              obtain ⟨behind, u, hmeets, hfault⟩ := ih _ hmem (hitems _ hmem)
                (hnext _ (List.mem_append_right _ List.mem_cons_self)) (.object hmerge)
              exact ⟨behind, u, .item hkey (Bool.eq_false_iff.mpr hreplace) hbefore hkeep hfirst
                hsame hmeets, hfault⟩
  | _ => cases h

/-- **Where a fault is met, the merge is refused.** -/
theorem refuses_of_fault {v d : Json} (hv : v.isCanonical = true) (hd : d.isCanonical = true)
    {behind : List String} {u : Json} (hmeets : Meets keys path v d behind u) {e : Error}
    (hfault : Fault keys behind u e) : ∃ e, Refuses keys path v d e := by
  induction hmeets with
  | @object path child existing =>
      obtain ⟨e, h⟩ := mergeObject_of_fault hfault existing
      exact ⟨e, .object h⟩
  | @list path items existing key hkey =>
      cases hfault with
      | @item _ fields key' hkey' hreplace hitem habsent =>
          obtain ⟨e, hmerge⟩ := mergeItems_keyless hitem habsent existing
          refine ⟨e, .list hkey' ?_⟩
          rw [mergeList, hreplace, if_neg Bool.false_ne_true]
          exact hmerge
  | @member path behind child existing name v found u hmerge hname hget hkeep hfound _ ih =>
      obtain ⟨e, hrefuses⟩ :=
        ih (Json.isCanonical_of_get? hv hget) (Json.isCanonical_of_get? hd hfound) hfault
      have hvalue := mergeValue_error_iff.mpr ⟨hkeep, hrefuses⟩
      cases hmembers : mergeMembers keys path child existing with
      | error e =>
          refine ⟨e, .object ?_⟩
          rw [mergeObject_merges hmerge, hmembers]
          rfl
      | ok merged =>
          have hgiven := get?_mergeMembers_given (Json.increasing_of_isCanonical hv)
            (Json.increasing_of_isCanonical hd) hname hget hmembers
          rw [hfound, hvalue] at hgiven
          cases hgiven
  | @item path behind before after existing old rest fields key found u hkey hreplace hbefore
      hkeep hfirst hsame _ ih =>
      have hitems := (Json.isCanonical_arr_iff _).mp hv
      have hnext := isCanonical_mergeItems before
        (fun item hitem => hitems item (List.mem_append_left _ hitem))
        ((Json.isCanonical_arr_iff existing).mp hd) hbefore
      obtain ⟨e, hrefuses⟩ := ih (hitems _ (List.mem_append_right _ List.mem_cons_self))
        (hnext _ (List.mem_append_right _ List.mem_cons_self)) hfault
      cases hrefuses with
      | object hmerge =>
          refine ⟨e, .list hkey ?_⟩
          rw [mergeList, hreplace, if_neg Bool.false_ne_true]
          refine mergeItems_refuses hbefore ?_
          rw [mergeItems_met hkeep hfirst hsame, hmerge]
          rfl

/-! ## A whole patch -/

/-- **When a patch is refused.**

    * A patch is refused at a document exactly if one of its faults is met there.
    * The refusal names a fault that is met.  It is told as one of decoding the strategic merge
      patch, and is what the whole of the patches is refused with.
    * The patch is refused at every document exactly if it is faulty itself, as an object and
      not in what is in it. -/
theorem applyStrategic_refused {t : Target} (hkeys : t.tag?.bind MergeKeys.forTag? = some keys)
    {patch : Members} (hpatch : (Json.obj patch).isCanonical = true) :
    (∀ base, (Json.obj base).isCanonical = true →
      ((∃ e, applyStrategic t (.obj patch) (.obj base) = .error e) ↔
        ∃ behind u e, Meets keys [] (.obj patch) (.obj base) behind u ∧ Fault keys behind u e) ∧
      ∀ e, applyStrategic t (.obj patch) (.obj base) = .error e →
        (∃ behind u, Meets keys [] (.obj patch) (.obj base) behind u ∧ Fault keys behind u e) ∧
          (e.errorClass = .decode ∧ e.stage = .strategic) ∧
          Patches.apply t (.obj base) (some { strategic := some (.obj patch) }) = .error e) ∧
    ((∀ base, (Json.obj base).isCanonical = true →
      ∃ e, applyStrategic t (.obj patch) (.obj base) = .error e) ↔
        ∃ e, Fault keys [] (.obj patch) e) := by
  have happly : ∀ {base : Members} {e : Error},
      applyStrategic t (.obj patch) (.obj base) = .error e ↔
        Refuses keys [] (.obj patch) (.obj base) e := by
    intro base e
    rw [applyStrategic, hkeys]
    dsimp only
    rw [map_error]
    refine ⟨.object, fun h => ?_⟩
    cases h with
    | object h => exact h
  refine ⟨fun base hbase => ⟨⟨?_, ?_⟩, ?_⟩, fun hall => ?_, fun hfault base hbase => ?_⟩
  · rintro ⟨e, h⟩
    obtain ⟨behind, u, hmeets, hfault⟩ := fault_of_refuses hpatch hbase (happly.mp h)
    exact ⟨behind, u, e, hmeets, hfault⟩
  · rintro ⟨behind, u, e, hmeets, hfault⟩
    obtain ⟨e, h⟩ := refuses_of_fault hpatch hbase hmeets hfault
    exact ⟨e, happly.mpr h⟩
  · intro e h
    obtain ⟨behind, u, hmeets, hfault⟩ := fault_of_refuses hpatch hbase (happly.mp h)
    refine ⟨⟨behind, u, hmeets, hfault⟩, hfault.decode, ?_⟩
    change (applyStrategic t (.obj patch) (.obj base) >>= fun doc => t.read .strategic doc) = _
    rw [h]
    rfl
  · -- an empty document has nothing that could be met but itself
    obtain ⟨e, h⟩ := hall [] rfl
    obtain ⟨behind, u, hmeets, hfault⟩ := fault_of_refuses hpatch rfl (happly.mp h)
    cases hmeets with
    | object => exact ⟨e, hfault⟩
    | member _ _ _ _ hfound => cases hfound
  · obtain ⟨e, hfault⟩ := hfault
    obtain ⟨e, h⟩ := refuses_of_fault hpatch hbase .object hfault
    exact ⟨e, happly.mpr h⟩

/-! ## Patches of a pod -/

/-- A patch that gives one member of a pod's specification. -/
def specPatch (name : String) (v : Json) : Members := [("spec", .obj [(name, v)])]

/-- A security context with a directive that there is not. -/
def explodingContext : Json := .obj [("$patch", .str "explode"), ("runAsUser", .int 1000)]

/-- Init containers of which one has no name. -/
def namelessContainers : Json := .arr [.obj [("image", .str "app:1")]]

theorem fault_explodingContext : Fault podKeys ["spec", "securityContext"] explodingContext
    (.unknownDirective "explode" "spec.securityContext") :=
  .directive rfl (by decide) (by decide)

theorem fault_namelessContainers : Fault podKeys ["spec", "initContainers"] namelessContainers
    (.missingMergeKey "spec.initContainers" "name") :=
  .item (by decide +kernel) rfl List.mem_cons_self rfl

/-- The specification of a pod that has a security context and an init container. -/
def guardedSpec : Members :=
  [("containers", .arr []), ("initContainers", .arr [.obj [("name", .str "setup")]]),
    ("securityContext", .obj [("runAsUser", .int 1)])]

/-- The pod. -/
def guardedPod : Members :=
  [("apiVersion", .str "v1"), ("kind", .str "Pod"), ("metadata", .obj [("name", .str "gemma")]),
    ("spec", .obj guardedSpec)]

/-- What a patch gives for a member of the specification is merged with what the pod has there. -/
theorem meets_guardedPod {name : String} (hname : isDirectiveName name = false) {v d u : Json}
    {behind : List String} (hkeep : isDeleteItem v = false)
    (hd : Members.get? name guardedSpec = some d)
    (h : Meets podKeys ["spec", name] v d behind u) :
    Meets podKeys [] (.obj (specPatch name v)) (.obj guardedPod) behind u := by
  have hdirective : directive? [(name, v)] = none := by
    have hne : name ≠ "$patch" := by
      rintro rfl
      exact absurd hname (by decide +kernel)
    rw [directive?, Members.get?, if_neg hne]
    rfl
  have hspec : isDeleteItem (.obj [(name, v)]) = false := by
    rw [isDeleteItem, isDelete, hdirective]
    rfl
  refine .member (Or.inl rfl) (by decide +kernel) (Members.get?_cons_self "spec" _ []) hspec rfl ?_
  exact .member (Or.inl hdirective) hname (Members.get?_cons_self name v []) hkeep hd h

/-- Either fault is refused where the pod has what it stands in. -/
theorem applyStrategic_refused_pod :
    (∃ e, applyStrategic .pod (.obj (specPatch "securityContext" explodingContext))
      (.obj guardedPod) = .error e) ∧
    ∃ e, applyStrategic .pod (.obj (specPatch "initContainers" namelessContainers))
      (.obj guardedPod) = .error e := by
  have hpod : (Json.obj guardedPod).isCanonical = true := by decide +kernel
  refine ⟨?_, ?_⟩
  · refine ((applyStrategic_refused forTag?_pod (by decide +kernel)).1 _ hpod).1.mpr ?_
    exact ⟨_, _, _, meets_guardedPod (by decide +kernel) rfl rfl .object, fault_explodingContext⟩
  · have hkey : podKeys.keyFor? (".".intercalate ["spec", "initContainers"]) = some "name" := by
      decide +kernel
    refine ((applyStrategic_refused forTag?_pod (by decide +kernel)).1 _ hpod).1.mpr ?_
    exact ⟨_, _, _, meets_guardedPod (by decide +kernel) rfl rfl (.list hkey),
      fault_namelessContainers⟩

/-- **Faults that are not met.**  A pod that has neither a security context nor init containers
    takes both faults. -/
theorem malformed_accepted :
    ((∃ e, Fault podKeys ["spec", "securityContext"] explodingContext e) ∧
      ∃ out, applyStrategic .pod (.obj (specPatch "securityContext" explodingContext)) (podOf []) =
        .ok out) ∧
    (∃ e, Fault podKeys ["spec", "initContainers"] namelessContainers e) ∧
      ∃ out, applyStrategic .pod (.obj (specPatch "initContainers" namelessContainers)) (podOf []) =
        .ok out := by
  have hcontext : applyStrategic .pod (.obj (specPatch "securityContext" explodingContext))
      (podOf []) = .ok (.obj [("apiVersion", .str "v1"), ("kind", .str "Pod"),
        ("metadata", .obj [("name", .str "gemma")]), ("spec", .obj [("containers", .arr []),
          ("securityContext", .obj [("runAsUser", .int 1000)])])]) := by
    simp [applyStrategic, forTag?_pod, specPatch, explodingContext, podOf, mergeObject, directed,
      directive?, mergeMembers, isDirectiveName, String.startsWith_string_iff, Members.get?,
      isDelete, Json.asText?, strip, stripMembers, isStripped, Json.isNull, isDeleteItem]
    rfl
  have hcontainers : applyStrategic .pod (.obj (specPatch "initContainers" namelessContainers))
      (podOf []) = .ok (.obj [("apiVersion", .str "v1"), ("kind", .str "Pod"),
        ("metadata", .obj [("name", .str "gemma")]), ("spec", .obj [("containers", .arr []),
          ("initContainers", namelessContainers)])]) := by
    simp [applyStrategic, forTag?_pod, specPatch, namelessContainers, podOf, mergeObject, directed,
      directive?, mergeMembers, isDirectiveName, String.startsWith_string_iff, Members.get?,
      isDelete, strip, stripMembers, stripItems, isDirectiveOnly, isStripped,
      Json.isNull, isDeleteItem]
    rfl
  exact ⟨⟨⟨_, fault_explodingContext⟩, _, hcontext⟩,
    ⟨_, fault_namelessContainers⟩, _, hcontainers⟩

end Patch

end ModelOperator

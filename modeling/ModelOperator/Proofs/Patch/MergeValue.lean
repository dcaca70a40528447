import ModelOperator.Patch.Strategic
import ModelOperator.Proofs.Json.Members

/-!
# What a strategic merge makes of a value

    A strategic merge of two objects goes through the members of the patch, one after the
    other, and merges the value of each into what the base has under its name.

    * `mergeValue` is what a value of a patch makes of the value that it meets, and
      `mergeValue_ok` tells all that it can be;
    * `get?_mergeMembers_given` and `get?_mergeMembers_absent` say what a merged object has
      under each name;
    * `strip` keeps what is neither a directive nor marked for deletion
      (`get?_stripMembers`, `stripItems_eq`). -/

namespace ModelOperator

namespace Patch

variable {keys : MergeKeys} {path : List String}

/-! ## Steps that succeed and steps that fail -/

/-- Two steps in a row succeed if both do. -/
theorem bind_ok {α β : Type} {x : Except Error α} {f : α → Except Error β} {b : β}
    (h : (x >>= f) = .ok b) : ∃ a, x = .ok a ∧ f a = .ok b := by
  cases x with
  | error e => cases h
  | ok a => exact ⟨a, rfl, h⟩

/-- A result that is changed was there. -/
theorem map_ok {α β : Type} {x : Except Error α} {f : α → β} {b : β} (h : x.map f = .ok b) :
    ∃ a, x = .ok a ∧ f a = b := by
  cases x with
  | error e => cases h
  | ok a => exact ⟨a, rfl, Except.ok.inj h⟩

/-- Two steps in a row fail where the first fails or the second. -/
theorem bind_error {α β : Type} {x : Except Error α} {f : α → Except Error β} {e : Error}
    (h : (x >>= f) = .error e) : x = .error e ∨ ∃ a, x = .ok a ∧ f a = .error e := by
  cases x with
  | error e' =>
      cases h
      exact Or.inl rfl
  | ok a => exact Or.inr ⟨a, rfl, h⟩

theorem map_error {α β : Type} {x : Except Error α} {f : α → β} {e : Error} :
    x.map f = .error e ↔ x = .error e := by
  cases x with
  | error e' => exact ⟨fun h => congrArg Except.error (Except.error.inj h), fun h => h ▸ rfl⟩
  | ok a => exact iff_of_false (by rintro ⟨⟩) (by rintro ⟨⟩)

/-! ## What is stored -/

/-- Whether a member is stored. -/
def isStoredMember (m : String × Json) : Bool :=
  !(isStripped m.1 || m.2.isNull || isDeleteItem m.2)

/-- Whether an item is stored. -/
def isStoredItem (v : Json) : Bool := !(isDirectiveOnly v || isDeleteItem v)

/-- Stripping members drops those that are not stored and strips the rest. -/
theorem stripMembers_eq (ms : Members) :
    stripMembers ms = (ms.filter isStoredMember).map fun m => (m.1, strip m.2) := by
  induction ms with
  | nil => rw [stripMembers, List.filter_nil, List.map_nil]
  | cons first rest ih =>
      obtain ⟨k, v⟩ := first
      rw [stripMembers, List.filter_cons, isStoredMember]
      cases isStripped k || v.isNull || isDeleteItem v with
      | true => exact ih
      | false => exact congrArg ((k, strip v) :: ·) ih

/-- Stripping items drops those that are not stored and strips the rest. -/
theorem stripItems_eq (items : List Json) :
    stripItems items = (items.filter isStoredItem).map strip := by
  induction items with
  | nil => rw [stripItems, List.filter_nil, List.map_nil]
  | cons v rest ih =>
      rw [stripItems, List.filter_cons, isStoredItem]
      cases isDirectiveOnly v || isDeleteItem v with
      | true => exact ih
      | false => exact congrArg (strip v :: ·) ih

/-- The items of a replaced list are stripped, and only bare directives are dropped. -/
theorem replacedItems_eq (items : List Json) :
    replacedItems items = (items.filter fun v => !isDirectiveOnly v).map strip := by
  induction items with
  | nil => rw [replacedItems, List.filter_nil, List.map_nil]
  | cons v rest ih =>
      rw [replacedItems, List.filter_cons]
      cases isDirectiveOnly v with
      | true => exact ih
      | false => exact congrArg (strip v :: ·) ih

/-- What a stripped object has under a name is what is stored of it, stripped. -/
theorem get?_stripMembers {ms : Members} (h : Members.increasing ms = true) (name : String) :
    Members.get? name (stripMembers ms) =
      ((Members.get? name ms).filter fun v => isStoredMember (name, v)).map strip := by
  rw [stripMembers_eq, Members.get?_map (fun _ => strip), Members.get?_filter h]

/-- What names a directive is no member of its own. -/
theorem isStripped_eq_false {name : String} (h : isDirectiveName name = false) :
    isStripped name = false := by
  cases hstripped : isStripped name with
  | false => rfl
  | true =>
      have hdollar : name.startsWith "$" = true := by
        rw [isStripped, Bool.or_eq_true, Bool.or_eq_true, beq_iff_eq, beq_iff_eq] at hstripped
        rw [String.startsWith_string_iff]
        rcases hstripped with (rfl | rfl) | horder
        · exact ⟨_, rfl⟩
        · exact ⟨_, rfl⟩
        · rw [String.startsWith_string_iff] at horder
          exact List.IsPrefix.trans ⟨_, rfl⟩ horder
      exact hdollar.symm.trans h

/-! ## What a value makes of the value that it meets -/

/-- A list of a patch merged by key, or stored in place of the list that it meets. -/
def mergeList (keys : MergeKeys) (path : List String) (key : String) (items base : List Json) :
    Except Error (List Json) :=
  if items.any isReplaceItem then .ok (replacedItems items)
  else mergeItems keys path key items base

/-- What a value of a patch makes of the value that it meets, if it meets any. -/
def mergeValue (keys : MergeKeys) (path : List String) (v : Json) (found : Option Json) :
    Except Error (Option Json) :=
  match v with
  | .null => .ok none
  | .obj child =>
    if isDelete child then .ok none
    else
      match found with
      | some (.obj existing) => (mergeObject keys path child existing).map fun ms => some (.obj ms)
      | _ => .ok (some (strip v))
  | .arr items =>
    match keys.keyFor? (".".intercalate path), found with
    | some key, some (.arr existing) =>
      (mergeList keys path key items existing).map fun merged => some (.arr merged)
    | _, _ =>
      if !items.isEmpty && items.all isDeleteItem then .ok found else .ok (some (strip v))
  | scalar => .ok (some scalar)

/-- A list that is merged by key is merged item by item into a list. -/
theorem mergeValue_keyed {key : String} (hkey : keys.keyFor? (".".intercalate path) = some key)
    (items existing : List Json) :
    mergeValue keys path (.arr items) (some (.arr existing)) =
      (mergeList keys path key items existing).map fun merged => some (.arr merged) := by
  unfold mergeValue
  rw [hkey]

/-- Any other list takes the place of what was there, unless it only deletes. -/
theorem mergeValue_unkeyed {found : Option Json}
    (h : ∀ key existing, keys.keyFor? (".".intercalate path) = some key →
      found ≠ some (.arr existing)) (items : List Json) :
    mergeValue keys path (.arr items) found =
      if !items.isEmpty && items.all isDeleteItem then .ok found
      else .ok (some (strip (.arr items))) := by
  unfold mergeValue
  dsimp only
  split
  · rename_i key existing hkey
    exact absurd rfl (h key existing hkey)
  · rfl

/-- An object that says so deletes what was there. -/
theorem mergeValue_delete {child : Members} (hdelete : isDelete child = true)
    (found : Option Json) : mergeValue keys path (.obj child) found = .ok none := by
  unfold mergeValue
  exact if_pos hdelete

/-- An item that says so deletes what was there. -/
theorem mergeValue_deleteItem {v : Json} (h : isDeleteItem v = true) (found : Option Json) :
    mergeValue keys path v found = .ok none := by
  cases v with
  | obj child => exact mergeValue_delete h found
  | _ => cases h

/-- An object is merged into an object. -/
theorem mergeValue_object {child : Members} (hkeep : isDelete child = false)
    (existing : Members) :
    mergeValue keys path (.obj child) (some (.obj existing)) =
      (mergeObject keys path child existing).map fun ms => some (.obj ms) := by
  unfold mergeValue
  exact if_neg (ne_true_of_eq_false hkeep)

/-- Where no object was, an object is stored without its directives. -/
theorem mergeValue_new_object {child : Members} (hkeep : isDelete child = false)
    {found : Option Json} (h : ∀ existing, found ≠ some (.obj existing)) :
    mergeValue keys path (.obj child) found = .ok (some (strip (.obj child))) := by
  unfold mergeValue
  dsimp only
  rw [hkeep, if_neg Bool.false_ne_true]
  split
  · rename_i existing
    exact absurd rfl (h existing)
  · rfl

/-- Whether a value of a patch only deletes: it is marked for deletion, or is a list of what
    is. -/
def isDeleteOnly : Json → Bool
  | .obj members => isDelete members
  | .arr items => !items.isEmpty && items.all isDeleteItem
  | _ => false

/-- What a value of a patch can make of what it meets. -/
inductive ValueStep (keys : MergeKeys) (path : List String) : Json → Option Json → Option Json → Prop
  /-- What is found is taken out. -/
  | removed {v : Json} {found : Option Json} (h : v.isNull = true ∨ isDeleteItem v = true) :
      ValueStep keys path v found none
  /-- Objects are merged. -/
  | merged {child existing ms : Members} (hkeep : isDelete child = false)
      (hms : mergeObject keys path child existing = .ok ms) :
      ValueStep keys path (.obj child) (some (.obj existing)) (some (.obj ms))
  /-- Lists are merged by key. -/
  | keyed {key : String} {items existing merged : List Json}
      (hkey : keys.keyFor? (".".intercalate path) = some key)
      (hmerged : mergeList keys path key items existing = .ok merged) :
      ValueStep keys path (.arr items) (some (.arr existing)) (some (.arr merged))
  /-- A list that only deletes has nothing to be merged with. -/
  | untouched {items : List Json} {found : Option Json} (h : isDeleteOnly (.arr items) = true)
      (hother : ∀ existing, found = some (.arr existing) →
        keys.keyFor? (".".intercalate path) = none) :
      ValueStep keys path (.arr items) found found
  /-- Anything else is stored. -/
  | stored {v : Json} {found : Option Json} (hnull : v.isNull = false)
      (hadds : isDeleteOnly v = false) : ValueStep keys path v found (some (strip v))

/-- A merge that succeeds is one of the steps. -/
theorem mergeValue_ok {v : Json} {found r : Option Json}
    (h : mergeValue keys path v found = .ok r) : ValueStep keys path v found r := by
  cases v with
  | null =>
      cases h
      exact .removed (Or.inl rfl)
  | obj child =>
      cases hdelete : isDelete child with
      | true =>
          rw [mergeValue_delete hdelete] at h
          cases h
          exact .removed (Or.inr hdelete)
      | false =>
          by_cases hfound : ∃ existing, found = some (.obj existing)
          · obtain ⟨existing, rfl⟩ := hfound
            rw [mergeValue_object hdelete] at h
            obtain ⟨ms, hms, rfl⟩ := map_ok h
            exact .merged hdelete hms
          · rw [mergeValue_new_object hdelete fun existing heq => hfound ⟨existing, heq⟩] at h
            cases h
            exact .stored rfl hdelete
  | arr items =>
      by_cases hfound : ∃ key existing, keys.keyFor? (".".intercalate path) = some key ∧
          found = some (.arr existing)
      · obtain ⟨key, existing, hkey, rfl⟩ := hfound
        rw [mergeValue_keyed hkey] at h
        obtain ⟨merged, hmerged, rfl⟩ := map_ok h
        exact .keyed hkey hmerged
      · rw [mergeValue_unkeyed fun key existing hkey heq => hfound ⟨key, existing, hkey, heq⟩] at h
        split at h
        · rename_i hdeletes
          cases h
          refine .untouched hdeletes fun existing heq => Option.eq_none_iff_forall_ne_some.mpr ?_
          exact fun key hkey => hfound ⟨key, existing, hkey, heq⟩
        · rename_i hadds
          cases h
          exact .stored rfl (Bool.eq_false_iff.mpr hadds)
  | _ =>
      cases h
      exact .stored rfl rfl

/-- The first member of a patch object is merged into what the base has under its name. -/
theorem mergeMembers_cons (name : String) (v : Json) (rest base : Members) :
    mergeMembers keys path ((name, v) :: rest) base =
      if isDirectiveName name then mergeMembers keys path rest base
      else
        mergeValue keys (path ++ [name]) v (Members.get? name base) >>= fun merged =>
          mergeMembers keys path rest (putMember name merged base) := by
  rw [mergeMembers]
  generalize Members.get? name base = found
  split
  · rfl
  · cases v with
    | obj child =>
        dsimp only
        split
        · rename_i hdelete
          rw [mergeValue_delete hdelete]
        · rename_i hkeep
          split
          · rename_i existing
            rw [mergeValue_object (Bool.eq_false_iff.mpr hkeep), mergeObject]
            cases directed (path ++ [name]) child
              (mergeMembers keys (path ++ [name]) child existing) <;> rfl
          · rename_i hfound
            rw [mergeValue_new_object (Bool.eq_false_iff.mpr hkeep) hfound]
    | arr items =>
        dsimp only
        split
        · rename_i key existing hkey
          rw [mergeValue_keyed hkey, mergeList]
          split
          · rfl
          · cases mergeItems keys (path ++ [name]) key items existing <;> rfl
        · rename_i hfound
          rw [mergeValue_unkeyed hfound]
          split <;> rfl
    | _ => rfl

/-- After a member is put or taken, it is found so, and every other name as before. -/
theorem get?_putMember {ms : Members} (h : Members.increasing ms = true) (name other : String)
    (value : Option Json) :
    Members.get? other (putMember name value ms) =
      if name = other then value else Members.get? other ms := by
  cases value with
  | some v => exact Members.get?_insert name other v ms
  | none =>
      rw [putMember]
      by_cases hname : name = other
      · subst hname
        rw [if_pos rfl, Members.get?_erase_self h]
      · rw [if_neg hname, Members.get?_erase_of_ne (Ne.symm hname)]

/-- Putting or taking a member keeps the names in order. -/
theorem increasing_putMember {ms : Members} (h : Members.increasing ms = true) (name : String)
    (value : Option Json) : Members.increasing (putMember name value ms) = true := by
  cases value with
  | some v => exact Members.increasing_insert h name v
  | none => exact Members.increasing_erase h name

/-- A member after the change is the one that was put, or was there. -/
theorem mem_putMember {ms : Members} {name : String} {value : Option Json} {m : String × Json}
    (h : m ∈ putMember name value ms) : some m.2 = value ∨ m ∈ ms := by
  cases value with
  | some v =>
      rcases Members.mem_insert h with rfl | h
      · exact Or.inl rfl
      · exact Or.inr h
  | none => exact Or.inr ((Members.erase_sublist name ms).subset h)

/-- A merge leaves members alone that the patch does not name. -/
theorem get?_mergeMembers_absent {patch base merged : Members}
    (hbase : Members.increasing base = true) {name : String}
    (h : ∀ m ∈ patch, m.1 = name → isDirectiveName name = true)
    (hmerge : mergeMembers keys path patch base = .ok merged) :
    Members.get? name merged = Members.get? name base := by
  induction patch generalizing base with
  | nil =>
      rw [mergeMembers] at hmerge
      cases hmerge
      rfl
  | cons first rest ih =>
      obtain ⟨k, v⟩ := first
      have hrest : ∀ m ∈ rest, m.1 = name → isDirectiveName name = true :=
        fun m hm => h m (List.mem_cons_of_mem _ hm)
      rw [mergeMembers_cons] at hmerge
      cases hk : isDirectiveName k with
      | true =>
          rw [if_pos hk] at hmerge
          exact ih hbase hrest hmerge
      | false =>
          rw [hk, if_neg Bool.false_ne_true] at hmerge
          obtain ⟨value, -, hmore⟩ := bind_ok hmerge
          have hne : k ≠ name := by
            rintro rfl
            rw [h _ List.mem_cons_self rfl] at hk
            cases hk
          rw [ih (increasing_putMember hbase k value) hrest hmore, get?_putMember hbase,
            if_neg hne]

/-- A merged object has under each name that the patch gives what the patch's value makes of
    the base's. -/
theorem get?_mergeMembers_given {patch base merged : Members}
    (hpatch : Members.increasing patch = true) (hbase : Members.increasing base = true)
    {name : String} (hname : isDirectiveName name = false) {v : Json}
    (hv : Members.get? name patch = some v)
    (hmerge : mergeMembers keys path patch base = .ok merged) :
    mergeValue keys (path ++ [name]) v (Members.get? name base) =
      .ok (Members.get? name merged) := by
  rw [Members.increasing_iff_pairwise] at hpatch
  induction patch generalizing base with
  | nil => cases hv
  | cons first rest ih =>
      obtain ⟨k, w⟩ := first
      obtain ⟨hfirst, hrest⟩ := List.pairwise_cons.mp hpatch
      rw [Members.get?] at hv
      rw [mergeMembers_cons] at hmerge
      by_cases hk : k = name
      · subst hk
        rw [if_pos rfl] at hv
        cases hv
        rw [hname, if_neg Bool.false_ne_true] at hmerge
        obtain ⟨value, hvalue, hmore⟩ := bind_ok hmerge
        -- the names behind this one are greater and do not touch it again
        have hrest' : ∀ m ∈ rest, m.1 = k → isDirectiveName k = true :=
          fun m hm heq => absurd (heq ▸ hfirst m hm) (String.lt_irrefl k)
        rw [get?_mergeMembers_absent (increasing_putMember hbase k value) hrest' hmore,
          get?_putMember hbase, if_pos rfl]
        exact hvalue
      · rw [if_neg hk] at hv
        cases hdirective : isDirectiveName k with
        | true =>
            rw [if_pos hdirective] at hmerge
            exact ih hrest hbase hv hmerge
        | false =>
            rw [hdirective, if_neg Bool.false_ne_true] at hmerge
            obtain ⟨value, -, hmore⟩ := bind_ok hmerge
            rw [← ih hrest (increasing_putMember hbase k value) hv hmore, get?_putMember hbase,
              if_neg hk]

/-- Merging members keeps the names in order. -/
theorem increasing_mergeMembers {patch base merged : Members}
    (hbase : Members.increasing base = true)
    (hmerge : mergeMembers keys path patch base = .ok merged) :
    Members.increasing merged = true := by
  induction patch generalizing base with
  | nil =>
      rw [mergeMembers] at hmerge
      cases hmerge
      exact hbase
  | cons first rest ih =>
      obtain ⟨k, v⟩ := first
      rw [mergeMembers_cons] at hmerge
      split at hmerge
      · exact ih hbase hmerge
      · obtain ⟨value, -, hmore⟩ := bind_ok hmerge
        exact ih (increasing_putMember hbase k value) hmore

/-- Whether an object of a patch says which members of the merged object are kept. -/
def retains (patch : Members) : Bool := (Members.get? "$retainKeys" patch).isSome

/-- What is kept of a merged object is all of it, unless the patch says otherwise. -/
theorem get?_retainKeys {patch merged ms : Members} (hmerged : Members.increasing merged = true)
    (h : retainKeys path patch merged = .ok ms) (name : String) :
    Members.get? name ms = Members.get? name merged ∨
      retains patch = true ∧ Members.get? name ms = none := by
  rw [retainKeys] at h
  split at h
  · cases h
    exact Or.inl rfl
  · rename_i kept hkept
    cases h
    rw [Members.get?_filter hmerged]
    cases Members.get? name merged with
    | none => exact Or.inl rfl
    | some v =>
        rw [Option.filter_some]
        split
        · exact Or.inl rfl
        · refine Or.inr ⟨?_, rfl⟩
          rw [retains, hkept]
          rfl
  · cases h

/-- An object that is merged is replaced, or its members are merged and some of them retained. -/
theorem mergeObject_ok {patch base ms : Members} (h : mergeObject keys path patch base = .ok ms) :
    directive? patch = some "replace" ∧ ms = stripMembers patch ∨
      (directive? patch = none ∨ directive? patch = some "merge") ∧
        ∃ merged, mergeMembers keys path patch base = .ok merged ∧
          retainKeys path patch merged = .ok ms := by
  rw [mergeObject, directed] at h
  split at h
  · rename_i hreplace
    cases h
    exact Or.inl ⟨hreplace, rfl⟩
  · rename_i hmerge
    exact Or.inr ⟨Or.inr hmerge, bind_ok h⟩
  · rename_i hnone
    exact Or.inr ⟨Or.inl hnone, bind_ok h⟩
  · cases h

end Patch

end ModelOperator

import ModelOperator.Proofs.Json.Nodes
import ModelOperator.Proofs.Patch.Deletion

/-!
# What a strategic merge stores

    A value of a patch that meets nothing to be merged with is stored without its directives.
    Who writes a value without directives expects to find it as it was written, and who writes
    them expects what a merge into something empty would have made of the value.

    * `strip_eq_self_iff` says which values are stored as they are.  Of those without directives
      and nulls it is all but those with an empty object in a list (`literal_stored_iff`): such
      an item has no name but directives' names, and is taken for one (`empty_item_dropped`).
    * A merge into an empty object keeps some of what would have been stored
      (`mergeObject_nil`), and the two agree exactly if it keeps all (`stored_eq_merged_iff`),
      which it need not (`stored_ne_merged`). -/

namespace ModelOperator

namespace Patch

variable {keys : MergeKeys} {path : List String}

/-! ## Values that are stored as they are -/

/-- Whether all that a value consists of is stored. -/
def KeepsParts : Json → Prop
  | .obj ms => ∀ m ∈ ms, isStoredMember m = true
  | .arr items => ∀ item ∈ items, isStoredItem item = true
  | _ => True

/-- A list of which some items are kept and changed stays as it is only if all are kept and none
    is changed. -/
theorem map_filter_eq_self_iff {α : Type} {p : α → Bool} {f : α → α} {l : List α} :
    (l.filter p).map f = l ↔ ∀ a ∈ l, p a = true ∧ f a = a := by
  constructor
  · intro h
    have hlength : (l.filter p).length = l.length := by rw [← List.length_map f, h]
    have hall := List.length_filter_eq_length_iff.mp hlength
    rw [List.filter_eq_self.mpr hall] at h
    exact fun a ha => ⟨hall a ha, List.map_inj_left.mp (h.trans (List.map_id l).symm) a ha⟩
  · intro h
    rw [List.filter_eq_self.mpr fun a ha => (h a ha).1]
    exact (List.map_inj_left.mpr fun a ha => (h a ha).2).trans (List.map_id l)

/-- **A value is stored as it is** exactly if all members and items are stored, at every depth. -/
theorem strip_eq_self_iff (v : Json) : strip v = v ↔ ∀ w ∈ v.nodes, KeepsParts w := by
  induction v using Json.parts_induction with
  | obj ms ih =>
      rw [strip, Json.obj.injEq, stripMembers_eq, map_filter_eq_self_iff, Json.forall_nodes_obj]
      refine Iff.trans (forall₂_congr fun m hm => and_congr_right fun _ => ?_) forall₂_and
      rw [← ih m hm, Prod.ext_iff]
      exact and_iff_right rfl
  | arr items ih =>
      rw [strip, Json.arr.injEq, stripItems_eq, map_filter_eq_self_iff, Json.forall_nodes_arr]
      exact Iff.trans (forall₂_congr fun item hitem => and_congr_right fun _ => ih item hitem)
        forall₂_and
  | _ => simp [strip, Json.nodes, KeepsParts]

/-- A value without directives: no object in it has a member whose name starts with a dollar
    sign. -/
def Undirected (v : Json) : Prop :=
  ∀ w ∈ v.nodes, ∀ ms ∈ w.asMembers?, ∀ m ∈ ms, isDirectiveName m.1 = false

/-- A value without nulls among the members of its objects. -/
def NullFree (v : Json) : Prop :=
  ∀ w ∈ v.nodes, ∀ ms ∈ w.asMembers?, ∀ m ∈ ms, m.2.isNull = false

/-- No list in a value has an empty object among its items. -/
def FilledItems (v : Json) : Prop :=
  ∀ w ∈ v.nodes, ∀ items ∈ w.asItems?, .obj [] ∉ items

instance : DecidablePred Undirected := fun v =>
  inferInstanceAs (Decidable (∀ w ∈ v.nodes, ∀ ms ∈ w.asMembers?, ∀ m ∈ ms,
    isDirectiveName m.1 = false))

instance : DecidablePred NullFree := fun v =>
  inferInstanceAs (Decidable (∀ w ∈ v.nodes, ∀ ms ∈ w.asMembers?, ∀ m ∈ ms, m.2.isNull = false))

/-- An object is undirected if none of its names is a directive and all of its values are. -/
theorem undirected_obj {ms : Members} : Undirected (.obj ms) ↔
    (∀ m ∈ ms, isDirectiveName m.1 = false) ∧ ∀ m ∈ ms, Undirected m.2 := by
  rw [Undirected, Json.forall_nodes_obj]
  exact and_congr_left fun _ => ⟨fun h => h ms rfl, fun h _ heq => Option.some.inj heq ▸ h⟩

/-- An array is undirected if all of its items are. -/
theorem undirected_arr {items : List Json} :
    Undirected (.arr items) ↔ ∀ item ∈ items, Undirected item := by
  rw [Undirected, Json.forall_nodes_arr]
  exact and_iff_right nofun

/-- What has no directives is not marked for anything. -/
theorem Undirected.directive? {ms : Members} (h : Undirected (.obj ms)) : directive? ms = none := by
  have habsent : Members.get? "$patch" ms = none := Members.get?_eq_none fun m hm heq => by
    have hname := (undirected_obj.mp h).1 m hm
    rw [heq] at hname
    exact absurd hname (by decide +kernel)
  rw [Patch.directive?, habsent]
  rfl

/-- Nothing undirected is a delete item. -/
theorem Undirected.not_delete {v : Json} (h : Undirected v) : isDeleteItem v = false := by
  cases v with
  | obj ms =>
      rw [isDeleteItem, isDelete, h.directive?]
      rfl
  | _ => rfl

/-- Nothing undirected is made of deletions only. -/
theorem Undirected.not_deleteOnly {v : Json} (h : Undirected v) : isDeleteOnly v = false := by
  cases v with
  | obj ms => exact h.not_delete
  | arr items =>
      cases items with
      | nil => rfl
      | cons item rest =>
          have hitem := (undirected_arr.mp h item List.mem_cons_self).not_delete
          rw [isDeleteOnly, List.all_cons, hitem, Bool.false_and, Bool.and_false]
  | _ => rfl

/-- What has no directives is nothing but directives only if it is an empty object. -/
theorem Undirected.directiveOnly_iff {v : Json} (h : Undirected v) :
    isDirectiveOnly v = true ↔ v = .obj [] := by
  cases v with
  | obj ms =>
      cases ms with
      | nil => exact iff_of_true rfl rfl
      | cons m rest =>
          rw [isDirectiveOnly, List.all_cons, (undirected_obj.mp h).1 m List.mem_cons_self]
          exact iff_of_false Bool.false_ne_true (by rintro ⟨⟩)
  | _ => exact iff_of_false Bool.false_ne_true (by rintro ⟨⟩)

/-- Of an undirected object, the members other than null are stored. -/
theorem Undirected.storedMember_iff {ms : Members} (h : Undirected (.obj ms)) {m : String × Json}
    (hm : m ∈ ms) : isStoredMember m = true ↔ m.2.isNull = false := by
  obtain ⟨hnames, hvalues⟩ := undirected_obj.mp h
  rw [isStoredMember, isStripped_eq_false (hnames m hm), (hvalues m hm).not_delete]
  simp

/-- Of an undirected list, all items other than the empty object are stored. -/
theorem Undirected.storedItem_iff {item : Json} (h : Undirected item) :
    isStoredItem item = true ↔ item ≠ .obj [] := by
  rw [isStoredItem, h.not_delete, Bool.or_false, Bool.not_eq_true', ← Bool.not_eq_true,
    h.directiveOnly_iff]

/-- An undirected value without nulls keeps its parts unless it has an empty object as an item. -/
theorem keepsParts_iff {w : Json} (h : Undirected w)
    (hnulls : ∀ ms ∈ w.asMembers?, ∀ m ∈ ms, m.2.isNull = false) :
    KeepsParts w ↔ ∀ items ∈ w.asItems?, .obj [] ∉ items := by
  cases w with
  | obj ms => exact iff_of_true (fun m hm => (h.storedMember_iff hm).mpr (hnulls ms rfl m hm)) nofun
  | arr items =>
      refine Iff.trans (forall₂_congr fun item hitem => (undirected_arr.mp h item hitem).storedItem_iff) ?_
      constructor
      · rintro hall _ ⟨⟩ hmem
        exact hall _ hmem rfl
      · rintro hall item hitem rfl
        exact hall items rfl hitem
  | _ => exact iff_of_true trivial nofun

/-- What lies within an undirected value is undirected. -/
theorem Undirected.of_mem {v w : Json} (h : Undirected v) (hw : w ∈ v.nodes) : Undirected w :=
  fun u hu => h u (Json.mem_nodes_trans hu hw)

/-- A value that only adds is stored where it meets nothing, and so is a list without a merge key,
    whatever it meets. -/
theorem mergeValue_stores {v : Json} {found : Option Json} (hnull : v.isNull = false)
    (hadds : isDeleteOnly v = false)
    (hnew : found = none ∨ ∃ items, v = .arr items ∧ keys.keyFor? (".".intercalate path) = none) :
    mergeValue keys path v found = .ok (some (strip v)) := by
  cases v with
  | null => cases hnull
  | obj child =>
      refine mergeValue_new_object hadds ?_
      rintro existing rfl
      rcases hnew with h | ⟨_, h, -⟩ <;> cases h
  | arr items =>
      have hother : ∀ key existing, keys.keyFor? (".".intercalate path) = some key →
          found ≠ some (.arr existing) := by
        rintro key existing hkey rfl
        rcases hnew with h | ⟨-, -, h⟩
        · cases h
        · cases h.symm.trans hkey
      rw [mergeValue_unkeyed hother]
      exact if_neg (ne_true_of_eq_false hadds)
  | _ => rfl

theorem not_deleteItem_of_adds {v : Json} (h : isDeleteOnly v = false) : isDeleteItem v = false := by
  cases v with
  | obj child => exact h
  | _ => rfl

/-- What an object of a patch gives under a name is stored there, where nothing is met. -/
theorem get?_mergeObject_stored {patch base ms : Members}
    (hpatch : (Json.obj patch).isCanonical = true) (hbase : (Json.obj base).isCanonical = true)
    (hretains : retains patch = false) {name : String} (hname : isDirectiveName name = false)
    {v : Json} (hv : Members.get? name patch = some v) (hnull : v.isNull = false)
    (hadds : isDeleteOnly v = false)
    (hnew : Members.get? name base = none ∨
      ∃ items, v = .arr items ∧ keys.keyFor? (".".intercalate (path ++ [name])) = none)
    (h : mergeObject keys path patch base = .ok ms) : Members.get? name ms = some (strip v) := by
  have hpatchInc := Json.increasing_of_isCanonical hpatch
  have hbaseInc := Json.increasing_of_isCanonical hbase
  rcases mergeObject_ok h with ⟨-, rfl⟩ | ⟨-, merged, hmerged, hkept⟩
  · have hstored : isStoredMember (name, v) = true := by
      rw [isStoredMember, isStripped_eq_false hname, hnull, not_deleteItem_of_adds hadds]
      rfl
    rw [get?_stripMembers hpatchInc, hv, Option.filter_some, if_pos hstored, Option.map_some]
  · have hvalue := get?_mergeMembers_given hpatchInc hbaseInc hname hv hmerged
    rw [mergeValue_stores hnull hadds hnew] at hvalue
    rcases get?_retainKeys (increasing_mergeMembers hbaseInc hmerged) hkept name with
      hsame | ⟨hlost, -⟩
    · exact hsame.trans (Except.ok.inj hvalue).symm
    · rw [hretains] at hlost
      cases hlost

/-- A patch of nothing but such a value is never refused. -/
theorem mergeObject_stores {base : Members} {name : String} (hname : isDirectiveName name = false)
    {v : Json} (hnull : v.isNull = false) (hadds : isDeleteOnly v = false)
    (hnew : Members.get? name base = none ∨
      ∃ items, v = .arr items ∧ keys.keyFor? (".".intercalate (path ++ [name])) = none) :
    mergeObject keys path [(name, v)] base = .ok (Members.insert name (strip v) base) := by
  have hother : ∀ other, isDirectiveName other = true → Members.get? other [(name, v)] = none := by
    intro other hdirective
    refine if_neg ?_
    rintro rfl
    cases hname.symm.trans hdirective
  rw [mergeObject, directed, directive?, hother "$patch" (by decide +kernel)]
  change (mergeMembers keys path [(name, v)] base).bind _ = _
  rw [mergeMembers_cons, hname, if_neg Bool.false_ne_true, mergeValue_stores hnull hadds hnew]
  change (mergeMembers keys path [] _).bind _ = _
  rw [mergeMembers]
  change retainKeys path [(name, v)] _ = _
  rw [retainKeys, hother "$retainKeys" (by decide +kernel)]
  rfl

/-- **Values without directives and nulls.**  Such a value is stored as it is exactly if no list
    in it has an empty object among its items.

    Let a patch give it under a name that the document does not have, or where it is a list
    without a merge key.  If there is nothing else in the patch, the patch is applied; and
    whatever else there is, exactly this value stands there afterwards on the same condition,
    unless the patch says which members are to be kept. -/
theorem literal_stored_iff {v : Json} (hv : Undirected v) (hnulls : NullFree v) :
    (strip v = v ↔ FilledItems v) ∧
      ∀ (keys : MergeKeys) (path : List String) (base : Members) (name : String),
        (Json.obj base).isCanonical = true → isDirectiveName name = false → v.isNull = false →
        (Members.get? name base = none ∨
          ∃ items, v = .arr items ∧ keys.keyFor? (".".intercalate (path ++ [name])) = none) →
        (∃ ms, mergeObject keys path [(name, v)] base = .ok ms) ∧
          ∀ patch ms, (Json.obj patch).isCanonical = true → retains patch = false →
            Members.get? name patch = some v → mergeObject keys path patch base = .ok ms →
            (Members.get? name ms = some v ↔ FilledItems v) := by
  have hstrip : strip v = v ↔ FilledItems v :=
    (strip_eq_self_iff v).trans
      (forall₂_congr fun w hw => keepsParts_iff (hv.of_mem hw) (hnulls w hw))
  refine ⟨hstrip, ?_⟩
  intro keys path base name hbase hname hnull hnew
  refine ⟨⟨_, mergeObject_stores hname hnull hv.not_deleteOnly hnew⟩, ?_⟩
  intro patch ms hpatch hretains hgiven h
  rw [get?_mergeObject_stored hpatch hbase hretains hname hgiven hnull hv.not_deleteOnly hnew h,
    Option.some_inj]
  exact hstrip

/-- Tolerations of a pod. -/
def gpuTolerations : Json :=
  .arr [.obj [("key", .str "gpu"), ("operator", .str "Exists")], .obj [("operator", .str "Exists")]]

/-- Tolerations that a pod does not have yet, stored as they are. -/
theorem literal_stored_tolerations :
    FilledItems gpuTolerations ∧ strip gpuTolerations = gpuTolerations ∧
      ∃ ms, mergeObject podKeys ["spec"] [("tolerations", gpuTolerations)] [] = .ok ms ∧
        Members.get? "tolerations" ms = some gpuTolerations := by
  have hfilled : FilledItems gpuTolerations := by
    simp [gpuTolerations, FilledItems, Json.nodes, Json.nodesOfItems, Json.nodesOfMembers,
      Json.asItems?]
  obtain ⟨hstrip, hall⟩ := literal_stored_iff (v := gpuTolerations) (by decide +kernel)
    (by decide +kernel)
  obtain ⟨⟨ms, hms⟩, hstored⟩ :=
    hall podKeys ["spec"] [] "tolerations" rfl (by decide +kernel) rfl (Or.inl rfl)
  refine ⟨hfilled, hstrip.mpr hfilled, ms, hms, ?_⟩
  exact (hstored _ ms (by decide +kernel) rfl rfl hms).mpr hfilled

/-- Tolerations of which one is empty. -/
def anyToleration : Json := .arr [.obj [], .obj [("key", .str "gpu")]]

theorem strip_anyToleration : strip anyToleration = .arr [.obj [("key", .str "gpu")]] := by
  simp [anyToleration, strip, stripItems, isDirectiveOnly, isDeleteItem, isDelete, directive?,
    Members.get?, isDirectiveName, String.startsWith_string_iff, stripMembers, isStripped,
    Json.isNull]

/-- **Empty items are dropped.**  A list without directives and nulls loses its empty object. -/
theorem empty_item_dropped :
    Undirected anyToleration ∧ NullFree anyToleration ∧ strip anyToleration ≠ anyToleration ∧
      ∃ ms, mergeObject podKeys ["spec"] [("tolerations", anyToleration)] [] = .ok ms ∧
        Members.get? "tolerations" ms = some (.arr [.obj [("key", .str "gpu")]]) := by
  refine ⟨by decide +kernel, by decide +kernel, ?_, _,
    mergeObject_stores (by decide +kernel) rfl (by decide +kernel) (Or.inl rfl), ?_⟩
  · rw [strip_anyToleration]
    nofun
  · rw [strip_anyToleration]
    rfl

/-! ## What is stored and what is merged -/

/-- What a value of a patch makes of nothing: it is stored, or there is nothing to store. -/
theorem mergeValue_none (v : Json) : mergeValue keys path v none =
    .ok (if v.isNull || isDeleteOnly v then none else some (strip v)) := by
  cases hadds : isDeleteOnly v with
  | false =>
      cases hnull : v.isNull with
      | false => exact mergeValue_stores hnull hadds (Or.inl rfl)
      | true =>
          cases v with
          | null => rfl
          | _ => cases hnull
  | true =>
      rw [Bool.or_true, if_pos rfl]
      cases v with
      | obj child => exact mergeValue_delete hadds none
      | arr items =>
          rw [mergeValue_unkeyed (by rintro _ _ - ⟨⟩)]
          exact if_pos hadds
      | _ => cases hadds

/-- Whether an object of a patch lists a name among those to be kept, or lists none. -/
def isRetained (patch : Members) (name : String) : Bool :=
  match Members.get? "$retainKeys" patch with
  | some (.arr kept) => kept.any fun k => k.asText? == some name
  | _ => true

/-- Whether a merge into an empty object keeps a member of the patch that would be stored: it does
    not if its name starts with a dollar sign, if it is a list of nothing but deletions, or if it
    is not among those to be kept. -/
def keepsStored (patch : Members) (name : String) : Bool :=
  directive? patch == some "replace" ||
    !isDirectiveName name && !(Members.get? name patch).any isDeleteOnly && isRetained patch name

/-- Retaining keys keeps the members whose names are listed, in their order. -/
theorem retainKeys_ok {patch merged ms : Members} (h : retainKeys path patch merged = .ok ms) :
    ms = merged.filter fun m => isRetained patch m.1 := by
  rw [retainKeys] at h
  split at h
  · rename_i hnone
    cases h
    rw [List.filter_eq_self.mpr]
    intro m _
    rw [isRetained, hnone]
  · rename_i kept hkept
    cases h
    refine List.filter_congr fun m _ => ?_
    rw [isRetained, hkept]
  · cases h

/-- A merge into an empty object leaves what is stored of the patch's members, without those
    that name directives and those that only delete. -/
theorem mergeMembers_nil {patch merged : Members} (hpatch : (Json.obj patch).isCanonical = true)
    (h : mergeMembers keys path patch [] = .ok merged) :
    merged = (stripMembers patch).filter fun m =>
      !isDirectiveName m.1 && !(Members.get? m.1 patch).any isDeleteOnly := by
  have hinc := Json.increasing_of_isCanonical hpatch
  have hstripInc : Members.increasing (stripMembers patch) = true := by
    have hstrip := isCanonical_strip (.obj patch) hpatch
    rw [strip] at hstrip
    exact Json.increasing_of_isCanonical hstrip
  refine Members.ext_get? (increasing_mergeMembers rfl h) (Members.increasing_filter hstripInc _) ?_
  intro name
  rw [Members.get?_filter hstripInc, get?_stripMembers hinc]
  cases hname : isDirectiveName name with
  | true =>
      rw [get?_mergeMembers_absent rfl (fun _ _ _ => hname) h]
      refine (Option.filter_eq_none_iff.mpr fun _ _ => ?_).symm
      simp [hname]
  | false =>
      cases hv : Members.get? name patch with
      | none =>
          have habsent : ∀ m ∈ patch, m.1 = name → isDirectiveName name = true := by
            rintro m hm rfl
            cases hv.symm.trans (Members.get?_of_mem hinc hm)
          rw [get?_mergeMembers_absent rfl habsent h]
          rfl
      | some v =>
          have hvalue := get?_mergeMembers_given hinc rfl hname hv h
          rw [show Members.get? name ([] : Members) = none from rfl, mergeValue_none] at hvalue
          rw [← Except.ok.inj hvalue]
          cases hadds : isDeleteOnly v with
          | true =>
              rw [Bool.or_true, if_pos rfl]
              refine (Option.filter_eq_none_iff.mpr fun _ _ => ?_).symm
              simp [hv, hadds]
          | false =>
              have hstored : isStoredMember (name, v) = !v.isNull := by
                rw [isStoredMember, isStripped_eq_false hname, not_deleteItem_of_adds hadds,
                  Bool.false_or, Bool.or_false]
              rw [Bool.or_false, Option.filter_some, hstored]
              cases v.isNull with
              | true => rfl
              | false => simp [hname, hv, hadds, Option.filter_some]

/-- A merge into an empty object keeps some of what would be stored. -/
theorem mergeObject_nil {patch ms : Members} (hpatch : (Json.obj patch).isCanonical = true)
    (h : mergeObject keys path patch [] = .ok ms) :
    ms = (stripMembers patch).filter fun m => keepsStored patch m.1 := by
  rcases mergeObject_ok h with ⟨hreplace, rfl⟩ | ⟨hmerge, merged, hmerged, hkept⟩
  · refine (List.filter_eq_self.mpr fun m _ => ?_).symm
    rw [keepsStored, hreplace]
    rfl
  · have hdirective : (directive? patch == some "replace") = false := by
      rcases hmerge with heq | heq <;> rw [heq] <;> rfl
    rw [retainKeys_ok hkept, mergeMembers_nil hpatch hmerged, List.filter_filter]
    refine List.filter_congr fun m _ => ?_
    rw [keepsStored, hdirective, Bool.false_or, Bool.and_comm]

/-- **Storing and merging.**  An object of a patch that can be merged into an empty object makes
    of it what would have been stored in its place, less the members that the merge does not keep;
    so the two are one exactly if it keeps all of them. -/
theorem stored_eq_merged_iff {child : Members} (hchild : (Json.obj child).isCanonical = true)
    (hkeep : isDelete child = false) {merged : Option Json}
    (h : mergeValue keys path (.obj child) (some (.obj [])) = .ok merged) :
    ∃ stored, mergeValue keys path (.obj child) none = .ok (some (.obj stored)) ∧
      merged = some (.obj (stored.filter fun m => keepsStored child m.1)) ∧
      (merged = some (.obj stored) ↔ ∀ m ∈ stored, keepsStored child m.1 = true) := by
  rw [mergeValue_object hkeep] at h
  obtain ⟨ms, hms, rfl⟩ := map_ok h
  obtain rfl := mergeObject_nil hchild hms
  refine ⟨stripMembers child, ?_, rfl, ?_⟩
  · rw [mergeValue_new_object hkeep (by rintro _ ⟨⟩), strip]
  · rw [Option.some_inj, Json.obj.injEq, List.filter_eq_self]

/-- The strategy of a deployment, with the names of the members to be kept. -/
def recreateStrategy : Members := [("$retainKeys", .arr [.str "type"]), ("type", .str "Recreate")]

/-- A strategy that keeps all that it gives is stored as it is merged. -/
theorem stored_eq_merged_strategy :
    mergeValue [] ["spec", "strategy"] (.obj recreateStrategy) (some (.obj [])) =
        .ok (some (.obj [("type", .str "Recreate")])) ∧
      mergeValue [] ["spec", "strategy"] (.obj recreateStrategy) none =
        .ok (some (.obj [("type", .str "Recreate")])) := by
  have hmerged : mergeValue [] ["spec", "strategy"] (.obj recreateStrategy) (some (.obj [])) =
      .ok (some (.obj [("type", .str "Recreate")])) := by cbv
  obtain ⟨stored, hstored, hkept, hsame⟩ :=
    stored_eq_merged_iff (by decide +kernel) (by decide +kernel) hmerged
  have hstrip : stripMembers recreateStrategy = [("type", .str "Recreate")] := by
    simp [recreateStrategy, stripMembers, isStripped, String.startsWith_string_iff, Json.isNull,
      isDeleteItem, strip]
  obtain rfl : stripMembers recreateStrategy = stored := by
    rw [mergeValue_none] at hstored
    exact Json.obj.inj (Option.some.inj (Except.ok.inj hstored))
  refine ⟨hmerged, hstored.trans (congrArg Except.ok (hsame.mpr ?_).symm)⟩
  rw [hstrip]
  decide +kernel

/-- A strategy with a member that is not to be kept. -/
def unretainedStrategy : Members :=
  [("$retainKeys", .arr [.str "type"]), ("rollingUpdate", .obj []), ("type", .str "Recreate")]

/-- Annotations of which one has a dollar sign in front. -/
def markedAnnotations : Members := [("$note", .str "draft"), ("owner", .str "me")]

/-- A security context that only deletes one of its settings. -/
def deletingContext : Members :=
  [("runAsUser", .int 1000), ("sysctls", .arr [deletionOf "net.core.somaxconn"])]

/-- What is stored of an object of a patch is not what a merge into an empty object makes of it. -/
def Disagrees (keys : MergeKeys) (path : List String) (child : Members) : Prop :=
  isDelete child = false ∧
    ∃ stored merged, mergeValue keys path (.obj child) none = .ok (some (.obj stored)) ∧
      mergeValue keys path (.obj child) (some (.obj [])) = .ok (some (.obj merged)) ∧
      stored ≠ merged

/-- What is stored and what is merged differ if they are of different lengths. -/
theorem disagrees_of_length {child merged : Members} (hkeep : isDelete child = false)
    (hlength : (stripMembers child).length ≠ merged.length)
    (hmerged : mergeValue keys path (.obj child) (some (.obj [])) = .ok (some (.obj merged))) :
    Disagrees keys path child := by
  refine ⟨hkeep, stripMembers child, merged, ?_, hmerged, fun heq => hlength (heq ▸ rfl)⟩
  rw [mergeValue_new_object hkeep (by rintro _ ⟨⟩), strip]

/-- **Stored, but not merged.**  A member that is not to be kept, one whose name starts with a
    dollar sign, and a list of nothing but deletions are stored where the document has nothing,
    and are not there where it has an empty object. -/
theorem stored_ne_merged :
    Disagrees podKeys ["spec"] unretainedStrategy ∧ Disagrees podKeys ["spec"] markedAnnotations ∧
      Disagrees podKeys ["spec"] deletingContext := by
  have hstrategy : mergeValue podKeys ["spec"] (.obj unretainedStrategy) (some (.obj [])) =
      .ok (some (.obj [("type", .str "Recreate")])) := by cbv
  have hannotations : mergeValue podKeys ["spec"] (.obj markedAnnotations) (some (.obj [])) =
      .ok (some (.obj [("owner", .str "me")])) := by cbv
  have hcontext : mergeValue podKeys ["spec"] (.obj deletingContext) (some (.obj [])) =
      .ok (some (.obj [("runAsUser", .int 1000)])) := by cbv
  exact ⟨disagrees_of_length rfl (by decide +kernel) hstrategy,
    disagrees_of_length rfl (by decide +kernel) hannotations,
    disagrees_of_length rfl (by decide +kernel) hcontext⟩

end Patch

end ModelOperator

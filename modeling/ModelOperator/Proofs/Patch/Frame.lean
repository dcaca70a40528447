import ModelOperator.Proofs.Json.Outline
import ModelOperator.Proofs.Patch.KeyedList
import ModelOperator.Proofs.Patch.Storing

/-!
# What a strategic merge leaves alone

    A patch without directives changes what it names and adds what it gives, and nothing else.

    * `Spares` says that a patch names nothing at a place of the document: on the way it only
      merges, and then there is a member that it does not name or an item whose key none of its
      items has.  What stands at such a place stays there (`partAt?_mergeAll`).
    * `Within` says that a value has nothing but what stands there in other values, and what a
      merge makes of a document is within the document and the patch (`within_mergeValue`).

    Both follow the merge step by step: items keep their positions, since only a directive takes
    one out, and so an item can be followed through the patch's items (`getElem?_mergeItems`).
    Together they are `applyStrategic_frame`. -/

namespace ModelOperator

namespace Patch

variable {keys : MergeKeys} {path : List String}

/-! ## What a patch names -/

/-- What values have under a name. -/
def under (name : String) (vs : List Json) : List Json := vs.filterMap (Json.get? name)

/-- The items of those values that are lists. -/
def itemsOf (vs : List Json) : List Json := vs.flatMap fun v => v.asItems?.getD []

/-- The items that have the key of an item, or no key if it has none. -/
def alike (key : String) (w : Json) (items : List Json) : List Json :=
  items.filter fun item => itemKey? key item = itemKey? key w

/-- More values have no less under a name. -/
theorem under_subset {vs ws : List Json} (h : vs ⊆ ws) (name : String) :
    under name vs ⊆ under name ws :=
  List.filterMap_subset _ h

theorem itemsOf_cons (items vs : List Json) : itemsOf (.arr items :: vs) = items ++ itemsOf vs :=
  List.flatMap_cons

/-- More values have no fewer items. -/
theorem itemsOf_subset {vs ws : List Json} (h : vs ⊆ ws) : itemsOf vs ⊆ itemsOf ws := by
  intro item hitem
  obtain ⟨v, hv, hitem⟩ := List.mem_flatMap.mp hitem
  exact List.mem_flatMap.mpr ⟨v, h hv, hitem⟩

/-- Items are alike if they have the same key. -/
theorem mem_alike {key : String} {w item : Json} {items : List Json} :
    item ∈ alike key w items ↔ item ∈ items ∧ itemKey? key item = itemKey? key w := by
  rw [alike, List.mem_filter, decide_eq_true_iff]

/-- More items have no fewer that are alike. -/
theorem alike_subset {items others : List Json} (h : items ⊆ others) (key : String) (w : Json) :
    alike key w items ⊆ alike key w others :=
  List.filter_subset _ h

theorem alike_append (key : String) (w : Json) (items others : List Json) :
    alike key w (items ++ others) = alike key w items ++ alike key w others :=
  List.filter_append items others

/-- Items with one key are like the same items. -/
theorem alike_congr {key : String} {w x : Json} (h : itemKey? key w = itemKey? key x)
    (items : List Json) : alike key w items = alike key x items := by
  rw [alike, alike, h]

/-- At a place of a document a patch names nothing, where `us` are the values that it gives for
    the document's value. -/
inductive Spares (keys : MergeKeys) : List String → List Json → Json → List PathStep → Prop
  /-- The patch gives nothing for the value. -/
  | unnamed {path : List String} {v : Json} {place : List PathStep} : Spares keys path [] v place
  /-- It gives objects for an object. -/
  | member {path : List String} {us : List Json} {ms : Members} {name : String} {v : Json}
      {place : List PathStep} (hobjects : ∀ u ∈ us, u.isObject = true)
      (hv : Members.get? name ms = some v)
      (h : Spares keys (path ++ [name]) (under name us) v place) :
      Spares keys path us (.obj ms) (.member name :: place)
  /-- It gives lists for a list that is merged by key. -/
  | item {path : List String} {us items : List Json} {index : Nat} {v : Json}
      {place : List PathStep} {key : String}
      (hkey : keys.keyFor? (".".intercalate path) = some key)
      (hlists : ∀ u ∈ us, u.asItems?.isSome = true) (hv : items[index]? = some v)
      (h : Spares keys path (alike key v (itemsOf us)) v place) :
      Spares keys path us (.arr items) (.place index :: place)
  /-- No item of these lists has the same under the merge key. -/
  | other {path : List String} {us items : List Json} {index : Nat} {v : Json}
      {place : List PathStep} {key : String}
      (hkey : keys.keyFor? (".".intercalate path) = some key)
      (hlists : ∀ u ∈ us, u.asItems?.isSome = true) (hv : items[index]? = some v)
      (h : ∀ item ∈ itemsOf us, ¬ SameKey key item v) :
      Spares keys path us (.arr items) (.place index :: place)

/-- A value without directives that is in order. -/
structure Plain (v : Json) : Prop where
  canonical : v.isCanonical = true
  undirected : Undirected v

/-- The members of a patch without directives have plain names and no directives. -/
theorem Plain.member {child : Members} (h : Plain (.obj child)) {name : String} {v : Json}
    (hv : Members.get? name child = some v) : isDirectiveName name = false ∧ Plain v := by
  obtain ⟨hnames, hvalues⟩ := undirected_obj.mp h.undirected
  have hmem := Members.mem_of_get? hv
  exact ⟨hnames _ hmem, Json.isCanonical_of_get? h.canonical hv, hvalues _ hmem⟩

/-- The items of a patch without directives have none. -/
theorem Plain.item {items : List Json} (h : Plain (.arr items)) {item : Json}
    (hitem : item ∈ items) : Plain item :=
  ⟨(Json.isCanonical_arr_iff items).mp h.canonical item hitem,
    undirected_arr.mp h.undirected item hitem⟩

/-- What patches without directives have under a name has none. -/
theorem plain_under {us : List Json} (h : ∀ u ∈ us, Plain u) (name : String) :
    ∀ v ∈ under name us, Plain v := by
  intro v hv
  obtain ⟨u, hu, hget⟩ := List.mem_filterMap.mp hv
  cases u with
  | obj child => exact ((h _ hu).member hget).2
  | _ => cases hget

/-- The items of patches without directives have none. -/
theorem plain_itemsOf {us : List Json} (h : ∀ u ∈ us, Plain u) : ∀ item ∈ itemsOf us, Plain item := by
  intro item hitem
  obtain ⟨u, hu, hitem⟩ := List.mem_flatMap.mp hitem
  cases u with
  | arr items => exact (h _ hu).item hitem
  | _ => cases hitem

/-! ## Merges without directives -/

/-- A patch without directives retains no keys. -/
theorem Plain.retains {child : Members} (h : Plain (.obj child)) : retains child = false := by
  rw [Patch.retains]
  cases hv : Members.get? "$retainKeys" child with
  | none => rfl
  | some v => exact absurd (h.member hv).1 (by decide +kernel)

/-- Without directives, objects are merged member by member. -/
theorem Plain.mergeObject_ok {child existing ms : Members} (h : Plain (.obj child))
    (hms : mergeObject keys path child existing = .ok ms) :
    mergeMembers keys path child existing = .ok ms := by
  rcases Patch.mergeObject_ok hms with ⟨hreplace, -⟩ | ⟨-, merged, hmerged, hkept⟩
  · cases h.undirected.directive?.symm.trans hreplace
  · have hall : merged.filter (fun m => isRetained child m.1) = merged := by
      refine List.filter_eq_self.mpr fun m _ => ?_
      rw [isRetained, Option.not_isSome_iff_eq_none.mp (ne_true_of_eq_false h.retains)]
    rw [hmerged, retainKeys_ok hkept, hall]

/-- A merged object has under each name what the patch's value makes of the document's. -/
theorem Plain.get?_merged {child existing ms : Members} (h : Plain (.obj child))
    (hexisting : (Json.obj existing).isCanonical = true)
    (hms : Patch.mergeObject keys path child existing = .ok ms) (name : String) :
    match Members.get? name child with
    | some v => mergeValue keys (path ++ [name]) v (Members.get? name existing) =
        .ok (Members.get? name ms)
    | none => Members.get? name ms = Members.get? name existing := by
  have hmerged := h.mergeObject_ok hms
  have hinc := Json.increasing_of_isCanonical h.canonical
  have hbase := Json.increasing_of_isCanonical hexisting
  cases hv : Members.get? name child with
  | some v => exact get?_mergeMembers_given hinc hbase (h.member hv).1 hv hmerged
  | none =>
      refine get?_mergeMembers_absent hbase ?_ hmerged
      rintro m hm rfl
      cases hv.symm.trans (Members.get?_of_mem hinc hm)

/-- Without directives, lists are merged item by item. -/
theorem Plain.mergeList {items : List Json} (h : Plain (.arr items)) (key : String)
    (existing : List Json) :
    mergeList keys path key items existing = mergeItems keys path key items existing := by
  have hreplace : items.any isReplaceItem = false := by
    refine List.any_eq_false.mpr fun item hitem => ?_
    cases item with
    | obj fields =>
        rw [isReplaceItem, (h.item hitem).undirected.directive?]
        exact Bool.false_ne_true
    | _ => exact Bool.false_ne_true
  rw [Patch.mergeList, hreplace, if_neg Bool.false_ne_true]

/-- Merging into an item of the same key leaves its key. -/
theorem Plain.itemKey?_merged {key : String} (hkey : isDirectiveName key = false)
    {fields existing ms : Members} (h : Plain (.obj fields))
    (hexisting : (Json.obj existing).isCanonical = true)
    (hold : SameKey key (.obj fields) (.obj existing))
    (hms : Patch.mergeObject keys path fields existing = .ok ms) :
    itemKey? key (.obj ms) = itemKey? key (.obj existing) := by
  rw [itemKey?_of_sameKey hold]
  exact Patch.itemKey?_merged hkey h.canonical h.retains hexisting hold hms

/-- The item of a list at a position stays there at each step, and is merged with the patch's item
    or left alone. -/
theorem getElem?_itemStep {key : String} (hkey : isDirectiveName key = false) {item : Json}
    (hitem : Plain item) {base next : List Json} (hbase : ∀ old ∈ base, old.isCanonical = true)
    (h : ItemStep keys path key item base next) {index : Nat} {w : Json}
    (hw : base[index]? = some w) :
    ∃ x, next[index]? = some x ∧ itemKey? key x = itemKey? key w ∧
      (x = w ∨ SameKey key item w ∧ mergeValue keys path item (some w) = .ok (some x)) := by
  cases h with
  | ignored => exact ⟨w, hw, rfl, Or.inl rfl⟩
  | added =>
      obtain ⟨hlt, -⟩ := List.getElem?_eq_some_iff.mp hw
      exact ⟨w, (List.getElem?_append_left hlt).trans hw, rfl, Or.inl rfl⟩
  | removed hdelete =>
      rw [hitem.undirected.not_delete] at hdelete
      cases hdelete
  | @changed before after fields existing ms hfields hkeep hfirst hold hms =>
      subst hfields
      by_cases hindex : index = before.length
      · subst hindex
        have hthere : ∀ v : Json, (before ++ v :: after)[before.length]? = some v := by simp
        obtain rfl : Json.obj existing = w := Option.some.inj ((hthere _).symm.trans hw)
        have hexisting := hbase _ (List.mem_append_right _ List.mem_cons_self)
        refine ⟨.obj ms, hthere _, ?_, Or.inr ⟨hold, ?_⟩⟩
        · exact hitem.itemKey?_merged hkey hexisting hold hms
        · rw [mergeValue_object hkeep, hms]
          rfl
      · refine ⟨w, ?_, rfl, Or.inl rfl⟩
        rw [← hw]
        grind

/-- **An item followed through a patch.**  It is merged with items of the patch that have its key,
    and with none if no item of the patch has the same under the merge key. -/
theorem getElem?_mergeItems {key : String} (hkey : isDirectiveName key = false)
    {items base merged : List Json} (hitems : ∀ item ∈ items, Plain item)
    (hbase : ∀ old ∈ base, old.isCanonical = true)
    (h : mergeItems keys path key items base = .ok merged) {index : Nat} {w : Json}
    (hw : base[index]? = some w) :
    ∃ us x, us ⊆ alike key w items ∧ ((∀ item ∈ items, ¬ SameKey key item w) → us = []) ∧
      merged[index]? = some x ∧ itemKey? key x = itemKey? key w ∧
      mergeAll keys path (some w) us = .ok (some x) := by
  induction items generalizing base w with
  | nil =>
      rw [mergeItems] at h
      cases h
      exact ⟨[], w, List.nil_subset _, fun _ => rfl, hw, rfl, rfl⟩
  | cons item rest ih =>
      obtain ⟨hitem, hrest⟩ := List.forall_mem_cons.mp hitems
      obtain ⟨next, hstep, hmore⟩ := mergeItems_cons h
      have hnext := isCanonical_itemStep hitem.canonical hbase
        (isCanonical_mergeValue item hitem.canonical) hstep
      obtain ⟨y, hy, hyKey, hmerges⟩ := getElem?_itemStep hkey hitem hbase hstep hw
      obtain ⟨us, x, hsub, hnone, hx, hxKey, hall⟩ := ih hrest hnext hmore hy
      have hsub' : us ⊆ alike key w (item :: rest) := by
        intro u hu
        obtain ⟨hmem, hsame⟩ := mem_alike.mp (hsub hu)
        exact mem_alike.mpr ⟨List.mem_cons_of_mem _ hmem, hsame.trans hyKey⟩
      rcases hmerges with rfl | ⟨hold, hvalue⟩
      · exact ⟨us, x, hsub', fun h => hnone fun u hu => h u (List.mem_cons_of_mem _ hu), hx, hxKey,
          hall⟩
      · refine ⟨item :: us, x, ?_, fun h => absurd hold (h item List.mem_cons_self), hx,
          hxKey.trans hyKey, ?_⟩
        · refine List.cons_subset.mpr ⟨mem_alike.mpr ⟨List.mem_cons_self, ?_⟩, hsub'⟩
          exact (itemKey?_of_sameKey hold).symm
        · rw [mergeAll, List.foldlM_cons, hvalue]
          exact hall

/-! ## Several values, one after the other -/

/-- Merging values in a row merges the first and then the others. -/
theorem mergeAll_cons {v : Json} {vs : List Json} {found r : Option Json}
    (h : mergeAll keys path found (v :: vs) = .ok r) :
    ∃ next, mergeValue keys path v found = .ok next ∧ mergeAll keys path next vs = .ok r := by
  rw [mergeAll, List.foldlM_cons] at h
  exact bind_ok h

/-- Merging more values goes on from what the first ones made. -/
theorem mergeAll_append {vs ws : List Json} {found next : Option Json}
    (h : mergeAll keys path found vs = .ok next) :
    mergeAll keys path found (vs ++ ws) = mergeAll keys path next ws := by
  rw [mergeAll, List.foldlM_append, ← mergeAll, h]
  rfl

/-- Objects that are merged into an object are merged into it member by member. -/
theorem mergeAll_objects {us : List Json} (hplain : ∀ u ∈ us, Plain u)
    (hobjects : ∀ u ∈ us, u.isObject = true) {ms : Members}
    (hms : (Json.obj ms).isCanonical = true) {r : Option Json}
    (h : mergeAll keys path (some (.obj ms)) us = .ok r) :
    ∃ merged, r = some (.obj merged) ∧ ∀ name,
      mergeAll keys (path ++ [name]) (Members.get? name ms) (under name us) =
        .ok (Members.get? name merged) := by
  induction us generalizing ms with
  | nil =>
      cases h
      exact ⟨ms, rfl, fun _ => rfl⟩
  | cons u us ih =>
      obtain ⟨hu, hus⟩ := List.forall_mem_cons.mp hplain
      obtain ⟨huObject, husObjects⟩ := List.forall_mem_cons.mp hobjects
      obtain ⟨next, hvalue, hmore⟩ := mergeAll_cons h
      cases u with
      | obj child =>
          have hcanonical : ∀ w ∈ next, w.isCanonical = true :=
            isCanonical_mergeValue _ hu.canonical (by rintro _ ⟨⟩; exact hms) hvalue
          rw [mergeValue_object hu.undirected.not_delete] at hvalue
          obtain ⟨ms', hms', rfl⟩ := map_ok hvalue
          obtain ⟨merged, rfl, hmembers⟩ := ih hus husObjects (hcanonical _ rfl) hmore
          refine ⟨merged, rfl, fun name => ?_⟩
          have hname := hu.get?_merged hms hms' name
          rw [under, List.filterMap_cons, Json.get?]
          cases hv : Members.get? name child with
          | none =>
              rw [hv] at hname
              rw [← hname]
              exact hmembers name
          | some v =>
              rw [hv] at hname
              rw [mergeAll, List.foldlM_cons, hname]
              exact hmembers name
      | _ => cases huObject

/-- Lists that are merged into a list by key are merged into each of its items by themselves. -/
theorem mergeAll_lists {key : String} (hkey : keys.keyFor? (".".intercalate path) = some key)
    (hdirective : isDirectiveName key = false) {us : List Json} (hplain : ∀ u ∈ us, Plain u)
    (hlists : ∀ u ∈ us, u.asItems?.isSome = true) {items : List Json}
    (hitems : ∀ old ∈ items, old.isCanonical = true) {index : Nat} {w : Json}
    (hw : items[index]? = some w) {r : Option Json}
    (h : mergeAll keys path (some (.arr items)) us = .ok r) :
    ∃ merged ws x, r = some (.arr merged) ∧ ws ⊆ alike key w (itemsOf us) ∧
      ((∀ item ∈ itemsOf us, ¬ SameKey key item w) → ws = []) ∧ merged[index]? = some x ∧
      mergeAll keys path (some w) ws = .ok (some x) := by
  induction us generalizing items w with
  | nil =>
      cases h
      exact ⟨items, [], w, rfl, List.nil_subset _, fun _ => rfl, hw, rfl⟩
  | cons u us ih =>
      obtain ⟨hu, hus⟩ := List.forall_mem_cons.mp hplain
      obtain ⟨huList, husLists⟩ := List.forall_mem_cons.mp hlists
      obtain ⟨next, hvalue, hmore⟩ := mergeAll_cons h
      cases u with
      | arr patch =>
          rw [mergeValue_keyed hkey, hu.mergeList] at hvalue
          obtain ⟨between, hbetween, rfl⟩ := map_ok hvalue
          have hpatch : ∀ item ∈ patch, Plain item := fun item hitem => hu.item hitem
          have hcanonical : ∀ old ∈ between, old.isCanonical = true :=
            isCanonical_mergeItems patch (fun item hitem => (hpatch item hitem).canonical) hitems
              hbetween
          obtain ⟨first, y, hfirst, hnoFirst, hy, hyKey, hmerged⟩ :=
            getElem?_mergeItems hdirective hpatch hitems hbetween hw
          obtain ⟨merged, ws, x, rfl, hws, hnoWs, hx, hall⟩ := ih hus husLists hcanonical hy hmore
          rw [alike_congr hyKey] at hws
          refine ⟨merged, first ++ ws, x, rfl, ?_, ?_, hx, (mergeAll_append hmerged).trans hall⟩
          · rw [itemsOf_cons, alike_append]
            exact List.append_subset.mpr ⟨List.subset_append_of_subset_left _ hfirst,
              List.subset_append_of_subset_right _ hws⟩
          · intro hnone
            rw [itemsOf_cons] at hnone
            obtain ⟨hnonePatch, hnoneRest⟩ := List.forall_mem_append.mp hnone
            obtain rfl := hnoFirst hnonePatch
            obtain rfl : w = y := Option.some.inj (Except.ok.inj hmerged)
            rw [hnoWs hnoneRest]
            rfl
      | _ => cases huList

/-- **What a patch does not name stays.** -/
theorem partAt?_mergeAll (hkeys : Regular keys) {us : List Json} {v : Json}
    {place : List PathStep} (hspares : Spares keys path us v place)
    (hv : v.isCanonical = true) {vs : List Json} (hsub : vs ⊆ us) (hplain : ∀ u ∈ vs, Plain u)
    {r : Option Json} (h : mergeAll keys path (some v) vs = .ok r) :
    ∃ x, r = some x ∧ x.partAt? place = v.partAt? place := by
  induction hspares generalizing vs r with
  | unnamed =>
      obtain rfl := List.subset_nil.mp hsub
      cases h
      exact ⟨_, rfl, rfl⟩
  | @member path us ms name w place hobjects hw _ ih =>
      obtain ⟨merged, rfl, hmembers⟩ :=
        mergeAll_objects hplain (fun u hu => hobjects u (hsub hu)) hv h
      have hname := hmembers name
      rw [hw] at hname
      obtain ⟨x, hx, hpart⟩ := ih (Json.isCanonical_of_get? hv hw)
        (under_subset hsub name) (plain_under hplain name) hname
      refine ⟨_, rfl, ?_⟩
      rw [Json.partAt?, Json.partAt?, hx, hw]
      exact hpart
  | @item path us items index w place key hkey hlists hw _ ih =>
      have hitems := (Json.isCanonical_arr_iff items).mp hv
      obtain ⟨merged, ws, y, rfl, hws, -, hy, hall⟩ := mergeAll_lists hkey (hkeys _ _ hkey) hplain
        (fun u hu => hlists u (hsub hu)) hitems hw h
      have halike : ∀ u ∈ ws, Plain u := fun u hu => plain_itemsOf hplain u (mem_alike.mp (hws hu)).1
      obtain ⟨x, hx, hpart⟩ := ih (hitems w (List.mem_of_getElem? hw))
        (List.Subset.trans hws (alike_subset (itemsOf_subset hsub) key w)) halike hall
      obtain rfl := Option.some.inj hx
      refine ⟨_, rfl, ?_⟩
      rw [Json.partAt?, Json.partAt?, hy, hw]
      exact hpart
  | @other path us items index w place key hkey hlists hw hnone =>
      have hitems := (Json.isCanonical_arr_iff items).mp hv
      obtain ⟨merged, ws, y, rfl, -, hnil, hy, hall⟩ := mergeAll_lists hkey (hkeys _ _ hkey) hplain
        (fun u hu => hlists u (hsub hu)) hitems hw h
      obtain rfl := hnil fun item hitem => hnone item (itemsOf_subset hsub hitem)
      obtain rfl : w = y := Option.some.inj (Except.ok.inj hall)
      refine ⟨_, rfl, ?_⟩
      rw [Json.partAt?, Json.partAt?, hy, hw]

/-! ## What a merge brings in -/

/-- A value has nothing but what stands there in other values. -/
inductive Within (keys : MergeKeys) : List String → List Json → Json → Prop
  /-- It has no parts. -/
  | leaf {path : List String} {vs : List Json} {w : Json} (hobject : w.isObject = false)
      (hlist : w.asItems? = none) : Within keys path vs w
  /-- Others have each member of an object. -/
  | object {path : List String} {vs : List Json} {ms : Members}
      (hthere : ∀ m ∈ ms, under m.1 vs ≠ [])
      (h : ∀ m ∈ ms, Within keys (path ++ [m.1]) (under m.1 vs) m.2) :
      Within keys path vs (.obj ms)
  /-- Others have an item with the key of each item. -/
  | keyed {path : List String} {vs items : List Json} {key : String}
      (hkey : keys.keyFor? (".".intercalate path) = some key)
      (hthere : ∀ w ∈ items, alike key w (itemsOf vs) ≠ [])
      (h : ∀ w ∈ items, Within keys path (alike key w (itemsOf vs)) w) :
      Within keys path vs (.arr items)
  /-- Of a list without a merge key, each item is within one item that others have. -/
  | unkeyed {path : List String} {vs items : List Json}
      (hkey : keys.keyFor? (".".intercalate path) = none) {source : Json → Json}
      (hthere : ∀ w ∈ items, source w ∈ itemsOf vs)
      (h : ∀ w ∈ items, Within keys path [source w] w) : Within keys path vs (.arr items)

theorem ne_nil_of_subset {α : Type} {l l' : List α} (h : l ⊆ l') (hne : l ≠ []) : l' ≠ [] :=
  fun hnil => hne (List.subset_nil.mp (hnil ▸ h))

/-- What is within some values is within more of them. -/
theorem Within.mono {vs ws : List Json} {w : Json} (h : Within keys path vs w) (hsub : vs ⊆ ws) :
    Within keys path ws w := by
  induction h generalizing ws with
  | leaf hobject hlist => exact .leaf hobject hlist
  | object hthere _ ih =>
      exact .object (fun m hm => ne_nil_of_subset (under_subset hsub m.1) (hthere m hm))
        fun m hm => ih m hm (under_subset hsub m.1)
  | @keyed path vs items key hkey hthere _ ih =>
      have halike : ∀ w, alike key w (itemsOf vs) ⊆ alike key w (itemsOf ws) :=
        alike_subset (itemsOf_subset hsub) key
      exact .keyed hkey (fun w hw => ne_nil_of_subset (halike w) (hthere w hw))
        fun w hw => ih w hw (halike w)
  | unkeyed hkey hthere h _ =>
      exact .unkeyed hkey (fun w hw => itemsOf_subset hsub (hthere w hw)) h

/-- An object whose members are within those of another one. -/
theorem Within.of_members {ms child : Members} (h : ∀ m ∈ ms, ∃ v,
    Members.get? m.1 child = some v ∧ Within keys (path ++ [m.1]) [v] m.2) :
    Within keys path [.obj child] (.obj ms) := by
  have hunder : ∀ {name : String} {v : Json}, Members.get? name child = some v →
      under name [.obj child] = [v] := by
    intro name v hv
    exact List.filterMap_cons_some hv
  refine .object (fun m hm => ?_) fun m hm => ?_
  · obtain ⟨v, hv, -⟩ := h m hm
    rw [hunder hv]
    exact List.cons_ne_nil _ _
  · obtain ⟨v, hv, hw⟩ := h m hm
    rw [hunder hv]
    exact hw

/-- A list whose items are within those of another one, and have their keys. -/
theorem Within.of_items {items others : List Json} (h : ∀ w ∈ items, ∃ s ∈ others,
    Within keys path [s] w ∧
      ∀ key, keys.keyFor? (".".intercalate path) = some key → itemKey? key s = itemKey? key w) :
    Within keys path [.arr others] (.arr items) := by
  have hothers : itemsOf [.arr others] = others := by
    rw [itemsOf_cons]
    exact List.append_nil others
  cases hkey : keys.keyFor? (".".intercalate path) with
  | some key =>
      have hsource : ∀ w ∈ items, ∃ s ∈ alike key w (itemsOf [.arr others]),
          Within keys path [s] w := by
        intro w hw
        obtain ⟨s, hs, hwithin, hsame⟩ := h w hw
        exact ⟨s, mem_alike.mpr ⟨hothers.symm ▸ hs, hsame key hkey⟩, hwithin⟩
      refine .keyed hkey (fun w hw => ?_) fun w hw => ?_
      · obtain ⟨s, hs, -⟩ := hsource w hw
        exact List.ne_nil_of_mem hs
      · obtain ⟨s, hs, hwithin⟩ := hsource w hw
        exact hwithin.mono (List.cons_subset.mpr ⟨hs, List.nil_subset _⟩)
  | none =>
      choose! source hthere hwithin using h
      exact .unkeyed hkey (fun w hw => hothers.symm ▸ hthere w hw) fun w hw => (hwithin w hw).1

/-- A value is within itself. -/
theorem within_self {v : Json} (hv : v.isCanonical = true) : Within keys path [v] v := by
  induction v using Json.parts_induction generalizing path with
  | obj ms ih =>
      obtain ⟨hinc, hvalues⟩ := (Json.isCanonical_obj_iff ms).mp hv
      exact .of_members fun m hm => ⟨m.2, Members.get?_of_mem hinc hm, ih m hm (hvalues m hm)⟩
  | arr items ih =>
      have hitems := (Json.isCanonical_arr_iff items).mp hv
      exact .of_items fun w hw => ⟨w, hw, ih w hw (hitems w hw), fun _ _ => rfl⟩
  | _ => exact .leaf rfl rfl

variable (hkeys : Regular keys)

include hkeys

/-- What is stored of a value is within it. -/
theorem within_strip {v : Json} (hv : v.isCanonical = true) : Within keys path [v] (strip v) := by
  induction v using Json.parts_induction generalizing path with
  | obj ms ih =>
      obtain ⟨hinc, hvalues⟩ := (Json.isCanonical_obj_iff ms).mp hv
      rw [strip, stripMembers_eq]
      refine .of_members fun m hm => ?_
      obtain ⟨given, hgiven, rfl⟩ := List.mem_map.mp hm
      have hmem := (List.mem_filter.mp hgiven).1
      exact ⟨given.2, Members.get?_of_mem hinc hmem, ih given hmem (hvalues given hmem)⟩
  | arr items ih =>
      have hitems := (Json.isCanonical_arr_iff items).mp hv
      rw [strip, stripItems_eq]
      refine .of_items fun w hw => ?_
      obtain ⟨item, hitem, rfl⟩ := List.mem_map.mp hw
      have hmem := (List.mem_filter.mp hitem).1
      exact ⟨item, hmem, ih item hmem (hitems item hmem),
        fun key hkey => (itemKey?_strip (hkeys _ _ hkey) (hitems item hmem)).symm⟩
  | _ => exact .leaf rfl rfl

/-- One item of a patch leaves a list within others that have the item, if it brings in nothing
    where it is merged. -/
theorem within_itemStep {key : String} (hkey : keys.keyFor? (".".intercalate path) = some key)
    {item : Json} (hitem : Plain item)
    (hvalue : ∀ {vs : List Json} {w x : Json}, w.isCanonical = true → Within keys path vs w →
      mergeValue keys path item (some w) = .ok (some x) → Within keys path (item :: vs) x)
    {ss : List Json} (hmem : item ∈ ss) {base next : List Json}
    (hbase : ∀ w ∈ base, w.isCanonical = true)
    (hwithin : ∀ w ∈ base, alike key w ss ≠ [] ∧ Within keys path (alike key w ss) w)
    (h : ItemStep keys path key item base next) :
    ∀ w ∈ next, alike key w ss ≠ [] ∧ Within keys path (alike key w ss) w := by
  have hdirective := hkeys _ _ hkey
  cases h with
  | ignored => exact hwithin
  | @added _ new hkeep hnew habsent =>
      have hnewWithin : Within keys path [item] new ∧ itemKey? key item = itemKey? key new := by
        rw [hnew]
        split
        · exact ⟨within_strip hkeys hitem.canonical, (itemKey?_strip hdirective hitem.canonical).symm⟩
        · exact ⟨within_self hitem.canonical, rfl⟩
      have hthere : item ∈ alike key new ss := mem_alike.mpr ⟨hmem, hnewWithin.2⟩
      refine List.forall_mem_append.mpr ⟨hwithin, List.forall_mem_singleton.mpr ?_⟩
      exact ⟨List.ne_nil_of_mem hthere,
        hnewWithin.1.mono (List.cons_subset.mpr ⟨hthere, List.nil_subset _⟩)⟩
  | removed hdelete =>
      rw [hitem.undirected.not_delete] at hdelete
      cases hdelete
  | @changed before after fields existing ms hfields hkeep hfirst hold hms =>
      subst hfields
      obtain ⟨hbefore, hrest⟩ := List.forall_mem_append.mp hwithin
      obtain ⟨⟨-, hold'⟩, hafter⟩ := List.forall_mem_cons.mp hrest
      have hexisting := hbase _ (List.mem_append_right _ List.mem_cons_self)
      have hsame := hitem.itemKey?_merged hdirective hexisting hold hms
      have hthere : .obj fields ∈ alike key (.obj ms) ss :=
        mem_alike.mpr ⟨hmem, (hsame.trans (itemKey?_of_sameKey hold)).symm⟩
      have hmerged : mergeValue keys path (.obj fields) (some (.obj existing)) =
          .ok (some (.obj ms)) := by
        rw [mergeValue_object hkeep, hms]
        rfl
      refine List.forall_mem_append.mpr ⟨hbefore, List.forall_mem_cons.mpr ⟨?_, hafter⟩⟩
      refine ⟨List.ne_nil_of_mem hthere, (hvalue hexisting hold' hmerged).mono ?_⟩
      rw [alike_congr hsame] at hthere ⊢
      exact List.cons_subset.mpr ⟨hthere, List.Subset.refl _⟩

/-- Merging items into a list leaves every item within the items of its key. -/
theorem within_mergeItems {key : String} (hkey : keys.keyFor? (".".intercalate path) = some key)
    {items : List Json} (hitems : ∀ item ∈ items, Plain item)
    (hvalue : ∀ item ∈ items, ∀ {vs : List Json} {w x : Json}, w.isCanonical = true →
      Within keys path vs w → mergeValue keys path item (some w) = .ok (some x) →
        Within keys path (item :: vs) x)
    {ss : List Json} (hsub : items ⊆ ss) {base merged : List Json}
    (hbase : ∀ w ∈ base, w.isCanonical = true)
    (hwithin : ∀ w ∈ base, alike key w ss ≠ [] ∧ Within keys path (alike key w ss) w)
    (h : mergeItems keys path key items base = .ok merged) :
    ∀ w ∈ merged, alike key w ss ≠ [] ∧ Within keys path (alike key w ss) w := by
  induction items generalizing base with
  | nil =>
      rw [mergeItems] at h
      cases h
      exact hwithin
  | cons item rest ih =>
      obtain ⟨hitem, hrest⟩ := List.forall_mem_cons.mp hitems
      obtain ⟨hfirst, hothers⟩ := List.forall_mem_cons.mp hvalue
      obtain ⟨hmem, hsubRest⟩ := List.cons_subset.mp hsub
      obtain ⟨next, hstep, hmore⟩ := mergeItems_cons h
      have hnext := isCanonical_itemStep hitem.canonical hbase
        (isCanonical_mergeValue item hitem.canonical) hstep
      exact ih hrest hothers hsubRest hnext
        (within_itemStep hkeys hkey hitem hfirst hmem hbase hwithin hstep) hmore

/-- Objects within others, merged member by member. -/
theorem within_mergeObject {child existing ms : Members} (hchild : Plain (.obj child))
    (hexisting : (Json.obj existing).isCanonical = true)
    (hmember : ∀ m ∈ child, ∀ {vs : List Json} {w x : Json}, w.isCanonical = true →
      Within keys (path ++ [m.1]) vs w →
        mergeValue keys (path ++ [m.1]) m.2 (some w) = .ok (some x) →
          Within keys (path ++ [m.1]) (m.2 :: vs) x)
    {vs : List Json} (hwithin : Within keys path vs (.obj existing))
    (h : mergeObject keys path child existing = .ok ms) :
    Within keys path (.obj child :: vs) (.obj ms) := by
  have hms := increasing_mergeMembers (Json.increasing_of_isCanonical hexisting)
    (hchild.mergeObject_ok h)
  -- what stands under a name is within what the patch and the others have there
  have hunder : ∀ m ∈ ms, under m.1 (.obj child :: vs) ≠ [] ∧
      Within keys (path ++ [m.1]) (under m.1 (.obj child :: vs)) m.2 := by
    intro m hm
    have hname := hchild.get?_merged hexisting h m.1
    rw [Members.get?_of_mem hms hm] at hname
    have hold : ∀ {w : Json}, Members.get? m.1 existing = some w → under m.1 vs ≠ [] ∧
        Within keys (path ++ [m.1]) (under m.1 vs) w := by
      intro w hw
      have hmem := Members.mem_of_get? hw
      cases hwithin with
      | leaf hobject => cases hobject
      | object hthere hall => exact ⟨hthere (m.1, w) hmem, hall (m.1, w) hmem⟩
    rw [under, List.filterMap_cons, Json.get?, ← under]
    cases hv : Members.get? m.1 child with
    | none =>
        rw [hv] at hname
        exact hold hname.symm
    | some v =>
        rw [hv] at hname
        refine ⟨List.cons_ne_nil _ _, ?_⟩
        have hmem := Members.mem_of_get? hv
        cases hw : Members.get? m.1 existing with
        | some w =>
            rw [hw] at hname
            exact hmember _ hmem (Json.isCanonical_of_get? hexisting hw) (hold hw).2 hname
        | none =>
            rw [hw] at hname
            dsimp only at hname
            rw [mergeValue_none] at hname
            split at hname
            · cases hname
            · rw [← Option.some.inj (Except.ok.inj hname)]
              exact (within_strip hkeys (hchild.member hv).2.canonical).mono
                (List.cons_subset.mpr ⟨List.mem_cons_self, List.nil_subset _⟩)
  exact .object (fun m hm => (hunder m hm).1) fun m hm => (hunder m hm).2

/-- Lists within others, merged item by item. -/
theorem within_mergeList {key : String} (hkey : keys.keyFor? (".".intercalate path) = some key)
    {items existing merged : List Json} (hitems : Plain (.arr items))
    (hexisting : (Json.arr existing).isCanonical = true)
    (hvalue : ∀ item ∈ items, ∀ {vs : List Json} {w x : Json}, w.isCanonical = true →
      Within keys path vs w → mergeValue keys path item (some w) = .ok (some x) →
        Within keys path (item :: vs) x)
    {vs : List Json} (hwithin : Within keys path vs (.arr existing))
    (h : mergeList keys path key items existing = .ok merged) :
    Within keys path (.arr items :: vs) (.arr merged) := by
  have hsub : itemsOf vs ⊆ itemsOf (.arr items :: vs) :=
    itemsOf_subset (List.subset_cons_self _ _)
  have hbase : ∀ w ∈ existing, alike key w (itemsOf (.arr items :: vs)) ≠ [] ∧
      Within keys path (alike key w (itemsOf (.arr items :: vs))) w := by
    intro w hw
    have halike := alike_subset hsub key w
    cases hwithin with
    | leaf _ hlist => cases hlist
    | keyed hkey' hthere hall =>
        cases hkey.symm.trans hkey'
        exact ⟨ne_nil_of_subset halike (hthere w hw), (hall w hw).mono halike⟩
    | unkeyed hkey' => cases hkey.symm.trans hkey'
  rw [hitems.mergeList] at h
  have hgiven : items ⊆ itemsOf (.arr items :: vs) := by
    rw [itemsOf_cons]
    exact List.subset_append_left _ _
  have hall := within_mergeItems hkeys hkey (fun item hitem => hitems.item hitem) hvalue hgiven
    ((Json.isCanonical_arr_iff existing).mp hexisting) hbase h
  exact .keyed hkey (fun w hw => (hall w hw).1) fun w hw => (hall w hw).2

/-- **A merge brings in nothing else.**  What a value of a patch makes of a value that is within
    others is within the patch's value and the others. -/
theorem within_mergeValue {v : Json} (hv : Plain v) {vs : List Json} {w x : Json}
    (hw : w.isCanonical = true) (hwithin : Within keys path vs w)
    (h : mergeValue keys path v (some w) = .ok (some x)) : Within keys path (v :: vs) x := by
  induction v using Json.parts_induction generalizing path vs w x with
  | obj child ih =>
      cases mergeValue_ok h with
      | merged hkeep hms =>
          refine within_mergeObject hkeys hv hw ?_ hwithin hms
          intro m hm vs w x hw hwithin hvalue
          have hget := Members.get?_of_mem (Json.increasing_of_isCanonical hv.canonical) hm
          exact ih m hm (hv.member hget).2 hw hwithin hvalue
      | stored =>
          exact (within_strip hkeys hv.canonical).mono
            (List.cons_subset.mpr ⟨List.mem_cons_self, List.nil_subset _⟩)
  | arr items ih =>
      cases mergeValue_ok h with
      | keyed hkey hmerged =>
          refine within_mergeList hkeys hkey hv hw ?_ hwithin hmerged
          intro item hitem vs w x hw hwithin hvalue
          exact ih item hitem (hv.item hitem) hw hwithin hvalue
      | untouched hdeletes =>
          rw [hv.undirected.not_deleteOnly] at hdeletes
          cases hdeletes
      | stored =>
          exact (within_strip hkeys hv.canonical).mono
            (List.cons_subset.mpr ⟨List.mem_cons_self, List.nil_subset _⟩)
  | null => cases h
  | _ =>
      cases h
      exact .leaf rfl rfl

omit hkeys

/-! ## A whole patch -/

/-- **A patch touches what it names.**  Let a patch without directives be applied to a document.
    What stands at a place where the patch names nothing stands there afterwards, and what stands
    there afterwards is within the patch and the document: each member of an object in it has its
    name in the patch or in the document. -/
theorem applyStrategic_frame {t : Target} (hkeys : t.tag?.bind MergeKeys.forTag? = some keys)
    {body doc out : Json} (hbody : body.isCanonical = true) (hdoc : doc.isCanonical = true)
    (hundirected : Undirected body) (h : applyStrategic t body doc = .ok out) :
    (∀ place, Spares keys [] [body] doc place → out.partAt? place = doc.partAt? place) ∧
      Within keys [] [body, doc] out := by
  obtain ⟨tag, -, htag⟩ := Option.bind_eq_some_iff.mp hkeys
  have hregular := regular_of_forTag? htag
  have hplain : Plain body := ⟨hbody, hundirected⟩
  have hmerged := mergeValue_of_applyStrategic hkeys h
  refine ⟨fun place hspares => ?_, within_mergeValue hregular hplain hdoc (within_self hdoc) hmerged⟩
  have hall : mergeAll keys [] (some doc) [body] = .ok (some out) := by
    rw [mergeAll, List.foldlM_cons, hmerged]
    rfl
  obtain ⟨x, hx, hpart⟩ := partAt?_mergeAll hregular hspares hdoc (List.Subset.refl _)
    (List.forall_mem_singleton.mpr hplain) hall
  rw [Option.some.inj hx]
  exact hpart

/-- A container with a variable. -/
def appContainer (image : String) : Json :=
  .obj [("env", .arr [.obj [("name", .str "A"), ("value", .str "1")]]), ("image", .str image),
    ("name", .str "app")]

/-- Another container. -/
def proxyContainer : Json := .obj [("image", .str "proxy:1"), ("name", .str "proxy")]

/-- A patch that names the image of one container. -/
def imagePatch : Json :=
  .obj [("spec", .obj [("containers", .arr [.obj [("image", .str "app:2"), ("name", .str "app")]])])]

theorem applyStrategic_imagePatch :
    applyStrategic .pod imagePatch (podOf [appContainer "app:1", proxyContainer]) =
      .ok (podOf [appContainer "app:2", proxyContainer]) := by
  cbv

/-- The variable of that container, and the whole of the other one. -/
def sparedPlaces : List (List PathStep) :=
  [[.member "spec", .member "containers", .place 0, .member "env"],
    [.member "spec", .member "containers", .place 1]]

theorem spares_imagePatch : ∀ place ∈ sparedPlaces,
    Spares podKeys [] [imagePatch] (podOf [appContainer "app:1", proxyContainer]) place := by
  have hkey : podKeys.keyFor? (".".intercalate ["spec", "containers"]) = some "name" := by
    decide +kernel
  have hspec : ∀ {place : List PathStep}, Spares podKeys ["spec", "containers"]
      [.arr [.obj [("image", .str "app:2"), ("name", .str "app")]]]
      (.arr [appContainer "app:1", proxyContainer]) place →
      Spares podKeys [] [imagePatch] (podOf [appContainer "app:1", proxyContainer])
        (.member "spec" :: .member "containers" :: place) := by
    intro place h
    exact .member (by decide +kernel) rfl (.member (by decide +kernel) rfl h)
  refine List.forall_mem_cons.mpr ⟨hspec ?_, List.forall_mem_singleton.mpr (hspec ?_)⟩
  · refine .item hkey (by decide +kernel) rfl (.member (by decide +kernel) rfl ?_)
    exact .unnamed
  · refine .other hkey (by decide +kernel) rfl (List.forall_mem_singleton.mpr ?_)
    exact mt (sameKey_iff (k := .text "app") rfl).mp (by decide +kernel)

/-- What the patch does not name in a pod stays. -/
theorem applyStrategic_frame_pod :
    ∃ out, applyStrategic .pod imagePatch (podOf [appContainer "app:1", proxyContainer]) = .ok out ∧
      (∀ place ∈ sparedPlaces,
        out.partAt? place = (podOf [appContainer "app:1", proxyContainer]).partAt? place) ∧
      Within podKeys [] [imagePatch, podOf [appContainer "app:1", proxyContainer]] out := by
  obtain ⟨hstays, hwithin⟩ := applyStrategic_frame forTag?_pod
    (show imagePatch.isCanonical = true by decide +kernel) (by decide +kernel) (by decide +kernel)
    applyStrategic_imagePatch
  exact ⟨_, applyStrategic_imagePatch, fun place hplace => hstays place (spares_imagePatch place hplace),
    hwithin⟩

end Patch

end ModelOperator

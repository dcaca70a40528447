import Mathlib
import ModelOperator.Proofs.Patch.MergeItem

/-!
# Lists merged by key

    A patch of a list that is merged by key is worked off item by item, each on the list that
    the ones before it left: one appends an item, a later one merges into it, another one takes
    it out again.  What comes of it can be told for each key on its own.

    The keys of the list are followed through the patch (`keyStep`), and the item of one key is
    what the patch's items with that key make of it, one after the other (`mergeAll`).  Both are
    kept by every step (`Course.cons`), so they hold of the whole merge, and as a deletion
    leaves nothing to merge with, only the items since the last one count
    (`mergeList_exact`). -/

namespace ModelOperator

namespace Patch

variable {keys : MergeKeys} {path : List String} {key : String}

/-- The keys of the items of a list, in order. -/
def itemKeys (key : String) (items : List Json) : List ItemKey := items.filterMap (itemKey? key)

/-- A list of objects that have distinct keys. -/
structure Keyed (key : String) (items : List Json) : Prop where
  canonical : ∀ item ∈ items, item.isCanonical = true
  named : ∀ item ∈ items, (itemKey? key item).isSome = true
  distinct : (itemKeys key items).Nodup

/-- An item of a patch that has a key and directs nothing but its own merge or deletion. -/
structure PlainItem (key : String) (item : Json) : Prop where
  canonical : item.isCanonical = true
  named : (itemKey? key item).isSome = true
  directive : ∀ fields, item = .obj fields →
    directive? fields = none ∨ directive? fields = some "merge" ∨ directive? fields = some "delete"
  retainsAll : ∀ fields, item = .obj fields → retains fields = false

/-- What one item of a patch makes of the keys of a list. -/
def keyStep (key : String) (ks : List ItemKey) (item : Json) : List ItemKey :=
  match itemKey? key item with
  | none => ks
  | some k => if isDeleteItem item then ks.erase k else if k ∈ ks then ks else ks ++ [k]

/-- The items of a patch merged into what was found, one after the other. -/
def mergeAll (keys : MergeKeys) (path : List String) (found : Option Json) (items : List Json) :
    Except Error (Option Json) :=
  items.foldlM (fun found item => mergeValue keys path item found) found

/-- The items that a patch has for a key since it deletes it for the last time. -/
def sinceDeletion (key : String) (k : ItemKey) (patch : List Json) : List Json :=
  (withKey key k patch).rtakeWhile fun item => !isDeleteItem item

/-- What these items meet: nothing if the patch deletes the key, else the item of the base. -/
def meets (key : String) (k : ItemKey) (base patch : List Json) : Option Json :=
  if (withKey key k patch).any isDeleteItem then none else (withKey key k base).head?

/-! ## The keys of a list -/

theorem mem_itemKeys {k : ItemKey} {items : List Json} :
    k ∈ itemKeys key items ↔ ∃ item ∈ items, itemKey? key item = some k :=
  List.mem_filterMap

theorem itemKeys_append (items others : List Json) :
    itemKeys key (items ++ others) = itemKeys key items ++ itemKeys key others :=
  List.filterMap_append

theorem itemKeys_cons {item : Json} {k : ItemKey} (h : itemKey? key item = some k)
    (items : List Json) : itemKeys key (item :: items) = k :: itemKeys key items :=
  List.filterMap_cons_some h

/-- A step keeps the keys distinct. -/
theorem nodup_keyStep {ks : List ItemKey} (h : ks.Nodup) (item : Json) :
    (keyStep key ks item).Nodup := by
  rw [keyStep]
  split
  · exact h
  · rename_i k hk
    split
    · exact h.erase k
    · split
      · exact h
      · rename_i habsent
        exact List.nodup_append.mpr ⟨h, List.nodup_singleton k, fun a ha b hb heq =>
          habsent (List.mem_singleton.mp hb ▸ heq ▸ ha)⟩

/-- Among items with distinct keys, a key has one item at most. -/
theorem Keyed.tail_withKey {items : List Json} (h : Keyed key items) (k : ItemKey) :
    (withKey key k items).tail = [] := by
  have hcount : (withKey key k items).length ≤ 1 := by
    have hle := List.nodup_iff_count_le_one.mp h.distinct k
    rw [itemKeys, List.count_filterMap] at hle
    rw [withKey, ← List.countP_eq_length_filter]
    refine le_of_eq_of_le (List.countP_congr fun item _ => ?_) hle
    rw [keyIs_iff, beq_iff_eq]
  cases hitems : withKey key k items with
  | nil => rfl
  | cons item rest =>
      rw [hitems, List.length_cons] at hcount
      exact List.eq_nil_of_length_eq_zero (Nat.le_zero.mp (Nat.le_of_succ_le_succ hcount))

/-- The item of a key is the only one, and thus the first. -/
theorem Keyed.head?_withKey {items : List Json} (h : Keyed key items) {item : Json}
    (hitem : item ∈ items) {k : ItemKey} (hk : itemKey? key item = some k) :
    (withKey key k items).head? = some item := by
  have hmem : item ∈ withKey key k items := List.mem_filter.mpr ⟨hitem, keyIs_iff.mpr hk⟩
  have htail := h.tail_withKey k
  cases hitems : withKey key k items with
  | nil =>
      rw [hitems] at hmem
      cases hmem
  | cons first rest =>
      rw [hitems] at hmem htail
      cases htail
      rw [List.mem_singleton.mp hmem]
      rfl

/-! ## One step -/

section

variable {item : Json} {base next : List Json}

theorem PlainItem.not_replace (h : PlainItem key item) : isReplaceItem item = false := by
  cases item with
  | obj fields =>
      rw [isReplaceItem]
      rcases h.directive fields rfl with heq | heq | heq <;> rw [heq] <;> rfl
  | _ => rfl

/-- An item that is merged with a plain one keeps its key. -/
theorem PlainItem.itemKey?_merged {fields existing ms : Members}
    (h : PlainItem key (.obj fields)) (hkey : isDirectiveName key = false)
    (hexisting : (Json.obj existing).isCanonical = true)
    (hold : SameKey key (.obj fields) (.obj existing))
    (hms : mergeObject keys path fields existing = .ok ms) :
    itemKey? key (.obj ms) = itemKey? key (.obj fields) :=
  Patch.itemKey?_merged hkey h.canonical (h.retainsAll fields rfl) hexisting hold hms

/-- The keys of a list after one step. -/
theorem itemKeys_itemStep (hkey : isDirectiveName key = false) (hitem : PlainItem key item)
    (hbase : Keyed key base) (h : ItemStep keys path key item base next) :
    itemKeys key next = keyStep key (itemKeys key base) item := by
  obtain ⟨k, hk⟩ := Option.isSome_iff_exists.mp hitem.named
  have habsent_keys : ∀ {others : List Json}, (∀ old ∈ others, ¬ SameKey key item old) →
      k ∉ itemKeys key others := by
    intro others hnone hmem
    obtain ⟨old, hold, heq⟩ := mem_itemKeys.mp hmem
    exact hnone old hold ((sameKey_iff hk).mpr heq)
  have hobject : item.isObject = true := by
    cases item with
    | obj => rfl
    | _ => cases hk
  rw [keyStep, hk]
  dsimp only
  cases h with
  | ignored hnew habsent =>
      rw [if_pos (hnew hobject), List.erase_of_not_mem (habsent_keys habsent)]
  | added hkeep hnew habsent =>
      have hnewKey := (itemKey?_strip hkey hitem.canonical).trans hk
      rw [if_pos hobject] at hnew
      rw [hkeep, if_neg Bool.false_ne_true, if_neg (habsent_keys habsent), itemKeys_append, hnew,
        itemKeys_cons hnewKey]
      rfl
  | removed hdelete hfirst hold =>
      rw [if_pos hdelete, itemKeys_append, itemKeys_append,
        itemKeys_cons ((sameKey_iff hk).mp hold),
        List.erase_append_right _ (habsent_keys hfirst), List.erase_cons_head]
  | @changed before after fields existing ms hfields hkeep hfirst hold hms =>
      have hmsKey : itemKey? key (.obj ms) = some k := by
        cases hfields
        exact (hitem.itemKey?_merged hkey (hbase.canonical _
          (List.mem_append_right _ List.mem_cons_self)) hold hms).trans hk
      have hitemKeep : isDeleteItem item = false := by
        rw [hfields]
        exact hkeep
      have hthere : k ∈ itemKeys key (before ++ .obj existing :: after) :=
        mem_itemKeys.mpr ⟨_, List.mem_append_right _ List.mem_cons_self, (sameKey_iff hk).mp hold⟩
      rw [hitemKeep, if_neg Bool.false_ne_true, if_pos hthere, itemKeys_append, itemKeys_append,
        itemKeys_cons hmsKey, itemKeys_cons ((sameKey_iff hk).mp hold)]

/-- A list whose items have distinct keys is one after every step. -/
theorem keyed_itemStep (hkey : isDirectiveName key = false) (hitem : PlainItem key item)
    (hbase : Keyed key base) (h : ItemStep keys path key item base next) : Keyed key next where
  canonical := isCanonical_itemStep hitem.canonical hbase.canonical
    (isCanonical_mergeValue item hitem.canonical) h
  named := by
    have hnamed := hbase.named
    cases h with
    | ignored => exact hnamed
    | added hkeep hnew habsent =>
        refine List.forall_mem_append.mpr ⟨hnamed, List.forall_mem_singleton.mpr ?_⟩
        rw [hnew]
        split
        · rw [itemKey?_strip hkey hitem.canonical]
          exact hitem.named
        · exact hitem.named
    | removed hdelete hfirst hold =>
        obtain ⟨hbefore, hafter⟩ := List.forall_mem_append.mp hnamed
        exact List.forall_mem_append.mpr ⟨hbefore, (List.forall_mem_cons.mp hafter).2⟩
    | changed hfields hkeep hfirst hold hms =>
        obtain ⟨hbefore, hafter⟩ := List.forall_mem_append.mp hnamed
        refine List.forall_mem_append.mpr ⟨hbefore, List.forall_mem_cons.mpr
          ⟨?_, (List.forall_mem_cons.mp hafter).2⟩⟩
        cases hfields
        rw [hitem.itemKey?_merged hkey (hbase.canonical _
          (List.mem_append_right _ List.mem_cons_self)) hold hms]
        exact hitem.named
  distinct := by
    rw [itemKeys_itemStep hkey hitem hbase h]
    exact nodup_keyStep hbase.distinct item

/-- The item with the key of a patch item is merged with it. -/
theorem mergeValue_itemStep (hkey : isDirectiveName key = false) (hitem : PlainItem key item)
    (hbase : Keyed key base) (h : ItemStep keys path key item base next) {k : ItemKey}
    (hk : itemKey? key item = some k) :
    mergeValue keys path item (withKey key k base).head? = .ok (withKey key k next).head? := by
  have hmerges := withKey_itemStep hkey hitem.canonical hbase.canonical h hk
  generalize withKey key k next = found at hmerges
  cases hmerges with
  | @merged r hvalue =>
      rw [hvalue, hbase.tail_withKey, List.append_nil]
      cases r <;> rfl
  | lost hv hretains =>
      rw [hitem.retainsAll _ hv] at hretains
      cases hretains

end

/-! ## A whole patch -/

/-- What the items of a patch made of a list. -/
structure Course (keys : MergeKeys) (path : List String) (key : String)
    (base patch merged : List Json) : Prop where
  keyed : Keyed key merged
  order : itemKeys key merged = patch.foldl (keyStep key) (itemKeys key base)
  untouched : ∀ p, (∀ item ∈ patch, keyIs key p item = false) →
    merged.filter (keyIs key p) = base.filter (keyIs key p)
  folded : ∀ k, mergeAll keys path (withKey key k base).head? (withKey key k patch) =
    .ok (withKey key k merged).head?

/-- No item, no change. -/
theorem Course.nil {base : List Json} (h : Keyed key base) : Course keys path key base [] base where
  keyed := h
  order := rfl
  untouched := fun _ _ => rfl
  folded := fun _ => rfl

/-- One more item of the patch, in front of the others. -/
theorem Course.cons (hkey : isDirectiveName key = false) {item : Json}
    {base next rest merged : List Json} (hitem : PlainItem key item) (hbase : Keyed key base)
    (hstep : ItemStep keys path key item base next) (h : Course keys path key next rest merged) :
    Course keys path key base (item :: rest) merged where
  keyed := h.keyed
  order := by
    rw [List.foldl_cons, ← itemKeys_itemStep hkey hitem hbase hstep]
    exact h.order
  untouched := by
    intro p hp
    obtain ⟨hfirst, hrest⟩ := List.forall_mem_cons.mp hp
    exact (h.untouched p hrest).trans
      (filter_itemStep hkey hitem.canonical hbase.canonical hstep hfirst)
  folded := by
    intro k
    by_cases hk : itemKey? key item = some k
    · rw [withKey_cons_self hk, mergeAll, List.foldlM_cons,
        mergeValue_itemStep hkey hitem hbase hstep hk]
      exact h.folded k
    · have hsame : withKey key k next = withKey key k base :=
        filter_itemStep hkey hitem.canonical hbase.canonical hstep
          (Bool.eq_false_iff.mpr (mt keyIs_iff.mp hk))
      rw [withKey_cons_other hk, ← hsame]
      exact h.folded k

/-- A list of plain items merged into a keyed one takes this course. -/
theorem course_of_mergeItems (hkey : isDirectiveName key = false) {patch base merged : List Json}
    (hpatch : ∀ item ∈ patch, PlainItem key item) (hbase : Keyed key base)
    (h : mergeItems keys path key patch base = .ok merged) :
    Course keys path key base patch merged := by
  induction patch generalizing base with
  | nil =>
      rw [mergeItems] at h
      cases h
      exact .nil hbase
  | cons item rest ih =>
      obtain ⟨hitem, hrest⟩ := List.forall_mem_cons.mp hpatch
      obtain ⟨next, hstep, hmore⟩ := mergeItems_cons h
      exact .cons hkey hitem hbase hstep
        (ih hrest (keyed_itemStep hkey hitem hbase hstep) hmore)

/-- A deletion leaves nothing to merge with, so only what comes after the last one counts. -/
theorem mergeAll_sinceDeletion {found r : Option Json} {items : List Json}
    (h : mergeAll keys path found items = .ok r) :
    mergeAll keys path (if items.any isDeleteItem then none else found)
      (items.rtakeWhile fun item => !isDeleteItem item) = .ok r := by
  induction items using List.reverseRecOn generalizing r with
  | nil => exact h
  | append_singleton items item ih =>
      rw [mergeAll, List.foldlM_append] at h
      obtain ⟨before, hbefore, hlast⟩ := bind_ok h
      rw [List.foldlM_cons] at hlast
      obtain ⟨after, hafter, hlast⟩ := bind_ok hlast
      cases hlast
      rw [List.any_append, List.any_cons, List.any_nil, Bool.or_false]
      cases hdelete : isDeleteItem item with
      | true =>
          rw [mergeValue_deleteItem hdelete] at hafter
          cases hafter
          rw [Bool.or_true, if_pos rfl, List.rtakeWhile_concat_neg _ _ _ (by simp [hdelete])]
          rfl
      | false =>
          rw [Bool.or_false, List.rtakeWhile_concat_pos _ _ _ (by simp [hdelete]), mergeAll,
            List.foldlM_append, ← mergeAll, ih hbefore]
          exact (bind_pure _).trans hafter

/-- What a patch makes of a list, told for each key on its own. -/
structure ExactMerge (keys : MergeKeys) (path : List String) (key : String)
    (base patch merged : List Json) : Prop where
  /-- The keys stay distinct. -/
  keyed : Keyed key merged
  /-- They are those of the base, with the patch's keys worked off in order. -/
  order : itemKeys key merged = patch.foldl (keyStep key) (itemKeys key base)
  /-- The items with keys that the patch does not name are those of the base, in their order. -/
  unnamed : merged.filter (keyIs key (· ∉ itemKeys key patch)) =
    base.filter (keyIs key (· ∉ itemKeys key patch))
  /-- An item with a key that the patch names is what the patch's items since the last deletion
      make of what they meet. -/
  named : ∀ item ∈ merged, ∀ k, itemKey? key item = some k →
    mergeAll keys path (meets key k base patch) (sinceDeletion key k patch) = .ok (some item)

/-- **Merging by key is exact.** -/
theorem mergeList_exact (hkey : isDirectiveName key = false) {base patch merged : List Json}
    (hbase : Keyed key base) (hpatch : ∀ item ∈ patch, PlainItem key item)
    (h : mergeList keys path key patch base = .ok merged) :
    ExactMerge keys path key base patch merged := by
  have hreplace : patch.any isReplaceItem = false :=
    List.any_eq_false.mpr fun item hitem => by rw [(hpatch item hitem).not_replace]; nofun
  rw [mergeList, hreplace, if_neg Bool.false_ne_true] at h
  have hcourse := course_of_mergeItems hkey hpatch hbase h
  refine ⟨hcourse.keyed, hcourse.order, hcourse.untouched _ ?_, ?_⟩
  · intro item hitem
    obtain ⟨k, hk⟩ := Option.isSome_iff_exists.mp (hpatch item hitem).named
    rw [keyIs, hk, Option.any_some, decide_eq_false_iff_not, not_not]
    exact mem_itemKeys.mpr ⟨item, hitem, hk⟩
  · intro item hitem k hk
    have hfolded := mergeAll_sinceDeletion (hcourse.folded k)
    rw [hcourse.keyed.head?_withKey hitem hk] at hfolded
    exact hfolded

/-- Containers of a pod. -/
def deployedContainers : List Json := [
  .obj [("image", .str "app:1"), ("name", .str "app")],
  .obj [("image", .str "proxy:1"), ("name", .str "proxy")],
  .obj [("image", .str "log:1"), ("name", .str "log")]]

/-- A patch that takes one of them out and names another one twice. -/
def changedContainers : List Json := [
  .obj [("image", .str "app:2"), ("name", .str "app")],
  .obj [("$patch", .str "delete"), ("name", .str "proxy")],
  .obj [("$patch", .str "merge"), ("name", .str "app"), ("tty", .bool true)]]

/-- The containers after the patch. -/
def mergedContainers : List Json := [
  .obj [("image", .str "app:2"), ("name", .str "app"), ("tty", .bool true)],
  .obj [("image", .str "log:1"), ("name", .str "log")]]

/-- The containers of a pod, merged by name. -/
theorem mergeList_exact_containers :
    mergeList (MergeKeys.podSpec "spec") ["spec", "containers"] "name"
        changedContainers deployedContainers = .ok mergedContainers ∧
      ExactMerge (MergeKeys.podSpec "spec") ["spec", "containers"] "name"
        deployedContainers changedContainers mergedContainers := by
  have hmerged : mergeList (MergeKeys.podSpec "spec") ["spec", "containers"] "name"
      changedContainers deployedContainers = .ok mergedContainers := by cbv
  have hbase : Keyed "name" deployedContainers :=
    ⟨by decide +kernel, by decide +kernel, by decide +kernel⟩
  have happ : PlainItem "name" (.obj [("image", .str "app:2"), ("name", .str "app")]) :=
    ⟨by decide +kernel, rfl, by rintro _ ⟨⟩; exact Or.inl rfl, by rintro _ ⟨⟩; rfl⟩
  have hproxy : PlainItem "name" (.obj [("$patch", .str "delete"), ("name", .str "proxy")]) :=
    ⟨by decide +kernel, rfl, by rintro _ ⟨⟩; exact Or.inr (Or.inr rfl), by rintro _ ⟨⟩; rfl⟩
  have htty : PlainItem "name"
      (.obj [("$patch", .str "merge"), ("name", .str "app"), ("tty", .bool true)]) :=
    ⟨by decide +kernel, rfl, by rintro _ ⟨⟩; exact Or.inr (Or.inl rfl), by rintro _ ⟨⟩; rfl⟩
  refine ⟨hmerged, mergeList_exact (by cbv) hbase ?_ hmerged⟩
  exact List.forall_mem_cons.mpr ⟨happ, List.forall_mem_cons.mpr ⟨hproxy,
    List.forall_mem_singleton.mpr htty⟩⟩

end Patch

end ModelOperator

import ModelOperator.Proofs.Patch.Frame
import ModelOperator.Proofs.Patch.Refusal

/-!
# Patches that are applied twice

    A strategic merge patch is applied again whenever the object that it belongs to is rendered
    again, and often to an object that it was applied to before.  The second time it goes other
    ways: it merges where it stored before, and finds the items that it appended.

    A value is settled by a patch if the patch makes nothing else of it.  What a patch makes of
    a value is settled by it (`mergeValue_settles`), whatever the value was and whether there was
    any, provided the patch has no directives and no key twice in a list that is merged by key
    (`KeyedApart`): the second item of a key would be merged into the first one. -/

namespace ModelOperator

namespace Patch

variable {keys : MergeKeys} {path : List String}

/-- Each list of a patch that is merged by key has objects with distinct keys, as far as a merge
    goes into the patch: not into the items of other lists. -/
inductive KeyedApart (keys : MergeKeys) : List String → Json → Prop
  /-- A value without parts has no lists. -/
  | leaf {path : List String} {v : Json} (hobject : v.isObject = false)
      (hlist : v.asItems? = none) : KeyedApart keys path v
  /-- It is so in the members of an object. -/
  | object {path : List String} {ms : Members}
      (h : ∀ m ∈ ms, KeyedApart keys (path ++ [m.1]) m.2) : KeyedApart keys path (.obj ms)
  /-- The items of a list have distinct keys, and it is so in each. -/
  | keyed {path : List String} {items : List Json} {key : String}
      (hkey : keys.keyFor? (".".intercalate path) = some key) (hitems : Keyed key items)
      (h : ∀ item ∈ items, KeyedApart keys path item) : KeyedApart keys path (.arr items)
  /-- A list that is not merged by key is stored as a whole. -/
  | unkeyed {path : List String} {items : List Json}
      (hkey : keys.keyFor? (".".intercalate path) = none) : KeyedApart keys path (.arr items)

/-- A patch settles all that it makes of values. -/
def Settles (keys : MergeKeys) (path : List String) (patch : Json) : Prop :=
  ∀ ⦃found r : Option Json⦄, (∀ w ∈ found, w.isCanonical = true) →
    mergeValue keys path patch found = .ok r → mergeValue keys path patch r = .ok r

/-! ## Objects -/

/-- Setting a member to what it is changes nothing. -/
theorem putMember_get? {ms : Members} (h : Members.increasing ms = true) (name : String) :
    putMember name (Members.get? name ms) ms = ms := by
  refine Members.ext_get? (increasing_putMember h name _) h ?_
  intro other
  rw [get?_putMember h]
  by_cases hname : name = other
  · rw [if_pos hname, hname]
  · rw [if_neg hname]

/-- An object is settled by a patch that settles each member that it names. -/
theorem mergeMembers_settled {patch ms : Members} (hms : Members.increasing ms = true)
    (h : ∀ m ∈ patch, mergeValue keys (path ++ [m.1]) m.2 (Members.get? m.1 ms) =
      .ok (Members.get? m.1 ms)) : mergeMembers keys path patch ms = .ok ms := by
  induction patch with
  | nil => rw [mergeMembers]
  | cons first rest ih =>
      obtain ⟨name, v⟩ := first
      obtain ⟨hfirst, hrest⟩ := List.forall_mem_cons.mp h
      rw [mergeMembers_cons]
      split
      · exact ih hrest
      · rw [hfirst]
        show mergeMembers keys path rest (putMember name (Members.get? name ms) ms) = .ok ms
        rw [putMember_get? hms]
        exact ih hrest

theorem Plain.mergeObject_eq {child : Members} (h : Plain (.obj child)) (existing : Members) :
    mergeObject keys path child existing = mergeMembers keys path child existing := by
  rw [mergeObject_merges (Or.inl h.undirected.directive?)]
  cases hmerged : mergeMembers keys path child existing with
  | error e => rfl
  | ok merged =>
      show retainKeys path child merged = .ok merged
      have hretains : Members.get? "$retainKeys" child = none :=
        Option.not_isSome_iff_eq_none.mp (ne_true_of_eq_false h.retains)
      rw [retainKeys, hretains]

theorem Plain.mergeValue_settled {child ms : Members} (h : Plain (.obj child))
    (hms : Members.increasing ms = true)
    (hmembers : ∀ m ∈ child, mergeValue keys (path ++ [m.1]) m.2 (Members.get? m.1 ms) =
      .ok (Members.get? m.1 ms)) :
    mergeValue keys path (.obj child) (some (.obj ms)) = .ok (some (.obj ms)) := by
  rw [mergeValue_object h.undirected.not_delete, h.mergeObject_eq,
    mergeMembers_settled hms hmembers]
  rfl

/-- What is stored of an object has under each name what the patch's value makes of nothing. -/
theorem Plain.get?_stored {child : Members} (h : Plain (.obj child)) {m : String × Json}
    (hm : m ∈ child) :
    mergeValue keys path m.2 none = .ok (Members.get? m.1 (stripMembers child)) := by
  have hinc := Json.increasing_of_isCanonical h.canonical
  have hget := Members.get?_of_mem hinc hm
  have hvalue := (h.member hget).2.undirected
  rw [mergeValue_none, hvalue.not_deleteOnly, Bool.or_false, get?_stripMembers hinc, hget,
    Option.filter_some]
  cases hnull : m.2.isNull with
  | true =>
      rw [if_pos rfl, if_neg]
      · rfl
      · rw [h.undirected.storedMember_iff hm, hnull]
        nofun
  | false =>
      rw [if_neg Bool.false_ne_true, if_pos ((h.undirected.storedMember_iff hm).mpr hnull)]
      rfl

/-! ## Lists -/

section

variable {key : String}

/-- The first item of a list that has the key of a patch item is settled by it. -/
def SettledItem (keys : MergeKeys) (path : List String) (key : String) (items : List Json)
    (item : Json) : Prop :=
  ∃ k w, itemKey? key item = some k ∧ (withKey key k items).head? = some w ∧
    mergeValue keys path item (some w) = .ok (some w)

/-- What has a key is an object. -/
theorem isObject_of_itemKey? {item : Json} {k : ItemKey} (h : itemKey? key item = some k) :
    ∃ fields, item = .obj fields := by
  cases item with
  | obj fields => exact ⟨fields, rfl⟩
  | _ => cases h

/-- An item changes nothing in a list that it is settled in. -/
theorem mergeItems_single_settled {item : Json} (hitem : Plain item) {items : List Json}
    (h : SettledItem keys path key items item) :
    mergeItems keys path key [item] items = .ok items := by
  obtain ⟨k, w, hk, hhead, hvalue⟩ := h
  obtain ⟨fields, rfl⟩ := isObject_of_itemKey? hk
  rw [withKey, List.head?_filter, List.find?_eq_some_iff_append] at hhead
  obtain ⟨hw, before, after, rfl, hbefore⟩ := hhead
  have hkeyOfW := keyIs_iff.mp hw
  obtain ⟨existing, rfl⟩ := isObject_of_itemKey? hkeyOfW
  have hfirst : ∀ other ∈ before, ¬ SameKey key (.obj fields) other := by
    intro other hother hsame
    have hnot := hbefore other hother
    rw [keyIs_iff.mpr ((sameKey_iff hk).mp hsame)] at hnot
    cases hnot
  rw [mergeItems_met hitem.undirected.not_delete hfirst ((sameKey_iff hk).mpr hkeyOfW)]
  rw [mergeValue_object hitem.undirected.not_delete] at hvalue
  obtain ⟨ms, hms, heq⟩ := map_ok hvalue
  cases heq
  rw [hms]
  rfl

/-- A list is settled by items that are settled in it. -/
theorem mergeItems_settled {patch items : List Json} (hpatch : ∀ item ∈ patch, Plain item)
    (h : ∀ item ∈ patch, SettledItem keys path key items item) :
    mergeItems keys path key patch items = .ok items := by
  induction patch with
  | nil => rw [mergeItems]
  | cons item rest ih =>
      obtain ⟨hitem, hrest⟩ := List.forall_mem_cons.mp hpatch
      obtain ⟨hsettled, hmore⟩ := List.forall_mem_cons.mp h
      rw [mergeItems_first, mergeItems_single_settled hitem hsettled]
      exact ih hrest hmore

/-- Items with other keys leave the items with a key alone. -/
theorem withKey_mergeItems (hkey : isDirectiveName key = false) {k : ItemKey}
    {patch base merged : List Json} (hpatch : ∀ item ∈ patch, item.isCanonical = true)
    (hbase : ∀ old ∈ base, old.isCanonical = true) (hother : k ∉ itemKeys key patch)
    (h : mergeItems keys path key patch base = .ok merged) :
    withKey key k merged = withKey key k base := by
  induction patch generalizing base with
  | nil =>
      rw [mergeItems] at h
      cases h
      rfl
  | cons item rest ih =>
      obtain ⟨hitem, hrest⟩ := List.forall_mem_cons.mp hpatch
      obtain ⟨next, hstep, hmore⟩ := mergeItems_cons h
      have hnext := isCanonical_itemStep hitem hbase (isCanonical_mergeValue item hitem) hstep
      have hotherRest : k ∉ itemKeys key rest := by
        intro hmem
        obtain ⟨other, hthere, hk⟩ := mem_itemKeys.mp hmem
        exact hother (mem_itemKeys.mpr ⟨other, List.mem_cons_of_mem _ hthere, hk⟩)
      have hotherItem : keyIs key (· == k) item = false := by
        refine Bool.eq_false_iff.mpr ?_
        intro hk
        exact hother (mem_itemKeys.mpr ⟨item, List.mem_cons_self, keyIs_iff.mp hk⟩)
      rw [ih hrest hnext hotherRest hmore]
      exact filter_itemStep hkey hitem hbase hstep hotherItem

/-- After its step an item is settled, if it settles what it makes of a value. -/
theorem settledItem_itemStep (hkey : isDirectiveName key = false) {item : Json}
    (hitem : Plain item) {k : ItemKey} (hk : itemKey? key item = some k)
    (hsettles : Settles keys path item) {base next : List Json}
    (hbase : ∀ old ∈ base, old.isCanonical = true)
    (h : ItemStep keys path key item base next) : SettledItem keys path key next item := by
  obtain ⟨fields, rfl⟩ := isObject_of_itemKey? hk
  have hmerges := withKey_itemStep hkey hitem.canonical hbase h hk
  have hfound : ∀ w ∈ (withKey key k base).head?, w.isCanonical = true := by
    intro w hw
    exact hbase w (List.mem_filter.mp (List.mem_of_mem_head? hw)).1
  generalize hnext : withKey key k next = later at hmerges
  cases hmerges with
  | @merged r hvalue =>
      have hagain := hsettles hfound hvalue
      cases r with
      | none =>
          rw [mergeValue_none, hitem.undirected.not_deleteOnly] at hagain
          cases hagain
      | some w => exact ⟨k, w, hk, by rw [hnext]; rfl, hagain⟩
  | lost hfields hretains =>
      cases hfields
      rw [hitem.retains] at hretains
      cases hretains

/-- **Items with distinct keys are settled in the list that they make.** -/
theorem settledItem_mergeItems (hkey : isDirectiveName key = false) {patch base merged : List Json}
    (hplain : ∀ item ∈ patch, Plain item)
    (hnamed : ∀ item ∈ patch, (itemKey? key item).isSome = true)
    (hdistinct : (itemKeys key patch).Nodup)
    (hsettles : ∀ item ∈ patch, Settles keys path item)
    (hbase : ∀ old ∈ base, old.isCanonical = true)
    (h : mergeItems keys path key patch base = .ok merged) :
    ∀ item ∈ patch, SettledItem keys path key merged item := by
  induction patch generalizing base with
  | nil => exact List.forall_mem_nil _
  | cons item rest ih =>
      obtain ⟨hitem, hrest⟩ := List.forall_mem_cons.mp hplain
      obtain ⟨hitemNamed, hrestNamed⟩ := List.forall_mem_cons.mp hnamed
      obtain ⟨hitemSettles, hrestSettles⟩ := List.forall_mem_cons.mp hsettles
      obtain ⟨k, hk⟩ := Option.isSome_iff_exists.mp hitemNamed
      rw [itemKeys_cons hk, List.nodup_cons] at hdistinct
      obtain ⟨hother, hrestDistinct⟩ := hdistinct
      obtain ⟨next, hstep, hmore⟩ := mergeItems_cons h
      have hnext := isCanonical_itemStep hitem.canonical hbase
        (isCanonical_mergeValue item hitem.canonical) hstep
      refine List.forall_mem_cons.mpr
        ⟨?_, ih hrest hrestNamed hrestDistinct hrestSettles hnext hmore⟩
      -- the items behind it have other keys and leave what it made alone
      obtain ⟨k', w, hk', hhead, hvalue⟩ :=
        settledItem_itemStep hkey hitem hk hitemSettles hbase hstep
      cases hk.symm.trans hk'
      refine ⟨k, w, hk, ?_, hvalue⟩
      rw [withKey_mergeItems hkey (fun item hitem => (hrest item hitem).canonical) hnext hother
        hmore]
      exact hhead

/-- An item whose key is not there is put at the end. -/
theorem mergeItems_single_new {item : Json} (hitem : Plain item) {k : ItemKey}
    (hk : itemKey? key item = some k) {base : List Json} (habsent : k ∉ itemKeys key base) :
    mergeItems keys path key [item] base = .ok (base ++ [strip item]) := by
  obtain ⟨fields, rfl⟩ := isObject_of_itemKey? hk
  obtain ⟨id, hid, -⟩ := Option.bind_eq_some_iff.mp hk
  have hplace : place? key id base = none := by
    refine List.findIdx?_eq_none_iff.mpr ?_
    intro old hold
    cases hfound : old.get? key with
    | none => rfl
    | some found =>
        refine Bool.eq_false_iff.mpr ?_
        intro hsame
        have hsameKey : SameKey key (.obj fields) old := ⟨id, found, hid, hfound, hsame⟩
        exact habsent (mem_itemKeys.mpr ⟨old, hold, (sameKey_iff hk).mp hsameKey⟩)
  rw [mergeItems, show Members.get? key fields = some id from hid]
  dsimp only
  rw [hplace]
  dsimp only
  rw [show isDelete fields = false from hitem.undirected.not_delete, if_neg Bool.false_ne_true,
    mergeItems]

/-- Items with distinct keys are stored as they are merged into an empty list. -/
theorem mergeItems_new (hkey : isDirectiveName key = false) {patch base : List Json}
    (hplain : ∀ item ∈ patch, Plain item)
    (hnamed : ∀ item ∈ patch, (itemKey? key item).isSome = true)
    (hdistinct : (itemKeys key base ++ itemKeys key patch).Nodup) :
    mergeItems keys path key patch base = .ok (base ++ stripItems patch) := by
  induction patch generalizing base with
  | nil => rw [mergeItems, stripItems, List.append_nil]
  | cons item rest ih =>
      obtain ⟨hitem, hrest⟩ := List.forall_mem_cons.mp hplain
      obtain ⟨hitemNamed, hrestNamed⟩ := List.forall_mem_cons.mp hnamed
      obtain ⟨k, hk⟩ := Option.isSome_iff_exists.mp hitemNamed
      have hstrip := (itemKey?_strip hkey hitem.canonical).trans hk
      have habsent : k ∉ itemKeys key base := by
        intro hmem
        refine (List.nodup_append.mp hdistinct).2.2 k hmem k ?_ rfl
        rw [itemKeys_cons hk]
        exact List.mem_cons_self
      have hstored : isStoredItem item = true := by
        rw [hitem.undirected.storedItem_iff]
        rintro rfl
        cases hk
      rw [mergeItems_first, mergeItems_single_new hitem hk habsent]
      show mergeItems keys path key rest (base ++ [strip item]) = _
      rw [ih hrest hrestNamed]
      · rw [stripItems_eq, stripItems_eq, List.filter_cons_of_pos hstored, List.map_cons,
          List.append_assoc, List.singleton_append]
      · rw [itemKeys_append, itemKeys_cons hstrip, List.append_assoc]
        rw [itemKeys_cons hk] at hdistinct
        exact hdistinct

end

/-! ## Values and documents -/

/-- **What a patch makes of a value is settled by it.** -/
theorem mergeValue_settles (hkeys : Regular keys) {v : Json} (hv : Plain v)
    (hapart : KeyedApart keys path v) : Settles keys path v := by
  induction v using Json.parts_induction generalizing path with
  | obj child ih =>
      have hmembers : ∀ m ∈ child, Settles keys (path ++ [m.1]) m.2 := by
        intro m hm
        have hget := Members.get?_of_mem (Json.increasing_of_isCanonical hv.canonical) hm
        cases hapart with
        | leaf hobject => cases hobject
        | object hparts => exact ih m hm (hv.member hget).2 (hparts m hm)
      intro found r hfound h
      have hr : ∀ w ∈ r, w.isCanonical = true := isCanonical_mergeValue _ hv.canonical hfound h
      cases mergeValue_ok h with
      | removed hremoved =>
          rw [hv.undirected.not_delete] at hremoved
          rcases hremoved with hremoved | hremoved <;> cases hremoved
      | @merged _ existing ms hkeep hms =>
          refine hv.mergeValue_settled (Json.increasing_of_isCanonical (hr _ rfl)) ?_
          intro m hm
          have hexisting := hfound _ rfl
          have hname := hv.get?_merged hexisting hms m.1
          rw [Members.get?_of_mem (Json.increasing_of_isCanonical hv.canonical) hm] at hname
          refine hmembers m hm ?_ hname
          intro w hw
          exact Json.isCanonical_of_get? hexisting hw
      | stored =>
          rw [strip] at hr ⊢
          refine hv.mergeValue_settled (Json.increasing_of_isCanonical (hr _ rfl)) ?_
          intro m hm
          exact hmembers m hm (by rintro _ ⟨⟩) (hv.get?_stored hm)
  | arr items ih =>
      intro found r hfound h
      cases hapart with
      | leaf _ hlist => cases hlist
      | @keyed _ _ key hkey hitems hparts =>
          have hplain : ∀ item ∈ items, Plain item := fun item hitem => hv.item hitem
          -- whether it is merged or stored, it is made of a list by its items
          have hlist : ∃ base merged, (∀ old ∈ base, old.isCanonical = true) ∧
              mergeItems keys path key items base = .ok merged ∧ r = some (.arr merged) := by
            cases mergeValue_ok h with
            | removed hremoved => rcases hremoved with hremoved | hremoved <;> cases hremoved
            | keyed hkey' hmerged =>
                cases hkey.symm.trans hkey'
                rw [hv.mergeList] at hmerged
                exact ⟨_, _, (Json.isCanonical_arr_iff _).mp (hfound _ rfl), hmerged, rfl⟩
            | untouched hdeletes =>
                rw [hv.undirected.not_deleteOnly] at hdeletes
                cases hdeletes
            | stored =>
                refine ⟨[], stripItems items, List.forall_mem_nil _, ?_, by rw [strip]⟩
                exact mergeItems_new (hkeys _ _ hkey) hplain hitems.named hitems.distinct
          obtain ⟨base, merged, hbase, hmerged, rfl⟩ := hlist
          have hsettled := settledItem_mergeItems (hkeys _ _ hkey) hplain hitems.named
            hitems.distinct
            (fun item hitem => ih item hitem (hplain item hitem) (hparts item hitem)) hbase hmerged
          rw [mergeValue_keyed hkey, hv.mergeList, mergeItems_settled hplain hsettled]
          rfl
      | unkeyed hkey =>
          have hnone : ∀ (found : Option Json) key existing,
              keys.keyFor? (".".intercalate path) = some key → found ≠ some (.arr existing) := by
            intro found key existing hkey'
            cases hkey.symm.trans hkey'
          rw [mergeValue_unkeyed (hnone found)] at h
          rw [mergeValue_unkeyed (hnone r)]
          have hadds : (!items.isEmpty && items.all isDeleteItem) = false :=
            hv.undirected.not_deleteOnly
          rw [hadds] at h ⊢
          exact h
  | _ =>
      intro found r _ h
      cases h
      rfl

/-- **A patch that is applied a second time changes nothing.**  Let a patch without directives,
    whose lists that are merged by key have objects with distinct keys, be applied to any document.
    It is applied to the outcome as well, which stays as it is. -/
theorem applyStrategic_idempotent {t : Target} (hkeys : t.tag?.bind MergeKeys.forTag? = some keys)
    {body doc out : Json} (hbody : body.isCanonical = true) (hdoc : doc.isCanonical = true)
    (hundirected : Undirected body) (hapart : KeyedApart keys [] body)
    (h : applyStrategic t body doc = .ok out) : applyStrategic t body out = .ok out := by
  obtain ⟨tag, -, htag⟩ := Option.bind_eq_some_iff.mp hkeys
  have hplain : Plain body := ⟨hbody, hundirected⟩
  have hmerged := mergeValue_of_applyStrategic hkeys h
  have hfound : ∀ w ∈ some doc, w.isCanonical = true := by
    rintro _ ⟨⟩
    exact hdoc
  have hsettled := mergeValue_settles (regular_of_forTag? htag) hplain hapart hfound hmerged
  rw [applyStrategic, hkeys] at h
  cases body with
  | obj patch =>
      cases doc with
      | obj base =>
          obtain ⟨ms, -, rfl⟩ := map_ok h
          rw [mergeValue_object hundirected.not_delete] at hsettled
          obtain ⟨again, hagain, heq⟩ := map_ok hsettled
          cases heq
          rw [applyStrategic, hkeys]
          dsimp only
          rw [hagain]
          rfl
      | _ => cases h
  | _ => cases h

/-- A container with a variable, as a patch gives it. -/
def containerPatch (name setting : String) : Json :=
  .obj [("env", .arr [.obj [("name", .str setting), ("value", .str "2")]]), ("name", .str name),
    ("tty", .null)]

/-- A patch of a container and one more, with a volume. -/
def workingPatch : Json :=
  .obj [("spec", .obj [
    ("containers", .arr [containerPatch "app" "A", containerPatch "log" "B"]),
    ("volumes", .arr [.obj [("emptyDir", .obj []), ("name", .str "scratch")]])])]

/-- The pod after it. -/
def workingPod : Json :=
  .obj [("apiVersion", .str "v1"), ("kind", .str "Pod"),
    ("metadata", .obj [("name", .str "gemma")]),
    ("spec", .obj [
      ("containers", .arr [
        .obj [("env", .arr [.obj [("name", .str "A"), ("value", .str "2")]]),
          ("image", .str "app:1"), ("name", .str "app")],
        proxyContainer,
        .obj [("env", .arr [.obj [("name", .str "B"), ("value", .str "2")]]),
          ("name", .str "log")]]),
      ("volumes", .arr [.obj [("emptyDir", .obj []), ("name", .str "scratch")]])])]

theorem applyStrategic_workingPatch :
    applyStrategic .pod workingPatch (podOf [appContainer "app:1", proxyContainer]) =
      .ok workingPod := by
  simp [applyStrategic, forTag?_pod, workingPatch, containerPatch, podOf, appContainer,
    proxyContainer, workingPod, mergeObject, directed, directive?, mergeMembers, mergeItems,
    place?, isDirectiveName,
    String.startsWith_string_iff, Members.get?, isDelete, Json.get?, strip, stripMembers,
    stripItems, isDirectiveOnly, isStripped, Json.isNull, isDeleteItem, isReplaceItem,
    keyFor?_containers]
  rfl

theorem keyedApart_containerPatch (name setting : String) :
    KeyedApart podKeys ["spec", "containers"] (containerPatch name setting) := by
  have henv : podKeys.keyFor? (".".intercalate ["spec", "containers", "env"]) = some "name" := by
    decide +kernel
  refine .object (List.forall_mem_cons.mpr ⟨.keyed henv ⟨?_, ?_, ?_⟩ ?_, ?_⟩)
  · refine List.forall_mem_singleton.mpr ((Json.isCanonical_obj_iff _).mpr ⟨?_, ?_⟩)
    · show (decide ("name" < "value") && Members.increasing [("value", Json.str "2")]) = true
      decide +kernel
    · simp [Json.isCanonical]
  · exact List.forall_mem_singleton.mpr rfl
  · exact List.nodup_singleton _
  · exact List.forall_mem_singleton.mpr (.object (List.forall_mem_cons.mpr
      ⟨.leaf rfl rfl, List.forall_mem_singleton.mpr (.leaf rfl rfl)⟩))
  · exact List.forall_mem_cons.mpr ⟨.leaf rfl rfl, List.forall_mem_singleton.mpr (.leaf rfl rfl)⟩

theorem keyedApart_workingPatch : KeyedApart podKeys [] workingPatch := by
  have hcontainers : podKeys.keyFor? (".".intercalate ["spec", "containers"]) = some "name" := by
    decide +kernel
  have hvolumes : podKeys.keyFor? (".".intercalate ["spec", "volumes"]) = some "name" := by
    decide +kernel
  refine .object (List.forall_mem_singleton.mpr (.object (List.forall_mem_cons.mpr
    ⟨.keyed hcontainers ⟨?_, ?_, ?_⟩ ?_, List.forall_mem_singleton.mpr
      (.keyed hvolumes ⟨?_, ?_, ?_⟩ ?_)⟩)))
  · decide +kernel
  · decide +kernel
  · decide +kernel
  · exact List.forall_mem_cons.mpr ⟨keyedApart_containerPatch "app" "A",
      List.forall_mem_singleton.mpr (keyedApart_containerPatch "log" "B")⟩
  · decide +kernel
  · decide +kernel
  · decide +kernel
  · exact List.forall_mem_singleton.mpr (.object (List.forall_mem_cons.mpr
      ⟨.object (List.forall_mem_nil _), List.forall_mem_singleton.mpr (.leaf rfl rfl)⟩))

/-- The second time, the container that was appended is found and the volumes are merged. -/
theorem applyStrategic_idempotent_pod :
    applyStrategic .pod workingPatch (podOf [appContainer "app:1", proxyContainer]) =
        .ok workingPod ∧
      applyStrategic .pod workingPatch workingPod = .ok workingPod :=
  ⟨applyStrategic_workingPatch,
    applyStrategic_idempotent forTag?_pod (by decide +kernel) (by decide +kernel)
      (by decide +kernel) keyedApart_workingPatch applyStrategic_workingPatch⟩

end Patch

end ModelOperator

import ModelOperator.Proofs.Patch.MergeValue

/-!
# What a strategic merge makes of a list

    A list that is merged by key is merged with the items of the patch, one after the other.

    * `ItemStep` is what one item makes of the list, and `mergeItems_cons` says that a merge
      is made of such steps;
    * `withKey_itemStep` says that the items with the item's key change as values do, and
      `filter_itemStep` that no others change;
    * everything stays in order (`isCanonical_mergeValue`). -/

namespace ModelOperator

namespace Patch

variable {keys : MergeKeys} {path : List String}

/-! ## Keys of items -/

/-- What names an item of a list that is merged by key: a text, a number or a truth value. -/
inductive ItemKey where
  | text (s : String)
  | whole (n : Int)
  | real (x : Binary64)
  | flag (b : Bool)
  deriving DecidableEq, Repr

/-- A double as a key: the two zeros are one. -/
def keyNumber (x : Binary64) : Binary64 := if x.isZero then .zero false else x

/-- The key that a value is. -/
def scalarKey? : Json → Option ItemKey
  | .str s => some (.text s)
  | .int n => some (.whole n)
  | .float x => some (.real (keyNumber x))
  | .bool b => some (.flag b)
  | _ => none

/-- The key of an item. -/
def itemKey? (key : String) (item : Json) : Option ItemKey := (item.get? key).bind scalarKey?

/-- Whether two items have the same under the merge key. -/
def SameKey (key : String) (item old : Json) : Prop :=
  ∃ id found, item.get? key = some id ∧ old.get? key = some found ∧ found.same id = true

/-- Numbers are the same key if they have the same representative. -/
theorem keyNumber_eq_iff (x y : Binary64) : x.same y = true ↔ keyNumber x = keyNumber y := by
  have hzero : (Binary64.zero false).isZero = true := rfl
  rw [Binary64.same, keyNumber, keyNumber]
  cases hx : x.isZero <;> cases hy : y.isZero
  · simp
  · simp only [Bool.and_true, Bool.false_or, beq_iff_eq, Bool.false_eq_true, if_false, if_true]
    refine iff_of_false ?_ ?_ <;> (rintro rfl; simp_all)
  · simp only [Bool.and_false, Bool.false_or, beq_iff_eq, Bool.false_eq_true, if_false, if_true]
    refine iff_of_false ?_ ?_ <;> (rintro rfl; simp_all)
  · simp

/-- Equal values are one key, or none. -/
theorem scalarKey?_of_same {v w : Json} (h : w.same v = true) : scalarKey? w = scalarKey? v := by
  cases w <;> cases v <;> rw [Json.same] at h <;>
    simp_all [scalarKey?, keyNumber_eq_iff]

/-- A key stands for one value, up to equality. -/
theorem same_iff {v w : Json} {k : ItemKey} (hk : scalarKey? v = some k) :
    w.same v = true ↔ scalarKey? w = some k := by
  cases v with
  | null | arr | obj => cases hk
  | _ =>
      cases hk
      cases w <;> simp [scalarKey?, Json.same, keyNumber_eq_iff]

/-- Items have the same key if the one has the key of the other. -/
theorem sameKey_iff {key : String} {item old : Json} {k : ItemKey}
    (hk : itemKey? key item = some k) : SameKey key item old ↔ itemKey? key old = some k := by
  obtain ⟨id, hid, hkey⟩ := Option.bind_eq_some_iff.mp hk
  constructor
  · rintro ⟨id', found, hid', hfound, hsame⟩
    cases hid.symm.trans hid'
    rw [itemKey?, hfound, Option.bind_some]
    exact (same_iff hkey).mp hsame
  · intro hold
    obtain ⟨found, hfound, hfoundKey⟩ := Option.bind_eq_some_iff.mp hold
    exact ⟨id, found, hid, hfound, (same_iff hkey).mpr hfoundKey⟩

/-- An item of the same key has that key. -/
theorem itemKey?_of_sameKey {key : String} {item old : Json} (h : SameKey key item old) :
    itemKey? key old = itemKey? key item := by
  obtain ⟨id, found, hid, hfound, hsame⟩ := h
  rw [itemKey?, itemKey?, hid, hfound]
  exact scalarKey?_of_same hsame

/-! ## What an item makes of a list -/

/-- What one item of a patch makes of a list that is merged by key. -/
inductive ItemStep (keys : MergeKeys) (path : List String) (key : String) (item : Json) :
    List Json → List Json → Prop
  /-- What is to be deleted is not there, or what is no object is there already. -/
  | ignored {base : List Json} (hnew : item.isObject = true → isDeleteItem item = true)
      (habsent : ∀ old ∈ base, ¬ SameKey key item old) : ItemStep keys path key item base base
  /-- What is not there is put at the end. -/
  | added {base : List Json} {new : Json} (hkeep : isDeleteItem item = false)
      (hnew : new = if item.isObject then strip item else item)
      (habsent : ∀ old ∈ base, ¬ SameKey key item old) :
      ItemStep keys path key item base (base ++ [new])
  /-- The first item with the same key is taken out. -/
  | removed {before after : List Json} {old : Json} (hdelete : isDeleteItem item = true)
      (hfirst : ∀ other ∈ before, ¬ SameKey key item other) (hold : SameKey key item old) :
      ItemStep keys path key item (before ++ old :: after) (before ++ after)
  /-- The first item with the same key is merged, at its place. -/
  | changed {before after : List Json} {fields existing ms : Members}
      (hitem : item = .obj fields) (hkeep : isDelete fields = false)
      (hfirst : ∀ other ∈ before, ¬ SameKey key item other)
      (hold : SameKey key item (.obj existing))
      (hms : mergeObject keys path fields existing = .ok ms) :
      ItemStep keys path key item (before ++ .obj existing :: after) (before ++ .obj ms :: after)

/-- Where no place is found, no item has the key. -/
theorem place?_eq_none {key : String} {id : Json} {items : List Json}
    (h : place? key id items = none) {item : Json} (hid : item.get? key = some id) :
    ∀ old ∈ items, ¬ SameKey key item old := by
  rintro old hold ⟨id', found, hid', hfound, hsame⟩
  cases hid.symm.trans hid'
  have hnot := List.findIdx?_eq_none_iff.mp h old hold
  rw [hfound] at hnot
  exact Bool.false_ne_true (hnot.symm.trans hsame)

/-- The place that is found is that of the first item with the key. -/
theorem place?_eq_some {key : String} {id : Json} {items : List Json} {i : Nat}
    (h : place? key id items = some i) {item : Json} (hid : item.get? key = some id) :
    ∃ before old after, items = before ++ old :: after ∧ before.length = i ∧
      (∀ other ∈ before, ¬ SameKey key item other) ∧ SameKey key item old := by
  obtain ⟨hlt, hthere, hbefore⟩ := List.findIdx?_eq_some_iff_getElem.mp h
  refine ⟨items.take i, items[i], items.drop (i + 1), ?_, List.length_take_of_le (Nat.le_of_lt hlt), ?_, ?_⟩
  · rw [← List.drop_eq_getElem_cons hlt, List.take_append_drop]
  · rintro other hother ⟨id', found, hid', hfound, hsame⟩
    cases hid.symm.trans hid'
    obtain ⟨j, hj, rfl⟩ := List.getElem_of_mem hother
    rw [List.getElem_take] at hfound
    have hnot := hbefore j (List.length_take_of_le (Nat.le_of_lt hlt) ▸ hj)
    rw [hfound] at hnot
    exact hnot hsame
  · cases hfound : items[i].get? key with
    | none =>
        rw [hfound] at hthere
        cases hthere
    | some found =>
        rw [hfound] at hthere
        exact ⟨id, found, hid, hfound, hthere⟩

/-- **A list merged by key is merged item by item.** -/
theorem mergeItems_cons {key : String} {item : Json} {rest base merged : List Json}
    (h : mergeItems keys path key (item :: rest) base = .ok merged) :
    ∃ next, ItemStep keys path key item base next ∧
      mergeItems keys path key rest next = .ok merged := by
  have hplain : item.isObject = false → ∀ old, ¬ SameKey key item old := by
    rintro hobject old ⟨id, -, hid, -⟩
    cases item with
    | obj => cases hobject
    | _ => cases hid
  have hscalar : item.isObject = false → item.isObject = true → isDeleteItem item = true :=
    fun hno hobject => absurd (hno.symm.trans hobject) Bool.false_ne_true
  cases item with
  | obj fields =>
      rw [mergeItems] at h
      cases hid : Members.get? key fields with
      | none =>
          rw [hid] at h
          cases h
      | some id =>
          rw [hid] at h
          dsimp only at h
          cases hplace : place? key id base with
          | none =>
              have habsent : ∀ old ∈ base, ¬ SameKey key (.obj fields) old :=
                place?_eq_none hplace hid
              rw [hplace] at h
              dsimp only at h
              cases hdelete : isDelete fields with
              | true =>
                  rw [hdelete, if_pos rfl] at h
                  exact ⟨base, .ignored (fun _ => hdelete) habsent, h⟩
              | false =>
                  rw [hdelete, if_neg Bool.false_ne_true] at h
                  exact ⟨_, .added hdelete rfl habsent, h⟩
          | some i =>
              obtain ⟨before, old, after, rfl, rfl, hfirst, hold⟩ :=
                place?_eq_some hplace (show (Json.obj fields).get? key = some id from hid)
              rw [hplace] at h
              dsimp only at h
              cases hdelete : isDelete fields with
              | true =>
                  rw [hdelete, if_pos rfl, List.eraseIdx_append_of_length_le (Nat.le_refl _)] at h
                  simp only [Nat.sub_self, List.eraseIdx_cons_zero] at h
                  exact ⟨_, .removed hdelete hfirst hold, h⟩
              | false =>
                  rw [hdelete, if_neg Bool.false_ne_true, List.getElem?_append_right (Nat.le_refl _)] at h
                  cases old with
                  | obj existing =>
                      simp only [Nat.sub_self, List.getElem?_cons_zero] at h
                      obtain ⟨ms, hms, hmore⟩ := bind_ok h
                      rw [List.set_append_right _ _ (Nat.le_refl _), Nat.sub_self, List.set_cons_zero] at hmore
                      exact ⟨_, .changed rfl hdelete hfirst hold hms, hmore⟩
                  | _ =>
                      obtain ⟨_, _, _, hfound, _⟩ := hold
                      cases hfound
  | _ =>
      rw [mergeItems] at h
      · split at h
        · exact ⟨base, .ignored (hscalar rfl) fun old _ => hplain rfl old, h⟩
        · exact ⟨_, .added rfl rfl fun old _ => hplain rfl old, h⟩
      · rintro _ ⟨⟩

/-! ## The items with one key -/

/-- Whether an item has a key of some kind. -/
def keyIs (key : String) (p : ItemKey → Bool) (item : Json) : Bool := (itemKey? key item).any p

/-- The items of a list that have a key. -/
def withKey (key : String) (k : ItemKey) (items : List Json) : List Json :=
  items.filter (keyIs key (· == k))

section

variable {key : String} {k : ItemKey}

/-- An item has a key if its test for it succeeds. -/
theorem keyIs_iff {item : Json} : keyIs key (· == k) item = true ↔ itemKey? key item = some k := by
  rw [keyIs, Option.any_eq_true]
  simp

/-- The items of a key in two lists are those of the first and those of the second. -/
theorem withKey_append (items others : List Json) :
    withKey key k (items ++ others) = withKey key k items ++ withKey key k others :=
  List.filter_append items others

/-- An item of the key is among the items of the key. -/
theorem withKey_cons_self {item : Json} (h : itemKey? key item = some k) (items : List Json) :
    withKey key k (item :: items) = item :: withKey key k items :=
  List.filter_cons_of_pos (keyIs_iff.mpr h)

/-- An item of another key is not. -/
theorem withKey_cons_other {item : Json} (h : itemKey? key item ≠ some k) (items : List Json) :
    withKey key k (item :: items) = withKey key k items :=
  List.filter_cons_of_neg (mt keyIs_iff.mp h)

/-- Where no item has the key, there are no items of the key. -/
theorem withKey_eq_nil {items : List Json} (h : ∀ item ∈ items, itemKey? key item ≠ some k) :
    withKey key k items = [] :=
  List.filter_eq_nil_iff.mpr fun item hitem => mt keyIs_iff.mp (h item hitem)

end

/-- What becomes of the values at a place when one value of a patch is merged into them. -/
inductive MergesFirst (keys : MergeKeys) (path : List String) (v : Json) (found : List Json) :
    List Json → Prop
  /-- It is merged into the first one. -/
  | merged {r : Option Json} (h : mergeValue keys path v found.head? = .ok r) :
      MergesFirst keys path v found (r.toList ++ found.tail)
  /-- The first one no longer counts, as it does not keep its key. -/
  | lost {fields : Members} (hv : v = .obj fields) (hretains : retains fields = true) :
      MergesFirst keys path v found found.tail

/-- Stripping leaves a scalar key. -/
theorem scalarKey?_strip (v : Json) : scalarKey? (strip v) = scalarKey? v := by
  cases v with
  | obj | arr => rw [strip]; rfl
  | _ => rfl

/-- What is stored of an item keeps the key. -/
theorem itemKey?_strip {key : String} (hkey : isDirectiveName key = false) {item : Json}
    (hitem : item.isCanonical = true) : itemKey? key (strip item) = itemKey? key item := by
  cases item with
  | obj fields =>
      rw [strip, itemKey?, itemKey?, Json.get?, Json.get?,
        get?_stripMembers (Json.increasing_of_isCanonical hitem) key]
      cases Members.get? key fields with
      | none => rfl
      | some v =>
          rw [Option.filter_some]
          split
          · exact scalarKey?_strip v
          · rename_i hdropped
            rw [isStoredMember, isStripped_eq_false hkey] at hdropped
            cases v with
            | null | arr | obj => rfl
            | _ => exact absurd rfl hdropped
  | arr items => rw [strip]; rfl
  | _ => rfl

/-- A value that meets its own key makes that key of it. -/
theorem scalarKey?_mergeValue {v : Json} {found r : Option Json}
    (h : mergeValue keys path v found = .ok r) (hfound : found.bind scalarKey? = scalarKey? v) :
    r.bind scalarKey? = scalarKey? v := by
  cases mergeValue_ok h with
  | removed hremoved =>
      cases v with
      | null | arr | obj => rfl
      | _ => rcases hremoved with h | h <;> cases h
  | merged hkeep hms => rfl
  | keyed hkey hmerged => rfl
  | untouched hdeletes hother => exact hfound
  | stored hnull hadds => exact scalarKey?_strip v

/-- A merged item keeps its key, unless the patch does not retain it. -/
theorem itemKey?_mergeObject {key : String} (hkey : isDirectiveName key = false)
    {fields existing ms : Members} (hfields : (Json.obj fields).isCanonical = true)
    (hexisting : Members.increasing existing = true)
    (hsame : SameKey key (.obj fields) (.obj existing))
    (h : mergeObject keys path fields existing = .ok ms) :
    itemKey? key (.obj ms) = itemKey? key (.obj fields) ∨
      retains fields = true ∧ itemKey? key (.obj ms) = none := by
  have hincreasing := Json.increasing_of_isCanonical hfields
  rcases mergeObject_ok h with ⟨-, rfl⟩ | ⟨-, merged, hmerged, hkept⟩
  · have hstrip := itemKey?_strip hkey hfields
    rw [strip] at hstrip
    exact Or.inl hstrip
  · obtain ⟨id, found, hid, hfound, heq⟩ := hsame
    have hvalue := get?_mergeMembers_given hincreasing hexisting hkey hid hmerged
    have hfoundKey : (Members.get? key existing).bind scalarKey? = scalarKey? id := by
      rw [show Members.get? key existing = some found from hfound]
      exact scalarKey?_of_same heq
    have hmergedKey : (Members.get? key merged).bind scalarKey? = itemKey? key (.obj fields) := by
      rw [scalarKey?_mergeValue hvalue hfoundKey, itemKey?, hid]
      rfl
    rcases get?_retainKeys (increasing_mergeMembers hexisting hmerged) hkept key with
      hsame | ⟨hretains, hnone⟩
    · refine Or.inl ?_
      rw [← hmergedKey, ← hsame]
      rfl
    · refine Or.inr ⟨hretains, ?_⟩
      rw [itemKey?, Json.get?, hnone]
      rfl

/-- A merged item keeps its key if the patch keeps all members. -/
theorem itemKey?_merged {key : String} (hkey : isDirectiveName key = false)
    {fields existing ms : Members} (hfields : (Json.obj fields).isCanonical = true)
    (hretains : retains fields = false) (hexisting : (Json.obj existing).isCanonical = true)
    (hsame : SameKey key (.obj fields) (.obj existing))
    (h : mergeObject keys path fields existing = .ok ms) :
    itemKey? key (.obj ms) = itemKey? key (.obj fields) := by
  rcases itemKey?_mergeObject hkey hfields (Json.increasing_of_isCanonical hexisting) hsame h with
    hkept | ⟨hlost, -⟩
  · exact hkept
  · cases hretains.symm.trans hlost

section

variable {key : String} {item : Json} {base next : List Json}

/-- **The items with the key of a patch item change as by its merge.** -/
theorem withKey_itemStep (hkey : isDirectiveName key = false) (hitem : item.isCanonical = true)
    (hbase : ∀ old ∈ base, old.isCanonical = true) (h : ItemStep keys path key item base next)
    {k : ItemKey} (hk : itemKey? key item = some k) :
    MergesFirst keys path item (withKey key k base) (withKey key k next) := by
  have hnone : ∀ {others : List Json}, (∀ old ∈ others, ¬ SameKey key item old) →
      withKey key k others = [] :=
    fun habsent => withKey_eq_nil fun old hold heq => habsent old hold ((sameKey_iff hk).mpr heq)
  obtain ⟨fields, rfl⟩ : ∃ fields, item = .obj fields := by
    cases item with
    | obj fields => exact ⟨fields, rfl⟩
    | _ => cases hk
  cases h with
  | ignored hnew habsent =>
      rw [hnone habsent]
      exact .merged (r := none) (mergeValue_delete (hnew rfl) none)
  | added hkeep hnew habsent =>
      have hadded : itemKey? key (strip (.obj fields)) = some k :=
        (itemKey?_strip hkey hitem).trans hk
      obtain rfl := hnew.trans (if_pos rfl)
      rw [withKey_append, hnone habsent, List.nil_append, withKey_cons_self hadded]
      exact .merged (r := some (strip (.obj fields))) (mergeValue_new_object hkeep nofun)
  | removed hdelete hfirst hold =>
      rw [withKey_append, withKey_append, hnone hfirst,
        withKey_cons_self ((sameKey_iff hk).mp hold)]
      exact .merged (mergeValue_delete hdelete _)
  | @changed before after fields' existing ms hfields hkeep hfirst hold hms =>
      cases hfields
      have hexisting : Members.increasing existing = true :=
        Json.increasing_of_isCanonical (hbase _ (List.mem_append_right _ List.mem_cons_self))
      rw [withKey_append, withKey_append, hnone hfirst,
        withKey_cons_self ((sameKey_iff hk).mp hold)]
      rcases itemKey?_mergeObject hkey hitem hexisting hold hms with hsame | ⟨hretains, hlost⟩
      · rw [withKey_cons_self (hsame.trans hk)]
        refine .merged (r := some (.obj ms)) ?_
        rw [List.nil_append, List.head?_cons, mergeValue_object hkeep, hms]
        rfl
      · rw [withKey_cons_other (by rw [hlost]; nofun)]
        exact .lost rfl hretains

/-- The items with other keys stay as they are, in their order. -/
theorem filter_itemStep (hkey : isDirectiveName key = false) (hitem : item.isCanonical = true)
    (hbase : ∀ old ∈ base, old.isCanonical = true) (h : ItemStep keys path key item base next)
    {p : ItemKey → Bool} (hp : keyIs key p item = false) :
    next.filter (keyIs key p) = base.filter (keyIs key p) := by
  have hdropped : ∀ {old : Json}, itemKey? key old = itemKey? key item →
      ¬ keyIs key p old = true := by
    intro old heq
    rw [keyIs, heq, ← keyIs, hp]
    exact Bool.false_ne_true
  cases h with
  | ignored hnew habsent => rfl
  | @added _ new hkeep hnew habsent =>
      have hnewKey : itemKey? key new = itemKey? key item := by
        rw [hnew]
        split
        · exact itemKey?_strip hkey hitem
        · rfl
      rw [List.filter_append, List.filter_cons_of_neg (hdropped hnewKey), List.filter_nil,
        List.append_nil]
  | removed hdelete hfirst hold =>
      rw [List.filter_append, List.filter_append,
        List.filter_cons_of_neg (hdropped (itemKey?_of_sameKey hold))]
  | @changed before after fields existing ms hfields hkeep hfirst hold hms =>
      cases hfields
      have hexisting : Members.increasing existing = true :=
        Json.increasing_of_isCanonical (hbase _ (List.mem_append_right _ List.mem_cons_self))
      have hms' : ¬ keyIs key p (.obj ms) = true := by
        rcases itemKey?_mergeObject hkey hitem hexisting hold hms with hsame | ⟨-, hlost⟩
        · exact hdropped hsame
        · rw [keyIs, hlost]
          exact Bool.false_ne_true
      rw [List.filter_append, List.filter_append, List.filter_cons_of_neg hms',
        List.filter_cons_of_neg (hdropped (itemKey?_of_sameKey hold))]

end

/-! ## Everything stays in order -/

mutual
/-- What is stored of a value that is in order is in order. -/
theorem isCanonical_strip : ∀ v : Json, v.isCanonical = true → (strip v).isCanonical = true
  | .obj ms, h => by
      obtain ⟨hinc, hvalues⟩ := (Json.isCanonical_obj_iff ms).mp h
      rw [strip, Json.isCanonical_obj_iff]
      refine ⟨?_, isCanonical_stripMembers ms hvalues⟩
      rw [stripMembers_eq]
      exact Members.increasing_map (Members.increasing_filter hinc _) fun _ => strip
  | .arr items, h => by
      rw [strip, Json.isCanonical_arr_iff]
      exact isCanonical_stripItems items ((Json.isCanonical_arr_iff items).mp h)
  | .null, h => h
  | .bool _, h => h
  | .int _, h => h
  | .float _, h => h
  | .str _, h => h

/-- Stripped values are in order, if the values were. -/
theorem isCanonical_stripMembers : ∀ ms : Members, (∀ m ∈ ms, m.2.isCanonical = true) →
    ∀ m ∈ stripMembers ms, m.2.isCanonical = true
  | [], _ => by rw [stripMembers]; exact nofun
  | (name, v) :: rest, h => by
      obtain ⟨hv, hrest⟩ := List.forall_mem_cons.mp h
      rw [stripMembers]
      split
      · exact isCanonical_stripMembers rest hrest
      · exact List.forall_mem_cons.mpr
          ⟨isCanonical_strip v hv, isCanonical_stripMembers rest hrest⟩

/-- Stripped items are in order, if the items were. -/
theorem isCanonical_stripItems : ∀ items : List Json, (∀ v ∈ items, v.isCanonical = true) →
    ∀ v ∈ stripItems items, v.isCanonical = true
  | [], _ => by rw [stripItems]; exact nofun
  | v :: rest, h => by
      obtain ⟨hv, hrest⟩ := List.forall_mem_cons.mp h
      rw [stripItems]
      split
      · exact isCanonical_stripItems rest hrest
      · exact List.forall_mem_cons.mpr ⟨isCanonical_strip v hv, isCanonical_stripItems rest hrest⟩
end

/-- Putting or taking a member leaves a document in order. -/
theorem isCanonical_putMember {ms : Members} (h : (Json.obj ms).isCanonical = true)
    (name : String) {value : Option Json} (hvalue : ∀ v ∈ value, v.isCanonical = true) :
    (Json.obj (putMember name value ms)).isCanonical = true := by
  obtain ⟨hinc, hvalues⟩ := (Json.isCanonical_obj_iff ms).mp h
  refine (Json.isCanonical_obj_iff _).mpr ⟨increasing_putMember hinc name value, ?_⟩
  intro m hm
  rcases mem_putMember hm with heq | hm
  · exact hvalue m.2 heq.symm
  · exact hvalues m hm

/-- Retaining some members leaves a document in order. -/
theorem isCanonical_retainKeys {patch merged ms : Members}
    (hmerged : (Json.obj merged).isCanonical = true)
    (h : retainKeys path patch merged = .ok ms) : (Json.obj ms).isCanonical = true := by
  rw [retainKeys] at h
  split at h
  · cases h
    exact hmerged
  · cases h
    obtain ⟨hinc, hvalues⟩ := (Json.isCanonical_obj_iff merged).mp hmerged
    exact (Json.isCanonical_obj_iff _).mpr ⟨Members.increasing_filter hinc _,
      fun m hm => hvalues m (List.mem_filter.mp hm).1⟩
  · cases h

/-- One item that is merged leaves the items in order. -/
theorem isCanonical_itemStep {key : String} {item : Json} {base next : List Json}
    (hitem : item.isCanonical = true) (hbase : ∀ old ∈ base, old.isCanonical = true)
    (hvalue : ∀ {found r : Option Json}, (∀ w ∈ found, w.isCanonical = true) →
      mergeValue keys path item found = .ok r → ∀ w ∈ r, w.isCanonical = true)
    (h : ItemStep keys path key item base next) : ∀ v ∈ next, v.isCanonical = true := by
  cases h with
  | ignored => exact hbase
  | added hkeep hnew habsent =>
      refine List.forall_mem_append.mpr ⟨hbase, List.forall_mem_singleton.mpr ?_⟩
      rw [hnew]
      split
      · exact isCanonical_strip item hitem
      · exact hitem
  | removed hdelete hfirst hold =>
      obtain ⟨hbefore, hafter⟩ := List.forall_mem_append.mp hbase
      exact List.forall_mem_append.mpr ⟨hbefore, (List.forall_mem_cons.mp hafter).2⟩
  | @changed before after fields existing ms hfields hkeep hfirst hold hms =>
      obtain ⟨hbefore, hafter⟩ := List.forall_mem_append.mp hbase
      obtain ⟨hexisting, hafter⟩ := List.forall_mem_cons.mp hafter
      have hmerge : mergeValue keys path item (some (.obj existing)) = .ok (some (.obj ms)) := by
        rw [hfields, mergeValue_object hkeep, hms]
        rfl
      have hms' : (Json.obj ms).isCanonical = true :=
        hvalue (by rintro _ ⟨⟩; exact hexisting) hmerge _ rfl
      exact List.forall_mem_append.mpr ⟨hbefore, List.forall_mem_cons.mpr ⟨hms', hafter⟩⟩

mutual
/-- What is in order makes something in order of what is. -/
theorem isCanonical_mergeValue : ∀ (v : Json), v.isCanonical = true →
    ∀ {path : List String} {found r : Option Json}, (∀ w ∈ found, w.isCanonical = true) →
      mergeValue keys path v found = .ok r → ∀ w ∈ r, w.isCanonical = true
  | .obj child, hv, path, found, r, hfound, h => by
      cases mergeValue_ok h with
      | removed => exact nofun
      | merged hkeep hms =>
          rintro _ ⟨⟩
          rcases mergeObject_ok hms with ⟨-, rfl⟩ | ⟨-, merged, hmerged, hkept⟩
          · have hstrip := isCanonical_strip (.obj child) hv
            rw [strip] at hstrip
            exact hstrip
          · exact isCanonical_retainKeys
              (isCanonical_mergeMembers child hv (hfound _ rfl) hmerged) hkept
      | stored =>
          rintro _ ⟨⟩
          exact isCanonical_strip (.obj child) hv
  | .arr items, hv, path, found, r, hfound, h => by
      have hitems := (Json.isCanonical_arr_iff items).mp hv
      cases mergeValue_ok h with
      | removed => exact nofun
      | keyed hkey hmerged =>
          rintro _ ⟨⟩
          rw [Json.isCanonical_arr_iff]
          rw [mergeList] at hmerged
          split at hmerged
          · cases hmerged
            rw [replacedItems_eq]
            intro w hw
            obtain ⟨item, hitem, rfl⟩ := List.mem_map.mp hw
            exact isCanonical_strip item (hitems item (List.mem_filter.mp hitem).1)
          · exact isCanonical_mergeItems items hitems
              ((Json.isCanonical_arr_iff _).mp (hfound _ rfl)) hmerged
      | untouched => exact hfound
      | stored =>
          rintro _ ⟨⟩
          exact isCanonical_strip (.arr items) hv
  | .null, hv, path, found, r, hfound, h => by cases h; exact nofun
  | .bool _, hv, path, found, r, hfound, h => by cases h; rintro _ ⟨⟩; rfl
  | .int _, hv, path, found, r, hfound, h => by cases h; rintro _ ⟨⟩; rfl
  | .float _, hv, path, found, r, hfound, h => by cases h; rintro _ ⟨⟩; rfl
  | .str _, hv, path, found, r, hfound, h => by cases h; rintro _ ⟨⟩; rfl

/-- Merging members leaves a document in order. -/
theorem isCanonical_mergeMembers : ∀ (patch : Members), (Json.obj patch).isCanonical = true →
    ∀ {path : List String} {base merged : Members}, (Json.obj base).isCanonical = true →
      mergeMembers keys path patch base = .ok merged → (Json.obj merged).isCanonical = true
  | [], _, path, base, merged, hbase, h => by
      rw [mergeMembers] at h
      cases h
      exact hbase
  | (name, v) :: rest, hpatch, path, base, merged, hbase, h => by
      obtain ⟨hv, hrest, -⟩ := Json.isCanonical_cons hpatch
      rw [mergeMembers_cons] at h
      split at h
      · exact isCanonical_mergeMembers rest hrest hbase h
      · obtain ⟨value, hvalue, hmore⟩ := bind_ok h
        refine isCanonical_mergeMembers rest hrest (isCanonical_putMember hbase name ?_) hmore
        exact isCanonical_mergeValue v hv
          (fun w hw => Json.isCanonical_of_get? hbase hw) hvalue

/-- Merging items leaves them in order. -/
theorem isCanonical_mergeItems : ∀ (items : List Json), (∀ v ∈ items, v.isCanonical = true) →
    ∀ {path : List String} {key : String} {base merged : List Json},
      (∀ v ∈ base, v.isCanonical = true) →
      mergeItems keys path key items base = .ok merged → ∀ v ∈ merged, v.isCanonical = true
  | [], _, path, key, base, merged, hbase, h => by
      rw [mergeItems] at h
      cases h
      exact hbase
  | item :: rest, hitems, path, key, base, merged, hbase, h => by
      obtain ⟨hitem, hrest⟩ := List.forall_mem_cons.mp hitems
      obtain ⟨next, hstep, hmore⟩ := mergeItems_cons h
      refine isCanonical_mergeItems rest hrest ?_ hmore
      exact isCanonical_itemStep hitem hbase (isCanonical_mergeValue item hitem) hstep
end

end Patch

end ModelOperator

import ModelOperator.Json.MergePatch
import ModelOperator.Json.Parser
import ModelOperator.Json.Record

/-!
# Members after a change

    Setting or merging members is seen through `Members.get?` alone, as long as the names
    of the members increase, and all operations keep them so.

    * `Members.get?_insert`, `Members.increasing_insert` are the laws of one change;
    * `Members.get?_ofPresent` reads an object that was written member by member;
    * `Json.get?_mergeMembers` and `Json.get?_mergeMembers_eq` say what a merge makes of each
      member, and `Json.get?_mergeMembers_twice` where two merges of one patch may differ;
    * `Json.isCanonical_of_parse` says that documents that are parsed are in order. -/

namespace ModelOperator

namespace Members

/-- Names increase from each member to the next, and so from each to all that follow. -/
theorem increasing_iff_pairwise (ms : Members) :
    increasing ms = true ↔ ms.Pairwise fun a b => a.1 < b.1 := by
  induction ms with
  | nil => simp [increasing]
  | cons first rest ih =>
      obtain ⟨k, v⟩ := first
      cases rest with
      | nil => simp [increasing]
      | cons second rest =>
          obtain ⟨l, w⟩ := second
          rw [increasing, Bool.and_eq_true, decide_eq_true_iff, ih]
          constructor
          · rintro ⟨hlt, hrest⟩
            refine List.pairwise_cons.mpr ⟨?_, hrest⟩
            intro m hm
            rcases List.mem_cons.mp hm with rfl | hm
            · exact hlt
            · exact String.lt_trans hlt ((List.pairwise_cons.mp hrest).1 m hm)
          · intro hall
            obtain ⟨hfirst, hrest⟩ := List.pairwise_cons.mp hall
            exact ⟨hfirst _ List.mem_cons_self, hrest⟩

/-- A name that no member has is not found. -/
theorem get?_eq_none {name : String} {ms : Members} (h : ∀ m ∈ ms, m.1 ≠ name) :
    get? name ms = none := by
  induction ms with
  | nil => rfl
  | cons first rest ih =>
      rw [get?]
      rw [if_neg (h first List.mem_cons_self)]
      exact ih fun m hm => h m (List.mem_cons_of_mem _ hm)

/-- What is found under a name is a member. -/
theorem mem_of_get? {name : String} {v : Json} {ms : Members} (h : get? name ms = some v) :
    (name, v) ∈ ms := by
  induction ms with
  | nil => cases h
  | cons first rest ih =>
      obtain ⟨k, w⟩ := first
      rw [get?] at h
      by_cases hk : k = name
      · rw [if_pos hk] at h
        cases h
        exact hk ▸ List.mem_cons_self
      · rw [if_neg hk] at h
        exact List.mem_cons_of_mem _ (ih h)

/-- With names that increase, a member is what stands under its name. -/
theorem get?_of_mem {ms : Members} (h : increasing ms = true) {m : String × Json} (hm : m ∈ ms) :
    get? m.1 ms = some m.2 := by
  rw [increasing_iff_pairwise] at h
  induction ms with
  | nil => cases hm
  | cons first rest ih =>
      obtain ⟨k, v⟩ := first
      obtain ⟨hfirst, hrest⟩ := List.pairwise_cons.mp h
      rcases List.mem_cons.mp hm with rfl | hm
      · rw [get?, if_pos rfl]
      · have hne : k ≠ m.1 := fun heq => String.lt_irrefl k (heq ▸ hfirst m hm)
        rw [get?, if_neg hne]
        exact ih hrest hm

/-- The first member of a name counts. -/
theorem get?_eq_head? (name : String) (ms : Members) :
    get? name ms = (ms.filter fun m => m.1 == name).head?.map Prod.snd := by
  induction ms with
  | nil => rfl
  | cons first rest ih =>
      obtain ⟨k, v⟩ := first
      rw [get?]
      by_cases hk : k = name
      · rw [if_pos hk, List.filter_cons_of_pos (by simp [hk])]
        rfl
      · rw [if_neg hk, List.filter_cons_of_neg (by simp [hk]), ih]

/-- A member whose values are changed one by one. -/
theorem get?_map (f : String → Json → Json) (name : String) (ms : Members) :
    get? name (ms.map fun m => (m.1, f m.1 m.2)) = (get? name ms).map (f name) := by
  induction ms with
  | nil => rfl
  | cons first rest ih =>
      obtain ⟨k, v⟩ := first
      rw [List.map_cons, get?, get?]
      by_cases hk : k = name
      · rw [if_pos hk, if_pos hk, hk, Option.map_some]
      · rw [if_neg hk, if_neg hk, ih]

/-- A member where only some are kept. -/
theorem get?_filter {ms : Members} (h : increasing ms = true) (p : String × Json → Bool)
    (name : String) : get? name (ms.filter p) = (get? name ms).filter fun v => p (name, v) := by
  rw [increasing_iff_pairwise] at h
  induction ms with
  | nil => rfl
  | cons first rest ih =>
      obtain ⟨k, v⟩ := first
      obtain ⟨hfirst, hrest⟩ := List.pairwise_cons.mp h
      rw [get?, List.filter_cons]
      by_cases hk : k = name
      · subst hk
        -- the names behind this one are greater, so a member that is left out leaves none
        have habsent : get? k (rest.filter p) = none := get?_eq_none fun m hm heq =>
          String.lt_irrefl k (heq ▸ hfirst m (List.mem_filter.mp hm).1)
        rw [if_pos rfl, Option.filter_some]
        cases hp : p (k, v) with
        | true => exact if_pos rfl
        | false => exact habsent
      · rw [if_neg hk, ← ih hrest]
        cases p (k, v) with
        | true => exact if_neg hk
        | false => rfl

/-- Changing values alone keeps the names in order. -/
theorem increasing_map {ms : Members} (h : increasing ms = true) (f : String → Json → Json) :
    increasing (ms.map fun m => (m.1, f m.1 m.2)) = true :=
  (increasing_iff_pairwise _).mpr
    (List.pairwise_map.mpr ((increasing_iff_pairwise ms).mp h))

/-- Members that are picked out stay in order. -/
theorem increasing_filter {ms : Members} (h : increasing ms = true) (p : String × Json → Bool) :
    increasing (ms.filter p) = true :=
  (increasing_iff_pairwise _).mpr (((increasing_iff_pairwise ms).mp h).filter p)

theorem get?_cons_self (name : String) (v : Json) (rest : Members) :
    get? name ((name, v) :: rest) = some v :=
  if_pos rfl

/-- A name before all others is not there. -/
theorem get?_of_lt {name : String} {ms : Members} (h : ∀ m ∈ ms, name < m.1) :
    get? name ms = none :=
  get?_eq_none fun m hm heq => String.lt_irrefl name (heq ▸ h m hm)

/-- Members in order are told by what stands under each name. -/
theorem ext_get? {ms others : Members} (hms : increasing ms = true)
    (hothers : increasing others = true) (h : ∀ name, get? name ms = get? name others) :
    ms = others := by
  rw [increasing_iff_pairwise] at hms hothers
  induction ms generalizing others with
  | nil =>
      cases others with
      | nil => rfl
      | cons first rest => cases (h first.1).trans (get?_cons_self first.1 first.2 rest)
  | cons first rest ih =>
      obtain ⟨k, v⟩ := first
      obtain ⟨hfirst, hrest⟩ := List.pairwise_cons.mp hms
      cases others with
      | nil => cases (h k).symm.trans (get?_cons_self k v rest)
      | cons second others =>
          obtain ⟨l, w⟩ := second
          obtain ⟨hsecond, hmore⟩ := List.pairwise_cons.mp hothers
          -- the lesser of two first names would stand in one object only
          have hkl : ¬ k < l := by
            intro hlt
            have habsent : get? k ((l, w) :: others) = none := get?_of_lt <|
              List.forall_mem_cons.mpr ⟨hlt, fun m hm => String.lt_trans hlt (hsecond m hm)⟩
            cases (get?_cons_self k v rest).symm.trans ((h k).trans habsent)
          have hlk : ¬ l < k := by
            intro hlt
            have habsent : get? l ((k, v) :: rest) = none := get?_of_lt <|
              List.forall_mem_cons.mpr ⟨hlt, fun m hm => String.lt_trans hlt (hfirst m hm)⟩
            cases (get?_cons_self l w others).symm.trans ((h l).symm.trans habsent)
          obtain rfl : k = l := String.le_antisymm hlk hkl
          cases (get?_cons_self k v rest).symm.trans ((h k).trans (get?_cons_self k w others))
          refine congrArg _ (ih hrest hmore fun name => ?_)
          by_cases hname : k = name
          · rw [← hname, get?_of_lt hfirst, get?_of_lt hsecond]
          · have hthere := h name
            rwa [get?, get?, if_neg hname, if_neg hname] at hthere

/-- After a member is set, it is found under its name, and every other name as before. -/
theorem get?_insert (name other : String) (v : Json) (ms : Members) :
    get? other (insert name v ms) = if name = other then some v else get? other ms := by
  induction ms with
  | nil => rfl
  | cons first rest ih =>
      obtain ⟨k, w⟩ := first
      rw [insert]
      -- the name is there, belongs in front of the first one, or goes further back
      by_cases hk : k = name
      · subst hk
        rw [if_pos rfl]
        by_cases hother : k = other <;> simp [get?, hother]
      · rw [if_neg hk]
        by_cases hlt : name < k
        · rw [if_pos hlt]
          rfl
        · rw [if_neg hlt]
          by_cases hother : k = other
          · have hname : name ≠ other := fun h => hk (hother.trans h.symm)
            simp [get?, hother, hname]
          · simp [get?, hother, ih]

/-- A name that is set stands among the others. -/
theorem mem_insert {name : String} {v : Json} {ms : Members} {m : String × Json}
    (h : m ∈ insert name v ms) : m = (name, v) ∨ m ∈ ms := by
  induction ms with
  | nil => exact Or.inl (List.mem_singleton.mp h)
  | cons first rest ih =>
      obtain ⟨k, w⟩ := first
      rw [insert] at h
      by_cases hk : k = name
      · rw [if_pos hk] at h
        rcases List.mem_cons.mp h with rfl | h
        · exact Or.inl rfl
        · exact Or.inr (List.mem_cons_of_mem _ h)
      · rw [if_neg hk] at h
        by_cases hlt : name < k
        · rw [if_pos hlt] at h
          rcases List.mem_cons.mp h with rfl | h
          · exact Or.inl rfl
          · exact Or.inr h
        · rw [if_neg hlt] at h
          rcases List.mem_cons.mp h with rfl | h
          · exact Or.inr List.mem_cons_self
          · rcases ih h with hself | hrest
            · exact Or.inl hself
            · exact Or.inr (List.mem_cons_of_mem _ hrest)

/-- Setting a member keeps the names in order. -/
theorem increasing_insert {ms : Members} (h : increasing ms = true) (name : String) (v : Json) :
    increasing (insert name v ms) = true := by
  rw [increasing_iff_pairwise] at h ⊢
  induction ms with
  | nil => exact List.pairwise_singleton _ _
  | cons first rest ih =>
      obtain ⟨k, w⟩ := first
      obtain ⟨hfirst, hrest⟩ := List.pairwise_cons.mp h
      rw [insert]
      by_cases hk : k = name
      · subst hk
        rw [if_pos rfl]
        exact List.pairwise_cons.mpr ⟨hfirst, hrest⟩
      · rw [if_neg hk]
        by_cases hlt : name < k
        · rw [if_pos hlt]
          refine List.pairwise_cons.mpr ⟨?_, h⟩
          intro m hm
          rcases List.mem_cons.mp hm with rfl | hm
          · exact hlt
          · exact String.lt_trans hlt (hfirst m hm)
        · rw [if_neg hlt]
          refine List.pairwise_cons.mpr ⟨?_, ih hrest⟩
          intro m hm
          rcases mem_insert hm with rfl | hm
          · -- neither smaller nor equal, so the new name is the greater one
            exact Decidable.byContradiction fun hge =>
              hk (String.le_antisymm (String.not_lt.mp hlt) (String.not_lt.mp hge))
          · exact hfirst m hm

/-- What is set twice is what it was set to last. -/
theorem insert_insert (name : String) (v w : Json) (ms : Members) :
    insert name v (insert name w ms) = insert name v ms := by
  induction ms with
  | nil => exact if_pos rfl
  | cons first rest ih =>
      obtain ⟨k, x⟩ := first
      by_cases hk : k = name
      · rw [insert, if_pos hk, insert, if_pos rfl, insert, if_pos hk]
      · by_cases hlt : name < k
        · rw [insert, if_neg hk, if_pos hlt, insert, if_pos rfl, insert, if_neg hk, if_pos hlt]
        · rw [insert, if_neg hk, if_neg hlt, insert, if_neg hk, if_neg hlt, ih, insert, if_neg hk,
            if_neg hlt]

/-- Setting a member to what it is changes nothing. -/
theorem insert_of_get? {name : String} {v : Json} {ms : Members} (h : increasing ms = true)
    (hget : get? name ms = some v) : insert name v ms = ms := by
  refine ext_get? (increasing_insert h name v) h ?_
  intro other
  rw [get?_insert]
  split
  · rename_i hname
    rw [← hname, hget]
  · rfl

/-- Taking a member out leaves the others in their places. -/
theorem erase_sublist (name : String) (ms : Members) : (erase name ms).Sublist ms := by
  induction ms with
  | nil => exact List.Sublist.refl _
  | cons first rest ih =>
      obtain ⟨k, w⟩ := first
      rw [erase]
      by_cases hk : k = name
      · rw [if_pos hk]
        exact List.sublist_cons_self _ _
      · rw [if_neg hk]
        exact ih.cons_cons _

/-- Taking a member out keeps the names in order. -/
theorem increasing_erase {ms : Members} (h : increasing ms = true) (name : String) :
    increasing (erase name ms) = true := by
  rw [increasing_iff_pairwise] at h ⊢
  exact h.sublist (erase_sublist name ms)

/-- Where names are in order, a member that is taken out is gone. -/
theorem get?_erase_self {ms : Members} (h : increasing ms = true) (name : String) :
    get? name (erase name ms) = none := by
  rw [increasing_iff_pairwise] at h
  induction ms with
  | nil => rfl
  | cons first rest ih =>
      obtain ⟨k, v⟩ := first
      obtain ⟨hfirst, hrest⟩ := List.pairwise_cons.mp h
      by_cases hk : k = name
      · -- the names after the one that is taken out are greater
        subst hk
        rw [erase, if_pos rfl]
        exact get?_eq_none fun m hm heq => String.lt_irrefl k (heq ▸ hfirst m hm)
      · rw [erase, if_neg hk, get?, if_neg hk]
        exact ih hrest

/-- Taking a member out leaves what other names have. -/
theorem get?_erase_of_ne {name other : String} (h : other ≠ name) (ms : Members) :
    get? other (erase name ms) = get? other ms := by
  induction ms with
  | nil => rfl
  | cons first rest ih =>
      obtain ⟨k, v⟩ := first
      by_cases hk : k = name
      · rw [erase, if_pos hk, get?, if_neg (by rintro rfl; exact h hk)]
      · rw [erase, if_neg hk, get?, get?, ih]

/-! ## Members that are written one after the other -/

/-- Members that are set one after the other are in order. -/
theorem increasing_ofList (entries : List (String × Json)) :
    increasing (ofList entries) = true := by
  have hfold : ∀ acc, increasing acc = true →
      increasing (entries.foldl (fun acc entry => insert entry.1 entry.2 acc) acc) = true := by
    induction entries with
    | nil => exact fun _ h => h
    | cons entry rest ih => exact fun acc h => ih _ (increasing_insert h entry.1 entry.2)
  exact hfold [] rfl

/-- Every member of the object that entries make is one of the entries. -/
theorem mem_ofList {entries : List (String × Json)} {m : String × Json}
    (h : m ∈ ofList entries) : m ∈ entries := by
  have hfold : ∀ acc, m ∈ entries.foldl (fun acc entry => insert entry.1 entry.2 acc) acc →
      m ∈ acc ∨ m ∈ entries := by
    clear h
    induction entries with
    | nil => exact fun _ h => Or.inl h
    | cons entry rest ih =>
        intro acc h
        rcases ih _ h with h | h
        · rcases mem_insert h with rfl | h
          · exact Or.inr List.mem_cons_self
          · exact Or.inl h
        · exact Or.inr (List.mem_cons_of_mem _ h)
  exact (hfold [] h).resolve_left List.not_mem_nil

/-- **Reading what is written.**  With no name twice, a member has the value that is
    present for it. -/
theorem get?_ofPresent {entries : List (String × Option Json)}
    (hnodup : (entries.map Prod.fst).Nodup) (name : String) :
    get? name (ofList (present entries)) = (entries.lookup name).join := by
  -- members are set one after the other, so the induction is over what was set before
  have hfold : ∀ acc, get? name
      ((present entries).foldl (fun acc entry => insert entry.1 entry.2 acc) acc) =
        (entries.lookup name).join.or (get? name acc) := by
    induction entries with
    | nil => exact fun acc => rfl
    | cons entry rest ih =>
        obtain ⟨k, v⟩ := entry
        obtain ⟨hfresh, hrest⟩ := List.nodup_cons.mp hnodup
        intro acc
        have habsent : k = name → rest.lookup name = none := by
          rintro rfl
          refine List.lookup_eq_none_iff.mpr ?_
          intro entry hentry
          exact bne_iff_ne.mpr fun heq => hfresh (List.mem_map.mpr ⟨entry, hentry, heq.symm⟩)
        cases v with
        | none =>
            refine (ih hrest acc).trans ?_
            by_cases hk : k = name
            · rw [habsent hk]
              subst hk
              simp
            · have hbeq : (name == k) = false := beq_false_of_ne (Ne.symm hk)
              simp [List.lookup_cons, hbeq]
        | some v =>
            refine (ih hrest (insert k v acc)).trans ?_
            rw [get?_insert]
            by_cases hk : k = name
            · rw [habsent hk]
              subst hk
              simp
            · have hbeq : (name == k) = false := beq_false_of_ne (Ne.symm hk)
              simp [List.lookup_cons, hbeq, hk]
  rw [show ofList (present entries) = (present entries).foldl
    (fun acc entry => insert entry.1 entry.2 acc) [] from rfl, hfold []]
  cases (entries.lookup name).join <;> rfl

end Members

/-! ## Merged members -/

namespace Json

/-- Whether a patch takes nothing out: none of its members is null. -/
def KeepsAll (patch : Members) : Prop := ∀ m ∈ patch, m.2.isNull = false

/-- A patch that is written from present entries takes nothing out, if none of them is null. -/
theorem keepsAll_ofPresent {entries : List (String × Option Json)}
    (h : ∀ entry ∈ entries, ∀ v, entry.2 = some v → v.isNull = false) :
    KeepsAll (Members.ofList (present entries)) := by
  intro m hm
  obtain ⟨entry, hentry, heq⟩ := List.mem_filterMap.mp (Members.mem_ofList hm)
  obtain ⟨v, hv, rfl⟩ := Option.map_eq_some_iff.mp heq
  exact h entry hentry v hv

/-- A merge keeps the names in order. -/
theorem increasing_mergeMembers (patch : Members) {target : Members}
    (h : Members.increasing target = true) :
    Members.increasing (mergeMembers patch target) = true := by
  induction patch generalizing target with
  | nil => exact h
  | cons first rest ih =>
      obtain ⟨k, v⟩ := first
      rw [mergeMembers]
      cases v.isNull with
      | true => exact ih (Members.increasing_erase h k)
      | false => exact ih (Members.increasing_insert h k _)

/-- **One member of a merge.**  Where the patch has a value that is not null, it is merged
    into what was there; where the patch has none, what was there stays. -/
theorem get?_mergeMembers {patch : Members} (hinc : Members.increasing patch = true)
    (hkeep : KeepsAll patch) (target : Members) (name : String) :
    Members.get? name (mergeMembers patch target) =
      match Members.get? name patch with
      | some v => some (mergePatch v ((Members.get? name target).getD .null))
      | none => Members.get? name target := by
  rw [Members.increasing_iff_pairwise] at hinc
  induction patch generalizing target with
  | nil => rfl
  | cons first rest ih =>
      obtain ⟨k, v⟩ := first
      obtain ⟨hfirst, hrest⟩ := List.pairwise_cons.mp hinc
      have hnull : v.isNull = false := hkeep _ List.mem_cons_self
      simp only [mergeMembers, hnull, Bool.false_eq_true, if_false]
      rw [ih hrest (fun m hm => hkeep m (List.mem_cons_of_mem _ hm)), Members.get?_insert]
      by_cases hk : k = name
      · -- the rest of the patch has greater names and does not touch this one again
        subst hk
        have habsent : Members.get? k rest = none := Members.get?_eq_none fun m hm heq =>
          String.lt_irrefl k (heq ▸ hfirst m hm)
        simp [habsent, Members.get?]
      · simp [Members.get?, hk]

/-- A merge leaves members alone that the patch does not name. -/
theorem get?_mergeMembers_absent {patch : Members} {name : String} (h : ∀ m ∈ patch, m.1 ≠ name)
    (target : Members) : Members.get? name (mergeMembers patch target) =
      Members.get? name target := by
  induction patch generalizing target with
  | nil => rfl
  | cons first rest ih =>
      obtain ⟨k, v⟩ := first
      have hk : k ≠ name := h _ List.mem_cons_self
      rw [mergeMembers, ih fun m hm => h m (List.mem_cons_of_mem _ hm)]
      cases v.isNull with
      | true => exact Members.get?_erase_of_ne hk.symm target
      | false => exact (Members.get?_insert k name _ target).trans (if_neg hk)

/-- A member that the patch gives is merged into something, also where the patch takes others
    out. -/
theorem get?_mergeMembers_given {patch : Members} (hinc : Members.increasing patch = true)
    {name : String} {v : Json} (hv : Members.get? name patch = some v) (hgiven : v.isNull = false)
    (target : Members) : ∃ old, Members.get? name (mergeMembers patch target) =
      some (mergePatch v old) := by
  rw [Members.increasing_iff_pairwise] at hinc
  induction patch generalizing target with
  | nil => cases hv
  | cons first rest ih =>
      obtain ⟨k, w⟩ := first
      obtain ⟨hfirst, hrest⟩ := List.pairwise_cons.mp hinc
      rw [Members.get?] at hv
      rw [mergeMembers]
      by_cases hk : k = name
      · subst hk
        rw [if_pos rfl] at hv
        cases hv
        -- the names behind this one are greater
        have habsent : ∀ m ∈ rest, m.1 ≠ k :=
          fun m hm heq => String.lt_irrefl k (heq ▸ hfirst m hm)
        refine ⟨(Members.get? k target).getD .null, ?_⟩
        rw [get?_mergeMembers_absent habsent, hgiven]
        exact (Members.get?_insert k k _ target).trans (if_pos rfl)
      · rw [if_neg hk] at hv
        exact ih hrest hv _

/-- **One member of any merge.**  A null takes out what was there; what the patch gives otherwise
    is merged into it; and where the patch gives nothing, it stays. -/
theorem get?_mergeMembers_eq {patch target : Members} (hpatch : Members.increasing patch = true)
    (htarget : Members.increasing target = true) (name : String) :
    Members.get? name (mergeMembers patch target) =
      match Members.get? name patch with
      | none => Members.get? name target
      | some v =>
        if v.isNull then none else some (mergePatch v ((Members.get? name target).getD .null)) := by
  rw [Members.increasing_iff_pairwise] at hpatch
  induction patch generalizing target with
  | nil => rfl
  | cons first rest ih =>
      obtain ⟨k, v⟩ := first
      obtain ⟨hfirst, hrest⟩ := List.pairwise_cons.mp hpatch
      rw [mergeMembers]
      by_cases hk : k = name
      · subst hk
        -- the names behind this one are greater
        have habsent : ∀ m ∈ rest, m.1 ≠ k :=
          fun m hm heq => String.lt_irrefl k (heq ▸ hfirst m hm)
        rw [get?_mergeMembers_absent habsent, Members.get?_cons_self]
        cases hnull : v.isNull with
        | true => simp [hnull, Members.get?_erase_self htarget]
        | false => simp [hnull, Members.get?_insert]
      · rw [Members.get?, if_neg hk]
        cases v.isNull with
        | true =>
            rw [if_pos rfl, ih hrest (Members.increasing_erase htarget k),
              Members.get?_erase_of_ne (Ne.symm hk)]
        | false =>
            rw [if_neg Bool.false_ne_true, ih hrest (Members.increasing_insert htarget k _),
              Members.get?_insert, if_neg hk]

/-- **Two merges of one patch.**  At each member they come to the same, unless the patch does not
    name it, where what was there before stays, or merges an object into what was there. -/
theorem get?_mergeMembers_twice {patch target other : Members}
    (hpatch : Members.increasing patch = true) (htarget : Members.increasing target = true)
    (hother : Members.increasing other = true) (name : String) :
    Members.get? name (mergeMembers patch other) = Members.get? name (mergeMembers patch target) ∨
      Members.get? name (mergeMembers patch other) = Members.get? name other ∨
      ∃ sub, Members.get? name patch = some (.obj sub) ∧
        Members.get? name (mergeMembers patch target) =
          some (mergePatch (.obj sub) ((Members.get? name target).getD .null)) ∧
        Members.get? name (mergeMembers patch other) =
          some (mergePatch (.obj sub) ((Members.get? name other).getD .null)) := by
  rw [get?_mergeMembers_eq hpatch htarget, get?_mergeMembers_eq hpatch hother]
  cases Members.get? name patch with
  | none => exact Or.inr (Or.inl rfl)
  | some v =>
      cases v with
      | obj sub => exact Or.inr (Or.inr ⟨sub, rfl, rfl, rfl⟩)
      | _ =>
          left
          simp only [mergePatch]

/-- What is not an object replaces whatever was there. -/
theorem mergePatch_of_not_obj {patch : Json} (h : patch.isObject = false) (target : Json) :
    mergePatch patch target = patch := by
  cases patch with
  | obj ms => cases h
  | _ => rw [mergePatch]; exact nofun

/-- An object is merged member by member, whatever the target is. -/
theorem mergePatch_obj (patch : Members) (target : Json) :
    ∃ members, mergePatch (.obj patch) target = .obj (mergeMembers patch members) := by
  cases target with
  | obj members => exact ⟨members, by rw [mergePatch]⟩
  | _ => exact ⟨[], by rw [mergePatch]; exact nofun⟩

/-- An object is merged into anything but an object as into an empty one. -/
theorem mergePatch_of_not_object (patch : Members) {target : Json}
    (h : target.isObject = false) :
    mergePatch (.obj patch) target = mergePatch (.obj patch) (.obj []) := by
  cases target with
  | obj members => cases h
  | _ => simp only [mergePatch]

/-! ## Documents in order -/

/-- All values are in order if each is. -/
theorem valuesCanonical_iff (ms : Members) :
    valuesCanonical ms = true ↔ ∀ m ∈ ms, m.2.isCanonical = true := by
  induction ms with
  | nil => simp [valuesCanonical]
  | cons first rest ih =>
      obtain ⟨k, v⟩ := first
      rw [valuesCanonical, Bool.and_eq_true, ih, List.forall_mem_cons]

/-- All items are in order if each is. -/
theorem areCanonical_iff (items : List Json) :
    areCanonical items = true ↔ ∀ v ∈ items, v.isCanonical = true := by
  induction items with
  | nil => simp [areCanonical]
  | cons v rest ih => rw [areCanonical, Bool.and_eq_true, ih, List.forall_mem_cons]

/-- A list is in order if its items are. -/
theorem isCanonical_arr_iff (items : List Json) :
    (Json.arr items).isCanonical = true ↔ ∀ v ∈ items, v.isCanonical = true := by
  rw [isCanonical, areCanonical_iff]

/-- An object is in order if its names increase and its values are in order. -/
theorem isCanonical_obj_iff (ms : Members) :
    (Json.obj ms).isCanonical = true ↔
      Members.increasing ms = true ∧ ∀ m ∈ ms, m.2.isCanonical = true := by
  rw [isCanonical, Bool.and_eq_true, valuesCanonical_iff]

/-- An object that is in order: its first member is in order, and so is the rest, with greater
    names. -/
theorem isCanonical_cons {k : String} {v : Json} {rest : Members}
    (h : (Json.obj ((k, v) :: rest)).isCanonical = true) :
    v.isCanonical = true ∧ (Json.obj rest).isCanonical = true ∧ ∀ m ∈ rest, k < m.1 := by
  obtain ⟨hinc, hvalues⟩ := (isCanonical_obj_iff _).mp h
  rw [Members.increasing_iff_pairwise] at hinc
  obtain ⟨hfirst, hrest⟩ := List.pairwise_cons.mp hinc
  obtain ⟨hv, hmore⟩ := List.forall_mem_cons.mp hvalues
  exact ⟨hv, (isCanonical_obj_iff _).mpr ⟨(Members.increasing_iff_pairwise _).mpr hrest, hmore⟩,
    hfirst⟩

/-- A member of an object that is in order is in order. -/
theorem isCanonical_of_get? {name : String} {v : Json} {ms : Members}
    (h : (Json.obj ms).isCanonical = true) (hget : Members.get? name ms = some v) :
    v.isCanonical = true :=
  ((isCanonical_obj_iff ms).mp h).2 _ (Members.mem_of_get? hget)

/-- An object that is in order stays so when a member is set to something in order. -/
theorem isCanonical_insert {ms : Members} (h : (Json.obj ms).isCanonical = true) (name : String)
    {v : Json} (hv : v.isCanonical = true) :
    (Json.obj (Members.insert name v ms)).isCanonical = true := by
  obtain ⟨hinc, hvalues⟩ := (isCanonical_obj_iff ms).mp h
  refine (isCanonical_obj_iff _).mpr ⟨Members.increasing_insert hinc name v, ?_⟩
  intro m hm
  rcases Members.mem_insert hm with rfl | hm
  · exact hv
  · exact hvalues m hm

/-- An object that is in order stays so when a member is taken out. -/
theorem isCanonical_erase {ms : Members} (h : (Json.obj ms).isCanonical = true) (name : String) :
    (Json.obj (Members.erase name ms)).isCanonical = true := by
  obtain ⟨hinc, hvalues⟩ := (isCanonical_obj_iff ms).mp h
  refine (isCanonical_obj_iff _).mpr ⟨Members.increasing_erase hinc name, ?_⟩
  intro m hm
  exact hvalues m ((Members.erase_sublist name ms).subset hm)

/-- The names of an object in order increase. -/
theorem increasing_of_isCanonical {ms : Members} (h : (Json.obj ms).isCanonical = true) :
    Members.increasing ms = true :=
  ((isCanonical_obj_iff ms).mp h).1

mutual
/-- Documents that are put in order are in order. -/
theorem isCanonical_canonical : ∀ v : Json, v.canonical.isCanonical = true
  | .arr items => by
      rw [canonical, isCanonical]
      exact areCanonical_canonicalItems items
  | .obj ms => by
      rw [canonical, isCanonical_obj_iff]
      refine ⟨Members.increasing_ofList _, ?_⟩
      intro m hm
      exact isCanonical_canonicalMembers ms m (Members.mem_ofList hm)
  | .null => rfl
  | .bool _ => rfl
  | .int _ => rfl
  | .float _ => rfl
  | .str _ => rfl

/-- Putting items in order leaves them in order. -/
theorem areCanonical_canonicalItems : ∀ items : List Json,
    areCanonical (canonicalItems items) = true
  | [] => rfl
  | v :: rest => by
      rw [canonicalItems, areCanonical, isCanonical_canonical v,
        areCanonical_canonicalItems rest]
      rfl

/-- Putting values in order leaves them in order. -/
theorem isCanonical_canonicalMembers : ∀ ms : Members,
    ∀ m ∈ canonicalMembers ms, m.2.isCanonical = true
  | [], m, hm => by
      rw [canonicalMembers] at hm
      cases hm
  | (k, v) :: rest, m, hm => by
      rw [canonicalMembers] at hm
      rcases List.mem_cons.mp hm with rfl | hm
      · exact isCanonical_canonical v
      · exact isCanonical_canonicalMembers rest m hm
end

/-- Every document that is parsed is in order. -/
theorem isCanonical_of_parse {text : String} {v : Json} (h : parse text = some v) :
    v.isCanonical = true := by
  obtain ⟨w, -, rfl⟩ := Option.map_eq_some_iff.mp h
  exact isCanonical_canonical w

end Json

end ModelOperator

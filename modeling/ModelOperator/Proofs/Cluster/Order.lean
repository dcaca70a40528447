import ModelOperator.Proofs.Cluster.Amounts
import ModelOperator.Proofs.Json.Nodes

/-!
# Documents that stay in order

    In a document in order the names of every object increase.  A document goes a long way
    before it is stored: a patch is merged into it, its amounts become texts, and it is read and
    written by its shape.  Each step keeps it in order (`Json.isCanonical_mergePatch`,
    `Quantity.isCanonical_textsAt`, `Shape.isCanonical_normalize`).  The last one takes that the
    fields of every record stand in order themselves, which `Shape.sorted` checks. -/

namespace ModelOperator

namespace Json

/-- An object is merged into members in order if the target is in order, whatever it is. -/
theorem mergePatch_obj_of_isCanonical (patch : Members) {target : Json}
    (h : target.isCanonical = true) :
    ∃ members, (Json.obj members).isCanonical = true ∧
      mergePatch (.obj patch) target = .obj (mergeMembers patch members) := by
  cases target with
  | obj members => exact ⟨members, h, by rw [mergePatch]⟩
  | _ => exact ⟨[], rfl, (mergePatch_of_not_object patch rfl).trans (by rw [mergePatch])⟩

/-- What a patch is merged into under a name. -/
theorem isCanonical_getD {ms : Members} (h : (Json.obj ms).isCanonical = true) (name : String) :
    ((Members.get? name ms).getD .null).isCanonical = true := by
  cases hget : Members.get? name ms with
  | none => rfl
  | some v => exact isCanonical_of_get? h hget

theorem isCanonical_mergePatch {patch target : Json} (hpatch : patch.isCanonical = true)
    (htarget : target.isCanonical = true) : (patch.mergePatch target).isCanonical = true := by
  induction patch using parts_induction generalizing target with
  | obj ms ih =>
      obtain ⟨members, hmembers, hmerged⟩ := mergePatch_obj_of_isCanonical ms htarget
      have hinc := increasing_mergeMembers ms (increasing_of_isCanonical hmembers)
      rw [hmerged, isCanonical_obj_iff]
      refine ⟨hinc, fun m hm => ?_⟩
      have hget := Members.get?_of_mem hinc hm
      rw [get?_mergeMembers_eq (increasing_of_isCanonical hpatch)
        (increasing_of_isCanonical hmembers)] at hget
      split at hget
      · exact isCanonical_of_get? hmembers hget
      · rename_i v hv
        split at hget
        · cases hget
        · rw [← Option.some_inj.mp hget]
          exact ih _ (Members.mem_of_get? hv) (isCanonical_of_get? hpatch hv)
            (isCanonical_getD hmembers m.1)
  | _ =>
      rw [mergePatch_of_not_obj rfl]
      exact hpatch

end Json

namespace Quantity

theorem isCanonical_textsAt {v : Json} (hv : v.isCanonical = true) (place : Place) :
    (textsAt place v).isCanonical = true := by
  induction v using Json.parts_induction generalizing place with
  | obj ms ih =>
      obtain ⟨hinc, hvalues⟩ := (Json.isCanonical_obj_iff ms).mp hv
      rw [textsAt_obj, Json.isCanonical_obj_iff]
      refine ⟨Members.increasing_map hinc (memberText place), fun m hm => ?_⟩
      obtain ⟨m', hm', rfl⟩ := List.mem_map.mp hm
      by_cases hnumber : place = .amounts → m'.2.numberText? = none
      · rw [memberText_other hnumber]
        exact ih m' hm' (hvalues m' hm') _
      · obtain ⟨rfl, hsome⟩ := Classical.not_imp.mp hnumber
        obtain ⟨digits, hdigits⟩ := Option.ne_none_iff_exists'.mp hsome
        rw [memberText_number hdigits]
        rfl
  | arr items ih =>
      rw [Json.isCanonical_arr_iff] at hv
      rw [textsAt_arr, Json.isCanonical_arr_iff]
      intro w hw
      obtain ⟨item, hitem, rfl⟩ := List.mem_map.mp hw
      exact ih item hitem (hv item hitem) .elsewhere
  | _ =>
      rw [settled_leaf place rfl fun _ => Json.noConfusion]
      rfl

end Quantity

namespace Shape

/-- The fields of a record that are in order have increasing names, and shapes in order. -/
theorem sortedFields_iff (fields : List (String × Bool × Shape)) :
    sortedFields fields = true ↔
      fields.Pairwise (fun a b => a.1 < b.1) ∧ ∀ field ∈ fields, field.2.2.sorted = true := by
  induction fields with
  | nil => simp [sortedFields]
  | cons field rest ih =>
      obtain ⟨name, required, s⟩ := field
      rw [sortedFields.eq_def, Bool.and_eq_true, Bool.and_eq_true, ih, List.forall_mem_cons]
      cases rest with
      | nil => simp
      | cons next more =>
          obtain ⟨other, otherRequired, otherShape⟩ := next
          dsimp only
          rw [decide_eq_true_iff]
          constructor
          · rintro ⟨⟨hs, hpairwise, hrest⟩, hlt⟩
            refine ⟨List.pairwise_cons.mpr ⟨?_, hpairwise⟩, hs, hrest⟩
            refine List.forall_mem_cons.mpr ⟨hlt, fun field hfield => ?_⟩
            exact String.lt_trans hlt ((List.pairwise_cons.mp hpairwise).1 field hfield)
          · rintro ⟨hpairwise, hs, hrest⟩
            obtain ⟨hfirst, hpairwise⟩ := List.pairwise_cons.mp hpairwise
            exact ⟨⟨hs, hpairwise, hrest⟩, hfirst _ List.mem_cons_self⟩

theorem increasing_normalizeFields {fields : List (String × Bool × Shape)} {ms out : Members}
    (hsorted : sortedFields fields = true) (h : normalizeFields fields ms = .ok out) :
    Members.increasing out = true := by
  have hnames : (fields.map (·.1)).Pairwise (· < ·) :=
    List.pairwise_map.mpr ((sortedFields_iff fields).mp hsorted).1
  rw [Members.increasing_iff_pairwise]
  exact List.pairwise_map.mp (hnames.sublist (names_normalizeFields h))

/-- A map is written with the names that were read. -/
theorem names_eachValue {read : Reader Json} {ms out : Members} (h : eachValue read ms = .ok out) :
    out.map Prod.fst = ms.map Prod.fst := by
  induction ms generalizing out with
  | nil =>
      cases h
      rfl
  | cons first rest ih =>
      obtain ⟨k, v⟩ := first
      rw [eachValue] at h
      split at h
      · cases h
      · split at h
        · cases h
        · rename_i more hmore
          cases h
          exact congrArg (k :: ·) (ih hmore)

theorem increasing_eachValue {read : Reader Json} {ms out : Members}
    (hms : Members.increasing ms = true) (h : eachValue read ms = .ok out) :
    Members.increasing out = true := by
  rw [Members.increasing_iff_pairwise] at hms ⊢
  rw [← List.pairwise_map (f := Prod.fst) (R := (· < ·))] at hms ⊢
  rw [names_eachValue h]
  exact hms

theorem isCanonical_plain {s : Shape} (hplain : s.isPlain = true) (v w : Json)
    (hv : v.isCanonical = true) (h : normalize s v = .ok w) : w.isCanonical = true := by
  cases normalize_plain hplain h
  exact hv

theorem isCanonical_time {f : Fraction} (v w : Json) (_ : v.isCanonical = true)
    (h : normalizeTime f v = .ok w) : w.isCanonical = true := by
  obtain ⟨text, rfl⟩ := normalizeTime_ok h
  rfl

mutual
/-- What a shape in order writes of a document in order is in order, and so is its default. -/
theorem canonical_written : ∀ s : Shape, s.sorted = true →
    (∀ v w, v.isCanonical = true → normalize s v = .ok w → w.isCanonical = true) ∧
      (default s).isCanonical = true
  | .any, _ => ⟨isCanonical_plain rfl, rfl⟩
  | .text, _ => ⟨isCanonical_plain rfl, rfl⟩
  | .boolean, _ => ⟨isCanonical_plain rfl, rfl⟩
  | .int32, _ => ⟨isCanonical_plain rfl, rfl⟩
  | .int64, _ => ⟨isCanonical_plain rfl, rfl⟩
  | .intOrText, _ => ⟨isCanonical_plain rfl, rfl⟩
  | .bytes, _ => ⟨isCanonical_plain rfl, rfl⟩
  | .constant _, _ => ⟨isCanonical_plain rfl, rfl⟩
  | .time, _ => ⟨isCanonical_time, rfl⟩
  | .microTime, _ => ⟨isCanonical_time, rfl⟩
  | .list item, h => by
      have hitem := (canonical_written item h).1
      refine ⟨fun v w hv hw => ?_, rfl⟩
      obtain ⟨vs, ws, rfl, rfl, hws⟩ := normalize_list_ok hw
      rw [Json.isCanonical_arr_iff] at hv ⊢
      intro w hw
      obtain ⟨v, hmem, hread⟩ := mem_of_eachItem hws hw
      exact hitem v w (hv v hmem) hread
  | .map value, h => by
      have hvalue := (canonical_written value h).1
      refine ⟨fun v w hv hw => ?_, rfl⟩
      obtain ⟨ms, out, rfl, rfl, hout⟩ := normalize_map_ok hw
      rw [Json.isCanonical_obj_iff] at hv ⊢
      refine ⟨increasing_eachValue hv.1 hout, fun m hm => ?_⟩
      obtain ⟨v, hmem, hread⟩ := mem_of_eachValue hout hm
      exact hvalue v m.2 (hv.2 _ hmem) hread
  | .record name fields, h => by
      have hfields := canonical_fields fields h
      refine ⟨fun v w hv hw => ?_, ?_⟩
      · obtain ⟨ms, out, rfl, rfl, hout⟩ := normalize_record_ok hw
        rw [Json.isCanonical_obj_iff] at hv ⊢
        exact ⟨increasing_normalizeFields h hout, hfields ms out hv.2 hout⟩
      · rw [default, Json.isCanonical_obj_iff]
        have hdefault := normalizeFields_nil fields
        exact ⟨increasing_normalizeFields h hdefault, hfields [] _ nofun hdefault⟩

/-- `canonical_written` for the fields of a record. -/
theorem canonical_fields : ∀ fields : List (String × Bool × Shape), sortedFields fields = true →
    ∀ ms out : Members, (∀ m ∈ ms, m.2.isCanonical = true) → normalizeFields fields ms = .ok out →
      ∀ m ∈ out, m.2.isCanonical = true
  | [], _, ms, out, _, h => by
      rw [normalizeFields] at h
      cases h
      exact nofun
  | (name, required, s) :: rest, hsorted, ms, out, hms, h => by
      rw [sortedFields.eq_def, Bool.and_eq_true, Bool.and_eq_true] at hsorted
      obtain ⟨hwritten, hdefault⟩ := canonical_written s hsorted.1.1
      have ih := canonical_fields rest hsorted.1.2 ms
      rw [normalizeFields_cons] at h
      split at h
      · obtain ⟨more, hmore, rfl⟩ := Reading.map_ok h
        cases required with
        | true => exact List.forall_mem_cons.mpr ⟨hdefault, ih more hms hmore⟩
        | false => exact ih more hms hmore
      · rename_i v hgiven
        split at h
        · cases h
        · rename_i w hw
          obtain ⟨more, hmore, rfl⟩ := Reading.map_ok h
          have hv := hms _ (Members.mem_of_get? (get?_of_given hgiven))
          exact List.forall_mem_cons.mpr ⟨hwritten v w hv hw, ih more hms hmore⟩
end

/-- A document in order is read and written in order. -/
theorem isCanonical_normalize {s : Shape} (hs : s.sorted = true) {v w : Json}
    (hv : v.isCanonical = true) (h : normalize s v = .ok w) : w.isCanonical = true :=
  (canonical_written s hs).1 v w hv h

end Shape

end ModelOperator

import ModelOperator.Cluster.Quantity
import ModelOperator.Proofs.Cluster.NormalForm

/-!
# Amounts in normal forms

    Before a typed document is read, the numbers among its amounts become texts.  A value
    is settled at a place if there is nothing left to do (`Quantity.Settled`).  What has
    been done once is settled (`Quantity.settled_textsAt`), and it stays so when the
    document is read and written by its shape (`Shape.settled_normalize`): writing adds
    defaults, but none of them is a number among amounts, as `Shape.sparesAmounts` checks. -/

namespace ModelOperator

namespace Quantity

/-- At this place no amount in the value is a number. -/
def Settled (place : Place) (v : Json) : Prop := textsAt place v = v

/-- What becomes of a member. -/
def memberText (place : Place) (name : String) (v : Json) : Json :=
  match place, v.numberText? with
  | .amounts, some digits => .str digits
  | _, _ => textsAt (place.member name) v

/-- Among amounts a number becomes its text. -/
theorem memberText_number {name digits : String} {v : Json} (h : v.numberText? = some digits) :
    memberText .amounts name v = .str digits := by
  unfold memberText
  rw [h]

theorem memberText_other {place : Place} {name : String} {v : Json}
    (h : place = .amounts → v.numberText? = none) :
    memberText place name v = textsAt (place.member name) v := by
  cases place with
  | amounts =>
      unfold memberText
      rw [h rfl]
  | elsewhere | resources => rfl

theorem textsAt_obj (place : Place) (ms : Members) :
    textsAt place (.obj ms) = .obj (ms.map fun m => (m.1, memberText place m.1 m.2)) := by
  rw [textsAt, Json.obj.injEq]
  induction ms with
  | nil => rw [textsOfMembers, List.map_nil]
  | cons m rest ih => exact congrArg ((m.1, memberText place m.1 m.2) :: ·) ih

theorem textsAt_arr (place : Place) (vs : List Json) :
    textsAt place (.arr vs) = .arr (vs.map (textsAt .elsewhere)) := by
  rw [textsAt, Json.arr.injEq]
  induction vs with
  | nil => rw [textsOfItems, List.map_nil]
  | cons v rest ih => rw [textsOfItems, ih, List.map_cons]

/-- A value without parts stays as it is; only its place among amounts could change it. -/
theorem settled_leaf (place : Place) {v : Json} (hobject : v.isObject = false)
    (hlist : ∀ vs, v ≠ .arr vs) : Settled place v := by
  cases v with
  | obj => cases hobject
  | arr vs => exact absurd rfl (hlist vs)
  | _ => rw [Settled, textsAt] <;> rintro _ ⟨⟩

theorem settled_str (place : Place) (text : String) : Settled place (.str text) :=
  settled_leaf place rfl fun _ => Json.noConfusion

/-- A member that is a number stays one only outside of amounts. -/
def MemberSettled (place : Place) (name : String) (v : Json) : Prop :=
  (place = .amounts → v.numberText? = none) ∧ Settled (place.member name) v

theorem memberText_eq_iff (place : Place) (name : String) (v : Json) :
    memberText place name v = v ↔ MemberSettled place name v := by
  by_cases h : place = .amounts → v.numberText? = none
  · rw [memberText_other h]
    exact (and_iff_right h).symm
  · obtain ⟨rfl, hnumber⟩ := Classical.not_imp.mp h
    obtain ⟨digits, hdigits⟩ := Option.ne_none_iff_exists'.mp hnumber
    rw [memberText_number hdigits]
    -- a number is not its own text
    refine iff_of_false ?_ fun hsettled => hnumber (hsettled.1 rfl)
    rintro rfl
    cases hdigits

theorem settled_obj_iff (place : Place) (ms : Members) :
    Settled place (.obj ms) ↔ ∀ m ∈ ms, MemberSettled place m.1 m.2 := by
  have hmap : ms.map (fun m => (m.1, memberText place m.1 m.2)) = ms.map id ↔
      ∀ m ∈ ms, (m.1, memberText place m.1 m.2) = m := List.map_inj_left
  rw [List.map_id] at hmap
  rw [Settled, textsAt_obj, Json.obj.injEq, hmap]
  refine forall₂_congr fun m _ => ?_
  rw [← memberText_eq_iff, Prod.ext_iff]
  exact and_iff_right rfl

theorem settled_arr_iff (place : Place) (vs : List Json) :
    Settled place (.arr vs) ↔ ∀ v ∈ vs, Settled .elsewhere v := by
  have hmap : vs.map (textsAt .elsewhere) = vs.map id ↔ ∀ v ∈ vs, textsAt .elsewhere v = v :=
    List.map_inj_left
  rw [List.map_id] at hmap
  rw [Settled, textsAt_arr, Json.arr.injEq, hmap]
  rfl

theorem numberText?_textsAt (place : Place) (v : Json) :
    (textsAt place v).numberText? = v.numberText? := by
  cases v with
  | obj | arr =>
      rw [textsAt]
      rfl
  | _ =>
      rw [textsAt]
      all_goals
        intro _ h
        cases h

/-- A member is settled once its value is, apart from the numbers among amounts, which
    become texts. -/
theorem memberSettled_memberText (place : Place) (name : String) {v : Json}
    (h : ∀ place, Settled place (textsAt place v)) :
    MemberSettled place name (memberText place name v) := by
  by_cases hnumber : place = .amounts → v.numberText? = none
  · rw [memberText_other hnumber]
    exact ⟨fun hplace => (numberText?_textsAt _ v).trans (hnumber hplace), h _⟩
  · obtain ⟨rfl, hsome⟩ := Classical.not_imp.mp hnumber
    obtain ⟨digits, hdigits⟩ := Option.ne_none_iff_exists'.mp hsome
    rw [memberText_number hdigits]
    exact ⟨fun _ => rfl, settled_str _ _⟩

mutual
/-- **Done once is done.** -/
theorem settled_textsAt : ∀ (v : Json) (place : Place), Settled place (textsAt place v)
  | .obj ms, place => by
      rw [textsAt_obj, settled_obj_iff]
      intro m hm
      obtain ⟨m', hm', rfl⟩ := List.mem_map.mp hm
      exact memberSettled_memberText place m'.1 (settled_members ms m' hm')
  | .arr vs, place => by
      rw [textsAt_arr, settled_arr_iff]
      intro v hv
      obtain ⟨v', hv', rfl⟩ := List.mem_map.mp hv
      exact settled_items vs v' hv'
  | .null, place => settled_leaf place rfl fun _ => Json.noConfusion
  | .bool _, place => settled_leaf place rfl fun _ => Json.noConfusion
  | .int _, place => settled_leaf place rfl fun _ => Json.noConfusion
  | .float _, place => settled_leaf place rfl fun _ => Json.noConfusion
  | .str text, place => settled_str place text

/-- `settled_textsAt` for the items of a list. -/
theorem settled_items : ∀ vs : List Json, ∀ v ∈ vs, Settled .elsewhere (textsAt .elsewhere v)
  | [] => by
      intro v hv
      cases hv
  | first :: rest => by
      intro v hv
      rcases List.mem_cons.mp hv with heq | hv
      · rw [heq]
        exact settled_textsAt first .elsewhere
      · exact settled_items rest v hv

/-- `settled_textsAt` for the members of an object. -/
theorem settled_members : ∀ ms : Members, ∀ m ∈ ms, ∀ place, Settled place (textsAt place m.2)
  | [] => by
      intro m hm
      cases hm
  | (_, first) :: rest => by
      intro m hm place
      rcases List.mem_cons.mp hm with heq | hm
      · rw [heq]
        exact settled_textsAt first place
      · exact settled_members rest m hm place
end

end Quantity

namespace Shape

open Quantity

mutual
/-- No shape with required fields stands among amounts, where a default could be a number. -/
def sparesAmounts : Place → Shape → Bool
  | _, .list item => sparesAmounts .elsewhere item
  | _, .map value => sparesAmounts .elsewhere value && sparesAmounts .resources value &&
      sparesAmounts .amounts value
  | place, .record _ fields => place != .amounts && fieldsSpareAmounts place fields
  | _, _ => true

/-- `sparesAmounts` for the fields of a record. -/
def fieldsSpareAmounts : Place → List (String × Bool × Shape) → Bool
  | _, [] => true
  | place, (name, _, s) :: rest => sparesAmounts (place.member name) s &&
      fieldsSpareAmounts place rest
end

theorem sparesAmounts_member {value : Shape} {place : Place}
    (h : sparesAmounts place (.map value) = true) (name : String) :
    sparesAmounts (place.member name) value = true := by
  rw [sparesAmounts, Bool.and_eq_true, Bool.and_eq_true] at h
  obtain ⟨⟨helsewhere, hresources⟩, hamounts⟩ := h
  rw [Place.member]
  split
  · exact hresources
  · split
    · exact hamounts
    · exact helsewhere

/-- No shape writes a number for anything but a number. -/
theorem numberText?_normalize {s : Shape} {v w : Json} (h : normalize s v = .ok w)
    (hnumber : v.numberText? = none) : w.numberText? = none := by
  cases hplain : s.isPlain with
  | true => rw [normalize_plain hplain h, hnumber]
  | false =>
      cases s with
      | time | microTime =>
          obtain ⟨text, rfl⟩ := normalizeTime_ok h
          rfl
      | list item =>
          obtain ⟨-, ws, -, rfl, -⟩ := normalize_list_ok h
          rfl
      | map value =>
          obtain ⟨-, out, -, rfl, -⟩ := normalize_map_ok h
          rfl
      | record name fields =>
          obtain ⟨-, out, -, rfl, -⟩ := normalize_record_ok h
          rfl
      | _ => cases hplain

theorem settled_plain {s : Shape} (hplain : s.isPlain = true) {place : Place} (v w : Json)
    (hv : Settled place v) (h : normalize s v = .ok w) : Settled place w := by
  cases normalize_plain hplain h
  exact hv

theorem settled_time {f : Fraction} {place : Place} (v w : Json) (_ : Settled place v)
    (h : normalizeTime f v = .ok w) : Settled place w := by
  obtain ⟨text, rfl⟩ := normalizeTime_ok h
  exact settled_str place text

mutual
/-- **Settled documents stay settled.**  A document without numbers among its amounts has
    none after it was read and written by its shape, and neither has the default. -/
theorem settled_written : ∀ (s : Shape) (place : Place), sparesAmounts place s = true →
    (∀ v w, Settled place v → normalize s v = .ok w → Settled place w) ∧
      Settled place (default s)
  | .any, place, _ => ⟨settled_plain rfl, settled_leaf place rfl fun _ => Json.noConfusion⟩
  | .text, place, _ => ⟨settled_plain rfl, settled_str place _⟩
  | .boolean, place, _ => ⟨settled_plain rfl, settled_leaf place rfl fun _ => Json.noConfusion⟩
  | .int32, place, _ => ⟨settled_plain rfl, settled_leaf place rfl fun _ => Json.noConfusion⟩
  | .int64, place, _ => ⟨settled_plain rfl, settled_leaf place rfl fun _ => Json.noConfusion⟩
  | .intOrText, place, _ => ⟨settled_plain rfl, settled_leaf place rfl fun _ => Json.noConfusion⟩
  | .bytes, place, _ => ⟨settled_plain rfl, settled_str place _⟩
  | .constant _, place, _ => ⟨settled_plain rfl, settled_str place _⟩
  | .time, place, _ => ⟨settled_time, settled_str place _⟩
  | .microTime, place, _ => ⟨settled_time, settled_str place _⟩
  | .list item, place, h => by
      rw [sparesAmounts] at h
      have hitem := (settled_written item .elsewhere h).1
      refine ⟨?_, ?_⟩
      · intro v w hv hw
        obtain ⟨vs, ws, rfl, rfl, hws⟩ := normalize_list_ok hw
        rw [settled_arr_iff] at hv ⊢
        intro w hw
        obtain ⟨v, hmem, hread⟩ := mem_of_eachItem hws hw
        exact hitem v w (hv v hmem) hread
      · rw [default, settled_arr_iff]
        intro v hv
        cases hv
  | .map value, place, h => by
      have hvalue := fun name => (settled_written value _ (sparesAmounts_member h name)).1
      refine ⟨?_, ?_⟩
      · intro v w hv hw
        obtain ⟨ms, out, rfl, rfl, hout⟩ := normalize_map_ok hw
        rw [settled_obj_iff] at hv ⊢
        intro m hm
        obtain ⟨v, hmem, hread⟩ := mem_of_eachValue hout hm
        obtain ⟨hnumber, hsettled⟩ := hv _ hmem
        exact ⟨fun hplace => numberText?_normalize hread (hnumber hplace),
          hvalue m.1 v m.2 hsettled hread⟩
      · rw [default, settled_obj_iff]
        intro m hm
        cases hm
  | .record name fields, place, h => by
      rw [sparesAmounts, Bool.and_eq_true] at h
      have hplace : place ≠ .amounts := bne_iff_ne.mp h.1
      have hfields := settled_fields fields place h.2
      have hobj : ∀ ms : Members, Settled place (.obj ms) ↔
          ∀ m ∈ ms, Settled (place.member m.1) m.2 := by
        intro ms
        rw [settled_obj_iff]
        exact forall₂_congr fun m _ => and_iff_right fun heq => absurd heq hplace
      refine ⟨?_, ?_⟩
      · intro v w hv hw
        obtain ⟨ms, out, rfl, rfl, hout⟩ := normalize_record_ok hw
        rw [hobj] at hv ⊢
        exact hfields ms out hv hout
      · rw [default, hobj]
        refine hfields [] _ ?_ (normalizeFields_nil fields)
        intro m hm
        cases hm

/-- `settled_written` for the fields of a record. -/
theorem settled_fields : ∀ (fields : List (String × Bool × Shape)) (place : Place),
    fieldsSpareAmounts place fields = true → ∀ ms out : Members,
      (∀ m ∈ ms, Settled (place.member m.1) m.2) → normalizeFields fields ms = .ok out →
        ∀ m ∈ out, Settled (place.member m.1) m.2
  | [], place, _, ms, out, _, h => by
      rw [normalizeFields] at h
      cases h
      intro m hm
      cases hm
  | (name, required, s) :: rest, place, hspares, ms, out, hms, h => by
      rw [fieldsSpareAmounts, Bool.and_eq_true] at hspares
      obtain ⟨hwritten, hdefault⟩ := settled_written s (place.member name) hspares.1
      have ih := settled_fields rest place hspares.2 ms
      have hcons : ∀ w more, Settled (place.member name) w → normalizeFields rest ms = .ok more →
          ∀ m ∈ (name, w) :: more, Settled (place.member m.1) m.2 := by
        intro w more hw hmore m hm
        rcases List.mem_cons.mp hm with rfl | hm
        · exact hw
        · exact ih more hms hmore m hm
      rw [normalizeFields_cons] at h
      split at h
      · obtain ⟨more, hmore, rfl⟩ := Reading.map_ok h
        cases required with
        | true => exact hcons _ more hdefault hmore
        | false => exact ih more hms hmore
      · rename_i v hgiven
        split at h
        · cases h
        · rename_i w hw
          obtain ⟨more, hmore, rfl⟩ := Reading.map_ok h
          exact hcons w more (hwritten v w (hms _ (Members.mem_of_get? (get?_of_given hgiven))) hw)
            hmore
end

end Shape

end ModelOperator

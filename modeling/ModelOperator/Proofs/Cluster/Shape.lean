import ModelOperator.Proofs.Json.Record
import ModelOperator.Resource.Metadata

/-!
# What a shape writes

    A record of a shape is written field by field.  `Shape.get?_normalizeFields` says what
    stands under the name of a field: its own normal form where a value was given, and
    otherwise its default or nothing. -/

namespace ModelOperator

namespace Shape

/-- The value of a field that counts as given: a null leaves the field out, unless the
    field is a constant. -/
def given (s : Shape) (name : String) (ms : Members) : Option Json :=
  match Members.get? name ms with
  | some .null => if s.isConstant then some .null else none
  | other => other

theorem given_of_get? {s : Shape} {name : String} {ms : Members} {v : Json}
    (h : Members.get? name ms = some v) (hnull : v ≠ .null) : given s name ms = some v := by
  rw [given]
  rw [h]
  cases v with
  | null => exact absurd rfl hnull
  | _ => rfl

/-- What counts as given is what stands under the name. -/
theorem get?_of_given {s : Shape} {name : String} {ms : Members} {v : Json}
    (h : given s name ms = some v) : Members.get? name ms = some v := by
  rw [given] at h
  split at h
  · rename_i hget
    split at h
    · rw [hget, h]
    · cases h
  · exact h

theorem normalizeFields_cons (name : String) (required : Bool) (s : Shape)
    (rest : List (String × Bool × Shape)) (ms : Members) :
    normalizeFields ((name, required, s) :: rest) ms =
      match given s name ms with
      | none => (normalizeFields rest ms).map fun more =>
          if required then (name, default s) :: more else more
      | some v =>
        match normalize s v with
        | .error e => .error e
        | .ok w => (normalizeFields rest ms).map fun more => (name, w) :: more := by
  rw [normalizeFields]
  rfl

/-- The names that are written are names of fields, in the order of the fields. -/
theorem names_normalizeFields {fields : List (String × Bool × Shape)} {ms out : Members}
    (h : normalizeFields fields ms = .ok out) :
    (out.map Prod.fst).Sublist (fields.map (·.1)) := by
  induction fields generalizing out with
  | nil =>
      rw [normalizeFields] at h
      cases h
      exact .slnil
  | cons field rest ih =>
      obtain ⟨name, required, s⟩ := field
      rw [normalizeFields_cons] at h
      split at h
      · obtain ⟨more, hmore, rfl⟩ := Reading.map_ok h
        cases required with
        | true => exact (ih hmore).cons_cons name
        | false => exact (ih hmore).cons name
      · split at h
        · cases h
        · obtain ⟨more, hmore, rfl⟩ := Reading.map_ok h
          exact (ih hmore).cons_cons name

/-- Only fields are written. -/
theorem fst_mem_of_normalizeFields {fields : List (String × Bool × Shape)} {ms out : Members}
    (h : normalizeFields fields ms = .ok out) {m : String × Json} (hm : m ∈ out) :
    m.1 ∈ fields.map (·.1) :=
  (names_normalizeFields h).subset (List.mem_map_of_mem hm)

/-- **One field of a record.**  With no name twice, a field that is given stands there in
    normal form, and one that is not with its default if it is required. -/
theorem get?_normalizeFields {fields : List (String × Bool × Shape)} {ms out : Members}
    (hnodup : (fields.map (·.1)).Nodup) (h : normalizeFields fields ms = .ok out)
    {name : String} {required : Bool} {s : Shape} (hmem : (name, required, s) ∈ fields) :
    (given s name ms = none →
        Members.get? name out = if required then some (default s) else none) ∧
      ∀ v, given s name ms = some v →
        ∃ w, normalize s v = .ok w ∧ Members.get? name out = some w := by
  induction fields generalizing out with
  | nil => cases hmem
  | cons field rest ih =>
      obtain ⟨first, firstRequired, shape⟩ := field
      obtain ⟨hfresh, hrest⟩ := List.nodup_cons.mp hnodup
      rw [normalizeFields_cons] at h
      rcases List.mem_cons.mp hmem with heq | hmem
      · cases heq
        -- no later field has the same name, so nothing behind this one hides it
        have habsent : ∀ more, normalizeFields rest ms = .ok more → Members.get? name more = none :=
          fun more hmore => Members.get?_eq_none fun m hm heq =>
            hfresh (heq ▸ fst_mem_of_normalizeFields hmore hm)
        split at h
        · rename_i hgiven
          obtain ⟨more, hmore, rfl⟩ := Reading.map_ok h
          constructor
          · intro _
            cases required with
            | true => simp [Members.get?]
            | false => simp [habsent more hmore]
          · intro v hv
            cases hgiven.symm.trans hv
        · rename_i v hgiven
          split at h
          · cases h
          · rename_i w hw
            obtain ⟨more, hmore, rfl⟩ := Reading.map_ok h
            refine ⟨fun hnone => absurd (hgiven.symm.trans hnone) (Option.some_ne_none v), ?_⟩
            intro v' hv'
            cases hgiven.symm.trans hv'
            exact ⟨w, hw, by simp [Members.get?]⟩
      · -- another field may stand in front, but under another name
        have hne : first ≠ name := by
          rintro rfl
          exact hfresh (List.mem_map.mpr ⟨_, hmem, rfl⟩)
        split at h
        · obtain ⟨more, hmore, rfl⟩ := Reading.map_ok h
          have hother := ih hrest hmore hmem
          cases firstRequired with
          | true => simpa [Members.get?, hne] using hother
          | false => exact hother
        · split at h
          · cases h
          · obtain ⟨more, hmore, rfl⟩ := Reading.map_ok h
            have hother := ih hrest hmore hmem
            simpa [Members.get?, hne] using hother

/-- A record is read from an object, and written as one. -/
theorem normalize_record_ok {name : String} {fields : List (String × Bool × Shape)} {v w : Json}
    (h : normalize (.record name fields) v = .ok w) :
    ∃ ms out, v = .obj ms ∧ w = .obj out ∧ normalizeFields fields ms = .ok out := by
  cases v with
  | obj ms =>
      rw [normalize] at h
      obtain ⟨out, hout, rfl⟩ := Reading.map_ok h
      exact ⟨ms, out, rfl, rfl, hout⟩
  | _ =>
      rw [normalize] at h
      · cases h
      · intro ms heq
        cases heq

/-- A list is read from a list, and written as one. -/
theorem normalize_list_ok {item : Shape} {v w : Json} (h : normalize (.list item) v = .ok w) :
    ∃ vs ws, v = .arr vs ∧ w = .arr ws ∧ eachItem (normalize item) vs = .ok ws := by
  cases v with
  | arr vs =>
      rw [normalize] at h
      obtain ⟨ws, hws, rfl⟩ := Reading.map_ok h
      exact ⟨vs, ws, rfl, rfl, hws⟩
  | _ =>
      rw [normalize] at h
      · cases h
      · intro vs heq
        cases heq

/-- A map is read from an object, and written as one. -/
theorem normalize_map_ok {value : Shape} {v w : Json} (h : normalize (.map value) v = .ok w) :
    ∃ ms out, v = .obj ms ∧ w = .obj out ∧ eachValue (normalize value) ms = .ok out := by
  cases v with
  | obj ms =>
      rw [normalize] at h
      obtain ⟨out, hout, rfl⟩ := Reading.map_ok h
      exact ⟨ms, out, rfl, rfl, hout⟩
  | _ =>
      rw [normalize] at h
      · cases h
      · intro ms heq
        cases heq

/-- An item that is written comes from one that was read. -/
theorem mem_of_eachItem {read : Reader Json} {vs ws : List Json} (h : eachItem read vs = .ok ws)
    {w : Json} (hw : w ∈ ws) : ∃ v ∈ vs, read v = .ok w := by
  induction vs generalizing ws with
  | nil =>
      cases h
      cases hw
  | cons v rest ih =>
      rw [eachItem] at h
      split at h
      · cases h
      · rename_i first hfirst
        split at h
        · cases h
        · rename_i more hmore
          cases h
          rcases List.mem_cons.mp hw with rfl | hw
          · exact ⟨v, List.mem_cons_self, hfirst⟩
          · obtain ⟨v', hv', hread⟩ := ih hmore hw
            exact ⟨v', List.mem_cons_of_mem _ hv', hread⟩

/-- A member that is written comes from one of its name that was read. -/
theorem mem_of_eachValue {read : Reader Json} {ms out : Members} (h : eachValue read ms = .ok out)
    {m : String × Json} (hm : m ∈ out) : ∃ v, (m.1, v) ∈ ms ∧ read v = .ok m.2 := by
  induction ms generalizing out with
  | nil =>
      cases h
      cases hm
  | cons first rest ih =>
      obtain ⟨k, v⟩ := first
      rw [eachValue] at h
      split at h
      · cases h
      · rename_i w hw
        split at h
        · cases h
        · rename_i more hmore
          cases h
          rcases List.mem_cons.mp hm with rfl | hm
          · exact ⟨v, List.mem_cons_self, hw⟩
          · obtain ⟨v', hv', hread⟩ := ih hmore hm
            exact ⟨v', List.mem_cons_of_mem _ hv', hread⟩

/-- The fields of a record. -/
def fields : Shape → List (String × Bool × Shape)
  | .record _ fields => fields
  | _ => []

end Shape

namespace Metadata

/-- Metadata that were read are the normal form of an object. -/
theorem read_ok {v : Json} {m : Metadata} (h : read v = .ok m) :
    ∃ ms, v = .obj ms ∧ Shape.normalizeFields Shape.objectMeta.fields ms = .ok m.members := by
  obtain ⟨written, hwritten, h⟩ := Reading.bind_ok h
  obtain ⟨ms, out, rfl, rfl, hfields⟩ := Shape.normalize_record_ok hwritten
  obtain ⟨members, hmembers, h⟩ := Reading.bind_ok h
  cases hmembers
  cases h
  exact ⟨ms, rfl, hfields⟩

theorem nodup_objectMeta : (Shape.objectMeta.fields.map (·.1)).Nodup := by decide

/-- The generation that was read is a whole number of 64 bits. -/
theorem generation_of_read {v : Json} {m : Metadata} (h : read v = .ok m) :
    -9223372036854775808 ≤ m.generation ∧ m.generation ≤ 9223372036854775807 := by
  obtain ⟨ms, -, hfields⟩ := read_ok h
  have hmem : ("generation", false, Shape.int64) ∈ Shape.objectMeta.fields := by
    simp [Shape.fields, Shape.objectMeta, Shape.may]
  obtain ⟨hnone, hsome⟩ := Shape.get?_normalizeFields nodup_objectMeta hfields hmem
  rw [generation]
  cases hgiven : Shape.given .int64 "generation" ms with
  | none =>
      rw [hnone hgiven]
      decide
  | some v =>
      obtain ⟨w, hw, hget⟩ := hsome v hgiven
      rw [Shape.normalize] at hw
      obtain ⟨n, hn, rfl⟩ := Reading.map_ok hw
      rw [hget]
      exact (Reader.within_ok hn).2

end Metadata

end ModelOperator

import ModelOperator.Proofs.Cluster.Shape
import ModelOperator.Proofs.Time.InstantText

/-!
# Normal forms

    What a shape writes it reads as it is: a document that was read and written once does
    not change when it is read and written again (`Shape.normalize_normalize`).

    Two things could stand in the way.  A time loses a part of its fraction when it is
    written, but what is left has the same text.  And a record writes fields that were not
    given, with their defaults, but a default is itself what its shape writes.  That the
    fields of a record do not get in each other's way takes that their names differ, which
    `Shape.distinct` checks. -/

namespace ModelOperator

namespace Shape

mutual
/-- No record has two fields of one name. -/
def distinct : Shape → Bool
  | .list item => distinct item
  | .map value => distinct value
  | .record _ fields => distinctFields fields
  | _ => true

/-- `distinct` for the fields of a record. -/
def distinctFields : List (String × Bool × Shape) → Bool
  | [] => true
  | (name, _, s) :: rest => distinct s && rest.all (fun field => field.1 != name) &&
      distinctFields rest
end

/-- The fields of a distinct record have different names, and shapes that are distinct themselves.
    -/
theorem nodup_of_distinctFields {fields : List (String × Bool × Shape)}
    (h : distinctFields fields = true) :
    (fields.map (·.1)).Nodup ∧ ∀ field ∈ fields, field.2.2.distinct = true := by
  induction fields with
  | nil => exact ⟨List.nodup_nil, nofun⟩
  | cons field rest ih =>
      obtain ⟨name, required, s⟩ := field
      rw [distinctFields, Bool.and_eq_true, Bool.and_eq_true, List.all_eq_true] at h
      obtain ⟨⟨hs, hfresh⟩, hrest⟩ := h
      obtain ⟨hnodup, hdistinct⟩ := ih hrest
      refine ⟨List.nodup_cons.mpr ⟨fun hmem => ?_, hnodup⟩, List.forall_mem_cons.mpr ⟨hs, hdistinct⟩⟩
      obtain ⟨other, hother, heq⟩ := List.mem_map.mp hmem
      exact bne_iff_ne.mp (hfresh other hother) heq

/-- A reader that gives back what it has written. -/
def Stable (read : Reader Json) : Prop := ∀ v w, read v = .ok w → read w = .ok w

/-! ## Values without parts -/

/-- Whether a shape writes what it reads letter by letter. -/
def isPlain : Shape → Bool
  | .any | .text | .boolean | .int32 | .int64 | .intOrText | .bytes | .constant _ => true
  | _ => false

/-- A plain shape takes a value as it is. -/
theorem normalize_plain {s : Shape} (hplain : s.isPlain = true) {v w : Json}
    (h : normalize s v = .ok w) : w = v := by
  cases s with
  | any =>
      rw [normalize] at h
      exact (Except.ok.inj h).symm
  | text | boolean =>
      rw [normalize] at h
      obtain ⟨a, ha, rfl⟩ := Reading.map_ok h
      cases v with
      | str | bool => cases ha <;> rfl
      | _ => cases ha
  | int32 | int64 =>
      rw [normalize] at h
      obtain ⟨n, hn, rfl⟩ := Reading.map_ok h
      exact (Reader.within_ok hn).1.symm
  | intOrText =>
      rw [normalize] at h
      cases v with
      | int n =>
          rw [normalizeIntOrText] at h
          split at h
          · exact (Except.ok.inj h).symm
          · cases h
      | str text => exact (Except.ok.inj h).symm
      | _ => cases h
  | bytes =>
      rw [normalize] at h
      cases v with
      | str text =>
          rw [normalizeBytes] at h
          split at h
          · exact (Except.ok.inj h).symm
          · cases h
      | _ => cases h
  | constant expected =>
      rw [normalize] at h
      cases v with
      | str text =>
          rw [normalizeConstant] at h
          split at h
          · exact (Except.ok.inj h).symm
          · cases h
      | _ => cases h
  | time | microTime | list | map | record => cases hplain

/-- So what it gives, it gives again. -/
theorem stable_plain {s : Shape} (hplain : s.isPlain = true) : Stable (normalize s) := by
  intro v w h
  cases normalize_plain hplain h
  exact h

/-- The text of a time is written again as it is: what the text does not show of the time
    is lost when it is written first. -/
theorem normalizeTime_text {t : Instant} (h : t.Valid) (f : Fraction) :
    normalizeTime f (.str (t.text f)) = .ok (.str (t.text f)) := by
  rw [normalizeTime, Instant.read_text_kept h f]
  dsimp only
  rw [Instant.text_kept]

/-- A time that has been written is read and written as it stands. -/
theorem stable_time (f : Fraction) : Stable (normalizeTime f) := by
  intro v w h
  cases v with
  | str text =>
      rw [normalizeTime] at h
      cases ht : Instant.read text with
      | none =>
          rw [ht] at h
          cases h
      | some t =>
          rw [ht] at h
          cases h
          exact normalizeTime_text (Instant.valid_of_read ht) f
  | _ => cases h

/-- A time is written as a text. -/
theorem normalizeTime_ok {f : Fraction} {v w : Json} (h : normalizeTime f v = .ok w) :
    ∃ text, w = .str text := by
  cases v with
  | str text =>
      rw [normalizeTime] at h
      split at h
      · cases h
        exact ⟨_, rfl⟩
      · cases h
  | _ => cases h

theorem valid_epoch : epoch.Valid := ⟨by decide +kernel, by decide, by decide⟩

/-! ## Lists and maps -/

/-- Items that are stable one by one are stable as a list. -/
theorem eachItem_stable {read : Reader Json} (hread : Stable read) {vs ws : List Json}
    (h : eachItem read vs = .ok ws) : eachItem read ws = .ok ws := by
  induction vs generalizing ws with
  | nil =>
      cases h
      rfl
  | cons v rest ih =>
      rw [eachItem] at h
      split at h
      · cases h
      · rename_i w hw
        split at h
        · cases h
        · rename_i more hmore
          cases h
          rw [eachItem, hread v w hw]
          dsimp only
          rw [ih hmore]

/-- Values that are stable one by one are stable as a map. -/
theorem eachValue_stable {read : Reader Json} (hread : Stable read) {ms out : Members}
    (h : eachValue read ms = .ok out) : eachValue read out = .ok out := by
  induction ms generalizing out with
  | nil =>
      cases h
      rfl
  | cons m rest ih =>
      obtain ⟨k, v⟩ := m
      rw [eachValue] at h
      split at h
      · cases h
      · rename_i w hw
        split at h
        · cases h
        · rename_i more hmore
          cases h
          rw [eachValue, hread v w hw]
          dsimp only
          rw [ih hmore]

/-! ## Records -/

/-- The fields of a record are written by what stands under their names. -/
theorem normalizeFields_congr {fields : List (String × Bool × Shape)} {ms ms' : Members}
    (h : ∀ field ∈ fields, Members.get? field.1 ms = Members.get? field.1 ms') :
    normalizeFields fields ms = normalizeFields fields ms' := by
  induction fields with
  | nil => rw [normalizeFields, normalizeFields]
  | cons field rest ih =>
      obtain ⟨name, required, s⟩ := field
      have hgiven : given s name ms = given s name ms' := by
        rw [given, given, h _ List.mem_cons_self]
      rw [normalizeFields_cons, normalizeFields_cons, hgiven,
        ih fun field hfield => h field (List.mem_cons_of_mem _ hfield)]

/-- Without any member, the required fields are written with their defaults. -/
theorem normalizeFields_nil (fields : List (String × Bool × Shape)) :
    normalizeFields fields [] = .ok (defaultFields fields) := by
  induction fields with
  | nil => rw [normalizeFields, defaultFields]
  | cons field rest ih =>
      obtain ⟨name, required, s⟩ := field
      rw [normalizeFields_cons, ih]
      cases required with
      | true =>
          rw [defaultFields]
          rfl
      | false =>
          rw [defaultFields]
          rfl

/-- No shape writes a null for anything but a null. -/
theorem normalize_ne_null {s : Shape} {v w : Json} (h : normalize s v = .ok w)
    (hnull : v ≠ .null) : w ≠ .null := by
  rintro rfl
  cases hplain : s.isPlain with
  | true => exact hnull (normalize_plain hplain h).symm
  | false =>
      cases s with
      | time | microTime =>
          obtain ⟨text, htext⟩ := normalizeTime_ok h
          cases htext
      | list item =>
          obtain ⟨-, ws, -, hws, -⟩ := normalize_list_ok h
          cases hws
      | map value =>
          obtain ⟨-, out, -, hout, -⟩ := normalize_map_ok h
          cases hout
      | record name fields =>
          obtain ⟨-, out, -, hout, -⟩ := normalize_record_ok h
          cases hout
      | _ => cases hplain

/-- What counts as given is not null. -/
theorem given_ne_null {s : Shape} {name : String} {ms : Members} {v : Json}
    (h : given s name ms = some v) (hconstant : s.isConstant = false) : v ≠ .null := by
  rw [given] at h
  split at h
  · rw [hconstant] at h
    cases h
  · rename_i hnull
    rintro rfl
    exact hnull h

/-- A value that a shape has written counts as given, and is written again as it is. -/
theorem normalize_given {s : Shape} {name : String} {required : Bool} {ms : Members} {v w : Json}
    (hstable : Stable (normalize s)) (hgiven : given s name ms = some v)
    (h : normalize s v = .ok w) (rest : List (String × Bool × Shape)) (out : Members)
    (hget : Members.get? name out = some w) :
    normalizeFields ((name, required, s) :: rest) out =
      (normalizeFields rest out).map fun more => (name, w) :: more := by
  have hsome : given s name out = some w := by
    cases hconstant : s.isConstant with
    | false => exact given_of_get? hget (normalize_ne_null h (given_ne_null hgiven hconstant))
    | true =>
        rw [given, hget]
        cases w with
        | null => exact if_pos hconstant
        | _ => rfl
  rw [normalizeFields_cons, hsome]
  dsimp only
  rw [hstable v w h]

/-- A default is written again as it is, also where it is a null. -/
theorem normalize_defaulted {s : Shape} {name : String} (hdefault : normalize s (default s) =
    .ok (default s)) (rest : List (String × Bool × Shape)) (out : Members)
    (hget : Members.get? name out = some (default s)) :
    normalizeFields ((name, true, s) :: rest) out =
      (normalizeFields rest out).map fun more => (name, default s) :: more := by
  rw [normalizeFields_cons]
  by_cases hnull : default s = .null
  · -- only an arbitrary value has a null for its default
    have hnone : given s name out = none := by
      cases s with
      | any => rw [given, hget, hnull]; rfl
      | _ => cases hnull
    rw [hnone]
    rfl
  · rw [given_of_get? hget hnull]
    dsimp only
    rw [hdefault]

mutual
/-- **Normal forms stay.**  What a shape writes it reads and writes again as it is, and so
    it does with its default. -/
theorem normal_forms : ∀ s : Shape, s.distinct = true →
    Stable (normalize s) ∧ normalize s (default s) = .ok (default s)
  | .any, _ => ⟨stable_plain rfl, by rw [normalize]⟩
  | .text, _ => ⟨stable_plain rfl, rfl⟩
  | .boolean, _ => ⟨stable_plain rfl, rfl⟩
  | .int32, _ => ⟨stable_plain rfl, rfl⟩
  | .int64, _ => ⟨stable_plain rfl, rfl⟩
  | .intOrText, _ => ⟨stable_plain rfl, rfl⟩
  | .bytes, _ => ⟨stable_plain rfl, rfl⟩
  | .constant expected, _ => ⟨stable_plain rfl, by simp [normalize, default, normalizeConstant]⟩
  | .time, _ => ⟨stable_time .none, normalizeTime_text valid_epoch .none⟩
  | .microTime, _ => ⟨stable_time .micros, normalizeTime_text valid_epoch .micros⟩
  | .list item, h => by
      have hitem := (normal_forms item h).1
      refine ⟨?_, rfl⟩
      intro v w hw
      obtain ⟨vs, ws, rfl, rfl, hws⟩ := normalize_list_ok hw
      rw [normalize, eachItem_stable hitem hws]
      rfl
  | .map value, h => by
      have hvalue := (normal_forms value h).1
      refine ⟨?_, rfl⟩
      intro v w hw
      obtain ⟨ms, out, rfl, rfl, hout⟩ := normalize_map_ok hw
      rw [normalize, eachValue_stable hvalue hout]
      rfl
  | .record name fields, h => by
      have hfields := normal_fields fields h
      constructor
      · intro v w hw
        obtain ⟨ms, out, rfl, rfl, hout⟩ := normalize_record_ok hw
        rw [normalize, hfields ms out hout]
        rfl
      · -- the default of a record is what it writes of an empty object
        rw [default, normalize, hfields [] _ (normalizeFields_nil fields)]
        rfl

/-- `normal_forms` for the fields of a record. -/
theorem normal_fields : ∀ fields : List (String × Bool × Shape), distinctFields fields = true →
    ∀ ms out, normalizeFields fields ms = .ok out → normalizeFields fields out = .ok out
  | [], _, ms, out, h => by
      rw [normalizeFields] at h ⊢
      exact h
  | (name, required, s) :: rest, hdistinct, ms, out, h => by
      rw [distinctFields, Bool.and_eq_true, Bool.and_eq_true, List.all_eq_true] at hdistinct
      obtain ⟨⟨hs, hfresh⟩, hrest⟩ := hdistinct
      obtain ⟨hstable, hdefault⟩ := normal_forms s hs
      have ih := normal_fields rest hrest
      -- a field in front of the rest has another name than all of them
      have hfront : ∀ w more, normalizeFields rest ((name, w) :: more) =
          normalizeFields rest more := by
        intro w more
        refine normalizeFields_congr fun field hfield => ?_
        rw [Members.get?, if_neg (Ne.symm (bne_iff_ne.mp (hfresh field hfield)))]
      rw [normalizeFields_cons] at h
      split at h
      · rename_i hgiven
        obtain ⟨more, hmore, rfl⟩ := Reading.map_ok h
        cases required with
        | true =>
            rw [if_pos rfl, normalize_defaulted hdefault _ _ (by simp [Members.get?]), hfront,
              ih _ _ hmore]
            rfl
        | false =>
            -- what is not given and not required does not stand among the others
            have hnone : given s name more = none := by
              have habsent : Members.get? name more = none := by
                refine Members.get?_eq_none fun m hm heq => ?_
                obtain ⟨field, hfield, hname⟩ :=
                  List.mem_map.mp (fst_mem_of_normalizeFields hmore hm)
                exact bne_iff_ne.mp (hfresh field hfield) (hname.trans heq)
              rw [given, habsent]
            rw [if_neg Bool.false_ne_true, normalizeFields_cons, hnone]
            dsimp only
            rw [ih _ _ hmore]
            rfl
      · rename_i v hgiven
        split at h
        · cases h
        · rename_i w hw
          obtain ⟨more, hmore, rfl⟩ := Reading.map_ok h
          rw [normalize_given hstable hgiven hw _ _ (by simp [Members.get?]), hfront, ih _ _ hmore]
          rfl
end

/-- A document that was read and written once is read and written again as it is. -/
theorem normalize_normalize {s : Shape} (hdistinct : s.distinct = true) {v w : Json}
    (h : normalize s v = .ok w) : normalize s w = .ok w :=
  (normal_forms s hdistinct).1 v w h

end Shape

end ModelOperator

import ModelOperator.Proofs.Cluster.Order

/-!
# Objects read member by member

    What a shape writes of an object is told of each name on its own: `Shape.memberOf` says
    what becomes of what stands under it, and an object is written exactly if every member is
    (`Shape.normalize_obj_iff`).  Under one name nothing matters but what stands there
    (`Shape.memberOf_congr`), and an object that stands there is read by one shape, whatever
    is in it (`Shape.memberOf_obj`).  A document that is in normal form is so in each of its
    parts (`Shape.normalize_member`). -/

namespace ModelOperator

namespace Shape

/-- A field as it is written: in normal form if it is given, with its default if it is required,
    or not at all. -/
def fieldOf (required : Bool) (s : Shape) (name : String) (ms : Members) : Reading (Option Json) :=
  match given s name ms with
  | none => .ok (if required then some (default s) else none)
  | some v => (normalize s v).map some

/-- What a record writes under a name. -/
def memberOfFields (name : String) (ms : Members) :
    List (String × Bool × Shape) → Reading (Option Json)
  | [] => .ok none
  | (field, required, s) :: rest =>
    if field = name then fieldOf required s name ms else memberOfFields name ms rest

/-- What a map writes under a name. -/
def memberOfMap (read : Reader Json) (name : String) (ms : Members) : Reading (Option Json) :=
  match Members.get? name ms with
  | none => .ok none
  | some v => (read v).map some

/-- What a shape that admits objects writes under a name. -/
def memberOf (name : String) (ms : Members) : Shape → Reading (Option Json)
  | .record _ fields => memberOfFields name ms fields
  | .map value => memberOfMap (normalize value) name ms
  | _ => .ok (Members.get? name ms)

/-! ## Records -/

theorem normalizeFields_cons_eq (name : String) (required : Bool) (s : Shape)
    (rest : List (String × Bool × Shape)) (ms : Members) :
    normalizeFields ((name, required, s) :: rest) ms =
      fieldOf required s name ms >>= fun w =>
        (normalizeFields rest ms).map fun more => (w.map fun v => (name, v)).toList ++ more := by
  rw [normalizeFields_cons, fieldOf]
  cases given s name ms with
  | none => cases required <;> rfl
  | some v =>
      dsimp only
      cases normalize s v <;> rfl

theorem memberOfFields_absent {name : String} {fields : List (String × Bool × Shape)}
    (h : name ∉ fields.map (·.1)) (ms : Members) : memberOfFields name ms fields = .ok none := by
  induction fields with
  | nil => rfl
  | cons field rest ih =>
      obtain ⟨first, required, s⟩ := field
      rw [List.map_cons, List.mem_cons, not_or] at h
      rw [memberOfFields, if_neg (Ne.symm h.1)]
      exact ih h.2

/-- Under each name a record writes its field. -/
theorem memberOfFields_of_ok {fields : List (String × Bool × Shape)} {ms out : Members}
    (hnodup : (fields.map (·.1)).Nodup) (h : normalizeFields fields ms = .ok out) (name : String) :
    memberOfFields name ms fields = .ok (Members.get? name out) := by
  induction fields generalizing out with
  | nil =>
      rw [normalizeFields] at h
      cases h
      rfl
  | cons field rest ih =>
      obtain ⟨first, required, s⟩ := field
      obtain ⟨hfresh, hrest⟩ := List.nodup_cons.mp hnodup
      rw [normalizeFields_cons_eq] at h
      obtain ⟨w, hw, h⟩ := Reading.bind_ok h
      obtain ⟨more, hmore, rfl⟩ := Reading.map_ok h
      have hother := ih hrest hmore
      rw [memberOfFields]
      by_cases hname : first = name
      · -- no later field has this name
        subst hname
        rw [memberOfFields_absent hfresh] at hother
        rw [if_pos rfl, hw]
        cases w with
        | none => exact hother
        | some v => simp [Members.get?]
      · rw [if_neg hname, hother]
        cases w with
        | none => rfl
        | some v => simp [Members.get?, hname]

/-- The first field of a name is the one that is written under it. -/
theorem memberOfFields_of_find? {fields : List (String × Bool × Shape)} {name field : String}
    {required : Bool} {s : Shape}
    (h : (fields.find? fun f => f.1 == name) = some (field, required, s)) (ms : Members) :
    memberOfFields name ms fields = fieldOf required s name ms := by
  induction fields with
  | nil => cases h
  | cons first rest ih =>
      obtain ⟨firstName, firstRequired, firstShape⟩ := first
      rw [List.find?_cons] at h
      rw [memberOfFields]
      split at h
      · rename_i heq
        cases h
        rw [if_pos (beq_iff_eq.mp heq)]
      · rename_i hne
        rw [if_neg (beq_eq_false_iff_ne.mp hne)]
        exact ih h

/-- A record is written if each of its fields is. -/
theorem normalizeFields_total {fields : List (String × Bool × Shape)} {ms : Members}
    (hnodup : (fields.map (·.1)).Nodup)
    (h : ∀ name, ∃ w, memberOfFields name ms fields = .ok w) :
    ∃ out, normalizeFields fields ms = .ok out := by
  induction fields with
  | nil => exact ⟨[], by rw [normalizeFields]⟩
  | cons field rest ih =>
      obtain ⟨first, required, s⟩ := field
      obtain ⟨hfresh, hrest⟩ := List.nodup_cons.mp hnodup
      have hothers : ∀ name, ∃ w, memberOfFields name ms rest = .ok w := by
        intro name
        by_cases hname : first = name
        · exact ⟨none, memberOfFields_absent (hname ▸ hfresh) ms⟩
        · have hfield := h name
          rwa [memberOfFields, if_neg hname] at hfield
      obtain ⟨w, hw⟩ := h first
      obtain ⟨more, hmore⟩ := ih hrest hothers
      rw [memberOfFields, if_pos rfl] at hw
      rw [normalizeFields_cons_eq, hw, hmore]
      exact ⟨_, rfl⟩

/-! ## Maps -/

theorem memberOfMap_of_ok {read : Reader Json} {ms out : Members} (h : eachValue read ms = .ok out)
    (name : String) : memberOfMap read name ms = .ok (Members.get? name out) := by
  rw [memberOfMap]
  induction ms generalizing out with
  | nil =>
      cases h
      rfl
  | cons first rest ih =>
      obtain ⟨k, v⟩ := first
      rw [eachValue] at h
      split at h
      · cases h
      · rename_i w hw
        split at h
        · cases h
        · rename_i more hmore
          cases h
          rw [Members.get?, Members.get?]
          by_cases hk : k = name
          · rw [if_pos hk, if_pos hk]
            dsimp only
            rw [hw]
            rfl
          · rw [if_neg hk, if_neg hk]
            exact ih hmore

/-- A map is written if each of its values is. -/
theorem eachValue_total {read : Reader Json} {ms : Members} (h : ∀ m ∈ ms, ∃ w, read m.2 = .ok w) :
    ∃ out, eachValue read ms = .ok out := by
  induction ms with
  | nil => exact ⟨[], rfl⟩
  | cons first rest ih =>
      obtain ⟨k, v⟩ := first
      obtain ⟨⟨w, hw⟩, hrest⟩ := List.forall_mem_cons.mp h
      obtain ⟨more, hmore⟩ := ih hrest
      rw [eachValue, hw, hmore]
      exact ⟨_, rfl⟩

theorem read_of_memberOfMap {read : Reader Json} {ms : Members}
    (hms : Members.increasing ms = true) {m : String × Json} (hm : m ∈ ms)
    (h : ∃ w, memberOfMap read m.1 ms = .ok w) : ∃ w, read m.2 = .ok w := by
  obtain ⟨w, hw⟩ := h
  rw [memberOfMap, Members.get?_of_mem hms hm] at hw
  obtain ⟨v, hv, -⟩ := Reading.map_ok hw
  exact ⟨v, hv⟩

/-! ## Objects -/

/-- Whether a shape admits objects. -/
def admitsObjects : Shape → Bool
  | .any | .map _ | .record _ _ => true
  | _ => false

/-- What is read from an object is written as one. -/
theorem obj_of_normalize {s : Shape} {ms : Members} {w : Json} (h : normalize s (.obj ms) = .ok w) :
    s.admitsObjects = true ∧ ∃ out, w = .obj out := by
  cases s with
  | any => exact ⟨rfl, ms, (Except.ok.inj h).symm⟩
  | map value =>
      obtain ⟨-, out, -, rfl, -⟩ := normalize_map_ok h
      exact ⟨rfl, out, rfl⟩
  | record name fields =>
      obtain ⟨-, out, -, rfl, -⟩ := normalize_record_ok h
      exact ⟨rfl, out, rfl⟩
  | _ => cases h

/-- What is written of an object, name by name. -/
theorem memberOf_of_ok {s : Shape} (hdistinct : s.distinct = true) {ms out : Members}
    (h : normalize s (.obj ms) = .ok (.obj out)) (name : String) :
    s.memberOf name ms = .ok (Members.get? name out) := by
  cases s with
  | any =>
      cases h
      rfl
  | map value =>
      obtain ⟨_, _, heq, hout, hvalues⟩ := normalize_map_ok h
      cases heq
      cases hout
      exact memberOfMap_of_ok hvalues name
  | record _ fields =>
      obtain ⟨_, _, heq, hout, hfields⟩ := normalize_record_ok h
      cases heq
      cases hout
      exact memberOfFields_of_ok (nodup_of_distinctFields hdistinct).1 hfields name
  | _ => cases h

/-- An object is written if each of its members is. -/
theorem normalize_obj_total {s : Shape} (hdistinct : s.distinct = true)
    (hobjects : s.admitsObjects = true) {ms : Members} (hms : Members.increasing ms = true)
    (h : ∀ name, ∃ w, s.memberOf name ms = .ok w) :
    ∃ out, normalize s (.obj ms) = .ok (.obj out) := by
  cases s with
  | any => exact ⟨ms, rfl⟩
  | map value =>
      obtain ⟨out, hout⟩ := eachValue_total fun m hm => read_of_memberOfMap hms hm (h m.1)
      rw [normalize, hout]
      exact ⟨out, rfl⟩
  | record _ fields =>
      obtain ⟨out, hout⟩ := normalizeFields_total (nodup_of_distinctFields hdistinct).1 h
      rw [normalize, hout]
      exact ⟨out, rfl⟩
  | _ => cases hobjects

/-- **Objects are read member by member.** -/
theorem normalize_obj_iff {s : Shape} (hdistinct : s.distinct = true) (hsorted : s.sorted = true)
    (hobjects : s.admitsObjects = true) {ms out : Members} (hms : (Json.obj ms).isCanonical = true)
    (hout : Members.increasing out = true) :
    normalize s (.obj ms) = .ok (.obj out) ↔
      ∀ name, s.memberOf name ms = .ok (Members.get? name out) := by
  refine ⟨memberOf_of_ok hdistinct, fun h => ?_⟩
  obtain ⟨written, hwritten⟩ := normalize_obj_total hdistinct hobjects
    (Json.increasing_of_isCanonical hms) fun name => ⟨_, h name⟩
  have hinc := Json.increasing_of_isCanonical (isCanonical_normalize hsorted hms hwritten)
  have hsame : written = out := Members.ext_get? hinc hout fun name =>
    Except.ok.inj ((memberOf_of_ok hdistinct hwritten name).symm.trans (h name))
  rw [hwritten, hsame]

theorem memberOfFields_congr {name : String} {ms others : Members}
    (h : Members.get? name ms = Members.get? name others) (fields : List (String × Bool × Shape)) :
    memberOfFields name ms fields = memberOfFields name others fields := by
  induction fields with
  | nil => rfl
  | cons field rest ih =>
      obtain ⟨first, required, s⟩ := field
      have hgiven : given s name ms = given s name others := by
        rw [given, given, h]
      rw [memberOfFields, memberOfFields, ih, fieldOf, fieldOf, hgiven]

/-- Under one name nothing matters but what stands there. -/
theorem memberOf_congr {name : String} {ms others : Members}
    (h : Members.get? name ms = Members.get? name others) (s : Shape) :
    s.memberOf name ms = s.memberOf name others := by
  cases s with
  | record _ fields => exact memberOfFields_congr h fields
  | map value =>
      rw [memberOf, memberOf, memberOfMap, memberOfMap, h]
  | _ => exact congrArg Except.ok h

/-- The shape by which a member is read. -/
def memberShape? (name : String) : Shape → Option Shape
  | .record _ fields => (fields.find? fun field => field.1 == name).map (·.2.2)
  | .map value => some value
  | _ => some .any

/-- An object that stands under a name is read by the shape of the member, if there is one, and
    left out otherwise. -/
theorem memberOf_obj {name : String} {ms sub : Members}
    (h : Members.get? name ms = some (.obj sub)) (s : Shape) :
    s.memberOf name ms =
      match s.memberShape? name with
      | none => .ok none
      | some shape => (normalize shape (.obj sub)).map some := by
  cases s with
  | record _ fields =>
      rw [memberOf, memberShape?]
      cases hfind : fields.find? fun field => field.1 == name with
      | none =>
          have habsent : name ∉ fields.map (·.1) := by
            intro hmem
            obtain ⟨field, hfield, rfl⟩ := List.mem_map.mp hmem
            exact List.find?_eq_none.mp hfind field hfield (beq_self_eq_true _)
          rw [memberOfFields_absent habsent]
          rfl
      | some field =>
          obtain ⟨first, required, s⟩ := field
          rw [memberOfFields_of_find? hfind, fieldOf, given_of_get? h Json.noConfusion]
          rfl
  | map value => rw [memberOf, memberOfMap, h, memberShape?]
  | _ => exact congrArg Except.ok h

/-! ## Parts of normal forms -/

/-- A part of a normal form is in normal form. -/
theorem normalize_member {s leaf : Shape} (hdistinct : s.distinct = true) {w x : Json}
    {name : String} (h : normalize s w = .ok w) (hleaf : s.memberShape? name = some leaf)
    (hx : w.get? name = some x) : leaf.distinct = true ∧ normalize leaf x = .ok x := by
  cases w with
  | obj ms =>
      rw [Json.get?] at hx
      have hmember := memberOf_of_ok hdistinct h name
      rw [hx] at hmember
      cases s with
      | record _ fields =>
          rw [memberShape?, Option.map_eq_some_iff] at hleaf
          obtain ⟨⟨field, required, s⟩, hfind, rfl⟩ := hleaf
          have hs := (nodup_of_distinctFields hdistinct).2 _ (List.mem_of_find?_eq_some hfind)
          refine ⟨hs, ?_⟩
          rw [memberOf, memberOfFields_of_find? hfind, fieldOf] at hmember
          split at hmember
          · -- what does not count as given can only stand there as a default
            cases required with
            | true =>
                cases hmember
                exact (normal_forms s hs).2
            | false => cases hmember
          · rename_i v hgiven
            cases hx.symm.trans (get?_of_given hgiven)
            obtain ⟨y, hy, heq⟩ := Reading.map_ok hmember
            cases heq
            exact hy
      | map value =>
          cases hleaf
          rw [memberOf, memberOfMap, hx] at hmember
          obtain ⟨y, hy, heq⟩ := Reading.map_ok hmember
          cases heq
          exact ⟨hdistinct, hy⟩
      | any =>
          cases hleaf
          exact ⟨rfl, rfl⟩
      | _ => cases h
  | _ => cases hx

end Shape

end ModelOperator

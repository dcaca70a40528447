import ModelOperator.Json.Edit
import ModelOperator.Proofs.Json.Outline

/-!
# Where a pointer leads

    The tokens of a pointer lead into a document one after the other.  `Json.locate?` gives the
    place that they lead to, with a dash behind all others standing for the last item of a list.

    A token that is an index is one to a lenient reader too (`looseIndex?_of_index?`), but a dash
    and a number with a sign are not. -/

namespace ModelOperator

namespace Pointer

/-- Digits have no sign. -/
theorem digitsNumber?_sign {c : Char} (h : ('0' ≤ c && c ≤ '9') = false) (rest : List Char) :
    digitsNumber? (c :: rest) = none := by
  rw [digitsNumber?, List.all_cons, h]
  rfl

theorem index?_dash : index? "-" = none := by decide +kernel

/-- A lenient reader takes an index for what it is. -/
theorem looseIndex?_of_index? {token : String} {i : Nat} (h : index? token = some i) :
    looseIndex? token = some i := by
  rw [index?] at h
  rw [looseIndex?]
  generalize token.toList = cs at h ⊢
  split at h
  · cases h
  · split
    · rw [digitsNumber?_sign (by decide)] at h
      cases h
    · exact h

end Pointer

namespace Json

/-- The place that tokens lead to; a dash that is the last one leads to the last item of a list. -/
def locate? : List String → Json → Option (List PathStep)
  | [], _ => some []
  | token :: rest, .obj ms =>
    ((Members.get? token ms).bind (locate? rest)).map (.member token :: ·)
  | token :: rest, .arr items =>
    (if token = "-" ∧ rest = [] then some (items.length - 1)
      else Pointer.index? token).bind fun i => (items[i]?.bind (locate? rest)).map (.place i :: ·)
  | _, _ => none

/-- What tokens lead to can be changed. -/
theorem exists_change?_of_at? {tokens : List String} {v w : Json} (h : v.at? tokens = some w)
    (new : Json) : ∃ out, change? (fun _ => some new) tokens v = some out := by
  induction tokens generalizing v with
  | nil => exact ⟨new, rfl⟩
  | cons token rest ih =>
      obtain ⟨x, hx, hrest⟩ := Option.bind_eq_some_iff.mp h
      obtain ⟨inner, hinner⟩ := ih hrest
      refine ⟨setChild token inner v, ?_⟩
      rw [change?, hx]
      dsimp only
      rw [hinner, Option.map_some]

theorem splitLast?_cons (token next : String) (rest : List String) :
    splitLast? (token :: next :: rest) =
      (splitLast? (next :: rest)).map fun r => (token :: r.1, r.2) :=
  rfl

theorem exists_splitLast? (next : String) (rest : List String) :
    ∃ parent last, splitLast? (next :: rest) = some (parent, last) := by
  induction rest generalizing next with
  | nil => exact ⟨[], next, rfl⟩
  | cons second rest ih =>
      obtain ⟨parent, last, heq⟩ := ih second
      refine ⟨next :: parent, last, ?_⟩
      rw [splitLast?_cons, heq]
      rfl

/-- An addition behind a token is an addition to the child that the token leads to. -/
theorem addAt?_cons (doc value : Json) (token next : String) (rest : List String) :
    doc.addAt? (token :: next :: rest) value = (doc.child? token).bind fun w =>
      (w.addAt? (next :: rest) value).map fun new => setChild token new doc := by
  obtain ⟨parent, last, heq⟩ := exists_splitLast? next rest
  rw [addAt?, splitLast?_cons, heq]
  show change? (insertChild? last value) (token :: parent) doc = _
  rw [change?]
  cases doc.child? token with
  | none => rfl
  | some w =>
      show (change? (insertChild? last value) parent w).map _ =
        (w.addAt? (next :: rest) value).map _
      rw [addAt?, heq]

/-- The position at which a token puts a new item into a list; a dash puts it at the end. -/
def newPlace? (token : String) (items : List Json) : Option Nat :=
  if token = "-" then some items.length else (Pointer.index? token).filter (· ≤ items.length)

theorem newPlace?_le {token : String} {items : List Json} {i : Nat}
    (h : newPlace? token items = some i) : i ≤ items.length := by
  rw [newPlace?] at h
  split at h
  · exact Nat.le_of_eq (Option.some.inj h).symm
  · exact of_decide_eq_true (Option.filter_eq_some_iff.mp h).2

theorem insertChild?_arr (token : String) (value : Json) (items : List Json) :
    insertChild? token value (.arr items) =
      (newPlace? token items).map fun i => .arr (items.insertIdx i value) := by
  rw [insertChild?, newPlace?]
  split
  · rw [Option.map_some, List.insertIdx_length_self]
  · cases Pointer.index? token with
    | none => rfl
    | some i =>
        rw [Option.filter_some]
        by_cases hi : i ≤ items.length
        · simp [hi]
        · simp [hi]

end Json

/-- A fault stands for no result. -/
theorem Edit.orFault_ok {fault : EditFault} {result : Option Json} {out : Json}
    (h : Edit.orFault fault result = .ok out) : result = some out := by
  cases result with
  | none => cases h
  | some v =>
      cases h
      rfl

end ModelOperator

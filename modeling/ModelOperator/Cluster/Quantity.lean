import ModelOperator.Json.Printer

/-!
# Resource amounts

    An amount under `limits` or `requests` of a `resources` object may be written as a
    number or as a text.  `Quantity.toTexts` turns the numbers there into their texts and
    leaves every other value as it is. -/

namespace ModelOperator

namespace Quantity

/-- Where a value stands: under `resources`, under a list of amounts in it, or elsewhere. -/
inductive Place where
  | elsewhere
  | resources
  | amounts
  deriving DecidableEq, Repr

/-- The place of a member. -/
def Place.member (place : Place) (name : String) : Place :=
  if name = "resources" then .resources
  else if place = .resources ∧ (name = "limits" ∨ name = "requests") then .amounts
  else .elsewhere

mutual
/-- A value with the numbers among its amounts as texts. -/
def textsAt : Place → Json → Json
  | place, .obj members => .obj (textsOfMembers place members)
  | _, .arr items => .arr (textsOfItems items)
  | _, v => v

/-- Each item of a list. -/
def textsOfItems : List Json → List Json
  | [] => []
  | v :: rest => textsAt .elsewhere v :: textsOfItems rest

/-- Each member of an object; a number that is an amount becomes its text. -/
def textsOfMembers : Place → Members → Members
  | _, [] => []
  | place, (name, v) :: rest =>
    let inner :=
      match place, v.numberText? with
      | .amounts, some digits => .str digits
      | _, _ => textsAt (place.member name) v
    (name, inner) :: textsOfMembers place rest
end

/-- A document with the numbers among its amounts as texts. -/
def toTexts (doc : Json) : Json := textsAt .elsewhere doc

end Quantity

end ModelOperator

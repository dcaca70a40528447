/-!
# Numbers in bytes

    `littleEndian` is the number that bytes write; `takeExact` splits off a field of a
    known size. -/

namespace ModelOperator

/-- The number that bytes write, lowest byte first. -/
def littleEndian : List UInt8 → Nat
  | [] => 0
  | b :: rest => b.toNat + 256 * littleEndian rest

/-- The first `n` bytes and what follows them, if there are so many. -/
def takeExact (n : Nat) (bytes : List UInt8) : Option (List UInt8 × List UInt8) :=
  if n ≤ bytes.length then some (bytes.take n, bytes.drop n) else none

@[simp] theorem littleEndian_nil : littleEndian [] = 0 := rfl

@[simp] theorem littleEndian_cons (b : UInt8) (rest : List UInt8) :
    littleEndian (b :: rest) = b.toNat + 256 * littleEndian rest := rfl

/-- Nothing is lost by splitting off a field. -/
theorem append_of_takeExact {n : Nat} {bytes field rest : List UInt8}
    (h : takeExact n bytes = some (field, rest)) : field ++ rest = bytes := by
  unfold takeExact at h
  split at h
  · cases h
    exact List.take_append_drop n bytes
  · cases h

end ModelOperator

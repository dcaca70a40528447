/-!
# Copies from the output

    Both formats say "repeat what was written so far" as a length and a distance back. -/

namespace ModelOperator

namespace Compression

/-- Copies `n` bytes from a distance back, one at a time, so that a copy may run into what
    it writes.  What lies before the start counts as zero bytes. -/
def copyBack (distance : Nat) : Nat → Array UInt8 → Array UInt8
  | 0, out => out
  | n + 1, out =>
    let byte := if distance ≤ out.size then out.getD (out.size - distance) 0 else 0
    copyBack distance n (out.push byte)

@[simp] theorem copyBack_zero (distance : Nat) (out : Array UInt8) :
    copyBack distance 0 out = out := rfl

/-- A copy adds as many bytes as it is long. -/
theorem size_copyBack (distance n : Nat) (out : Array UInt8) :
    (copyBack distance n out).size = out.size + n := by
  induction n generalizing out with
  | zero => rfl
  | succ n ih =>
    rw [copyBack, ih, Array.size_push]
    omega

end Compression

end ModelOperator

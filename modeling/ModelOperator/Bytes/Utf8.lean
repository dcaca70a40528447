/-!
# UTF-8

    The bytes of a text, the text that bytes encode if they are valid, and the text that is made
    of them if they are not: there the replacement character stands for each longest stretch of
    bytes that begins a character and is not continued as one. -/

namespace ModelOperator

/-- The bytes of a text. -/
def utf8Bytes (s : String) : List UInt8 := s.toList.flatMap String.utf8EncodeChar

/-- The text that the bytes encode. -/
def utf8Text? (bytes : List UInt8) : Option String :=
  String.fromUTF8? (ByteArray.mk bytes.toArray)

/-- A character whose bytes are not yet complete: how many are missing, what the next one has to
    lie between, and the number read so far. -/
structure PartialChar where
  missing : Nat
  low : UInt8
  high : UInt8
  value : Nat

namespace PartialChar

/-- The character that stands for bytes that encode none. -/
def replacement : Char := '\uFFFD'

/-- A byte where a character begins: the characters that it completes, and the one that it leaves
    incomplete. -/
def start (b : UInt8) : List Char × Option PartialChar :=
  if b < 0x80 then ([Char.ofNat b.toNat], none)
  else if b < 0xC2 then ([replacement], none)
  else if b < 0xE0 then ([], some ⟨1, 0x80, 0xBF, b.toNat - 0xC0⟩)
  else if b = 0xE0 then ([], some ⟨2, 0xA0, 0xBF, 0⟩)
  else if b = 0xED then ([], some ⟨2, 0x80, 0x9F, 13⟩)
  else if b < 0xF0 then ([], some ⟨2, 0x80, 0xBF, b.toNat - 0xE0⟩)
  else if b = 0xF0 then ([], some ⟨3, 0x90, 0xBF, 0⟩)
  else if b < 0xF4 then ([], some ⟨3, 0x80, 0xBF, b.toNat - 0xF0⟩)
  else if b = 0xF4 then ([], some ⟨3, 0x80, 0x8F, 4⟩)
  else ([replacement], none)

/-- A byte behind an incomplete character.  One that does not continue it begins another. -/
def next (p : PartialChar) (b : UInt8) : List Char × Option PartialChar :=
  if p.low ≤ b ∧ b ≤ p.high then
    let value := p.value * 64 + (b.toNat - 0x80)
    if p.missing = 1 then ([Char.ofNat value], none)
    else ([], some ⟨p.missing - 1, 0x80, 0xBF, value⟩)
  else
    let (complete, begun) := start b
    (replacement :: complete, begun)

/-- The characters of some bytes, behind a character that may be incomplete. -/
def decode : Option PartialChar → List UInt8 → List Char
  | none, [] => []
  | some _, [] => [replacement]
  | begun, b :: rest =>
    let (complete, begun) := match begun with
      | none => start b
      | some p => p.next b
    complete ++ decode begun rest

end PartialChar

/-- The text that is made of any bytes. -/
def utf8Lossy (bytes : List UInt8) : String := String.ofList (PartialChar.decode none bytes)

end ModelOperator

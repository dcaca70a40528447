import Mathlib.Algebra.Group.Nat.Defs
import ModelOperator.Proofs.Compression.Locality

/-!
# Fields of bytes and bits

    Bytes are read back from their bits, and a number from the bytes and from the bits that it is
    written in.  Readers of fields are local (`IsLocal`): they take as much as they are told to. -/

namespace ModelOperator

/-! ## Numbers in bytes -/

/-- A number in so many bytes, lowest byte first. -/
def numberField : Nat → Nat → List UInt8
  | 0, _ => []
  | width + 1, n => UInt8.ofNat (n % 256) :: numberField width (n / 256)

@[simp] theorem length_numberField (width n : Nat) : (numberField width n).length = width := by
  induction width generalizing n with
  | zero => rfl
  | succ width ih => rw [numberField, List.length_cons, ih]

/-- A number that fits is read back from its bytes. -/
theorem littleEndian_numberField (width n : Nat) (h : n < 256 ^ width) :
    littleEndian (numberField width n) = n := by
  induction width generalizing n with
  | zero =>
      show 0 = n
      omega
  | succ width ih =>
      have hsmall : n / 256 < 256 ^ width := by
        rw [Nat.div_lt_iff_lt_mul (by decide), ← Nat.pow_succ]
        exact h
      have hbyte : (UInt8.ofNat (n % 256)).toNat = n % 256 :=
        UInt8.toNat_ofNat_of_lt' (Nat.mod_lt n (by decide))
      rw [numberField, littleEndian_cons, ih _ hsmall, hbyte]
      omega

/-- Bytes make a number below the power for their count. -/
theorem littleEndian_lt (bytes : List UInt8) : littleEndian bytes < 256 ^ bytes.length := by
  induction bytes with
  | nil => exact Nat.one_pos
  | cons b rest ih =>
      have hb := b.toNat_lt
      rw [littleEndian_cons, List.length_cons, Nat.pow_succ]
      omega

/-- Bytes are those of their number. -/
theorem numberField_littleEndian (bytes : List UInt8) :
    numberField bytes.length (littleEndian bytes) = bytes := by
  induction bytes with
  | nil => rfl
  | cons b rest ih =>
      have hb := b.toNat_lt
      have hlow : (b.toNat + 256 * littleEndian rest) % 256 = b.toNat := by omega
      have hhigh : (b.toNat + 256 * littleEndian rest) / 256 = littleEndian rest := by omega
      rw [littleEndian_cons, List.length_cons, numberField, hlow, hhigh, ih, UInt8.ofNat_toNat]

/-- A field is split off in front of what follows it. -/
theorem takeExact_append {n : Nat} {field : List UInt8} (h : field.length = n) (rest : List UInt8) :
    takeExact n (field ++ rest) = some (field, rest) := by
  rw [takeExact, if_pos (by rw [List.length_append]; omega), ← h, List.take_left, List.drop_left]

/-- Taking bytes splits the input in two. -/
theorem takeExact_iff {n : Nat} {bytes field rest : List UInt8} :
    takeExact n bytes = some (field, rest) ↔ field.length = n ∧ bytes = field ++ rest := by
  constructor
  · intro h
    refine ⟨?_, (append_of_takeExact h).symm⟩
    rw [takeExact] at h
    split at h
    · cases h
      rw [List.length_take]
      omega
    · cases h
  · rintro ⟨hlength, rfl⟩
    exact takeExact_append hlength rest

variable {α : Type}

/-- A field is taken and what it is followed by gives an outcome. -/
theorem bind_takeExact_iff {n : Nat} {bytes : List UInt8} {a : α}
    {k : List UInt8 × List UInt8 → Option α} :
    (takeExact n bytes >>= k) = some a ↔
      ∃ field rest, field.length = n ∧ bytes = field ++ rest ∧ k (field, rest) = some a := by
  constructor
  · intro h
    obtain ⟨⟨field, rest⟩, htake, hk⟩ := Option.bind_eq_some_iff.mp h
    obtain ⟨hlength, hbytes⟩ := takeExact_iff.mp htake
    exact ⟨field, rest, hlength, hbytes, hk⟩
  · rintro ⟨field, rest, hlength, hbytes, hk⟩
    exact Option.bind_eq_some_iff.mpr ⟨(field, rest), takeExact_iff.mpr ⟨hlength, hbytes⟩, hk⟩

/-- The field that holds a number is the one that writes it. -/
theorem eq_numberField_iff {width n : Nat} (h : n < 256 ^ width) {field : List UInt8} :
    field = numberField width n ↔ field.length = width ∧ littleEndian field = n := by
  constructor
  · rintro rfl
    exact ⟨length_numberField width n, littleEndian_numberField width n h⟩
  · rintro ⟨rfl, rfl⟩
    exact (numberField_littleEndian field).symm

namespace Compression

/-- A demand that is met has no effect. -/
theorem demand_pos {p : Prop} [Decidable p] (h : p) : demand p = some () := if_pos h

/-- A demand in front of a reader is met. -/
theorem bind_demand_iff {p : Prop} [Decidable p] {a : α} {k : Unit → Option α} :
    (demand p >>= k) = some a ↔ p ∧ k () = some a := by
  rw [demand]
  by_cases hp : p
  · rw [if_pos hp]
    exact ⟨fun h => ⟨hp, h⟩, fun h => h.2⟩
  · rw [if_neg hp]
    exact ⟨nofun, fun h => absurd h.1 hp⟩

/-! ## Bits -/

theorem length_byteBits (b : UInt8) : (byteBits b).length = 8 := by
  rw [byteBits, List.length_map, List.length_range]

@[simp] theorem length_bitsOf (bytes : List UInt8) : (bitsOf bytes).length = 8 * bytes.length := by
  induction bytes with
  | nil => rfl
  | cons b rest ih =>
      rw [bitsOf_cons, List.length_append, length_byteBits, ih, List.length_cons]
      omega

/-- The bits of bytes in a row are their bits in a row. -/
theorem bitsOf_append (front back : List UInt8) :
    bitsOf (front ++ back) = bitsOf front ++ bitsOf back :=
  List.flatMap_append

/-- The later bits weigh more. -/
theorem lowFirst_append (front back : List Bool) :
    lowFirst (front ++ back) = lowFirst front + 2 ^ front.length * lowFirst back := by
  induction front with
  | nil =>
      rw [List.nil_append, lowFirst_nil, List.length_nil]
      omega
  | cons b rest ih =>
      rw [List.cons_append, lowFirst_cons, lowFirst_cons, ih, List.length_cons, Nat.pow_succ]
      have hassoc : 2 ^ rest.length * 2 * lowFirst back =
          2 * (2 ^ rest.length * lowFirst back) := by
        rw [Nat.mul_comm (2 ^ rest.length) 2, Nat.mul_assoc]
      omega

/-- The bits of a byte make the byte. -/
theorem lowFirst_byteBits (b : UInt8) : lowFirst (byteBits b) = b.toNat := by
  have hall : ∀ n, n < 256 → lowFirst ((List.range 8).map n.testBit) = n := by decide +kernel
  exact hall b.toNat b.toNat_lt

/-- The bits of bytes write the number that the bytes write. -/
theorem lowFirst_bitsOf (bytes : List UInt8) : lowFirst (bitsOf bytes) = littleEndian bytes := by
  induction bytes with
  | nil => rfl
  | cons b rest ih =>
      have hsplit := lowFirst_append (byteBits b) (bitsOf rest)
      rw [lowFirst_byteBits, length_byteBits, ih] at hsplit
      exact hsplit

/-- Bytes are read back from their bits, and what is short of a byte is dropped. -/
theorem bytesOf_bitsOf (bytes : List UInt8) : bytesOf (bitsOf bytes) = bytes := by
  induction bytes with
  | nil => rfl
  | cons b rest ih =>
      have hbyte : bytesOf (byteBits b ++ bitsOf rest) =
          UInt8.ofNat (lowFirst (byteBits b)) :: bytesOf (bitsOf rest) := rfl
      rw [bitsOf_cons, hbyte, lowFirst_byteBits, ih, UInt8.ofNat_toNat]

/-- Bits to spare in front of whole bytes are passed over. -/
theorem drop_spare {spare : List Bool} (h : spare.length < 8) (bytes : List UInt8) :
    (spare ++ bitsOf bytes).drop ((spare ++ bitsOf bytes).length % 8) = bitsOf bytes := by
  have hlength : (spare ++ bitsOf bytes).length % 8 = spare.length := by
    rw [List.length_append, length_bitsOf]
    omega
  rw [hlength, List.drop_left]

/-- The last bits of bytes are some of one byte and all of the bytes behind it. -/
theorem exists_bitsOf_back {bytes : List UInt8} {front back : List Bool}
    (h : bitsOf bytes = front ++ back) :
    ∃ head tail spare, bytes = head ++ tail ∧ back = spare ++ bitsOf tail ∧ spare.length < 8 ∧
      bitsOf head = front ++ spare := by
  have hlengths : 8 * bytes.length = front.length + back.length := by
    rw [← length_bitsOf, h, List.length_append]
  let cut := bytes.length - back.length / 8
  let spare := back.take (back.length % 8)
  have hspare : spare.length = back.length % 8 := by
    rw [List.length_take]
    exact Nat.min_eq_left (Nat.mod_le _ _)
  have hbits : bitsOf (bytes.take cut) ++ bitsOf (bytes.drop cut) =
      (front ++ spare) ++ back.drop (back.length % 8) := by
    rw [← bitsOf_append, List.take_append_drop, h, List.append_assoc, List.take_append_drop]
  have hsize : (bitsOf (bytes.take cut)).length = (front ++ spare).length := by
    rw [length_bitsOf, List.length_take, List.length_append, hspare]
    omega
  obtain ⟨hhead, htail⟩ := List.append_inj hbits hsize
  refine ⟨bytes.take cut, bytes.drop cut, spare, (List.take_append_drop cut bytes).symm, ?_, ?_,
    hhead⟩
  · rw [htail, List.take_append_drop]
  · rw [hspare]
    exact Nat.mod_lt _ (by decide)

/-! ## Readers of fields -/

/-- Bits that are there are read. -/
theorem readBits_append {n : Nat} {taken : List Bool} (h : taken.length = n) (rest : List Bool) :
    readBits n (taken ++ rest) = some (taken, rest) := by
  show (if ((taken ++ rest).take n).length = n then
    some ((taken ++ rest).take n, (taken ++ rest).drop n) else none) = _
  rw [← h, List.take_left, List.drop_left, if_pos rfl]

/-- The bits that are read are the first ones. -/
theorem readBits_eq_some {n : Nat} {bits taken rest : List Bool}
    (h : readBits n bits = some (taken, rest)) : bits = taken ++ rest ∧ taken.length = n := by
  replace h : (if (bits.take n).length = n then some (bits.take n, bits.drop n) else none) =
    some (taken, rest) := h
  split at h
  · rename_i hlength
    cases h
    exact ⟨(List.take_append_drop n bits).symm, hlength⟩
  · cases h

/-- Reading bits looks at no others. -/
theorem isLocal_readBits (unit n : Nat) : IsLocal unit n (readBits n) := by
  refine IsLocal.intro ?_
  intro all taken rest h
  obtain ⟨hall, hlength⟩ := readBits_eq_some h
  exact ⟨taken, hall, Nat.le_of_eq hlength.symm, fun tail _ => readBits_append hlength tail⟩

/-- Reading a number of bits looks at no others. -/
theorem isLocal_readLow (unit n : Nat) : IsLocal unit n (readLow n) :=
  (isLocal_readBits unit n).map lowFirst

/-- A number is read from the bits that write it. -/
theorem readLow_append {n : Nat} {taken : List Bool} (h : taken.length = n) (rest : List Bool) :
    readLow n (taken ++ rest) = some (lowFirst taken, rest) := by
  show (readBits n (taken ++ rest)).bind _ = _
  rw [readBits_append h]
  rfl

/-- A number is read from the bytes that write it. -/
theorem readLow_bitsOf {n : Nat} {field : List UInt8} (h : 8 * field.length = n)
    (rest : List UInt8) :
    readLow n (bitsOf (field ++ rest)) = some (littleEndian field, bitsOf rest) := by
  rw [bitsOf_append, readLow_append (by rw [length_bitsOf, h]), lowFirst_bitsOf]

theorem bitsLeft_eq (bits : List Bool) : bitsLeft bits = some (bits.length, bits) := rfl

/-- Bits in front of whole bytes are skipped. -/
theorem alignByte_spare {spare : List Bool} (h : spare.length < 8) (bytes : List UInt8) :
    alignByte (spare ++ bitsOf bytes) = some ((), bitsOf bytes) := by
  show some ((), (spare ++ bitsOf bytes).drop _) = _
  rw [drop_spare h]

/-- A loop over bits that may take as many rounds as there are bits left. -/
theorem isLocal_bitsLeft {unit slack : Nat} {r : Nat → BitReader α}
    (h : ∀ rounds, Local unit slack r rounds) : IsLocal unit slack (bitsLeft >>= r) :=
  IsLocal.of_length h

/-- Skipping to the next byte depends on how many bits of a byte follow. -/
theorem isLocal_alignByte : IsLocal 8 0 alignByte := by
  refine IsLocal.intro ?_
  intro all a rest h
  replace h : some ((), all.drop (all.length % 8)) = some (a, rest) := h
  cases h
  have hskipped : (all.take (all.length % 8)).length = all.length % 8 := by
    rw [List.length_take]
    exact Nat.min_eq_left (Nat.mod_le _ _)
  refine ⟨all.take (all.length % 8), (List.take_append_drop _ _).symm, Nat.zero_le _, ?_⟩
  intro tail htail
  have hrest : (all.drop (all.length % 8)).length % 8 = 0 := by
    rw [List.length_drop]
    omega
  have htotal : (all.take (all.length % 8) ++ tail).length % 8 = all.length % 8 := by
    rw [List.length_append, hskipped]
    omega
  show some ((), (all.take (all.length % 8) ++ tail).drop _) = _
  rw [htotal, List.drop_left' hskipped]

/-- The reader of a field of bytes. -/
def readField (n : Nat) : StateT (List UInt8) Option (List UInt8) := takeExact n

/-- Reading a field of bytes looks at no others. -/
theorem isLocal_readField (n : Nat) : IsLocal 1 n (readField n) := by
  refine IsLocal.intro ?_
  intro all field rest h
  obtain ⟨hlength, hall⟩ := takeExact_iff.mp h
  exact ⟨field, hall, Nat.le_of_eq hlength.symm, fun tail _ => takeExact_append hlength tail⟩

/-! ## Blocks -/

/-- Bytes are written down as they are, in blocks of limited size, as many as it takes.  The
    reader of blocks takes one in a round, and `behind` is how it sees the bytes behind it. -/
theorem exists_blocks {β : Type} {limit : Nat} (hlimit : 0 < limit)
    (read : Nat → Array UInt8 → List UInt8 → Option (Array UInt8 × List β))
    {block : Bool → List UInt8 → List UInt8} {behind : List UInt8 → List β}
    (hread : ∀ last chunk n out rest, chunk.length ≤ limit →
      read (n + 1) out (block last chunk ++ rest) =
        if last then some (out ++ chunk, behind rest) else read n (out ++ chunk) rest)
    (content : List UInt8) (out : Array UInt8) :
    ∃ packed rounds, read rounds out packed = some (out ++ content, behind []) := by
  induction hsize : content.length using Nat.strongRecOn generalizing content out with
  | ind size ih =>
      by_cases hsmall : content.length ≤ limit
      · refine ⟨block true content ++ [], 1, ?_⟩
        rw [hread true content 0 out [] hsmall, if_pos rfl]
      · have hchunk : (content.take limit).length ≤ limit := List.length_take_le ..
        have hfewer : (content.drop limit).length < size := by
          rw [List.length_drop]
          omega
        obtain ⟨packed, rounds, hrest⟩ := ih _ hfewer (content.drop limit)
          (out ++ content.take limit) rfl
        have hglue : out ++ content.take limit ++ content.drop limit = out ++ content := by
          refine Array.ext' ?_
          rw [Array.toList_appendList, Array.toList_appendList, Array.toList_appendList,
            List.append_assoc, List.take_append_drop]
        refine ⟨block false (content.take limit) ++ packed, rounds + 1, ?_⟩
        rw [hread false _ _ _ _ hchunk, if_neg Bool.false_ne_true, hrest, hglue]

theorem empty_append_list (bytes : List UInt8) : (#[] : Array UInt8) ++ bytes = bytes.toArray := by
  refine Array.ext' ?_
  rw [Array.toList_appendList, List.nil_append, List.toList_toArray]

end Compression

end ModelOperator

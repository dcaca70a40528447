import ModelOperator.Compression.Deflate
import ModelOperator.Proofs.Compression.Fields

/-!
# Where deflated data ends

    A deflated stream says itself where it ends: `inflate` takes as many bits as the stream has,
    whatever follows them.  The only trouble is to see that every round of its loops takes a bit,
    so that the rounds that are granted suffice: a code never has the empty word.

    The last byte of the stream may have bits to spare.  `Unpacks` says that bytes are a stream
    up to those bits, and every byte string has such a stream, of stored blocks. -/

namespace ModelOperator

namespace Compression

/-! ## Codes -/

namespace PrefixCode

/-- The empty word stands for no symbol. -/
def Proper : PrefixCode → Prop
  | .leaf _ => False
  | _ => True

/-- Paired trees are no bare leaves, so that every symbol takes a bit. -/
theorem proper_pairs (trees : List PrefixCode) : ∀ tree ∈ pairs trees, tree.Proper := by
  induction trees using pairs.induct with
  | case1 =>
      intro tree htree
      cases htree
  | case2 a =>
      intro tree htree
      rw [pairs, List.mem_singleton] at htree
      rw [htree]
      trivial
  | case3 a b rest ih =>
      intro tree htree
      rw [pairs] at htree
      rcases List.mem_cons.mp htree with rfl | hrest
      · trivial
      · exact ih tree hrest

/-- A code from lengths is never a bare leaf. -/
theorem proper_ofLengths {order : LevelOrder} {lengths : List Nat} {code : PrefixCode}
    (h : ofLengths order lengths = some code) : code.Proper := by
  rw [ofLengths, ofLevels] at h
  split at h
  · cases h
    trivial
  · rename_i tree hpairs
    cases h
    exact proper_pairs _ _ (hpairs ▸ List.mem_singleton_self _)
  · cases h

/-- A fork takes one bit, and then what the branch takes. -/
theorem isLocal_next_fork {unit : Nat} {zero one : PrefixCode} (hzero : IsLocal unit 0 zero.next)
    (hone : IsLocal unit 0 one.next) : IsLocal unit 1 (fork zero one).next := by
  refine IsLocal.of_cons (by rw [next]) ?_
  intro b
  simp only [next_fork_cons]
  cases b with
  | false => exact hzero
  | true => exact hone

/-- A word is read whatever follows it. -/
theorem isLocal_next (unit : Nat) (code : PrefixCode) : IsLocal unit 0 code.next := by
  induction code with
  | gap => exact Local.of_fails next_gap
  | leaf symbol =>
      have hleaf : (leaf symbol).next = pure symbol := funext fun bits => next_leaf symbol bits
      rw [hleaf]
      exact IsLocal.pure symbol
  | fork zero one ihzero ihone => exact (isLocal_next_fork ihzero ihone).free

/-- A word is a bit at least. -/
theorem Proper.isLocal_next {code : PrefixCode} (h : code.Proper) (unit : Nat) :
    IsLocal unit 1 code.next := by
  cases code with
  | gap => exact Local.of_fails next_gap
  | leaf symbol => cases h
  | fork zero one =>
      exact isLocal_next_fork (PrefixCode.isLocal_next unit zero) (PrefixCode.isLocal_next unit one)

end PrefixCode

namespace Deflate

/-! ## The readers -/

/-- A code of a block is never a bare leaf. -/
theorem proper_code {lengths : List Nat} {code : PrefixCode} (h : code? lengths = some code) :
    code.Proper := by
  obtain ⟨built, hbuilt, hrest⟩ := Option.bind_eq_some_iff.mp h
  obtain ⟨-, -, hcode⟩ := Option.bind_eq_some_iff.mp hrest
  cases hcode
  exact PrefixCode.proper_ofLengths hbuilt

/-- The code lengths are read from their own bits alone, with any fuel. -/
theorem isLocal_readLengths (unit : Nat) (code : PrefixCode) (size fuel : Nat) (got : List Nat) :
    IsLocal unit 0 (readLengths code size fuel got) := by
  induction fuel generalizing got with
  | zero => exact IsLocal.failure
  | succ fuel ih =>
      unfold readLengths
      split
      · exact IsLocal.pure got
      · refine (IsLocal.lift _).bind ?_
        intro _
        refine (PrefixCode.isLocal_next unit code).bind ?_
        intro symbol
        split
        · split
          · exact IsLocal.failure
          · exact (isLocal_readLow unit 2).free.bind fun n => ih _
        · exact (isLocal_readLow unit 3).free.bind fun n => ih _
        · exact (isLocal_readLow unit 7).free.bind fun n => ih _
        · exact ih _

/-- Both codes of a block are read from their own bits alone. -/
theorem isLocal_readCodes (unit : Nat) : IsLocal unit 0 readCodes := by
  unfold readCodes
  refine (isLocal_readLow unit 5).free.bind fun symbols => ?_
  refine (isLocal_readLow unit 5).free.bind fun distances => ?_
  refine (isLocal_readLow unit 4).free.bind fun sent => ?_
  refine (IsLocal.lift _).bind fun _ => ?_
  refine (IsLocal.mapM (fun _ => (isLocal_readLow unit 3).free) _).bind fun lengths => ?_
  refine (IsLocal.lift _).bind fun code => ?_
  refine (IsLocal.lift _).bind fun _ => ?_
  refine (isLocal_readLengths unit code _ _ []).bind fun all => ?_
  refine (IsLocal.lift _).bind fun symbols => ?_
  refine (IsLocal.lift _).bind fun distances => ?_
  exact IsLocal.pure _

/-- The fixed code of the symbols is no bare leaf. -/
theorem proper_fixedCodes (codes : Codes) (h : fixedCodes = some codes) :
    codes.symbols.Proper := by
  unfold fixedCodes at h
  obtain ⟨symbols, hsymbols, hrest⟩ := Option.bind_eq_some_iff.mp h
  obtain ⟨distances, -, hcodes⟩ := Option.bind_eq_some_iff.mp hrest
  cases hcodes
  exact proper_code hsymbols

/-- Neither is any code that a block brings with it. -/
theorem proper_readCodes : Returns readCodes fun codes => codes.symbols.Proper := by
  unfold readCodes
  iterate 8 refine Returns.last fun _ => ?_
  refine (Returns.lift fun _ => proper_code).bind fun symbols hsymbols => ?_
  refine Returns.last fun distances => ?_
  exact Returns.pure hsymbols

/-- The length of a copy is read from its own bits alone. -/
theorem isLocal_readCopyLength (unit symbol : Nat) : IsLocal unit 0 (readCopyLength symbol) := by
  unfold readCopyLength
  refine (IsLocal.lift _).bind fun _ => ?_
  split
  · exact IsLocal.pure _
  · split
    · exact IsLocal.pure _
    · exact (isLocal_readLow unit _).free.bind fun n => IsLocal.pure _

/-- The distance of a copy is read from its own bits alone. -/
theorem isLocal_readDistance (unit symbol : Nat) : IsLocal unit 0 (readDistance symbol) := by
  unfold readDistance
  refine (IsLocal.lift _).bind fun _ => ?_
  split
  · exact IsLocal.pure _
  · exact (isLocal_readLow unit _).free.bind fun n => IsLocal.pure _

/-- Every symbol is a round, and takes a bit. -/
theorem local_readSymbols {codes : Codes} (h : codes.symbols.Proper) (unit rounds : Nat)
    (out : Array UInt8) : Local unit 0 (fun n => readSymbols codes n out) rounds := by
  induction rounds generalizing out with
  | zero => exact Local.of_fails fun _ => rfl
  | succ rounds ih =>
      refine Local.succ ?_
      simp only [readSymbols]
      -- the word of the symbol pays for the round: it is not empty
      refine (h.isLocal_next unit).family.bind ?_
      intro _ symbol _ _
      split
      · exact ih _
      · split
        · exact (IsLocal.pure out).family
        · refine (isLocal_readCopyLength unit symbol).family.bind fun _ length _ _ => ?_
          refine (PrefixCode.isLocal_next unit codes.distances).family.bind fun _ word _ _ => ?_
          refine (isLocal_readDistance unit word).family.bind fun _ distance _ _ => ?_
          exact ih _

/-- A stored block is read from its own bits alone, up to the padding before its length. -/
theorem isLocal_readStored (out : Array UInt8) : IsLocal 8 0 (readStored out) := by
  unfold readStored
  refine isLocal_alignByte.bind fun _ => ?_
  refine (isLocal_readLow 8 16).free.bind fun length => ?_
  refine (isLocal_readLow 8 16).free.bind fun check => ?_
  refine (IsLocal.lift _).bind fun _ => ?_
  exact (isLocal_readBits 8 _).free.bind fun bits => IsLocal.pure _

/-- A block is read from its own bits alone, of which there are two or more. -/
theorem isLocal_readBlock (out : Array UInt8) : IsLocal 8 2 (readBlock out) := by
  unfold readBlock
  refine isLocal_bitsLeft fun rounds => ?_
  refine (isLocal_readLow 8 2).family.bind fun _ kind _ _ => ?_
  split
  · exact (isLocal_readStored out).family
  · refine (IsLocal.lift fixedCodes).family.bind fun all codes rest h => ?_
    have hproper : codes.symbols.Proper := Returns.lift proper_fixedCodes all codes rest h
    exact (local_readSymbols hproper 8 (rounds + 1) out).shift
  · refine (isLocal_readCodes 8).family.bind fun all codes rest h => ?_
    have hproper : codes.symbols.Proper := proper_readCodes all codes rest h
    exact (local_readSymbols hproper 8 (rounds + 1) out).shift
  · exact IsLocal.failure.family

/-- Every block is a round, and takes a bit. -/
theorem local_readBlocks (rounds : Nat) (out : Array UInt8) :
    Local 8 0 (fun n => readBlocks n out) rounds := by
  induction rounds generalizing out with
  | zero => exact Local.of_fails fun _ => rfl
  | succ rounds ih =>
      refine Local.succ ?_
      simp only [readBlocks]
      refine (isLocal_readLow 8 1).family.bind fun _ last _ _ => ?_
      refine (isLocal_readBlock out).free.family.bind fun _ out _ _ => ?_
      split
      · exact (IsLocal.pure out).family
      · exact ih out

/-- A deflated stream is read whatever follows it. -/
theorem isLocal_inflate : IsLocal 8 0 inflate :=
  isLocal_bitsLeft fun rounds => (local_readBlocks (rounds + 1) #[]).shift

/-! ## Streams -/

/-- The bytes are a deflated stream of the content, up to bits to spare in the last one. -/
def Unpacks (packed content : List UInt8) : Prop :=
  ∃ spare, spare.length < 8 ∧ inflate (bitsOf packed) = some (content.toArray, spare)

/-- The whole bytes that a reader of bits leaves are those behind a stream. -/
theorem inflate_iff {data content more : List UInt8} :
    (∃ unpacked left, inflate (bitsOf data) = some (unpacked, left) ∧
      unpacked.toList = content ∧ bytesOf (left.drop (left.length % 8)) = more) ↔
      ∃ packed, data = packed ++ more ∧ Unpacks packed content := by
  constructor
  · rintro ⟨unpacked, left, h, rfl, rfl⟩
    obtain ⟨used, hbits, -, htakes⟩ := isLocal_inflate.stretch h
    obtain ⟨packed, more, spare, rfl, rfl, hspare, hpacked⟩ := exists_bitsOf_back hbits
    have hlength : spare.length % 8 = (spare ++ bitsOf more).length % 8 := by
      rw [List.length_append, length_bitsOf]
      omega
    refine ⟨packed, ?_, spare, hspare, ?_⟩
    · rw [drop_spare hspare, bytesOf_bitsOf]
    · rw [hpacked]
      exact htakes spare hlength
  · rintro ⟨packed, rfl, spare, hspare, h⟩
    obtain ⟨used, hbits, -, htakes⟩ := isLocal_inflate.stretch h
    have hlength : (spare ++ bitsOf more).length % 8 = spare.length % 8 := by
      rw [List.length_append, length_bitsOf]
      omega
    refine ⟨content.toArray, spare ++ bitsOf more, ?_, List.toList_toArray, ?_⟩
    · rw [bitsOf_append, hbits, List.append_assoc]
      exact htakes _ hlength
    · rw [drop_spare hspare, bytesOf_bitsOf]

/-! ## Stored blocks -/

/-- A block of bytes as they are. -/
def storedBlock (last : Bool) (chunk : List UInt8) : List UInt8 :=
  UInt8.ofNat last.toNat ::
    (numberField 2 chunk.length ++ numberField 2 (65535 - chunk.length) ++ chunk)

theorem byteBits_last (last : Bool) :
    byteBits (UInt8.ofNat last.toNat) = [last] ++ ([false, false] ++ List.replicate 5 false) := by
  cases last <;> rfl

/-- A chunk of up to 65535 bytes is read back out of its stored block. -/
theorem readStored_chunk {chunk : List UInt8} (h : chunk.length ≤ 65535) (out : Array UInt8)
    (rest : List UInt8) :
    readStored out (List.replicate 5 false ++ bitsOf (numberField 2 chunk.length ++
      (numberField 2 (65535 - chunk.length) ++ (chunk ++ rest)))) =
      some (out ++ chunk, bitsOf rest) := by
  have hsize : littleEndian (numberField 2 chunk.length) = chunk.length :=
    littleEndian_numberField 2 _ (by omega)
  have hcheck : littleEndian (numberField 2 (65535 - chunk.length)) = 65535 - chunk.length :=
    littleEndian_numberField 2 _ (by omega)
  have hbytes : readBits (8 * chunk.length) (bitsOf (chunk ++ rest)) =
      some (bitsOf chunk, bitsOf rest) := by
    rw [bitsOf_append]
    exact readBits_append (length_bitsOf chunk) _
  unfold readStored
  rw [bind_of_read (alignByte_spare (by decide) _),
    bind_of_read (readLow_bitsOf (by rw [length_numberField]) _), hsize,
    bind_of_read (readLow_bitsOf (by rw [length_numberField]) _), hcheck,
    demand_pos (by omega), bind_of_lift, bind_of_read hbytes, bytesOf_bitsOf]
  rfl

/-- A stored block is one round. -/
theorem readBlocks_storedBlock (last : Bool) {chunk : List UInt8} (h : chunk.length ≤ 65535)
    (n : Nat) (out : Array UInt8) (rest : List UInt8) :
    readBlocks (n + 1) out (bitsOf (storedBlock last chunk ++ rest)) =
      if last then some (out ++ chunk, bitsOf rest)
      else readBlocks n (out ++ chunk) (bitsOf rest) := by
  have hblock : readBlock out ([false, false] ++ (List.replicate 5 false ++
      bitsOf (numberField 2 chunk.length ++ (numberField 2 (65535 - chunk.length) ++
        (chunk ++ rest))))) = some (out ++ chunk, bitsOf rest) := by
    have hkind : [false, false].length = 2 := rfl
    rw [readBlock, bind_of_read (bitsLeft_eq _), bind_of_read (readLow_append hkind _)]
    exact readStored_chunk h out rest
  have hlast : [last].length = 1 := rfl
  rw [readBlocks, storedBlock, List.cons_append, bitsOf_cons, byteBits_last, List.append_assoc,
    List.append_assoc, List.append_assoc, List.append_assoc,
    bind_of_read (readLow_append hlast _), bind_of_read hblock]
  cases last with
  | false => rfl
  | true => rfl

/-- Blocks that a reader takes in some rounds are a stream. -/
theorem unpacks_of_readBlocks {packed content : List UInt8} {rounds : Nat}
    (h : readBlocks rounds #[] (bitsOf packed) = some (content.toArray, [])) :
    Unpacks packed content := by
  obtain ⟨used, hused, -, htakes⟩ := local_readBlocks rounds #[] _ _ _ h
  have henough : inflate (used ++ []) = some (content.toArray, []) :=
    htakes [] _ rfl (by rw [List.length_append]; omega)
  rw [← hused] at henough
  exact ⟨[], by decide, henough⟩

/-- A single stored block unpacks to what it holds. -/
theorem unpacks_storedBlock {content : List UInt8} (h : content.length ≤ 65535) :
    Unpacks (storedBlock true content) content := by
  have hblock := readBlocks_storedBlock true h 0 #[] []
  rw [List.append_nil, if_pos rfl, empty_append_list] at hblock
  exact unpacks_of_readBlocks hblock

/-- Every byte string has a deflated stream. -/
theorem exists_unpacks (content : List UInt8) : ∃ packed, Unpacks packed content := by
  obtain ⟨packed, rounds, h⟩ := exists_blocks (by decide)
    (fun rounds out packed => readBlocks rounds out (bitsOf packed))
    (fun last chunk n out rest hchunk => readBlocks_storedBlock last hchunk n out rest) content #[]
  rw [empty_append_list] at h
  exact ⟨packed, unpacks_of_readBlocks h⟩

end Deflate

end Compression

end ModelOperator

import ModelOperator.Compression.Zstd.Frame
import ModelOperator.Proofs.Compression.Fields

/-!
# Zstd frames, one after the other

    A frame is read from a stretch of its own, whatever follows it (`isLocal_readOne`), and the
    next frame starts behind that stretch.  So an input is unpacked exactly if it is one frame or
    more and nothing else (`decode_iff`).  Every byte string has a frame, of raw blocks. -/

namespace ModelOperator

namespace Compression

namespace Zstd

/-! ## The readers -/

/-- A frame header is read from its own bytes alone. -/
theorem isLocal_parseHeader : IsLocal 1 1 parseHeader := by
  refine IsLocal.of_cons rfl ?_
  intro descriptor
  unfold parseHeader
  refine IsLocal.outcome fun _ => ?_
  refine (isLocal_readField _).free.pairs fun window => ?_
  refine (isLocal_readField _).free.pairs fun dictionary => ?_
  refine (isLocal_readField _).free.pairs fun size => ?_
  refine IsLocal.outcome fun _ => ?_
  refine IsLocal.outcome fun _ => ?_
  exact IsLocal.pure _

/-- Every block is a round, and takes three bytes or more. -/
theorem local_readFrameBlocks (limit rounds : Nat) (memory : Memory) (out : Array UInt8) :
    Local 1 0 (fun n => readFrameBlocks limit n memory out) rounds := by
  induction rounds generalizing memory out with
  | zero => exact Local.of_fails fun _ => rfl
  | succ rounds ih =>
      have hnext : ∀ (header : List UInt8) (memory : Memory) (out : Array UInt8),
          Local 1 0 (fun n rest => if littleEndian header % 2 = 1 then some (out, rest)
            else readFrameBlocks limit n memory out rest) rounds := by
        intro header memory out
        by_cases hlast : littleEndian header % 2 = 1
        · simp only [if_pos hlast]
          exact (IsLocal.pure out).family
        · simp only [if_neg hlast]
          exact ih memory out
      -- the three bytes of its header pay for the round of a block, even if it holds nothing
      have hblock : Local 1 3 (fun n bytes => readFrameBlocks limit (n + 1) memory out bytes)
          rounds := by
        unfold readFrameBlocks
        refine (isLocal_readField 3).family.pairs fun header => ?_
        refine Local.outcome fun _ => ?_
        dsimp only
        split
        · refine (isLocal_readField _).free.family.pairs fun block => ?_
          exact hnext header memory (out ++ block)
        · refine (isLocal_readField _).free.family.pairs fun block => ?_
          exact hnext header memory
            (out ++ List.replicate (littleEndian header / 8) (block.headD 0))
        · refine (isLocal_readField _).free.family.pairs fun block => ?_
          refine Local.outcome (o := codedBlock limit memory out block) fun coded => ?_
          exact hnext header coded.2 coded.1
        · exact IsLocal.failure.family
      exact Local.succ (hblock.mono (by decide))

/-- A frame is read from its own bytes alone. -/
theorem isLocal_readFrame : IsLocal 1 0 readFrame := by
  unfold readFrame
  refine isLocal_parseHeader.free.pairs fun header => ?_
  have hblocks : IsLocal 1 0 (fun rest => readFrameBlocks (min header.window largestBlock)
    (rest.length + 1) Memory.empty #[] rest) :=
    IsLocal.of_length fun rounds => (local_readFrameBlocks _ (rounds + 1) Memory.empty #[]).shift
  refine hblocks.pairs fun out => ?_
  refine IsLocal.outcome fun _ => ?_
  cases header.checked with
  | false => exact IsLocal.pure _
  | true =>
    refine (isLocal_readField 4).free.pairs fun check => ?_
    refine IsLocal.outcome fun _ => ?_
    exact IsLocal.pure _

/-- The reader that passes over a frame. -/
theorem isLocal_skipFrame :
    IsLocal 1 0 (fun bytes => (skipFrame bytes).map fun rest => (([] : List UInt8), rest)) := by
  unfold skipFrame
  simp only [Option.bind_eq_bind, Option.map_bind]
  refine (isLocal_readField 4).free.pairs fun size => ?_
  simp only [Function.comp_apply, Option.map_bind]
  refine (isLocal_readField _).free.pairs fun field => ?_
  exact IsLocal.pure _

/-- One frame. -/
def readOne (bytes : List UInt8) : Option (List UInt8 × List UInt8) := do
  let (magic, rest) ← takeExact 4 bytes
  let magic := littleEndian magic
  if magic = 0xFD2FB528 then readFrame rest
  else if magic / 16 = 0x184D2A5 then (skipFrame rest).map fun rest => ([], rest)
  else none

/-- The next frame is read from its own bytes alone, the magic number among them. -/
theorem isLocal_readOne : IsLocal 1 4 readOne := by
  unfold readOne
  refine (isLocal_readField 4).pairs fun magic => ?_
  by_cases hframe : littleEndian magic = 0xFD2FB528
  · simp only [if_pos hframe]
    exact isLocal_readFrame
  · simp only [if_neg hframe]
    by_cases hskip : littleEndian magic / 16 = 0x184D2A5
    · simp only [if_pos hskip]
      exact isLocal_skipFrame
    · simp only [if_neg hskip]
      exact IsLocal.failure

/-- One frame after the other. -/
theorem readFrames_succ (n : Nat) (bytes : List UInt8) :
    readFrames (n + 1) bytes = (do
      let (content, rest) ← readOne bytes
      if rest.isEmpty then return content else return content ++ (← readFrames n rest)) := by
  rw [readFrames, readOne]
  cases takeExact 4 bytes with
  | none => rfl
  | some p =>
      show (if littleEndian p.1 = 0xFD2FB528 then _ else _) =
        (if littleEndian p.1 = 0xFD2FB528 then _ else _) >>= _
      by_cases hframe : littleEndian p.1 = 0xFD2FB528
      · rw [if_pos hframe, if_pos hframe]
      · rw [if_neg hframe, if_neg hframe]
        by_cases hskip : littleEndian p.1 / 16 = 0x184D2A5
        · rw [if_pos hskip, if_pos hskip]
        · rw [if_neg hskip, if_neg hskip]

/-! ## Frames -/

/-- A frame and what it unpacks to; a frame to be skipped unpacks to nothing. -/
structure Frame where
  packed : List UInt8
  content : List UInt8
  reads : readOne packed = some (content, [])

/-- No frame is shorter than its magic number. -/
theorem Frame.four_le_length (f : Frame) : 4 ≤ f.packed.length := by
  obtain ⟨used, hused, hlength, -⟩ := isLocal_readOne.stretch f.reads
  rw [hused, List.append_nil]
  exact hlength

/-- A frame is read whatever follows it. -/
theorem readOne_iff {bytes content rest : List UInt8} :
    readOne bytes = some (content, rest) ↔
      ∃ f : Frame, bytes = f.packed ++ rest ∧ f.content = content := by
  constructor
  · intro h
    obtain ⟨used, rfl, -, htakes⟩ := isLocal_readOne.stretch h
    have hused : readOne (used ++ []) = some (content, []) :=
      htakes [] (by rw [Nat.mod_one, Nat.mod_one])
    rw [List.append_nil] at hused
    exact ⟨⟨used, content, hused⟩, rfl, rfl⟩
  · rintro ⟨f, rfl, rfl⟩
    obtain ⟨used, hused, -, htakes⟩ := isLocal_readOne.stretch f.reads
    rw [hused, List.append_nil]
    exact htakes rest (by rw [Nat.mod_one, Nat.mod_one])

/-- What is read as frames is frames, one after the other with nothing between or behind them. -/
theorem frames_of_readFrames {n : Nat} {bytes out : List UInt8}
    (h : readFrames n bytes = some out) :
    ∃ frames : List Frame, frames ≠ [] ∧ bytes = frames.flatMap Frame.packed ∧
      out = frames.flatMap Frame.content := by
  induction n generalizing bytes out with
  | zero => cases h
  | succ n ih =>
      rw [readFrames_succ] at h
      obtain ⟨⟨content, rest⟩, hone, h⟩ := Option.bind_eq_some_iff.mp h
      obtain ⟨f, rfl, rfl⟩ := readOne_iff.mp hone
      cases rest with
      | nil =>
          cases h
          refine ⟨[f], List.cons_ne_nil _ _, ?_, ?_⟩
          · rw [List.flatMap_singleton, List.append_nil]
          · rw [List.flatMap_singleton]
      | cons b behind =>
          obtain ⟨more, hmore, h⟩ := Option.bind_eq_some_iff.mp h
          cases h
          obtain ⟨frames, -, hpacked, hcontent⟩ := ih hmore
          refine ⟨f :: frames, List.cons_ne_nil _ _, ?_, ?_⟩
          · rw [List.flatMap_cons, hpacked]
          · rw [List.flatMap_cons, hcontent]

/-- Frames one after the other are read whole, in more rounds than they have bytes. -/
theorem readFrames_frames {n : Nat} {frames : List Frame} (hframes : frames ≠ [])
    (hn : (frames.flatMap Frame.packed).length < n) :
    readFrames n (frames.flatMap Frame.packed) = some (frames.flatMap Frame.content) := by
  induction frames generalizing n with
  | nil => exact absurd rfl hframes
  | cons f rest ih =>
      have hlength := f.four_le_length
      rw [List.flatMap_cons, List.length_append] at hn
      obtain ⟨n, rfl⟩ : ∃ m, n = m + 1 := ⟨n - 1, by omega⟩
      rw [List.flatMap_cons, List.flatMap_cons, readFrames_succ, readOne_iff.mpr ⟨f, rfl, rfl⟩]
      cases rest with
      | nil =>
          rw [List.flatMap_nil, List.flatMap_nil, List.append_nil]
          rfl
      | cons g others =>
          have hmore : ¬ ((g :: others).flatMap Frame.packed).isEmpty = true := by
            have hg := g.four_le_length
            rw [List.isEmpty_iff, List.flatMap_cons]
            intro hnil
            rw [List.append_eq_nil_iff] at hnil
            rw [hnil.1, List.length_nil] at hg
            omega
          have hrest := ih (List.cons_ne_nil g others) (n := n) (by omega)
          show (if ((g :: others).flatMap Frame.packed).isEmpty then some f.content else
            (readFrames n ((g :: others).flatMap Frame.packed)).bind fun more =>
              some (f.content ++ more)) = _
          rw [if_neg hmore, hrest]
          rfl

/-- The input is one frame or more, one after the other, and what is unpacked is what they unpack
    to, in order. -/
theorem decode_iff {bytes out : List UInt8} :
    decode bytes = some out ↔ ∃ frames : List Frame, frames ≠ [] ∧
      bytes = frames.flatMap Frame.packed ∧ out = frames.flatMap Frame.content := by
  constructor
  · exact frames_of_readFrames
  · rintro ⟨frames, hframes, rfl, rfl⟩
    exact readFrames_frames hframes (Nat.lt_succ_self _)

/-! ## Raw blocks -/

/-- A block of bytes as they are. -/
def rawBlock (last : Bool) (chunk : List UInt8) : List UInt8 :=
  numberField 3 (last.toNat + 8 * chunk.length) ++ chunk

/-- A raw block is one round. -/
theorem readFrameBlocks_rawBlock (last : Bool) {chunk : List UInt8}
    (h : chunk.length ≤ largestBlock) (n : Nat) (memory : Memory) (out : Array UInt8)
    (rest : List UInt8) :
    readFrameBlocks largestBlock (n + 1) memory out (rawBlock last chunk ++ rest) =
      if last then some (out ++ chunk, rest)
      else readFrameBlocks largestBlock n memory (out ++ chunk) rest := by
  have hlast : last.toNat ≤ 1 := Bool.toNat_le last
  have hsmall : last.toNat + 8 * chunk.length < 256 ^ 3 := by
    have hlargest : largestBlock = 131072 := rfl
    omega
  have hnumber := littleEndian_numberField 3 _ hsmall
  have hsize : (last.toNat + 8 * chunk.length) / 8 = chunk.length := by omega
  have hkind : (last.toNat + 8 * chunk.length) / 2 % 4 = 0 := by omega
  have hend : (last.toNat + 8 * chunk.length) % 2 = last.toNat := by omega
  have hchunk : takeExact chunk.length (chunk ++ rest) = some (chunk, rest) :=
    takeExact_append rfl rest
  rw [readFrameBlocks, rawBlock, List.append_assoc, takeExact_append (length_numberField 3 _)]
  show (demand (littleEndian (numberField 3 _) / 8 ≤ largestBlock) >>= _) = _
  rw [hnumber, hsize, hkind, hend, demand_pos h, hchunk]
  cases last with
  | false => rfl
  | true => rfl

/-- The start of a frame with the largest blocks, which says nothing more. -/
def plainStart : List UInt8 := [0x28, 0xB5, 0x2F, 0xFD, 0, 56]

/-- Blocks that a reader takes in some rounds make a frame. -/
theorem readOne_plainStart {packed content : List UInt8} {rounds : Nat}
    (h : readFrameBlocks largestBlock rounds Memory.empty #[] packed =
      some (content.toArray, [])) : readOne (plainStart ++ packed) = some (content, []) := by
  obtain ⟨used, hused, -, htakes⟩ := local_readFrameBlocks _ rounds Memory.empty #[] _ _ _ h
  have hheader : parseHeader (0 :: 56 :: packed) = some (⟨largestBlock, none, false⟩, packed) := by
    refine bind_demand_iff.mpr ⟨by decide, ?_⟩
    refine bind_takeExact_iff.mpr ⟨[56], packed, rfl, rfl, ?_⟩
    refine bind_takeExact_iff.mpr ⟨[], packed, rfl, rfl, ?_⟩
    refine bind_takeExact_iff.mpr ⟨[], packed, rfl, rfl, ?_⟩
    exact bind_demand_iff.mpr ⟨rfl, bind_demand_iff.mpr ⟨by decide, rfl⟩⟩
  have hblocks : readFrameBlocks largestBlock (packed.length + 1) Memory.empty #[] packed =
      some (content.toArray, []) := by
    have henough : readFrameBlocks largestBlock (packed.length + 1) Memory.empty #[] (used ++ []) =
        some (content.toArray, []) := htakes [] _ rfl (by rw [hused, List.length_append]; omega)
    rw [← hused] at henough
    exact henough
  have hframe : readFrame (0 :: 56 :: packed) = some (content, []) := by
    refine Option.bind_eq_some_iff.mpr ⟨_, hheader, ?_⟩
    refine Option.bind_eq_some_iff.mpr ⟨_, hblocks, ?_⟩
    exact bind_demand_iff.mpr ⟨rfl, rfl⟩
  have hmagic : littleEndian [0x28, 0xB5, 0x2F, 0xFD] = 0xFD2FB528 := by decide
  refine bind_takeExact_iff.mpr ⟨[0x28, 0xB5, 0x2F, 0xFD], 0 :: 56 :: packed, rfl, rfl, ?_⟩
  exact (if_pos hmagic).trans hframe

theorem readOne_rawBlock {content : List UInt8} (h : content.length ≤ largestBlock) :
    readOne (plainStart ++ rawBlock true content) = some (content, []) := by
  have hblock := readFrameBlocks_rawBlock true h 0 Memory.empty #[] []
  rw [List.append_nil, if_pos rfl, empty_append_list] at hblock
  exact readOne_plainStart hblock

/-- A frame that stores its content as it is. -/
def rawFrame (content : List UInt8) (h : content.length ≤ largestBlock) : Frame where
  packed := plainStart ++ rawBlock true content
  content := content
  reads := readOne_rawBlock h

/-- Every byte string is the content of a frame. -/
theorem exists_frame (content : List UInt8) : ∃ f : Frame, f.content = content := by
  obtain ⟨packed, rounds, h⟩ := exists_blocks (by decide)
    (fun rounds out packed => readFrameBlocks largestBlock rounds Memory.empty out packed)
    (fun last chunk n out rest hchunk =>
      readFrameBlocks_rawBlock last hchunk n Memory.empty out rest) content #[]
  rw [empty_append_list] at h
  exact ⟨⟨plainStart ++ packed, content, readOne_plainStart h⟩, rfl⟩

end Zstd

end Compression

end ModelOperator

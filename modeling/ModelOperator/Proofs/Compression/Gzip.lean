import Mathlib.Data.List.TakeDrop
import ModelOperator.Compression.Gzip
import ModelOperator.Proofs.Compression.Deflate

/-!
# Gzip members

    `Header.bytes` and `Member.bytes` write a member down field by field, as the format lays
    them out; the parts of a header and of a member carry what the format asks of them.  What is
    unpacked is the content of the member that the input starts with, if it starts with one
    (`decode_iff`).  The bytes behind that member are not looked at. -/

namespace ModelOperator

namespace Compression

namespace Gzip

/-! ## Headers -/

/-- The bytes fit into an extra field. -/
def IsExtra (field : List UInt8) : Prop := field.length < 65536

/-- The bytes are a text that a header may hold. -/
def IsText (text : List UInt8) : Prop := 0 ∉ text ∧ text.length ≤ longestText

/-- An extra field behind its size. -/
def extraBytes (field : List UInt8) : List UInt8 := numberField 2 field.length ++ field

/-- A text and the zero byte that ends it. -/
def textBytes (text : List UInt8) : List UInt8 := text ++ [0]

/-- The flags of a header: whether its content is text, whether the header is checked, and which
    fields it has. -/
def flagByte (isText checked extra name comment : Bool) : UInt8 :=
  UInt8.ofNat (isText.toNat + 2 * checked.toNat + 4 * extra.toNat + 8 * name.toNat +
    16 * comment.toNat)

/-- The header of a member; its stamp is the time, the effort and the system of the one who
    wrote it. -/
structure Header where
  isText : Bool
  stamp : List UInt8
  extra : Option (List UInt8)
  name : Option (List UInt8)
  comment : Option (List UInt8)
  checked : Bool
  length_stamp : stamp.length = 6
  isExtra : ∀ field ∈ extra, IsExtra field
  isText_name : ∀ text ∈ name, IsText text
  isText_comment : ∀ text ∈ comment, IsText text

def Header.flags (header : Header) : UInt8 :=
  flagByte header.isText header.checked header.extra.isSome header.name.isSome
    header.comment.isSome

/-- A header up to its check value. -/
def Header.opening (header : Header) : List UInt8 :=
  [0x1f, 0x8b, 8, header.flags] ++ header.stamp ++ (header.extra.elim [] extraBytes ++
    (header.name.elim [] textBytes ++ header.comment.elim [] textBytes))

/-- The low half of the check value of what stands before it. -/
def Header.check (header : Header) : List UInt8 :=
  if header.checked then numberField 2 (Crc32.ofBytes header.opening % 65536) else []

def Header.bytes (header : Header) : List UInt8 := header.opening ++ header.check

/-! ## Skipping a header -/

/-- The extra field is skipped exactly if it is written in full: its length in two bytes, then its
    bytes. -/
theorem skipExtra_iff {bytes rest : List UInt8} :
    skipExtra bytes = some rest ↔ ∃ field, IsExtra field ∧ bytes = extraBytes field ++ rest := by
  rw [skipExtra, bind_takeExact_iff]
  constructor
  · rintro ⟨size, behind, hwidth, rfl, h⟩
    obtain ⟨field, last, hlength, rfl, hlast⟩ := bind_takeExact_iff.mp h
    cases hlast
    have hlt := littleEndian_lt size
    rw [hwidth, ← hlength] at hlt
    have hsize := (eq_numberField_iff hlt).mpr ⟨hwidth, hlength.symm⟩
    refine ⟨field, hlt, ?_⟩
    rw [extraBytes, ← hsize, List.append_assoc]
  · rintro ⟨field, hfield, rfl⟩
    have hsmall : field.length < 256 ^ 2 := hfield
    obtain ⟨hwidth, hlength⟩ := (eq_numberField_iff hsmall).mp rfl
    refine ⟨numberField 2 field.length, field ++ rest, hwidth, List.append_assoc .., ?_⟩
    exact bind_takeExact_iff.mpr ⟨field, rest, hlength.symm, rfl, rfl⟩

/-- A text of the header is skipped exactly up to its closing zero byte. -/
theorem skipText_iff {bytes rest : List UInt8} :
    skipText bytes = some rest ↔ ∃ text, IsText text ∧ bytes = textBytes text ++ rest := by
  constructor
  · intro h
    rw [skipText, List.span_eq_takeWhile_dropWhile] at h
    split at h
    · rename_i text behind hspan
      split at h
      · rename_i hlength
        cases h
        obtain ⟨rfl, hbehind⟩ := Prod.mk.inj hspan
        refine ⟨_, ⟨?_, hlength⟩, ?_⟩
        · intro hzero
          have hpass := List.all_eq_true.mp (List.all_takeWhile (p := (· != 0))) 0 hzero
          exact Bool.false_ne_true hpass
        · rw [textBytes, List.append_assoc, List.singleton_append, ← hbehind,
            List.takeWhile_append_dropWhile]
      · cases h
    · cases h
  · rintro ⟨text, ⟨hzero, hlength⟩, rfl⟩
    have hpass : ∀ b ∈ text, (b != 0) = true := by
      intro b hb
      exact bne_iff_ne.mpr fun h => hzero (h ▸ hb)
    have htake : (textBytes text ++ rest).takeWhile (· != 0) = text := by
      rw [textBytes, List.append_assoc, List.takeWhile_append_of_pos hpass]
      exact List.append_nil text
    have hdrop : (textBytes text ++ rest).dropWhile (· != 0) = 0 :: rest := by
      rw [textBytes, List.append_assoc, List.dropWhile_append_of_pos hpass]
      rfl
    rw [skipText, List.span_eq_takeWhile_dropWhile, htake, hdrop]
    exact if_pos hlength

/-- A field that a flag asks for, and what its rest gives. -/
theorem bind_optional_iff {skip : List UInt8 → Option (List UInt8)} {Fits : List UInt8 → Prop}
    {written : List UInt8 → List UInt8}
    (hskip : ∀ {bytes rest}, skip bytes = some rest ↔
      ∃ field, Fits field ∧ bytes = written field ++ rest)
    {flag : Bool} {bytes rest : List UInt8} {k : List UInt8 → Option (List UInt8)} :
    (if flag then skip bytes >>= k else some bytes >>= k) = some rest ↔
      ∃ (o : Option (List UInt8)) (behind : List UInt8), o.isSome = flag ∧
        (∀ field ∈ o, Fits field) ∧ bytes = o.elim [] written ++ behind ∧ k behind = some rest := by
  constructor
  · intro h
    cases flag with
    | false =>
        refine ⟨none, bytes, rfl, ?_, rfl, h⟩
        intro field hfield
        cases hfield
    | true =>
        obtain ⟨behind, hbehind, hk⟩ := Option.bind_eq_some_iff.mp h
        obtain ⟨field, hfits, hbytes⟩ := hskip.mp hbehind
        refine ⟨some field, behind, rfl, ?_, hbytes, hk⟩
        intro other hother
        cases hother
        exact hfits
  · rintro ⟨o, behind, rfl, hfits, rfl, hk⟩
    cases o with
    | none => exact hk
    | some field =>
        exact Option.bind_eq_some_iff.mpr ⟨behind, hskip.mpr ⟨field, hfits field rfl, rfl⟩, hk⟩

/-- The checksum of the header is skipped exactly if it is the low half of the checksum of all the
    bytes before it. -/
theorem skipHeaderCheck_iff {opening bytes rest : List UInt8} :
    skipHeaderCheck (opening ++ bytes) bytes = some rest ↔
      bytes = numberField 2 (Crc32.ofBytes opening % 65536) ++ rest := by
  have hopening : (opening ++ bytes).take ((opening ++ bytes).length - bytes.length) = opening := by
    rw [List.length_append, Nat.add_sub_cancel, List.take_left]
  have hsmall : Crc32.ofBytes opening % 65536 < 256 ^ 2 := Nat.mod_lt _ (by decide)
  rw [skipHeaderCheck, hopening, bind_takeExact_iff]
  constructor
  · rintro ⟨check, behind, hwidth, rfl, h⟩
    obtain ⟨hcheck, hbehind⟩ := bind_demand_iff.mp h
    cases hbehind
    rw [(eq_numberField_iff hsmall).mpr ⟨hwidth, hcheck⟩]
  · rintro rfl
    obtain ⟨hwidth, hcheck⟩ := (eq_numberField_iff hsmall).mp rfl
    exact ⟨_, rest, hwidth, rfl, bind_demand_iff.mpr ⟨hcheck, rfl⟩⟩

/-- The flags are those of a byte. -/
theorem testBit_flagByte (isText checked extra name comment : Bool) :
    let flags := (flagByte isText checked extra name comment).toNat
    flags < 32 ∧ flags.testBit 1 = checked ∧ flags.testBit 2 = extra ∧ flags.testBit 3 = name ∧
      flags.testBit 4 = comment := by
  revert isText checked extra name comment
  decide

/-- Every flag byte without a reserved bit is the flags of some header. -/
theorem exists_flagByte {b : UInt8} (h : b.toNat < 32) :
    ∃ isText, flagByte isText (b.toNat.testBit 1) (b.toNat.testBit 2) (b.toNat.testBit 3)
      (b.toNat.testBit 4) = b := by
  have hall : ∀ n < 32, flagByte (n.testBit 0) (n.testBit 1) (n.testBit 2) (n.testBit 3)
    (n.testBit 4) = UInt8.ofNat n := by decide
  refine ⟨b.toNat.testBit 0, ?_⟩
  rw [hall b.toNat h, UInt8.ofNat_toNat]

/-- The first ten bytes of a member. -/
theorem fixed_iff {fixed : List UInt8} :
    fixed.length = 10 ∧ fixed.take 3 = [0x1f, 0x8b, 8] ↔
      ∃ flags stamp, stamp.length = 6 ∧ fixed = [0x1f, 0x8b, 8, flags] ++ stamp := by
  constructor
  · rintro ⟨hlength, hmagic⟩
    match fixed, hlength, hmagic with
    | a :: b :: c :: flags :: stamp, hlength, hmagic =>
        simp only [List.take_succ_cons, List.take_zero] at hmagic
        cases hmagic
        exact ⟨flags, stamp, by simpa using hlength, rfl⟩
  · rintro ⟨flags, stamp, hlength, rfl⟩
    exact ⟨by rw [List.length_append, hlength]; rfl, rfl⟩

/-- The checksum of a header as it is read, whether the header carries one or not. -/
theorem Header.check_iff (header : Header) {bytes rest : List UInt8} :
    (if header.checked then skipHeaderCheck (header.opening ++ bytes) bytes else some bytes) =
      some rest ↔ bytes = header.check ++ rest := by
  rw [check]
  cases header.checked with
  | false => exact Option.some_inj
  | true => exact skipHeaderCheck_iff

/-- What follows a header. -/
theorem skipHeader_iff {bytes rest : List UInt8} :
    skipHeader bytes = some rest ↔ ∃ header : Header, bytes = header.bytes ++ rest := by
  rw [skipHeader, bind_takeExact_iff]
  constructor
  · rintro ⟨fixed, behind, hlength, rfl, h⟩
    obtain ⟨hmagic, h⟩ := bind_demand_iff.mp h
    obtain ⟨flags, stamp, hstamp, rfl⟩ := fixed_iff.mp ⟨hlength, hmagic⟩
    obtain ⟨hflags, h⟩ := bind_demand_iff.mp h
    obtain ⟨extra, behind, hasExtra, fitsExtra, rfl, h⟩ := (bind_optional_iff skipExtra_iff).mp h
    obtain ⟨name, behind, hasName, fitsName, rfl, h⟩ := (bind_optional_iff skipText_iff).mp h
    obtain ⟨comment, behind, hasComment, fitsComment, rfl, h⟩ :=
      (bind_optional_iff skipText_iff).mp h
    obtain ⟨isText, hbyte⟩ := exists_flagByte hflags
    let header : Header := ⟨isText, stamp, extra, name, comment, flags.toNat.testBit 1, hstamp,
      fitsExtra, fitsName, fitsComment⟩
    have hheader : header.flags = flags := by
      show flagByte isText (flags.toNat.testBit 1) extra.isSome name.isSome comment.isSome = flags
      rw [hasExtra, hasName, hasComment]
      exact hbyte
    have hopening : [0x1f, 0x8b, 8, flags] ++ stamp ++ (extra.elim [] extraBytes ++
        (name.elim [] textBytes ++ (comment.elim [] textBytes ++ behind))) =
        header.opening ++ behind := by
      rw [Header.opening, hheader, List.append_assoc _ _ behind, List.append_assoc _ _ behind,
        List.append_assoc _ _ behind]
    rw [hopening] at h ⊢
    refine ⟨header, ?_⟩
    rw [Header.bytes, List.append_assoc, ← header.check_iff.mp h]
  · rintro ⟨header, rfl⟩
    obtain ⟨hflags, hchecked, hextra, hname, hcomment⟩ :=
      testBit_flagByte header.isText header.checked header.extra.isSome header.name.isSome
        header.comment.isSome
    have hopening : header.bytes ++ rest = [0x1f, 0x8b, 8, header.flags] ++ header.stamp ++
        (header.extra.elim [] extraBytes ++ (header.name.elim [] textBytes ++
          (header.comment.elim [] textBytes ++ (header.check ++ rest)))) := by
      simp only [Header.bytes, Header.opening, List.append_assoc]
    obtain ⟨hlength, hmagic⟩ := fixed_iff.mpr ⟨header.flags, header.stamp, header.length_stamp, rfl⟩
    refine ⟨_, _, hlength, hopening, ?_⟩
    refine bind_demand_iff.mpr ⟨hmagic, bind_demand_iff.mpr ⟨hflags, ?_⟩⟩
    refine (bind_optional_iff skipExtra_iff).mpr
      ⟨header.extra, _, hextra.symm, header.isExtra, rfl, ?_⟩
    refine (bind_optional_iff skipText_iff).mpr
      ⟨header.name, _, hname.symm, header.isText_name, rfl, ?_⟩
    refine (bind_optional_iff skipText_iff).mpr
      ⟨header.comment, _, hcomment.symm, header.isText_comment, rfl, ?_⟩
    show (if header.flags.toNat.testBit 1 then skipHeaderCheck (header.bytes ++ rest)
      (header.check ++ rest) else some (header.check ++ rest)) = some rest
    have hflag : header.flags.toNat.testBit 1 = header.checked := hchecked
    rw [hflag, Header.bytes, List.append_assoc]
    exact header.check_iff.mpr rfl

/-! ## Members -/

/-- A member: its header, its content and a deflated stream of it. -/
structure Member where
  header : Header
  packed : List UInt8
  content : List UInt8
  unpacks : Deflate.Unpacks packed content

/-- The check value and the size of a content. -/
def trailer (content : List UInt8) : List UInt8 :=
  numberField 4 (Crc32.ofBytes content) ++ numberField 4 (content.length % 2 ^ 32)

def Member.bytes (m : Member) : List UInt8 := m.header.bytes ++ (m.packed ++ trailer m.content)

/-- The eight bytes behind the data close a member exactly if they give the checksum and the length
    of the content. -/
theorem trailer_iff {field content : List UInt8} :
    field = trailer content ↔ field.length = 8 ∧
      littleEndian (field.take 4) = Crc32.ofBytes content ∧
      littleEndian (field.drop 4) = content.length % 2 ^ 32 := by
  have hcheck : Crc32.ofBytes content < 256 ^ 4 := UInt32.toNat_lt _
  have hsize : content.length % 2 ^ 32 < 256 ^ 4 := Nat.mod_lt _ (by decide)
  constructor
  · rintro rfl
    have hwidth : (numberField 4 (Crc32.ofBytes content)).length = 4 := length_numberField 4 _
    refine ⟨?_, ?_, ?_⟩
    · rw [trailer, List.length_append, hwidth, length_numberField]
    · rw [trailer, List.take_left' hwidth, littleEndian_numberField 4 _ hcheck]
    · rw [trailer, List.drop_left' hwidth, littleEndian_numberField 4 _ hsize]
  · rintro ⟨hlength, hfirst, hsecond⟩
    have hwidth : (field.take 4).length = 4 := by
      rw [List.length_take, hlength]
      rfl
    have hbehind : (field.drop 4).length = 4 := by rw [List.length_drop, hlength]
    rw [trailer, ← (eq_numberField_iff hcheck).mpr ⟨hwidth, hfirst⟩,
      ← (eq_numberField_iff hsize).mpr ⟨hbehind, hsecond⟩, List.take_append_drop]

/-- What is unpacked is the content of the member that the input starts with. -/
theorem decode_iff {bytes out : List UInt8} :
    decode bytes = some out ↔ ∃ (m : Member) (rest : List UInt8),
      bytes = m.bytes ++ rest ∧ m.content = out := by
  constructor
  · intro h
    obtain ⟨data, hskip, h⟩ := Option.bind_eq_some_iff.mp h
    obtain ⟨⟨unpacked, left⟩, hinflate, h⟩ := Option.bind_eq_some_iff.mp h
    obtain ⟨field, rest, hlength, hbehind, h⟩ := bind_takeExact_iff.mp h
    obtain ⟨hcheck, h⟩ := bind_demand_iff.mp h
    obtain ⟨hsize, h⟩ := bind_demand_iff.mp h
    cases h
    obtain ⟨header, rfl⟩ := skipHeader_iff.mp hskip
    obtain ⟨packed, rfl, hunpacks⟩ :=
      Deflate.inflate_iff.mp ⟨unpacked, left, hinflate, rfl, hbehind⟩
    have hfield : field = trailer unpacked.toList := trailer_iff.mpr ⟨hlength, hcheck, hsize⟩
    refine ⟨⟨header, packed, unpacked.toList, hunpacks⟩, rest, ?_, rfl⟩
    rw [Member.bytes, ← hfield, List.append_assoc, List.append_assoc]
  · rintro ⟨⟨header, packed, content, hunpacks⟩, rest, rfl, rfl⟩
    obtain ⟨unpacked, left, hinflate, hcontent, hbehind⟩ := Deflate.inflate_iff.mpr
      ⟨packed, rfl, hunpacks⟩
    obtain ⟨hlength, hcheck, hsize⟩ := trailer_iff.mp (rfl : trailer content = trailer content)
    rw [Member.bytes, List.append_assoc, List.append_assoc]
    refine Option.bind_eq_some_iff.mpr ⟨_, skipHeader_iff.mpr ⟨header, rfl⟩, ?_⟩
    refine Option.bind_eq_some_iff.mpr ⟨(unpacked, left), hinflate, ?_⟩
    refine bind_takeExact_iff.mpr ⟨trailer content, rest, hlength, hbehind, ?_⟩
    rw [hcontent]
    exact bind_demand_iff.mpr ⟨hcheck, bind_demand_iff.mpr ⟨hsize, rfl⟩⟩

/-- A header that says nothing. -/
def plainHeader : Header where
  isText := false
  stamp := List.replicate 6 0
  extra := none
  name := none
  comment := none
  checked := false
  length_stamp := rfl
  isExtra := nofun
  isText_name := nofun
  isText_comment := nofun

/-- A member that stores its content as it is. -/
def storedMember (content : List UInt8) (h : content.length ≤ 65535) : Member where
  header := plainHeader
  packed := Deflate.storedBlock true content
  content := content
  unpacks := Deflate.unpacks_storedBlock h

/-- Every byte string is the content of a member. -/
theorem exists_member (content : List UInt8) : ∃ m : Member, m.content = content := by
  obtain ⟨packed, hpacked⟩ := Deflate.exists_unpacks content
  exact ⟨⟨plainHeader, packed, content, hpacked⟩, rfl⟩

end Gzip

end Compression

end ModelOperator

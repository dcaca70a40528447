import ModelOperator.Proofs.Attachment.PlainImage
import ModelOperator.Proofs.Compression.Gzip
import ModelOperator.Proofs.Compression.Zstd

/-!
# Images that are compressed

    Bytes are compressed by writing them as members of a gzip file or as zstd frames, one or more,
    one after the other.  All frames are unpacked, and nothing but frames is let through.  Of the
    members only the first one is unpacked, whatever stands behind it, so that an image of several
    members is cut short unless the others are empty (`compressed_images_exact`). -/

namespace ModelOperator

open Compression

namespace ImageData

theorem bytes_zstd_iff {image : ImageData} (h : image.format = .zstd) (bytes : List UInt8) :
    image.bytes = .ok bytes ↔ ∃ frames : List Zstd.Frame, frames ≠ [] ∧
      image.Carries (frames.flatMap Zstd.Frame.packed) ∧
      bytes = frames.flatMap Zstd.Frame.content := by
  rw [bytes_ok_iff, h]
  constructor
  · rintro ⟨packed, hpacked, hbytes⟩
    obtain ⟨frames, hframes, rfl, hcontent⟩ := Zstd.decode_iff.mp hbytes
    exact ⟨frames, hframes, hpacked, hcontent⟩
  · rintro ⟨frames, hframes, hpacked, hcontent⟩
    exact ⟨_, hpacked, Zstd.decode_iff.mpr ⟨frames, hframes, rfl, hcontent⟩⟩

theorem bytes_gzip_iff {image : ImageData} (h : image.format = .gzip) (bytes : List UInt8) :
    image.bytes = .ok bytes ↔ ∃ (m : Gzip.Member) (rest : List UInt8),
      image.Carries (m.bytes ++ rest) ∧ bytes = m.content := by
  rw [bytes_ok_iff, h]
  constructor
  · rintro ⟨packed, hpacked, hbytes⟩
    obtain ⟨m, rest, rfl, hcontent⟩ := Gzip.decode_iff.mp hbytes
    exact ⟨m, rest, hpacked, hcontent.symm⟩
  · rintro ⟨m, rest, hpacked, hcontent⟩
    exact ⟨_, hpacked, Gzip.decode_iff.mpr ⟨m, rest, rfl, hcontent.symm⟩⟩

/-- Nothing compressed is nothing at all. -/
theorem bytes_of_carries_nil {image : ImageData} (h : image.format ≠ .plain)
    (hnil : image.Carries []) : image.bytes = .error (.compression image.format) := by
  rw [bytes_of_carries hnil]
  cases hformat : image.format with
  | plain => exact absurd hformat h
  | gzip => rfl
  | zstd => rfl

/-- Of several members only the first one counts. -/
theorem bytes_of_members {image : ImageData} (h : image.format = .gzip) {m : Gzip.Member}
    {others : List Gzip.Member}
    (hcarries : image.Carries ((m :: others).flatMap Gzip.Member.bytes)) :
    image.bytes = .ok m.content ∧
      (image.bytes = .ok ((m :: others).flatMap Gzip.Member.content) ↔
        ∀ other ∈ others, other.content = []) := by
  have hbytes : image.bytes = .ok m.content := by
    rw [List.flatMap_cons] at hcarries
    exact (bytes_gzip_iff h _).mpr ⟨m, _, hcarries, rfl⟩
  refine ⟨hbytes, ?_⟩
  rw [hbytes, List.flatMap_cons, ← List.flatMap_eq_nil_iff]
  constructor
  · intro hwhole
    exact List.self_eq_append_right.mp (Except.ok.inj hwhole)
  · intro hnone
    rw [hnone, List.append_nil]

end ImageData

/-- **What a compressed image gives.**  An image of zstd frames, one or more, gives what all of them
    unpack to, in order, and anything else is refused.  An image of gzip members gives the content
    of the first one, whatever stands behind it: with other members it gives the contents of all of
    them exactly if those of the others are empty.  An image of nothing is refused.  Every byte
    string is the content of a member and of a frame. -/
theorem compressed_images_exact (image : ImageData) :
    (image.format = .zstd → ∀ bytes, image.bytes = .ok bytes ↔
      ∃ frames : List Zstd.Frame, frames ≠ [] ∧
        image.Carries (frames.flatMap Zstd.Frame.packed) ∧
        bytes = frames.flatMap Zstd.Frame.content) ∧
    (image.format = .gzip → ∀ bytes, image.bytes = .ok bytes ↔
      ∃ (m : Gzip.Member) (rest : List UInt8), image.Carries (m.bytes ++ rest) ∧
        bytes = m.content) ∧
    (image.format = .gzip → ∀ (m : Gzip.Member) (others : List Gzip.Member),
      image.Carries ((m :: others).flatMap Gzip.Member.bytes) →
      image.bytes = .ok m.content ∧
        (image.bytes = .ok ((m :: others).flatMap Gzip.Member.content) ↔
          ∀ other ∈ others, other.content = [])) ∧
    (image.format ≠ .plain → image.Carries [] →
      image.bytes = .error (.compression image.format)) ∧
    ∀ content : List UInt8, (∃ m : Gzip.Member, m.content = content) ∧
      ∃ f : Zstd.Frame, f.content = content := by
  refine ⟨ImageData.bytes_zstd_iff, ImageData.bytes_gzip_iff,
    fun h _ _ => ImageData.bytes_of_members h, ImageData.bytes_of_carries_nil, ?_⟩
  intro content
  exact ⟨Gzip.exists_member content, Zstd.exists_frame content⟩

/-- Two frames are put together, and so are two members of which the second one is empty. -/
theorem compressed_images_exact_parts :
    (ImageData.mk .zstd "KLUv/QA4GQAAaGkgKLUv/QA4KQAAdGhlcmU=\n").bytes =
        .ok [104, 105, 32, 116, 104, 101, 114, 101] ∧
      (ImageData.mk .gzip
        "H4sIAAAAAAAAAAEIAPf/aGkgdGhlcmXsdqPjCAAAAB+LCAAAAAAAAAABAAD//wAAAAAAAAAA").bytes =
        .ok [104, 105, 32, 116, 104, 101, 114, 101] ∧
      (ImageData.mk .gzip " ").bytes = .error (.compression .gzip) := by
  obtain ⟨hframes, -⟩ := compressed_images_exact
    ⟨.zstd, "KLUv/QA4GQAAaGkgKLUv/QA4KQAAdGhlcmU=\n"⟩
  obtain ⟨-, -, hmembers, -⟩ := compressed_images_exact
    ⟨.gzip, "H4sIAAAAAAAAAAEIAPf/aGkgdGhlcmXsdqPjCAAAAB+LCAAAAAAAAAABAAD//wAAAAAAAAAA"⟩
  obtain ⟨-, -, -, hnothing, -⟩ := compressed_images_exact ⟨.gzip, " "⟩
  refine ⟨?_, ?_, ?_⟩
  · refine (hframes rfl _).mpr ⟨[Zstd.rawFrame [104, 105, 32] (by decide),
      Zstd.rawFrame [116, 104, 101, 114, 101] (by decide)], List.cons_ne_nil _ _, ?_, rfl⟩
    show trimText _ = Base64.encodeText _
    decide +kernel
  · refine (hmembers rfl (Gzip.storedMember [104, 105, 32, 116, 104, 101, 114, 101] (by decide))
      [Gzip.storedMember [] (by decide)] ?_).1
    show trimText _ = Base64.encodeText _
    decide +kernel
  · refine hnothing (by decide) ?_
    show trimText _ = Base64.encodeText _
    decide +kernel

/-- The second of two members is left out, and so is what is no member at all. -/
theorem members_cut_short :
    let first := Gzip.storedMember [104, 105, 32] (by decide)
    let second := Gzip.storedMember [116, 104, 101, 114, 101] (by decide)
    let image := ImageData.mk .gzip
      "H4sIAAAAAAAAAAEDAPz/aGkgrLPUNgMAAAAfiwgAAAAAAAAAAQUA+v90aGVyZZbpL1oFAAAA"
    let spoilt := ImageData.mk .gzip "H4sIAAAAAAAAAAEDAPz/aGkgrLPUNgMAAABqdW5r"
    image.Carries ([first, second].flatMap Gzip.Member.bytes) ∧
      image.bytes = .ok [104, 105, 32] ∧
      image.bytes ≠ .ok ([first, second].flatMap Gzip.Member.content) ∧
      spoilt.Carries (first.bytes ++ [106, 117, 110, 107]) ∧ spoilt.bytes = .ok [104, 105, 32] := by
  intro first second image spoilt
  have himage : image.Carries ([first, second].flatMap Gzip.Member.bytes) := by
    show trimText _ = Base64.encodeText _
    decide +kernel
  have hspoilt : spoilt.Carries (first.bytes ++ [106, 117, 110, 107]) := by
    show trimText _ = Base64.encodeText _
    decide +kernel
  obtain ⟨hbytes, hwhole⟩ := ImageData.bytes_of_members rfl himage
  refine ⟨himage, hbytes, ?_, hspoilt,
    (ImageData.bytes_gzip_iff rfl _).mpr ⟨first, _, hspoilt, rfl⟩⟩
  intro hall
  have hempty : second.content = [] := hwhole.mp hall second (List.mem_singleton_self second)
  exact List.cons_ne_nil _ _ hempty

end ModelOperator

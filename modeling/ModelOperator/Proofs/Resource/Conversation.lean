import ModelOperator.Proofs.Bytes.Base64
import ModelOperator.Proofs.Json.Numbers
import ModelOperator.Proofs.Resource.ConditionWire
import ModelOperator.Resource.Conversation

/-!
# Conversation state read back

    A token is the base64 of a document, and the document is a list of whole numbers.  Each of
    these layers is read back, and so is the token (`Conversation.decode_encode`).  Other tokens
    may hold the same conversation, but what any of them holds is of numbers of 64 bits, so that
    it has a token of its own (`Conversation.decode_encode_of_decode`), and no two conversations
    have the same (`Conversation.encode_inj`). -/

namespace ModelOperator

namespace Conversation

/-- **A conversation is read back from its token.** -/
theorem decode_encode {context : List Int} (h : ∀ n ∈ context, Fits64 n) :
    decode (encode context) = .ok context := by
  rw [decode, encode, Base64.decodeText_encodeText]
  dsimp only
  rw [utf8Text?_utf8Bytes, Option.bind_some, Json.parse_compact_numbers h]
  dsimp only
  rw [Reader.list_int64 h]

/-- The numbers that are read from a token are of 64 bits. -/
theorem fits64_of_decode {token : String} {context : List Int} (h : decode token = .ok context) :
    ∀ n ∈ context, Fits64 n := by
  rw [decode] at h
  split at h
  · cases h
  · split at h
    · cases h
    · rename_i v hdocument
      split at h
      · rename_i found hread
        cases h
        cases v with
        | arr items =>
            intro n hn
            obtain ⟨item, hitem⟩ := Reader.each_ok hread n hn
            exact (Reader.within_ok hitem).2
        | _ => cases hread
      · cases h

/-- The empty text is no token. -/
theorem ne_empty_of_decode {token : String} {context : List Int} (h : decode token = .ok context) :
    token ≠ "" := by
  rintro rfl
  -- the empty text is the base64 of no bytes, and they are no document
  have hbytes : Base64.decodeText "" = .ok [] := rfl
  have htext : utf8Text? [] = some "" := rfl
  have hnone : Json.parse "" = none := Option.isNone_iff_eq_none.mp (by decide +kernel)
  rw [decode, hbytes] at h
  dsimp only at h
  rw [htext, Option.bind_some, hnone] at h
  cases h

/-- What a token holds is held by its own token too. -/
theorem decode_encode_of_decode {token : String} {context : List Int}
    (h : decode token = .ok context) : decode (encode context) = .ok context :=
  decode_encode (fits64_of_decode h)

/-- Two conversations never share a token. -/
theorem encode_inj {a b : List Int} (ha : ∀ n ∈ a, Fits64 n) (hb : ∀ n ∈ b, Fits64 n)
    (h : encode a = encode b) : a = b := by
  have hsame := decode_encode ha
  rw [h, decode_encode hb] at hsame
  exact (Except.ok.inj hsame).symm

end Conversation

end ModelOperator

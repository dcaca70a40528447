import ModelOperator.Bytes.Base64

/-!
# Texts and bytes read back

    A text is read back from its UTF-8 bytes, and bytes are read back from their base64 text,
    which is the only text that is read as these bytes (`Base64.decode_ok_iff`).

    Base64 is checked a group of four symbols at a time: the six bits of each symbol are those
    that it was written for (`Base64.value?_symbol`), and put together they are the bytes of the
    group.  The last group may be padded, and is read on its own (`Base64.suffix`); its padding is
    that of its length, and no bits are left over in it. -/

namespace ModelOperator

/-- A text is read back from its bytes. -/
theorem utf8Text?_utf8Bytes (s : String) : utf8Text? (utf8Bytes s) = some s := by
  have hbytes : ByteArray.mk (utf8Bytes s).toArray = s.toByteArray := by
    rw [← String.utf8Encode_toList]
    exact ByteArray.ext List.data_toByteArray.symm
  rw [utf8Text?, hbytes, String.fromUTF8?, dif_pos s.isValidUTF8]
  rfl

/-- A text of characters below 128 has a byte for each of them. -/
theorem utf8Bytes_ascii {bytes : List UInt8} (h : ∀ b ∈ bytes, b.toNat < 128) :
    utf8Bytes (String.ofList (bytes.map fun b => Char.ofNat b.toNat)) = bytes := by
  have hone : ∀ n, n < 128 → String.utf8EncodeChar (Char.ofNat n) = [UInt8.ofNat n] := by decide
  rw [utf8Bytes, String.toList_ofList]
  induction bytes with
  | nil => rfl
  | cons b rest ih =>
      rw [List.map_cons, List.flatMap_cons, ih fun c hc => h c (List.mem_cons_of_mem _ hc),
        hone _ (h b List.mem_cons_self), UInt8.ofNat_toNat]
      rfl

namespace Base64

/-! ## Symbols -/

/-- Each number below 64 is the value of its own symbol. -/
theorem value?_symbol {n : Nat} (h : n < 64) : value? (symbol n) = some n := by
  have hall : ∀ n, n < 64 → value? (symbol n) = some n := by decide
  exact hall n h

/-- The padding is no symbol. -/
theorem symbol_ne_pad {n : Nat} (h : n < 64) : symbol n ≠ pad := by
  have hall : ∀ n, n < 64 → symbol n ≠ pad := by decide
  exact hall n h

/-- All symbols are ASCII. -/
theorem symbol_lt (n : Nat) : (symbol n).toNat < 128 := by
  have hsmall : ∀ n, n < 64 → (symbol n).toNat < 128 := by decide
  by_cases hn : n < 64
  · exact hsmall n hn
  · -- beyond the alphabet every number has the last symbol
    rw [symbol, if_neg (by omega), if_neg (by omega), if_neg (by omega), if_neg (by omega)]
    decide

theorem bitsAt_symbol {n : Nat} (h : n < 64) (offset : Nat) : bitsAt (symbol n) offset = .ok n := by
  rw [bitsAt, value?_symbol h]

/-! ## Groups -/

/-- The three bytes of 24 bits. -/
def bytesOf (n : Nat) : List UInt8 :=
  [UInt8.ofNat (n / 65536), UInt8.ofNat (n / 256 % 256), UInt8.ofNat (n % 256)]

/-- Three bytes are read back out of the number they make. -/
theorem bytesOf_three (a b c : UInt8) :
    bytesOf ((a.toNat * 256 + b.toNat) * 256 + c.toNat) = [a, b, c] := by
  have hb := b.toNat_lt
  have hc := c.toNat_lt
  have hfirst : ((a.toNat * 256 + b.toNat) * 256 + c.toNat) / 65536 = a.toNat := by omega
  have hsecond : ((a.toNat * 256 + b.toNat) * 256 + c.toNat) / 256 % 256 = b.toNat := by omega
  have hthird : ((a.toNat * 256 + b.toNat) * 256 + c.toNat) % 256 = c.toNat := by omega
  rw [bytesOf, hfirst, hsecond, hthird, UInt8.ofNat_toNat, UInt8.ofNat_toNat, UInt8.ofNat_toNat]

/-- A symbol of the last group is read before any padding. -/
theorem lastGroup_symbol {n : Nat} (h : n < 64) (offset index : Nat) (rest : List UInt8) :
    lastGroup offset index none (symbol n :: rest) =
      (lastGroup offset (index + 1) none rest).map fun r => ((symbol n, n) :: r.1, r.2) := by
  rw [lastGroup, if_neg (symbol_ne_pad h)]
  simp only [bitsAt_symbol h]
  cases lastGroup offset (index + 1) none rest <;> rfl

section Groups

variable {a b c d : Nat} (offset : Nat) (ha : a < 64) (hb : b < 64)

include ha hb

/-- Two symbols and two paddings are one byte, if the bits that are left over are zero. -/
theorem suffix_two (hzero : b % 16 = 0) :
    suffix offset [symbol a, symbol b, pad, pad] = .ok [UInt8.ofNat ((a * 64 + b) / 16)] := by
  have hpads : lastGroup offset 2 none [pad, pad] = .ok ([], 2) := rfl
  have hlast : lastGroup offset 0 none [symbol a, symbol b, pad, pad] =
      .ok ([(symbol a, a), (symbol b, b)], 2) := by
    rw [lastGroup_symbol ha, lastGroup_symbol hb, hpads]
    rfl
  refine (congrArg (· >>= _) hlast).trans ?_
  show (if b % 16 ≠ 0 then _ else _) = _
  exact if_neg fun hne => hne hzero

variable (hc : c < 64)

include hc

/-- Three symbols and one padding are two bytes, if the bits that are left over are zero. -/
theorem suffix_three (hzero : c % 4 = 0) :
    suffix offset [symbol a, symbol b, symbol c, pad] =
      .ok [UInt8.ofNat (((a * 64 + b) * 64 + c) / 4 / 256),
        UInt8.ofNat (((a * 64 + b) * 64 + c) / 4 % 256)] := by
  have hpad : lastGroup offset 3 none [pad] = .ok ([], 1) := rfl
  have hlast : lastGroup offset 0 none [symbol a, symbol b, symbol c, pad] =
      .ok ([(symbol a, a), (symbol b, b), (symbol c, c)], 1) := by
    rw [lastGroup_symbol ha, lastGroup_symbol hb, lastGroup_symbol hc, hpad]
    rfl
  refine (congrArg (· >>= _) hlast).trans ?_
  show (if c % 4 ≠ 0 then _ else _) = _
  exact if_neg fun hne => hne hzero

variable (hd : d < 64)

include hd

theorem suffix_four :
    suffix offset [symbol a, symbol b, symbol c, symbol d] =
      .ok (bytesOf (((a * 64 + b) * 64 + c) * 64 + d)) := by
  have hend : lastGroup offset 4 none [] = .ok ([], 0) := rfl
  have hlast : lastGroup offset 0 none [symbol a, symbol b, symbol c, symbol d] =
      .ok ([(symbol a, a), (symbol b, b), (symbol c, c), (symbol d, d)], 0) := by
    rw [lastGroup_symbol ha, lastGroup_symbol hb, lastGroup_symbol hc, lastGroup_symbol hd, hend]
    rfl
  exact congrArg (· >>= _) hlast

theorem group_symbols :
    group offset (symbol a) (symbol b) (symbol c) (symbol d) =
      .ok (bytesOf (((a * 64 + b) * 64 + c) * 64 + d)) := by
  simp only [group, bitsAt_symbol ha, bitsAt_symbol hb, bitsAt_symbol hc, bitsAt_symbol hd]
  rfl

end Groups

/-! ## Texts -/

/-- Every group is read back, wherever it stands. -/
theorem groups_encode (bytes : List UInt8) (offset : Nat) :
    groups offset (encode bytes) = .ok bytes := by
  induction bytes using encode.induct generalizing offset with
  | case1 => rfl
  | case2 a =>
      have ha := a.toNat_lt
      have hbits : (a.toNat * 16 / 64 * 64 + a.toNat * 16 % 64) / 16 = a.toNat := by omega
      refine (suffix_two offset (by omega) (by omega) (by omega)).trans ?_
      rw [hbits, UInt8.ofNat_toNat]
  | case3 a b =>
      have ha := a.toNat_lt
      have hb := b.toNat_lt
      generalize hn : (a.toNat * 256 + b.toNat) * 4 = n
      have hfirst : ((n / 4096 * 64 + n / 64 % 64) * 64 + n % 64) / 4 / 256 = a.toNat := by omega
      have hsecond : ((n / 4096 * 64 + n / 64 % 64) * 64 + n % 64) / 4 % 256 = b.toNat := by omega
      rw [encode, hn]
      refine (suffix_three offset (by omega) (by omega) (by omega) (by omega)).trans ?_
      rw [hfirst, hsecond, UInt8.ofNat_toNat, UInt8.ofNat_toNat]
  | case4 a b c rest ih =>
      have ha := a.toNat_lt
      have hb := b.toNat_lt
      have hc := c.toNat_lt
      have hthree := bytesOf_three a b c
      have hsmall : (a.toNat * 256 + b.toNat) * 256 + c.toNat < 16777216 := by omega
      rw [encode]
      generalize (a.toNat * 256 + b.toNat) * 256 + c.toNat = n at hthree hsmall
      have hbits : ((n / 262144 * 64 + n / 4096 % 64) * 64 + n / 64 % 64) * 64 + n % 64 = n := by
        omega
      -- the group is the last one exactly if nothing is encoded behind it
      cases hmore : encode rest with
      | nil =>
          have hrest : rest = [] := by
            have hread := ih 0
            rw [hmore] at hread
            exact (Except.ok.inj hread).symm
          refine (suffix_four offset (by omega) (by omega) (by omega) (by omega)).trans ?_
          rw [hbits, hthree, hrest]
      | cons e more =>
          have hgroup := group_symbols (a := n / 262144) (b := n / 4096 % 64) (c := n / 64 % 64)
            (d := n % 64) offset (by omega) (by omega) (by omega) (by omega)
          have hread := ih (offset + 4)
          rw [hmore] at hread
          rw [hbits, hthree] at hgroup
          rw [groups, hgroup, hread]
          rfl

/-- The encoding comes in groups of four. -/
theorem length_encode (bytes : List UInt8) : (encode bytes).length % 4 = 0 := by
  induction bytes using encode.induct with
  | case1 => rfl
  | case2 a => simp [encode]
  | case3 a b => simp [encode]
  | case4 a b c rest ih =>
      simp only [encode, List.length_cons]
      omega

/-- **Base64 is read back.** -/
theorem decode_encode (bytes : List UInt8) : decode (encode bytes) = .ok bytes := by
  have hlength := length_encode bytes
  have hgroups := groups_encode bytes 0
  rw [decode]
  split
  · rw [if_neg]
    · exact hgroups
    · omega
  · next hlast =>
    rw [List.getLast?_eq_none_iff.mp hlast] at hgroups
    exact hgroups

/-- What holds of all symbols and of the padding holds of everything that is written. -/
theorem forall_mem_encode {P : UInt8 → Prop} (hsymbol : ∀ n, P (symbol n)) (hpad : P pad)
    (bytes : List UInt8) : ∀ b ∈ encode bytes, P b := by
  induction bytes using encode.induct with
  | case1 => exact List.forall_mem_nil _
  | case2 a => simp [encode, hsymbol, hpad]
  | case3 a b => simp [encode, hsymbol, hpad]
  | case4 a b c rest ih =>
      simp only [encode, List.forall_mem_cons]
      exact ⟨hsymbol _, hsymbol _, hsymbol _, hsymbol _, ih⟩

/-- The encoding is ASCII. -/
theorem encode_ascii (bytes : List UInt8) : ∀ b ∈ encode bytes, b.toNat < 128 :=
  forall_mem_encode symbol_lt (by decide) bytes

/-- The base64 text of bytes is read back. -/
theorem decodeText_encodeText (bytes : List UInt8) :
    decodeText (encodeText bytes) = .ok bytes := by
  rw [decodeText, encodeText, utf8Bytes_ascii (encode_ascii bytes), decode_encode]

/-! ## What is read -/

theorem toNat_byte {n : Nat} (h : n < 256) : (UInt8.ofNat n).toNat = n :=
  UInt8.toNat_ofNat_of_lt' h

/-- The six bits of a symbol determine it. -/
theorem eq_symbol_of_value? {b : UInt8} {n : Nat} (h : value? b = some n) :
    n < 64 ∧ b = symbol n := by
  have hall : ∀ k, k < 256 → ∀ n ∈ value? (UInt8.ofNat k), n < 64 ∧ UInt8.ofNat k = symbol n := by
    decide +kernel
  have hb := hall b.toNat b.toNat_lt n
  rw [UInt8.ofNat_toNat] at hb
  exact hb h

/-- What is read as a value is the symbol of that value. -/
theorem eq_symbol_of_bitsAt {b : UInt8} {offset n : Nat} (h : bitsAt b offset = .ok n) :
    n < 64 ∧ b = symbol n := by
  rw [bitsAt] at h
  cases hv : value? b with
  | none =>
      rw [hv] at h
      cases h
  | some v =>
      rw [hv] at h
      cases h
      exact eq_symbol_of_value? hv

section Written

variable {a b c d : Nat} (ha : a < 64) (hb : b < 64)

include ha hb

/-- One byte is written as two symbols without bits left over, and two paddings. -/
theorem encode_one (hzero : b % 16 = 0) :
    encode [UInt8.ofNat ((a * 64 + b) / 16)] = [symbol a, symbol b, pad, pad] := by
  have hbyte : (UInt8.ofNat ((a * 64 + b) / 16)).toNat * 16 = a * 64 + b := by
    rw [toNat_byte (by omega)]
    omega
  have hfirst : (a * 64 + b) / 64 = a := by omega
  have hsecond : (a * 64 + b) % 64 = b := by omega
  rw [encode, hbyte, hfirst, hsecond]

variable (hc : c < 64)

include hc

/-- Two bytes are written as three symbols without bits left over, and one padding. -/
theorem encode_two (hzero : c % 4 = 0) :
    encode [UInt8.ofNat (((a * 64 + b) * 64 + c) / 4 / 256),
        UInt8.ofNat (((a * 64 + b) * 64 + c) / 4 % 256)] =
      [symbol a, symbol b, symbol c, pad] := by
  generalize hn : (a * 64 + b) * 64 + c = n
  have hbytes : ((UInt8.ofNat (n / 4 / 256)).toNat * 256 + (UInt8.ofNat (n / 4 % 256)).toNat) * 4 =
      n := by
    rw [toNat_byte (by omega), toNat_byte (by omega)]
    omega
  have hfirst : n / 4096 = a := by omega
  have hsecond : n / 64 % 64 = b := by omega
  have hthird : n % 64 = c := by omega
  rw [encode, hbytes, hfirst, hsecond, hthird]

variable (hd : d < 64)

include hd

/-- Three bytes are written as four symbols, whatever follows them. -/
theorem encode_three (rest : List UInt8) :
    encode (bytesOf (((a * 64 + b) * 64 + c) * 64 + d) ++ rest) =
      symbol a :: symbol b :: symbol c :: symbol d :: encode rest := by
  generalize hn : ((a * 64 + b) * 64 + c) * 64 + d = n
  have hbytes : ((UInt8.ofNat (n / 65536)).toNat * 256 + (UInt8.ofNat (n / 256 % 256)).toNat) * 256 +
      (UInt8.ofNat (n % 256)).toNat = n := by
    rw [toNat_byte (by omega), toNat_byte (by omega), toNat_byte (by omega)]
    omega
  have hfirst : n / 262144 = a := by omega
  have hsecond : n / 4096 % 64 = b := by omega
  have hthird : n / 64 % 64 = c := by omega
  have hfourth : n % 64 = d := by omega
  show encode (_ :: _ :: _ :: rest) = _
  rw [encode, hbytes, hfirst, hsecond, hthird, hfourth]

end Written

/-- A group that is read is written as it was. -/
theorem encode_of_group {offset : Nat} {x y z u : UInt8} {bytes : List UInt8}
    (h : group offset x y z u = .ok bytes) (rest : List UInt8) :
    encode (bytes ++ rest) = x :: y :: z :: u :: encode rest := by
  rw [group] at h
  cases hx : bitsAt x offset with
  | error e => simp [hx, bind, Except.bind] at h
  | ok a =>
  cases hy : bitsAt y (offset + 1) with
  | error e => simp [hx, hy, bind, Except.bind] at h
  | ok b =>
  cases hz : bitsAt z (offset + 2) with
  | error e => simp [hx, hy, hz, bind, Except.bind] at h
  | ok c =>
  cases hu : bitsAt u (offset + 3) with
  | error e => simp [hx, hy, hz, hu, bind, Except.bind] at h
  | ok d =>
  rw [hx, hy, hz, hu] at h
  obtain ⟨ha, rfl⟩ := eq_symbol_of_bitsAt hx
  obtain ⟨hb, rfl⟩ := eq_symbol_of_bitsAt hy
  obtain ⟨hc, rfl⟩ := eq_symbol_of_bitsAt hz
  obtain ⟨hd, rfl⟩ := eq_symbol_of_bitsAt hu
  cases h
  exact encode_three ha hb hc hd rest

/-- What is read of the last group are its symbols, and padding behind them. -/
theorem eq_of_lastGroup {offset index pads : Nat} {first : Option Nat} {tail : List UInt8}
    {symbols : List (UInt8 × Nat)} (h : lastGroup offset index first tail = .ok (symbols, pads)) :
    tail = symbols.map (·.1) ++ List.replicate pads pad ∧
      (∀ s ∈ symbols, s.2 < 64 ∧ s.1 = symbol s.2) ∧ (first ≠ none → symbols = []) := by
  induction tail generalizing index first symbols pads with
  | nil =>
      cases h
      exact ⟨rfl, List.forall_mem_nil _, fun _ => rfl⟩
  | cons b rest ih =>
      rw [lastGroup.eq_def] at h
      dsimp only at h
      by_cases hpad : b = pad
      · -- behind padding there is nothing but padding
        rw [if_pos hpad] at h
        by_cases hindex : index < 2
        · rw [if_pos hindex] at h
          cases h
        · rw [if_neg hindex] at h
          cases hrest : lastGroup offset (index + 1) (first.orElse fun _ => some index) rest with
          | error e =>
              rw [hrest] at h
              cases h
          | ok r =>
              obtain ⟨more, n⟩ := r
              rw [hrest] at h
              cases h
              obtain ⟨htail, -, hnone⟩ := ih hrest
              cases hnone (by cases first <;> simp)
              refine ⟨?_, List.forall_mem_nil _, fun _ => rfl⟩
              rw [htail, hpad]
              rfl
      · rw [if_neg hpad] at h
        cases first with
        | some place => cases h
        | none =>
            cases hbits : bitsAt b (offset + index) with
            | error e => simp [hbits, bind, Except.bind] at h
            | ok v =>
            cases hrest : lastGroup offset (index + 1) none rest with
            | error e => simp [hbits, hrest, bind, Except.bind] at h
            | ok r =>
            obtain ⟨more, n⟩ := r
            rw [hbits, hrest] at h
            cases h
            obtain ⟨htail, hsymbols, -⟩ := ih hrest
            refine ⟨?_, ?_, fun hne => absurd rfl hne⟩
            · rw [htail]
              rfl
            · exact List.forall_mem_cons.mpr ⟨eq_symbol_of_bitsAt hbits, hsymbols⟩

/-- What is refused unless a condition holds was given under that condition. -/
theorem of_unless {α : Type} {p : Prop} [Decidable p] {fault : Fault} {x : Except Fault α} {a : α}
    (h : (if ¬ p then .error fault else x) = .ok a) : p ∧ x = .ok a := by
  by_cases hp : p
  · exact ⟨hp, (if_neg (not_not_intro hp)).symm.trans h⟩
  · rw [if_pos hp] at h
    cases h

/-- The last group is written as it was. -/
theorem encode_of_suffix {offset : Nat} {tail bytes : List UInt8} (hlength : tail.length ≤ 4)
    (h : suffix offset tail = .ok bytes) : encode bytes = tail := by
  rw [suffix] at h
  cases hlast : lastGroup offset 0 none tail with
  | error e =>
      rw [hlast] at h
      cases h
  | ok r =>
  obtain ⟨symbols, pads⟩ := r
  simp only [hlast, bind, Except.bind] at h
  obtain ⟨htail, hsymbols, -⟩ := eq_of_lastGroup hlast
  match symbols with
  | [] =>
      cases tail with
      | nil =>
          cases h
          rfl
      | cons => cases h
  | [_] => cases h
  | [(x, a), (y, b)] =>
      have hx := hsymbols (x, a) (by simp)
      have hy := hsymbols (y, b) (by simp)
      dsimp only at h hx hy
      obtain ⟨hpads, h⟩ := of_unless h
      obtain ⟨hzero, h⟩ := of_unless h
      cases h
      rw [encode_one hx.1 hy.1 hzero, htail, hpads, ← hx.2, ← hy.2]
      rfl
  | [(x, a), (y, b), (z, c)] =>
      have hx := hsymbols (x, a) (by simp)
      have hy := hsymbols (y, b) (by simp)
      have hz := hsymbols (z, c) (by simp)
      dsimp only at h hx hy hz
      obtain ⟨hpads, h⟩ := of_unless h
      obtain ⟨hzero, h⟩ := of_unless h
      cases h
      rw [encode_two hx.1 hy.1 hz.1 hzero, htail, hpads, ← hx.2, ← hy.2, ← hz.2]
      rfl
  | (x, a) :: (y, b) :: (z, c) :: (u, d) :: more =>
      have hx := hsymbols (x, a) (by simp)
      have hy := hsymbols (y, b) (by simp)
      have hz := hsymbols (z, c) (by simp)
      have hu := hsymbols (u, d) (by simp)
      dsimp only at hx hy hz hu
      -- a group has no more than four symbols, so there is no room for padding
      rw [htail] at hlength
      simp only [List.length_append, List.length_map, List.length_cons,
        List.length_replicate] at hlength
      have hmore : more = [] := List.length_eq_zero_iff.mp (by omega)
      have hpads : pads = 0 := by omega
      cases h
      refine (encode_three hx.1 hy.1 hz.1 hu.1 []).trans ?_
      rw [htail, hmore, hpads, ← hx.2, ← hy.2, ← hz.2, ← hu.2]
      rfl

/-- All groups are written as they were. -/
theorem encode_of_groups {offset : Nat} {symbols bytes : List UInt8}
    (h : groups offset symbols = .ok bytes) : encode bytes = symbols := by
  induction offset, symbols using groups.induct generalizing bytes with
  | case1 offset a b c d e rest ih =>
      rw [groups] at h
      cases hgroup : group offset a b c d with
      | error e => simp [hgroup, bind, Except.bind] at h
      | ok front =>
      cases hmore : groups (offset + 4) (e :: rest) with
      | error e => simp [hgroup, hmore, bind, Except.bind] at h
      | ok more =>
      rw [hgroup, hmore] at h
      cases h
      rw [encode_of_group hgroup, ih hmore]
  | case2 offset tail hshort =>
      rw [groups] at h
      · refine encode_of_suffix ?_ h
        match tail with
        | [] | [_] | [_, _] | [_, _, _] | [_, _, _, _] => simp
        | a :: b :: c :: d :: e :: rest => exact absurd rfl (hshort a b c d e rest)
      · exact hshort

/-- **Base64 is canonical.**  What is read as some bytes is what these are written as. -/
theorem decode_ok_iff (symbols bytes : List UInt8) :
    decode symbols = .ok bytes ↔ symbols = encode bytes := by
  constructor
  · intro h
    rw [decode] at h
    cases hlast : symbols.getLast? with
    | none =>
        rw [hlast] at h
        cases h
        exact List.getLast?_eq_none_iff.mp hlast
    | some last =>
        simp only [hlast] at h
        split at h
        · cases h
        · exact (encode_of_groups h).symm
  · rintro rfl
    exact decode_encode bytes

theorem utf8Bytes_encodeText (bytes : List UInt8) : utf8Bytes (encodeText bytes) = encode bytes :=
  utf8Bytes_ascii (encode_ascii bytes)

/-- A text that is read as some bytes is the base64 text of these. -/
theorem decodeText_ok_iff (text : String) (bytes : List UInt8) :
    decodeText text = .ok bytes ↔ text = encodeText bytes := by
  rw [decodeText, decode_ok_iff, ← utf8Bytes_encodeText]
  constructor
  · intro h
    have hread := congrArg utf8Text? h
    rw [utf8Text?_utf8Bytes, utf8Text?_utf8Bytes] at hread
    exact Option.some_inj.mp hread
  · rintro rfl
    rfl

end Base64

end ModelOperator

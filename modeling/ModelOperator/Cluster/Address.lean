import ModelOperator.Json.Value

/-!
# Addresses of requests

    The address of a request is a path with an optional query behind a question mark.
    Names of objects stand in it as they are, so a name may turn an address into none,
    or into another: blanks and a few signs are refused, and what follows a number sign
    is not part of the address.

    * `Address.ofText` is the address that a text gives, or why it gives none;
    * `Address.not_mem_path` says that no address holds a number sign. -/

namespace ModelOperator

/-- Why a request cannot be built. -/
inductive RequestFault where
  | emptyName
  | badCharacter
  | tooLong
  deriving DecidableEq, Repr

/-- The message of a fault. -/
def RequestFault.message : RequestFault → String
  | emptyName => "failed to validate request: A non-empty name is required"
  | badCharacter => "failed to build request: invalid uri character"
  | tooLong => "failed to build request: uri too long"

namespace Address

/-- The largest number of bytes in an address. -/
def limit : Nat := 65534

/-- Signs that a path may hold: no blanks and no angle brackets or grave accents. -/
def inPath (c : Char) : Bool :=
  32 < c.toNat && c != '<' && c != '>' && c.toNat != 96

/-- Signs that a query may hold: no blanks, angle brackets or quotes. -/
def inQuery (c : Char) : Bool :=
  32 < c.toNat && c != '<' && c != '>' && c != '"'

/-- A query up to its number sign. -/
def query : List Char → Option (List Char)
  | [] => some []
  | c :: rest =>
    if c = '#' then some []
    else if inQuery c then (query rest).map (c :: ·)
    else none

/-- A path and the query behind it, up to the number sign. -/
def path : List Char → Option (List Char)
  | [] => some []
  | c :: rest =>
    if c = '#' then some []
    else if c = '?' then (query rest).map (c :: ·)
    else if inPath c then (path rest).map (c :: ·)
    else none

/-- The address that a text gives. -/
def ofText (text : String) : Except RequestFault String :=
  if limit < text.utf8ByteSize then .error .tooLong
  else
    match path text.toList with
    | some address => .ok (String.ofList address)
    | none => .error .badCharacter

theorem not_mem_query {cs address : List Char} (h : query cs = some address) :
    '#' ∉ address := by
  induction cs generalizing address with
  | nil => simp_all [query]
  | cons c rest ih =>
    rw [query] at h
    split at h
    · simp_all
    · split at h
      · obtain ⟨more, found, rfl⟩ := Option.map_eq_some_iff.1 h
        simp only [List.mem_cons, not_or]
        exact ⟨fun e => absurd e.symm ‹_›, ih found⟩
      · cases h

theorem not_mem_path {cs address : List Char} (h : path cs = some address) :
    '#' ∉ address := by
  induction cs generalizing address with
  | nil => simp_all [path]
  | cons c rest ih =>
    rw [path] at h
    split at h
    · simp_all
    · split at h
      · obtain ⟨more, found, rfl⟩ := Option.map_eq_some_iff.1 h
        simp only [List.mem_cons, not_or]
        exact ⟨fun e => absurd e.symm ‹_›, not_mem_query found⟩
      · split at h
        · obtain ⟨more, found, rfl⟩ := Option.map_eq_some_iff.1 h
          simp only [List.mem_cons, not_or]
          exact ⟨fun e => absurd e.symm ‹_›, ih found⟩
        · cases h

end Address

end ModelOperator

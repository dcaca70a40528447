import ModelOperator.Yaml.Token

/-!
# Document trees

    A document is a tree of scalars, sequences and mappings.  A node may carry a tag, and
    an anchor by which aliases refer to it; `Node.anchored` keeps the number that the
    anchor was given, and `Node.find?` looks up what an alias stands for.
    `Node.ofTokens` reads the one document of a text. -/

namespace ModelOperator

namespace Yaml

/-- A node of a document. -/
inductive Node where
  | scalar (tag : Option String) (style : ScalarStyle) (text : String)
  | sequence (tag : Option String) (items : List Node)
  | mapping (tag : Option String) (entries : List (Node × Node))
  | alias (id : Nat)
  | anchored (id : Nat) (node : Node)
  deriving Inhabited

namespace Node

/-- The node of a place where nothing is written. -/
def empty : Node := .scalar none .plain ""

mutual
/-- The last node with an anchor, in the order of the document. -/
def find? (id : Nat) : Node → Option Node
  | .scalar _ _ _ => none
  | .alias _ => none
  | .sequence _ items => findIn? id items
  | .mapping _ entries => findEntry? id entries
  | .anchored n node => find? id node <|> if n = id then some node else none

/-- The last node with an anchor in a list. -/
def findIn? (id : Nat) : List Node → Option Node
  | [] => none
  | node :: rest => findIn? id rest <|> find? id node

/-- The last node with an anchor in the entries of a mapping. -/
def findEntry? (id : Nat) : List (Node × Node) → Option Node
  | [] => none
  | (k, v) :: rest => findEntry? id rest <|> find? id v <|> find? id k
end

end Node

/-- What a reader of nodes has left: the tokens, the number of each anchor so far, and what
    the handles of tags stand for. -/
structure Unread where
  tokens : List Token
  anchors : List (String × Nat) := []
  handles : List (String × String) := []

/-- Reads from tokens. -/
abbrev NodeReader := StateT Unread Option

namespace NodeReader

/-- The next token. -/
def peek : NodeReader (Option Token) := do return (← get).tokens.head?

/-- Drops the next token. -/
def skip : NodeReader Unit := modify fun u => { u with tokens := u.tokens.drop 1 }

/-- Whether the next token is one of some kinds. -/
def ahead (kinds : List Token) : NodeReader Bool := do
  return (← peek).any (kinds.contains ·)

/-- Gives an anchor its number.  A name that is used again takes a new number, which is the
    count of different names. -/
def register (name : String) : NodeReader Nat := fun u =>
  let id := u.anchors.length
  some (id, { u with anchors := (name, id) :: u.anchors.filter (·.1 != name) })

/-- The number that an alias refers to. -/
def resolve (name : String) : NodeReader Nat := do
  match (← get).anchors.lookup name with
  | some id => return id
  | none => failure

/-- The tag that a handle and the rest of a tag stand for. -/
def expandTag (handle rest : String) : NodeReader String := do
  if handle.isEmpty then return rest
  else
    match (← get).handles.lookup handle with
    | some start => return start ++ rest
    | none => failure

/-- Reads an anchor, if one is next. -/
def anchor? : NodeReader (Option Nat) := do
  match ← peek with
  | some (.anchor name) =>
    skip
    return some (← register name)
  | _ => return none

/-- Reads a tag, if one is next. -/
def tag? : NodeReader (Option String) := do
  match ← peek with
  | some (.tag handle rest) =>
    skip
    return some (← expandTag handle rest)
  | _ => return none

/-- Reads an anchor and a tag in either order. -/
def properties : NodeReader (Option Nat × Option String) := do
  match ← anchor? with
  | some id => return (some id, ← tag?)
  | none =>
    let tag ← tag?
    let id ← if tag.isSome then anchor? else pure none
    return (id, tag)

mutual
/-- Reads a node; `inBlock` admits block collections, and `bare` a block sequence that is
    not indented. -/
def node : Nat → Bool → Bool → NodeReader Node
  | 0, _, _ => failure
  | fuel + 1, inBlock, bare => do
    if let some (.alias name) ← peek then
      skip
      return .alias (← resolve name)
    let (anchor, tag) ← properties
    let content ← content fuel inBlock bare tag (anchor.isSome || tag.isSome)
    return match anchor with
      | some id => .anchored id content
      | none => content

/-- Reads what stands behind the properties of a node; if it has some, it may be empty. -/
def content : Nat → Bool → Bool → Option String → Bool → NodeReader Node
  | 0, _, _, _, _ => failure
  | fuel + 1, inBlock, bare, tag, mayBeEmpty => do
    let otherwise : NodeReader Node :=
      if mayBeEmpty then return .scalar tag .plain "" else failure
    match ← peek with
    | some .blockEntry =>
      if bare then return .sequence tag (← bareItems fuel) else otherwise
    | some (.scalar style text) =>
      skip
      return .scalar (if tag == some "!" then none else tag) style text
    | some .flowSequence =>
      skip
      return .sequence tag (← flowItems fuel true)
    | some .flowMapping =>
      skip
      return .mapping tag (← flowEntries fuel true)
    | some .blockSequence =>
      if inBlock then
        skip
        return .sequence tag (← blockItems fuel)
      else otherwise
    | some .blockMapping =>
      if inBlock then
        skip
        return .mapping tag (← blockEntries fuel)
      else otherwise
    | _ => otherwise

/-- Reads a node unless one of some tokens shows that nothing is written. -/
def nodeUnless : Nat → Bool → Bool → List Token → NodeReader Node
  | 0, _, _, _ => failure
  | fuel + 1, inBlock, bare, stops => do
    if ← ahead stops then return .empty else node fuel inBlock bare

/-- Reads the items of a block sequence and its end. -/
def blockItems : Nat → NodeReader (List Node)
  | 0 => failure
  | fuel + 1 => do
    match ← peek with
    | some .blockEntry =>
      skip
      let item ← nodeUnless fuel true false [.blockEntry, .blockEnd]
      return item :: (← blockItems fuel)
    | some .blockEnd =>
      skip
      return []
    | _ => failure

/-- Reads the items of a block sequence that is not indented. -/
def bareItems : Nat → NodeReader (List Node)
  | 0 => failure
  | fuel + 1 => do
    if ← ahead [.blockEntry] then
      skip
      let item ← nodeUnless fuel true false [.blockEntry, .key, .value, .blockEnd]
      return item :: (← bareItems fuel)
    else return []

/-- Reads the value of an entry, which is empty without a colon. -/
def entryValue : Nat → Bool → List Token → NodeReader Node
  | 0, _, _ => failure
  | fuel + 1, inBlock, stops => do
    if ← ahead [.value] then
      skip
      nodeUnless fuel inBlock inBlock stops
    else return .empty

/-- Reads the entries of a block mapping and its end. -/
def blockEntries : Nat → NodeReader (List (Node × Node))
  | 0 => failure
  | fuel + 1 => do
    match ← peek with
    | some .key =>
      skip
      let key ← nodeUnless fuel true true [.key, .value, .blockEnd]
      let value ← entryValue fuel true [.key, .value, .blockEnd]
      return (key, value) :: (← blockEntries fuel)
    | some .blockEnd =>
      skip
      return []
    | _ => failure

/-- Reads the items of a flow sequence and its end. -/
def flowItems : Nat → Bool → NodeReader (List Node)
  | 0, _ => failure
  | fuel + 1, first => do
    if !first && !(← ahead [.flowSequenceEnd]) then
      if ← ahead [.flowEntry] then skip else failure
    match ← peek with
    | some .flowSequenceEnd =>
      skip
      return []
    | some .key =>
      skip
      let missing ← ahead [.value, .flowEntry, .flowSequenceEnd]
      if missing then skip
      let key ← if missing then pure .empty else node fuel false false
      let value ← entryValue fuel false [.flowEntry, .flowSequenceEnd]
      return .mapping none [(key, value)] :: (← flowItems fuel false)
    | _ =>
      let item ← node fuel false false
      return item :: (← flowItems fuel false)

/-- Reads the entries of a flow mapping and its end. -/
def flowEntries : Nat → Bool → NodeReader (List (Node × Node))
  | 0, _ => failure
  | fuel + 1, first => do
    if !first && !(← ahead [.flowMappingEnd]) then
      if ← ahead [.flowEntry] then skip else failure
    match ← peek with
    | some .flowMappingEnd =>
      skip
      return []
    | some .key =>
      skip
      let key ← nodeUnless fuel false false [.value, .flowEntry, .flowMappingEnd]
      let value ← entryValue fuel false [.flowEntry, .flowMappingEnd]
      return (key, value) :: (← flowEntries fuel false)
    | _ =>
      let key ← node fuel false false
      return (key, .empty) :: (← flowEntries fuel false)
end

/-- The handles that need no directive. -/
def standardHandles : List (String × String) := [("!", "!"), ("!!", "tag:yaml.org,2002:")]

/-- Reads the directives in front of a document. -/
def directives : Nat → Bool → NodeReader Unit
  | 0, _ => failure
  | fuel + 1, versioned => do
    match ← peek with
    | some (.version major minor) =>
      if versioned || major != 1 || (minor != 1 && minor != 2) then failure
      else
        skip
        directives fuel true
    | some (.shorthand handle start) =>
      if ((← get).handles.lookup handle).isSome then failure
      else
        skip
        modify fun u => { u with handles := u.handles ++ [(handle, start)] }
        directives fuel versioned
    | _ => modify fun u => { u with handles := u.handles ++ standardHandles }

/-- Reads a document. -/
def document (fuel : Nat) : NodeReader Node := do
  match ← peek with
  | none => failure
  | some t =>
    let explicit := match t with
      | .version _ _ => true
      | .shorthand _ _ => true
      | .documentStart => true
      | _ => false
    directives fuel false
    if !explicit then node fuel true false
    else if !(← ahead [.documentStart]) then failure
    else
      skip
      match ← peek with
      | none => return .empty
      | some .documentStart => return .empty
      | some .documentEnd => return .empty
      | some (.version _ _) => return .empty
      | some (.shorthand _ _) => return .empty
      | _ => node fuel true false

end NodeReader

/-- The only document of a list of tokens; markers of its end may follow it, and nothing
    else. -/
def Node.ofTokens (tokens : List Token) : Option Node := do
  let (node, unread) ← NodeReader.document (4 * tokens.length + 8) { tokens := tokens }
  if unread.tokens.all (· == .documentEnd) then some node else none

/-- The only document of a text. -/
def Node.ofText (text : String) : Option Node := do
  Node.ofTokens (← Token.scan text)

end Yaml

end ModelOperator

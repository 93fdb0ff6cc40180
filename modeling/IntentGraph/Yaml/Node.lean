import IntentGraph.Yaml.Token

/-!
# Nodes of YAML

The tree that the tokens of a document make. A node may carry a tag and be
anchored; an alias stands for the node that is anchored under its number.
`Node.ofTokens?` builds the tree of the only document of a text, or gives
nothing when the tokens make none.
-/

namespace IntentGraph.Yaml

/-- A part of a document. -/
inductive Node where
  | scalar (tag : Option String) (form : ScalarForm) (text : String)
  | list (tag : Option String) (items : List Node)
  | mapping (tag : Option String) (entries : List (Node × Node))
  | anchored (number : Nat) (content : Node)
  | alias (number : Nat)

/-- The node that stands where nothing is written. -/
def Node.blank : Node := .scalar none .plain ""

/-! ## Building -/

/-- What nodes are built from: the tokens that are left, the numbers of the
anchors so far, and what the handles of tags stand for. -/
structure Supply where
  tokens : List Token
  anchors : List (String × Nat)
  handles : List (String × String)

/-- A step that uses tokens up, and fails when they do not fit. -/
abbrev Build := StateT Supply Option

namespace Build

/-- The next token. -/
def peek : Build (Option Token) := return (← get).tokens.head?

/-- Passes over the next token. -/
def pass : Build Unit := modify fun s => { s with tokens := s.tokens.drop 1 }

/-- Passes over the next token if it is the given one. -/
def passIf (token : Token) : Build Bool := do
  if (← peek) = some token then
    pass
    return true
  else return false

/-- Fails. -/
def refuse {α : Type} : Build α := fun _ => none

/-- Whether the next token is one of some, or there is none. -/
def isNext (tokens : List Token) : Build Bool := do
  return ((← peek).map tokens.contains).getD false

/-- The number that an anchor gets: that of the names so far. A name that is
used again leads to the new node from here on, while its old number goes to
whichever anchor gets it next. -/
def declare (name : String) : Build Nat := do
  let s ← get
  let number := s.anchors.length
  set { s with anchors := (name, number) :: s.anchors.filter (·.1 != name) }
  return number

/-- The tag that a handle and a name make. -/
def resolveTag (handle suffix : String) : Build String := do
  if handle = "" then return suffix
  match (← get).handles.lookup handle with
  | some expansion => return expansion ++ suffix
  | none => refuse

/-- Reads an anchor, if one is next. -/
def anchor? : Build (Option String) := do
  match ← peek with
  | some (.anchor name) =>
    pass
    return some name
  | _ => return none

/-- Reads a tag, if one is next. -/
def tag? : Build (Option String) := do
  match ← peek with
  | some (.tag handle suffix) =>
    pass
    return some (← resolveTag handle suffix)
  | _ => return none

/-- Reads the anchor and the tag of a node, in either order. -/
def properties : Build (Option String × Option String) := do
  let anchor ← anchor?
  let tag ← tag?
  match anchor with
  | some name => return (some name, tag)
  | none => return (← if tag.isSome then anchor? else pure none, tag)

mutual

/-- Reads a node. In block context it may be a block list or mapping, and under
a key also a list whose items stand where the key stands. -/
def node : (fuel : Nat) → (inBlock underKey : Bool) → Build Node
  | 0, _, _ => refuse
  | fuel + 1, inBlock, underKey => do
    if let some (.alias name) := ← peek then
      pass
      match (← get).anchors.lookup name with
      | some number => return .alias number
      | none => refuse
    else
      let (anchor, tag) ← properties
      let number ← anchor.mapM declare
      let content ← content fuel inBlock underKey
        (anchor.isSome || tag.isSome) tag
      return (number.map (Node.anchored · content)).getD content

/-- Reads what a node holds. A node with an anchor or a tag may hold nothing. -/
def content : (fuel : Nat) → (inBlock underKey mayBeBlank : Bool) →
    (tag : Option String) →
    Build Node
  | 0, _, _, _, _ => refuse
  | fuel + 1, inBlock, underKey, mayBeBlank, tag => do
    match ← peek, inBlock, underKey with
    | some .item, _, true => return .list tag (← siblingItems fuel)
    | some (.scalar form text), _, _ =>
      pass
      -- the bare mark of a tag says that a scalar has none
      return .scalar (if tag = some "!" then none else tag) form text
    | some .flowList, _, _ =>
      pass
      return .list tag (← flowItems fuel true)
    | some .flowMapping, _, _ =>
      pass
      return .mapping tag (← flowEntries fuel true)
    | some .blockList, true, _ =>
      pass
      return .list tag (← blockItems fuel)
    | some .blockMapping, true, _ =>
      pass
      return .mapping tag (← blockEntries fuel)
    | _, _, _ => if mayBeBlank then return .scalar tag .plain "" else refuse

/-- Reads a node, unless one of some tokens shows that nothing is written. -/
def nodeUnless : (fuel : Nat) → (ends : List Token) →
    (inBlock underKey : Bool) → Build Node
  | 0, _, _, _ => refuse
  | fuel + 1, ends, inBlock, underKey => do
    if ← isNext ends then return .blank else node fuel inBlock underKey

/-- Reads the items of a block list to its end. -/
def blockItems : (fuel : Nat) → Build (List Node)
  | 0 => refuse
  | fuel + 1 => do
    if ← passIf .item then
      let first ← nodeUnless fuel [.item, .blockEnd] true false
      return first :: (← blockItems fuel)
    else if ← passIf .blockEnd then return []
    else refuse

/-- Reads the items of a list that stands where its key stands. -/
def siblingItems : (fuel : Nat) → Build (List Node)
  | 0 => refuse
  | fuel + 1 => do
    if ← passIf .item then
      let first ← nodeUnless fuel [.item, .key, .value, .blockEnd] true false
      return first :: (← siblingItems fuel)
    else return []

/-- Reads the entries of a block mapping to its end. -/
def blockEntries : (fuel : Nat) → Build (List (Node × Node))
  | 0 => refuse
  | fuel + 1 => do
    if ← passIf .key then
      let key ← nodeUnless fuel [.key, .value, .blockEnd] true true
      let value ← if ← passIf .value then
        nodeUnless fuel [.key, .value, .blockEnd] true true
        else pure .blank
      return (key, value) :: (← blockEntries fuel)
    else if ← passIf .blockEnd then return []
    else refuse

/-- Reads the items of a list in brackets to its end. An item with a key is a
mapping of its own. -/
def flowItems : (fuel : Nat) → (isFirst : Bool) → Build (List Node)
  | 0, _ => refuse
  | fuel + 1, isFirst => do
    if ← passIf .flowListEnd then return []
    if !isFirst then
      if !(← passIf .comma) then refuse
    if ← passIf .flowListEnd then return []
    let first ←
      if ← passIf .key then
        let key ← if ← isNext [.value, .comma, .flowListEnd] then
            -- a mark without a key takes what follows it along
            pass
            pure .blank
          else node fuel false false
        let value ← if ← passIf .value then
          nodeUnless fuel [.comma, .flowListEnd] false false
          else pure .blank
        pure (.mapping none [(key, value)])
      else node fuel false false
    return first :: (← flowItems fuel false)

/-- Reads the entries of a mapping in brackets to its end. A key without a mark
and a colon has no value. -/
def flowEntries : (fuel : Nat) → (isFirst : Bool) → Build (List (Node × Node))
  | 0, _ => refuse
  | fuel + 1, isFirst => do
    if ← passIf .flowMappingEnd then return []
    if !isFirst then
      if !(← passIf .comma) then refuse
    if ← passIf .flowMappingEnd then return []
    let entry ←
      if ← passIf .key then
        let key ← nodeUnless fuel [.value, .comma, .flowMappingEnd] false false
        let value ← if ← passIf .value then
          nodeUnless fuel [.comma, .flowMappingEnd] false false
          else pure .blank
        pure (key, value)
      else pure (← node fuel false false, .blank)
    return entry :: (← flowEntries fuel false)

end

end Build

/-! ## Documents -/

/-- Reads the directives in front of a document: at most one version, which has
to be a known one, and one meaning for every handle. -/
def takeDirectives (hasVersion : Bool) (handles : List (String × String)) :
    List Token → Option (List (String × String) × List Token)
  | .version major minor :: rest =>
    if hasVersion || major != 1 || (minor != 1 && minor != 2) then none
    else takeDirectives true handles rest
  | .handle name expansion :: rest =>
    if handles.any (·.1 == name) then none
    else takeDirectives hasVersion (handles ++ [(name, expansion)]) rest
  | rest => some (handles, rest)

/-- What every tag of YAML itself starts with. -/
def standardTag : String := "tag:yaml.org,2002:"

/-- What handles stand for unless a directive says otherwise. -/
def standardHandles : List (String × String) :=
  [("!", "!"), ("!!", standardTag)]

/-- Whether a token ends a document that has started. -/
def Token.endsDocument : Token → Bool
  | .version _ _ | .handle _ _ | .documentStart | .documentEnd => true
  | _ => false

/-- The root of the only document that tokens make. -/
def Node.ofTokens? (tokens : List Token) : Option Node := do
  if tokens.isEmpty then return .blank
  let (handles, rest) ← takeDirectives false [] tokens
  let supply (tokens : List Token) : Supply :=
    ⟨tokens, [], handles ++ standardHandles⟩
  let root (tokens : List Token) :=
    (Build.node (4 * tokens.length + 4) true false).run (supply tokens)
  let (root, supply) ← match rest with
    | .documentStart :: rest =>
      if (rest.head?.map Token.endsDocument).getD true then
        pure (.blank, supply rest)
      else root rest
    -- directives belong to a document that is marked
    | rest => if rest.length < tokens.length then none else root rest
  if supply.tokens.all (· = .documentEnd) then return root else none

end IntentGraph.Yaml

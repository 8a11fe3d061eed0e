import ApiShell.Yaml.Implicit
import ApiShell.Yaml.Token

/-!
# Nodes of a YAML document

The second stage of reading: the tokens become a tree of tagged scalars, sequences and mappings.
Anchors name nodes; an alias stands for the node of that name, which must be complete by then.
-/

namespace ApiShell.Yaml

/-- A node of a document. -/
inductive Node where
  | scalar (tag text : String)
  | sequence (tag : String) (items : List Node)
  | mapping (tag : String) (pairs : List (Node × Node))
deriving Inhabited

/-- The tag of a node. -/
def Node.tag : Node → String
  | scalar tag _ | sequence tag _ | mapping tag _ => tag

/-- The node of an absent text. -/
def Node.empty : Node := .scalar (standardTag "null") ""

/-- What is known while nodes are read: the rest of the tokens, the meaning of tag handles, and the
anchors; an anchor of a node that is not complete has none. -/
structure Reading where
  tokens : List Token
  handles : List (String × String)
  anchors : List (String × Option Node)

/-- The tag handles that every document knows. -/
def defaultHandles : List (String × String) := [("!", "!"), ("!!", "tag:yaml.org,2002:")]

namespace Reading

/-- A token that cannot stand where it does. -/
def misplaced {α : Type} : Except Trouble α := .error (.problem .arrangement)

/-- The next token. -/
def head? (r : Reading) : Option Token := r.tokens.head?

/-- Step over a token. -/
def skip (r : Reading) : Reading := { r with tokens := r.tokens.drop 1 }

/-- The next token is one of a list. -/
def at? (r : Reading) (ts : List Token) : Bool := ts.any (r.head? == some ·)

/-- The full name of a tag. -/
def expandTag (r : Reading) (handle : Option String) (suffix : String) :
    Except Trouble String :=
  match handle with
  | none => .ok suffix
  | some h => match r.handles.lookup h with
    | some start => .ok (start ++ suffix)
    | none => misplaced

/-- An anchor and a tag before a node, in either order, each at most once. -/
def properties (r : Reading) : Except Trouble (Option String × Option String × Reading) :=
  match r.tokens with
  | .anchor a :: .tag h s :: ts => do
    return (some a, some (← r.expandTag h s), { r with tokens := ts })
  | .anchor a :: ts => .ok (some a, none, { r with tokens := ts })
  | .tag h s :: .anchor a :: ts => do
    return (some a, some (← r.expandTag h s), { r with tokens := ts })
  | .tag h s :: ts => do
    return (none, some (← r.expandTag h s), { r with tokens := ts })
  | _ => .ok (none, none, r)

/-- The node of an anchor is about to be read; an anchor names one node only. -/
def openAnchor (r : Reading) (anchor : Option String) : Except Trouble Reading :=
  match anchor with
  | none => .ok r
  | some a =>
    if (r.anchors.lookup a).isSome then misplaced
    else .ok { r with anchors := (a, none) :: r.anchors }

/-- The node of an anchor is complete. -/
def closeAnchor (r : Reading) (anchor : Option String) (n : Node) : Reading :=
  match anchor with
  | none => r
  | some a =>
    { r with anchors := r.anchors.map fun p => if p.1 == a then (a, some n) else p }

/-- The tag of a collection: a lone exclamation mark leaves the choice open. -/
def collectionTag (tag : Option String) (default : String) : String :=
  match tag with
  | some "!" | none => standardTag default
  | some t => t

/-- The tag of a scalar. -/
def scalarTag (tag : Option String) (plain : Bool) (text : String) : String :=
  match tag with
  | some "!" => implicitTag text
  | none => if plain then implicitTag text else standardTag "str"
  | some t => t

end Reading

open Reading in
mutual

/-- A node.  `block` allows block collections, `entries` a sequence of dashes that is not indented. -/
def node (block entries : Bool) : Nat → Reading → Except Trouble (Node × Reading)
  | 0, _ => misplaced
  | fuel + 1, r =>
    match r.head? with
    | some (.alias name) =>
      match r.anchors.lookup name with
      | some (some n) => .ok (n, r.skip)
      | _ => misplaced
    | _ => do
      let (anchor, tag, r) ← r.properties
      let r ← r.openAnchor anchor
      let finish (n : Node) (r : Reading) : Except Trouble (Node × Reading) :=
        .ok (n, r.closeAnchor anchor n)
      match r.head? with
      | some (.scalar plain text) => finish (.scalar (scalarTag tag plain text) text) r.skip
      | some .flowSequenceStart =>
        let (items, r) ← flowItems true fuel r.skip
        finish (.sequence (collectionTag tag "seq") items) r
      | some .flowMappingStart =>
        let (pairs, r) ← flowPairs true fuel r.skip
        finish (.mapping (collectionTag tag "map") pairs) r
      | some .blockEntry =>
        if entries then
          let (items, r) ← looseItems fuel r
          finish (.sequence (collectionTag tag "seq") items) r
        else absent anchor tag r
      | some .blockSequenceStart =>
        if block then
          let (items, r) ← blockItems fuel r.skip
          finish (.sequence (collectionTag tag "seq") items) r
        else absent anchor tag r
      | some .blockMappingStart =>
        if block then
          let (pairs, r) ← blockPairs fuel r.skip
          finish (.mapping (collectionTag tag "map") pairs) r
        else absent anchor tag r
      | _ => absent anchor tag r

/-- A node of which only an anchor or a tag is written. -/
def absent (anchor tag : Option String) (r : Reading) : Except Trouble (Node × Reading) :=
  if anchor.isNone && tag.isNone then misplaced
  else
    let n := Node.scalar (scalarTag tag true "") ""
    .ok (n, r.closeAnchor anchor n)

/-- A node, or nothing before one of the tokens that end it. -/
def nodeOrEmpty (block entries : Bool) (ends : List Token) :
    Nat → Reading → Except Trouble (Node × Reading)
  | 0, _ => misplaced
  | fuel + 1, r => if r.at? ends then .ok (.empty, r) else node block entries fuel r

/-- The items of an indented sequence up to its end. -/
def blockItems : Nat → Reading → Except Trouble (List Node × Reading)
  | 0, _ => misplaced
  | fuel + 1, r =>
    match r.head? with
    | some .blockEntry => do
      let (n, r) ← nodeOrEmpty true false [.blockEntry, .blockEnd] fuel r.skip
      let (ns, r) ← blockItems fuel r
      return (n :: ns, r)
    | some .blockEnd => .ok ([], r.skip)
    | _ => misplaced

/-- The items of a sequence that is not indented, up to something that is no item. -/
def looseItems : Nat → Reading → Except Trouble (List Node × Reading)
  | 0, _ => misplaced
  | fuel + 1, r =>
    match r.head? with
    | some .blockEntry => do
      let (n, r) ← nodeOrEmpty true false [.blockEntry, .key, .value, .blockEnd] fuel r.skip
      let (ns, r) ← looseItems fuel r
      return (n :: ns, r)
    | _ => .ok ([], r)

/-- The pairs of an indented mapping up to its end. -/
def blockPairs : Nat → Reading → Except Trouble (List (Node × Node) × Reading)
  | 0, _ => misplaced
  | fuel + 1, r => do
    let ends : List Token := [.key, .value, .blockEnd]
    match r.head? with
    | some .blockEnd => return ([], r.skip)
    | some .key =>
      let (k, r) ← nodeOrEmpty true true ends fuel r.skip
      let (v, r) ←
        if r.at? [.value] then nodeOrEmpty true true ends fuel r.skip else pure (.empty, r)
      let (ps, r) ← blockPairs fuel r
      return ((k, v) :: ps, r)
    | _ => misplaced

/-- The value of a pair inside brackets, if there is one. -/
def flowValue (ends : List Token) : Nat → Reading → Except Trouble (Node × Reading)
  | 0, _ => misplaced
  | fuel + 1, r =>
    if r.at? [.value] then nodeOrEmpty false false ends fuel r.skip else .ok (.empty, r)

/-- The items of a sequence in brackets.  A pair among them is a mapping of its own. -/
def flowItems (first : Bool) : Nat → Reading → Except Trouble (List Node × Reading)
  | 0, _ => misplaced
  | fuel + 1, r => do
    let ends : List Token := [.flowEntry, .flowSequenceEnd]
    if r.at? [.flowSequenceEnd] then return ([], r.skip)
    else if !first && !r.at? [.flowEntry] then misplaced
    else
      let r := if first then r else r.skip
      if r.at? [.key] then
        let (k, r) ← nodeOrEmpty false false (.value :: ends) fuel r.skip
        let (v, r) ← flowValue ends fuel r
        let (ns, r) ← flowItems false fuel r
        return (.mapping (standardTag "map") [(k, v)] :: ns, r)
      else if r.at? [.flowSequenceEnd] then return ([], r.skip)
      else
        let (n, r) ← node false false fuel r
        let (ns, r) ← flowItems false fuel r
        return (n :: ns, r)

/-- The pairs of a mapping in braces.  A key alone has no value. -/
def flowPairs (first : Bool) : Nat → Reading → Except Trouble (List (Node × Node) × Reading)
  | 0, _ => misplaced
  | fuel + 1, r => do
    let ends : List Token := [.flowEntry, .flowMappingEnd]
    if r.at? [.flowMappingEnd] then return ([], r.skip)
    else if !first && !r.at? [.flowEntry] then misplaced
    else
      let r := if first then r else r.skip
      if r.at? [.key] then
        let (k, r) ← nodeOrEmpty false false (.value :: ends) fuel r.skip
        let (v, r) ← flowValue ends fuel r
        let (ps, r) ← flowPairs false fuel r
        return ((k, v) :: ps, r)
      else if r.at? [.flowMappingEnd] then return ([], r.skip)
      else
        let (k, r) ← node false false fuel r
        let (ps, r) ← flowPairs false fuel r
        return ((k, .empty) :: ps, r)

end

/-- The directives before a document. -/
def directives : List Token → Bool → List (String × String) →
    Except Trouble (List Token × List (String × String))
  | .versionDirective major _ :: ts, versioned, handles =>
    if versioned || major != 1 then Reading.misplaced else directives ts true handles
  | .tagDirective handle start :: ts, versioned, handles =>
    if (handles.lookup handle).isSome then Reading.misplaced
    else directives ts versioned ((handle, start) :: handles)
  | .otherDirective :: ts, versioned, handles => directives ts versioned handles
  | ts, _, handles => .ok (ts, handles ++ defaultHandles)

/-- The token begins or ends a document. -/
def Token.isDocumentToken : Token → Bool
  | versionDirective _ _ | tagDirective _ _ | otherDirective | documentStart | documentEnd => true
  | _ => false

/-- What follows the end of a document must be the end of the text. -/
def endOfText (r : Reading) : Except Trouble Unit :=
  if (r.tokens.dropWhile (· == .documentEnd)).isEmpty then .ok () else Reading.misplaced

/-- The only document of a text; a text without one has none. -/
def Node.ofTokens? (tokens : List Token) : Except Trouble (Option Node) := do
  let fuel := 4 * tokens.length + 4
  match tokens with
  | [] => return none
  | t :: _ =>
    if !t.isDocumentToken || t == .documentEnd then
      let (n, r) ← node true false fuel ⟨tokens, defaultHandles, []⟩
      endOfText r
      return some n
    else
      let (tokens, handles) ← directives tokens false []
      match tokens with
      | .documentStart :: rest =>
        let r : Reading := ⟨rest, handles, []⟩
        match rest.head? with
        | none => return some .empty
        | some t =>
          let (n, r) ← if t.isDocumentToken then pure (.empty, r) else node true false fuel r
          endOfText r
          return some n
      | _ => Reading.misplaced

end ApiShell.Yaml

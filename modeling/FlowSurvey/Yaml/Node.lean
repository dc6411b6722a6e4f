import FlowSurvey.Yaml.Token

/-!
# YAML nodes

A document is a node: a scalar, a sequence or a mapping.  Where a node is left out
an empty plain scalar takes its place.  An alias stands for a node that has been
named before it.
-/

namespace FlowSurvey.Yaml

inductive Node where
  | scalar (text : String) (style : Style) (tag : Option String) (mark : Mark)
  | sequence (items : List Node) (mark : Mark)
  | mapping (entries : List (Node × Node)) (mark : Mark)
  deriving Inhabited

def Node.mark : Node → Mark
  | .scalar _ _ _ mark | .sequence _ mark | .mapping _ mark => mark

structure NodeState where
  tokens : List Located
  /-- The nodes that have been named, the latest first. -/
  anchors : List (String × Node) := []
  /-- What the handles at the start of tags are short for. -/
  handles : List (String × String) := []

abbrev Build := StateT NodeState (Except Fault)

def peek : Build Located := do
  return (← get).tokens.headD ⟨.streamEnd, ⟨0, 0⟩⟩

def advance : Build Unit :=
  modify fun s => { s with tokens := s.tokens.drop 1 }

def emptyScalar (mark : Mark) : Node :=
  .scalar "" .plain none mark

/-- The tags of the values that every document knows start with this. -/
def coreTagStart : String := "tag:yaml.org,2002:"

def coreTag (kind : String) : String :=
  coreTagStart ++ kind

/-- The handles that need no directive. -/
def coreHandles : List (String × String) :=
  [("!", "!"), ("!!", coreTagStart)]

def unexpected (problem context : String) (start : Mark) : Build α := do
  throw ⟨problem, (← peek).mark, some (context, start)⟩

/-- The tokens before which a node has been left out. -/
def endsEntry : Token → Bool
  | .blockEntry | .key | .value | .blockEnd => true
  | _ => false

structure Properties where
  anchor : Option String := none
  tag : Option String := none

def Properties.isEmpty (p : Properties) : Bool :=
  p.anchor.isNone && p.tag.isNone

/-- A tag in full. -/
def fullTag (handle suffix : String) (start : Mark) : Build String := do
  if handle.isEmpty then return suffix
  match (← get).handles.lookup handle with
  | some beginning => return beginning ++ suffix
  | none => unexpected "found undefined tag handle" "while parsing a node" start

/-- The anchor and the tag before a node, in either order. -/
def readProperties (p : Properties) : (fuel : Nat) → Build Properties
  | 0 => return p
  | n + 1 => do
      let t ← peek
      match t.token with
      | .anchor name =>
          if p.anchor.isSome then return p
          else
            advance
            readProperties { p with anchor := some name } n
      | .tag handle suffix =>
          if p.tag.isSome then return p
          else
            let tag ← fullTag handle suffix t.mark
            advance
            readProperties { p with tag := some tag } n
      | _ => return p

mutual

/-- A node; sequences without indentation of their own may stand in mappings. -/
def readNode (block indentless : Bool) : (fuel : Nat) → Build Node
  | 0 => unexpected "recursion limit exceeded" "while parsing a node" ⟨0, 0⟩
  | n + 1 => do
      let start ← peek
      if let .reference name := start.token then
        advance
        match (← get).anchors.lookup name with
        | some node => return node
        | none => throw ⟨"unknown anchor", start.mark, none⟩
      let properties ← readProperties {} 2
      let t ← peek
      let node ←
        match t.token with
        | .blockEntry =>
            if indentless then do pure (.sequence (← readIndentless t.mark n) t.mark)
            else readEmpty properties block start.mark
        | .scalar text style => do
            advance
            pure (.scalar text style properties.tag t.mark)
        | .flowSequenceStart => do
            advance
            pure (.sequence (← readFlowItems t.mark true n) t.mark)
        | .flowMappingStart => do
            advance
            pure (.mapping (← readFlowEntries t.mark true n) t.mark)
        | .blockSequenceStart =>
            if block then do
              advance
              pure (.sequence (← readBlockItems t.mark n) t.mark)
            else readEmpty properties block start.mark
        | .blockMappingStart =>
            if block then do
              advance
              pure (.mapping (← readBlockEntries t.mark n) t.mark)
            else readEmpty properties block start.mark
        | _ => readEmpty properties block start.mark
      match properties.anchor with
      | some name => modify fun s => { s with anchors := (name, node) :: s.anchors }
      | none => pure ()
      return node

/-- A node of which only the properties are written. -/
def readEmpty (properties : Properties) (block : Bool) (start : Mark) : Build Node := do
  if properties.isEmpty then
    unexpected "did not find expected node content"
      (if block then "while parsing a block node" else "while parsing a flow node") start
  else return .scalar "" .plain properties.tag (← peek).mark

def readBlockItems (start : Mark) : (fuel : Nat) → Build (List Node)
  | 0 => return []
  | n + 1 => do
      let t ← peek
      match t.token with
      | .blockEntry => do
          advance
          let next ← peek
          let item ←
            match next.token with
            | .blockEntry | .blockEnd => pure (emptyScalar next.mark)
            | _ => readNode true false n
          return item :: (← readBlockItems start n)
      | .blockEnd => do
          advance
          return []
      | _ =>
          unexpected "did not find expected '-' indicator" "while parsing a block collection" start

def readIndentless (start : Mark) : (fuel : Nat) → Build (List Node)
  | 0 => return []
  | n + 1 => do
      let t ← peek
      match t.token with
      | .blockEntry => do
          advance
          let next ← peek
          let item ←
            if endsEntry next.token then pure (emptyScalar next.mark) else readNode true false n
          return item :: (← readIndentless start n)
      | _ => return []

def readBlockEntries (start : Mark) : (fuel : Nat) → Build (List (Node × Node))
  | 0 => return []
  | n + 1 => do
      let t ← peek
      match t.token with
      | .key => do
          advance
          let next ← peek
          let key ←
            match next.token with
            | .key | .value | .blockEnd => pure (emptyScalar next.mark)
            | _ => readNode true true n
          let value ← readBlockValue n
          return (key, value) :: (← readBlockEntries start n)
      | .blockEnd => do
          advance
          return []
      | _ => unexpected "did not find expected key" "while parsing a block mapping" start

def readBlockValue : (fuel : Nat) → Build Node
  | 0 => return emptyScalar ⟨0, 0⟩
  | n + 1 => do
      let t ← peek
      match t.token with
      | .value => do
          advance
          let next ← peek
          match next.token with
          | .key | .value | .blockEnd => return emptyScalar next.mark
          | _ => readNode true true n
      | _ => return emptyScalar t.mark

/-- The items of a sequence in brackets; an item may be a mapping of a single entry. -/
def readFlowItems (start : Mark) (first : Bool) : (fuel : Nat) → Build (List Node)
  | 0 => return []
  | n + 1 => do
      let t ← peek
      if t.token = .flowSequenceEnd then
        advance
        return []
      if !first then
        if t.token = .flowEntry then advance
        else
          unexpected "did not find expected ',' or ']'" "while parsing a flow sequence" start
      let t ← peek
      match t.token with
      | .flowSequenceEnd => do
          advance
          return []
      | .key => do
          advance
          let next ← peek
          let key ←
            match next.token with
            | .value | .flowEntry | .flowSequenceEnd => pure (emptyScalar next.mark)
            | _ => readNode false false n
          let value ← readFlowValue n
          return .mapping [(key, value)] t.mark :: (← readFlowItems start false n)
      | _ => do
          let item ← readNode false false n
          return item :: (← readFlowItems start false n)

def readFlowEntries (start : Mark) (first : Bool) : (fuel : Nat) → Build (List (Node × Node))
  | 0 => return []
  | n + 1 => do
      let t ← peek
      if t.token = .flowMappingEnd then
        advance
        return []
      if !first then
        if t.token = .flowEntry then advance
        else
          unexpected "did not find expected ',' or '\x7d'" "while parsing a flow mapping" start
      let t ← peek
      match t.token with
      | .flowMappingEnd => do
          advance
          return []
      | .key => do
          advance
          let next ← peek
          let key ←
            match next.token with
            | .value | .flowEntry | .flowMappingEnd => pure (emptyScalar next.mark)
            | _ => readNode false false n
          let value ← readFlowValue n
          return (key, value) :: (← readFlowEntries start false n)
      | _ => do
          let key ← readNode false false n
          let value := emptyScalar (← peek).mark
          return (key, value) :: (← readFlowEntries start false n)

def readFlowValue : (fuel : Nat) → Build Node
  | 0 => return emptyScalar ⟨0, 0⟩
  | n + 1 => do
      let t ← peek
      match t.token with
      | .value => do
          advance
          let next ← peek
          match next.token with
          | .flowEntry | .flowSequenceEnd | .flowMappingEnd => return emptyScalar next.mark
          | _ => readNode false false n
      | _ => return emptyScalar t.mark

end

/-! ## Documents -/

/-- The directives before a document; each gives something that no other gives. -/
def readDirectives (versioned : Bool) : (fuel : Nat) → Build Unit
  | 0 => return
  | n + 1 => do
      let t ← peek
      match t.token with
      | .version major minor => do
          if versioned then throw ⟨"found duplicate %YAML directive", t.mark, none⟩
          if major ≠ 1 || (minor ≠ 1 && minor ≠ 2) then
            throw ⟨"found incompatible YAML document", t.mark, none⟩
          advance
          readDirectives true n
      | .tagDirective handle start => do
          if ((← get).handles.lookup handle).isSome then
            throw ⟨"found duplicate %TAG directive", t.mark, none⟩
          advance
          modify fun s => { s with handles := (handle, start) :: s.handles }
          readDirectives versioned n
      | _ => return

def skipDocumentEnds : (fuel : Nat) → Build Unit
  | 0 => return
  | n + 1 => do
      if (← peek).token = .documentEnd then
        advance
        skipDocumentEnds n

/-- A document, unless the text ends; only the first one needs no mark at its start. -/
def readDocument (first : Bool) : Build (Option Node) := do
  let fuel := (← get).tokens.length
  if !first then skipDocumentEnds fuel
  let t ← peek
  match t.token with
  | .streamEnd => return none
  | .version _ _ | .tagDirective _ _ | .documentStart => do
      readDirectives false fuel
      modify fun s => { s with handles := s.handles ++ coreHandles }
      if (← peek).token ≠ .documentStart then
        throw ⟨"did not find expected <document start>", (← peek).mark, none⟩
      advance
      let next ← peek
      match next.token with
      | .version _ _ | .tagDirective _ _ | .documentStart | .documentEnd | .streamEnd =>
          return some (emptyScalar next.mark)
      | _ => return some (← readNode true false (2 * fuel))
  | _ =>
      if first then
        modify fun s => { s with handles := coreHandles }
        return some (← readNode true false (2 * fuel))
      else throw ⟨"did not find expected <document start>", t.mark, none⟩

/-- The only document of a text, or nothing if the text is empty. -/
def readOnly : Build (Option Node) := do
  match ← readDocument true with
  | none => return none
  | some node => do
      if (← readDocument false).isSome then
        throw ⟨"deserializing from YAML containing more than one document is not supported",
          ⟨0, 0⟩, none⟩
      return some node

def parse (text : String) : Except Fault (Option Node) := do
  let tokens ← tokensOf text
  return (← readOnly.run { tokens }).1

end FlowSurvey.Yaml

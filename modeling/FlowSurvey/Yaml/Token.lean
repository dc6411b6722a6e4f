import FlowSurvey.Yaml.Scalar

/-!
# YAML tokens

Tokens show the structure that indentation has: a block starts where a line is
indented further than the block around it and ends where one is indented less.
That something is a key shows only when its colon comes; until then the place
where it started is kept, one for every level of brackets, and the key token is
put there.
-/

namespace FlowSurvey.Yaml

inductive Token where
  /-- A directive of the document that follows. -/
  | version (major minor : Nat)
  /-- What a handle at the start of a tag is short for. -/
  | tagDirective (handle start : String)
  | documentStart
  | documentEnd
  | blockSequenceStart
  | blockMappingStart
  | blockEnd
  | flowSequenceStart
  | flowSequenceEnd
  | flowMappingStart
  | flowMappingEnd
  | blockEntry
  | flowEntry
  | key
  | value
  | reference (name : String)
  | anchor (name : String)
  /-- A tag that is written in full has no handle. -/
  | tag (handle suffix : String)
  | scalar (text : String) (style : Style)
  | streamEnd
  deriving DecidableEq, Repr

structure Located where
  token : Token
  mark : Mark

/-- Where something started that may turn out to be a key. -/
structure PossibleKey where
  /-- Nothing else can stand there. -/
  required : Bool
  position : Nat
  mark : Mark
  index : Nat

structure ScanState where
  cursor : Cursor
  tokens : List Located := []
  /-- The column of the innermost block; none is less than zero. -/
  indent : Int := -1
  /-- The columns of the blocks around it, the innermost first. -/
  outer : List Int := []
  keyAllowed : Bool := true
  /-- The possible key of every level of brackets, the innermost first. -/
  keys : List (Option PossibleKey) := [none]

abbrev Scan := StateT ScanState (Except Fault)

namespace ScanState

def inFlow (s : ScanState) : Bool :=
  1 < s.keys.length

/-- The tokens are kept with the last one first. -/
def push (s : ScanState) (token : Token) (mark : Mark) : ScanState :=
  { s with tokens := ⟨token, mark⟩ :: s.tokens }

/-- Puts a token behind a number of tokens. -/
def insertAt (s : ScanState) (position : Nat) (token : Token) (mark : Mark) : ScanState :=
  let n := s.tokens.length - position
  { s with tokens := s.tokens.take n ++ ⟨token, mark⟩ :: s.tokens.drop n }

/-- Closes the blocks that are indented further than a column. -/
def unroll (column : Int) (s : ScanState) : ScanState :=
  if s.inFlow then s
  else
    let closed := (s.indent :: s.outer).takeWhile (column < ·)
    let left := (s.indent :: s.outer).dropWhile (column < ·)
    let tokens := closed.map fun _ => (⟨.blockEnd, s.cursor.mark⟩ : Located)
    { s with
      tokens := tokens ++ s.tokens
      indent := left.headD (-1)
      outer := left.drop 1 }

def roll (column : Nat) (position : Option Nat) (token : Token) (mark : Mark) (s : ScanState) :
    ScanState :=
  if s.inFlow || (column : Int) ≤ s.indent then s
  else
    let opened := { s with indent := column, outer := s.indent :: s.outer }
    match position with
    | some n => opened.insertAt n token mark
    | none => opened.push token mark

end ScanState

def keyFault (k : PossibleKey) (place : Mark) : Fault :=
  ⟨"could not find expected ':'", place, some ("while scanning a simple key", k.mark)⟩

/-- Gives up a possible key, which must not be one that is required. -/
def removeKey : Scan Unit := do
  let s ← get
  match s.keys with
  | some k :: rest => do
      if k.required then throw (keyFault k s.cursor.mark)
      set { s with keys := none :: rest }
  | _ => return

/-- What comes next may be a key. -/
def saveKey : Scan Unit := do
  let s ← get
  if s.keyAllowed then
    removeKey
    let required := !s.inFlow && s.indent = s.cursor.mark.column
    let k : PossibleKey := ⟨required, s.tokens.length, s.cursor.mark, s.cursor.index⟩
    modify fun s => { s with keys := some k :: s.keys.drop 1 }

/-- A key is on one line and has at most 1024 characters. -/
def isStale (c : Cursor) (k : PossibleKey) : Bool :=
  k.mark.line < c.mark.line || k.index + 1024 < c.index

def dropStaleKeys : Scan Unit := do
  let s ← get
  match (s.keys.filterMap id).find? fun k => isStale s.cursor k && k.required with
  | some k => throw (keyFault k s.cursor.mark)
  | none => set { s with keys := s.keys.map (Option.filter fun k => !isStale s.cursor k) }

def skip (n : Nat) : Scan Unit :=
  modify fun s => { s with cursor := s.cursor.drop n }

def emit (token : Token) (n : Nat) : Scan Unit := do
  modify fun s => s.push token s.cursor.mark
  skip n

def allowKey (allowed : Bool) : Scan Unit :=
  modify fun s => { s with keyAllowed := allowed }

/-! ## Between tokens -/

/-- Goes on to the next token; a key may start on a new line. -/
def skipToToken : (fuel : Nat) → Scan Unit
  | 0 => return
  | n + 1 => do
      let s ← get
      match s.cursor.rest with
      | ' ' :: _ => do
          skip 1
          skipToToken n
      | '\t' :: _ => do
          if s.inFlow || !s.keyAllowed then
            skip 1
            skipToToken n
      | '#' :: _ => do
          set { s with cursor := s.cursor.dropWhile fun _ => true }
          skipToToken n
      | c :: _ => do
          if isBreak c then
            skip 1
            if !s.inFlow then allowKey true
            skipToToken n
      | [] => return

/-! ## Structure -/

def scanMarker (token : Token) : Scan Unit := do
  modify (·.unroll (-1))
  removeKey
  allowKey false
  emit token 3

def openBracket (token : Token) : Scan Unit := do
  saveKey
  modify fun s => { s with keys := none :: s.keys, keyAllowed := true }
  emit token 1

def closeBracket (token : Token) : Scan Unit := do
  removeKey
  modify fun s =>
    { s with keys := if s.inFlow then s.keys.drop 1 else s.keys, keyAllowed := false }
  emit token 1

def scanFlowEntry : Scan Unit := do
  removeKey
  allowKey true
  emit .flowEntry 1

def notAllowed (what : String) : Scan Unit := do
  throw ⟨what ++ " not allowed in this context", (← get).cursor.mark, none⟩

def scanBlockEntry : Scan Unit := do
  let s ← get
  if !s.inFlow then
    if !s.keyAllowed then notAllowed "block sequence entries are"
    modify (·.roll s.cursor.mark.column none .blockSequenceStart s.cursor.mark)
  removeKey
  allowKey true
  emit .blockEntry 1

def scanKey : Scan Unit := do
  let s ← get
  if !s.inFlow then
    if !s.keyAllowed then notAllowed "mapping keys are"
    modify (·.roll s.cursor.mark.column none .blockMappingStart s.cursor.mark)
  removeKey
  allowKey !s.inFlow
  emit .key 1

def scanValue : Scan Unit := do
  let s ← get
  match s.keys with
  | some k :: rest => do
      modify fun s =>
        ({ s with keys := none :: rest }.insertAt k.position .key k.mark).roll k.mark.column
          (some k.position) .blockMappingStart k.mark
      allowKey false
  | _ => do
      if !s.inFlow then
        if !s.keyAllowed then notAllowed "mapping values are"
        modify (·.roll s.cursor.mark.column none .blockMappingStart s.cursor.mark)
      allowKey !s.inFlow
  emit .value 1

/-! ## Words -/

def isNameChar (c : Char) : Bool :=
  c.isAlphanum || c = '_' || c = '-'

/-- The name behind an asterisk or an ampersand. -/
def scanName (token : String → Token) (context : String) : Scan Unit := do
  saveKey
  allowKey false
  let s ← get
  let name := s.cursor.next.rest.takeWhile isNameChar
  let behind := s.cursor.drop (name.length + 1)
  let ends := endsWord behind.rest || behind.rest.head?.any "?:,]\x7d%@`".toList.contains
  if name.isEmpty || !ends then
    throw ⟨"did not find expected alphabetic or numeric character", behind.mark,
      some (context, s.cursor.mark)⟩
  emit (token (String.ofList name)) (name.length + 1)

/-- The characters of a tag; a tag that is written in full has more of them. -/
def isTagChar (full : Bool) (c : Char) : Bool :=
  isNameChar c || ";/?:@&=+$.!~*'()%".toList.contains c || (full && ",[]".toList.contains c)

/-- The bytes of a tag, in which a percent sign announces the two digits of a byte. -/
def tagBytes? : List Char → Option (List UInt8)
  | '%' :: high :: low :: rest => do
      return UInt8.ofNat ((← hexValue high) * 16 + (← hexValue low)) :: (← tagBytes? rest)
  | '%' :: _ => none
  | c :: rest => do return (String.singleton c).toUTF8.toList ++ (← tagBytes? rest)
  | [] => some []

def tagText? (cs : List Char) : Option String :=
  (tagBytes? cs).bind fun bytes => String.fromUTF8? ⟨bytes.toArray⟩

/-- The handle that a tag starts with, between exclamation marks or only behind one. -/
def tagHandle (tag : List Char) : List Char :=
  match (tag.drop 1).span isNameChar with
  | (name, '!' :: _) => '!' :: name ++ ['!']
  | _ => ['!']

def tagFault (problem : String) (place start : Mark) : Fault :=
  ⟨problem, place, some ("while scanning a tag", start)⟩

/-- A tag in angle brackets, with the number of its characters. -/
def readFullTag (c : Cursor) : Except Fault (Token × Nat) :=
  let uri := (c.rest.drop 2).takeWhile (isTagChar true)
  let behind := c.drop (2 + uri.length)
  match tagText? uri with
  | none => .error (tagFault "did not find URI escaped octet" behind.mark c.mark)
  | some text =>
      if uri.isEmpty then .error (tagFault "did not find expected tag URI" behind.mark c.mark)
      else if behind.rest.head? = some '>' then .ok (.tag "" text, uri.length + 3)
      else .error (tagFault "did not find the expected '>'" behind.mark c.mark)

/-- A tag with a handle, with the number of its characters; a lone mark is a tag. -/
def readShortTag (c : Cursor) : Except Fault (Token × Nat) :=
  let handle := tagHandle c.rest
  let uri := (c.rest.drop handle.length).takeWhile (isTagChar false)
  let length := handle.length + uri.length
  match tagText? uri with
  | none => .error (tagFault "did not find URI escaped octet" (c.drop length).mark c.mark)
  | some text =>
      if uri.isEmpty && 1 < handle.length then
        .error (tagFault "did not find expected tag URI" (c.drop length).mark c.mark)
      else if uri.isEmpty then .ok (.tag "" "!", length)
      else .ok (.tag (String.ofList handle) text, length)

def scanTag : Scan Unit := do
  saveKey
  allowKey false
  let s ← get
  let (token, length) ←
    if s.cursor.rest.drop 1 |>.head? |>.any (· = '<') then readFullTag s.cursor
    else readShortTag s.cursor
  let after := s.cursor.drop length
  if !endsWord after.rest && !(s.inFlow && after.rest.head? = some ',') then
    throw (tagFault "did not find expected whitespace or line break" after.mark s.cursor.mark)
  emit token length

def scanPlain : Scan Unit := do
  saveKey
  allowKey false
  let s ← get
  let start := s.cursor.mark
  let (text, broken, next) ←
    readPlain s.inFlow (s.indent + 1).toNat start [] [] false s.cursor.rest.length s.cursor
  modify fun s => { s.push (.scalar (String.ofList text) .plain) start with cursor := next }
  if broken then allowKey true

def scanQuoted (double : Bool) : Scan Unit := do
  saveKey
  allowKey false
  let s ← get
  let start := s.cursor.mark
  let (text, next) ← readQuoted double start [] (s.cursor.rest.length + 1) s.cursor.next
  modify fun s => { s.push (.scalar (String.ofList text) .quoted) start with cursor := next }

def scanBlock (literal : Bool) : Scan Unit := do
  removeKey
  allowKey true
  let s ← get
  let start := s.cursor.mark
  let (text, next) ← readBlock literal s.indent start s.cursor.next
  let style := if literal then Style.literal else .folded
  modify fun s => { s.push (.scalar (String.ofList text) style) start with cursor := next }

/-! ## Directives -/

def versionOf? (cs : List Char) : Option (Nat × Nat × List Char) :=
  let major := cs.takeWhile Char.isDigit
  match cs.drop major.length with
  | '.' :: rest =>
      let minor := rest.takeWhile Char.isDigit
      let number (ds : List Char) := ds.foldl (fun n d => n * 10 + (d.toNat - '0'.toNat)) 0
      if major.isEmpty || minor.isEmpty || 9 < major.length || 9 < minor.length then none
      else some (number major, number minor, rest.drop minor.length)
  | _ => none

/-- Nothing but a comment comes before the line end. -/
def restIsComment (cs : List Char) : Bool :=
  match cs.dropWhile isBlank with
  | [] => true
  | c :: _ => isBreak c || c = '#'

/-- The handle and the start of tags that a directive gives, and what comes behind them. -/
def tagDirectiveOf? (cs : List Char) : Option (String × String × List Char) :=
  let handle := tagHandle cs
  let behind := (cs.drop handle.length).dropWhile isBlank
  let uri := behind.takeWhile (isTagChar true)
  if cs.head? ≠ some '!' || !(cs.drop handle.length).head?.any isBlank || uri.isEmpty ||
      !endsWord (behind.drop uri.length) then none
  else (tagText? uri).map fun start => (String.ofList handle, start, behind.drop uri.length)

def scanDirective : Scan Unit := do
  modify (·.unroll (-1))
  removeKey
  allowKey false
  let s ← get
  let fail (problem : String) : Scan Unit :=
    throw ⟨problem, s.cursor.mark, some ("while scanning a directive", s.cursor.mark)⟩
  let name := (s.cursor.rest.drop 1).takeWhile isNameChar
  let behind := (s.cursor.rest.drop (name.length + 1)).dropWhile isBlank
  let line := (s.cursor.rest.takeWhile fun c => !isBreak c).length
  let emitLine (token : Token) (rest : List Char) : Scan Unit :=
    if restIsComment rest then emit token line
    else fail "did not find expected comment or line break"
  if name = ['Y', 'A', 'M', 'L'] then
    match versionOf? behind with
    | some (major, minor, rest) => emitLine (.version major minor) rest
    | none => fail "did not find expected digit or '.' character"
  else if name = ['T', 'A', 'G'] then
    match tagDirectiveOf? behind with
    | some (handle, start, rest) => emitLine (.tagDirective handle start) rest
    | none => fail "did not find expected '!'"
  else fail "found unknown directive name"

/-! ## Any token -/

def startsPlain (flow : Bool) (c : Char) (rest : List Char) : Bool :=
  if c = '-' then !(rest.head?.all isBlank)
  else if c = '?' || c = ':' then !flow && !endsWord rest
  else !(",[]\x7b\x7d#&*!|>'\"%@`".toList.contains c)

/-- The next token, if the text does not end. -/
def scanToken : Scan Unit := do
  let s ← get
  skipToToken s.cursor.rest.length
  dropStaleKeys
  modify fun s => s.unroll s.cursor.mark.column
  let s ← get
  let flow := s.inFlow
  match s.cursor.rest with
  | [] => return
  | c :: rest =>
      if s.cursor.mark.column = 0 && c = '%' then scanDirective
      else if s.cursor.atDocumentMarker then
        scanMarker (if c = '-' then .documentStart else .documentEnd)
      else
        match c with
        | '[' => openBracket .flowSequenceStart
        | '\x7b' => openBracket .flowMappingStart
        | ']' => closeBracket .flowSequenceEnd
        | '\x7d' => closeBracket .flowMappingEnd
        | ',' => scanFlowEntry
        | '*' => scanName .reference "while scanning an alias"
        | '&' => scanName .anchor "while scanning an anchor"
        | '!' => scanTag
        | '\'' => scanQuoted false
        | '"' => scanQuoted true
        | _ =>
            if c = '-' && endsWord rest then scanBlockEntry
            else if c = '?' && (flow || endsWord rest) then scanKey
            else if c = ':' && (flow || endsWord rest) then scanValue
            else if c = '|' && !flow then scanBlock true
            else if c = '>' && !flow then scanBlock false
            else if startsPlain flow c rest then scanPlain
            else
              throw ⟨"found character that cannot start any token", s.cursor.mark,
                some ("while scanning for the next token", s.cursor.mark)⟩

def scanAll : (fuel : Nat) → Scan Unit
  | 0 => return
  | n + 1 => do
      scanToken
      if !(← get).cursor.rest.isEmpty then scanAll n

/-- The end of the text closes everything that is open. -/
def scanEnd : Scan Unit := do
  let s ← get
  let mark : Mark := if s.cursor.mark.column = 0 then s.cursor.mark else ⟨s.cursor.mark.line + 1, 0⟩
  set { s with cursor := ⟨s.cursor.rest, mark, s.cursor.index⟩ }
  modify (·.unroll (-1))
  removeKey
  modify (·.push .streamEnd mark)

def tokensOf (text : String) : Except Fault (List Located) :=
  let cs := text.toList
  let cs := if cs.head? = some '\uFEFF' then cs.drop 1 else cs
  let cursor : Cursor := ⟨cs, ⟨0, 0⟩, 0⟩
  if cs.all isAllowed then
    ((do scanAll (cs.length + 1); scanEnd : Scan Unit).run { cursor }).map fun (_, s) =>
      s.tokens.reverse
  else .error ⟨"control characters are not allowed", ⟨0, 0⟩, none⟩

end FlowSurvey.Yaml

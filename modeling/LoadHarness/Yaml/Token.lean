import LoadHarness.Yaml.Scalar

/-!
# Tokens of a YAML text

The scanner turns indentation into tokens: a block opens where a key, a value mark or a dash stands
further in than the block around it, and closes where a line stands further out. That something is
a key shows only at the colon behind it, so every token that could begin a key is remembered, and
the colon puts the key mark in front of it.
-/

namespace LoadHarness.Yaml

inductive Token where
  | versionDirective (major minor : Nat)
  | tagDirective (handle lead : String)
  | documentStart
  | documentEnd
  | blockSequenceStart
  | blockMappingStart
  | blockEnd
  | flowSequenceStart
  | flowSequenceEnd
  | flowMappingStart
  | flowMappingEnd
  | blockEntry
  | flowEntry
  | key
  | value
  | reference (name : String)
  | anchor (name : String)
  /-- A tag; an empty handle means that the suffix is the whole tag. -/
  | tag (handle suffix : String)
  | scalar (text : String) (plain : Bool)
deriving DecidableEq, Repr

/-- A token that may turn out to be the beginning of a key. -/
structure KeyStart where
  position : Nat
  index : Nat
  line : Nat
  column : Nat
  /-- It stands where the block demands a key. -/
  needed : Bool

/-- What the scanner knows between two tokens. -/
structure Scanner where
  place : Cursor
  tokens : Array Token
  /-- The key that may have begun, for every level of brackets, the innermost first. -/
  keys : List (Option KeyStart)
  /-- Column of the current block, -1 outside of all blocks. -/
  indent : Int
  /-- Columns of the blocks around it. -/
  outer : List Int
  /-- A key may begin here. -/
  keyAllowed : Bool

namespace Scanner

def start (s : String) : Scanner :=
  { place := .ofText s
    tokens := #[]
    keys := [none]
    indent := -1
    outer := []
    keyAllowed := true }

/-- Inside brackets. -/
def inFlow (s : Scanner) : Bool := 1 < s.keys.length

def emit (s : Scanner) (t : Token) : Scanner := { s with tokens := s.tokens.push t }

def skips (s : Scanner) (n : Nat) : Scanner := { s with place := s.place.skips n }

/-- How far a colon may stand behind the beginning of its key. -/
def keyReach : Nat := 1024

/-- The key can no longer follow: its line has ended or it has grown too long. -/
def KeyStart.isStale (k : KeyStart) (c : Cursor) : Bool :=
  k.line < c.line || k.index + keyReach < c.index

/-- Forgets keys that can no longer follow; a key that is needed must not be forgotten. -/
def dropStale (s : Scanner) : Except Fault Scanner := do
  if s.keys.any fun k => (k.map fun k => KeyStart.isStale k s.place && k.needed).getD false then
    s.place.fault "a key has no colon"
  return { s with keys := s.keys.map fun k => k.filter fun k => !KeyStart.isStale k s.place }

/-- Forgets the key of the innermost level. -/
def dropKey (s : Scanner) : Except Fault Scanner :=
  match s.keys with
  | some k :: rest =>
    if k.needed then s.place.fault "a key has no colon" else .ok { s with keys := none :: rest }
  | _ => .ok s

/-- Remembers that a key may begin here. -/
def saveKey (s : Scanner) : Except Fault Scanner := do
  if !s.keyAllowed then return s
  let s ← s.dropKey
  let k : KeyStart :=
    { position := s.tokens.size
      index := s.place.index
      line := s.place.line
      column := s.place.column
      needed := !s.inFlow && s.indent == s.place.column }
  return { s with keys := some k :: s.keys.tail }

/-- Closes the blocks further in than `column`. -/
def unroll (column : Int) : Nat → Scanner → Scanner
  | 0, s => s
  | fuel + 1, s =>
    if s.inFlow then s
    else if column < s.indent then
      unroll column fuel
        { (s.emit .blockEnd) with indent := s.outer.headD (-1), outer := s.outer.tail }
    else s

def closeTo (s : Scanner) (column : Int) : Scanner := unroll column (s.outer.length + 1) s

/-- Opens a block at `column` if it stands further in; its mark goes in front of the token at
`position`. -/
def roll (s : Scanner) (column position : Nat) (t : Token) : Scanner :=
  if !s.inFlow && s.indent < column then
    { s with
      indent := column
      outer := s.indent :: s.outer
      tokens := s.tokens.insertIdxIfInBounds position t }
  else s

/-! One token. -/

/-- Past blanks, comments and empty lines. A new line outside of brackets may begin a key. -/
def skipToToken : Nat → Scanner → Scanner
  | 0, s => s
  | fuel + 1, s =>
    let c := s.place
    let c := if c.column == 0 && (c.rest.head?.map Char.toNat) == some 0xFEFF then c.skip else c
    let tabs := s.inFlow || !s.keyAllowed
    let (_, c) := c.takeWhile fun x => x == ' ' || (tabs && x == '\t')
    let c := if c.sees 0 '#' then (c.takeWhile fun x => !isBreak x).2 else c
    if c.atBreak then
      skipToToken fuel
        { s with place := c.readBreak.2, keyAllowed := s.keyAllowed || !s.inFlow }
    else { s with place := c }

/-- The end of the text: everything is closed. -/
def finish (s : Scanner) : Except Fault Scanner := do
  let s ← (s.closeTo (-1)).dropKey
  return { s with keyAllowed := false }

/-- The rest of a directive's line holds nothing but a comment. -/
def endDirective (s : Scanner) (c : Cursor) : Except Fault Scanner :=
  let (_, c) := c.takeWhile isGap
  let c := if c.sees 0 '#' then (c.takeWhile fun x => !isBreak x).2 else c
  if c.atBreakOrEnd then .ok { s with place := c.readBreak.2 }
  else c.fault "a directive goes on"

/-- Up to nine digits of a version. -/
def readVersionPart (c : Cursor) : Except Fault (Nat × Cursor) :=
  let (ds, c') := c.takeWhile Char.isDigit
  if ds.isEmpty || 9 < ds.length then c.fault "a version has no number"
  else .ok (Text.ofDigits 10 ds, c')

/-- A tag's handle: exclamation marks around an optional word. -/
def readHandle (directive : Bool) (c : Cursor) : Except Fault (List Char × Cursor) :=
  if !c.sees 0 '!' then c.fault "a tag has no mark"
  else
    let (word, c) := c.skip.takeWhile isWord
    if c.sees 0 '!' then .ok ('!' :: (word ++ ['!']), c.skip)
    else if directive && !word.isEmpty then c.fault "a tag's handle is not closed"
    else .ok ('!' :: word, c)

/-- A character of a tag that needs no escape. -/
def isTagChar (uri : Bool) (x : Char) : Bool :=
  isWord x || ";/?:@&=+$.!~*'()".toList.contains x || (uri && ",[]".toList.contains x)

/-- Bytes written as `%` and two digits, as one character. -/
def readTagBytes : Nat → Cursor → List UInt8 → List UInt8 × Cursor
  | 0, c, acc => (acc, c)
  | fuel + 1, c, acc =>
    match c.rest with
    | '%' :: a :: b :: _ =>
      match Text.readNat 16 [a, b] with
      | some n => readTagBytes fuel (c.skips 3) (acc ++ [UInt8.ofNat n])
      | none => (acc, c)
    | _ => (acc, c)

def readTagChars (uri : Bool) : Nat → Cursor → List Char → Except Fault (List Char × Cursor)
  | 0, c, acc => .ok (acc, c)
  | fuel + 1, c, acc =>
    match c.rest with
    | [] => .ok (acc, c)
    | x :: _ =>
      if isTagChar uri x then readTagChars uri fuel c.skip (acc ++ [x])
      else if x == '%' then
        let (bytes, c') := readTagBytes (c.rest.length + 1) c []
        match String.fromUTF8? ⟨bytes.toArray⟩ with
        | some t =>
          if bytes.isEmpty then c.fault "an escape is not known"
          else readTagChars uri fuel c' (acc ++ t.toList)
        | none => c.fault "an escape is no character"
      else .ok (acc, c)

def directive (s : Scanner) : Except Fault Scanner := do
  let s ← (s.closeTo (-1)).dropKey
  let s := { s with keyAllowed := false }
  let (name, c) := s.place.skip.takeWhile isWord
  if name.isEmpty || !c.blankAt 0 then c.fault "a directive has no name"
  let (_, c) := c.takeWhile isGap
  match String.ofList name with
  | "YAML" =>
    let (major, c) ← readVersionPart c
    if !c.sees 0 '.' then c.fault "a version has no point"
    let (minor, c) ← readVersionPart c.skip
    (s.emit (.versionDirective major minor)).endDirective c
  | "TAG" =>
    let (handle, c) ← readHandle true c
    if !c.atGap then c.fault "a tag's handle goes on"
    let (_, c) := c.takeWhile isGap
    let (lead, c) ← readTagChars true (c.rest.length + 1) c []
    if lead.isEmpty || !c.blankAt 0 then c.fault "a tag has no text"
    (s.emit (.tagDirective (String.ofList handle) (String.ofList lead))).endDirective c
  | _ => c.fault "a directive is not known"

def documentMark (s : Scanner) : Except Fault Scanner := do
  let s ← (s.closeTo (-1)).dropKey
  let t := if s.place.sees 0 '-' then Token.documentStart else .documentEnd
  return { (s.emit t).skips 3 with keyAllowed := false }

def openFlow (s : Scanner) (t : Token) : Except Fault Scanner := do
  let s ← s.saveKey
  return { (s.emit t).skips 1 with keys := none :: s.keys, keyAllowed := true }

def closeFlow (s : Scanner) (t : Token) : Except Fault Scanner := do
  let s ← s.dropKey
  return { (s.emit t).skips 1 with
    keys := if s.inFlow then s.keys.tail else s.keys
    keyAllowed := false }

/-- A comma between brackets. -/
def flowEntry (s : Scanner) : Except Fault Scanner := do
  let s ← s.dropKey
  return { (s.emit .flowEntry).skips 1 with keyAllowed := true }

def blockEntry (s : Scanner) : Except Fault Scanner := do
  if !s.inFlow && !s.keyAllowed then s.place.fault "a dash stands where no item can begin"
  let s := s.roll s.place.column s.tokens.size .blockSequenceStart
  let s ← s.dropKey
  return { (s.emit .blockEntry).skips 1 with keyAllowed := true }

def explicitKey (s : Scanner) : Except Fault Scanner := do
  if !s.inFlow && !s.keyAllowed then s.place.fault "a key stands where none can begin"
  let s := s.roll s.place.column s.tokens.size .blockMappingStart
  let s ← s.dropKey
  return { (s.emit .key).skips 1 with keyAllowed := !s.inFlow }

/-- The colon of a value: it makes what was remembered a key. -/
def value (s : Scanner) : Except Fault Scanner :=
  match s.keys with
  | some k :: rest =>
    let s := { s with
      tokens := s.tokens.insertIdxIfInBounds k.position .key
      keys := none :: rest }
    let s := s.roll k.column k.position .blockMappingStart
    .ok { (s.emit .value).skips 1 with keyAllowed := false }
  | _ =>
    if !s.inFlow && !s.keyAllowed then s.place.fault "a value stands where none can begin"
    else
      let s := s.roll s.place.column s.tokens.size .blockMappingStart
      .ok { (s.emit .value).skips 1 with keyAllowed := !s.inFlow }

/-- The backquote, which is kept for later use. -/
def backquote : Char := Char.ofNat 0x60

/-- Marks that may stand right behind an anchor's name. -/
def anchorEnds : List Char := ['?', ':', ',', ']', '}', '%', '@', backquote]

/-- The name of an anchor or of a reference to one. -/
def anchorName (s : Scanner) (make : String → Token) : Except Fault Scanner := do
  let s ← s.saveKey
  let (name, c) := s.place.skip.takeWhile isWord
  let ends := c.blankAt 0 || (c.rest.head?.map anchorEnds.contains).getD true
  if name.isEmpty || !ends then c.fault "an anchor has no name"
  return { (s.emit (make (String.ofList name))) with place := c, keyAllowed := false }

/-- A tag: in angle brackets, with a handle, or with the single mark. -/
def tag (s : Scanner) : Except Fault Scanner := do
  let s ← s.saveKey
  let c := s.place
  let (t, c) ←
    if c.sees 1 '<' then do
      let (uri, c) ← readTagChars true (c.rest.length + 1) (c.skips 2) []
      if uri.isEmpty || !c.sees 0 '>' then c.fault "a tag is not closed"
      pure (Token.tag "" (String.ofList uri), c.skip)
    else do
      let (handle, c) ← readHandle false c
      if 1 < handle.length && handle.getLast? == some '!' then
        let (suffix, c) ← readTagChars false (c.rest.length + 1) c []
        if suffix.isEmpty then c.fault "a tag has no text"
        pure (Token.tag (String.ofList handle) (String.ofList suffix), c)
      else
        let (suffix, c) ← readTagChars false (c.rest.length + 1) c (handle.drop 1)
        if suffix.isEmpty then pure (Token.tag "" "!", c)
        else pure (Token.tag "!" (String.ofList suffix), c)
  if !(c.blankAt 0 || (s.inFlow && c.sees 0 ',')) then c.fault "a tag goes on"
  return { (s.emit t) with place := c, keyAllowed := false }

def block (s : Scanner) (literal : Bool) : Except Fault Scanner := do
  let s ← s.dropKey
  let (cs, c) ← readBlock literal s.indent s.place.skip
  return { (s.emit (.scalar (String.ofList cs.reverse) false)) with place := c, keyAllowed := true }

def quoted (s : Scanner) (single : Bool) : Except Fault Scanner := do
  let s ← s.saveKey
  let c := s.place.skip
  let (cs, c) ← readQuoted single (c.rest.length + 2) c []
  return { (s.emit (.scalar (String.ofList cs.reverse) false)) with
    place := c
    keyAllowed := false }

def plain (s : Scanner) : Except Fault Scanner := do
  let s ← s.saveKey
  let c := s.place
  let (cs, broken, c) ← readPlain s.inFlow (s.indent + 1).toNat (c.rest.length + 1) c [] .none
  return { (s.emit (.scalar (String.ofList cs.reverse) true)) with
    place := c
    keyAllowed := broken }

/-- Marks that begin something else than a plain scalar. -/
def indicators : List Char :=
  ['-', '?', ':', ',', '[', ']', '{', '}', '#', '&', '*', '!', '|', '>', '\'', '"', '%', '@',
    backquote]

/-- The character may begin a plain scalar. -/
def beginsPlain (s : Scanner) (x : Char) : Bool :=
  !indicators.contains x ||
    (x == '-' && !((s.place.peek 1).map isGap).getD false) ||
    (!s.inFlow && (x == '?' || x == ':') && !s.place.blankAt 1)

/-- The next token, with the tokens of the blocks that end before it. -/
def next (s : Scanner) : Except Fault Scanner := do
  let s ← s.dropStale
  let s := s.closeTo s.place.column
  let c := s.place
  match c.rest with
  | [] => s.finish
  | x :: _ =>
    if c.column == 0 && x == '%' then s.directive
    else if c.atDocumentMark then s.documentMark
    else if x == '[' then s.openFlow .flowSequenceStart
    else if x == '{' then s.openFlow .flowMappingStart
    else if x == ']' then s.closeFlow .flowSequenceEnd
    else if x == '}' then s.closeFlow .flowMappingEnd
    else if x == ',' then s.flowEntry
    else if x == '-' && c.blankAt 1 then s.blockEntry
    else if x == '?' && (s.inFlow || c.blankAt 1) then s.explicitKey
    else if x == ':' && (s.inFlow || c.blankAt 1) then s.value
    else if x == '*' then s.anchorName .reference
    else if x == '&' then s.anchorName .anchor
    else if x == '!' then s.tag
    else if x == '|' && !s.inFlow then s.block true
    else if x == '>' && !s.inFlow then s.block false
    else if x == '\'' then s.quoted true
    else if x == '"' then s.quoted false
    else if s.beginsPlain x && !isGap x then s.plain
    else c.fault "a character cannot begin anything"

/-- All tokens from here on. -/
def run : Nat → Scanner → Except Fault (Array Token)
  | 0, s => .ok s.tokens
  | fuel + 1, s => do
    let s := skipToToken (s.place.rest.length + 1) s
    let ended := s.place.atEnd
    let s ← s.next
    if ended then return s.tokens
    run fuel s

end Scanner

/-- A character that may stand in a text. -/
def isAllowed (c : Char) : Bool :=
  let n := c.toNat
  n == 9 || n == 10 || n == 13 || (0x20 ≤ n && n ≤ 0x7E) || n == 0x85 ||
    (0xA0 ≤ n && n ≤ 0xFFFD) || 0x10000 ≤ n

/-- The tokens of a text. -/
def Token.scan (s : String) : Except Fault (List Token) := do
  if !s.toList.all isAllowed then (Cursor.ofText s).fault "a control character stands in the text"
  let tokens ← Scanner.run (s.length + 2) (.start s)
  return tokens.toList

end LoadHarness.Yaml

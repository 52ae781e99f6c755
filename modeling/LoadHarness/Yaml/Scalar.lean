import LoadHarness.Yaml.Cursor
import LoadHarness.Text.Digits

/-!
# Scalars of a YAML text

A scalar is plain, in quotes, or a block of lines. Where it runs over several lines, the blanks
between two of its words fold: one break reads as a space, each further one as a line feed.
-/

namespace LoadHarness.Yaml

/-- Blanks and breaks between two words of a scalar. -/
structure Fold where
  /-- Blanks before any break. -/
  blanks : List Char
  /-- There was a break, or an escaped one. -/
  broken : Bool
  first : List Char
  further : List Char

namespace Fold

def none : Fold := ⟨[], false, [], []⟩

/-- What the blanks and breaks read as. -/
def text (f : Fold) : List Char :=
  if f.broken then
    if f.first = ['\n'] then (if f.further.isEmpty then [' '] else f.further)
    else f.first ++ f.further
  else f.blanks

def addBlank (f : Fold) (x : Char) : Fold :=
  if f.broken then f else { f with blanks := f.blanks ++ [x] }

def addBreak (f : Fold) (b : List Char) : Fold :=
  if f.broken then { f with further := f.further ++ b }
  else ⟨[], true, b, f.further⟩

end Fold

/-- Reads the blanks and breaks up to the next word. In a plain scalar a tab must not stand where
the indentation of a further line ends. -/
def readFold (tabLimit : Option Nat) : Nat → Cursor → Fold → Except Fault (Fold × Cursor)
  | 0, c, f => .ok (f, c)
  | fuel + 1, c, f =>
    match c.rest with
    | [] => .ok (f, c)
    | x :: _ =>
      if isGap x then
        if f.broken && x == '\t' && (tabLimit.map fun n => decide (c.column < n)).getD false then
          c.fault "a tab stands in the indentation"
        else readFold tabLimit fuel c.skip (f.addBlank x)
      else if isBreak x then
        let (b, c) := c.readBreak
        readFold tabLimit fuel c (f.addBreak b)
      else .ok (f, c)

/-! Plain scalars. -/

/-- A character that ends a plain scalar inside brackets. -/
def isFlowMark (x : Char) : Bool := x = ',' || x = '[' || x = ']' || x = '{' || x = '}'

/-- The next word of a plain scalar, last character first. -/
def readPlainWord (inFlow : Bool) : Nat → Cursor → List Char → Except Fault (List Char × Cursor)
  | 0, c, acc => .ok (acc, c)
  | fuel + 1, c, acc =>
    match c.rest with
    | [] => .ok (acc, c)
    | x :: _ =>
      if isGap x || isBreak x then .ok (acc, c)
      else if inFlow && x == ':' &&
          ((c.peek 1).map fun y => isFlowMark y || y == '?').getD false then
        c.fault "a colon stands before a bracket or comma"
      else if (x == ':' && c.blankAt 1) || (inFlow && isFlowMark x) then .ok (acc, c)
      else readPlainWord inFlow fuel c.skip (x :: acc)

/-- A plain scalar whose further lines stand at `indent` or beyond: its characters, last first,
and whether it ended after a line break. -/
def readPlain (inFlow : Bool) (indent : Nat) :
    Nat → Cursor → List Char → Fold → Except Fault (List Char × Bool × Cursor)
  | 0, c, acc, f => .ok (acc, f.broken, c)
  | fuel + 1, c, acc, f =>
    if c.atDocumentMark || c.sees 0 '#' then .ok (acc, f.broken, c)
    else do
      let (word, c) ← readPlainWord inFlow (c.rest.length + 1) c []
      let acc := if word.isEmpty then acc else word ++ (f.text.reverse ++ acc)
      let f := if word.isEmpty then f else .none
      if !(c.atGap || c.atBreak) then return (acc, f.broken, c)
      let (f, c) ← readFold (some indent) (c.rest.length + 1) c f
      if !inFlow && c.column < indent then return (acc, f.broken, c)
      readPlain inFlow indent fuel c acc f

/-! Scalars in quotes. -/

/-- The character for a letter after a backslash. -/
def escaped (x : Char) : Option Char :=
  match x with
  | '0' => some (Char.ofNat 0)
  | 'a' => some (Char.ofNat 7)
  | 'b' => some (Char.ofNat 8)
  | 't' => some '\t'
  | '\t' => some '\t'
  | 'n' => some '\n'
  | 'v' => some (Char.ofNat 11)
  | 'f' => some (Char.ofNat 12)
  | 'r' => some '\r'
  | 'e' => some (Char.ofNat 27)
  | ' ' => some ' '
  | '"' => some '"'
  | '/' => some '/'
  | '\\' => some '\\'
  | 'N' => some (Char.ofNat 0x85)
  | '_' => some (Char.ofNat 0xA0)
  | 'L' => some (Char.ofNat 0x2028)
  | 'P' => some (Char.ofNat 0x2029)
  | _ => none

/-- How many hexadecimal digits follow a letter after a backslash. -/
def escapeLength (x : Char) : Nat :=
  match x with
  | 'x' => 2
  | 'u' => 4
  | 'U' => 8
  | _ => 0

/-- The escape after a backslash, and the place after it. -/
def readEscape (c : Cursor) : Except Fault (Char × Cursor) :=
  match c.rest with
  | [] => c.fault "the text ends in an escape"
  | x :: r =>
    match escaped x with
    | some y => .ok (y, c.skip)
    | none =>
      let n := escapeLength x
      let digits := r.take n
      match if n = 0 ∨ digits.length < n then none else Text.readNat 16 digits with
      | none => c.fault "an escape is not known"
      | some v =>
        if v.isValidChar then .ok (Char.ofNat v, c.skips (n + 1))
        else c.fault "an escape is no character"

/-- The next word of a quoted scalar, last character first, and whether an escaped break ended
it. -/
def readQuotedWord (single : Bool) :
    Nat → Cursor → List Char → Except Fault (List Char × Bool × Cursor)
  | 0, c, acc => .ok (acc, false, c)
  | fuel + 1, c, acc =>
    match c.rest with
    | [] => .ok (acc, false, c)
    | x :: r =>
      if isGap x || isBreak x then .ok (acc, false, c)
      else if single && x == '\'' && r.head? == some '\'' then
        readQuotedWord single fuel (c.skips 2) ('\'' :: acc)
      else if x == (if single then '\'' else '"') then .ok (acc, false, c)
      else if !single && x == '\\' then
        if c.skip.atBreak then .ok (acc, true, c.skip.readBreak.2)
        else do
          let (y, c) ← readEscape c.skip
          readQuotedWord single fuel c (y :: acc)
      else readQuotedWord single fuel c.skip (x :: acc)

/-- A quoted scalar after its opening quote: its characters, last first, and the place after the
closing quote. -/
def readQuoted (single : Bool) : Nat → Cursor → List Char → Except Fault (List Char × Cursor)
  | 0, c, _ => c.fault "a quote is not closed"
  | fuel + 1, c, acc =>
    if c.atDocumentMark then c.fault "a document mark stands in a quoted scalar"
    else if c.atEnd then c.fault "a quote is not closed"
    else do
      let (word, cut, c) ← readQuotedWord single (c.rest.length + 1) c []
      let acc := word ++ acc
      if !cut && c.sees 0 (if single then '\'' else '"') then return (acc, c.skip)
      let start : Fold := if cut then ⟨[], true, [], []⟩ else .none
      let (f, c) ← readFold none (c.rest.length + 1) c start
      readQuoted single fuel c (f.text.reverse ++ acc)

/-! Blocks of lines. -/

/-- What becomes of the breaks at the end of a block. -/
inductive Chomp where
  | strip
  | clip
  | keep
deriving DecidableEq

/-- The blank lines before the next line of a block. With no known indentation, `widest` is the
widest blank line so far. -/
def readBlockBreaks (indent : Option Nat) :
    Nat → Cursor → Nat → List Char → Except Fault (List Char × Nat × Cursor)
  | 0, c, widest, acc => .ok (acc, widest, c)
  | fuel + 1, c, widest, acc =>
    let spaces := (c.rest.takeWhile (· == ' ')).length
    let c := c.skips (match indent with
      | some n => min spaces (n - c.column)
      | none => spaces)
    let widest := max widest c.column
    if c.sees 0 '\t' && (indent.map fun n => decide (c.column < n)).getD true then
      c.fault "a tab stands in the indentation"
    else if c.atBreak then
      let (b, c) := c.readBreak
      readBlockBreaks indent fuel c widest (acc ++ b)
    else .ok (acc, widest, c)

/-- The lines of a block at `indent`. `lead` is the break before the next line, `more` are the
breaks of blank lines after it, and `after` says whether the line before began with a blank. -/
def readBlockLines (literal : Bool) (chomp : Chomp) (indent : Nat) :
    Nat → Cursor → List Char → List Char → List Char → Bool → Except Fault (List Char × Cursor)
  | 0, c, _, _, acc, _ => .ok (acc, c)
  | fuel + 1, c, lead, more, acc, after =>
    if c.column == indent && !c.atEnd then do
      let blank := c.atGap
      let joined :=
        if !literal && lead.head? == some '\n' && !after && !blank then
          (if more.isEmpty then [' '] else more)
        else lead ++ more
      let (line, c) := c.takeWhile fun x => !isBreak x
      let acc := line.reverse ++ (joined.reverse ++ acc)
      let (lead, c) := c.readBreak
      let (more, _, c) ← readBlockBreaks (some indent) (c.rest.length + 1) c 0 []
      readBlockLines literal chomp indent fuel c lead more acc blank
    else
      let tail := match chomp with
        | .strip => []
        | .clip => lead
        | .keep => lead ++ more
      .ok (tail.reverse ++ acc, c)

/-- The signs after a block's mark: how to chomp and how far to indent, in either order. -/
def readBlockHeader (c : Cursor) : Except Fault (Chomp × Option Nat × Cursor) :=
  let chomp? (c : Cursor) : Option (Chomp × Cursor) :=
    if c.sees 0 '+' then some (.keep, c.skip)
    else if c.sees 0 '-' then some (.strip, c.skip)
    else none
  let digit? (c : Cursor) : Except Fault (Option Nat × Cursor) :=
    match c.rest with
    | x :: _ =>
      if x == '0' then c.fault "a block is indented by nothing"
      else if x.isDigit then .ok (some (Text.digitValue x), c.skip)
      else .ok (none, c)
    | [] => .ok (none, c)
  match chomp? c with
  | some (chomp, c) => do
    let (digit, c) ← digit? c
    return (chomp, digit, c)
  | none => do
    let (digit, c) ← digit? c
    match if digit.isSome then chomp? c else none with
    | some (chomp, c) => return (chomp, digit, c)
    | none => return (.clip, digit, c)

/-- A block of lines after its mark, inside a collection at `parent`. -/
def readBlock (literal : Bool) (parent : Int) (c : Cursor) : Except Fault (List Char × Cursor) := do
  let (chomp, increment, c) ← readBlockHeader c
  let (_, c) := c.takeWhile isGap
  let c := if c.sees 0 '#' then (c.takeWhile fun x => !isBreak x).2 else c
  if !c.atBreakOrEnd then c.fault "a block's first line goes on" else
  let (_, c) := c.readBreak
  let known := increment.map fun n => if 0 ≤ parent then parent.toNat + n else n
  let (more, widest, c) ← readBlockBreaks known (c.rest.length + 1) c 0 []
  let indent := known.getD (max (max widest (parent + 1).toNat) 1)
  readBlockLines literal chomp indent (c.rest.length + 2) c [] more [] false

end LoadHarness.Yaml

import LoadHarness.Encoding
import LoadHarness.Text.Cut
import LoadHarness.Yaml.Value

/-!
# Written form of YAML values

Collections are written in block style, one entry a line, and a list under a key stands no further
in than the key. Text is written plain where it reads back as the same text, and in the simplest
quotes that can hold it otherwise; text of several lines becomes a literal block where it can.
-/

namespace LoadHarness.Yaml

/-- How a scalar is written. -/
inductive ScalarStyle where
  | plain
  | singleQuoted
  | doubleQuoted
  | literal
deriving DecidableEq, Repr

namespace ScalarStyle

/-- The character can stand in a document as it is. -/
def isPrintable (c : Char) : Bool :=
  let n := c.toNat
  n == 0x0A || (0x20 ≤ n && n ≤ 0x7E) || (0xA0 ≤ n && n ≤ 0xFFFD && n != 0xFEFF)

/-- Nothing, a space, a tab or a break comes next. -/
def blankNext : List Char → Bool
  | [] => true
  | c :: _ => isGap c || isBreak c || c.toNat == 0

/-- Characters that mean something at the beginning of a scalar. -/
def leadingIndicators : List Char :=
  ['#', ',', '[', ']', '{', '}', '&', '*', '!', '|', '>', '\'', '"', '%', '@', Char.ofNat 0x60]

/-- The first character would be taken for something else than text. -/
def indicatesFirst : List Char → Bool
  | [] => false
  | c :: rest =>
    leadingIndicators.contains c || ((c == '?' || c == ':' || c == '-') && blankNext rest)

/-- A later character would end the text: a colon before a blank, or a number sign after one. -/
def indicatesLater (afterBlank : Bool) : List Char → Bool
  | [] => false
  | c :: rest =>
    (c == ':' && blankNext rest) || (c == '#' && afterBlank) ||
      indicatesLater (blankNext [c]) rest

/-- The text looks like the mark between documents. -/
def marksDocument (cs : List Char) : Bool :=
  ['-', '-', '-'].isPrefixOf cs || ['.', '.', '.'].isPrefixOf cs

/-- One of the characters comes right before one of the others. -/
def pairOccurs (before after : Char → Bool) : List Char → Bool
  | a :: b :: rest => (before a && after b) || pairOccurs before after (b :: rest)
  | _ => false

def isSpace (c : Char) : Bool := c == ' '

/-- Quotes with escapes are the only way to write the text. -/
def needsEscapes (cs : List Char) : Bool :=
  cs.any (!isPrintable ·) || pairOccurs isSpace isBreak cs

/-- The text can stand without quotes. -/
def allowsPlain (cs : List Char) : Bool :=
  let edge (c : Option Char) := (c.map fun c => isSpace c || isBreak c).getD false
  !(needsEscapes cs || cs.any isBreak || edge cs.head? || edge cs.getLast? || marksDocument cs ||
    indicatesFirst cs || indicatesLater (blankNext (cs.take 1)) cs.tail)

/-- The text can stand between single quotes. -/
def allowsSingle (cs : List Char) : Bool := !(needsEscapes cs || pairOccurs isBreak isSpace cs)

/-- The text can stand in a literal block. -/
def allowsLiteral (cs : List Char) : Bool :=
  !(needsEscapes cs || (cs.getLast?.map isSpace).getD false)

def ofText (s : String) : ScalarStyle :=
  let cs := s.toList
  let quotes := if allowsSingle cs then singleQuoted else doubleQuoted
  if cs.contains '\n' then (if allowsLiteral cs then literal else doubleQuoted)
  else match Reading.ofPlain s with
    | .text => if !isZeroPadded cs && allowsPlain cs then plain else quotes
    | _ => quotes

end ScalarStyle

/-- The upper-case hexadecimal digits of a number, at least so many. -/
def hexDigits (width n : Nat) : List Char :=
  let ds := (Nat.toDigits 16 n).map Char.toUpper
  List.replicate (width - ds.length) '0' ++ ds

/-- The letters of escapes for single characters. -/
def escapeLetters : List (Nat × Char) :=
  [(0x00, '0'), (0x07, 'a'), (0x08, 'b'), (0x09, 't'), (0x0A, 'n'), (0x0B, 'v'), (0x0C, 'f'),
    (0x0D, 'r'), (0x1B, 'e'), (0x22, '"'), (0x5C, '\\'), (0x85, 'N'), (0xA0, '_'), (0x2028, 'L'),
    (0x2029, 'P')]

/-- A character between double quotes. -/
def escape (c : Char) : List Char :=
  let n := c.toNat
  if ScalarStyle.isPrintable c && !isBreak c && c != '"' && c != '\\' then [c]
  else match escapeLetters.find? (·.1 == n) with
    | some (_, letter) => ['\\', letter]
    | none =>
      if n ≤ 0xFF then '\\' :: 'x' :: hexDigits 2 n
      else if n ≤ 0xFFFF then '\\' :: 'u' :: hexDigits 4 n
      else '\\' :: 'U' :: hexDigits 8 n

/-- The mark of a literal block: how far in it stands when its text begins with a blank, and what
happens to the breaks at its end. -/
def literalHeader (cs : List Char) : List Char :=
  let hint := match cs with
    | c :: _ => if c == ' ' || isBreak c then ['2'] else []
    | [] => []
  let chomping := match cs.reverse with
    | [] => ['-']
    | [c] => if isBreak c then ['+'] else ['-']
    | c :: d :: _ => if !isBreak c then ['-'] else if isBreak d then ['+'] else []
  '|' :: hint ++ chomping

/-- The lines of a literal block, without the empty one after the last break. -/
def literalLines (cs : List Char) : List (List Char) :=
  let lines := Text.pieces '\n' cs
  if lines.getLast? = some [] then lines.dropLast else lines

/-- The lines of a text: the first goes on where it stands, the others stand further in. -/
def scalarLines (s : String) : List (List Char) :=
  let cs := s.toList
  match ScalarStyle.ofText s with
  | .plain => [cs]
  | .singleQuoted =>
    let doubled := cs.flatMap fun c => if c = '\'' then ['\'', '\''] else [c]
    ['\'' :: doubled ++ ['\'']]
  | .doubleQuoted => ['"' :: cs.flatMap escape ++ ['"']]
  | .literal => literalHeader cs :: literalLines cs

/-- A line two places further in; an empty line stays empty. -/
def shifted (line : List Char) : List Char := if line.isEmpty then [] else ' ' :: ' ' :: line

/-- The lines behind a lead: the first on its line, the others further in. -/
def behind (lead : List Char) : List (List Char) → List (List Char)
  | [] => [lead]
  | first :: rest => (lead ++ ' ' :: first) :: rest.map shifted

namespace Value

mutual

def lines : Value → List (List Char)
  | null => ["null".toList]
  | bool b => [(if b then "true" else "false").toList]
  | integer n => [(toString n).toList]
  | float x => [(floatFormat.render x).toList]
  | string s => scalarLines s
  | sequence [] => [['[', ']']]
  | sequence (v :: vs) => itemLines (v :: vs)
  | mapping [] => [['{', '}']]
  | mapping (e :: es) => entryLines (e :: es)
  | tagged tag v => match lines v with
    | [] => []
    | first :: rest => ('!' :: tag.toList ++ ' ' :: first) :: rest

/-- The items of a list, a dash before each. -/
def itemLines : List Value → List (List Char)
  | [] => []
  | v :: vs => behind ['-'] (lines v) ++ itemLines vs

/-- The entries of a mapping; a collection begins on the line after its key. -/
def entryLines : List (Value × Value) → List (List Char)
  | [] => []
  | (k, v) :: es =>
    let lead := ((lines k).headD []) ++ [':']
    let own := match v with
      | sequence (i :: is) => lead :: itemLines (i :: is)
      | mapping (e :: es) => lead :: (entryLines (e :: es)).map shifted
      | v => behind lead (lines v)
    own ++ entryLines es

end

/-- The document that holds the value. -/
def render (v : Value) : String := String.ofList (v.lines.flatMap (· ++ ['\n']))

end Value

instance : Encoding Value where
  nothing := .null
  truth := .bool
  whole := .integer
  real := .float
  text := .string
  list := .sequence
  record members := .mapping (members.map fun (k, v) => (.string k, v))

end LoadHarness.Yaml

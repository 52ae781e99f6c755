/-!
# A place in a YAML text

The characters still to come, and where they stand. Line breaks of every kind count as one place
and read as a line feed, except the two Unicode separators, which stay what they are.
-/

namespace LoadHarness.Yaml

/-- What is wrong with a text, and its line and column, counted from zero, if it has a place. -/
structure Fault where
  reason : String
  place : Option (Nat × Nat)
deriving DecidableEq, Repr

/-- The fault for people, who count from one. -/
def Fault.text (f : Fault) : String :=
  match f.place with
  | some (line, column) =>
    f.reason ++ " at line " ++ toString (line + 1) ++ " column " ++ toString (column + 1)
  | none => f.reason

/-- The rest of a text and its place. -/
structure Cursor where
  rest : List Char
  index : Nat
  line : Nat
  column : Nat

def isBreak (c : Char) : Bool :=
  c = '\n' || c = '\r' || c.toNat = 0x85 || c.toNat = 0x2028 || c.toNat = 0x2029

def isGap (c : Char) : Bool := c = ' ' || c = '\t'

/-- A letter, a digit, a dash or an underscore. -/
def isWord (c : Char) : Bool := c.isAlphanum || c = '_' || c = '-'

namespace Cursor

def ofText (s : String) : Cursor := ⟨s.toList, 0, 0, 0⟩

/-- The character `k` places on. -/
def peek (c : Cursor) (k : Nat) : Option Char := c.rest[k]?

def sees (c : Cursor) (k : Nat) (x : Char) : Bool := c.peek k == some x

def atEnd (c : Cursor) : Bool := c.rest.isEmpty

/-- Nothing but a break or the end stands here. -/
def atBreakOrEnd (c : Cursor) : Bool := (c.rest.head?.map isBreak).getD true

def atBreak (c : Cursor) : Bool := (c.rest.head?.map isBreak).getD false

def atGap (c : Cursor) : Bool := (c.rest.head?.map isGap).getD false

/-- A blank, a break or the end stands `k` places on. -/
def blankAt (c : Cursor) (k : Nat) : Bool :=
  match c.peek k with
  | none => true
  | some x => isGap x || isBreak x

/-- Past one character of a line. -/
def skip (c : Cursor) : Cursor :=
  match c.rest with
  | [] => c
  | _ :: r => ⟨r, c.index + 1, c.line, c.column + 1⟩

def skips (c : Cursor) : Nat → Cursor
  | 0 => c
  | n + 1 => c.skip.skips n

/-- Past a line break, and the characters it reads as. -/
def readBreak (c : Cursor) : List Char × Cursor :=
  match c.rest with
  | '\r' :: '\n' :: r => (['\n'], ⟨r, c.index + 2, c.line + 1, 0⟩)
  | x :: r =>
    if isBreak x then
      let kept := if x.toNat = 0x2028 ∨ x.toNat = 0x2029 then x else '\n'
      ([kept], ⟨r, c.index + 1, c.line + 1, 0⟩)
    else ([], c)
  | [] => ([], c)

/-- The mark of a document's start or end stands at the beginning of this line. -/
def atDocumentMark (c : Cursor) : Bool :=
  c.column == 0 && c.blankAt 3 &&
    ((c.sees 0 '-' && c.sees 1 '-' && c.sees 2 '-') ||
      (c.sees 0 '.' && c.sees 1 '.' && c.sees 2 '.'))

/-- The characters up to the first that fails the test, and the place after them. -/
def takeWhile (p : Char → Bool) (c : Cursor) : List Char × Cursor :=
  let taken := c.rest.takeWhile p
  (taken, c.skips taken.length)

def fault {α : Type} (c : Cursor) (reason : String) : Except Fault α :=
  .error ⟨reason, some (c.line, c.column)⟩

end Cursor

end LoadHarness.Yaml

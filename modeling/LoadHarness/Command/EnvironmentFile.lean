import LoadHarness.Settings.Environment
import LoadHarness.Text.Blank

/-!
# Files of environment variables

Such a file has an assignment a line. A value may stand in quotes, go on over several lines inside
them, refer to variables with a dollar sign, and be followed by a comment. A file never changes a
variable that is set already, and reading stops at the first line that is no assignment; what stood
before it counts.
-/

namespace LoadHarness.Command.EnvironmentFile

/-! Lines, where a break inside quotes does not end one. -/

/-- Where a line is with its quotes. -/
inductive LineState where
  | bare
  /-- After a blank: a number sign begins a comment here. -/
  | blank
  | escaped
  | weak
  | weakEscaped
  | strong
  | strongEscaped
deriving DecidableEq, Repr

/-- Outside of quotes, a character that is not a blank. -/
def LineState.outside (c : Char) : LineState :=
  if c = '\\' then escaped else if c = '"' then weak else if c = '\'' then strong else bare

def LineState.next (c : Char) : LineState → LineState
  | bare => if Text.isBlank c && c != '\n' && c != '\r' then blank else outside c
  | blank => outside c
  | escaped => bare
  | weak => if c = '\\' then weakEscaped else if c = '"' then bare else weak
  | weakEscaped => weak
  | strong => if c = '\\' then strongEscaped else if c = '\'' then bare else strong
  | strongEscaped => strong

/-- The characters up to a comment, and the state at their end; no state for a comment. -/
def upToComment : LineState → List Char → List Char × Option LineState
  | s, [] => ([], some s)
  | s, c :: rest =>
    if s = .blank ∧ c = '#' then ([], none)
    else
      let (kept, final) := upToComment (s.next c) rest
      (c :: kept, final)

/-- The lines of a text, each with its break. -/
def physicalLines : List Char → List (List Char)
  | [] => []
  | c :: rest =>
    if c = '\n' then [c] :: physicalLines rest
    else match physicalLines rest with
      | [] => [[c]]
      | line :: lines => (c :: line) :: lines

/-- The line without its break. -/
def withoutBreak (line : List Char) : List Char :=
  match line.reverse with
  | '\n' :: '\r' :: rest => rest.reverse
  | '\n' :: rest => rest.reverse
  | _ => line

/-- Lines joined where quotes go over their ends; nothing for one whose quotes are still open at the
end of the text. -/
def logicalLines (before : List Char) (s : LineState) :
    List (List Char) → List (Option (List Char))
  | [] => if s = .bare then [] else [none]
  | line :: rest =>
    let whole := before ++ line
    if (Text.dropBlank whole).head? = some '#' then some [] :: logicalLines [] .bare rest
    else
      match upToComment s line with
      | (kept, none) => some (before ++ kept) :: logicalLines [] .bare rest
      | (_, some .bare) => some (withoutBreak whole) :: logicalLines [] .bare rest
      | (_, some s) => logicalLines whole s rest

/-! Values -/

/-- Where a value is with its quotes and references. -/
inductive ValueState where
  | bare
  | weak
  | strong
  | escaped (inWeak : Bool)
  /-- Inside the name of a variable, in braces or not. -/
  | reference (inWeak braced : Bool) (name : List Char)
  /-- After a blank, where only a comment may follow. -/
  | ending
deriving DecidableEq, Repr

/-- What a backslash makes of a character. -/
def unescape? (c : Char) : Option Char :=
  if c = 'n' then some '\n'
  else if ['\\', '\'', '"', '$', ' '].contains c then some c
  else none

/-- The state outside of a reference. -/
def ValueState.resting (inWeak : Bool) : ValueState := if inWeak then weak else bare

/-- A character of a name in a reference. -/
def isNameChar (c : Char) : Bool := c.isAlphanum || (128 ≤ c.toNat && !Text.isBlank c)

/-- The value of a variable, in characters. -/
def valueOf (env : Environment) (name : List Char) : List Char :=
  ((env (String.ofList name)).getD "").toList

/-- The text a value stands for, from a state on. -/
def readValue (env : Environment) : ValueState → List Char → Option (List Char)
  | .bare, [] => some []
  | .ending, [] => some []
  | .escaped false, [] => some []
  | .reference false false name, [] => some (valueOf env name)
  | _, [] => none
  | .ending, c :: rest =>
    if c = ' ' ∨ c = '\t' then readValue env .ending rest
    else if c = '#' then some []
    else none
  | .escaped inWeak, c :: rest => do
    let d ← unescape? c
    let more ← readValue env (.resting inWeak) rest
    return d :: more
  | .strong, c :: rest =>
    if c = '\'' then readValue env .bare rest else (readValue env .strong rest).map (c :: ·)
  | .reference inWeak braced name, c :: rest =>
    if isNameChar c then readValue env (.reference inWeak braced (name ++ [c])) rest
    else if braced then
      if c = '}' then (readValue env (.resting inWeak) rest).map (valueOf env name ++ ·)
      else readValue env (.reference inWeak true (name ++ [c])) rest
    else if c = '{' ∧ name = [] then readValue env (.reference inWeak true []) rest
    else if c = '$' then
      (readValue env (.reference inWeak false []) rest).map (valueOf env name ++ ·)
    else (readValue env (.resting inWeak) rest).map (valueOf env name ++ c :: ·)
  | .weak, c :: rest =>
    if c = '$' then readValue env (.reference true false []) rest
    else if c = '"' then readValue env .bare rest
    else if c = '\\' then readValue env (.escaped true) rest
    else (readValue env .weak rest).map (c :: ·)
  | .bare, c :: rest =>
    if c = '$' then readValue env (.reference false false []) rest
    else if c = '\'' then readValue env .strong rest
    else if c = '"' then readValue env .weak rest
    else if c = '\\' then readValue env (.escaped false) rest
    else if c = ' ' ∨ c = '\t' then readValue env .ending rest
    else (readValue env .bare rest).map (c :: ·)

/-! Assignments -/

/-- The name at the front, and the rest without the blanks before it. -/
def name? (cs : List Char) : Option (List Char × List Char) :=
  match cs with
  | [] => none
  | c :: _ =>
    if c.isAlpha || c == '_' then
      let isPart (c : Char) : Bool := c.isAlphanum || c == '_' || c == '.'
      some (cs.takeWhile isPart, Text.dropBlank (cs.dropWhile isPart))
    else none

/-- The text after an equals sign. -/
def afterEquals? : List Char → Option (List Char)
  | '=' :: rest => some rest
  | _ => none

/-- The name and what follows its equals sign; the word `export` may stand before the name. -/
def assigned? (cs : List Char) : Option (List Char × List Char) := do
  let (name, rest) ← name? cs
  match afterEquals? rest with
  | some value => return (name, value)
  | none =>
    if name = "export".toList then
      let (name, rest) ← name? rest
      return (name, ← afterEquals? rest)
    else none

/-- The text has nothing but a comment, if anything. -/
def isSilent (cs : List Char) : Bool := (cs.head?.map (· == '#')).getD true

/-- The assignment of a line, if it has one; nothing at all when it is no assignment. -/
def readLine (env : Environment) (line : List Char) : Option (Option (String × String)) :=
  let cs := Text.trimmed line
  if isSilent cs then some none
  else do
    let (name, value) ← assigned? cs
    let value := Text.dropBlank value
    let text ← if isSilent value then some [] else readValue env .bare value
    return some (String.ofList name, String.ofList text)

/-- The environment with the assignments of the lines, up to the first that is none. -/
def applyLines (env : Environment) : List (Option (List Char)) → Environment
  | [] => env
  | line :: rest =>
    match line.bind (readLine env) with
    | none => env
    | some none => applyLines env rest
    | some (some (name, value)) =>
      match env name with
      | some _ => applyLines env rest
      | none => applyLines (fun n => if n = name then some value else env n) rest

/-- The environment with the variables that a file adds to it. -/
def extend (env : Environment) (text : String) : Environment :=
  let cs := match text.toList with
    | c :: rest => if c.toNat = 0xFEFF then rest else c :: rest
    | [] => []
  applyLines env (logicalLines [] .bare (physicalLines cs))

end LoadHarness.Command.EnvironmentFile

/-!
# Errors and what lies beneath them

Every error family has a message of its own and a list of sources, the nearest first. `causes`
tells the whole story on one line; a message equal to the one before it is said once.
-/

namespace LoadHarness

/-- An error with a text for people and the texts of the errors beneath it. -/
class Explained (ε : Type) where
  message : ε → String
  sources : ε → List String

export Explained (message sources)

/-- The elements without those equal to the one just before them. -/
def dropRepeats {α : Type} [DecidableEq α] : List α → List α
  | [] => []
  | [x] => [x]
  | x :: y :: r => if x = y then dropRepeats (y :: r) else x :: dropRepeats (y :: r)

/-- The message and all its sources in one line. -/
def causes {ε : Type} [Explained ε] (e : ε) : String :=
  ": ".intercalate (dropRepeats (message e :: sources e))

/-- An error as the source of another: its own message, then its sources. -/
def chain {ε : Type} [Explained ε] (e : ε) : List String := message e :: sources e

end LoadHarness

/-!
# Data formats

What a format must be able to write, so that settings are laid out once for all formats.
-/

namespace LoadHarness

/-- A data format with values in `α`. -/
class Encoding (α : Type) where
  nothing : α
  truth : Bool → α
  whole : Int → α
  real : Float → α
  text : String → α
  list : List α → α
  /-- Members in the order in which they are written. -/
  record : List (String × α) → α

namespace Encoding

variable {α β : Type} [Encoding α]

def optional (f : β → α) : Option β → α
  | some b => f b
  | none => nothing

end Encoding

end LoadHarness

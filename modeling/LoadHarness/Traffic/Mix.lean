import LoadHarness.Text.Blank
import LoadHarness.Failure.Causes

/-!
# The mix of operations

A mix gives every operation type its percentage. Types lie one after another on the quanta from 0
to 100, each up to its cumulative limit, and a draw picks the first type with a share whose limit
the quantum does not pass.
-/

namespace LoadHarness

/-- Why a mix cannot be built or has no such type. -/
inductive MixError where
  | empty
  | lengthMismatch (weights tags : Nat)
  | negativeWeight (tag : String) (weight : Int64)
  | invalidSum (sum : Int64)
  | blankTag (position : Nat)
  | duplicateTag (tag : String)
  | ordinalNotFound (ordinal : Nat)
  | tagNotFound (tag : String)
deriving DecidableEq, Repr

instance : Explained MixError where
  message
    | .empty => "workload mix count must be greater than zero"
    | .lengthMismatch weights tags =>
      "workload mix count (" ++ toString weights ++ ") must equal workload tag count (" ++
        toString tags ++ ")"
    | .negativeWeight tag weight =>
      "mix value for tag '" ++ tag ++ "' must be greater than or equal to zero, got " ++
        toString weight.toInt
    | .invalidSum sum => "workload mix must sum to 100, got " ++ toString sum.toInt
    | .blankTag position => "workload tag at position " ++ toString position ++ " is blank"
    | .duplicateTag tag => "duplicate workload tag: " ++ tag
    | .ordinalNotFound ordinal => "illegal mix ordinal: " ++ toString ordinal
    | .tagNotFound tag => "no such mix tag found: " ++ tag
  sources _ := []

/-- One kind of operation in a mix. -/
structure OperationType where
  ordinal : Nat
  tag : String
  /-- The percentage as it is kept. -/
  share : UInt32
  /-- The sum of the shares up to and with this one. -/
  reach : UInt32
deriving DecidableEq, Repr

def OperationType.weight (t : OperationType) : Nat := t.share.toNat

/-- The sum of the weights up to and with this one. -/
def OperationType.limit (t : OperationType) : Nat := t.reach.toNat

/-- The type has a share of the draws. -/
def OperationType.isReachable (t : OperationType) : Bool := 0 < t.weight && 0 < t.limit

/-- Shares of operation types that add up to one hundred percent. -/
structure Mix where
  types : List OperationType
  types_ne_nil : types ≠ []

namespace Mix

/-- What all weights add up to. -/
def total : Nat := 100

/-- A sum that stays at the largest word instead of passing it. -/
def addClamped (a b : Int64) : Int64 :=
  let s := a.toInt + b.toInt
  if s < Int64.minValue.toInt then Int64.minValue
  else if Int64.maxValue.toInt < s then Int64.maxValue
  else Int64.ofInt s

/-- The first fault of the pairs from `position` on, where `seen` are the tags before. -/
def firstFault (position : Nat) (seen : List String) : List (Int64 × String) → Option MixError
  | [] => none
  | (weight, tag) :: rest =>
    if Text.allBlank tag then some (.blankTag position)
    else if weight.toInt < 0 then some (.negativeWeight tag weight)
    else if seen.contains tag then some (.duplicateTag tag)
    else firstFault (position + 1) (tag :: seen) rest

/-- The low half of a weight. -/
def shareOf (weight : Int64) : UInt32 := weight.toUInt64.toUInt32

/-- The types of the pairs from `ordinal` on, where `reached` is the limit before them. -/
def layOut (ordinal : Nat) (reached : UInt32) : List (Int64 × String) → List OperationType
  | [] => []
  | (weight, tag) :: rest =>
    let w := shareOf weight
    ⟨ordinal, tag, w, reached + w⟩ :: layOut (ordinal + 1) (reached + w) rest

theorem layOut_ne_nil {ordinal : Nat} {reached : UInt32} {ps : List (Int64 × String)} (h : ps ≠ []) :
    layOut ordinal reached ps ≠ [] := by
  cases ps with
  | nil => exact absurd rfl h
  | cons p ps => simp [layOut]

theorem zip_ne_nil {α β : Type} {as : List α} {bs : List β} (ha : as ≠ [])
    (h : as.length = bs.length) : as.zip bs ≠ [] := by
  cases as with
  | nil => exact absurd rfl ha
  | cons a as => cases bs with
    | nil => simp at h
    | cons b bs => simp

/-- The mix of the given percentages and tags, or the first thing that is wrong with them. -/
def ofWeights (weights : List Int64) (tags : List String) : Except MixError Mix :=
  if hw : weights = [] then .error .empty
  else if tags = [] then .error .empty
  else if hl : weights.length = tags.length then
    let pairs := weights.zip tags
    match firstFault 0 [] pairs with
    | some e => .error e
    | none =>
      let sum := weights.foldl addClamped 0
      if sum = 100 then .ok ⟨layOut 0 0 pairs, layOut_ne_nil (zip_ne_nil hw hl)⟩
      else .error (.invalidSum sum)
  else .error (.lengthMismatch weights.length tags.length)

/-- The last type with a share, or the last type. -/
def lastReachable (m : Mix) : OperationType :=
  (m.types.reverse.find? (·.isReachable)).getD (m.types.getLast m.types_ne_nil)

/-- The type that a quantum from 0 to 100 picks. -/
def pick (m : Mix) (quantum : Nat) : OperationType :=
  (m.types.find? fun t => t.isReachable && quantum ≤ t.limit).getD m.lastReachable

def typeAt (m : Mix) (ordinal : Nat) : Except MixError OperationType :=
  match m.types[ordinal]? with
  | some t => .ok t
  | none => .error (.ordinalNotFound ordinal)

def typeTagged (m : Mix) (tag : String) : Except MixError OperationType :=
  match m.types.find? (·.tag == tag) with
  | some t => .ok t
  | none => .error (.tagNotFound tag)

def tags (m : Mix) : List String := m.types.map (·.tag)

/-- The types that some quantum picks, in the order of declaration. -/
def reachable (m : Mix) : List OperationType :=
  m.types.filter fun t => (List.range (total + 1)).any fun q => m.pick q == t

end Mix

end LoadHarness

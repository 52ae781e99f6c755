import LoadHarness.Settings.Basic
import LoadHarness.Failure.Service
import LoadHarness.Text.Quoted

/-!
# Services by name

A registry knows how to build services of a type `σ` from settings. Names stand in the order of
their bytes, each once; registering a name again replaces what it stood for.
-/

namespace LoadHarness

/-- Builds a service from settings. -/
abbrev Factory (σ : Type) := Settings → Except ServiceError σ

/-- Factories in the order of their names. -/
structure Registry (σ : Type) where
  entries : List (String × Factory σ)

namespace Registry

variable {σ : Type}

def empty : Registry σ := ⟨[]⟩

/-- The entries with another factory for a name. -/
def insertEntry (name : String) (f : Factory σ) :
    List (String × Factory σ) → List (String × Factory σ)
  | [] => [(name, f)]
  | (k, g) :: rest =>
    if k = name then (name, f) :: rest
    else if name < k then (name, f) :: (k, g) :: rest
    else (k, g) :: insertEntry name f rest

def register (r : Registry σ) (name : String) (f : Factory σ) : Registry σ :=
  ⟨insertEntry name f r.entries⟩

def names (r : Registry σ) : List String := r.entries.map (·.1)

def size (r : Registry σ) : Nat := r.entries.length

def contains (r : Registry σ) (name : String) : Bool := r.names.contains name

/-- Builds the service with a name. -/
def create (r : Registry σ) (name : String) : Factory σ := fun s =>
  match r.entries.find? (·.1 == name) with
  | some (_, f) => f s
  | none => .error (.unknown name)

/-- The registry as diagnostics show it. -/
def shown (r : Registry σ) : String :=
  "ServiceRegistry " ++ "\x7b services: [" ++ ", ".intercalate (r.names.map Text.quoted) ++ "] \x7d"

end Registry

end LoadHarness

import LoadHarness.Settings.Environment
import LoadHarness.Yaml.Value

/-!
# Test specs of a conf file

A conf file maps the names of tests to flat maps of properties. A list of scalars is the same as
its items with commas between them, and a value may refer to the environment.
-/

namespace LoadHarness

namespace Settings

open Yaml (Value)

/-- The text of a property's value: scalars as they are, lists with commas; nothing else has a
text. -/
def valueText? : Value → Option String
  | .sequence items => some (",".intercalate (items.filterMap Value.scalarText?))
  | v => v.scalarText?

/-- The property of an entry, unless it has no text or refers to a variable that is not set. -/
def entryProperty? (env : Environment) (e : Value × Value) : Option Property := do
  let key ← e.1.scalarText?
  let text ← valueText? e.2
  let value ← env.expand text
  return (key, value)

/-- The properties of a spec, in its order. -/
def specProperties (env : Environment) (entries : List (Value × Value)) : List Property :=
  entries.filterMap (entryProperty? env)

/-- The standard settings with the spec of one test of a conf file applied. -/
def ofSpec (env : Environment) (text test : String) (processors : Nat := 1) :
    Except ConfigError Settings := do
  let document ← (Value.ofText? text).mapError fun f => .malformed f.text
  match (document.get? test).bind Value.entries? with
  | none => throw (.unknownTest test)
  | some entries => ofProperties (specProperties env entries) processors

end Settings

end LoadHarness

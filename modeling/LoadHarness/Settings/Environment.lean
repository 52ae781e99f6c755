import LoadHarness.Settings.Property

/-!
# Environment variables

Variables come in twice: values of a conf file may refer to them, and some of them override
settings.
-/

namespace LoadHarness

/-- The value of a variable, if it is set. -/
abbrev Environment := String → Option String

namespace Environment

def empty : Environment := fun _ => none

/-- The variables of a list; of two with one name the first counts. -/
def ofList (vars : List (String × String)) : Environment := fun name =>
  (vars.find? (·.1 == name)).map (·.2)

/-- What stands between `$(` and `)`, if the whole value is such a reference. -/
def reference? (cs : List Char) : Option (List Char) :=
  match Text.after? ['$', '('] cs with
  | none => none
  | some rest => if rest.getLast? = some ')' then some rest.dropLast else none

/-- A value with its reference resolved: `$(NAME)` is the variable, `$(NAME:text)` is the text when
the variable is not set, and anything else is itself. Nothing for a variable that is not set. -/
def expand (env : Environment) (value : String) : Option String :=
  match reference? value.toList with
  | none => some value
  | some inner =>
    match Text.cutFirst? ':' inner with
    | some (name, fallback) =>
      some ((env (String.ofList name)).getD (String.ofList fallback))
    | none => env (String.ofList inner)

/-- The variables that override settings, in the order in which they are applied. -/
def overrides : List (String × Key) :=
  [("DASH_THREADS", .threads), ("DASH_RATE_LIMIT", .rateLimit), ("DASH_RATE_BURST", .rateBurst),
    ("DATABASE_URL", .databaseUrl)]

/-- The properties that the variables stand for. -/
def properties (env : Environment) : List Property :=
  overrides.filterMap fun (name, key) => (env name).map fun value => (key.name, value)

end Environment

/-- The settings with the overriding variables applied. -/
def Settings.applyEnvironment (s : Settings) (env : Environment) :
    Settings × Except ConfigError Unit := s.apply env.properties

end LoadHarness

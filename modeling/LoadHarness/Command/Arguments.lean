import LoadHarness.Command.Help
import LoadHarness.Command.Property

/-!
# Arguments of the command line

Options that concern every task come first, then the task, then the options of the task. An option
with a value takes it from behind its equals sign, from the rest of its own word when it is a single
letter, or from the next word, which then must not look like an option. No option but the one for
properties can be given twice. After the mark of two dashes nothing may follow.
-/

namespace LoadHarness.Command

/-- How results are printed. -/
inductive OutputFormat where
  | text
  | json
  | yaml
deriving DecidableEq, Repr

def OutputFormat.ofName? (s : String) : Option OutputFormat :=
  if s = "text" then some .text
  else if s = "json" then some .json
  else if s = "yaml" then some .yaml
  else none

/-- Settings of a run that are given as options of their own. -/
structure RunFlags where
  service : Option String
  threads : Option UInt64
  rate : Option UInt64
  burst : Option UInt64
deriving DecidableEq, Repr

inductive Task where
  | run (flags : RunFlags)
  | config
  | services
deriving DecidableEq, Repr

/-- A task with everything that concerns every task. -/
structure Invocation where
  conf : Option String
  test : String
  properties : List Property
  output : OutputFormat
  task : Task
deriving DecidableEq, Repr

/-- What the arguments ask for. -/
inductive Request where
  | perform (i : Invocation)
  | version
  | help (page : HelpPage)
  | misuse
deriving DecidableEq, Repr

/-- A word of the command line. -/
inductive Word where
  /-- An option by its long name or its letter, with the value that stands in the same word. -/
  | option (name : String) (value : Option String)
  /-- The mark after which no options come. -/
  | mark
  | plain (s : String)
deriving DecidableEq, Repr

/-- Long names of the options with a letter. -/
def letters : List (Char × String) :=
  [('c', "conf"), ('t', "test"), ('D', "set"), ('o', "output"), ('h', "help"), ('V', "version")]

/-- Options that take no value; of their letters, what follows in the word does not count. -/
def isSwitch (name : String) : Bool := name = "help" || name = "version"

/-- What a word is. A single dash is a plain word. -/
def Word.ofText (s : String) : Word :=
  match s.toList with
  | ['-', '-'] => .mark
  | '-' :: '-' :: rest =>
    match Text.cutFirst? '=' rest with
    | some (name, value) => .option (String.ofList name) (some (String.ofList value))
    | none => .option (String.ofList rest) none
  | '-' :: c :: rest =>
    let name := ((letters.find? (·.1 == c)).map (·.2)).getD (String.ofList ['-', c])
    let value := match rest with
      | [] => none
      | c :: value => if isSwitch name then none else some (if c = '=' then value else c :: value)
    .option name (value.map String.ofList)
  | _ => .plain s

/-- The value of an option: from its own word or from the next one. -/
def valueOf? (own : Option String) (rest : List String) :
    Option (String × { r : List String // r.length ≤ rest.length }) :=
  match own with
  | some v => some (v, ⟨rest, Nat.le_refl _⟩)
  | none =>
    match rest with
    | [] => none
    | w :: rest =>
      match Word.ofText w with
      | .plain v => some (v, ⟨rest, Nat.le_succ _⟩)
      | _ => none

/-- A setting that can be given once. -/
def once {α : Type} (given : Option α) (value : Option α) : Option (Option α) :=
  match given, value with
  | none, some a => some (some a)
  | _, _ => none

/-- The options of a run, one after another. -/
def readRun (flags : RunFlags) (args : List String) : Except Request RunFlags :=
  match args with
  | [] => .ok flags
  | w :: rest =>
    match Word.ofText w with
    | .option "help" none => .error (.help .run)
    | .mark => if rest.isEmpty then .ok flags else .error .misuse
    | .option name own =>
      match valueOf? own rest with
      | none => .error .misuse
      | some (v, rest') =>
        let changed : Option RunFlags :=
          if name = "service" then
            (once flags.service (some v)).map fun x => { flags with service := x }
          else if name = "threads" then
            (once flags.threads (Text.readUInt64 v)).map fun x => { flags with threads := x }
          else if name = "rate" then
            (once flags.rate (Text.readUInt64 v)).map fun x => { flags with rate := x }
          else if name = "burst" then
            (once flags.burst (Text.readUInt64 v)).map fun x => { flags with burst := x }
          else none
        match changed with
        | some flags => readRun flags rest'.val
        | none => .error .misuse
    | .plain _ => .error .misuse
termination_by args.length
decreasing_by simp only [List.length_cons]; have := rest'.property; omega

/-- The options that concern every task, as far as they have been given. -/
structure Globals where
  conf : Option String
  test : Option String
  properties : List Property
  output : Option OutputFormat

namespace Globals

def empty : Globals := ⟨none, none, [], none⟩

/-- One more option with its value; nothing when it cannot be given. -/
def give? (g : Globals) (name value : String) : Option Globals :=
  if name = "conf" then
    if value.isEmpty then none
    else (once g.conf (some value)).map fun x => { g with conf := x }
  else if name = "test" then (once g.test (some value)).map fun x => { g with test := x }
  else if name = "set" then
    match readProperty value with
    | .ok p => some { g with properties := g.properties ++ [p] }
    | .error _ => none
  else if name = "output" then
    (once g.output (OutputFormat.ofName? value)).map fun x => { g with output := x }
  else none

/-- A task under the options; what they leave out comes from the environment. -/
def perform (g : Globals) (env : Environment) (task : Task) : Request :=
  let conf := g.conf.or (env confVariable)
  if conf = some "" then .misuse
  else .perform {
    conf := conf
    test := (g.test.or (env testVariable)).getD defaultTest
    properties := g.properties
    output := g.output.getD .text
    task := task }

end Globals

/-- A task that takes no options but the one for its help page. -/
def readAlone (task : Task) (page : HelpPage) (args : List String) : Except Request Task :=
  match args.map Word.ofText with
  | [] => .ok task
  | [.mark] => .ok task
  | .option "help" none :: _ => .error (.help page)
  | _ => .error .misuse

/-- The help page that is asked for by name. -/
def readHelp : List String → Request
  | [] => .help .overview
  | ["run"] => .help .run
  | ["config"] => .help .config
  | ["services"] => .help .services
  | ["help"] => .help .overview
  | _ => .misuse

/-- The task with its own arguments. -/
def readTask (name : String) (rest : List String) : Except Request Task :=
  if name = "run" then (readRun ⟨none, none, none, none⟩ rest).map .run
  else if name = "config" then readAlone .config .config rest
  else if name = "services" then readAlone .services .services rest
  else if name = "help" then .error (readHelp rest)
  else .error .misuse

/-- The arguments from the first that has not been taken yet. -/
def readFrom (env : Environment) (g : Globals) (args : List String) : Request :=
  match args with
  | [] => .misuse
  | w :: rest =>
    match Word.ofText w with
    | .option "version" none => .version
    | .option "help" none => .help .overview
    | .option name own =>
      match valueOf? own rest with
      | none => .misuse
      | some (v, rest') =>
        match g.give? name v with
        | some g => readFrom env g rest'.val
        | none => .misuse
    | .plain name =>
      match readTask name rest with
      | .ok task => g.perform env task
      | .error r => r
    | .mark => .misuse
termination_by args.length
decreasing_by simp only [List.length_cons]; have := rest'.property; omega

/-- What the arguments ask for in an environment. -/
def Request.ofArguments (env : Environment) (args : List String) : Request :=
  readFrom env .empty args

end LoadHarness.Command

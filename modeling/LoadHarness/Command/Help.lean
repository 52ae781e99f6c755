import LoadHarness.Settings.Environment

/-!
# Help pages

A page says what a command is for, how it is called, and what it takes: rows of two columns, the
first as wide as its widest entry.
-/

namespace LoadHarness.Command

inductive HelpPage where
  | overview
  | run
  | config
  | services
deriving DecidableEq, Repr

/-- A row of a help page: how something is written and what it does. -/
structure HelpRow where
  written : String
  text : String

/-- A text filled up with blanks to a width. -/
def padded (width : Nat) (s : String) : String := s ++ "".pushn ' ' (width - s.length)

/-- Rows under a title. -/
def helpRows (title : String) (rows : List HelpRow) : String :=
  let width := rows.foldl (fun w r => max w r.written.length) 0
  let line (r : HelpRow) := "  " ++ padded width r.written ++ "  " ++ r.text ++ "\n"
  title ++ ":\n" ++ String.join (rows.map line)

/-- The row that every page ends its options with, or nearly. -/
def helpOption : HelpRow := ⟨"-h, --help", "Print help"⟩

/-- What the program is for. -/
def aboutText : String := "Dash - Drive weighted database workloads at a controlled rate"

/-- What each task is for. -/
def aboutRun : String := "Run a service until interrupted"

def aboutConfig : String := "Print the effective configuration"

def aboutServices : String := "List the services that can be run"

/-- The tasks that can be asked for. -/
def taskRows : List HelpRow :=
  [⟨"run", aboutRun⟩, ⟨"config", aboutConfig⟩, ⟨"services", aboutServices⟩,
    ⟨"help", "Print this message or the help of the given subcommand(s)"⟩]

/-- What is said of the variable that can stand for an option. -/
def variableNote (env : Environment) (name : String) : String :=
  "[env: " ++ name ++ "=" ++ (env name).getD "" ++ "]"

/-- The variable that names the conf file when no option does. -/
def confVariable : String := "DASH_CONF"

/-- The variable that names the test when no option does. -/
def testVariable : String := "DASH_TEST"

/-- The test that is read when nothing names one. -/
def defaultTest : String := "default"

/-- The options that concern every task. -/
def optionRows (env : Environment) : List HelpRow :=
  [⟨"-c, --conf <CONF>",
      "YAML conf file mapping test names to properties " ++ variableNote env confVariable⟩,
    ⟨"-t, --test <TEST>", "Test spec to read from the conf file " ++
      variableNote env testVariable ++ " [default: " ++ defaultTest ++ "]"⟩,
    ⟨"-D, --set <KEY=VALUE>", "Property override, e.g. -D dash.driver.threads=8 (repeatable)"⟩,
    ⟨"-o, --output <OUTPUT>",
      "Output format [default: text] [possible values: text, json, yaml]"⟩,
    helpOption, ⟨"-V, --version", "Print version"⟩]

def runRows : List HelpRow :=
  [⟨"    --service <SERVICE>", "Service to run (overrides runner.class)"⟩,
    ⟨"    --threads <THREADS>", "Number of workers"⟩,
    ⟨"    --rate <RATE>", "Sustained operations per second"⟩,
    ⟨"    --burst <BURST>", "Bucket capacity"⟩, helpOption]

/-- How the program is called. -/
def usageLine (rest : String) : String := "Usage: dash " ++ rest ++ "\n"

def HelpPage.text (env : Environment) : HelpPage → String
  | overview =>
    "\n".intercalate [aboutText ++ "\n", usageLine "[OPTIONS] <COMMAND>",
      helpRows "Commands" taskRows, helpRows "Options" (optionRows env)]
  | run =>
    "\n".intercalate [aboutRun ++ "\n", usageLine "run [OPTIONS]", helpRows "Options" runRows]
  | config =>
    "\n".intercalate [aboutConfig ++ "\n", usageLine "config", helpRows "Options" [helpOption]]
  | services =>
    "\n".intercalate [aboutServices ++ "\n", usageLine "services",
      helpRows "Options" [helpOption]]

end LoadHarness.Command

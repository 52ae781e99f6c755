import LoadHarness.Command.Outcome
import LoadHarness.Proofs.Settings.Keys

/-!
# Layers of settings

What a run is told comes from five places: its own options, properties on the command line,
variables, the test of a conf file and the standard settings. Each setting has the value of the
first of these that says anything about it, and nobody else has a say in it.
-/

namespace LoadHarness

open Yaml (Value)

namespace Key

/-- The variable that overrides the setting of a key. -/
def environmentName? : Key → Option String
  | threads => some "DASH_THREADS"
  | rateLimit => some "DASH_RATE_LIMIT"
  | rateBurst => some "DASH_RATE_BURST"
  | databaseUrl => some "DATABASE_URL"
  | _ => none

/-- The text of the last entry of a spec that gives one for a key. An entry that refers to a
variable which is not set, and has no other text for it, gives none. -/
def lastEntry (k : Key) (env : Environment) (entries : List (Value × Value)) : Option String :=
  entries.reverse.findSome? fun e =>
    if e.1.scalarText? = some k.name then (Settings.valueText? e.2).bind env.expand else none

theorem lastIn_specProperties (k : Key) (env : Environment) (entries : List (Value × Value)) :
    k.lastIn (Settings.specProperties env entries) = k.lastEntry env entries := by
  unfold lastEntry Settings.specProperties
  rw [lastIn_filterMap]
  congr 1
  funext e
  unfold Settings.entryProperty?
  cases e.1.scalarText? with
  | none => rfl
  | some key =>
    cases Settings.valueText? e.2 with
    | none => by_cases own : key = k.name <;> simp [own]
    | some text =>
      cases expanded : env.expand text with
      | none => by_cases own : key = k.name <;> simp [own, expanded]
      | some value => by_cases own : key = k.name <;> simp [own, expanded]

theorem lastIn_environment (k : Key) (env : Environment) :
    k.lastIn env.properties = k.environmentName?.bind env := by
  have looked : k.lastIn env.properties =
      Environment.overrides.reverse.findSome? fun o => if o.2 = k then env o.1 else none := by
    unfold Environment.properties
    rw [lastIn_filterMap]
    congr 1
    funext o
    cases set : env o.1 with
    | none => simp [set]
    | some value => simp [set, name_inj]
  rw [looked]
  cases k with
  | threads | rateLimit | rateBurst | databaseUrl =>
    simp only [Environment.overrides, environmentName?, List.findSome?_cons, List.reverse_cons,
      List.reverse_nil, List.nil_append, List.cons_append, reduceCtorEq, if_false, if_true,
      List.findSome?_nil, Option.bind_some]
    split <;> simp [*]
  | _ => rfl

end Key

namespace Command

open Key

/-- What the options of a run say for a key. -/
def RunFlags.saidFor (f : RunFlags) : (k : Key) → Option k.Content
  | .service => f.service
  | .threads => f.threads
  | .rateLimit => f.rate
  | .rateBurst => f.burst.map some
  | _ => none

/-- Flags are a layer over the settings. -/
theorem RunFlags.apply_eq (f : RunFlags) (s : Settings) :
    f.apply s = .ofTable (KeyTable.under (Key.get s) f.saidFor) := by
  obtain ⟨service, threads, rate, burst⟩ := f
  cases burst <;> rfl

namespace Invocation

variable {i : Invocation} {env : Environment} {files : Files} {entries : List (Value × Value)}
  (processors : Nat)

/-- The entries of the test that the invocation names; without a conf file there are none. -/
def entries? (i : Invocation) (files : Files) : Option (List (Value × Value)) :=
  match i.conf with
  | none => some []
  | some path => do
    let text ← (files path).toOption
    let document ← (Value.ofText? text).toOption
    (document.get? i.test).bind Value.entries?

/-- The text for a key from the first place that gives one: properties, variables, conf file. -/
def textFor (i : Invocation) (env : Environment) (entries : List (Value × Value)) (k : Key) :
    Option String :=
  (k.lastIn i.properties).or ((k.environmentName?.bind env).or (k.lastEntry env entries))

/-- Readable properties are a layer over the standard settings. -/
theorem ofProperties_of_readable {ps : List Property} (readable : Readable ps) :
    Settings.ofProperties ps processors =
      .ok (.ofTable (KeyTable.under (Key.get (.standard processors)) (saidBy ps))) := by
  rw [Settings.ofProperties, Settings.apply_of_readable readable]

/-- Layers that can be read are applied one after another. -/
theorem settings_of_readable (named : i.entries? files = some entries)
    (spec : Readable (Settings.specProperties env entries)) (environment : Readable env.properties)
    (properties : Readable i.properties) :
    i.settings env files processors = .ok (.ofTable (KeyTable.under (KeyTable.under (KeyTable.under
      (Key.get (.standard processors)) (saidBy (Settings.specProperties env entries)))
      (saidBy env.properties)) (saidBy i.properties))) := by
  have base := ofProperties_of_readable processors spec
  have changed (s : Settings) := Settings.apply_of_readable environment s
  have final (s : Settings) := Settings.apply_of_readable properties s
  unfold Invocation.entries? at named
  unfold Invocation.settings Settings.applyEnvironment
  cases conf : i.conf with
  | none =>
    rw [conf] at named
    cases named
    have start : KeyTable.under (Key.get (.standard processors)) (saidBy []) =
        Key.get (.standard processors) := rfl
    simp only [bind, Except.bind, pure, Except.pure, changed, final, table_ofTable]
    rw [Settings.specProperties, List.filterMap_nil, start]
  | some path =>
    rw [conf] at named
    obtain ⟨text, opened, named⟩ := Option.bind_eq_some_iff.1 named
    obtain ⟨document, parsed, named⟩ := Option.bind_eq_some_iff.1 named
    simp only [bind, Except.bind, pure, Except.pure, Settings.ofSpec, mapError_ok,
      ok_of_toOption opened, ok_of_toOption parsed, named, base, changed, final, table_ofTable]

/-- **Each setting of a run has the value of the highest layer that sets it**: an option, then the
last property with its key, then its variable, then the entry of the test, then the standard. -/
theorem highest_layer_wins {flags : RunFlags} (running : i.task = .run flags)
    (named : i.entries? files = some entries)
    (spec : Readable (Settings.specProperties env entries)) (environment : Readable env.properties)
    (properties : Readable i.properties) :
    i.respond env files processors = .run (.ofTable fun k =>
      ((flags.saidFor k).or ((i.textFor env entries k).bind fun text =>
        k.read (Text.trim text))).getD (k.get (.standard processors))) := by
  have loaded := settings_of_readable processors named spec environment properties
  unfold Invocation.respond
  rw [loaded, running]
  dsimp only
  rw [RunFlags.apply_eq, table_ofTable]
  congr 2
  funext k
  unfold KeyTable.under textFor
  rw [← lastIn_specProperties, ← lastIn_environment]
  cases flags.saidFor k with
  | some x => rfl
  | none =>
    have lowest := spec.getD_or k none (k.get (.standard processors))
    rw [Option.or_none] at lowest
    rw [Option.none_or, properties.getD_or, environment.getD_or, lowest]
    rfl

/-- A run that is told something in every place. -/
def crowded : Invocation where
  conf := some "dash.yaml"
  test := "smoke"
  properties := [("dash.driver.threads", "5"), ("dash.color", "red"), ("dash.driver.threads", " 7 ")]
  output := .text
  task := .run ⟨none, none, some 40, none⟩

/-- Its conf file: one entry refers to a variable that is not set. -/
def crowdedFiles : Files := fun _ => .ok <|
  "smoke:\n  runner.class: ping\n  dash.driver.threads: 2\n  dash.driver.rates.limit: 10\n" ++
    "  dash.workload.tag: [A, B]\n  dash.db.url: $(DASH_URL)\n"

/-- Its variables. -/
def crowdedEnvironment : Environment :=
  .ofList [("DASH_THREADS", "3"), ("DASH_RATE_LIMIT", "20"), ("DASH_RATE_BURST", "30")]

/-- Five layers that speak of some of the same keys. -/
theorem highest_layer_wins_crowded :
    ∃ s, crowded.respond crowdedEnvironment crowdedFiles = .run s ∧
      s.driver.rates.limit = 40 ∧ s.driver.threads = 7 ∧ s.driver.rates.burst = some 30 ∧
      s.service = "ping" ∧ s.workload.tags = ["A", "B"] ∧ s.database.url = none ∧
      s.retry = .exponential := by
  have spec : (crowded.entries? crowdedFiles).map (Settings.specProperties crowdedEnvironment) =
      some [("runner.class", "ping"), ("dash.driver.threads", "2"),
        ("dash.driver.rates.limit", "10"), ("dash.workload.tag", "A,B")] := by decide +kernel
  obtain ⟨entries, named, same⟩ := Option.map_eq_some_iff.1 spec
  refine ⟨_, highest_layer_wins 1 rfl named (by rw [same]; decide +kernel) (by decide +kernel)
    (by decide +kernel), ?_⟩
  simp only [Settings.ofTable, textFor, ← lastIn_specProperties, same]
  decide +kernel

end Invocation

end Command

end LoadHarness

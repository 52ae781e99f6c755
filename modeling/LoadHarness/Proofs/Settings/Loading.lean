import LoadHarness.Settings.Spec
import LoadHarness.Settings.Encoded
import LoadHarness.Proofs.Settings.Keys

/-!
# Settings that are loaded

Settings begin as the standard ones, or as what a conf file or a JSON text says, and change with
properties and with the environment. A duration enters them as a whole number of the unit in which
it is written, so none that is loaded loses anything when it is written again.
-/

namespace LoadHarness

namespace Duration

variable {d : Duration}

/-- As many milliseconds as a 64-bit word counts, and nothing past the last. -/
def IsMillis (d : Duration) : Prop := ∃ n, d = ofMillis n

/-- As many seconds as a 64-bit word counts, and nothing past the last. -/
def IsSeconds (d : Duration) : Prop := ∃ n, d = ofSeconds n

theorem IsMillis.ofMillis_millis (h : d.IsMillis) : ofMillis d.millis = d := by
  obtain ⟨n, rfl⟩ := h
  rw [millis_ofMillis]

theorem IsSeconds.ofSeconds_seconds (h : d.IsSeconds) : ofSeconds d.seconds = d := by
  obtain ⟨n, rfl⟩ := h
  rw [seconds_ofSeconds]

end Duration

/-- A duration is whole in the unit in which its setting is written. -/
def Key.Whole : (k : Key) → k.Content → Prop
  | .minBackoff, d | .maxBackoff, d | .slotTime, d | .latency, d => d.IsMillis
  | .reportInterval, d => d.IsSeconds
  | _, _ => True

namespace Settings

/-- What loading can come to. A list of properties counts up to the first that cannot be read. -/
inductive Loaded : Settings → Prop
  | standard (processors : Nat) : Loaded (.standard processors)
  | properties {s : Settings} (ps : List Property) : Loaded s → Loaded (s.apply ps).1
  | environment {s : Settings} (env : Environment) : Loaded s → Loaded (s.applyEnvironment env).1
  | ofProperties {s : Settings} {ps : List Property} {processors : Nat} :
    ofProperties ps processors = .ok s → Loaded s
  | ofSpec {s : Settings} {env : Environment} {text test : String} {processors : Nat} :
    ofSpec env text test processors = .ok s → Loaded s
  | ofJson {s : Settings} {text : String} {processors : Nat} :
    ofJsonText? text processors = some s → Loaded s

/-- Every duration is whole. -/
def Whole (s : Settings) : Prop := ∀ k : Key, k.Whole (k.get s)

/-- The standard settings have no fractions of a unit. -/
theorem whole_standard (processors : Nat) : Whole (standard processors) := by
  intro k
  cases k with
  | minBackoff | maxBackoff | slotTime | latency | reportInterval => exact ⟨_, rfl⟩
  | _ => trivial

end Settings

/-- What a text says is whole. -/
theorem Key.whole_of_read {k : Key} {text : String} {x : k.Content} (h : k.read text = some x) :
    k.Whole x := by
  cases k with
  | minBackoff | maxBackoff | slotTime | latency | reportInterval =>
    obtain ⟨n, -, rfl⟩ := Option.map_eq_some_iff.1 h
    exact ⟨n, rfl⟩
  | _ => trivial

namespace Settings

variable {s s' : Settings} {processors : Nat}

/-- No property brings one in. -/
theorem Whole.applyOne (h : s.Whole) (p : Property) : (s.applyOne p).1.Whole := by
  unfold Settings.applyOne
  split
  · next key known =>
    cases said : key.read (Text.trim p.2) with
    | none =>
      obtain ⟨part, kind, refused⟩ := Key.exists_refused said
      rw [Key.assign_of_refused refused]
      exact h
    | some x =>
      rw [Key.assign_of_read said]
      intro k
      have entry := Key.get_ofTable (Function.update (Key.get s) key x) k
      rw [Prod.fst_swap, entry]
      by_cases own : k = key
      · subst own
        rw [Function.update_self]
        exact Key.whole_of_read said
      · rw [Function.update_of_ne own]
        exact h k
  · exact h

theorem Whole.apply (h : s.Whole) (ps : List Property) : (s.apply ps).1.Whole := by
  induction ps generalizing s with
  | nil => exact h
  | cons p rest ih =>
    have changed := h.applyOne p
    rw [Settings.apply]
    split
    · next s' applied =>
      rw [applied] at changed
      exact ih changed
    · next s' e applied =>
      rw [applied] at changed
      exact changed

theorem apply_standard_of_ofProperties {ps : List Property}
    (h : ofProperties ps processors = .ok s) :
    (standard processors).apply ps = (s, .ok ()) := by
  unfold ofProperties at h
  split at h
  · next applied =>
    cases h
    exact applied
  · cases h

theorem whole_of_ofProperties {ps : List Property} (h : ofProperties ps processors = .ok s) :
    s.Whole := by
  have applied := (whole_standard processors).apply ps
  rwa [apply_standard_of_ofProperties h] at applied

/-- What comes out of a spec comes out of its properties. -/
theorem properties_of_ofSpec {env : Environment} {text test : String}
    (h : ofSpec env text test processors = .ok s) : ∃ ps, ofProperties ps processors = .ok s := by
  unfold ofSpec at h
  cases read : (Yaml.Value.ofText? text).mapError fun f => ConfigError.malformed f.text with
  | error e =>
    rw [read] at h
    cases h
  | ok document =>
    rw [read] at h
    dsimp only [bind, Except.bind] at h
    split at h
    · cases h
    · exact ⟨_, h⟩

end Settings

/-! Durations in JSON are whole numbers of their unit as well. -/

section Json

open JsonValue (needed orElse)

variable {v : JsonValue}

/-- What a field with a standard value comes to has what the standard value and all values that
are read have. -/
theorem JsonValue.orElse_has {α : Type} {standard a : α} {read : JsonValue → Option α}
    {f : Option JsonValue} {P : α → Prop} (h : orElse standard read f = some a)
    (missing : P standard) (given : ∀ {v b}, read v = some b → P b) : P a := by
  cases f with
  | none =>
    cases h
    exact missing
  | some v => exact given h

theorem RetryConfig.isMillis_of_millisField {f : Option JsonValue} {d : Duration}
    (h : millisField f = some d) : d.IsMillis := by
  obtain ⟨n, -, rfl⟩ := Option.map_eq_some_iff.1 h
  exact ⟨n, rfl⟩

theorem RetryConfig.whole_of_ofJson? {c : RetryConfig} (h : ofJson? v = some c) :
    c.minBackoff.IsMillis ∧ c.maxBackoff.IsMillis ∧ c.slotTime.IsMillis := by
  obtain ⟨fields, -, h⟩ := Option.bind_eq_some_iff.1 h
  split at h
  · obtain ⟨attempts, -, h⟩ := Option.bind_eq_some_iff.1 h
    obtain ⟨low, lowRead, h⟩ := Option.bind_eq_some_iff.1 h
    obtain ⟨high, highRead, h⟩ := Option.bind_eq_some_iff.1 h
    obtain ⟨slot, slotRead, h⟩ := Option.bind_eq_some_iff.1 h
    obtain ⟨ceiling, -, h⟩ := Option.bind_eq_some_iff.1 h
    cases h
    exact ⟨isMillis_of_millisField lowRead, isMillis_of_millisField highRead,
      isMillis_of_millisField slotRead⟩
  · cases h

theorem ReportSettings.whole_of_ofJson? {r : ReportSettings} (h : ofJson? v = some r) :
    r.interval.IsSeconds := by
  obtain ⟨fields, -, h⟩ := Option.bind_eq_some_iff.1 h
  split at h
  · obtain ⟨enabled, -, h⟩ := Option.bind_eq_some_iff.1 h
    obtain ⟨n, -, h⟩ := Option.bind_eq_some_iff.1 h
    cases h
    exact ⟨n, rfl⟩
  · cases h

theorem SyntheticSettings.whole_of_ofJson? {s : SyntheticSettings} (h : ofJson? v = some s) :
    s.latency.IsMillis := by
  obtain ⟨fields, -, h⟩ := Option.bind_eq_some_iff.1 h
  split at h
  · obtain ⟨latency, latencyRead, h⟩ := Option.bind_eq_some_iff.1 h
    obtain ⟨ratio, -, h⟩ := Option.bind_eq_some_iff.1 h
    cases h
    refine JsonValue.orElse_has (P := Duration.IsMillis) latencyRead ⟨_, rfl⟩ fun given => ?_
    obtain ⟨n, -, rfl⟩ := Option.map_eq_some_iff.1 given
    exact ⟨n, rfl⟩
  · cases h

/-- Nor does a text in JSON. -/
theorem Settings.whole_of_ofJson? {s : Settings} {processors : Nat}
    (h : ofJson? v processors = some s) : s.Whole := by
  obtain ⟨fields, -, h⟩ := Option.bind_eq_some_iff.1 h
  split at h
  · obtain ⟨service, -, h⟩ := Option.bind_eq_some_iff.1 h
    obtain ⟨driver, -, h⟩ := Option.bind_eq_some_iff.1 h
    obtain ⟨workload, -, h⟩ := Option.bind_eq_some_iff.1 h
    obtain ⟨retry, retryRead, h⟩ := Option.bind_eq_some_iff.1 h
    obtain ⟨metrics, metricsRead, h⟩ := Option.bind_eq_some_iff.1 h
    obtain ⟨database, -, h⟩ := Option.bind_eq_some_iff.1 h
    obtain ⟨synthetic, syntheticRead, h⟩ := Option.bind_eq_some_iff.1 h
    cases h
    have whole := whole_standard processors
    obtain ⟨low, high, slot⟩ := JsonValue.orElse_has retryRead
      ⟨whole .minBackoff, whole .maxBackoff, whole .slotTime⟩ RetryConfig.whole_of_ofJson?
    have interval := JsonValue.orElse_has (P := fun r => r.interval.IsSeconds)
      metricsRead (whole .reportInterval) ReportSettings.whole_of_ofJson?
    have latency := JsonValue.orElse_has (P := fun r => r.latency.IsMillis)
      syntheticRead (whole .latency) SyntheticSettings.whole_of_ofJson?
    intro k
    cases k with
    | minBackoff => exact low
    | maxBackoff => exact high
    | slotTime => exact slot
    | reportInterval => exact interval
    | latency => exact latency
    | _ => trivial
  · cases h

end Json

/-- Every duration of loaded settings is whole. -/
theorem Settings.Loaded.whole {s : Settings} (h : Loaded s) : s.Whole := by
  induction h with
  | standard processors => exact whole_standard processors
  | properties ps _ ih => exact ih.apply ps
  | environment env _ ih => exact ih.apply env.properties
  | ofProperties applied => exact whole_of_ofProperties applied
  | ofSpec read =>
    obtain ⟨ps, applied⟩ := properties_of_ofSpec read
    exact whole_of_ofProperties applied
  | ofJson read =>
    obtain ⟨v, -, read⟩ := Option.bind_eq_some_iff.1 read
    exact whole_of_ofJson? read

end LoadHarness

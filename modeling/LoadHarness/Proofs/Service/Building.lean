import LoadHarness.Service.Builtin

/-!
# Settings that can be built from

Rates and mix are looked at twice, when settings are validated and when the synthetic service is
built from them. Validation takes the rates first and passes over a mix that nobody has set; the
factory takes the mix first and puts its own in place of one that nobody has set. Both find the same
faults.
-/

namespace LoadHarness

namespace Settings

/-- What validation finds wrong with the rates. -/
def checkRates (s : Settings) : Except LimiterError Unit := s.driver.rates.validate

/-- What validation finds wrong with the mix, which it passes over when none is set. -/
def checkMix (s : Settings) : Except MixError Unit :=
  if s.workload.isSet then discard (Mix.ofWeights s.workload.mix s.workload.tags) else .ok ()

/-- There is a service to run, and somebody to run it. -/
structure Staffed (s : Settings) : Prop where
  named : s.service.isEmpty = false
  workers : s.driver.threads ≠ 0

/-- What validation comes to, by the check that decides. -/
inductive Validates (s : Settings) : Except ConfigError Unit → Prop where
  | unstaffed {text} (missing : s.service.isEmpty = true ∨ s.driver.threads = 0) :
      Validates s (.error (.invalid text))
  | rates {l} (staffed : s.Staffed) (bad : s.checkRates = .error l) :
      Validates s (.error (.limiter l))
  | mix {m} (staffed : s.Staffed) (rates : s.checkRates = .ok ()) (bad : s.checkMix = .error m) :
      Validates s (.error (.mix m))
  | further {text} (staffed : s.Staffed) (rates : s.checkRates = .ok ())
      (mix : s.checkMix = .ok ()) : Validates s (.error (.invalid text))
  | passes (staffed : s.Staffed) (rates : s.checkRates = .ok ()) (mix : s.checkMix = .ok ()) :
      Validates s (.ok ())

variable {s : Settings}

theorem validates_of_checks {attempts backoff ratio : Prop} [Decidable attempts]
    [Decidable backoff] [Decidable ratio] {a b c : String} (staffed : s.Staffed)
    (rates : s.checkRates = .ok ()) (mix : s.checkMix = .ok ()) :
    Validates s
      (if attempts then .error (.invalid a) else if backoff then .error (.invalid b)
        else if ratio then .error (.invalid c) else .ok ()) := by
  split
  · exact .further staffed rates mix
  · split
    · exact .further staffed rates mix
    · split
      · exact .further staffed rates mix
      · exact .passes staffed rates mix

/-- Validation comes to nothing else. -/
theorem validates (s : Settings) : Validates s s.validate := by
  unfold validate
  cases named : s.service.isEmpty with
  | true => exact .unstaffed (.inl named)
  | false =>
    by_cases idle : s.driver.threads = 0
    · rw [if_pos idle]
      exact .unstaffed (.inr idle)
    · have staffed : s.Staffed := ⟨named, idle⟩
      rw [if_neg idle]
      cases rates : s.driver.rates.validate with
      | error l => exact .rates staffed rates
      | ok =>
        cases set : s.workload.isSet with
        | false =>
          have mix : s.checkMix = .ok () := by rw [checkMix, set]; rfl
          exact validates_of_checks staffed rates mix
        | true =>
          cases made : Mix.ofWeights s.workload.mix s.workload.tags with
          | error m =>
            have mix : s.checkMix = .error m := by rw [checkMix, set, made]; rfl
            exact .mix staffed rates mix
          | ok =>
            have mix : s.checkMix = .ok () := by rw [checkMix, set, made]; rfl
            exact validates_of_checks staffed rates mix

theorem validate_limiter_iff {l : LimiterError} :
    s.validate = .error (.limiter l) ↔ s.Staffed ∧ s.checkRates = .error l := by
  have found := validates s
  constructor
  · intro refused
    rw [refused] at found
    cases found with
    | rates staffed bad => exact ⟨staffed, bad⟩
  · rintro ⟨staffed, bad⟩
    generalize s.validate = outcome at found
    cases found with
    | unstaffed missing => simp [staffed.named, staffed.workers] at missing
    | rates _ bad' => rw [Except.error.inj (bad.symm.trans bad')]
    | mix _ rates => cases bad.symm.trans rates
    | further _ rates => cases bad.symm.trans rates
    | passes _ rates => cases bad.symm.trans rates

theorem validate_mix_iff {m : MixError} :
    s.validate = .error (.mix m) ↔
      s.Staffed ∧ s.checkRates = .ok () ∧ s.checkMix = .error m := by
  have found := validates s
  constructor
  · intro refused
    rw [refused] at found
    cases found with
    | mix staffed rates bad => exact ⟨staffed, rates, bad⟩
  · rintro ⟨staffed, rates, bad⟩
    generalize s.validate = outcome at found
    cases found with
    | unstaffed missing => simp [staffed.named, staffed.workers] at missing
    | rates _ bad' => cases bad'.symm.trans rates
    | mix _ _ bad' => rw [Except.error.inj (bad.symm.trans bad')]
    | further _ _ mix => cases bad.symm.trans mix
    | passes _ _ mix => cases bad.symm.trans mix

/-- Settings that pass have passed both checks. -/
theorem checks_of_valid (valid : s.validate = .ok ()) :
    s.Staffed ∧ s.checkRates = .ok () ∧ s.checkMix = .ok () := by
  have found := validates s
  rw [valid] at found
  cases found with
  | passes staffed rates mix => exact ⟨staffed, rates, mix⟩

/-- The standard settings pass on every machine whose workers can be counted. -/
theorem validate_standard {processors : Nat} (some : 0 < processors)
    (few : processors * 4 < UInt64.size) : (standard processors).validate = .ok () := by
  have workers : (standard processors).driver.threads ≠ 0 := by
    intro none
    have count := congrArg UInt64.toNat none
    rw [standard, standardThreads, UInt64.toNat_ofNat_of_lt' few] at count
    change processors * 4 = 0 at count
    omega
  have rates : (standard processors).driver.rates.validate = .ok () := rfl
  have attempts : RetryConfig.exponential.maxAttempts ≠ 0 := by decide
  have backoffs : ¬RetryConfig.exponential.maxBackoff.nanos <
      RetryConfig.exponential.minBackoff.nanos := by decide +kernel
  have ratio : ratioInRange 0.0 = true := rfl
  unfold validate
  rw [if_neg workers, rates]
  simp only [standard, if_neg attempts, if_neg backoffs, ratio]
  rfl

end Settings

namespace Synthetic

open PoolService (Identities)

/-- A synthetic service that has just been built. -/
structure Built (s : Settings) (service : PoolService) : Prop where
  synthetic : service.workload = .synthetic s.synthetic
  threads : service.plan.threads = s.driver.threads.toNat
  fresh : service.pool = .fresh service.plan

/-- What building comes to, by the check that decides. -/
inductive Builds (s : Settings) : Except ServiceError PoolService → Prop where
  | mix {m} (bad : s.checkMix = .error m) : Builds s (.error (.mix m))
  | rates {l} (mix : s.checkMix = .ok ()) (bad : s.checkRates = .error l) :
      Builds s (.error (.limiter l))
  | service {service} (mix : s.checkMix = .ok ()) (rates : s.checkRates = .ok ())
      (built : Built s service) : Builds s (.ok service)

variable {s : Settings}

/-- The service's own mix is a mix. -/
theorem own_mix : ∃ m, Mix.ofWeights weights tags = .ok m := ⟨_, rfl⟩

/-- The mix that the service gets: what is wrong with it is what is wrong with the one set. -/
theorem mixOr_of_checkMix (s : Settings) :
    (∃ m, s.checkMix = .error m ∧ s.workload.mixOr weights tags = .error m) ∨
      s.checkMix = .ok () ∧ ∃ mix, s.workload.mixOr weights tags = .ok mix := by
  unfold Settings.checkMix WorkloadSettings.mixOr
  cases s.workload.isSet with
  | false => exact .inr ⟨rfl, own_mix⟩
  | true =>
    cases Mix.ofWeights s.workload.mix s.workload.tags with
    | error m => exact .inl ⟨m, rfl, rfl⟩
    | ok mix => exact .inr ⟨rfl, mix, rfl⟩

/-- The bucket that the service gets: what is wrong with it is what is wrong with the rates. -/
theorem full_of_checkRates (s : Settings) :
    (∃ l, s.checkRates = .error l ∧ Bucket.full (α := Float) s.driver.rates 0 = .error l) ∨
      s.checkRates = .ok () ∧ ∃ bucket, Bucket.full (α := Float) s.driver.rates 0 = .ok bucket := by
  unfold Settings.checkRates Bucket.full
  cases s.driver.rates.validate with
  | error l => exact .inl ⟨l, rfl, rfl⟩
  | ok => exact .inr ⟨rfl, _, rfl⟩

/-- Building comes to nothing else. -/
theorem builds (identities : Identities) (s : Settings) : Builds s (build identities s) := by
  unfold build
  obtain ⟨m, bad, mixed⟩ | ⟨mix, own, mixed⟩ := mixOr_of_checkMix s
  · rw [mixed]
    exact .mix bad
  · obtain ⟨l, bad, full⟩ | ⟨rates, bucket, full⟩ := full_of_checkRates s
    · simp only [mixed, PoolService.assemble, full]
      exact .rates mix bad
    · simp only [mixed, PoolService.assemble, full]
      exact .service mix rates ⟨rfl, rfl, rfl⟩

theorem build_error_iff (identities : Identities) {e : ServiceError} :
    build identities s = .error e ↔
      (∃ m, s.checkMix = .error m ∧ e = .mix m) ∨
        s.checkMix = .ok () ∧ ∃ l, s.checkRates = .error l ∧ e = .limiter l := by
  have built := builds identities s
  constructor
  · intro failed
    rw [failed] at built
    cases built with
    | mix bad => exact .inl ⟨_, bad, rfl⟩
    | rates mix bad => exact .inr ⟨mix, _, bad, rfl⟩
  · generalize build identities s = outcome at built
    rintro (⟨m, bad, rfl⟩ | ⟨mix, l, bad, rfl⟩)
    · cases built with
      | mix bad' => rw [Except.error.inj (bad.symm.trans bad')]
      | rates mix => cases bad.symm.trans mix
      | service mix => cases bad.symm.trans mix
    · cases built with
      | mix bad' => cases mix.symm.trans bad'
      | rates _ bad' => rw [Except.error.inj (bad.symm.trans bad')]
      | service _ rates => cases bad.symm.trans rates

/-- A service is built where both checks pass. -/
theorem built_of_checks (identities : Identities) (mix : s.checkMix = .ok ())
    (rates : s.checkRates = .ok ()) :
    ∃ service, build identities s = .ok service ∧ Built s service := by
  have built := builds identities s
  generalize build identities s = outcome at built ⊢
  cases built with
  | mix bad => cases mix.symm.trans bad
  | rates _ bad => cases rates.symm.trans bad
  | service _ _ built => exact ⟨_, rfl, built⟩

end Synthetic

end LoadHarness

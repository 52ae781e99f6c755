import LoadHarness.Failure.Causes

/-!
# Rates

A sustained number of tokens per second and how many may be saved up.
-/

namespace LoadHarness

/-- Why a limiter cannot be built, or cannot grant a request. -/
inductive LimiterError where
  | exceedsCapacity (requested : UInt32) (capacity : UInt64)
  | invalidConfig (text : String)
deriving DecidableEq, Repr

instance : Explained LimiterError where
  message
    | .exceedsCapacity requested capacity =>
      "requested " ++ toString requested.toNat ++ " tokens but burst capacity is " ++
        toString capacity.toNat
    | .invalidConfig text => "invalid rate limiter configuration: " ++ text
  sources _ := []

/-- Tokens per second, and the size of the bucket they collect in. -/
structure RateConfig where
  limit : UInt64
  /-- Size of the bucket; the limit when it is not set. -/
  burst : Option UInt64
deriving DecidableEq, Repr, Inhabited

namespace RateConfig

def standard : RateConfig := ⟨2000, none⟩

/-- The size of the bucket. -/
def capacity (c : RateConfig) : UInt64 := c.burst.getD c.limit

/-- Both numbers must be positive. -/
def validate (c : RateConfig) : Except LimiterError Unit :=
  if c.limit = 0 then .error (.invalidConfig "rate limit must be greater than zero")
  else if c.capacity = 0 then .error (.invalidConfig "burst capacity must be greater than zero")
  else .ok ()

end RateConfig

end LoadHarness

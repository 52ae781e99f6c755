import LoadHarness.Pacing.Bucket

/-!
# Callers at a bucket

Any number of callers share a bucket. Some take what is there or leave it, some only ask how much
there is, and some wait: they look once when they come and again whenever they like. Every look is
one step of the crowd and reads the clock, so a list of steps is an interleaving of all callers.
Whoever looks leaves the bucket as it was, fills it up to date, or takes tokens after that.
-/

namespace LoadHarness

/-- What a caller wants of a bucket. -/
inductive Request where
  | consume (tokens : UInt32)
  | tryConsume (tokens : UInt32)
  | available
deriving DecidableEq

/-- What a caller has heard. -/
inductive Hearing where
  /-- The tokens are not there yet; it is going to look again. -/
  | waiting
  | granted
  /-- The tokens are not there, and it does not wait. -/
  | denied
  | refused (e : LimiterError)
  /-- So many whole tokens are there. -/
  | told (whole : UInt64)
deriving DecidableEq

/-- A caller, from its first look on. -/
structure Caller where
  request : Request
  hearing : Hearing
deriving DecidableEq

/-- Tokens that were granted at an instant. -/
structure Grant where
  instant : Nat
  tokens : UInt32
deriving DecidableEq

/-- What a caller hears at an instant, as a grant. -/
def Request.grants (r : Request) (now : Nat) : Hearing → List Grant
  | .granted => match r with
    | .consume n => [⟨now, n⟩]
    | .tryConsume n => [⟨now, n⟩]
    | .available => []
  | _ => []

/-- What a look at an instant grants and what it leaves of the bucket. -/
inductive Bucket.Looks {α : Type} [Quantity α] (b : Bucket α) (now : Nat) :
    List Grant → Bucket α → Prop where
  | untouched : b.Looks now [] b
  | refilled : b.Looks now [] (b.refill now)
  | took {n} (covered : (b.refill now).covers n = true) :
      b.Looks now [⟨now, n⟩] ((b.refill now).take n)

/-- A bucket and all who have come to it. -/
structure Crowd (α : Type) where
  bucket : Bucket α
  callers : List Caller

/-- A step of a crowd. -/
inductive CrowdMove where
  /-- Another caller comes and looks. -/
  | come (r : Request)
  /-- A caller who waits looks again. -/
  | again (i : Nat)
deriving DecidableEq

/-- A step and what the clock reads. -/
structure CrowdEvent where
  now : Nat
  move : CrowdMove
deriving DecidableEq

variable {α : Type} [Quantity α]

/-- A look at the bucket with a request. -/
def Bucket.ask (b : Bucket α) (now : Nat) : Request → Hearing × Bucket α
  | .consume n => match b.look n now with
    | (.granted, b) => (.granted, b)
    | (.refused e, b) => (.refused e, b)
    | (.wait _, b) => (.waiting, b)
  | .tryConsume n => match b.tryConsume n now with
    | (true, b) => (.granted, b)
    | (false, b) => (.denied, b)
  | .available => let (n, b) := b.available now; (.told n, b)

namespace Crowd

/-- The crowd after a step, and the tokens granted in it; only callers who wait look again. -/
def step (c : Crowd α) (e : CrowdEvent) : Option (Crowd α × List Grant) :=
  match e.move with
  | .come r =>
    let (heard, b) := c.bucket.ask e.now r
    some (⟨b, c.callers ++ [⟨r, heard⟩]⟩, r.grants e.now heard)
  | .again i =>
    match c.callers[i]? with
    | some ⟨r, .waiting⟩ =>
      let (heard, b) := c.bucket.ask e.now r
      some (⟨b, c.callers.set i ⟨r, heard⟩⟩, r.grants e.now heard)
    | _ => none

/-- The crowd after several steps, and all tokens granted in them. -/
def run (c : Crowd α) : List CrowdEvent → Option (Crowd α × List Grant)
  | [] => some (c, [])
  | e :: es =>
    (c.step e).bind fun (d, now) => (d.run es).map fun (last, later) => (last, now ++ later)

end Crowd

/-- Whatever is asked of a bucket is a look at it. -/
theorem Bucket.looks_of_ask (b : Bucket α) (now : Nat) (r : Request) :
    b.Looks now (r.grants now (b.ask now r).1) (b.ask now r).2 := by
  cases r with
  | consume n =>
    unfold ask look
    by_cases large : b.capacity.toNat < n.toNat
    · simp only [if_pos large]
      exact .untouched
    · simp only [if_neg large]
      by_cases covered : (b.refill now).covers n = true
      · simp only [if_pos covered]
        exact .took covered
      · simp only [if_neg covered]
        exact .refilled
  | tryConsume n =>
    unfold ask tryConsume
    by_cases covered : (b.refill now).covers n = true
    · simp only [if_pos covered]
      exact .took covered
    · simp only [if_neg covered]
      exact .refilled
  | available => exact .refilled

namespace Crowd

variable {c d : Crowd α} {e : CrowdEvent} {gs : List Grant}

/-- Every step of a crowd is one look. -/
theorem looks_of_step (stepped : c.step e = some (d, gs)) :
    c.bucket.Looks e.now gs d.bucket := by
  unfold step at stepped
  split at stepped
  · cases stepped
    exact c.bucket.looks_of_ask e.now _
  · split at stepped
    · cases stepped
      exact c.bucket.looks_of_ask e.now _
    · cases stepped

/-- One run after the other. -/
theorem run_append_of_run {last : Crowd α} {es fs : List CrowdEvent} {hs : List Grant}
    (first : c.run es = some (d, gs)) (second : d.run fs = some (last, hs)) :
    c.run (es ++ fs) = some (last, gs ++ hs) := by
  induction es generalizing c gs with
  | nil =>
    cases first
    exact second
  | cons e es ih =>
    obtain ⟨⟨mid, now⟩, stepped, more⟩ := Option.bind_eq_some_iff.1 first
    obtain ⟨⟨d', later⟩, ran, made⟩ := Option.map_eq_some_iff.1 more
    cases made
    refine Option.bind_eq_some_iff.2 ⟨(mid, now), stepped, ?_⟩
    exact Option.map_eq_some_iff.2 ⟨(last, later ++ hs), ih ran, by rw [List.append_assoc]⟩

/-- Whoever comes looks once. -/
theorem run_come (c : Crowd α) (now : Nat) (r : Request) :
    ∃ d : Crowd α, c.run [⟨now, .come r⟩] = some (d, r.grants now (c.bucket.ask now r).1) ∧
      d.bucket = (c.bucket.ask now r).2 :=
  ⟨_, congrArg (fun gs => some (_, gs)) (List.append_nil _), rfl⟩

/-- A caller who wants more than the bucket can hold is refused at once, and changes nothing. -/
theorem refused_of_large (c : Crowd α) (now : Nat) {n : UInt32}
    (large : c.bucket.capacity.toNat < n.toNat) :
    c.step ⟨now, .come (.consume n)⟩ =
      some (⟨c.bucket, c.callers ++
        [⟨.consume n, .refused (.exceedsCapacity n c.bucket.capacity)⟩]⟩, []) := by
  simp only [step, Bucket.ask, Bucket.look, if_pos large]
  rfl

end Crowd

end LoadHarness

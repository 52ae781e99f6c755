import LoadHarness.Settings.Property
import Mathlib.Logic.Function.Basic

/-!
# Settings as a table by key

Every setting has one key, so settings are a table with a value for each key, and reading a text
for a key changes one entry of it. A text that says nothing for its key has a first part which the
key refuses, and changes nothing. Properties applied in a row leave under each key the value that
was given last, whatever else they name.
-/

namespace LoadHarness

theorem ok_of_toOption {ε α : Type} {x : Except ε α} {a : α} (h : x.toOption = some a) :
    x = .ok a := by
  cases x with
  | error e => cases h
  | ok b => exact congrArg Except.ok (Option.some.inj h)

theorem mapError_ok {ε ε' α : Type} (f : ε → ε') (a : α) :
    (Except.ok a : Except ε α).mapError f = .ok a := rfl

/-- A text is a value of the kind. -/
def ValueKind.reads : ValueKind → String → Bool
  | count | word64 => fun text => (Text.readUInt64 text).isSome
  | word32 => fun text => (Text.readUInt32 text).isSome
  | signed => fun text => (Text.readInt64 text).isSome
  | truth => fun text => (Text.readBool text).isSome
  | fraction => fun text => (Decimal.readFloat text).isSome

namespace Key

/-- What the setting of a key can be. -/
@[reducible] def Content : Key → Type
  | service => String
  | threads | rateLimit => UInt64
  | rateBurst => Option UInt64
  | mix => List Int64
  | tags => List String
  | maxAttempts | backoffCeiling => UInt32
  | minBackoff | maxBackoff | slotTime | reportInterval | latency => Duration
  | databaseUrl => Option String
  | skipInit | reporters => Bool
  | maxConnections => Option UInt32
  | failureRatio => Float

/-- The setting of a key. -/
def get (s : Settings) : (k : Key) → k.Content
  | service => s.service
  | threads => s.driver.threads
  | rateLimit => s.driver.rates.limit
  | rateBurst => s.driver.rates.burst
  | mix => s.workload.mix
  | tags => s.workload.tags
  | maxAttempts => s.retry.maxAttempts
  | minBackoff => s.retry.minBackoff
  | maxBackoff => s.retry.maxBackoff
  | slotTime => s.retry.slotTime
  | backoffCeiling => s.retry.backoffCeiling
  | databaseUrl => s.database.url
  | skipInit => s.database.skipInit
  | maxConnections => s.database.maxConnections
  | reportInterval => s.metrics.interval
  | reporters => s.metrics.enabled
  | latency => s.synthetic.latency
  | failureRatio => s.synthetic.failureRatio

/-- What a text says for a key, if it says anything. -/
def read (text : String) : (k : Key) → Option k.Content
  | service => some text
  | threads | rateLimit => Text.readUInt64 text
  | rateBurst => (Text.readUInt64 text).map some
  | mix => (splitList text).mapM Text.readInt64
  | tags => some (splitList text)
  | maxAttempts | backoffCeiling => Text.readUInt32 text
  | minBackoff | maxBackoff | slotTime | latency => (Text.readUInt64 text).map .ofMillis
  | databaseUrl => some (some text)
  | skipInit => Text.readBool text
  | maxConnections => (Text.readUInt32 text).map some
  | reportInterval => (Text.readUInt64 text).map .ofSeconds
  | reporters => some ((splitList text).any (· == "console"))
  | failureRatio => Decimal.readFloat text

/-- The kind of value that a key takes, for a list that of its items; keys of texts take any. -/
def kind? : Key → Option ValueKind
  | threads => some .count
  | rateLimit | rateBurst => some .word64
  | mix => some .signed
  | maxAttempts | backoffCeiling | maxConnections => some .word32
  | minBackoff | maxBackoff | slotTime | reportInterval | latency => some .word64
  | skipInit => some .truth
  | failureRatio => some .fraction
  | service | tags | databaseUrl | reporters => none

/-- What is read of a value: the items of a list of numbers, and any other value as it is. -/
def parts (k : Key) (value : String) : List String := if k = mix then splitList value else [value]

/-- A part of a value that is not of the kind which the key takes, and the first such part. -/
structure Refused (k : Key) (value part : String) (kind : ValueKind) : Prop where
  takes : k.kind? = some kind
  first : ∃ good rest, k.parts value = good ++ part :: rest ∧ ∀ item ∈ good, kind.reads item
  unread : ¬kind.reads part

end Key

/-- A value for every key. -/
abbrev KeyTable := (k : Key) → k.Content

/-- The settings in a table. -/
def Settings.ofTable (f : KeyTable) : Settings where
  service := f .service
  driver := ⟨f .threads, ⟨f .rateLimit, f .rateBurst⟩⟩
  workload := ⟨f .mix, f .tags⟩
  retry := ⟨f .maxAttempts, f .minBackoff, f .maxBackoff, f .slotTime, f .backoffCeiling⟩
  metrics := ⟨f .reporters, f .reportInterval⟩
  database := ⟨f .databaseUrl, f .skipInit, f .maxConnections⟩
  synthetic := ⟨f .latency, f .failureRatio⟩

namespace Key

@[simp] theorem get_ofTable (f : KeyTable) (k : Key) : k.get (.ofTable f) = f k := by
  cases k <;> rfl

theorem table_ofTable (f : KeyTable) : get (.ofTable f) = f := funext (get_ofTable f)

theorem required_of_read {α : Type} {key text : String} {kind : ValueKind}
    {read : String → Option α} {a : α} (h : read text = some a) :
    required key text kind read = .ok a := by
  rw [required, h]

theorem requiredAll_of_mapM {α : Type} {key : String} {kind : ValueKind} {read : String → Option α}
    {items : List String} {as : List α} (h : items.mapM read = some as) :
    requiredAll key kind read items = .ok as := by
  induction items generalizing as with
  | nil =>
    cases h
    rfl
  | cons item rest ih =>
    rw [List.mapM_cons] at h
    obtain ⟨a, first, h⟩ := Option.bind_eq_some_iff.1 h
    obtain ⟨later, others, h⟩ := Option.bind_eq_some_iff.1 h
    cases h
    rw [requiredAll, required_of_read first, ih others]
    rfl

/-- Assigning a text to a key changes the entry of that key to what the text says. -/
theorem assign_of_read {k : Key} {text : String} {x : k.Content} (h : k.read text = some x)
    (s : Settings) :
    (k.assign text).run.run s = (.ok (), .ofTable (Function.update (get s) k x)) := by
  cases k with
  | service | tags | databaseUrl | reporters =>
    cases h
    rfl
  | threads | rateLimit | maxAttempts | backoffCeiling | skipInit | failureRatio =>
    rw [assign, required_of_read h]
    rfl
  | rateBurst | minBackoff | maxBackoff | slotTime | maxConnections | reportInterval | latency =>
    obtain ⟨n, said, rfl⟩ := Option.map_eq_some_iff.1 h
    rw [assign, required_of_read said]
    rfl
  | mix =>
    rw [assign, requiredAll_of_mapM h]
    rfl

theorem required_of_unread {α : Type} {key text : String} {kind : ValueKind}
    {read : String → Option α} (h : read text = none) :
    required key text kind read = .error (.invalidValue key text kind) := by
  rw [required, h]

theorem requiredAll_of_first_unread {α : Type} (key : String) (kind : ValueKind)
    {read : String → Option α} {good : List String} {bad : String} (rest : List String)
    (before : ∀ item ∈ good, (read item).isSome) (unread : read bad = none) :
    requiredAll key kind read (good ++ bad :: rest) = .error (.invalidValue key bad kind) := by
  induction good with
  | nil =>
    rw [List.nil_append, requiredAll, required_of_unread unread]
    rfl
  | cons item good ih =>
    obtain ⟨first, others⟩ := List.forall_mem_cons.1 before
    obtain ⟨a, first⟩ := Option.isSome_iff_exists.1 first
    rw [List.cons_append, requiredAll, required_of_read first, ih others]
    rfl

/-- A list that is not read has a first item that is not. -/
theorem exists_first_unread {α : Type} {read : String → Option α} {items : List String}
    (h : items.mapM read = none) : ∃ good bad rest, items = good ++ bad :: rest ∧
      (∀ item ∈ good, (read item).isSome) ∧ read bad = none := by
  induction items with
  | nil => cases h
  | cons item rest ih =>
    cases first : read item with
    | none => exact ⟨[], item, rest, rfl, by simp, first⟩
    | some a =>
      have others : rest.mapM read = none := by
        cases others : rest.mapM read with
        | none => rfl
        | some as => simp [List.mapM_cons, first, others] at h
      obtain ⟨good, bad, later, rfl, before, unread⟩ := ih others
      exact ⟨item :: good, bad, later, rfl,
        List.forall_mem_cons.2 ⟨by rw [first]; rfl, before⟩, unread⟩

/-- A value of one part is refused as a whole. -/
theorem refused_whole {k : Key} {value : String} {kind : ValueKind} (takes : k.kind? = some kind)
    (single : k ≠ mix) (unread : ¬kind.reads value) : k.Refused value value kind :=
  ⟨takes, ⟨[], [], if_neg single, by simp⟩, unread⟩

theorem Refused.whole {k : Key} {value part : String} {kind : ValueKind}
    (refused : k.Refused value part kind) (single : k ≠ mix) : part = value := by
  obtain ⟨good, rest, split, -⟩ := refused.first
  rw [parts, if_neg single] at split
  match good, split with
  | [], split => exact (List.cons.inj split).1.symm
  | _ :: good, split => simp at split

/-- A value that says nothing for a key has a part that the key refuses. -/
theorem exists_refused {k : Key} {value : String} (h : k.read value = none) :
    ∃ part kind, k.Refused value part kind := by
  cases k with
  | service | tags | databaseUrl | reporters => cases h
  | mix =>
    obtain ⟨good, bad, rest, split, before, unread⟩ := exists_first_unread h
    exact ⟨bad, .signed, rfl, ⟨good, rest, split, before⟩, by simp [ValueKind.reads, unread]⟩
  | _ => exact ⟨value, _, refused_whole rfl nofun (by simpa [ValueKind.reads, read] using h)⟩

/-- The error names a refused part, and nothing has changed. -/
theorem assign_of_refused {k : Key} {value part : String} {kind : ValueKind}
    (refused : k.Refused value part kind) (s : Settings) :
    (k.assign value).run.run s = (.error (.invalidValue k.name part kind), s) := by
  have takes := refused.takes
  have unread := refused.unread
  cases k with
  | service | tags | databaseUrl | reporters => cases takes
  | mix =>
    cases takes
    obtain ⟨good, rest, split, before⟩ := refused.first
    have items : splitList value = good ++ part :: rest := split
    rw [assign, items, requiredAll_of_first_unread mix.name .signed rest before
      (by simpa [ValueKind.reads] using unread)]
    rfl
  | _ =>
    cases takes
    obtain rfl := refused.whole nofun
    rw [assign, required_of_unread (by simpa [ValueKind.reads] using unread)]
    rfl

/-- Keys have names of their own. -/
theorem name_inj {k k' : Key} : k.name = k'.name ↔ k = k' := by
  constructor
  · intro same
    have found := ofName?_name k
    rw [same, ofName?_name] at found
    exact (Option.some.inj found).symm
  · rintro rfl
    rfl

/-- A key is found by its name and by no other text. -/
theorem ofName?_eq_some_iff {s : String} {k : Key} : ofName? s = some k ↔ s = k.name := by
  constructor
  · intro found
    unfold ofName? at found
    have same := List.find?_some found
    exact (beq_iff_eq.1 same).symm
  · rintro rfl
    exact ofName?_name k

/-- The text that is given last for a key. -/
def lastIn (k : Key) (ps : List Property) : Option String :=
  ps.reverse.findSome? fun p => if p.1 = k.name then some p.2 else none

/-- What properties say for a key: what the last text says that is given for it. -/
def saidBy (ps : List Property) (k : Key) : Option k.Content :=
  (k.lastIn ps).bind fun text => k.read (Text.trim text)

/-- Every text that is given for a key says something. -/
def Readable (ps : List Property) : Prop :=
  ∀ p ∈ ps, ∀ k : Key, p.1 = k.name → (k.read (Text.trim p.2)).isSome

instance (ps : List Property) : Decidable (Readable ps) :=
  decidable_of_iff
    (∀ p ∈ ps, ((ofName? p.1).map fun k => (k.read (Text.trim p.2)).isSome).getD true = true) <| by
    constructor
    · intro h p member k named
      have read := h p member
      rwa [ofName?_eq_some_iff.2 named] at read
    · intro h p member
      cases known : ofName? p.1 with
      | none => rfl
      | some k => exact h p member k (ofName?_eq_some_iff.1 known)

theorem Readable.saidBy_isSome {ps : List Property} (h : Readable ps) {k : Key} {text : String}
    (given : k.lastIn ps = some text) : (k.read (Text.trim text)).isSome := by
  obtain ⟨p, member, named⟩ := List.exists_of_findSome?_eq_some given
  split at named
  · next same =>
    cases named
    exact h p (List.mem_reverse.1 member) k same
  · cases named

/-- The text that a readable layer gives counts before any other text. -/
theorem Readable.getD_or {ps : List Property} (h : Readable ps) (k : Key) (other : Option String)
    (x : k.Content) :
    (((k.lastIn ps).or other).bind fun text => k.read (Text.trim text)).getD x =
      (saidBy ps k).getD ((other.bind fun text => k.read (Text.trim text)).getD x) := by
  unfold saidBy
  cases given : k.lastIn ps with
  | none => rfl
  | some text =>
    obtain ⟨y, said⟩ := Option.isSome_iff_exists.1 (h.saidBy_isSome given)
    simp [said]

theorem lastIn_cons (k : Key) (p : Property) (ps : List Property) :
    k.lastIn (p :: ps) = (k.lastIn ps).or (if p.1 = k.name then some p.2 else none) := by
  simp [lastIn, List.findSome?_append]

theorem lastIn_filterMap {α : Type} (k : Key) (f : α → Option Property) (l : List α) :
    k.lastIn (l.filterMap f) = l.reverse.findSome? fun a =>
      (f a).bind fun p => if p.1 = k.name then some p.2 else none := by
  rw [lastIn, ← List.filterMap_reverse, ← List.head?_filterMap, List.filterMap_filterMap,
    List.head?_filterMap]

end Key

/-- A table with what one layer says in front of it. -/
def KeyTable.under (f : KeyTable) (layer : (k : Key) → Option k.Content) : KeyTable :=
  fun k => (layer k).getD (f k)

namespace Settings

open Key

theorem saidBy_singleton (p : Property) (k : Key) :
    saidBy [p] k = if p.1 = k.name then k.read (Text.trim p.2) else none := by
  rw [saidBy, lastIn_cons]
  split <;> rfl

/-- A readable property changes the entry of the key that it names, if it names one. -/
theorem applyOne_of_readable {p : Property} (readable : Readable [p]) (s : Settings) :
    s.applyOne p = (.ofTable (KeyTable.under (get s) (saidBy [p])), .ok ()) := by
  rw [applyOne]
  cases known : ofName? p.1 with
  | none =>
    have unnamed : saidBy [p] = fun _ => none := funext fun k => by
      have other : p.1 ≠ k.name := fun same => by
        rw [ofName?_eq_some_iff.2 same] at known
        cases known
      rw [saidBy_singleton, if_neg other]
    rw [unnamed]
    rfl
  | some key =>
    have named := ofName?_eq_some_iff.1 known
    obtain ⟨x, said⟩ :=
      Option.isSome_iff_exists.1 (readable p (List.mem_singleton_self p) key named)
    have changed : Function.update (get s) key x = KeyTable.under (get s) (saidBy [p]) := by
      funext k
      rw [KeyTable.under, saidBy_singleton]
      by_cases own : k = key
      · subst own
        rw [Function.update_self, if_pos named, said]
        rfl
      · have other : p.1 ≠ k.name := by rwa [named, Ne, name_inj, eq_comm]
        rw [Function.update_of_ne own, if_neg other]
        rfl
    dsimp only
    rw [← changed, assign_of_read said s]
    rfl

/-- A first property counts for what the others say nothing about. -/
theorem under_saidBy_cons {p : Property} {rest : List Property} (readable : Readable rest)
    (f : KeyTable) : (f.under (saidBy [p])).under (saidBy rest) = f.under (saidBy (p :: rest)) := by
  funext k
  rw [KeyTable.under, KeyTable.under, KeyTable.under, saidBy, saidBy, saidBy, lastIn_cons k p rest,
    lastIn_cons k p []]
  cases last : k.lastIn rest with
  | some text =>
    obtain ⟨y, later⟩ := Option.isSome_iff_exists.1 (readable.saidBy_isSome last)
    simp [later]
  | none => rfl

/-- Readable properties are applied to the end, and what they say last stands under each key. -/
theorem apply_of_readable {ps : List Property} (readable : Readable ps) (s : Settings) :
    s.apply ps = (.ofTable (KeyTable.under (get s) (saidBy ps)), .ok ()) := by
  induction ps generalizing s with
  | nil => rfl
  | cons p rest ih =>
    obtain ⟨first, others⟩ := List.forall_mem_cons.1 readable
    rw [apply, applyOne_of_readable (List.forall_mem_singleton.2 first)]
    dsimp only
    rw [ih others, table_ofTable, under_saidBy_cons others]

end Settings

end LoadHarness

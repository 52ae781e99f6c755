import LoadHarness.Proofs.Json.Fractions
import LoadHarness.Proofs.Json.Reading
import LoadHarness.Proofs.Settings.Loading

/-!
# Settings that are written and read again

Every part of the settings is written as a value that has a text, and read from that value as the
same part. Only the share of failures passes through decimals: whatever is made of those, everything
else is what it was.
-/

namespace LoadHarness

namespace JsonValue

open Encoding (record)

/-! Values that have a text -/

theorem legible_whole (n : Int) : Legible (Encoding.whole n) :=
  .number (JsonNumber.numberText_toString n)

theorem legible_text (s : String) : Legible (Encoding.text s) := .string s

theorem legible_truth (b : Bool) : Legible (Encoding.truth b) := .bool b

theorem legible_real {x : Float} (finite : (Binary64.decode x).isSome) :
    Legible (Encoding.real x) := by
  have written : Encoding.real x = number (floatFormat.render x) := by
    have some : (Binary64.decode x).isNone = false := by simpa using finite
    exact if_neg (by simp [some])
  rw [written]
  exact .number (JsonNumber.numberText_render rfl finite)

theorem legible_optional {β : Type} {f : β → JsonValue} (legible : ∀ b, Legible (f b))
    (o : Option β) : Legible (Encoding.optional f o) := by
  cases o with
  | none => exact .null
  | some b => exact legible b

theorem legible_list {β : Type} {f : β → JsonValue} (legible : ∀ b, Legible (f b))
    (l : List β) : Legible (Encoding.list (l.map f)) := by
  refine .array fun v member => ?_
  obtain ⟨b, -, rfl⟩ := List.mem_map.1 member
  exact legible b

theorem legible_record {fields : List (String × JsonValue)}
    (legible : ∀ f ∈ fields, Legible f.2) : Legible (record fields) := by
  refine .object (fun m member => ?_) fun m member => ?_
  · obtain ⟨f, -, rfl⟩ := List.mem_map.1 member
    rfl
  · obtain ⟨f, field, rfl⟩ := List.mem_map.1 member
    exact legible f field

/-! Values that are read back -/

theorem mapM_map_of_forall {α β γ : Type} {f : α → β} {g : β → Option γ} {h : α → γ} {l : List α}
    (each : ∀ a ∈ l, g (f a) = some (h a)) : (l.map f).mapM g = some (l.map h) := by
  induction l with
  | nil => rfl
  | cons a l ih =>
    obtain ⟨first, others⟩ := List.forall_mem_cons.1 each
    rw [List.map_cons, List.mapM_cons, first, ih others]
    rfl

theorem filter_name_of_mem {fields : List (String × JsonValue)}
    (distinct : (fields.map Prod.fst).Nodup) {f : String × JsonValue} (mem : f ∈ fields) :
    fields.filter (fun g => (some g.1 : JsonText) == some f.1) = [f] := by
  induction fields with
  | nil => cases mem
  | cons g rest ih =>
    rw [List.map_cons, List.nodup_cons] at distinct
    obtain ⟨fresh, distinct⟩ := distinct
    rcases List.mem_cons.1 mem with rfl | later
    · have others : rest.filter (fun g => (some g.1 : JsonText) == some f.1) = [] :=
        List.filter_eq_nil_iff.2 fun h member same => fresh
          (List.mem_map.2 ⟨h, member, by simpa using same⟩)
      rw [List.filter_cons_of_pos (by simp), others]
    · have apart : g.1 ≠ f.1 := fun same => fresh (List.mem_map.2 ⟨f, later, same.symm⟩)
      rw [List.filter_cons_of_neg (by simpa using apart), ih distinct later]

/-- The only member with the name of a field is the field. -/
theorem member?_of_mem {fields : List (String × JsonValue)}
    (distinct : (fields.map Prod.fst).Nodup) {f : String × JsonValue} (mem : f ∈ fields) :
    member? f.1 (fields.map fun (k, v) => (some k, v)) = some (some f.2) := by
  have only : (fields.map fun (k, v) => ((some k, v) : JsonText × JsonValue)).filter
      (·.1 == some f.1) = [(some f.1, f.2)] := by
    rw [List.filter_map]
    exact congrArg (List.map _) (filter_name_of_mem distinct mem)
  rw [member?, only]

/-- The fields of a record are found by their names. -/
theorem fields?_record {names : List String} {fields : List (String × JsonValue)}
    (distinct : names.Nodup) (named : fields.map Prod.fst = names) :
    fields? names (record fields) = some (fields.map fun f => some f.2) := by
  subst named
  have keys : (fields.map fun (k, v) => ((some k, v) : JsonText × JsonValue)).all (·.1.isSome) :=
    List.all_eq_true.2 fun m member => by
      obtain ⟨f, -, rfl⟩ := List.mem_map.1 member
      rfl
  exact (if_pos keys).trans (mapM_map_of_forall fun f mem => member?_of_mem distinct mem)

theorem toUInt64?_whole (n : UInt64) : toUInt64? (Encoding.whole (n.toNat : Int)) = some n := by
  have le : n.toNat ≤ UInt64.size - 1 := by have := n.toNat_lt_size; omega
  have read := JsonNumber.toNat?_toString le
  show (JsonNumber.toNat? _ _).map _ = _
  rw [read, Option.map_some, UInt64.ofNat_toNat]

theorem toUInt32?_whole (n : UInt32) : toUInt32? (Encoding.whole (n.toNat : Int)) = some n := by
  have le : n.toNat ≤ UInt32.size - 1 := by have := n.toNat_lt_size; omega
  have read := JsonNumber.toNat?_toString le
  show (JsonNumber.toNat? _ _).map _ = _
  rw [read, Option.map_some, UInt32.ofNat_toNat]

theorem toInt64?_whole (n : Int64) : toInt64? (Encoding.whole n.toInt) = some n :=
  JsonNumber.toInt64?_toString n

/-- What may be missing is read back as it is, since nothing that is read is written `null`. -/
theorem nullable_optional {β : Type} {read : JsonValue → Option β} {f : β → JsonValue}
    (each : ∀ b, read (f b) = some b) (missing : read .null = none) (o : Option β) :
    nullable read (Encoding.optional f o) = some o := by
  cases o with
  | none => rfl
  | some b =>
    have back := each b
    rw [Encoding.optional, nullable]
    · rw [back]
      rfl
    · intro null
      rw [null, missing] at back
      cases back

theorem toList?_list {β : Type} {read : JsonValue → Option β} {f : β → JsonValue}
    (each : ∀ b, read (f b) = some b) (l : List β) :
    toList? read (Encoding.list (l.map f)) = some l :=
  (mapM_map_of_forall fun b _ => each b).trans (congrArg some l.map_id)

theorem toText?_text (s : String) : toText? (Encoding.text s) = some s := rfl

theorem toBool?_truth (b : Bool) : toBool? (Encoding.truth b) = some b := rfl

theorem toFloat?_real {x : Float} (finite : (Binary64.decode x).isSome) :
    toFloat? (Encoding.real x) = JsonNumber.toFloat? (floatFormat.render x) := by
  have some : (Binary64.decode x).isNone = false := by simpa using finite
  show toFloat? (ofFloat x) = _
  rw [ofFloat, some]
  rfl

end JsonValue

/-! Groups of settings -/

open JsonValue (Legible fields?_record needed orElse legible_whole legible_text legible_truth
  legible_optional legible_list legible_record legible_real toUInt64?_whole toUInt32?_whole
  toInt64?_whole toText?_text toBool?_truth toList?_list toFloat?_real nullable_optional)

namespace RateConfig

variable (c : RateConfig)

theorem legible_encode : Legible c.encode :=
  legible_record <| by simp [legible_whole, legible_optional]

theorem ofJson?_encode : ofJson? c.encode = some c := by
  have burst := nullable_optional toUInt64?_whole rfl c.burst
  unfold ofJson? encode
  rw [fields?_record]
  · simp [needed, orElse, toUInt64?_whole, burst]
  · decide
  · rfl

end RateConfig

namespace RetryConfig

variable {c : RetryConfig}

theorem legible_encode : Legible c.encode :=
  legible_record <| by simp [legible_whole]

theorem millisField_whole {d : Duration} (h : d.IsMillis) :
    millisField (some (Encoding.whole (d.millis.toNat : Int))) = some d := by
  rw [millisField, needed, toUInt64?_whole, Option.map_some, h.ofMillis_millis]

theorem ofJson?_encode (low : c.minBackoff.IsMillis) (high : c.maxBackoff.IsMillis)
    (slot : c.slotTime.IsMillis) : ofJson? c.encode = some c := by
  unfold ofJson? encode
  dsimp only
  rw [fields?_record]
  · simp [needed, toUInt32?_whole, millisField_whole low, millisField_whole high,
      millisField_whole slot]
  · decide
  · rfl

end RetryConfig

namespace ReportSettings

variable {r : ReportSettings}

theorem legible_encode : Legible r.encode :=
  legible_record <| by simp [legible_whole, legible_truth]

theorem ofJson?_encode (whole : r.interval.IsSeconds) : ofJson? r.encode = some r := by
  unfold ofJson? encode
  rw [fields?_record]
  · simp [needed, toBool?_truth, toUInt64?_whole, whole.ofSeconds_seconds]
  · decide
  · rfl

end ReportSettings

namespace SyntheticSettings

variable {s : SyntheticSettings}

theorem legible_encode (finite : (Binary64.decode s.failureRatio).isSome) : Legible s.encode :=
  legible_record <| by simp [legible_whole, legible_real finite]

theorem ofJson?_encode (whole : s.latency.IsMillis)
    (finite : (Binary64.decode s.failureRatio).isSome) :
    ofJson? s.encode = (JsonNumber.toFloat? (JsonValue.floatFormat.render s.failureRatio)).map
      fun x => { s with failureRatio := x } := by
  unfold ofJson? encode
  rw [fields?_record]
  · simp [orElse, toUInt64?_whole, whole.ofMillis_millis, toFloat?_real finite,
      Option.map_eq_bind]
  · decide
  · rfl

end SyntheticSettings

namespace DriverSettings

variable (d : DriverSettings)

theorem legible_encode : Legible d.encode :=
  legible_record <| by simp [legible_whole, d.rates.legible_encode]

theorem ofJson?_encode (processors : Nat) : ofJson? d.encode processors = some d := by
  unfold ofJson? encode
  rw [fields?_record]
  · simp [orElse, toUInt64?_whole, RateConfig.ofJson?_encode]
  · decide
  · rfl

end DriverSettings

namespace WorkloadSettings

variable (w : WorkloadSettings)

theorem legible_encode : Legible w.encode :=
  legible_record <| by simp [legible_list, legible_whole, legible_text]

theorem ofJson?_encode : ofJson? w.encode = some w := by
  have mix := toList?_list toInt64?_whole w.mix
  have tags := toList?_list toText?_text w.tags
  unfold ofJson? encode
  rw [fields?_record]
  · simp [orElse, mix, tags]
  · decide
  · rfl

end WorkloadSettings

namespace DatabaseSettings

variable (d : DatabaseSettings)

theorem legible_encode : Legible d.encode :=
  legible_record <| by simp [legible_optional, legible_whole, legible_text, legible_truth]

theorem ofJson?_encode : ofJson? d.encode = some d := by
  have url := nullable_optional toText?_text rfl d.url
  have connections := nullable_optional toUInt32?_whole rfl d.maxConnections
  unfold ofJson? encode
  rw [fields?_record]
  · simp [orElse, toBool?_truth, url, connections]
  · decide
  · rfl

end DatabaseSettings

namespace Settings

variable {s : Settings}

theorem legible_encode (finite : (Binary64.decode s.synthetic.failureRatio).isSome) :
    Legible s.encode :=
  legible_record <| by
    simp [legible_text, s.driver.legible_encode, s.workload.legible_encode,
      RetryConfig.legible_encode, ReportSettings.legible_encode, s.database.legible_encode,
      SyntheticSettings.legible_encode finite]

/-- What is read of written settings, once every duration is whole: all that was written, with
whatever the decimals of the share of failures are read as. -/
theorem ofJson?_encode (whole : s.Whole)
    (finite : (Binary64.decode s.synthetic.failureRatio).isSome) (processors : Nat) :
    ofJson? s.encode processors =
      (JsonNumber.toFloat? (JsonValue.floatFormat.render s.synthetic.failureRatio)).map
        fun x => { s with synthetic.failureRatio := x } := by
  have retry := RetryConfig.ofJson?_encode (whole .minBackoff) (whole .maxBackoff) (whole .slotTime)
  have metrics := ReportSettings.ofJson?_encode (whole .reportInterval)
  have synthetic := SyntheticSettings.ofJson?_encode (whole .latency) finite
  unfold ofJson? encode
  rw [fields?_record]
  · simp [orElse, toText?_text, DriverSettings.ofJson?_encode, WorkloadSettings.ofJson?_encode,
      DatabaseSettings.ofJson?_encode, retry, metrics, synthetic, Option.map_eq_bind,
      Option.bind_assoc]
  · decide
  · rfl

/-- Settings that are loaded are read back from either of their texts, wherever they are read, as
long as the share of failures is a finite double that is read from its decimals as itself. -/
theorem Loaded.read_back (loaded : Loaded s)
    (finite : (Binary64.decode s.synthetic.failureRatio).isSome)
    (faithful : JsonNumber.toFloat? (JsonValue.floatFormat.render s.synthetic.failureRatio) =
      some s.synthetic.failureRatio) (processors : Nat) :
    ofJsonText? (JsonValue.compact s.encode) processors = some s ∧
      ofJsonText? (JsonValue.pretty s.encode) processors = some s := by
  obtain ⟨compact, pretty⟩ := JsonValue.parse?_printed (legible_encode finite)
  have read : ofJson? s.encode processors = some s := by
    rw [ofJson?_encode loaded.whole finite, faithful]
    rfl
  unfold ofJsonText?
  rw [compact, pretty]
  exact ⟨read, read⟩

/-- Texts that need escapes, numbers at their limits, and what may be missing half given. -/
def crammed : Settings :=
  ((standard 8).apply [("runner.class", "\"quoted\" \\ and \u0001"),
    ("dash.workload.tag", "\\,ünder,\t/"),
    ("dash.workload.mix", "-9223372036854775808,9223372036854775807"),
    ("dash.driver.rates.burst", "18446744073709551615"), ("dash.db.url", ""),
    ("dash.retry.slot.time", "18446744073709551615"),
    ("dash.metrics.service.interval", "18446744073709551615"),
    ("dash.synthetic.failure.ratio", "0.1")]).1

/-- Settings that use every field, put together where there are eight processors, are read back from
both texts where there are two. -/
theorem read_back_crammed :
    ofJsonText? (JsonValue.compact crammed.encode) 2 = some crammed ∧
      ofJsonText? (JsonValue.pretty crammed.encode) 2 = some crammed :=
  (Loaded.properties _ (.standard 8)).read_back rfl rfl 2

end Settings

end LoadHarness

import LoadHarness.Settings.Spec
import LoadHarness.Proofs.Settings.Keys
import Mathlib.Algebra.GroupWithZero.Nat
import Mathlib.Data.List.Basic

/-!
# References in lists

A list of a conf file becomes one text, its items with commas between them, before references are
looked for. So a reference is looked for in the list as a whole and in none of its items. That comes
to the same for a list of one item, and for a list without references that is not taken for one
itself. Every other list is read otherwise in some environment: without variables what refers to one
is gone or shorter than it was written, and with all variables empty a list that is taken for a
reference is empty while its items still have commas between them.
-/

namespace LoadHarness

open Yaml (Value)

namespace Environment

variable {env : Environment} {text value : String} {items : List String}

/-- The whole text stands between the marks of a reference. -/
def IsReference (text : String) : Prop := ∃ inner : String, text = "$(" ++ inner ++ ")"

/-- What a text stands for: the variable that it refers to, or what stands behind the colon if that
is not set; and itself if it is no reference. -/
inductive Expands (env : Environment) : String → Option String → Prop
  | named {name : String} (simple : ':' ∉ name.toList) :
    Expands env ("$(" ++ name ++ ")") (env name)
  | withDefault {name other : String} (simple : ':' ∉ name.toList) :
    Expands env ("$(" ++ name ++ ":" ++ other ++ ")") (some ((env name).getD other))
  | plain {text : String} (itself : ¬IsReference text) : Expands env text (some text)

/-- The text of a list whose items are expanded one by one. Items that refer to a variable which is
not set are left out, and there is no text if they are all there are. -/
def expandItems (env : Environment) (items : List String) : Option String :=
  let texts := items.filterMap env.expand
  if texts = [] ∧ items ≠ [] then none else some (",".intercalate texts)

/-! One reference -/

theorem reference?_eq_some_iff {cs inner : List Char} :
    reference? cs = some inner ↔ cs = ['$', '('] ++ inner ++ [')'] := by
  unfold reference? Text.after?
  constructor
  · intro found
    split at found
    · cases found
    · next rest lead =>
      split at lead
      · next begins =>
        cases lead
        split at found
        · next ends =>
          cases found
          obtain ⟨rest, rfl⟩ := List.isPrefixOf_iff_prefix.1 begins
          obtain ⟨front, same⟩ := List.getLast?_eq_some_iff.1 ends
          simp_all
        · cases found
      · cases lead
  · rintro rfl
    simp

theorem reference?_eq_none_iff : reference? text.toList = none ↔ ¬IsReference text := by
  constructor
  · rintro none ⟨inner, rfl⟩
    have found : reference? ("$(" ++ inner ++ ")").toList = some inner.toList :=
      reference?_eq_some_iff.2 (by simp)
    rw [none] at found
    cases found
  · intro plain
    cases found : reference? text.toList with
    | none => rfl
    | some inner =>
      refine absurd ⟨String.ofList inner, ?_⟩ plain
      refine String.toList_inj.1 ?_
      rw [reference?_eq_some_iff.1 found]
      simp

/-- What a reference stands for is what it is expanded to. -/
theorem expands_expand (env : Environment) (text : String) :
    env.Expands text (env.expand text) := by
  unfold expand
  cases found : reference? text.toList with
  | none => exact .plain (reference?_eq_none_iff.1 found)
  | some inner =>
    have whole : text = "$(" ++ String.ofList inner ++ ")" := by
      refine String.toList_inj.1 ?_
      rw [reference?_eq_some_iff.1 found]
      simp
    dsimp only
    cases cut : Text.cutFirst? ':' inner with
    | none =>
      rw [whole]
      exact .named (by simpa using Text.cutFirst?_eq_none_iff.1 cut)
    | some sides =>
      obtain ⟨name, other⟩ := sides
      obtain ⟨simple, split⟩ := Text.cutFirst?_eq_some_iff.1 cut
      have parts : text = "$(" ++ String.ofList name ++ ":" ++ String.ofList other ++ ")" := by
        rw [whole, split]
        refine String.toList_inj.1 ?_
        simp
      rw [parts]
      exact .withDefault (by simpa using simple)

/-- It stands for nothing else. -/
theorem Expands.expand_eq {value : Option String} (stands : env.Expands text value) :
    env.expand text = value := by
  unfold expand
  cases stands with
  | @named name simple =>
    have found : reference? ("$(" ++ name ++ ")").toList = some name.toList :=
      reference?_eq_some_iff.2 (by simp)
    rw [found]
    dsimp only
    rw [Text.cutFirst?_eq_none_iff.2 simple, String.ofList_toList]
  | @withDefault name other simple =>
    have found : reference? ("$(" ++ name ++ ":" ++ other ++ ")").toList =
        some (name.toList ++ ':' :: other.toList) :=
      reference?_eq_some_iff.2 (by simp)
    rw [found]
    dsimp only
    rw [Text.cutFirst?_append simple]
    simp
  | plain itself => rw [reference?_eq_none_iff.2 itself]

/-- A reference is told by how a text begins and how it ends. -/
theorem isReference_iff_ends :
    IsReference text ↔ ['$', '('] <+: text.toList ∧ text.toList.getLast? = some ')' := by
  constructor
  · rintro ⟨inner, rfl⟩
    have whole : ("$(" ++ inner ++ ")").toList = ['$', '('] ++ (inner.toList ++ [')']) := by simp
    rw [whole]
    exact ⟨List.prefix_append _ _, by rw [← List.append_assoc, List.getLast?_concat]⟩
  · rintro ⟨⟨rest, begins⟩, ends⟩
    obtain ⟨front, tail⟩ := List.getLast?_eq_some_iff.1 ends
    rw [tail] at begins
    -- the marks do not overlap, for the first ends with another character
    match front, begins with
    | [], begins => simp at begins
    | [_], begins => simp at begins
    | _ :: _ :: inner, begins =>
      simp only [List.cons_append, List.nil_append, List.cons.injEq] at begins
      obtain ⟨rfl, rfl, -⟩ := begins
      refine ⟨String.ofList inner, String.toList_inj.1 ?_⟩
      rw [tail]
      simp

/-! Lists -/

/-- A list is taken for a reference when its first item begins like one and its last item ends like
one. -/
theorem isReference_join_iff (first last : String) (middle : List String) :
    IsReference (",".intercalate (first :: (middle ++ [last]))) ↔
      ['$', '('] <+: first.toList ∧ last.toList.getLast? = some ')' := by
  have behind : ",".intercalate (first :: (middle ++ [last])) =
      first ++ "," ++ ",".intercalate (middle ++ [last]) :=
    String.intercalate_cons_of_ne_nil (by simp)
  have front : ",".intercalate (first :: (middle ++ [last])) =
      ",".intercalate (first :: middle) ++ "," ++ last := by
    rw [← List.cons_append, String.intercalate_append_of_ne_nil (by simp) (by simp),
      String.intercalate_singleton]
  rw [isReference_iff_ends]
  refine and_congr ?_ ?_
  · have start : (",".intercalate (first :: (middle ++ [last]))).toList =
        first.toList ++ ',' :: (",".intercalate (middle ++ [last])).toList := by
      rw [behind]
      simp
    rw [start]
    match first.toList with
    | [] => simp
    | [_] => simp
    | _ :: _ :: _ => simp
  · have final : (",".intercalate (first :: (middle ++ [last]))).toList =
        (",".intercalate (first :: middle)).toList ++ (',' :: last.toList) := by
      rw [front]
      simp
    rw [final, List.getLast?_append, List.getLast?_cons, Option.some_or]
    cases last.toList.getLast? <;> simp

/-- Items count one character more than they have, for the comma. -/
theorem length_join (ne_nil : items ≠ []) :
    (",".intercalate items).length + 1 = (items.map fun item => item.length + 1).sum := by
  induction items with
  | nil => exact absurd rfl ne_nil
  | cons item rest ih =>
    cases rest with
    | nil => simp
    | cons next rest =>
      have others := ih (by simp)
      rw [String.intercalate_cons_cons, List.map_cons, List.sum_cons, ← others]
      simp only [String.length_append]
      have comma : ",".length = 1 := rfl
      omega

/-- Without any variable nothing becomes longer, and a reference becomes shorter. -/
theorem length_expand_empty (expanded : empty.expand text = some value) :
    value.length ≤ text.length ∧ (IsReference text → value.length < text.length) := by
  have stands := expands_expand empty text
  rw [expanded] at stands
  cases stands with
  | @withDefault name other simple =>
    have shorter : other.length < ("$(" ++ name ++ ":" ++ other ++ ")").length := by
      simp only [String.length_append]
      have mark : "$(".length = 2 := rfl
      omega
    exact ⟨Nat.le_of_lt shorter, fun _ => shorter⟩
  | plain itself => exact ⟨Nat.le_refl _, fun reference => absurd reference itself⟩

/-- Without any variable the items of a list become shorter if one of them is a reference. -/
theorem sum_expand_empty (items : List String) :
    ((items.filterMap empty.expand).map fun item => item.length + 1).sum ≤
        (items.map fun item => item.length + 1).sum ∧
      ((∃ item ∈ items, IsReference item) →
        ((items.filterMap empty.expand).map fun item => item.length + 1).sum <
          (items.map fun item => item.length + 1).sum) := by
  induction items with
  | nil => simp
  | cons item rest ih =>
    obtain ⟨le, lt⟩ := ih
    cases expanded : empty.expand item with
    | none =>
      rw [List.filterMap_cons_none expanded, List.map_cons, List.sum_cons]
      exact ⟨by omega, fun _ => by omega⟩
    | some value =>
      obtain ⟨shorter, strictly⟩ := length_expand_empty expanded
      rw [List.filterMap_cons_some expanded, List.map_cons, List.map_cons, List.sum_cons,
        List.sum_cons]
      refine ⟨by omega, ?_⟩
      rintro ⟨other, member, reference⟩
      rcases List.mem_cons.1 member with rfl | later
      · have := strictly reference
        omega
      · have := lt ⟨other, later, reference⟩
        omega

/-- Without variables a list with a reference is not read as it is written. -/
theorem expandItems_empty_ne (reference : ∃ item ∈ items, IsReference item) :
    empty.expandItems items ≠ some (",".intercalate items) := by
  intro same
  have ne_nil : items ≠ [] := by
    obtain ⟨item, member, -⟩ := reference
    exact List.ne_nil_of_mem member
  have shorter := (sum_expand_empty items).2 reference
  unfold expandItems at same
  dsimp only at same
  split at same
  · cases same
  · next kept =>
    have texts : items.filterMap empty.expand ≠ [] := fun none => kept ⟨none, ne_nil⟩
    have lengths := congrArg String.length (Option.some.inj same)
    have := length_join ne_nil
    have := length_join texts
    omega

/-- Every variable is set, to nothing. -/
def blank : Environment := fun _ => some ""

theorem expand_blank (text : String) :
    (blank.expand text).isSome ∧ (IsReference text → blank.expand text = some "") := by
  have stands := expands_expand blank text
  generalize blank.expand text = value at stands
  cases stands with
  | named simple => exact ⟨rfl, fun _ => rfl⟩
  | withDefault simple => exact ⟨rfl, fun _ => rfl⟩
  | plain itself => exact ⟨rfl, fun reference => absurd reference itself⟩

/-- With blank ones a list of several items is not blank. -/
theorem expandItems_blank_ne (several : 2 ≤ items.length) :
    blank.expandItems items ≠ some "" := by
  have all : (items.filterMap blank.expand).length = items.length :=
    List.filterMap_length_eq_length.2 fun item _ => (expand_blank item).1
  unfold expandItems
  match items.filterMap blank.expand, all with
  | [], all => simp at all; omega
  | [_], all => simp at all; omega
  | a :: b :: rest, _ =>
    simp [String.intercalate_cons_cons]

/-- One text for a list stands for what its items stand for in every environment just if the list
has at most one item, or has no reference and is not taken for one. -/
theorem expand_join_iff :
    (∀ env : Environment, env.expand (",".intercalate items) = env.expandItems items) ↔
      items.length ≤ 1 ∨
        ¬IsReference (",".intercalate items) ∧ ∀ item ∈ items, ¬IsReference item := by
  constructor
  · intro alike
    refine or_iff_not_imp_left.2 fun several => ?_
    have whole : ¬IsReference (",".intercalate items) := fun reference =>
      expandItems_blank_ne (by omega) ((alike blank).symm.trans ((expand_blank _).2 reference))
    refine ⟨whole, fun item member reference => ?_⟩
    exact expandItems_empty_ne ⟨item, member, reference⟩
      ((alike empty).symm.trans (Expands.plain whole).expand_eq)
  · rintro (few | ⟨whole, each⟩) env
    · match items, few with
      | [], _ => rfl
      | [item], _ =>
        rw [String.intercalate_singleton, expandItems]
        cases expanded : env.expand item <;> simp [expanded]
    · have kept : items.filterMap env.expand = items := by
        rw [List.filterMap_congr fun item member => (Expands.plain (each item member)).expand_eq]
        exact List.filterMap_some
      rw [(Expands.plain whole).expand_eq, expandItems, kept]
      simp

end Environment

namespace Settings

/-- The texts of a list's scalars. -/
def listTexts? : Value → Option (List String)
  | .sequence values => some (values.filterMap Value.scalarText?)
  | _ => none

theorem valueText?_of_list {v : Value} {items : List String} (listed : listTexts? v = some items) :
    valueText? v = some (",".intercalate items) := by
  cases v with
  | sequence values =>
    cases listed
    rfl
  | _ => cases listed

open Environment (IsReference)

variable {env : Environment} {text test k : String} {document key v : Value}
  {before after : List (Value × Value)} {items : List String}

/-- **A list of a test is expanded as one text**, which is what its key is given between the
properties of the entries around it. In every environment this is what the items stand for one by
one just if there is at most one of them, or none is a reference and the list is not taken for one,
as it is when its first item begins like a reference and its last item ends like one. -/
theorem list_expanded_as_one (env : Environment) (processors : Nat)
    (read : Value.ofText? text = .ok document)
    (named : (document.get? test).bind Value.entries? = some (before ++ (key, v) :: after))
    (keyed : key.scalarText? = some k) (listed : listTexts? v = some items) :
    (∃ applied, env.Expands (",".intercalate items) applied ∧
      ofSpec env text test processors = ofProperties (specProperties env before ++
        (applied.map fun value => (k, value)).toList ++ specProperties env after) processors) ∧
    ((∀ env : Environment, env.expand (",".intercalate items) = env.expandItems items) ↔
      items.length ≤ 1 ∨
        ¬IsReference (",".intercalate items) ∧ ∀ item ∈ items, ¬IsReference item) ∧
    ∀ first middle last, items = first :: (middle ++ [last]) →
      (IsReference (",".intercalate items) ↔
        ['$', '('] <+: first.toList ∧ last.toList.getLast? = some ')') := by
  refine ⟨⟨_, env.expands_expand _, ?_⟩, Environment.expand_join_iff, ?_⟩
  · have entry : entryProperty? env (key, v) =
        (env.expand (",".intercalate items)).map fun value => (k, value) := by
      unfold entryProperty?
      rw [keyed, valueText?_of_list listed]
      simp only [Option.bind_eq_bind, Option.bind_some]
      cases env.expand (",".intercalate items) <;> rfl
    have properties : specProperties env (before ++ (key, v) :: after) =
        specProperties env before ++ ((env.expand (",".intercalate items)).map fun value =>
          (k, value)).toList ++ specProperties env after := by
      unfold specProperties
      rw [List.filterMap_append, List.filterMap_cons, entry]
      cases env.expand (",".intercalate items) <;> simp
    rw [← properties]
    unfold ofSpec
    rw [read]
    simp only [bind, Except.bind, mapError_ok, named]
  · rintro first middle last rfl
    exact Environment.isReference_join_iff first last middle

/-- A test whose tags are variables. -/
def renamed : String :=
  "smoke:\n  dash.workload.mix: [60, 40]\n  dash.workload.tag: [$(DASH_READ), $(DASH_WRITE)]\n"

/-- Names for both. -/
def names : Environment := .ofList [("DASH_READ", "GET"), ("DASH_WRITE", "PUT")]

/-- Both items stand for a name, and neither is used. -/
theorem list_of_references_dropped :
    names.expandItems ["$(DASH_READ)", "$(DASH_WRITE)"] = some "GET,PUT" ∧
      Key.saidBy [("dash.workload.tag", "GET,PUT")] .tags = some ["GET", "PUT"] ∧
      (ofSpec names renamed "smoke").toOption.map (fun s => (s.workload.mix, s.workload.tags)) =
        some ([60, 40], []) := by
  decide +kernel

/-- Two references in a list: the key is dropped, though each reference alone would be read. -/
theorem list_expanded_as_one_dropped :
    ofSpec names renamed "smoke" = ofProperties [("dash.workload.mix", "60,40")] ∧
      ¬∀ env : Environment, env.expand "$(DASH_READ),$(DASH_WRITE)" =
        env.expandItems ["$(DASH_READ)", "$(DASH_WRITE)"] := by
  have shaped : ((Value.ofText? renamed).toOption.bind fun document =>
      (document.get? "smoke").bind Value.entries?).map
        (·.map fun e => (e.1.scalarText?, valueText? e.2, listTexts? e.2)) =
      some [(some "dash.workload.mix", some "60,40", some ["60", "40"]),
        (some "dash.workload.tag", some "$(DASH_READ),$(DASH_WRITE)",
          some ["$(DASH_READ)", "$(DASH_WRITE)"])] := by decide +kernel
  obtain ⟨entries, found, shape⟩ := Option.map_eq_some_iff.1 shaped
  obtain ⟨document, read, named⟩ := Option.bind_eq_some_iff.1 found
  obtain ⟨mixEntry, others, rfl, first, shape⟩ := List.map_eq_cons_iff.1 shape
  obtain ⟨⟨key, v⟩, rest, rfl, second, shape⟩ := List.map_eq_cons_iff.1 shape
  obtain rfl := List.map_eq_nil_iff.1 shape
  have keyed : key.scalarText? = some "dash.workload.tag" := congrArg (·.1) second
  have listed : listTexts? v = some ["$(DASH_READ)", "$(DASH_WRITE)"] := congrArg (·.2.2) second
  have mixKeyed : mixEntry.1.scalarText? = some "dash.workload.mix" := congrArg (·.1) first
  have mixText : valueText? mixEntry.2 = some "60,40" := congrArg (·.2.1) first
  have joined : ",".intercalate ["$(DASH_READ)", "$(DASH_WRITE)"] =
      "$(DASH_READ),$(DASH_WRITE)" := by decide +kernel
  have around : specProperties names [mixEntry] = [("dash.workload.mix", "60,40")] := by
    have plain : names.expand "60,40" = some "60,40" := by decide +kernel
    simp only [specProperties, entryProperty?, List.filterMap_cons, List.filterMap_nil, mixKeyed,
      mixText, plain, Option.bind_eq_bind, Option.bind_some, Option.pure_def]
  have tagged : (document.get? "smoke").bind Value.entries? =
      some ([mixEntry] ++ (key, v) :: []) := named
  obtain ⟨⟨applied, stands, same⟩, alike, -⟩ :=
    list_expanded_as_one names 1 (ok_of_toOption read) tagged keyed listed
  rw [joined] at stands alike
  have unset : names.expand "$(DASH_READ),$(DASH_WRITE)" = none := by decide +kernel
  have dropped : applied = none := stands.expand_eq.symm.trans unset
  refine ⟨?_, fun all => ?_⟩
  · rw [same, around, dropped]
    rfl
  · rcases alike.1 all with few | ⟨-, plain⟩
    · exact absurd few (by decide)
    · exact plain "$(DASH_READ)" (.head _) ⟨"DASH_READ", by decide +kernel⟩

end Settings

end LoadHarness

import LoadHarness.Yaml.Token

/-!
# The tree of a YAML document

A node is a scalar, a sequence or a mapping, with its tag written out in full. References are
replaced by the nodes they name, so a node knows how deep it is and how many references went into
it: a document may be deep, or refer to itself many times over, only within limits.
-/

namespace LoadHarness.Yaml

inductive Node where
  | scalar (tag : Option String) (text : String) (plain : Bool)
  | sequence (tag : Option String) (items : List Node)
  | mapping (tag : Option String) (entries : List (Node × Node))
deriving Inhabited

/-- A node, how deep its collections go, and how many references it contains. -/
structure Measured where
  node : Node
  depth : Nat
  references : Nat

/-- The empty scalar that stands where nothing is written. -/
def Measured.absent : Measured := ⟨.scalar none "" true, 0, 0⟩

/-- What is left of the tokens, and what has been named so far. -/
structure Outline where
  tokens : List Token
  anchors : List (String × Measured)
  handles : List (String × String)
  /-- Scalars, references and the two ends of collections so far. -/
  events : Nat

abbrev Compose := StateT Outline (Except Fault)

namespace Compose

def fault {α : Type} (reason : String) : Compose α := throw ⟨reason, none⟩

/-- The next token, which is left in place. -/
def peek : Compose (Option Token) := do return (← get).tokens.head?

def skip : Compose Unit := modify fun o => { o with tokens := o.tokens.tail }

def count (n : Nat) : Compose Unit := modify fun o => { o with events := o.events + n }

/-- The next token is one of those. -/
def sees (ts : List Token) : Compose Bool := do return ((← peek).map ts.contains).getD false

def absent : Compose Measured := do count 1; return .absent

/-- Names a node. -/
def name (anchor : Option String) (m : Measured) : Compose Measured := do
  match anchor with
  | some a => modify fun o => { o with anchors := (a, m) :: o.anchors }
  | none => pure ()
  return m

/-- A tag with its handle written out. -/
def expandTag (handle suffix : String) : Compose String := do
  if handle.isEmpty then return suffix
  match (← get).handles.find? (·.1 == handle) with
  | some (_, lead) => return lead ++ suffix
  | none => fault "a tag's handle is not known"

/-- Anchor and tag in front of a node, in either order. -/
def properties : Compose (Option String × Option String) := do
  match ← peek with
  | some (.anchor a) =>
    skip
    match ← peek with
    | some (.tag h s) => skip; return (some a, some (← expandTag h s))
    | _ => return (some a, none)
  | some (.tag h s) =>
    skip
    match ← peek with
    | some (.anchor a) => skip; return (some a, some (← expandTag h s))
    | _ => return (none, some (← expandTag h s))
  | _ => return (none, none)

def sequenceOf (tag : Option String) (items : List Measured) : Measured :=
  { node := .sequence tag (items.map (·.node))
    depth := items.foldl (fun d m => max d m.depth) 0 + 1
    references := items.foldl (fun n m => n + m.references) 0 }

def mappingOf (tag : Option String) (entries : List (Measured × Measured)) : Measured :=
  { node := .mapping tag (entries.map fun (k, v) => (k.node, v.node))
    depth := entries.foldl (fun d (k, v) => max d (max k.depth v.depth)) 0 + 1
    references := entries.foldl (fun n (k, v) => n + k.references + v.references) 0 }

mutual

/-- A node. Block collections may stand only outside of brackets, and dashes at the column of a
key only as its value. -/
def node (block dashes : Bool) : Nat → Compose Measured
  | 0 => fault "the document is too long"
  | fuel + 1 => do
    match ← peek with
    | some (.reference a) =>
      skip
      count 1
      match (← get).anchors.find? (·.1 == a) with
      | some (_, m) => return { m with references := m.references + 1 }
      | none => fault "a reference names no anchor"
    | _ =>
      let (anchor, tag) ← properties
      -- until its end is read, a node cannot be referred to
      let hide : Compose Unit := match anchor with
        | some a => modify fun o => { o with anchors := o.anchors.filter (·.1 != a) }
        | none => pure ()
      match ← peek with
      | some (.scalar text plain) =>
        skip
        count 1
        -- the single mark is no tag on a scalar
        name anchor ⟨.scalar (tag.filter (· != "!")) text plain, 0, 0⟩
      | some .blockEntry =>
        if dashes then
          hide
          count 2
          name anchor (sequenceOf tag (← dashItems fuel))
        else if anchor.isSome || tag.isSome then
          count 1
          name anchor ⟨.scalar tag "" true, 0, 0⟩
        else fault "a node is missing"
      | some .flowSequenceStart =>
        skip
        hide
        count 2
        name anchor (sequenceOf tag (← flowItems true fuel))
      | some .flowMappingStart =>
        skip
        hide
        count 2
        name anchor (mappingOf tag (← flowEntries true fuel))
      | t =>
        if block && t == some .blockSequenceStart then
          skip
          hide
          count 2
          name anchor (sequenceOf tag (← blockItems fuel))
        else if block && t == some .blockMappingStart then
          skip
          hide
          count 2
          name anchor (mappingOf tag (← blockEntries fuel))
        else if anchor.isSome || tag.isSome then
          count 1
          name anchor ⟨.scalar tag "" true, 0, 0⟩
        else fault "a node is missing"

/-- Items with dashes that stand at the column of a key. -/
def dashItems : Nat → Compose (List Measured)
  | 0 => fault "the document is too long"
  | fuel + 1 => do
    if ← sees [.blockEntry] then
      skip
      let m ← if ← sees [.blockEntry, .key, .value, .blockEnd] then absent else node true false fuel
      return m :: (← dashItems fuel)
    else return []

/-- Items with dashes up to the end of their block. -/
def blockItems : Nat → Compose (List Measured)
  | 0 => fault "the document is too long"
  | fuel + 1 => do
    match ← peek with
    | some .blockEntry =>
      skip
      let m ← if ← sees [.blockEntry, .blockEnd] then absent else node true false fuel
      return m :: (← blockItems fuel)
    | some .blockEnd => skip; return []
    | _ => fault "a dash is missing"

/-- Entries up to the end of their block. -/
def blockEntries : Nat → Compose (List (Measured × Measured))
  | 0 => fault "the document is too long"
  | fuel + 1 => do
    match ← peek with
    | some .key =>
      skip
      let k ← if ← sees [.key, .value, .blockEnd] then absent else node true true fuel
      let v ← blockValue fuel
      return (k, v) :: (← blockEntries fuel)
    | some .value =>
      fault "a key is missing"
    | some .blockEnd => skip; return []
    | _ => fault "a key is missing"

/-- The value of an entry, if there is one. -/
def blockValue : Nat → Compose Measured
  | 0 => fault "the document is too long"
  | fuel + 1 => do
    if ← sees [.value] then
      skip
      if ← sees [.key, .value, .blockEnd] then absent else node true true fuel
    else absent

/-- Items up to the closing bracket; an item with a colon is a mapping of one entry. -/
def flowItems (first : Bool) : Nat → Compose (List Measured)
  | 0 => fault "the document is too long"
  | fuel + 1 => do
    if ← sees [.flowSequenceEnd] then skip; return []
    if !first then
      if ← sees [.flowEntry] then skip else fault "a comma is missing"
    match ← peek with
    | some .key =>
      skip
      count 2
      let k ←
        if ← sees [.value, .flowEntry, .flowSequenceEnd] then do skip; absent
        else node false false fuel
      let v ←
        if ← sees [.value] then do
          skip
          if ← sees [.flowEntry, .flowSequenceEnd] then absent else node false false fuel
        else absent
      return mappingOf none [(k, v)] :: (← flowItems false fuel)
    | some .flowSequenceEnd => skip; return []
    | _ =>
      let m ← node false false fuel
      return m :: (← flowItems false fuel)

/-- Entries up to the closing brace; an item without a colon is a key without a value. -/
def flowEntries (first : Bool) : Nat → Compose (List (Measured × Measured))
  | 0 => fault "the document is too long"
  | fuel + 1 => do
    if ← sees [.flowMappingEnd] then skip; return []
    if !first then
      if ← sees [.flowEntry] then skip else fault "a comma is missing"
    match ← peek with
    | some .key =>
      skip
      let k ←
        if ← sees [.value, .flowEntry, .flowMappingEnd] then absent else node false false fuel
      let v ←
        if ← sees [.value] then do
          skip
          if ← sees [.flowEntry, .flowMappingEnd] then absent else node false false fuel
        else absent
      return (k, v) :: (← flowEntries false fuel)
    | some .flowMappingEnd => skip; return []
    | _ =>
      let k ← node false false fuel
      let v ← absent
      return (k, v) :: (← flowEntries false fuel)

end

/-- Handles that need no directive. -/
def standardHandles : List (String × String) :=
  [("!", "!"), ("!!", "tag:yaml.org,2002:")]

/-- The directives in front of a document, and whether there were any. -/
def directives : Nat → List (String × String) → Bool → Bool →
    Compose (List (String × String) × Bool)
  | 0, hs, _, any => return (hs, any)
  | fuel + 1, hs, version, any => do
    match ← peek with
    | some (.versionDirective major minor) =>
      skip
      if version then fault "the version is said twice"
      if major != 1 || (minor != 1 && minor != 2) then fault "the version is not known"
      directives fuel hs true true
    | some (.tagDirective handle lead) =>
      skip
      if hs.any (·.1 == handle) then fault "a handle is said twice"
      directives fuel (hs ++ [(handle, lead)]) version true
    | _ => return (hs, any)

/-- The only document of a text, nothing when there is none. -/
def document (fuel : Nat) : Compose (Option Measured) := do
  let (hs, any) ← directives fuel [] false false
  modify fun o => { o with
    handles := hs ++ standardHandles.filter fun (h, _) => !hs.any (·.1 == h) }
  let first ← peek
  let root ←
    if first == some .documentStart then do
      skip
      match ← peek with
      | none => absent
      | some .documentStart | some .documentEnd | some (.versionDirective _ _)
      | some (.tagDirective _ _) => absent
      | _ => node true false fuel
    else if any then fault "the document does not begin"
    else if first.isNone then return none
    else node true false fuel
  return some root

end Compose

/-- How deep collections may go. -/
def depthLimit : Nat := 128

/-- How many references may be followed for every event of a document. -/
def referenceLimit : Nat := 100

/-- The document of a text, nothing for an empty text. Of several documents, or of one that goes
past the limits, there is none. -/
def Node.ofText? (s : String) : Except Fault (Option Node) := do
  let tokens ← Token.scan s
  let fuel := 2 * tokens.length + 2
  let (root, o) ← (Compose.document fuel).run ⟨tokens, [], [], 0⟩
  match root with
  | none => return none
  | some m =>
    if !(o.tokens.dropWhile (· == .documentEnd)).isEmpty then
      throw ⟨"another document follows", none⟩
    if depthLimit < m.depth then throw ⟨"collections go too deep", none⟩
    if referenceLimit * o.events < m.references then throw ⟨"too many references", none⟩
    return some m.node

end LoadHarness.Yaml

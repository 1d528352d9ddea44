import SchemaTypes.Yaml.Lexer

/-!
# Nodes

The one document of a YAML text as a tree. A node that has an anchor carries the
number of the anchor, and an alias stands for the node with that number. A new
anchor gets as its number how many names have been given before, and a name that
is given again counts once only; of two nodes with one number the later one
counts.
-/

set_option autoImplicit false

namespace SchemaTypes.Yaml

inductive Node
  | scalar (anchor : Option Nat) (tag : Option (List Char)) (text : List Char) (plain : Bool)
  | sequence (anchor : Option Nat) (tag : Option (List Char)) (items : List Node)
  | mapping (anchor : Option Nat) (tag : Option (List Char)) (entries : List (Node × Node))
  | alias (number : Nat)

instance : Inhabited Node := ⟨.alias 0⟩

namespace Node

def empty : Node := .scalar none none [] true

/-- The state of reading: the tokens that are left, the numbers of the anchors
and the expansions of the handles of tags. -/
structure State where
  tokens : List Token
  anchors : List (List Char × Nat) := []
  handles : List (List Char × List Char) := []

abbrev Reader := StateT State Option

def peek : Reader (Option Token) := do return (← get).tokens.head?

def drop : Reader Unit := modify fun s => { s with tokens := s.tokens.tail }

/-- Takes the next token if it is the given one. -/
def took (t : Token) : Reader Bool := do
  if (← peek) = some t then
    drop
    return true
  return false

def expect (t : Token) : Reader Unit := do
  if !(← took t) then failure

/-- Whether one of these tokens comes next. The end of the text is none of them. -/
def comes (ts : List Token) : Reader Bool := do
  match ← peek with
  | some t => return ts.contains t
  | none => return false

def numberAnchor (name : List Char) : Reader Nat := do
  let s ← get
  let n := s.anchors.length
  set { s with anchors := (name, n) :: s.anchors.filter fun a => a.1 ≠ name }
  return n

def anchorNumber (name : List Char) : Reader Nat := do
  match (← get).anchors.find? fun a => a.1 = name with
  | some (_, n) => return n
  | none => failure

def expand (handle suffix : List Char) : Reader (List Char) := do
  if handle = [] then return suffix
  match (← get).handles.find? fun h => h.1 = handle with
  | some (_, expansion) => return expansion ++ suffix
  | none => failure

structure Properties where
  anchor : Option Nat := none
  tag : Option (List Char) := none

def anchorName? : Reader (Option (List Char)) := do
  match ← peek with
  | some (.anchor name) =>
    drop
    return some name
  | _ => return none

def tagParts? : Reader (Option (List Char × List Char)) := do
  match ← peek with
  | some (.tag handle suffix) =>
    drop
    return some (handle, suffix)
  | _ => return none

/-- An anchor and a tag before a node, in either order. -/
def properties : Reader Properties := do
  let first ← anchorName?
  let tag ← tagParts?
  let name ← if first.isNone && tag.isSome then anchorName? else pure first
  let tag ← tag.mapM fun t => expand t.1 t.2
  return ⟨← name.mapM numberAnchor, tag⟩

/-- The tag of a scalar. A single exclamation mark is no tag, and makes the
scalar plain if it was written so. -/
def scalarTag (tag : Option (List Char)) : Option (List Char) :=
  if tag = some ['!'] then none else tag

mutual

/-- A node. Inside brackets no block collection can begin; the value of a mapping
may be a sequence that is not indented. -/
def node : Nat → Bool → Bool → Reader Node
  | 0, _, _ => failure
  | fuel + 1, block, unindented => do
    match ← peek with
    | some (.alias name) =>
      drop
      return .alias (← anchorNumber name)
    | _ =>
      let p ← properties
      match ← peek with
      | some (.scalar text plain) =>
        drop
        return .scalar p.anchor (scalarTag p.tag) text plain
      | some .flowSequence =>
        drop
        return .sequence p.anchor p.tag (← flowItems fuel true)
      | some .flowMapping =>
        drop
        return .mapping p.anchor p.tag (← flowEntries fuel true)
      | some .blockEntry =>
        if unindented then return .sequence p.anchor p.tag (← unindentedItems fuel)
        else if p.anchor.isSome || p.tag.isSome then
          return .scalar p.anchor p.tag [] true
        else failure
      | t =>
        if block && t = some .blockSequence then
          drop
          return .sequence p.anchor p.tag (← blockItems fuel)
        else if block && t = some .blockMapping then
          drop
          return .mapping p.anchor p.tag (← blockEntries fuel)
        else if p.anchor.isSome || p.tag.isSome then
          return .scalar p.anchor p.tag [] true
        else failure

def nodeUnless : Nat → List Token → Bool → Bool → Reader Node
  | 0, _, _, _ => failure
  | fuel + 1, stops, block, unindented => do
    if ← comes stops then return empty else node fuel block unindented

def blockItems : Nat → Reader (List Node)
  | 0 => failure
  | fuel + 1 => do
    if ← took .blockEntry then
      let n ← nodeUnless fuel [.blockEntry, .blockEnd] true false
      return n :: (← blockItems fuel)
    else
      expect .blockEnd
      return []

def unindentedItems : Nat → Reader (List Node)
  | 0 => failure
  | fuel + 1 => do
    if ← took .blockEntry then
      let n ← nodeUnless fuel [.blockEntry, .key, .value, .blockEnd] true false
      return n :: (← unindentedItems fuel)
    else return []

def blockEntries : Nat → Reader (List (Node × Node))
  | 0 => failure
  | fuel + 1 => do
    if ← took .key then
      let k ← nodeUnless fuel [.key, .value, .blockEnd] true true
      let v ← if ← took .value then nodeUnless fuel [.key, .value, .blockEnd] true true
        else pure empty
      return (k, v) :: (← blockEntries fuel)
    else
      expect .blockEnd
      return []

/-- The items of a sequence in brackets. A key among them begins a mapping of one
entry, which has no brackets. -/
def flowItems : Nat → Bool → Reader (List Node)
  | 0, _ => failure
  | fuel + 1, first => do
    if ← took .flowSequenceEnd then return []
    if !first then
      expect .flowEntry
      if ← took .flowSequenceEnd then return []
    let n ← if ← took .key then singleEntry fuel else node fuel false false
    return n :: (← flowItems fuel false)

/-- An entry without braces. Where its key is missing, the token in its place is
passed over. -/
def singleEntry : Nat → Reader Node
  | 0 => failure
  | fuel + 1 => do
    let missing ← comes [.value, .flowEntry, .flowSequenceEnd]
    let k ← if missing then (do drop; pure empty) else node fuel false false
    let v ← if ← took .value then nodeUnless fuel [.flowEntry, .flowSequenceEnd] false false
      else pure empty
    return .mapping none none [(k, v)]

/-- The entries of a mapping in braces. A key without a colon has an empty value. -/
def flowEntries : Nat → Bool → Reader (List (Node × Node))
  | 0, _ => failure
  | fuel + 1, first => do
    if ← took .flowMappingEnd then return []
    if !first then
      expect .flowEntry
      if ← took .flowMappingEnd then return []
    let e ←
      if ← took .key then (do
        let k ← nodeUnless fuel [.value, .flowEntry, .flowMappingEnd] false false
        let v ← if ← took .value then nodeUnless fuel [.flowEntry, .flowMappingEnd] false false
          else pure empty
        pure (k, v))
      else (do pure (← node fuel false false, empty))
    return e :: (← flowEntries fuel false)

end

def isOutside : Option Token → Bool
  | none => true
  | some (.version _ _) => true
  | some (.tagHandle _ _) => true
  | some .documentStart => true
  | some .documentEnd => true
  | some _ => false

/-- The directives before a document: at most one version, which must be 1.1 or
1.2, and each handle once. -/
def directives : Nat → Bool → List (List Char × List Char) → Reader (List (List Char × List Char))
  | 0, _, _ => failure
  | fuel + 1, versioned, handles => do
    match ← peek with
    | some (.version major minor) =>
      drop
      if !versioned && major = 1 && (minor = 1 || minor = 2) then directives fuel true handles
      else failure
    | some (.tagHandle handle expansion) =>
      drop
      if handles.any fun h => h.1 = handle then failure
      else directives fuel versioned ((handle, expansion) :: handles)
    | _ => return handles

/-- The handles that need no directive. -/
def standardHandles : List (List Char × List Char) :=
  [(['!'], ['!']), (['!', '!'], "tag:yaml.org,2002:".toList)]

def isDirective : Option Token → Bool
  | some (.version _ _) => true
  | some (.tagHandle _ _) => true
  | _ => false

def document (fuel : Nat) : Reader Node := do
  let t ← peek
  if isDirective t || t = some .documentStart then
    let handles ← directives fuel false []
    modify fun s => { s with handles := handles ++ standardHandles }
    expect .documentStart
    if isOutside (← peek) then return empty else node fuel true false
  else
    modify fun s => { s with handles := standardHandles }
    node fuel true false

def documentEnds : Nat → Reader Unit
  | 0 => failure
  | fuel + 1 => do if ← took .documentEnd then documentEnds fuel

/-- What a text holds: nothing at all, or one document, and nothing after it. -/
def stream (fuel : Nat) : Reader (Option Node) := do
  match ← peek with
  | none => return none
  | some _ =>
    let n ← document fuel
    documentEnds fuel
    match ← peek with
    | none => return some n
    | some _ => failure

/-- Every node takes a token, or stands between two tokens that are taken. -/
def ofTokens? (ts : List Token) : Option (Option Node) :=
  (stream (4 * ts.length + 8)).run { tokens := ts } |>.map Prod.fst

def ofText? (text : String) : Option (Option Node) := (tokens? text.toList).bind ofTokens?

mutual

def anchored : Node → List (Nat × Node)
  | .scalar a tag text plain => a.toList.map fun n => (n, .scalar a tag text plain)
  | .sequence a tag items =>
    a.toList.map (fun n => (n, .sequence a tag items)) ++ anchoredItems items
  | .mapping a tag entries =>
    a.toList.map (fun n => (n, .mapping a tag entries)) ++ anchoredEntries entries
  | .alias _ => []

def anchoredItems : List Node → List (Nat × Node)
  | [] => []
  | n :: ns => n.anchored ++ anchoredItems ns

def anchoredEntries : List (Node × Node) → List (Nat × Node)
  | [] => []
  | (k, v) :: es => k.anchored ++ (v.anchored ++ anchoredEntries es)

end

mutual

def size : Node → Nat
  | .scalar _ _ _ _ => 1
  | .alias _ => 1
  | .sequence _ _ items => 2 + itemsSize items
  | .mapping _ _ entries => 2 + entriesSize entries

def itemsSize : List Node → Nat
  | [] => 0
  | n :: ns => n.size + itemsSize ns

def entriesSize : List (Node × Node) → Nat
  | [] => 0
  | (k, v) :: es => k.size + v.size + entriesSize es

end

end Node

end SchemaTypes.Yaml

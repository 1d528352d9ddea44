import SchemaTypes.Outline
import SchemaTypes.Yaml.Node
import SchemaTypes.Yaml.Scalar

/-!
# Reading nodes

A value is read from a node by its outline. Where the outline wants names, the
text of a scalar is a name whatever it would mean as a value; where it wants a
value, the value is read whole. What no field asks for is not looked at.

An alias is followed to the node it names. All aliases of a text together are
followed a limited number of times, and collections may be nested up to
`depthLimit` levels, so that an alias inside the node it names is an error.
-/

set_option autoImplicit false

namespace SchemaTypes.Yaml

def depthLimit : Nat := 128

/-- What readers of nodes know: the nodes with anchors, and how many aliases may be
followed in all. -/
structure Anchors where
  nodes : List (Nat × Node)
  limit : Nat

/-- For a text of `n` scalars, aliases, and ends of collections the limit is `100 * n`. -/
def Anchors.ofNode (root : Node) : Anchors := ⟨root.anchored, 100 * root.size⟩

abbrev Following := ReaderT Anchors (StateT Nat Option)

/-- Of the nodes with one number the last one. -/
def Anchors.find? (a : Anchors) (number : Nat) : Option Node :=
  (a.nodes.reverse.find? fun n => n.1 = number).map Prod.snd

def follow (number : Nat) : Following Node := do
  let a ← read
  let followed ← get
  set (followed + 1)
  if a.limit < followed + 1 then failure
  else
    match a.find? number with
    | some n => return n
    | none => failure

def Node.target : Node → Following Node
  | .alias number => follow number
  | n => return n

def keyOf : Value → Key
  | .string s => .name s
  | .number (.int n) => if 0 ≤ n then .position n.toNat else .other
  | _ => .other

/-- A collection that is kept whole must not have a tag of its own. -/
def unlessLocal (tag : Option (List Char)) : Following Unit :=
  if tag.any Scalar.isLocal then failure else return ()

/-- The whole value of a node, with `depth` more levels of collections allowed. -/
def Node.whole : Nat → Node → Following Value
  | depth, n => do
    match ← n.target with
    | .scalar _ tag text plain => (Scalar.value? tag text plain : Option Value)
    | .sequence _ tag items =>
      unlessLocal tag
      match depth with
      | 0 => failure
      | depth + 1 => return .list (← items.mapM (Node.whole depth))
    | .mapping _ tag entries =>
      unlessLocal tag
      match depth with
      | 0 => failure
      | depth + 1 =>
        return .object (← entries.mapM fun e => do
          return (keyOf (← Node.whole depth e.1), ← Node.whole depth e.2))
    | .alias _ => failure

def Node.name : Node → Following String
  | n => do
    match ← n.target with
    | .scalar _ _ text _ => return String.ofList text
    | _ => failure

/-- Whether a scalar stands for nothing; it must if its tag is that of null. -/
def isAbsent (tag : Option (List Char)) (text : List Char) (plain : Bool) : Following Bool :=
  if !plain then return false
  else
    match tag with
    | none => return Scalar.isAbsent text
    | some t =>
      if t = "tag:yaml.org,2002:null".toList then
        if Scalar.isNull text then return true else failure
      else return false

/-- Reads a value that may be absent. -/
def Node.optional (read : Node → Following Value) (n : Node) : Following Value := do
  match ← n.target with
  | .scalar anchor tag text plain =>
    if ← isAbsent tag text plain then return .null else read (.scalar anchor tag text plain)
  | t => read t

/-- The entries of a mapping, of which an empty scalar has none. -/
def Node.entries? : Node → Option (List (Node × Node))
  | .mapping _ _ entries => some entries
  | .scalar _ _ [] true => some []
  | _ => none

/-- Reads a value by its outline, with `depth` more levels of collections allowed.
Of a record only the fields remain, and no field may come twice. -/
def Node.read : Outline → Nat → Node → Following Value
  | .whole _ fits, depth, n => do
    let v ← n.whole depth
    if fits v then return v else failure
  | .names _ each, depth, n => do
    match (← n.target).entries?, depth with
    | some entries, depth + 1 =>
      return .object (← entries.mapM fun e => do
        return (.name (← e.1.name), ← Node.read each depth e.2))
    | _, _ => failure
  | .record _ _ fields, depth, n => do
    match (← n.target).entries?, depth with
    | some entries, depth + 1 =>
      let found ← entries.filterMapM fun e => do
        let name ← e.1.name
        match Outline.field? fields name with
        | none => return none
        | some o => return some (name, ← Node.optional (Node.read o depth) e.2)
      if (found.map Prod.fst).Nodup then return .object (found.map fun f => (.name f.1, f.2))
      else failure
    | _, _ => failure

/-- What an outline finds in a text that holds nothing. -/
def readNothing (orNull : Bool) : Outline → Option Value
  | .whole _ fits => if orNull || fits .null then some .null else none
  | _ => some (if orNull then .null else .object [])

/-- Reads a text by the outline of its value. If `orNull`, the value may be null. -/
def read (orNull : Bool) (o : Outline) (text : String) : Option Value :=
  match Node.ofText? text with
  | none => none
  | some none => readNothing orNull o
  | some (some root) =>
    let reader := if orNull then Node.optional (Node.read o depthLimit) root
      else Node.read o depthLimit root
    ((reader.run (.ofNode root)).run 0).map Prod.fst

end SchemaTypes.Yaml

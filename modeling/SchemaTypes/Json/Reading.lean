import SchemaTypes.Json.Tree
import SchemaTypes.Outline

/-!
# Reading a tree

The two readers of a tree. `Tree.value?` is the careful one: it gives the value,
or the first failure. `Tree.skim` is the careless one. `Tree.read` reads a value
by its outline, carefully where the outline says something about it and
carelessly where it does not.

Brackets may be nested up to `depthLimit` levels where values are wanted, and
without limit where they are not.
-/

set_option autoImplicit false

namespace SchemaTypes.Json

def depthLimit : Nat := 127

def tooDeep (start : Nat) : Failure := ⟨.tooDeep, some (start + 1)⟩

mutual

/-- Reads a value, with `depth` more levels of brackets allowed. -/
def Tree.value? : Tree → Nat → Except Failure Value
  | .null _, _ => .ok .null
  | .bool b _, _ => .ok (.bool b)
  | .number n _, _ => n.map .number
  | .string s _, _ => s.map .string
  | .list start _, 0 => .error (tooDeep start)
  | .list _ chain, depth + 1 => (chain.values? depth).map .list
  | .object start _, 0 => .error (tooDeep start)
  | .object _ chain, depth + 1 => (chain.values? depth).map .object
  | .broken careful _, _ => .error careful

def Items.values? : Items → Nat → Except Failure (List Value)
  | .close _, _ => .ok []
  | .item _ t _ rest, depth =>
    match t.value? depth with
    | .error f => .error f
    | .ok v => (rest.values? depth).map (v :: ·)
  | .broken b, _ => .error b.careful

def Entries.values? : Entries → Nat → Except Failure (List (Key × Value))
  | .close _, _ => .ok []
  | .entry key _ t _ rest, depth =>
    match key with
    | .error f => .error f
    | .ok k =>
      match t.value? depth with
      | .error f => .error f
      | .ok v => (rest.values? depth).map ((.name k, v) :: ·)
  | .broken b, _ => .error b.careful
  | .badKey careful _, _ => .error careful

end

mutual

def Tree.skim : Tree → Except Failure Unit
  | .list _ chain => chain.skim
  | .object _ chain => chain.skim
  | .broken _ careless => .error careless
  | _ => .ok ()

def Items.skim : Items → Except Failure Unit
  | .close _ => .ok ()
  | .item _ t _ rest =>
    match t.skim with
    | .error f => .error f
    | .ok () => rest.skim
  | .broken b => .error b.careless

def Entries.skim : Entries → Except Failure Unit
  | .close _ => .ok ()
  | .entry _ _ t _ rest =>
    match t.skim with
    | .error f => .error f
    | .ok () => rest.skim
  | .broken b => .error b.careless
  | .badKey _ careless => .error careless

end

def wrongKind {α : Type} (found : Found) (o : Outline) (p : Nat) : Except Failure α :=
  .error ⟨.wrongKind found o.expected, some p⟩

def Tree.mismatch {α : Type} (o : Outline) : Tree → Except Failure α
  | .null stop => wrongKind .null o stop
  | .bool b stop => wrongKind (.bool b) o stop
  | .number (.ok n) stop => wrongKind (.number n) o stop
  | .number (.error f) _ => .error f
  | .string (.ok s) stop => wrongKind (.string s) o stop
  | .string (.error f) _ => .error f
  | .list start _ => wrongKind .list o start
  | .object start _ => wrongKind .object o start
  | .broken careful _ => .error careful

def Tree.isNull : Tree → Bool
  | .null _ => true
  | _ => false

def settle {α : Type} (p : Nat) : Except Failure α → Except Failure α
  | .ok v => .ok v
  | .error f => .error (f.reached p)

/-- A whole value must fit. -/
def judge (kind : String) (fits : Value → Bool) : Except Failure Value → Except Failure Value
  | .error f => .error f
  | .ok v => if fits v then .ok v else .error ⟨.noVariant kind, none⟩

/-- The list of a record's fields ends at `stop`, before the field at `index`. -/
def endOfFields (title : String) (spare total index stop : Nat) :
    Except Failure (List (Key × Value)) :=
  if max index spare < total then
    .error ⟨.wrongLength (max index spare) (Outline.fieldCount title total), some stop⟩
  else .ok []

mutual

/-- Reads a value by its outline. Of a record only the fields remain. -/
def Tree.read : Tree → Nat → Outline → Except Failure Value
  | t, depth, .whole kind fits => judge kind fits (t.value? depth)
  | .object start chain, depth, .names _ each =>
    match depth with
    | 0 => .error (tooDeep start)
    | depth + 1 => (chain.readNames depth each).map .object
  | .object start chain, depth, .record _ _ fields =>
    match depth with
    | 0 => .error (tooDeep start)
    | depth + 1 => (chain.readFields depth fields []).map .object
  | .list start chain, depth, .record title spare fields =>
    match depth with
    | 0 => .error (tooDeep start)
    | depth + 1 => (chain.readFields depth title spare 0 fields).map .object
  | t, _, o => t.mismatch o

/-- Reads the fields of a record from a list, the next one at `index`. -/
def Items.readFields : Items → Nat → String → Nat → Nat → List (String × Outline) →
    Except Failure (List (Key × Value))
  | .close stop, _, title, spare, index, fields =>
    endOfFields title spare (index + fields.length) index stop
  | .item start _ _ _, _, _, _, _, [] => .error ⟨.trailingText, some (start + 1)⟩
  | .item _ t after rest, depth, title, spare, index, (name, o) :: fields =>
    match (if t.isNull then .ok .null else settle after (t.read depth o)) with
    | .error f => .error f
    | .ok v =>
      (rest.readFields depth title spare (index + 1) fields).map ((.name name, v) :: ·)
  | .broken b, _, _, _, _, [] => .error b.closing
  | .broken b, _, _, _, _, _ :: _ => .error b.careful

/-- Reads the fields of a record from an object, of which some are `seen`. -/
def Entries.readFields : Entries → Nat → List (String × Outline) → List String →
    Except Failure (List (Key × Value))
  | .close _, _, _, _ => .ok []
  | .entry key afterKey t after rest, depth, fields, seen =>
    match key with
    | .error f => .error f
    | .ok name =>
      match Outline.field? fields name with
      | none =>
        match t.skim with
        | .error f => .error f
        | .ok () => rest.readFields depth fields seen
      | some o =>
        if seen.contains name then .error ⟨.duplicateField name, some afterKey⟩
        else
          match (if t.isNull then .ok .null else settle after (t.read depth o)) with
          | .error f => .error f
          | .ok v => (rest.readFields depth fields (name :: seen)).map ((.name name, v) :: ·)
  | .broken b, _, _, _ => .error b.careful
  | .badKey careful _, _, _, _ => .error careful

def Entries.readNames : Entries → Nat → Outline → Except Failure (List (Key × Value))
  | .close _, _, _ => .ok []
  | .entry key _ t after rest, depth, each =>
    match key with
    | .error f => .error f
    | .ok name =>
      match settle after (t.read depth each) with
      | .error f => .error f
      | .ok v => (rest.readNames depth each).map ((.name name, v) :: ·)
  | .broken b, _, _ => .error b.careful
  | .badKey careful _, _, _ => .error careful

end

/-- Reads a text by the outline of its value. If `orNull`, the value may be null. -/
def read (orNull : Bool) (o : Outline) (text : String) : Except Failure Value :=
  match Tree.ofChars text.toList with
  | (t, tail) =>
    match (if orNull && t.isNull then .ok .null else t.read depthLimit o) with
    | .error f => .error f
    | .ok v =>
      match tail with
      | none => .ok v
      | some p => .error ⟨.trailingText, some (p + 1)⟩

end SchemaTypes.Json

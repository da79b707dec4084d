import CurrencyPad.Yaml.Layout
import CurrencyPad.Yaml.Node
import CurrencyPad.Yaml.Scalar

/-!
# The value of a document

A text is read as one document; without any content it stands for nothing. Only
printable characters and line ends may occur in it.

The value of a node is found from its type and its form. A mapping may take over
the entries of others, behind which its own ones count. Where several nodes have
no value, the fault of the outermost of them is told, and of those at the same
depth the fault of the first.
-/

namespace CurrencyPad.Yaml

namespace Document

abbrev Entries := List (Node × Node)

/-- The node that a node is or refers to. -/
def follow (document : Document) : Node → Node
  | .alias name => (document.parts.get? name).getD Node.empty
  | node => node

/-- Whether a key asks for the entries of other mappings. -/
def isMerge (document : Document) (entry : Node × Node) : Bool :=
  (document.follow entry.1).tag == .merge

mutual

/-- Entries with those that they take over in front of them. Nodes with one of
the given names, which are being read, give none. -/
def withMerged (document : Document) :
    Nat → List Text → Entries → Except YamlError Entries
  | 0, _, _ => .ok []
  | steps + 1, open_, entries => do
    let (merges, own) := entries.partition document.isMerge
    let merged ← merges.mapM fun entry => mergedFrom document steps open_ entry.2
    return merged.flatten ++ own

/-- The entries that a mapping or a sequence of mappings gives away; of those in
a sequence the later ones come first. -/
def mergedFrom (document : Document) :
    Nat → List Text → Node → Except YamlError Entries
  | 0, _, _ => .ok []
  | steps + 1, open_, node =>
    match node with
    | .mapping _ entries => withMerged document steps open_ entries
    | .sequence _ items => do
      let merged ← items.mapM (mergedItem document steps open_)
      return merged.reverse.flatten
    | .alias name =>
      if open_.contains name then .ok []
      else mergedFrom document steps (name :: open_) (document.follow node)
    | .scalar _ _ => .error .malformed

/-- The entries that an item of such a sequence gives away. -/
def mergedItem (document : Document) :
    Nat → List Text → Node → Except YamlError Entries
  | 0, _, _ => .ok []
  | steps + 1, open_, node =>
    match document.follow node with
    | .mapping _ _ => mergedFrom document steps open_ node
    | _ => .error .malformed

end

def entries (document : Document) (own : Entries) : Except YamlError Entries :=
  document.withMerged document.size [] own

/-- The entries of a mapping with those that it takes over from nodes without a
name. -/
def ownEntries (document : Document) (own : Entries) : Entries :=
  (document.withMerged document.size document.parts.names own).toOption.getD []

/-- The code points of a scalar, or of the node that stands in for a mapping. -/
def points? (document : Document) : Nat → Node → Option (List Nat)
  | 0, _ => none
  | steps + 1, node =>
    match document.follow node with
    | .scalar _ points => some points
    | .mapping _ entries =>
      (entries.find? fun entry =>
        (document.follow entry.1).tag == .standIn).bind
        fun entry => document.points? steps entry.2
    | _ => none

/-- The value of a node whose type is no collection. A timestamp has to be a
scalar itself. -/
def scalarValue (document : Document) (node : Node) : Except YamlError Yaml :=
  match document.points? document.size node, node with
  | none, _ => .error .malformed
  | some _, .mapping .timestamp _ => .error .collectionAsTimestamp
  | some points, node => Scalar.value node.tag points

/-- The key and the value of an item of ordered pairs. -/
def pair? (document : Document) (item : Node) : Option (Node × Node) :=
  match document.follow item with
  | .mapping _ [entry] => some entry
  | _ => none

/-- What is wrong in a node: its own fault, then the first fault of its parts,
and so on. -/
abbrev Faults := List (Option YamlError)

namespace Faults

/-- The faults of two nodes at the same depth, the first of which comes first. -/
def join : Faults → Faults → Faults
  | [], faults => faults
  | faults, [] => faults
  | first :: rest, second :: others =>
    (first.orElse fun _ => second) :: join rest others

/-- The faults of the parts of a node as faults of the node. -/
def deepen (parts : List Faults) : Faults :=
  none :: parts.foldl join []

/-- A node whose form is not that of its type. -/
def misshapen : Faults := [none, some .malformed]

end Faults

/-- What is wrong in a node. The node that an alias refers to is looked at where
it stands. -/
def faults (document : Document) : Nat → Node → Faults
  | 0, _ => []
  | steps + 1, node =>
    let keyFaults := fun key : Node =>
      if (document.follow key).tag.isCollection then [some .malformed]
      else document.faults steps key.asKey
    match node.tag, node with
    | _, .alias _ => []
    | .sequence, .sequence _ items => .deepen (items.map (document.faults steps))
    | .sequence, _ => .misshapen
    | .pairs, .sequence _ items =>
      .deepen (items.map fun item =>
        match document.pair? item with
        | some (key, value) =>
          Faults.join (document.faults steps key) (document.faults steps value)
        | none => [some .malformed])
    | .pairs, _ => .misshapen
    | tag, node =>
      if tag.isCollection then
        match node with
        | .mapping _ own =>
          match document.entries own with
          | .error error => [none, some error]
          | .ok _ =>
            .deepen ((document.ownEntries own).map fun (key, value) =>
              Faults.join (keyFaults key) (document.faults steps value))
        | _ => .misshapen
      else
        match document.scalarValue node with
        | .ok _ => []
        | .error error => [some error]

/-- The greatest depth to which a document is told that refers to its own parts,
since a node may be a part of itself. -/
def sharedDepth : Nat := 6

def depth (document : Document) : Nat :=
  if document.parts.isEmpty then document.size else sharedDepth

/-- The value of a node whose parts have no fault, to a depth. -/
def valueOf (document : Document) : Nat → Node → Yaml
  | 0, _ => .null
  | steps + 1, node =>
    let node := document.follow node
    let value := document.valueOf steps
    let mapping := fun own : Entries =>
      ((document.entries own).toOption.getD []).foldl
        (fun known (key, part) =>
          setEntry known (value key.asKey) (value part)) []
    match node.tag, node with
    | .sequence, .sequence _ items => .sequence (items.map value)
    | .pairs, .sequence _ items =>
      .sequence ((items.filterMap document.pair?).map fun (key, part) =>
        .pair (value key) (value part))
    | .mapping, .mapping _ own => .mapping (mapping own)
    | .set, .mapping _ own => .set ((mapping own).map (·.1))
    | _, node => (document.scalarValue node).toOption.getD .null

def value (document : Document) : Except YamlError Yaml :=
  match (document.faults document.size document.root).findSome? id with
  | some error => .error error
  | none => .ok (document.valueOf document.depth document.root)

end Document

/-- A character that a YAML text may hold. -/
def isAllowed (c : Char) : Bool :=
  c == '\t' || c == '\n' || c == '\r' || (' ' ≤ c && c ≤ '~') || c == '\u0085' ||
    ('\u00A0' ≤ c && c ≤ '\uFFFD') || 0x10000 ≤ c.toNat

/-- A text in which every line feed, carriage return and pair of the two is one
line feed. -/
def unifyLines : Text → Text
  | '\r' :: '\n' :: rest => '\n' :: unifyLines rest
  | '\r' :: rest => '\n' :: unifyLines rest
  | c :: rest => c :: unifyLines rest
  | [] => []

def ofText (text : Text) : Except YamlError Yaml :=
  if text.all isAllowed then
    (Document.ofTokens (tokens (unifyLines text))).bind Document.value
  else .error .malformed

end CurrencyPad.Yaml

import CurrencyPad.Text.Table
import CurrencyPad.Yaml.Tag
import CurrencyPad.Yaml.Token

/-!
# Documents

A document is a node with the nodes in it: scalars, sequences and mappings. A
node may have a name, under which aliases refer to it, also from within itself.
-/

namespace CurrencyPad.Yaml

inductive Node where
  | scalar (tag : Tag) (points : List Nat)
  | sequence (tag : Tag) (items : List Node)
  | mapping (tag : Tag) (entries : List (Node × Node))
  /-- The node with a name. -/
  | alias (name : Text)
deriving Repr, Inhabited

namespace Node

def empty : Node := .scalar .null []

/-- The type of a node; that of an alias is known from the document only. -/
def tag : Node → Tag
  | .scalar tag _ => tag
  | .sequence tag _ => tag
  | .mapping tag _ => tag
  | .alias _ => .unknown

/-- A node as a key: a key that would stand for its mapping is a string. -/
def asKey : Node → Node
  | .scalar .standIn points => .scalar .string points
  | .sequence .standIn items => .sequence .string items
  | .mapping .standIn entries => .mapping .string entries
  | node => node

end Node

structure Document where
  root : Node
  /-- The nodes that have a name. -/
  parts : Table Node
  /-- The number of tokens that it was read from. It bounds the depth of the
  document. -/
  size : Nat

/-- The tokens that are still to be read, and the nodes read so far that have a
name. -/
structure Outline where
  tokens : List Token
  /-- The names that are given, also to nodes that are being read. -/
  names : List Text
  parts : Table Node

inductive Place where
  /-- Inside brackets, where no block collection may start. -/
  | flow
  | block
  /-- At a key or a value of a block mapping, where a sequence need not be
  indented. -/
  | entry
deriving DecidableEq, Repr

structure Properties where
  name : Option Text
  tag : Option Text

namespace Properties

/-- The tag that leaves the type to the form of the node. -/
def openTag : Text := ['!']

/-- The type of a collection, given the one that its form tells. -/
def collectionTag (properties : Properties) (form : Tag) : Tag :=
  match properties.tag with
  | none => form
  | some tag => if tag = openTag then form else Tag.ofName tag

def scalarTag (properties : Properties) (points : List Nat) (plain : Bool) :
    Tag :=
  let spelled :=
    if points.any Text.isHalf then .string else Tag.ofText (points.map Char.ofNat)
  match properties.tag with
  | none => if plain then spelled else .string
  | some tag => if tag = openTag then spelled else Tag.ofName tag

end Properties

/-- Whether the key or value of a block mapping is left out before a token. -/
def Token.endsBlockPart : Token → Bool
  | .key => true
  | .value => true
  | .blockEnd => true
  | _ => false

/-- Whether an item of an indented sequence is left out before a token. -/
def Token.endsItem : Token → Bool
  | .item => true
  | .blockEnd => true
  | _ => false

/-- Whether a value inside brackets is left out before a token. -/
def Token.endsFlowValue : Token → Bool
  | .comma => true
  | .flowSequenceEnd => true
  | .flowMappingEnd => true
  | _ => false

/-- Whether a token stands at the start or the end of a document. -/
def Token.endsDocument : Token → Bool
  | .directive _ => true
  | .documentStart => true
  | .documentEnd => true
  | .streamEnd => true
  | _ => false

namespace Outline

def next (outline : Outline) : Token :=
  outline.tokens.headD .streamEnd

def skip (outline : Outline) : Outline :=
  { outline with tokens := outline.tokens.drop 1 }

/-- Why the next token cannot stand where it does. -/
def fail {α : Type} (outline : Outline) : Except YamlError α :=
  match outline.next with
  | .fault error => .error error
  | _ => .error .malformed

def declare (name : Option Text) (outline : Outline) : Except YamlError Outline :=
  match name with
  | none => .ok outline
  | some name =>
    if outline.names.contains name then .error .malformed
    else .ok { outline with names := name :: outline.names }

def define (name : Option Text) (node : Node) (outline : Outline) : Outline :=
  match name with
  | none => outline
  | some name => { outline with parts := outline.parts.set name node }

def tagName (handles : Table Text) (handle : Option Text) (suffix : Text) :
    Except YamlError Text :=
  match handle with
  | none => .ok suffix
  | some handle =>
    match handles.get? handle with
    | some start => .ok (start ++ suffix)
    | none => .error .malformed

def readProperties (handles : Table Text) (outline : Outline) :
    Except YamlError (Properties × Outline) := do
  let named (name : Option Text) (outline : Outline) : Option Text × Outline :=
    match name, outline.next with
    | none, .anchor name => (some name, outline.skip)
    | name, _ => (name, outline)
  let (name, outline) := named none outline
  match outline.next with
  | .tag handle suffix => do
    let outline := outline.skip
    match name, outline.next with
    | none, .fault error => throw error
    | _, _ =>
      let tag ← tagName handles handle suffix
      let (name, outline) := named name outline
      return (⟨name, some tag⟩, outline)
  | _ => return (⟨name, none⟩, outline)

/-- Passes over the comma after a part of a flow collection; at the end there
need not be one. -/
def skipComma (isEnd : Token → Bool) (outline : Outline) :
    Except YamlError Outline :=
  match outline.next with
  | .comma => .ok outline.skip
  | token => if isEnd token then .ok outline else outline.fail

def isSequenceEnd : Token → Bool
  | .flowSequenceEnd => true
  | _ => false

def isMappingEnd : Token → Bool
  | .flowMappingEnd => true
  | _ => false

mutual

def readNode (handles : Table Text) :
    Nat → Place → Outline → Except YamlError (Node × Outline)
  | 0, _, _ => .error .malformed
  | steps + 1, place, outline =>
    match outline.next with
    | .alias name =>
      if outline.names.contains name then .ok (.alias name, outline.skip)
      else .error .malformed
    | _ => do
      let (properties, outline) ← outline.readProperties handles
      readContent handles steps place properties outline

/-- Reads a node after its properties. With properties it may be left out. -/
def readContent (handles : Table Text) : Nat → Place → Properties → Outline →
    Except YamlError (Node × Outline)
  | 0, _, _, _ => .error .malformed
  | steps + 1, place, properties, outline => do
    let named (node : Node) (outline : Outline) : Node × Outline :=
      (node, outline.define properties.name node)
    let inner := outline.declare properties.name
    let sequence (items : List Node) : Node :=
      .sequence (properties.collectionTag .sequence) items
    let mapping (entries : List (Node × Node)) : Node :=
      .mapping (properties.collectionTag .mapping) entries
    match outline.next, place with
    | .item, .entry => do
      let (items, outline) ← readUnindented handles steps [] (← inner)
      return named (sequence items) outline
    | .scalar points plain, _ => do
      return named (.scalar (properties.scalarTag points plain) points)
        (← inner).skip
    | .flowSequenceStart, _ => do
      let (items, outline) ← readFlowItems handles steps [] (← inner).skip
      return named (sequence items) outline
    | .flowMappingStart, _ => do
      let (entries, outline) ← readFlowEntries handles steps [] (← inner).skip
      return named (mapping entries) outline
    | .sequenceStart, place =>
      if place = .flow then outline.fail
      else do
        let (items, outline) ← readItems handles steps [] (← inner).skip
        return named (sequence items) outline
    | .mappingStart, place =>
      if place = .flow then outline.fail
      else do
        let (entries, outline) ← readEntries handles steps [] (← inner).skip
        return named (mapping entries) outline
    | .fault error, _ => .error error
    | _, _ =>
      if properties.name.isNone && properties.tag.isNone then outline.fail
      else return named (.scalar (properties.scalarTag [] true) []) (← inner)

def readPart (handles : Table Text) : Nat → Place → (Token → Bool) → Outline →
    Except YamlError (Node × Outline)
  | 0, _, _, _ => .error .malformed
  | steps + 1, place, isEnd, outline =>
    if isEnd outline.next then .ok (Node.empty, outline)
    else readNode handles steps place outline

def readValue (handles : Table Text) : Nat → Place → (Token → Bool) → Outline →
    Except YamlError (Node × Outline)
  | 0, _, _, _ => .error .malformed
  | steps + 1, place, isEnd, outline =>
    match outline.next with
    | .value => readPart handles steps place isEnd outline.skip
    | _ => .ok (Node.empty, outline)

/-- Reads the items of an indented sequence after those already read, which come
in reverse order. -/
def readItems (handles : Table Text) : Nat → List Node → Outline →
    Except YamlError (List Node × Outline)
  | 0, _, _ => .error .malformed
  | steps + 1, before, outline =>
    match outline.next with
    | .item => do
      let (item, outline) ←
        readPart handles steps .block Token.endsItem outline.skip
      readItems handles steps (item :: before) outline
    | .blockEnd => .ok (before.reverse, outline.skip)
    | _ => outline.fail

/-- Reads the items of a sequence in the column of the mapping around it. -/
def readUnindented (handles : Table Text) : Nat → List Node → Outline →
    Except YamlError (List Node × Outline)
  | 0, _, _ => .error .malformed
  | steps + 1, before, outline =>
    match outline.next with
    | .item => do
      let isEnd := fun token => Token.endsItem token || Token.endsBlockPart token
      let (item, outline) ← readPart handles steps .block isEnd outline.skip
      readUnindented handles steps (item :: before) outline
    | _ => .ok (before.reverse, outline)

def readEntries (handles : Table Text) :
    Nat → List (Node × Node) → Outline →
      Except YamlError (List (Node × Node) × Outline)
  | 0, _, _ => .error .malformed
  | steps + 1, before, outline =>
    match outline.next with
    | .key => do
      let (key, outline) ←
        readPart handles steps .entry Token.endsBlockPart outline.skip
      let (value, outline) ←
        readValue handles steps .entry Token.endsBlockPart outline
      readEntries handles steps ((key, value) :: before) outline
    | .blockEnd => .ok (before.reverse, outline.skip)
    | _ => outline.fail

/-- Reads an entry inside brackets. Without a mark of a key it is a key alone. -/
def readFlowEntry (handles : Table Text) : Nat → Outline →
    Except YamlError ((Node × Node) × Outline)
  | 0, _ => .error .malformed
  | steps + 1, outline =>
    match outline.next with
    | .key => do
      let isEnd := fun token =>
        Token.endsFlowValue token ||
          (match token with | .value => true | _ => false)
      let (key, outline) ← readPart handles steps .flow isEnd outline.skip
      let (value, outline) ←
        readValue handles steps .flow Token.endsFlowValue outline
      return ((key, value), outline)
    | _ => do
      let (key, outline) ← readNode handles steps .flow outline
      return ((key, Node.empty), outline)

/-- Reads the items of a flow sequence. An item with a colon is a mapping with
one entry. -/
def readFlowItems (handles : Table Text) : Nat → List Node → Outline →
    Except YamlError (List Node × Outline)
  | 0, _, _ => .error .malformed
  | steps + 1, before, outline =>
    match outline.next with
    | .flowSequenceEnd => .ok (before.reverse, outline.skip)
    | .key => do
      let (entry, outline) ← readFlowEntry handles steps outline
      readFlowItems handles steps (.mapping .mapping [entry] :: before)
        (← outline.skipComma isSequenceEnd)
    | _ => do
      let (item, outline) ← readNode handles steps .flow outline
      readFlowItems handles steps (item :: before)
        (← outline.skipComma isSequenceEnd)

def readFlowEntries (handles : Table Text) :
    Nat → List (Node × Node) → Outline →
      Except YamlError (List (Node × Node) × Outline)
  | 0, _, _ => .error .malformed
  | steps + 1, before, outline =>
    match outline.next with
    | .flowMappingEnd => .ok (before.reverse, outline.skip)
    | _ => do
      let (entry, outline) ← readFlowEntry handles steps outline
      readFlowEntries handles steps (entry :: before)
        (← outline.skipComma isMappingEnd)

end

def defaultHandles : Table Text :=
  [(['!'], ['!']), (['!', '!'], Tag.domain)]

/-- Reads the directives at the head of a document, after the given handles; a
version may have been told before. The handles that are known anyway come
last. -/
def readDirectives :
    Bool → Table Text → List Token → Except YamlError (Table Text × List Token)
  | versioned, handles, .directive directive :: rest =>
    match directive with
    | .version major _ =>
      if versioned || major != 1 then .error .malformed
      else readDirectives true handles rest
    | .tag handle start =>
      if (handles.get? handle).isSome then .error .malformed
      else readDirectives versioned (handles ++ [(handle, start)]) rest
    | .other => readDirectives versioned handles rest
  | _, handles, tokens => .ok (handles ++ defaultHandles, tokens)

/-- Passes over the marks of the end of a document. -/
def skipEnds (outline : Outline) : Outline :=
  { outline with
    tokens := outline.tokens.dropWhile fun token =>
      match token with
      | .documentEnd => true
      | _ => false }

/-- The document of tokens that are read with some handles, if nothing follows
it. What follows may be the head of another document, in which there may be a
fault as well. -/
def toDocument (handles : Table Text) (isEnd : Token → Bool) (outline : Outline) :
    Except YamlError Document := do
  let steps := 4 * outline.tokens.length + 4
  let (root, outline) ← readPart handles steps .block isEnd outline
  let after := outline.skipEnds
  match after.next with
  | .streamEnd => return { root, parts := outline.parts, size := steps }
  | _ => do
    let (_, rest) ← readDirectives false [] after.tokens
    Outline.fail { after with tokens := rest }

end Outline

namespace Document

/-- The document of some tokens. A text without any has an empty document. -/
def ofTokens (tokens : List Token) : Except YamlError Document := do
  let outline (tokens : List Token) : Outline := ⟨tokens, [], []⟩
  let withHead := do
    let (handles, rest) ← Outline.readDirectives false [] tokens
    match rest with
    | .documentStart :: content =>
      (outline content).toDocument handles Token.endsDocument
    | rest => (outline rest).fail
  match tokens with
  | .directive _ :: _ => withHead
  | .documentStart :: _ => withHead
  | _ =>
    (outline tokens).toDocument Outline.defaultHandles fun token =>
      match token with
      | .streamEnd => true
      | _ => false

end Document

end CurrencyPad.Yaml

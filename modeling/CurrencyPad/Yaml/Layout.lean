import CurrencyPad.Yaml.Block
import CurrencyPad.Yaml.Plain
import CurrencyPad.Yaml.Property
import CurrencyPad.Yaml.Quoted

/-!
# From a text to its tokens

The text is read token by token. Block collections start and end with the column
of their parts. What stands before a colon turns out to be a key only when the
colon is reached, so that the place of the last token that may be a key is kept
for every open bracket; a key and its colon are on one line and at most 1024
characters apart.
-/

namespace CurrencyPad.Yaml

/-- A token that is a key if a colon follows. -/
structure PossibleKey where
  /-- The number of tokens before it. -/
  index : Nat
  start : Cursor
  /-- Whether nothing but a key may stand there. -/
  isRequired : Bool

structure Layout where
  cursor : Cursor
  /-- The tokens so far, the last one first. -/
  tokens : List Token
  /-- The column of the innermost open block collection; −1 outside of all of
  them. -/
  indent : Int
  /-- The columns of the block collections around it. -/
  outer : List Int
  /-- Whether a key may start here. -/
  keyAllowed : Bool
  /-- The possible key inside the innermost open bracket, or in the block if
  none is open. -/
  key : Option PossibleKey
  /-- The possible keys outside of the open brackets, one for each of them. -/
  outerKeys : List (Option PossibleKey)

namespace Layout

/-- The greatest number of characters between the start of a key and its colon. -/
def keyReach : Nat := 1024

def start (text : Text) : Layout :=
  { cursor := Cursor.start text, tokens := [], indent := -1, outer := [],
    keyAllowed := true,
    key := none, outerKeys := [] }

def inFlow (layout : Layout) : Bool :=
  !layout.outerKeys.isEmpty

def push (layout : Layout) (token : Token) : Layout :=
  { layout with tokens := token :: layout.tokens }

def insert (layout : Layout) (index : Nat) (token : Token) : Layout :=
  let later := layout.tokens.length - index
  { layout with
    tokens := layout.tokens.take later ++ token :: layout.tokens.drop later }

/-- Ends block collections until one of them stands at the given column or to
the left of it. -/
def unwindWithin : List Int → Int → Layout → Layout
  | [], _, layout => layout
  | column :: outer, target, layout =>
    if target < layout.indent then
      unwindWithin outer target
        { layout.push .blockEnd with indent := column, outer := outer }
    else layout

/-- Ends the block collections to the right of a column. Inside brackets columns
do not count. -/
def unwind (target : Int) (layout : Layout) : Layout :=
  if layout.inFlow then layout else unwindWithin layout.outer target layout

/-- Opens a block collection at a column to the right of the innermost one, with
a token before the token with the given number. -/
def openBlock (column index : Nat) (token : Token) (layout : Layout) : Layout :=
  if !layout.inFlow && layout.indent < column then
    { layout.insert index token with
      indent := column, outer := layout.indent :: layout.outer }
  else layout

def openBlockHere (token : Token) (layout : Layout) : Layout :=
  layout.openBlock layout.cursor.column layout.tokens.length token

/-- Gives up the possible key; it must not be required. -/
def dropKey (layout : Layout) : Except YamlError Layout :=
  if layout.key.any (·.isRequired) then .error .malformed
  else .ok { layout with key := none }

/-- Whether a key can no longer be followed by its colon. -/
def PossibleKey.isStale (key : PossibleKey) (cursor : Cursor) : Bool :=
  key.start.line != cursor.line || keyReach < cursor.position - key.start.position

/-- A possible key that may have become too old; a required one must not. -/
def refreshKey (cursor : Cursor) (key : Option PossibleKey) :
    Except YamlError (Option PossibleKey) :=
  match key with
  | none => .ok none
  | some key =>
    if !PossibleKey.isStale key cursor then .ok (some key)
    else if key.isRequired then .error .malformed
    else .ok none

/-- Gives up the possible keys that have become too old. -/
def refreshKeys (layout : Layout) : Except YamlError Layout := do
  let outerKeys ← layout.outerKeys.mapM (refreshKey layout.cursor)
  let key ← refreshKey layout.cursor layout.key
  return { layout with key, outerKeys }

/-- Marks the next token as a possible key if one may stand here. -/
def markKey (layout : Layout) : Except YamlError Layout :=
  if layout.keyAllowed then do
    let layout ← layout.dropKey
    let isRequired := !layout.inFlow && layout.indent == layout.cursor.column
    return { layout with
      key := some
        { index := layout.tokens.length, start := layout.cursor, isRequired } }
  else .ok layout

def pushSign (token : Token) (width : Nat) (layout : Layout) : Layout :=
  { layout.push token with cursor := layout.cursor.advance width }

/-- Adds a token that was read together with the place after it. -/
def pushScan (layout : Layout) (read : Scan Token) : Except YamlError Layout :=
  read.map fun (token, after) => { layout.push token with cursor := after }

/-- Ends what the document holds, before a token that belongs to no document. -/
def leaveDocument (layout : Layout) : Except YamlError Layout := do
  let layout ← (layout.unwind (-1)).dropKey
  return { layout with keyAllowed := false }

def openBracket (token : Token) (layout : Layout) : Except YamlError Layout := do
  let layout ← layout.markKey
  return { layout.pushSign token 1 with
    keyAllowed := true, key := none, outerKeys := layout.key :: layout.outerKeys }

def closeBracket (token : Token) (layout : Layout) : Except YamlError Layout := do
  let layout ← layout.dropKey
  match layout.outerKeys with
  | [] => throw .malformed
  | key :: outerKeys =>
    return { layout.pushSign token 1 with keyAllowed := false, key, outerKeys }

def readComma (layout : Layout) : Except YamlError Layout := do
  let layout ← layout.dropKey
  return { layout.pushSign .comma 1 with keyAllowed := true }

/-- The layout itself if a block collection may be opened or go on here. -/
def requireKeyAllowed (layout : Layout) : Except YamlError Layout :=
  if !layout.inFlow && !layout.keyAllowed then .error .malformed else .ok layout

def readItem (layout : Layout) : Except YamlError Layout := do
  let layout ← layout.requireKeyAllowed
  let layout ← (layout.openBlockHere .sequenceStart).dropKey
  return { layout.pushSign .item 1 with keyAllowed := true }

def readKey (layout : Layout) : Except YamlError Layout := do
  let layout ← layout.requireKeyAllowed
  let layout ← (layout.openBlockHere .mappingStart).dropKey
  return { layout.pushSign .key 1 with keyAllowed := !layout.inFlow }

/-- Reads the colon before a value. If there is a possible key, it is a key. -/
def readValue (layout : Layout) : Except YamlError Layout :=
  match layout.key with
  | some key =>
    let layout :=
      { layout.insert key.index .key with key := none, keyAllowed := false }
    .ok
      ((layout.openBlock key.start.column key.index .mappingStart).pushSign
        .value 1)
  | none => do
    let layout ← layout.requireKeyAllowed
    let layout := layout.openBlockHere .mappingStart
    return { layout.pushSign .value 1 with keyAllowed := !layout.inFlow }

/-- Reads a token that may be a key, or stand before one. -/
def readNode (read : Cursor → Scan Token) (layout : Layout) :
    Except YamlError Layout := do
  let layout ← layout.markKey
  { layout with keyAllowed := false }.pushScan (read layout.cursor)

/-- Reads a scalar without quotes. After a line end a key may start. -/
def readPlain (layout : Layout) : Except YamlError Layout := do
  let layout ← layout.markKey
  let (token, after, sawBreak) :=
    Plain.scan layout.inFlow layout.indent layout.cursor
  return { layout.push token with cursor := after, keyAllowed := sawBreak }

def readBlock (layout : Layout) : Except YamlError Layout := do
  let layout ← layout.dropKey
  { layout with keyAllowed := true }.pushScan
    (Block.scan layout.indent layout.cursor)

def readName (token : Text → Token) (cursor : Cursor) : Scan Token :=
  (Property.name cursor).map fun (name, after) => (token name, after)

/-- Whether an indicator stands here by itself. Inside brackets two of them may
stand anywhere. -/
def atIndicator (layout : Layout) (c : Char) : Bool :=
  layout.cursor.peek == some c &&
    (endsToken layout.cursor.next.peek ||
      (layout.inFlow && (c == '?' || c == ':')))

def readToken (c : Char) (layout : Layout) : Except YamlError Layout :=
  let atStart := layout.cursor.column = 0
  if atStart ∧ c = '%' then do
    let layout ← layout.leaveDocument
    layout.pushScan (Property.directive layout.cursor)
  else if atStart ∧ layout.cursor.atMarker '-' then
    (layout.leaveDocument).map (pushSign .documentStart 3)
  else if atStart ∧ layout.cursor.atMarker '.' then
    (layout.leaveDocument).map (pushSign .documentEnd 3)
  else if c = '[' then layout.openBracket .flowSequenceStart
  else if c = '\x7b' then layout.openBracket .flowMappingStart
  else if c = ']' then layout.closeBracket .flowSequenceEnd
  else if c = '\x7d' then layout.closeBracket .flowMappingEnd
  else if c = ',' then layout.readComma
  else if layout.atIndicator '-' then layout.readItem
  else if layout.atIndicator '?' then layout.readKey
  else if layout.atIndicator ':' then layout.readValue
  else if c = '*' then layout.readNode (readName .alias)
  else if c = '&' then layout.readNode (readName .anchor)
  else if c = '!' then layout.readNode Property.tag
  else if (c = '|' ∨ c = '>') ∧ !layout.inFlow then layout.readBlock
  else if c = '\x27' ∨ c = '\x22' then layout.readNode Quoted.scan
  else if Plain.startsHere layout.inFlow layout.cursor then layout.readPlain
  else .error .malformed

/-- Passes over white space and ends the block collections that end before the
next token. -/
def approach (layout : Layout) : Except YamlError Layout := do
  let (cursor, sawBreak) := layout.cursor.skip
  let keyAllowed := layout.keyAllowed || (sawBreak && !layout.inFlow)
  let layout ← refreshKeys { layout with cursor, keyAllowed }
  return layout.unwind cursor.column

/-- Reads the next token; the answer tells whether the text ends there. -/
def step (layout : Layout) : Except YamlError (Bool × Layout) := do
  let layout ← layout.approach
  match layout.cursor.peek with
  | some c => return (false, ← layout.readToken c)
  | none => return (true, (← layout.leaveDocument).push .streamEnd)

/-- The number of tokens that are certain: none of them is or stands behind a
possible key, which may still get another token in front of it. -/
def certainCount (layout : Layout) : Nat :=
  let open_ := (layout.key :: layout.outerKeys).filterMap id
  let possible := open_.filter fun key =>
    key.isRequired || !PossibleKey.isStale key layout.cursor
  (possible.map (·.index)).foldl Nat.min layout.tokens.length

/-- The tokens that are certain, and behind them why the text cannot be read any
further. -/
def stopped (layout : Layout) (error : YamlError) : List Token :=
  layout.tokens.reverse.take layout.certainCount ++ [.fault error]

/-- The tokens from a place on, within a number of steps. Where the text cannot
be read any further, the last token tells why. -/
def tokensFrom : Nat → Layout → List Token
  | 0, layout => layout.stopped .malformed
  | steps + 1, layout =>
    match layout.step with
    | .error error => layout.stopped error
    | .ok (true, after) => after.tokens.reverse
    | .ok (false, after) => tokensFrom steps after

end Layout

def tokens (text : Text) : List Token :=
  Layout.tokensFrom (text.length + 1) (Layout.start text)

end CurrencyPad.Yaml

import CurrencyPad.Yaml.Cursor
import CurrencyPad.Yaml.Error

/-!
# Tokens of YAML

What a text is made of before its structure is known. The start and the end of a
block collection are told by indentation; they are tokens all the same.
-/

namespace CurrencyPad.Yaml

/-- A line at the head of a document that is not part of it. -/
inductive Directive where
  | version (major minor : Nat)
  /-- What a handle at the start of a tag stands for. -/
  | tag (handle replaced : Text)
  /-- A line that is passed over. -/
  | other
deriving Repr

inductive Token where
  | directive (directive : Directive)
  | documentStart
  | documentEnd
  | streamEnd
  | sequenceStart
  | mappingStart
  | blockEnd
  | flowSequenceStart
  | flowSequenceEnd
  | flowMappingStart
  | flowMappingEnd
  /-- The hyphen before an item of a block sequence. -/
  | item
  /-- The comma between the parts of a flow collection. -/
  | comma
  | key
  | value
  | alias (name : Text)
  | anchor (name : Text)
  /-- A tag in two parts; a tag that is written out has no handle. -/
  | tag (handle : Option Text) (suffix : Text)
  | scalar (points : List Nat) (plain : Bool)
  /-- The text cannot be read any further. -/
  | fault (error : YamlError)
deriving Repr

namespace Token

def ofText (text : Text) (plain : Bool) : Token :=
  .scalar (text.map Char.toNat) plain

end Token

/-- What is read from a place, and the place after it. -/
abbrev Scan (α : Type) := Except YamlError (α × Cursor)

end CurrencyPad.Yaml

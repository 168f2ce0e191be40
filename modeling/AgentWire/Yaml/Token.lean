/-!
# Tokens — the marks and texts that a document consists of

Indentation is told by tokens too: a list or a mapping that is written without brackets begins
with a token of its own and ends with `blockEnd`.
-/

namespace AgentWire.Yaml

/-- A token of a document. -/
inductive Token where
  /-- A line that states the version of the language. -/
  | version (major minor : Nat)
  /-- A line that declares a handle for tags. -/
  | tagHandle (handle : String)
  | documentStart
  | documentEnd
  | blockList
  | blockMapping
  | blockEnd
  | flowListStart
  | flowListEnd
  | flowMappingStart
  | flowMappingEnd
  /-- The comma between the parts of something in brackets. -/
  | comma
  /-- The hyphen before an item of a list. -/
  | dash
  /-- What follows is a key. -/
  | key
  /-- What follows is the value of a key. -/
  | value
  | alias (name : String)
  | anchor (name : String)
  /-- A tag, with its handle where that has to be declared. -/
  | tag (handle : Option String)
  | scalar (text : String)
deriving DecidableEq

end AgentWire.Yaml

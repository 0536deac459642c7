import DsdlHeaders.Text.Blank
import DsdlHeaders.Text.Search

/-!
# Tags and their attributes

The content of a tag is a name, which reaches up to the first gap and may be empty, and a list of
attributes `key="value"` or `key='value'`. Values are taken as they stand; nothing is decoded.

Attributes are read leniently: what does not look like an attribute is passed over and reading goes
on. The rules are those of a small automaton over the characters (`AttributeState`):

* a key without `=` is passed over, and the next character that is no gap starts a new key;
* a value without quotes, or a key that was read before, is passed over up to the next gap;
* after a quoted value a new key may follow at once.

A key counts as read before as soon as its `=` was seen, whether its value was good or not.
-/

namespace DsdlHeaders.Markup

/-- One attribute of a tag. -/
structure Attribute where
  key : String
  value : String
deriving DecidableEq, Repr

/-- A start tag or an empty-element tag. -/
structure Tag where
  name : String
  attributes : List Attribute
deriving DecidableEq, Repr

/-! ## Reading attributes -/

/-- Where the reader of attributes stands. Collected characters are in reverse order. -/
inductive AttributeState where
  /-- Before a key. -/
  | between
  /-- Inside a key. -/
  | inKey (key : List Char)
  /-- After a key and a gap. -/
  | afterKey (key : List Char)
  /-- After the `=` of a new key. -/
  | beforeValue (key : String)
  /-- Inside a quoted value. -/
  | inValue (key : String) (quote : Char) (value : List Char)
  /-- Passing over something that is no attribute. -/
  | passing

/-- Characters that open and close a value. -/
def isQuote (c : Char) : Bool :=
  c == '"' || c == '\''

/-- Reads attributes from a state on, where `seen` are the keys that were read before. -/
def attributesFrom : (seen : List String) → AttributeState → List Char → List Attribute
  | _, _, [] => []
  | seen, .between, c :: s =>
    if Text.isGap c then attributesFrom seen .between s
    else attributesFrom seen (.inKey [c]) s
  | seen, .inKey key, c :: s =>
    if c = '=' then
      let name := String.ofList key.reverse
      if name ∈ seen then attributesFrom seen .passing s
      else attributesFrom (name :: seen) (.beforeValue name) s
    else if Text.isGap c then attributesFrom seen (.afterKey key) s
    else attributesFrom seen (.inKey (c :: key)) s
  | seen, .afterKey key, c :: s =>
    if c = '=' then
      let name := String.ofList key.reverse
      if name ∈ seen then attributesFrom seen .passing s
      else attributesFrom (name :: seen) (.beforeValue name) s
    else if Text.isGap c then attributesFrom seen (.afterKey key) s
    else attributesFrom seen (.inKey [c]) s
  | seen, .beforeValue key, c :: s =>
    if Text.isGap c then attributesFrom seen (.beforeValue key) s
    else if isQuote c then attributesFrom seen (.inValue key c []) s
    else attributesFrom seen .passing s
  | seen, .inValue key quote value, c :: s =>
    if c = quote then
      ⟨key, String.ofList value.reverse⟩ :: attributesFrom seen .between s
    else attributesFrom seen (.inValue key quote (c :: value)) s
  | seen, .passing, c :: s =>
    if Text.isGap c then attributesFrom seen .between s else attributesFrom seen .passing s

/-- Attributes that are not finished at the end of the text are dropped. -/
theorem attributesFrom_nil (seen : List String) (state : AttributeState) :
    attributesFrom seen state [] = [] := by
  rw [attributesFrom]

/-- The tag with the given content. -/
def Tag.ofContent (content : List Char) : Tag :=
  let isName := fun c => !Text.isGap c
  ⟨String.ofList (content.takeWhile isName),
    attributesFrom [] .between (content.dropWhile isName)⟩

/-! ## Looking up attributes -/

/-- The value of an attribute. -/
def Tag.get? (tag : Tag) (key : String) : Option String :=
  (tag.attributes.find? (·.key = key)).map Attribute.value

end DsdlHeaders.Markup

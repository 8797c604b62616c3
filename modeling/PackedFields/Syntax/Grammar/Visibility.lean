import PackedFields.Syntax.Item
import PackedFields.Syntax.Parser

/-!
# The grammar of visibilities
-/

namespace PackedFields.Parser

/-- Reads what stands in the parentheses after `pub`, if it restricts who may use the item. -/
def restriction : Parser SourceVisibility := do
  if ← wordNext "in" then
    let _ ← anyToken
    return .withinPath (← path)
  else
    let (n, _) ← anyName
    return .within n.text

/-- Whether the parentheses at the start restrict a visibility. One word in parentheses does, but
not a path, which would be the type of a field. -/
def startsRestriction : List Token → Bool
  | .group .paren inner _ _ :: _ =>
    startsWord "in" inner ||
      (inner.length == 1 && startsWordOf ["crate", "self", "super"] inner)
  | _ => false

/-- Reads a visibility, which may be empty. -/
def visibility : Parser SourceVisibility := do
  if ← wordNext "pub" then
    let _ ← anyToken
    if ← ahead startsRestriction then return (← group .paren restriction).1
    else return .everyone
  else return .inherited

/-- The tokens after a visibility, if one stands at the start. -/
def skipVisibility (ts : List Token) : List Token :=
  if startsWord "pub" ts then
    if startsRestriction ts.tail then ts.tail.tail else ts.tail
  else ts

/-- The tokens after attributes, if any stand at the start. -/
def skipAttributes : List Token → List Token
  | .punct '#' _ _ :: .group .bracket _ _ _ :: ts => skipAttributes ts
  | ts => ts

end PackedFields.Parser

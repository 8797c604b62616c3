import PackedFields.Syntax.Grammar
import PackedFields.Token.Tree

/-!
# Types in streams

A type that was handed on by a macro stands in a group without visible delimiters, and is read there
to its end (`SourceType.unseen`). So it is in parentheses. Any other type is read from flat tokens.
Deeper inside of a type, where it cannot be the type of values any more, no difference is made.
-/

namespace PackedFields

open PackedFields.Parser

/-- Reads a group without visible delimiters by `x`: its tokens are `inner`, it ends at `closing`,
and `rest` is what comes after it. -/
def Parser.unseenGroup {α : Type} (inner rest : List Token) (closing : Span) (x : Parser α) :
    Parser α := fun c =>
  match x ⟨inner, closing, c.stray⟩ with
  | .error e => .error e
  | .ok (a, c') => .ok (a, ⟨rest, c.stop, c'.stray <|> leftover? none c'.rest⟩)

/-- Reads a type that starts with parentheses, where `type` reads the type in them. -/
def Parser.parensBy (type : Parser SourceType) : Parser SourceType := do
  let (i, opening, closing) ← Parser.group .paren (type >>= insideAfter)
  afterParens i opening closing

namespace TokenTree

/-- Whether a type in parentheses is known by its first token already, whatever holds it. -/
def startsBound (ts : List Token) : Bool := startsLifetime ts || startsMark "?" ts

mutual

/-- Reads the type that starts at a tree, from the flat tokens of the tree and of all that comes
after it, `rest`. -/
def typeAt (rest : List Token) : TokenTree → Parser SourceType
  | unseen inner closing => do
    let t ← unseenGroup (flat inner) rest closing (typeOf inner)
    afterUnseen t
  | group .paren inner _ _ =>
    if startsUnseen inner && !startsBound (flat inner) then parensBy (typeOf inner)
    else Parser.type true
  | _ => Parser.type true

/-- Reads the type at the start of a stream, from its flat tokens. -/
def typeOf : List TokenTree → Parser SourceType
  | t :: ts => typeAt (flat ts) t
  | [] => Parser.type true

end

/-- Of source text the type is read as it is written. -/
theorem typeOf_of_startsUnseen {ts : List TokenTree} (h : startsUnseen ts = false) :
    typeOf ts = Parser.type true := by
  cases ts with
  | nil => rfl
  | cons t ts =>
    rw [startsUnseen] at h
    rw [typeOf]
    cases t with
    | ident | punct | literal => rfl
    | unseen => cases h
    | group d inner o c =>
      cases d with
      | paren =>
        rw [opensUnseen] at h
        rw [typeAt, h]
        rfl
      | bracket | brace => rfl

end TokenTree

end PackedFields

import PackedFields.Token

/-!
# Streams of tokens

What another macro hands on can stand in a group without visible delimiters: if the pattern
`$t : ty` was matched by `bool`, then `$t` is a group of that kind with the name `bool` in it. A
stream can hold such groups at any place, and source text none.

Readers go into such a group and out of it as if it were not there, and so a stream is as good as
its flat tokens to them. Only where a type is asked for does it matter that one stands next.
-/

namespace PackedFields

/-- A token of a stream. -/
inductive TokenTree where
  /-- An identifier or a keyword. -/
  | ident (name : Name) (span : Span)
  /-- A punctuation character. -/
  | punct (mark : Char) (joint : Bool) (span : Span)
  /-- A literal, by its spelling. -/
  | literal (spelling : String) (span : Span)
  /-- A delimited group, with the places of its two delimiters. -/
  | group (delimiter : Delimiter) (inner : List TokenTree) (opening closing : Span)
  /-- A group without visible delimiters, with the place where it ends. -/
  | unseen (inner : List TokenTree) (closing : Span)
  deriving Repr, Inhabited

namespace TokenTree

mutual

/-- The tokens of a tree, with nothing left of groups without visible delimiters. -/
def tokens : TokenTree → List Token
  | ident n s => [.ident n s]
  | punct mark joint s => [.punct mark joint s]
  | literal spelling s => [.literal spelling s]
  | group d inner o c => [.group d (flat inner) o c]
  | unseen inner _ => flat inner

/-- The tokens of a stream. -/
def flat : List TokenTree → List Token
  | [] => []
  | t :: ts => tokens t ++ flat ts

end

mutual

/-- A token of source text as one of a stream. -/
def ofToken : Token → TokenTree
  | .ident n s => ident n s
  | .punct mark joint s => punct mark joint s
  | .literal spelling s => literal spelling s
  | .group d inner o c => group d (ofTokens inner) o c

/-- Source text as a stream. -/
def ofTokens : List Token → List TokenTree
  | [] => []
  | t :: ts => ofToken t :: ofTokens ts

end

mutual

/-- Whether a tree starts with a group without visible delimiters, maybe in parentheses. -/
def opensUnseen : TokenTree → Bool
  | unseen .. => true
  | group .paren inner _ _ => startsUnseen inner
  | _ => false

/-- Whether a stream starts with such a tree. -/
def startsUnseen : List TokenTree → Bool
  | t :: _ => opensUnseen t
  | [] => false

end

mutual

theorem tokens_ofToken : ∀ t : Token, (ofToken t).tokens = [t]
  | .ident .. => rfl
  | .punct .. => rfl
  | .literal .. => rfl
  | .group d inner o c => by rw [ofToken, tokens, flat_ofTokens inner]

/-- Source text is its own flat stream. -/
theorem flat_ofTokens : ∀ ts : List Token, flat (ofTokens ts) = ts
  | [] => rfl
  | t :: ts => by rw [ofTokens, flat, tokens_ofToken t, flat_ofTokens ts, List.singleton_append]

end

mutual

theorem opensUnseen_ofToken : ∀ t : Token, (ofToken t).opensUnseen = false
  | .ident .. => rfl
  | .punct .. => rfl
  | .literal .. => rfl
  | .group .paren inner _ _ => startsUnseen_ofTokens inner
  | .group .bracket .. => rfl
  | .group .brace .. => rfl

/-- There are no such groups in source text. -/
theorem startsUnseen_ofTokens : ∀ ts : List Token, startsUnseen (ofTokens ts) = false
  | [] => rfl
  | t :: _ => opensUnseen_ofToken t

end

end TokenTree

end PackedFields

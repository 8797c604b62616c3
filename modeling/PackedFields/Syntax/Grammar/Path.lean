import PackedFields.Syntax.Generics
import PackedFields.Syntax.Grammar.Attribute

/-!
# The grammar of paths

The segments of a path can have arguments in angle brackets. Inside of an expression these need a
separator before them, since an angle bracket could be a comparison there.
-/

namespace PackedFields.Grammar

open PackedFields.Parser

variable (g : Grammar)

/-! ## Arguments -/

/-- Whether a single colon stands at the start, which is no part of a separator. -/
def startsColon (ts : List Token) : Bool := startsMark ":" ts && !startsMark "::" ts

/-- Reads bounds with plus signs between them, as `one` reads them, up to what `stop` recognises.
There may be none, and a plus sign after the last. -/
def boundsUntil (one : Parser (List Token)) (stop : List Token → Bool) : Parser (List Token) :=
  tokensWhile do
    if ← ahead stop then return ([], false)
    let b ← one
    if ← markNext "+" then return (b ++ (← mark "+"), true)
    return (b, false)

/-- Reads a bound of a parameter or of an associated type. -/
def paramBound : Parser (List Token) := do return (← g.bound false true).tokens

/-- Whether a constant stands at the start that cannot be taken for a type. -/
def startsConstant (ts : List Token) : Bool := startsLiteral ts || startsGroup .brace ts

/-- Reads the value of a constant parameter. -/
def constArgument : Parser (List Token) := do
  if ← ahead startsLiteral then literal
  else if ← ahead startsName then anyToken
  else if ← groupNext .brace then g.body
  else unexpected

/-- Reads an argument in angle brackets: a lifetime, a constant, a type, or an associated name with
a type, a constant or bounds. Says whether it is a lifetime. -/
def argument : Parser (List Token × Bool) := do
  if ← ahead (fun ts => startsLifetime ts && !startsMark "+" (skipOne ts)) then
    return ((← lifetime).2, true)
  if ← ahead startsConstant then return (← g.constArgument, false)
  let t ← g.type true
  if !t.isSingle then return (t.tokens, false)
  if ← markNext "=" then
    let sign ← mark "="
    let meant ← if ← ahead startsConstant then g.constArgument
      else do pure (← g.type true).tokens
    return (t.tokens ++ sign ++ meant, false)
  if ← markNext ":" then
    let sign ← mark ":"
    let bounds ← boundsUntil g.paramBound (startsMarkOf [",", ">"])
    return (t.tokens ++ sign ++ bounds, false)
  return (t.tokens, false)

/-- Reads arguments in angle brackets. -/
def angleArguments : Parser (List Token) := do
  let opening ← mark "<"
  let args ← commaSeparatedTo ">" g.argument
  return opening ++ lifetimesFirst Prod.snd Prod.fst args ++ (← mark ">")

/-! ## Segments -/

/-- Whether a separator and arguments in angle brackets stand at the start. -/
def startsTurbofish (ts : List Token) : Bool :=
  (dropMark "::".toList ts).any (startsMark "<")

/-- Whether arguments in angle brackets stand at the start. -/
def startsArguments (inExpression : Bool) (ts : List Token) : Bool :=
  startsTurbofish ts ||
    (!inExpression && startsMark "<" ts && !startsMarkOf ["<=", "<<="] ts)

/-- Reads a segment of a path, and says whether it has no arguments. The keywords take none. -/
def segment (inExpression : Bool) : Parser (List Token × Bool) := do
  if ← ahead (startsWordOf ["super", "self", "crate", "try"]) then return (← anyToken, true)
  let n ← if ← wordNext "Self" then anyToken
    else do let (n, s) ← name; pure [Token.ident n s]
  if ← ahead (startsArguments inExpression) then
    let sep ← mark? "::"
    return (n ++ sep ++ (← g.angleArguments), false)
  else return (n, true)

/-- Reads the segments of a path after the first ones, `p`, each with its separator, as long as
`goesOn` holds. -/
def furtherSegments (inExpression : Bool) (goesOn : List Token → Bool) :
    Nat → SourcePath → Parser SourcePath
  | 0, p => return p
  | count + 1, p => do
    if ← ahead goesOn then
      let sep ← mark "::"
      let (s, bare) ← g.segment inExpression
      let longer := { p with
        tokens := p.tokens ++ sep ++ s, single := false, plain := p.plain && bare, bare }
      furtherSegments inExpression goesOn count longer
    else return p

/-! ## Paths -/

/-- Whether a separator stands at the start that parentheses do not follow. -/
def startsFurtherSegment (ts : List Token) : Bool :=
  (dropMark "::".toList ts).any (!startsGroup .paren ·)

/-- Reads a path. -/
def genericPath (inExpression : Bool) : Parser SourcePath := fun c =>
  (do
    let root ← mark? "::"
    let (s, bare) ← g.segment inExpression
    let first := ⟨root ++ s, root.isEmpty, bare, bare, false⟩
    g.furtherSegments inExpression startsFurtherSegment c.rest.length first : Parser _) c

/-- Reads a path that starts at a type in angle brackets, maybe as one that has a trait. -/
def pathFromType (inExpression : Bool) : Parser SourcePath := fun c =>
  (do
    let opening ← mark "<"
    let self := (← g.type true).tokens
    let trait ← if ← wordNext "as" then do
        let kw ← anyToken
        pure (kw ++ (← g.genericPath false).tokens)
      else pure []
    let closing ← mark ">"
    let sep ← mark "::"
    let (s, bare) ← g.segment inExpression
    let first := ⟨opening ++ self ++ trait ++ closing ++ sep ++ s, false, bare, bare, true⟩
    g.furtherSegments inExpression (startsMark "::") c.rest.length first : Parser _) c

/-- Reads a path that may start at a type in angle brackets. -/
def qualifiedPath (inExpression : Bool) : Parser SourcePath := do
  if ← markNext "<" then g.pathFromType inExpression else g.genericPath inExpression

/-- Whether the mark of a macro stands at the start. -/
def startsBang (ts : List Token) : Bool := startsMark "!" ts && !startsMark "!=" ts

/-- Reads what makes the path `p` the use of a macro, if it is one: the mark and the input. -/
def macroInput? (p : SourcePath) : Parser (Option (List Token)) := do
  if !p.qualified && p.plain && (← ahead startsBang) then
    let bang ← mark "!"
    return some (bang ++ (← anyGroup))
  else return none

end PackedFields.Grammar

import PackedFields.Syntax.Grammar.Operand

/-!
# The grammar of expressions

Operands with the operators before, after and between them. The signs before an operand bind more
closely than all operators between operands, and less closely than what follows the operand.
-/

namespace PackedFields.Grammar

open PackedFields.Parser

variable (g : Grammar)

/-! ## After an operand -/

/-- Whether a dot stands at the start, and not the dots of a range. -/
def startsDot (ts : List Token) : Bool := startsMark "." ts && !startsMark ".." ts

/-- Whether a literal is a number with a point or an exponent. -/
def isDecimal (spelling : String) : Bool :=
  Literal.isNumber spelling && (Literal.number? spelling).isNone

/-- The tokens of the field numbers that the points of a number separate, at the place of the
number. A point at the end stands for a dot that something else follows; the outcome says whether
there is one. -/
def fieldNumbers (spelling : String) (place : Span) : Except SyntaxError (List Token × Bool) := do
  let parts := spelling.splitOn "."
  let trailing := parts.getLast? == some ""
  let numbers ← (if trailing then parts.dropLast else parts).mapM fun part =>
    match fieldNumber part with
    | .ok n => .ok [Token.literal (toString n) place]
    | .error cause => .error ⟨cause, place⟩
  let ts := Code.separated [Code.sign '.'] numbers
  return (if trailing then ts ++ [Code.sign '.'] else ts, trailing)

/-- Reads the field numbers that a number with a point stands for after a dot, if one stands next.
Says whether something else has to follow. -/
def decimalFields? : Parser (List Token × Bool) := fun c =>
  match c.rest with
  | .literal spelling s :: rest =>
    if isDecimal spelling then do
      return (← fieldNumbers spelling s, { c with rest })
    else .ok (([], true), c)
  | .punct '-' _ s :: .literal spelling t :: _ =>
    if isDecimal spelling then
      .error ⟨negativeFieldNumber ((spelling.splitOn ".").headD ""), s.through t⟩
    else .ok (([], true), c)
  | _ => .ok (([], true), c)

/-- Reads a dot and what it selects: fields, or the call of a method. -/
def selection : Parser (List Token) := do
  let dot ← mark "."
  let (fields, goesOn) ← decimalFields?
  let start := dot ++ fields
  if !goesOn then return start
  if ← wordNext "await" then return start ++ (← anyToken)
  let (m, named) ← member
  let start := start ++ m
  if !named then return start
  if ← markNext "::" then
    let sep ← mark "::"
    let args ← g.angleArguments
    return start ++ sep ++ args ++ (← g.arguments)
  else if ← groupNext .paren then return start ++ (← g.arguments)
  else return start

/-- Reads what follows an operand: calls, selections, indices and question marks, at most so many.
A dot and a question mark do not follow a range. -/
def trailersUpTo : Nat → SourceExpression → Parser SourceExpression
  | 0, e => return e
  | count + 1, e => do
    if ← groupNext .paren then trailersUpTo count { tokens := e.tokens ++ (← g.arguments) }
    else if !e.isRange && (← ahead startsDot) then
      trailersUpTo count { tokens := e.tokens ++ (← g.selection) }
    else if ← groupNext .bracket then
      let index ← groupOf .bracket g.value
      trailersUpTo count { tokens := e.tokens ++ index }
    else if !e.isRange && (← markNext "?") then
      trailersUpTo count { tokens := e.tokens ++ (← mark "?") }
    else return e

/-- Reads what follows an operand. -/
def trailers (e : SourceExpression) : Parser SourceExpression := fun c =>
  g.trailersUpTo (c.rest.length + 1) e c

/-! ## Before an operand -/

/-- Reads the sign for a reference and the words that belong to it. -/
def referenceSign : Parser (List Token) := do
  let sign ← mark "&"
  let raw := fun ts => startsWord "raw" ts && startsWordOf ["mut", "const"] ts.tail
  if ← ahead raw then
    let kw ← anyToken
    return sign ++ kw ++ (← anyToken)
  else return sign ++ (← word? "mut")

/-- Reads an operand with the signs before it and all that follows it, with at most so many signs.
Attributes before it belong to all of it. -/
def unaryUpTo (braces : Bool) : Nat → Parser SourceExpression
  | 0 => expected [.expression]
  | count + 1 => do
    let (e, source) ← written do
      let attrs ← g.attributeTokens
      if ← markNext "&" then
        let sign ← referenceSign
        return { tokens := attrs ++ sign ++ (← unaryUpTo braces count).tokens }
      else if ← ahead (startsMarkOf ["*", "!", "-"]) then
        let sign ← if ← markNext "*" then mark "*"
          else if ← markNext "!" then mark "!"
          else mark "-"
        return { tokens := attrs ++ sign ++ (← unaryUpTo braces count).tokens }
      else
        let e ← g.trailers (← g.atom braces)
        if let .range place := e.kind then
          if !attrs.isEmpty then throw ⟨.rangeAttributes, place⟩
        return { e with tokens := attrs ++ e.tokens }
    return if e.kind == .kept then { e with tokens := source } else e

/-- Reads an operand with the signs before it and all that follows it. -/
def unary (braces : Bool) : Parser SourceExpression := fun c =>
  g.unaryUpTo braces (c.rest.length + 1) c

/-! ## Between operands -/

/-- What a cast must not be followed by, if it stands at the start. -/
def afterCast? (ts : List Token) : Option String :=
  if startsDot ts then
    if startsWord "await" ts.tail then some "`.await`"
    else if startsName ts.tail && (startsGroup .paren ts.tail.tail ||
        startsMark "::" ts.tail.tail) then some "a method call"
    else some "a field access"
  else if startsMark "?" ts then some "`?`"
  else if startsGroup .bracket ts then some "indexing"
  else if startsGroup .paren ts then some "a function call"
  else none

/-- Reads a cast after its operand. -/
def castTail : Parser (List Token) := do
  let kw ← word "as"
  let t := (← g.type false).tokens
  match afterCast? (← get).rest with
  | some construct => fail (.castFollowed construct)
  | none => return kw ++ t

/-- Reads the operator of the precedence `p` that stands after the expression `e`, and what it has
on its right. -/
def extended (braces : Bool) (p : Precedence) (e : SourceExpression) :
    Parser SourceExpression := do
  if p == .range then
    let (ts, place) ← g.rangeTail braces
    return ⟨e.tokens ++ ts, .range place⟩
  else if p == .cast then return { tokens := e.tokens ++ (← g.castTail) }
  else if p == .compare && e.kind == .comparison then fail .chainedComparison
  else
    let m := ((binaryOperator? (← get).rest).map Prod.fst).getD "="
    let sign ← mark m
    let right ← g.operand braces p
    return ⟨e.tokens ++ sign ++ right.tokens, if p == .compare then .comparison else .other⟩

/-- Goes on with the expression `e` as long as operators follow that take it from an operator of
the precedence `before`, at most so many. Nothing goes on with a range. -/
def continued (braces : Bool) (before : Precedence) :
    Nat → SourceExpression → Parser SourceExpression
  | 0, e => return e
  | count + 1, e => do
    let p := precedenceOf (← get).rest
    if e.isRange || !p.takesFrom before then return e
    continued braces before count (← g.extended braces p e)

/-- Reads an operand with the operators after it that bind more closely than one of the precedence
`before`. -/
def operandStep (braces : Bool) (before : Precedence) : Parser SourceExpression := fun c =>
  (do g.continued braces before c.rest.length (← g.unary braces) : Parser _) c

/-! ## In place of a statement -/

/-- Reads an expression where a statement can stand. Attributes of one that is kept as it is written
are lost. -/
def statementExpressionStep : Parser SourceExpression := fun c =>
  (do
    let attrs ← g.attributeTokens
    if let some ts ← g.blockConstruct? then
      let e := ⟨attrs ++ ts, .block⟩
      if ← ahead (fun ts => startsDot ts || startsMark "?" ts) then
        g.continued true .none c.rest.length (← g.trailers e)
      else return e
    else
      let e ← g.unary true
      let shown := if e.kind == .kept then [] else attrs
      g.continued true .none c.rest.length { e with tokens := shown ++ e.tokens } : Parser _) c

end PackedFields.Grammar

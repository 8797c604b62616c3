import PackedFields.Syntax.Grammar.Pattern

/-!
# The grammar of operands

What an expression consists of between its operators: literals, paths, groups, closures, and the
constructs that start with a keyword. Conditions and the like are read without structs in braces,
so that the brace after them opens their block.
-/

namespace PackedFields.Grammar

open PackedFields.Parser

variable (g : Grammar)

/-- Reads an expression that can be anything, and hands its tokens on. -/
def value : Parser (List Token) := do return (← g.expression true).tokens

/-- Reads an expression before a block. -/
def head : Parser (List Token) := do return (← g.expression false).tokens

/-! ## Conditions and loops -/

/-- Whether a closure with parameters of its own stands at the start, and not a loop. -/
def startsForClosure (ts : List Token) : Bool :=
  startsWord "for" ts && startsMark "<" ts.tail &&
    (startsLifetime ts.tail.tail || startsMark ">" ts.tail.tail)

/-- Reads a condition with its blocks, of which there are at most so many. -/
def ifChain : Nat → Parser (List Token)
  | 0 => expected [.word "if"]
  | count + 1 => do
    let kw ← word "if"
    let condition ← g.head
    let start := kw ++ condition ++ (← g.block)
    if !(← wordNext "else") then return start
    let start := start ++ (← anyToken)
    if ← wordNext "if" then return start ++ (← ifChain count)
    else if ← groupNext .brace then return start ++ (← g.block)
    else expected [.word "if", .group .brace]

/-- Reads a loop under a condition. -/
def whileLoop : Parser (List Token) := do
  let kw ← word "while"
  let condition ← g.head
  return kw ++ condition ++ (← g.body)

/-- Reads a loop over values. -/
def forLoop : Parser (List Token) := do
  let kw ← word "for"
  let p := (← g.alternatives).tokens
  let sep ← word "in"
  let values ← g.head
  return kw ++ p ++ sep ++ values ++ (← g.body)

/-- Reads an arm of a match. Its comma can be missing at the end and after a block. -/
def arm : Parser (List Token) := do
  let attrs ← g.attributeTokens
  let p := (← g.alternatives).tokens
  let guard ← if ← wordNext "if" then do
      let kw ← anyToken
      pure (kw ++ (← g.value))
    else pure []
  let arrow ← mark "=>"
  let e ← g.statementExpression
  let comma ← if e.kind == .block || (← atEnd) then mark? "," else mark ","
  return attrs ++ p ++ guard ++ arrow ++ e.tokens ++ comma

/-- Reads a match. -/
def matchBlock : Parser (List Token) := do
  let kw ← word "match"
  let matched ← g.head
  let arms ← groupOf .brace do
    let attrs ← g.innerAttributes
    return attrs ++ (← tokensWhile do
      if ← atEnd then return ([], false) else return (← g.arm, true))
  return kw ++ matched ++ arms

/-- Reads a keyword and a block with attributes inside. -/
def keywordBody : Parser (List Token) := do
  let kw ← anyToken
  return kw ++ (← g.body)

/-- Reads a label and the loop or block it stands before. -/
def labelled : Parser (List Token) := do
  let label ← lifetimeTokens
  let start := label ++ (← mark ":")
  if ← wordNext "while" then return start ++ (← g.whileLoop)
  else if ← wordNext "for" then return start ++ (← g.forLoop)
  else if ← wordNext "loop" then return start ++ (← g.keywordBody)
  else if ← groupNext .brace then return start ++ (← g.body)
  else expected [.labelled]

/-- Whether the word `w` stands at the start, and a brace after it. -/
def startsBlockOf (w : String) (ts : List Token) : Bool :=
  startsWord w ts && startsGroup .brace ts.tail

/-- Reads a construct that ends in a block, if one stands next. -/
def blockConstruct? : Parser (Option (List Token)) := do
  if ← wordNext "if" then return some (← fun c => g.ifChain c.rest.length c)
  else if ← wordNext "while" then return some (← g.whileLoop)
  else if ← ahead (fun ts => startsWord "for" ts && !startsForClosure ts) then
    return some (← g.forLoop)
  else if ← wordNext "match" then return some (← g.matchBlock)
  else if ← ahead (startsBlockOf "try") then
    let kw ← anyToken
    return some (kw ++ (← g.block))
  else if ← ahead (fun ts => startsWordOf ["loop", "unsafe"] ts || startsBlockOf "const" ts) then
    return some (← g.keywordBody)
  else if ← groupNext .brace then return some (← g.body)
  else if ← ahead startsLifetime then return some (← g.labelled)
  else return none

/-! ## Closures -/

/-- Whether a closure stands at the start. -/
def startsClosure (ts : List Token) : Bool :=
  startsMark "|" ts || startsWordOf ["move", "static"] ts || startsForClosure ts ||
    (startsWord "const" ts && !startsGroup .brace ts.tail) ||
    (startsWord "async" ts && (startsMark "|" ts.tail || startsWord "move" ts.tail))

/-- Reads a parameter of a closure. The attributes of one that is kept as it is written are lost. -/
def closureParam : Parser (List Token) := do
  let attrs ← g.attributeTokens
  let p ← g.pattern
  if ← markNext ":" then
    let colon ← mark ":"
    return attrs ++ p.tokens ++ colon ++ (← g.type true).tokens
  else return (if p.kept then [] else attrs) ++ p.tokens

/-- Reads a closure. -/
def closure (braces : Bool) : Parser (List Token) := do
  let life ← g.binder
  let const ← word? "const"
  let static ← word? "static"
  let async ← word? "async"
  let move ← word? "move"
  let opening ← mark "|"
  let params ← tokensWhile do
    if ← markNext "|" then return ([], false)
    let p ← g.closureParam
    if ← markNext "|" then return (p, false)
    return (p ++ (← mark ","), true)
  let start := life ++ const ++ static ++ async ++ move ++ opening ++ params ++ (← mark "|")
  if ← markNext "->" then
    let arrow ← mark "->"
    let t := (← g.type true).tokens
    return start ++ arrow ++ t ++ (← g.block)
  else return start ++ (← g.expression braces).tokens

/-! ## Jumps -/

/-- Whether an expression can start here. -/
def startsExpression (ts : List Token) : Bool :=
  startsAnyName ts || startsAnyGroup ts || startsLiteral ts || startsLifetime ts ||
    startsMarkOf ["..", "::", "#"] ts ||
    (startsMark "!" ts && !startsMark "!=" ts) ||
    (startsMark "-" ts && !startsMarkOf ["-=", "->"] ts) ||
    (startsMark "*" ts && !startsMark "*=" ts) ||
    (startsMark "|" ts && !startsMark "|=" ts) ||
    (startsMark "&" ts && !startsMark "&=" ts) ||
    (startsMark "<" ts && !startsMarkOf ["<=", "<<="] ts)

/-- Reads a jump out of a loop or a block, maybe with a value. -/
def breakJump (braces : Bool) : Parser (List Token) := do
  let kw ← word "break"
  if ← ahead (fun ts => startsLifetime ts && startsMark ":" (skipOne ts)) then
    let (_, source) ← written g.value
    throw ⟨.bareLabel, Token.spanOf source⟩
  let label ← if ← ahead startsLifetime then lifetimeTokens else pure []
  let valued := fun ts => startsExpression ts && (braces || !startsGroup .brace ts)
  return kw ++ label ++ (← if ← ahead valued then g.value else pure [])

/-- Reads a jump out of a function, maybe with a value. -/
def returnJump : Parser (List Token) := do
  let kw ← anyToken
  return kw ++ (← if ← ahead startsExpression then g.value else pure [])

/-! ## Ranges -/

/-- Reads the dots of a range, and says whether its end belongs to it. -/
def dots : Parser (List Token × Bool) := do
  if ← markNext "..=" then return (← mark "..=", true)
  else if ← markNext "..." then expected [.mark "..="]
  else return (← mark "..", false)

/-- Whether a range ends here without an end of its own. -/
def endsOpenRange (braces : Bool) (ts : List Token) : Bool :=
  ts.isEmpty || (startsMark "." ts && !startsMark ".." ts) || startsWord "as" ts ||
    startsMarkOf [",", ";", "?", "=>", "=", "+", "/", "%", "^", ">", "<=", "!=", "-=", "*=", "&=",
      "|=", "<<="] ts || (!braces && startsGroup .brace ts)

/-- Reads the dots of a range, and its end if it has one: the tokens, and the place of the dots. -/
def rangeTail (braces : Bool) : Parser (List Token × Span) := do
  let (ds, closed) ← dots
  let place := Token.spanOf ds
  if !closed && (← ahead (endsOpenRange braces)) then return (ds, place)
  else return (ds ++ (← g.operand braces .range).tokens, place)

/-! ## Paths, groups and the rest -/

/-- Reads a field of a struct with its value, which can be left out if it has the same name. -/
def fieldValue : Parser (List Token) := do
  let attrs ← g.attributeTokens
  let (m, named) ← member
  if named && !(← markNext ":") then return attrs ++ m
  let colon ← mark ":"
  return attrs ++ m ++ colon ++ (← g.value)

/-- Reads the fields of a struct. Two dots come last, with a struct that has all others. -/
def fieldValues : Parser (List Token) := tokensWhile do
  if ← atEnd then return ([], false)
  if ← markNext ".." then
    let ds ← mark ".."
    if ← atEnd then return (ds, false) else return (ds ++ (← g.value), false)
  let v ← g.fieldValue
  if ← atEnd then return (v, false)
  return (v ++ (← mark ","), true)

/-- Reads an operand that starts with a path: a macro, a struct, or a path alone. -/
def pathOperand (braces : Bool) : Parser SourceExpression := do
  let p ← g.qualifiedPath true
  if let some input ← macroInput? p then
    return ⟨p.tokens ++ input, .macroCall (startsGroup .brace input.tail)⟩
  if braces && (← groupNext .brace) then
    return { tokens := p.tokens ++ (← groupOf .brace g.fieldValues) }
  else return { tokens := p.tokens }

/-- Reads expressions in parentheses, with commas between them. -/
def arguments : Parser (List Token) := groupOf .paren (commaTokens g.value)

/-- Reads an array, by its elements or by one and their number. -/
def array : Parser (List Token) := groupOf .bracket do
  if ← atEnd then return []
  let first ← g.value
  if (← atEnd) || (← markNext ",") then
    let comma ← mark? ","
    return first ++ comma ++ (← commaTokens g.value)
  else if ← markNext ";" then
    let sign ← mark ";"
    return first ++ sign ++ (← g.value)
  else expected [.mark ",", .mark ";"]

/-- Reads a construct of the compiler's own: a name after a hash, and anything in parentheses. -/
def builtin : Parser (List Token) := do
  let (_, source) ← written do
    let _ ← anyToken
    let _ ← mark "#"
    let _ ← name
    if ← groupNext .paren then anyToken else expected [.group .paren]
  return source

/-- Reads a call in place of the function itself. -/
def becomeJump : Parser (List Token) := do
  let (_, source) ← written do
    let _ ← word "become"
    g.value
  return source

/-- Whether a block that runs on its own stands at the start. -/
def startsAsyncBlock (ts : List Token) : Bool :=
  startsBlockOf "async" ts || (startsWord "async" ts && startsBlockOf "move" ts.tail)

/-- Whether a path stands at the start of an operand. -/
def startsPathOperand (ts : List Token) : Bool :=
  startsPath ts || (startsWord "try" ts && startsMarkOf ["!", "::"] ts.tail)

/-- Reads an operand without the operators around it. -/
def atom (braces : Bool) : Parser SourceExpression := do
  if ← ahead startsLiteral then return { tokens := ← literal }
  else if ← ahead startsAsyncBlock then
    let kw ← anyToken
    let move ← word? "move"
    return { tokens := kw ++ move ++ (← g.block) }
  else if ← ahead startsClosure then return { tokens := ← g.closure braces }
  else if let some ts ← g.blockConstruct? then return ⟨ts, .block⟩
  else if ← ahead (fun ts => startsWord "builtin" ts && startsMark "#" ts.tail) then
    return ⟨← builtin, .kept⟩
  else if ← ahead startsPathOperand then g.pathOperand braces
  else if ← groupNext .paren then return { tokens := ← g.arguments }
  else if ← wordNext "break" then return { tokens := ← g.breakJump braces }
  else if ← wordNext "continue" then
    let kw ← anyToken
    return { tokens := kw ++ (← if ← ahead startsLifetime then lifetimeTokens else pure []) }
  else if ← ahead (startsWordOf ["return", "yield"]) then return { tokens := ← g.returnJump }
  else if ← wordNext "become" then return ⟨← g.becomeJump, .kept⟩
  else if ← groupNext .bracket then return { tokens := ← g.array }
  else if ← wordNext "let" then
    let kw ← anyToken
    let p := (← g.alternatives).tokens
    let sign ← mark "="
    return { tokens := kw ++ p ++ sign ++ (← g.operand braces .and).tokens }
  else if ← markNext ".." then
    let (ts, place) ← g.rangeTail braces
    return ⟨ts, .range place⟩
  else if ← wordNext "_" then return { tokens := ← anyToken }
  else expected [.expression]

end PackedFields.Grammar

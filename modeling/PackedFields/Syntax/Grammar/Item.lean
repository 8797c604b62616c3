import PackedFields.Syntax.Grammar.Associated

/-!
# The grammar of items

Structs, enums and unions are read into their parts, items of other kinds into the tokens that they
are handed on as. Some forms of items have no meaning, such as a constant without a value; an item
in such a form is kept as it is written.
-/

namespace PackedFields.Grammar

open PackedFields.Parser

variable (g : Grammar)

/-! ## Fields -/

/-- Whether the fields of a field without a name stand at the start, in place of its type. -/
def startsInlineFields (ts : List Token) : Bool :=
  startsWord "struct" ts || (startsWord "union" ts && startsGroup .brace ts.tail)

/-- Reads a field with a name, at most `depth` deep in fields without names. These can have fields
in place of a type. -/
def namedFieldAt : Nat → Parser SourceField
  | 0 => expected [.name]
  | depth + 1 => do
    let attrs ← g.attributes
    let vis ← visibility
    let unnamed ← wordNext "_"
    let n ← if unnamed then anyName else name
    let _ ← mark ":"
    if unnamed && (← ahead startsInlineFields) then
      let (_, source) ← written do
        let _ ← anyToken
        group .brace (commaSeparated (namedFieldAt depth))
      return ⟨attrs, vis, some n, .other source⟩
    else return ⟨attrs, vis, some n, ← g.type true⟩

/-- Reads a field with a name. -/
def namedField : Parser SourceField := fun c => g.namedFieldAt (Token.weights c.rest + 1) c

/-- Reads a field without a name. -/
def tupleField : Parser SourceField := do
  let attrs ← g.attributes
  let vis ← visibility
  return ⟨attrs, vis, none, ← g.type true⟩

/-- Reads fields in braces. -/
def namedFields : Parser SourceFields := do
  let ((fs, trailing), _) ← group .brace (commaSeparated g.namedField)
  return .named fs trailing

/-- Reads fields in parentheses. -/
def tupleFields : Parser SourceFields := do
  let ((fs, trailing), _) ← group .paren (commaSeparated g.tupleField)
  return .tuple fs trailing

/-! ## Structs, enums and unions -/

/-- Reads an item that starts with `keyword` up to its generic parameters. -/
def itemHead (keyword : String) : Parser ItemHead := do
  let attrs ← g.attributes
  let vis ← visibility
  let _ ← word keyword
  let (n, place) ← name
  return ⟨attrs, vis, n, place, ← g.generics⟩

/-- The head with the conditions of a `where` clause. -/
def withConditions (h : ItemHead) (conditions : List Token) : ItemHead :=
  { h with generics := { h.generics with conditions } }

/-- Reads a struct. -/
def structItem : Parser Item := do
  let h ← g.itemHead "struct"
  let (conditions, early) ← g.whereClause?
  if !early && (← groupNext .paren) then
    let fields ← g.tupleFields
    let (conditions, late) ← g.whereClause?
    if !(← markNext ";") then
      expected ((if late then [] else [.word "where"]) ++ [.mark ";"])
    let _ ← mark ";"
    return .struct (withConditions h conditions) fields
  else if ← groupNext .brace then
    return .struct (withConditions h conditions) (← g.namedFields)
  else if ← markNext ";" then
    let _ ← mark ";"
    return .struct (withConditions h conditions) .unit
  else
    let others := if early then [] else [.word "where", .group .paren]
    expected (others ++ [.group .brace, .mark ";"])

/-- Reads a variant of an enum. -/
def variant : Parser SourceVariant := do
  let attrs ← g.attributes
  let _ ← visibility
  let (n, _) ← name
  let fields ← if ← groupNext .brace then g.namedFields
    else if ← groupNext .paren then g.tupleFields
    else pure .unit
  let discriminant ← if (← mark? "=").isEmpty then pure [] else g.value
  return ⟨attrs, n, fields, discriminant⟩

/-- Reads an enum. -/
def enumItem : Parser Item := do
  let h ← g.itemHead "enum"
  let (conditions, _) ← g.whereClause?
  let ((variants, trailing), _) ← group .brace (commaSeparated g.variant)
  return .enum (withConditions h conditions) variants trailing

/-- Reads a union. -/
def unionItem : Parser Item := do
  let h ← g.itemHead "union"
  let (conditions, _) ← g.whereClause?
  return .union (withConditions h conditions) (← g.namedFields)

/-! ## Functions, statics, constants and types

The readers of items of other kinds start after the attributes and the visibility of the item. They
answer with its tokens, and say whether it is kept as it is written. -/

/-- Reads a function. -/
def functionItem : Parser (List Token × Bool) := do
  let (start, _) ← g.signature false
  if ← markNext ";" then return (start ++ (← mark ";"), true)
  return (start ++ (← g.body), false)

/-- Reads a static. -/
def staticItem : Parser (List Token × Bool) := do
  let kw ← word "static"
  let mutable ← word? "mut"
  let (n, s) ← name
  let start := kw ++ mutable ++ [.ident n s]
  if ← markNext "=" then return (start ++ (← g.initial?) ++ (← mark ";"), true)
  let colon ← mark ":"
  let typed := start ++ colon ++ (← g.type true).tokens
  if ← markNext ";" then return (typed ++ (← mark ";"), true)
  let sign ← mark "="
  let value ← g.value
  return (typed ++ sign ++ value ++ (← mark ";"), false)

/-- Reads a constant. -/
def constItem : Parser (List Token × Bool) := do
  let (ts, valued, special) ← g.constDeclaration
  return (ts, !valued || special)

/-- Reads a name for a type. -/
def typeItem : Parser (List Token × Bool) := do
  let t ← g.typeNaming .before
  return (t.tokens, t.bounded || !t.defined)

/-! ## Imports -/

/-- Reads a new name for what is brought in. -/
def newName : Parser (List Token) := do
  let kw ← word "as"
  if ← ahead (fun ts => startsName ts || startsWord "_" ts) then return kw ++ (← anyToken)
  else expected [.newName]

/-- Reads what is brought in, at most `depth` deep. Says whether some of it starts at the root of
all names, which it can only if `rootable`. -/
def importTree (rootable : Bool) : Nat → Parser (List Token × Bool)
  | 0 => expected [.name]
  | depth + 1 => do
    if ← ahead (fun ts => startsName ts || startsWordOf ["self", "super", "crate", "try"] ts) then
      let n ← anyToken
      if ← markNext "::" then
        let sep ← mark "::"
        let (ts, rooted) ← importTree false depth
        return (n ++ sep ++ ts, rooted)
      else if ← wordNext "as" then return (n ++ (← newName), false)
      else return (n, false)
    else if ← markNext "*" then return (← mark "*", false)
    else if ← groupNext .brace then
      let ((trees, trailing), opening, closing) ← group .brace (commaSeparated do
        let root ← if rootable then mark? "::" else pure []
        let (ts, rooted) ← importTree (rootable && root.isEmpty) depth
        return (ts, rooted || !root.isEmpty))
      let ts := Code.commaList trailing (trees.map Prod.fst)
      return ([.group .brace ts opening closing], trees.any Prod.snd)
    else expected [.name, .word "self", .word "super", .word "crate", .word "try", .mark "*",
      .group .brace]

/-- Reads what is brought in. One that starts at the root inside of braces is kept as it is
written. -/
def useItem : Parser (List Token × Bool) := fun c =>
  (do
    let kw ← word "use"
    let root ← mark? "::"
    let (ts, rooted) ← importTree root.isEmpty (Token.weights c.rest)
    return (kw ++ root ++ ts ++ (← mark ";"), rooted) : Parser _) c

/-- Reads a name brought in from a crate. -/
def externCrate : Parser (List Token) := do
  let kw ← word "extern"
  let crate ← word "crate"
  let (n, s) ← if ← wordNext "self" then anyName else name
  let rename ← if ← wordNext "as" then do
      let kw ← anyToken
      let (m, t) ← if ← wordNext "_" then anyName else name
      pure (kw ++ [Token.ident m t])
    else pure []
  return kw ++ crate ++ [.ident n s] ++ rename ++ (← mark ";")

/-! ## Modules -/

/-- Reads a module. -/
def moduleItem : Parser (List Token) := do
  let qualifier ← word? "unsafe"
  let kw ← word "mod"
  let (n, s) ← if ← wordNext "try" then anyName else name
  let start := qualifier ++ kw ++ [.ident n s]
  if ← markNext ";" then return start ++ (← mark ";")
  else if ← groupNext .brace then return start ++ (← g.members g.item)
  else expected [.mark ";", .group .brace]

/-- Reads a foreign module. -/
def foreignModule : Parser (List Token) := do
  let qualifier ← word? "unsafe"
  if !(← wordNext "extern") then expected [.word "extern"]
  let convention ← convention
  return qualifier ++ convention ++ (← g.members g.foreignMember)

/-- Reads an item that starts with `extern` and is no function, with the visibility `vis` before it,
which starts at `start`. A foreign module has none. -/
def externItem (vis : SourceVisibility) (start : Span) : Parser (List Token) := do
  if ← ahead (fun ts => startsWord "crate" ts.tail) then externCrate
  else
    let rest ← ahead fun ts => startsGroup .brace (if startsText ts.tail then ts.tail.tail else
      ts.tail)
    if !rest then
      let kw ← convention
      if kw.length == 1 then expected [.word "crate", .group .brace, .string]
      else expected [.group .brace]
    if vis != .inherited then throw ⟨.expected [.word "extern"] false, start⟩
    g.foreignModule

/-! ## Traits and implementations -/

/-- Reads what follows the parameters of a trait. -/
def traitRest : Parser (List Token) := do
  let colon ← mark? ":"
  let ends := fun ts => startsWord "where" ts || startsGroup .brace ts
  let bounds ← if colon.isEmpty then pure [] else g.boundsBefore ends
  let shown := if bounds.isEmpty then [] else colon ++ bounds
  let conditions ← g.whereTokens
  return shown ++ conditions ++ (← g.members g.traitMember)

/-- Reads a trait, or a name for other traits. -/
def traitItem : Parser (List Token) := do
  let qualifiers := (← word? "unsafe") ++ (← word? "auto")
  let kw ← word "trait"
  let (n, s) ← name
  let start := qualifiers ++ kw ++ [.ident n s] ++ (← g.genericTokens)
  if !qualifiers.isEmpty then return start ++ (← g.traitRest)
  else if ← ahead (fun ts => startsGroup .brace ts || startsMark ":" ts ||
      startsWord "where" ts) then
    return start ++ (← g.traitRest)
  else if ← markNext "=" then
    let sign ← mark "="
    let ends := fun ts => startsWord "where" ts || startsMark ";" ts
    let bounds ← g.boundsBefore ends
    let conditions ← g.whereTokens
    return start ++ sign ++ bounds ++ conditions ++ (← mark ";")
  else expected [.group .brace, .mark ":", .word "where", .mark "="]

/-- Reads the word for a constant implementation, maybe with a question mark, if it stands next. -/
def constImplMark : Parser (List Token) := do
  if ← ahead (fun ts => startsWord "const" ts ||
      (startsMark "?" ts && startsWord "const" ts.tail)) then
    let question ← mark? "?"
    return question ++ (← anyToken)
  else return []

/-- Whether a type is a path that does not start at a type in angle brackets. -/
def namesTrait : SourceType → Bool
  | .name .. => true
  | .path .. => true
  | _ => false

/-- Reads an implementation, with the visibility `vis` before it. -/
def implItem (vis : SourceVisibility) : Parser (List Token × Bool) := do
  let qualifiers := (← word? "default") ++ (← word? "unsafe")
  let kw ← word "impl"
  let generics ← if ← ahead startsParams then g.genericTokens else pure []
  let const ← constImplMark
  let negative ← if ← ahead (fun ts => startsMark "!" ts && !startsGroup .brace ts.tail) then
      mark "!"
    else pure []
  let first ← g.type true
  let self ← if ← wordNext "for" then do
      let kw ← anyToken
      pure (kw ++ (← g.type true).tokens)
    else pure []
  if self.isEmpty && !negative.isEmpty then throw ⟨.negativeInherent, Token.spanOf negative⟩
  let conditions ← g.whereTokens
  let members ← g.members g.implMember
  let kept := vis != .inherited || !const.isEmpty || (!self.isEmpty && !namesTrait first)
  return (qualifiers ++ kw ++ generics ++ negative ++ first.tokens ++ self ++ conditions ++
    members, kept)

/-! ## Macros -/

/-- Reads the use of a macro that can be given a name. -/
def macroItem : Parser (List Token) := do
  let p ← path
  let bang ← mark "!"
  let n ← if ← ahead (fun ts => startsName ts || startsWord "try" ts) then anyToken else pure []
  let braced ← groupNext .brace
  let input ← anyGroup
  return p.tokens ++ bang ++ n ++ input ++ (← if braced then pure [] else mark ";")

/-- Reads the declaration of a macro by a keyword. -/
def macroDeclaration : Parser (List Token) := do
  let kw ← word "macro"
  let (n, s) ← name
  let params ← if ← groupNext .paren then anyToken else pure []
  let start := kw ++ [.ident n s] ++ params
  if ← groupNext .brace then return start ++ (← anyToken)
  else expected ((if params.isEmpty then [.group .paren] else []) ++ [.group .brace])

/-! ## All items -/

/-- Reads an item that starts with `unsafe` and is no function, with the visibility `vis` before it,
which starts at `start`. -/
def unsafeItem (vis : SourceVisibility) (start : Span) : Parser (List Token × Bool) := do
  if ← ahead (fun ts => startsWord "trait" ts.tail ||
      (startsWord "auto" ts.tail && startsWord "trait" ts.tail.tail)) then
    return (← g.traitItem, false)
  else if ← ahead (fun ts => startsWord "impl" ts.tail) then g.implItem vis
  else if ← ahead (fun ts => startsWord "extern" ts.tail) then
    if vis != .inherited then throw ⟨.expected [.word "extern"] false, start⟩
    return (← g.foreignModule, false)
  else if ← ahead (fun ts => startsWord "mod" ts.tail) then return (← g.moduleItem, false)
  else
    let _ ← anyToken
    expected [.word "trait", .word "auto", .word "impl", .word "extern", .word "mod"]

/-- Reads an item that is no struct, enum or union, with the visibility `vis` before it, which
starts at `start`. -/
def otherAfter (vis : SourceVisibility) (start : Span) : Parser (List Token × Bool) := do
  let always := fun (p : Parser (List Token)) => do return (← p, false)
  if ← ahead (startsSignature false) then g.functionItem
  else if ← wordNext "extern" then always (g.externItem vis start)
  else if ← wordNext "use" then useItem
  else if ← wordNext "static" then g.staticItem
  else if ← wordNext "const" then g.constItem
  else if ← wordNext "unsafe" then g.unsafeItem vis start
  else if ← wordNext "mod" then always g.moduleItem
  else if ← wordNext "type" then g.typeItem
  else if ← ahead (fun ts => startsWord "trait" ts ||
      (startsWord "auto" ts && startsWord "trait" ts.tail)) then always g.traitItem
  else if ← ahead (fun ts => startsWord "impl" ts ||
      (startsWord "default" ts && !startsMark "!" ts.tail)) then g.implItem vis
  else if ← wordNext "macro" then return (← macroDeclaration, true)
  else if vis == .inherited && (← ahead startsMacroPath) then always macroItem
  else expected (Wanted.itemStarts ++ if vis == .inherited then Wanted.macroStarts else [])

/-- Reads an item that is no struct, enum or union. -/
def otherItem : Parser (List Token × Bool) := do
  let attrs ← g.attributeTokens
  let start := Cursor.front (← get)
  let vis ← visibility
  let (ts, kept) ← g.otherAfter vis start
  return (attrs ++ vis.tokens ++ ts, kept)

/-- Reads an item. -/
def itemStep : Parser Item := do
  let start := skipVisibility (skipAttributes (← get).rest)
  if startsWord "struct" start then g.structItem
  else if startsWord "enum" start then g.enumItem
  else if startsWord "union" start && startsName start.tail then g.unionItem
  else
    let ((ts, kept), source) ← written g.otherItem
    return .other (if kept then source else ts) (Token.spanOf source)

end PackedFields.Grammar

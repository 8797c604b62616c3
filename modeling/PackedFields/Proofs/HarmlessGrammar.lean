import PackedFields.Proofs.Harmless

/-!
# No reader of source stops the reading

The readers of a grammar, one by one and in their order: after what each of them comes to, the
reading goes on, if this holds of the readers for what can stand inside. A reader that goes by
recursion has the property by induction. So a grammar has it if the one does whose constructs nest
one step less, and with that all that is read from source.
-/

namespace PackedFields

open PackedFields.Parser

-- the size of an instance is that of the tree of its parts, with shared parts counted each time
set_option synthInstance.maxSize 1000000

/-! ## Causes -/

namespace SyntaxError.Cause

instance : attributeInAttribute.Harmless := ⟨rfl⟩

instance : constBound.Harmless := ⟨rfl⟩

instance : maybeConstBound.Harmless := ⟨rfl⟩

instance : optionalBinder.Harmless := ⟨rfl⟩

instance : captures.Harmless := ⟨rfl⟩

instance : whereParams.Harmless := ⟨rfl⟩

instance : openRangeInSlice.Harmless := ⟨rfl⟩

instance : bareLabel.Harmless := ⟨rfl⟩

instance : rangeAttributes.Harmless := ⟨rfl⟩

instance : chainedComparison.Harmless := ⟨rfl⟩

instance : openStatement.Harmless := ⟨rfl⟩

instance : secondReceiver.Harmless := ⟨rfl⟩

instance : lateReceiver.Harmless := ⟨rfl⟩

instance : negativeInherent.Harmless := ⟨rfl⟩

instance : noObjectTrait.Harmless := ⟨rfl⟩

instance : noTrait.Harmless := ⟨rfl⟩

instance (construct : String) : (castFollowed construct).Harmless := ⟨rfl⟩

instance (choices : List Wanted) (atEnd : Bool) :
    (expected choices atEnd).Harmless := ⟨rfl⟩

end SyntaxError.Cause

namespace Grammar

/-- Whatever the readers of the grammar come to, the reading goes on. -/
class Harmless (g : Grammar) : Prop where
  type (plus : Bool) : (g.type plus).Harmless
  bound (captures const : Bool) : (g.bound captures const).Harmless
  operand (braces : Bool) (before : Precedence) : (g.operand braces before).Harmless
  statementExpression : g.statementExpression.Harmless
  pattern : g.pattern.Harmless
  statements : g.statements.Harmless
  item : g.item.Harmless

attribute [instance] Harmless.type Harmless.bound Harmless.operand
  Harmless.statementExpression Harmless.pattern Harmless.statements Harmless.item

variable {g : Grammar} [g.Harmless]

/-! ## Attributes and blocks -/

instance (braces : Bool) : Parser.Harmless (g.expression braces) := by
  unfold expression; infer_instance

instance : Parser.Harmless g.attributeValue := by unfold attributeValue; infer_instance

instance : Parser.Harmless attributePath := by unfold attributePath; infer_instance

instance : Parser.Harmless g.attributeInput where
  goesOn c hc := by
    rw [attributeInput]
    split
    · exact hc
    · exact Harmless.goesOn _ hc
    · exact hc

instance (place : Span) : Parser.Harmless (g.attributeContent place) := by
  unfold attributeContent; infer_instance

instance : Parser.Harmless g.oneAttribute := by unfold oneAttribute; infer_instance

instance : Parser.Harmless g.attributes := by unfold attributes; infer_instance

instance : Parser.Harmless g.attributeTokens := by unfold attributeTokens; infer_instance

instance : Parser.Harmless g.innerAttributes := by unfold innerAttributes; infer_instance

instance : Parser.Harmless g.block := by unfold block; infer_instance

instance : Parser.Harmless g.body := by unfold body; infer_instance

/-! ## Paths -/

instance {one : Parser (List Token)} [Parser.Harmless one] (stop : List Token → Bool) :
    Parser.Harmless (boundsUntil one stop) := by
  unfold boundsUntil; infer_instance

instance : Parser.Harmless g.paramBound := by unfold paramBound; infer_instance

instance : Parser.Harmless g.constArgument := by unfold constArgument; infer_instance

instance : Parser.Harmless g.argument := by unfold argument; infer_instance

instance : Parser.Harmless g.angleArguments := by unfold angleArguments; infer_instance

instance (inExpression : Bool) : Parser.Harmless (g.segment inExpression) := by
  unfold segment; infer_instance

instance (inExpression : Bool) (goesOn : List Token → Bool) (count : Nat)
    (p : SourcePath) : Parser.Harmless (g.furtherSegments inExpression goesOn count p) := by
  induction count generalizing p with
  | zero => unfold furtherSegments; infer_instance
  | succ count ih => unfold furtherSegments; infer_instance

instance (inExpression : Bool) : Parser.Harmless (g.genericPath inExpression) where
  goesOn c hc := by
    rw [genericPath]
    exact Harmless.goesOn c hc

instance (inExpression : Bool) : Parser.Harmless (g.pathFromType inExpression) where
  goesOn c hc := by
    rw [pathFromType]
    exact Harmless.goesOn c hc

instance (inExpression : Bool) : Parser.Harmless (g.qualifiedPath inExpression) := by
  unfold qualifiedPath; infer_instance

instance (p : SourcePath) : Parser.Harmless (macroInput? p) := by
  unfold macroInput?; infer_instance

/-! ## Generic parameters and bounds -/

instance : Parser.Harmless lifetimeTokens := by unfold lifetimeTokens; infer_instance

instance (attrs : List Token) : Parser.Harmless (lifetimeParam attrs) := by
  unfold lifetimeParam; infer_instance

instance (attrs : List Token) : Parser.Harmless (g.typeParam attrs) := by
  unfold typeParam; infer_instance

instance (attrs : List Token) : Parser.Harmless (g.constParam attrs) := by
  unfold constParam; infer_instance

instance : Parser.Harmless g.itemParam := by unfold itemParam; infer_instance

instance : Parser.Harmless g.binderParam := by unfold binderParam; infer_instance

instance : Parser.Harmless g.generics := by unfold generics; infer_instance

instance : Parser.Harmless g.binder := by unfold binder; infer_instance

instance : Parser.Harmless g.functionArguments? := by unfold functionArguments?; infer_instance

instance (admitted : Bool) : Parser.Harmless (constMark admitted) := by
  unfold constMark; infer_instance

instance (const : Bool) : Parser.Harmless (g.traitBound const) := by
  unfold traitBound; infer_instance

instance : Parser.Harmless capture := by unfold capture; infer_instance

instance (admitted : Bool) : Parser.Harmless (captures admitted) := by
  unfold captures; infer_instance

instance (admitsCaptures const : Bool) : Parser.Harmless (g.boundStep admitsCaptures const) := by
  unfold boundStep; infer_instance

instance (plus admitsCaptures const : Bool) (count : Nat) :
    Parser.Harmless (bounds.go g plus admitsCaptures const count) := by
  induction count with
  | zero => unfold bounds.go; infer_instance
  | succ count ih => unfold bounds.go; infer_instance

instance (plus admitsCaptures const : Bool) :
    Parser.Harmless (g.bounds plus admitsCaptures const) where
  goesOn c hc := by
    rw [bounds]
    exact Harmless.goesOn c hc

instance : Parser.Harmless g.condition := by unfold condition; infer_instance

instance : Parser.Harmless g.whereClause := by unfold whereClause; infer_instance

instance : Parser.Harmless g.whereClause? := by unfold whereClause?; infer_instance

instance : Parser.Harmless g.whereTokens := by unfold whereTokens; infer_instance

instance : Parser.Harmless g.genericTokens := by unfold genericTokens; infer_instance

/-! ## Types -/

instance (plus : Bool) : Parser.Harmless (g.result plus) := by unfold result; infer_instance

instance (cause : SyntaxError.Cause) [cause.Harmless] (start : Span)
    (plus admitsCaptures const : Bool) :
    Parser.Harmless (g.bodyOfBounds cause start plus admitsCaptures const) := by
  unfold bodyOfBounds
  refine .bind inferInstance fun bs => ?_
  split
  · split <;> infer_instance
  · infer_instance

instance : Parser.Harmless g.bareBounds where
  goesOn c hc := by
    rw [bareBounds]
    exact Harmless.goesOn c hc

instance : Parser.Harmless g.furtherBounds := by unfold furtherBounds; infer_instance

instance : Parser.Harmless g.plusBounds := by unfold plusBounds; infer_instance

instance (plus : Bool) : Parser.Harmless (g.dynType plus) := by unfold dynType; infer_instance

instance (plus : Bool) : Parser.Harmless (g.implType plus) := by unfold implType; infer_instance

instance (params : List Token) (plus : Bool) : Parser.Harmless (g.pathType params plus) := by
  unfold pathType; infer_instance

instance (first : SourceType) : Parser.Harmless (g.insideAfter first) := by
  unfold insideAfter; infer_instance

instance : Parser.Harmless g.inside := by unfold inside; infer_instance

instance (plus : Bool) (i : Inside) (opening closing : Span) :
    Parser.Harmless (g.afterParens plus i opening closing) := by
  unfold afterParens
  cases i with
  | tuple ts => infer_instance
  | bounds ts => infer_instance
  | optional ts => infer_instance
  | single t =>
    dsimp only
    cases asBound? t opening closing <;> infer_instance

instance (plus : Bool) : Parser.Harmless (g.parenType plus) := by unfold parenType; infer_instance

instance (t : SourceType) : Parser.Harmless (g.afterUnseen t) where
  goesOn c hc := by
    rw [afterUnseen]
    exact Harmless.goesOn c hc

instance : Parser.Harmless g.bracketType := by unfold bracketType; infer_instance

instance : Parser.Harmless convention := by unfold convention; infer_instance

instance (isFirst : Bool) : Parser.Harmless (g.functionTypeParam isFirst) := by
  unfold functionTypeParam; infer_instance

instance (isFirst : Bool) (count : Nat) : Parser.Harmless (g.functionTypeParams isFirst count) := by
  induction count generalizing isFirst with
  | zero => unfold functionTypeParams; infer_instance
  | succ count ih => unfold functionTypeParams; infer_instance

instance : Parser.Harmless g.functionType := by
  have hparams : Parser.Harmless fun c => g.functionTypeParams true (c.rest.length + 1) c :=
    ⟨fun c => Harmless.goesOn c⟩
  unfold functionType
  infer_instance

instance (plus : Bool) : Parser.Harmless (g.typeStep plus) := by unfold typeStep; infer_instance

/-! ## Patterns -/

theorem stops_fieldNumber {spelling : String} {cause : SyntaxError.Cause}
    (h : fieldNumber spelling = .error cause) : cause.stops = false := by
  rw [fieldNumber] at h
  split at h
  · cases h
    rfl
  · cases h
    rfl
  · split at h
    · cases h
      rfl
    · cases h

theorem stops_negativeFieldNumber (spelling : String) :
    (negativeFieldNumber spelling).stops = false := by
  rw [negativeFieldNumber]
  split <;> rfl

instance : Parser.Harmless member where
  goesOn c hc := by
    rw [member]
    split
    · split
      · exact Harmless.goesOn c hc
      · exact hc
    · split
      · exact Harmless.goesOn c hc
      · split
        · exact hc
        · next hnumber => exact stops_fieldNumber hnumber
    · split
      · exact Harmless.goesOn c hc
      · exact stops_negativeFieldNumber _
    · exact Harmless.goesOn c hc

instance : Parser.Harmless g.rangeEnd? := by unfold rangeEnd?; infer_instance

instance : Parser.Harmless innerDots := by unfold innerDots; infer_instance

instance (start : List Token) : Parser.Harmless (g.rangeFrom start) := by
  unfold rangeFrom; infer_instance

instance : Parser.Harmless g.rangeTo := by unfold rangeTo; infer_instance

instance : Parser.Harmless g.furtherAlternatives := by unfold furtherAlternatives; infer_instance

instance : Parser.Harmless g.alternatives := by unfold alternatives; infer_instance

instance : Parser.Harmless g.tupleParts := by unfold tupleParts; infer_instance

instance : Parser.Harmless g.slicePart := by
  unfold slicePart
  refine .bind inferInstance fun p => ?_
  split <;> infer_instance

instance : Parser.Harmless g.fieldPattern := by unfold fieldPattern; infer_instance

instance : Parser.Harmless g.fieldPatterns := by unfold fieldPatterns; infer_instance

instance : Parser.Harmless g.pathPattern := by unfold pathPattern; infer_instance

instance : Parser.Harmless g.namePattern := by unfold namePattern; infer_instance

instance : Parser.Harmless g.patternStep := by unfold patternStep; infer_instance

/-! ## Operands -/

instance : Parser.Harmless g.value := by unfold value; infer_instance

instance : Parser.Harmless g.head := by unfold head; infer_instance

instance (count : Nat) : Parser.Harmless (g.ifChain count) := by
  induction count with
  | zero => unfold ifChain; infer_instance
  | succ count ih => unfold ifChain; infer_instance

instance : Parser.Harmless g.whileLoop := by unfold whileLoop; infer_instance

instance : Parser.Harmless g.forLoop := by unfold forLoop; infer_instance

instance : Parser.Harmless g.arm := by unfold arm; infer_instance

instance : Parser.Harmless g.matchBlock := by unfold matchBlock; infer_instance

instance : Parser.Harmless g.keywordBody := by unfold keywordBody; infer_instance

instance : Parser.Harmless g.labelled := by unfold labelled; infer_instance

instance : Parser.Harmless g.blockConstruct? := by
  have hchain : Parser.Harmless fun c => g.ifChain c.rest.length c :=
    ⟨fun c => Harmless.goesOn c⟩
  unfold blockConstruct?
  infer_instance

instance : Parser.Harmless g.closureParam := by unfold closureParam; infer_instance

instance (braces : Bool) : Parser.Harmless (g.closure braces) := by unfold closure; infer_instance

instance (braces : Bool) : Parser.Harmless (g.breakJump braces) := by
  unfold breakJump; infer_instance

instance : Parser.Harmless g.returnJump := by unfold returnJump; infer_instance

instance : Parser.Harmless dots := by unfold dots; infer_instance

instance (braces : Bool) : Parser.Harmless (g.rangeTail braces) := by
  unfold rangeTail; infer_instance

instance : Parser.Harmless g.fieldValue := by unfold fieldValue; infer_instance

instance : Parser.Harmless g.fieldValues := by unfold fieldValues; infer_instance

instance (braces : Bool) : Parser.Harmless (g.pathOperand braces) := by
  unfold pathOperand; infer_instance

instance : Parser.Harmless g.arguments := by unfold arguments; infer_instance

instance : Parser.Harmless g.array := by unfold array; infer_instance

instance : Parser.Harmless builtin := by unfold builtin; infer_instance

instance : Parser.Harmless g.becomeJump := by unfold becomeJump; infer_instance

instance (braces : Bool) : Parser.Harmless (g.atom braces) := by unfold atom; infer_instance

/-! ## Expressions -/

theorem stops_mapM {α β : Type} {f : α → Except SyntaxError β} {xs : List α} {e : SyntaxError}
    (hf : ∀ a e, f a = .error e → e.cause.stops = false) (h : xs.mapM f = .error e) :
    e.cause.stops = false := by
  induction xs with
  | nil => cases h
  | cons x xs ih =>
    rw [List.mapM_cons] at h
    cases hx : f x with
    | error e' =>
      rw [hx] at h
      cases h
      exact hf x e hx
    | ok b =>
      rw [hx] at h
      cases hxs : xs.mapM f with
      | error e' =>
        rw [hxs] at h
        cases h
        exact ih hxs
      | ok bs =>
        rw [hxs] at h
        cases h

theorem stops_fieldNumbers {spelling : String} {place : Span} {e : SyntaxError}
    (h : fieldNumbers spelling place = .error e) : e.cause.stops = false := by
  rw [fieldNumbers] at h
  dsimp only [bind, Except.bind] at h
  split at h
  · next hnumbers =>
    cases h
    refine stops_mapM (fun part e he => ?_) hnumbers
    split at he
    · cases he
    · next hpart =>
      cases he
      exact stops_fieldNumber hpart
  · cases h

instance : Parser.Harmless decimalFields? where
  goesOn c hc := by
    rw [decimalFields?]
    split
    · split
      · next spelling s _ _ _ =>
        cases hfields : fieldNumbers spelling s with
        | error e => exact stops_fieldNumbers hfields
        | ok q => exact hc
      · exact hc
    · split
      · exact stops_negativeFieldNumber _
      · exact hc
    · exact hc

instance : Parser.Harmless g.selection := by unfold selection; infer_instance

instance (count : Nat) (e : SourceExpression) : Parser.Harmless (g.trailersUpTo count e) := by
  induction count generalizing e with
  | zero => unfold trailersUpTo; infer_instance
  | succ count ih => unfold trailersUpTo; infer_instance

instance (e : SourceExpression) : Parser.Harmless (g.trailers e) where
  goesOn c hc := by
    rw [trailers]
    exact Harmless.goesOn c hc

instance : Parser.Harmless referenceSign := by unfold referenceSign; infer_instance

instance (braces : Bool) (count : Nat) : Parser.Harmless (g.unaryUpTo braces count) := by
  induction count with
  | zero => unfold unaryUpTo; infer_instance
  | succ count ih =>
    -- an operand that is a range must have no attributes
    have hplain : ∀ (attrs : List Token) (e : SourceExpression), Parser.Harmless (do
        if let .range place := e.kind then
          if !attrs.isEmpty then throw ⟨.rangeAttributes, place⟩
        return { e with tokens := attrs ++ e.tokens }) := by
      intro attrs e
      cases e.kind <;> infer_instance
    unfold unaryUpTo
    infer_instance

instance (braces : Bool) : Parser.Harmless (g.unary braces) where
  goesOn c hc := by
    rw [unary]
    exact Harmless.goesOn c hc

instance : Parser.Harmless g.castTail := by
  unfold castTail
  refine .bind inferInstance fun kw => .bind inferInstance fun t => .bind inferInstance fun c => ?_
  cases afterCast? c.rest <;> infer_instance

instance (braces : Bool) (p : Precedence) (e : SourceExpression) :
    Parser.Harmless (g.extended braces p e) := by
  unfold extended; infer_instance

instance (braces : Bool) (before : Precedence) (count : Nat) (e : SourceExpression) :
    Parser.Harmless (g.continued braces before count e) := by
  induction count generalizing e with
  | zero => unfold continued; infer_instance
  | succ count ih => unfold continued; infer_instance

instance (braces : Bool) (before : Precedence) : Parser.Harmless (g.operandStep braces before) where
  goesOn c hc := by
    rw [operandStep]
    exact Harmless.goesOn c hc

instance : Parser.Harmless g.statementExpressionStep where
  goesOn c hc := by
    rw [statementExpressionStep]
    exact Harmless.goesOn c hc

/-! ## Statements -/

instance : Parser.Harmless g.localName := by unfold localName; infer_instance

instance : Parser.Harmless macroStatement := by unfold macroStatement; infer_instance

instance : Parser.Harmless g.statement := by unfold statement; infer_instance

instance : Parser.Harmless g.statementsStep := by unfold statementsStep; infer_instance

/-! ## Functions -/

instance : Parser.Harmless g.receiver := by unfold receiver; infer_instance

instance : Parser.Harmless g.param := by unfold param; infer_instance

instance (isFirst received : Bool) (count : Nat) :
    Parser.Harmless (g.params isFirst received count) := by
  induction count generalizing isFirst received with
  | zero => unfold params; infer_instance
  | succ count ih =>
    unfold params
    refine .bind inferInstance fun ended => ?_
    split
    · infer_instance
    · refine .bind inferInstance fun attrs => .bind inferInstance fun q => ?_
      obtain ⟨ts, kind⟩ := q
      cases kind <;> infer_instance

instance (admitted : Bool) : Parser.Harmless (g.signature admitted) := by
  have hparams : Parser.Harmless fun c => g.params true false (c.rest.length + 1) c :=
    ⟨fun c => Harmless.goesOn c⟩
  unfold signature
  infer_instance

/-! ## Associated items -/

instance (stop : List Token → Bool) : Parser.Harmless (g.boundsBefore stop) := by
  unfold boundsBefore; infer_instance

instance : Parser.Harmless g.initial? := by unfold initial?; infer_instance

instance : Parser.Harmless g.constDeclaration := by unfold constDeclaration; infer_instance

instance (conditionPlace : ConditionPlace) : Parser.Harmless (g.typeNaming conditionPlace) := by
  unfold typeNaming; infer_instance

instance : Parser.Harmless macroUse := by unfold macroUse; infer_instance

instance : Parser.Harmless g.bodyOrEnd := by unfold bodyOrEnd; infer_instance

instance (plain : Bool) : Parser.Harmless (g.traitMemberAfter plain) := by
  unfold traitMemberAfter; infer_instance

instance : Parser.Harmless g.traitMember := by unfold traitMember; infer_instance

instance (plain special : Bool) : Parser.Harmless (g.implMemberAfter plain special) := by
  unfold implMemberAfter; infer_instance

instance : Parser.Harmless g.implMember := by unfold implMember; infer_instance

instance : Parser.Harmless g.foreignFunction := by unfold foreignFunction; infer_instance

instance : Parser.Harmless g.foreignStatic := by unfold foreignStatic; infer_instance

instance : Parser.Harmless g.foreignMember := by unfold foreignMember; infer_instance

instance {member : Parser (List Token)} [Parser.Harmless member] :
    Parser.Harmless (g.members member) := by
  unfold members; infer_instance

/-! ## Items -/

instance (depth : Nat) : Parser.Harmless (g.namedFieldAt depth) := by
  induction depth with
  | zero => unfold namedFieldAt; infer_instance
  | succ depth ih => unfold namedFieldAt; infer_instance

instance : Parser.Harmless g.namedField where
  goesOn c hc := by
    rw [namedField]
    exact Harmless.goesOn c hc

instance : Parser.Harmless g.tupleField := by unfold tupleField; infer_instance

instance : Parser.Harmless g.namedFields := by unfold namedFields; infer_instance

instance : Parser.Harmless g.tupleFields := by unfold tupleFields; infer_instance

instance (keyword : String) : Parser.Harmless (g.itemHead keyword) := by
  unfold itemHead; infer_instance

instance : Parser.Harmless g.structItem := by unfold structItem; infer_instance

instance : Parser.Harmless g.variant := by unfold variant; infer_instance

instance : Parser.Harmless g.enumItem := by unfold enumItem; infer_instance

instance : Parser.Harmless g.unionItem := by unfold unionItem; infer_instance

instance : Parser.Harmless g.functionItem := by unfold functionItem; infer_instance

instance : Parser.Harmless g.staticItem := by unfold staticItem; infer_instance

instance : Parser.Harmless g.constItem := by unfold constItem; infer_instance

instance : Parser.Harmless g.typeItem := by unfold typeItem; infer_instance

instance : Parser.Harmless newName := by unfold newName; infer_instance

instance (rootable : Bool) (depth : Nat) : Parser.Harmless (importTree rootable depth) := by
  induction depth generalizing rootable with
  | zero => unfold importTree; infer_instance
  | succ depth ih => unfold importTree; infer_instance

instance : Parser.Harmless useItem where
  goesOn c hc := by
    rw [useItem]
    exact Harmless.goesOn c hc

instance : Parser.Harmless externCrate := by unfold externCrate; infer_instance

instance : Parser.Harmless g.moduleItem := by unfold moduleItem; infer_instance

instance : Parser.Harmless g.foreignModule := by unfold foreignModule; infer_instance

instance (vis : SourceVisibility) (start : Span) : Parser.Harmless (g.externItem vis start) := by
  unfold externItem; infer_instance

instance : Parser.Harmless g.traitRest := by unfold traitRest; infer_instance

instance : Parser.Harmless g.traitItem := by unfold traitItem; infer_instance

instance : Parser.Harmless constImplMark := by unfold constImplMark; infer_instance

instance (vis : SourceVisibility) : Parser.Harmless (g.implItem vis) := by
  unfold implItem; infer_instance

instance : Parser.Harmless macroItem := by unfold macroItem; infer_instance

instance : Parser.Harmless macroDeclaration := by unfold macroDeclaration; infer_instance

instance (vis : SourceVisibility) (start : Span) : Parser.Harmless (g.unsafeItem vis start) := by
  unfold unsafeItem; infer_instance

instance (vis : SourceVisibility) (start : Span) : Parser.Harmless (g.otherAfter vis start) := by
  unfold otherAfter; infer_instance

instance : Parser.Harmless g.otherItem := by unfold otherItem; infer_instance

instance : Parser.Harmless g.itemStep := by unfold itemStep; infer_instance

/-! ## All that is read -/

instance (depth : Nat) : (upTo depth).Harmless := by
  induction depth with
  | zero =>
    have hnone {α : Type} : Parser.Harmless (unexpected : Parser α) := inferInstance
    exact ⟨fun _ => hnone, fun _ _ => hnone, fun _ _ => hnone, hnone, hnone, hnone, hnone⟩
  | succ depth ih =>
    have hitem : Parser.Harmless (Item.tokens <$> (upTo depth).itemStep) := inferInstance
    exact {
      type plus := inferInstanceAs (Parser.Harmless ((upTo depth).typeStep plus))
      bound captures const :=
        inferInstanceAs (Parser.Harmless ((upTo depth).boundStep captures const))
      operand braces before :=
        inferInstanceAs (Parser.Harmless ((upTo depth).operandStep braces before))
      statementExpression :=
        inferInstanceAs (Parser.Harmless (upTo depth).statementExpressionStep)
      pattern := inferInstanceAs (Parser.Harmless (upTo depth).patternStep)
      statements := inferInstanceAs (Parser.Harmless (upTo depth).statementsStep)
      item := hitem }

/-- All that is read from source is read by a grammar. -/
theorem harmless_read {α : Type} {p : Grammar → Parser α}
    (hp : ∀ g : Grammar, g.Harmless → Parser.Harmless (p g)) : Parser.Harmless (read p) where
  goesOn c hc := (hp _ inferInstance).goesOn c hc

end Grammar

namespace Parser

instance (plus : Bool) : Harmless (type plus) := Grammar.harmless_read fun _ _ => inferInstance

instance (first : SourceType) : Harmless (insideAfter first) :=
  Grammar.harmless_read fun _ _ => inferInstance

instance (i : Grammar.Inside) (opening closing : Span) : Harmless (afterParens i opening closing) :=
  Grammar.harmless_read fun _ _ => inferInstance

instance (t : SourceType) : Harmless (afterUnseen t) :=
  Grammar.harmless_read fun _ _ => inferInstance

end Parser

end PackedFields

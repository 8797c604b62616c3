import PackedFields.Generated.Member
import PackedFields.Proofs.Numerals
import PackedFields.Proofs.ReadNames

/-!
# Written expressions mean what they are

An expression, written out as tokens, reads as the tree that it is (`Expr.term`), just in case the
names of its parameters are operands; a reserved word is not. What is not a name or a call stands in
parentheses as an operand, and then it is a single operand whatever it holds; so at each level of
parentheses there are operands and no more than one kind of operator, and the levels of operators
have nothing to decide.

The tree is read back from the term (`Term.expr?`), except that a list of one term is that term, and
the term has the value of the expression.
-/

namespace PackedFields

/-! ## Expressions as terms -/

namespace Expr

/-- What holds of an expression as soon as it holds of its parts holds of all expressions. -/
theorem induction {motive : Expr → Prop} (backing : motive backing)
    (param : ∀ n, motive (param n)) (shr : ∀ e n, motive e → motive (shr e n))
    (shl : ∀ e n, motive e → motive (shl e n)) (mask : ∀ e n, motive e → motive (mask e n))
    (cast : ∀ e t, motive e → motive (cast e t)) (ofBool : ∀ e t, motive e → motive (ofBool e t))
    (test : ∀ e, motive e → motive (test e))
    (or : ∀ es, (∀ e ∈ es, motive e) → motive (or es)) (e : Expr) : motive e :=
  @Expr.rec motive (fun es => ∀ e ∈ es, motive e) backing param shr shl mask cast ofBool test or
    (fun _ h => absurd h List.not_mem_nil)
    (fun _ _ he hes => List.forall_mem_cons.mpr ⟨he, hes⟩) e

mutual

/-- The expression without lists of one term. -/
def plain : Expr → Expr
  | backing => backing
  | param n => param n
  | shr e n => shr (plain e) n
  | shl e n => shl (plain e) n
  | mask e width => mask (plain e) width
  | cast e t => cast (plain e) t
  | ofBool e t => ofBool (plain e) t
  | test e => test (plain e)
  | or [e] => plain e
  | or es => or (plainAll es)

/-- All the expressions without lists of one term. -/
def plainAll : List Expr → List Expr
  | [] => []
  | e :: es => plain e :: plainAll es

end

mutual

/-- The names of the parameters in an expression. -/
def names : Expr → List Name
  | backing => []
  | param n => [n]
  | shr e _ => names e
  | shl e _ => names e
  | mask e _ => names e
  | cast e _ => names e
  | ofBool e _ => names e
  | test e => names e
  | or terms => namesAll terms

/-- The names of the parameters in the expressions. -/
def namesAll : List Expr → List Name
  | [] => []
  | e :: es => names e ++ namesAll es

end

theorem mem_namesAll_iff {n : Name} {es : List Expr} :
    n ∈ namesAll es ↔ ∃ e ∈ es, n ∈ e.names := by
  induction es with
  | nil => simp [namesAll]
  | cons e es ih => rw [namesAll, List.mem_append, ih, List.exists_mem_cons_iff]

section Term

variable (read : Term)

mutual

/-- The expression as a term, where `read` is how the backing integer is read. -/
def term : Expr → Term
  | backing => read
  | param n => .name n
  | shr e n => .binary ">>" (term e) (.number n)
  | shl e n => .binary "<<" (term e) (.number n)
  | mask e width => .binary "&" (term e) (.number (2 ^ width - 1))
  | cast e t => .cast (term e) t
  | ofBool e t => .conversion t (term e)
  | test e => .binary "==" (term e) (.number 1)
  | or [] => .number 0
  | or [e] => term e
  | or es => .or (termAll es)

/-- All the expressions as terms. -/
def termAll : List Expr → List Term
  | [] => []
  | e :: es => term e :: termAll es

end

end Term

end Expr

namespace Term

/-- The expression that an operator makes of an expression and a number. -/
def operation? (operator : String) (e : Expr) (n : Nat) : Option Expr :=
  if operator = ">>" then some (.shr e n)
  else if operator = "<<" then some (.shl e n)
  else if operator = "&" then if n = 2 ^ n.size - 1 then some (.mask e n.size) else none
  else if operator = "==" then if n = 1 then some (.test e) else none
  else none

mutual

/-- The expression that a term is. What is kept as it is written is the backing integer, and the
number 0 stands for no terms at all. -/
def expr? : Term → Option Expr
  | name n => some (.param n)
  | number n => if n = 0 then some (.or []) else none
  | written _ => some .backing
  | conversion t argument => do return .ofBool (← expr? argument) t
  | cast operand t => do return .cast (← expr? operand) t
  | binary operator left (number n) => do operation? operator (← expr? left) n
  | binary _ _ _ => none
  | or terms => do return .or (← exprAll? terms)

/-- The expressions that the terms are. -/
def exprAll? : List Term → Option (List Expr)
  | [] => some []
  | t :: ts => do return (← expr? t) :: (← exprAll? ts)

end

end Term

/-! ## Written expressions -/

namespace Leaf

theorem ofTokens_append (as bs : List Token) :
    ofTokens (as ++ bs) = ofTokens as ++ ofTokens bs := by
  induction as with
  | nil => rfl
  | cons t as ih => rw [List.cons_append, ofTokens, ih, ofTokens, List.cons_append]

end Leaf

theorem readOperand?_number (n : Nat) : Term.readOperand? [Code.number n] = some (.number n) := by
  show some (((Literal.whole? (toString n)).map Term.number).getD _) = _
  rw [Literal.whole?_toString]
  rfl

theorem readOperand?_maskLiteral (width : Nat) :
    Term.readOperand? [Expr.maskLiteral width] = some (.number (2 ^ width - 1)) := by
  show some (((Literal.whole? _).map Term.number).getD _) = _
  rw [Literal.whole?_ones]
  rfl

theorem readOperand?_parens {ts : List Token} {t : Term} (h : Term.read? ts = some t) :
    Term.readOperand? [Code.parens ts] = some t := by
  show some ((Term.read? ts).getD _) = _
  rw [h]
  rfl

theorem readOperand?_conversion {ts : List Token} {t : Term} (h : Term.read? ts = some t)
    (type : IntType) :
    Term.readOperand? ([type.token] ++ Code.pathSep ++ [Code.word "from", Code.parens ts]) =
      some (.conversion type t) := by
  show (conversion? [_, _, _, _, ⟨_, Term.read? ts⟩]).or _ = _
  rw [h]
  show ((IntType.ofName? type.name).map (Term.conversion · t)).or _ = _
  rw [type.ofName?_name]
  rfl

namespace Expr

/-- Whether an expression reads as its term, both on its own and as an operand. -/
structure Reads (read : List Token) (p : Term) (e : Expr) : Prop where
  /-- On its own it reads as its term. -/
  whole : Term.read? (e.tokens read) = some (e.term p)
  /-- As an operand it is one operand. -/
  operand : Term.readOperand? (e.enclosed (e.tokens read)) = some (e.term p)

section Reads

variable {read : List Token} {p : Term} {e : Expr}

theorem reads_of_tight (htight : e.isTight)
    (h : Term.readOperand? (e.tokens read) = some (e.term p)) : e.Reads read p where
  whole := expression?_operand h
  operand := by
    rw [enclosed, if_pos htight]
    exact h

theorem reads_of_not_tight (htight : e.isTight = false)
    (h : Term.read? (e.tokens read) = some (e.term p)) : e.Reads read p where
  whole := h
  operand := by
    rw [enclosed, htight, if_neg Bool.false_ne_true]
    exact readOperand?_parens h

/-- Two operands with an operator between them. -/
theorem read?_binary (op : String × Precedence) {left right : Term} {ts sign rs : List Token}
    (hleft : Term.readOperand? ts = some left) (hright : Term.readOperand? rs = some right)
    (hlevel : op.2 ∈ Precedence.levels)
    (hsign : ∀ rest, splitOperators 0 (Leaf.ofTokens sign ++ rest) =
      ([], (op, (splitOperators 0 rest).1) :: (splitOperators 0 rest).2)) :
    Term.read? (ts ++ sign ++ rs) = Term.applied op.2 left [(op.1, right)] := by
  rw [Term.read?, Leaf.ofTokens_append, Leaf.ofTokens_append]
  exact expression?_binary hleft hright hlevel hsign

/-- The terms after the first are pieces after an operator each. -/
theorem splitOperators_furtherTerms {es : List Expr} (h : ∀ e ∈ es, e.Reads read p) :
    splitOperators 0 (Leaf.ofTokens (furtherTerms read es)) =
      ([], es.map fun e => (("|", .bitOr), Leaf.ofTokens (e.enclosed (e.tokens read)))) := by
  induction es with
  | nil => rfl
  | cons e es ih =>
    obtain ⟨he, hes⟩ := List.forall_mem_cons.mp h
    have hsign : ∀ ls, splitOperators 0 (Leaf.ofTokens [Code.sign '|'] ++ ls) =
        ([], (("|", .bitOr), (splitOperators 0 ls).1) :: (splitOperators 0 ls).2) := fun _ => rfl
    show splitOperators 0 (Leaf.ofTokens ([Code.sign '|'] ++ e.enclosed (e.tokens read) ++
      furtherTerms read es)) = _
    rw [Leaf.ofTokens_append, Leaf.ofTokens_append, List.append_assoc, hsign,
      splitOperators_operand_append he.operand, ih hes, List.append_nil, List.map_cons]

theorem termAll_eq_map (es : List Expr) : termAll p es = es.map (term p) := by
  induction es with
  | nil => rfl
  | cons e es ih => rw [termAll, ih, List.map_cons]

/-- Two terms or more are operands with `|` between them. -/
theorem read?_or {e : Expr} {es : List Expr} (hne : es ≠ []) (he : e.Reads read p)
    (hes : ∀ e ∈ es, e.Reads read p) :
    Term.read? (e.enclosed (e.tokens read) ++ furtherTerms read es) =
      some (.or (termAll p (e :: es))) := by
  have htails : List.Forall₂ (fun piece (t : Tail) =>
      piece.1 = (t.operator, t.precedence) ∧ operand? piece.2 = some t.operand)
      (es.map fun e => (("|", Precedence.bitOr), Leaf.ofTokens (e.enclosed (e.tokens read))))
      (es.map fun e => ⟨"|", .bitOr, e.term p⟩) := by
    rw [List.forall₂_map_left_iff, List.forall₂_map_right_iff, List.forall₂_same]
    exact fun e he => ⟨rfl, (hes e he).operand⟩
  have hlevel : ∀ t ∈ es.map fun e => (⟨"|", .bitOr, e.term p⟩ : Tail), t.precedence = .bitOr := by
    rw [List.forall_mem_map]
    exact fun _ _ => rfl
  rw [Term.read?, Leaf.ofTokens_append,
    expression?_chain he.operand (splitOperators_furtherTerms hes) htails (by decide) hlevel,
    termAll_eq_map]
  cases es with
  | nil => exact absurd rfl hne
  | cons e' es =>
    simp only [List.map_cons, Term.applied, List.map_map]
    rfl

theorem readOperand?_name {n : Name} (h : n.isOperand = true) :
    Term.readOperand? [Code.name n] = some (.name n) :=
  if_pos h

/-- Every expression whose parameters have names that are operands reads as its term. -/
theorem reads (hread : Term.readOperand? read = some p) (e : Expr)
    (hnames : ∀ n ∈ e.names, n.isOperand = true) : e.Reads read p := by
  -- alone and as an operand at once: the parts of an expression are read as operands, but the
  -- argument of a conversion and the only one of a list of terms are read alone
  induction e using induction with
  | backing => exact reads_of_tight rfl hread
  | param n =>
    exact reads_of_tight rfl (readOperand?_name (hnames n List.mem_cons_self))
  | shr e n ih =>
    exact reads_of_not_tight rfl
      (read?_binary (">>", .shift) (ih hnames).operand (readOperand?_number n) (by decide)
        fun _ => rfl)
  | shl e n ih =>
    exact reads_of_not_tight rfl
      (read?_binary ("<<", .shift) (ih hnames).operand (readOperand?_number n) (by decide)
        fun _ => rfl)
  | mask e width ih =>
    refine reads_of_not_tight rfl ?_
    -- the operator and the literal are written as one list
    show Term.read? (e.enclosed (e.tokens read) ++
      ([Code.sign '&'] ++ [maskLiteral width])) = _
    rw [← List.append_assoc]
    exact read?_binary ("&", .bitAnd) (ih hnames).operand (readOperand?_maskLiteral width)
      (by decide) fun _ => rfl
  | cast e t ih =>
    refine reads_of_not_tight rfl ?_
    show expression? (Leaf.ofTokens (e.enclosed (e.tokens read) ++
      [Code.word "as", t.token])) = _
    rw [Leaf.ofTokens_append]
    exact expression?_cast (ih hnames).operand t _ _
  | ofBool e t ih => exact reads_of_tight rfl (readOperand?_conversion (ih hnames).whole t)
  | test e ih =>
    exact reads_of_not_tight rfl
      (read?_binary ("==", .compare) (ih hnames).operand (readOperand?_number 1) (by decide)
        fun _ => rfl)
  | or es ih =>
    refine reads_of_not_tight rfl ?_
    have hreads : ∀ e ∈ es, e.Reads read p :=
      fun e he => ih e he fun n hn => hnames n (mem_namesAll_iff.mpr ⟨e, he, hn⟩)
    match es with
    | [] => exact expression?_operand (readOperand?_number 0)
    | [e] => exact (hreads e List.mem_cons_self).whole
    | e :: e' :: es =>
      obtain ⟨he, hes⟩ := List.forall_mem_cons.mp hreads
      exact read?_or (List.cons_ne_nil e' es) he hes

end Reads

/-! ## What a term tells of the expression -/

theorem size_two_pow_sub_one (width : Nat) : (2 ^ width - 1).size = width := by
  refine le_antisymm (Nat.size_le.mpr (Nat.sub_lt (by positivity) Nat.one_pos)) ?_
  cases width with
  | zero => exact Nat.zero_le _
  | succ k =>
    have hpow : 1 ≤ 2 ^ k := Nat.one_le_two_pow
    refine Nat.lt_size.mpr ?_
    rw [pow_succ]
    omega

/-- Nothing but lists of one term is lost in a term. -/
theorem expr?_term (ts : List Token) (e : Expr) : (e.term (.written ts)).expr? = some e.plain := by
  induction e using induction with
  | backing => rfl
  | param n => rfl
  | shr e n ih =>
    show ((e.term (.written ts)).expr? >>= fun e => Term.operation? ">>" e n) = _
    rw [ih]
    rfl
  | shl e n ih =>
    show ((e.term (.written ts)).expr? >>= fun e => Term.operation? "<<" e n) = _
    rw [ih]
    rfl
  | mask e width ih =>
    show ((e.term (.written ts)).expr? >>= fun e => Term.operation? "&" e (2 ^ width - 1)) = _
    rw [ih]
    show (if 2 ^ width - 1 = 2 ^ (2 ^ width - 1).size - 1 then
      some (mask e.plain (2 ^ width - 1).size) else none) = _
    rw [size_two_pow_sub_one, if_pos rfl]
    rfl
  | cast e t ih =>
    show ((e.term (.written ts)).expr? >>= fun e => some (cast e t)) = _
    rw [ih]
    rfl
  | ofBool e t ih =>
    show ((e.term (.written ts)).expr? >>= fun e => some (ofBool e t)) = _
    rw [ih]
    rfl
  | test e ih =>
    show ((e.term (.written ts)).expr? >>= fun e => Term.operation? "==" e 1) = _
    rw [ih]
    rfl
  | or es ih =>
    have hall : Term.exprAll? (termAll (.written ts) es) = some (plainAll es) := by
      induction es with
      | nil => rfl
      | cons e es ihes =>
        obtain ⟨he, hes⟩ := List.forall_mem_cons.mp ih
        show ((e.term (.written ts)).expr? >>= fun e =>
          Term.exprAll? (termAll (.written ts) es) >>= fun es => some (e :: es)) = _
        rw [he, ihes hes]
        rfl
    match es with
    | [] => rfl
    | [e] => exact ih e List.mem_cons_self
    | e :: e' :: es =>
      show (Term.exprAll? (termAll (.written ts) (e :: e' :: es)) >>= fun es => some (or es)) = _
      rw [hall]
      rfl

theorem eval_or_singleton (env : Env) (e : Expr) : eval env (or [e]) = eval env e := BitVec.or_zero

theorem eval_plain (env : Env) (e : Expr) : e.plain.eval env = e.eval env := by
  induction e using induction with
  | backing => rfl
  | param n => rfl
  | shr e n ih => exact congrArg (wordShr · n) ih
  | shl e n ih => exact congrArg (wordShl · n &&& ones env.type.bits) ih
  | mask e width ih => exact congrArg (· &&& ones width) ih
  | cast e t ih => exact congrArg (· &&& ones t.bits) ih
  | ofBool e t ih => exact congrArg (fun w => truth (w != 0)) ih
  | test e ih => exact congrArg (fun w => truth (w == 1)) ih
  | or es ih =>
    have hall : evalAll env (plainAll es) = evalAll env es := by
      induction es with
      | nil => rfl
      | cons e es ihes =>
        obtain ⟨he, hes⟩ := List.forall_mem_cons.mp ih
        show e.plain.eval env ||| evalAll env (plainAll es) = e.eval env ||| evalAll env es
        rw [he, ihes hes]
    match es with
    | [] => rfl
    | [e] =>
      rw [eval_or_singleton]
      exact ih e List.mem_cons_self
    | e :: e' :: es => exact hall

section Value

variable {env : Env} {outside : List Token → Option Nat} {p : Term}

theorem value?_binary {t : Term} {v : Nat} (h : t.value? env outside = some v) (operator : String)
    (n : Nat) :
    (Term.binary operator t (.number n)).value? env outside = Term.operate? env operator v n := by
  show (t.value? env outside >>= fun v => some n >>= fun n => Term.operate? env operator v n) = _
  rw [h]
  rfl

/-- The term of an expression has its value, if what reads the backing integer has that of the
backing integer. -/
theorem value?_term (hp : p.value? env outside = some (backing.eval env).toNat) (e : Expr) :
    (e.term p).value? env outside = some (e.eval env).toNat := by
  induction e using induction with
  | backing => exact hp
  | param n => rfl
  | shr e n ih =>
    show _ = some (wordShr (eval env e) n).toNat
    rw [toNat_wordShr]
    exact value?_binary ih ">>" n
  | shl e n ih =>
    have hdvd : 2 ^ env.type.bits ∣ 2 ^ wordBits := pow_dvd_pow 2 env.type.bits_le
    show _ = some (wordShl (eval env e) n &&& ones env.type.bits).toNat
    rw [toNat_and_ones, toNat_wordShl, Nat.mod_mod_of_dvd _ hdvd]
    exact value?_binary ih "<<" n
  | mask e width ih =>
    rw [toNat_eval_mask, ← Nat.and_two_pow_sub_one_eq_mod]
    exact value?_binary ih "&" (2 ^ width - 1)
  | cast e t ih =>
    show ((e.term p).value? env outside >>= fun v => some (v % 2 ^ t.bits)) = _
    rw [ih, toNat_eval_cast]
    rfl
  | ofBool e t ih =>
    show ((e.term p).value? env outside >>= fun v => some (v != 0).toNat) = _
    rw [ih, toNat_eval_ofBool]
    rfl
  | test e ih =>
    have hone : (eval env e == 1) = ((eval env e).toNat == 1) := by
      rw [Bool.eq_iff_iff, beq_iff_eq, beq_iff_eq, ← BitVec.toNat_inj]
      rfl
    rw [eval_test, toNat_truth, hone]
    exact value?_binary ih "==" 1
  | or es ih =>
    have hall : Term.valueAll? env outside (termAll p es) = some (evalAll env es).toNat := by
      induction es with
      | nil => rfl
      | cons e es ihes =>
        obtain ⟨he, hes⟩ := List.forall_mem_cons.mp ih
        show ((e.term p).value? env outside >>= fun v =>
          Term.valueAll? env outside (termAll p es) >>= fun vs => some (v ||| vs)) =
            some (e.eval env ||| evalAll env es).toNat
        rw [he, ihes hes, BitVec.toNat_or]
        rfl
    match es with
    | [] => rfl
    | [e] =>
      rw [eval_or_singleton]
      exact ih e List.mem_cons_self
    | e :: e' :: es => exact hall

end Value

/-- Every parameter of an expression is a name in its term. -/
theorem names_subset_term (p : Term) (e : Expr) : e.names ⊆ (e.term p).names := by
  induction e using induction with
  | backing => exact List.nil_subset _
  | param n => exact fun _ hn => hn
  | shr e n ih => exact fun m hm => List.mem_append_left _ (ih hm)
  | shl e n ih => exact fun m hm => List.mem_append_left _ (ih hm)
  | mask e width ih => exact fun m hm => List.mem_append_left _ (ih hm)
  | cast e t ih => exact ih
  | ofBool e t ih => exact ih
  | test e ih => exact fun m hm => List.mem_append_left _ (ih hm)
  | or es ih =>
    have hall : namesAll es ⊆ Term.namesAll (termAll p es) := by
      induction es with
      | nil => exact List.nil_subset _
      | cons e es ihes =>
        obtain ⟨he, hes⟩ := List.forall_mem_cons.mp ih
        exact fun m hm => List.mem_append.mpr ((List.mem_append.mp hm).imp (he ·) (ihes hes ·))
    match es with
    | [] => exact hall
    | [e] =>
      intro m hm
      refine ih e List.mem_cons_self ((List.mem_append.mp hm).elim id fun hnil => ?_)
      exact absurd hnil List.not_mem_nil
    | e :: e' :: es => exact hall

/-- Whatever one operand the backing integer is read by, the tokens of an expression read as the
tree that the expression is just in case all its parameters have names that are operands. The tree
has all of the expression, but for lists of one term, which do not matter to its value; and its
value is that of the expression. -/
theorem tokens_read_as_term_iff (read : List Token) (p : Term)
    (hread : Term.readOperand? read = some p) (e : Expr) :
    (Term.read? (e.tokens read) = some (e.term p) ↔ ∀ n ∈ e.names, n.isOperand = true) ∧
      (∀ ts, p = .written ts → (e.term p).expr? = some e.plain) ∧
      (∀ env, e.plain.eval env = e.eval env) ∧
      ∀ env outside, p.value? env outside = some (backing.eval env).toNat →
        (e.term p).value? env outside = some (e.eval env).toNat := by
  refine ⟨⟨fun h n hn => ?_, fun h => (reads hread e h).whole⟩, ?_, fun env => eval_plain env e,
    fun env outside hp => value?_term hp e⟩
  · exact Term.sound_of_read? h n (names_subset_term p e hn)
  · rintro ts rfl
    exact expr?_term ts e

/-- How a member reads a field of its own instance. -/
def ownField : List Token := [Code.word "self", Code.sign '.', Code.word "i"]

/-- Whether the bit after the first three is set. -/
def fourthBit : Expr := test (mask (shr backing 3) 1)

theorem tokens_read_as_term_fourthBit :
    Term.readOperand? ownField = some (.written ownField) ∧
      Term.read? (fourthBit.tokens ownField) =
        some (.binary "==" (.binary "&" (.binary ">>" (.written ownField) (.number 3)) (.number 1))
          (.number 1)) ∧
      (fourthBit.term (.written ownField)).expr? = some fourthBit := by
  have hread : Term.readOperand? ownField = some (.written ownField) := rfl
  obtain ⟨hterm, hexpr, -, -⟩ :=
    tokens_read_as_term_iff ownField (.written ownField) hread fourthBit
  exact ⟨hread, hterm.mpr fun _ hn => absurd hn List.not_mem_nil, hexpr ownField rfl⟩

/-- If a parameter is called `return`, what is written for its lowest bits is no expression with
that parameter in it: the word gives back what follows. -/
theorem reserved_parameter_unread :
    Term.readOperand? ownField = some (.written ownField) ∧
      ∀ p, Term.read? ((mask (param ⟨"return", false⟩) 3).tokens ownField) ≠
        some ((mask (param ⟨"return", false⟩) 3).term p) := by
  have hunread : Term.read? ((mask (param ⟨"return", false⟩) 3).tokens ownField) = none := rfl
  refine ⟨rfl, fun p h => ?_⟩
  rw [hunread] at h
  cases h

-- without parentheses, the operators bind by their levels
example :
    Term.read? ([Code.word "x"] ++ Code.operator ['=', '='] ++
      [Code.word "y", Code.sign '|', Code.word "z", Code.sign '&', Code.number 7] ++
      Code.operator ['>', '>'] ++ [Code.number 3, Code.word "as", Code.word "u8"]) =
      some (.binary "==" (.name ⟨"x", false⟩) (.or [.name ⟨"y", false⟩,
        .binary "&" (.name ⟨"z", false⟩)
          (.binary ">>" (.number 7) (.cast (.number 3) ⟨false, .w8⟩))])) := rfl

end Expr

/-! ## Members -/

theorem Name.isSelected_of_isReserved {n : Name} (h : n.isReserved = false) :
    n.isSelected = true := by
  rw [isSelected, h]
  rfl

namespace Slot

theorem names_extraction (slot : Slot) (backing : IntType) :
    (slot.extraction backing).names = [] := by
  have hshifted : (Expr.backing.shiftRight slot.offset).names = [] := by
    rw [Expr.shiftRight]
    split_ifs <;> rfl
  rw [extraction]
  cases slot.subField.kind with
  | bool =>
    dsimp only
    split_ifs <;> exact hshifted
  | int t =>
    dsimp only
    split_ifs <;> exact hshifted

theorem names_contribution (slot : Slot) (backing : IntType) :
    (slot.contribution backing).names = [slot.subField.name.parameter] := by
  rw [contribution, Expr.shiftLeft]
  cases slot.subField.kind with
  | bool => split_ifs <;> rfl
  | int t => split_ifs <;> rfl

end Slot

namespace Schema

variable {s : Schema}

theorem readOperand?_selection {n : Name} (h : n.isReserved = false) :
    Term.readOperand? [Code.word "self", Code.sign '.', Code.name n] =
      some (.written [Code.word "self", Code.sign '.', Code.name n]) := by
  have hselected := Name.isSelected_of_isReserved h
  show (if n.isSelected && true then some (Term.written _) else none) = _
  rw [hselected]
  rfl

theorem readOperand?_ownCall {n : Name} (h : n.isReserved = false) :
    Term.readOperand? (ownCall n) = some (.written (ownCall n)) := by
  have hoperand := Name.isOperand_of_isReserved h
  show (if n.isOperand && true then some (Term.written _) else none) = _
  rw [hoperand]
  rfl

/-- The tokens by which members read a backing integer are a single operand. -/
theorem readOperand?_readTokens (h : s.field.isReserved = false) :
    Term.readOperand? s.readTokens = some (.written s.readTokens) := by
  rw [readTokens]
  split_ifs
  · exact readOperand?_ownCall h
  · exact readOperand?_selection h

/-- The body of every getter reads as its expression. -/
theorem read?_getterMember (h : s.field.isReserved = false) {g : Getter}
    (hg : g ∈ s.accessors.getters) :
    Term.read? (s.getterMember g).body = some (g.value.term (.written s.readTokens)) := by
  obtain ⟨slot, -, rfl⟩ := List.mem_map.mp hg
  refine (Expr.reads (readOperand?_readTokens h) _ fun n hn => ?_).whole
  rw [Slot.names_extraction] at hn
  cases hn

/-- The value that the mutator stores reads as its expression. -/
theorem read?_mutator (h : s.field.isReserved = false)
    (hparams : ∀ p ∈ s.accessors.mutator.params, p.1.isReserved = false) :
    Term.read? (s.accessors.mutator.value.tokens s.readTokens) =
      some (s.accessors.mutator.value.term (.written s.readTokens)) := by
  refine (Expr.reads (readOperand?_readTokens h) _ fun n hn => ?_).whole
  obtain ⟨e, he, hn⟩ := Expr.mem_namesAll_iff.mp hn
  obtain ⟨slot, hslot, rfl⟩ := List.mem_map.mp he
  rw [Slot.names_contribution, List.mem_singleton] at hn
  have hparam : (slot.subField.name.parameter, slot.subField.kind) ∈ s.accessors.mutator.params :=
    List.mem_map_of_mem hslot
  rw [hn]
  exact Name.isOperand_of_isReserved (hparams _ hparam)

end Schema

end PackedFields

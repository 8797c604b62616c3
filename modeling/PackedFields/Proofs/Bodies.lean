import PackedFields.Proofs.Functions

/-!
# Bodies of functions

What the reader of functions makes of bodies that expressions are written in. A body comes apart at
its semicolons, and a call at its commas; neither stands in a written expression, nor does a `=`
that is not part of an operator. So an expression in a body does what its term says.
-/

namespace PackedFields

/-! ## Lists in tokens -/

namespace Token

variable {c : Char} {sep : Token} {ts : List Token}

theorem parts_of_forall (h : ∀ t ∈ ts, t.isSign c = false) : parts c ts = [ts] :=
  List.splitOnP_eq_singleton h

theorem parts_append_cons (xs ys : List Token) (hsep : sep.isSign c = true) :
    parts c (xs ++ sep :: ys) = parts c xs ++ parts c ys :=
  List.splitOnP_append_cons xs ys hsep

/-- What commas have been put between comes apart at the commas. -/
theorem parts_commas {runs : List (List Token)} (hne : runs ≠ [])
    (h : ∀ r ∈ runs, ∀ t ∈ r, t.isSign ',' = false) : parts ',' (Code.commas runs) = runs := by
  induction runs with
  | nil => exact absurd rfl hne
  | cons run runs ih =>
    obtain ⟨hrun, hruns⟩ := List.forall_mem_cons.mp h
    cases runs with
    | nil => exact parts_of_forall hrun
    | cons next runs =>
      show parts ',' (run ++ [Code.sign ','] ++ Code.commas (next :: runs)) = _
      rw [List.append_assoc, List.singleton_append, parts_append_cons _ _ rfl,
        parts_of_forall hrun, ih (List.cons_ne_nil _ _) hruns]
      rfl

end Token

/-! ## Expressions in bodies -/

namespace Expr

variable {read : List Token} {c : Char}

/-- The characters of the operators in an expression. -/
def signs : List Char := ['>', '<', '&', '=', '|', ':']

theorem isSign_of_mem_operator (hc : c ∉ signs) (cs : List Char) (hcs : ∀ d ∈ cs, d ∈ signs) :
    ∀ t ∈ Code.operator cs, t.isSign c = false := by
  have hne : ∀ d ∈ signs, (d == c) = false := by
    intro d hd
    rw [beq_eq_false_iff_ne]
    rintro rfl
    exact hc hd
  induction cs with
  | nil => exact List.forall_mem_nil _
  | cons d cs ih =>
    obtain ⟨hd, hcs⟩ := List.forall_mem_cons.mp hcs
    cases cs with
    | nil => exact List.forall_mem_singleton.mpr (hne d hd)
    | cons e cs => exact List.forall_mem_cons.mpr ⟨hne d hd, ih hcs⟩

theorem isSign_of_mem_enclosed {e : Expr} (h : ∀ t ∈ e.tokens read, t.isSign c = false) :
    ∀ t ∈ e.enclosed (e.tokens read), t.isSign c = false := by
  rw [enclosed]
  split_ifs
  · exact h
  · exact List.forall_mem_singleton.mpr rfl

theorem isSign_of_mem_furtherTerms (hc : c ∉ signs) {es : List Expr}
    (h : ∀ e ∈ es, ∀ t ∈ e.tokens read, t.isSign c = false) :
    ∀ t ∈ furtherTerms read es, t.isSign c = false := by
  induction es with
  | nil => exact List.forall_mem_nil _
  | cons e es ih =>
    obtain ⟨he, hes⟩ := List.forall_mem_cons.mp h
    rw [furtherTerms, List.forall_mem_append, List.forall_mem_append]
    exact ⟨⟨isSign_of_mem_operator hc ['|'] (by simp [signs]), isSign_of_mem_enclosed he⟩, ih hes⟩

/-- No punctuation stands in an expression but that of its operators, and where the backing integer
is read. -/
theorem isSign_of_mem_tokens (hc : c ∉ signs) (hread : ∀ t ∈ read, t.isSign c = false) (e : Expr) :
    ∀ t ∈ e.tokens read, t.isSign c = false := by
  have hsign : ∀ cs, (∀ d ∈ cs, d ∈ signs) → ∀ t ∈ Code.operator cs, t.isSign c = false :=
    fun cs => isSign_of_mem_operator hc cs
  have hsingle : ∀ t : Token, t.isSign c = false → ∀ u ∈ [t], u.isSign c = false :=
    fun _ h => List.forall_mem_singleton.mpr h
  induction e using induction with
  | backing => exact hread
  | param n => exact hsingle _ rfl
  | shr e n ih =>
    rw [tokens, List.forall_mem_append, List.forall_mem_append]
    exact ⟨⟨isSign_of_mem_enclosed ih, hsign ['>', '>'] (by simp [signs])⟩, hsingle _ rfl⟩
  | shl e n ih =>
    rw [tokens, List.forall_mem_append, List.forall_mem_append]
    exact ⟨⟨isSign_of_mem_enclosed ih, hsign ['<', '<'] (by simp [signs])⟩, hsingle _ rfl⟩
  | mask e width ih =>
    rw [tokens, List.forall_mem_append, List.forall_mem_cons]
    exact ⟨isSign_of_mem_enclosed ih,
      hsign ['&'] (by simp [signs]) _ List.mem_cons_self, hsingle _ rfl⟩
  | cast e t ih =>
    rw [tokens, List.forall_mem_append, List.forall_mem_cons]
    exact ⟨isSign_of_mem_enclosed ih, rfl, hsingle _ rfl⟩
  | ofBool e t ih =>
    rw [tokens, List.forall_mem_append, List.forall_mem_append]
    exact ⟨⟨hsingle _ rfl, hsign [':', ':'] (by simp [signs])⟩,
      List.forall_mem_cons.mpr ⟨rfl, hsingle _ rfl⟩⟩
  | test e ih =>
    rw [tokens, List.forall_mem_append, List.forall_mem_append]
    exact ⟨⟨isSign_of_mem_enclosed ih, hsign ['=', '='] (by simp [signs])⟩, hsingle _ rfl⟩
  | or es ih =>
    match es with
    | [] => exact hsingle _ rfl
    | [e] => exact ih e List.mem_cons_self
    | e :: e' :: es =>
      obtain ⟨he, hes⟩ := List.forall_mem_cons.mp ih
      exact List.forall_mem_append.mpr
        ⟨isSign_of_mem_enclosed he, isSign_of_mem_furtherTerms hc hes⟩

end Expr

namespace Body

variable {ts : List Token}

/-- A body that is an expression. -/
theorem read?_effect (hsigns : ∀ t ∈ ts, t.isSign ';' = false) (hne : ts ≠ []) {a : Effect}
    (h : Effect.read? ts = some a) : read? ts = some ⟨[], some a⟩ := by
  rw [read?, Token.parts_of_forall hsigns]
  show (if ts.isEmpty then _ else (Effect.read? ts).bind fun a => some (mk [] (some a))) = _
  rw [h, List.isEmpty_eq_false_iff.mpr hne]
  rfl

/-- A statement before the rest of a body. -/
theorem read?_statement (hsigns : ∀ t ∈ ts, t.isSign ';' = false) {s : Statement}
    (h : Statement.read? ts = some s) (rest : List Token) :
    read? (ts ++ Code.sign ';' :: rest) =
      (read? rest).map fun b => ⟨s :: b.statements, b.result?⟩ := by
  have hne : Token.parts ';' rest ≠ [] := List.splitOnP_ne_nil _ _
  obtain ⟨part, parts, hparts⟩ := List.exists_cons_of_ne_nil hne
  rw [read?, read?, Token.parts_append_cons _ _ rfl, Token.parts_of_forall hsigns, hparts]
  simp only [List.singleton_append, List.dropLast_cons_cons, List.getLast?_cons_cons,
    List.mapM_cons, h]
  cases (part :: parts).dropLast.mapM Statement.read? with
  | none => rfl
  | some statements =>
    generalize (part :: parts).getLast?.getD [] = last
    cases last with
    | nil => rfl
    | cons t ts =>
      show (Effect.read? (t :: ts)).bind _ = ((Effect.read? (t :: ts)).bind _).map _
      cases Effect.read? (t :: ts) <;> rfl

end Body

/-- Whether tokens start with a word or a pair of delimiters, and no `=` stands among them. -/
structure Simple (ts : List Token) : Prop where
  first : ∃ first rest, ts = first :: rest ∧ ∀ c joint s, first ≠ .punct c joint s
  signs : ∀ t ∈ ts, t.isSign '=' = false

/-- An expression that gives no value to a place does what its term says. -/
theorem Simple.read?_append {ts : List Token} (hts : Simple ts) {rest : List Token}
    (hequals : ∀ c s more, rest.dropWhile (!·.isSign '=') ≠ .punct c false s :: more) {t : Term}
    (h : Term.read? (ts ++ rest) = some t) : Effect.read? (ts ++ rest) = Effect.ofTerm? t := by
  have hdrop : (ts ++ rest).dropWhile (!·.isSign '=') = rest.dropWhile (!·.isSign '=') :=
    List.dropWhile_append_of_pos fun t ht => by rw [hts.signs t ht, Bool.not_false]
  obtain ⟨first, more, rfl, hfirst⟩ := hts.first
  rw [List.cons_append] at hdrop h ⊢
  rw [Effect.read?]
  · rw [hdrop]
    split
    · next c s source heq => exact absurd heq (hequals c s source)
    · rw [h]
      rfl
  · rintro s place ⟨rfl, -⟩
    exact hfirst _ _ _ rfl

namespace Expr

variable {read : List Token} {p : Term}

theorem simple_enclosed (hread : Simple read) (e : Expr) : Simple (e.enclosed (e.tokens read)) := by
  have hparens : ∀ ts, Simple [Code.parens ts] := fun ts =>
    ⟨⟨_, _, rfl, fun _ _ _ h => by cases h⟩, List.forall_mem_singleton.mpr rfl⟩
  cases e with
  | backing => exact hread
  | param n => exact ⟨⟨_, _, rfl, fun _ _ _ h => by cases h⟩, List.forall_mem_singleton.mpr rfl⟩
  | ofBool e t =>
    refine ⟨⟨_, _, rfl, fun _ _ _ h => by cases h⟩, ?_⟩
    show ∀ u ∈ [t.token] ++ Code.pathSep ++ [Code.word "from", Code.parens (tokens read e)],
      u.isSign '=' = false
    simp [Code.pathSep, Code.operator, Code.sign, Token.isSign, IntType.token, Code.word,
      Code.name, Code.parens, Code.group]
  | shr | shl | mask | cast | test | or => exact hparens _

theorem effect_test (hread : Simple read) {e : Expr}
    (h : Term.read? ((test e).tokens read) = some ((test e).term p)) :
    Effect.read? ((test e).tokens read) = some (.value ((test e).term p)) := by
  rw [tokens, List.append_assoc] at h ⊢
  exact (simple_enclosed hread e).read?_append (fun _ _ _ h => by cases h) h

theorem effect_cast (hread : Simple read) {e : Expr} {t : IntType}
    (h : Term.read? ((cast e t).tokens read) = some ((cast e t).term p)) :
    Effect.read? ((cast e t).tokens read) = some (.value ((cast e t).term p)) :=
  (simple_enclosed hread e).read?_append (fun _ _ _ h => by cases h) h

end Expr

end PackedFields

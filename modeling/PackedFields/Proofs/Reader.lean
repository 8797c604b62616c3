import PackedFields.Proofs.Term
import PackedFields.Proofs.Wording

/-!
# What the reader of terms makes of operands

A text is not cut inside an operand, whatever follows it: among its tokens no operator starts, and
behind the first of them no cast does (`Closed`, `Whole`). So operands with operators between them
are found one by one, and where all operators are of one level, they are applied to the operands as
these stand (`expression?_chain`).
-/

namespace PackedFields

/-! ## Operands among operators -/

theorem isAs_ident_of {p : Name → Bool} (has : p ⟨"as", false⟩ = false) {n : Name} (h : p n = true)
    (s : Span) : (Token.ident n s).isAs = false := by
  rw [Token.isAs, beq_eq_false_iff_ne]
  rintro rfl
  rw [has] at h
  cases h

/-- Whether no operator starts among the tokens, whatever follows them, and no cast does. -/
def Closed : List Token → Prop
  | [] => True
  | t :: ts =>
    (∀ rest, Parser.binaryOperator? (t :: (ts ++ rest)) = none) ∧ t.isAs = false ∧ Closed ts

theorem closed_of_areTrailers {ts : List Token} (h : areTrailers ts) : Closed ts := by
  fun_induction areTrailers ts with
  | case1 => trivial
  | case2 joint s n s' ts ih =>
    obtain ⟨hn, hts⟩ := Bool.and_eq_true_iff.mp h
    exact ⟨fun rest => by cases joint <;> rfl, rfl, fun rest => rfl,
      isAs_ident_of (by decide) hn s', ih hts⟩
  | case3 joint s lit s' ts ih =>
    obtain ⟨-, hts⟩ := Bool.and_eq_true_iff.mp h
    exact ⟨fun rest => by cases joint <;> rfl, rfl, fun rest => rfl, rfl, ih hts⟩
  | case4 joint s ts ih => exact ⟨fun rest => by cases joint <;> rfl, rfl, ih h⟩
  | case5 inner o c ts ih => exact ⟨fun rest => rfl, rfl, ih h⟩
  | case6 inner o c ts ih => exact ⟨fun rest => rfl, rfl, ih h⟩
  | case7 => cases h

theorem closed_of_followSegment {ts : List Token} (h : followSegment ts) : Closed ts := by
  fun_induction followSegment ts with
  | case1 s joint s' n s'' ts ih =>
    obtain ⟨hn, hts⟩ := Bool.and_eq_true_iff.mp h
    exact ⟨fun rest => rfl, rfl, fun rest => by cases joint <;> rfl, rfl, fun rest => rfl,
      isAs_ident_of (by decide) hn s'', ih hts⟩
  | case2 joint s d inner o c ts =>
    exact ⟨fun rest => by cases joint <;> rfl, rfl, fun rest => rfl, rfl, closed_of_areTrailers h⟩
  | case3 ts => exact closed_of_areTrailers h

/-- Whether tokens are closed, but that the first of them may be any word. -/
def Whole : List Token → Prop
  | [] => False
  | t :: ts => (∀ rest, Parser.binaryOperator? (t :: (ts ++ rest)) = none) ∧ Closed ts

theorem whole_of_isPrimary {ts : List Token} (h : isPrimary ts) : Whole ts := by
  -- one case for each kind of first token
  unfold isPrimary at h
  split at h
  · exact ⟨fun rest => rfl, closed_of_followSegment (Bool.and_eq_true_iff.mp h).2⟩
  · have hclosed := closed_of_followSegment h
    exact ⟨hclosed.1, hclosed.2.2⟩
  · exact ⟨fun rest => rfl, closed_of_areTrailers h⟩
  · exact ⟨fun rest => rfl, closed_of_areTrailers h⟩
  · exact ⟨fun rest => rfl, closed_of_areTrailers h⟩
  · cases h

theorem whole_of_conversion? {ls : List Leaf} {t : Term} (h : conversion? ls = some t) :
    Whole (ls.map (·.token)) := by
  unfold conversion? at h
  split at h
  · next _ _ _ _ _ joint _ _ f s _ _ _ _ _ =>
    split_ifs at h with hfrom
    have has : (Token.ident f s).isAs = false := by
      rw [hfrom]
      rfl
    exact ⟨fun rest => rfl, fun rest => rfl, rfl, fun rest => by cases joint <;> rfl, rfl,
      fun rest => rfl, has, fun rest => rfl, rfl, trivial⟩
  · cases h

theorem whole_of_leaf {l : Leaf} {t : Term} (h : l.operand? = some t) : Whole [l.token] := by
  obtain ⟨token, inner⟩ := l
  cases token with
  | punct => cases h
  | _ => exact ⟨fun rest => rfl, trivial⟩

theorem whole_of_operand? {ls : List Leaf} {t : Term} (h : operand? ls = some t) :
    Whole (ls.map (·.token)) := by
  unfold operand? at h
  split at h
  · exact whole_of_leaf h
  · cases hconversion : conversion? ls with
    | some c => exact whole_of_conversion? hconversion
    | none =>
      simp only [hconversion, Option.none_or] at h
      split_ifs at h with hprimary
      exact whole_of_isPrimary hprimary

/-- A leaf at which no operator starts belongs to what stands before the first operator. -/
theorem splitOperators_cons_append {l : Leaf} {ls : List Leaf}
    (h : ∀ rest, Parser.binaryOperator? (l.token :: (ls.map (·.token) ++ rest)) = none)
    (rest : List Leaf) :
    splitOperators 0 (l :: (ls ++ rest)) =
      (l :: (splitOperators 0 (ls ++ rest)).1, (splitOperators 0 (ls ++ rest)).2) := by
  rw [splitOperators, List.map_append, h]

theorem splitOperators_closed_append {ls : List Leaf} (h : Closed (ls.map (·.token)))
    (rest : List Leaf) :
    splitOperators 0 (ls ++ rest) =
      (ls ++ (splitOperators 0 rest).1, (splitOperators 0 rest).2) := by
  induction ls with
  | nil => rfl
  | cons l ls ih =>
    obtain ⟨hl, -, hls⟩ := h
    rw [List.cons_append, splitOperators_cons_append hl, ih hls, List.cons_append]

/-- An operand is not cut, whatever follows it. -/
theorem splitOperators_operand_append {ls : List Leaf} {t : Term} (h : operand? ls = some t)
    (rest : List Leaf) :
    splitOperators 0 (ls ++ rest) =
      (ls ++ (splitOperators 0 rest).1, (splitOperators 0 rest).2) := by
  cases ls with
  | nil => cases h
  | cons l ls =>
    obtain ⟨hl, hls⟩ := whole_of_operand? h
    rw [List.cons_append, splitOperators_cons_append hl, splitOperators_closed_append hls,
      List.cons_append]

theorem forall_not_isAs_of_closed {ls : List Leaf} (h : Closed (ls.map (·.token))) :
    ∀ l ∈ ls, (!l.token.isAs) = true := by
  induction ls with
  | nil => exact fun l hl => absurd hl List.not_mem_nil
  | cons l ls ih =>
    obtain ⟨-, has, hls⟩ := h
    rw [List.forall_mem_cons, has]
    exact ⟨rfl, ih hls⟩

/-- An operand is found before the casts that follow it. -/
theorem piece?_operand_append {ls : List Leaf} {t : Term} (h : operand? ls = some t)
    (casts : List Leaf) (hcasts : casts.head?.all (·.token.isAs)) (next? : Option String) :
    piece? next? (ls ++ casts) =
      if !casts.isEmpty && next?.any opensArguments then none else casts? t casts := by
  cases ls with
  | nil => cases h
  | cons l ls =>
    have hls := forall_not_isAs_of_closed (whole_of_operand? h).2
    have hown : casts.takeWhile (!·.token.isAs) = [] ∧ casts.dropWhile (!·.token.isAs) = casts := by
      cases casts with
      | nil => exact ⟨rfl, rfl⟩
      | cons as casts =>
        have has : as.token.isAs = true := hcasts
        simp [has]
    rw [List.cons_append, piece?, List.takeWhile_append_of_pos hls,
      List.dropWhile_append_of_pos hls, hown.1, hown.2, List.append_nil, h]
    rfl

theorem piece?_operand {ls : List Leaf} {t : Term} (h : operand? ls = some t)
    (next? : Option String) : piece? next? ls = some t := by
  have hpiece := piece?_operand_append h [] rfl next?
  rwa [List.append_nil] at hpiece

/-! ## Operators of one level -/

namespace Term

theorem resolve_nil (ps : List Precedence) (first : Term) : resolve ps first [] = some first := by
  induction ps with
  | nil => rfl
  | cons p ps ih =>
    rw [resolve, cutAt]
    simp only [ih]
    rfl

theorem cutAt_of_forall_ne {p : Precedence} {tails : List Tail}
    (h : ∀ t ∈ tails, t.precedence ≠ p) : cutAt p tails = (tails, []) := by
  induction tails with
  | nil => rfl
  | cons t tails ih =>
    obtain ⟨ht, htails⟩ := List.forall_mem_cons.mp h
    rw [cutAt, ih htails]
    exact if_neg ht

theorem cutAt_of_forall_eq {p : Precedence} {tails : List Tail}
    (h : ∀ t ∈ tails, t.precedence = p) : cutAt p tails = ([], tails.map (·, [])) := by
  induction tails with
  | nil => rfl
  | cons t tails ih =>
    obtain ⟨ht, htails⟩ := List.forall_mem_cons.mp h
    rw [cutAt, ih htails]
    exact if_pos ht

theorem mapM_resolve_nil (ps : List Precedence) (tails : List Tail) :
    (tails.map (·, [])).mapM (fun (t, more) => do
      return (t.operator, ← resolve ps t.operand more)) =
      some (tails.map fun t => (t.operator, t.operand)) := by
  induction tails with
  | nil => rfl
  | cons t tails ih =>
    simp only [List.map_cons, List.mapM_cons, ih, resolve_nil]
    rfl

/-- Operators of one level are applied to their operands as these are. -/
theorem resolve_levels {p : Precedence} (hp : p ∈ Precedence.levels) (first : Term)
    {tails : List Tail} (h : ∀ t ∈ tails, t.precedence = p) :
    resolve Precedence.levels first tails =
      applied p first (tails.map fun t => (t.operator, t.operand)) := by
  obtain ⟨before, after, hlevels, hbefore⟩ := List.eq_append_cons_of_mem hp
  rw [hlevels]
  -- a level before that of the operators has nothing to cut at, and one after it nothing to apply
  clear hlevels hp
  induction before with
  | nil =>
    rw [List.nil_append, resolve, cutAt_of_forall_eq h]
    simp only [resolve_nil, mapM_resolve_nil]
    rfl
  | cons q before ih =>
    obtain ⟨hq, hbefore⟩ := not_or.mp (mt List.mem_cons.mpr hbefore)
    have hne : ∀ t ∈ tails, t.precedence ≠ q := fun t ht heq => hq ((h t ht).symm.trans heq)
    rw [List.cons_append, resolve, cutAt_of_forall_ne hne]
    simp only [ih hbefore]
    cases applied p first (tails.map fun t => (t.operator, t.operand)) <;> rfl

end Term

/-! ## Whole expressions -/

/-- Operands are read one by one from the pieces that they are. -/
theorem operands?_eq {more : List ((String × Precedence) × List Leaf)} {tails : List Tail}
    (h : List.Forall₂ (fun piece t =>
      piece.1 = (t.operator, t.precedence) ∧ operand? piece.2 = some t.operand) more tails)
    {ls : List Leaf} {first : Term} (hfirst : operand? ls = some first) :
    operands? ls more = some (first, tails) := by
  induction h generalizing ls first with
  | nil =>
    rw [operands?, piece?_operand hfirst]
    rfl
  | @cons piece t more tails hpiece _ ih =>
    obtain ⟨op, next⟩ := piece
    obtain ⟨rfl, hnext⟩ := hpiece
    rw [operands?, piece?_operand hfirst, ih hnext]
    rfl

theorem expression?_eq_bind (ls : List Leaf) :
    expression? ls = (operands? (splitOperators 0 ls).1 (splitOperators 0 ls).2).bind fun read =>
      Term.resolve Precedence.levels read.1 read.2 := rfl

/-- An operand, and operators of one level with operands after them. -/
theorem expression?_chain {ls rest : List Leaf} {first : Term} (hfirst : operand? ls = some first)
    {more : List ((String × Precedence) × List Leaf)} (hsplit : splitOperators 0 rest = ([], more))
    {tails : List Tail} (htails : List.Forall₂ (fun piece t =>
      piece.1 = (t.operator, t.precedence) ∧ operand? piece.2 = some t.operand) more tails)
    {p : Precedence} (hp : p ∈ Precedence.levels) (hlevel : ∀ t ∈ tails, t.precedence = p) :
    expression? (ls ++ rest) =
      Term.applied p first (tails.map fun t => (t.operator, t.operand)) := by
  rw [← Term.resolve_levels hp first hlevel, expression?_eq_bind,
    splitOperators_operand_append hfirst, hsplit, List.append_nil, operands?_eq htails hfirst,
    Option.bind_some]

theorem splitOperators_operand {ls : List Leaf} {t : Term} (h : operand? ls = some t) :
    splitOperators 0 ls = (ls, []) := by
  have hsplit := splitOperators_operand_append h []
  rwa [splitOperators, List.append_nil] at hsplit

/-- A text without operators is a single piece. -/
theorem expression?_piece {ls : List Leaf} (hsplit : splitOperators 0 ls = (ls, [])) {t : Term}
    (hpiece : piece? none ls = some t) : expression? ls = some t := by
  rw [expression?_eq_bind, hsplit, operands?, hpiece]
  exact Term.resolve_nil _ t

theorem expression?_operand {ls : List Leaf} {t : Term} (h : operand? ls = some t) :
    expression? ls = some t :=
  expression?_piece (splitOperators_operand h) (piece?_operand h none)

/-- Two operands with an operator between them. -/
theorem expression?_binary {ls sign rs : List Leaf} {left right : Term}
    (hleft : operand? ls = some left) (hright : operand? rs = some right)
    {op : String × Precedence} (hlevel : op.2 ∈ Precedence.levels)
    (hsign : ∀ rest, splitOperators 0 (sign ++ rest) =
      ([], (op, (splitOperators 0 rest).1) :: (splitOperators 0 rest).2)) :
    expression? (ls ++ sign ++ rs) = Term.applied op.2 left [(op.1, right)] := by
  have hsplit := hsign rs
  rw [splitOperators_operand hright] at hsplit
  have htails : List.Forall₂ (fun piece (t : Tail) =>
      piece.1 = (t.operator, t.precedence) ∧ operand? piece.2 = some t.operand)
      [(op, rs)] [⟨op.1, op.2, right⟩] := .cons ⟨rfl, hright⟩ .nil
  rw [List.append_assoc]
  exact expression?_chain hleft hsplit htails hlevel (by simp)

/-- An operand with a cast after it. -/
theorem expression?_cast {ls : List Leaf} {t : Term} (h : operand? ls = some t) (type : IntType)
    (s s' : Span) :
    expression? (ls ++ [⟨.ident ⟨"as", false⟩ s, none⟩, ⟨.ident ⟨type.name, false⟩ s', none⟩]) =
      some (.cast t type) := by
  have hcast : casts? t [⟨.ident ⟨"as", false⟩ s, none⟩, ⟨.ident ⟨type.name, false⟩ s', none⟩] =
      some (.cast t type) := by
    show (IntType.ofName? type.name >>= fun type => casts? (.cast t type) []) = _
    rw [type.ofName?_name]
    rfl
  refine expression?_piece ?_ ?_
  · rw [splitOperators_operand_append h]
    rfl
  · rw [piece?_operand_append h _ rfl, Option.any_none, Bool.and_false, if_neg Bool.false_ne_true,
      hcast]

end PackedFields

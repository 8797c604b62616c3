import PackedFields.Front.HelperAttribute
import PackedFields.Proofs.ParserLaws

/-!
# How value types are read

The type of a sub-field is a name, or for integers a name in parentheses. `Grammar.type_complete`
says that such types are read whole, and `Grammar.type_sound` that nothing else is read as a type
that has values: all other types are paths of several parts, traits, or known by their tokens only.
Together they make `SubField.kindParser_runAll_iff`.
-/

namespace PackedFields

namespace Grammar

open PackedFields.Parser

variable (g : Grammar) {n : Name} {s stop : Span} {stray : Option SyntaxError} {rest : List Token}

theorem segment_name (hn : n.isKeyword = false) (hrest : Ends rest) :
    g.segment false ⟨.ident n s :: rest, stop, stray⟩ =
      .ok (([.ident n s], true), ⟨rest, stop, stray⟩) := by
  have hname : name ⟨.ident n s :: rest, stop, stray⟩ = .ok ((n, s), ⟨rest, stop, stray⟩) := by
    simp [name, hn]
  have harguments : startsArguments false rest = false := by
    rw [startsArguments, startsTurbofish, hrest.dropMark (m := "::") rfl (by decide),
      hrest.startsMark (m := "<") rfl (by decide)]
    rfl
  rw [segment, ite_ahead_neg (startsWordOf_ident hn (by decide) s rest), wordNext,
    ite_ahead_neg (startsWord_ident hn (by decide) s rest), bind_of_ok hname]
  dsimp only
  rw [pure_bind, ite_ahead_neg harguments]
  rfl

theorem genericPath_name (hn : n.isKeyword = false) (hrest : Ends rest) :
    g.genericPath false ⟨.ident n s :: rest, stop, stray⟩ =
      .ok (⟨[.ident n s], true, true, true, false⟩, ⟨rest, stop, stray⟩) := by
  have hroot : mark? "::" ⟨.ident n s :: rest, stop, stray⟩ =
      .ok ([], ⟨.ident n s :: rest, stop, stray⟩) := rfl
  have hfurther : startsFurtherSegment rest = false := by
    rw [startsFurtherSegment, hrest.dropMark (m := "::") rfl (by decide)]
    rfl
  rw [genericPath, bind_of_ok hroot, bind_of_ok (g.segment_name hn hrest)]
  dsimp only
  show (ahead startsFurtherSegment >>= _) _ = _
  rw [ite_ahead_neg hfurther]
  rfl

theorem pathType_name (hn : n.isKeyword = false) (hrest : Ends rest) (plus : Bool) :
    g.pathType [] plus ⟨.ident n s :: rest, stop, stray⟩ =
      .ok (.name n s, ⟨rest, stop, stray⟩) := by
  have hpath : g.qualifiedPath false ⟨.ident n s :: rest, stop, stray⟩ =
      .ok (⟨[.ident n s], true, true, true, false⟩, ⟨rest, stop, stray⟩) := by
    rw [qualifiedPath, markNext, ite_ahead_neg rfl, genericPath_name g hn hrest]
  have hmacro : macroInput? ⟨[.ident n s], true, true, true, false⟩ ⟨rest, stop, stray⟩ =
      .ok (none, ⟨rest, stop, stray⟩) := by
    have hbang : startsBang rest = false := by
      rw [startsBang, hrest.startsMark (m := "!") rfl (by decide)]
      rfl
    rw [macroInput?]
    dsimp only
    rw [ahead_bind, hbang]
    rfl
  have hplus : startsMark "+" rest = false := hrest.startsMark (m := "+") rfl (by decide)
  rw [pathType, bind_of_ok hpath]
  dsimp only
  rw [if_neg Bool.false_ne_true, bind_of_ok hmacro]
  dsimp only
  rw [markNext, ahead_bind, hplus, Bool.and_false]
  rfl

theorem typeStep_name (hn : n.isKeyword = false) (hrest : Ends rest) (plus : Bool) :
    g.typeStep plus ⟨.ident n s :: rest, stop, stray⟩ = .ok (.name n s, ⟨rest, stop, stray⟩) := by
  have hbinder : g.binder ⟨.ident n s :: rest, stop, stray⟩ =
      .ok ([], ⟨.ident n s :: rest, stop, stray⟩) := by
    rw [binder, wordNext, ite_ahead_neg (startsWord_ident hn (by decide) s rest)]
    rfl
  have hpath : startsPath (.ident n s :: rest) = true := by
    rw [startsPath, startsName, hn]
    rfl
  rw [typeStep, bind_of_ok hbinder, ahead_bind]
  show (ahead (startsGroup .paren) >>= _) _ = _
  rw [ite_ahead_neg rfl, ite_ahead_neg (startsWordOf_ident hn (by decide) s rest),
    ite_ahead_pos hpath, pathType_name g hn hrest]

/-- After a type in parentheses nothing more is read if a comma follows, or nothing. -/
theorem afterParens_single (t : SourceType) (o e : Span) (hrest : Ends rest) (plus : Bool) :
    g.afterParens plus (.single t) o e ⟨rest, stop, stray⟩ =
      .ok (.paren t o e, ⟨rest, stop, stray⟩) := by
  have hplus : startsMark "+" rest = false := hrest.startsMark (m := "+") rfl (by decide)
  rw [afterParens]
  dsimp only
  rw [markNext, ahead_bind, hplus, Bool.and_false]
  rfl

/-- After a type in a group without visible delimiters nothing more is read, either. -/
theorem afterUnseen_of_ends (t : SourceType) (hrest : Ends rest) :
    g.afterUnseen t ⟨rest, stop, stray⟩ = .ok (.unseen t, ⟨rest, stop, stray⟩) := by
  have hdrop : dropMark "::".toList rest = none := hrest.dropMark (m := "::") rfl (by decide)
  have hsegment : startsNamedSegment rest = false := by
    rw [startsNamedSegment, hdrop]
    rfl
  have harguments : (isBarePath t && (startsMark "<" rest || startsTurbofish rest)) = false := by
    rw [startsTurbofish, hdrop, hrest.startsMark (m := "<") rfl (by decide)]
    exact Bool.and_false _
  rw [afterUnseen, ite_ahead_neg hsegment, ite_ahead_neg harguments]
  rfl

theorem typeStep_paren {ts : List Token} {o e : Span} {t : SourceType} {c₁ : Cursor}
    (hinside : g.inside ⟨ts, e, stray⟩ = .ok (.single t, c₁)) (hrest : Ends rest) (plus : Bool) :
    g.typeStep plus ⟨.group .paren ts o e :: rest, stop, stray⟩ =
      .ok (.paren t o e, ⟨rest, stop, c₁.stray <|> leftover? (some .paren) c₁.rest⟩) := by
  rw [typeStep, bind_of_ok (x := g.binder) (a := []) rfl, ahead_bind]
  show (ahead (startsGroup .paren) >>= _) _ = _
  rw [ite_ahead_pos rfl, parenType, bind_of_ok (group_of_ok hinside)]
  exact g.afterParens_single t o e hrest plus

theorem inside_single {ts : List Token} {t : SourceType} (hstart : ts ≠ [])
    (hlife : startsLifetime ts = false) (hmark : startsMark "?" ts = false)
    (htype : g.type true ⟨ts, stop, stray⟩ = .ok (t, ⟨[], stop, stray⟩)) :
    g.inside ⟨ts, stop, stray⟩ = .ok (.single t, ⟨[], stop, stray⟩) := by
  have hend : ts.isEmpty = false := by
    rw [List.isEmpty_eq_false_iff]
    exact hstart
  rw [inside, atEnd, ite_ahead_neg hend, ite_ahead_neg hlife, markNext, ite_ahead_neg hmark,
    bind_of_ok htype]
  rfl

end Grammar

/-! ## What is read -/

namespace SourceType

/-- The type is a name that is no keyword, maybe in parentheses. -/
def Simple : SourceType → Prop
  | name n _ => n.isKeyword = false
  | paren inner _ _ => inner.Simple
  | _ => False

/-- The type is a name, maybe in parentheses or in groups without visible delimiters. -/
def Named : SourceType → Prop
  | name _ _ => True
  | paren inner _ _ => inner.Named
  | unseen inner => inner.Named
  | _ => False

end SourceType

namespace Grammar

open PackedFields.Parser

variable {stop : Span} {stray : Option SyntaxError} {rest : List Token} {t : SourceType}

theorem inside_simple {g : Grammar} (ht : t.Simple)
    (htype : g.type true ⟨t.tokens, stop, stray⟩ = .ok (t, ⟨[], stop, stray⟩)) :
    g.inside ⟨t.tokens, stop, stray⟩ = .ok (.single t, ⟨[], stop, stray⟩) := by
  cases t with
  | name n s => exact g.inside_single (List.cons_ne_nil _ _) rfl rfl htype
  | paren inner o e => exact g.inside_single (List.cons_ne_nil _ _) rfl rfl htype
  | path | trait | unseen | other => exact ht.elim

/-- A simple type is read whole by any grammar that is deep enough. -/
theorem type_complete (ht : t.Simple) {depth : Nat} (hdepth : Token.weights t.tokens ≤ depth)
    (plus : Bool) (hrest : Ends rest) :
    (upTo depth).type plus ⟨t.tokens ++ rest, stop, stray⟩ = .ok (t, ⟨rest, stop, stray⟩) := by
  induction t generalizing depth plus rest stop stray with
  | name n s =>
    obtain ⟨depth, rfl⟩ := Nat.exists_eq_add_of_lt hdepth
    exact (upTo _).typeStep_name ht hrest plus
  | paren inner o e ih =>
    obtain ⟨depth, rfl⟩ := Nat.exists_eq_add_of_lt hdepth
    have hinner : (upTo (Token.weights inner.tokens + depth)).type true
        ⟨inner.tokens ++ [], e, stray⟩ = .ok (inner, ⟨[], e, stray⟩) :=
      ih ht (Nat.le_add_right _ depth) true .nil
    rw [List.append_nil] at hinner
    have hinside : (upTo (Token.weights inner.tokens + depth)).inside ⟨inner.tokens, e, stray⟩ =
        .ok (.single inner, ⟨[], e, stray⟩) := inside_simple ht hinner
    have hread : (upTo (Token.weights inner.tokens + depth)).typeStep plus
        ⟨.group .paren inner.tokens o e :: rest, stop, stray⟩ =
          .ok (.paren inner o e, ⟨rest, stop, stray <|> leftover? (some .paren) []⟩) :=
      (upTo _).typeStep_paren hinside hrest plus
    rw [orElse_leftover?_nil] at hread
    exact hread
  | path | trait | unseen | other => exact ht.elim

/-! ## What can have been read -/

variable {g : Grammar} {c c' : Cursor}

/-- The brackets alone make two tokens. -/
theorem one_lt_length_of_angleArguments {ts : List Token} (h : g.angleArguments c = .ok (ts, c')) :
    1 < ts.length := by
  obtain ⟨opening, c₁, hopening, h⟩ := bind_eq_ok_iff.mp h
  obtain ⟨args, c₂, -, h⟩ := bind_eq_ok_iff.mp h
  obtain ⟨closing, c₃, hclosing, h⟩ := bind_eq_ok_iff.mp h
  cases h
  have := length_pos_of_mark (by decide) hopening
  have := length_pos_of_mark (by decide) hclosing
  simp only [List.length_append]
  omega

/-- After the name of a segment either nothing more is read, or arguments are. -/
theorem segment_end {n : Name} {s : Span} {c₁ : Cursor} {ts : List Token} {bare : Bool}
    (hc : c = { c₁ with rest := .ident n s :: c₁.rest })
    (h : (do
      if ← ahead (startsArguments false) then
        let sep ← mark? "::"
        return ([Token.ident n s] ++ sep ++ (← g.angleArguments), false)
      else return ([Token.ident n s], true) : Parser _) c₁ = .ok ((ts, bare), c')) :
    (∃ n s, ts = [.ident n s] ∧ c = { c' with rest := .ident n s :: c'.rest }) ∨ 1 < ts.length := by
  rcases cases_of_ahead h with ⟨-, h⟩ | ⟨-, h⟩
  · obtain ⟨sep, c₂, -, h⟩ := bind_eq_ok_iff.mp h
    obtain ⟨args, c₃, hargs, h⟩ := bind_eq_ok_iff.mp h
    cases h
    have := one_lt_length_of_angleArguments hargs
    right
    simp only [List.length_append, List.length_singleton]
    omega
  · cases h
    exact .inl ⟨n, s, rfl, hc⟩

/-- A segment is a single name, and then only that name has been read, or it has arguments. -/
theorem segment_cases {ts : List Token} {bare : Bool}
    (h : g.segment false c = .ok ((ts, bare), c')) :
    (∃ n s, ts = [.ident n s] ∧ c = { c' with rest := .ident n s :: c'.rest }) ∨ 1 < ts.length := by
  rcases cases_of_ahead h with ⟨hword, hread⟩ | ⟨-, h⟩
  · obtain ⟨w, -, hw⟩ := List.any_eq_true.mp hword
    obtain ⟨s, rest, hrest⟩ := exists_ident_of_startsWord hw
    obtain ⟨_, stop, stray⟩ := c
    subst hrest
    cases hread
    exact .inl ⟨_, s, rfl, rfl⟩
  rcases cases_of_ahead h with ⟨hself, h⟩ | ⟨-, h⟩
  · obtain ⟨s, rest, hrest⟩ := exists_ident_of_startsWord hself
    obtain ⟨n, c₁, hn, hread⟩ := bind_eq_ok_iff.mp h
    obtain ⟨_, stop, stray⟩ := c
    subst hrest
    cases hn
    exact segment_end rfl hread
  · obtain ⟨⟨n, s⟩, c₁, hn, h⟩ := bind_eq_ok_iff.mp h
    exact segment_end (eq_of_name hn) h

theorem furtherSegments_cases {inExpression : Bool} {goesOn : List Token → Bool} {count : Nat}
    {p q : SourcePath} (h : g.furtherSegments inExpression goesOn count p c = .ok (q, c')) :
    q = p ∧ c = c' ∨ p.tokens.length < q.tokens.length := by
  induction count generalizing p c with
  | zero =>
    cases h
    exact .inl ⟨rfl, rfl⟩
  | succ count ih =>
    rcases cases_of_ahead h with ⟨-, h⟩ | ⟨-, h⟩
    · obtain ⟨sep, c₁, hsep, h⟩ := bind_eq_ok_iff.mp h
      obtain ⟨⟨s, bare⟩, c₂, hsegment, h⟩ := bind_eq_ok_iff.mp h
      have hlonger : p.tokens.length < (p.tokens ++ sep ++ s).length := by
        have := length_pos_of_mark (by decide) hsep
        simp only [List.length_append]
        omega
      right
      rcases ih h with ⟨rfl, -⟩ | hfurther
      · exact hlonger
      · exact Nat.lt_trans hlonger hfurther
    · cases h
      exact .inl ⟨rfl, rfl⟩

theorem length_le_of_furtherSegments {inExpression : Bool} {goesOn : List Token → Bool} {count : Nat}
    {p q : SourcePath} (h : g.furtherSegments inExpression goesOn count p c = .ok (q, c')) :
    p.tokens.length ≤ q.tokens.length := by
  rcases furtherSegments_cases h with ⟨rfl, -⟩ | hlonger
  · exact Nat.le_refl _
  · omega

theorem startsFurtherSegment_of_named {ts : List Token} (h : startsNamedSegment ts = true) :
    startsFurtherSegment ts = true := by
  obtain ⟨rest, hrest, hname⟩ := (Option.any_eq_true _ _).mp h
  rw [startsFurtherSegment, hrest]
  cases rest with
  | nil => cases hname
  | cons t rest =>
    cases t with
    | ident n s => rfl
    | punct | literal | group => cases hname

theorem length_pos_of_segment {ts : List Token} {bare : Bool}
    (h : g.segment false c = .ok ((ts, bare), c')) : 0 < ts.length := by
  rcases segment_cases h with ⟨n, s, rfl, -⟩ | hlong
  · exact Nat.one_pos
  · omega

theorem one_lt_length_of_furtherSegments {goesOn : List Token → Bool} {count : Nat}
    {p q : SourcePath} (hgoes : goesOn c.rest = true)
    (h : g.furtherSegments false goesOn (count + 1) p c = .ok (q, c')) : 1 < q.tokens.length := by
  rcases cases_of_ahead h with ⟨-, h⟩ | ⟨hnot, -⟩
  · obtain ⟨sep, c₁, hsep, h⟩ := bind_eq_ok_iff.mp h
    obtain ⟨⟨s, bare⟩, c₂, hsegment, h⟩ := bind_eq_ok_iff.mp h
    have := length_pos_of_mark (by decide) hsep
    have := length_pos_of_segment hsegment
    have hlength := length_le_of_furtherSegments h
    simp only [List.length_append] at hlength
    omega
  · rw [hgoes] at hnot
    cases hnot

theorem genericPath_cases {p : SourcePath} (h : g.genericPath false c = .ok (p, c')) :
    (p.qualified = false ∧
      ∃ n s, p.tokens = [.ident n s] ∧ c = { c' with rest := .ident n s :: c'.rest }) ∨
      1 < p.tokens.length := by
  rw [genericPath, mark?, markNext] at h
  obtain ⟨root, c₁, hroot, h⟩ := bind_eq_ok_iff.mp h
  obtain ⟨⟨s, bare⟩, c₂, hsegment, hfurther⟩ := bind_eq_ok_iff.mp h
  have hs := length_pos_of_segment hsegment
  rcases cases_of_ahead hroot with ⟨-, hroot⟩ | ⟨-, hroot⟩
  · have := length_pos_of_mark (by decide) hroot
    have hlength := length_le_of_furtherSegments hfurther
    simp only [List.length_append] at hlength
    right
    omega
  · cases hroot
    rcases furtherSegments_cases hfurther with ⟨rfl, rfl⟩ | hlonger
    · exact (segment_cases hsegment).imp_left fun hname => ⟨rfl, hname⟩
    · simp only [List.length_append] at hlonger
      right
      omega

theorem yields_pathFromType : Yields (fun p => 1 < p.tokens.length) (g.pathFromType false) := by
  intro c
  refine Yields.bind (P := fun ts => 0 < ts.length) ?_ ?_ c
  · exact fun c ts c' h => length_pos_of_mark (by decide) h
  intro opening hopening
  refine .bind .any fun self _ => .bind .any fun as _ => ?_
  refine .ite (.bind .any fun kw _ => .bind .any fun path _ => .bind .any fun trait _ => ?_)
    (.bind .any fun trait _ => ?_)
  -- the angle brackets alone make two tokens
  all_goals
    refine .bind (P := fun ts => 0 < ts.length) ?_ fun closing hclosing => ?_
    · exact fun c ts c' h => length_pos_of_mark (by decide) h
    refine .bind .any fun sep _ => .bind .any fun s _ => fun c' p c'' h => ?_
    have hlength := length_le_of_furtherSegments h
    simp only [List.length_append] at hlength
    omega

theorem qualifiedPath_cases {p : SourcePath} (h : g.qualifiedPath false c = .ok (p, c')) :
    (p.qualified = false ∧
      ∃ n s, p.tokens = [.ident n s] ∧ c = { c' with rest := .ident n s :: c'.rest }) ∨
      1 < p.tokens.length := by
  rcases cases_of_ahead h with ⟨-, h⟩ | ⟨-, h⟩
  · exact .inr (yields_pathFromType c p c' h)
  · exact genericPath_cases h

theorem not_named_of_long {p : SourcePath} (h : 1 < p.tokens.length) : ¬ p.type.Named := by
  obtain ⟨tokens, single, plain, bare, qualified⟩ := p
  rw [SourcePath.type]
  split
  · next hone =>
    rw [hone] at h
    exact absurd h (Nat.lt_irrefl 1)
  · cases qualified <;> exact id

theorem macroInput?_eq_none {p : SourcePath} (h : macroInput? p c = .ok (none, c')) : c' = c := by
  rw [macroInput?, ahead_bind] at h
  split at h
  · obtain ⟨bang, c₁, -, h⟩ := bind_eq_ok_iff.mp h
    obtain ⟨input, c₂, -, h⟩ := bind_eq_ok_iff.mp h
    cases h
  · cases h
    rfl

theorem pathType_cases {params : List Token} {plus : Bool}
    (h : g.pathType params plus c = .ok (t, c')) :
    ¬ t.Named ∨ params = [] ∧
      ∃ n s, t = .name n s ∧ c = { c' with rest := .ident n s :: c'.rest } := by
  rw [pathType] at h
  obtain ⟨p, c₁, hp, h⟩ := bind_eq_ok_iff.mp h
  -- the type is that of the path, unless more is read
  have htype : ¬ t.Named ∨ t = p.type ∧ c₁ = c' ∧ (p.qualified = false → params = []) := by
    split at h
    · next hqualified =>
      cases h
      exact .inr ⟨rfl, rfl, fun h => absurd hqualified (by rw [h]; decide)⟩
    · obtain ⟨input, c₂, hinput, h⟩ := bind_eq_ok_iff.mp h
      cases input with
      | some input =>
        cases h
        exact .inl id
      | none =>
        rw [macroInput?_eq_none hinput] at h
        dsimp only at h
        rw [markNext, ahead_bind] at h
        split at h
        · left
          have hmore : ∀ more : List Token, Yields (fun t => ¬ t.Named)
              (if more.isEmpty = true then pure (SourceType.trait (params ++ p.tokens))
                else pure (SourceType.other (params ++ p.tokens ++ more))) :=
            fun more => .ite (.pure id) (.pure id)
          exact Yields.ite (.bind .any fun more _ => hmore more) (.bind .any fun more _ => hmore more)
            _ _ _ h
        · next hplain =>
          cases h
          right
          refine ⟨rfl, rfl, fun _ => ?_⟩
          simpa using (not_or.mp (mt Bool.or_eq_true_iff.mpr hplain)).1
  rcases htype with hnot | ⟨rfl, rfl, hparams⟩
  · exact .inl hnot
  · rcases qualifiedPath_cases hp with ⟨hqualified, n, s, htokens, hc⟩ | hlong
    · refine .inr ⟨hparams hqualified, n, s, ?_, hc⟩
      rw [SourcePath.type, htokens]
    · exact .inl (not_named_of_long hlong)

theorem eq_of_insideAfter {first : SourceType} (h : g.insideAfter first c = .ok (.single t, c')) :
    t = first ∧ c' = c := by
  rcases cases_of_ahead h with ⟨-, h⟩ | ⟨-, h⟩
  · obtain ⟨comma, c₁, -, h⟩ := bind_eq_ok_iff.mp h
    obtain ⟨more, c₂, -, h⟩ := bind_eq_ok_iff.mp h
    cases h
  · cases h
    exact ⟨rfl, rfl⟩

theorem type_of_inside (h : g.inside c = .ok (.single t, c')) : g.type true c = .ok (t, c') := by
  rw [inside, atEnd] at h
  rcases cases_of_ahead h with ⟨-, h⟩ | ⟨-, h⟩
  · cases h
  rcases cases_of_ahead h with ⟨-, h⟩ | ⟨-, h⟩
  · obtain ⟨ts, c₁, -, h⟩ := bind_eq_ok_iff.mp h
    cases h
  rcases cases_of_ahead h with ⟨-, h⟩ | ⟨-, h⟩
  · obtain ⟨b, c₁, -, h⟩ := bind_eq_ok_iff.mp h
    cases h
  obtain ⟨first, c₁, hfirst, h⟩ := bind_eq_ok_iff.mp h
  obtain ⟨rfl, rfl⟩ := eq_of_insideAfter h
  exact hfirst

/-- After parentheses with a type in them nothing more is read of a value type. -/
theorem afterParens_cases {plus : Bool} {i : Inside} {o e : Span}
    (h : g.afterParens plus i o e c = .ok (t, c')) :
    ¬ t.Named ∨ ∃ inner, i = .single inner ∧ t = .paren inner o e ∧ c' = c := by
  cases i with
  | tuple ts | bounds ts =>
    cases h
    exact .inl id
  | optional ts =>
    obtain ⟨more, c₂, -, h⟩ := bind_eq_ok_iff.mp h
    left
    split at h
    · cases h
      exact id
    · cases h
      exact id
  | single inner =>
    rw [afterParens] at h
    dsimp only at h
    rw [markNext, ahead_bind] at h
    rcases cases_of_ite h with ⟨-, h⟩ | ⟨-, h⟩
    · cases hbound : asBound? inner o e with
      | none =>
        rw [hbound] at h
        cases h
        exact .inr ⟨inner, rfl, rfl, rfl⟩
      | some first =>
        rw [hbound] at h
        obtain ⟨more, c₃, -, h⟩ := bind_eq_ok_iff.mp h
        cases h
        exact .inl id
    · cases h
      exact .inr ⟨inner, rfl, rfl, rfl⟩

/-- Nor is it after a group without visible delimiters: what goes on is a path of several parts, or
one with arguments. -/
theorem afterUnseen_cases {inner : SourceType} (h : g.afterUnseen inner c = .ok (t, c')) :
    ¬ t.Named ∨ t = .unseen inner ∧ c' = c := by
  rcases cases_of_ahead h with ⟨hsegment, h⟩ | ⟨-, h⟩
  · obtain ⟨p, c₁, hp, h⟩ := bind_eq_ok_iff.mp h
    cases h
    obtain ⟨name, rest, hrest⟩ : ∃ t rest, c.rest = t :: rest := by
      cases hrest : c.rest with
      | nil =>
        rw [hrest] at hsegment
        cases hsegment
      | cons t rest => exact ⟨t, rest, rfl⟩
    rw [hrest, List.length_cons] at hp
    exact .inl (not_named_of_long
      (one_lt_length_of_furtherSegments (startsFurtherSegment_of_named hsegment) hp))
  rcases cases_of_ahead h with ⟨-, h⟩ | ⟨-, h⟩
  · obtain ⟨sep, c₁, -, h⟩ := bind_eq_ok_iff.mp h
    obtain ⟨args, c₂, hargs, h⟩ := bind_eq_ok_iff.mp h
    obtain ⟨p, c₃, hp, h⟩ := bind_eq_ok_iff.mp h
    cases h
    have := one_lt_length_of_angleArguments hargs
    have hlength := length_le_of_furtherSegments hp
    simp only [List.length_append] at hlength
    exact .inl (not_named_of_long (by omega))
  · cases h
    exact .inr ⟨rfl, rfl⟩

theorem parenType_cases {plus : Bool} (h : g.parenType plus c = .ok (t, c')) :
    ¬ t.Named ∨ ∃ inner ts o e c₁, t = .paren inner o e ∧ c.rest = .group .paren ts o e :: c'.rest ∧
      g.type true ⟨ts, e, c.stray⟩ = .ok (inner, c₁) ∧
      c'.stop = c.stop ∧ c'.stray = (c₁.stray <|> leftover? (some .paren) c₁.rest) := by
  rw [parenType] at h
  obtain ⟨⟨i, o, e⟩, c₁, hgroup, h⟩ := bind_eq_ok_iff.mp h
  refine (afterParens_cases h).imp_right ?_
  rintro ⟨inner, rfl, rfl, rfl⟩
  obtain ⟨ts, c₂, hrest, hinside, hstop, hstray⟩ := group_eq_ok hgroup
  exact ⟨inner, ts, o, e, c₂, rfl, hrest, type_of_inside hinside, hstop, hstray⟩

theorem binder_eq_nil (h : g.binder c = .ok ([], c')) : c' = c := by
  rcases cases_of_ahead h with ⟨-, h⟩ | ⟨-, h⟩
  · obtain ⟨kw, c₁, hkw, h⟩ := bind_eq_ok_iff.mp h
    obtain ⟨opening, c₂, hopening, h⟩ := bind_eq_ok_iff.mp h
    obtain ⟨params, c₃, -, h⟩ := bind_eq_ok_iff.mp h
    obtain ⟨closing, c₄, -, h⟩ := bind_eq_ok_iff.mp h
    have hlength := length_pos_of_mark (by decide) hopening
    injection h with h
    injection h with h
    rw [List.append_eq_nil_iff, List.append_eq_nil_iff, List.append_eq_nil_iff] at h
    rw [h.1.1.2] at hlength
    cases hlength
  · cases h
    rfl

/-- What a step of the grammar takes for a value type: a name, or a type in parentheses. -/
theorem typeStep_cases {plus : Bool} (h : g.typeStep plus c = .ok (t, c')) :
    ¬ t.Named ∨ (∃ n s, t = .name n s ∧ c = { c' with rest := .ident n s :: c'.rest }) ∨
      ∃ inner ts o e c₁, t = .paren inner o e ∧ c.rest = .group .paren ts o e :: c'.rest ∧
        g.type true ⟨ts, e, c.stray⟩ = .ok (inner, c₁) ∧
        c'.stop = c.stop ∧ c'.stray = (c₁.stray <|> leftover? (some .paren) c₁.rest) := by
  rw [typeStep] at h
  obtain ⟨params, c₁, hbinder, h⟩ := bind_eq_ok_iff.mp h
  rw [ahead_bind] at h
  rcases cases_of_ite h with ⟨-, h⟩ | ⟨hguard, h⟩
  · cases h
  rcases cases_of_ahead h with ⟨hparen, hread⟩ | ⟨-, h⟩
  · -- parentheses are refused after the word `for`
    have hparams : params = [] := by
      cases hrest : c₁.rest with
      | nil =>
        rw [hrest] at hparen
        cases hparen
      | cons u rest =>
        rw [hrest] at hparen hguard
        cases u with
        | group d ts o e =>
          have hstarts : (!params.isEmpty && !false) = false := Bool.eq_false_iff.mpr hguard
          simpa using hstarts
        | ident | punct | literal => cases hparen
    rw [hparams] at hbinder
    rw [binder_eq_nil hbinder] at hread
    exact (parenType_cases hread).imp_right .inr
  rcases cases_of_ahead h with ⟨-, h⟩ | ⟨-, h⟩
  · obtain ⟨ts, c₂, -, h⟩ := bind_eq_ok_iff.mp h
    cases h
    exact .inl id
  rcases cases_of_ahead h with ⟨-, h⟩ | ⟨-, h⟩
  · rcases pathType_cases h with hnot | ⟨rfl, hname⟩
    · exact .inl hnot
    · rw [binder_eq_nil hbinder] at hname
      exact .inr (.inl hname)
  -- all other types are kept by their tokens only
  left
  have hother : ∀ {x : Parser (List Token)}, Yields (fun t => ¬ t.Named)
      (do return SourceType.other (← x)) := .bind .any fun ts _ => .pure id
  refine Yields.bind .any (fun _ _ => .ite hother ?_) _ _ _ h
  refine .bind .any fun _ _ => .ite hother ?_
  refine .bind .any fun _ _ => .ite ?_ ?_
  · refine .bind .any fun star _ => .bind .any fun _ _ => .ite ?_ ?_
    · exact .bind .any fun kind _ => .bind .any fun t _ => .pure id
    · exact .bind .any fun kind _ => .bind .any fun t _ => .pure id
  refine .bind .any fun _ _ => .ite ?_ ?_
  · refine .bind .any fun sign _ => .bind .any fun _ _ => .ite ?_ ?_
    · exact .bind .any fun life _ => .bind .any fun kind _ => .bind .any fun t _ => .pure id
    · exact .bind .any fun life _ => .bind .any fun kind _ => .bind .any fun t _ => .pure id
  refine .bind .any fun _ _ => .ite hother ?_
  refine .bind .any fun _ _ => .ite hother ?_
  refine .bind .any fun _ _ => .ite hother ?_
  refine .bind .any fun _ _ => .ite hother ?_
  intro c t c' h
  cases h

end Grammar

/-! ## Types that have values -/

theorem IntType.named_of_ofSource? {t : SourceType} {i : IntType} (h : ofSource? t = some i) :
    t.Named := by
  induction t with
  | name => trivial
  | paren inner o e ih => exact ih h
  | unseen inner ih => exact ih h
  | path | trait | other => cases h

theorem IntType.isKeyword_of_ofName? {n : Name} {i : IntType} (h : ofName? n.spelling = some i) :
    n.isKeyword = false := by
  rw [ofName?] at h
  have hfound := List.find?_some h
  have hname : i.name = n.spelling := eq_of_beq hfound
  have hwords : ∀ i : IntType, Name.keywords.contains i.name = false := by
    rintro ⟨signed, size⟩
    cases signed <;> cases size <;> decide
  obtain ⟨text, raw⟩ := n
  cases raw with
  | true => rfl
  | false =>
    have htext : i.name = text := hname
    rw [Name.isKeyword, ← htext, hwords]
    rfl

theorem Kind.ofSource?_cases {t : SourceType} {k : Kind} (h : ofSource? t = some k) :
    (∃ s, t = .name ⟨"bool", false⟩ s) ∨ ∃ i, IntType.ofSource? t = some i := by
  unfold ofSource? at h
  split at h
  · next s => exact .inl ⟨s, rfl⟩
  · obtain ⟨i, hi, -⟩ := Option.map_eq_some_iff.mp h
    exact .inr ⟨i, hi⟩

namespace Grammar

open PackedFields.Parser

variable {c c' : Cursor} {t : SourceType} {depth : Nat} {plus : Bool}

/-- What is read as an integer type is a simple type and nothing else, unless something is left
over in parentheses. -/
theorem type_sound {i : IntType} (h : (upTo depth).type plus c = .ok (t, c'))
    (hi : IntType.ofSource? t = some i) (hstray : c'.stray = none) :
    t.Simple ∧ c = { c' with rest := t.tokens ++ c'.rest } := by
  induction depth generalizing plus c c' t with
  | zero =>
    obtain ⟨rest, stop, stray⟩ := c
    cases rest <;> cases h
  | succ depth ih =>
    have hstep : (upTo depth).typeStep plus c = .ok (t, c') := h
    rcases typeStep_cases hstep with hnot | ⟨n, s, rfl, hc⟩ |
      ⟨inner, ts, o, e, c₁, rfl, hrest, htype, hstop, hleft⟩
    · exact absurd (IntType.named_of_ofSource? hi) hnot
    · exact ⟨IntType.isKeyword_of_ofName? hi, hc⟩
    · -- nothing is left over in the parentheses
      rw [hstray] at hleft
      obtain ⟨hstray₁, hnil⟩ := eq_nil_of_stray hleft.symm
      obtain ⟨hsimple, hinner⟩ := ih htype hi hstray₁
      obtain ⟨hts, -, hbefore⟩ := Cursor.mk.inj hinner
      rw [hnil, List.append_nil] at hts
      refine ⟨hsimple, ?_⟩
      show (⟨c.rest, c.stop, c.stray⟩ : Cursor) = ⟨_, c'.stop, c'.stray⟩
      rw [hrest, hts, hstop, hbefore, hstray₁, hstray]
      rfl

/-- What is read as a type that has values is a simple type and nothing else, unless something is
left over in parentheses. -/
theorem type_sound_kind {k : Kind} (h : (upTo depth).type plus c = .ok (t, c'))
    (hk : Kind.ofSource? t = some k) (hstray : c'.stray = none) :
    t.Simple ∧ c = { c' with rest := t.tokens ++ c'.rest } := by
  rcases Kind.ofSource?_cases hk with ⟨s, rfl⟩ | ⟨i, hi⟩
  · cases depth with
    | zero =>
      obtain ⟨rest, stop, stray⟩ := c
      cases rest <;> cases h
    | succ depth =>
      have hstep : (upTo depth).typeStep plus c = .ok (.name ⟨"bool", false⟩ s, c') := h
      rcases typeStep_cases hstep with hnot | ⟨n, s, hname, hc⟩ | ⟨_, _, _, _, _, hparen, _⟩
      · exact absurd trivial hnot
      · cases hname
        exact ⟨rfl, hc⟩
      · cases hparen
  · exact type_sound h hi hstray

end Grammar

/-- A simple type is read whole. -/
theorem Parser.type_simple {t : SourceType} (ht : t.Simple) {rest : List Token}
    (hrest : Parser.Ends rest) {stop : Span} {stray : Option SyntaxError} :
    Parser.type true ⟨t.tokens ++ rest, stop, stray⟩ = .ok (t, ⟨rest, stop, stray⟩) := by
  have hdepth : Token.weights t.tokens ≤ 4 * Token.weights (t.tokens ++ rest) + 4 := by
    rw [Token.weights_append]
    omega
  exact Grammar.type_complete ht hdepth true hrest

namespace SubField

open PackedFields.Parser

variable {t : SourceType} {k : Kind} {ts rest : List Token} {stop : Span}
  {stray : Option SyntaxError}

theorem kindBy_eq_ok_iff {type : Parser SourceType} {c c' : Cursor} :
    kindBy type c = .ok (k, c') ↔ ∃ t, type c = .ok (t, c') ∧ Kind.ofSource? t = some k := by
  constructor
  · intro h
    obtain ⟨t, c₁, htype, h⟩ := bind_eq_ok_iff.mp h
    cases hk : Kind.ofSource? t with
    | none =>
      rw [hk] at h
      cases h
    | some k' =>
      rw [hk] at h
      cases h
      exact ⟨t, htype, hk⟩
  · rintro ⟨t, htype, hk⟩
    rw [kindBy, bind_of_ok htype, hk]
    rfl

theorem kindParser_simple (ht : t.Simple) (hk : Kind.ofSource? t = some k) (hrest : Ends rest) :
    kindParser ⟨t.tokens ++ rest, stop, stray⟩ = .ok (k, ⟨rest, stop, stray⟩) :=
  kindBy_eq_ok_iff.mpr ⟨t, type_simple ht hrest, hk⟩

/-- Tokens are read as a value type just in case they are a simple type that has values. -/
theorem kindParser_runAll_iff :
    kindParser.runAll ts stop = .ok k ↔
      ∃ t : SourceType, t.Simple ∧ Kind.ofSource? t = some k ∧ ts = t.tokens := by
  constructor
  · intro h
    obtain ⟨c, hread, hrest, hstray⟩ := runAll_eq_ok_iff.mp h
    obtain ⟨t, htype, hk⟩ := kindBy_eq_ok_iff.mp hread
    obtain ⟨hsimple, hc⟩ := Grammar.type_sound_kind htype hk hstray
    rw [hrest, List.append_nil] at hc
    exact ⟨t, hsimple, hk, congrArg Cursor.rest hc⟩
  · rintro ⟨t, ht, hk, rfl⟩
    have hread : kindParser ⟨t.tokens ++ [], stop, none⟩ = .ok (k, ⟨[], stop, none⟩) :=
      kindParser_simple ht hk .nil
    rw [List.append_nil] at hread
    exact runAll_eq_ok_iff.mpr ⟨_, hread, rfl, rfl⟩

end SubField

end PackedFields

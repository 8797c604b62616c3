import PackedFields.Proofs.HarmlessGrammar
import PackedFields.Proofs.ValueTypes

/-!
# Value types in streams

The type of values is a name, or for integers a name in parentheses or in groups without visible
delimiters (`TokenTree.Writes`). Such a type is read whole (`TokenTree.typeAt_of_writes`), and no
other tree is read as one that has values (`TokenTree.writes_of_typeOf`), unless something is left
over in a group. Then the reading goes on behind the group all the same, and is refused at its end.
-/

namespace PackedFields

open PackedFields.Parser

namespace Kind

variable {t : SourceType} {k : Kind}

theorem ofSource?_of_int {i : IntType} (h : IntType.ofSource? t = some i) :
    ofSource? t = some (.int i) := by
  unfold ofSource?
  split
  · next s =>
    have hbool : IntType.ofName? "bool" = none := by decide
    have hname : IntType.ofName? "bool" = some i := h
    rw [hbool] at hname
    cases hname
  · rw [h]
    rfl

/-- What a type in parentheses has for values, it has without them. -/
theorem ofSource?_of_paren {o e : Span} (h : ofSource? (.paren t o e) = some k) :
    ofSource? t = some k := by
  obtain ⟨i, hi, rfl⟩ := Option.map_eq_some_iff.mp h
  exact ofSource?_of_int hi

/-- So it does without a group that has no visible delimiters. -/
theorem ofSource?_of_unseen (h : ofSource? (.unseen t) = some k) : ofSource? t = some k := by
  obtain ⟨i, hi, rfl⟩ := Option.map_eq_some_iff.mp h
  exact ofSource?_of_int hi

theorem isKeyword_of_ofSource? {n : Name} {s : Span} (h : ofSource? (.name n s) = some k) :
    n.isKeyword = false := by
  rcases ofSource?_cases h with ⟨s', hbool⟩ | ⟨i, hi⟩
  · cases hbool
    rfl
  · exact IntType.isKeyword_of_ofName? hi

theorem named_of_ofSource? (h : ofSource? t = some k) : t.Named := by
  rcases ofSource?_cases h with ⟨s, rfl⟩ | ⟨i, hi⟩
  · trivial
  · exact IntType.named_of_ofSource? hi

end Kind

namespace TokenTree

/-- How a type is written that can have values: as a name, in parentheses, or in a group without
visible delimiters. After the type a group has no tokens any more. -/
inductive Writes : TokenTree → SourceType → Prop
  | name (n : Name) (s : Span) : Writes (.ident n s) (.name n s)
  | paren {tree : TokenTree} {more : List TokenTree} {t : SourceType} {o e : Span}
      (h : Writes tree t) (hmore : flat more = []) :
      Writes (.group .paren (tree :: more) o e) (.paren t o e)
  | unseen {tree : TokenTree} {more : List TokenTree} {t : SourceType} {e : Span}
      (h : Writes tree t) (hmore : flat more = []) : Writes (.unseen (tree :: more) e) (.unseen t)

variable {tree : TokenTree} {ts : List TokenTree} {t : SourceType} {k : Kind} {c c' : Cursor}
  {rest rest' : List Token} {stop : Span} {stray : Option SyntaxError}

/-! ## Flat types -/

theorem startsBound_of_simple (h : t.Simple) (rest : List Token) :
    startsBound (t.tokens ++ rest) = false := by
  cases t with
  | name | paren => rfl
  | path | trait | unseen | other => exact h.elim

theorem tokens_ne_nil_of_simple (h : t.Simple) : t.tokens ≠ [] := by
  cases t with
  | name | paren => exact List.cons_ne_nil _ _
  | path | trait | unseen | other => exact h.elim

/-- A tree whose tokens start with a simple type is that type, if it has no group without visible
delimiters at its start. -/
theorem writes_of_simple (ht : t.Simple) (hopens : tree.opensUnseen = false)
    (h : tree.tokens ++ rest = t.tokens ++ rest') : Writes tree t ∧ rest = rest' := by
  induction t generalizing tree rest rest' with
  | name n s =>
    cases tree with
    | ident m s' =>
      obtain ⟨hhead, hrest⟩ := List.cons.inj h
      cases hhead
      exact ⟨.name n s, hrest⟩
    | punct | literal | group =>
      obtain ⟨hhead, -⟩ := List.cons.inj h
      cases hhead
    | unseen => cases hopens
  | paren inner o e ih =>
    cases tree with
    | group d ts o' e' =>
      obtain ⟨hhead, hrest⟩ := List.cons.inj h
      rw [Token.group.injEq] at hhead
      obtain ⟨rfl, hts, rfl, rfl⟩ := hhead
      cases ts with
      | nil => exact absurd hts.symm (tokens_ne_nil_of_simple (t := inner) ht)
      | cons tree more =>
        have hfirst : tree.opensUnseen = false := hopens
        have hinner : tree.tokens ++ flat more = inner.tokens ++ [] := by
          rw [List.append_nil]
          exact hts
        obtain ⟨hwrites, hmore⟩ := ih ht hfirst hinner
        exact ⟨.paren hwrites hmore, hrest⟩
    | ident | punct | literal =>
      obtain ⟨hhead, -⟩ := List.cons.inj h
      cases hhead
    | unseen => cases hopens
  | path | trait | unseen | other => exact ht.elim

/-- And such a type is read as it is written. -/
theorem simple_of_writes (h : Writes tree t) (hk : Kind.ofSource? t = some k)
    (hopens : tree.opensUnseen = false) : t.Simple ∧ tree.tokens = t.tokens := by
  induction h generalizing k with
  | name n s => exact ⟨Kind.isKeyword_of_ofSource? hk, rfl⟩
  | @paren tree more t o e h hmore ih =>
    obtain ⟨hsimple, htokens⟩ := ih (Kind.ofSource?_of_paren hk) hopens
    refine ⟨hsimple, ?_⟩
    rw [tokens, flat, hmore, List.append_nil, htokens, SourceType.tokens]
  | unseen => cases hopens

/-- No lifetime and no question mark stands at the start of a type that has values. -/
theorem startsBound_of_writes (h : Writes tree t) (rest : List Token) :
    startsBound (tree.tokens ++ rest) = false := by
  induction h generalizing rest with
  | name => rfl
  | paren => rfl
  | @unseen tree more t e h hmore ih =>
    rw [tokens, flat, hmore, List.append_nil]
    exact ih rest

/-! ## What is read -/

/-- A type that has values is read whole if a comma follows it, or nothing. -/
theorem typeAt_of_writes (h : Writes tree t) (hk : Kind.ofSource? t = some k) (hrest : Ends rest)
    (stop : Span) (stray : Option SyntaxError) :
    typeAt rest tree ⟨tree.tokens ++ rest, stop, stray⟩ = .ok (t, ⟨rest, stop, stray⟩) := by
  induction h generalizing k rest stop stray with
  | name n s => exact type_simple (t := .name n s) (Kind.isKeyword_of_ofSource? hk) hrest
  | @paren tree more t o e h hmore ih =>
    cases hopens : tree.opensUnseen with
    | false =>
      have hwrites : Writes (.group .paren (tree :: more) o e) (.paren t o e) := .paren h hmore
      obtain ⟨hsimple, htokens⟩ := simple_of_writes hwrites hk hopens
      have hflat : typeAt rest (.group .paren (tree :: more) o e) = Parser.type true := by
        rw [typeAt, startsUnseen, hopens]
        rfl
      rw [hflat, htokens]
      exact type_simple hsimple hrest
    | true =>
      have hinner := ih (Kind.ofSource?_of_paren hk) .nil e stray
      have hinside : (typeOf (tree :: more) >>= insideAfter) ⟨tree.tokens ++ [], e, stray⟩ =
          .ok (.single t, ⟨[], e, stray⟩) := by
        rw [typeOf, hmore, bind_of_ok hinner]
        rfl
      have hparens : typeAt rest (.group .paren (tree :: more) o e) =
          parensBy (typeOf (tree :: more)) := by
        rw [typeAt, startsUnseen, hopens, flat, hmore, startsBound_of_writes h []]
        rfl
      rw [hparens, tokens, flat, hmore, List.singleton_append, parensBy,
        bind_of_ok (group_of_ok hinside), orElse_leftover?_nil]
      exact Grammar.afterParens_single _ t o e hrest true
  | @unseen tree more t e h hmore ih =>
    have hinner := ih (Kind.ofSource?_of_unseen hk) .nil e stray
    have hgroup : unseenGroup (flat (tree :: more)) rest e (typeOf (tree :: more))
        ⟨tree.tokens ++ [] ++ rest, stop, stray⟩ = .ok (t, ⟨rest, stop, stray⟩) := by
      rw [unseenGroup, flat, hmore, typeOf, hmore, hinner]
      dsimp only
      rw [orElse_leftover?_nil]
    rw [typeAt, tokens, flat, hmore]
    rw [flat, hmore] at hgroup
    rw [bind_of_ok hgroup]
    exact Grammar.afterUnseen_of_ends _ t hrest

/-! ## What can have been read -/

theorem unseenGroup_eq_ok {α : Type} {inner : List Token} {closing : Span} {x : Parser α} {a : α}
    (h : unseenGroup inner rest closing x c = .ok (a, c')) :
    ∃ c₁, x ⟨inner, closing, c.stray⟩ = .ok (a, c₁) ∧
      c' = ⟨rest, c.stop, c₁.stray <|> leftover? none c₁.rest⟩ := by
  rw [unseenGroup] at h
  split at h
  · cases h
  · next a' c₁ hread =>
    cases h
    exact ⟨c₁, hread, rfl⟩

/-- The parentheses at the start have been read, and what they hold is a type. -/
theorem parensBy_cases {type : Parser SourceType} (h : parensBy type c = .ok (t, c')) :
    ¬ t.Named ∨ ∃ inner ts o e c₁, t = .paren inner o e ∧ c.rest = .group .paren ts o e :: c'.rest ∧
      type ⟨ts, e, c.stray⟩ = .ok (inner, c₁) ∧
      c'.stop = c.stop ∧ c'.stray = (c₁.stray <|> leftover? (some .paren) c₁.rest) := by
  obtain ⟨⟨i, o, e⟩, c₁, hgroup, h⟩ := bind_eq_ok_iff.mp h
  refine (Grammar.afterParens_cases (g := Grammar.upTo _) h).imp_right ?_
  rintro ⟨inner, rfl, rfl, rfl⟩
  obtain ⟨ts, c₂, hrest, hinside, hstop, hstray⟩ := group_eq_ok hgroup
  obtain ⟨first, c₃, htype, hafter⟩ := bind_eq_ok_iff.mp hinside
  obtain ⟨hfirst, hend⟩ := Grammar.eq_of_insideAfter (g := Grammar.upTo _) hafter
  rw [← hfirst, ← hend] at htype
  exact ⟨inner, ts, o, e, c₂, rfl, hrest, htype, hstop, hstray⟩

/-- A type that has values is what a tree writes, if it is read from flat tokens. -/
theorem writes_of_type (h : Parser.type true c = .ok (t, c')) (hc : c.rest = tree.tokens ++ rest)
    (hopens : t.Simple → tree.tokens ++ rest = t.tokens ++ c'.rest → tree.opensUnseen = false)
    (hk : Kind.ofSource? t = some k) (hstray : c'.stray = none) :
    Writes tree t ∧ c' = { c with rest } := by
  obtain ⟨hsimple, hread⟩ := Grammar.type_sound_kind h hk hstray
  rw [hread] at hc
  obtain ⟨hwrites, rfl⟩ := writes_of_simple hsimple (hopens hsimple hc.symm) hc.symm
  refine ⟨hwrites, ?_⟩
  rw [hread]

/-- Parentheses without a bound in them have no group without visible delimiters at their start, if
they are read as flat tokens. -/
theorem startsUnseen_of_simple {inner : List TokenTree} {o e : Span}
    (hflat : ¬ (startsUnseen inner && !startsBound (flat inner)) = true) (ht : t.Simple)
    (h : (group .paren inner o e).tokens ++ rest = t.tokens ++ rest') :
    startsUnseen inner = false := by
  cases t with
  | name n s =>
    obtain ⟨hhead, -⟩ := List.cons.inj h
    cases hhead
  | paren t o' e' =>
    obtain ⟨hhead, -⟩ := List.cons.inj h
    rw [Token.group.injEq] at hhead
    have hbound := startsBound_of_simple (t := t) ht []
    rw [List.append_nil, ← hhead.2.1] at hbound
    rw [hbound, Bool.not_false, Bool.and_true] at hflat
    exact Bool.eq_false_iff.mpr hflat
  | path | trait | unseen | other => exact ht.elim

mutual

/-- A tree is read as a type that has values only if it writes that type, or something is left over
in a group. -/
theorem writes_of_typeAt : ∀ (tree : TokenTree) {rest : List Token} {t : SourceType}
    {c c' : Cursor}, typeAt rest tree c = .ok (t, c') → c.rest = tree.tokens ++ rest →
    Kind.ofSource? t = some k → c'.stray = none → Writes tree t ∧ c' = { c with rest }
  | .unseen inner closing, rest, t, c, c', h, hc, hk, hstray => by
    obtain ⟨first, c₁, hgroup, h⟩ := bind_eq_ok_iff.mp h
    rcases Grammar.afterUnseen_cases (g := Grammar.upTo _) h with hnot | ⟨rfl, rfl⟩
    · exact absurd (Kind.named_of_ofSource? hk) hnot
    obtain ⟨c₂, hinner, rfl⟩ := unseenGroup_eq_ok hgroup
    obtain ⟨hstray₂, hnil⟩ := eq_nil_of_stray hstray
    obtain ⟨tree, more, rfl, hwrites, rfl⟩ :=
      writes_of_typeOf inner hinner rfl (Kind.ofSource?_of_unseen hk) hstray₂
    refine ⟨.unseen hwrites hnil, ?_⟩
    rw [hnil, orElse_leftover?_nil]
  | .group .paren inner o e, rest, t, c, c', h, hc, hk, hstray => by
    rw [typeAt] at h
    rcases cases_of_ite h with ⟨-, h⟩ | ⟨hflat, h⟩
    · rcases parensBy_cases h with hnot | ⟨first, ts, o', e', c₁, rfl, hrest, hinner, hstop, hleft⟩
      · exact absurd (Kind.named_of_ofSource? hk) hnot
      rw [hc] at hrest
      obtain ⟨hhead, htail⟩ := List.cons.inj hrest
      cases hhead
      rw [hstray] at hleft
      obtain ⟨hstray₁, hnil⟩ := eq_nil_of_stray hleft.symm
      obtain ⟨tree, more, rfl, hwrites, rfl⟩ :=
        writes_of_typeOf inner hinner rfl (Kind.ofSource?_of_paren hk) hstray₁
      refine ⟨.paren hwrites hnil, ?_⟩
      show (⟨c'.rest, c'.stop, c'.stray⟩ : Cursor) = ⟨rest, c.stop, c.stray⟩
      rw [← htail, hstop, hstray, hstray₁]
      rfl
    · exact writes_of_type h hc (startsUnseen_of_simple hflat) hk hstray
  | .ident n s, rest, t, c, c', h, hc, hk, hstray => writes_of_type h hc (fun _ _ => rfl) hk hstray
  | .punct .., rest, t, c, c', h, hc, hk, hstray => writes_of_type h hc (fun _ _ => rfl) hk hstray
  | .literal .., rest, t, c, c', h, hc, hk, hstray => writes_of_type h hc (fun _ _ => rfl) hk hstray
  | .group .bracket .., rest, t, c, c', h, hc, hk, hstray =>
    writes_of_type h hc (fun _ _ => rfl) hk hstray
  | .group .brace .., rest, t, c, c', h, hc, hk, hstray =>
    writes_of_type h hc (fun _ _ => rfl) hk hstray

/-- So it is with the first tree of a stream. -/
theorem writes_of_typeOf : ∀ (ts : List TokenTree) {t : SourceType} {c c' : Cursor},
    typeOf ts c = .ok (t, c') → c.rest = flat ts → Kind.ofSource? t = some k → c'.stray = none →
    ∃ tree more, ts = tree :: more ∧ Writes tree t ∧ c' = { c with rest := flat more }
  | [], t, c, c', h, hc, hk, hstray => by
    obtain ⟨hsimple, hread⟩ := Grammar.type_sound_kind h hk hstray
    rw [hread] at hc
    exact absurd (List.append_eq_nil_iff.mp hc).1 (tokens_ne_nil_of_simple hsimple)
  | tree :: more, t, c, c', h, hc, hk, hstray => by
    obtain ⟨hwrites, hrest⟩ := writes_of_typeAt tree h hc hk hstray
    exact ⟨tree, more, rfl, hwrites, hrest⟩

end

/-- Whatever is left over in groups, a type that has values is read from the first tree. -/
theorem exists_tree_of_typeOf (h : typeOf ts c = .ok (t, c')) (hc : c.rest = flat ts)
    (hk : Kind.ofSource? t = some k) : ∃ tree more, ts = tree :: more ∧ c'.rest = flat more := by
  have hnamed := Kind.named_of_ofSource? hk
  -- flat tokens lose a single one
  have hflat : Parser.type true c = .ok (t, c') → ∃ u, c.rest = u :: c'.rest := by
    intro hread
    rcases Grammar.typeStep_cases hread with hnot | ⟨n, s, -, hc⟩ | ⟨_, ts, o, e, _, -, hrest, -⟩
    · exact absurd hnamed hnot
    · exact ⟨.ident n s, congrArg Cursor.rest hc⟩
    · exact ⟨.group .paren ts o e, hrest⟩
  cases ts with
  | nil =>
    obtain ⟨u, hu⟩ := hflat h
    rw [hc] at hu
    cases hu
  | cons tree more =>
    refine ⟨tree, more, rfl, ?_⟩
    cases tree with
    | ident | punct | literal =>
      obtain ⟨u, hu⟩ := hflat h
      rw [hc] at hu
      exact (List.cons.inj hu).2.symm
    | unseen inner closing =>
      obtain ⟨first, c₁, hgroup, h⟩ := bind_eq_ok_iff.mp h
      rcases Grammar.afterUnseen_cases (g := Grammar.upTo _) h with hnot | ⟨-, rfl⟩
      · exact absurd hnamed hnot
      obtain ⟨c₂, -, rfl⟩ := unseenGroup_eq_ok hgroup
      rfl
    | group d inner o e =>
      have hread : Parser.type true c = .ok (t, c') ∨ parensBy (typeOf inner) c = .ok (t, c') := by
        rw [typeOf] at h
        cases d with
        | paren =>
          rw [typeAt] at h
          rcases cases_of_ite h with ⟨-, h⟩ | ⟨-, h⟩
          · exact .inr h
          · exact .inl h
        | bracket | brace => exact .inl h
      have hcons : ∃ u, c.rest = u :: c'.rest := by
        rcases hread with hread | hread
        · exact hflat hread
        · rcases parensBy_cases hread with hnot | ⟨_, ts, o', e', _, -, hrest, -⟩
          · exact absurd hnamed hnot
          · exact ⟨_, hrest⟩
      obtain ⟨u, hu⟩ := hcons
      rw [hc] at hu
      exact (List.cons.inj hu).2.symm

/-! ## Errors -/

instance {inner rest : List Token} {closing : Span} {α : Type} {x : Parser α} [hx : Harmless x] :
    Harmless (unseenGroup inner rest closing x) where
  goesOn c hc := by
    have hgoes := hx.goesOn ⟨inner, closing, c.stray⟩ hc
    rw [unseenGroup]
    split
    · next hread =>
      rw [hread] at hgoes
      exact hgoes
    · next hread =>
      rw [hread] at hgoes
      exact fun e he => stops_of_stray hgoes he

instance {type : Parser SourceType} [Harmless type] : Harmless (parensBy type) := by
  unfold parensBy; infer_instance

mutual

theorem harmless_typeAt (rest : List Token) : ∀ tree : TokenTree, Harmless (typeAt rest tree)
  | .unseen inner closing =>
    have := harmless_typeOf inner
    inferInstanceAs (Harmless
      (unseenGroup (flat inner) rest closing (typeOf inner) >>= afterUnseen))
  | .group .paren inner o e => by
    have := harmless_typeOf inner
    rw [typeAt]
    infer_instance
  | .ident .. => inferInstanceAs (Harmless (Parser.type true))
  | .punct .. => inferInstanceAs (Harmless (Parser.type true))
  | .literal .. => inferInstanceAs (Harmless (Parser.type true))
  | .group .bracket .. => inferInstanceAs (Harmless (Parser.type true))
  | .group .brace .. => inferInstanceAs (Harmless (Parser.type true))

theorem harmless_typeOf : ∀ ts : List TokenTree, Harmless (typeOf ts)
  | [] => inferInstanceAs (Harmless (Parser.type true))
  | tree :: more => harmless_typeAt (flat more) tree

end

end TokenTree

end PackedFields

import PackedFields.Proofs.NameForms
import PackedFields.Proofs.StreamTypes
import PackedFields.Proofs.WholeNumbers

/-!
# The grammar of declarations

A declaration is a type, a width and a name, with commas between them and maybe one after them
(`SubField.Declares`). A type is whatever stands for a kind of values. A width is a whole number, or
a low line if the values are truth values. A name is an identifier, or a string literal that holds
one. In a stream, groups without visible delimiters make no difference to all this but in the type:
a truth value in such a group is none.

`SubField.ofStream_eq_ok_iff_declares` says that arguments declare a sub-field if they are of this
form, and that otherwise there is an error, which is reported. The one exception is a marked name in
a string literal, which stops the reading.
-/

namespace PackedFields

open PackedFields.Parser

/-- The token is the punctuation character `d`. -/
def Token.IsMark (d : Char) (t : Token) : Prop := ∃ joint s, t = .punct d joint s

namespace SubField

/-- Whether a tree is a type whose values are of the kind `k`. -/
def IsType (k : Kind) (tree : TokenTree) : Prop :=
  ∃ t : SourceType, tree.Writes t ∧ Kind.ofSource? t = some k

/-- Whether a token is the width `w`, for values of the kind `k`. -/
def IsWidth (k : Kind) (w : Nat) : Token → Prop
  | .ident n _ => n = ⟨"_", false⟩ ∧ k = .bool ∧ w = 1
  | .literal spelling _ => Literal.IsWhole spelling w ∧ 1 ≤ w ∧ w ≤ maxWidth
  | _ => False

/-- Whether a string literal holds the name `n` and nothing else. -/
def HoldsName (spelling : String) (n : Name) : Prop :=
  ∃ place, (Literal.text? spelling).bind lex = some [.ident n place]

/-- Whether a token is the name `n`: the name itself, or a string literal that holds it. In a string
literal it has no mark. -/
def IsName (n : Name) : Token → Prop
  | .ident m _ => m = n ∧ n.isKeyword = false
  | .literal spelling _ => HoldsName spelling n ∧ n.isKeyword = false ∧ n.raw = false
  | _ => False

/-- Whether a stream is the arguments that declare a sub-field. -/
inductive Declares : List TokenTree → SubField → Prop
  | intro {k : Kind} {w : Nat} {n : Name} {type : TokenTree} {rest : List TokenTree}
      {first width second name : Token} {trailing : List Token} (htype : IsType k type)
      (hrest : TokenTree.flat rest = first :: width :: second :: name :: trailing)
      (hfirst : first.IsComma) (hwidth : IsWidth k w width) (hsecond : second.IsComma)
      (hname : IsName n name)
      (htrailing : trailing = [] ∨ ∃ last, last.IsComma ∧ trailing = [last]) :
      Declares (type :: rest) ⟨k, w, n, name.span⟩

/-- Whether the name, after two other arguments, is a string literal that holds a marked name. -/
def NamedByMarkedText (arguments : List TokenTree) : Prop :=
  ∃ type rest first width second spelling s more n,
    arguments = type :: rest ∧
    TokenTree.flat rest = first :: width :: second :: .literal spelling s :: more ∧
    first.IsComma ∧ second.IsComma ∧ HoldsName spelling n ∧ n.raw = true

end SubField

namespace SubField

variable {α β : Type} {k : Kind} {w : Nat} {n : Name} {d : SubField} {c c' : Cursor} {t : Token}
  {rest ts : List Token} {arguments : List TokenTree} {s stop : Span}
  {stray : Option SyntaxError} {e : SyntaxError}

/-! ## Readers of one token -/

/-- What `x` reads is a single token, and it takes the token `t` for `a` just in case `P t a`. -/
def ReadsOne (x : Parser α) (P : Token → α → Prop) : Prop :=
  ∀ c a c', x c = .ok (a, c') ↔ ∃ t, P t a ∧ c = { c' with rest := t :: c'.rest }

theorem ReadsOne.of_cons {x : Parser α} {P : Token → α → Prop}
    (hnil : ∀ stop stray r, x ⟨[], stop, stray⟩ ≠ .ok r)
    (hcons : ∀ t rest stop stray a c',
      x ⟨t :: rest, stop, stray⟩ = .ok (a, c') ↔ P t a ∧ c' = ⟨rest, stop, stray⟩) :
    ReadsOne x P := by
  rintro ⟨rest, stop, stray⟩ a c'
  cases rest with
  | nil =>
    refine iff_of_false (hnil stop stray _) ?_
    rintro ⟨t, -, hc⟩
    cases hc
  | cons t rest =>
    rw [hcons]
    constructor
    · rintro ⟨ht, rfl⟩
      exact ⟨t, ht, rfl⟩
    · rintro ⟨u, hu, hc⟩
      cases hc
      exact ⟨hu, rfl⟩

theorem ReadsOne.read {x : Parser α} {P : Token → α → Prop} {a : α} (hx : ReadsOne x P)
    (ht : P t a) : x ⟨t :: rest, stop, stray⟩ = .ok (a, ⟨rest, stop, stray⟩) :=
  (hx _ _ _).mpr ⟨t, ht, rfl⟩

theorem ReadsOne.bind {x : Parser α} {P : Token → α → Prop} {a : α} {f : α → Parser β}
    (hx : ReadsOne x P) (ht : P t a) :
    (x >>= f) ⟨t :: rest, stop, stray⟩ = f a ⟨rest, stop, stray⟩ :=
  bind_of_ok (hx.read ht)

/-- A mark of one character is read, and nothing else. -/
theorem readsOne_mark {m : String} {d : Char} (hm : m.toList = [d]) :
    ReadsOne (mark m) fun t ts => t.IsMark d ∧ ts = joined [d] [t] := by
  refine .of_cons (fun stop stray r h => ?_) fun t rest stop stray ts c' => ?_
  · rw [mark, hm] at h
    cases h
  · by_cases ht : t.IsMark d
    · obtain ⟨joint, s, rfl⟩ := ht
      have hread : mark m ⟨.punct d joint s :: rest, stop, stray⟩ =
          .ok (joined [d] [.punct d joint s], ⟨rest, stop, stray⟩) := by
        rw [mark, hm]
        simp [dropMark, joined]
      rw [hread, Except.ok.injEq, Prod.mk.injEq]
      constructor
      · rintro ⟨rfl, rfl⟩
        exact ⟨⟨⟨joint, s, rfl⟩, rfl⟩, rfl⟩
      · rintro ⟨⟨-, rfl⟩, rfl⟩
        exact ⟨rfl, rfl⟩
    · have hdrop : dropMark [d] (t :: rest) = none := by
        cases t with
        | punct d' joint s =>
          have hd : ¬ d = d' := fun hd => ht ⟨joint, s, by rw [hd]⟩
          exact if_neg hd
        | ident | literal | group => rfl
      rw [mark, hm, hdrop]
      refine iff_of_false (fun h => by cases h) ?_
      rintro ⟨⟨hmark, -⟩, -⟩
      exact ht hmark

theorem readsOne_comma :
    ReadsOne (mark ",") fun t ts => t.IsComma ∧ ts = joined [','] [t] :=
  readsOne_mark (by decide)

theorem checkWidth_eq_ok_iff {v : Nat} :
    checkWidth v s = .ok w ↔ v = w ∧ 1 ≤ w ∧ w ≤ maxWidth := by
  rw [checkWidth]
  split
  · next hlarge =>
    refine iff_of_false (fun h => by cases h) ?_
    rintro ⟨rfl, -, hmax⟩
    exact absurd (Nat.le_trans hlarge hmax) (by decide)
  · split
    · next hrange =>
      refine iff_of_false (fun h => by cases h) ?_
      rintro ⟨rfl, hpos, hmax⟩
      omega
    · next hrange =>
      rw [Except.ok.injEq]
      constructor
      · rintro rfl
        omega
      · exact And.left

theorem readsOne_width (k : Kind) : ReadsOne (widthParser k) fun t w => IsWidth k w t := by
  refine .of_cons (fun stop stray r h => by cases h) fun t rest stop stray w c' => ?_
  unfold widthParser
  dsimp only
  split
  · next s rest' heq =>
    cases heq
    rw [IsWidth]
    split
    · next hk =>
      rw [Except.ok.injEq, Prod.mk.injEq]
      constructor
      · rintro ⟨rfl, rfl⟩
        exact ⟨⟨rfl, hk, rfl⟩, rfl⟩
      · rintro ⟨⟨-, -, rfl⟩, rfl⟩
        exact ⟨rfl, rfl⟩
    · next hk =>
      refine iff_of_false (fun h => by cases h) ?_
      rintro ⟨⟨-, hbool, -⟩, -⟩
      exact hk hbool
  · next spelling s rest' heq =>
    cases heq
    rw [IsWidth, ← Literal.whole?_eq_some_iff]
    split
    · next v hv =>
      rw [hv, Option.some.injEq, ← checkWidth_eq_ok_iff (s := s)]
      cases checkWidth v s with
      | error e =>
        refine iff_of_false (fun h => by cases h) ?_
        rintro ⟨hw, -⟩
        cases hw
      | ok v' =>
        show Except.ok (v', _) = .ok (w, c') ↔ Except.ok v' = .ok w ∧ _
        rw [Except.ok.injEq, Prod.mk.injEq, Except.ok.injEq]
        exact and_congr Iff.rfl eq_comm
    · next hv =>
      refine iff_of_false (fun h => by cases h) ?_
      rintro ⟨⟨hw, -⟩, -⟩
      rw [hv] at hw
      cases hw
  · next heq =>
    cases heq
    refine iff_of_false ?_ And.left
    split
    · intro h
      cases h
    · intro h
      cases h
  · next hident hliteral _ =>
    refine iff_of_false (fun h => by cases h) ?_
    rintro ⟨ht, -⟩
    cases t with
    | ident n s =>
      obtain ⟨rfl, -⟩ := ht
      exact hident s rest rfl
    | literal spelling s => exact hliteral spelling s rest rfl
    | punct | group => exact ht

theorem nameOfText_eq_ok_iff {text : String} :
    nameOfText text = .ok n ↔
      (∃ place, lex text = some [.ident n place]) ∧ n.isKeyword = false ∧ n.raw = false := by
  constructor
  · intro h
    refine ⟨exists_ident_of_nameOfText (.inl h), ?_⟩
    unfold nameOfText at h
    split at h
    · split at h
      · cases h
      · next hkeyword =>
        split at h
        · cases h
        · next hraw =>
          cases h
          exact ⟨Bool.eq_false_iff.mpr hkeyword, Bool.eq_false_iff.mpr hraw⟩
    · cases h
  · rintro ⟨⟨place, hlex⟩, hkeyword, hraw⟩
    rw [nameOfText, hlex]
    dsimp only
    rw [hkeyword, hraw]
    rfl

theorem readsOne_name : ReadsOne nameParser fun t p => IsName p.1 t ∧ p.2 = t.span := by
  refine .of_cons (fun stop stray r h => by cases h) fun t rest stop stray p c' => ?_
  obtain ⟨n, place⟩ := p
  cases t with
  | ident m s =>
    have hread : nameParser ⟨.ident m s :: rest, stop, stray⟩ =
        if m.isKeyword then .error ⟨.keyword m, s⟩ else .ok ((m, s), ⟨rest, stop, stray⟩) := rfl
    rw [hread, IsName]
    split
    · next hkeyword =>
      refine iff_of_false (fun h => by cases h) ?_
      rintro ⟨⟨⟨rfl, hplain⟩, -⟩, -⟩
      rw [hplain] at hkeyword
      cases hkeyword
    · next hplain =>
      rw [Except.ok.injEq, Prod.mk.injEq, Prod.mk.injEq]
      constructor
      · rintro ⟨⟨rfl, rfl⟩, rfl⟩
        exact ⟨⟨⟨rfl, Bool.eq_false_iff.mpr hplain⟩, rfl⟩, rfl⟩
      · rintro ⟨⟨⟨rfl, -⟩, rfl⟩, rfl⟩
        exact ⟨⟨rfl, rfl⟩, rfl⟩
  | literal spelling s =>
    rw [nameParser, nextText?, IsName, HoldsName]
    cases htext : Literal.text? spelling with
    | none =>
      refine iff_of_false (fun h => by cases h) ?_
      rintro ⟨⟨⟨⟨place, hlex⟩, -⟩, -⟩, -⟩
      cases hlex
    | some text =>
      rw [Option.map_some, Option.bind_some, ← nameOfText_eq_ok_iff]
      dsimp only
      cases nameOfText text with
      | error cause =>
        refine iff_of_false (fun h => by cases h) ?_
        rintro ⟨⟨hname, -⟩, -⟩
        cases hname
      | ok m =>
        dsimp only
        rw [Except.ok.injEq, Prod.mk.injEq, Prod.mk.injEq, Except.ok.injEq]
        exact and_congr (and_congr Iff.rfl eq_comm) eq_comm
  | punct | group =>
    refine iff_of_false (fun h => by cases h) ?_
    rintro ⟨⟨ht, -⟩, -⟩
    exact ht

/-! ## Declarations -/

/-- A last comma may be missing. -/
theorem mark?_comma_eq_ok (h : mark? "," c = .ok (ts, c')) :
    c = c' ∨ ∃ t, t.IsComma ∧ c = { c' with rest := t :: c'.rest } := by
  rw [mark?, markNext] at h
  rcases cases_of_ahead h with ⟨-, h⟩ | ⟨-, h⟩
  · obtain ⟨t, ⟨ht, -⟩, hc⟩ := (readsOne_comma c ts c').mp h
    exact .inr ⟨t, ht, hc⟩
  · cases h
    exact .inl rfl

theorem declares_of_ofStream (h : ofStream arguments stop = .ok d) : Declares arguments d := by
  obtain ⟨c, hread, hrest, hstray⟩ := runAll_eq_ok_iff.mp h
  obtain ⟨k, c₁, readKind, hread⟩ := bind_eq_ok_iff.mp hread
  obtain ⟨ts₁, c₂, readFirst, hread⟩ := bind_eq_ok_iff.mp hread
  obtain ⟨w, c₃, readWidth, hread⟩ := bind_eq_ok_iff.mp hread
  obtain ⟨ts₂, c₄, readSecond, hread⟩ := bind_eq_ok_iff.mp hread
  obtain ⟨⟨n, s⟩, c₅, readName, hread⟩ := bind_eq_ok_iff.mp hread
  obtain ⟨ts₃, c₆, readLast, hread⟩ := bind_eq_ok_iff.mp hread
  cases hread
  obtain ⟨first, ⟨hfirst, -⟩, rfl⟩ := (readsOne_comma _ _ _).mp readFirst
  obtain ⟨width, hwidth, rfl⟩ := (readsOne_width k _ _ _).mp readWidth
  obtain ⟨second, ⟨hsecond, -⟩, rfl⟩ := (readsOne_comma _ _ _).mp readSecond
  obtain ⟨name, ⟨hname, rfl⟩, rfl⟩ := (readsOne_name _ _ _).mp readName
  have htrailing : c₅.stray = c.stray ∧
      (c₅.rest = [] ∨ ∃ last, last.IsComma ∧ c₅.rest = [last]) := by
    rcases mark?_comma_eq_ok readLast with rfl | ⟨last, hlast, rfl⟩
    · exact ⟨rfl, .inl hrest⟩
    · exact ⟨rfl, .inr ⟨last, hlast, congrArg (last :: ·) hrest⟩⟩
  obtain ⟨hkept, htrailing⟩ := htrailing
  obtain ⟨t, readType, hk⟩ := kindBy_eq_ok_iff.mp readKind
  obtain ⟨type, rest, rfl, hwrites, hc⟩ :=
    TokenTree.writes_of_typeOf arguments readType rfl hk (hkept.trans hstray)
  exact .intro ⟨t, hwrites, hk⟩ (congrArg Cursor.rest hc).symm hfirst hwidth hsecond hname htrailing

theorem ofStream_of_declares (h : Declares arguments d) (stop : Span) :
    ofStream arguments stop = .ok d := by
  obtain @⟨k, w, n, type, rest, first, width, second, name, trailing, ⟨t, hwrites, hk⟩, hrest,
    hfirst, hwidth, hsecond, hname, htrailing⟩ := h
  have hends : Ends (TokenTree.flat rest) := by
    rw [hrest]
    exact ends_of_isComma hfirst (width :: second :: name :: trailing)
  have readType := TokenTree.typeAt_of_writes hwrites hk hends stop none
  have readKind := kindBy_eq_ok_iff.mpr ⟨t, readType, hk⟩
  refine runAll_eq_ok_iff.mpr ⟨⟨[], stop, none⟩, ?_, rfl, rfl⟩
  rw [declarationBy, TokenTree.typeOf, TokenTree.flat, bind_of_ok readKind, hrest,
    readsOne_comma.bind ⟨hfirst, rfl⟩, (readsOne_width k).bind hwidth,
    readsOne_comma.bind ⟨hsecond, rfl⟩, readsOne_name.bind (a := (n, name.span)) ⟨hname, rfl⟩]
  rcases htrailing with rfl | ⟨last, hlast, rfl⟩
  · rfl
  · have hnext : startsMark "," [last] = true := by
      obtain ⟨joint, s, rfl⟩ := hlast
      cases joint <;> rfl
    have readLast :
        mark? "," ⟨[last], stop, none⟩ = .ok (joined [','] [last], ⟨[], stop, none⟩) := by
      rw [mark?, markNext, ite_ahead_pos hnext]
      exact readsOne_comma.read ⟨hlast, rfl⟩
    exact bind_of_ok readLast

/-- The arguments that declare a sub-field, and what they declare. -/
theorem ofStream_eq_ok_iff : ofStream arguments stop = .ok d ↔ Declares arguments d :=
  ⟨declares_of_ofStream, fun h => ofStream_of_declares h stop⟩

/-! ## Errors -/

instance {type : Parser SourceType} [Harmless type] : Harmless (kindBy type) := by
  unfold kindBy
  refine .bind inferInstance fun t => ?_
  cases Kind.ofSource? t with
  | some k => infer_instance
  | none => exact ⟨fun c hc => rfl⟩

instance (k : Kind) : Harmless (widthParser k) where
  goesOn c hc := by
    cases hread : widthParser k c with
    | error e => exact SyntaxError.Cause.stops_eq_false_of_ne (widthParser_error hread)
    | ok q =>
      obtain ⟨t, -, rfl⟩ := (readsOne_width k _ _ _).mp hread
      exact hc

theorem exists_literal_of_nextText? {text : String} (h : nextText? ts = some (text, s)) :
    ∃ spelling rest, ts = .literal spelling s :: rest ∧ Literal.text? spelling = some text := by
  cases ts with
  | nil => cases h
  | cons t rest =>
    cases t with
    | literal spelling place =>
      obtain ⟨content, hcontent, hsame⟩ := Option.map_eq_some_iff.mp h
      cases hsame
      exact ⟨spelling, rest, rfl, hcontent⟩
    | ident | punct | group => cases h

theorem stops_of_nameOfText {text : String} {cause : SyntaxError.Cause}
    (h : nameOfText text = .error cause)
    (hplain : ∀ n place, lex text = some [.ident n place] → n.raw = false) :
    cause.stops = false := by
  unfold nameOfText at h
  split at h
  · next n place hlex =>
    rw [hplain n place hlex] at h
    split at h
    · cases h
      rfl
    · cases h
  · cases h
    rfl

/-- A name stops the reading only if it is a marked one in a string literal. -/
theorem goesOn_name (hc : c.Harmless)
    (hplain : ∀ spelling s rest n, c.rest = .literal spelling s :: rest → HoldsName spelling n →
      n.raw = false) : GoesOn (nameParser c) := by
  rw [nameParser]
  split
  · next text s hnext =>
    obtain ⟨spelling, rest, hrest, htext⟩ := exists_literal_of_nextText? hnext
    split
    · exact hc
    · next cause herror =>
      refine stops_of_nameOfText herror fun n place hlex =>
        hplain spelling s rest n hrest ⟨place, ?_⟩
      rw [htext]
      exact hlex
  · exact Harmless.goesOn c hc

theorem goesOn_declaration (hname : ¬ NamedByMarkedText arguments) (stop : Span) :
    GoesOn (declarationBy (kindBy (TokenTree.typeOf arguments))
      ⟨TokenTree.flat arguments, stop, none⟩) := by
  have hstart : Cursor.Harmless ⟨TokenTree.flat arguments, stop, none⟩ := fun e he => by cases he
  have htype := TokenTree.harmless_typeOf arguments
  refine goesOn_bind (Harmless.goesOn _ hstart) fun k c₁ readKind h₁ => ?_
  refine goesOn_bind (Harmless.goesOn c₁ h₁) fun ts₁ c₂ readFirst h₂ => ?_
  refine goesOn_bind (Harmless.goesOn c₂ h₂) fun w c₃ readWidth h₃ => ?_
  refine goesOn_bind (Harmless.goesOn c₃ h₃) fun ts₂ c₄ readSecond h₄ => ?_
  refine goesOn_bind (goesOn_name h₄ ?_) fun p c₅ readName h₅ => ?_
  · intro spelling s more n hmore hholds
    obtain ⟨t, readType, hk⟩ := kindBy_eq_ok_iff.mp readKind
    obtain ⟨type, rest, harguments, hrest⟩ := TokenTree.exists_tree_of_typeOf readType rfl hk
    obtain ⟨first, ⟨hfirst, -⟩, rfl⟩ := (readsOne_comma _ _ _).mp readFirst
    obtain ⟨width, -, rfl⟩ := (readsOne_width k _ _ _).mp readWidth
    obtain ⟨second, ⟨hsecond, -⟩, rfl⟩ := (readsOne_comma _ _ _).mp readSecond
    by_contra hraw
    refine hname ⟨type, rest, first, width, second, spelling, s, more, n, harguments, ?_, hfirst,
      hsecond, hholds, Bool.eq_true_of_not_eq_false hraw⟩
    rw [← hmore]
    exact hrest.symm
  · exact goesOn_bind (Harmless.goesOn c₅ h₅) fun ts₃ c₆ readLast h₆ => h₆

/-- Apart from a marked name in a string literal, nothing stops the reading. -/
theorem stops_of_ofStream (hname : ¬ NamedByMarkedText arguments)
    (h : ofStream arguments stop = .error e) : e.cause.stops = false := by
  have hgoes := goesOn_declaration hname stop
  rw [ofStream, runAll] at h
  cases hread : declarationBy (kindBy (TokenTree.typeOf arguments))
      ⟨TokenTree.flat arguments, stop, none⟩ with
  | error e' =>
    rw [hread] at h hgoes
    cases h
    exact hgoes
  | ok q =>
    obtain ⟨d, c⟩ := q
    rw [hread] at h hgoes
    dsimp only at h
    cases hleft : (c.stray <|> leftover? none c.rest) with
    | none =>
      rw [hleft] at h
      cases h
    | some e' =>
      rw [hleft] at h
      cases h
      exact stops_of_stray hgoes hleft

end SubField

namespace HelperAttributes

/-- What is wrong with a declaration is reported, if it does not stop the reading. -/
theorem add_of_error (h : HelperAttributes) {a : Attribute} {e : SyntaxError}
    (ha : a.isBitField = true) (he : a.subField = .error e) (hstops : e.cause.stops = false) :
    h.add a = .ok { h with errors := h.errors ++ [e] } := by
  rw [add, if_pos ha, he]
  split
  · next hok => cases hok
  · next hmarked =>
    cases hmarked
    cases hstops
  · next herror =>
    cases herror
    rfl

end HelperAttributes

namespace SubField

/-- A stream declares a sub-field just in case it is a type, a width and a name, with commas between
them and maybe one after them; and what it declares is what they say. Whatever else it is, there is
an error, which does not stop the reading unless the name is a marked one in a string literal. An
attribute in source text declares what its arguments do, and its error is reported. -/
theorem ofStream_eq_ok_iff_declares (arguments : List TokenTree) (stop : Span) :
    (∀ d, ofStream arguments stop = .ok d ↔ Declares arguments d) ∧
    (¬ NamedByMarkedText arguments → (∀ d, ¬ Declares arguments d) →
      ∃ err, ofStream arguments stop = .error err ∧ err.cause.stops = false) ∧
    ∀ (a : Attribute) (delimiter : Delimiter) (written : List Token) (o : Span),
      a.input = .list delimiter written o stop → arguments = TokenTree.ofTokens written →
        a.subField = ofStream arguments stop ∧
        ∀ err, a.subField = .error err → err.cause.stops = false →
          ∀ h : HelperAttributes, a.isBitField = true →
            h.add a = .ok { h with errors := h.errors ++ [err] } := by
  refine ⟨fun d => ofStream_eq_ok_iff, fun hname hnone => ?_, ?_⟩
  · cases hread : ofStream arguments stop with
    | ok d => exact absurd (declares_of_ofStream hread) (hnone d)
    | error err => exact ⟨err, rfl, stops_of_ofStream hname hread⟩
  · rintro a delimiter written o ha rfl
    refine ⟨?_, fun err herror hstops h hbit => h.add_of_error hbit herror hstops⟩
    rw [Attribute.subField, ha]
    rfl

end SubField

namespace Sample

/-- Four bits that are called `low`, with all that can be added to such a declaration. -/
def fourBits : Attribute :=
  (declaration (Code.word "low")).withArguments .nowhere .nowhere
    [Code.word "u8", Code.sign ',', Code.literal "0b01_00u8", Code.sign ',', Code.string "low",
      Code.sign ',']

/-- No bits that are called `low`. -/
def noBits : Attribute :=
  (declaration (Code.word "low")).withArguments .nowhere .nowhere
    [Code.word "u8", Code.sign ',', Code.number 0, Code.sign ',', Code.word "low"]

/-- Bits that are called `low`, of a type that was handed on by a macro. -/
def handedOn (type : String) (width : Nat) : List TokenTree :=
  .unseen [.ident ⟨type, false⟩ .nowhere] .nowhere ::
    TokenTree.ofTokens [Code.sign ',', Code.number width, Code.sign ',', Code.word "low"]

end Sample

namespace SubField

open Sample in
/-- Four bits can be declared, and no bits cannot. The type of an integer can be one that was handed
on, and that of a truth value cannot. -/
theorem ofStream_eq_ok_iff_declares_handedOn :
    fourBits.subField = .ok ⟨.int ⟨false, .w8⟩, 4, ⟨"low", false⟩, .nowhere⟩ ∧
    (∃ err, noBits.subField = .error err ∧ noBits.isBitField = true ∧
      ∀ h : HelperAttributes, h.add noBits = .ok { h with errors := h.errors ++ [err] }) ∧
    ofStream (handedOn "u8" 4) .nowhere =
      .ok ⟨.int ⟨false, .w8⟩, 4, ⟨"low", false⟩, .nowhere⟩ ∧
    ∃ err, ofStream (handedOn "bool" 1) .nowhere = .error err ∧ err.cause.stops = false := by
  have hcomma : (Code.sign ',').IsComma := ⟨false, .nowhere, rfl⟩
  have hu8 : Kind.ofSource? (.name ⟨"u8", false⟩ .nowhere) = some (.int ⟨false, .w8⟩) := by decide
  have hfour : ∀ spelling, Literal.whole? spelling = some 4 →
      IsWidth (.int ⟨false, .w8⟩) 4 (.literal spelling .nowhere) :=
    fun _ h => ⟨Literal.whole?_eq_some_iff.mp h, by decide, by decide⟩
  refine ⟨?_, ?_, ?_, ?_⟩
  · have htext : Literal.text? (Text.quote "low") = some "low" := by decide +kernel
    have hlow : nameOfText "low" = .ok ⟨"low", false⟩ := by decide +kernel
    obtain ⟨⟨place, hlex⟩, hkeyword, hraw⟩ := nameOfText_eq_ok_iff.mp hlow
    have hholds : HoldsName (Text.quote "low") ⟨"low", false⟩ := by
      refine ⟨place, ?_⟩
      rw [htext]
      exact hlex
    have hname : IsName ⟨"low", false⟩ (Code.string "low") := ⟨hholds, hkeyword, hraw⟩
    have hdeclares := Declares.intro ⟨_, .name _ _, hu8⟩ (TokenTree.flat_ofTokens _) hcomma
      (hfour "0b01_00u8" (by decide +kernel)) hcomma hname (.inr ⟨Code.sign ',', hcomma, rfl⟩)
    obtain ⟨hiff, -, hwritten⟩ := ofStream_eq_ok_iff_declares _ .nowhere
    obtain ⟨hsame, -⟩ := hwritten fourBits _ _ _ rfl rfl
    rw [hsame]
    exact (hiff _).mpr hdeclares
  · obtain ⟨hiff, hrejected, hwritten⟩ := ofStream_eq_ok_iff_declares (TokenTree.ofTokens
      [Code.word "u8", Code.sign ',', Code.number 0, Code.sign ',', Code.word "low"]) .nowhere
    obtain ⟨hsame, hreported⟩ := hwritten noBits _ _ _ rfl rfl
    have hplain : ¬ NamedByMarkedText (TokenTree.ofTokens
        [Code.word "u8", Code.sign ',', Code.number 0, Code.sign ',', Code.word "low"]) := by
      rintro ⟨type, rest, first, width, second, spelling, s, more, n, harguments, hrest, -⟩
      cases harguments
      cases hrest
    have hnothing : noBits.subField.toOption = none := by decide +kernel
    obtain ⟨err, herror, hstops⟩ := hrejected hplain fun d hd => by
      rw [hsame, (hiff d).mpr hd] at hnothing
      cases hnothing
    rw [← hsame] at herror
    exact ⟨err, herror, rfl, fun h => hreported err herror hstops h rfl⟩
  · have hname : IsName ⟨"low", false⟩ (Code.word "low") := ⟨rfl, rfl⟩
    have hdeclares : Declares (handedOn "u8" 4) ⟨.int ⟨false, .w8⟩, 4, ⟨"low", false⟩, .nowhere⟩ :=
      .intro ⟨_, .unseen (.name _ _) rfl, hu8⟩ (TokenTree.flat_ofTokens _) hcomma
        (hfour _ (by decide +kernel)) hcomma hname (.inl rfl)
    exact ((ofStream_eq_ok_iff_declares _ .nowhere).1 _).mpr hdeclares
  · have hplain : ¬ NamedByMarkedText (handedOn "bool" 1) := by
      rintro ⟨type, rest, first, width, second, spelling, s, more, n, harguments, hrest, -⟩
      cases harguments
      cases hrest
    have hnothing : (ofStream (handedOn "bool" 1) .nowhere).toOption = none := by decide +kernel
    obtain ⟨hiff, hrejected, -⟩ := ofStream_eq_ok_iff_declares (handedOn "bool" 1) .nowhere
    refine hrejected hplain fun d hd => ?_
    rw [(hiff d).mpr hd] at hnothing
    cases hnothing

end SubField

end PackedFields

import PackedFields.Proofs.Independence
import PackedFields.Proofs.ValueTypes

/-!
# Names as identifiers and as texts

The name of a sub-field can be given as an identifier or as a string literal that holds one. Both
say the same, keywords included, which are refused either way. Only a marked name in a string
literal is beyond what can be read.
-/

namespace PackedFields

open PackedFields.Parser

/-- The token is a comma. -/
def Token.IsComma (t : Token) : Prop := ∃ joint s, t = .punct ',' joint s

namespace SubField

/-- The kind of values that tokens say as the type of a sub-field. -/
def kindOf? (type : List Token) : Option Kind := (kindParser.runAll type .nowhere).toOption

/-- The number of bits that tokens say as the width of a sub-field of the kind `k`. -/
def widthOf? (k : Kind) (width : List Token) : Option Nat :=
  ((widthParser k).runAll width .nowhere).toOption

/-- What a declaration has before the name: a type of the kind `k`, and a width that is right or
wrong, each with a comma after it. -/
inductive Opens (k : Kind) (width : List Token) : List Token → Prop
  | intro {type : List Token} {first second : Token} (htype : kindOf? type = some k)
      (hfirst : first.IsComma) (hwidth : ∀ t ∈ width, ¬ t.IsComma) (hsecond : second.IsComma) :
      Opens k width (type ++ first :: (width ++ [second]))

variable {k : Kind} {w : Nat} {c c' : Cursor} {t name : Token} {rest width before : List Token}
  {stop s : Span} {stray : Option SyntaxError} {n : Name} {e : SyntaxError}

/-- What a declaration says, wherever its name stands. -/
def said (d : SubField) : Kind × Nat × Name := (d.kind, d.width, d.name)

/-! ## The parts of a declaration -/

theorem ends_of_isComma (h : t.IsComma) (rest : List Token) : Ends (t :: rest) := by
  obtain ⟨joint, s, rfl⟩ := h
  exact .comma joint s rest

theorem mark_comma (h : t.IsComma) (rest : List Token) (stop : Span) (stray : Option SyntaxError) :
    ∃ ts, mark "," ⟨t :: rest, stop, stray⟩ = .ok (ts, ⟨rest, stop, stray⟩) := by
  obtain ⟨joint, s, rfl⟩ := h
  cases joint <;> exact ⟨_, rfl⟩

theorem mark_not_comma (h : ¬ t.IsComma) :
    mark "," ⟨t :: rest, stop, stray⟩ = .error ⟨.missing ",", t.front⟩ := by
  cases t with
  | punct d joint s =>
    have hd : ¬ ',' = d := fun hd => h ⟨joint, s, by rw [hd]⟩
    have hdrop : dropMark ",".toList (.punct d joint s :: rest) = none := by
      cases joint <;> exact if_neg hd
    rw [mark, hdrop]
    rfl
  | ident | literal | group => rfl

/-- A width is a single token, and is read alike whatever follows it. -/
theorem widthParser_cases (h : widthParser k c = .ok (w, c')) :
    ∃ t, c = { c' with rest := t :: c'.rest } ∧
      ∀ rest stop stray, widthParser k ⟨t :: rest, stop, stray⟩ = .ok (w, ⟨rest, stop, stray⟩) := by
  obtain ⟨rest, stop, stray⟩ := c
  unfold widthParser at h
  dsimp only at h
  split at h
  · next s rest' =>
    split at h
    · next hk =>
      cases h
      refine ⟨_, rfl, fun rest stop stray => ?_⟩
      exact if_pos hk
    · cases h
  · next spelling s rest' =>
    split at h
    · next n hn =>
      cases hcheck : checkWidth n s with
      | error e =>
        rw [hcheck] at h
        cases h
      | ok v =>
        rw [hcheck] at h
        cases h
        refine ⟨_, rfl, fun rest stop stray => ?_⟩
        unfold widthParser
        dsimp only
        rw [hn]
        dsimp only
        rw [hcheck]
        rfl
    · cases h
  · split at h
    · cases h
    · cases h
  · cases h

theorem checkWidth_error {value : Nat} (h : checkWidth value s = .error e) (n : Name) :
    e.cause ≠ .markedNameText n := by
  rw [checkWidth] at h
  split at h
  · cases h
    exact nofun
  · split at h
    · cases h
      exact nofun
    · cases h

/-- An error in the width can be told, and stops nothing. -/
theorem widthParser_error (h : widthParser k c = .error e) (n : Name) :
    e.cause ≠ .markedNameText n := by
  unfold widthParser at h
  split at h
  · split at h
    · cases h
    · cases h
      exact nofun
  · split at h
    · next n' hn =>
      cases hcheck : checkWidth n' _ with
      | ok v =>
        rw [hcheck] at h
        cases h
      | error e' =>
        rw [hcheck] at h
        cases h
        exact checkWidth_error hcheck n
    · cases h
      exact nofun
  · split at h
    · cases h
      exact nofun
    · cases h
      exact nofun
  · cases h
    exact nofun

theorem eq_ok_of_toOption {α : Type} {x : Except SyntaxError α} {a : α} (h : x.toOption = some a) :
    x = .ok a := by
  cases x with
  | error e => cases h
  | ok b =>
    cases h
    rfl

theorem kindParser_of_kindOf? {type : List Token} (h : kindOf? type = some k) (hrest : Ends rest)
    (stop : Span) (stray : Option SyntaxError) :
    kindParser ⟨type ++ rest, stop, stray⟩ = .ok (k, ⟨rest, stop, stray⟩) := by
  obtain ⟨t, ht, hk, rfl⟩ := kindParser_runAll_iff.mp (eq_ok_of_toOption h)
  exact kindParser_simple ht hk hrest

theorem exists_token_of_widthOf? (h : widthOf? k width = some w) :
    ∃ t, width = [t] ∧
      ∀ rest stop stray, widthParser k ⟨t :: rest, stop, stray⟩ = .ok (w, ⟨rest, stop, stray⟩) := by
  obtain ⟨c, hread, hrest, -⟩ := runAll_eq_ok_iff.mp (eq_ok_of_toOption h)
  obtain ⟨t, hc, ht⟩ := widthParser_cases hread
  refine ⟨t, ?_, ht⟩
  rw [← hrest]
  exact congrArg Cursor.rest hc

/-- Whatever is no width makes an error, at the width itself or before the comma. -/
theorem width_error {β : Type} {f : Nat → List Token → Parser β} (hwidth : ∀ t ∈ width, ¬ t.IsComma)
    (ht : t.IsComma) (h : widthOf? k width = none) :
    ∃ e, (widthParser k >>= fun w => mark "," >>= f w) ⟨width ++ t :: rest, stop, stray⟩ = .error e ∧
      ∀ n, e.cause ≠ .markedNameText n := by
  cases hread : widthParser k ⟨width ++ t :: rest, stop, stray⟩ with
  | error e => exact ⟨e, bind_of_error hread, widthParser_error hread⟩
  | ok p =>
    obtain ⟨w, c'⟩ := p
    obtain ⟨u, hc, hu⟩ := widthParser_cases hread
    rw [bind_of_ok hread]
    obtain ⟨rest', stop', stray'⟩ := c'
    cases width with
    | nil =>
      obtain ⟨joint, s, rfl⟩ := ht
      cases hread
    | cons v vs =>
      cases hc
      cases vs with
      | nil =>
        have hwhole : widthOf? k [u] = some w := by
          rw [widthOf?, runAll_eq_ok_iff.mpr ⟨_, hu [] .nowhere none, rfl, rfl⟩]
          rfl
        rw [hwhole] at h
        cases h
      | cons v' vs =>
        have hv' : ¬ v'.IsComma := hwidth v' (by simp)
        exact ⟨_, bind_of_error (mark_not_comma hv'), nofun⟩

/-! ## Declarations -/

/-- After a type and a width, the rest goes by the name. -/
theorem parser_of_opens (h : Opens k width before) (hw : widthOf? k width = some w) :
    parser ⟨before ++ [name], stop, none⟩ =
      (do
        let p ← nameParser
        let _ ← mark? ","
        return ⟨k, w, p.1, p.2⟩ : Parser SubField) ⟨[name], stop, none⟩ := by
  obtain @⟨type, first, second, htype, hfirst, -, hsecond⟩ := h
  obtain ⟨t, rfl, ht⟩ := exists_token_of_widthOf? hw
  obtain ⟨ts, hmark⟩ := mark_comma hfirst [t, second, name] stop none
  obtain ⟨us, hmark'⟩ := mark_comma hsecond [name] stop none
  have hkind := kindParser_of_kindOf? htype (ends_of_isComma hfirst [t, second, name]) stop none
  rw [List.append_assoc, parser]
  show (kindParser >>= _) ⟨type ++ first :: [t, second, name], stop, none⟩ = _
  rw [bind_of_ok hkind, bind_of_ok hmark, bind_of_ok (ht _ _ _), bind_of_ok hmark']

theorem ofArguments_of_name (h : Opens k width before) (hw : widthOf? k width = some w)
    (hname : nameParser ⟨[name], stop, none⟩ = .ok ((n, s), ⟨[], stop, none⟩)) :
    ofArguments (before ++ [name]) stop = .ok ⟨k, w, n, s⟩ := by
  rw [ofArguments_eq_runAll]
  refine runAll_eq_ok_iff.mpr ⟨⟨[], stop, none⟩, ?_, rfl, rfl⟩
  rw [parser_of_opens h hw, bind_of_ok hname]
  rfl

theorem ofArguments_of_name_error (h : Opens k width before) (hw : widthOf? k width = some w)
    (hname : nameParser ⟨[name], stop, none⟩ = .error e) :
    ofArguments (before ++ [name]) stop = .error e := by
  rw [ofArguments_eq_runAll, runAll, parser_of_opens h hw, bind_of_error hname]

theorem ofArguments_of_width_error (h : Opens k width before) (hw : widthOf? k width = none)
    (name : Token) (stop : Span) :
    ∃ e, ofArguments (before ++ [name]) stop = .error e ∧ ∀ n, e.cause ≠ .markedNameText n := by
  obtain @⟨type, first, second, htype, hfirst, hwidth, hsecond⟩ := h
  have hkind := kindParser_of_kindOf? htype
    (ends_of_isComma hfirst (width ++ second :: [name])) stop none
  obtain ⟨ts, hmark⟩ := mark_comma hfirst (width ++ second :: [name]) stop none
  have harguments : type ++ first :: (width ++ [second]) ++ [name] =
      type ++ first :: (width ++ second :: [name]) := by simp
  rw [harguments, ofArguments_eq_runAll, runAll, parser, declarationBy, bind_of_ok hkind,
    bind_of_ok hmark]
  obtain ⟨e, he, hcause⟩ := width_error hwidth hsecond hw
  refine ⟨e, ?_, hcause⟩
  rw [he]

/-! ## The two forms of a name -/

theorem nameParser_ident (n : Name) (s stop : Span) :
    nameParser ⟨[.ident n s], stop, none⟩ =
      if n.isKeyword then .error ⟨.keyword n, s⟩ else .ok ((n, s), ⟨[], stop, none⟩) :=
  rfl

theorem exists_ident_of_nameOfText {text : String}
    (h : nameOfText text = .ok n ∨ nameOfText text = .error (.markedNameText n)) :
    ∃ place, lex text = some [.ident n place] := by
  unfold nameOfText at h
  split at h
  · next n' place hlex =>
    split at h
    · simp at h
    · split at h
      · simp only [reduceCtorEq, false_or, Except.error.injEq,
          SyntaxError.Cause.markedNameText.injEq] at h
        exact ⟨place, h ▸ hlex⟩
      · simp only [reduceCtorEq, or_false, Except.ok.injEq] at h
        exact ⟨place, h ▸ hlex⟩
  · simp at h

theorem nameParser_text {spelling : String} {place : Span}
    (h : (Literal.text? spelling).bind lex = some [.ident n place]) (s stop : Span) :
    nameParser ⟨[.literal spelling s], stop, none⟩ =
      if n.isKeyword then .error ⟨.nameText, s⟩
      else if n.raw then .error ⟨.markedNameText n, s⟩
      else .ok ((n, s), ⟨[], stop, none⟩) := by
  obtain ⟨text, htext, hlex⟩ := Option.bind_eq_some_iff.mp h
  have hnext : nextText? [.literal spelling s] = some (text, s) := by
    rw [nextText?, htext]
    rfl
  rw [nameParser, hnext]
  dsimp only
  rw [nameOfText, hlex]
  dsimp only
  by_cases hkeyword : n.isKeyword = true
  · rw [if_pos hkeyword, if_pos hkeyword]
  · rw [if_neg hkeyword, if_neg hkeyword]
    by_cases hraw : n.raw = true
    · rw [if_pos hraw, if_pos hraw]
    · rw [if_neg hraw, if_neg hraw]
      rfl

end SubField

namespace Attribute

variable {a : Attribute} {arguments : List Token} {o e s : Span} {d : SubField} {n : Name}

/-- The attribute with other arguments in parentheses. -/
def withArguments (a : Attribute) (o e : Span) (arguments : List Token) : Attribute :=
  { a with input := .list .paren arguments o e }

theorem stops_of_ok (h : SubField.ofArguments arguments e = .ok d) :
    (a.withArguments o e arguments).stops = false := by
  have hsub : (a.withArguments o e arguments).subField = .ok d := h
  rw [stops, hsub]
  exact Bool.and_false _

theorem stops_of_error {err : SyntaxError} (h : SubField.ofArguments arguments e = .error err)
    (hcause : ∀ n, err.cause ≠ .markedNameText n) :
    (a.withArguments o e arguments).stops = false := by
  have hsub : (a.withArguments o e arguments).subField = .error err := h
  rw [stops, hsub]
  obtain ⟨cause, place⟩ := err
  cases cause with
  | markedNameText n => exact absurd rfl (hcause n)
  | _ => exact Bool.and_false _

theorem stops_of_marked (ha : a.isBitField = true)
    (h : SubField.ofArguments arguments e = .error ⟨.markedNameText n, s⟩) :
    (a.withArguments o e arguments).stops = true := by
  have hsub : (a.withArguments o e arguments).subField = .error ⟨.markedNameText n, s⟩ := h
  have hbit : (a.withArguments o e arguments).isBitField = true := ha
  rw [stops, hbit, hsub]
  rfl

/-- Neither attribute stops the reading, and either both are wrong or both declare the same. -/
structure SameMeaning (a b : Attribute) : Prop where
  left : a.stops = false
  right : b.stops = false
  said : a.subField.toOption.map SubField.said = b.subField.toOption.map SubField.said

variable {arguments' : List Token} {d' : SubField} {err err' : SyntaxError}

theorem sameMeaning_of_ok (h : SubField.ofArguments arguments e = .ok d)
    (h' : SubField.ofArguments arguments' e = .ok d') (hsaid : d.said = d'.said) :
    SameMeaning (a.withArguments o e arguments) (a.withArguments o e arguments') := by
  refine ⟨stops_of_ok h, stops_of_ok h', ?_⟩
  show (SubField.ofArguments arguments e).toOption.map _ =
    (SubField.ofArguments arguments' e).toOption.map _
  rw [h, h']
  exact congrArg some hsaid

theorem sameMeaning_of_error (h : SubField.ofArguments arguments e = .error err)
    (hcause : ∀ n, err.cause ≠ .markedNameText n)
    (h' : SubField.ofArguments arguments' e = .error err')
    (hcause' : ∀ n, err'.cause ≠ .markedNameText n) :
    SameMeaning (a.withArguments o e arguments) (a.withArguments o e arguments') := by
  refine ⟨stops_of_error h hcause, stops_of_error h' hcause', ?_⟩
  show (SubField.ofArguments arguments e).toOption.map _ =
    (SubField.ofArguments arguments' e).toOption.map _
  rw [h, h']
  rfl

/-- A name that stands as an identifier and the same name in a string literal mean the same. That
fails for a marked name after a right width, and only there: the string literal then stops the
reading, while the identifier is taken like any other that is no keyword. -/
theorem name_forms_agree_iff {k : Kind} {width before : List Token}
    (h : SubField.Opens k width before) {n : Name} {spelling : String} {place : Span}
    (hname : (Literal.text? spelling).bind lex = some [.ident n place]) {a : Attribute}
    (ha : a.isBitField = true) (o e s s' : Span) :
    (SameMeaning (a.withArguments o e (before ++ [.ident n s]))
        (a.withArguments o e (before ++ [.literal spelling s'])) ↔
      ¬ (n.raw = true ∧ (SubField.widthOf? k width).isSome = true)) ∧
    ∀ w, SubField.widthOf? k width = some w → n.isKeyword = false →
      (a.withArguments o e (before ++ [.ident n s])).subField = .ok ⟨k, w, n, s⟩ := by
  have hident : ∀ w, SubField.widthOf? k width = some w → n.isKeyword = false →
      SubField.ofArguments (before ++ [.ident n s]) e = .ok ⟨k, w, n, s⟩ := by
    intro w hw hkeyword
    refine SubField.ofArguments_of_name h hw ?_
    rw [SubField.nameParser_ident, hkeyword]
    rfl
  refine ⟨?_, hident⟩
  cases hw : SubField.widthOf? k width with
  | none =>
    -- a wrong width is an error in both forms
    obtain ⟨err, hbad, hcause⟩ := SubField.ofArguments_of_width_error h hw (.ident n s) e
    obtain ⟨err', hbad', hcause'⟩ :=
      SubField.ofArguments_of_width_error h hw (.literal spelling s') e
    refine iff_of_true (sameMeaning_of_error hbad hcause hbad' hcause') ?_
    rintro ⟨-, hsome⟩
    cases hsome
  | some w =>
    have htext := SubField.nameParser_text hname s' e
    cases hkeyword : n.isKeyword with
    | true =>
      -- so is a keyword, which carries no mark
      have hraw : ¬ (n.raw = true ∧ (some w).isSome = true) := by
        rintro ⟨hraw, -⟩
        rw [Name.isKeyword, hraw] at hkeyword
        cases hkeyword
      rw [hkeyword, if_pos rfl] at htext
      have hbad : SubField.nameParser ⟨[.ident n s], e, none⟩ = .error ⟨.keyword n, s⟩ := by
        rw [SubField.nameParser_ident, hkeyword]
        rfl
      refine iff_of_true (sameMeaning_of_error (SubField.ofArguments_of_name_error h hw hbad) ?_
        (SubField.ofArguments_of_name_error h hw htext) ?_) hraw
      · intro m hm
        cases hm
      · intro m hm
        cases hm
    | false =>
      rw [hkeyword, if_neg Bool.false_ne_true] at htext
      cases hraw : n.raw with
      | true =>
        rw [hraw, if_pos rfl] at htext
        have hstops := stops_of_marked (o := o) ha (SubField.ofArguments_of_name_error h hw htext)
        refine iff_of_false (fun hsame => ?_) (not_not_intro ⟨rfl, rfl⟩)
        rw [hsame.right] at hstops
        cases hstops
      | false =>
        rw [hraw, if_neg Bool.false_ne_true] at htext
        have hok' := SubField.ofArguments_of_name h hw htext
        refine iff_of_true (sameMeaning_of_ok (hident w hw hkeyword) hok' rfl) ?_
        rintro ⟨hmarked, -⟩
        cases hmarked

open Sample in
/-- Four bits that are called `low`, either way. -/
theorem name_forms_agree_iff_low :
    SameMeaning (declaration (Code.word "low")) (declaration (Code.string "low")) ∧
      (declaration (Code.word "low")).subField =
        .ok ⟨.int ⟨false, .w8⟩, 4, ⟨"low", false⟩, .nowhere⟩ := by
  have hcomma : (Code.sign ',').IsComma := ⟨false, .nowhere, rfl⟩
  have hwidth : ∀ t ∈ [Code.number 4], ¬ t.IsComma := by
    rintro t ht ⟨joint, s, rfl⟩
    cases List.mem_singleton.mp ht
  have hopens : SubField.Opens (.int ⟨false, .w8⟩) [Code.number 4]
      ([Code.word "u8"] ++ Code.sign ',' :: ([Code.number 4] ++ [Code.sign ','])) :=
    .intro (by decide +kernel) hcomma hwidth hcomma
  have hfour : SubField.widthOf? (.int ⟨false, .w8⟩) [Code.number 4] = some 4 := by decide +kernel
  have htext : Literal.text? (Text.quote "low") = some "low" := by decide +kernel
  have hlow : SubField.nameOfText "low" = .ok ⟨"low", false⟩ ∨
      SubField.nameOfText "low" = .error (.markedNameText ⟨"low", false⟩) := by decide +kernel
  obtain ⟨place, hlex⟩ := SubField.exists_ident_of_nameOfText hlow
  have hname : (Literal.text? (Text.quote "low")).bind lex = some [.ident ⟨"low", false⟩ place] := by
    rw [htext]
    exact hlex
  obtain ⟨hsame, hok⟩ := name_forms_agree_iff hopens hname (a := declaration (Code.word "low")) rfl
    .nowhere .nowhere .nowhere .nowhere
  refine ⟨hsame.mpr ?_, hok 4 hfour rfl⟩
  rintro ⟨hmarked, -⟩
  cases hmarked

open Sample in
/-- The identifier `r#type` is taken for the name of a sub-field. The same text in a string literal
stops the reading. -/
theorem marked_name_differs_as_text :
    (∃ place, (Literal.text? (Text.quote "r#type")).bind lex = some [.ident ⟨"type", true⟩ place]) ∧
      (declaration (Code.name ⟨"type", true⟩)).subField.toOption.map SubField.said =
        some (.int ⟨false, .w8⟩, 4, ⟨"type", true⟩) ∧
      (declaration (Code.string "r#type")).stops = true := by
  have htext : Literal.text? (Text.quote "r#type") = some "r#type" := by decide +kernel
  have hmarked : SubField.nameOfText "r#type" = .ok ⟨"type", true⟩ ∨
      SubField.nameOfText "r#type" = .error (.markedNameText ⟨"type", true⟩) := by decide +kernel
  obtain ⟨place, hlex⟩ := SubField.exists_ident_of_nameOfText hmarked
  refine ⟨⟨place, ?_⟩, ?_, ?_⟩
  · rw [htext]
    exact hlex
  · decide +kernel
  · decide +kernel

end Attribute

end PackedFields

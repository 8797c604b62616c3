import PackedFields.Token.Lexer
import PackedFields.Proofs.SmallLetters
import PackedFields.Proofs.WholeNumbers

/-!
# Names as tokens

A text in the form of an identifier is a single token, the name without a mark that it spells
(`lex_of_isText`). No literal starts where it starts, since none of its characters is a quote, a
hash or, at the start, a digit; and no mark, comment, delimiter or blank does.
-/

namespace PackedFields

variable {c : Char} {cs : List Char} {text : String}

/-! ## Identifiers as tokens -/

namespace Literal

theorem hashedRaw_eq_none (h : ∀ d ∈ cs, Text.continuesName d = true) (f : Flavor) :
    hashedRaw f cs = none := by
  cases cs with
  | nil => rfl
  | cons d ds =>
    have hd : Text.continuesName d = true := h d (by simp)
    have hhash : d ≠ '#' := Text.ne_of_isForeign hd (by decide +kernel)
    have hquote : d ≠ '"' := Text.ne_of_isForeign hd (by decide +kernel)
    simp [hashedRaw, hhash, hquote]

theorem quotedAny?_eq_none (h : ∀ d ∈ cs, Text.continuesName d = true) : quotedAny? cs = none := by
  have hquote : '"' ∉ cs := by
    intro hmem
    exact Text.ne_of_isForeign (h _ hmem) (by decide +kernel) rfl
  have htick : '\x27' ∉ cs := by
    intro hmem
    exact Text.ne_of_isForeign (h _ hmem) (by decide +kernel) rfl
  unfold quotedAny?
  split
  all_goals simp_all [hashedRaw_eq_none]

theorem afterNumber?_eq_none (hc : Text.opensName c = true) (cs : List Char) :
    afterNumber? (c :: cs) = none := by
  have hdigit : isDigit c = false := by
    rw [Bool.eq_false_iff]
    intro h
    rw [opensName_eq_false (toNat_lt_of_isDigit h)] at hc
    cases hc
  have hzero : c ≠ '0' := by
    rintro rfl
    cases hdigit
  have hfloat : afterFloatDigits (c :: cs) = none := by simp [afterFloatDigits, hdigit]
  have hbase : base (c :: cs) = (10, c :: cs) := by simp [base, hzero]
  have hwhole : afterIntDigits 10 false (c :: cs) = none := by
    cases hd : hexDigit? c with
    | none => simp [afterIntDigits, hdigit, hd]
    | some d =>
      rcases hexDigit?_cases hd with ⟨hnine, -⟩ | ⟨-, hge, -⟩
      · rw [hdigit] at hnine
        cases hnine
      · have hlt : ¬ d < 10 := by omega
        simp [afterIntDigits, hdigit, hd, hlt]
  simp [afterNumber?, hfloat, hbase, hwhole]

end Literal

namespace Piece

variable (hc : Text.opensName c = true) (hcs : ∀ d ∈ cs, Text.continuesName d = true)

include hc

theorem ne_of_opensName {d : Char} (hd : Text.isForeign d = true) : c ≠ d :=
  Text.ne_of_isForeign (Text.continuesName_of_opensName hc) hd

theorem markHere_eq_false (cs : List Char) : markHere (c :: cs) = false := by
  have hmarks : marks.all Text.isForeign = true := by decide +kernel
  have hslash : c ≠ '/' := ne_of_opensName hc (by decide +kernel)
  have hmark : c ∉ marks := by
    intro hmem
    exact ne_of_opensName hc (List.all_eq_true.mp hmarks c hmem) rfl
  simp [markHere, hslash, hmark]

include hcs

theorem forall_continuesName : ∀ d ∈ c :: cs, Text.continuesName d = true := by
  intro d hd
  rcases List.mem_cons.mp hd with rfl | hd
  · exact Text.continuesName_of_opensName hc
  · exact hcs d hd

theorem isPrefixOf_eq_false {q : List Char} (hq : q.any Text.isForeign = true) :
    q.isPrefixOf (c :: cs) = false := by
  rw [Bool.eq_false_iff]
  intro hprefix
  obtain ⟨m, hm, hforeign⟩ := List.any_eq_true.mp hq
  have hmem := (List.isPrefixOf_iff_prefix.mp hprefix).subset hm
  exact Text.ne_of_isForeign (forall_continuesName hc hcs m hmem) hforeign rfl

theorem quoteOpening_eq_false :
    quoteOpenings.any (·.toList.isPrefixOf (c :: cs)) = false := by
  have hopenings : quoteOpenings.all (·.toList.any Text.isForeign) = true := by decide +kernel
  rw [List.any_eq_false]
  intro q hq
  simp [isPrefixOf_eq_false hc hcs (List.all_eq_true.mp hopenings q hq)]

theorem name?_eq : name? (c :: cs) = some (⟨String.ofList (c :: cs), false⟩, []) := by
  have hunmarked : ∀ rest, c :: cs ≠ 'r' :: '#' :: rest := by
    rintro rest hmarked
    have hmem : '#' ∈ c :: cs := by simp [hmarked]
    exact Text.ne_of_isForeign (forall_continuesName hc hcs _ hmem) (by decide +kernel) rfl
  have htoken : (⟨String.ofList (c :: cs), false⟩ : Name).isToken = true := by
    simp only [Name.isToken, Name.isText, String.toList_ofList]
    simpa [hc] using hcs
  have htake : cs.takeWhile Text.continuesName = cs := List.takeWhile_eq_self_iff.mpr hcs
  have hdrop : cs.dropWhile Text.continuesName = [] := List.dropWhile_eq_nil_iff.mpr hcs
  unfold name?
  split
  next isRaw body hbody =>
  split at hbody
  · next rest hmarked => exact absurd hmarked (hunmarked rest)
  · cases hbody
    simp only [hc, htake, hdrop, htoken, if_true]

theorem leaf?_eq : leaf? (c :: cs) = some (.name ⟨String.ofList (c :: cs), false⟩, []) := by
  have hquoted := Literal.quotedAny?_eq_none (forall_continuesName hc hcs)
  have hliteral : Literal.after? (c :: cs) = none := by
    simp [Literal.after?, hquoted, Literal.afterNumber?_eq_none hc]
  simp [leaf?, hliteral, markHere_eq_false hc, quoteOpening_eq_false hc hcs, name?_eq hc hcs]

theorem read?_eq : read? (c :: cs) = some (.name ⟨String.ofList (c :: cs), false⟩, []) := by
  have hblank : isBlank c = false := by
    rcases Text.opensName_iff.mp hc with rfl | hcovers
    · decide +kernel
    · exact Text.covers_eq_false_of_apart (by decide +kernel) hcovers
  have hdelimiters : ∀ d ∈ Delimiter.all,
      Text.isForeign d.opening = true ∧ Text.isForeign d.closing = true := by decide +kernel
  have hopening : Delimiter.all.find? (·.opening = c) = none := by
    rw [List.find?_eq_none]
    intro d hd heq
    exact ne_of_opensName hc (hdelimiters d hd).1 (of_decide_eq_true heq).symm
  have hclosing : Delimiter.all.find? (·.closing = c) = none := by
    rw [List.find?_eq_none]
    intro d hd heq
    exact ne_of_opensName hc (hdelimiters d hd).2 (of_decide_eq_true heq).symm
  have hslash : c ≠ '/' := ne_of_opensName hc (by decide +kernel)
  have hsenseless : senseless.isPrefixOf (c :: cs) = false :=
    isPrefixOf_eq_false hc hcs (by decide +kernel)
  simp [read?, hblank, hsenseless, hslash, hopening, hclosing, leaf?_eq hc hcs]

end Piece

theorem Name.isText_iff :
    isText text = true ↔
      ∃ c cs, text.toList = c :: cs ∧ Text.opensName c = true ∧
        ∀ d ∈ cs, Text.continuesName d = true := by
  rw [isText]
  cases text.toList with
  | nil => simp
  | cons c cs => simp

/-- A text in the form of an identifier is a single token. -/
theorem lex_of_isText (h : Name.isText text = true) :
    ∃ place, lex text = some [.ident ⟨text, false⟩ place] := by
  obtain ⟨c, cs, htext, hc, hcs⟩ := Name.isText_iff.mp h
  have hname : String.ofList (c :: cs) = text := by rw [← htext, String.ofList_toList]
  have hall : ∃ place, Lexeme.all? .origin (c :: cs) =
      some [.tokens [.ident ⟨text, false⟩ place]] := by
    rw [Lexeme.all?, Piece.read?_eq hc hcs]
    simp [Lexeme.all?, Lexeme.ofPiece, hname]
  obtain ⟨place, hall⟩ := hall
  refine ⟨place, ?_⟩
  have hmark : c ≠ '\uFEFF' := by
    rintro rfl
    exact absurd hc (by decide +kernel)
  have hlexemes : lex text = (Lexeme.all? .origin (c :: cs)).bind (Lexeme.nest [] []) := by
    rw [lex, htext]
    dsimp only
    split
    · next rest heq =>
      cases heq
      exact absurd rfl hmark
    · rfl
  rw [hlexemes, hall]
  rfl

end PackedFields

import PackedFields.Proofs.NameTokens
import PackedFields.Proofs.ParserLaws
import PackedFields.Proofs.ReservedWords

/-!
# Names of parameters

The name of a parameter is the text of another name with its first letter in lowercase. That may
be a keyword, which then carries a mark, or is lengthened if it can carry none. `Name.parameter?`
finds the name in the steps in which it is made, and fails where such a step would stop: a name
that no token can hold cannot be made. No step fails, and a name that is made is the name of its own
parameter.

Whether the name can be used is another matter: the list of keywords that the steps go by lacks a
word that is reserved, and where that word comes out it carries no mark
(`Name.parameter_usable_iff`).
-/

namespace PackedFields.Name

variable {n : Name} {text word : String} {d : Char} {ds : List Char}

/-- The name itself, if a token can hold it. The attempt to make any other name stops. -/
def made? (n : Name) : Option Name := if n.isToken then some n else none

/-- Whether a text is read as a name. -/
def isRead (text : String) : Bool :=
  ((lex text).bind fun ts => (Parser.name.runAll ts .nowhere).toOption).isSome

/-- The words that are lengthened, since they can carry no mark. -/
def lengthened : List String := ["self", "super", "crate", "_"]

/-- The name of the parameter for a sub-field called `n`, as it is made step by step. -/
def parameter? (n : Name) : Option Name :=
  let text := lowerFirst n.text
  if isRead text then made? ⟨text, false⟩
  else if lengthened.contains text then made? ⟨text ++ "_", false⟩
  else made? ⟨text, true⟩

/-- A name that a parameter can have: an identifier that is no reserved word, or a reserved word
with a mark that it may carry. -/
inductive Usable : Name → Prop
  | plain {text : String} (htext : isText text = true) (hword : text ∉ reserved) :
      Usable ⟨text, false⟩
  | marked {text : String} (hword : text ∈ reserved) (hmark : text ∉ unmarkable) :
      Usable ⟨text, true⟩

/-! ## The first letter -/

theorem lowerFirst_eq_self (htext : text.toList = d :: ds) (hd : Text.lowercase d = [d]) :
    lowerFirst text = text := by
  rw [lowerFirst, htext]
  dsimp only
  rw [hd, List.singleton_append, ← htext, String.ofList_toList]

/-- With its first letter in lowercase, an identifier is still one. -/
theorem exists_toList_lowerFirst (h : isText text = true) :
    ∃ d ds, (lowerFirst text).toList = d :: ds ∧ Text.opensName d = true ∧
      (∀ e ∈ ds, Text.continuesName e = true) ∧ Text.lowercase d = [d] := by
  obtain ⟨c, cs, htext, hc, hcs⟩ := isText_iff.mp h
  obtain ⟨d, ds, hlower, hd, hds, hself⟩ := Text.lowercase_of_opensName hc
  refine ⟨d, ds ++ cs, ?_, hd, ?_, hself⟩
  · rw [lowerFirst, htext]
    dsimp only
    rw [hlower, String.toList_ofList, List.cons_append]
  · intro e he
    rcases List.mem_append.mp he with he | he
    · exact hds e he
    · exact hcs e he

theorem isText_lowerFirst (h : isText text = true) : isText (lowerFirst text) = true := by
  obtain ⟨d, ds, htext, hd, hds, -⟩ := exists_toList_lowerFirst h
  exact isText_iff.mpr ⟨d, ds, htext, hd, hds⟩

theorem lowerFirst_lowerFirst (h : isText text = true) :
    lowerFirst (lowerFirst text) = lowerFirst text := by
  obtain ⟨d, ds, htext, -, -, hself⟩ := exists_toList_lowerFirst h
  exact lowerFirst_eq_self htext hself

theorem eq_iff_toList {c : Char} {cs : List Char} (htext : text.toList = c :: cs) :
    text = word ↔ c :: cs = word.toList := by rw [← htext, String.toList_inj]

/-- There are two names of which a word comes that is no keyword, but reserved. -/
theorem lowerFirst_eq_gen_iff (h : isText text = true) :
    lowerFirst text = "gen" ↔ text = "gen" ∨ text = "Gen" := by
  constructor
  · intro hlower
    obtain ⟨c, cs, htext, hc, -⟩ := isText_iff.mp h
    have hchars : Text.lowercase c ++ cs = ['g', 'e', 'n'] := by
      have hlist := congrArg String.toList hlower
      rwa [lowerFirst, htext, String.toList_ofList] at hlist
    rw [eq_iff_toList htext, eq_iff_toList htext]
    rcases Text.lowercase_cases c with rfl | ⟨r, hr, hhas, hform⟩ | hself
    · have hdot : Text.lowercase '\u0130' = ['i', '\u0307'] := by decide +kernel
      rw [hdot] at hchars
      exact absurd (List.cons.inj hchars).1 (by decide)
    · -- no run but that of the letters at hand has its forms where the small letter is
      have hruns : (Text.letterRuns.all fun r =>
          Text.apart r.forms (103, 103) || r.shift == 32) = true := by decide +kernel
      rw [hform, List.singleton_append, List.cons.injEq] at hchars
      obtain ⟨hsmall, rfl⟩ := hchars
      have hcode := Text.toNat_ofNat_form hr hhas hc
      rw [hsmall] at hcode
      have hplace : r.form c.toNat = 103 := hcode.symm
      have hrun := List.all_eq_true.mp hruns r hr
      rw [Bool.or_eq_true, beq_iff_eq] at hrun
      have hshift : r.shift = 32 := hrun.resolve_left fun hapart =>
        Text.not_mem_of_apart hapart (Text.LetterRun.form_mem hhas) (by simp [hplace])
      rw [Text.LetterRun.form, hshift] at hplace
      have hcapital : c = 'G' := by
        have hnat : c.toNat = 71 := by omega
        rw [← Char.ofNat_toNat c, hnat]
      exact .inr (by rw [hcapital]; rfl)
    · rw [hself] at hchars
      exact .inl hchars
  · rintro (rfl | rfl) <;> decide +kernel

/-! ## Words -/

theorem isText_of_mem_keywords (h : word ∈ keywords) : isText word = true := by
  have hall : keywords.all isText = true := by decide +kernel
  exact List.all_eq_true.mp hall word h

theorem mem_keywords_of_mem_unmarkable (h : word ∈ unmarkable) : word ∈ keywords := by
  have hall : unmarkable.all keywords.contains = true := by decide +kernel
  exact List.contains_iff_mem.mp (List.all_eq_true.mp hall word h)

/-- Of the words that can carry no mark, only the one in capitals is not lengthened; and that is
no text with its first letter in lowercase. -/
theorem mem_lengthened_iff (hself : lowerFirst text = text) :
    text ∈ lengthened ↔ text ∈ unmarkable := by
  have hcapital : text ≠ "Self" := by
    rintro rfl
    exact absurd hself (by decide +kernel)
  simp only [lengthened, unmarkable, List.mem_cons, List.not_mem_nil, or_false, hcapital, false_or]
  tauto

/-- A lengthened word is an identifier and not reserved, and its first letter stays as it is. -/
theorem lengthened_spec (h : word ∈ lengthened) :
    isText (word ++ "_") = true ∧ word ++ "_" ∉ reserved ∧
      lowerFirst (word ++ "_") = word ++ "_" := by
  have hall : (lengthened.all fun w =>
      isText (w ++ "_") && !reserved.contains (w ++ "_") && lowerFirst (w ++ "_") == w ++ "_") =
        true := by decide +kernel
  have hword := List.all_eq_true.mp hall word h
  simp only [Bool.and_eq_true, Bool.not_eq_true', beq_iff_eq, ← Bool.not_eq_true,
    List.contains_iff_mem] at hword
  exact ⟨hword.1.1, hword.1.2, hword.2⟩

/-! ## Parameters -/

/-- What is read as a name is what is no keyword. -/
theorem isRead_iff (h : isText text = true) : isRead text = true ↔ text ∉ keywords := by
  obtain ⟨place, hlex⟩ := lex_of_isText h
  rw [isRead, hlex, Option.bind_some]
  by_cases hword : text ∈ keywords
  · simp [Parser.runAll, Parser.name, isKeyword, hword, Except.toOption]
  · simp [Parser.runAll, Parser.name, isKeyword, hword, Except.toOption, Parser.leftover?]

theorem made?_of_plain (h : isText text = true) : made? ⟨text, false⟩ = some ⟨text, false⟩ := by
  simp [made?, isToken, h]

theorem made?_of_marked (h : word ∈ keywords) (hmark : word ∉ unmarkable) :
    made? ⟨word, true⟩ = some ⟨word, true⟩ := by
  simp [made?, isToken, isText_of_mem_keywords h, hmark]

/-- The three kinds of names that parameters have, and how they are made. -/
theorem parameter_cases (h : isText n.text = true) :
    (lowerFirst n.text ∉ keywords ∧ n.parameter = ⟨lowerFirst n.text, false⟩ ∧
      n.parameter? = made? ⟨lowerFirst n.text, false⟩) ∨
    (lowerFirst n.text ∈ lengthened ∧ n.parameter = ⟨lowerFirst n.text ++ "_", false⟩ ∧
      n.parameter? = made? ⟨lowerFirst n.text ++ "_", false⟩) ∨
    (lowerFirst n.text ∈ keywords ∧ lowerFirst n.text ∉ unmarkable ∧
      n.parameter = ⟨lowerFirst n.text, true⟩ ∧
      n.parameter? = made? ⟨lowerFirst n.text, true⟩) := by
  have hlengthened := mem_lengthened_iff (lowerFirst_lowerFirst h)
  have hread := isRead_iff (isText_lowerFirst h)
  rw [parameter, parameter?]
  generalize lowerFirst n.text = text at *
  by_cases hword : text ∈ keywords
  · right
    by_cases hmark : text ∈ unmarkable
    · left
      simp [hread, hword, hmark, hlengthened]
    · right
      simp [hread, hword, hmark, hlengthened]
  · left
    have hmark : text ∉ unmarkable := fun hmark => hword (mem_keywords_of_mem_unmarkable hmark)
    simp [hread, hword, hmark]

theorem parameter?_eq (h : isText n.text = true) : n.parameter? = some n.parameter := by
  rcases parameter_cases h with
    ⟨-, hname, hmade⟩ | ⟨hlong, hname, hmade⟩ | ⟨hword, hmark, hname, hmade⟩
  · rw [hmade, hname, made?_of_plain (isText_lowerFirst h)]
  · rw [hmade, hname, made?_of_plain (lengthened_spec hlong).1]
  · rw [hmade, hname, made?_of_marked hword hmark]

/-- The name of a parameter can be used, unless it is a reserved word that is no keyword. -/
theorem usable_parameter_iff (h : isText n.text = true) :
    n.parameter.Usable ↔ lowerFirst n.text ≠ "gen" := by
  rcases parameter_cases h with ⟨hword, hname, -⟩ | ⟨hlong, hname, -⟩ | ⟨hword, hmark, hname, -⟩
  · rw [hname]
    have hreserved : lowerFirst n.text ∉ reserved ↔ lowerFirst n.text ≠ "gen" := by
      rw [mem_reserved_iff, or_iff_right hword]
    refine ⟨fun husable => ?_, fun hgen => .plain (isText_lowerFirst h) (hreserved.mpr hgen)⟩
    cases husable with
    | plain _ hnot => exact hreserved.mp hnot
  · rw [hname]
    obtain ⟨htext, hword, -⟩ := lengthened_spec hlong
    refine iff_of_true (.plain htext hword) ?_
    rintro hgen
    rw [hgen] at hlong
    exact absurd hlong (by decide)
  · rw [hname]
    refine iff_of_true (.marked (mem_reserved_iff.mpr (.inl hword)) hmark) ?_
    rintro hgen
    rw [hgen] at hword
    exact absurd hword (by decide)

theorem isText_parameter (h : isText n.text = true) : isText n.parameter.text = true := by
  rcases parameter_cases h with ⟨-, hname, -⟩ | ⟨hlong, hname, -⟩ | ⟨-, -, hname, -⟩
  · rw [hname]
    exact isText_lowerFirst h
  · rw [hname]
    exact (lengthened_spec hlong).1
  · rw [hname]
    exact isText_lowerFirst h

/-- The name of a parameter is the name of its own parameter. -/
theorem parameter_parameter (h : isText n.text = true) : n.parameter.parameter = n.parameter := by
  have hplain : ∀ {text : String}, lowerFirst text = text → text ∉ keywords →
      parameter ⟨text, false⟩ = ⟨text, false⟩ := by
    intro text hself hword
    have hmark : text ∉ unmarkable := fun hmark => hword (mem_keywords_of_mem_unmarkable hmark)
    simp [parameter, hself, hword, hmark]
  rcases parameter_cases h with ⟨hword, hname, -⟩ | ⟨hlong, hname, -⟩ | ⟨hword, hmark, hname, -⟩
  · rw [hname]
    exact hplain (lowerFirst_lowerFirst h) hword
  · rw [hname]
    obtain ⟨-, hword, hself⟩ := lengthened_spec hlong
    exact hplain hself fun hkeyword => hword (mem_reserved_iff.mpr (.inl hkeyword))
  · rw [hname]
    simp [parameter, lowerFirst_lowerFirst h, hword, hmark]

/-- Whatever identifier a sub-field is called by, marked or not, the name of its parameter is made,
no matter whether the identifier is marked, and it is the name of the parameter for a sub-field that
is called by it. It is an identifier that is not reserved, or a reserved word with a mark, unless
the identifier is the reserved word that is no keyword, or the same in capitals. -/
theorem parameter_usable_iff (h : n.isToken = true) :
    (∀ raw, parameter? ⟨n.text, raw⟩ = some n.parameter) ∧
      n.parameter.parameter? = some n.parameter ∧
      (n.parameter.Usable ↔ n.text ≠ "gen" ∧ n.text ≠ "Gen") := by
  have htext : isText n.text = true := (Bool.and_eq_true_iff.mp h).1
  refine ⟨fun raw => parameter?_eq (n := ⟨n.text, raw⟩) htext, ?_, ?_⟩
  · rw [parameter?_eq (isText_parameter htext), parameter_parameter htext]
  · rw [usable_parameter_iff htext, ne_eq, lowerFirst_eq_gen_iff htext, not_or]

/-- The word that comes of a name in capitals is a keyword, and gets a mark. -/
theorem parameter_usable_iff_type :
    (⟨"Type", false⟩ : Name).isToken = true ∧
      (∀ raw, parameter? ⟨"Type", raw⟩ = some ⟨"type", true⟩) ∧ Usable ⟨"type", true⟩ ∧
      parameter? ⟨"type", true⟩ = some ⟨"type", true⟩ := by
  have htoken : (⟨"Type", false⟩ : Name).isToken = true := by decide +kernel
  have hname : (⟨"Type", false⟩ : Name).parameter = ⟨"type", true⟩ := by decide +kernel
  obtain ⟨hmade, hstable, husable⟩ := parameter_usable_iff htoken
  rw [hname] at hmade hstable husable
  exact ⟨htoken, hmade, husable.mpr (by decide), hstable⟩

/-- The word that comes of this name in capitals is reserved as well, and gets no mark. -/
theorem reserved_parameter_unmarked :
    (⟨"Gen", false⟩ : Name).isToken = true ∧ parameter? ⟨"Gen", false⟩ = some ⟨"gen", false⟩ ∧
      ¬ Usable ⟨"gen", false⟩ := by
  refine ⟨by decide +kernel, by decide +kernel, fun husable => ?_⟩
  cases husable with
  | plain _ hword => exact hword (by decide)

/-- A word that can carry no mark is lengthened. -/
example : (⟨"Self", false⟩ : Name).parameter = ⟨"self_", false⟩ := by decide +kernel

end PackedFields.Name

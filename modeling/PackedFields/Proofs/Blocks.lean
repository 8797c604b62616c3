import PackedFields.Proofs.Bodies

/-!
# Blocks of functions

What the reader of functions makes of generated blocks. Functions are found one by one, since no
braces stand before those of a body, and each is read if its name is not reserved and its inputs and
its body are read (`Member.Reads`). A block is read if all its members are, and the type of the
container can be named; of the generic parameters no more is asked than that their angle brackets
come in pairs (`MemberBlock.read?_tokens`).
-/

namespace PackedFields

/-! ## Members as functions -/

/-- Whether the token is a pair of braces. -/
def Token.isBraces : Token → Bool
  | group .brace _ _ _ => true
  | _ => false

/-- A token that is no pair of braces stands before the first one found after it. -/
theorem braced_cons {t : Token} (ht : t.isBraces = false) {ts before inner : List Token}
    {more : List (List Token × List Token)} {rest : List Token}
    (h : braced ts = ((before, inner) :: more, rest)) :
    braced (t :: ts) = ((t :: before, inner) :: more, rest) := by
  match t with
  | .group .brace _ _ _ => cases ht
  | .ident .. | .punct .. | .literal .. | .group .paren .. | .group .bracket .. =>
    simp only [braced, h]

theorem braced_append {ts : List Token} (h : ∀ t ∈ ts, t.isBraces = false) (inner : List Token)
    (rest : List Token) :
    braced (ts ++ Code.braces inner :: rest) =
      ((ts, inner) :: (braced rest).1, (braced rest).2) := by
  induction ts with
  | nil => rfl
  | cons t ts ih =>
    obtain ⟨ht, hts⟩ := List.forall_mem_cons.mp h
    exact braced_cons ht (ih hts)

namespace Member

/-- The tokens of a function before its body. -/
def signature (m : Member) : List Token :=
  m.docs.flatMap Code.doc ++ Code.attr [Code.word "inline"] ++ m.access.tokens ++
    [Code.word "fn", Code.name m.name, Code.parens m.inputs] ++
    (if m.result.isEmpty then [] else Code.arrow ++ m.result)

/-- What stands in the attributes of a function with the documentation `docs`. -/
def attributes (docs : List String) : List (List Token) :=
  docs.map (fun line => [Code.word "doc", Code.sign '=', Code.string line]) ++
    [[Code.word "inline"]]

/-- The member as a function, given its inputs and its body. -/
def function (m : Member) (inputs : List Input) (body : Body) : Function where
  attributes := attributes m.docs
  visibility := m.access.tokens
  name := m.name
  inputs := inputs
  result := m.result
  body := body

theorem attributesOf_attr (content rest : List Token) :
    attributesOf (Code.attr content ++ rest) =
      (content :: (attributesOf rest).1, (attributesOf rest).2) := rfl

theorem attributesOf_docs (docs : List String) (rest : List Token) :
    attributesOf (docs.flatMap Code.doc ++ rest) =
      (docs.map (fun line => [Code.word "doc", Code.sign '=', Code.string line]) ++
        (attributesOf rest).1, (attributesOf rest).2) := by
  induction docs with
  | nil => rfl
  | cons line docs ih =>
    rw [List.flatMap_cons, List.append_assoc, Code.doc, attributesOf_attr, ih]
    rfl

theorem attributesOf_access (access : Access) (rest : List Token) :
    attributesOf (access.tokens ++ Code.word "fn" :: rest) =
      ([], access.tokens ++ Code.word "fn" :: rest) := by
  cases access <;> rfl

theorem visibilityOf_access (access : Access) (rest : List Token) :
    visibilityOf (access.tokens ++ Code.word "fn" :: rest) =
      (access.tokens, Code.word "fn" :: rest) := by
  cases access <;> rfl

theorem resultOf?_arrow (ts : List Token) :
    resultOf? (if ts.isEmpty then [] else Code.arrow ++ ts) = some ts := by
  cases ts <;> rfl

/-- A function is read back if its name is not reserved, and its inputs and its body are read. -/
theorem read?_signature {m : Member} (hname : m.name.isReserved = false) {inputs : List Input}
    (hinputs : Input.readAll? m.inputs = some inputs) {body : Body}
    (hbody : Body.read? m.body = some body) :
    Function.read? m.signature m.body = some (m.function inputs body) := by
  have hsignature : m.signature = m.docs.flatMap Code.doc ++ (Code.attr [Code.word "inline"] ++
      (m.access.tokens ++ Code.word "fn" :: (Code.name m.name :: Code.parens m.inputs ::
        if m.result.isEmpty then [] else Code.arrow ++ m.result))) := by
    simp only [signature, List.append_assoc, List.cons_append, List.nil_append]
  rw [Function.read?, hsignature, attributesOf_docs, attributesOf_attr, attributesOf_access]
  dsimp only
  rw [visibilityOf_access]
  show (if m.name.isReserved then none else (Input.readAll? m.inputs).bind fun inputs =>
    (resultOf? (if m.result.isEmpty then [] else Code.arrow ++ m.result)).bind fun result =>
      (Body.read? m.body).bind fun body => some (Function.mk _ _ m.name inputs result body)) = _
  rw [hname, hinputs, resultOf?_arrow, hbody]
  rfl

/-- What a function is read as, given what its inputs and its body are. -/
structure Reads (m : Member) (f : Function) : Prop where
  signature : Function.read? m.signature m.body = some f
  result : ∀ t ∈ m.result, t.isBraces = false

theorem tokens_eq (m : Member) : m.tokens = m.signature ++ [Code.braces m.body] := rfl

theorem isBraces_of_mem_signature {m : Member} (h : ∀ t ∈ m.result, t.isBraces = false) :
    ∀ t ∈ m.signature, t.isBraces = false := by
  have hdocs : ∀ t ∈ m.docs.flatMap Code.doc, t.isBraces = false := by
    rw [List.forall_mem_flatMap]
    intro line _
    exact List.forall_mem_cons.mpr ⟨rfl, List.forall_mem_singleton.mpr rfl⟩
  have haccess : ∀ t ∈ m.access.tokens, t.isBraces = false := by
    cases m.access <;> decide
  have hname : ∀ t ∈ [Code.word "fn", Code.name m.name, Code.parens m.inputs],
      t.isBraces = false :=
    List.forall_mem_cons.mpr ⟨rfl, List.forall_mem_cons.mpr ⟨rfl,
      List.forall_mem_singleton.mpr rfl⟩⟩
  have hresult : ∀ t ∈ if m.result.isEmpty then [] else Code.arrow ++ m.result,
      t.isBraces = false := by
    split_ifs
    · exact List.forall_mem_nil _
    · exact List.forall_mem_append.mpr ⟨by decide, h⟩
  simp only [signature, List.forall_mem_append]
  exact ⟨⟨⟨⟨hdocs, by decide⟩, haccess⟩, hname⟩, hresult⟩

/-- Functions are read one by one. -/
theorem readAll?_tokens {members : List Member} {fs : List Function}
    (h : List.Forall₂ Reads members fs) :
    Function.readAll? (members.flatMap tokens) = some fs := by
  have hbraced : braced (members.flatMap tokens) =
      (members.map fun m => (m.signature, m.body), []) := by
    induction h with
    | nil => rfl
    | @cons m _ members _ hm _ ih =>
      rw [List.flatMap_cons, tokens_eq, List.append_assoc, List.singleton_append,
        braced_append (isBraces_of_mem_signature hm.result), ih]
      rfl
  have hread : (members.map fun m => (m.signature, m.body)).mapM
      (fun m => Function.read? m.1 m.2) = some fs := by
    clear hbraced
    induction h with
    | nil => rfl
    | cons hm _ ih =>
      rw [List.map_cons, List.mapM_cons, hm.signature, ih]
      rfl
  rw [Function.readAll?, hbraced]
  exact hread

end Member

/-- A kind is known by its name. -/
theorem Kind.ofName?_name (k : Kind) : ofName? k.name = some k := by
  cases k with
  | bool => rfl
  | int t =>
    have hne : t.name ≠ "bool" := by
      obtain ⟨signed, size⟩ := t
      cases signed <;> cases size <;> decide
    rw [ofName?, name, beq_eq_false_iff_ne.mpr hne, if_neg Bool.false_ne_true, t.ofName?_name]
    rfl

namespace Input

/-- Parameters are read back if their names are not reserved. -/
theorem mapM_read?_params {params : List (Name × Kind)}
    (h : ∀ p ∈ params, p.1.isReserved = false) :
    (params.map fun p => [Code.name p.1, Code.sign ':', p.2.token]).mapM read? =
      some (params.map fun p => .value p.1 p.2) := by
  induction params with
  | nil => rfl
  | cons p params ih =>
    obtain ⟨hp, hparams⟩ := List.forall_mem_cons.mp h
    have hread : read? [Code.name p.1, Code.sign ':', p.2.token] = some (.value p.1 p.2) := by
      show (if p.1.isReserved then none else (Kind.ofName? p.2.name).map (value p.1)) = _
      rw [hp, p.2.ofName?_name]
      rfl
    rw [List.map_cons, List.mapM_cons, hread, ih hparams]
    rfl

/-- The parameters of a function, with commas between them. -/
theorem readAll?_params {params : List (Name × Kind)} (hne : params ≠ [])
    (h : ∀ p ∈ params, p.1.isReserved = false) :
    (Token.parts ',' (Code.commas (params.map fun p =>
      [Code.name p.1, Code.sign ':', p.2.token]))).mapM read? =
      some (params.map fun p => .value p.1 p.2) := by
  have hruns : ∀ r ∈ params.map fun p => [Code.name p.1, Code.sign ':', p.2.token],
      ∀ t ∈ r, t.isSign ',' = false := by
    rw [List.forall_mem_map]
    intro p _
    exact List.forall_mem_cons.mpr ⟨rfl, List.forall_mem_cons.mpr ⟨rfl,
      List.forall_mem_singleton.mpr rfl⟩⟩
  rw [Token.parts_commas (mt List.map_eq_nil_iff.mp hne) hruns, mapM_read?_params h]

end Input

/-! ## The head of a block -/

/-- Whether angle brackets come in pairs in the tokens. What ends an arrow is not a bracket. -/
inductive Balanced : List Token → Prop
  | nil : Balanced []
  | cons {t : Token} {ts : List Token} (hopen : t.isSign '<' = false)
      (hclose : t.isSign '>' = false) (harrow : ∀ s, t ≠ .punct '-' true s) (h : Balanced ts) :
      Balanced (t :: ts)
  | arrow {s s' : Span} {joint : Bool} {ts : List Token} (h : Balanced ts) :
      Balanced (.punct '-' true s :: .punct '>' joint s' :: ts)
  | pair {o c : Token} {inner ts : List Token} (hopen : o.isSign '<' = true)
      (hclose : c.isSign '>' = true) (hinner : Balanced inner) (h : Balanced ts) :
      Balanced (o :: (inner ++ c :: ts))

section Angles

variable {o c t : Token} {ts us : List Token}

theorem closeAngle_cons (harrow : ∀ s, t ≠ .punct '-' true s) (depth : Nat)
    (seen ts : List Token) :
    closeAngle depth seen (t :: ts) =
      if t.isSign '<' then closeAngle (depth + 1) (t :: seen) ts
      else if t.isSign '>' then
        match depth with
        | 0 => some (seen.reverse, ts)
        | depth + 1 => closeAngle depth (t :: seen) ts
      else closeAngle depth (t :: seen) ts := by
  rw [closeAngle.eq_def]
  split
  · cases ‹t :: ts = []›
  · next s _ _ _ heq =>
    cases heq
    exact absurd rfl (harrow s)
  · next heq =>
    cases heq
    rfl

theorem ne_arrow_of_isSign {d : Char} (h : t.isSign d = true) (hd : '-' ≠ d) (s : Span) :
    t ≠ .punct '-' true s := by
  rintro rfl
  exact hd (beq_iff_eq.mp h)

/-- Tokens in which brackets come in pairs do not change how many brackets are open. -/
theorem Balanced.closeAngle_append (h : Balanced ts) (depth : Nat) (seen rest : List Token) :
    closeAngle depth seen (ts ++ rest) = closeAngle depth (ts.reverse ++ seen) rest := by
  induction h generalizing depth seen rest with
  | nil => rfl
  | cons hopen hclose harrow _ ih =>
    rw [List.cons_append, closeAngle_cons harrow, hopen, hclose, if_neg Bool.false_ne_true,
      if_neg Bool.false_ne_true, ih, List.reverse_cons, List.append_assoc, List.singleton_append]
  | arrow _ ih =>
    rw [List.cons_append, List.cons_append, closeAngle, ih, List.reverse_cons, List.reverse_cons,
      List.append_assoc, List.append_assoc, List.singleton_append, List.singleton_append]
  | @pair o c inner ts hopen hclose _ _ ihinner ih =>
    have hnot : c.isSign '<' = false := by
      obtain _ | ⟨mark, _, _⟩ := c
      · cases hclose
      · rw [beq_iff_eq.mp hclose]
        rfl
      · cases hclose
      · cases hclose
    rw [List.cons_append, closeAngle_cons (ne_arrow_of_isSign hopen (by decide)), hopen, if_pos rfl,
      List.append_assoc, ihinner, List.cons_append,
      closeAngle_cons (ne_arrow_of_isSign hclose (by decide)), hnot, if_neg Bool.false_ne_true,
      hclose, if_pos rfl]
    dsimp only
    rw [ih]
    simp only [List.reverse_cons, List.reverse_append, List.append_assoc, List.cons_append,
      List.nil_append]

theorem Balanced.append (hts : Balanced ts) (hus : Balanced us) : Balanced (ts ++ us) := by
  induction hts with
  | nil => exact hus
  | cons hopen hclose harrow _ ih => exact .cons hopen hclose harrow ih
  | arrow _ ih => exact .arrow ih
  | pair hopen hclose hinner _ _ ih =>
    rw [List.cons_append, List.append_assoc, List.cons_append]
    exact .pair hopen hclose hinner ih

/-- What stands in a pair of angle brackets is found. -/
theorem Balanced.angled?_eq (h : Balanced ts) (rest : List Token) :
    angled? (Code.sign '<' :: (ts ++ Code.sign '>' :: rest)) = some (ts, rest) := by
  show closeAngle 0 [] (ts ++ Code.sign '>' :: rest) = _
  rw [h.closeAngle_append, List.append_nil]
  show some (ts.reverse.reverse, rest) = _
  rw [List.reverse_reverse]

theorem Balanced.flatMap {α : Type} {f : α → List Token} {xs : List α}
    (h : ∀ x ∈ xs, Balanced (f x)) : Balanced (xs.flatMap f) := by
  induction xs with
  | nil => exact .nil
  | cons x xs ih =>
    obtain ⟨hx, hxs⟩ := List.forall_mem_cons.mp h
    exact hx.append (ih hxs)

theorem balanced_comma : Balanced [Code.sign ','] :=
  .cons rfl rfl (fun _ h => by cases h) .nil

end Angles

namespace Generics

/-- What stands in the angle brackets if all parameters are written in one of their forms. -/
def content (g : Generics) (form : GenericParam → List Token) : List Token :=
  lifetimesFirst GenericParam.isLifetime form g.withCommas

variable {g : Generics} {form : GenericParam → List Token}

theorem balanced_content (h : ∀ p ∈ g.params, Balanced (form p)) : Balanced (g.content form) := by
  have hentries : ∀ e ∈ g.withCommas,
      Balanced (form e.1 ++ if e.2 then [Code.sign ','] else []) := by
    intro e he
    obtain ⟨⟨p, i⟩, hp, rfl⟩ := List.mem_map.mp he
    refine (h p (List.fst_mem_of_mem_zipIdx hp)).append ?_
    split_ifs
    · exact balanced_comma
    · exact .nil
  have hruns : ∀ es ⊆ g.withCommas,
      Balanced (es.flatMap fun e => form e.1 ++ if e.2 then [Code.sign ','] else []) :=
    fun es hes => .flatMap fun e he => hentries e (hes he)
  rw [content, lifetimesFirst]
  dsimp only
  rw [List.partition_eq_filter_filter]
  refine .append (.append (hruns _ fun _ he => List.mem_of_mem_filter he) ?_)
    (hruns _ fun _ he => List.mem_of_mem_filter he)
  split_ifs
  · exact balanced_comma
  · exact .nil

/-- A list of parameters in angle brackets is found, and nothing is found where there is none. -/
theorem angled?_listed (h : ∀ p ∈ g.params, Balanced (form p)) {rest : List Token}
    (hrest : angled? rest = some ([], rest)) :
    angled? (g.listed form ++ rest) = some (g.content form, rest) := by
  have hcontent := balanced_content h
  rw [listed]
  split_ifs with hempty
  · have hnone : g.content form = [] := by
      rw [content, withCommas, List.isEmpty_iff.mp hempty]
      rfl
    rw [hnone, List.nil_append, hrest]
  · simp only [List.append_assoc, List.singleton_append]
    exact hcontent.angled?_eq rest

end Generics

/-! ## Types -/

/-- The segments of a path, each with a separator before it. -/
def segmentTokens (names : List Name) : List Token :=
  names.flatMap fun n => Code.pathSep ++ [Code.name n]

theorem pathSep_append_separated (n : Name) (names : List Name) :
    Code.pathSep ++ Code.separated Code.pathSep ((n :: names).map fun n => [Code.name n]) =
      segmentTokens (n :: names) := by
  induction names generalizing n with
  | nil => rfl
  | cons next names ih =>
    show Code.pathSep ++ ([Code.name n] ++ Code.pathSep ++
      Code.separated Code.pathSep ((next :: names).map fun n => [Code.name n])) = _
    rw [List.append_assoc, ih]
    rfl

theorem segmentsOf_append {names : List Name} (h : ∀ n ∈ names, n.isOperand = true)
    {rest : List Token} (hrest : segmentsOf rest = ([], rest)) :
    segmentsOf (segmentTokens names ++ rest) = (names, rest) := by
  induction names with
  | nil => exact hrest
  | cons n names ih =>
    obtain ⟨hn, hnames⟩ := List.forall_mem_cons.mp h
    show (if n.isOperand then (n :: (segmentsOf (segmentTokens names ++ rest)).1,
      (segmentsOf (segmentTokens names ++ rest)).2) else _) = _
    rw [hn, if_pos rfl, ih hnames]

namespace Container

/-- The path of the type of a container. -/
def path (c : Container) : Path :=
  match c.module with
  | some m => ⟨m.rooted, m.segments ++ [c.name]⟩
  | none => .ofName c.name

/-- Whether a container can be named by its path, and its generic parameters have their angle
brackets in pairs. -/
structure Usable (c : Container) : Prop where
  name : c.name.isReserved = false
  module : ∀ m, c.module = some m → m.segments ≠ [] ∧ ∀ n ∈ m.segments, n.isOperand = true
  generics : ∀ p ∈ c.generics.params, Balanced p.inHeader

variable {c : Container} {rest : List Token}

/-- The tokens of a path, with a separator before them if there is none, are its segments. -/
theorem Usable.tokens_typePath (h : c.Usable) (rest : List Token) :
    (if Parser.startsMark "::" (c.typePath ++ rest) then c.typePath ++ rest
      else Code.pathSep ++ (c.typePath ++ rest)) = segmentTokens c.path.segments ++ rest ∧
    Parser.startsMark "::" (c.typePath ++ rest) = c.path.rooted := by
  rw [typePath, path]
  cases hmodule : c.module with
  | none => exact ⟨rfl, rfl⟩
  | some m =>
    obtain ⟨hne, -⟩ := h.module m hmodule
    obtain ⟨rooted, segments⟩ := m
    obtain ⟨n, ns, rfl⟩ := List.exists_cons_of_ne_nil hne
    have hsegments := pathSep_append_separated n ns
    have hjoined : segmentTokens ((n :: ns) ++ [c.name]) =
        segmentTokens (n :: ns) ++ (Code.pathSep ++ [Code.name c.name]) := by
      rw [segmentTokens, List.flatMap_append]
      rfl
    have htokens : Code.pathSep ++ (Code.separated Code.pathSep ((n :: ns).map fun n =>
        [Code.name n]) ++ Code.pathSep ++ [Code.name c.name] ++ rest) =
        segmentTokens ((n :: ns) ++ [c.name]) ++ rest := by
      rw [hjoined, ← hsegments]
      simp only [List.append_assoc]
    cases rooted with
    | true => exact ⟨htokens, rfl⟩
    | false => cases ns <;> exact ⟨htokens, rfl⟩

theorem Usable.typePath?_eq (h : c.Usable) (hrest : segmentsOf rest = ([], rest)) :
    typePath? (c.typePath ++ rest) = some (c.path, rest) := by
  have hname : c.name.isOperand = true := Name.isOperand_of_isReserved h.name
  have hspec : (∀ n ∈ c.path.segments, n.isOperand = true) ∧
      c.path.segments.getLast? = some c.name := by
    rw [path]
    cases hmodule : c.module with
    | none => exact ⟨List.forall_mem_singleton.mpr hname, rfl⟩
    | some m =>
      refine ⟨List.forall_mem_append.mpr ⟨(h.module m hmodule).2, ?_⟩, List.getLast?_concat⟩
      exact List.forall_mem_singleton.mpr hname
  obtain ⟨htokens, hrooted⟩ := h.tokens_typePath rest
  rw [typePath?]
  dsimp only
  rw [htokens, hrooted, segmentsOf_append hspec.1 hrest]
  dsimp only
  rw [hspec.2, Option.any_some, h.name, Bool.not_false, if_pos rfl]

/-- No angle bracket stands before the path of a type. -/
theorem Usable.angled?_typePath (h : c.Usable) :
    angled? (c.typePath ++ rest) = some ([], c.typePath ++ rest) := by
  rw [typePath]
  cases hmodule : c.module with
  | none => rfl
  | some m =>
    obtain ⟨hne, -⟩ := h.module m hmodule
    obtain ⟨rooted, segments⟩ := m
    obtain ⟨n, ns, rfl⟩ := List.exists_cons_of_ne_nil hne
    cases rooted with
    | true => rfl
    | false => cases ns <;> rfl

end Container

namespace GenericParam

theorem balanced_asArgument (p : GenericParam) : Balanced p.asArgument := by
  have hname : ∀ n, Balanced [Code.name n] := fun n => .cons rfl rfl (fun _ h => by cases h) .nil
  cases p with
  | lifetime _ n _ => exact .cons rfl rfl (fun _ h => by cases h) (hname n)
  | type _ n _ _ => exact hname n
  | const _ n _ _ => exact hname n

end GenericParam

namespace MemberBlock

variable {c : Container} {members : List Member}

/-- The tokens of a block after the path of its type. -/
theorem angled?_arguments :
    angled? (c.generics.arguments ++ (c.generics.whereClause ++
        [Code.braces (members.flatMap Member.tokens)])) =
      some (c.generics.content GenericParam.asArgument,
        c.generics.whereClause ++ [Code.braces (members.flatMap Member.tokens)]) := by
  refine Generics.angled?_listed (fun p _ => p.balanced_asArgument) ?_
  rw [Generics.whereClause]
  split_ifs <;> rfl

theorem segmentsOf_arguments :
    segmentsOf (c.generics.arguments ++ (c.generics.whereClause ++
        [Code.braces (members.flatMap Member.tokens)])) =
      ([], c.generics.arguments ++ (c.generics.whereClause ++
        [Code.braces (members.flatMap Member.tokens)])) := by
  rw [Generics.arguments, Generics.listed, Generics.whereClause]
  split_ifs <;> rfl

theorem conditionsOf?_whereClause : conditionsOf? c.generics.whereClause =
    some c.generics.conditions := by
  rw [Generics.whereClause]
  cases c.generics.conditions <;> rfl

/-- A block is read back if its container can be named and its members are read. -/
theorem read?_tokens (hc : c.Usable) {fs : List Function}
    (h : List.Forall₂ Member.Reads members fs) :
    Implementation.read? (tokens ⟨c, members⟩) = some {
      attributes := [[Code.word "allow", Code.parens [Code.word "non_snake_case"]]]
      generics := c.generics.content GenericParam.inHeader
      type := c.path
      arguments := c.generics.content GenericParam.asArgument
      conditions := c.generics.conditions
      functions := fs } := by
  have htokens : tokens ⟨c, members⟩ =
      Code.attr [Code.word "allow", Code.parens [Code.word "non_snake_case"]] ++
        Code.word "impl" :: (c.generics.header ++ (c.typePath ++ (c.generics.arguments ++
          (c.generics.whereClause ++ [Code.braces (members.flatMap Member.tokens)])))) := by
    simp only [tokens, head, List.append_assoc, List.cons_append, List.nil_append]
  have himpl : ∀ rest, attributesOf (Code.word "impl" :: rest) = ([], Code.word "impl" :: rest) :=
    fun _ => rfl
  rw [Implementation.read?, htokens, Member.attributesOf_attr, himpl]
  -- part by part, each up to where the next one starts
  simp only [Code.word, Code.name, Generics.header,
    Generics.angled?_listed hc.generics hc.angled?_typePath, hc.typePath?_eq segmentsOf_arguments,
    angled?_arguments, Option.bind_eq_bind, Option.bind_some, List.getLast?_concat,
    List.dropLast_concat, conditionsOf?_whereClause]
  show (Function.readAll? (members.flatMap Member.tokens)).bind _ = _
  rw [Member.readAll?_tokens h]
  rfl

end MemberBlock

end PackedFields

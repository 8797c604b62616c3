import PackedFields.Proofs.Blocks
import PackedFields.Proofs.Reading

/-!
# The members of a schema in source

The members for a schema are read back from their tokens if the names in them can be used
(`Schema.Usable`): they are a block of functions of the type of the container
(`Schema.implementation`). Each getter has the value of its expression, and the mutator stores that
of its own, in the field of the instance, or in the cell of a shared field.
-/

namespace PackedFields

namespace Schema

open Code

variable {s : Schema}

/-! ## The members of a schema as functions -/

section Functions

variable (s : Schema)

/-- The instance that a member takes, unless the field is shared. -/
def receiver (mutable : Bool) : List Input := if s.shared then [] else [.receiver mutable]

/-- The getter of a sub-field: the value is that of its expression. -/
def getterFunction (g : Getter) : Function where
  attributes := Member.attributes [s.getterDoc g.slot]
  visibility := s.access.tokens
  name := g.slot.subField.name
  inputs := s.receiver false
  result := [g.slot.subField.kind.token]
  body := ⟨[], some (.value (g.value.term (.written s.readTokens)))⟩

/-- What stores a value: it is given to the field of the instance, or to the cell of a shared
field. -/
def storing (value : Term) : Effect :=
  if s.shared then .call (.written (ownCall s.cellName)) ⟨"store", false⟩ [value, .written relaxed]
  else .assign (.written [word "self", sign '.', name s.field]) value

/-- The mutator: it takes a value for each sub-field, and stores what its expression makes of
them. -/
def mutatorFunction : Function where
  attributes := Member.attributes (s.mutatorDocs s.slots)
  visibility := s.access.tokens
  name := s.mutatorName
  inputs := s.receiver true ++ s.accessors.mutator.params.map fun p => .value p.1 p.2
  result := []
  body := ⟨[.effect (s.storing (s.accessors.mutator.value.term (.written s.readTokens)))], none⟩

/-- The function that holds the cell of a shared field, which starts at 0. -/
def cellFunction (atomic : String) : Function where
  attributes := Member.attributes []
  visibility := []
  name := s.cellName
  inputs := []
  result := [sign '&'] ++ lifetime "static" ++ atomicPath [atomic]
  body := ⟨[.static ⟨"CELL", false⟩ (atomicPath [atomic])
    (.written (atomicPath [atomic, "new"] ++ [parens [number 0]]))],
    some (.reference (.name ⟨"CELL", false⟩))⟩

/-- The function that reads a whole shared field: it loads the value from the cell. -/
def wholeFunction : Function where
  attributes := Member.attributes
    [" Current value of the shared `" ++ s.field.spelling ++ "` bits."]
  visibility := s.access.tokens
  name := s.field
  inputs := []
  result := [s.backing.token]
  body := ⟨[], some (.call (.written (ownCall s.cellName)) ⟨"load", false⟩ [.written relaxed])⟩

/-- The members for a schema as functions, in order. -/
def functions : List Function :=
  (match s.shared, s.backing.atomic? with
    | true, some atomic => [s.cellFunction atomic, s.wholeFunction]
    | _, _ => []) ++ s.accessors.getters.map s.getterFunction ++ [s.mutatorFunction]

/-- The block of the members for a schema: functions of the type of the container. -/
def implementation : Implementation where
  attributes := [[word "allow", parens [word "non_snake_case"]]]
  generics := s.container.generics.content GenericParam.inHeader
  type := s.container.path
  arguments := s.container.generics.content GenericParam.asArgument
  conditions := s.container.generics.conditions
  functions := s.functions

/-- Whether the names in the members for a schema can be used. -/
structure Usable : Prop where
  container : s.container.Usable
  field : s.field.isReserved = false
  subFields : ∀ d ∈ s.subFields,
    d.name.isReserved = false ∧ d.name.parameter.isReserved = false

end Functions

/-- In what reads a backing integer there is no punctuation but that of paths and selections. -/
theorem isSign_of_mem_readTokens {c : Char} (hc : c ∉ [':', '.']) :
    ∀ t ∈ s.readTokens, t.isSign c = false := by
  obtain ⟨hcolon, hdot⟩ : ¬ c = ':' ∧ ¬ c = '.' := by simpa using hc
  rw [readTokens]
  split_ifs
  · simp [ownCall, pathSep, operator, sign, Token.isSign, word, name, parens, group,
      Ne.symm hcolon]
  · simp [sign, Token.isSign, word, name, Ne.symm hdot]

theorem simple_readTokens : Simple s.readTokens := by
  refine ⟨?_, isSign_of_mem_readTokens (by decide)⟩
  rw [readTokens]
  split_ifs <;> exact ⟨_, _, rfl, fun _ _ _ h => by cases h⟩

/-- The body of a getter reads as its expression. -/
theorem read?_getterBody (h : s.field.isReserved = false) {g : Getter}
    (hg : g ∈ s.accessors.getters) :
    Body.read? (s.getterMember g).body =
      some ⟨[], some (.value (g.value.term (.written s.readTokens)))⟩ := by
  have hread := read?_getterMember h hg
  have heffect : Effect.read? (s.getterMember g).body =
      some (.value (g.value.term (.written s.readTokens))) := by
    obtain ⟨slot, -, rfl⟩ := List.mem_map.mp hg
    change Term.read? ((slot.extraction s.backing).tokens s.readTokens) = _ at hread
    change Effect.read? ((slot.extraction s.backing).tokens s.readTokens) = _
    rw [Slot.extraction_eq] at hread ⊢
    cases hkind : slot.subField.kind with
    | bool =>
      rw [hkind] at hread
      exact Expr.effect_test simple_readTokens hread
    | int t =>
      rw [hkind] at hread
      exact Expr.effect_cast simple_readTokens hread
  have hne : (s.getterMember g).body ≠ [] := by
    intro hnil
    rw [hnil] at hread
    cases hread
  exact Body.read?_effect (Expr.isSign_of_mem_tokens (by decide)
    (isSign_of_mem_readTokens (by decide)) _) hne heffect

/-- The name of no member that is made from the name of the field is reserved. -/
theorem isReserved_made : s.mutatorName.isReserved = false ∧ s.cellName.isReserved = false := by
  have hmade : ∀ w ∈ Name.reserved, ¬ "set_".toList <+: w.toList ∧ ¬ "__".toList <+: w.toList := by
    decide +kernel
  have hnot : ∀ text, text ∉ Name.reserved → (⟨text, false⟩ : Name).isReserved = false := by
    intro text htext
    simpa [Name.isReserved] using htext
  refine ⟨hnot _ fun h => (hmade _ h).1 ?_, hnot _ fun h => (hmade _ h).2 ?_⟩
  · rw [String.toList_append]
    exact List.prefix_append _ _
  · rw [String.toList_append, String.toList_append, List.append_assoc]
    exact List.prefix_append _ _

section Storing

variable {value : List Token} {t : Term}

theorem readOperand?_relaxed : Term.readOperand? relaxed = some (.written relaxed) := rfl

/-- A call of a method of the cell does what it says. -/
theorem read?_cellCall (method : String) (hmethod : (⟨method, false⟩ : Name).isSelected = true)
    {ts : List Token} {arguments : List Term} (h : Effect.arguments? ts = some arguments) :
    Effect.read? (ownCall s.cellName ++ [sign '.', word method, parens ts]) =
      some (.call (.written (ownCall s.cellName)) ⟨method, false⟩ arguments) := by
  have hcell := isReserved_made (s := s).2
  have hoperand : Term.readOperand? (ownCall s.cellName ++ [sign '.', word method, parens ts]) =
      some (.written (ownCall s.cellName ++ [sign '.', word method, parens ts])) := by
    show (if s.cellName.isOperand && ((⟨method, false⟩ : Name).isSelected && true) then
      some (Term.written _) else none) = _
    rw [Name.isOperand_of_isReserved hcell, hmethod]
    rfl
  have hread : Term.read? (ownCall s.cellName ++ [sign '.', word method, parens ts]) =
      some (.written (ownCall s.cellName ++ [sign '.', word method, parens ts])) :=
    expression?_operand hoperand
  show (Term.read? (ownCall s.cellName ++ [sign '.', word method, parens ts])).bind
    Effect.ofTerm? = _
  rw [hread]
  show (Term.readOperand? (ownCall s.cellName)).bind (fun receiver =>
    (Effect.arguments? ts).bind fun as => some (Effect.call receiver ⟨method, false⟩ as)) = _
  rw [readOperand?_ownCall hcell, h]
  rfl

theorem isSign_of_mem_cellCall {c : Char} (hc : c ∉ [':', '.']) {method : String}
    (ts : List Token) :
    ∀ t ∈ ownCall s.cellName ++ [sign '.', word method, parens ts], t.isSign c = false := by
  obtain ⟨hcolon, hdot⟩ : ¬ c = ':' ∧ ¬ c = '.' := by simpa using hc
  simp [ownCall, pathSep, operator, sign, Token.isSign, word, name, parens, group,
    Ne.symm hcolon, Ne.symm hdot]

theorem read?_storing (h : s.field.isReserved = false) (hvalue : Term.read? value = some t)
    (hsigns : ∀ t ∈ value, t.isSign ',' = false) :
    Effect.read?
      (if s.shared then
        ownCall s.cellName ++ [sign '.', word "store", parens (value ++ [sign ','] ++ relaxed)]
      else [word "self", sign '.', name s.field, sign '='] ++ value) = some (s.storing t) := by
  rw [storing]
  split_ifs with hshared
  · refine read?_cellCall "store" (by decide) ?_
    have hrelaxed : Term.read? relaxed = some (.written relaxed) :=
      expression?_operand readOperand?_relaxed
    have hparts : Token.parts ',' relaxed = [relaxed] := Token.parts_of_forall (by decide)
    have hne : (value ++ sign ',' :: relaxed).isEmpty = false := by simp
    rw [Effect.arguments?, List.append_assoc, List.singleton_append, hne,
      Token.parts_append_cons _ _ rfl, Token.parts_of_forall hsigns, hparts]
    show (Term.read? value).bind (fun v => (Term.read? relaxed).bind fun r => some [v, r]) = _
    rw [hvalue, hrelaxed]
    rfl
  · show (Term.readOperand? [word "self", sign '.', name s.field]).bind (fun place =>
      (Term.read? value).bind fun v => some (Effect.assign place v)) = _
    rw [readOperand?_selection h, hvalue]
    rfl

end Storing

section Members

variable (h : s.Usable)
include h

theorem Usable.params : ∀ p ∈ s.accessors.mutator.params, p.1.isReserved = false := by
  intro p hp
  obtain ⟨slot, hslot, rfl⟩ := List.mem_map.mp hp
  exact (h.subFields _ (subField_mem_of_mem_allocateFrom hslot)).2

theorem Usable.read?_mutatorBody :
    Body.read? (s.mutatorMember s.slots s.accessors.mutator).body =
      some ⟨[.effect (s.storing (s.accessors.mutator.value.term (.written s.readTokens)))],
        none⟩ := by
  have hvalue := read?_mutator h.field h.params
  have hcommas := Expr.isSign_of_mem_tokens (c := ',') (by decide)
    (isSign_of_mem_readTokens (s := s) (by decide)) s.accessors.mutator.value
  have hsemicolons := Expr.isSign_of_mem_tokens (c := ';') (by decide)
    (isSign_of_mem_readTokens (s := s) (by decide)) s.accessors.mutator.value
  have hstoring := read?_storing h.field hvalue hcommas
  show Body.read? (if s.shared then ownCall s.cellName ++ [sign '.', word "store", parens (_ ++
    [sign ','] ++ relaxed), sign ';'] else [word "self", sign '.', name s.field, sign '='] ++ _ ++
    [sign ';']) = _
  split_ifs at hstoring ⊢ with hshared
  · exact Body.read?_statement (isSign_of_mem_cellCall (by decide) _)
      (congrArg (Option.map Statement.effect) hstoring) []
  · have hsigns : ∀ t ∈ [word "self", sign '.', name s.field, sign '='] ++
        s.accessors.mutator.value.tokens s.readTokens, t.isSign ';' = false :=
      List.forall_mem_append.mpr ⟨by simp [sign, Token.isSign, word, name], hsemicolons⟩
    exact Body.read?_statement hsigns (congrArg (Option.map Statement.effect) hstoring) []

/-- The inputs of the mutator are the instance, unless the field is shared, and its parameters. -/
theorem Usable.readAll?_mutatorInputs (hne : s.accessors.mutator.params ≠ []) :
    Input.readAll? (s.mutatorMember s.slots s.accessors.mutator).inputs =
      some (s.receiver true ++ s.accessors.mutator.params.map fun p => .value p.1 p.2) := by
  have hread := Input.readAll?_params hne h.params
  show Input.readAll? ((if s.shared then [] else [sign '&', word "mut", word "self", sign ',']) ++
    commas (s.accessors.mutator.params.map fun p => [name p.1, sign ':', p.2.token])) = _
  have hsome : (commas (s.accessors.mutator.params.map fun p =>
      [name p.1, sign ':', p.2.token])).isEmpty = false := by
    obtain ⟨p, params, hparams⟩ := List.exists_cons_of_ne_nil hne
    rw [hparams]
    cases params <;> rfl
  generalize commas (s.accessors.mutator.params.map fun p => [name p.1, sign ':', p.2.token]) =
    inputs at hread hsome ⊢
  rw [receiver]
  split_ifs with hshared
  · rw [List.nil_append, List.nil_append, Input.readAll?, hsome, hread]
    rfl
  · show (Token.parts ',' ([sign '&', word "mut", word "self"] ++ sign ',' :: inputs)).mapM _ = _
    rw [Token.parts_append_cons _ _ rfl, Token.parts_of_forall (by decide), List.singleton_append,
      List.mapM_cons, hread]
    rfl

theorem Usable.reads_mutator (hne : s.accessors.mutator.params ≠ []) :
    (s.mutatorMember s.slots s.accessors.mutator).Reads s.mutatorFunction where
  signature := Member.read?_signature isReserved_made.1 (h.readAll?_mutatorInputs hne)
    h.read?_mutatorBody
  result := List.forall_mem_nil _

theorem Usable.reads_getter {g : Getter} (hg : g ∈ s.accessors.getters) :
    (s.getterMember g).Reads (s.getterFunction g) where
  signature := by
    obtain ⟨slot, hslot, rfl⟩ := List.mem_map.mp hg
    have hname := (h.subFields _ (subField_mem_of_mem_allocateFrom hslot)).1
    have hinputs : Input.readAll? (if s.shared then [] else [sign '&', word "self"]) =
        some (s.receiver false) := by
      rw [receiver]
      split_ifs <;> rfl
    exact Member.read?_signature hname hinputs (read?_getterBody h.field hg)
  result := List.forall_mem_singleton.mpr rfl

theorem Usable.reads_whole : s.wholeMember.Reads s.wholeFunction where
  signature := Member.read?_signature h.field rfl (Body.read?_effect
    (isSign_of_mem_cellCall (by decide) relaxed) (by simp)
    (read?_cellCall "load" (by decide) rfl))
  result := List.forall_mem_singleton.mpr rfl

omit h in
theorem reads_cell {atomic : String} (hatomic : s.backing.atomic? = some atomic) :
    (s.cellMember atomic).Reads (s.cellFunction atomic) where
  signature := by
    refine Member.read?_signature isReserved_made.2 rfl ?_
    have hbody : ∀ t : IntType, t.atomic? = some atomic →
        Body.read? (s.cellMember atomic).body = some (s.cellFunction atomic).body := by
      rintro ⟨signed, size⟩ ht
      cases signed <;> cases size <;> cases ht <;> rfl
    exact hbody s.backing hatomic
  result := by
    simp [cellMember, lifetime, atomicPath, rootPath, pathSep, operator, sign, word, name,
      Token.isBraces]

end Members

theorem Accepted.params_ne_nil (h : s.Accepted) : s.accessors.mutator.params ≠ [] := by
  intro hnil
  have hslots : s.slots = [] := List.map_eq_nil_iff.mp hnil
  have hsubFields := s.map_subField_slots
  rw [hslots] at hsubFields
  exact h.declared hsubFields.symm

/-- The members for an accepted schema are read back from their tokens, all in one block, if the
names in them can be used. -/
theorem Accepted.read?_block (h : s.Accepted) (hnames : s.Usable) {block : MemberBlock}
    (hblock : s.memberBlock = .ok block) :
    Implementation.read? block.tokens = some s.implementation := by
  have haccessors : List.Forall₂ Member.Reads
      (s.accessors.getters.map s.getterMember ++ [s.mutatorMember s.slots s.accessors.mutator])
      (s.accessors.getters.map s.getterFunction ++ [s.mutatorFunction]) := by
    refine List.rel_append ?_ (.cons (hnames.reads_mutator h.params_ne_nil) .nil)
    rw [List.forall₂_map_left_iff, List.forall₂_map_right_iff, List.forall₂_same]
    exact fun g hg => hnames.reads_getter hg
  rw [memberBlock, sharedMembers] at hblock
  rw [implementation, functions]
  cases hshared : s.shared with
  | false =>
    rw [hshared] at hblock
    cases hblock
    exact MemberBlock.read?_tokens hnames.container haccessors
  | true =>
    obtain ⟨atomic, hatomic⟩ := Option.isSome_iff_exists.mp (h.atomic hshared)
    rw [hshared, hatomic] at hblock
    rw [hatomic]
    cases hblock
    exact MemberBlock.read?_tokens hnames.container
      (.cons (reads_cell hatomic) (.cons hnames.reads_whole haccessors))

end Schema

theorem Sample.usable_container {n : String} (h : (⟨n, false⟩ : Name).isReserved = false) :
    (container n).Usable where
  name := h
  module := fun _ hmodule => by cases hmodule
  generics := List.forall_mem_nil _

end PackedFields

import PackedFields.Proofs.CheckedRun
import PackedFields.Proofs.Writing
import PackedFields.Syntax.Grammar

/-!
# What is generated stays in range

Generated code is not looked at again. A shift by as many bits as an integer has does not compile,
nor does a mask with a number that the type of the integer does not have, and a range of bits that
is documented wrong stays wrong. All this rests on validation, which bounds the slots: each of them
has bits, and ends with the backing integer or before.

That is enough for every number in an accessor. A shift by 0 is left out, and any other is by the
start of a slot. A mask has the width of a slot, and is left out for a slot that is the whole
integer, so that even the largest mask is a number of a signed type.

Two things stay with the caller. A name that is a reserved word is written as it is, so that the
block of such a schema is no source (`reserved_getter_unread`), and the widths of more than `2 ^ 32`
sub-fields may be too many to be added up.
-/

namespace PackedFields

theorem IntType.holds_two_pow_sub_one (t : IntType) {width : Nat} (h : width < t.bits) :
    t.holds (2 ^ width - 1) := by
  have hpos : (0 : Int) < 2 ^ width := by positivity
  have hhalf : (2 : Int) ^ width ≤ 2 ^ (t.bits - 1) := pow_le_pow_right₀ (by decide) (by omega)
  have hbits : (2 : Int) ^ t.bits = 2 * 2 ^ (t.bits - 1) := by
    rw [← pow_succ', Nat.sub_add_cancel (by omega)]
  rw [holds, beq_iff_eq, toInt, ofInt]
  split_ifs
  · rw [BitVec.toInt_ofInt_eq_self (by omega)]
    · omega
    · omega
  · have hlt : (2 : Int) ^ width - 1 < (2 ^ t.bits : Nat) := by
      push_cast
      omega
    rw [BitVec.toNat_ofInt, Int.emod_eq_of_lt (by omega) hlt, Int.toNat_of_nonneg (by omega)]

/-! ## Expressions -/

namespace Expr

mutual

/-- An expression and all expressions inside it. -/
def nodes : Expr → List Expr
  | backing => [backing]
  | param n => [param n]
  | shr e n => shr e n :: nodes e
  | shl e n => shl e n :: nodes e
  | mask e width => mask e width :: nodes e
  | cast e t => cast e t :: nodes e
  | ofBool e t => ofBool e t :: nodes e
  | test e => test e :: nodes e
  | or terms => or terms :: nodesAll terms

/-- The nodes of all terms. -/
def nodesAll : List Expr → List Expr
  | [] => []
  | e :: es => nodes e ++ nodesAll es

end

/-- Whether the number in a node can be written there, over an integer of the type `t`. -/
def InRange (t : IntType) : Expr → Prop
  | shr _ n => 0 < n ∧ n < t.bits
  | shl _ n => 0 < n ∧ n < t.bits
  | mask _ width => 0 < width ∧ width < t.bits ∧ t.holds (2 ^ width - 1)
  | _ => True

/-- Whether all numbers in an expression can be written there. -/
def StaysIn (t : IntType) (e : Expr) : Prop := ∀ node ∈ e.nodes, node.InRange t

variable {t : IntType} {e : Expr}

theorem staysIn_of_leaf (hnodes : e.nodes = [e]) (he : e.InRange t) : e.StaysIn t := by
  intro node hnode
  rw [hnodes, List.mem_singleton] at hnode
  rwa [hnode]

theorem StaysIn.wrap {outer : Expr} (he : e.StaysIn t) (hnodes : outer.nodes = outer :: e.nodes)
    (houter : outer.InRange t) : outer.StaysIn t := by
  unfold StaysIn
  rw [hnodes, List.forall_mem_cons]
  exact ⟨houter, he⟩

theorem StaysIn.shiftRight (he : e.StaysIn t) {n : Nat} (hn : n < t.bits) :
    (e.shiftRight n).StaysIn t := by
  unfold Expr.shiftRight
  split_ifs with hzero
  · exact he
  · exact he.wrap rfl ⟨Nat.pos_of_ne_zero hzero, hn⟩

theorem StaysIn.shiftLeft (he : e.StaysIn t) {n : Nat} (hn : n < t.bits) :
    (e.shiftLeft n).StaysIn t := by
  unfold Expr.shiftLeft
  split_ifs with hzero
  · exact he
  · exact he.wrap rfl ⟨Nat.pos_of_ne_zero hzero, hn⟩

theorem StaysIn.mask (he : e.StaysIn t) {width : Nat} (hpos : 0 < width) (hlt : width < t.bits) :
    (Expr.mask e width).StaysIn t :=
  he.wrap rfl ⟨hpos, hlt, t.holds_two_pow_sub_one hlt⟩

theorem staysIn_or {terms : List Expr} (h : ∀ e ∈ terms, e.StaysIn t) : (or terms).StaysIn t := by
  have hall : ∀ node ∈ nodesAll terms, node.InRange t := by
    induction terms with
    | nil => exact fun node hnode => absurd hnode List.not_mem_nil
    | cons e es ih =>
      obtain ⟨he, hes⟩ := List.forall_mem_cons.mp h
      intro node hnode
      rcases List.mem_append.mp hnode with hnode | hnode
      · exact he node hnode
      · exact ih hes node hnode
  unfold StaysIn
  rw [nodes, List.forall_mem_cons]
  exact ⟨trivial, hall⟩

end Expr

namespace Slot.Fits

variable {s : Slot} {backing : IntType}

theorem offset_lt (h : s.Fits backing) : s.offset < backing.bits := by
  have hinside := h.inside
  have hpos := h.width_pos
  omega

theorem staysIn_extraction (h : s.Fits backing) : (s.extraction backing).StaysIn backing := by
  have hbacking : Expr.backing.StaysIn backing := Expr.staysIn_of_leaf rfl trivial
  have hshifted := hbacking.shiftRight h.offset_lt
  have hisolated : (s.isolated backing).StaysIn backing := by
    unfold isolated
    split_ifs with hmask
    · exact hshifted.mask h.width_pos hmask
    · exact hshifted
  rw [extraction_eq]
  cases s.subField.kind with
  | bool => exact hisolated.wrap rfl trivial
  | int t => exact hisolated.wrap rfl trivial

theorem staysIn_contribution (h : s.Fits backing) : (s.contribution backing).StaysIn backing := by
  have hparam : (Expr.param s.subField.name.parameter).StaysIn backing :=
    Expr.staysIn_of_leaf rfl trivial
  rw [contribution]
  apply Expr.StaysIn.shiftLeft _ h.offset_lt
  cases s.subField.kind with
  | bool => exact hparam.wrap rfl trivial
  | int t => exact hparam.wrap rfl trivial

end Slot.Fits

namespace Schema

variable {s : Schema} {k : Nat} {d : SubField}

/-! ## The drawing -/

namespace Accepted

/-- An entry of the diagram is that of a sub-field. -/
theorem exists_of_mem_tagged (h : s.Accepted) {entry : Char × Slot}
    (hentry : entry ∈ Diagram.tagged s.slots) :
    ∃ j e, (Diagram.tagged s.slots)[j]? = some entry ∧ s.subFields[j]? = some e ∧
      entry.2 = ⟨e, bitsBefore s.subFields j, e.bits⟩ := by
  obtain ⟨j, hj⟩ := List.mem_iff_getElem?.mp hentry
  have hslot : s.slots[j]? = some entry.2 := by
    rw [← Diagram.map_snd_tagged s.slots, List.getElem?_map, hj, Option.map_some]
  have hsubField : s.subFields[j]? = some entry.2.subField := by
    rw [← s.map_subField_slots, List.getElem?_map, hslot, Option.map_some]
  refine ⟨j, entry.2.subField, hj, hsubField, ?_⟩
  rw [h.getElem?_slots hsubField] at hslot
  exact (Option.some.inj hslot).symm

/-- A bit of an entry is drawn with the tag of the entry. -/
theorem cell_eq_tag (h : s.Accepted) {entry : Char × Slot} (hentry : entry ∈ Diagram.tagged s.slots)
    {bit : Nat} (hbit : entry.2.has bit) : Diagram.cell (Diagram.tagged s.slots) bit = entry.1 := by
  apply Diagram.cell_of_unique hentry hbit
  -- an entry that has the bit, too, stands in the same place of the list
  intro other hother hbit'
  obtain ⟨i, d, hi, hd, hplace⟩ := h.exists_of_mem_tagged hentry
  obtain ⟨j, e, hj, he, hplace'⟩ := h.exists_of_mem_tagged hother
  rw [hplace, h.has_iff hd bit] at hbit
  rw [hplace', h.has_iff he bit] at hbit'
  obtain rfl := eq_of_bitsBefore_le hbit hbit'
  exact Option.some.inj (hj.symm.trans hi)

/-- The bits of a sub-field are drawn with its tag. -/
theorem exists_tag (h : s.Accepted) (hd : s.subFields[k]? = some d) :
    ∃ tag, (Diagram.tagged s.slots)[k]? =
        some (tag, ⟨d, bitsBefore s.subFields k, d.bits⟩) ∧
      ∀ bit, bitsBefore s.subFields k ≤ bit → bit < bitsBefore s.subFields k + d.bits →
        Diagram.cell (Diagram.tagged s.slots) bit = tag := by
  have hslot := h.getElem?_slots hd
  rw [← Diagram.map_snd_tagged s.slots, List.getElem?_map, Option.map_eq_some_iff] at hslot
  obtain ⟨⟨tag, slot⟩, htag, rfl⟩ := hslot
  refine ⟨tag, htag, fun bit hstart hstop => ?_⟩
  rw [← bitsBefore_succ hd] at hstop
  exact h.cell_eq_tag (List.mem_of_getElem? htag) ((h.has_iff hd bit).mpr ⟨hstart, hstop⟩)

/-- A bit past the last sub-field is drawn as one that is not used. -/
theorem cell_eq_unused (h : s.Accepted) {bit : Nat} (hbit : totalBits s.subFields ≤ bit) :
    Diagram.cell (Diagram.tagged s.slots) bit = Diagram.unused := by
  apply Diagram.cell_of_free
  intro entry hentry hhas
  obtain ⟨j, e, -, he, hplace⟩ := h.exists_of_mem_tagged hentry
  rw [hplace, h.has_iff he bit] at hhas
  have hend := bitsBefore_le_totalBits s.subFields (j + 1)
  omega

end Accepted

/-! ## Documentation -/

/-- Whether an output has the exact bits of the sub-field `d` at `k`, wherever it speaks of them. -/
structure Documents (s : Schema) (out : FieldOutput) (k : Nat) (d : SubField) : Prop where
  published : out.layout.subFields[k]? = some ⟨d.name.text, bitsBefore s.subFields k, d.bits⟩
  getter_of_bool : d.kind = .bool → ∃ m ∈ out.block.members, m.name = d.name ∧
    m.docs = [" Bit " ++ toString (bitsBefore s.subFields k) ++ " of `" ++ s.field.spelling ++ "`."]
  getter_of_int : ∀ t, d.kind = .int t → ∃ m ∈ out.block.members, m.name = d.name ∧
    m.docs = [" Bits " ++ toString (bitsBefore s.subFields k) ++ ".." ++
      toString (bitsBefore s.subFields k + d.bits) ++ " of `" ++ s.field.spelling ++ "`."]
  /-- The diagram shows one tag in all bits of the sub-field, and the legend explains it. -/
  drawn : ∃ tag : Char,
    " " ++ (tag.toString ++ " = " ++ d.name.spelling ++ ": " ++ d.kind.name ++ ", bits " ++
      toString (bitsBefore s.subFields k) ++ ".." ++
      toString (bitsBefore s.subFields k + d.bits)) ∈ out.docs ∧
    ∀ bit, bitsBefore s.subFields k ≤ bit → bit < bitsBefore s.subFields k + d.bits →
      Diagram.cell (Diagram.tagged s.slots) bit = tag

/-- Whether all that is generated for a schema is in range. -/
structure Generates (s : Schema) (out : FieldOutput) : Prop where
  slots : ∀ slot ∈ s.slots,
    slot.offset < s.backing.bits ∧ slot.offset + slot.width ≤ s.backing.bits
  getters : ∀ g ∈ s.accessors.getters,
    g.value.StaysIn s.backing ∧ s.getterMember g ∈ out.block.members
  mutator : s.accessors.mutator.value.StaysIn s.backing ∧
    s.mutatorMember s.slots s.accessors.mutator ∈ out.block.members
  documented : ∀ k d, s.subFields[k]? = some d → s.Documents out k d
  /-- The bits past the last sub-field are drawn as not used. -/
  unused : ∀ bit, totalBits s.subFields ≤ bit →
    Diagram.cell (Diagram.tagged s.slots) bit = Diagram.unused
  /-- The diagram stands in the documentation of the mutator, too. -/
  docs : out.docs = Diagram.docs s.backing s.slots ∧
    out.docs <:+ (s.mutatorMember s.slots s.accessors.mutator).docs
  /-- The members are those of the schema, and not missing for want of an atomic type. -/
  block : s.memberBlock = .ok out.block
  /-- The tokens are a head for the type of the container, and all members in braces. -/
  tokens : out.tokens =
    Code.attr [Code.word "allow", Code.parens [Code.word "non_snake_case"]] ++
      MemberBlock.head s.container [] ++ [Code.braces (out.block.members.flatMap Member.tokens)]
  /-- The tokens are read as the block of functions of the type of the container: none is missing,
  and none is there besides. -/
  read : s.Usable → Implementation.read? out.tokens = some s.implementation

theorem container_of_memberBlock {block : MemberBlock} (h : s.memberBlock = .ok block) :
    block.container = s.container := by
  rw [memberBlock] at h
  cases hshared : s.sharedMembers with
  | error d =>
    rw [hshared] at h
    cases h
  | ok members =>
    rw [hshared] at h
    cases h
    rfl

namespace Accepted

variable {block : MemberBlock}

theorem getterMember_mem (h : s.Accepted) (hblock : s.memberBlock = .ok block) {g : Getter}
    (hg : g ∈ s.accessors.getters) : s.getterMember g ∈ block.members := by
  obtain ⟨block', hblock', -, hgetters⟩ := h.memberBlock_eq
  rw [hblock] at hblock'
  obtain rfl := Except.ok.inj hblock'
  exact hgetters g hg

theorem documents (h : s.Accepted) (hblock : s.memberBlock = .ok block)
    (hd : s.subFields[k]? = some d) :
    s.Documents ⟨s.field, block, s.layout, Diagram.docs s.backing s.slots⟩ k d := by
  have hslot := h.getElem?_slots hd
  have hmember : s.getterMember ⟨⟨d, bitsBefore s.subFields k, d.bits⟩, _⟩ ∈ block.members :=
    h.getterMember_mem hblock (List.mem_map_of_mem (List.mem_of_getElem? hslot))
  refine ⟨?_, ?_, ?_, ?_⟩
  · rw [subFields_layout, List.getElem?_map, hslot]
    rfl
  · intro hkind
    refine ⟨_, hmember, rfl, ?_⟩
    simp only [getterMember, getterDoc, hkind, String.append_assoc]
  · intro t hkind
    refine ⟨_, hmember, rfl, ?_⟩
    simp only [getterMember, getterDoc, hkind, String.append_assoc]
  · obtain ⟨tag, htag, hbits⟩ := h.exists_tag hd
    have hstop := addUpTo_of_le (h.bitsBefore_add_bits_le_lastPosition hd)
    have hline := Diagram.legend_mem_docs s.backing (List.mem_of_getElem? htag)
    simp only [Diagram.legend, Slot.stop, hstop] at hline
    exact ⟨tag, hline, hbits⟩

theorem staysIn_getter (h : s.Accepted) {g : Getter} (hg : g ∈ s.accessors.getters) :
    g.value.StaysIn s.backing := by
  obtain ⟨slot, hslot, rfl⟩ := List.mem_map.mp hg
  exact (h.fits hslot).staysIn_extraction

theorem staysIn_mutator (h : s.Accepted) : s.accessors.mutator.value.StaysIn s.backing := by
  apply Expr.staysIn_or
  intro e he
  obtain ⟨slot, hslot, rfl⟩ := List.mem_map.mp he
  exact (h.fits hslot).staysIn_contribution

theorem generates (h : s.Accepted) (hblock : s.memberBlock = .ok block) :
    s.Generates ⟨s.field, block, s.layout, Diagram.docs s.backing s.slots⟩ where
  slots := fun _ hslot => ⟨(h.fits hslot).offset_lt, (h.fits hslot).inside⟩
  getters := fun _ hg => ⟨h.staysIn_getter hg, h.getterMember_mem hblock hg⟩
  mutator := ⟨h.staysIn_mutator, mutatorMember_mem hblock⟩
  documented := fun _ _ hd => h.documents hblock hd
  unused := fun _ hbit => h.cell_eq_unused hbit
  docs := ⟨rfl, List.suffix_append _ _⟩
  block := hblock
  tokens := by
    rw [← container_of_memberBlock hblock]
    rfl
  read := fun hnames => h.read?_block hnames hblock

end Accepted

/-- Generation comes to its end for every schema whose widths can be added up in 64 bits, such as
one of at most `2 ^ 32` sub-fields, and no step on the way overflows or asks for something past the
end of a list. What is generated is a block of functions in which every shift, every mask and every
range of bits is in range, and it is read back as that block if the names in it can be used. Where
nothing is generated, that is because validation has something to say. -/
theorem generate_stays_in_range (s : Schema) :
    (s.generate? =
      if (s.subFields.map (·.bits)).sum < 2 ^ 64 then some s.generate else none) ∧
    (s.subFields.length ≤ 2 ^ 32 → (∀ d ∈ s.subFields, d.width < 2 ^ 32) →
      s.generate? = some s.generate) ∧
    (∀ out, s.generate = .ok out → s.generate? = some (.ok out) ∧ s.Generates out) ∧
    ∀ issues, s.generate = .error issues → issues = s.validate ∧ issues ≠ [] := by
  refine ⟨?_, fun hcount hwidth => ?_, fun out hout => ?_, fun issues hissues => ?_⟩
  · rw [← totalBits_eq_sum]
    split_ifs with htotal
    · exact generate?_eq htotal
    · exact generate?_eq_none (not_lt.mp htotal)
  · refine generate?_eq (totalBits_lt_of_length_le hcount fun d hd => ?_)
    exact Nat.le_of_lt_succ (hwidth d hd)
  · obtain ⟨hvalid, block, hblock, rfl⟩ := generate_eq_ok_iff.mp hout
    have haccepted := s.validate_eq_nil_iff.mp hvalid
    rw [generate?_eq haccepted.totalBits_lt, hout]
    exact ⟨rfl, haccepted.generates hblock⟩
  · have hinvalid : s.validate ≠ [] := by
      intro hvalid
      obtain ⟨out, hout⟩ := generate_of_validate_eq_nil hvalid
      rw [hout] at hissues
      cases hissues
    rw [generate_of_validate_ne_nil hinvalid] at hissues
    obtain rfl := Except.error.inj hissues
    exact ⟨rfl, hinvalid⟩

/-- A signed byte of seven bits, whose mask is the largest number of its type, and a flag that is
declared without any bits. -/
def tightByte : Schema :=
  Sample.field "Data" ⟨"i", false⟩ (Sample.i .w8)
    [Sample.part (Sample.u .w8) 7 "low", { Sample.flag "top" with width := 0 }]

theorem usable_tightByte : tightByte.Usable where
  container := Sample.usable_container (by decide)
  field := by decide
  subFields := by decide

theorem generate_stays_in_range_tightByte :
    ∃ out, tightByte.generate = .ok out ∧ tightByte.generate? = some (.ok out) ∧
      tightByte.Generates out ∧
      (∃ m ∈ out.block.members, m.name = ⟨"top", false⟩ ∧ m.docs = [" Bit 7 of `i`."]) ∧
      Implementation.read? out.tokens = some tightByte.implementation ∧
      tightByte.implementation.functions.map (·.name.text) = ["low", "top", "set_i"] := by
  obtain ⟨out, hout⟩ := generate_of_validate_eq_nil (s := tightByte) (by decide)
  obtain ⟨-, -, hok, -⟩ := generate_stays_in_range tightByte
  obtain ⟨hrun, hgenerates⟩ := hok out hout
  obtain ⟨m, hm, hname, hdocs⟩ := (hgenerates.documented 1 _ rfl).getter_of_bool rfl
  exact ⟨out, hout, hrun, hgenerates, ⟨m, hm, hname, hdocs⟩, hgenerates.read usable_tightByte, rfl⟩

/-- A byte with a sub-field whose name is a reserved word and has no mark. -/
def reservedByte : Schema :=
  Sample.field "Data" ⟨"i", false⟩ (Sample.u .w8) [Sample.part (Sample.u .w8) 4 "type"]

/-- A byte with sub-fields of the largest width, more than can be added up. -/
def endlessByte : Schema :=
  Sample.field "Data" ⟨"i", false⟩ (Sample.u .w8)
    (List.replicate (2 ^ 32 + 2) (Sample.part (Sample.u .w8) (2 ^ 32 - 1) "low"))

theorem reserved_getter_unread :
    (∃ out, reservedByte.generate = .ok out ∧ Implementation.read? out.tokens = none ∧
      (Parser.item.runAll out.tokens .nowhere).toOption = none) ∧
    (∀ d ∈ endlessByte.subFields, d.width < 2 ^ 32) ∧ endlessByte.generate? = none := by
  obtain ⟨out, hout⟩ := generate_of_validate_eq_nil (s := reservedByte) (by decide)
  obtain ⟨-, block, hblock, rfl⟩ := generate_eq_ok_iff.mp hout
  refine ⟨⟨_, hout, ?_, ?_⟩, ?_, ?_⟩
  · cases hblock
    decide +kernel
  · cases hblock
    decide +kernel
  · intro d hd
    rw [List.eq_of_mem_replicate hd]
    decide
  · apply generate?_eq_none
    rw [totalBits_eq_sum, endlessByte]
    show 2 ^ 64 ≤ ((List.replicate _ (Sample.part (Sample.u .w8) _ "low")).map (·.bits)).sum
    rw [List.map_replicate, List.sum_replicate]
    decide

end Schema

end PackedFields

import PackedFields.Proofs.Emission
import PackedFields.Proofs.Packing

/-!
# What the mutator writes on the machine

The machine casts each value by its type: the sign of a signed integer fills the bits above it, and
bits past the end of the backing integer are lost. On words a value stands for the number that it
is, modulo a power of two (`Value.word`), so a cast to the backing integer keeps the same bits on
both sides, whatever sign and size the value has. From there on no term of the mutator has a bit
outside the backing integer, and the machine and the words agree (`Expr.Agrees`) step by step. The
old value of the backing integer is nowhere read.
-/

namespace PackedFields

/-! ## Values as words -/

namespace Value

/-- The kind of a value. -/
def kind : Value → Kind
  | bool _ => .bool
  | int t _ => .int t

/-- The number that a value is, modulo the size of a word. -/
def word : Value → Word
  | bool b => Expr.truth b
  | int t b => BitVec.ofInt wordBits (t.toInt b)

end Value

namespace IntType

/-- A cast takes the number that the bits stand for, and keeps the bits that there is room for. -/
theorem convert_eq_ofInt (t u : IntType) (b : BitVec t.bits) :
    t.convert u b = BitVec.ofInt u.bits (t.toInt b) := by
  rw [convert, toInt]
  cases t.signed with
  | true => rfl
  | false =>
    show b.setWidth u.bits = BitVec.ofInt u.bits b.toNat
    rw [BitVec.ofInt_natCast, BitVec.ofNat_toNat]

/-- A cast of an integer agrees with the word for it on all bits that the cast keeps. -/
theorem toNat_convert (t u : IntType) (b : BitVec t.bits) :
    (t.convert u b).toNat = (Value.word (.int t b)).toNat % 2 ^ u.bits := by
  -- no integer is wider than a word, so reducing to a word first takes nothing from the cast
  have hdvd : ((2 ^ u.bits : Nat) : Int) ∣ ((2 ^ wordBits : Nat) : Int) :=
    Int.natCast_dvd_natCast.mpr (pow_dvd_pow 2 u.bits_le)
  rw [convert_eq_ofInt, Value.word, BitVec.toNat_ofInt, BitVec.toNat_ofInt,
    ← Int.emod_emod_of_dvd _ hdvd]
  exact Int.toNat_emod (Int.emod_nonneg _ (by positivity)) (Int.natCast_nonneg _)

end IntType

/-! ## Values by name -/

/-- A name finds the same value in a list of pairs whose values have been changed. -/
theorem lookup_map_snd {α β γ : Type} [BEq α] (f : β → γ) (k : α) (ps : List (α × β)) :
    (ps.map (Prod.map id f)).lookup k = (ps.lookup k).map f := by
  induction ps with
  | nil => rfl
  | cons p ps ih =>
    rw [List.map_cons, List.lookup_cons, List.lookup_cons]
    show (match k == p.1 with | true => _ | false => _) = _
    cases k == p.1 with
    | true => rfl
    | false => exact ih

/-- If values of the right kinds are given for parameters of different names, each parameter finds a
value of its kind. -/
theorem lookup_zip_of_mem {params : List (Name × Kind)} (hnames : (params.map Prod.fst).Nodup)
    {values : List Value} (hkinds : values.map Value.kind = params.map Prod.snd)
    {p : Name × Kind} (hp : p ∈ params) :
    ∃ v, ((params.map Prod.fst).zip values).lookup p.1 = some v ∧ v.kind = p.2 := by
  obtain ⟨i, hi, rfl⟩ := List.getElem_of_mem hp
  have hlen : (params.map Prod.fst).length = values.length := by
    simpa using (congrArg List.length hkinds).symm
  have hv : i < values.length := by simpa [← hlen] using hi
  have hlookup := congrArg (·[i]?) (map_lookup_zip hnames hlen)
  have hkind := congrArg (·[i]?) hkinds
  simp only [List.getElem?_map, List.getElem?_eq_getElem hi, List.getElem?_eq_getElem hv,
    Option.map_some, Option.some.injEq] at hlookup hkind
  exact ⟨values[i], hlookup, hkind⟩

/-! ## The machine and the words -/

namespace Expr

/-- Whether an expression is an integer of type `t` on the machine, with the bits that it has on
words. -/
def Agrees (frame : Frame) (env : Env) (t : IntType) (e : Expr) : Prop :=
  ∃ b : BitVec t.bits, run frame e = some (.int t b) ∧ b.toNat = (eval env e).toNat

section

variable {frame : Frame} {env : Env} {n : Name}

theorem run_param {v : Value} (h : frame.params.lookup n = some v) :
    run frame (param n) = some v := h

theorem run_ofBool {e : Expr} {b : Bool} (he : run frame e = some (.bool b)) (t : IntType) :
    run frame (ofBool e t) = some (.int t (t.ofInt (if b then 1 else 0))) := by
  show (run frame e >>= fun v => match v with
    | .bool b => some (Value.ofInt t (if b then 1 else 0))
    | .int .. => none) = _
  rw [he]
  rfl

theorem run_shiftLeft {e : Expr} {t : IntType} {b : BitVec t.bits}
    (he : run frame e = some (.int t b)) {k : Nat} (hk : k < t.bits) :
    run frame (e.shiftLeft k) = some (.int t (b <<< k)) := by
  rw [shiftLeft]
  split
  · next h => rw [h, BitVec.shiftLeft_zero, he]
  · show (run frame e >>= fun v => v.onInt fun t b =>
      if k < t.bits then some (.int t (b <<< k)) else none) = _
    rw [he]
    exact if_pos hk

theorem runOr_cons {e : Expr} {t : IntType} {a b : BitVec t.bits}
    (he : run frame e = some (.int t b)) (es : List Expr) :
    runOr frame (.int t a) (e :: es) = runOr frame (.int t (a ||| b)) es := by
  show (run frame e >>= fun v => (Value.int t a).or? v >>= fun v => runOr frame v es) = _
  rw [he]
  show ((Value.int t a).or? (Value.int t b) >>= fun v => runOr frame v es) = _
  rw [Value.or?, dif_pos rfl]
  rfl

theorem agrees_cast {u : IntType} {b : BitVec u.bits}
    (hframe : frame.params.lookup n = some (.int u b))
    (henv : env.param n = Value.word (.int u b)) (t : IntType) :
    Agrees frame env t (cast (param n) t) := by
  refine ⟨u.convert t b, run_cast (run_param hframe) t, ?_⟩
  rw [toNat_eval_cast, eval_param, henv, IntType.toNat_convert]

theorem agrees_ofBool {b : Bool} (hframe : frame.params.lookup n = some (.bool b))
    (henv : env.param n = Value.word (.bool b)) (t : IntType) :
    Agrees frame env t (ofBool (param n) t) := by
  refine ⟨_, run_ofBool (run_param hframe) t, ?_⟩
  have hpos : 0 < t.bits := lt_of_lt_of_le (by decide) t.bits_ge
  rw [toNat_eval_ofBool, eval_param, henv, Value.word, toNat_truth]
  cases b <;> simp [IntType.ofInt, hpos]

theorem Agrees.shiftLeft {e : Expr} (he : Agrees frame env env.type e) {k : Nat}
    (hk : k < env.type.bits) : Agrees frame env env.type (e.shiftLeft k) := by
  obtain ⟨b, hrun, hb⟩ := he
  refine ⟨b <<< k, run_shiftLeft hrun hk, ?_⟩
  rw [toNat_eval_shiftLeft env e (hb ▸ b.isLt), BitVec.toNat_shiftLeft, Nat.shiftLeft_eq, hb]

theorem agrees_runOr {t : IntType} {es : List Expr} (hes : ∀ e ∈ es, Agrees frame env t e)
    (a : BitVec t.bits) :
    ∃ b : BitVec t.bits, runOr frame (.int t a) es = some (.int t b) ∧
      b.toNat = a.toNat ||| (evalAll env es).toNat := by
  induction es generalizing a with
  | nil => exact ⟨a, rfl, (Nat.or_zero a.toNat).symm⟩
  | cons e es ih =>
    obtain ⟨⟨b, hrun, hb⟩, hes⟩ := List.forall_mem_cons.mp hes
    obtain ⟨c, hrest, hc⟩ := ih hes (a ||| b)
    refine ⟨c, by rw [runOr_cons hrun, hrest], ?_⟩
    rw [hc, BitVec.toNat_or, hb, evalAll, BitVec.toNat_or, Nat.or_assoc]

/-- If all of some terms agree, then so do their bits together. -/
theorem agrees_or {t : IntType} {es : List Expr} (hne : es ≠ [])
    (hes : ∀ e ∈ es, Agrees frame env t e) : Agrees frame env t (or es) := by
  obtain ⟨e, es, rfl⟩ := List.exists_cons_of_ne_nil hne
  obtain ⟨⟨a, hrun, ha⟩, hes⟩ := List.forall_mem_cons.mp hes
  obtain ⟨b, hrest, hb⟩ := agrees_runOr hes a
  refine ⟨b, ?_, ?_⟩
  · show (run frame e >>= fun v => runOr frame v es) = _
    rw [hrun]
    exact hrest
  · show _ = (eval env e ||| evalAll env es).toNat
    rw [hb, ha, BitVec.toNat_or]

end

end Expr

/-! ## The mutator -/

/-- The terms of the mutator agree, whatever value of the right kind is given. -/
theorem Slot.Fits.agrees_contribution {s : Slot} {frame : Expr.Frame} {env : Expr.Env} {v : Value}
    (h : s.Fits env.type) (hframe : frame.params.lookup s.subField.name.parameter = some v)
    (hkind : v.kind = s.subField.kind) (henv : env.param s.subField.name.parameter = v.word) :
    Expr.Agrees frame env env.type (s.contribution env.type) := by
  have hoffset : s.offset < env.type.bits := by
    have hpos := h.width_pos
    have hinside := h.inside
    omega
  rw [Slot.contribution, ← hkind]
  cases v with
  | bool b => exact (Expr.agrees_ofBool hframe henv env.type).shiftLeft hoffset
  | int t b => exact (Expr.agrees_cast hframe henv env.type).shiftLeft hoffset

namespace Schema

/-- The backing integer after the mutator has been called with the given values, in order, on the
machine. -/
def stored (s : Schema) (old : BitVec s.backing.bits) (values : List Value) : Option Value :=
  s.accessors.mutator.value.run
    { backing := .int s.backing old,
      params := (s.accessors.mutator.params.map Prod.fst).zip values }

variable {s : Schema}

/-- The machine computes the mutator as it is computed on words, whatever is in the backing integer
on either side. -/
theorem Accepted.agrees_mutator (h : s.Accepted) (old : BitVec s.backing.bits) (word : Word)
    {values : List Value}
    (hkinds : values.map Value.kind = s.accessors.mutator.params.map Prod.snd) :
    Expr.Agrees
      { backing := .int s.backing old,
        params := (s.accessors.mutator.params.map Prod.fst).zip values }
      { type := s.backing, backing := word,
        params := (s.accessors.mutator.params.map Prod.fst).zip (values.map Value.word) }
      s.backing s.accessors.mutator.value := by
  have hne : s.slots ≠ [] := mt List.map_eq_nil_iff.mpr h.params_ne_nil
  refine Expr.agrees_or (mt List.map_eq_nil_iff.mp hne) ?_
  intro e he
  obtain ⟨slot, hslot, rfl⟩ := List.mem_map.mp he
  have hparam : (slot.subField.name.parameter, slot.subField.kind) ∈ s.accessors.mutator.params :=
    List.mem_map_of_mem hslot
  obtain ⟨v, hv, hkind⟩ := lookup_zip_of_mem h.nodup_params hkinds hparam
  refine (h.fits hslot).agrees_contribution hv hkind ?_
  rw [Expr.Env.param, List.zip_map_right, lookup_map_snd, hv, Option.map_some, Option.getD_some]

theorem mutatorMember_mem {block : MemberBlock} (h : s.memberBlock = .ok block) :
    s.mutatorMember s.slots s.accessors.mutator ∈ block.members := by
  rw [memberBlock] at h
  cases hshared : s.sharedMembers with
  | error d =>
    rw [hshared] at h
    cases h
  | ok members =>
    rw [hshared] at h
    cases h
    exact List.mem_append_right _ (List.mem_singleton_self _)

open Code in
/-- The body of the mutator stores its expression, written out, in the field of the instance or in
the cell of a shared field; and with usable names the mutator reads back as a function that takes
its parameters and stores just that expression. Whatever values of the declared kinds are given,
numbers that are negative or have more bits than their sub-field among them, the expression then has
a backing integer as its value, and its bits are those that are computed on words from the values
modulo the size of a word. The old value of the backing integer has no part in it. -/
theorem stored_agrees_written (s : Schema) (h : s.validate = []) (values : List Value)
    (hkinds : values.map Value.kind = s.accessors.mutator.params.map Prod.snd) :
    (∃ block, s.memberBlock = .ok block ∧
      s.mutatorMember s.slots s.accessors.mutator ∈ block.members ∧
      (s.mutatorMember s.slots s.accessors.mutator).body =
        (if s.shared then ownCall s.cellName ++ [sign '.', word "store",
          parens (s.accessors.mutator.value.tokens s.readTokens ++ [sign ','] ++ relaxed),
          sign ';']
        else [word "self", sign '.', name s.field, sign '='] ++
          s.accessors.mutator.value.tokens s.readTokens ++ [sign ';']) ∧
      (s.Usable → Function.readAll? (s.mutatorMember s.slots s.accessors.mutator).tokens =
        some [s.mutatorFunction])) ∧
    ∃ new : BitVec s.backing.bits, ∀ old word,
      s.stored old values = some (.int s.backing new) ∧
        s.written word (values.map Value.word) = new.setWidth wordBits := by
  have haccepted := s.validate_eq_nil_iff.mp h
  obtain ⟨block, hblock, -⟩ := haccepted.memberBlock_eq
  refine ⟨⟨block, hblock, mutatorMember_mem hblock, rfl, fun hnames => ?_⟩, ?_⟩
  · have hread := Member.readAll?_tokens
      (.cons (hnames.reads_mutator haccepted.params_ne_nil) .nil)
    rwa [List.flatMap_singleton] at hread
  obtain ⟨new, hnew, hbits⟩ := haccepted.agrees_mutator 0 0 hkinds
  refine ⟨new, fun old word => ⟨?_, ?_⟩⟩
  -- each side agrees with the other at 0, so neither depends on what was there before
  · obtain ⟨b, hb, hold⟩ := haccepted.agrees_mutator old 0 hkinds
    rw [stored, hb, BitVec.toNat_inj.mp (hold.trans hbits.symm)]
  · obtain ⟨b, hb, hword⟩ := haccepted.agrees_mutator 0 word hkinds
    rw [hnew] at hb
    cases hb
    rw [← BitVec.toNat_inj, BitVec.toNat_setWidth_of_le s.backing.bits_le]
    exact hword.symm

/-- A signed byte of three sub-fields. -/
def crowdedByte : Schema :=
  Sample.field "Data" ⟨"i", false⟩ (Sample.i .w8)
    [Sample.part (Sample.u .w16) 3 "lo", Sample.flag "mid", Sample.part (Sample.i .w16) 4 "hi"]

/-- A number that is too large, a truth value and a negative number. -/
def crowd : List Value :=
  [.ofInt (Sample.u .w16) 0x102, .bool true, .ofInt (Sample.i .w16) (-2)]

theorem usable_crowdedByte : crowdedByte.Usable where
  container := Sample.usable_container (by decide)
  field := by decide
  subFields := by decide +kernel

theorem stored_agrees_written_crowdedByte :
    crowdedByte.validate = [] ∧
      Function.readAll?
        (crowdedByte.mutatorMember crowdedByte.slots crowdedByte.accessors.mutator).tokens =
          some [crowdedByte.mutatorFunction] ∧
      ∀ old word,
        crowdedByte.stored old crowd = some (.int crowdedByte.backing 0xEA) ∧
          crowdedByte.written word [0x102, 1, -2] = 0xEA := by
  have hvalid : crowdedByte.validate = [] := by decide
  obtain ⟨⟨-, -, -, -, hread⟩, new, hnew⟩ := stored_agrees_written crowdedByte hvalid crowd rfl
  have hvalue : crowdedByte.stored 0 crowd = some (.int crowdedByte.backing 0xEA) := by decide
  rw [(hnew 0 0).1, Option.some.injEq, Value.int.injEq] at hvalue
  rw [eq_of_heq hvalue.2] at hnew
  exact ⟨hvalid, hread usable_crowdedByte, hnew⟩

end Schema

end PackedFields

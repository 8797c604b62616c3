import PackedFields.Proofs.Reader

/-!
# Names in what is read

A reserved word can stand for nothing in an expression, and the reader of terms takes none for an
operand: `Term.sound_of_read?`. Whatever the reader does with operators and casts, it only puts
together what it has read as operands.
-/

namespace PackedFields

/-- What a traversal has found comes from an element. -/
theorem exists_of_mem_mapM {α β : Type} {f : α → Option β} {xs : List α} {ys : List β} {y : β}
    (h : xs.mapM f = some ys) (hy : y ∈ ys) : ∃ x ∈ xs, f x = some y := by
  induction xs generalizing ys with
  | nil =>
    cases h
    cases hy
  | cons x xs ih =>
    rw [List.mapM_cons] at h
    obtain ⟨z, hz, h⟩ := Option.bind_eq_some_iff.mp h
    obtain ⟨zs, hzs, h⟩ := Option.bind_eq_some_iff.mp h
    cases h
    rcases List.mem_cons.mp hy with rfl | hy
    · exact ⟨x, List.mem_cons_self, hz⟩
    · obtain ⟨x', hx', hfound⟩ := ih hzs hy
      exact ⟨x', List.mem_cons_of_mem x hx', hfound⟩

namespace Term

mutual

/-- The names that are operands in a term. -/
def names : Term → List Name
  | name n => [n]
  | number _ => []
  | written _ => []
  | conversion _ argument => names argument
  | cast operand _ => names operand
  | binary _ left right => names left ++ names right
  | or terms => namesAll terms

/-- The names that are operands in the terms. -/
def namesAll : List Term → List Name
  | [] => []
  | t :: ts => names t ++ namesAll ts

end

/-- Whether all names in a term are operands. -/
def Sound (t : Term) : Prop := ∀ n ∈ t.names, n.isOperand = true

variable {t u : Term} {ts : List Term}

theorem sound_binary (operator : String) (ht : t.Sound) (hu : u.Sound) :
    (binary operator t u).Sound :=
  fun n hn => (List.mem_append.mp hn).elim (ht n) (hu n)

theorem sound_or (h : ∀ t ∈ ts, t.Sound) : (or ts).Sound := by
  induction ts with
  | nil => exact fun n hn => absurd hn List.not_mem_nil
  | cons t ts ih =>
    obtain ⟨ht, hts⟩ := List.forall_mem_cons.mp h
    exact fun n hn => (List.mem_append.mp hn).elim (ht n) (ih hts n)

theorem sound_applied {p : Precedence} {more : List (String × Term)} (ht : t.Sound)
    (hmore : ∀ q ∈ more, q.2.Sound) (h : applied p t more = some u) : u.Sound := by
  cases more with
  | nil =>
    cases h
    exact ht
  | cons q more =>
    obtain ⟨m, second⟩ := q
    obtain ⟨hsecond, hrest⟩ := List.forall_mem_cons.mp hmore
    have hbinary := sound_binary m ht hsecond
    simp only [applied] at h
    split at h
    · cases h
      refine sound_or ?_
      rw [List.forall_mem_cons, List.forall_mem_cons, List.forall_mem_map]
      exact ⟨ht, hsecond, hrest⟩
    · split_ifs at h
      cases h
      exact hbinary
    · cases h
      clear ht hsecond hmore
      generalize binary m t second = first at hbinary ⊢
      induction more generalizing first with
      | nil => exact hbinary
      | cons r more ih =>
        obtain ⟨hr, hrest⟩ := List.forall_mem_cons.mp hrest
        exact ih hrest _ (sound_binary r.1 hbinary hr)

theorem mem_of_mem_cutAt (p : Precedence) (tails : List Tail) :
    (∀ x ∈ (cutAt p tails).1, x ∈ tails) ∧
      ∀ g ∈ (cutAt p tails).2, g.1 ∈ tails ∧ ∀ x ∈ g.2, x ∈ tails := by
  induction tails with
  | nil => exact ⟨fun _ h => h, fun _ h => absurd h List.not_mem_nil⟩
  | cons x tails ih =>
    obtain ⟨hown, hgroups⟩ := ih
    have hlater : ∀ g ∈ (cutAt p tails).2, g.1 ∈ x :: tails ∧ ∀ y ∈ g.2, y ∈ x :: tails :=
      fun g hg => ⟨List.mem_cons_of_mem x (hgroups g hg).1,
        fun y hy => List.mem_cons_of_mem x ((hgroups g hg).2 y hy)⟩
    rw [cutAt]
    dsimp only
    split_ifs
    · refine ⟨fun y hy => absurd hy List.not_mem_nil, List.forall_mem_cons.mpr ⟨?_, hlater⟩⟩
      exact ⟨List.mem_cons_self, fun y hy => List.mem_cons_of_mem x (hown y hy)⟩
    · refine ⟨List.forall_mem_cons.mpr ⟨List.mem_cons_self, ?_⟩, hlater⟩
      exact fun y hy => List.mem_cons_of_mem x (hown y hy)

theorem sound_resolve {ps : List Precedence} {tails : List Tail} (ht : t.Sound)
    (htails : ∀ x ∈ tails, x.operand.Sound) (h : resolve ps t tails = some u) : u.Sound := by
  induction ps generalizing t tails u with
  | nil =>
    rw [resolve] at h
    split_ifs at h
    cases h
    exact ht
  | cons p ps ih =>
    obtain ⟨hown, hgroups⟩ := mem_of_mem_cutAt p tails
    rw [resolve] at h
    obtain ⟨first, hfirst, h⟩ := Option.bind_eq_some_iff.mp h
    obtain ⟨rights, hrights, h⟩ := Option.bind_eq_some_iff.mp h
    refine sound_applied (ih ht (fun x hx => htails x (hown x hx)) hfirst) ?_ h
    intro q hq
    obtain ⟨g, hg, hright⟩ := exists_of_mem_mapM hrights hq
    obtain ⟨right, hresolve, hpair⟩ := Option.bind_eq_some_iff.mp hright
    cases hpair
    obtain ⟨hhead, htail⟩ := hgroups g hg
    exact ih (htails g.1 hhead) (fun x hx => htails x (htail x hx)) hresolve

end Term

/-- Whether all names are operands in what stands in the parentheses of a leaf. -/
def Leaf.Sound (l : Leaf) : Prop := ∀ t, l.inner? = some t → t.Sound

theorem Term.sound_written (ts : List Token) : (written ts).Sound :=
  fun _ hn => absurd hn List.not_mem_nil

section Sound

variable {l : Leaf} {ls : List Leaf} {t u : Term}

theorem Leaf.sound_of_operand? (hl : l.Sound) (h : l.operand? = some t) : t.Sound := by
  obtain ⟨token, inner⟩ := l
  cases token with
  | ident n s =>
    simp only [operand?] at h
    split_ifs at h with hoperand
    · cases h
      exact List.forall_mem_singleton.mpr hoperand
    · cases h
      exact Term.sound_written _
  | punct => cases h
  | literal spelling s =>
    cases hwhole : Literal.whole? spelling with
    | none =>
      simp only [operand?, hwhole] at h
      cases h
      exact Term.sound_written _
    | some k =>
      simp only [operand?, hwhole] at h
      cases h
      exact fun _ hn => absurd hn List.not_mem_nil
  | group d ts o c =>
    cases d with
    | paren =>
      cases inner with
      | none =>
        cases h
        exact Term.sound_written _
      | some u =>
        cases h
        exact hl u rfl
    | bracket =>
      cases h
      exact Term.sound_written _
    | brace => cases h

theorem sound_of_conversion? (hls : ∀ l ∈ ls, l.Sound) (h : conversion? ls = some t) :
    t.Sound := by
  unfold conversion? at h
  split at h
  · next argument =>
    split_ifs at h
    obtain ⟨type, -, rfl⟩ := Option.map_eq_some_iff.mp h
    exact hls _ (List.mem_of_getLast? rfl) argument rfl
  · cases h

theorem sound_of_operand? (hls : ∀ l ∈ ls, l.Sound) (h : operand? ls = some t) : t.Sound := by
  unfold operand? at h
  split at h
  · next l => exact Leaf.sound_of_operand? (hls l List.mem_cons_self) h
  · cases hconversion : conversion? ls with
    | some c =>
      simp only [hconversion, Option.some_or, Option.some.injEq] at h
      subst h
      exact sound_of_conversion? hls hconversion
    | none =>
      simp only [hconversion, Option.none_or] at h
      split_ifs at h
      cases h
      exact Term.sound_written _

theorem sound_of_casts? (ht : t.Sound) (h : casts? t ls = some u) : u.Sound := by
  fun_induction casts? t ls with
  | case1 t =>
    cases h
    exact ht
  | case2 t as s t' s' ls has ih =>
    obtain ⟨type, -, h⟩ := Option.bind_eq_some_iff.mp h
    exact ih type ht h
  | case3 => cases h
  | case4 => cases h

theorem sound_of_piece? {next? : Option String} (hls : ∀ l ∈ ls, l.Sound)
    (h : piece? next? ls = some t) : t.Sound := by
  cases ls with
  | nil => cases h
  | cons l ls =>
    obtain ⟨operand, hoperand, h⟩ := Option.bind_eq_some_iff.mp h
    have hsound : operand.Sound := by
      refine sound_of_operand? (fun k hk => hls k ?_) hoperand
      rcases List.mem_cons.mp hk with rfl | hk
      · exact List.mem_cons_self
      · exact List.mem_cons_of_mem l ((List.takeWhile_sublist _).subset hk)
    split_ifs at h
    exact sound_of_casts? hsound h

theorem mem_of_mem_splitOperators (skip : Nat) (ls : List Leaf) :
    (∀ k ∈ (splitOperators skip ls).1, k ∈ ls) ∧
      ∀ piece ∈ (splitOperators skip ls).2, ∀ k ∈ piece.2, k ∈ ls := by
  fun_induction splitOperators skip ls with
  | case1 => exact ⟨fun _ h => h, fun _ h => absurd h List.not_mem_nil⟩
  | case2 skip l ls ih =>
    exact ⟨fun k hk => List.mem_cons_of_mem l (ih.1 k hk),
      fun piece hpiece k hk => List.mem_cons_of_mem l (ih.2 piece hpiece k hk)⟩
  | case3 l ls op hop own more hsplit ih =>
    rw [hsplit] at ih
    refine ⟨fun k hk => absurd hk List.not_mem_nil, List.forall_mem_cons.mpr ⟨?_, ?_⟩⟩
    · exact fun k hk => List.mem_cons_of_mem l (ih.1 k hk)
    · exact fun piece hpiece k hk => List.mem_cons_of_mem l (ih.2 piece hpiece k hk)
  | case4 l ls hop own more hsplit ih =>
    rw [hsplit] at ih
    refine ⟨List.forall_mem_cons.mpr ⟨List.mem_cons_self, ?_⟩, ?_⟩
    · exact fun k hk => List.mem_cons_of_mem l (ih.1 k hk)
    · exact fun piece hpiece k hk => List.mem_cons_of_mem l (ih.2 piece hpiece k hk)

theorem sound_of_operands? {more : List ((String × Precedence) × List Leaf)} {tails : List Tail}
    (hls : ∀ l ∈ ls, l.Sound) (hmore : ∀ piece ∈ more, ∀ l ∈ piece.2, l.Sound)
    (h : operands? ls more = some (t, tails)) :
    t.Sound ∧ ∀ x ∈ tails, x.operand.Sound := by
  induction more generalizing ls t tails with
  | nil =>
    obtain ⟨first, hfirst, h⟩ := Option.bind_eq_some_iff.mp h
    cases h
    exact ⟨sound_of_piece? hls hfirst, fun x hx => absurd hx List.not_mem_nil⟩
  | cons piece more ih =>
    obtain ⟨hpiece, hrest⟩ := List.forall_mem_cons.mp hmore
    obtain ⟨first, hfirst, h⟩ := Option.bind_eq_some_iff.mp h
    obtain ⟨⟨second, tails'⟩, hsecond, h⟩ := Option.bind_eq_some_iff.mp h
    cases h
    obtain ⟨hsound, htails⟩ := ih hpiece hrest hsecond
    exact ⟨sound_of_piece? hls hfirst, List.forall_mem_cons.mpr ⟨hsound, htails⟩⟩

theorem sound_of_expression? (hls : ∀ l ∈ ls, l.Sound) (h : expression? ls = some t) :
    t.Sound := by
  obtain ⟨hown, hmore⟩ := mem_of_mem_splitOperators 0 ls
  rw [expression?_eq_bind] at h
  obtain ⟨⟨first, tails⟩, hread, h⟩ := Option.bind_eq_some_iff.mp h
  obtain ⟨hfirst, htails⟩ := sound_of_operands? (fun l hl => hls l (hown l hl))
    (fun piece hpiece l hl => hls l (hmore piece hpiece l hl)) hread
  exact Term.sound_resolve hfirst htails h

end Sound

mutual

theorem Leaf.sound_ofToken (t : Token) : (Leaf.ofToken t).Sound := by
  cases t with
  | ident | punct | literal => exact fun _ h => by cases h
  | group d inner o c =>
    intro u h
    rw [ofToken] at h
    dsimp only at h
    split_ifs at h
    exact sound_of_expression? (Leaf.sound_ofTokens inner) h

theorem Leaf.sound_ofTokens (ts : List Token) : ∀ l ∈ Leaf.ofTokens ts, l.Sound := by
  cases ts with
  | nil => exact fun _ h => absurd h List.not_mem_nil
  | cons t ts => exact List.forall_mem_cons.mpr ⟨Leaf.sound_ofToken t, Leaf.sound_ofTokens ts⟩

end

/-- All names in what is read are operands. -/
theorem Term.sound_of_read? {ts : List Token} {t : Term} (h : read? ts = some t) : t.Sound :=
  sound_of_expression? (Leaf.sound_ofTokens ts) h

end PackedFields

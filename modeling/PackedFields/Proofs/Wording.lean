import PackedFields.Diagnostic
import PackedFields.Proofs.Word

/-!
# Wordings

The wording of an issue sets everything it speaks of apart: names and types stand between backticks,
which none of them has, and numbers stand between words. So the wording can be taken to pieces at
the backticks (`Text.pieces`), and the pieces give the issue back: two issues under one code that
are worded alike are the same (`Issue.eq_of_message_eq`).
-/

namespace PackedFields

/-! ## Texts in pieces -/

namespace Text

/-- A backtick. -/
def tick : Char := '\x60'

/-- The pieces of a text between backticks. -/
def pieces (s : String) : List String := (s.toList.splitOn tick).map String.ofList

@[simp] theorem pieces_tick : pieces "`" = ["", ""] := by
  decide

@[simp] theorem pieces_tick_append (s : String) : pieces ("`" ++ s) = "" :: pieces s := by
  have hcons : ("`" ++ s).toList = tick :: s.toList := by
    rw [String.toList_append]
    rfl
  rw [pieces, hcons, List.splitOn, List.splitOnP_cons_eq_if_modifyHead, if_pos (by decide)]
  rfl

/-- A text without backticks belongs to the first piece of what follows it. -/
@[simp] theorem pieces_append {a : String} (ha : tick ∉ a.toList) (s : String) :
    pieces (a ++ s) = (pieces s).modifyHead (a ++ ·) := by
  have hsplit : ∀ cs : List Char, tick ∉ cs →
      (cs ++ s.toList).splitOn tick = (s.toList.splitOn tick).modifyHead (cs ++ ·) := by
    intro cs hcs
    induction cs with
    | nil =>
      rw [List.nil_append]
      cases s.toList.splitOn tick <;> rfl
    | cons c cs ih =>
      obtain ⟨hc, hcs⟩ := List.ne_and_not_mem_of_not_mem_cons hcs
      rw [List.cons_append, List.splitOn, List.splitOnP_cons_eq_if_modifyHead,
        if_neg (by simpa using hc.symm), ← List.splitOn, ih hcs, List.modifyHead_modifyHead]
      rfl
  rw [pieces, String.toList_append, hsplit a.toList ha, pieces]
  cases s.toList.splitOn tick with
  | nil => rfl
  | cons first rest => simp [String.ofList_append]

@[simp] theorem pieces_of_not_mem {a : String} (ha : tick ∉ a.toList) : pieces a = [a] := by
  have hempty : pieces "" = [""] := by decide
  rw [← String.append_empty (s := a), pieces_append ha, hempty]
  rfl

/-- The pieces make up the text again. -/
theorem pieces_inj {a b : String} : pieces a = pieces b ↔ a = b := by
  refine ⟨fun h => ?_, congrArg _⟩
  have hlists := List.map_injective_iff.mpr (fun _ _ => String.ofList_injective) h
  have hchars := congrArg (List.intercalate [tick]) hlists
  rwa [List.intercalate_splitOn, List.intercalate_splitOn, String.toList_inj] at hchars

@[simp] theorem pieces_append_tick {a b : String} :
    pieces (a ++ "`") = pieces (b ++ "`") ↔ a = b := by
  rw [pieces_inj, String.append_left_inj]

end Text

/-! ## Names, types and numbers -/

@[simp] theorem repr_inj {m n : Nat} : m.repr = n.repr ↔ m = n := by
  refine ⟨fun h => ?_, congrArg _⟩
  have hdigits := congrArg String.toList h
  rw [Nat.toList_repr, Nat.toList_repr] at hdigits
  have hnumber := congrArg (Nat.ofDigitChars 10 · 0) hdigits
  simpa only [Nat.ofDigitChars_ten_toDigits] using hnumber

@[simp] theorem tick_not_mem_toDigits (n : Nat) : Text.tick ∉ Nat.toDigits 10 n := fun h =>
  absurd (Nat.isDigit_of_mem_toDigits (by decide) (by decide) h) (by decide)

/-- A type is known by its name. -/
theorem IntType.ofName?_name (t : IntType) : ofName? t.name = some t := by
  obtain ⟨signed, size⟩ := t
  cases signed <;> cases size <;> decide

@[simp] theorem IntType.name_inj {t u : IntType} : t.name = u.name ↔ t = u := by
  refine ⟨fun h => ?_, congrArg _⟩
  have hsome := t.ofName?_name
  rw [h, u.ofName?_name] at hsome
  exact (Option.some.inj hsome).symm

@[simp] theorem IntType.tick_not_mem_name (t : IntType) : Text.tick ∉ t.name.toList := by
  obtain ⟨signed, size⟩ := t
  cases signed <;> cases size <;> decide

namespace Name

/-- Whether a name can stand between backticks, and shows whether it is marked. -/
def Plain (n : Name) : Prop := Text.tick ∉ n.text.toList ∧ '#' ∉ n.text.toList

theorem plain_of_isToken {n : Name} (h : n.isToken) : n.Plain := by
  have htext : isText n.text := (Bool.and_eq_true_iff.mp h).1
  have hnot : ∀ c : Char, Text.opensName c = false → Text.continuesName c = false →
      c ∉ n.text.toList := by
    intro c hopens hcontinues hmem
    rw [isText] at htext
    cases hchars : n.text.toList with
    | nil => simp [hchars] at hmem
    | cons first rest =>
      rw [hchars] at htext hmem
      obtain ⟨hfirst, hrest⟩ := Bool.and_eq_true_iff.mp htext
      rcases List.mem_cons.mp hmem with rfl | hmem
      · rw [hfirst] at hopens
        cases hopens
      · rw [List.all_eq_true.mp hrest c hmem] at hcontinues
        cases hcontinues
  exact ⟨hnot _ (by decide +kernel) (by decide +kernel),
    hnot _ (by decide +kernel) (by decide +kernel)⟩

@[simp] theorem Plain.tick_not_mem {n : Name} (h : n.Plain) : Text.tick ∉ n.spelling.toList := by
  have hmark : Text.tick ∉ "r#".toList := by decide
  rw [spelling]
  split
  · rw [String.toList_append, List.mem_append]
    exact not_or.mpr ⟨hmark, h.1⟩
  · exact h.1

/-- A name is known by its spelling. -/
@[simp] theorem Plain.spelling_inj {m n : Name} (hm : m.Plain) (hn : n.Plain) :
    m.spelling = n.spelling ↔ m = n := by
  refine ⟨fun h => ?_, congrArg _⟩
  obtain ⟨mtext, mraw⟩ := m
  obtain ⟨ntext, nraw⟩ := n
  have hmark : '#' ∈ "r#".toList := by decide
  have hmarked : ∀ text, '#' ∈ ("r#" ++ text).toList := by
    intro text
    rw [String.toList_append]
    exact List.mem_append_left _ hmark
  cases mraw <;> cases nraw <;>
    simp only [spelling, if_true, if_false, Bool.false_eq_true, String.append_right_inj] at h
  · rw [h]
  · exact absurd (h ▸ hmarked ntext) hm.2
  · exact absurd (h ▸ hmarked mtext) hn.2
  · rw [h]

end Name

/-! ## Issues -/

namespace Issue

/-- Whether the names that an issue speaks of, in the words of a schema about itself, are plain. -/
def Plain : Issue → Prop
  | noSubFields f => f.Plain
  | noAtomic f _ => f.Plain
  | overflow f _ _ first _ => f.Plain ∧ first.Plain
  | zeroWidth d => d.Plain
  | wide d _ _ => d.Plain
  | declaredTwice d f first => d.Plain ∧ f.Plain ∧ first.Plain
  | sameParameter a b _ => a.Plain ∧ b.Plain
  | namedAsMutator d m => d.Plain ∧ m.Plain
  | namedAsField d f => d.Plain ∧ f.Plain
  | _ => False

/-- Issues under one code that are worded alike are the same. -/
theorem eq_of_message_eq {i j : Issue} (hi : i.Plain) (hj : j.Plain) (hcode : i.code = j.code)
    (h : i.message = j.message) : i = j := by
  have hpieces := congrArg Text.pieces h
  clear h
  unfold message at hpieces
  cases i <;> simp only [Plain] at hi <;> cases j <;> simp only [Plain] at hj <;>
    simp only [code, reduceCtorEq] at hcode
  -- the two wordings go to pieces, and these are compared one by one
  all_goals
    simp +decide only [shown, ticked, String.append_assoc, Text.pieces_tick,
      Text.pieces_tick_append, Text.pieces_append, Text.pieces_of_not_mem,
      Name.Plain.tick_not_mem, IntType.tick_not_mem_name, Nat.toString_eq_repr, Nat.toList_repr,
      tick_not_mem_toDigits, List.modifyHead, not_false_eq_true, hi, hj] at hpieces
  all_goals simp [hi, hj] at hpieces ⊢
  all_goals tauto

end Issue

end PackedFields

import PackedFields.Proofs.Tagging

/-!
# Letters of a name

A tag should be a letter of the name that it stands for: the first one that is left (`ownTag`). The
mark of a name is no part of it, but the search for a letter goes over the name as it is written. So
a marked name comes to the `R` of its mark first, if no name before it has that tag; and the tags
after it follow from that.
-/

namespace PackedFields

/-- A slot for the same sub-field, whose name is written with a mark if `raw`. -/
def Slot.written (slot : Slot) (raw : Bool) : Slot :=
  { slot with subField := { slot.subField with name := { slot.subField.name with raw } } }

namespace Diagram

/-- Whether a letter can give a tag when the tags `earlier` are given: its capital looks like no
other letter and is left. -/
def canTag (earlier : List Char) (c : Char) : Bool :=
  c.isAlpha && (!ambiguous.contains c.toUpper && !earlier.contains c.toUpper)

/-- The tag that a text asks for when the tags `earlier` are given: the capital of its first letter
that can give one, and only for want of such a letter the first of the palette that is left. -/
def ownTag (earlier : List Char) (text : String) : Char :=
  match text.toList.find? (canTag earlier) with
  | some c => c.toUpper
  | none => (palette.find? (!earlier.contains ·)).getD exhausted

variable {earlier : List Char} {n : Name}

theorem ownTag_reverse (earlier : List Char) (text : String) :
    ownTag earlier.reverse text = ownTag earlier text := by
  have hcan : canTag earlier.reverse = canTag earlier := by
    funext c
    rw [canTag, canTag, List.contains_reverse]
  simp only [ownTag, hcan, List.contains_reverse]

/-! ## The name as it is written -/

theorem isLetter_eq_isAlpha (c : Char) : isLetter c = c.isAlpha := by
  simp only [isLetter, Char.isAlpha, Char.isLower, Char.isUpper, Char.le_def, Bool.decide_and,
    ge_iff_le]
  rw [Bool.or_comm]

theorem capital_eq_toUpper {c : Char} (hc : isLetter c) : capital c = c.toUpper := by
  have hall : ∀ n < 128, isLetter (Char.ofNat n) →
      capital (Char.ofNat n) = (Char.ofNat n).toUpper := by decide +kernel
  have hcode := hall c.toNat (toNat_lt_of_isLetter hc)
  rw [Char.ofNat_toNat] at hcode
  exact hcode hc

/-- The search goes over all that is written. -/
theorem tagFor_eq_ownTag (earlier : List Char) (spelling : String) :
    tagFor earlier spelling = ownTag earlier spelling := by
  have hcan : ∀ c,
      (isLetter c && (!ambiguous.contains (capital c) && !earlier.contains (capital c))) =
        canTag earlier c := by
    intro c
    rw [canTag, ← isLetter_eq_isAlpha]
    cases hc : isLetter c with
    | false => rfl
    | true => rw [capital_eq_toUpper hc]
  have hfirst : ((spelling.toList.filter isLetter).map capital).find? (fun c =>
      !ambiguous.contains c && !earlier.contains c) =
        (spelling.toList.find? (canTag earlier)).map capital := by
    rw [List.find?_map, List.find?_filter]
    simp only [Function.comp_apply, Bool.decide_and, Bool.decide_eq_true, hcan]
  rw [tagFor_eq, hfirst, ownTag]
  cases hfound : spelling.toList.find? (canTag earlier) with
  | none => rfl
  | some c =>
    have hc := List.find?_some hfound
    rw [canTag, ← isLetter_eq_isAlpha, Bool.and_eq_true] at hc
    exact capital_eq_toUpper hc.1

/-- A mark comes first, and has one letter. -/
theorem ownTag_marked (earlier : List Char) (text : String) :
    ownTag earlier ("r#" ++ text) = if 'R' ∈ earlier then ownTag earlier text else 'R' := by
  have hchars : ("r#" ++ text).toList = 'r' :: '#' :: text.toList := by
    rw [String.toList_append]
    rfl
  have hsign : canTag earlier '#' = false := rfl
  have hletter : canTag earlier 'r' = !earlier.contains 'R' := rfl
  rw [ownTag, hchars, List.find?_cons, List.find?_cons, hsign, hletter]
  by_cases hR : 'R' ∈ earlier
  · rw [if_pos hR, List.contains_iff_mem.mpr hR]
    rfl
  · rw [if_neg hR, Bool.eq_false_iff.mpr (mt List.contains_iff_mem.mp hR)]
    rfl

theorem tagFor_spelling (earlier : List Char) (n : Name) :
    tagFor earlier n.spelling =
      if n.raw = true ∧ 'R' ∉ earlier then 'R' else ownTag earlier n.text := by
  rw [tagFor_eq_ownTag, Name.spelling]
  cases n.raw with
  | false => simp
  | true =>
    simp only [if_true, true_and, ownTag_marked, ite_not]

/-- A tag is the letter that the name asks for, unless the mark of the name comes before that. -/
theorem tagFor_spelling_eq_iff (earlier : List Char) (n : Name) :
    tagFor earlier n.spelling = ownTag earlier n.text ↔
      ¬ (n.raw = true ∧ 'R' ∉ earlier ∧ ownTag earlier n.text ≠ 'R') := by
  rw [tagFor_spelling]
  by_cases hmark : n.raw = true ∧ 'R' ∉ earlier
  · rw [if_pos hmark, eq_comm]
    simp [hmark]
  · rw [if_neg hmark]
    simpa using fun hraw hR => absurd ⟨hraw, hR⟩ hmark

/-! ## One name among others -/

theorem tagsFrom_append (taken : List Char) (ns ms : List String) :
    tagsFrom taken (ns ++ ms) =
      tagsFrom taken ns ++ tagsFrom ((tagsFrom taken ns).reverse ++ taken) ms := by
  induction ns generalizing taken with
  | nil => rfl
  | cons n ns ih =>
    rw [List.cons_append, tagsFrom, ih, tagsFrom, List.cons_append, List.reverse_cons,
      List.append_assoc]
    rfl

/-- What comes after a name follows from the tag of the name. -/
theorem tagsFrom_cons_inj {taken : List Char} {m n : String} {ns : List String} :
    tagsFrom taken (m :: ns) = tagsFrom taken (n :: ns) ↔ tagFor taken m = tagFor taken n := by
  rw [tagsFrom, tagsFrom]
  constructor
  · exact fun h => (List.cons.inj h).1
  · intro h
    rw [h]

theorem tags_append_cons (before : List Slot) (slot : Slot) (after : List Slot) :
    tags (before ++ slot :: after) = tags before ++
      tagsFrom (tags before).reverse (slot.subField.name.spelling ::
        after.map (·.subField.name.spelling)) := by
  rw [tags_eq, List.map_append, List.map_cons, tagsFrom_append, ← tags_eq, List.append_nil]

/-- A mark changes no tag just in case `R` is not left, or is what the text asks for. -/
theorem tags_written_eq_iff (before : List Slot) (slot : Slot) (after : List Slot) :
    tags (before ++ slot.written true :: after) = tags (before ++ slot.written false :: after) ↔
      'R' ∈ tags before ∨ ownTag (tags before) slot.subField.name.text = 'R' := by
  have hmarked : (slot.written true).subField.name.spelling = "r#" ++ slot.subField.name.text := rfl
  have hplain : (slot.written false).subField.name.spelling = slot.subField.name.text := rfl
  rw [tags_append_cons, tags_append_cons, List.append_cancel_left_eq, tagsFrom_cons_inj, hmarked,
    hplain, tagFor_eq_ownTag, tagFor_eq_ownTag, ownTag_marked, ownTag_reverse]
  by_cases hR : 'R' ∈ tags before
  · simp [hR]
  · simp [hR, eq_comm]

/-- The tag of a sub-field is the one that its name asks for by its text, unless the name is marked,
`R` is left when it is asked for, and the text asks for another letter. So a mark that is put to a
name or taken from it changes no tag just in case `R` is not left, or is what the text asks for. -/
theorem tags_prefer_text_iff (slots : List Slot) :
    (∀ k slot tag, slots[k]? = some slot → (tags slots)[k]? = some tag →
      (tag = ownTag ((tags slots).take k) slot.subField.name.text ↔
        ¬ (slot.subField.name.raw = true ∧ 'R' ∉ (tags slots).take k ∧
          ownTag ((tags slots).take k) slot.subField.name.text ≠ 'R'))) ∧
    ∀ before slot after, slots = before ++ slot :: after →
      (tags (before ++ slot.written (!slot.subField.name.raw) :: after) = tags slots ↔
        'R' ∈ tags before ∨ ownTag (tags before) slot.subField.name.text = 'R') := by
  constructor
  · intro k slot tag hslot htag
    rw [tags_eq] at htag ⊢
    obtain ⟨n, hn, rfl⟩ := exists_tagFor_of_getElem? htag
    rw [List.getElem?_map, hslot] at hn
    obtain rfl := Option.some.inj hn
    have hiff := tagFor_spelling_eq_iff
      ((tagsFrom [] (slots.map (·.subField.name.spelling))).take k).reverse slot.subField.name
    rw [ownTag_reverse, List.mem_reverse] at hiff
    exact hiff
  · rintro before slot after rfl
    have hiff := tags_written_eq_iff before slot after
    have hslot : slot.written slot.subField.name.raw = slot := rfl
    cases hraw : slot.subField.name.raw with
    | true =>
      rw [hraw] at hslot
      rw [hslot, eq_comm] at hiff
      exact hiff
    | false =>
      rw [hraw] at hslot
      rw [hslot] at hiff
      exact hiff

/-- Where `R` is a tag already, a marked name has the letter that its text asks for. -/
theorem tags_prefer_text_iff_ready :
    let ready : Slot := ⟨Sample.flag "ready", 0, 1⟩
    let four : Slot := ⟨Sample.part (Sample.u .w8) 4 "type", 1, 4⟩
    (tags [ready, four.written true])[1]? = some 'T' ∧
      'T' = ownTag ((tags [ready, four.written true]).take 1) "type" ∧
      tags [ready, four.written false] = tags [ready, four.written true] := by
  intro ready four
  obtain ⟨htag, hrenamed⟩ := tags_prefer_text_iff [ready, four.written true]
  have hR : 'R' ∈ tags [ready] := by decide +kernel
  have htaken : 'R' ∈ (tags [ready, four.written true]).take 1 := by decide +kernel
  have hsecond : (tags [ready, four.written true])[1]? = some 'T' := by decide +kernel
  refine ⟨hsecond, ?_, (hrenamed [ready] (four.written true) [] rfl).mpr (.inl hR)⟩
  refine (htag 1 (four.written true) 'T' rfl hsecond).mpr ?_
  rintro ⟨-, hfree, -⟩
  exact hfree htaken

/-- Four bits that are called `type`, with or without a mark. -/
def fourType (raw : Bool) : Schema :=
  Sample.field "D" ⟨"i", false⟩ (Sample.u .w8)
    [{ Sample.part (Sample.u .w8) 4 "type" with name := ⟨"type", raw⟩ }]

/-- A marked name is drawn with the letter of its mark. Its text asks for another one, which it is
drawn with when it has no mark. -/
theorem marked_name_tagged_by_mark :
    (fourType true).validate = [] ∧ tags (fourType true).slots = ['R'] ∧ ownTag [] "type" = 'T' ∧
      tags (fourType false).slots = ['T'] := by
  decide +kernel

end Diagram

end PackedFields

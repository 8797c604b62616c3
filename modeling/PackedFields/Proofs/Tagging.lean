import PackedFields.Machine.Sample
import PackedFields.Proofs.Drawing

/-!
# Tags

The tag of a sub-field is the first letter that is left: of those that its name suggests, and then
of the palette. What a name suggests are letters of the palette, so each tag takes one of these
away. That makes the tags different as long as they are letters, and the letters last for as many
sub-fields as there are letters.

A program can keep the letters that are taken as flags, and set a flag in the course of the search
for a letter whose flag is not set yet (`take`, `takeFirst`, `pick`). Such a search sets no other
flag than that of the tag it answers with (`Marks`), so it gives the same tags.
-/

namespace PackedFields.Diagram

/-! ## The choice of a tag -/

theorem length_palette : palette.length = 46 := by decide

theorem nodup_palette : palette.Nodup := by decide

theorem exhausted_not_mem_palette : exhausted ∉ palette := by decide

theorem not_mem_of_mem_palette {c : Char} (h : c ∈ palette) :
    c ∉ ['I', 'L', 'O', 'i', 'l', 'o'] := by
  have hall : palette.all (fun c => decide (c ∉ ['I', 'L', 'O', 'i', 'l', 'o'])) = true := by decide
  exact of_decide_eq_true (List.all_eq_true.mp hall c h)

variable {taken : List Char} {spelling : String} {c : Char}

theorem mem_palette_of_mem_suggestions (h : c ∈ suggestions spelling) : c ∈ palette :=
  List.contains_iff_mem.mp (List.mem_filter.mp h).2

/-- A tag is a letter that is not taken, unless none is left. -/
theorem tagFor_cases (taken : List Char) (spelling : String) :
    (tagFor taken spelling ∈ palette ∧ tagFor taken spelling ∉ taken) ∨
      (tagFor taken spelling = exhausted ∧ palette ⊆ taken) := by
  rw [tagFor]
  cases hfound : (suggestions spelling ++ palette).find? (!taken.contains ·) with
  | none =>
    right
    refine ⟨rfl, fun c hc => ?_⟩
    have htaken := List.find?_eq_none.mp hfound c (List.mem_append_right _ hc)
    simpa using htaken
  | some c =>
    left
    have hfree := List.find?_some hfound
    refine ⟨?_, by simpa using hfree⟩
    rcases List.mem_append.mp (List.mem_of_find?_eq_some hfound) with hc | hc
    · exact mem_palette_of_mem_suggestions hc
    · exact hc

theorem tagFor_eq_exhausted_iff : tagFor taken spelling = exhausted ↔ palette ⊆ taken := by
  rcases tagFor_cases taken spelling with ⟨hletter, hfree⟩ | ⟨hnone, hall⟩
  · refine iff_of_false (fun h => ?_) (fun hall => hfree (hall hletter))
    rw [h] at hletter
    exact exhausted_not_mem_palette hletter
  · exact iff_of_true hnone hall

/-! ## The tags of a list of names -/

/-- A tag is chosen when those before it are taken. -/
theorem getElem?_tagsFrom (taken : List Char) (spellings : List String) (k : Nat) :
    (tagsFrom taken spellings)[k]? =
      spellings[k]?.map (tagFor (((tagsFrom taken spellings).take k).reverse ++ taken)) := by
  induction spellings generalizing taken k with
  | nil => rfl
  | cons n ns ih =>
    cases k with
    | zero => rfl
    | succ k =>
      have hbefore : ((tagsFrom taken (n :: ns)).take (k + 1)).reverse ++ taken =
          ((tagsFrom (tagFor taken n :: taken) ns).take k).reverse ++ tagFor taken n :: taken := by
        rw [tagsFrom, List.take_succ_cons, List.reverse_cons, List.append_assoc]
        rfl
      rw [hbefore, tagsFrom, List.getElem?_cons_succ, ih, List.getElem?_cons_succ]

section Run

variable {spellings : List String} {j k : Nat} {a b tag : Char}

theorem exists_tagFor_of_getElem? (h : (tagsFrom [] spellings)[k]? = some tag) :
    ∃ n, spellings[k]? = some n ∧ tag = tagFor ((tagsFrom [] spellings).take k).reverse n := by
  rw [getElem?_tagsFrom, List.append_nil] at h
  obtain ⟨n, hn, htag⟩ := Option.map_eq_some_iff.mp h
  exact ⟨n, hn, htag.symm⟩

theorem eq_exhausted_iff_subset (h : (tagsFrom [] spellings)[k]? = some tag) :
    tag = exhausted ↔ palette ⊆ (tagsFrom [] spellings).take k := by
  obtain ⟨n, -, rfl⟩ := exists_tagFor_of_getElem? h
  rw [tagFor_eq_exhausted_iff]
  exact forall₂_congr fun c _ => List.mem_reverse

theorem mem_palette_of_mem_tagsFrom (h : tag ∈ tagsFrom [] spellings) (hletter : tag ≠ exhausted) :
    tag ∈ palette := by
  obtain ⟨k, hk⟩ := List.mem_iff_getElem?.mp h
  obtain ⟨n, -, rfl⟩ := exists_tagFor_of_getElem? hk
  rcases tagFor_cases ((tagsFrom [] spellings).take k).reverse n with ⟨hmem, -⟩ | ⟨hnone, -⟩
  · exact hmem
  · exact absurd hnone hletter

/-- A tag that is a letter is not among those before it. -/
theorem not_mem_take_tagsFrom (h : (tagsFrom [] spellings)[k]? = some tag)
    (hletter : tag ≠ exhausted) : tag ∉ (tagsFrom [] spellings).take k := by
  obtain ⟨n, -, rfl⟩ := exists_tagFor_of_getElem? h
  rcases tagFor_cases ((tagsFrom [] spellings).take k).reverse n with ⟨-, hfree⟩ | ⟨hnone, -⟩
  · exact fun hmem => hfree (List.mem_reverse.mpr hmem)
  · exact absurd hnone hletter

theorem pairwise_tagsFrom (spellings : List String) :
    (tagsFrom [] spellings).Pairwise fun a b => a = b → a = exhausted := by
  rw [List.pairwise_iff_getElem]
  intro j k hj hk hlt heq
  by_contra hletter
  have hat : (tagsFrom [] spellings)[k]? = some (tagsFrom [] spellings)[k] :=
    List.getElem?_eq_getElem hk
  refine not_mem_take_tagsFrom hat (heq ▸ hletter) ?_
  rw [← heq, List.mem_take_iff_getElem]
  exact ⟨j, by omega, rfl⟩

/-- As long as there are letters left, the tags are different letters. -/
theorem nodup_take_tagsFrom (hletters : ∀ t ∈ (tagsFrom [] spellings).take k, t ≠ exhausted) :
    ((tagsFrom [] spellings).take k).Nodup := by
  have hpairs := (pairwise_tagsFrom spellings).sublist (List.take_sublist k _)
  refine hpairs.imp_of_mem fun ha _ himp heq => ?_
  exact hletters _ ha (himp heq)

/-- The letters are all taken just in case there are as many tags as letters. -/
theorem palette_subset_take_iff (hk : k ≤ spellings.length) :
    palette ⊆ (tagsFrom [] spellings).take k ↔ palette.length ≤ k := by
  have hlength : ((tagsFrom [] spellings).take k).length = k := by
    rw [List.length_take, length_tagsFrom, Nat.min_eq_left hk]
  constructor
  · intro hall
    have hle := (nodup_palette.subperm hall).length_le
    omega
  · intro hle c hc
    by_contra hleft
    -- with `c` left over, the tags so far and `c` are too many different letters
    have hletters : ∀ t ∈ (tagsFrom [] spellings).take k, t ≠ exhausted := by
      rintro t ht rfl
      obtain ⟨j, hj, hat⟩ := List.mem_take_iff_getElem.mp ht
      have hj' : (tagsFrom [] spellings)[j]? = some exhausted :=
        List.getElem?_eq_some_iff.mpr ⟨_, hat⟩
      have hsubset := (eq_exhausted_iff_subset hj').mp rfl
      exact hleft (List.take_subset_take_left _ (by omega) (hsubset hc))
    have hnodup : (c :: (tagsFrom [] spellings).take k).Nodup :=
      List.nodup_cons.mpr ⟨hleft, nodup_take_tagsFrom hletters⟩
    have hsubset : c :: (tagsFrom [] spellings).take k ⊆ palette := by
      refine List.cons_subset.mpr ⟨hc, fun t ht => ?_⟩
      exact mem_palette_of_mem_tagsFrom (List.mem_of_mem_take ht) (hletters t ht)
    have hle' := (hnodup.subperm hsubset).length_le
    rw [List.length_cons, hlength] at hle'
    omega

end Run

/-! ## Letters under flags -/

/-- The letters that look like others. -/
def ambiguous : List Char := ['I', 'L', 'O']

theorem toNat_lt_of_isLetter (hc : isLetter c) : c.toNat < 128 := by
  simp only [isLetter, Bool.or_eq_true, Bool.and_eq_true, decide_eq_true_eq, Char.le_def,
    UInt32.le_iff_toNat_le] at hc
  have hsmall : ('z' : Char).val.toNat < 128 := by decide
  have hcapital : ('Z' : Char).val.toNat < 128 := by decide
  show c.val.toNat < 128
  omega

theorem capital_mem_palette_iff (hc : isLetter c) :
    capital c ∈ palette ↔ capital c ∉ ambiguous := by
  have hall : ∀ n < 128, isLetter (Char.ofNat n) →
      (capital (Char.ofNat n) ∈ palette ↔ capital (Char.ofNat n) ∉ ambiguous) := by decide +kernel
  have hcode := hall c.toNat (toNat_lt_of_isLetter hc)
  rw [Char.ofNat_toNat] at hcode
  exact hcode hc

/-- No character is taken. There is a flag for each of the first 128 characters. -/
def noneTaken : List Bool := List.replicate 128 false

/-- Takes the character `c`, and says whether it was there to be taken. -/
def take (flags : List Bool) (c : Char) : Bool × List Bool :=
  match flags[c.toNat]? with
  | some isTaken => (!isTaken, flags.set c.toNat true)
  | none => (false, flags)

/-- Takes the first of the characters that is `eligible` and there to be taken. -/
def takeFirst (eligible : Char → Bool) (flags : List Bool) : List Char → Option Char × List Bool
  | [] => (none, flags)
  | c :: cs =>
    if eligible c then
      match take flags c with
      | (true, flags) => (some c, flags)
      | (false, flags) => takeFirst eligible flags cs
    else takeFirst eligible flags cs

/-- Takes a letter for a name. -/
def pick (flags : List Bool) (spelling : String) : Char × List Bool :=
  match takeFirst (!ambiguous.contains ·) flags ((spelling.toList.filter isLetter).map capital) with
  | (some c, flags) => (c, flags)
  | (none, flags) =>
    match takeFirst (fun _ => true) flags palette with
    | (some c, flags) => (c, flags)
    | (none, flags) => (exhausted, flags)

/-- Takes letters for names, one after the other. -/
def pickAll (flags : List Bool) : List String → List Char
  | [] => []
  | n :: ns => (pick flags n).1 :: pickAll (pick flags n).2 ns

/-- The flags of the letters are set for those that are taken. -/
def Marks (flags : List Bool) (taken : List Char) : Prop :=
  ∀ c ∈ palette, flags[c.toNat]? = some (taken.contains c)

theorem marks_noneTaken : Marks noneTaken [] := by
  have hcodes : palette.all (fun c => decide (c.toNat < 128)) = true := by decide
  intro c hc
  have hcode : c.toNat < 128 := of_decide_eq_true (List.all_eq_true.mp hcodes c hc)
  rw [noneTaken, List.getElem?_replicate_of_lt hcode]
  rfl

variable {flags : List Bool}

theorem Marks.cons_exhausted (h : Marks flags taken) : Marks flags (exhausted :: taken) := by
  intro c hc
  have hne : c ≠ exhausted := fun heq => exhausted_not_mem_palette (heq ▸ hc)
  rw [h c hc, List.contains_cons, beq_eq_false_iff_ne.mpr hne, Bool.false_or]

theorem Marks.set (h : Marks flags taken) (hc : c ∈ palette) :
    Marks (flags.set c.toNat true) (c :: taken) := by
  intro d hd
  have hlength := (List.getElem?_eq_some_iff.mp (h c hc)).1
  rw [List.getElem?_set, List.contains_cons]
  by_cases hdc : d = c
  · subst hdc
    simp [hlength]
  · have hcode : ¬ c.toNat = d.toNat := fun heq => hdc (Char.toNat_inj.mp heq).symm
    rw [if_neg hcode, h d hd, beq_eq_false_iff_ne.mpr hdc, Bool.false_or]

/-- A letter is there to be taken unless it is taken, and taking it sets its flag only. -/
theorem Marks.take (h : Marks flags taken) (hc : c ∈ palette) :
    Diagram.take flags c = (!taken.contains c, flags.set c.toNat true) := by
  rw [Diagram.take, h c hc]

/-- A letter that is taken stays so. -/
theorem Marks.of_cons (h : Marks flags (c :: taken)) (hc : taken.contains c) :
    Marks flags taken := by
  intro d hd
  rw [h d hd, List.contains_cons]
  by_cases hdc : d = c
  · rw [hdc, hc, Bool.or_true]
  · rw [beq_eq_false_iff_ne.mpr hdc, Bool.false_or]

/-- The search takes what it finds, and nothing else. -/
theorem Marks.takeFirst (h : Marks flags taken) {eligible : Char → Bool} {cs : List Char}
    (hcs : ∀ c ∈ cs, eligible c → c ∈ palette) :
    ∃ flags', Diagram.takeFirst eligible flags cs =
        (cs.find? fun c => eligible c && !taken.contains c, flags') ∧
      Marks flags' ((cs.find? fun c => eligible c && !taken.contains c).toList ++ taken) := by
  induction cs generalizing flags with
  | nil => exact ⟨flags, rfl, h⟩
  | cons c cs ih =>
    obtain ⟨hc, hcs⟩ := List.forall_mem_cons.mp hcs
    rw [Diagram.takeFirst, List.find?_cons]
    cases heligible : eligible c with
    | false => exact ih h hcs
    | true =>
      have hset := h.set (hc heligible)
      rw [if_pos rfl, h.take (hc heligible)]
      cases htaken : taken.contains c with
      | false => exact ⟨_, rfl, hset⟩
      | true => exact ih (hset.of_cons htaken) hcs

theorem suggestions_eq (spelling : String) :
    suggestions spelling =
      ((spelling.toList.filter isLetter).map capital).filter (!ambiguous.contains ·) := by
  rw [suggestions]
  apply List.filter_congr
  intro c hc
  obtain ⟨d, hd, rfl⟩ := List.mem_map.mp hc
  have hiff := capital_mem_palette_iff (List.mem_filter.mp hd).2
  rw [Bool.eq_iff_iff, List.contains_iff_mem, hiff, Bool.not_eq_true', Bool.eq_false_iff, ne_eq,
    List.contains_iff_mem]

theorem tagFor_eq (taken : List Char) (spelling : String) :
    tagFor taken spelling =
      ((((spelling.toList.filter isLetter).map capital).find? fun c =>
          !ambiguous.contains c && !taken.contains c).or
        (palette.find? (!taken.contains ·))).getD exhausted := by
  rw [tagFor, List.find?_append, suggestions_eq, List.find?_filter]
  simp only [Bool.decide_and, Bool.decide_eq_true]

/-- A search with flags answers with the tag, and sets the flag of that. -/
theorem Marks.pick (h : Marks flags taken) (spelling : String) :
    ∃ flags', Diagram.pick flags spelling = (tagFor taken spelling, flags') ∧
      Marks flags' (tagFor taken spelling :: taken) := by
  have hletters : ∀ c ∈ (spelling.toList.filter isLetter).map capital,
      (!ambiguous.contains c) = true → c ∈ palette := by
    intro c hc heligible
    have hsuggested : c ∈ suggestions spelling := by
      rw [suggestions_eq]
      exact List.mem_filter.mpr ⟨hc, heligible⟩
    exact mem_palette_of_mem_suggestions hsuggested
  obtain ⟨flags₁, hfirst, hmarks₁⟩ := h.takeFirst hletters
  rw [Diagram.pick, hfirst, tagFor_eq]
  cases hown : ((spelling.toList.filter isLetter).map capital).find? fun c =>
      !ambiguous.contains c && !taken.contains c with
  | some c =>
    rw [hown] at hmarks₁
    exact ⟨flags₁, rfl, hmarks₁⟩
  | none =>
    rw [hown] at hmarks₁
    have hpalette : ∀ c ∈ palette, true = true → c ∈ palette := fun c hc _ => hc
    obtain ⟨flags₂, hsecond, hmarks₂⟩ := hmarks₁.takeFirst hpalette
    simp only [Option.toList_none, List.nil_append, Bool.true_and] at hsecond hmarks₂
    dsimp only
    rw [hsecond]
    cases hany : palette.find? (!taken.contains ·) with
    | some c =>
      rw [hany] at hmarks₂
      exact ⟨flags₂, rfl, hmarks₂⟩
    | none =>
      rw [hany] at hmarks₂
      exact ⟨flags₂, rfl, hmarks₂.cons_exhausted⟩

theorem Marks.pickAll (h : Marks flags taken) (spellings : List String) :
    Diagram.pickAll flags spellings = tagsFrom taken spellings := by
  induction spellings generalizing flags taken with
  | nil => rfl
  | cons n ns ih =>
    obtain ⟨flags', hpick, hmarks⟩ := h.pick n
    rw [Diagram.pickAll, tagsFrom, hpick, ih hmarks]

/-! ## What tags tell apart -/

/-- The tags of slots, in order. -/
def tags (slots : List Slot) : List Char := (tagged slots).map Prod.fst

theorem tags_eq (slots : List Slot) :
    tags slots = tagsFrom [] (slots.map (·.subField.name.spelling)) := by
  have hlength : (tagsFrom [] (slots.map (·.subField.name.spelling))).length ≤ slots.length := by
    rw [length_tagsFrom, List.length_map]
  rw [tags, tagged, List.map_fst_zip hlength]

theorem length_tags (slots : List Slot) : (tags slots).length = slots.length := by
  rw [tags_eq, length_tagsFrom, List.length_map]

/-- The tags of sub-fields of any number and with any names: each sub-field has one, in order, and a
search that sets flags gives the same. Two tags are different unless there was no letter left for
them. No tag is a letter that looks like another one. There is no letter left for a sub-field just
in case all letters are tags of sub-fields before it, and that is so just in case there are at least
46 of these. -/
theorem tags_identify (slots : List Slot) :
    (tagged slots).map Prod.snd = slots ∧
    tags slots = pickAll noneTaken (slots.map (·.subField.name.spelling)) ∧
    (tags slots).Pairwise (fun a b => a = b → a = exhausted) ∧
    (∀ tag ∈ tags slots, tag ∉ ['I', 'L', 'O', 'i', 'l', 'o']) ∧
    ∀ k tag, (tags slots)[k]? = some tag →
      (tag = exhausted ↔ ∀ c ∈ palette, c ∈ (tags slots).take k) ∧ (tag = exhausted ↔ 46 ≤ k) := by
  rw [tags_eq, marks_noneTaken.pickAll]
  refine ⟨map_snd_tagged slots, rfl, pairwise_tagsFrom _, fun tag htag => ?_, fun k tag htag => ?_⟩
  · by_cases hletter : tag = exhausted
    · rw [hletter]
      decide
    · exact not_mem_of_mem_palette (mem_palette_of_mem_tagsFrom htag hletter)
  · have hlt := (List.getElem?_eq_some_iff.mp htag).1
    rw [length_tagsFrom] at hlt
    have hall := eq_exhausted_iff_subset htag
    refine ⟨hall, hall.trans ?_⟩
    rw [palette_subset_take_iff hlt.le, length_palette]

/-- Of 47 flags, all but the last have a letter, and the 46 before it have all letters. -/
theorem tags_identify_crowd :
    ∃ tag, (tags (List.replicate 47 ⟨Sample.flag "x", 0, 1⟩))[46]? = some tag ∧ tag = exhausted ∧
      ∀ c ∈ palette, c ∈ (tags (List.replicate 47 ⟨Sample.flag "x", 0, 1⟩)).take 46 := by
  obtain ⟨-, -, -, -, hlast⟩ := tags_identify (List.replicate 47 ⟨Sample.flag "x", 0, 1⟩)
  have hlength : 46 < (tags (List.replicate 47 ⟨Sample.flag "x", 0, 1⟩)).length := by
    rw [length_tags, List.length_replicate]
    decide
  have htag := List.getElem?_eq_getElem hlength
  obtain ⟨hall, hcount⟩ := hlast 46 _ htag
  have hnone := hcount.mpr (Nat.le_refl 46)
  exact ⟨_, htag, hnone, hall.mp hnone⟩

end PackedFields.Diagram

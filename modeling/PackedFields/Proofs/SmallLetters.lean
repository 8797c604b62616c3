import PackedFields.Text.Lowercase
import PackedFields.Text.NameChars
import Mathlib.Data.List.Basic

/-!
# Small letters

The lowercase form of a character that opens a name opens a name as well, what follows it can
follow there, and it is its own lowercase form. All of this is read off the tables: the forms of
the letters of a run fill a range of code points, and it is ranges that are compared.
-/

namespace PackedFields.Text

/-- Whether no code point lies in both ranges. -/
def apart (r s : CodeRange) : Bool := Nat.blt r.2 s.1 || Nat.blt s.2 r.1

/-- Whether every code point of `r` lies in `s`. -/
def inside (r s : CodeRange) : Bool := Nat.ble s.1 r.1 && Nat.ble r.2 s.2

variable {c d : Char} {n : Nat} {r s : CodeRange} {rs : List CodeRange}

theorem not_mem_of_apart (h : apart r s = true) (hr : r.1 ≤ n ∧ n ≤ r.2) :
    ¬ (s.1 ≤ n ∧ n ≤ s.2) := by
  simp only [apart, Bool.or_eq_true, Nat.blt_eq] at h
  omega

theorem mem_of_inside (h : inside r s = true) (hr : r.1 ≤ n ∧ n ≤ r.2) : s.1 ≤ n ∧ n ≤ s.2 := by
  simp only [inside, Bool.and_eq_true, Nat.ble_eq] at h
  omega

theorem covers_iff : covers rs c = true ↔ ∃ r ∈ rs, r.1 ≤ c.toNat ∧ c.toNat ≤ r.2 := by
  simp [covers]

theorem covers_eq_false_of_apart {ss : List CodeRange}
    (h : (rs.all fun r => ss.all (apart r)) = true) (hc : covers rs c = true) :
    covers ss c = false := by
  obtain ⟨r, hr, hmem⟩ := covers_iff.mp hc
  rw [Bool.eq_false_iff]
  intro hcovers
  obtain ⟨s, hs, hmem'⟩ := covers_iff.mp hcovers
  have hapart := List.all_eq_true.mp (List.all_eq_true.mp h r hr) s hs
  exact not_mem_of_apart hapart hmem hmem'

/-! ## Characters of names -/

theorem opensName_iff : opensName c = true ↔ c = '_' ∨ covers openingCodes c = true := by
  simp [opensName]

theorem continuesName_of_opensName (h : opensName c = true) : continuesName c = true := by
  rcases opensName_iff.mp h with rfl | h
  · decide +kernel
  · simp [continuesName, h]

/-- Where the characters of names lie among the first 128. -/
def nameBlocks : List CodeRange := [(48, 57), (65, 90), (95, 95), (97, 122)]

/-- Whether `c` is one of the first 128 characters, and stands in no name. -/
def isForeign (c : Char) : Bool := Nat.blt c.toNat 128 && !covers nameBlocks c

theorem continuesName_of_isForeign (h : isForeign c = true) : continuesName c = false := by
  simp only [isForeign, Bool.and_eq_true, Nat.blt_eq, Bool.not_eq_true', Bool.eq_false_iff] at h
  obtain ⟨hlow, hblocks⟩ := h
  have hcodes : ∀ codes : List CodeRange,
      codes.all (fun r => Nat.ble 128 r.1 || nameBlocks.any (inside r)) = true →
        covers codes c = false := by
    intro codes hcheck
    rw [Bool.eq_false_iff]
    intro hcovers
    obtain ⟨r, hr, hmem⟩ := covers_iff.mp hcovers
    have hplace := List.all_eq_true.mp hcheck r hr
    rw [Bool.or_eq_true, Nat.ble_eq, List.any_eq_true] at hplace
    rcases hplace with hhigh | ⟨block, hblock, hinside⟩
    · omega
    · exact hblocks (covers_iff.mpr ⟨block, hblock, mem_of_inside hinside hmem⟩)
  simp [continuesName, hcodes openingCodes (by decide +kernel),
    hcodes followingCodes (by decide +kernel)]

theorem ne_of_isForeign (hc : continuesName c = true) (hd : isForeign d = true) : c ≠ d := by
  rintro rfl
  rw [continuesName_of_isForeign hd] at hc
  cases hc

/-- A code point at which a name can open is that of a character. -/
theorem isValidChar_of_opening (hr : r ∈ openingCodes) (hn : r.1 ≤ n ∧ n ≤ r.2) :
    n.isValidChar := by
  have hcodes : openingCodes.all (fun r => inside r (0, 0xD7FF) || inside r (0xE000, 0x10FFFF)) =
      true := by decide +kernel
  have hplace := List.all_eq_true.mp hcodes r hr
  rw [Bool.or_eq_true] at hplace
  rcases hplace with h | h
  · have hbounds := mem_of_inside h hn
    exact .inl (by omega)
  · have hbounds := mem_of_inside h hn
    exact .inr (by omega)

/-! ## Runs of letters -/

namespace LetterRun

/-- Where the letters of the run lie. -/
def letters (r : LetterRun) : CodeRange := (r.first, r.last)

/-- Where their lowercase forms lie. -/
def forms (r : LetterRun) : CodeRange := ((r.first + r.shift).toNat, (r.last + r.shift).toNat)

/-- The code point of the lowercase form of the letter at `n`. -/
def form (r : LetterRun) (n : Nat) : Nat := (n + r.shift).toNat

/-- Whether the forms of the letters open names, or else none of the letters does. -/
def keepsNames (r : LetterRun) : Bool :=
  openingCodes.any (inside r.forms) || openingCodes.all (apart r.letters)

/-- Whether no form of a letter of `r` is a letter of `q`. The forms of some runs lie between the
letters of another one, every second code point of which is a letter. -/
def misses (r q : LetterRun) : Bool :=
  apart r.forms q.letters ||
    (Nat.beq q.step 2 && (Nat.beq r.step 2 || Nat.beq r.first r.last) &&
      Nat.blt 0 r.forms.1 && Nat.beq ((r.forms.1 + q.first) % 2) 1)

theorem has_iff {r : LetterRun} :
    r.has n = true ↔ r.first ≤ n ∧ n ≤ r.last ∧ (n - r.first) % r.step = 0 := by
  simp [has, and_assoc]

theorem form_mem {r : LetterRun} (h : r.has n = true) :
    r.forms.1 ≤ r.form n ∧ r.form n ≤ r.forms.2 := by
  have hn := has_iff.mp h
  simp only [forms, form]
  omega

theorem has_form_eq_false {r q : LetterRun} (h : r.misses q = true) (hn : r.has n = true) :
    q.has (r.form n) = false := by
  rw [Bool.eq_false_iff]
  intro hq
  have hform := form_mem hn
  obtain ⟨hfirst, hlast, hstep⟩ := has_iff.mp hn
  obtain ⟨hqfirst, hqlast, hqstep⟩ := has_iff.mp hq
  simp only [misses, Bool.or_eq_true, Bool.and_eq_true, Nat.beq_eq, Nat.blt_eq] at h
  rcases h with h | ⟨⟨⟨hq2, hr⟩, hpos⟩, hodd⟩
  · exact not_mem_of_apart h hform ⟨hqfirst, hqlast⟩
  · -- the form is an odd number of code points away from the first letter of `q`
    rw [hq2] at hqstep
    have heven : (n - r.first) % 2 = 0 := by
      rcases hr with hr | hr
      · rwa [hr] at hstep
      · have hn : n = r.first := by omega
        simp [hn]
    simp only [forms, form] at hpos hodd hqstep hqfirst
    omega

end LetterRun

/-! ## Lowercase forms -/

theorem lowercase_cases (c : Char) :
    c = '\u0130' ∨
      (∃ r ∈ letterRuns, r.has c.toNat = true ∧ lowercase c = [Char.ofNat (r.form c.toNat)]) ∨
      lowercase c = [c] := by
  by_cases hc : c = '\u0130'
  · exact .inl hc
  · right
    cases hrun : letterRuns.find? (·.has c.toNat) with
    | none =>
      right
      simp [lowercase, hc, hrun]
    | some r =>
      left
      have hhas := List.find?_some hrun
      refine ⟨r, List.mem_of_find?_eq_some hrun, hhas, ?_⟩
      simp [lowercase, hc, hrun, LetterRun.form]

theorem lowercase_eq_self (hc : c ≠ '\u0130') (h : ∀ r ∈ letterRuns, r.has c.toNat = false) :
    lowercase c = [c] := by
  have hnone : letterRuns.find? (·.has c.toNat) = none := by
    rw [List.find?_eq_none]
    intro r hr
    simp [h r hr]
  simp [lowercase, hc, hnone]

section Form

variable {r : LetterRun} (hr : r ∈ letterRuns) (hhas : r.has c.toNat = true)
  (hc : opensName c = true)

include hr hhas hc

/-- The form of a letter that opens names lies where names open. -/
theorem exists_opening_form :
    ∃ s ∈ openingCodes, s.1 ≤ r.form c.toNat ∧ r.form c.toNat ≤ s.2 := by
  have hkeeps : letterRuns.all LetterRun.keepsNames = true := by decide +kernel
  have hlow : (letterRuns.all fun r => apart r.letters (95, 95)) = true := by decide +kernel
  have hform := LetterRun.form_mem hhas
  obtain ⟨hfirst, hlast, -⟩ := LetterRun.has_iff.mp hhas
  have hrun := List.all_eq_true.mp hkeeps r hr
  rw [LetterRun.keepsNames, Bool.or_eq_true, List.any_eq_true, List.all_eq_true] at hrun
  rcases hrun with ⟨s, hs, hinside⟩ | hapart
  · exact ⟨s, hs, mem_of_inside hinside hform⟩
  · exfalso
    rcases opensName_iff.mp hc with rfl | hcovers
    · exact not_mem_of_apart (List.all_eq_true.mp hlow r hr) ⟨hfirst, hlast⟩ (by decide)
    · obtain ⟨s, hs, hmem⟩ := covers_iff.mp hcovers
      exact not_mem_of_apart (hapart s hs) ⟨hfirst, hlast⟩ hmem

theorem toNat_ofNat_form : (Char.ofNat (r.form c.toNat)).toNat = r.form c.toNat := by
  obtain ⟨s, hs, hmem⟩ := exists_opening_form hr hhas hc
  rw [Char.ofNat, dif_pos (isValidChar_of_opening hs hmem)]
  rfl

theorem opensName_form : opensName (Char.ofNat (r.form c.toNat)) = true := by
  rw [opensName_iff, covers_iff, toNat_ofNat_form hr hhas hc]
  exact .inr (exists_opening_form hr hhas hc)

/-- The form of a letter that opens names is its own form. -/
theorem lowercase_form :
    lowercase (Char.ofNat (r.form c.toNat)) = [Char.ofNat (r.form c.toNat)] := by
  have hmisses : (letterRuns.all fun r => letterRuns.all r.misses) = true := by decide +kernel
  have hdotted : (letterRuns.all fun r => apart r.forms (0x130, 0x130)) = true := by decide +kernel
  have hcode := toNat_ofNat_form hr hhas hc
  refine lowercase_eq_self ?_ ?_
  · intro heq
    rw [heq] at hcode
    have hdot : r.form c.toNat = 0x130 := hcode.symm
    have hform := LetterRun.form_mem hhas
    exact not_mem_of_apart (List.all_eq_true.mp hdotted r hr) hform (by simp [hdot])
  · intro q hq
    have hrq := List.all_eq_true.mp (List.all_eq_true.mp hmisses r hr) q hq
    rw [hcode]
    exact LetterRun.has_form_eq_false hrq hhas

end Form

/-- The lowercase form of a character that opens names is one that does and is its own form, with
nothing after it that cannot follow in a name. -/
theorem lowercase_of_opensName (hc : opensName c = true) :
    ∃ d ds, lowercase c = d :: ds ∧ opensName d = true ∧ (∀ e ∈ ds, continuesName e = true) ∧
      lowercase d = [d] := by
  rcases lowercase_cases c with rfl | ⟨r, hr, hhas, hform⟩ | hself
  · have hdot : continuesName '\u0307' = true := by
      rw [continuesName, Bool.or_eq_true, covers_iff, covers_iff]
      exact .inr ⟨(768, 879), by decide +kernel, by decide⟩
    exact ⟨'i', ['\u0307'], rfl, by decide +kernel, by simpa using hdot, by decide +kernel⟩
  · exact ⟨_, [], hform, opensName_form hr hhas hc, by simp, lowercase_form hr hhas hc⟩
  · exact ⟨c, [], hself, hc, by simp, hself⟩

end PackedFields.Text

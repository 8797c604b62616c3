import PackedFields.Name
import Mathlib.Data.List.Basic

/-!
# Reserved words

The words that the language keeps for itself, in its edition of 2024, as its reference lists them.
The names that source is read by go by an older list (`Name.keywords`), which lacks the word that
this edition has added (`Name.mem_reserved_iff`).
-/

namespace PackedFields.Name

/-- The words that have a meaning. -/
def strictWords : List String := [
  "as", "async", "await", "break", "const", "continue", "crate", "dyn", "else", "enum", "extern",
  "false", "fn", "for", "if", "impl", "in", "let", "loop", "match", "mod", "move", "mut", "pub",
  "ref", "return", "self", "Self", "static", "struct", "super", "trait", "true", "type", "unsafe",
  "use", "where", "while"]

/-- The words that are to have a meaning some day. -/
def keptWords : List String := [
  "abstract", "become", "box", "do", "final", "gen", "macro", "override", "priv", "try", "typeof",
  "unsized", "virtual", "yield"]

/-- The words that are not names without a mark. The low line is not a name either. -/
def reserved : List String := "_" :: (strictWords ++ keptWords)

/-- Whether the name is a reserved word without a mark. -/
def isReserved (n : Name) : Bool := !n.raw && reserved.contains n.text

/-- The words that are operands, and segments of paths, although they are reserved. -/
def placeWords : List String := ["self", "Self", "super", "crate"]

/-- Whether the name is an operand. -/
def isOperand (n : Name) : Bool := !n.isReserved || (!n.raw && placeWords.contains n.text)

variable {n : Name} {w : String}

theorem mem_reserved_iff : w ∈ reserved ↔ w ∈ keywords ∨ w = "gen" := by
  have hinto : reserved.all ("gen" :: keywords).contains = true := by decide +kernel
  have hfrom : ("gen" :: keywords).all reserved.contains = true := by decide +kernel
  rw [or_comm, ← List.mem_cons]
  constructor
  · intro h
    exact List.contains_iff_mem.mp (List.all_eq_true.mp hinto w h)
  · intro h
    exact List.contains_iff_mem.mp (List.all_eq_true.mp hfrom w h)

theorem isOperand_of_isReserved (h : n.isReserved = false) : n.isOperand = true := by
  rw [isOperand, h]
  rfl

end PackedFields.Name

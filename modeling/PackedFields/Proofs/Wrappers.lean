import PackedFields.IntType

/-!
# Types in wrappers

A type that a macro hands on stands in a group without visible delimiters, and any type may stand in
parentheses. Neither changes what a type is, so neither should change what the type stands for.

The type of an integer is looked up through wrappers of both sorts, in any order and to any depth.
The truth values are not: their name is recognized only where it stands alone, and in a wrapper it
stands for nothing.
-/

namespace PackedFields

namespace SourceType

/-- What can stand around a type. -/
inductive Wrapper where
  /-- A pair of parentheses. -/
  | parens (opening closing : Span)
  /-- A group without visible delimiters. -/
  | unseen
  deriving DecidableEq

/-- A type with one wrapper around it. -/
def Wrapper.around : Wrapper → SourceType → SourceType
  | parens opening closing, t => .paren t opening closing
  | unseen, t => .unseen t

/-- A type with wrappers around it, the outermost first. -/
def wrapped (t : SourceType) : List Wrapper → SourceType
  | [] => t
  | w :: ws => w.around (t.wrapped ws)

end SourceType

open SourceType

theorem IntType.ofSource?_around (w : Wrapper) (t : SourceType) :
    ofSource? (w.around t) = ofSource? t := by
  cases w with
  | parens opening closing => rfl
  | unseen => rfl

theorem IntType.ofSource?_wrapped (t : SourceType) (ws : List Wrapper) :
    ofSource? (t.wrapped ws) = ofSource? t := by
  induction ws with
  | nil => rfl
  | cons w ws ih =>
    have houter := IntType.ofSource?_around w (t.wrapped ws)
    rw [wrapped, houter, ih]

namespace Kind

/-- A type in a wrapper can only stand for an integer. -/
theorem ofSource?_around (w : Wrapper) (t : SourceType) :
    ofSource? (w.around t) = (IntType.ofSource? t).map int := by
  cases w with
  | parens opening closing => rfl
  | unseen => rfl

/-- A type that does not stand for the truth values is treated as the type of an integer. -/
theorem ofSource?_eq_map_iff (t : SourceType) :
    (IntType.ofSource? t).map int = ofSource? t ↔ ofSource? t ≠ some bool := by
  constructor
  · intro h hbool
    rw [hbool] at h
    obtain ⟨i, -, hi⟩ := Option.map_eq_some_iff.mp h
    cases hi
  · intro h
    unfold ofSource? at h ⊢
    split at h
    · exact absurd rfl h
    · rfl

theorem ofSource?_wrapped (t : SourceType) (ws : List Wrapper) :
    ofSource? (t.wrapped ws) =
      if ws.isEmpty then ofSource? t else (IntType.ofSource? t).map int := by
  cases ws with
  | nil => rfl
  | cons w ws =>
    have hinner := IntType.ofSource?_wrapped t ws
    rw [wrapped, ofSource?_around, hinner]
    rfl

end Kind

/-- Wrappers around a type do not change the integer type that it stands for, whatever the type is
and however many wrappers there are. They do not change the kind of value that it stands for either,
unless that is the truth values; a type with a wrapper around it has the kind of its integer type,
if it has any. -/
theorem SourceType.wrapped_means_same_iff (t : SourceType) (ws : List Wrapper) :
    IntType.ofSource? (t.wrapped ws) = IntType.ofSource? t ∧
    (Kind.ofSource? (t.wrapped ws) = Kind.ofSource? t ↔
      ¬ (ws ≠ [] ∧ Kind.ofSource? t = some .bool)) ∧
    Kind.ofSource? (t.wrapped ws) =
      if ws.isEmpty then Kind.ofSource? t else (IntType.ofSource? t).map .int := by
  have hkind := Kind.ofSource?_wrapped t ws
  refine ⟨IntType.ofSource?_wrapped t ws, ?_, hkind⟩
  rw [hkind]
  cases ws with
  | nil => simp
  | cons w ws =>
    simp only [List.isEmpty_cons, Bool.false_eq_true, if_false, ne_eq, reduceCtorEq,
      not_false_eq_true, true_and]
    exact Kind.ofSource?_eq_map_iff t

/-- The type of truth values stands for nothing in parentheses, nor where a macro hands it on. -/
theorem SourceType.wrapped_bool_means_nothing :
    Kind.ofSource? (.name ⟨"bool", false⟩ .nowhere) = some .bool ∧
      Kind.ofSource? ((name ⟨"bool", false⟩ .nowhere).wrapped [.parens .nowhere .nowhere]) = none ∧
      Kind.ofSource? ((name ⟨"bool", false⟩ .nowhere).wrapped [.unseen]) = none := by
  decide

end PackedFields

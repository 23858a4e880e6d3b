import C3RSpec.Base.JsonScalar

/-!
# `json.dumps` with an indentation

Library `Base`. With `indent=2` every element and member stands on a line of its own, after two
blanks a level; an empty container stays on its line.
-/

namespace C3RSpec.Base

/-- A line break and the indentation of a level. -/
def lineIndent (level : Nat) : Text := 10 :: List.replicate (2 * level) 32

section Render

variable [FloatText]

mutual

/-- Text of a value with `indent=2`, keys in the order they have. -/
def Json.renderIndented (ensureAscii : Bool) (level : Nat) : Json → Text
  | .null => "null"
  | .bool true => "true"
  | .bool false => "false"
  | .int n => decimalInt n
  | .float x => renderFloat x
  | .str t => quote ensureAscii t
  | .arr xs =>
    if xs.isEmpty then [91, 93]
    else 91 :: (lineIndent (level + 1) ++
      (indentedElements ensureAscii (level + 1) xs ++ (lineIndent level ++ [93])))
  | .obj es =>
    if es.isEmpty then [123, 125]
    else 123 :: (lineIndent (level + 1) ++
      (indentedMembers ensureAscii (level + 1) es ++ (lineIndent level ++ [125])))

/-- Array elements, each on its line. -/
def indentedElements (ensureAscii : Bool) (level : Nat) : List Json → Text
  | [] => []
  | x :: xs =>
    match xs with
    | [] => x.renderIndented ensureAscii level
    | y :: ys =>
      x.renderIndented ensureAscii level ++
        44 :: (lineIndent level ++ indentedElements ensureAscii level (y :: ys))

/-- Object members, each on its line. -/
def indentedMembers (ensureAscii : Bool) (level : Nat) : List (Text × Json) → Text
  | [] => []
  | e :: es =>
    match es with
    | [] => quote ensureAscii e.1 ++ 58 :: 32 :: e.2.renderIndented ensureAscii level
    | f :: fs =>
      quote ensureAscii e.1 ++ 58 :: 32 :: (e.2.renderIndented ensureAscii level ++
        44 :: (lineIndent level ++ indentedMembers ensureAscii level (f :: fs)))

end

/-! ### What can be encoded -/

omit [FloatText] in
private theorem isScalar_lineIndent (level : Nat) : (lineIndent level).IsScalar := by
  intro c hc
  obtain rfl | hc := List.mem_cons.mp hc
  · decide
  · rw [List.eq_of_mem_replicate hc]
    decide

omit [FloatText] in
private theorem isScalar_bracketed {level : Nat} {left right : CodePoint} {t : Text}
    (hleft : left.val < 128) (hright : right.val < 128) (ht : t.IsScalar) :
    Text.IsScalar (left :: (lineIndent (level + 1) ++ (t ++ (lineIndent level ++ [right])))) := by
  rw [Text.isScalar_cons_iff hleft, Text.isScalar_append_iff, Text.isScalar_append_iff,
    Text.isScalar_append_iff, Text.isScalar_cons_iff hright]
  exact ⟨isScalar_lineIndent _, ht, isScalar_lineIndent level, fun _ hc ↦ (nomatch hc)⟩

mutual

/-- What was escaped can be encoded. -/
theorem Json.isScalar_renderIndented (j : Json) (level : Nat) :
    (j.renderIndented true level).IsScalar := by
  cases j with
  | null => exact Json.isScalar_render_escaped .null
  | bool b =>
    cases b with
    | true => exact Json.isScalar_render_escaped (.bool true)
    | false => exact Json.isScalar_render_escaped (.bool false)
  | int n => exact Json.isScalar_render_escaped (.int n)
  | float x => exact Json.isScalar_render_escaped (.float x)
  | str t => exact Json.isScalar_render_escaped (.str t)
  | arr xs =>
    rw [Json.renderIndented]
    split
    · exact Text.isScalar_of_isAscii (by decide)
    · exact isScalar_bracketed (by decide) (by decide) (isScalar_indentedElements xs (level + 1))
  | obj es =>
    rw [Json.renderIndented]
    split
    · exact Text.isScalar_of_isAscii (by decide)
    · exact isScalar_bracketed (by decide) (by decide) (isScalar_indentedMembers es (level + 1))

private theorem isScalar_indentedElements (xs : List Json) (level : Nat) :
    (indentedElements true level xs).IsScalar := by
  cases xs with
  | nil => exact fun _ hc ↦ (nomatch hc)
  | cons x xs =>
    have hx := x.isScalar_renderIndented level
    have hxs := isScalar_indentedElements xs level
    cases xs with
    | nil => exact hx
    | cons y ys =>
      rw [indentedElements, Text.isScalar_append_iff, Text.isScalar_cons_iff (by decide),
        Text.isScalar_append_iff]
      exact ⟨hx, isScalar_lineIndent level, hxs⟩

private theorem isScalar_indentedMembers (es : List (Text × Json)) (level : Nat) :
    (indentedMembers true level es).IsScalar := by
  cases es with
  | nil => exact fun _ hc ↦ (nomatch hc)
  | cons e es =>
    obtain ⟨k, v⟩ := e
    have hk : (quote true k).IsScalar := Json.isScalar_render_escaped (.str k)
    have hv := v.isScalar_renderIndented level
    have hes := isScalar_indentedMembers es level
    cases es with
    | nil =>
      rw [indentedMembers, Text.isScalar_append_iff]
      iterate 2 rw [Text.isScalar_cons_iff (by decide)]
      exact ⟨hk, hv⟩
    | cons f fs =>
      rw [indentedMembers, Text.isScalar_append_iff]
      iterate 2 rw [Text.isScalar_cons_iff (by decide)]
      rw [Text.isScalar_append_iff, Text.isScalar_cons_iff (by decide), Text.isScalar_append_iff]
      exact ⟨hk, hv, isScalar_lineIndent level, hes⟩

end

end Render

end C3RSpec.Base

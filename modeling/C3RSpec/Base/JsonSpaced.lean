import C3RSpec.Base.JsonParse

/-!
# `json.dumps` with its default separators

Library `Base`. Without `separators=` the standard library writes `", "` between elements and
`": "` after keys. A list of plain texts is read back from that form.
-/

namespace C3RSpec.Base

section Render

variable [FloatText]

mutual

/-- Text of a value with the default separators, keys in the order they have. -/
def Json.renderSpaced (ensureAscii : Bool) : Json → Text
  | .null => "null"
  | .bool true => "true"
  | .bool false => "false"
  | .int n => decimalInt n
  | .float x => renderFloat x
  | .str t => quote ensureAscii t
  | .arr xs => 91 :: (spacedElements ensureAscii xs ++ [93])
  | .obj es => 123 :: (spacedMembers ensureAscii es ++ [125])

/-- Array elements separated by a comma and a blank. -/
def spacedElements (ensureAscii : Bool) : List Json → Text
  | [] => []
  | x :: xs =>
    match xs with
    | [] => x.renderSpaced ensureAscii
    | y :: ys => x.renderSpaced ensureAscii ++ 44 :: 32 :: spacedElements ensureAscii (y :: ys)

/-- Object members separated by a comma and a blank. -/
def spacedMembers (ensureAscii : Bool) : List (Text × Json) → Text
  | [] => []
  | e :: es =>
    match es with
    | [] => quote ensureAscii e.1 ++ 58 :: 32 :: e.2.renderSpaced ensureAscii
    | f :: fs =>
      quote ensureAscii e.1 ++ 58 :: 32 :: (e.2.renderSpaced ensureAscii ++
        44 :: 32 :: spacedMembers ensureAscii (f :: fs))

end

attribute [grind] Json.renderSpaced spacedElements spacedMembers

end Render

/-! ### What a text holds -/

section Members

variable [FloatText] {ascii : Bool}

private theorem sublist_spacedMembers {es : List (Text × Json)} {e : Text × Json} (h : e ∈ es) :
    (e.2.renderSpaced ascii).Sublist (spacedMembers ascii es) := by
  induction es with
  | nil => cases h
  | cons d es ih =>
    obtain rfl | h := List.mem_cons.mp h
    · cases es with
      | nil =>
        rw [spacedMembers]
        exact ((List.Sublist.refl _).cons _).cons _ |>.trans (List.sublist_append_right _ _)
      | cons f fs =>
        rw [spacedMembers]
        exact (((List.sublist_append_left _ _).cons _).cons _).trans (List.sublist_append_right _ _)
    · cases es with
      | nil => cases h
      | cons f fs =>
        rw [spacedMembers]
        refine ((ih h).trans ?_).trans (List.sublist_append_right _ _)
        exact (((((List.Sublist.refl _).cons 32).cons 44).trans
          (List.sublist_append_right _ _)).cons 32).cons 58

variable (ascii) in
/-- The text of a sorted object holds the text of every member. -/
theorem sublist_renderSpaced_obj {es : List (Text × Json)} {e : Text × Json} (h : e ∈ es) :
    (e.2.sortKeys.renderSpaced ascii).Sublist ((Json.obj es).sortKeys.renderSpaced ascii) := by
  have hmem : (e.1, e.2.sortKeys) ∈ (sortMembers es).insertionSort keyLe :=
    mem_sorted.mpr ⟨e, h, rfl⟩
  rw [Json.sortKeys, Json.renderSpaced]
  exact ((sublist_spacedMembers hmem).trans (List.sublist_append_left _ _)).cons _

end Members

/-! ### Lists of plain texts -/

/-- Nothing is above `~`, so `ensure_ascii` changes nothing. -/
def Text.isPlain (t : Text) : Bool := t.all fun c ↦ decide (c.val ≤ 126)

/-- A plain text is quoted the same way with and without `ensure_ascii`. -/
theorem quote_of_isPlain {t : Text} (h : t.isPlain = true) : quote true t = quote false t := by
  rw [quote, quote, List.flatMap_congr]
  intro c hc
  have hle : c.val ≤ 126 := of_decide_eq_true (List.all_eq_true.mp h c hc)
  have hlt : decide (126 < c.val) = false := decide_eq_false (Nat.not_lt.mpr hle)
  rw [escapeChar, escapeChar, hlt, Bool.and_false, Bool.and_false]

private theorem skipSpace_comma (t : Text) : skipSpace (44 :: t) = 44 :: t := rfl

private theorem skipSpace_quote (t rest : Text) :
    skipSpace (32 :: (quote false t ++ rest)) = quote false t ++ rest := by
  rw [quote]
  rfl

section Texts

variable [FloatText]

private theorem parseValue_quote (n : Nat) (t rest : Text) :
    parseValue (n + 1) (quote false t ++ rest) = some (.str t, rest) := by
  obtain ⟨u, hu, hq⟩ := scanString_quote t rest
  rw [hu, parseValue, if_pos rfl, hq]
  rfl

private theorem spacedElements_head (t : Text) (ts : List Text) :
    ∃ r, spacedElements false ((t :: ts).map Json.str) ++ [93] = quote false t ++ r := by
  cases ts with
  | nil => exact ⟨[93], by rw [List.map_cons, List.map_nil, spacedElements, Json.renderSpaced]⟩
  | cons u us =>
    refine ⟨44 :: 32 :: (spacedElements false ((u :: us).map Json.str) ++ [93]), ?_⟩
    rw [List.map_cons, List.map_cons, spacedElements, Json.renderSpaced, List.append_assoc]
    rfl

private theorem parseElements_texts (t : Text) (ts : List Text) (n : Nat)
    (h : ts.length + 1 < n) : parseElements n
      (spacedElements false ((t :: ts).map Json.str) ++ [93]) =
        some ((t :: ts).map Json.str, []) := by
  induction ts generalizing t n with
  | nil =>
    obtain ⟨m, rfl⟩ : ∃ m, n = m + 2 := ⟨n - 2, by simp at h; omega⟩
    rw [List.map_cons, List.map_nil, spacedElements, Json.renderSpaced, parseElements,
      parseValue_quote]
    rfl
  | cons u ts ih =>
    rw [List.length_cons] at h
    obtain ⟨m, rfl⟩ : ∃ m, n = m + 2 := ⟨n - 2, by omega⟩
    have hrest := ih u (m + 1) (by omega)
    obtain ⟨r, hr⟩ := spacedElements_head u ts
    rw [List.map_cons, List.map_cons, spacedElements, Json.renderSpaced, List.append_assoc,
      parseElements, List.cons_append, List.cons_append, parseValue_quote]
    rw [List.map_cons] at hr hrest
    rw [hr] at hrest ⊢
    simp only [Option.bind_some, skipSpace_comma, expect, if_true, skipSpace_quote, hrest,
      Option.map_some]

private theorem spacedElements_plain (ts : List Text) (h : ∀ t ∈ ts, t.isPlain = true) :
    spacedElements true (ts.map Json.str) = spacedElements false (ts.map Json.str) := by
  induction ts with
  | nil => rfl
  | cons t ts ih =>
    have ht := quote_of_isPlain (h t List.mem_cons_self)
    have hts := ih fun u hu ↦ h u (List.mem_cons_of_mem t hu)
    cases ts with
    | nil =>
      simp only [List.map_cons, List.map_nil, spacedElements, Json.renderSpaced]
      exact ht
    | cons u us =>
      rw [List.map_cons] at hts ⊢
      simp only [List.map_cons, spacedElements, Json.renderSpaced] at hts ⊢
      rw [ht, hts]

private theorem length_le_spacedElements (ts : List Text) :
    ts.length ≤ (spacedElements false (ts.map Json.str)).length := by
  induction ts with
  | nil => exact Nat.zero_le _
  | cons t ts ih =>
    cases ts with
    | nil =>
      rw [List.map_cons, List.map_nil, spacedElements, Json.renderSpaced, quote]
      exact Nat.succ_le_succ (Nat.zero_le _)
    | cons u us =>
      rw [List.map_cons] at ih ⊢
      simp only [List.map_cons, spacedElements, Json.renderSpaced, List.length_append,
        List.length_cons] at ih ⊢
      omega

/-- A list of plain texts is read back. -/
theorem loads_renderSpaced_texts (ts : List Text) (h : ∀ t ∈ ts, t.isPlain = true) :
    loads ((Json.arr (ts.map .str)).renderSpaced true) = some (.arr (ts.map .str)) := by
  rw [Json.renderSpaced, spacedElements_plain ts h]
  cases ts with
  | nil => rfl
  | cons t ts =>
    obtain ⟨r, hr⟩ := spacedElements_head t ts
    have hlen := length_le_spacedElements (t :: ts)
    have hparse := parseElements_texts t ts
      ((spacedElements false ((t :: ts).map Json.str) ++ [93]).length + 1) (by
        rw [List.length_cons] at hlen
        rw [List.length_append, List.length_singleton]
        omega)
    have hskip : skipSpace (quote false t ++ r) = quote false t ++ r := by
      rw [quote]
      rfl
    have hopen : expect 93 (quote false t ++ r) = none := by
      rw [quote]
      rfl
    rw [loads]
    change (parseValue _ (91 :: _)).bind _ = _
    rw [List.length_cons, parseValue, if_neg (by decide), if_pos rfl]
    rw [hr] at hparse ⊢
    rw [hskip, hopen]
    simp only [hparse, Option.map_some, Option.bind_some]
    rfl

end Texts

end C3RSpec.Base

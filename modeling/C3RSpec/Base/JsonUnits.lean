import C3RSpec.Base.Fields
import C3RSpec.Base.JsonScalar

/-!
# What `ensure_ascii` keeps

Library `Base`. With `ensure_ascii=True` a string is written unit by unit: a character beyond the
basic plane takes the escapes of its two surrogates. So a quoted string determines the code units
and nothing more: a character and its pair of surrogates are written alike.
-/

namespace C3RSpec.Base

/-- The code units of a character: itself, or its two surrogates. -/
def CodePoint.units (c : CodePoint) : Text :=
  if c.val < 0x10000 then [c]
  else [⟨0xD800 + (c.val - 0x10000) / 1024, by omega⟩, ⟨0xDC00 + (c.val - 0x10000) % 1024, by omega⟩]

/-- The code units of a text. -/
def Text.units (t : Text) : Text := t.flatMap CodePoint.units

private theorem lt_of_mem_units {t : Text} {c : CodePoint} (h : c ∈ t.units) : c.val < 0x10000 := by
  obtain ⟨d, -, hc⟩ := List.mem_flatMap.mp h
  have hd := d.isLt
  unfold CodePoint.units at hc
  split at hc
  · next hbasic =>
    rw [List.mem_singleton.mp hc]
    exact hbasic
  · next hbeyond =>
    simp only [List.mem_cons, List.not_mem_nil, or_false] at hc
    obtain rfl | rfl := hc
    · simp only
      omega
    · simp only
      omega

/-- A text of the basic plane is its units. -/
theorem Text.units_of_basic {t : Text} (h : ∀ c ∈ t, c.val < 0x10000) : t.units = t := by
  induction t with
  | nil => rfl
  | cons c t ih =>
    change CodePoint.units c ++ Text.units t = _
    rw [ih fun d hd ↦ h d (List.mem_cons_of_mem c hd), CodePoint.units,
      if_pos (h c List.mem_cons_self), List.singleton_append]

/-- An ASCII text is its units. -/
theorem Text.units_of_ascii {t : Text} (h : t.isAscii = true) : t.units = t := by
  apply Text.units_of_basic
  intro c hc
  rw [Text.isAscii, List.all_eq_true] at h
  have := of_decide_eq_true (h c hc)
  omega

/-- Units are their own units. -/
theorem Text.units_units (t : Text) : t.units.units = t.units :=
  Text.units_of_basic fun _ hc ↦ lt_of_mem_units hc

private theorem lt_of_units_ascii {c : CodePoint} (h : c.units.isAscii = true) : c.val < 128 := by
  rw [CodePoint.units] at h
  split at h
  · rw [Text.isAscii, List.all_cons, Bool.and_eq_true] at h
    exact of_decide_eq_true h.1
  · rw [Text.isAscii, List.all_cons, Bool.and_eq_true] at h
    have := of_decide_eq_true h.1
    simp only at this
    omega

/-- Only an ASCII text has the units of one. -/
theorem Text.units_eq_ascii {t u : Text} (hu : u.isAscii = true) : t.units = u ↔ t = u := by
  constructor
  · intro h
    have ht : t.isAscii = true := by
      rw [Text.isAscii, List.all_eq_true]
      intro c hc
      refine decide_eq_true (lt_of_units_ascii ?_)
      rw [Text.isAscii, List.all_eq_true] at hu ⊢
      exact fun d hd ↦ hu d (h ▸ List.mem_flatMap.mpr ⟨c, hc, hd⟩)
    rw [← h, Text.units_of_ascii ht]
  · rintro rfl
    exact Text.units_of_ascii hu

theorem CodePoint.units_ne_nil (c : CodePoint) : c.units ≠ [] := by
  rw [CodePoint.units]
  split
  · exact List.cons_ne_nil _ _
  · exact List.cons_ne_nil _ _

theorem Text.units_eq_nil {t : Text} : t.units = [] ↔ t = [] := by
  rw [Text.units, List.flatMap_eq_nil_iff]
  constructor
  · intro h
    exact List.eq_nil_iff_forall_not_mem.mpr fun c hc ↦ CodePoint.units_ne_nil c (h c hc)
  · rintro rfl c hc
    cases hc

-- A scalar value is no surrogate, so its first unit says whether a second one follows.
private theorem units_append_inj {c d : CodePoint} (hc : (CodePoint.toChar? c).isSome)
    (hd : (CodePoint.toChar? d).isSome) {x y : Text} (h : c.units ++ x = d.units ++ y) :
    c = d ∧ x = y := by
  have hscalar : ∀ e : CodePoint, (CodePoint.toChar? e).isSome → e.val < 0xD800 ∨ 0xDFFF < e.val := by
    intro e he
    obtain hv | hv := CodePoint.isValidChar_of_isSome he
    · exact .inl hv
    · exact .inr hv.1
  have hc := hscalar c hc
  have hd := hscalar d hd
  have hclt := c.isLt
  have hdlt := d.isLt
  rw [CodePoint.units, CodePoint.units] at h
  split at h
  · split at h
    · simp only [List.singleton_append, List.cons.injEq] at h
      exact h
    · simp only [List.cons_append, List.cons.injEq, Fin.ext_iff] at h
      omega
  · split at h
    · simp only [List.cons_append, List.cons.injEq, Fin.ext_iff] at h
      omega
    · simp only [List.cons_append, List.nil_append, List.cons.injEq, Fin.mk.injEq] at h
      exact ⟨Fin.ext (by omega), h.2.2⟩

/-- Texts without surrogates are told apart by their units. -/
theorem Text.units_inj_of_isScalar {a b : Text} (ha : a.IsScalar) (hb : b.IsScalar)
    (h : a.units = b.units) : a = b := by
  induction a generalizing b with
  | nil => exact (Text.units_eq_nil.mp h.symm).symm
  | cons c a ih =>
    cases b with
    | nil => exact Text.units_eq_nil.mp h
    | cons d b =>
      obtain ⟨rfl, hab⟩ :=
        units_append_inj (ha c List.mem_cons_self) (hb d List.mem_cons_self) h
      rw [ih (fun e he ↦ ha e (List.mem_cons_of_mem c he))
        (fun e he ↦ hb e (List.mem_cons_of_mem c he)) hab]

/-! ### Units read back -/

/-- The unit behind a backslash. -/
def readEscape : Text → Option (CodePoint × Text)
  | [] => none
  | d :: t =>
    if d = 117 then (hex4? t).bind fun p ↦ (codePoint? p.1).map fun c ↦ (c, p.2)
    else (simpleEscape? d).map fun x ↦ (x, t)

/-- The unit at the start of the rest of a quoted string. -/
def readUnit : Text → Option (CodePoint × Text)
  | [] => none
  | c :: t => if c = 34 then none else if c = 92 then readEscape t else some (c, t)

/-- A character is written as its units. -/
theorem escapeChar_eq_units (c : CodePoint) :
    escapeChar true c = c.units.flatMap (escapeChar true) := by
  rw [CodePoint.units]
  split
  · rw [List.flatMap_singleton]
  · next hbeyond =>
    have hc := c.isLt
    rw [escapeChar_of_gt (by omega), if_neg hbeyond]
    simp only [List.flatMap_cons, List.flatMap_nil, List.append_nil]
    rw [escapeChar_of_gt (by simp only; omega), escapeChar_of_gt (by simp only; omega),
      if_pos (by simp only; omega), if_pos (by simp only; omega)]

private theorem readUnit_unicodeEscape {c : CodePoint} (h : c.val < 0x10000) (rest : Text) :
    readUnit (unicodeEscape c.val ++ rest) = some (c, rest) := by
  have hv : ((c.val / 4096 % 16 * 16 + c.val / 256 % 16) * 16 + c.val / 16 % 16) * 16 +
      c.val % 16 = c.val := by omega
  have hc : codePoint? c.val = some c := by simp [codePoint?, c.isLt]
  have hquote : ¬ (92 : CodePoint) = 34 := by decide
  simp [unicodeEscape, readUnit, readEscape, hquote, hex4?, hexValue?_hexDigit, hv, hc]

private theorem readUnit_escapeChar {c : CodePoint} (h : c.val < 0x10000) (rest : Text) :
    readUnit (escapeChar true c ++ rest) = some (c, rest) := by
  by_cases hgt : 126 < c.val
  · rw [escapeChar_of_gt hgt, if_pos h]
    exact readUnit_unicodeEscape h rest
  · rw [escapeChar_of_not_gt hgt]
    obtain ⟨d, hd, hx, he⟩ | ⟨-, he⟩ | ⟨h1, h2, -, he⟩ := escapeChar_cases c
    · rw [he, List.cons_append, List.singleton_append, readUnit, if_neg (by decide), if_pos rfl,
        readEscape, if_neg hd, hx, Option.map_some]
    · rw [he]
      exact readUnit_unicodeEscape h rest
    · rw [he, List.singleton_append, readUnit, if_neg h1, if_neg h2]

private theorem units_inj {a b x y : Text} (ha : ∀ c ∈ a, c.val < 0x10000)
    (hb : ∀ c ∈ b, c.val < 0x10000)
    (h : a.flatMap (escapeChar true) ++ 34 :: x = b.flatMap (escapeChar true) ++ 34 :: y) :
    a = b ∧ x = y := by
  have hquote : ∀ t, readUnit (34 :: t) = none := fun t ↦ by rw [readUnit, if_pos rfl]
  induction a generalizing b with
  | nil =>
    cases b with
    | nil => exact ⟨rfl, (List.cons.inj h).2⟩
    | cons d b =>
      have hread := congrArg readUnit h
      rw [List.flatMap_nil, List.nil_append, hquote, List.flatMap_cons, List.append_assoc,
        readUnit_escapeChar (hb d List.mem_cons_self)] at hread
      cases hread
  | cons c a ih =>
    have hread := congrArg readUnit h
    rw [List.flatMap_cons, List.append_assoc, readUnit_escapeChar (ha c List.mem_cons_self)] at hread
    cases b with
    | nil =>
      rw [List.flatMap_nil, List.nil_append, hquote] at hread
      cases hread
    | cons d b =>
      rw [List.flatMap_cons, List.append_assoc, readUnit_escapeChar (hb d List.mem_cons_self),
        Option.some.injEq, Prod.mk.injEq] at hread
      obtain ⟨rfl, hrest⟩ := hread
      obtain ⟨rfl, hxy⟩ := ih (fun e he ↦ ha e (List.mem_cons_of_mem c he))
        (fun e he ↦ hb e (List.mem_cons_of_mem c he)) hrest
      exact ⟨rfl, hxy⟩

private theorem quote_eq_units (t : Text) :
    quote true t = 34 :: (t.units.flatMap (escapeChar true) ++ [34]) := by
  rw [quote, Text.units, List.flatMap_assoc]
  congr 2
  exact List.flatMap_congr fun c _ ↦ escapeChar_eq_units c

/-- Texts with the same units are quoted alike. -/
theorem quote_congr {a b : Text} (h : a.units = b.units) : quote true a = quote true b := by
  rw [quote_eq_units, quote_eq_units, h]

/-- A quoted string determines its units and what follows. -/
theorem quote_inj {a b x y : Text} (h : quote true a ++ x = quote true b ++ y) :
    a.units = b.units ∧ x = y := by
  rw [quote_eq_units, quote_eq_units] at h
  simp only [List.cons_append, List.append_assoc, List.nil_append] at h
  exact units_inj (fun _ ↦ lt_of_mem_units) (fun _ ↦ lt_of_mem_units) (List.cons.inj h).2

/-! ### Values -/

mutual

/-- The value with the code units of its texts. -/
def Json.units : Json → Json
  | .str t => .str t.units
  | .arr xs => .arr (elementUnits xs)
  | .obj es => .obj (memberUnits es)
  | .null => .null
  | .bool b => .bool b
  | .int n => .int n
  | .float x => .float x

/-- Units inside every element. -/
def elementUnits : List Json → List Json
  | [] => []
  | x :: xs => x.units :: elementUnits xs

/-- Units of every key and inside every member value. -/
def memberUnits : List (Text × Json) → List (Text × Json)
  | [] => []
  | e :: es => (e.1.units, e.2.units) :: memberUnits es

end

theorem elementUnits_eq_map (xs : List Json) : elementUnits xs = xs.map Json.units := by
  induction xs with
  | nil => rfl
  | cons x xs ih => rw [elementUnits, ih, List.map_cons]

theorem memberUnits_eq_map (es : List (Text × Json)) :
    memberUnits es = es.map fun e ↦ (e.1.units, e.2.units) := by
  induction es with
  | nil => rfl
  | cons e es ih => rw [memberUnits, ih, List.map_cons]

/-- The member under a key of an object whose keys are ASCII. -/
theorem Json.get?_units {es : List (Text × Json)} (h : ∀ e ∈ es, e.1.isAscii = true) (k : Text) :
    (Json.obj es).units.get? k = ((Json.obj es).get? k).map Json.units := by
  rw [Json.units, memberUnits_eq_map]
  induction es with
  | nil => rfl
  | cons e es ih =>
    have hkey := Text.units_of_ascii (h e List.mem_cons_self)
    have ih := ih fun f hf ↦ h f (List.mem_cons_of_mem e hf)
    simp only [Json.get?] at ih ⊢
    by_cases he : e.1 = k
    · rw [List.map_cons, List.find?_cons_of_pos (by simpa [hkey] using he),
        List.find?_cons_of_pos (by simpa using he)]
      rfl
    · rw [List.map_cons, List.find?_cons_of_neg (by simpa [hkey] using he),
        List.find?_cons_of_neg (by simpa using he), ih]

/-- Objects with ASCII keys that are written alike have members that are written alike. -/
theorem Json.get?_of_units_eq {es fs : List (Text × Json)} (hes : (es.map Prod.fst).Nodup)
    (hfs : (fs.map Prod.fst).Nodup) (hesAscii : ∀ e ∈ es, e.1.isAscii = true)
    (hfsAscii : ∀ e ∈ fs, e.1.isAscii = true)
    (h : (Json.obj es).sortKeys.units = (Json.obj fs).sortKeys.units) (k : Text) :
    ((Json.obj es).get? k).map (fun j ↦ j.sortKeys.units) =
      ((Json.obj fs).get? k).map fun j ↦ j.sortKeys.units := by
  have hget : ∀ gs : List (Text × Json), (gs.map Prod.fst).Nodup →
      (∀ e ∈ gs, e.1.isAscii = true) → (Json.obj gs).sortKeys.units.get? k =
        ((Json.obj gs).get? k).map fun j ↦ j.sortKeys.units := by
    intro gs hgs hascii
    have hsorted : ∀ e ∈ (sortMembers gs).insertionSort keyLe, e.1.isAscii = true := by
      intro e he
      obtain ⟨d, hd, rfl⟩ := mem_sorted.mp he
      exact hascii d hd
    rw [Json.sortKeys, Json.get?_units hsorted, ← Json.sortKeys, Json.get?_sortKeys hgs,
      Option.map_map]
    rfl
  rw [← hget es hes hesAscii, h, hget fs hfs hfsAscii]

/-- A value that is neither a string nor a container. -/
def Json.isAtom : Json → Bool
  | .null | .bool _ | .int _ | .float _ => true
  | .str _ | .arr _ | .obj _ => false

section Render

variable [FloatText]

private theorem parseScalar_atom {j : Json} (hj : j.isAtom = true) {x : Text} (hx : Stops x) :
    parseScalar (j.render true ++ x) = some (j, x) := by
  cases j with
  | null => rfl
  | bool b => cases b <;> rfl
  | int n => exact parseScalar_int n hx
  | float y =>
    cases y with
    | nan => rfl
    | posInf => rfl
    | negInf => rfl
    | fin q => exact parseScalar_float q hx
  | str t => cases hj
  | arr xs => cases hj
  | obj es => cases hj

private theorem parseScalar_compound {j : Json} (hj : j.isAtom = false) (x : Text) :
    parseScalar (j.render true ++ x) = none := by
  cases j with
  | str t => rfl
  | arr xs => rfl
  | obj es => rfl
  | null => cases hj
  | bool b => cases hj
  | int n => cases hj
  | float y => cases hj

private theorem renderElements_cons (x : Json) (xs : List Json) (y : Text) :
    renderElements true (x :: xs) ++ 93 :: y = x.render true ++
      (if xs = [] then 93 :: y else 44 :: (renderElements true xs ++ 93 :: y)) := by
  cases xs with
  | nil => rfl
  | cons z zs => simp [renderElements]

private theorem renderMembers_cons (e : Text × Json) (es : List (Text × Json)) (y : Text) :
    renderMembers true (e :: es) ++ 125 :: y = quote true e.1 ++ 58 :: (e.2.render true ++
      (if es = [] then 125 :: y else 44 :: (renderMembers true es ++ 125 :: y))) := by
  cases es with
  | nil => simp [renderMembers]
  | cons f fs => simp [renderMembers]

-- A value never starts with the bracket that closes an array.
private theorem render_append_ne_bracket (j : Json) {x : Text} (hx : Stops x) (y : Text) :
    j.render true ++ x ≠ 93 :: y := by
  intro h
  have hread : parseScalar (j.render true ++ x) = none := by
    rw [h]
    rfl
  cases hj : j.isAtom with
  | true =>
    rw [parseScalar_atom hj hx] at hread
    cases hread
  | false =>
    cases j with
    | str t => exact absurd (List.cons.inj h).1 (by decide)
    | arr xs => exact absurd (List.cons.inj h).1 (by decide)
    | obj es => exact absurd (List.cons.inj h).1 (by decide)
    | null => cases hj
    | bool b => cases hj
    | int n => cases hj
    | float z => cases hj

private theorem stops_elements (xs : List Json) (y : Text) :
    Stops (if xs = [] then 93 :: y else 44 :: (renderElements true xs ++ 93 :: y)) := by
  split
  · exact stops_cons y (by decide)
  · exact stops_cons _ (by decide)

private theorem stops_members (es : List (Text × Json)) (y : Text) :
    Stops (if es = [] then 125 :: y else 44 :: (renderMembers true es ++ 125 :: y)) := by
  split
  · exact stops_cons y (by decide)
  · exact stops_cons _ (by decide)

private theorem atom_inj {a b : Json} (ha : a.isAtom = true) {x y : Text} (hx : Stops x)
    (hy : Stops y) (h : a.render true ++ x = b.render true ++ y) : a = b ∧ x = y := by
  have hread := congrArg parseScalar h
  rw [parseScalar_atom ha hx] at hread
  cases hb : b.isAtom with
  | true =>
    rw [parseScalar_atom hb hy, Option.some.injEq, Prod.mk.injEq] at hread
    exact hread
  | false =>
    rw [parseScalar_compound hb] at hread
    cases hread

-- The first character tells strings, arrays and objects from everything else.
private theorem isAtom_of_head {a b : Json} {x y : Text} (hx : Stops x)
    (h : a.render true ++ x = b.render true ++ y) (hb : b.isAtom = false) : a.isAtom = false := by
  have hread := congrArg parseScalar h
  rw [parseScalar_compound hb] at hread
  cases ha : a.isAtom with
  | false => rfl
  | true =>
    rw [parseScalar_atom ha hx] at hread
    cases hread

mutual

/-- What is written determines the value up to the units of its texts, and what follows. -/
theorem Json.render_append_inj (a : Json) {b : Json} {x y : Text} (hx : Stops x) (hy : Stops y)
    (h : a.render true ++ x = b.render true ++ y) : a.units = b.units ∧ x = y := by
  cases a with
  | str t =>
    cases b with
    | str u =>
      obtain ⟨htu, hxy⟩ := quote_inj h
      exact ⟨congrArg Json.str htu, hxy⟩
    | arr ys => exact absurd (List.cons.inj h).1 (by decide)
    | obj fs => exact absurd (List.cons.inj h).1 (by decide)
    | null => cases isAtom_of_head hy h.symm rfl
    | bool b => cases isAtom_of_head hy h.symm rfl
    | int n => cases isAtom_of_head hy h.symm rfl
    | float z => cases isAtom_of_head hy h.symm rfl
  | arr xs =>
    cases b with
    | arr ys =>
      obtain ⟨hunits, hxy⟩ := elements_inj xs (by simpa [Json.render] using h)
      exact ⟨congrArg Json.arr hunits, hxy⟩
    | str u => exact absurd (List.cons.inj h).1 (by decide)
    | obj fs => exact absurd (List.cons.inj h).1 (by decide)
    | null => cases isAtom_of_head hy h.symm rfl
    | bool b => cases isAtom_of_head hy h.symm rfl
    | int n => cases isAtom_of_head hy h.symm rfl
    | float z => cases isAtom_of_head hy h.symm rfl
  | obj es =>
    cases b with
    | obj fs =>
      obtain ⟨hunits, hxy⟩ := members_inj es (by simpa [Json.render] using h)
      exact ⟨congrArg Json.obj hunits, hxy⟩
    | str u => exact absurd (List.cons.inj h).1 (by decide)
    | arr ys => exact absurd (List.cons.inj h).1 (by decide)
    | null => cases isAtom_of_head hy h.symm rfl
    | bool b => cases isAtom_of_head hy h.symm rfl
    | int n => cases isAtom_of_head hy h.symm rfl
    | float z => cases isAtom_of_head hy h.symm rfl
  | null =>
    obtain ⟨rfl, hxy⟩ := atom_inj rfl hx hy h
    exact ⟨rfl, hxy⟩
  | bool b =>
    obtain ⟨rfl, hxy⟩ := atom_inj rfl hx hy h
    exact ⟨rfl, hxy⟩
  | int n =>
    obtain ⟨rfl, hxy⟩ := atom_inj rfl hx hy h
    exact ⟨rfl, hxy⟩
  | float z =>
    obtain ⟨rfl, hxy⟩ := atom_inj rfl hx hy h
    exact ⟨rfl, hxy⟩

private theorem elements_inj (as : List Json) {bs : List Json} {x y : Text}
    (h : renderElements true as ++ 93 :: x = renderElements true bs ++ 93 :: y) :
    elementUnits as = elementUnits bs ∧ x = y := by
  cases as with
  | nil =>
    cases bs with
    | nil => exact ⟨rfl, (List.cons.inj h).2⟩
    | cons b bs =>
      rw [renderElements_cons] at h
      exact absurd h.symm (render_append_ne_bracket b (stops_elements bs y) x)
  | cons a as =>
    cases bs with
    | nil =>
      rw [renderElements_cons] at h
      exact absurd h (render_append_ne_bracket a (stops_elements as x) y)
    | cons b bs =>
      rw [renderElements_cons, renderElements_cons] at h
      obtain ⟨hab, hrest⟩ := a.render_append_inj (stops_elements as x) (stops_elements bs y) h
      -- either both lists end here, or both go on
      have htail : elementUnits as = elementUnits bs ∧ x = y := by
        by_cases has : as = []
        · by_cases hbs : bs = []
          · rw [if_pos has, if_pos hbs] at hrest
            exact ⟨by rw [has, hbs], (List.cons.inj hrest).2⟩
          · rw [if_pos has, if_neg hbs] at hrest
            exact absurd (List.cons.inj hrest).1 (by decide)
        · by_cases hbs : bs = []
          · rw [if_neg has, if_pos hbs] at hrest
            exact absurd (List.cons.inj hrest).1 (by decide)
          · rw [if_neg has, if_neg hbs] at hrest
            exact elements_inj as (List.cons.inj hrest).2
      exact ⟨by rw [elementUnits, elementUnits, hab, htail.1], htail.2⟩

private theorem members_inj (as : List (Text × Json)) {bs : List (Text × Json)} {x y : Text}
    (h : renderMembers true as ++ 125 :: x = renderMembers true bs ++ 125 :: y) :
    memberUnits as = memberUnits bs ∧ x = y := by
  cases as with
  | nil =>
    cases bs with
    | nil => exact ⟨rfl, (List.cons.inj h).2⟩
    | cons b bs =>
      rw [renderMembers_cons] at h
      exact absurd (List.cons.inj h).1 (by decide)
  | cons a as =>
    obtain ⟨k, v⟩ := a
    cases bs with
    | nil =>
      rw [renderMembers_cons] at h
      exact absurd (List.cons.inj h).1 (by decide)
    | cons b bs =>
      obtain ⟨l, w⟩ := b
      rw [renderMembers_cons, renderMembers_cons] at h
      obtain ⟨hkey, hvalue⟩ := quote_inj h
      obtain ⟨hvw, hrest⟩ := v.render_append_inj (stops_members as x) (stops_members bs y)
        (List.cons.inj hvalue).2
      have htail : memberUnits as = memberUnits bs ∧ x = y := by
        by_cases has : as = []
        · by_cases hbs : bs = []
          · rw [if_pos has, if_pos hbs] at hrest
            exact ⟨by rw [has, hbs], (List.cons.inj hrest).2⟩
          · rw [if_pos has, if_neg hbs] at hrest
            exact absurd (List.cons.inj hrest).1 (by decide)
        · by_cases hbs : bs = []
          · rw [if_neg has, if_pos hbs] at hrest
            exact absurd (List.cons.inj hrest).1 (by decide)
          · rw [if_neg has, if_neg hbs] at hrest
            exact members_inj as (List.cons.inj hrest).2
      exact ⟨by rw [memberUnits, memberUnits, hkey, hvw, htail.1], htail.2⟩

end

mutual

/-- A value is written unit by unit. -/
theorem Json.render_units (j : Json) : j.units.render true = j.render true := by
  cases j with
  | str t => exact quote_congr (Text.units_units t)
  | arr xs => rw [Json.units, Json.render, Json.render, elements_units]
  | obj es => rw [Json.units, Json.render, Json.render, members_units]
  | null => rfl
  | bool b => rfl
  | int n => rfl
  | float x => rfl

private theorem elements_units (xs : List Json) :
    renderElements true (elementUnits xs) = renderElements true xs := by
  cases xs with
  | nil => rfl
  | cons x xs =>
    have hx := x.render_units
    have hxs := elements_units xs
    cases xs with
    | nil => exact hx
    | cons y ys =>
      change x.units.render true ++ 44 :: renderElements true (elementUnits (y :: ys)) = _
      rw [hx, hxs]
      rfl

private theorem members_units (es : List (Text × Json)) :
    renderMembers true (memberUnits es) = renderMembers true es := by
  cases es with
  | nil => rfl
  | cons e es =>
    obtain ⟨k, v⟩ := e
    have hk := quote_congr (Text.units_units k)
    have hv := v.render_units
    have hes := members_units es
    cases es with
    | nil =>
      change quote true k.units ++ 58 :: v.units.render true = _
      rw [hk, hv]
      rfl
    | cons f fs =>
      change quote true k.units ++ 58 :: (v.units.render true ++
        44 :: renderMembers true (memberUnits (f :: fs))) = _
      rw [hk, hv, hes]
      rfl

end

/-- A value is written like those with its units, and like no others. -/
theorem Json.render_eq_iff {a b : Json} : a.render true = b.render true ↔ a.units = b.units := by
  constructor
  · intro h
    have hnil : Stops [] := fun c hc ↦ (nomatch hc)
    exact (a.render_append_inj hnil hnil (by rw [h])).1
  · intro h
    rw [← a.render_units, h, b.render_units]

end Render

end C3RSpec.Base

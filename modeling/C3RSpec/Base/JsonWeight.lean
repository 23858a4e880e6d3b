import C3RSpec.Base.JsonParse

/-!
# Strings in decoded JSON

Library `Base`. What `json.loads` returns holds no more characters in its strings than the text
it reads: every step of the decoder consumes at least what it produces, and a repeated key only
loses values.
-/

namespace C3RSpec.Base

mutual

/-- Characters of the strings in a value; keys do not count. -/
def Json.chars : Json → Nat
  | .str t => t.length
  | .arr xs => elementsChars xs
  | .obj es => membersChars es
  | .null | .bool _ | .int _ | .float _ => 0

/-- Characters of the strings in the elements. -/
def elementsChars : List Json → Nat
  | [] => 0
  | x :: xs => x.chars + elementsChars xs

/-- Characters of the strings in the member values. -/
def membersChars : List (Text × Json) → Nat
  | [] => 0
  | e :: es => e.2.chars + membersChars es

end

private theorem membersChars_eq_sum (es : List (Text × Json)) :
    membersChars es = (es.map fun e ↦ e.2.chars).sum := by
  induction es with
  | nil => rfl
  | cons e es ih => rw [membersChars, ih, List.map_cons, List.sum_cons]

/-! ### What the decoder consumes -/

private theorem length_skipSpace_le (t : Text) : (skipSpace t).length ≤ t.length :=
  (List.dropWhile_suffix isSpace).length_le

private theorem length_of_expect {c : CodePoint} {t rest : Text} (h : expect c t = some rest) :
    rest.length + 1 = t.length := by
  cases t with
  | nil => cases h
  | cons d t =>
    simp only [expect] at h
    split at h
    · cases h
      rfl
    · cases h

private theorem length_of_expectText {s t rest : Text} (h : expectText s t = some rest) :
    rest.length + s.length = t.length := by
  induction s generalizing t with
  | nil =>
    cases h
    rfl
  | cons c s ih =>
    simp only [expectText, Option.bind_eq_some_iff] at h
    obtain ⟨t', ht, h⟩ := h
    have hrest := ih h
    have hexpect := length_of_expect ht
    rw [List.length_cons]
    omega

private theorem length_of_hex4? {t rest : Text} {n : Nat} (h : hex4? t = some (n, rest)) :
    rest.length + 4 = t.length := by
  unfold hex4? at h
  split at h
  · simp only [bind, Option.bind_eq_some_iff, Option.some.injEq, Prod.mk.injEq] at h
    obtain ⟨a, -, b, -, c, -, d, -, -, rfl⟩ := h
    rfl
  · cases h

private theorem length_of_lowSurrogate? {t rest : Text} {n : Nat}
    (h : lowSurrogate? t = some (n, rest)) : rest.length ≤ t.length := by
  simp only [lowSurrogate?, bind, Option.bind_eq_some_iff, Prod.exists] at h
  obtain ⟨t', ht, m, t'', hm, h⟩ := h
  have hprefix := length_of_expectText ht
  have hdigits := length_of_hex4? hm
  split at h
  · cases h
    omega
  · cases h

private theorem length_of_unicodeUnit? {t rest : Text} {c : CodePoint}
    (h : unicodeUnit? t = some (c, rest)) : rest.length + 4 ≤ t.length := by
  simp only [unicodeUnit?, bind, Option.bind_eq_some_iff, Prod.exists] at h
  obtain ⟨n, t', ht, h⟩ := h
  have hdigits := length_of_hex4? ht
  split at h
  · split at h
    · next m t'' hm =>
      have hlow := length_of_lowSurrogate? hm
      simp only [Option.map_eq_some_iff, Prod.mk.injEq] at h
      obtain ⟨d, -, -, rfl⟩ := h
      omega
    · simp only [Option.map_eq_some_iff, Prod.mk.injEq] at h
      obtain ⟨d, -, -, rfl⟩ := h
      omega
  · simp only [Option.map_eq_some_iff, Prod.mk.injEq] at h
    obtain ⟨d, -, -, rfl⟩ := h
    omega

private theorem length_of_scanEscape {t rest : Text} {c : CodePoint}
    (h : scanEscape t = some (c, rest)) : rest.length + 1 ≤ t.length := by
  cases t with
  | nil => cases h
  | cons d t =>
    simp only [scanEscape] at h
    rw [List.length_cons]
    split at h
    · have hunit := length_of_unicodeUnit? h
      omega
    · simp only [Option.map_eq_some_iff, Prod.mk.injEq] at h
      obtain ⟨x, -, -, rfl⟩ := h
      omega

private theorem length_of_scanChar {t rest : Text} {c : Option CodePoint}
    (h : scanChar t = some (c, rest)) : rest.length + 1 ≤ t.length := by
  cases t with
  | nil => cases h
  | cons d t =>
    simp only [scanChar] at h
    rw [List.length_cons]
    split at h
    · cases h
      omega
    · split at h
      · simp only [Option.map_eq_some_iff, Prod.mk.injEq, Prod.exists] at h
        obtain ⟨x, t', ht, -, rfl⟩ := h
        have hescape := length_of_scanEscape ht
        omega
      · split at h
        · cases h
        · cases h
          omega

private theorem length_of_scanString {n : Nat} {t s rest : Text}
    (h : scanString n t = some (s, rest)) : s.length + rest.length ≤ t.length := by
  induction n generalizing t s with
  | zero => cases h
  | succ n ih =>
    simp only [scanString] at h
    split at h
    · cases h
    · next hchar =>
      have hlen := length_of_scanChar hchar
      cases h
      rw [List.length_nil]
      omega
    · next c t' hchar =>
      have hlen := length_of_scanChar hchar
      simp only [Option.map_eq_some_iff, Prod.mk.injEq, Prod.exists] at h
      obtain ⟨s', rest', hs, rfl, rfl⟩ := h
      have hrest := ih hs
      rw [List.length_cons]
      omega

section Parse

variable [FloatText]

private theorem chars_of_parseScalar {t rest : Text} {j : Json}
    (h : parseScalar t = some (j, rest)) : j.chars + rest.length ≤ t.length := by
  have hdrop : (t.dropWhile isNumberChar).length ≤ t.length :=
    (List.dropWhile_suffix isNumberChar).length_le
  have hliteral : ∀ {s r : Text}, expectText s t = some r → 0 + r.length ≤ t.length := by
    intro s r hr
    have := length_of_expectText hr
    omega
  simp only [parseScalar] at h
  split at h
  · cases h
    exact Nat.le_trans (Nat.le_of_eq (Nat.zero_add _)) hdrop
  · split at h
    · cases h
      exact Nat.le_trans (Nat.le_of_eq (Nat.zero_add _)) hdrop
    · split at h
      · next hr =>
        cases h
        exact hliteral hr
      · split at h
        · next hr =>
          cases h
          exact hliteral hr
        · split at h
          · next hr =>
            cases h
            exact hliteral hr
          · split at h
            · next hr =>
              cases h
              exact hliteral hr
            · split at h
              · next hr =>
                cases h
                exact hliteral hr
              · rw [Option.map_eq_some_iff] at h
                obtain ⟨r, hr, h⟩ := h
                cases h
                exact hliteral hr

private def ValueFits (n : Nat) : Prop :=
  ∀ {t rest : Text} {j : Json}, parseValue n t = some (j, rest) →
    j.chars + rest.length ≤ t.length

private def ElementsFit (n : Nat) : Prop :=
  ∀ {t rest : Text} {xs : List Json}, parseElements n t = some (xs, rest) →
    elementsChars xs + rest.length ≤ t.length

private def MembersFit (n : Nat) : Prop :=
  ∀ {t rest : Text} {es : List (Text × Json)}, parseMembers n t = some (es, rest) →
    membersChars es + rest.length ≤ t.length

private theorem valueFits_succ {n : Nat} (helements : ElementsFit n) (hmembers : MembersFit n) :
    ValueFits (n + 1) := by
  intro t rest j h
  cases t with
  | nil => cases h
  | cons c t =>
    have hskip := length_skipSpace_le t
    simp only [parseValue] at h
    rw [List.length_cons]
    split at h
    · simp only [Option.map_eq_some_iff, Prod.mk.injEq, Prod.exists] at h
      obtain ⟨s, r, hs, rfl, rfl⟩ := h
      have hstring := length_of_scanString hs
      rw [Json.chars]
      omega
    · split at h
      · split at h
        · next r hr =>
          cases h
          have hclose := length_of_expect hr
          rw [Json.chars, elementsChars]
          omega
        · simp only [Option.map_eq_some_iff, Prod.mk.injEq, Prod.exists] at h
          obtain ⟨xs, r, hxs, rfl, rfl⟩ := h
          have hfit := helements hxs
          rw [Json.chars]
          omega
      · split at h
        · split at h
          · next r hr =>
            cases h
            have hclose := length_of_expect hr
            rw [Json.chars, membersChars]
            omega
          · simp only [Option.map_eq_some_iff, Prod.mk.injEq, Prod.exists] at h
            obtain ⟨es, r, hes, rfl, rfl⟩ := h
            have hfit := hmembers hes
            -- a repeated key keeps one of its values
            have hkept := Dict.sum_ofList_le (fun e : Text × Json ↦ e.2.chars) es
            rw [membersChars_eq_sum] at hfit
            rw [Json.chars, membersChars_eq_sum]
            omega
        · exact chars_of_parseScalar (Option.filter_eq_some_iff.mp h).1

private theorem elementsFit_succ {n : Nat} (hvalue : ValueFits n) (helements : ElementsFit n) :
    ElementsFit (n + 1) := by
  intro t rest xs h
  simp only [parseElements, Option.bind_eq_some_iff, Prod.exists] at h
  obtain ⟨x, t', hx, h⟩ := h
  have hfirst := hvalue hx
  have hskip := length_skipSpace_le t'
  split at h
  · next r hr =>
    simp only [Option.map_eq_some_iff, Prod.mk.injEq, Prod.exists] at h
    obtain ⟨ys, r', hys, rfl, rfl⟩ := h
    have hcomma := length_of_expect hr
    have hrest := helements hys
    have hskip' := length_skipSpace_le r
    rw [elementsChars]
    omega
  · simp only [Option.map_eq_some_iff, Prod.mk.injEq] at h
    obtain ⟨r, hr, rfl, rfl⟩ := h
    have hclose := length_of_expect hr
    rw [elementsChars, elementsChars]
    omega

private theorem membersFit_succ {n : Nat} (hvalue : ValueFits n) (hmembers : MembersFit n) :
    MembersFit (n + 1) := by
  intro t rest es h
  simp only [parseMembers, Option.bind_eq_some_iff, Prod.exists] at h
  obtain ⟨t₁, ht₁, k, t₂, hk, t₃, ht₃, x, t₄, hx, h⟩ := h
  have hquote := length_of_expect ht₁
  have hkey := length_of_scanString hk
  have hskip₂ := length_skipSpace_le t₂
  have hcolon := length_of_expect ht₃
  have hskip₃ := length_skipSpace_le t₃
  have hfirst := hvalue hx
  have hskip₄ := length_skipSpace_le t₄
  split at h
  · next r hr =>
    simp only [Option.map_eq_some_iff, Prod.mk.injEq, Prod.exists] at h
    obtain ⟨ys, r', hys, rfl, rfl⟩ := h
    have hcomma := length_of_expect hr
    have hrest := hmembers hys
    have hskip := length_skipSpace_le r
    simp only [membersChars]
    omega
  · simp only [Option.map_eq_some_iff, Prod.mk.injEq] at h
    obtain ⟨r, hr, rfl, rfl⟩ := h
    have hclose := length_of_expect hr
    simp only [membersChars]
    omega

private theorem fits (n : Nat) : ValueFits n ∧ ElementsFit n ∧ MembersFit n := by
  induction n with
  | zero =>
    refine ⟨?_, ?_, ?_⟩
    · intro t rest j h
      cases h
    · intro t rest xs h
      cases h
    · intro t rest es h
      cases h
  | succ n ih =>
    obtain ⟨hvalue, helements, hmembers⟩ := ih
    exact ⟨valueFits_succ helements hmembers, elementsFit_succ hvalue helements,
      membersFit_succ hvalue hmembers⟩

/-- A decoded value holds no more string characters than the text it came from. -/
theorem chars_le_of_loads {t : Text} {j : Json} (h : loads t = some j) :
    j.chars ≤ t.length := by
  simp only [loads, Option.bind_eq_some_iff, Prod.exists] at h
  obtain ⟨x, rest, hx, h⟩ := h
  split at h
  · cases h
    have hvalue := (fits (t.length + 1)).1 hx
    have hskip := length_skipSpace_le t
    omega
  · cases h

end Parse

/-! ### Members under distinct keys -/

private theorem membersChars_filter_le (p : Text × Json → Bool) (es : List (Text × Json)) :
    membersChars (es.filter p) ≤ membersChars es := by
  induction es with
  | nil => exact Nat.le_refl _
  | cons e es ih =>
    rw [List.filter_cons, membersChars]
    split
    · rw [membersChars]
      omega
    · omega

private theorem chars_find?_add_le {es : List (Text × Json)} {k : Text} {v : Json}
    (h : (es.find? fun e ↦ decide (e.1 = k)).map Prod.snd = some v) :
    v.chars + membersChars (es.filter fun e ↦ !decide (e.1 = k)) ≤ membersChars es := by
  induction es with
  | nil => cases h
  | cons e es ih =>
    by_cases he : e.1 = k
    · simp only [List.find?_cons, he, decide_true, Option.map_some, Option.some.injEq] at h
      subst h
      have hrest := membersChars_filter_le (fun e ↦ !decide (e.1 = k)) es
      rw [List.filter_cons_of_neg (by simp [he]), membersChars]
      omega
    · simp only [List.find?_cons, he, decide_false] at h
      have hrest := ih h
      rw [List.filter_cons_of_pos (by simp [he]), membersChars, membersChars]
      omega

private theorem find?_filter_ne {es : List (Text × Json)} {k a : Text} (h : a ≠ k) :
    (es.filter fun e ↦ !decide (e.1 = k)).find? (fun e ↦ decide (e.1 = a)) =
      es.find? fun e ↦ decide (e.1 = a) := by
  rw [List.find?_filter]
  congr 1
  ext e
  by_cases he : e.1 = a
  · simp [he, h]
  · simp [he]

/-- The values under distinct keys hold no more string characters than the object. -/
theorem sum_chars_get?_le {es : List (Text × Json)} {ks : List Text} {vs : List Json}
    (hks : ks.Nodup) (h : ks.map (Json.obj es).get? = vs.map some) :
    (vs.map Json.chars).sum ≤ (Json.obj es).chars := by
  induction ks generalizing es vs with
  | nil =>
    cases vs with
    | nil => exact Nat.zero_le _
    | cons v vs => cases h
  | cons k ks ih =>
    cases vs with
    | nil => cases h
    | cons v vs =>
      rw [List.map_cons, List.map_cons, List.cons.injEq] at h
      obtain ⟨hk, h⟩ := h
      obtain ⟨hnot, hks⟩ := List.nodup_cons.mp hks
      have hfirst := chars_find?_add_le hk
      -- the other keys are found among the members that are left
      have hothers : ks.map (Json.obj (es.filter fun e ↦ !decide (e.1 = k))).get? =
          vs.map some := by
        rw [← h]
        apply List.map_congr_left
        intro a ha
        have hne : a ≠ k := fun he ↦ hnot (he ▸ ha)
        simp only [Json.get?, find?_filter_ne hne]
      have hrest := ih hks hothers
      rw [Json.chars] at hrest
      rw [List.map_cons, List.sum_cons, Json.chars]
      omega

end C3RSpec.Base

import C3RSpec.Base.Text

/-!
# Separator-joined fields

Library `Base`. Fields joined by a separator are read back from the front as long as the
fields read so far are free of the separator; a field that holds it shifts every later one.
`joinHeader fields` is the text a join of more fields must begin with.
-/

namespace C3RSpec.Base

namespace Text

/-- The joined fields followed by one more separator. -/
def joinHeader (sep : CodePoint) (fields : List Text) : Text :=
  fields.flatMap fun f ↦ f ++ [sep]

/-- A header puts the separator after its first field. -/
theorem joinHeader_cons (sep : CodePoint) (a : Text) (rest : List Text) :
    joinHeader sep (a :: rest) = a ++ sep :: joinHeader sep rest := by
  simp [joinHeader]

/-- A join is the header of its leading fields and the last field. -/
theorem join_append_singleton (sep : CodePoint) (fields : List Text) (last : Text) :
    join sep (fields ++ [last]) = joinHeader sep fields ++ last := by
  induction fields with
  | nil => rw [List.nil_append, join_singleton, joinHeader, List.flatMap_nil, List.nil_append]
  | cons a rest ih =>
    rw [joinHeader_cons, List.cons_append, List.append_assoc, List.cons_append, ← ih]
    cases rest with
    | nil => exact join_cons_cons sep a last []
    | cons b rest => exact join_cons_cons sep a b (rest ++ [last])

/-- A join holds the separator and what its fields hold. -/
theorem mem_join_imp {sep c : CodePoint} {fields : List Text} (h : c ∈ join sep fields) :
    c = sep ∨ ∃ f ∈ fields, c ∈ f := by
  induction fields with
  | nil => cases h
  | cons a rest ih =>
    cases rest with
    | nil =>
      rw [join_singleton] at h
      exact .inr ⟨a, List.mem_singleton_self a, h⟩
    | cons b rest =>
      rw [join_cons_cons, List.mem_append, List.mem_cons] at h
      obtain h | h | h := h
      · exact .inr ⟨a, List.mem_cons_self, h⟩
      · exact .inl h
      · obtain h | ⟨f, hf, hc⟩ := ih h
        · exact .inl h
        · exact .inr ⟨f, List.mem_cons_of_mem a hf, hc⟩

/-- What a field holds is in the join. -/
theorem mem_join_of_mem {sep c : CodePoint} {fields : List Text} {f : Text} (hf : f ∈ fields)
    (hc : c ∈ f) : c ∈ join sep fields := by
  induction fields with
  | nil => cases hf
  | cons a rest ih =>
    cases rest with
    | nil =>
      rw [join_singleton, ← List.mem_singleton.mp hf]
      exact hc
    | cons b rest =>
      rw [join_cons_cons, List.mem_append, List.mem_cons]
      obtain rfl | hf := List.mem_cons.mp hf
      · exact .inl hc
      · exact .inr (.inr (ih hf))

/-- A join by a scalar separator is scalar when its fields are. -/
theorem isScalar_join_iff {sep : CodePoint} (hs : (CodePoint.toChar? sep).isSome)
    {fields : List Text} : IsScalar (join sep fields) ↔ ∀ f ∈ fields, IsScalar f := by
  constructor
  · intro h f hf c hc
    exact h c (mem_join_of_mem hf hc)
  · intro h c hc
    obtain rfl | ⟨f, hf, hcf⟩ := mem_join_imp hc
    · exact hs
    · exact h f hf c hcf

/-- Up to the first separator a text is read in one way. -/
theorem field_inj {sep : CodePoint} {a b x y : Text} (ha : sep ∉ a) (hb : sep ∉ b)
    (h : a ++ sep :: x = b ++ sep :: y) : a = b ∧ x = y := by
  induction a generalizing b with
  | nil =>
    cases b with
    | nil => exact ⟨rfl, (List.cons.inj h).2⟩
    | cons d ds => exact absurd (List.cons.inj h).1 fun he ↦ hb (he ▸ List.mem_cons_self)
  | cons c cs ih =>
    cases b with
    | nil => exact absurd (List.cons.inj h).1 fun he ↦ ha (he ▸ List.mem_cons_self)
    | cons d ds =>
      obtain ⟨hc, ht⟩ := List.cons.inj h
      obtain ⟨hcs, hxy⟩ := ih (fun hm ↦ ha (List.mem_cons_of_mem c hm))
        (fun hm ↦ hb (List.mem_cons_of_mem d hm)) ht
      exact ⟨by rw [hc, hcs], hxy⟩

/-- From the last separator on a text is read in one way. -/
theorem last_field_inj {sep : CodePoint} {a b x y : Text} (hx : sep ∉ x) (hy : sep ∉ y)
    (h : a ++ sep :: x = b ++ sep :: y) : a = b ∧ x = y := by
  have hreversed := congrArg List.reverse h
  simp only [List.reverse_append, List.reverse_cons, List.append_assoc, List.singleton_append]
    at hreversed
  obtain ⟨hxy, hab⟩ := field_inj (fun hm ↦ hx (List.mem_reverse.mp hm))
    (fun hm ↦ hy (List.mem_reverse.mp hm)) hreversed
  exact ⟨List.reverse_injective hab, List.reverse_injective hxy⟩

/-- After `a` and a separator, `b` goes on; `t` is what is left of it with the separator behind
it. -/
def Continues (sep : CodePoint) (a b t : Text) : Prop :=
  ∃ s, b = a ++ sep :: s ∧ t = s ++ [sep]

/-- A continued field holds the separator. -/
theorem Continues.mem {sep : CodePoint} {a b t : Text} (h : Continues sep a b t) : sep ∈ b := by
  obtain ⟨s, rfl, -⟩ := h
  exact List.mem_append_right a List.mem_cons_self

/-- A continued field is read in two ways. -/
theorem Continues.append_eq {sep : CodePoint} {a b t : Text} (h : Continues sep a b t)
    (y : Text) : a ++ sep :: (t ++ y) = b ++ sep :: y := by
  obtain ⟨s, rfl, rfl⟩ := h
  simp

/-- Two readings agree on the first field, or one first field continues the other. -/
theorem field_cases {sep : CodePoint} {a b x y : Text} (h : a ++ sep :: x = b ++ sep :: y) :
    (a = b ∧ x = y) ∨ (∃ t, Continues sep a b t ∧ x = t ++ y) ∨
      ∃ t, Continues sep b a t ∧ y = t ++ x := by
  induction a generalizing b with
  | nil =>
    cases b with
    | nil => exact .inl ⟨rfl, (List.cons.inj h).2⟩
    | cons d ds =>
      obtain ⟨rfl, hx⟩ := List.cons.inj h
      exact .inr (.inl ⟨ds ++ [sep], ⟨ds, rfl, rfl⟩, by simpa using hx⟩)
  | cons c cs ih =>
    cases b with
    | nil =>
      obtain ⟨rfl, hy⟩ := List.cons.inj h
      exact .inr (.inr ⟨cs ++ [c], ⟨cs, rfl, rfl⟩, by simpa using hy.symm⟩)
    | cons d ds =>
      obtain ⟨rfl, ht⟩ := List.cons.inj h
      obtain ⟨rfl, hxy⟩ | ⟨t, ⟨s, rfl, rfl⟩, hx⟩ | ⟨t, ⟨s, rfl, rfl⟩, hy⟩ := ih ht
      · exact .inl ⟨rfl, hxy⟩
      · exact .inr (.inl ⟨s ++ [sep], ⟨s, rfl, rfl⟩, hx⟩)
      · exact .inr (.inr ⟨s ++ [sep], ⟨s, rfl, rfl⟩, hy⟩)

end Text

end C3RSpec.Base

import Mathlib.Data.List.Induction

/-!
# Pruned hash-linked logs

Library `Base`. A log only grows at its end and is only dropped from its front. Each entry
names the link before it; the link after a list of entries is the hash of the last one, or the
link the list starts from. A checkpoint is the link after the dropped part, so the link after
the retained part is still the link after the whole history.
-/

namespace C3RSpec.Base

/-- A history of which a leading part has been dropped. -/
structure PrunedLog (E : Type) where
  history : List E
  dropped : Nat
  dropped_le : dropped ≤ history.length

namespace PrunedLog

variable {E H : Type}

/-- Nothing yet. -/
def empty : PrunedLog E := ⟨[], 0, Nat.zero_le _⟩

/-- The entries still present. -/
def retained (l : PrunedLog E) : List E := l.history.drop l.dropped

/-- One more entry at the end. -/
def append (l : PrunedLog E) (e : E) : PrunedLog E :=
  ⟨l.history ++ [e], l.dropped, by
    rw [List.length_append]
    exact Nat.le_trans l.dropped_le (Nat.le_add_right _ _)⟩

/-- Drop the first `n` retained entries. -/
def prune (l : PrunedLog E) (n : Nat) (h : n ≤ l.retained.length) : PrunedLog E :=
  ⟨l.history, l.dropped + n, by
    have := l.dropped_le
    rw [retained, List.length_drop] at h
    omega⟩

/-- A later state of the same log. -/
structure Extends (a b : PrunedLog E) : Prop where
  isPrefix : a.history <+: b.history
  dropped_le : a.dropped ≤ b.dropped

theorem Extends.refl (a : PrunedLog E) : Extends a a := ⟨List.prefix_rfl, Nat.le_refl _⟩

theorem Extends.trans {a b c : PrunedLog E} (h : Extends a b) (h' : Extends b c) : Extends a c :=
  ⟨h.isPrefix.trans h'.isPrefix, Nat.le_trans h.dropped_le h'.dropped_le⟩

theorem extends_append (l : PrunedLog E) (e : E) : Extends l (l.append e) :=
  ⟨List.prefix_append _ _, Nat.le_refl _⟩

theorem extends_prune (l : PrunedLog E) {n : Nat} (h : n ≤ l.retained.length) :
    Extends l (l.prune n h) :=
  ⟨List.prefix_rfl, Nat.le_add_right _ _⟩

/-- An entry is appended to what is retained. -/
@[simp] theorem retained_append (l : PrunedLog E) (e : E) :
    (l.append e).retained = l.retained ++ [e] :=
  List.drop_append_of_le_length l.dropped_le

/-- Pruning drops from what is retained. -/
@[simp] theorem retained_prune (l : PrunedLog E) {n : Nat} (h : n ≤ l.retained.length) :
    (l.prune n h).retained = l.retained.drop n := by
  rw [retained, retained, prune, List.drop_drop]

/-- The history is what was dropped and what is retained. -/
theorem take_append_retained (l : PrunedLog E) :
    l.history.take l.dropped ++ l.retained = l.history :=
  List.take_append_drop _ _

section Link

variable (hash : E → H)

/-- The link after some entries, from a starting link. -/
def linkAfter (start : H) (es : List E) : H := (es.getLast?.map hash).getD start

@[simp] theorem linkAfter_nil (start : H) : linkAfter hash start [] = start := rfl

@[simp] theorem linkAfter_concat (start : H) (es : List E) (e : E) :
    linkAfter hash start (es ++ [e]) = hash e := by
  simp [linkAfter]

/-- Links compose. -/
theorem linkAfter_append (start : H) (as bs : List E) :
    linkAfter hash start (as ++ bs) = linkAfter hash (linkAfter hash start as) bs := by
  cases hb : bs.getLast? with
  | none =>
    rw [List.getLast?_eq_none_iff] at hb
    subst hb
    rw [List.append_nil, linkAfter_nil]
  | some e => simp [linkAfter, List.getLast?_append, hb]

/-- The link after a leading part is its entry in the list of all links. -/
theorem getElem?_links (start : H) {es : List E} {n : Nat} (h : n ≤ es.length) :
    (start :: es.map hash)[n]? = some (linkAfter hash start (es.take n)) := by
  cases n with
  | zero => rfl
  | succ n =>
    rw [List.getElem?_cons_succ, List.getElem?_map, linkAfter, List.getLast?_take, if_neg (by omega),
      Nat.add_sub_cancel, List.getElem?_eq_getElem h]
    rfl

/-- Where no link repeats, equal links are after equally long leading parts. -/
theorem length_eq_of_linkAfter_eq {start : H} {es : List E} (hd : (start :: es.map hash).Nodup)
    {m n : Nat} (hm : m ≤ es.length) (hn : n ≤ es.length)
    (h : linkAfter hash start (es.take m) = linkAfter hash start (es.take n)) : m = n := by
  have hlt : m < (start :: es.map hash).length := by
    rw [List.length_cons, List.length_map]
    omega
  refine (List.getElem?_inj hlt hd).mp ?_
  rw [getElem?_links hash start hm, getElem?_links hash start hn, h]

/-- The link after the dropped part. -/
def checkpoint (genesis : H) (l : PrunedLog E) : H :=
  linkAfter hash genesis (l.history.take l.dropped)

/-- The link after the whole history. -/
def head (genesis : H) (l : PrunedLog E) : H := linkAfter hash genesis l.history

/-- The head is found from the checkpoint and the retained entries. -/
theorem linkAfter_checkpoint (genesis : H) (l : PrunedLog E) :
    linkAfter hash (checkpoint hash genesis l) l.retained = head hash genesis l := by
  rw [checkpoint, ← linkAfter_append, take_append_retained, head]

variable (previous : E → H)

/-- Every entry names the link before it. -/
def Chained : H → List E → Prop
  | _, [] => True
  | start, e :: es => previous e = start ∧ Chained (hash e) es

/-- A chain splits at the link between its parts. -/
theorem chained_append {start : H} {as bs : List E} :
    Chained hash previous start (as ++ bs) ↔
      Chained hash previous start as ∧ Chained hash previous (linkAfter hash start as) bs := by
  induction as generalizing start with
  | nil => simp [Chained]
  | cons a as ih =>
    have hl : linkAfter hash start (a :: as) = linkAfter hash (hash a) as :=
      linkAfter_append hash start [a] as
    rw [List.cons_append, Chained, Chained, ih, hl, and_assoc]

/-- One more entry continues a chain when it names the head. -/
theorem chained_concat {start : H} {es : List E} {e : E} :
    Chained hash previous start (es ++ [e]) ↔
      Chained hash previous start es ∧ previous e = linkAfter hash start es := by
  rw [chained_append]
  simp [Chained]

/-! ### Chains with the same head -/

/-- Where equal hashes come from equal entries with equal links before them, of two chains with
the same head one ends like the other. -/
theorem suffix_of_linkAfter_eq {α : Type} {f : E → α} {s t : H} {as bs : List E}
    (hinj : ∀ a ∈ as, ∀ b ∈ bs, hash a = hash b → f a = f b ∧ previous a = previous b)
    (ha : Chained hash previous s as) (hb : Chained hash previous t bs)
    (h : linkAfter hash s as = linkAfter hash t bs) :
    as.map f <:+ bs.map f ∨ bs.map f <:+ as.map f := by
  induction as using List.reverseRecOn generalizing bs with
  | nil => exact .inl List.nil_suffix
  | append_singleton as a ih =>
    induction bs using List.reverseRecOn with
    | nil => exact .inr List.nil_suffix
    | append_singleton bs b _ =>
      rw [linkAfter_concat, linkAfter_concat] at h
      rw [chained_concat] at ha hb
      have hmem : ∀ {es : List E} {e : E}, e ∈ es ++ [e] := by simp
      obtain ⟨hf, hp⟩ := hinj a hmem b hmem h
      have hlink : linkAfter hash s as = linkAfter hash t bs := by rw [← ha.2, ← hb.2, hp]
      have hsub : ∀ x ∈ as, ∀ y ∈ bs, hash x = hash y → f x = f y ∧ previous x = previous y :=
        fun x hx y hy ↦ hinj x (List.mem_append_left _ hx) y (List.mem_append_left _ hy)
      rw [List.map_append, List.map_append, List.map_singleton, List.map_singleton, hf]
      obtain ⟨front, hfront⟩ | ⟨front, hfront⟩ := ih hsub ha.1 hb.1 hlink
      · exact .inl ⟨front, by rw [← List.append_assoc, hfront]⟩
      · exact .inr ⟨front, by rw [← List.append_assoc, hfront]⟩

/-- Two chains from one start that no entry hashes to are the same when their heads are. -/
theorem eq_of_linkAfter_eq {start : H} {as bs : List E}
    (hinj : ∀ a ∈ as, ∀ b ∈ bs, hash a = hash b → a = b)
    (hsa : ∀ a ∈ as, hash a ≠ start) (hsb : ∀ b ∈ bs, hash b ≠ start)
    (ha : Chained hash previous start as) (hb : Chained hash previous start bs)
    (h : linkAfter hash start as = linkAfter hash start bs) : as = bs := by
  induction as using List.reverseRecOn generalizing bs with
  | nil =>
    induction bs using List.reverseRecOn with
    | nil => rfl
    | append_singleton bs b _ =>
      rw [linkAfter_nil, linkAfter_concat] at h
      exact absurd h.symm (hsb b (by simp))
  | append_singleton as a ih =>
    induction bs using List.reverseRecOn with
    | nil =>
      rw [linkAfter_nil, linkAfter_concat] at h
      exact absurd h (hsa a (by simp))
    | append_singleton bs b _ =>
      rw [linkAfter_concat, linkAfter_concat] at h
      rw [chained_concat] at ha hb
      obtain rfl := hinj a (by simp) b (by simp) h
      have hlink : linkAfter hash start as = linkAfter hash start bs := ha.2.symm.trans hb.2
      rw [ih (fun x hx y hy ↦ hinj x (List.mem_append_left _ hx) y (List.mem_append_left _ hy))
        (fun x hx ↦ hsa x (List.mem_append_left _ hx))
        (fun y hy ↦ hsb y (List.mem_append_left _ hy)) ha.1 hb.1 hlink]

/-- What is retained of a chain continues from the checkpoint. -/
theorem chained_retained {genesis : H} {l : PrunedLog E}
    (h : Chained hash previous genesis l.history) :
    Chained hash previous (checkpoint hash genesis l) l.retained := by
  rw [← take_append_retained, chained_append] at h
  exact h.2

/-- Pruning moves the checkpoint past the dropped entries. -/
theorem checkpoint_prune (genesis : H) (l : PrunedLog E) {n : Nat} (h : n ≤ l.retained.length) :
    checkpoint hash genesis (l.prune n h) =
      linkAfter hash (checkpoint hash genesis l) (l.retained.take n) := by
  rw [checkpoint, checkpoint, ← linkAfter_append, prune, retained, List.take_add]

/-- Appending leaves the checkpoint. -/
theorem checkpoint_append (genesis : H) (l : PrunedLog E) (e : E) :
    checkpoint hash genesis (l.append e) = checkpoint hash genesis l := by
  rw [checkpoint, checkpoint, append, List.take_append_of_le_length l.dropped_le]

end Link

end PrunedLog

/-- A property that no entry has after one without it holds of a leading part. -/
theorem exists_prefix {E : Type} {p : E → Bool} {es : List E}
    (h : es.Pairwise fun a b ↦ p b = true → p a = true) :
    ∃ as bs, es = as ++ bs ∧ (∀ a ∈ as, p a = true) ∧ ∀ b ∈ bs, p b = false := by
  induction es with
  | nil => exact ⟨[], [], rfl, by simp, by simp⟩
  | cons e es ih =>
    rw [List.pairwise_cons] at h
    obtain ⟨as, bs, rfl, ha, hb⟩ := ih h.2
    by_cases hp : p e = true
    · refine ⟨e :: as, bs, rfl, ?_, hb⟩
      intro a hm
      rcases List.mem_cons.mp hm with rfl | hm
      · exact hp
      · exact ha a hm
    · refine ⟨[], e :: (as ++ bs), rfl, by simp, ?_⟩
      intro b hm
      rcases List.mem_cons.mp hm with rfl | hm
      · simpa using hp
      · rw [← Bool.not_eq_true]
        exact fun hpb ↦ hp (h.1 b hm hpb)

/-- The filter of a property that holds of a leading part is that part. -/
theorem filter_prefix {E : Type} {p : E → Bool} {as bs : List E} (ha : ∀ a ∈ as, p a = true)
    (hb : ∀ b ∈ bs, p b = false) : (as ++ bs).filter p = as := by
  rw [List.filter_append, List.filter_eq_self.mpr ha, List.filter_eq_nil_iff.mpr, List.append_nil]
  intro b hm
  rw [hb b hm]
  exact Bool.false_ne_true

end C3RSpec.Base

import C3RSpec.DecisionMix.Dataset

/-!
# Accepted calls

`c3r/decisionmix/dataset.py:78–97`. What a builder holds is a function of the accepted calls; a
call that raises leaves nothing behind. With distinct ids every record is accepted or refused on
its own, so rejected calls in between and the order of the records do not matter.
-/

namespace C3RSpec.DecisionMix

open Base

namespace DecisionMixBuilder

variable [Digest]

/-! ### What a call does -/

/-- The checks of `add` that do not depend on earlier calls, and the split they end in. -/
def assign (seed : Text) (r : DecisionMixRecord) : Except PyError Split := do
  r.validate
  if r.provenance.sourcePartition = "benchmark_test" then
    throw (valueError "benchmark test records cannot enter DecisionMix")
  deterministicSplit r.recordId seed

/-- The builder with one more record. -/
def extend (b : DecisionMixBuilder) (split : Split) (r : DecisionMixRecord) : DecisionMixBuilder :=
  { b with
    recordIds := insert r.recordId b.recordIds
    records := Function.update b.records split (b.records split ++ [r]) }

omit [Digest] in
private theorem run_get {α : Type} (b : DecisionMixBuilder) (f : DecisionMixBuilder → BuilderM α) :
    StateT.run (ExceptT.run (get >>= f)) b = StateT.run (ExceptT.run (f b)) b := rfl

omit [Digest] in
private theorem run_liftExcept {α β : Type} (b : DecisionMixBuilder) (x : Except PyError α)
    (f : α → BuilderM β) : StateT.run (ExceptT.run (liftExcept x >>= f)) b =
      match x with
      | .error e => (.error e, b)
      | .ok a => StateT.run (ExceptT.run (f a)) b := by
  cases x <;> rfl

/-- A call appends its record, or raises and leaves the builder as it was. -/
theorem addTo_eq (b : DecisionMixBuilder) (r : DecisionMixRecord) : b.addTo r =
    match assign b.splitSeed r with
    | .error e => (.error e, b)
    | .ok split =>
      if r.recordId ∈ b.recordIds then (.error (duplicateError r.recordId), b)
      else (.ok split, b.extend split r) := by
  unfold addTo add assign
  rw [run_liftExcept]
  cases r.validate with
  | error e => rfl
  | ok u =>
    by_cases hpartition : r.provenance.sourcePartition = "benchmark_test"
    · simp only [if_pos hpartition]
      rfl
    · simp only [if_neg hpartition]
      rw [run_get, run_liftExcept]
      change _ = match deterministicSplit r.recordId b.splitSeed with
        | .error e => _
        | .ok split => _
      cases deterministicSplit r.recordId b.splitSeed with
      | error e => rfl
      | ok split =>
        simp only
        rw [run_get]
        by_cases hid : r.recordId ∈ b.recordIds
        · rw [if_pos hid, if_pos hid]
          rfl
        · rw [if_neg hid, if_neg hid]
          rfl

/-- Everything a call can do. -/
theorem addTo_cases (b : DecisionMixBuilder) (r : DecisionMixRecord) :
    (∃ e, b.addTo r = (.error e, b)) ∨
    ∃ split, assign b.splitSeed r = .ok split ∧ r.recordId ∉ b.recordIds ∧
      b.addTo r = (.ok split, b.extend split r) := by
  rw [addTo_eq]
  cases assign b.splitSeed r with
  | error e => exact .inl ⟨e, rfl⟩
  | ok split =>
    by_cases hid : r.recordId ∈ b.recordIds
    · exact .inl ⟨_, if_pos hid⟩
    · exact .inr ⟨split, rfl, hid, if_neg hid⟩

/-! ### What calls leave behind -/

/-- The records that calls of `add` accepted, each with the split it got. -/
def accepted (b : DecisionMixBuilder) : List DecisionMixRecord → List (DecisionMixRecord × Split)
  | [] => []
  | r :: calls =>
    match (b.addTo r).1 with
    | .ok split => (r, split) :: accepted (b.addTo r).2 calls
    | .error _ => accepted (b.addTo r).2 calls

/-- The builder holds exactly these records. -/
structure Holds (b : DecisionMixBuilder) (entries : List (DecisionMixRecord × Split)) : Prop where
  records : ∀ split, b.records split = (entries.filter fun e ↦ e.2 = split).map Prod.fst
  ids : ∀ id, id ∈ b.recordIds ↔ id ∈ entries.map fun e ↦ e.1.recordId
  nodup : (entries.map fun e ↦ e.1.recordId).Nodup
  assigned : ∀ e ∈ entries, assign b.splitSeed e.1 = .ok e.2

theorem holds_init {seed : Text} {b : DecisionMixBuilder} (h : init seed = .ok b) : b.Holds [] := by
  unfold init at h
  split at h
  · cases h
  · cases h
    exact ⟨fun _ ↦ rfl, fun id ↦ by simp, List.nodup_nil, fun e he ↦ (nomatch he)⟩

private theorem Holds.extend {b : DecisionMixBuilder} {entries : List (DecisionMixRecord × Split)}
    (h : b.Holds entries) {r : DecisionMixRecord} {split : Split}
    (hassign : assign b.splitSeed r = .ok split) (hid : r.recordId ∉ b.recordIds) :
    (b.extend split r).Holds (entries ++ [(r, split)]) := by
  constructor
  · intro other
    change Function.update b.records split (b.records split ++ [r]) other = _
    rw [List.filter_append, List.map_append, ← h.records]
    by_cases hsplit : other = split
    · subst hsplit
      simp
    · rw [Function.update_of_ne hsplit]
      simp [Ne.symm hsplit]
  · intro id
    change id ∈ insert r.recordId b.recordIds ↔ _
    rw [Finset.mem_insert, h.ids, List.map_append, List.mem_append, List.map_singleton,
      List.mem_singleton, or_comm]
  · rw [List.map_append, List.map_singleton]
    refine List.nodup_append.mpr ⟨h.nodup, List.nodup_singleton _, ?_⟩
    intro id hmem other hother heq
    rw [List.mem_singleton] at hother
    exact hid ((h.ids _).mpr (hother ▸ heq ▸ hmem))
  · intro e he
    obtain he | he := List.mem_append.mp he
    · exact h.assigned e he
    · rw [List.mem_singleton.mp he]
      exact hassign

/-- Calls add what they accept, whatever they raise in between. -/
theorem Holds.addAll {b : DecisionMixBuilder} {entries : List (DecisionMixRecord × Split)}
    (h : b.Holds entries) (calls : List DecisionMixRecord) :
    (b.addAll calls).Holds (entries ++ b.accepted calls) := by
  induction calls generalizing b entries with
  | nil =>
    rw [accepted, List.append_nil]
    exact h
  | cons r calls ih =>
    change ((b.addTo r).2.addAll calls).Holds _
    rw [accepted]
    obtain ⟨e, he⟩ | ⟨split, hassign, hid, he⟩ := b.addTo_cases r
    · rw [he]
      exact ih h
    · rw [he, List.append_cons]
      exact ih (h.extend hassign hid)

omit [Digest] in
theorem splitSeed_init {seed : Text} {b : DecisionMixBuilder} (h : init seed = .ok b) :
    b.splitSeed = seed := by
  unfold init at h
  split at h
  · cases h
  · cases h
    rfl

theorem splitSeed_addTo (b : DecisionMixBuilder) (r : DecisionMixRecord) :
    (b.addTo r).2.splitSeed = b.splitSeed := by
  obtain ⟨e, he⟩ | ⟨split, -, -, he⟩ := b.addTo_cases r
  · rw [he]
  · rw [he]
    rfl

theorem splitSeed_addAll (b : DecisionMixBuilder) (calls : List DecisionMixRecord) :
    (b.addAll calls).splitSeed = b.splitSeed := by
  induction calls generalizing b with
  | nil => rfl
  | cons r calls ih => exact (ih (b.addTo r).2).trans (b.splitSeed_addTo r)

theorem accepted_append (b : DecisionMixBuilder) (pre post : List DecisionMixRecord) :
    b.accepted (pre ++ post) = b.accepted pre ++ (b.addAll pre).accepted post := by
  induction pre generalizing b with
  | nil => rfl
  | cons r pre ih =>
    rw [List.cons_append, accepted, accepted]
    cases (b.addTo r).1 with
    | ok split => exact congrArg ((r, split) :: ·) (ih _)
    | error e => exact ih _

/-- A sorted list holds the records of its split. -/
theorem Holds.mem_sortedRecords {b : DecisionMixBuilder}
    {entries : List (DecisionMixRecord × Split)} (h : b.Holds entries) {split : Split}
    {r : DecisionMixRecord} :
    r ∈ b.sortedRecords split ↔ (r, split) ∈ entries := by
  rw [sortedRecords, (sortOn_perm _ _).mem_iff, h.records, List.mem_map]
  constructor
  · rintro ⟨e, he, rfl⟩
    obtain ⟨he, hsplit⟩ := List.mem_filter.mp he
    rw [← of_decide_eq_true hsplit]
    exact he
  · intro hr
    exact ⟨_, List.mem_filter.mpr ⟨hr, decide_eq_true rfl⟩, rfl⟩

/-- An assigned record is valid and no benchmark test. -/
theorem assign_eq_ok {seed : Text} {r : DecisionMixRecord} {split : Split}
    (h : assign seed r = .ok split) : r.validate = .ok () ∧
      r.provenance.sourcePartition ≠ "benchmark_test" ∧
      deterministicSplit r.recordId seed = .ok split := by
  unfold assign at h
  obtain ⟨u, hvalidate, h⟩ := bind_eq_ok.mp h
  by_cases hpartition : r.provenance.sourcePartition = "benchmark_test"
  · rw [if_pos hpartition] at h
    cases h
  · rw [if_neg hpartition] at h
    exact ⟨hvalidate, hpartition, h⟩

/-- An id with a split was encoded. -/
theorem isScalar_recordId {seed : Text} {r : DecisionMixRecord} {split : Split}
    (h : deterministicSplit r.recordId seed = .ok split) : r.recordId.IsScalar := by
  unfold deterministicSplit at h
  obtain ⟨encoded, hencoded, -⟩ := bind_eq_ok.mp h
  intro c hc
  exact Text.exists_encodeUtf8_iff.mp ⟨encoded, hencoded⟩ c
    (List.mem_append_right seed (List.mem_cons_of_mem 0 hc))

omit [Digest] in
/-- Every entry is in one split. -/
theorem length_splits (entries : List (DecisionMixRecord × Split)) :
    (splits.map fun split ↦ (entries.filter fun e ↦ e.2 = split).length).sum =
      entries.length := by
  induction entries with
  | nil => rfl
  | cons e entries ih =>
    obtain ⟨r, split⟩ := e
    simp only [splits, List.map_cons, List.map_nil, List.sum_cons, List.sum_nil] at ih ⊢
    cases split <;> simp <;> omega

/-! ### Records with rejected calls in between -/

/-- `calls` are the records of `listed` in their order, and between them calls that raise. -/
inductive Interspersed :
    DecisionMixBuilder → List DecisionMixRecord → List DecisionMixRecord → Prop
  | nil (b : DecisionMixBuilder) : Interspersed b [] []
  | listed (b : DecisionMixBuilder) (r : DecisionMixRecord) (listed calls : List DecisionMixRecord)
      (h : Interspersed (b.addTo r).2 listed calls) : Interspersed b (r :: listed) (r :: calls)
  | rejected (b : DecisionMixBuilder) (r : DecisionMixRecord) (listed calls : List DecisionMixRecord)
      (e : PyError) (he : (b.addTo r).1 = .error e) (h : Interspersed (b.addTo r).2 listed calls) :
      Interspersed b listed (r :: calls)

/-- A record with the split that a call of its own would give it. -/
def placed (seed : Text) (r : DecisionMixRecord) : Option (DecisionMixRecord × Split) :=
  (assign seed r).toOption.map fun split ↦ (r, split)

/-- With distinct ids, whether a listed record is accepted does not depend on the others. -/
theorem accepted_of_interspersed {b : DecisionMixBuilder} {listed calls : List DecisionMixRecord}
    (h : Interspersed b listed calls) (hids : (listed.map DecisionMixRecord.recordId).Nodup)
    (hfresh : ∀ r ∈ listed, r.recordId ∉ b.recordIds) :
    b.accepted calls = listed.filterMap (placed b.splitSeed) := by
  induction h with
  | nil b => rfl
  | listed b r listed calls _ ih =>
    rw [List.map_cons, List.nodup_cons] at hids
    rw [accepted, List.filterMap_cons, placed]
    rw [splitSeed_addTo] at ih
    have hr := hfresh r List.mem_cons_self
    have hrest : ∀ s ∈ listed, s.recordId ∉ b.recordIds :=
      fun s hs ↦ hfresh s (List.mem_cons_of_mem r hs)
    rw [addTo_eq] at ih ⊢
    cases hassign : assign b.splitSeed r with
    | error e =>
      rw [hassign] at ih
      exact ih hids.2 hrest
    | ok split =>
      rw [hassign] at ih
      simp only [if_neg hr] at ih ⊢
      refine congrArg ((r, split) :: ·) (ih hids.2 fun s hs hmem ↦ ?_)
      obtain heq | hmem := Finset.mem_insert.mp hmem
      · exact hids.1 (heq ▸ List.mem_map.mpr ⟨s, hs, rfl⟩)
      · exact hrest s hs hmem
  | rejected b r listed calls e he _ ih =>
    rw [accepted, he]
    obtain ⟨e', he'⟩ | ⟨split, -, -, he'⟩ := b.addTo_cases r
    · rw [he'] at ih ⊢
      exact ih hids hfresh
    · rw [he'] at he
      cases he

end DecisionMixBuilder

end C3RSpec.DecisionMix

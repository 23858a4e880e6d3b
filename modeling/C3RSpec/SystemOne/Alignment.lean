import C3RSpec.Base.Sorting
import C3RSpec.SystemOne.Validation
import Mathlib.Algebra.BigOperators.Ring.List
import Mathlib.Algebra.Order.BigOperators.Group.List
import Mathlib.Tactic.Linarith

/-!
# Scores belong to the options they are given for

A score passes through the order of the server, a dictionary under the labels, a division by the
total, and the order of the options before it is zipped with names and sorted. Arithmetic is exact
here, so the total does not depend on the order of the server's items.
-/

namespace C3RSpec.SystemOne

open Base C3RSpec.Runtime

namespace ClmAdapter

/-! ### Items of a ranking -/

/-- The candidate of an item and its probability. -/
def readItem (item : Json) : Option (Text × ℚ) :=
  match item.get? "candidate", item.get? "prob" with
  | some (.str candidate), some (.int n) => some (candidate, n)
  | some (.str candidate), some (.float (.fin q)) => some (candidate, q)
  | _, _ => none

/-- The items that can be read, in the order of the server. -/
def entriesOf (ranked : List Json) : List (Text × ℚ) := ranked.filterMap readItem

/-- An item that names an option with a probability. -/
def Readable (options : List Text) (item : Json) : Prop :=
  ∃ e, readItem item = some e ∧ e.1 ∈ options ∧ 0 ≤ e.2 ∧ e.2 ≤ 1

private theorem addProbability_fin {probabilities d : Dict Text PyFloat} {candidate : Text} {q : ℚ} :
    addProbability probabilities candidate (.fin q) = .ok d ↔
      (0 ≤ q ∧ q ≤ 1) ∧ d = probabilities.insert candidate (.fin q) := by
  unfold addProbability
  rw [PyFloat.le_fin, PyFloat.le_fin, ← Bool.decide_and]
  by_cases h : 0 ≤ q ∧ q ≤ 1
  · simp [h, eq_comm]
  · rw [decide_eq_false h, if_neg Bool.false_ne_true]
    exact iff_of_false (fun h ↦ by cases h) fun h' ↦ h h'.1

-- an integer between zero and one is far below the largest float
private theorem isFiniteInt_of_unit {n : Int} (h : (0 : ℚ) ≤ n ∧ (n : ℚ) ≤ 1) :
    isFiniteInt n = .ok () := by
  have hzero : (0 : Int) ≤ n := by exact_mod_cast h.1
  have hone : n ≤ 1 := by exact_mod_cast h.2
  have hbig : 2 ≤ 2 ^ 1024 - 2 ^ 970 := by
    have hpow : 2 ^ 970 * 2 ≤ 2 ^ 1024 := by
      rw [← pow_succ]
      exact Nat.pow_le_pow_right (by omega) (by omega)
    have hpos : 2 ^ 1 ≤ 2 ^ 970 := Nat.pow_le_pow_right (by omega) (by omega)
    omega
  rw [isFiniteInt, if_pos (by omega)]

-- nothing is read from the item
private theorem taken_iff_of_none {options : List Text} {probabilities d : Dict Text PyFloat}
    {item : Json} {e : PyError} (hadd : addItem options probabilities item = .error e)
    (hread : readItem item = none) :
    addItem options probabilities item = .ok d ↔
      ∃ e, readItem item = some e ∧ e.1 ∈ options ∧ e.1 ∉ probabilities.keys ∧
        (0 ≤ e.2 ∧ e.2 ≤ 1) ∧ d = probabilities.insert e.1 (.fin e.2) := by
  rw [hadd, hread]
  refine iff_of_false (fun h ↦ by cases h) ?_
  rintro ⟨e, h, -⟩
  cases h

-- a pair is read from the item
private theorem taken_iff_of_some {options : List Text} {probabilities d : Dict Text PyFloat}
    {item : Json} {candidate : Text} {q : ℚ} (hread : readItem item = some (candidate, q)) :
    (∃ e, readItem item = some e ∧ e.1 ∈ options ∧ e.1 ∉ probabilities.keys ∧
        (0 ≤ e.2 ∧ e.2 ≤ 1) ∧ d = probabilities.insert e.1 (.fin e.2)) ↔
      candidate ∈ options ∧ candidate ∉ probabilities.keys ∧ (0 ≤ q ∧ q ≤ 1) ∧
        d = probabilities.insert candidate (.fin q) := by
  simp [hread]

/-- An item is taken when it names a new option with a probability. -/
theorem addItem_eq_ok_iff {options : List Text} {probabilities d : Dict Text PyFloat} {item : Json} :
    addItem options probabilities item = .ok d ↔
      ∃ e, readItem item = some e ∧ e.1 ∈ options ∧ e.1 ∉ probabilities.keys ∧
        (0 ≤ e.2 ∧ e.2 ≤ 1) ∧ d = probabilities.insert e.1 (.fin e.2) := by
  cases item with
  | null | bool | int | float | str | arr => exact taken_iff_of_none rfl rfl
  | obj es =>
    cases hcandidate : (Json.obj es).get? "candidate" with
    | none => exact taken_iff_of_none (by rw [addItem, hcandidate]) (by rw [readItem, hcandidate])
    | some value =>
      cases value with
      | null | bool | int | float | arr | obj =>
        exact taken_iff_of_none (by rw [addItem, hcandidate]) (by rw [readItem, hcandidate])
      | str candidate =>
        cases hprob : (Json.obj es).get? "prob" with
        | none =>
          refine taken_iff_of_none (e := invalidProbability) ?_ (by rw [readItem, hcandidate, hprob])
          simp only [addItem, hcandidate, hprob]
          exact ite_self _
        | some prob =>
          have hskip : (candidate ∉ options || (probabilities.get? candidate).isSome) = true ↔
              ¬(candidate ∈ options ∧ candidate ∉ probabilities.keys) := by
            rw [← Dict.get?_isSome_iff]
            by_cases ho : candidate ∈ options <;> simp [ho, Option.isSome_iff_ne_none]
          cases prob with
          | null | bool | str | arr | obj =>
            refine taken_iff_of_none (e := invalidProbability) ?_ (by rw [readItem, hcandidate, hprob])
            simp only [addItem, hcandidate, hprob]
            exact ite_self _
          | int n =>
            rw [taken_iff_of_some (q := n) (by rw [readItem, hcandidate, hprob])]
            simp only [addItem, hcandidate, hprob]
            by_cases hnew : candidate ∈ options ∧ candidate ∉ probabilities.keys
            · rw [if_neg (mt hskip.mp (not_not.mpr hnew)), bind_eq_ok]
              constructor
              · rintro ⟨_, -, hadd⟩
                obtain ⟨hunit, hd⟩ := addProbability_fin.mp hadd
                exact ⟨hnew.1, hnew.2, hunit, hd⟩
              · rintro ⟨-, -, hunit, hd⟩
                exact ⟨_, isFiniteInt_of_unit hunit, addProbability_fin.mpr ⟨hunit, hd⟩⟩
            · rw [if_pos (hskip.mpr hnew)]
              exact iff_of_false (fun h ↦ by cases h) fun h ↦ hnew ⟨h.1, h.2.1⟩
          | float x =>
            cases x with
            | nan | posInf | negInf =>
              refine taken_iff_of_none (e := invalidProbability) ?_
                (by rw [readItem, hcandidate, hprob])
              simp only [addItem, hcandidate, hprob]
              exact ite_self _
            | fin q =>
              rw [taken_iff_of_some (q := q) (by rw [readItem, hcandidate, hprob])]
              simp only [addItem, hcandidate, hprob]
              by_cases hnew : candidate ∈ options ∧ candidate ∉ probabilities.keys
              · rw [if_neg (mt hskip.mp (not_not.mpr hnew))]
                change addProbability probabilities candidate (.fin q) = .ok d ↔ _
                rw [addProbability_fin]
                constructor
                · exact fun h ↦ ⟨hnew.1, hnew.2, h⟩
                · exact fun h ↦ h.2.2
              · rw [if_pos (hskip.mpr hnew)]
                exact iff_of_false (fun h ↦ by cases h) fun h ↦ hnew ⟨h.1, h.2.1⟩

/-- What the loop over a ranking collects. -/
theorem foldlM_addItem_iff {options : List Text} {ranked : List Json}
    {probabilities d : Dict Text PyFloat} :
    ranked.foldlM (addItem options) probabilities = .ok d ↔
      (∀ item ∈ ranked, Readable options item) ∧
        (∀ e ∈ entriesOf ranked, e.1 ∉ probabilities.keys) ∧
        ((entriesOf ranked).map Prod.fst).Nodup ∧
        d.entries = probabilities.entries ++ (entriesOf ranked).map fun e ↦ (e.1, .fin e.2) := by
  induction ranked generalizing probabilities with
  | nil =>
    rw [List.foldlM_nil]
    constructor
    · rintro ⟨⟩
      simp [entriesOf]
    · rintro ⟨-, -, -, hd⟩
      rw [entriesOf, List.filterMap_nil, List.map_nil, List.append_nil] at hd
      cases d
      cases probabilities
      cases hd
      rfl
  | cons item ranked ih =>
    rw [List.foldlM_cons, bind_eq_ok]
    constructor
    · rintro ⟨next, hnext, h⟩
      obtain ⟨e, hread, hoption, hnew, hunit, rfl⟩ := addItem_eq_ok_iff.mp hnext
      obtain ⟨hall, hfresh, hnodup, hd⟩ := ih.mp h
      have hentries : entriesOf (item :: ranked) = e :: entriesOf ranked :=
        List.filterMap_cons_some hread
      rw [Dict.keys_insert_of_notMem _ hnew] at hfresh
      rw [Dict.entries_insert_of_notMem _ hnew, List.append_assoc] at hd
      rw [hentries]
      refine ⟨List.forall_mem_cons.mpr ⟨⟨e, hread, hoption, hunit⟩, hall⟩,
        List.forall_mem_cons.mpr ⟨hnew, fun a ha hmem ↦ ?_⟩, ?_, hd⟩
      · exact hfresh a ha (List.mem_append_left _ hmem)
      · rw [List.map_cons, List.nodup_cons]
        refine ⟨fun hmem ↦ ?_, hnodup⟩
        obtain ⟨a, ha, heq⟩ := List.mem_map.mp hmem
        refine hfresh a ha (List.mem_append_right _ ?_)
        rw [heq]
        exact List.mem_singleton_self _
    · rintro ⟨hall, hfresh, hnodup, hd⟩
      obtain ⟨⟨e, hread, hoption, hunit⟩, hall⟩ := List.forall_mem_cons.mp hall
      have hentries : entriesOf (item :: ranked) = e :: entriesOf ranked :=
        List.filterMap_cons_some hread
      rw [hentries] at hfresh hnodup hd
      obtain ⟨hnew, hfresh⟩ := List.forall_mem_cons.mp hfresh
      rw [List.map_cons, List.nodup_cons] at hnodup
      refine ⟨_, addItem_eq_ok_iff.mpr ⟨e, hread, hoption, hnew, hunit, rfl⟩,
        ih.mpr ⟨hall, fun a ha hmem ↦ ?_, hnodup.2, ?_⟩⟩
      · rw [Dict.keys_insert_of_notMem _ hnew] at hmem
        obtain hmem | hmem := List.mem_append.mp hmem
        · exact hfresh a ha hmem
        · rw [List.mem_singleton] at hmem
          exact hnodup.1 (List.mem_map.mpr ⟨a, ha, hmem⟩)
      · rw [Dict.entries_insert_of_notMem _ hnew, List.append_assoc]
        exact hd

private theorem length_entriesOf {options : List Text} {ranked : List Json}
    (h : ∀ item ∈ ranked, Readable options item) : (entriesOf ranked).length = ranked.length := by
  induction ranked with
  | nil => rfl
  | cons item ranked ih =>
    obtain ⟨⟨e, hread, -⟩, hall⟩ := List.forall_mem_cons.mp h
    have hentries : entriesOf (item :: ranked) = e :: entriesOf ranked :=
      List.filterMap_cons_some hread
    rw [hentries, List.length_cons, List.length_cons, ih hall]

private theorem readable_of_mem {options : List Text} {ranked : List Json} {e : Text × ℚ}
    (h : ∀ item ∈ ranked, Readable options item) (he : e ∈ entriesOf ranked) :
    e.1 ∈ options ∧ 0 ≤ e.2 := by
  obtain ⟨item, hitem, hread⟩ := List.mem_filterMap.mp he
  obtain ⟨e', hread', hoption, hnonneg, -⟩ := h item hitem
  rw [hread] at hread'
  cases hread'
  exact ⟨hoption, hnonneg⟩

/-- As many readable items with distinct names as there are options name all of them. -/
theorem names_perm {options : List Text} {ranked : List Json}
    (hlength : ranked.length = options.length) (hall : ∀ item ∈ ranked, Readable options item)
    (hnodup : ((entriesOf ranked).map Prod.fst).Nodup) :
    ((entriesOf ranked).map Prod.fst).Perm options := by
  refine (List.Nodup.subperm hnodup fun name hname ↦ ?_).perm_of_length_le ?_
  · obtain ⟨e, he, rfl⟩ := List.mem_map.mp hname
    exact (readable_of_mem hall he).1
  · rw [List.length_map, length_entriesOf hall, hlength]

/-! ### Totals and shares -/

private theorem foldl_add (qs : List ℚ) (a : ℚ) :
    (qs.map PyFloat.fin).foldl PyFloat.add (.fin a) = .fin (a + qs.sum) := by
  induction qs generalizing a with
  | nil => rw [List.map_nil, List.foldl_nil, List.sum_nil, add_zero]
  | cons q qs ih =>
    have hadd : PyFloat.add (.fin a) (.fin q) = .fin (a + q) := by
      rw [PyFloat.add, PyFloat.neg, PyFloat.sub_fin, sub_neg_eq_add]
    rw [List.map_cons, List.foldl_cons, hadd, ih, List.sum_cons, add_assoc]

private theorem total_of_entries {d : Dict Text PyFloat} {entries : List (Text × ℚ)}
    (h : d.entries = entries.map fun e ↦ (e.1, .fin e.2)) :
    total d = .fin (entries.map Prod.snd).sum := by
  have hvalues : d.values = (entries.map Prod.snd).map PyFloat.fin := by
    rw [Dict.values, h, List.map_map, List.map_map]
    rfl
  rw [total, hvalues, foldl_add, zero_add]

/-- The probabilities that a ranking gives to the options: each option is named by an item, and
each item names an option. -/
structure Gives (ranked : List Json) (options : List Text) (p : Text → ℚ) : Prop where
  given : ∀ option ∈ options, ∃ item ∈ ranked, readItem item = some (option, p option)
  only : ∀ item ∈ ranked, ∃ option ∈ options, readItem item = some (option, p option)
  nonneg : ∀ option ∈ options, 0 ≤ p option
  positive : 0 < (options.map p).sum

/-- The part of an option in the total. -/
def part (options : List Text) (p : Text → ℚ) (option : Text) : ℚ :=
  p option / (options.map p).sum

/-- The parts of the options are not negative, and they sum to one. -/
theorem Gives.parts {ranked : List Json} {options : List Text} {p : Text → ℚ}
    (h : Gives ranked options p) :
    (∀ option ∈ options, 0 ≤ part options p option) ∧ (options.map (part options p)).sum = 1 := by
  constructor
  · exact fun option hoption ↦ div_nonneg (h.nonneg option hoption) h.positive.le
  · have hmul : part options p = fun option ↦ p option * ((options.map p).sum)⁻¹ :=
      funext fun option ↦ div_eq_mul_inv _ _
    rw [hmul, List.sum_map_mul_right]
    exact mul_inv_cancel₀ h.positive.ne'

/-- No part exceeds one. -/
theorem Gives.part_le_one {ranked : List Json} {options : List Text} {p : Text → ℚ}
    (h : Gives ranked options p) {option : Text} (hoption : option ∈ options) :
    part options p option ≤ 1 := by
  obtain ⟨hnonneg, hsum⟩ := h.parts
  rw [← hsum]
  refine List.single_le_sum (fun q hq ↦ ?_) _ (List.mem_map_of_mem hoption)
  obtain ⟨other, hother, rfl⟩ := List.mem_map.mp hq
  exact hnonneg other hother

-- distinct names have one probability each
private theorem exists_lookup {entries : List (Text × ℚ)} (h : (entries.map Prod.fst).Nodup) :
    ∃ p : Text → ℚ, ∀ e ∈ entries, p e.1 = e.2 := by
  refine ⟨fun name ↦ ((⟨entries, h⟩ : Dict Text ℚ).get? name).getD 0, fun e he ↦ ?_⟩
  have hget : (⟨entries, h⟩ : Dict Text ℚ).get? e.1 = some e.2 :=
    (Dict.get?_eq_some_iff _ _ _).mpr he
  dsimp only
  rw [hget, Option.getD_some]

/-- An accepted ranking gives every option a probability, and its score is its part. -/
theorem gives_of_checkRanking {options : List Text} {ranked : List Json} {scores : List PyFloat}
    (hlength : ranked.length = options.length) (h : checkRanking options ranked = .ok scores) :
    ∃ p, Gives ranked options p ∧ scores = options.map fun option ↦ .fin (part options p option) := by
  obtain ⟨d, hfold, hsum, hshares⟩ := checkRanking_eq_ok_iff.mp h
  obtain ⟨hall, -, hnodup, hd⟩ := foldlM_addItem_iff.mp hfold
  have hd : d.entries = (entriesOf ranked).map fun e ↦ (e.1, .fin e.2) := hd
  have hnames := names_perm hlength hall hnodup
  obtain ⟨p, hp⟩ := exists_lookup hnodup
  -- the total over the items is the total over the options
  have htotal : ((entriesOf ranked).map Prod.snd).sum = (options.map p).sum := by
    rw [← (hnames.map p).sum_eq, List.map_map]
    exact congrArg List.sum (List.map_congr_left fun e he ↦ (hp e he).symm)
  have hpart : total d = .fin (options.map p).sum := by
    rw [total_of_entries hd, htotal]
  have hentry : ∀ option ∈ options, (option, p option) ∈ entriesOf ranked := by
    intro option hoption
    obtain ⟨e, he, rfl⟩ := List.mem_map.mp (hnames.mem_iff.mpr hoption)
    rw [hp e he]
    exact he
  refine ⟨p, ⟨fun option hoption ↦ ?_, fun item hitem ↦ ?_, fun option hoption ↦ ?_, ?_⟩, ?_⟩
  · exact List.mem_filterMap.mp (hentry option hoption)
  · obtain ⟨e, hread, hoption, -⟩ := hall item hitem
    refine ⟨e.1, hoption, ?_⟩
    rw [hp e (List.mem_filterMap.mpr ⟨item, hitem, hread⟩)]
    exact hread
  · exact (readable_of_mem hall (hentry option hoption)).2
  · rw [hpart, sumsToOne, Bool.and_eq_true, PyFloat.le_fin, decide_eq_true_eq] at hsum
    exact lt_of_lt_of_le (by norm_num) hsum.1
  · rw [← mapM_eq_ok_iff] at hshares
    have hall : options.mapM (share d (total d)) =
        .ok (options.map fun option ↦ .fin (part options p option)) := by
      rw [mapM_eq_ok_iff, List.forall₂_map_right_iff, List.forall₂_same]
      intro option hoption
      have hget : d.get? option = some (.fin (p option)) := by
        rw [Dict.get?_eq_some_iff, hd]
        exact List.mem_map.mpr ⟨_, hentry option hoption, rfl⟩
      rw [share, hget, hpart]
      rfl
    rw [hall] at hshares
    exact (Except.ok.inj hshares).symm

/-- The order of the server does not matter. -/
theorem checkRanking_of_perm {options : List Text} {ranked ranked' : List Json}
    {scores : List PyFloat} (hperm : ranked'.Perm ranked)
    (h : checkRanking options ranked = .ok scores) : checkRanking options ranked' = .ok scores := by
  obtain ⟨d, hfold, hsum, hshares⟩ := checkRanking_eq_ok_iff.mp h
  obtain ⟨hall, -, hnodup, hd⟩ := foldlM_addItem_iff.mp hfold
  have hentries : (entriesOf ranked').Perm (entriesOf ranked) := hperm.filterMap readItem
  have hnodup' : ((entriesOf ranked').map Prod.fst).Nodup :=
    (hentries.map Prod.fst).nodup_iff.mpr hnodup
  let d' : Dict Text PyFloat := ⟨(entriesOf ranked').map fun e ↦ (e.1, .fin e.2), by
    rwa [List.map_map]⟩
  have hd : d.entries = (entriesOf ranked).map fun e ↦ (e.1, .fin e.2) := hd
  have htotal : total d' = total d := by
    rw [total_of_entries (rfl : d'.entries = _), total_of_entries hd,
      (hentries.map Prod.snd).sum_eq]
  have hget : ∀ option, d'.get? option = d.get? option := by
    apply Dict.get?_of_perm
    rw [hd]
    exact hentries.map _
  have hshare : share d' (total d') = share d (total d) := by
    funext option
    rw [share, share, hget, htotal]
  refine checkRanking_eq_ok_iff.mpr ⟨d', foldlM_addItem_iff.mpr ⟨fun item hitem ↦ ?_, fun e _ hmem ↦
    (List.not_mem_nil hmem), hnodup', rfl⟩, ?_, ?_⟩
  · exact hall item (hperm.mem_iff.mp hitem)
  · rw [htotal]
    exact hsum
  · rw [hshare]
    exact hshares

/-- The scores are the parts of the options in the total that the server gives to them, in the
order of the options. -/
structure Aligned (options : List Text) (response : Dict Text Json) (p : Text → ℚ)
    (scores : List PyFloat) : Prop where
  gives : ∃ ranked, response.get? "ranked" = some (.arr ranked) ∧ ranked.length = options.length ∧
    Gives ranked options p
  scores_eq : scores = options.map fun option ↦ .fin (part options p option)

/-- The scores of an accepted response are aligned with the options. -/
theorem aligned_of_checkResponse {servedModel : Text} {options : List Text}
    {response : Dict Text Json} {scores : List PyFloat}
    (h : checkResponse servedModel options response = .ok scores) :
    ∃ p, Aligned options response p scores := by
  obtain ⟨-, ranked, hranked, hlength, hranking⟩ := checkResponse_eq_ok_iff.mp h
  obtain ⟨p, hgives, hscores⟩ := gives_of_checkRanking hlength hranking
  exact ⟨p, ⟨ranked, hranked, hlength, hgives⟩, hscores⟩

/-- A response with the same items in another order has the same scores. -/
theorem checkResponse_of_perm {servedModel : Text} {options : List Text}
    {response response' : Dict Text Json} {ranked ranked' : List Json} {scores : List PyFloat}
    (hmodel : response'.get? "model" = response.get? "model")
    (hranked : response.get? "ranked" = some (.arr ranked))
    (hranked' : response'.get? "ranked" = some (.arr ranked')) (hperm : ranked'.Perm ranked)
    (h : checkResponse servedModel options response = .ok scores) :
    checkResponse servedModel options response' = .ok scores := by
  obtain ⟨hserved, items, hitems, hlength, hranking⟩ := checkResponse_eq_ok_iff.mp h
  rw [hranked] at hitems
  obtain rfl := Json.arr.inj (Option.some.inj hitems)
  exact checkResponse_eq_ok_iff.mpr ⟨hmodel.trans hserved, ranked', hranked',
    hperm.length_eq.trans hlength, checkRanking_of_perm hperm hranking⟩

end ClmAdapter

/-! ### Requests -/

section Requests

variable [FloatText] [JsonLimits] [JsonBytes]

/-- The server was asked this and answered that, through the transport or over HTTP. -/
def Exchanged (payload : RankPayload) (response : Dict Text Json)
    (es : List (Event RankOp RankOp.Res)) : Prop :=
  ⟨.transport payload, .ok response⟩ ∈ es ∨ ∃ body timeout answer,
    (ClmCall.payloadText payload).encodeUtf8 = .ok body ∧ ⟨.post body timeout, .ok answer⟩ ∈ es ∧
      ClmCall.parseBody answer = .ok response

private theorem Exchanged.mono {payload : RankPayload} {response : Dict Text Json}
    {es es' : List (Event RankOp RankOp.Res)} (h : Exchanged payload response es)
    (hsub : ∀ e ∈ es, e ∈ es') : Exchanged payload response es' := by
  obtain h | ⟨body, timeout, answer, hbody, h, hparse⟩ := h
  · exact .inl (hsub _ h)
  · exact .inr ⟨body, timeout, answer, hbody, hsub _ h, hparse⟩

variable (call : ClmCall)

/-- Scores come from a response to the request for them. -/
def Scores (context question : Text) (options : List Text) (es : List (Event RankOp RankOp.Res))
    (scores : List PyFloat) : Prop :=
  ClmAdapter.checkOptions options = .ok () ∧
    ∃ response, Exchanged ⟨context, question, options, call.servedModel⟩ response es ∧
      ClmAdapter.checkResponse call.servedModel options response = .ok scores

private theorem all_exchange (payload : RankPayload) (timeout : PyFloat) :
    Prog.All (fun es x ↦ ∀ response, x = .ok response → Exchanged payload response es)
      (call.exchange payload timeout) := by
  unfold ClmCall.exchange
  split
  · intro answer
    cases answer with
    | error e => exact fun response h ↦ (nomatch h)
    | ok response =>
      rintro _ ⟨⟩
      exact .inl (List.mem_singleton_self _)
  · refine Prog.All.bind (Prog.All.ofExcept ⟨fun body hbody answer ↦ ?_, fun e _ response h ↦
      (nomatch h)⟩)
    refine Prog.All.ofExcept fun response h ↦ ?_
    obtain ⟨bytes, hanswer, hparse⟩ := bind_eq_ok.mp h
    cases hanswer
    exact .inr ⟨body, timeout, bytes, hbody, List.mem_singleton_self _, hparse⟩

private theorem all_request_scores (context question : Text) (options : List Text)
    (deadline : Option PyFloat) :
    Prog.All (fun es x ↦ ∀ scores, x = .ok scores → ∃ response,
        Exchanged ⟨context, question, options, call.servedModel⟩ response es ∧
          ClmAdapter.checkResponse call.servedModel options response = .ok scores)
      (call.request context question options deadline) := by
  unfold ClmCall.request
  refine Prog.All.bind (Prog.All.of_forall _ fun before x ↦ ⟨fun left _ ↦ ?_, fun e _ scores h ↦
    (nomatch h)⟩)
  split
  · exact fun scores h ↦ (nomatch h)
  · intro counted
    change Prog.All _ (call.exchange _ left >>= _)
    refine Prog.All.bind ((all_exchange call _ left).mono fun es x hx ↦ ⟨?_, fun e _ scores h ↦
      (nomatch h)⟩)
    rintro response rfl
    refine Prog.All.ofExcept fun scores h ↦ ⟨response, ?_, h⟩
    exact (hx response rfl).mono fun e he ↦ by simp [he]

/-- Scores are those of a response to the request. -/
theorem all_rank_scores (context question : Text) (options : List Text)
    (deadline : Option PyFloat) :
    Prog.All (fun es x ↦ ∀ scores, x = .ok scores → Scores call context question options es scores)
      (call.rank context question options deadline) := by
  refine Prog.All.bind (Prog.All.ofExcept ⟨fun _ hoptions ↦ ?_, fun e _ scores h ↦ (nomatch h)⟩)
  exact (all_request_scores call context question options deadline).mono fun es x hx scores h ↦
    ⟨hoptions, hx scores h⟩

private theorem Scores.mono {call : ClmCall} {context question : Text} {options : List Text}
    {es es' : List (Event RankOp RankOp.Res)} {scores : List PyFloat}
    (h : Scores call context question options es scores) (hsub : ∀ e ∈ es, e ∈ es') :
    Scores call context question options es' scores := by
  obtain ⟨hoptions, response, hexchanged, hchecked⟩ := h
  exact ⟨hoptions, response, hexchanged.mono hsub, hchecked⟩

namespace SystemOneInference

private theorem all_rank_infer (context question : Text) (options : List Text) (deadline : PyFloat) :
    Prog.All (fun es x ↦ ∀ scores, x = .ok scores → Scores call context question options es scores)
      (rank call context question options deadline) := by
  have htext : Prog.All (fun es x ↦ ∀ scores, x = .ok scores →
      Scores call context question options es scores)
      (call.rankText context question options (some deadline)) := by
    refine Prog.All.bind (Prog.All.ofExcept ⟨fun _ _ ↦ ?_, fun e _ scores h ↦ (nomatch h)⟩)
    exact all_rank_scores call context question options (some deadline)
  refine Prog.All.tryCatch (htext.mono fun es x hx ↦ ⟨fun scores hscores s hs ↦ ?_, fun e _ ↦ ?_⟩)
  · cases hs
    exact hx scores hscores
  · split
    · exact fun scores h ↦ (nomatch h)
    · exact fun scores h ↦ (nomatch h)

omit [FloatText] [JsonLimits] [JsonBytes] in
/-- The sort keeps the pairs. -/
theorem perm_sortedByScore (pairs : List (Text × PyFloat)) : (sortedByScore pairs).Perm pairs :=
  List.perm_insertionSort _ pairs

omit [FloatText] [JsonLimits] [JsonBytes] in
/-- No pair has a higher score than one before it. -/
theorem pairwise_sortedByScore {pairs : List (Text × PyFloat)} (h : ∀ pair ∈ pairs, pair.2 ≠ .nan) :
    (sortedByScore pairs).Pairwise fun a b ↦ PyFloat.le b.2 a.2 = true := by
  refine pairwise_insertionSort_of_key (fun pair ↦ OrderDual.toDual (PyFloat.rank pair.2)) ?_
  intro a ha b hb
  exact PyFloat.le_iff_rank (h b hb) (h a ha)

/-- Ranked candidates are sorted pairs of the candidates of the payload with scores for them. -/
theorem all_infer_scores (payload : Dict Text Json) :
    Prog.All (fun es x ↦ ∀ result items, x = .ok result → result.scored = .ranked items →
      ∃ options, payload.get? "candidates" = some (.arr (options.map .str)) ∧ ∃ context scores,
        Scores call context "NEXT_ACTION" options es scores ∧
          items = sortedByScore (options.zip scores)) (infer call payload) := by
  refine Prog.All.bind (Prog.All.ofExcept ⟨?_, fun e _ result items h ↦ (nomatch h)⟩)
  rintro ⟨model, context⟩ hpreamble now
  change Prog.All _ (Prog.ofExcept (plan payload) >>= _)
  refine Prog.All.bind (Prog.All.ofExcept ⟨fun p hplan ↦ ?_, fun e _ result items h ↦ (nomatch h)⟩)
  cases p with
  | candidates options =>
    refine Prog.All.bind ((all_rank_infer call context _ options _).mono fun es x hx ↦ ⟨?_,
      fun e _ result items h ↦ (nomatch h)⟩)
    rintro scores rfl result items ⟨⟩ ⟨⟩
    unfold plan at hplan
    split at hplan
    · next raw hraw =>
      obtain ⟨_, hoptions, heq⟩ := exists_of_map_eq_ok hplan
      cases heq
      obtain ⟨rfl, -⟩ := checkCandidates_eq_ok hoptions
      exact ⟨options, hraw, context, scores, (hx scores rfl).mono fun e he ↦ by simp [he], rfl⟩
    · obtain ⟨_, -, heq⟩ := exists_of_map_eq_ok hplan
      cases heq
  | questions prepared =>
    refine Prog.All.bind (Prog.All.of_forall _ fun es x ↦ ⟨?_, fun e _ result items h ↦ (nomatch h)⟩)
    rintro answers - result items ⟨⟩ hscored
    cases hscored

end SystemOneInference

end Requests

end C3RSpec.SystemOne

import C3RSpec.SystemOne.Inference

/-!
# Payloads are checked before anything is spent

Every check of `infer` comes before its first ranking request, so a payload that is refused has
cost nothing, and one that has cost something was within every budget. What a request raises is
relabelled, and what follows a request cannot fail.
-/

namespace C3RSpec.SystemOne

open Base C3RSpec.Runtime

namespace SystemOneInference

/-! ### Accepted payloads -/

theorem text_eq_ok_iff {limit : Nat} {j : Json} {t : Text} :
    text limit j = .ok t ↔ j = .str t ∧ isBlankText t = false ∧ t.length ≤ limit := by
  unfold text
  split
  · next s =>
    split
    · next hbad =>
      refine iff_of_false (fun h ↦ (nomatch h)) ?_
      rintro ⟨hs, hblank, hlength⟩
      cases hs
      rw [hblank, Bool.false_or, decide_eq_true_eq] at hbad
      omega
    · next hgood =>
      rw [Bool.not_eq_true, Bool.or_eq_false_iff, decide_eq_false_iff_not, Nat.not_lt] at hgood
      constructor
      · rintro ⟨⟩
        exact ⟨rfl, hgood⟩
      · rintro ⟨hs, -⟩
        rw [Json.str.inj hs]
  · next hother =>
    exact iff_of_false (fun h ↦ (nomatch h)) fun h ↦ hother t h.1

/-- A text that is not blank is not empty. -/
theorem ne_nil_of_not_blank {t : Text} (h : isBlankText t = false) : t ≠ [] := by
  rintro rfl
  cases h

/-- A text within a limit. -/
structure Bounded (limit : Nat) (t : Text) : Prop where
  nonempty : t ≠ []
  bounded : t.length ≤ limit

theorem bounded_of_text {limit : Nat} {j : Json} {t : Text} (h : text limit j = .ok t) :
    j = .str t ∧ Bounded limit t := by
  obtain ⟨hj, hblank, hlength⟩ := text_eq_ok_iff.mp h
  exact ⟨hj, ne_nil_of_not_blank hblank, hlength⟩

theorem mapM_text_eq_ok {limit : Nat} {xs : List Json} {ts : List Text}
    (h : xs.mapM (text limit) = .ok ts) : xs = ts.map .str ∧ ∀ t ∈ ts, Bounded limit t := by
  have hall := mapM_eq_ok_iff.mp h
  clear h
  induction hall with
  | nil => exact ⟨rfl, fun t ht ↦ (List.not_mem_nil ht).elim⟩
  | cons hx _ ih =>
    obtain ⟨rfl, hbounded⟩ := bounded_of_text hx
    rw [ih.1]
    exact ⟨rfl, List.forall_mem_cons.mpr ⟨hbounded, ih.2⟩⟩

theorem mapping_eq_ok_iff {j : Json} {d : Dict Text Json} :
    mapping j = .ok d ↔ ∃ es, j = .obj es ∧ d = Dict.ofList es := by
  cases j <;> simp [mapping, eq_comm]

theorem list_eq_ok_iff {j : Json} {xs : List Json} : list j = .ok xs ↔ j = .arr xs := by
  cases j <;> simp [list]

/-- The options that a question offers, by its type and what stands under `options` or
`criteria`. -/
inductive Offered (prompt : Text) : Text → Json → List Text → Prop
  | choice {es : List (Text × Json)} {options : List Text}
      (h : (Dict.ofList es).values = options.map .str) : Offered prompt "choice" (.obj es) options
  | criteria {kind : Text} {es : List (Text × Json)} {no yes : Text} (hkind : isBooleanKind kind = true)
      (hno : (Dict.ofList es).get? "false" = some (.str no))
      (hyes : (Dict.ofList es).get? "true" = some (.str yes)) :
      Offered prompt kind (.obj es) [no, yes]
  | default {kind : Text} (hkind : isBooleanKind kind = true) :
      Offered prompt kind .null
        [Text.ofString "false: No. This is false: " ++ prompt,
          Text.ofString "true: Yes. This is true: " ++ prompt]
  | score {options : List Text} : Offered prompt "score" (.arr (options.map .str)) options

/-- What the checks of a question leave of its options. -/
structure OptionsOf (prompt kind : Text) (raw : Json) (keys options : List Text) : Prop where
  offered : Offered prompt kind raw options
  keyed : keys.length = options.length
  several : 2 ≤ options.length
  few : options.length ≤ 64
  nonempty : ∀ option ∈ options, option ≠ []

private theorem optionsOf_choice {prompt : Text} {raw : Json} {keys options : List Text}
    (h : choiceOptions raw = .ok (keys, options)) : OptionsOf prompt "choice" raw keys options := by
  simp only [choiceOptions, bind_eq_ok] at h
  obtain ⟨d, hd, h⟩ := h
  split at h
  · cases h
  · next hsize =>
    simp only [bind_eq_ok] at h
    obtain ⟨ks, hks, os, hos, h⟩ := h
    cases h
    obtain ⟨es, rfl, rfl⟩ := mapping_eq_ok_iff.mp hd
    obtain ⟨hvalues, hbounded⟩ := mapM_text_eq_ok hos
    have hkeys := (mapM_eq_ok_iff.mp hks).length_eq
    have hlength := congrArg List.length hvalues
    simp only [Dict.keys, Dict.values, Dict.size, List.length_map] at hkeys hlength hsize
    exact ⟨.choice hvalues, by omega, by omega, by omega, fun t ht ↦ (hbounded t ht).nonempty⟩

private theorem get?_of_text {d : Dict Text Json} {key t : Text} {limit : Nat}
    (h : text limit ((d.get? key).getD .null) = .ok t) :
    d.get? key = some (.str t) ∧ Bounded limit t := by
  obtain ⟨hget, hbounded⟩ := bounded_of_text h
  cases hd : d.get? key with
  | none =>
    rw [hd] at hget
    cases hget
  | some v =>
    rw [hd, Option.getD_some] at hget
    rw [hget]
    exact ⟨rfl, hbounded⟩

private theorem optionsOf_boolean {kind prompt : Text} (hkind : isBooleanKind kind = true)
    {raw : Json} {keys options : List Text} (h : booleanOptions prompt raw = .ok (keys, options)) :
    OptionsOf prompt kind raw keys options := by
  unfold booleanOptions at h
  split at h
  · cases h
    have hno : Text.ofString "false: No. This is false: " ≠ [] := by decide +kernel
    have hyes : Text.ofString "true: Yes. This is true: " ≠ [] := by decide +kernel
    exact ⟨.default hkind, rfl, Nat.le_refl 2, Nat.le_add_left 2 62, by simp [hno, hyes]⟩
  · simp only [bind_eq_ok] at h
    obtain ⟨d, hd, h⟩ := h
    split at h
    · cases h
    · simp only [bind_eq_ok] at h
      obtain ⟨os, hos, h⟩ := h
      cases h
      obtain ⟨es, rfl, rfl⟩ := mapping_eq_ok_iff.mp hd
      rw [mapM_eq_ok_iff, booleanKeys, List.forall₂_cons_left_iff] at hos
      obtain ⟨no, rest, hno, hos, rfl⟩ := hos
      rw [List.forall₂_cons_left_iff] at hos
      obtain ⟨yes, rest, hyes, hos, rfl⟩ := hos
      cases hos
      obtain ⟨hno, hbno⟩ := get?_of_text hno
      obtain ⟨hyes, hbyes⟩ := get?_of_text hyes
      exact ⟨.criteria hkind hno hyes, rfl, Nat.le_refl 2, Nat.le_add_left 2 62,
        by simp [hbno.nonempty, hbyes.nonempty]⟩

private theorem optionsOf_score {prompt : Text} {raw : Json} {keys options : List Text}
    (h : scoreOptions raw = .ok (keys, options)) : OptionsOf prompt "score" raw keys options := by
  simp only [scoreOptions, bind_eq_ok] at h
  obtain ⟨xs, hxs, h⟩ := h
  split at h
  · cases h
  · next hsize =>
    simp only [bind_eq_ok] at h
    obtain ⟨os, hos, h⟩ := h
    cases h
    obtain rfl := list_eq_ok_iff.mp hxs
    obtain ⟨rfl, hbounded⟩ := mapM_text_eq_ok hos
    rw [List.length_map] at hsize
    refine ⟨.score, ?_, by omega, by omega, fun t ht ↦ (hbounded t ht).nonempty⟩
    rw [List.length_map, List.length_range]

theorem optionsOf_kindOptions {kind prompt : Text} {raw : Json} {keys options : List Text}
    (h : kindOptions kind prompt raw = .ok (keys, options)) :
    OptionsOf prompt kind raw keys options := by
  unfold kindOptions at h
  split at h
  · next hkind =>
    rw [hkind]
    exact optionsOf_choice h
  · split at h
    · next hkind => exact optionsOf_boolean hkind h
    · split at h
      · next hkind =>
        rw [hkind]
        exact optionsOf_score h
      · cases h

/-- A question of a payload with the options that it offers, within the bounds. -/
structure QuestionWithin (name : Text) (value : Json) (options : List Text) : Prop where
  offered : ∃ es prompt kind, value = .obj es ∧ (Dict.ofList es).get? "type" = some (.str kind) ∧
    ((Dict.ofList es).get? "instructions").getD (.str name) = .str prompt ∧
    Offered prompt kind (rawOptions (Dict.ofList es)) options
  nodup : options.Nodup
  bounded : ∀ option ∈ options, Bounded 1024 option

/-- A question that is ready to be asked. -/
structure Ready (q : Prepared) : Prop where
  prompt : Bounded 1024 q.prompt
  keyed : q.keys.length = q.options.length
  several : 2 ≤ q.options.length
  few : q.options.length ≤ 64
  nodup : q.options.Nodup
  bounded : ∀ option ∈ q.options, Bounded 1024 option

private theorem questionKind_eq_ok {v : Option Json} {kind : Text} (h : questionKind v = .ok kind) :
    v = some (.str kind) := by
  unfold questionKind at h
  split at h <;> cases h
  rfl

/-- A prepared question is ready, and its options are the ones that the payload offers. -/
theorem prepare_eq_ok {name : Text} {value : Json} {q : Prepared} (h : prepare name value = .ok q) :
    Ready q ∧ QuestionWithin name value q.options := by
  simp only [prepare, bind_eq_ok] at h
  obtain ⟨name', hname, d, hd, h⟩ := h
  obtain ⟨hstr, -⟩ := bounded_of_text hname
  obtain rfl := Json.str.inj hstr
  obtain ⟨es, rfl, rfl⟩ := mapping_eq_ok_iff.mp hd
  split at h
  · cases h
  · rw [bind_eq_ok] at h
    obtain ⟨prompt, hprompt, h⟩ := h
    obtain ⟨hprompt, hpromptBounded⟩ := bounded_of_text hprompt
    split at h
    · cases h
    · simp only [bind_eq_ok] at h
      obtain ⟨kind, hkind, ⟨keys, options⟩, hoptions, _, hunique, h⟩ := h
      cases h
      have ho := optionsOf_kindOptions hoptions
      unfold checkUnique at hunique
      split at hunique
      · cases hunique
      · next hgood =>
        rw [not_or, not_not, Bool.not_eq_true, List.any_eq_false] at hgood
        have hbounded : ∀ option ∈ options, Bounded 1024 option := by
          intro option hoption
          have hlength := hgood.2 option hoption
          rw [decide_eq_true_eq, Nat.not_lt] at hlength
          exact ⟨ho.nonempty option hoption, hlength⟩
        exact ⟨⟨hpromptBounded, ho.keyed, ho.several, ho.few, hgood.1, hbounded⟩,
          ⟨es, prompt, kind, rfl, questionKind_eq_ok hkind, hprompt, ho.offered⟩, hgood.1, hbounded⟩

/-- The documented budgets of a payload: the state, and the candidates or the questions. -/
structure WithinBudgets [FloatText] [JsonLimits] (payload : Dict Text Json) : Prop where
  state : ∃ context bytes, stateText (payload.get? "state") = .ok context ∧
    context.encodeUtf8 = .ok bytes ∧ bytes.size ≤ 32768
  asked : (∃ options : List Text, payload.get? "candidates" = some (.arr (options.map .str)) ∧
      1 ≤ options.length ∧ options.length ≤ 64 ∧ options.Nodup ∧
      ∀ option ∈ options, Bounded 1024 option) ∨
    ∃ (es : List (Text × Json)) (options : List (List Text)),
      payload.get? "questions" = some (.obj es) ∧
      1 ≤ (Dict.ofList es).size ∧ (Dict.ofList es).size ≤ 16 ∧
      List.Forall₂ (fun e os ↦ QuestionWithin e.1 e.2 os) (Dict.ofList es).entries options ∧
      (options.map List.length).sum ≤ 64

/-- A plan that can be carried out. -/
def Plan.Ready : Plan → Prop
  | .candidates options => options ≠ [] ∧ options.length ≤ 64 ∧ options.Nodup ∧
      ∀ option ∈ options, Bounded 1024 option
  | .questions prepared => prepared ≠ [] ∧ ∀ q ∈ prepared, SystemOneInference.Ready q

/-- Accepted candidates are distinct bounded texts. -/
theorem checkCandidates_eq_ok {raw : Json} {options : List Text}
    (h : checkCandidates raw = .ok options) :
    raw = .arr (options.map .str) ∧ 1 ≤ options.length ∧ options.length ≤ 64 ∧ options.Nodup ∧
      ∀ option ∈ options, Bounded 1024 option := by
  simp only [checkCandidates, bind_eq_ok] at h
  obtain ⟨xs, hxs, h⟩ := h
  obtain rfl := list_eq_ok_iff.mp hxs
  split at h
  · cases h
  · next hcount =>
    rw [bind_eq_ok] at h
    obtain ⟨os, hos, h⟩ := h
    split at h
    · cases h
    · next hnodup =>
      cases h
      obtain ⟨rfl, hbounded⟩ := mapM_text_eq_ok hos
      rw [List.length_map] at hcount
      exact ⟨rfl, by omega, by omega, not_not.mp hnodup, hbounded⟩

private theorem checkQuestions_eq_ok {raw : Json} {prepared : List Prepared}
    (h : checkQuestions raw = .ok prepared) :
    (∀ q ∈ prepared, Ready q) ∧ ∃ es, raw = .obj es ∧ 1 ≤ (Dict.ofList es).size ∧
      (Dict.ofList es).size ≤ 16 ∧
      List.Forall₂ (fun e os ↦ QuestionWithin e.1 e.2 os) (Dict.ofList es).entries
        (prepared.map Prepared.options) ∧
      ((prepared.map Prepared.options).map List.length).sum ≤ 64 := by
  simp only [checkQuestions, bind_eq_ok] at h
  obtain ⟨d, hd, h⟩ := h
  obtain ⟨es, rfl, rfl⟩ := mapping_eq_ok_iff.mp hd
  split at h
  · cases h
  · next hcount =>
    rw [bind_eq_ok] at h
    obtain ⟨qs, hqs, h⟩ := h
    split at h
    · cases h
    · next hsum =>
      cases h
      have hall := mapM_eq_ok_iff.mp hqs
      refine ⟨fun q hq ↦ ?_, es, rfl, by omega, by omega, ?_, ?_⟩
      · obtain ⟨e, -, he⟩ := exists_partner hall.flip hq
        exact (prepare_eq_ok he).1
      · rw [List.forall₂_map_right_iff]
        exact hall.imp fun e q he ↦ (prepare_eq_ok he).2
      · rw [List.map_map]
        exact Nat.not_lt.mp hsum

theorem exists_of_map_eq_ok {α β : Type} {f : α → β} {x : Except PyError α} {b : β}
    (h : f <$> x = .ok b) : ∃ a, x = .ok a ∧ b = f a := by
  cases x with
  | error e => cases h
  | ok a =>
    cases h
    exact ⟨a, rfl, rfl⟩

section Payload

variable [FloatText] [JsonLimits]

/-- An accepted payload is within the budgets, and its plan can be carried out. -/
theorem withinBudgets_of_plan {payload : Dict Text Json} {model context : Text} {p : Plan}
    (hpreamble : preamble payload = .ok (model, context)) (hplan : plan payload = .ok p) :
    WithinBudgets payload ∧ p.Ready ∧
      ∃ bytes, context.encodeUtf8 = .ok bytes ∧ bytes.size ≤ 32768 := by
  unfold preamble at hpreamble
  split at hpreamble
  · cases hpreamble
  · simp only [bind_eq_ok] at hpreamble
    obtain ⟨model', -, context', hstate, bytes, hbytes, hpreamble⟩ := hpreamble
    split at hpreamble
    · cases hpreamble
    · next hsize =>
      split at hpreamble
      · cases hpreamble
      · next hone =>
        cases hpreamble
        have hbound := Nat.not_lt.mp hsize
        unfold plan at hplan
        split at hplan
        · next raw hraw =>
          obtain ⟨options, hoptions, rfl⟩ := exists_of_map_eq_ok hplan
          obtain ⟨rfl, hone, hfew, hnodup, hbounded⟩ := checkCandidates_eq_ok hoptions
          exact ⟨⟨⟨context, bytes, hstate, hbytes, hbound⟩,
            .inl ⟨options, hraw, hone, hfew, hnodup, hbounded⟩⟩,
            ⟨List.length_pos_iff.mp hone, hfew, hnodup, hbounded⟩, bytes, hbytes, hbound⟩
        · next hnone =>
          obtain ⟨prepared, hprepared, rfl⟩ := exists_of_map_eq_ok hplan
          obtain ⟨hready, es, hraw, hmany, hfew, hall, hsum⟩ := checkQuestions_eq_ok hprepared
          have hne : prepared ≠ [] := by
            rintro rfl
            have hlength := hall.length_eq
            rw [Dict.size, hlength] at hmany
            cases hmany
          have hquestions : payload.get? "questions" = some (.obj es) := by
            cases hget : payload.get? "questions" with
            | none =>
              rw [hget] at hraw
              cases hraw
            | some v =>
              rw [hget] at hraw
              exact congrArg some hraw
          exact ⟨⟨⟨context, bytes, hstate, hbytes, hbound⟩,
            .inr ⟨es, _, hquestions, hmany, hfew, hall, hsum⟩⟩, ⟨hne, hready⟩, bytes, hbytes, hbound⟩

end Payload

/-! ### Runs -/

section Runs

variable [FloatText] [JsonLimits] [JsonBytes] (call : ClmCall)

/-- The errors that the service answers as an invalid request. -/
def isClientError (e : PyError) : Bool :=
  match e.kind with
  | .valueError | .unicodeEncodeError | .typeError | .keyError => true
  | .indexError | .attributeError | .osError | .runtimeError | .overflowError | .sqliteError
  | .httpException | .recursionError | .driverError | .other => false

private theorem all_request (context question : Text) (options : List Text)
    (deadline : Option PyFloat) : Prog.All (fun _ x ↦ ∀ scores, x = .ok scores →
      scores.length = options.length) (call.request context question options deadline) := by
  unfold ClmCall.request
  refine Prog.All.bind (Prog.All.of_forall _ fun _ x ↦ ⟨fun left _ ↦ ?_, fun e _ scores h ↦
    (nomatch h)⟩)
  split
  · exact fun scores h ↦ (nomatch h)
  · intro counted
    change Prog.All _ (call.exchange _ left >>= _)
    refine Prog.All.bind (Prog.All.of_forall _ fun _ x ↦ ⟨fun response _ ↦ ?_, fun e _ scores h ↦
      (nomatch h)⟩)
    apply Prog.All.ofExcept
    intro scores h
    exact ClmAdapter.length_of_checkResponse h

/-- A ranking request returns a score for each option, or an error that is not the client's. -/
theorem all_rank (context question : Text) (options : List Text) (deadline : PyFloat) :
    Prog.All (fun _ x ↦ (∀ scores, x = .ok scores → scores.length = options.length) ∧
      ∀ e, x = .error e → isClientError e = false) (rank call context question options deadline) := by
  have htext : Prog.All (fun _ x ↦ ∀ scores, x = .ok scores → scores.length = options.length)
      (call.rankText context question options (some deadline)) := by
    refine Prog.All.bind (Prog.All.ofExcept ⟨fun _ _ ↦ ?_, fun e _ scores h ↦ (nomatch h)⟩)
    refine Prog.All.bind (Prog.All.ofExcept ⟨fun _ _ ↦ ?_, fun e _ scores h ↦ (nomatch h)⟩)
    exact all_request call context question options (some deadline)
  refine Prog.All.tryCatch (htext.mono fun es x hx ↦ ⟨fun scores hscores ↦ ⟨fun s hs ↦ ?_,
    fun e h ↦ (nomatch h)⟩, fun e _ ↦ ?_⟩)
  · cases hs
    exact hx scores hscores
  · split
    · refine ⟨fun scores h ↦ (nomatch h), fun e' h ↦ ?_⟩
      cases h
      rfl
    · next hother =>
      refine ⟨fun scores h ↦ (nomatch h), fun e' h ↦ ?_⟩
      cases h
      unfold isRankFailure at hother
      unfold isClientError
      cases hkind : e.kind <;> simp_all

omit [FloatText] [JsonLimits] [JsonBytes] in
/-- A question that is ready is answered from as many scores as it has options. -/
theorem exists_answerOf {q : Prepared} (hq : Ready q) {scores : List PyFloat}
    (hscores : scores.length = q.options.length) : ∃ answer, answerOf q scores = .ok answer := by
  have hseveral := hq.several
  unfold answerOf
  dsimp only
  split
  · obtain ⟨key, hkey⟩ : ∃ key, bestKey q.keys scores = .ok key := by
      unfold bestKey
      split
      · next hnil =>
        have hlength := congrArg List.length hnil
        rw [List.length_zipIdx, List.length_nil] at hlength
        omega
      · next first rest hcons =>
        -- the best index is one of the scores, and there are as many keys
        have hmem := firstMax_mem (fun a b ↦ PyFloat.lt a.1 b.1) first rest
        rw [← hcons] at hmem
        have hindex := List.snd_lt_of_mem_zipIdx hmem
        rw [hscores, ← hq.keyed] at hindex
        rw [List.getElem?_eq_getElem (by omega)]
        exact ⟨_, rfl⟩
    rw [hkey]
    exact ⟨_, rfl⟩
  · split
    · rw [List.getElem?_eq_getElem (by omega)]
      exact ⟨_, rfl⟩
    · exact ⟨_, rfl⟩

private theorem all_askQuestions (context : Text) (deadline : PyFloat) {prepared : List Prepared}
    (hready : ∀ q ∈ prepared, Ready q) (answers : Dict Text Answer) :
    Prog.All (fun _ x ↦ ∀ e, x = .error e → isClientError e = false)
      (prepared.foldlM (askQuestion call context deadline) answers) := by
  induction prepared generalizing answers with
  | nil => exact fun e h ↦ (nomatch h)
  | cons q prepared ih =>
    rw [List.forall_mem_cons] at hready
    rw [List.foldlM_cons]
    refine Prog.All.bind (Prog.All.bind ((all_rank call context q.prompt q.options deadline).mono ?_))
    rintro es x ⟨hok, herror⟩
    refine ⟨?_, ?_⟩
    · rintro scores rfl
      obtain ⟨answer, hanswer⟩ := exists_answerOf hready.1 (hok scores rfl)
      rw [hanswer]
      refine ⟨fun next _ ↦ ?_, fun e h ↦ (nomatch h)⟩
      exact ih hready.2 next
    · rintro e rfl
      refine ⟨fun next h ↦ (nomatch h), ?_⟩
      rintro e' ⟨⟩ e'' ⟨⟩
      exact herror e rfl

/-- What is carried out raises nothing that is answered as an invalid request. -/
theorem all_execute (model context : Text) (deadline : PyFloat) {p : Plan} (hready : p.Ready) :
    Prog.All (fun _ x ↦ ∀ e, x = .error e → isClientError e = false)
      (execute call model context deadline p) := by
  cases p with
  | candidates options =>
    refine Prog.All.bind ((all_rank call context _ options deadline).mono fun es x hx ↦
      ⟨fun scores _ e h ↦ (nomatch h), fun e he e' h ↦ ?_⟩)
    cases h
    exact hx.2 e he
  | questions prepared =>
    refine Prog.All.bind ((all_askQuestions call context deadline hready.2 ∅).mono fun es x hx ↦
      ⟨fun answers _ e h ↦ (nomatch h), fun e he e' h ↦ ?_⟩)
    cases h
    exact hx e he

private theorem all_infer (payload : Dict Text Json) :
    Prog.All (fun es x ↦ ∀ e, x = .error e → isClientError e = true →
      ∀ event ∈ es, event.op ≠ .attempt) (infer call payload) := by
  refine Prog.All.bind (Prog.All.ofExcept ⟨?_, fun e _ _ _ _ event hevent ↦ (nomatch hevent)⟩)
  rintro ⟨model, context⟩ hpreamble now
  change Prog.All _ (Prog.ofExcept (plan payload) >>= _)
  refine Prog.All.bind (Prog.All.ofExcept ⟨fun p hplan ↦ ?_, fun e _ _ _ _ event hevent ↦ ?_⟩)
  · -- nothing that is carried out raises such an error
    have hready := (withinBudgets_of_plan hpreamble hplan).2.1
    refine (all_execute call model context _ hready).mono fun es x hx e he hclient ↦ ?_
    rw [hx e he] at hclient
    cases hclient
  · rw [List.mem_singleton.mp hevent]
    exact fun h ↦ (nomatch h)

private theorem guarded_infer (payload : Dict Text Json) :
    Prog.Guarded (fun _ o ↦ o = .attempt → WithinBudgets payload) [] (infer call payload) := by
  refine Prog.Guarded.bind (Prog.guarded_ofExcept _) (Prog.All.ofExcept ?_)
  rintro ⟨model, context⟩ hpreamble
  refine ⟨fun h ↦ (nomatch h), fun now ↦ ?_⟩
  change Prog.Guarded _ _ (Prog.ofExcept (plan payload) >>= _)
  refine Prog.Guarded.bind (Prog.guarded_ofExcept _) (Prog.All.ofExcept fun p hplan ↦ ?_)
  have hwithin := (withinBudgets_of_plan hpreamble hplan).1
  exact Prog.Guarded.of_forall _ _ fun _ _ _ ↦ hwithin

/-- For every payload: a run that ends in an error which is answered as an invalid request has
made no attempt, and a run that has made one was given a payload within the budgets. -/
theorem infer_checks_first (payload : Dict Text Json) :
    (∀ es e, Prog.Runs (infer call payload) es (.raise e) → isClientError e = true →
        ∀ event ∈ es, event.op ≠ .attempt) ∧
      ∀ es q, Prog.Runs (infer call payload) es q → (∃ event ∈ es, event.op = .attempt) →
        WithinBudgets payload := by
  constructor
  · intro es e hrun hclient
    exact (all_infer call payload).of_finishes ⟨_, hrun, rfl⟩ e rfl hclient
  · rintro es q hrun ⟨event, hevent, hattempt⟩
    obtain ⟨pre, post, -, hguard⟩ := (guarded_infer call payload).of_mem hrun hevent
    exact hguard hattempt

end Runs

section Sample

attribute [local instance] FloatText.fraction JsonLimits.unreached JsonBytes.utf8

/-- Two candidates for a state. -/
def pairPayload : Dict Text Json :=
  Dict.ofList [("state", .str (Text.ofString "s")),
    ("candidates", .arr [.str (Text.ofString "a"), .str (Text.ofString "b")])]

/-- A host whose server cannot be reached. -/
def unreachable : (o : RankOp) → o.Res
  | .monotonic => .fin 0
  | .attempt => ()
  | .transport _ => .error ⟨.osError, "Connection refused"⟩
  | .post _ _ => .error ⟨.osError, "Connection refused"⟩

/-- The attempt is made, so the payload is within the budgets; the error is not the client's. -/
theorem infer_checks_first_pair :
    let run := Prog.play unreachable (infer {} pairPayload)
    run.1.length = 4 ∧ (∃ e, run.2 = .error e ∧ isClientError e = false) ∧
      WithinBudgets pairPayload := by
  intro run
  have hlength : run.1.length = 4 := by decide +kernel
  have hattempt : (run.1.any fun event ↦ match event.op with
      | .attempt => true
      | _ => false) = true := by decide +kernel
  have herror : raisedKind run.2 = some .runtimeError := by decide +kernel
  obtain ⟨q, hrun, -⟩ := Prog.finishes_play unreachable (infer {} pairPayload)
  obtain ⟨event, hevent, hop⟩ := List.any_eq_true.mp hattempt
  refine ⟨hlength, ?_, (infer_checks_first {} pairPayload).2 _ _ hrun ⟨event, hevent, ?_⟩⟩
  · obtain ⟨e, hkind, he⟩ := exists_of_raisedKind herror
    refine ⟨e, he, ?_⟩
    rw [isClientError, hkind]
  · split at hop
    · next hop' => exact hop'
    · cases hop

end Sample

end SystemOneInference

end C3RSpec.SystemOne

import C3RSpec.Service.SlotPhase

/-!
# One release for each generation permit

The permit of a stream may be given back by the watcher and by the `finally` block of
`_send_stream`, whichever comes first; a failed opening and a response without a stream give it
back on their own. The flag `released` and the permits given back differ only while a thread
stands between the two lines of `release_capacity`, and there it holds the lock.
-/

namespace C3RSpec.Service.Slots

open Base

/-! ### The invariant -/

/-- In one of the locked sections. -/
def Phase.inside (p : Phase) : Bool := decide (p.place ≠ .out)

/-- A disconnect that is marked and not yet counted. -/
def Phase.marks (p : Phase) : Nat := if p.place = .marked then 1 else 0

/-- A permit that is flagged and not yet given back. -/
def Phase.owes (p : Phase) : Nat := if p.place = .flagged then 1 else 0

/-- A permit that was given back without the lock. -/
def Phase.paid (p : Phase) : Nat := if p.stage = .direct then 1 else 0

/-- No stream has begun. -/
def Stage.early : Stage → Bool
  | .idle | .holding | .direct => true
  | .streaming | .finished | .waiting | .watching => false

/-- The permits that the handler took. -/
def Stage.taken : Stage → Nat
  | .idle | .waiting | .watching => 0
  | .holding | .direct | .streaming | .finished => 1

/-- What a thread can tell of the shared state. -/
structure Knows (s : Shared) (p : Phase) : Prop where
  inside : p.inside = true → p.stage = .streaming ∨ p.stage = .watching
  unmarked : p.place = .unmarked → s.gone = false
  unreleased : p.place = .unreleased → s.released = false
  settled : p.place = .settled → s.returned = 1
  finished : p.stage = .finished → s.returned = 1
  early : p.stage.early = true → s.started = false ∧ s.released = false
  watching : p.stage = .watching → s.started = true

/-- What holds of the shared state and the phases of the two threads, in either order. -/
structure Inv (s : Shared) (a b : Phase) : Prop where
  roles : a.stage.serves ≠ b.stage.serves
  locked : s.locked = (a.inside || b.inside)
  apart : a.inside = true → b.inside = false
  acquired : s.acquired = a.stage.taken + b.stage.taken
  disconnects : s.disconnects + a.marks + b.marks = s.gone.toNat
  returned : s.returned + a.owes + b.owes = s.released.toNat + a.paid + b.paid
  left : Knows s a
  right : Knows s b

section Steps

variable {s s' : Shared} {a b : Phase}

private theorem Inv.symm (h : Inv s a b) : Inv s b a where
  roles := h.roles.symm
  locked := by rw [h.locked, Bool.or_comm]
  apart hb := by
    cases ha : a.inside with
    | false => rfl
    | true => rw [h.apart ha] at hb; cases hb
  acquired := by rw [h.acquired, Nat.add_comm]
  disconnects := by have := h.disconnects; omega
  returned := by have := h.returned; omega
  left := h.right
  right := h.left

private theorem inside_eq_false {p : Phase} : p.inside = false ↔ p.place = .out := by
  simp [Phase.inside]

private theorem inside_eq_true {p : Phase} : p.inside = true ↔ p.place ≠ .out := by
  simp [Phase.inside]

private theorem counts_out {p : Phase} (h : p.place = .out) : p.marks = 0 ∧ p.owes = 0 := by
  simp [Phase.marks, Phase.owes, h]

private theorem Knows.place_out {p : Phase} (h : Knows s p) (hs : p.stage ≠ .streaming)
    (hw : p.stage ≠ .watching) : p.place = .out := by
  rw [← inside_eq_false, ← Bool.not_eq_true]
  intro hin
  exact (h.inside hin).elim hs hw

/-- While one thread is inside, the other is out and no stream is still to begin. -/
private theorem Inv.inside_facts (h : Inv s a b) (hin : a.inside = true) :
    b.place = .out ∧ a.stage.early = false ∧ b.stage.early = false := by
  refine ⟨inside_eq_false.mp (h.apart hin), ?_, ?_⟩
  · obtain hstage | hstage := h.left.inside hin
    · rw [hstage]; rfl
    · rw [hstage]; rfl
  · rw [← Bool.not_eq_true]
    intro hearly
    obtain hstage | hstage := h.left.inside hin
    · apply h.roles
      rw [hstage]
      cases hb : b.stage with
      | idle | holding | direct | streaming | finished => rfl
      | waiting | watching =>
        rw [hb] at hearly
        cases hearly
    · have hstarted := (h.right.early hearly).1
      rw [h.left.watching hstage] at hstarted
      cases hstarted

private theorem paid_of_not_early {p : Phase} (h : p.stage.early = false) : p.paid = 0 := by
  rw [Phase.paid, if_neg]
  intro hd
  rw [hd] at h
  cases h

/-- The two counts, seen by the thread that is inside. -/
private theorem Inv.inside_counts (h : Inv s a b) (hin : a.inside = true) :
    s.disconnects + a.marks = s.gone.toNat ∧ s.returned + a.owes = s.released.toNat := by
  obtain ⟨hout, hea, heb⟩ := h.inside_facts hin
  obtain ⟨hmarks, howes⟩ := counts_out hout
  have hdis := h.disconnects
  have hret := h.returned
  rw [hmarks] at hdis
  rw [howes, paid_of_not_early hea, paid_of_not_early heb] at hret
  exact ⟨hdis, hret⟩

/-- A step inside the sections. -/
private theorem Inv.inside_step (h : Inv s a b) (hin : a.inside = true) {q : Place}
    (hq : q ≠ .out) (hlocked : s'.locked = s.locked) (hstarted : s'.started = s.started)
    (hacquired : s'.acquired = s.acquired) (hmono : s.returned ≤ s'.returned)
    (hdis : s'.disconnects + Phase.marks { a with place := q } = s'.gone.toNat)
    (hret : s'.returned + Phase.owes { a with place := q } = s'.released.toNat)
    (hunmarked : q = .unmarked → s'.gone = false)
    (hunreleased : q = .unreleased → s'.released = false)
    (hsettled : q = .settled → s'.returned = 1) : Inv s' { a with place := q } b := by
  obtain ⟨hout, hea, heb⟩ := h.inside_facts hin
  obtain ⟨hmarks, howes⟩ := counts_out hout
  have hin' : Phase.inside { a with place := q } = true := inside_eq_true.mpr hq
  refine ⟨h.roles, ?_, fun _ ↦ h.apart hin, hacquired.trans h.acquired, ?_, ?_, ?_, ?_⟩
  · rw [hlocked, h.locked, hin, hin']
  · rw [hmarks]
    exact hdis
  · rw [howes, paid_of_not_early heb, show Phase.paid { a with place := q } = 0 from
      paid_of_not_early hea]
    exact hret
  · refine ⟨fun _ ↦ h.left.inside hin, hunmarked, hunreleased, hsettled, fun hf ↦ ?_, fun he ↦ ?_,
      fun hw ↦ hstarted.trans (h.left.watching hw)⟩
    · obtain hstage | hstage := h.left.inside hin
      · rw [hstage] at hf; cases hf
      · rw [hstage] at hf; cases hf
    · rw [hea] at he
      cases he
  · refine ⟨fun hb ↦ ?_, fun hb ↦ ?_, fun hb ↦ ?_, fun hb ↦ ?_, fun hf ↦ ?_, fun he ↦ ?_,
      fun hw ↦ hstarted.trans (h.right.watching hw)⟩
    · exact absurd hout (inside_eq_true.mp hb)
    · rw [hout] at hb; cases hb
    · rw [hout] at hb; cases hb
    · rw [hout] at hb; cases hb
    · have hone := h.right.finished hf
      have hle := Bool.toNat_le s'.released
      omega
    · rw [heb] at he
      cases he

/-! ### Into and out of the sections -/

private theorem Inv.enter (h : Inv s a b) (hout : a.place = .out)
    (hc : a.stage.contends = true) (hfree : s.locked = false) :
    Inv { s with locked := true } { a with place := .entered, stage := a.stage.begun } b := by
  have hb : b.inside = false := by
    have hlocked := h.locked
    rw [hfree] at hlocked
    exact (Bool.or_eq_false_iff.mp hlocked.symm).2
  have hstage : a.stage = .holding ∨ a.stage = .streaming ∨ a.stage = .watching := by
    cases ha : a.stage with
    | holding => exact .inl rfl
    | streaming => exact .inr (.inl rfl)
    | watching => exact .inr (.inr rfl)
    | idle | direct | finished | waiting =>
      rw [ha] at hc
      cases hc
  have hbegun : (a.stage.begun = .streaming ∨ a.stage.begun = .watching) ∧
      a.stage.begun.serves = a.stage.serves ∧ a.stage.begun.taken = a.stage.taken ∧
      Phase.paid { a with place := .entered, stage := a.stage.begun } = a.paid ∧
      (a.stage.begun = .watching → a.stage = .watching) := by
    obtain ha | ha | ha := hstage
    · simp [ha, Stage.begun, Stage.serves, Stage.taken, Phase.paid]
    · simp [ha, Stage.begun, Phase.paid]
    · simp [ha, Stage.begun, Phase.paid]
  obtain ⟨hinside, hserves, htaken, hpaid, hwatching⟩ := hbegun
  obtain ⟨hmarks, howes⟩ := counts_out hout
  refine ⟨?_, rfl, fun _ ↦ hb, ?_, ?_, ?_, ?_, ?_⟩
  · rw [hserves]
    exact h.roles
  · rw [htaken]
    exact h.acquired
  · have hdis := h.disconnects
    rwa [hmarks] at hdis
  · have hret := h.returned
    rw [howes] at hret
    rw [hpaid]
    exact hret
  · refine ⟨fun _ ↦ hinside, fun hp ↦ (by cases hp), fun hp ↦ (by cases hp), fun hp ↦ (by cases hp),
      fun hf ↦ ?_, fun he ↦ ?_, fun hw ↦ h.left.watching (hwatching hw)⟩
    · obtain ha | ha := hinside
      · rw [ha] at hf; cases hf
      · rw [ha] at hf; cases hf
    · obtain ha | ha := hinside
      · rw [ha] at he; cases he
      · rw [ha] at he; cases he
  · exact ⟨h.right.inside, h.right.unmarked, h.right.unreleased, h.right.settled, h.right.finished,
      h.right.early, h.right.watching⟩

private theorem Inv.leave (h : Inv s a b) (hin : a.inside = true) (hm : a.marks = 0)
    (ho : a.owes = 0) {stage : Stage}
    (hstage : stage = a.stage ∨ (a.stage = .streaming ∧ stage = .finished ∧ s.returned = 1)) :
    Inv { s with locked := false } { a with place := .out, stage := stage } b := by
  obtain ⟨hout, hea, heb⟩ := h.inside_facts hin
  have hsame : stage.serves = a.stage.serves ∧ stage.taken = a.stage.taken ∧
      stage.early = false ∧ (stage = .watching → a.stage = .watching) ∧
      (stage = .finished → s.returned = 1) := by
    obtain rfl | ⟨ha, rfl, hone⟩ := hstage
    · exact ⟨rfl, rfl, hea, id, h.left.finished⟩
    · rw [ha]
      exact ⟨rfl, rfl, rfl, fun hw ↦ (by cases hw), fun _ ↦ hone⟩
  obtain ⟨hserves, htaken, hearly, hwatching, hfinished⟩ := hsame
  obtain ⟨hdis, hret⟩ := h.inside_counts hin
  obtain ⟨hmarks, howes⟩ := counts_out hout
  refine ⟨?_, ?_, fun hi ↦ (by cases hi), ?_, ?_, ?_, ?_, ?_⟩
  · rw [hserves]
    exact h.roles
  · rw [inside_eq_false.mpr hout]
    rfl
  · rw [htaken]
    exact h.acquired
  · rw [hmarks]
    rw [hm] at hdis
    exact hdis
  · rw [howes, paid_of_not_early heb, paid_of_not_early hearly]
    rw [ho] at hret
    exact hret
  · refine ⟨fun hi ↦ (by cases hi), fun hp ↦ (by cases hp), fun hp ↦ (by cases hp),
      fun hp ↦ (by cases hp), hfinished, fun he ↦ ?_, fun hw ↦ h.left.watching (hwatching hw)⟩
    rw [hearly] at he
    cases he
  · exact ⟨h.right.inside, h.right.unmarked, h.right.unreleased, h.right.settled, h.right.finished,
      h.right.early, h.right.watching⟩

/-! ### Outside the sections -/

/-- Before a stream the watcher has not moved. -/
private theorem Inv.early_facts (h : Inv s a b) (hea : a.stage.early = true) :
    b.stage = .waiting ∧ b.place = .out ∧ s.returned = a.paid := by
  have hserves : a.stage.serves = true := by
    cases hs : a.stage with
    | idle | holding | direct | streaming | finished => rfl
    | waiting | watching =>
      rw [hs] at hea
      cases hea
  have hb : b.stage = .waiting := by
    have hroles := h.roles
    rw [hserves] at hroles
    cases hs : b.stage with
    | waiting => rfl
    | watching =>
      have hstarted := h.right.watching hs
      rw [(h.left.early hea).1] at hstarted
      cases hstarted
    | idle | holding | direct | streaming | finished =>
      rw [hs] at hroles
      exact absurd rfl hroles
  have houta : a.place = .out := h.left.place_out (fun hs ↦ by rw [hs] at hea; cases hea)
    fun hs ↦ by rw [hs] at hea; cases hea
  have houtb : b.place = .out := h.right.place_out (fun hs ↦ by rw [hs] at hb; cases hb)
    fun hs ↦ by rw [hs] at hb; cases hb
  have hret := h.returned
  have hpaid : b.paid = 0 := paid_of_not_early (by rw [hb]; rfl)
  rw [(counts_out houta).2, (counts_out houtb).2, (h.left.early hea).2, hpaid] at hret
  refine ⟨hb, houtb, ?_⟩
  simpa using hret

/-- A step that changes the stage of a thread outside the sections. -/
private theorem Inv.restage (h : Inv s a b) (hout : a.place = .out) {stage : Stage}
    (hserves : stage.serves = a.stage.serves) (hlocked : s'.locked = s.locked)
    (hgone : s'.gone = s.gone) (hdis : s'.disconnects = s.disconnects)
    (hreleased : s'.released = s.released)
    (hacquired : s'.acquired + a.stage.taken = s.acquired + stage.taken)
    (hreturned : s'.returned + a.paid = s.returned + Phase.paid { a with stage := stage })
    (hfinished : stage ≠ .finished)
    (hearly : stage.early = true → s'.started = false ∧ s'.released = false)
    (hwatching : stage = .watching → s'.started = true) (hb : Knows s' b) :
    Inv s' { a with stage := stage } b := by
  obtain ⟨hmarks, howes⟩ := counts_out hout
  have hmarks' : Phase.marks { a with stage := stage } = 0 := hmarks
  have howes' : Phase.owes { a with stage := stage } = 0 := howes
  refine ⟨?_, ?_, ?_, ?_, ?_, ?_, ?_, hb⟩
  · rw [hserves]
    exact h.roles
  · rw [hlocked]
    exact h.locked
  · exact h.apart
  · have hac := h.acquired
    show s'.acquired = stage.taken + b.stage.taken
    omega
  · have hd := h.disconnects
    rw [hdis, hgone, hmarks']
    omega
  · have hr := h.returned
    rw [hreleased, howes']
    omega
  · refine ⟨fun hi ↦ absurd hout (inside_eq_true.mp hi), fun hp ↦ ?_, fun hp ↦ ?_, fun hp ↦ ?_,
      fun hf ↦ absurd hf hfinished, hearly, hwatching⟩
    · rw [hgone]
      exact h.left.unmarked hp
    · rw [hreleased]
      exact h.left.unreleased hp
    · have hplace : a.place = .settled := hp
      rw [hout] at hplace
      cases hplace

/-- Nothing holds the watcher to the state before it is started. -/
private theorem knows_waiting (hs : b.stage = .waiting) (hp : b.place = .out) : Knows s b where
  inside hi := absurd hp (inside_eq_true.mp hi)
  unmarked h := by rw [hp] at h; cases h
  unreleased h := by rw [hp] at h; cases h
  settled h := by rw [hp] at h; cases h
  finished h := by rw [hs] at h; cases h
  early h := by rw [hs] at h; cases h
  watching h := by rw [hs] at h; cases h

/-! ### Every step -/

private theorem Inv.calm (h : Inv s a b) {stopped disturbed : Bool} :
    Inv { s with stopped } { a with disturbed } b where
  roles := h.roles
  locked := h.locked
  apart := h.apart
  acquired := h.acquired
  disconnects := h.disconnects
  returned := h.returned
  left := ⟨h.left.inside, h.left.unmarked, h.left.unreleased, h.left.settled, h.left.finished,
    h.left.early, h.left.watching⟩
  right := ⟨h.right.inside, h.right.unmarked, h.right.unreleased, h.right.settled,
    h.right.finished, h.right.early, h.right.watching⟩

private theorem inside_of_place {p : Phase} {q : Place} (h : p.place = q) (hq : q ≠ .out) :
    p.inside = true := inside_eq_true.mpr (h ▸ hq)

private theorem Inv.isGone (h : Inv s a b) (ha : a.Allows .isGone) :
    Inv s (a.next ⟨.isGone, s.gone⟩) b := by
  obtain hp | hp := ha
  · simp only [Phase.next, hp, reduceCtorEq, ↓reduceIte]
    exact h
  · have hin : a.inside = true := inside_of_place hp fun hq ↦ by cases hq
    obtain ⟨hdis, hret⟩ := h.inside_counts hin
    simp only [Phase.marks, Phase.owes, hp, reduceCtorEq, ↓reduceIte] at hdis hret
    simp only [Phase.next, hp, ↓reduceIte]
    cases hg : s.gone with
    | true =>
      exact h.inside_step hin (fun hq ↦ by cases hq) rfl rfl rfl (le_refl _) hdis hret
        (fun hq ↦ by cases hq) (fun hq ↦ by cases hq) fun hq ↦ by cases hq
    | false =>
      exact h.inside_step hin (fun hq ↦ by cases hq) rfl rfl rfl (le_refl _) hdis hret
        (fun _ ↦ hg) (fun hq ↦ by cases hq) fun hq ↦ by cases hq

private theorem Inv.setGone (h : Inv s a b) (hp : a.place = .unmarked) :
    Inv { s with gone := true } { a with place := .marked } b := by
  have hin : a.inside = true := inside_of_place hp fun hq ↦ by cases hq
  obtain ⟨hdis, hret⟩ := h.inside_counts hin
  simp only [Phase.marks, Phase.owes, hp, reduceCtorEq, ↓reduceIte, h.left.unmarked hp] at hdis hret
  refine h.inside_step hin (fun hq ↦ by cases hq) rfl rfl rfl (le_refl _) ?_ hret
    (fun hq ↦ by cases hq) (fun hq ↦ by cases hq) fun hq ↦ by cases hq
  exact congrArg (· + 1) hdis

private theorem Inv.count (h : Inv s a b) (hp : a.place = .marked) :
    Inv { s with disconnects := s.disconnects + 1 } { a with place := .recorded } b := by
  have hin : a.inside = true := inside_of_place hp fun hq ↦ by cases hq
  obtain ⟨hdis, hret⟩ := h.inside_counts hin
  simp only [Phase.marks, Phase.owes, hp, reduceCtorEq, ↓reduceIte] at hdis hret
  exact h.inside_step hin (fun hq ↦ by cases hq) rfl rfl rfl (le_refl _) hdis hret
    (fun hq ↦ by cases hq) (fun hq ↦ by cases hq) fun hq ↦ by cases hq

private theorem Inv.isReleased (h : Inv s a b) (hp : a.place = .entered) :
    Inv s { a with place := if s.released then .settled else .unreleased } b := by
  have hin : a.inside = true := inside_of_place hp fun hq ↦ by cases hq
  obtain ⟨hdis, hret⟩ := h.inside_counts hin
  simp only [Phase.marks, Phase.owes, hp, reduceCtorEq, ↓reduceIte] at hdis hret
  cases hr : s.released with
  | true =>
    rw [hr] at hret
    refine h.inside_step hin (fun hq ↦ by cases hq) rfl rfl rfl (le_refl _) hdis ?_
      (fun hq ↦ by cases hq) (fun hq ↦ by cases hq) fun _ ↦ hret
    rw [hr]
    exact hret
  | false =>
    exact h.inside_step hin (fun hq ↦ by cases hq) rfl rfl rfl (le_refl _) hdis hret
      (fun hq ↦ by cases hq) (fun _ ↦ hr) fun hq ↦ by cases hq

private theorem Inv.setReleased (h : Inv s a b) (hp : a.place = .unreleased) :
    Inv { s with released := true } { a with place := .flagged } b := by
  have hin : a.inside = true := inside_of_place hp fun hq ↦ by cases hq
  obtain ⟨hdis, hret⟩ := h.inside_counts hin
  simp only [Phase.marks, Phase.owes, hp, reduceCtorEq, ↓reduceIte, h.left.unreleased hp]
    at hdis hret
  refine h.inside_step hin (fun hq ↦ by cases hq) rfl rfl rfl (le_refl _) hdis ?_
    (fun hq ↦ by cases hq) (fun hq ↦ by cases hq) fun hq ↦ by cases hq
  exact congrArg (· + 1) hret

private theorem Inv.release (h : Inv s a b) (hp : a.place = .flagged) :
    Inv { s with returned := s.returned + 1 } { a with place := .settled } b := by
  have hin : a.inside = true := inside_of_place hp fun hq ↦ by cases hq
  obtain ⟨hdis, hret⟩ := h.inside_counts hin
  simp only [Phase.marks, Phase.owes, hp, reduceCtorEq, ↓reduceIte] at hdis hret
  refine h.inside_step hin (fun hq ↦ by cases hq) rfl rfl rfl (Nat.le_succ _) hdis hret
    (fun hq ↦ by cases hq) (fun hq ↦ by cases hq) fun _ ↦ ?_
  have hle := Bool.toNat_le s.released
  show s.returned + 1 = 1
  omega

private theorem Inv.unlock (h : Inv s a b) (ha : a.Allows .unlock) :
    Inv { s with locked := false } (a.next ⟨.unlock, ()⟩) b := by
  obtain hp | hp := ha
  · have hin : a.inside = true := inside_of_place hp fun hq ↦ by cases hq
    refine h.leave hin ?_ ?_ (.inl ?_)
    all_goals simp [Phase.marks, Phase.owes, hp]
  · have hin : a.inside = true := inside_of_place hp fun hq ↦ by cases hq
    refine h.leave hin ?_ ?_ ?_
    · simp [Phase.marks, hp]
    · simp [Phase.owes, hp]
    · rw [if_pos hp]
      obtain hs | hs := h.left.inside hin
      · exact .inr ⟨hs, by rw [hs]; rfl, h.left.settled hp⟩
      · exact .inl (by rw [hs]; rfl)

private theorem Inv.direct (h : Inv s a b) (hp : a.place = .out) (hs : a.stage = .holding) :
    Inv { s with returned := s.returned + 1 } { a with stage := .direct } b := by
  have hea : a.stage.early = true := by rw [hs]; rfl
  obtain ⟨hb, hout, hret⟩ := h.early_facts hea
  refine h.restage hp ?_ rfl rfl rfl rfl ?_ ?_ (fun hf ↦ by cases hf) (fun _ ↦ h.left.early hea)
    (fun hw ↦ by cases hw) (knows_waiting hb hout)
  · rw [hs]; rfl
  · rw [hs]; rfl
  · simp [Phase.paid, hs]

private theorem Inv.acquire (h : Inv s a b) (hp : a.place = .out) (hs : a.stage = .idle) :
    Inv { s with acquired := s.acquired + 1 } { a with stage := .holding } b := by
  have hea : a.stage.early = true := by rw [hs]; rfl
  obtain ⟨hb, hout, hret⟩ := h.early_facts hea
  refine h.restage hp ?_ rfl rfl rfl rfl ?_ ?_ (fun hf ↦ by cases hf) (fun _ ↦ h.left.early hea)
    (fun hw ↦ by cases hw) (knows_waiting hb hout)
  · rw [hs]; rfl
  · rw [hs]; rfl
  · simp [Phase.paid, hs]

private theorem Inv.start (h : Inv s a b) (hp : a.place = .out) (hs : a.stage = .holding)
    {started : Bool} : Inv { s with started } { a with stage := .streaming } b := by
  have hea : a.stage.early = true := by rw [hs]; rfl
  obtain ⟨hb, hout, hret⟩ := h.early_facts hea
  refine h.restage hp ?_ rfl rfl rfl rfl ?_ ?_ (fun hf ↦ by cases hf) (fun he ↦ by cases he)
    (fun hw ↦ by cases hw) (knows_waiting hb hout)
  · rw [hs]; rfl
  · rw [hs]; rfl
  · simp [Phase.paid, hs]

private theorem Inv.begin (h : Inv s a b) (hp : a.place = .out) (hs : a.stage = .waiting)
    (hstarted : s.started = true) : Inv s { a with stage := .watching } b := by
  refine h.restage hp ?_ rfl rfl rfl rfl ?_ ?_ (fun hf ↦ by cases hf) (fun he ↦ by cases he)
    (fun _ ↦ hstarted) h.right
  · rw [hs]; rfl
  · rw [hs]; rfl
  · simp [Phase.paid, hs]

/-- Every operation of either thread keeps the invariant. -/
theorem Inv.step (h : Inv s a b) {o : ServiceOp} {i : Nat} {host : Host} {r : o.Res}
    (ha : a.Allows o) (hh : handle s i host o = some (r, s')) : Inv s' (a.next ⟨o, r⟩) b := by
  cases o with
  | lock =>
    simp only [handle] at hh
    split at hh
    · cases hh
    · next hl =>
      cases hh
      exact h.enter ha.1 ha.2 (Bool.not_eq_true _ ▸ hl)
  | unlock =>
    cases hh
    exact h.unlock ha
  | isGone =>
    cases hh
    exact h.isGone ha
  | setGone =>
    cases hh
    exact h.setGone ha
  | isReleased =>
    cases hh
    exact h.isReleased ha
  | setReleased =>
    cases hh
    exact h.setReleased ha
  | setStopped =>
    cases hh
    exact h.calm
  | increment name =>
    simp only [handle] at hh
    obtain ⟨hp, rfl⟩ | ⟨hp, hname⟩ := ha
    · rw [if_pos rfl] at hh
      cases hh
      simp only [Phase.next, hp, ↓reduceIte]
      exact h.count hp
    · rw [if_neg hname] at hh
      cases hh
      simp only [Phase.next, hp, reduceCtorEq, ↓reduceIte]
      exact h
  | releasePermit =>
    cases hh
    obtain hp | ⟨hp, hs⟩ := ha
    · simp only [Phase.next, hp, ↓reduceIte]
      exact h.release hp
    · rw [show a.next ⟨.releasePermit, ()⟩ = { a with stage := .direct } by simp [Phase.next, hp]]
      exact h.direct hp hs
  | acquirePermit =>
    simp only [handle] at hh
    split at hh
    · cases hh
      exact h.acquire ha.1 ha.2
    · cases hh
      exact h
  | startWatcher =>
    simp only [handle] at hh
    split at hh
    · cases hh
      exact h.start ha.1 ha.2
    · cases hh
      exact (h.start ha.1 ha.2).calm
  | begin =>
    simp only [handle] at hh
    split at hh
    · next hstarted =>
      cases hh
      exact h.begin ha.1 ha.2 hstarted
    · cases hh
  | closeEvents =>
    cases hh
    cases hr : host .closeEvents with
    | ok u => exact h
    | error e => exact h.calm
  | _ =>
    cases hh
    exact h

end Steps

/-! ### Runs -/

/-- A host on which everything works and nothing arrives. -/
def steadyHost : Host
  | .acquirePermit => true
  | .respond => .ok .null
  | .sendJson _ _ | .startOpening | .openEvents | .sendHead _ _ | .startWatcher | .write _ | .flush
  | .closeEvents | .abortEvents | .peek => .ok ()
  | .nextEvent => .ok none
  | .select => .ok false
  | .isCancelled | .isGone | .isReleased | .isStopped => false
  | .releasePermit | .increment _ | .finishOpening | .joinWatcher | .lock | .unlock | .setGone
  | .setReleased | .setStopped | .begin => ()

private theorem exists_handle (s : Shared) (i : Nat) {o : ServiceOp}
    (hlock : o = .lock → s.locked = false) (hbegin : o = .begin → s.started = true) :
    ∃ x, handle s i steadyHost o = some x := by
  cases o with
  | lock => exact ⟨_, if_neg (by rw [hlock rfl]; exact Bool.false_ne_true)⟩
  | begin => exact ⟨_, if_pos (hbegin rfl)⟩
  | increment name =>
    by_cases hname : name = "stream_disconnect"
    · exact ⟨_, if_pos hname⟩
    · exact ⟨_, if_neg hname⟩
  | _ => exact ⟨_, rfl⟩

section Runs

variable [FloatText] (counts : Invocations) (stream : Bool) (rounds watches : Nat)

/-- What holds of a request in progress. -/
structure Sound (s : RequestPool) : Prop where
  coherent : Pool.Coherent (threadCode counts stream rounds watches) s
  phases : ∃ a b, slots.phases Role.start s = [a, b] ∧ a.stage.serves = true ∧ Inv s.shared a b

variable {counts stream rounds watches} {s s' : RequestPool}

private theorem sound_fresh :
    Sound counts stream rounds watches (fresh (threadCode counts stream rounds watches)) := by
  have hspawned : runAll (Pool.step (threadCode counts stream rounds watches) handle)
      (.idle .initial) [.spawn .handler, .spawn .watcher] =
        some (fresh (threadCode counts stream rounds watches)) := rfl
  refine ⟨runAll_invariant (fun _ _ _ ↦ Pool.coherent_step _ _ _ _ _)
    (Pool.coherent_idle _ _) hspawned, _, _, rfl, rfl, ?_⟩
  have hknows : ∀ role : Role, Knows .initial role.start := by
    intro role
    refine ⟨?_, ?_, ?_, ?_, ?_, fun _ ↦ ⟨rfl, rfl⟩, ?_⟩ <;> cases role <;> intro h <;> cases h
  exact ⟨fun h ↦ (by cases h), rfl, fun h ↦ (by cases h), rfl, rfl, rfl, hknows .handler,
    hknows .watcher⟩

private theorem Sound.move {x : Nat × Host} (hs : Sound counts stream rounds watches s)
    (h : move (threadCode counts stream rounds watches) s x = some s') :
    Sound counts stream rounds watches s' := by
  obtain ⟨a, b, hphases, hserves, hinv⟩ := hs.phases
  refine ⟨Pool.coherent_step _ _ _ _ _ hs.coherent h, ?_⟩
  obtain ⟨label, ha, -⟩ | ⟨i, host, p, o, r, -, hp, hallows, hhandle, hphases', -⟩ :=
    Monitor.step_cases (obeys_slots counts stream rounds watches) (fun _ _ ↦ trivial) hs.coherent h
  · cases ha
  · rw [hphases] at hp hphases'
    match i with
    | 0 =>
      cases hp
      have hinv' := hinv.step hallows hhandle
      refine ⟨_, _, hphases', ?_, hinv'⟩
      have hb : b.stage.serves = false := by
        have := hinv.roles
        rw [hserves] at this
        exact Bool.eq_false_of_not_eq_true this.symm
      have hroles := hinv'.roles
      rw [hb] at hroles
      exact Bool.eq_true_of_not_eq_false hroles
    | 1 =>
      cases hp
      exact ⟨_, _, hphases', hserves, (hinv.symm.step hallows hhandle).symm⟩
    | n + 2 => cases hp

/-! ### Progress -/

private theorem Sound.threads (hs : Sound counts stream rounds watches s) :
    ∃ t u, s.threads = [t, u] ∧ (slots.phase Role.start t).stage.serves = true ∧
      Inv s.shared (slots.phase Role.start t) (slots.phase Role.start u) := by
  obtain ⟨a, b, hphases, hserves, hinv⟩ := hs.phases
  rw [Monitor.phases] at hphases
  obtain ⟨t, rest, hthreads, rfl, hrest⟩ := List.map_eq_cons_iff.mp hphases
  obtain ⟨u, rest', rfl, rfl, hrest'⟩ := List.map_eq_cons_iff.mp hrest
  rw [List.map_eq_nil_iff.mp hrest'] at hthreads
  exact ⟨t, u, hthreads, hserves, hinv⟩

omit [FloatText] in
/-- A thread whose next operation does not block moves. -/
private theorem exists_move {code : Role → Code} {i : Nat}
    {t : Thread ServiceOp ServiceOp.Res Role (Except PyError Unit × Watcher)} {o : ServiceOp}
    {k : o.Res → Code} (ht : s.threads[i]? = some t) (hr : t.rest = .call o k)
    (hlock : o = .lock → s.shared.locked = false) (hbegin : o = .begin → s.shared.started = true) :
    ∃ x s', Slots.move code s x = some s' := by
  obtain ⟨x, hx⟩ := exists_handle s.shared i hlock hbegin
  obtain ⟨s', hs'⟩ := Pool.exists_step code handle ht hr hx
  exact ⟨(i, steadyHost), s', hs'⟩

private theorem Sound.progress (hs : Sound counts stream rounds watches s)
    (hrunning : ¬HandlerDone s) :
    ∃ x s', Slots.move (threadCode counts stream rounds watches) s x = some s' := by
  obtain ⟨t, u, hthreads, hserves, hinv⟩ := hs.threads
  have ht : s.threads[0]? = some t := by rw [hthreads]; rfl
  have hu : s.threads[1]? = some u := by rw [hthreads]; rfl
  have hobeys := obeys_slots counts stream rounds watches
  have hobt := Monitor.obeys_rest hobeys (fun _ _ ↦ trivial) hs.coherent ht
  have hobu := Monitor.obeys_rest hobeys (fun _ _ ↦ trivial) hs.coherent hu
  cases hrt : t.rest with
  | ret a => exact absurd ⟨t, ht, by rw [hrt]; exact fun h ↦ by cases h⟩ hrunning
  | raise e => exact absurd ⟨t, ht, by rw [hrt]; exact fun h ↦ by cases h⟩ hrunning
  | call o k =>
    rw [hrt] at hobt
    by_cases hblocked : o = .lock ∧ s.shared.locked = true
    · obtain ⟨rfl, hlocked⟩ := hblocked
      -- the watcher is inside, and there it neither ends nor blocks
      have hout := hobt.1.1
      have hin : (slots.phase Role.start u).inside = true := by
        have := hinv.locked
        rw [hlocked, inside_eq_false.mpr hout] at this
        exact this.symm
      have hne := inside_eq_true.mp hin
      cases hru : u.rest with
      | ret a =>
        rw [hru] at hobu
        exact absurd hobu.1 hne
      | raise e =>
        rw [hru] at hobu
        exact absurd hobu.1 hne
      | call o' k' =>
        rw [hru] at hobu
        refine exists_move hu hru ?_ ?_
        · rintro rfl
          exact absurd hobu.1.1 hne
        · rintro rfl
          exact absurd hobu.1.1 hne
    · refine exists_move ht hrt ?_ ?_
      · intro ho
        exact Bool.eq_false_of_not_eq_true fun hl ↦ hblocked ⟨ho, hl⟩
      · rintro rfl
        have hstage := hobt.1.2
        rw [hstage] at hserves
        cases hserves

omit [FloatText] in
/-- A move leaves less of one program and all of the other. -/
private theorem move_threads {code : Role → Code} {x : Nat × Host}
    {t u : Thread ServiceOp ServiceOp.Res Role (Except PyError Unit × Watcher)}
    (hs : s.threads = [t, u]) (h : Slots.move code s x = some s') :
    (∃ t', s'.threads = [t', u] ∧ t'.rest.Below t.rest) ∨
      ∃ u', s'.threads = [t, u'] ∧ u'.rest.Below u.rest := by
  obtain ⟨label, ha, -⟩ | ⟨i, host, v, o, k, r, shared, -, hv, hr, -, rfl⟩ :=
    Pool.step_cases code handle h
  · cases ha
  · rw [hs] at hv
    match i with
    | 0 =>
      cases hv
      refine .inl ⟨_, by rw [hs]; rfl, ?_⟩
      rw [hr]
      exact .answer o k r
    | 1 =>
      cases hv
      refine .inr ⟨_, by rw [hs]; rfl, ?_⟩
      rw [hr]
      exact .answer o k r
    | n + 2 => cases hv

omit [FloatText] in
/-- Every run of two threads is finite. -/
private theorem acc_move {code : Role → Code} (p q : Code)
    {t u : Thread ServiceOp ServiceOp.Res Role (Except PyError Unit × Watcher)}
    (hs : s.threads = [t, u]) (hp : t.rest = p) (hq : u.rest = q) :
    Acc (fun s' s ↦ ∃ x, Slots.move code s x = some s') s := by
  induction p using Prog.below_wf.induction generalizing q s t u with
  | h p ihp =>
    induction q using Prog.below_wf.induction generalizing s t u with
    | h q ihq =>
      refine ⟨_, ?_⟩
      rintro s' ⟨x, hx⟩
      obtain ⟨t', hs', hbelow⟩ | ⟨u', hs', hbelow⟩ := move_threads hs hx
      · exact ihp t'.rest (hp ▸ hbelow) q hs' rfl hq
      · exact ihq u'.rest (hq ▸ hbelow) hs' hp rfl

/-! ### The permit -/

omit [FloatText] in
private theorem Inv.bounds {s : Shared} {a b : Phase} (h : Inv s a b)
    (hserves : a.stage.serves = true) :
    s.acquired = a.stage.taken ∧ s.returned ≤ s.acquired ∧ s.disconnects ≤ 1 := by
  have hb : b.stage.serves = false := by
    have := h.roles
    rw [hserves] at this
    exact Bool.eq_false_of_not_eq_true this.symm
  have htaken : b.stage.taken = 0 ∧ b.paid = 0 := by
    cases hs : b.stage with
    | waiting | watching => exact ⟨rfl, by simp [Phase.paid, hs]⟩
    | idle | holding | direct | streaming | finished =>
      rw [hs] at hb
      cases hb
  have hacquired : s.acquired = a.stage.taken := by
    have := h.acquired
    rwa [htaken.1] at this
  have hgone := Bool.toNat_le s.gone
  have hreleased := Bool.toNat_le s.released
  have hdis := h.disconnects
  refine ⟨hacquired, ?_, by omega⟩
  rw [hacquired]
  cases hs : a.stage with
  | waiting | watching =>
    rw [hs] at hserves
    cases hserves
  | idle | holding | direct =>
    obtain ⟨-, -, hret⟩ := h.early_facts (by rw [hs]; rfl)
    rw [hret]
    simp [Phase.paid, hs, Stage.taken]
  | streaming | finished =>
    have hret := h.returned
    rw [htaken.2, paid_of_not_early (by rw [hs]; rfl)] at hret
    show s.returned ≤ 1
    omega

omit [FloatText] in
private theorem Inv.accounted {s : Shared} {a b : Phase} (h : Inv s a b)
    (hserves : a.stage.serves = true) (ha : a.Accounted) (hcalm : a.disturbed = false) :
    s.returned = s.acquired := by
  have hstage : a.stage ≠ .holding ∧ a.stage ≠ .streaming := by
    obtain hd | hstage := ha.2
    · rw [hcalm] at hd
      cases hd
    · exact hstage
  rw [(h.bounds hserves).1]
  cases hs : a.stage with
  | waiting | watching =>
    rw [hs] at hserves
    cases hserves
  | holding => exact absurd hs hstage.1
  | streaming => exact absurd hs hstage.2
  | idle | direct =>
    obtain ⟨-, -, hret⟩ := h.early_facts (by rw [hs]; rfl)
    rw [hret]
    simp [Phase.paid, hs, Stage.taken]
  | finished => exact h.left.finished hs

omit [FloatText] in
private theorem disturbed_next (p : Phase) (e : Event ServiceOp ServiceOp.Res) :
    (p.next e).disturbed = (p.disturbed || disturbs e) := by
  obtain ⟨o, r⟩ := e
  cases o with
  | startWatcher | closeEvents =>
    cases r with
    | ok u => exact (Bool.or_false _).symm
    | error e => exact (Bool.or_true _).symm
  | isGone | increment | releasePermit | acquirePermit =>
    simp only [Phase.next, disturbs, Bool.or_false]
    split
    · rfl
    · rfl
  | _ => exact (Bool.or_false _).symm

omit [FloatText] in
private theorem disturbed_track (p : Phase) {events : List (Event ServiceOp ServiceOp.Res)}
    (hp : p.disturbed = false) (h : ∀ e ∈ events, disturbs e = false) :
    (slots.track p events).disturbed = false := by
  induction events generalizing p with
  | nil => exact hp
  | cons e events ih =>
    refine ih (p.next e) ?_ fun e' he' ↦ h e' (List.mem_cons_of_mem _ he')
    rw [disturbed_next, hp, h e List.mem_cons_self]
    rfl

/-- A permit is given back at most once, and a disconnect counted at most once, however the two
threads move. The handler comes to its end, and then, unless the watcher could not be started or
the events not be closed, the permit it was granted has been given back. -/
theorem permit_returned_once (counts : Invocations) (stream : Bool) (rounds watches : Nat)
    (schedule : Schedule) (s : RequestPool)
    (h : runAll (move (threadCode counts stream rounds watches))
      (fresh (threadCode counts stream rounds watches)) schedule = some s) :
    s.shared.acquired ≤ 1 ∧ s.shared.returned ≤ s.shared.acquired ∧ s.shared.disconnects ≤ 1 ∧
    (HandlerDone s → (∀ e ∈ s.history, disturbs e.2 = false) →
      s.shared.returned = s.shared.acquired) ∧
    Inevitable (move (threadCode counts stream rounds watches)) HandlerDone s := by
  have hs : Sound counts stream rounds watches s :=
    runAll_invariant (fun _ _ _ hs hstep ↦ Sound.move hs hstep) sound_fresh h
  obtain ⟨t, u, hthreads, hserves, hinv⟩ := hs.threads
  obtain ⟨hacquired, hreturned, hdisconnects⟩ := hinv.bounds hserves
  refine ⟨?_, hreturned, hdisconnects, ?_, ?_⟩
  · rw [hacquired]
    cases (slots.phase Role.start t).stage <;> decide
  · rintro ⟨t', ht', hdone⟩ hcalm
    have ht : s.threads[0]? = some t := by rw [hthreads]; rfl
    rw [ht] at ht'
    cases ht'
    have hobeys := Monitor.obeys_rest (obeys_slots counts stream rounds watches)
      (fun _ _ ↦ trivial) hs.coherent ht
    refine hinv.accounted hserves ?_ ?_
    · cases hr : t.rest with
      | ret a =>
        rw [hr] at hobeys
        exact hobeys
      | raise e =>
        rw [hr] at hobeys
        exact hobeys
      | call o k =>
        rw [hr] at hdone
        exact absurd rfl hdone
    · refine disturbed_track _ ?_ fun e he ↦ ?_
      · cases t.label <;> rfl
      · rw [hs.coherent.logs 0 t ht] at he
        exact hcalm _ (Pool.mem_project.mp he)
  · exact inevitable_of_acc (fun _ _ _ hs hstep ↦ Sound.move hs hstep)
      (fun _ hs hrunning ↦ hs.progress hrunning) (acc_move _ _ hthreads rfl rfl) hs

end Runs

/-- A client that is gone. -/
def hungUpHost : Host
  | .select => .ok true
  | .nextEvent => .error ⟨.osError, "Connection reset by peer"⟩
  | o => steadyHost o

/-- The threads of a stream. -/
def streamCode : Role → Code := @threadCode FloatText.fraction ⟨0, 0⟩ true 1 1

/-- Both threads find the client gone: the handler counts while the watcher aborts, and closes
while the watcher gives the permit back. -/
def hungUpRace : Schedule :=
  [0, 0, 0, 0, 0, 0, 0, 0, 1, 1, 1, 1, 1, 0, 1, 1, 1, 1, 1, 0, 0, 0, 0, 0, 0, 1, 1, 1, 1, 1, 0, 0,
    0].map fun i ↦ (i, hungUpHost)

/-- The permit of the race is given back once. -/
theorem permit_returned_once_hungUp : ∃ s, runAll (move streamCode) (fresh streamCode) hungUpRace =
    some s ∧ s.shared.acquired = 1 ∧ s.shared.returned = 1 ∧ s.shared.disconnects ≤ 1 := by
  let end? := runAll (move streamCode) (fresh streamCode) hungUpRace
  have hrun : end? = some (end?.get rfl) := rfl
  have hdone : HandlerDone (end?.get rfl) := ⟨_, rfl, fun h ↦ by cases h⟩
  have hcalm : (end?.get rfl).history.all (fun e ↦ !disturbs e.2) = true := rfl
  have hacquired : (end?.get rfl).shared.acquired = 1 := rfl
  let _ := FloatText.fraction
  obtain ⟨-, -, hdisconnects, hreturned, -⟩ :=
    permit_returned_once ⟨0, 0⟩ true 1 1 hungUpRace (end?.get rfl) hrun
  refine ⟨_, hrun, hacquired, ?_, hdisconnects⟩
  rw [← hacquired]
  refine hreturned hdone fun e he ↦ ?_
  simpa using List.all_eq_true.mp hcalm e he

end C3RSpec.Service.Slots

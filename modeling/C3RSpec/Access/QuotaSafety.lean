import C3RSpec.Access.Admit
import C3RSpec.Access.RowPhase
import C3RSpec.Base.Monitor
import Mathlib.Data.List.Induction

/-!
# Quota safety across replicas

Interleavings of admission statements (`c3r/pg_access.py:263–287`) against the row model. A
monitor reads off the phase of each call with respect to one row; the server's answer to each
statement is a transition of that row. `SELECT … FOR UPDATE` locks nothing when the row does
not exist yet, so two first requests of a window can both pass: the limits hold in every run in
which no two overlapping calls find the same row missing.
-/

namespace C3RSpec.Access

open Base

/-- The limit that governs a row. -/
def limitOf (projects : Dict (Text × Text) ProjectLimits) (row : QuotaRow) : Nat :=
  match projects.get? (row.tenant, row.project) with
  | none => 0
  | some limits =>
    match row.kind with
    | .key => limits.keyRps
    | .project => limits.rpm

/-- How an event moves a call with respect to a row. -/
def nextPhase (row : QuotaRow) (limit : Nat) (phase : RowPhase) :
    Event AdmitOp AdmitOp.Res → RowPhase
  | ⟨.selectForUpdate r, .ok seen⟩ =>
    match phase with
    | .outside => if r = row then if seen.getD 0 < limit then .passed seen else .full else phase
    | _ => phase
  | ⟨.upsert r, .ok ()⟩ =>
    match phase with
    | .passed seen => if r = row then .wrote seen else phase
    | _ => phase
  | ⟨.commit, .ok ()⟩ => .closed phase.isWrote
  | ⟨.commit, .error _⟩ => .closed false
  | ⟨.discard, ()⟩ => if phase.isClosed then phase else .closed false
  | _ => phase

attribute [grind] nextPhase

/-- The call counts against the row. -/
def Principal.uses (p : Principal) (now : Int) (row : QuotaRow) : Prop :=
  keyRow p now = row ∨ projectRow p now = row

/-- What an admission of `p` does with a row. -/
def rowMonitor (projects : Dict (Text × Text) ProjectLimits) (now : Int) (row : QuotaRow)
    (p : Principal) : Monitor AdmitOp AdmitOp.Res Bool RowPhase where
  next := nextPhase row (limitOf projects row)
  allows phase
    | .selectForUpdate r => r = row → phase = .outside ∧ 0 < limitOf projects row
    | .upsert r => r = row → ∃ seen, phase = .passed seen
    | .deleteBefore windowStart => ¬ row.windowStart < windowStart
    | .commit => phase.isClosed = false
    | .selectLimits _ _ | .discard => True
  possible
    | .selectLimits tenant project, .ok limits => limits = projects.get? (tenant, project)
    | _, _ => True
  accepts phase result := result = .ok true → p.uses now row → phase = .closed true

section Obeys

variable {projects : Dict (Text × Text) ProjectLimits} {now : Int} {row : QuotaRow}
  {p : Principal}

private theorem obeys_discard (phase : RowPhase) (e : PyError) :
    (rowMonitor projects now row p).Obeys phase (.call .discard fun _ ↦ .raise e) :=
  ⟨trivial, fun _ _ h ↦ by cases h⟩

private theorem obeys_return {phase : RowPhase} {b : Bool} (hc : phase.isClosed = false)
    (hw : b = true → p.uses now row → phase.isWrote = true) :
    (rowMonitor projects now row p).Obeys phase (withCursor (.ret b)) := by
  refine ⟨hc, fun answer _ ↦ ?_⟩
  cases answer with
  | error e => exact obeys_discard _ e
  | ok u =>
    intro hb hu
    have hb : b = true := Except.ok.inj hb
    exact congrArg RowPhase.closed (hw hb hu)

private theorem obeys_select {phase : RowPhase} {q : QuotaRequest} {rest : List QuotaRequest}
    {k : Bool → AdmitProg Bool}
    (hallow : q.row = row → phase = .outside ∧ 0 < limitOf projects row)
    (hfull : ∀ count, q.limit ≤ count → (rowMonitor projects now row p).Obeys
      (nextPhase row (limitOf projects row) phase ⟨.selectForUpdate q.row, .ok (some count)⟩)
      (withCursor (k false)))
    (hpass : ∀ seen, (∀ count, seen = some count → count < q.limit) →
      (rowMonitor projects now row p).Obeys
        (nextPhase row (limitOf projects row) phase ⟨.selectForUpdate q.row, .ok seen⟩)
        (withCursor (checkAll rest >>= k))) :
    (rowMonitor projects now row p).Obeys phase (withCursor (checkAll (q :: rest) >>= k)) := by
  refine ⟨hallow, fun answer _ ↦ ?_⟩
  cases answer with
  | error e => exact obeys_discard _ e
  | ok seen =>
    cases seen with
    | none => exact hpass none (by simp)
    | some count =>
      change Monitor.Obeys _ _ (withCursor ((if q.limit ≤ count then .ret false
        else checkAll rest) >>= k))
      by_cases hle : q.limit ≤ count
      · rw [if_pos hle]
        exact hfull count hle
      · rw [if_neg hle]
        refine hpass (some count) fun c hc ↦ ?_
        cases hc
        omega

private theorem obeys_upsert {phase : RowPhase} {q : QuotaRequest} {rest : List QuotaRequest}
    {k : Unit → AdmitProg Bool} (hallow : q.row = row → ∃ seen, phase = .passed seen)
    (h : (rowMonitor projects now row p).Obeys
      (nextPhase row (limitOf projects row) phase ⟨.upsert q.row, .ok ()⟩)
      (withCursor (recordAll rest >>= k))) :
    (rowMonitor projects now row p).Obeys phase (withCursor (recordAll (q :: rest) >>= k)) := by
  refine ⟨hallow, fun answer _ ↦ ?_⟩
  cases answer with
  | error e => exact obeys_discard _ e
  | ok u => exact h

private theorem obeys_delete {phase : RowPhase} (hwin : now - 120 ≤ row.windowStart)
    (hc : phase.isClosed = false) (hw : p.uses now row → phase.isWrote = true) :
    (rowMonitor projects now row p).Obeys phase
      (withCursor (deleteBefore (now - 120) >>= fun _ ↦ .ret true)) := by
  refine ⟨not_lt.mpr hwin, fun answer _ ↦ ?_⟩
  cases answer with
  | error e => exact obeys_discard _ e
  | ok u => exact obeys_return hc fun _ ↦ hw

private theorem nextPhase_select_of_ne {r : QuotaRow} (h : r ≠ row) (limit : Nat)
    (phase : RowPhase) (seen : Option Nat) :
    nextPhase row limit phase ⟨.selectForUpdate r, .ok seen⟩ = phase := by
  cases phase <;> simp [nextPhase, h]

private theorem nextPhase_upsert_of_ne {r : QuotaRow} (h : r ≠ row) (limit : Nat)
    (phase : RowPhase) : nextPhase row limit phase ⟨.upsert r, .ok ()⟩ = phase := by
  cases phase <;> simp [nextPhase, h]

private theorem nextPhase_select_self (limit : Nat) {seen : Option Nat}
    (h : seen.getD 0 < limit) :
    nextPhase row limit .outside ⟨.selectForUpdate row, .ok seen⟩ = .passed seen := by
  simp [nextPhase, h]

/-- The second half of an admission, after both checks: it writes both rows. -/
private theorem obeys_record (limits : ProjectLimits) (hwin : now - 120 ≤ row.windowStart)
    {phase : RowPhase} (hc : phase.isClosed = false)
    (hp : p.uses now row → ∃ seen, phase = .passed seen) :
    (rowMonitor projects now row p).Obeys phase
      (withCursor (recordAll (requests p now limits) >>= fun _ ↦
        deleteBefore (now - 120) >>= fun _ ↦ .ret true)) := by
  by_cases hk : keyRow p now = row
  · obtain ⟨seen, rfl⟩ := hp (.inl hk)
    have hj : projectRow p now ≠ row := by
      rw [← hk]
      simp [projectRow, keyRow]
    have hnext : nextPhase row (limitOf projects row) (.passed seen)
        ⟨.upsert (keyRow p now), .ok ()⟩ = .wrote seen := by simp [nextPhase, hk]
    refine obeys_upsert (fun _ ↦ ⟨seen, rfl⟩) ?_
    rw [hnext]
    refine obeys_upsert (fun h ↦ absurd h hj) ?_
    rw [nextPhase_upsert_of_ne hj]
    exact obeys_delete hwin rfl fun _ ↦ rfl
  · refine obeys_upsert (fun h ↦ absurd h hk) ?_
    rw [nextPhase_upsert_of_ne hk]
    by_cases hj : projectRow p now = row
    · obtain ⟨seen, rfl⟩ := hp (.inr hj)
      have hnext : nextPhase row (limitOf projects row) (.passed seen)
          ⟨.upsert (projectRow p now), .ok ()⟩ = .wrote seen := by simp [nextPhase, hj]
      refine obeys_upsert (fun _ ↦ ⟨seen, rfl⟩) ?_
      rw [hnext]
      exact obeys_delete hwin rfl fun _ ↦ rfl
    · refine obeys_upsert (fun h ↦ absurd h hj) ?_
      rw [nextPhase_upsert_of_ne hj]
      exact obeys_delete hwin hc fun hu ↦ absurd hu (by simp [Principal.uses, hk, hj])

private theorem getD_lt {seen : Option Nat} {limit : Nat} (hpos : 1 ≤ limit)
    (h : ∀ count, seen = some count → count < limit) : seen.getD 0 < limit := by
  cases seen with
  | none => exact hpos
  | some count => exact h count rfl

private theorem isClosed_select (limit : Nat) {phase : RowPhase} (hc : phase.isClosed = false)
    (r : QuotaRow) (seen : Option Nat) :
    (nextPhase row limit phase ⟨.selectForUpdate r, .ok seen⟩).isClosed = false := by
  cases phase with
  | outside =>
    change (if r = row then if seen.getD 0 < limit then RowPhase.passed seen else .full
      else .outside).isClosed = false
    split
    · split <;> rfl
    · rfl
  | passed seen' => rfl
  | wrote seen' => rfl
  | full => rfl
  | closed admitted => exact hc

/-- An admission reads each of its rows once, writes it only after passing, and returns `True`
only after committing what it wrote. -/
theorem obeys_admitPrincipal (hwin : now - 120 ≤ row.windowStart) :
    (rowMonitor projects now row p).Obeys .outside (admitPrincipal now p) := by
  refine ⟨trivial, fun answer hanswer ↦ ?_⟩
  cases answer with
  | error e => exact obeys_discard _ e
  | ok limits =>
    cases limits with
    | none => exact obeys_return rfl (by simp)
    | some limits =>
      have hproject : projects.get? (p.tenantId, p.projectId) = some limits := hanswer.symm
      change (rowMonitor projects now row p).Obeys .outside _
      by_cases hk : keyRow p now = row
      · have hlimit : limitOf projects row = limits.keyRps := by
          subst hk
          simp [limitOf, keyRow, hproject]
        have hj : projectRow p now ≠ row := by
          rw [← hk]
          simp [projectRow, keyRow]
        refine obeys_select (fun _ ↦ ⟨rfl, hlimit ▸ limits.keyRps_pos⟩)
          (fun count _ ↦ obeys_return (isClosed_select _ rfl _ _) (by simp)) fun seen hseen ↦ ?_
        rw [hk, nextPhase_select_self _ (hlimit ▸ getD_lt limits.keyRps_pos hseen)]
        refine obeys_select (fun h ↦ absurd h hj)
          (fun count _ ↦ obeys_return (isClosed_select _ rfl _ _) (by simp)) fun seen' _ ↦ ?_
        rw [nextPhase_select_of_ne hj]
        exact obeys_record limits hwin rfl fun _ ↦ ⟨seen, rfl⟩
      · refine obeys_select (fun h ↦ absurd h hk)
          (fun count _ ↦ obeys_return (isClosed_select _ rfl _ _) (by simp)) fun seen _ ↦ ?_
        rw [nextPhase_select_of_ne hk]
        by_cases hj : projectRow p now = row
        · have hlimit : limitOf projects row = limits.rpm := by
            subst hj
            simp [limitOf, projectRow, hproject]
          refine obeys_select (fun _ ↦ ⟨rfl, hlimit ▸ limits.rpm_pos⟩)
            (fun count _ ↦ obeys_return (isClosed_select _ rfl _ _) (by simp)) fun seen hseen ↦ ?_
          rw [hj, nextPhase_select_self _ (hlimit ▸ getD_lt limits.rpm_pos hseen)]
          exact obeys_record limits hwin rfl fun _ ↦ ⟨seen, rfl⟩
        · refine obeys_select (fun h ↦ absurd h hj)
            (fun count _ ↦ obeys_return (isClosed_select _ rfl _ _) (by simp)) fun seen _ ↦ ?_
          rw [nextPhase_select_of_ne hj]
          exact obeys_record limits hwin rfl fun hu ↦
            absurd hu (by simp [Principal.uses, hk, hj])

end Obeys

/-! ### Statements as transitions of a row -/

section Transition

variable {projects : Dict (Text × Text) ProjectLimits} {now : Int} {row : QuotaRow}
  {p : Principal} {db db' : QuotaDb} {phases : List RowPhase} {phase : RowPhase}
  {i initial : Nat} {fault : Fault}

private theorem set_same (hi : phases[i]? = some phase) : phases.set i phase = phases := by
  apply List.ext_getElem?
  intro j
  rw [List.getElem?_set]
  split
  · next hij =>
    subst hij
    rw [if_pos (List.getElem?_eq_some_iff.mp hi).1, hi]
  · rfl

private theorem transition_same
    (h : RowInv (limitOf projects row) initial (db.quota.row row) phases)
    (hi : phases[i]? = some phase) (hrow : db'.quota.row row = db.quota.row row)
    {new : RowPhase} (hnew : new = phase) :
    RowInv (limitOf projects row) initial (db'.quota.row row) (phases.set i new) := by
  rw [hrow, hnew, set_same hi]
  exact h

private theorem transition_select
    (h : RowInv (limitOf projects row) initial (db.quota.row row) phases)
    (hi : phases[i]? = some phase) {r : QuotaRow}
    (hallow : r = row → phase = .outside ∧ 0 < limitOf projects row) {seen : Option Nat}
    {quota : RowStore QuotaRow Nat} (hx : db.quota.lockRead i r = some (seen, quota))
    (hfirst : r = row → (db.quota.row row).committed = none → ∀ (j : Nat) q, j ≠ i →
      phases[j]? = some q → q ≠ .passed none ∧ q ≠ .wrote none) :
    RowInv (limitOf projects row) initial (quota.row row)
      (phases.set i (nextPhase row (limitOf projects row) phase
        ⟨.selectForUpdate r, .ok seen⟩)) := by
  obtain ⟨hseen, hcases⟩ := RowStore.lockRead_eq_some hx
  by_cases hr : r = row
  · subst hr
    obtain ⟨rfl, hlimit⟩ := hallow rfl
    have hvisible : (db.quota.row r).visible i = (db.quota.row r).committed :=
      if_neg (h.not_holder_of_outside hi)
    rw [hvisible] at hseen
    obtain ⟨rfl, rfl⟩ | ⟨hsome, hfree, hrow⟩ := hcases
    · rw [nextPhase_select_self _ hlimit]
      exact h.read_missing hi hlimit hseen.symm (hfirst rfl hseen.symm)
    · obtain ⟨v, rfl⟩ := Option.isSome_iff_exists.mp hsome
      have hread := h.read_present hi hseen.symm hfree
      rw [hrow, if_pos rfl]
      simpa [nextPhase] using hread
  · have hrow : quota.row row = db.quota.row row := by
      obtain ⟨-, rfl⟩ | ⟨-, -, hrow⟩ := hcases
      · rfl
      · rw [hrow, if_neg hr]
    rw [nextPhase_select_of_ne hr, hrow, set_same hi]
    exact h

private theorem transition_upsert
    (h : RowInv (limitOf projects row) initial (db.quota.row row) phases)
    (hi : phases[i]? = some phase) {r : QuotaRow}
    (hallow : r = row → ∃ seen, phase = .passed seen) {quota : RowStore QuotaRow Nat}
    (hx : db.quota.upsert i r (fun count ↦ count.getD 0 + 1) = some quota) :
    RowInv (limitOf projects row) initial (quota.row row)
      (phases.set i (nextPhase row (limitOf projects row) phase ⟨.upsert r, .ok ()⟩)) := by
  obtain ⟨-, hrow⟩ := RowStore.upsert_eq_some hx
  by_cases hr : r = row
  · subst hr
    obtain ⟨seen, rfl⟩ := hallow rfl
    obtain ⟨hvisible, hwrite⟩ := h.write hi
    rw [hrow, if_pos rfl, hvisible]
    simpa [nextPhase] using hwrite
  · rw [nextPhase_upsert_of_ne hr, hrow, if_neg hr, set_same hi]
    exact h

private theorem transition_discard
    (h : RowInv (limitOf projects row) initial (db.quota.row row) phases)
    (hi : phases[i]? = some phase) :
    RowInv (limitOf projects row) initial ((db.quota.rollback i).row row)
      (phases.set i (nextPhase row (limitOf projects row) phase ⟨.discard, ()⟩)) := by
  rw [RowStore.row_rollback]
  cases hc : phase.isClosed with
  | false =>
    have hnext : nextPhase row (limitOf projects row) phase ⟨.discard, ()⟩ = .closed false := by
      simp [nextPhase, hc]
    rw [hnext]
    exact h.close_rollback hi hc
  | true =>
    have hnext : nextPhase row (limitOf projects row) phase ⟨.discard, ()⟩ = phase := by
      simp [nextPhase, hc]
    obtain ⟨admitted, rfl⟩ : ∃ admitted, phase = .closed admitted := by
      cases phase with
      | closed admitted => exact ⟨admitted, rfl⟩
      | outside => cases hc
      | passed seen => cases hc
      | wrote seen => cases hc
      | full => cases hc
    rw [hnext, set_same hi, h.rollback_of_closed hi]
    exact h

/-- What the server does for one statement is a transition of every live row. -/
theorem transition (h : RowInv (limitOf projects row) initial (db.quota.row row) phases)
    (hi : phases[i]? = some phase) {o : AdmitOp} {answer : o.Res}
    (hallow : (rowMonitor projects now row p).allows phase o)
    (hx : execute db i fault o = some (answer, db'))
    (hfirst : o = .selectForUpdate row → (db.quota.row row).committed = none →
      ∀ (j : Nat) q, j ≠ i → phases[j]? = some q → q ≠ .passed none ∧ q ≠ .wrote none) :
    RowInv (limitOf projects row) initial (db'.quota.row row)
      (phases.set i (nextPhase row (limitOf projects row) phase ⟨o, answer⟩)) := by
  cases o with
  | selectLimits tenant project =>
    cases fault with
    | none =>
      cases hx
      exact transition_same h hi rfl rfl
    | error e applied =>
      cases hx
      exact transition_same h hi rfl rfl
  | selectForUpdate r =>
    cases fault with
    | none =>
      obtain ⟨⟨seen, quota⟩, hread, hpair⟩ := Option.map_eq_some_iff.mp hx
      cases hpair
      exact transition_select h hi hallow hread fun hr ↦ hfirst (by rw [hr])
    | error e applied =>
      cases hx
      exact transition_same h hi rfl rfl
  | upsert r =>
    cases fault with
    | none =>
      obtain ⟨quota, hwrite, hpair⟩ := Option.map_eq_some_iff.mp hx
      cases hpair
      exact transition_upsert h hi hallow hwrite
    | error e applied =>
      cases hx
      exact transition_same h hi rfl rfl
  | deleteBefore windowStart =>
    cases fault with
    | none =>
      obtain ⟨quota, hdelete, hpair⟩ := Option.map_eq_some_iff.mp hx
      cases hpair
      exact transition_same h hi
        (RowStore.row_deleteWhere hdelete (decide_eq_false hallow)) rfl
    | error e applied =>
      cases hx
      exact transition_same h hi rfl rfl
  | commit =>
    cases fault with
    | none =>
      cases hx
      rw [RowStore.row_commit]
      exact h.close_commit hi hallow id
    | error e applied =>
      cases hx
      cases applied with
      | true =>
        change RowInv _ _ ((db.quota.commit i).row row) _
        rw [RowStore.row_commit]
        exact h.close_commit hi hallow (by simp)
      | false =>
        change RowInv _ _ ((db.quota.rollback i).row row) _
        rw [RowStore.row_rollback]
        exact h.close_rollback hi hallow
  | discard =>
    cases hx
    exact transition_discard h hi

/-- No statement changes the limits. -/
theorem projects_execute {o : AdmitOp} {answer : o.Res}
    (hx : execute db i fault o = some (answer, db')) : db'.projects = db.projects := by
  cases o with
  | selectLimits tenant project => cases fault <;> cases hx <;> rfl
  | selectForUpdate r =>
    cases fault with
    | none =>
      obtain ⟨_, -, hpair⟩ := Option.map_eq_some_iff.mp hx
      cases hpair
      rfl
    | error e applied =>
      cases hx
      rfl
  | upsert r =>
    cases fault with
    | none =>
      obtain ⟨_, -, hpair⟩ := Option.map_eq_some_iff.mp hx
      cases hpair
      rfl
    | error e applied =>
      cases hx
      rfl
  | deleteBefore windowStart =>
    cases fault with
    | none =>
      obtain ⟨_, -, hpair⟩ := Option.map_eq_some_iff.mp hx
      cases hpair
      rfl
    | error e applied =>
      cases hx
      rfl
  | commit => cases fault <;> cases hx <;> rfl
  | discard =>
    cases hx
    rfl

end Transition

/-! ### Runs -/

/-- An admission call in the middle of its work. -/
abbrev AdmitThread := Thread AdmitOp AdmitOp.Res Principal Bool

/-- The call's locking read of the row returned nothing. -/
def FoundMissing (t : AdmitThread) (row : QuotaRow) : Prop :=
  (⟨.selectForUpdate row, .ok none⟩ : Event AdmitOp AdmitOp.Res) ∈ t.log

/-- The call's transaction has neither been committed nor given up. -/
def InFlight (t : AdmitThread) : Prop := ∀ e ∈ t.log, e.op ≠ .commit ∧ e.op ≠ .discard

/-- The row that the call is about to lock. -/
def nextRow (t : AdmitThread) : Option QuotaRow :=
  match t.rest with
  | .call (.selectForUpdate row) _ => some row
  | _ => none

private theorem nextRow_eq_some {t : AdmitThread} {row : QuotaRow} :
    nextRow t = some row ↔ ∃ k, t.rest = .call (.selectForUpdate row) k := by
  unfold nextRow
  split
  · next row' k hrest =>
    rw [hrest]
    constructor
    · rintro h
      cases h
      exact ⟨k, rfl⟩
    · rintro ⟨_, h⟩
      cases h
      rfl
  · next hrest =>
    refine iff_of_false (fun h ↦ by cases h) ?_
    rintro ⟨k, h⟩
    exact hrest row k h

/-- The side condition of a step: a locking read that will find its row missing runs only while
no other call in flight has found that row missing. -/
def FirstAlone (s : AdmitPool) : PoolAction Principal Fault → Prop
  | .spawn _ => True
  | .advance i _ => ∀ t row k, s.threads[i]? = some t →
      t.rest = .call (.selectForUpdate row) k → (s.shared.quota.row row).committed = none →
      ∀ (j : Nat) u, j ≠ i → s.threads[j]? = some u → ¬ (FoundMissing u row ∧ InFlight u)

/-- The event is a locking read of the row that returned nothing. -/
def isMissing (row : QuotaRow) : Event AdmitOp AdmitOp.Res → Bool
  | ⟨.selectForUpdate row', .ok none⟩ => decide (row' = row)
  | _ => false

private theorem eq_of_isMissing {row : QuotaRow} {e : Event AdmitOp AdmitOp.Res}
    (h : isMissing row e = true) : e = ⟨.selectForUpdate row, .ok none⟩ := by
  unfold isMissing at h
  split at h
  · rw [of_decide_eq_true h]
  · cases h

instance (t : AdmitThread) (row : QuotaRow) : Decidable (FoundMissing t row) :=
  decidable_of_iff (t.log.any (isMissing row) = true) (by
    rw [List.any_eq_true]
    constructor
    · rintro ⟨e, he, hmissing⟩
      rw [eq_of_isMissing hmissing] at he
      exact he
    · exact fun h ↦ ⟨_, h, decide_eq_true rfl⟩)

instance (t : AdmitThread) : Decidable (InFlight t) :=
  inferInstanceAs (Decidable (∀ e ∈ t.log, e.op ≠ .commit ∧ e.op ≠ .discard))

instance (s : AdmitPool) (a : PoolAction Principal Fault) : Decidable (FirstAlone s a) :=
  match a with
  | .spawn _ => .isTrue trivial
  | .advance i _ => decidable_of_iff
      (∀ t ∈ s.threads[i]?, ∀ row ∈ nextRow t, (s.shared.quota.row row).committed = none →
        ∀ j ∈ List.range s.threads.length, j ≠ i → ∀ u ∈ s.threads[j]?,
          ¬ (FoundMissing u row ∧ InFlight u)) (by
      constructor
      · intro h t row k ht hrest hmissing j u hj hu
        exact h t ht row (nextRow_eq_some.mpr ⟨k, hrest⟩) hmissing j
          (List.mem_range.mpr (List.getElem?_eq_some_iff.mp hu).1) hj u hu
      · intro h t ht row hrow hmissing j _ hj u hu
        obtain ⟨k, hrest⟩ := nextRow_eq_some.mp hrow
        exact h t row k ht hrest hmissing j u hj hu)

/-- The phase of a call with respect to a row. -/
def phaseOf (projects : Dict (Text × Text) ProjectLimits) (row : QuotaRow) (t : AdmitThread) :
    RowPhase :=
  t.log.foldl (nextPhase row (limitOf projects row)) .outside

private theorem notClosed_of_nextPhase {row : QuotaRow} {limit : Nat} {phase : RowPhase}
    {e : Event AdmitOp AdmitOp.Res} (h : (nextPhase row limit phase e).isClosed = false) :
    phase.isClosed = false ∧ e.op ≠ .commit ∧ e.op ≠ .discard := by
  obtain ⟨o, answer⟩ := e
  cases o with
  | selectLimits tenant project => exact ⟨h, by simp⟩
  | deleteBefore windowStart => exact ⟨h, by simp⟩
  | selectForUpdate r =>
    refine ⟨?_, by simp⟩
    cases answer with
    | error e => exact h
    | ok seen =>
      cases phase with
      | closed admitted => exact h
      | outside | passed _ | wrote _ | full => rfl
  | upsert r =>
    refine ⟨?_, by simp⟩
    cases answer with
    | error e => exact h
    | ok u =>
      cases phase with
      | closed admitted => exact h
      | outside | passed _ | wrote _ | full => rfl
  | commit => cases answer <;> simp [nextPhase, RowPhase.isClosed] at h
  | discard =>
    simp only [nextPhase] at h
    split at h
    · next hc =>
      rw [hc] at h
      cases h
    · cases h

private theorem missing_of_nextPhase {row : QuotaRow} {limit : Nat} {phase : RowPhase}
    {e : Event AdmitOp AdmitOp.Res}
    (h : nextPhase row limit phase e = .passed none ∨ nextPhase row limit phase e = .wrote none) :
    (phase = .passed none ∨ phase = .wrote none) ∨ e = ⟨.selectForUpdate row, .ok none⟩ := by
  obtain ⟨o, answer⟩ := e
  cases o with
  | selectLimits tenant project => exact .inl h
  | deleteBefore windowStart => exact .inl h
  | selectForUpdate r =>
    cases answer with
    | error e => exact .inl h
    | ok seen =>
      by_cases hr : r = row
      · subst hr
        cases phase with
        | outside =>
          simp only [nextPhase, ↓reduceIte] at h
          split at h
          · simp only [RowPhase.passed.injEq, reduceCtorEq, or_false] at h
            exact .inr (by rw [h])
          · simp at h
        | passed seen' => exact .inl h
        | wrote seen' => exact .inl h
        | full => exact .inl h
        | closed admitted => exact .inl h
      · rw [nextPhase_select_of_ne hr] at h
        exact .inl h
  | upsert r =>
    refine .inl ?_
    cases answer with
    | error e => exact h
    | ok u =>
      by_cases hr : r = row
      · cases phase with
        | passed seen =>
          simp only [nextPhase, hr, ↓reduceIte, reduceCtorEq, RowPhase.wrote.injEq,
            false_or] at h
          exact .inl (by rw [h])
        | wrote seen => exact h
        | outside => exact h
        | full => exact h
        | closed admitted => exact h
      · have hsame : nextPhase row limit phase ⟨.upsert r, .ok u⟩ = phase :=
          nextPhase_upsert_of_ne hr limit phase
        rw [hsame] at h
        exact h
  | commit => cases answer <;> simp [nextPhase] at h
  | discard =>
    simp only [nextPhase] at h
    split at h
    · exact .inl h
    · simp at h

private theorem inFlight_of_fold {row : QuotaRow} {limit : Nat}
    {log : List (Event AdmitOp AdmitOp.Res)}
    (h : (log.foldl (nextPhase row limit) .outside).isClosed = false) :
    ∀ e ∈ log, e.op ≠ .commit ∧ e.op ≠ .discard := by
  induction log using List.reverseRecOn with
  | nil => simp
  | append_singleton log e ih =>
    rw [List.foldl_append, List.foldl_cons, List.foldl_nil] at h
    obtain ⟨hold, hop⟩ := notClosed_of_nextPhase h
    intro e' he'
    obtain he' | he' := List.mem_append.mp he'
    · exact ih hold e' he'
    · rw [List.mem_singleton.mp he']
      exact hop

private theorem foundMissing_of_fold {row : QuotaRow} {limit : Nat}
    {log : List (Event AdmitOp AdmitOp.Res)}
    (h : log.foldl (nextPhase row limit) .outside = .passed none ∨
      log.foldl (nextPhase row limit) .outside = .wrote none) :
    (⟨.selectForUpdate row, .ok none⟩ : Event AdmitOp AdmitOp.Res) ∈ log := by
  induction log using List.reverseRecOn with
  | nil => simp at h
  | append_singleton log e ih =>
    rw [List.foldl_append, List.foldl_cons, List.foldl_nil] at h
    obtain hold | he := missing_of_nextPhase h
    · exact List.mem_append_left _ (ih hold)
    · exact List.mem_append_right _ (List.mem_singleton.mpr he.symm)

/-- A call that is active on a missing row has found it missing and is in flight. -/
theorem foundMissing_of_phase {projects : Dict (Text × Text) ProjectLimits} {row : QuotaRow}
    {t : AdmitThread}
    (h : phaseOf projects row t = .passed none ∨ phaseOf projects row t = .wrote none) :
    FoundMissing t row ∧ InFlight t := by
  refine ⟨foundMissing_of_fold h, @inFlight_of_fold row (limitOf projects row) _ ?_⟩
  unfold phaseOf at h
  obtain h | h := h
  · rw [h]
    rfl
  · rw [h]
    rfl

/-- What holds in every state of a run over the tables `db`. -/
structure QuotaInv (now : Int) (db : QuotaDb) (s : AdmitPool) : Prop where
  coherent : Pool.Coherent (admitPrincipal now) s
  projects : s.shared.projects = db.projects
  answers : ∀ t ∈ s.threads, ∀ tenant project limits,
    (⟨.selectLimits tenant project, .ok limits⟩ : Event AdmitOp AdmitOp.Res) ∈ t.log →
      limits = db.projects.get? (tenant, project)
  rows : ∀ row, now - 120 ≤ row.windowStart →
    RowInv (limitOf db.projects row) (db.count row) (s.shared.quota.row row)
      (s.threads.map (phaseOf db.projects row))

private theorem quotaInv_idle {db : QuotaDb} (h : db.Quiet) (now : Int) :
    QuotaInv now db (Pool.idle db) :=
  ⟨Pool.coherent_idle _ _, rfl, by simp [Pool.idle], fun row _ ↦ RowInv.init (h row).1 (h row).2⟩

private theorem answers_execute {db db' : QuotaDb} {i : Nat} {fault : Fault} {o : AdmitOp}
    {answer : o.Res} (hx : execute db i fault o = some (answer, db')) {tenant project : Text}
    {limits : Option ProjectLimits}
    (he : (⟨.selectLimits tenant project, .ok limits⟩ : Event AdmitOp AdmitOp.Res) =
      ⟨o, answer⟩) : limits = db.projects.get? (tenant, project) := by
  cases he
  cases fault with
  | none =>
    cases hx
    rfl
  | error e applied => cases hx

private theorem obeys_rest {now : Int} {db : QuotaDb} {s : AdmitPool} (hs : QuotaInv now db s)
    {row : QuotaRow} (hwin : now - 120 ≤ row.windowStart) {i : Nat} {t : AdmitThread}
    (ht : s.threads[i]? = some t) :
    (rowMonitor db.projects now row t.label).Obeys (phaseOf db.projects row t) t.rest := by
  refine (obeys_admitPrincipal hwin).runs (hs.coherent.runs i t ht) ?_
  rintro ⟨o, answer⟩ he
  cases o with
  | selectLimits tenant project =>
    cases answer with
    | error e => trivial
    | ok limits => exact hs.answers t (List.mem_of_getElem? ht) tenant project limits he
  | selectForUpdate r => trivial
  | upsert r => trivial
  | deleteBefore windowStart => trivial
  | commit => trivial
  | discard => trivial

/-- Every step that meets the side condition keeps the invariant. -/
theorem quotaInv_step {now : Int} {db : QuotaDb} {s s' : AdmitPool}
    {a : PoolAction Principal Fault} (hs : QuotaInv now db s) (ha : FirstAlone s a)
    (h : admitStep now s a = some s') : QuotaInv now db s' := by
  have hco := Pool.coherent_step _ _ s a s' hs.coherent h
  obtain ⟨label, -, rfl⟩ | ⟨i, fault, t, o, k, answer, shared, rfl, ht, hrest, hx, rfl⟩ :=
    Pool.step_cases _ _ h
  · refine ⟨hco, hs.projects, ?_, ?_⟩
    · intro t ht
      obtain ht | ht := List.mem_append.mp ht
      · exact hs.answers t ht
      · rw [List.mem_singleton.mp ht]
        simp
    · intro row hwin
      rw [List.map_append]
      exact (hs.rows row hwin).spawn
  · refine ⟨hco, (projects_execute hx).trans hs.projects, ?_, ?_⟩
    · intro u hu tenant project limits hm
      obtain hu | rfl := List.mem_or_eq_of_mem_set hu
      · exact hs.answers u hu tenant project limits hm
      · obtain hm | hm := List.mem_append.mp hm
        · exact hs.answers t (List.mem_of_getElem? ht) tenant project limits hm
        · rw [← hs.projects]
          exact answers_execute hx (List.mem_singleton.mp hm)
    · intro row hwin
      have hobeys := obeys_rest hs hwin ht
      rw [hrest] at hobeys
      have hi : (s.threads.map (phaseOf db.projects row))[i]? =
          some (phaseOf db.projects row t) := by rw [List.getElem?_map, ht, Option.map_some]
      have hphase : phaseOf db.projects row ⟨t.label, t.log ++ [⟨o, answer⟩], k answer⟩ =
          nextPhase row (limitOf db.projects row) (phaseOf db.projects row t) ⟨o, answer⟩ := by
        simp [phaseOf]
      rw [List.map_set, hphase]
      refine transition (hs.rows row hwin) hi hobeys.1 hx ?_
      intro ho hmissing j q hji hj
      subst ho
      rw [List.getElem?_map, Option.map_eq_some_iff] at hj
      obtain ⟨u, hu, rfl⟩ := hj
      have hnot := ha t row k ht hrest hmissing j u hji hu
      exact ⟨fun hq ↦ hnot (foundMissing_of_phase (.inl hq)),
        fun hq ↦ hnot (foundMissing_of_phase (.inr hq))⟩

/-- The call returned `True`. -/
def Admitted (t : AdmitThread) : Bool :=
  match t.rest with
  | .ret true => true
  | _ => false

private theorem countP_admitted_le {now : Int} {db : QuotaDb} {s : AdmitPool}
    (hs : QuotaInv now db s) (row : QuotaRow) (hwin : now - 120 ≤ row.windowStart)
    (uses : Principal → Bool) (huses : ∀ p, uses p = true → p.uses now row) :
    s.threads.countP (fun t ↦ uses t.label && Admitted t) ≤ limitOf db.projects row := by
  refine le_trans ?_ (hs.rows row hwin).admitted_le
  rw [List.countP_map]
  refine List.countP_mono_left fun t ht hadmitted ↦ ?_
  rw [Bool.and_eq_true] at hadmitted
  obtain ⟨i, hi⟩ := List.mem_iff_getElem?.mp ht
  have hobeys := obeys_rest hs hwin hi
  have hrest : t.rest = .ret true := by
    have hr := hadmitted.2
    unfold Admitted at hr
    split at hr
    · next h => exact h
    · cases hr
  rw [hrest] at hobeys
  rw [Function.comp_apply, beq_iff_eq]
  exact hobeys rfl (huses t.label hadmitted.1)

/-- In every run in which no two overlapping calls find the same row missing, the calls that
return `True` stay within the key's limit of the second and the project's limit of the minute. -/
theorem admit_within_limits {now : Int} {db : QuotaDb} (hquiet : db.Quiet)
    {as : List (PoolAction Principal Fault)} {s : AdmitPool}
    (hfirst : RunMeets (admitStep now) FirstAlone (Pool.idle db) as)
    (hrun : runAll (admitStep now) (Pool.idle db) as = some s)
    {tenant project : Text} {limits : ProjectLimits}
    (hlimits : db.projects.get? (tenant, project) = some limits) :
    (∀ keyId, s.threads.countP (fun t ↦ decide (t.label = ⟨tenant, project, keyId⟩) &&
      Admitted t) ≤ limits.keyRps) ∧
    s.threads.countP (fun t ↦ decide (t.label.tenantId = tenant ∧ t.label.projectId = project) &&
      Admitted t) ≤ limits.rpm := by
  have hs : QuotaInv now db s :=
    runAll_invariant_of_meets (fun _ _ _ hs ha hstep ↦ quotaInv_step hs ha hstep)
      (quotaInv_idle hquiet now) hfirst hrun
  constructor
  · intro keyId
    have hle := countP_admitted_le hs (keyRow ⟨tenant, project, keyId⟩ now) ?_
      (fun p ↦ decide (p = ⟨tenant, project, keyId⟩)) ?_
    · simpa [limitOf, keyRow, hlimits] using hle
    · simp only [keyRow]
      omega
    · intro p hp
      rw [of_decide_eq_true hp]
      exact .inl rfl
  · have hle := countP_admitted_le hs (projectRow ⟨tenant, project, []⟩ now) ?_
      (fun p ↦ decide (p.tenantId = tenant ∧ p.projectId = project)) ?_
    · simpa [limitOf, projectRow, hlimits] using hle
    · simp only [projectRow]
      omega
    · intro p hp
      obtain ⟨rfl, rfl⟩ := of_decide_eq_true hp
      exact .inr rfl

/-! ### First requests of a window -/

/-- One project with a limit of one request a second for each key. -/
def oneRps : QuotaDb where
  projects := Dict.ofList [((Text.ofString "t", Text.ofString "p"), ⟨60, 1, by decide, by decide⟩)]
  quota := ∅

/-- A key of that project. -/
def someKey : Principal := ⟨Text.ofString "t", Text.ofString "p", Text.ofString "k"⟩

private theorem quiet_oneRps : oneRps.Quiet := fun _ ↦ ⟨rfl, rfl⟩

/-- The same project with two requests a second. -/
def twoRps : QuotaDb where
  projects := Dict.ofList [((Text.ofString "t", Text.ofString "p"), ⟨60, 2, by decide, by decide⟩)]
  quota := ∅

/-- A call that has the table to itself, then two that overlap on the row that it left. -/
def overlapping : List (PoolAction Principal Fault) :=
  .spawn someKey :: (List.replicate 7 (.advance 0 .none) ++ [.spawn someKey, .spawn someKey] ++
    [.advance 2 .none] ++ List.replicate 7 (.advance 1 .none) ++ List.replicate 2 (.advance 2 .none))

/-- The last of three calls counts what the others have committed. -/
theorem admit_within_limits_overlapping : ∃ s, runAll (admitStep 120) (Pool.idle twoRps)
      overlapping = some s ∧
    s.threads.map Admitted = [true, true, false] ∧
    s.threads.countP (fun t ↦ decide (t.label = someKey) && Admitted t) ≤ 2 := by
  have hrun : (runAll (admitStep 120) (Pool.idle twoRps) overlapping).map
      (fun s ↦ s.threads.map Admitted) = some [true, true, false] := by decide +kernel
  obtain ⟨s, hs, hanswers⟩ := Option.map_eq_some_iff.mp hrun
  have hmeets : RunMeets (admitStep 120) FirstAlone (Pool.idle twoRps) overlapping := by
    decide +kernel
  have hlimits : twoRps.projects.get? (someKey.tenantId, someKey.projectId) =
      some ⟨60, 2, by decide, by decide⟩ := rfl
  exact ⟨s, hs, hanswers,
    (admit_within_limits (fun _ ↦ ⟨rfl, rfl⟩) hmeets hs hlimits).1 someKey.keyId⟩

/-- Both calls look before either has inserted; then both insert and both return `True`. -/
theorem admit_exceeds_limit : ∃ s, runAll (admitStep 120) (Pool.idle oneRps)
      (.spawn someKey :: .spawn someKey ::
        ((List.replicate 3 (.advance 0 .none)) ++ (List.replicate 3 (.advance 1 .none)) ++
          (List.replicate 4 (.advance 0 .none)) ++ (List.replicate 4 (.advance 1 .none)))) =
        some s ∧
    oneRps.Quiet ∧ (oneRps.projects.get? (someKey.tenantId, someKey.projectId)).map
      ProjectLimits.keyRps = some 1 ∧
    s.threads.countP (fun t ↦ decide (t.label = someKey) && Admitted t) = 2 := by
  have hrun : (runAll (admitStep 120) (Pool.idle oneRps)
      (.spawn someKey :: .spawn someKey ::
        ((List.replicate 3 (.advance 0 .none)) ++ (List.replicate 3 (.advance 1 .none)) ++
          (List.replicate 4 (.advance 0 .none)) ++ (List.replicate 4 (.advance 1 .none))))).map
        (fun s ↦ s.threads.countP fun t ↦ decide (t.label = someKey) && Admitted t) =
      some 2 := by decide +kernel
  obtain ⟨s, hs, htwo⟩ := Option.map_eq_some_iff.mp hrun
  exact ⟨s, hs, quiet_oneRps, rfl, htwo⟩

end C3RSpec.Access

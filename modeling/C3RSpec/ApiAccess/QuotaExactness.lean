import C3RSpec.Access.QuotaSafety
import C3RSpec.ApiAccess.AccessStore
import Mathlib.Data.List.Induction

/-!
# What admission counts

`c3r/api_access.py:233–255`, called any number of times. An admission is atomic and takes the
clock's whole second, so its key counter is that of the second and its project counter that of the
minute. Old windows of every project are deleted, but never one that a later call could read:
what a counter holds is what it held at the start and the calls admitted since.
-/

namespace C3RSpec.ApiAccess

open Base Access

/-- A call of `admit`. -/
structure AdmitCall where
  host : Host
  principal : Principal

namespace AdmitCall

/-- `now`. -/
def second (c : AdmitCall) : Int := truncate (c.host.clock 0)

/-- The counter of the key in the second of the call. -/
def keyRow (c : AdmitCall) : QuotaRow :=
  Access.keyRow ⟨c.principal.tenantId, c.principal.projectId, c.principal.keyId⟩ c.second

/-- The counter of the project in the minute of the call. -/
def projectRow (c : AdmitCall) : QuotaRow :=
  Access.projectRow ⟨c.principal.tenantId, c.principal.projectId, c.principal.keyId⟩ c.second

/-- The call counts in a row. -/
def uses (c : AdmitCall) (row : QuotaRow) : Prop := c.keyRow = row ∨ c.projectRow = row

instance (c : AdmitCall) (row : QuotaRow) : Decidable (c.uses row) :=
  inferInstanceAs (Decidable (_ ∨ _))

/-- The project of the call. -/
def project (c : AdmitCall) : Text × Text := (c.principal.tenantId, c.principal.projectId)

/-- What the call answers. -/
def answer (c : AdmitCall) (db : Database) : Except PyError Bool :=
  (admitRequest c.host c.principal db).1

/-- The database the call leaves. -/
def after (c : AdmitCall) (db : Database) : Database := (admitRequest c.host c.principal db).2

end AdmitCall

/-- `True`. -/
def isAdmitted : Except PyError Bool → Bool
  | .ok admitted => admitted
  | .error _ => false

/-- The database and the answers so far. -/
structure AdmitRun where
  db : Database
  log : List (AdmitCall × Except PyError Bool)

/-- Calls of `admit`, one after another. -/
def runAdmits (db : Database) (calls : List AdmitCall) : AdmitRun :=
  calls.foldl (fun r c ↦ ⟨c.after r.db, r.log ++ [(c, c.answer r.db)]⟩) ⟨db, []⟩

/-- The count of a row, zero where it does not exist. -/
def Database.used (db : Database) (row : QuotaRow) : Nat := (db.quota.get? row).getD 0

/-- The admitted calls that count in a row. -/
def admittedIn (row : QuotaRow) (log : List (AdmitCall × Except PyError Bool)) : Nat :=
  log.countP fun e ↦ isAdmitted e.2 && decide (e.1.uses row)

/-! ### One call -/

section Call

variable {c : AdmitCall} {db : Database}

/-- A result, unless a statement or the commit raises. -/
private def settled (host : Host) (admitted : Bool) : Except PyError Bool :=
  match host.fault with
  | some e => .error e
  | none => .ok admitted

/-- The answer of a call, from the limits of the project and the counts of its rows. -/
def verdict (c : AdmitCall) (limits : Option ProjectLimits) (used : QuotaRow → Nat) :
    Except PyError Bool :=
  match bindTexts [c.principal.tenantId, c.principal.projectId] with
  | .error e => .error (c.host.fault.getD e)
  | .ok _ =>
    match limits with
    | none => settled c.host false
    | some limits =>
      match bindTexts [c.principal.keyId] with
      | .error e => .error (c.host.fault.getD e)
      | .ok _ => settled c.host
          (decide (used c.keyRow < limits.keyRps) && decide (used c.projectRow < limits.rpm))

private theorem full_iff {limit : Nat} (hpos : 1 ≤ limit) (count : Option Nat) :
    (decide (limit ≤ count.getD 0) && count.isSome) = !decide (count.getD 0 < limit) := by
  cases count with
  | none => simp [Nat.lt_of_lt_of_le Nat.zero_lt_one hpos]
  | some n =>
    rw [Option.getD_some, Option.isSome_some, Bool.and_true]
    by_cases h : n < limit
    · rw [decide_eq_true h, decide_eq_false (not_le.mpr h), Bool.not_true]
    · rw [decide_eq_false h, decide_eq_true (not_lt.mp h), Bool.not_false]

/-- The quota table after an admission. -/
private def counted (c : AdmitCall) (limits : ProjectLimits) (quota : Dict QuotaRow Nat) :
    Dict QuotaRow Nat :=
  ((quotaRequests c.principal c.second limits).foldl
    (fun quota q ↦ quota.insert q.row ((quota.get? q.row).getD 0 + 1)) quota).filterEntries
      fun row _ ↦ decide (c.second - 120 ≤ row.windowStart)

private theorem counted_eq (limits : ProjectLimits) (quota : Dict QuotaRow Nat) :
    counted c limits quota =
      ((quota.insert c.keyRow ((quota.get? c.keyRow).getD 0 + 1)).insert c.projectRow
        (((quota.insert c.keyRow ((quota.get? c.keyRow).getD 0 + 1)).get? c.projectRow).getD 0 +
          1)).filterEntries fun row _ ↦ decide (c.second - 120 ≤ row.windowStart) := rfl

private theorem getD_counted (limits : ProjectLimits) {row : QuotaRow}
    (hrow : c.second - 120 ≤ row.windowStart) :
    ((counted c limits db.quota).get? row).getD 0 = db.used row + if c.uses row then 1 else 0 := by
  have hne : c.keyRow ≠ c.projectRow := fun h ↦ nomatch congrArg QuotaRow.kind h
  have hkept : ∀ count : Option Nat,
      (count.filter fun _ ↦ decide (c.second - 120 ≤ row.windowStart)) = count := by
    intro count
    rw [decide_eq_true hrow]
    cases count <;> rfl
  rw [counted_eq, Dict.get?_filterEntries, hkept, Dict.get?_insert, Dict.get?_insert,
    Dict.get?_insert, if_neg hne, Database.used]
  by_cases hproject : c.projectRow = row
  · have huses : c.uses row := Or.inr hproject
    rw [if_pos hproject, if_pos huses, hproject, Option.getD_some]
  · rw [if_neg hproject]
    by_cases hkey : c.keyRow = row
    · have huses : c.uses row := Or.inl hkey
      rw [if_pos hkey, if_pos huses, hkey, Option.getD_some]
    · have huses : ¬ c.uses row := not_or.mpr ⟨hkey, hproject⟩
      rw [if_neg hkey, if_neg huses, Nat.add_zero]

private theorem countRequest_cases (c : AdmitCall) (db : Database) :
    (∃ e, countRequest c.second c.principal db = .error e ∧
      verdict c (db.projects.get? c.project) db.used = .error (c.host.fault.getD e)) ∨
    (countRequest c.second c.principal db = .ok (false, db) ∧
      verdict c (db.projects.get? c.project) db.used = settled c.host false) ∨
    ∃ limits, countRequest c.second c.principal db =
        .ok (true, { db with quota := counted c limits db.quota }) ∧
      verdict c (db.projects.get? c.project) db.used = settled c.host true := by
  unfold countRequest verdict AdmitCall.project
  cases bindTexts [c.principal.tenantId, c.principal.projectId] with
  | error e => exact .inl ⟨e, rfl, rfl⟩
  | ok _ =>
    cases db.projects.get? (c.principal.tenantId, c.principal.projectId) with
    | none => exact .inr (.inl ⟨rfl, rfl⟩)
    | some limits =>
      cases bindTexts [c.principal.keyId] with
      | error e => exact .inl ⟨e, rfl, rfl⟩
      | ok _ =>
        have hany : ((quotaRequests c.principal c.second limits).any fun q ↦
            decide (q.limit ≤ (db.quota.get? q.row).getD 0) && (db.quota.get? q.row).isSome) =
            !(decide (db.used c.keyRow < limits.keyRps) &&
              decide (db.used c.projectRow < limits.rpm)) := by
          rw [Bool.not_and, quotaRequests, requests, List.any_cons, List.any_cons, List.any_nil,
            Bool.or_false, full_iff limits.keyRps_pos, full_iff limits.rpm_pos]
          rfl
        simp only [hany]
        cases decide (db.used c.keyRow < limits.keyRps) &&
          decide (db.used c.projectRow < limits.rpm) with
        | false => exact .inr (.inl ⟨rfl, rfl⟩)
        | true => exact .inr (.inr ⟨limits, rfl, rfl⟩)

/-- What a call does: it answers by its verdict, and writes only when it admits, and only counters.
-/
theorem admit_eq (c : AdmitCall) (db : Database) :
    c.answer db = verdict c (db.projects.get? c.project) db.used ∧
      (isAdmitted (c.answer db) = false → c.after db = db) ∧
      (∃ quota, c.after db = { db with quota }) ∧
      ∀ row, c.second - 120 ≤ row.windowStart → (c.after db).used row =
        db.used row + if isAdmitted (c.answer db) = true ∧ c.uses row then 1 else 0 := by
  have hcall : (c.answer db, c.after db) =
      connect c.host (countRequest c.second c.principal) db := rfl
  obtain ⟨e, hcount, hverdict⟩ | ⟨hcount, hverdict⟩ | ⟨limits, hcount, hverdict⟩ :=
    countRequest_cases c db
  · rw [connect, hcount] at hcall
    obtain ⟨hanswer, hafter⟩ := Prod.mk.inj hcall
    rw [hanswer, hafter, hverdict]
    exact ⟨rfl, fun _ ↦ rfl, ⟨db.quota, rfl⟩, fun row _ ↦ by simp [isAdmitted]⟩
  · rw [connect, hcount] at hcall
    rw [hverdict, settled]
    cases hfault : c.host.fault with
    | none =>
      rw [hfault] at hcall
      obtain ⟨hanswer, hafter⟩ := Prod.mk.inj hcall
      rw [hanswer, hafter]
      exact ⟨rfl, fun _ ↦ rfl, ⟨db.quota, rfl⟩, fun row _ ↦ by simp [isAdmitted]⟩
    | some e =>
      rw [hfault] at hcall
      obtain ⟨hanswer, hafter⟩ := Prod.mk.inj hcall
      rw [hanswer, hafter]
      exact ⟨rfl, fun _ ↦ rfl, ⟨db.quota, rfl⟩, fun row _ ↦ by simp [isAdmitted]⟩
  · rw [connect, hcount] at hcall
    rw [hverdict, settled]
    cases hfault : c.host.fault with
    | none =>
      rw [hfault] at hcall
      obtain ⟨hanswer, hafter⟩ := Prod.mk.inj hcall
      rw [hanswer, hafter]
      refine ⟨rfl, Bool.noConfusion, ⟨_, rfl⟩, fun row hrow ↦ ?_⟩
      simp only [isAdmitted, true_and]
      exact getD_counted limits hrow
    | some e =>
      rw [hfault] at hcall
      obtain ⟨hanswer, hafter⟩ := Prod.mk.inj hcall
      rw [hanswer, hafter]
      exact ⟨rfl, fun _ ↦ rfl, ⟨db.quota, rfl⟩, fun row _ ↦ by simp [isAdmitted]⟩

/-- A call that answers refuses exactly when the project does not exist or a counter is full. -/
theorem answer_eq_false_iff {b : Bool} (h : c.answer db = .ok b) :
    b = false ↔ db.projects.get? c.project = none ∨
      ∃ limits, db.projects.get? c.project = some limits ∧
        (limits.keyRps ≤ db.used c.keyRow ∨ limits.rpm ≤ db.used c.projectRow) := by
  rw [(admit_eq c db).1] at h
  have hsettled : ∀ {b' : Bool}, settled c.host b' = .ok b → b' = b := by
    intro b' hb
    rw [settled] at hb
    split at hb
    · cases hb
    · exact Except.ok.inj hb
  unfold verdict at h
  split at h
  · cases h
  · cases hlimits : db.projects.get? c.project with
    | none =>
      rw [hlimits] at h
      exact ⟨fun _ ↦ .inl rfl, fun _ ↦ (hsettled h).symm⟩
    | some limits =>
      rw [hlimits] at h
      simp only at h
      split at h
      · cases h
      · rw [← hsettled h, Bool.and_eq_false_iff, decide_eq_false_iff_not, decide_eq_false_iff_not,
          not_lt, not_lt]
        simp

/-- A row of a call outlives its deletes. -/
theorem windowStart_of_uses {row : QuotaRow} (h : c.uses row) :
    c.second - 120 ≤ row.windowStart := by
  obtain rfl | rfl := h
  · change c.second - 120 ≤ c.second
    omega
  · change c.second - 120 ≤ c.second / 60 * 60
    omega

/-- A call answers when nothing fails and its ids can be bound. -/
theorem exists_answer (db : Database) (hfault : c.host.fault = none)
    (hids : bindTexts [c.principal.tenantId, c.principal.projectId] = .ok ())
    (hkey : bindTexts [c.principal.keyId] = .ok ()) : ∃ b, c.answer db = .ok b := by
  rw [(admit_eq c db).1]
  unfold verdict
  rw [hids, hkey]
  simp only [settled, hfault]
  cases db.projects.get? c.project with
  | none => exact ⟨false, rfl⟩
  | some limits => exact ⟨_, rfl⟩

end Call

/-! ### Runs -/

section Runs

variable {db : Database} {calls : List AdmitCall}

/-- Clock readings that do not run backwards. -/
def InOrder (calls : List AdmitCall) : Prop :=
  calls.Pairwise fun a b ↦ a.host.clock 0 ≤ b.host.clock 0

theorem runAdmits_append (db : Database) (calls : List AdmitCall) (c : AdmitCall) :
    runAdmits db (calls ++ [c]) = ⟨c.after (runAdmits db calls).db,
      (runAdmits db calls).log ++ [(c, c.answer (runAdmits db calls).db)]⟩ := by
  rw [runAdmits, List.foldl_append]
  rfl

@[simp] theorem projects_runAdmits (db : Database) (calls : List AdmitCall) :
    (runAdmits db calls).db.projects = db.projects := by
  induction calls using List.reverseRecOn with
  | nil => rfl
  | append_singleton calls c ih =>
    obtain ⟨quota, hafter⟩ := (admit_eq c (runAdmits db calls).db).2.2.1
    rw [runAdmits_append]
    dsimp only
    rw [hafter]
    exact ih

/-- A row that no call deletes holds what it held and what was admitted since. -/
theorem used_runAdmits {row : QuotaRow}
    (h : ∀ c ∈ calls, c.second - 120 ≤ row.windowStart) :
    (runAdmits db calls).db.used row = db.used row + admittedIn row (runAdmits db calls).log := by
  induction calls using List.reverseRecOn with
  | nil => rfl
  | append_singleton calls c ih =>
    have hih := ih fun c hc ↦ h c (List.mem_append_left _ hc)
    have hstep := (admit_eq c (runAdmits db calls).db).2.2.2 row (h c (by simp))
    rw [runAdmits_append]
    simp only
    rw [hstep, hih, admittedIn, admittedIn, List.countP_append, List.countP_singleton]
    simp only [Bool.and_eq_true, decide_eq_true_eq, Nat.add_assoc]

private theorem truncate_le {x y : ℚ} (h : x ≤ y) : truncate x ≤ truncate y := by
  unfold truncate
  split
  · next hx =>
    split
    · exact Int.ceil_le_ceil h
    · next hy =>
      calc ⌈x⌉ ≤ 0 := Int.ceil_le.mpr (by exact_mod_cast hx.le)
        _ ≤ ⌊y⌋ := Int.floor_nonneg.mpr (not_lt.mp hy)
  · next hx =>
    rw [if_neg (not_lt.mpr ((not_lt.mp hx).trans h))]
    exact Int.floor_le_floor h

private theorem second_le_of_inOrder {c : AdmitCall} (h : InOrder (calls ++ [c])) {d : AdmitCall}
    (hd : d ∈ calls) : d.second ≤ c.second :=
  truncate_le ((List.pairwise_append.mp h).2.2 d hd c (by simp))

/-- No call before it deletes a row that a call counts in. -/
private theorem kept_of_inOrder {c : AdmitCall} (h : InOrder (calls ++ [c])) {row : QuotaRow}
    (huses : c.uses row) {d : AdmitCall} (hd : d ∈ calls) : d.second - 120 ≤ row.windowStart := by
  have hle := second_le_of_inOrder h hd
  have hstart := windowStart_of_uses huses
  omega

/-- The counters of a call hold what they held and what was admitted since. -/
theorem used_of_inOrder {c : AdmitCall} (h : InOrder (calls ++ [c])) {row : QuotaRow}
    (huses : c.uses row) : (runAdmits db calls).db.used row =
      db.used row + admittedIn row (runAdmits db calls).log :=
  used_runAdmits fun _ hd ↦ kept_of_inOrder h huses hd

/-- An admitted call found room in its rows. -/
theorem used_lt_of_admitted {c : AdmitCall} (h : isAdmitted (c.answer db) = true)
    {row : QuotaRow} (huses : c.uses row) : db.used row < limitOf db.projects row := by
  cases hanswer : c.answer db with
  | error e =>
    rw [hanswer] at h
    cases h
  | ok b =>
    rw [hanswer] at h
    have hiff := not_congr (answer_eq_false_iff hanswer)
    rw [Bool.not_eq_false, not_or, not_exists] at hiff
    obtain ⟨hproject, hfull⟩ := hiff.mp h
    obtain ⟨limits, hlimits⟩ := Option.ne_none_iff_exists'.mp hproject
    have hnot := hfull limits
    rw [not_and, not_or, not_le, not_le] at hnot
    obtain ⟨hkey, hproject⟩ := hnot hlimits
    unfold AdmitCall.project at hlimits
    obtain rfl | rfl := huses
    · simp only [limitOf, AdmitCall.keyRow, Access.keyRow, hlimits]
      exact hkey
    · simp only [limitOf, AdmitCall.projectRow, Access.projectRow, hlimits]
      exact hproject

/-- No more calls are admitted in a row than its limit. -/
theorem admittedIn_le (db : Database) (h : InOrder calls) (row : QuotaRow) :
    admittedIn row (runAdmits db calls).log ≤ limitOf db.projects row := by
  induction calls using List.reverseRecOn with
  | nil => exact Nat.zero_le _
  | append_singleton calls c ih =>
    have hih := ih (List.pairwise_append.mp h).1
    rw [runAdmits_append, admittedIn, List.countP_append, List.countP_singleton]
    split
    · next hlast =>
      rw [Bool.and_eq_true, decide_eq_true_eq] at hlast
      have hlt := used_lt_of_admitted hlast.1 hlast.2
      rw [used_of_inOrder h hlast.2, projects_runAdmits] at hlt
      rw [admittedIn] at hlt
      omega
    · exact hih

/-! ### One project among others -/

private theorem verdict_congr {c : AdmitCall} {limits : Option ProjectLimits}
    {used used' : QuotaRow → Nat} (h : ∀ row, c.uses row → used row = used' row) :
    verdict c limits used = verdict c limits used' := by
  unfold verdict
  rw [h c.keyRow (Or.inl rfl), h c.projectRow (Or.inr rfl)]

private theorem project_of_uses {c d : AdmitCall} {row : QuotaRow} (hc : c.uses row)
    (hd : d.uses row) : c.project = d.project := by
  have hproject : ∀ {c : AdmitCall}, c.uses row → c.project = (row.tenant, row.project) := by
    rintro c (rfl | rfl)
    · rfl
    · rfl
  rw [hproject hc, hproject hd]

private theorem admittedIn_filter {c : AdmitCall} {row : QuotaRow} (hc : c.uses row)
    (log : List (AdmitCall × Except PyError Bool)) :
    admittedIn row (log.filter fun e ↦ decide (e.1.project = c.project)) = admittedIn row log := by
  rw [admittedIn, List.countP_filter]
  apply List.countP_congr
  intro e _
  simp only [Bool.and_eq_true, decide_eq_true_eq, and_assoc, and_congr_right_iff,
    and_iff_left_iff_imp]
  exact fun _ huses ↦ project_of_uses huses hc

/-- The calls of one project are answered as if there were no others. -/
theorem log_filter_project (h : InOrder calls) (project : Text × Text) :
    (runAdmits db calls).log.filter (fun e ↦ decide (e.1.project = project)) =
      (runAdmits db (calls.filter fun c ↦ decide (c.project = project))).log := by
  induction calls using List.reverseRecOn with
  | nil => rfl
  | append_singleton calls c ih =>
    have hih := ih (List.pairwise_append.mp h).1
    rw [runAdmits_append, List.filter_append, List.filter_append, hih]
    by_cases hc : c.project = project
    · subst hc
      rw [List.filter_cons_of_pos (by simp), List.filter_cons_of_pos (by simp), List.filter_nil,
        List.filter_nil, runAdmits_append]
      have hfiltered : InOrder (calls.filter (fun d ↦ decide (d.project = c.project)) ++ [c]) := by
        exact List.Pairwise.sublist (List.filter_sublist.append (List.Sublist.refl [c])) h
      have hanswer : c.answer (runAdmits db calls).db = c.answer (runAdmits db
          (calls.filter fun d ↦ decide (d.project = c.project))).db := by
        rw [(admit_eq c _).1, (admit_eq c _).1, projects_runAdmits, projects_runAdmits]
        apply verdict_congr
        intro row huses
        rw [used_of_inOrder h huses, used_of_inOrder hfiltered huses, ← hih,
          admittedIn_filter huses]
      rw [hanswer]
    · rw [List.filter_cons_of_neg (by simpa using hc), List.filter_cons_of_neg (by simpa using hc),
        List.filter_nil, List.filter_nil, List.append_nil, List.append_nil]

end Runs

/-! ### The limits -/

/-- The admitted calls of a key in a second. -/
def admittedBy (tenant project keyId : Text) (second : Int)
    (log : List (AdmitCall × Except PyError Bool)) : Nat :=
  log.countP fun e ↦ isAdmitted e.2 && decide (e.1.project = (tenant, project) ∧
    e.1.principal.keyId = keyId ∧ e.1.second = second)

/-- The admitted calls of a project in a minute. -/
def admittedDuring (tenant project : Text) (minute : Int)
    (log : List (AdmitCall × Except PyError Bool)) : Nat :=
  log.countP fun e ↦ isAdmitted e.2 && decide (e.1.project = (tenant, project) ∧
    e.1.second / 60 = minute)

private theorem admittedBy_eq (tenant project keyId : Text) (second : Int)
    (log : List (AdmitCall × Except PyError Bool)) :
    admittedBy tenant project keyId second log =
      admittedIn (Access.keyRow ⟨tenant, project, keyId⟩ second) log := by
  apply List.countP_congr
  rintro ⟨c, answer⟩ -
  have hrow : c.uses (Access.keyRow ⟨tenant, project, keyId⟩ second) ↔
      c.project = (tenant, project) ∧ c.principal.keyId = keyId ∧ c.second = second := by
    simp [AdmitCall.uses, AdmitCall.keyRow, AdmitCall.projectRow, Access.keyRow, Access.projectRow,
      AdmitCall.project, and_assoc]
  simp only [Bool.and_eq_true, decide_eq_true_eq, hrow]

private theorem admittedDuring_eq (tenant project : Text) (minute : Int)
    (log : List (AdmitCall × Except PyError Bool)) :
    admittedDuring tenant project minute log =
      admittedIn ⟨.project, tenant, project, [], minute * 60⟩ log := by
  apply List.countP_congr
  rintro ⟨c, answer⟩ -
  have hrow : c.uses ⟨.project, tenant, project, [], minute * 60⟩ ↔
      c.project = (tenant, project) ∧ c.second / 60 = minute := by
    simp [AdmitCall.uses, AdmitCall.keyRow, AdmitCall.projectRow, Access.keyRow, Access.projectRow,
      AdmitCall.project, and_assoc]
  simp only [Bool.and_eq_true, decide_eq_true_eq, hrow]

/-- Calls of `admit` at clock readings that do not run backwards, on any database. No key is
admitted more often in a second, and no project in a minute, than its limit. A call that answers
refuses exactly when its project does not exist or one of its two counters has reached its limit,
and those counters hold what they held at the start and the calls admitted in their windows since:
no deletion of old windows takes anything away. A call that does not admit changes nothing. The
calls of a project are answered as if there were no calls of others. -/
theorem quota_exact (db : Database) (calls : List AdmitCall) (hclock : InOrder calls) :
    (∀ tenant project keyId second limits, db.projects.get? (tenant, project) = some limits →
      admittedBy tenant project keyId second (runAdmits db calls).log ≤ limits.keyRps) ∧
    (∀ tenant project minute limits, db.projects.get? (tenant, project) = some limits →
      admittedDuring tenant project minute (runAdmits db calls).log ≤ limits.rpm) ∧
    (∀ earlier c later, calls = earlier ++ c :: later →
      (c.host.fault = none →
        bindTexts [c.principal.tenantId, c.principal.projectId] = .ok () →
        bindTexts [c.principal.keyId] = .ok () →
        ∃ b, c.answer (runAdmits db earlier).db = .ok b) ∧
      (∀ b, c.answer (runAdmits db earlier).db = .ok b →
        (b = false ↔ db.projects.get? c.project = none ∨
          ∃ limits, db.projects.get? c.project = some limits ∧
            (limits.keyRps ≤ (runAdmits db earlier).db.used c.keyRow ∨
              limits.rpm ≤ (runAdmits db earlier).db.used c.projectRow))) ∧
      (runAdmits db earlier).db.used c.keyRow = db.used c.keyRow +
        admittedBy c.principal.tenantId c.principal.projectId c.principal.keyId c.second
          (runAdmits db earlier).log ∧
      (runAdmits db earlier).db.used c.projectRow = db.used c.projectRow +
        admittedDuring c.principal.tenantId c.principal.projectId (c.second / 60)
          (runAdmits db earlier).log ∧
      (isAdmitted (c.answer (runAdmits db earlier).db) = false →
        c.after (runAdmits db earlier).db = (runAdmits db earlier).db)) ∧
    ∀ project, (runAdmits db calls).log.filter (fun e ↦ decide (e.1.project = project)) =
      (runAdmits db (calls.filter fun c ↦ decide (c.project = project))).log := by
  refine ⟨?_, ?_, ?_, log_filter_project hclock⟩
  · intro tenant project keyId second limits hlimits
    have hle := admittedIn_le db hclock (Access.keyRow ⟨tenant, project, keyId⟩ second)
    simp only [limitOf, Access.keyRow, hlimits] at hle
    rw [admittedBy_eq]
    exact hle
  · intro tenant project minute limits hlimits
    have hle := admittedIn_le db hclock ⟨.project, tenant, project, [], minute * 60⟩
    simp only [limitOf, hlimits] at hle
    rw [admittedDuring_eq]
    exact hle
  · rintro earlier c later rfl
    have hearlier : InOrder (earlier ++ [c]) := by
      exact List.Pairwise.sublist ((List.Sublist.refl earlier).append (by simp)) hclock
    refine ⟨exists_answer _, fun b hb ↦ ?_, ?_, ?_, (admit_eq c _).2.1⟩
    · have hiff := answer_eq_false_iff hb
      rw [projects_runAdmits] at hiff
      exact hiff
    · rw [admittedBy_eq]
      exact used_of_inOrder hearlier (Or.inl rfl)
    · rw [admittedDuring_eq]
      exact used_of_inOrder hearlier (Or.inr rfl)

/-- One call a second: two calls of a key in one second, of which the second is refused. -/
theorem quota_exact_twice :
    let db : Database := { Database.empty with
      projects := Dict.ofList
        [((Text.ofString "t", Text.ofString "p"), ⟨60, 1, by decide, by decide⟩)] }
    let call : AdmitCall :=
      ⟨⟨fun _ ↦ 0, none⟩, ⟨Text.ofString "t", Text.ofString "p", Text.ofString "k", ∅⟩⟩
    admittedBy (Text.ofString "t") (Text.ofString "p") (Text.ofString "k") 0
        (runAdmits db [call, call]).log ≤ 1 ∧
      (runAdmits db [call, call]).log.map (fun e ↦ isAdmitted e.2) = [true, false] := by
  intro db call
  exact ⟨(quota_exact db [call, call] (by simp [InOrder])).1 (Text.ofString "t") (Text.ofString "p")
    (Text.ofString "k") 0 ⟨60, 1, by decide, by decide⟩ rfl, by decide +kernel⟩

end C3RSpec.ApiAccess

import C3RSpec.ApiAccess.CredentialHistory
import C3RSpec.ApiAccess.QuotaExactness
import C3RSpec.Ingress.HeldPermits
import Mathlib.Data.List.Perm.Subperm

/-!
# A gateway that serves many requests

`c3r/ingress_proxy.py:30–107, 231–320` over `c3r/api_access.py:97–111, 233–255`. The server gives
every request a thread of its own, and any number of them move in any order; what they share are the
store, in which every call is one transaction, and the semaphores of the server. Two things are
counted over all of them: how many requests reach the upstream in a window, and how many are at it
at the same time.
-/

namespace C3RSpec.Ingress

open Base ApiAccess
open Access (QuotaRow limitOf)

/-- A request as it comes to a gateway. -/
structure Incoming where
  gateway : Gateway
  request : Request
  malformed : Option Int
  session : Session

/-- What the threads share. The last two fields follow the run: the second of the last admission,
and which thread was admitted by which call. -/
structure Shared where
  db : Database
  free : Slot → Nat
  latest : Int
  admitted : List (Nat × AdmitCall)

/-- What else decides an answer: the clock and the faults of the store, and everything that is not
the store or a semaphore. -/
structure Surroundings where
  host : ApiAccess.Host
  other : (o : IngressOp) → o.Res

/-- A store and its semaphores before the first request. -/
def Shared.start (db : Database) (free : Slot → Nat) (latest : Int) : Shared :=
  ⟨db, free, latest, []⟩

/-- The handler of a request. -/
def serve [FloatText] (c : Incoming) :
    Prog IngressOp IngressOp.Res (Except PyError Unit × Session) :=
  handle c.gateway c.request c.malformed c.session

/-- `acquire(blocking=False)`. -/
def Shared.acquire (s : Shared) (slot : Slot) : Bool × Shared :=
  if 0 < s.free slot then
    (true, { s with free := Function.update s.free slot (s.free slot - 1) })
  else (false, s)

/-- The store admits or refuses a thread. -/
def Shared.admission (s : Shared) (i : Nat) (call : AdmitCall) : Except PyError Bool × Shared :=
  (call.answer s.db, { s with
    db := call.after s.db
    latest := call.second
    admitted := if isAdmitted (call.answer s.db) then s.admitted ++ [(i, call)] else s.admitted })

/-- What an operation of a thread gets, and what it does to the shared state. The seconds of
admissions do not go back. -/
def answer [Digest] [FloatText] (s : Shared) (i : Nat) (input : Surroundings) :
    (o : IngressOp) → Option (o.Res × Shared)
  | .authenticate key =>
    some ((ApiAccess.authenticate input.host key s.db).1,
      { s with db := (ApiAccess.authenticate input.host key s.db).2 })
  | .admitRequest principal =>
    if s.latest ≤ AdmitCall.second ⟨input.host, principal⟩ then
      some (s.admission i ⟨input.host, principal⟩)
    else none
  | .dispatchEvent principal requestId =>
    some ((ApiAccess.dispatchEvent input.host principal requestId s.db).1,
      { s with db := (ApiAccess.dispatchEvent input.host principal requestId s.db).2 })
  | .recordUsage principal requestId usage =>
    some ((ApiAccess.recordUsage input.host principal requestId usage s.db).1,
      { s with db := (ApiAccess.recordUsage input.host principal requestId usage s.db).2 })
  | .acquire slot => some (s.acquire slot)
  | .release slot => some ((), { s with free := Function.update s.free slot (s.free slot + 1) })
  | o => some (input.other o, s)

/-- The threads of all requests. -/
abbrev Threads := Pool IngressOp IngressOp.Res Incoming (Except PyError Unit × Session) Shared

/-- Requests come and move. -/
abbrev gatewayStep [Digest] [FloatText] :
    Threads → PoolAction Incoming Surroundings → Option Threads :=
  Pool.step serve answer

/-! ### What other operations leave alone -/

/-- The tables that admission reads. -/
def SameQuota (db db' : Database) : Prop := db'.projects = db.projects ∧ db'.quota = db.quota

private theorem sameQuota_connect {α : Type} (host : ApiAccess.Host) {body : Txn α} {db : Database}
    (h : ∀ a db', body db = .ok (a, db') → SameQuota db db') :
    SameQuota db (ApiAccess.connect host body db).2 := connect_keeps host ⟨rfl, rfl⟩ h

section Frames

variable [Digest] [FloatText]

private theorem sameQuota_authenticate (host : ApiAccess.Host) (key : Text) (db : Database) :
    SameQuota db (ApiAccess.authenticate host key db).2 := by
  unfold ApiAccess.authenticate
  split
  · exact ⟨rfl, rfl⟩
  · refine sameQuota_connect host fun a db' hbody ↦ ?_
    obtain ⟨-, rfl⟩ | ⟨row, scopes, -, -, -, rfl⟩ := selectPrincipal_cases hbody
    · exact ⟨rfl, rfl⟩
    · exact ⟨rfl, rfl⟩

omit [Digest] [FloatText] in
private theorem sameQuota_dispatchEvent (host : ApiAccess.Host) (principal : Principal)
    (requestId : Text) (db : Database) :
    SameQuota db (ApiAccess.dispatchEvent host principal requestId db).2 := by
  refine sameQuota_connect host fun a db' hbody ↦ ?_
  unfold insertDispatch at hbody
  split at hbody
  · cases hbody
  · cases hbody
    exact ⟨rfl, rfl⟩

omit [Digest] [FloatText] in
private theorem sameQuota_recordUsage (host : ApiAccess.Host) (principal : Principal)
    (requestId : Text) (usage : Usage) (db : Database) :
    SameQuota db (ApiAccess.recordUsage host principal requestId usage db).2 := by
  refine sameQuota_connect host fun a db' hbody ↦ ?_
  unfold insertUsage at hbody
  split at hbody
  · cases hbody
  · split at hbody
    · cases hbody
    · split at hbody
      · cases hbody
      · cases hbody
        exact ⟨rfl, rfl⟩

/-- Every operation but an admission leaves the counters, the limits and the admissions alone. -/
theorem answer_other {s s' : Shared} {i : Nat} {input : Surroundings} {o : IngressOp} {r : o.Res}
    (h : answer s i input o = some (r, s')) (ho : ∀ principal, o ≠ .admitRequest principal) :
    SameQuota s.db s'.db ∧ s'.latest = s.latest ∧ s'.admitted = s.admitted := by
  cases o with
  | admitRequest principal => exact absurd rfl (ho principal)
  | authenticate key =>
    cases h
    exact ⟨sameQuota_authenticate input.host key s.db, rfl, rfl⟩
  | dispatchEvent principal requestId =>
    cases h
    exact ⟨sameQuota_dispatchEvent input.host principal requestId s.db, rfl, rfl⟩
  | recordUsage principal requestId usage =>
    cases h
    exact ⟨sameQuota_recordUsage input.host principal requestId usage s.db, rfl, rfl⟩
  | acquire slot =>
    have hs' : s' = (s.acquire slot).2 := congrArg Prod.snd (Option.some.inj h).symm
    rw [hs', Shared.acquire]
    split
    · exact ⟨⟨rfl, rfl⟩, rfl, rfl⟩
    · exact ⟨⟨rfl, rfl⟩, rfl, rfl⟩
  | _ =>
    cases h
    exact ⟨⟨rfl, rfl⟩, rfl, rfl⟩

/-- An admission. -/
theorem answer_admission {s s' : Shared} {i : Nat} {input : Surroundings} {principal : Principal}
    {r : Except PyError Bool} (h : answer s i input (.admitRequest principal) = some (r, s')) :
    s.latest ≤ AdmitCall.second ⟨input.host, principal⟩ ∧
      r = AdmitCall.answer ⟨input.host, principal⟩ s.db ∧
      s' = (s.admission i ⟨input.host, principal⟩).2 := by
  have hanswer : answer s i input (.admitRequest principal) =
      if s.latest ≤ AdmitCall.second ⟨input.host, principal⟩ then
        some (s.admission i ⟨input.host, principal⟩) else none := rfl
  rw [hanswer] at h
  split at h
  · next hlater =>
    obtain ⟨rfl, rfl⟩ := Prod.mk.inj (Option.some.inj h)
    exact ⟨hlater, rfl, rfl⟩
  · cases h

end Frames

/-! ### Windows -/

/-- The admissions that count in a row. -/
def Shared.countIn (s : Shared) (row : QuotaRow) : Nat :=
  s.admitted.countP fun e ↦ decide (e.2.uses row)

private theorem countIn_admission (s : Shared) (i : Nat) (call : AdmitCall) (row : QuotaRow) :
    (s.admission i call).2.countIn row = s.countIn row +
      if isAdmitted (call.answer s.db) = true ∧ call.uses row then 1 else 0 := by
  unfold Shared.countIn Shared.admission
  dsimp only
  cases isAdmitted (call.answer s.db) with
  | true =>
    rw [if_pos rfl, List.countP_append, List.countP_singleton]
    simp only [decide_eq_true_eq, true_and]
  | false => rw [if_neg Bool.false_ne_true, if_neg fun h ↦ Bool.false_ne_true h.1, Nat.add_zero]

/-- An admission that goes through found room in its rows, so the limits still hold. -/
private theorem metered_admission {db : Database} {s : Shared} {i : Nat} {call : AdmitCall}
    (hprojects : s.db.projects = db.projects)
    (hbounded : ∀ row, s.countIn row ≤ limitOf db.projects row)
    (hcounted : ∀ row, s.latest - 120 ≤ row.windowStart → s.countIn row ≤ s.db.used row)
    (hlater : s.latest ≤ call.second) :
    (s.admission i call).2.db.projects = db.projects ∧
      (∀ row, (s.admission i call).2.countIn row ≤ limitOf db.projects row) ∧
      ∀ row, (s.admission i call).2.latest - 120 ≤ row.windowStart →
        (s.admission i call).2.countIn row ≤ (s.admission i call).2.db.used row := by
  obtain ⟨-, -, ⟨quota, hafter⟩, hused⟩ := admit_eq call s.db
  refine ⟨(congrArg Database.projects hafter).trans hprojects, fun row ↦ ?_, fun row hrow ↦ ?_⟩
  · rw [countIn_admission]
    split
    · next h =>
      have hroom := used_lt_of_admitted h.1 h.2
      have hstart := windowStart_of_uses h.2
      have hle := hcounted row (by omega)
      rw [hprojects] at hroom
      omega
    · exact hbounded row
  · change call.second - 120 ≤ row.windowStart at hrow
    have hle := hcounted row (by omega)
    rw [countIn_admission]
    change _ ≤ (call.after s.db).used row
    rw [hused row hrow]
    omega

section Quota

variable [Digest] [FloatText]

/-- The limits hold, the counters that can still be read count every admission, and every thread
that was admitted is among the admissions. -/
structure Metered (db : Database) (s : Threads) : Prop where
  coherent : Pool.Coherent serve s
  projects : s.shared.db.projects = db.projects
  bounded : ∀ row, s.shared.countIn row ≤ limitOf db.projects row
  counted : ∀ row, s.shared.latest - 120 ≤ row.windowStart →
    s.shared.countIn row ≤ s.shared.db.used row
  entered : ∀ i principal, (i, ⟨.admitRequest principal, .ok true⟩) ∈ s.history →
    ∃ call, (i, call) ∈ s.shared.admitted ∧ call.principal = principal

omit [Digest] in
private theorem metered_start (db : Database) (free : Slot → Nat) (latest : Int) :
    Metered db (Pool.idle (Shared.start db free latest)) where
  coherent := Pool.coherent_idle serve _
  projects := rfl
  bounded _ := Nat.zero_le _
  counted _ _ := Nat.zero_le _
  entered _ _ h := absurd h List.not_mem_nil

private theorem metered_step (db : Database) (s : Threads) (a : PoolAction Incoming Surroundings)
    (s' : Threads) (hs : Metered db s) (hstep : gatewayStep s a = some s') : Metered db s' := by
  have hcoherent := Pool.coherent_step serve answer s a s' hs.coherent hstep
  obtain ⟨label, -, rfl⟩ | ⟨i, input, t, o, k, r, shared, -, -, -, hanswer, rfl⟩ :=
    Pool.step_cases serve answer hstep
  · exact ⟨hcoherent, hs.projects, hs.bounded, hs.counted, hs.entered⟩
  · by_cases ho : ∃ principal, o = .admitRequest principal
    · obtain ⟨principal, rfl⟩ := ho
      obtain ⟨hlater, rfl, rfl⟩ := answer_admission hanswer
      obtain ⟨hprojects, hbounded, hcounted⟩ := metered_admission (i := i) hs.projects hs.bounded
        hs.counted hlater
      refine ⟨hcoherent, hprojects, hbounded, hcounted, fun j p hmem ↦ ?_⟩
      dsimp only [Shared.admission]
      rcases List.mem_append.mp hmem with hold | hnew
      · obtain ⟨call, hcall, hp⟩ := hs.entered j p hold
        refine ⟨call, ?_, hp⟩
        split
        · exact List.mem_append_left _ hcall
        · exact hcall
      · obtain ⟨rfl, hevent⟩ := Prod.mk.inj (List.mem_singleton.mp hnew)
        obtain ⟨hop, hr⟩ := Event.mk.inj hevent
        cases hop
        refine ⟨⟨input.host, principal⟩, ?_, rfl⟩
        rw [← eq_of_heq hr, if_pos (by rfl)]
        exact List.mem_append_right _ (List.mem_singleton_self _)
    · obtain ⟨hsame, hlatest, hadmitted⟩ := answer_other hanswer fun principal hp ↦
        ho ⟨principal, hp⟩
      have hcount : ∀ row, shared.countIn row = s.shared.countIn row := fun row ↦ by
        rw [Shared.countIn, Shared.countIn, hadmitted]
      refine ⟨hcoherent, hsame.1.trans hs.projects, fun row ↦ ?_, fun row hrow ↦ ?_,
        fun j p hmem ↦ ?_⟩
      · rw [hcount]
        exact hs.bounded row
      · rw [hlatest] at hrow
        rw [hcount, Database.used, hsame.2]
        exact hs.counted row hrow
      · rcases List.mem_append.mp hmem with hold | hnew
        · rw [hadmitted]
          exact hs.entered j p hold
        · obtain ⟨-, hevent⟩ := Prod.mk.inj (List.mem_singleton.mp hnew)
          exact absurd ⟨p, (Event.mk.inj hevent).1.symm⟩ ho

/-- The thread has contacted the upstream. -/
def hasContacted (s : Threads) (i : Nat) : Bool :=
  match s.threads[i]? with
  | some t => t.log.any fun e ↦ contacts e.op
  | none => false

/-- The requests that have reached the upstream and whose admission counts in a row. -/
def reached (s : Threads) (row : QuotaRow) : Nat :=
  (List.range s.threads.length).countP fun i ↦ hasContacted s i &&
    s.shared.admitted.any fun e ↦ decide (e.1 = i) && decide (e.2.uses row)

omit [Digest] [FloatText] in
private theorem reached_le (s : Threads) (row : QuotaRow) :
    reached s row ≤ s.shared.countIn row := by
  rw [reached, List.countP_eq_length_filter, Shared.countIn, List.countP_eq_length_filter,
    ← List.length_map Prod.fst]
  refine (List.subperm_of_subset (List.nodup_range.filter _) fun i hi ↦ ?_).length_le
  have hadmitted := (Bool.and_eq_true_iff.mp (List.mem_filter.mp hi).2).2
  obtain ⟨e, he, hboth⟩ := List.any_eq_true.mp hadmitted
  rw [Bool.and_eq_true, decide_eq_true_eq] at hboth
  exact List.mem_map.mpr ⟨e, List.mem_filter.mpr ⟨he, hboth.2⟩, hboth.1⟩

omit [Digest] in
/-- A thread that has contacted the upstream was admitted as the principal of its key. -/
private theorem admitted_of_contacted {db : Database} {s : Threads} (hs : Metered db s) {i : Nat}
    {t : Thread IngressOp IngressOp.Res Incoming (Except PyError Unit × Session)}
    (ht : s.threads[i]? = some t) (hstore : t.label.gateway.hasStore = true)
    (hcontact : ∃ e ∈ t.log, contacts e.op = true)
    (hpath : t.label.request.path ≠ Text.ofString "/health") :
    ∃ key call, (i, call) ∈ s.shared.admitted ∧
      Authentic t.label.request t.log key call.principal := by
  obtain ⟨e, he, hcontact⟩ := hcontact
  obtain ⟨pre, post, hlog⟩ := List.append_of_mem he
  have hrun := hs.coherent.runs i t ht
  rw [hlog] at hrun
  have hmediates : (mediating t.label.gateway t.label.request).Ensures [] t.label.session
      (handle t.label.gateway t.label.request t.label.malformed) fun _ _ _ ↦ True :=
    ensures_handle hstore t.label.malformed [] t.label.session
  have hpermitted := hmediates.allows_of_runs hrun fun _ _ ↦ trivial
  rw [List.nil_append] at hpermitted
  obtain ⟨⟨key, principal, hmediated⟩, -⟩ := hpermitted hcontact hpath
  have hpre : ∀ {event}, event ∈ pre → event ∈ t.log := fun hmem ↦ by
    rw [hlog]
    exact List.mem_append_left _ hmem
  have hhistory := hpre hmediated.admitted
  rw [hs.coherent.logs i t ht] at hhistory
  obtain ⟨call, hcall, rfl⟩ := hs.entered i principal (Pool.mem_project.mp hhistory)
  exact ⟨key, call, hcall, hmediated.authorization, hmediated.token, hmediated.overrides,
    hpre hmediated.authenticated⟩

/-- In every interleaving of requests over one store, each request that has reached the upstream was
admitted as the principal of its key, and no more of them were admitted in a second of a key or in a
minute of a project than its limit. -/
theorem reached_within_quota (db : Database) (free : Slot → Nat) (latest : Int)
    {actions : List (PoolAction Incoming Surroundings)} {s : Threads}
    (hrun : runAll gatewayStep (Pool.idle (Shared.start db free latest)) actions = some s)
    (hstore : ∀ t ∈ s.threads, t.label.gateway.hasStore = true) :
    (∀ i t, s.threads[i]? = some t → (∃ e ∈ t.log, contacts e.op = true) →
      t.label.request.path ≠ Text.ofString "/health" → ∃ key call, (i, call) ∈ s.shared.admitted ∧
        Authentic t.label.request t.log key call.principal) ∧
    ∀ tenant project limits, db.projects.get? (tenant, project) = some limits →
      (∀ keyId second,
        reached s (Access.keyRow ⟨tenant, project, keyId⟩ second) ≤ limits.keyRps) ∧
      ∀ minute, reached s ⟨.project, tenant, project, [], minute * 60⟩ ≤ limits.rpm := by
  have hs : Metered db s := runAll_invariant (metered_step db) (metered_start db free latest) hrun
  refine ⟨fun i t ht hcontact hpath ↦ admitted_of_contacted hs ht
    (hstore t (List.mem_of_getElem? ht)) hcontact hpath, fun tenant project limits hlimits ↦ ?_⟩
  refine ⟨fun keyId second ↦ ?_, fun minute ↦ ?_⟩
  · refine (reached_le s _).trans ((hs.bounded _).trans (Nat.le_of_eq ?_))
    simp only [limitOf, Access.keyRow, hlimits]
  · refine (reached_le s _).trans ((hs.bounded _).trans (Nat.le_of_eq ?_))
    simp only [limitOf, hlimits]

end Quota

/-! ### Permits -/

section Permits

variable [Digest] [FloatText]

private theorem answer_acquire {s s' : Shared} {i : Nat} {input : Surroundings} {x : Slot}
    {granted : Bool} (h : answer s i input (.acquire x) = some (granted, s')) :
    granted = true ∧ 0 < s.free x ∧ s'.free = Function.update s.free x (s.free x - 1) ∨
      granted = false ∧ s' = s := by
  have hboth : s.acquire x = (granted, s') := Option.some.inj h
  unfold Shared.acquire at hboth
  split at hboth
  · next hfree =>
    obtain ⟨rfl, rfl⟩ := Prod.mk.inj hboth
    exact .inl ⟨rfl, hfree, rfl⟩
  · obtain ⟨rfl, rfl⟩ := Prod.mk.inj hboth
    exact .inr ⟨rfl, rfl⟩

/-- The shared state counts the free permits of every semaphore. -/
theorem counts_free (slot : Slot) :
    (semaphore slot).Counts (fun s : Shared ↦ s.free slot) answer where
  granted {s i input o r s'} h hgrants := by
    cases o with
    | acquire x =>
      obtain ⟨hslot, hr⟩ := Bool.and_eq_true_iff.mp hgrants
      obtain ⟨-, hfree, hs'⟩ | ⟨hnot, -⟩ := answer_acquire h
      · rw [of_decide_eq_true hslot] at hfree hs'
        rw [hs', Function.update_self]
        omega
      · rw [hnot] at hr
        cases hr
    | _ => cases hgrants
  released {s i input o r s'} h _ hreleases := by
    cases o with
    | release x =>
      cases h
      dsimp only
      rw [of_decide_eq_true hreleases, Function.update_self]
    | _ => cases hreleases
  others {s i input o r s'} h hgrants hreleases := by
    cases o with
    | acquire x =>
      obtain ⟨hr, -, hs'⟩ | ⟨-, rfl⟩ := answer_acquire h
      · rw [hr] at hgrants
        have hne : x ≠ slot := of_decide_eq_false ((Bool.and_true _).symm.trans hgrants)
        rw [hs', Function.update_of_ne hne.symm]
      · rfl
    | release x =>
      cases h
      have hne : x ≠ slot := of_decide_eq_false hreleases
      exact Function.update_of_ne hne.symm _ _
    | admitRequest principal =>
      obtain ⟨-, -, rfl⟩ := answer_admission h
      rfl
    | _ =>
      cases h
      rfl

/-- In every interleaving of requests, at every moment the requests that have contacted the upstream
and not given back their permit of a semaphore are no more than its permits, for the semaphore of
the server and for that of each route. -/
theorem exchanges_within_capacity (db : Database) (free : Slot → Nat) (latest : Int)
    {actions : List (PoolAction Incoming Surroundings)} {s : Threads}
    (hrun : runAll gatewayStep (Pool.idle (Shared.start db free latest)) actions = some s)
    (slot : Slot) : s.threads.countP (fun t ↦ t.label.request.isUnder slot &&
      (semaphore slot).busy t.log) + s.shared.free slot ≤ free slot :=
  Semaphore.busy_le (counts_free slot) (fun label ↦
    (orderly_handle label.malformed label.session).obeys fun _ _ _ _ ↦ trivial) hrun

end Permits

/-! ### Two requests -/

/-- A database with one project and one key. -/
def oneProject [Digest] [FloatText] [SqliteReal] (keyRps : Int) : Database :=
  (perform steadyHost (perform steadyHost .empty (.createProject "acme" "web" 60 keyRps)).2
    (.issueKey "acme" "web" {Text.ofString "models:read"} false none plainMaterial)).2

/-- A request of that key for the list of models. -/
def listModels : Incoming :=
  ⟨keyGateway, ⟨.get, "/v1/models", [(Text.ofString "Authorization", Text.ofString "Bearer " ++
    keyText false plainMaterial.keyId plainMaterial.tail)], "req_1"⟩, none, .initial⟩

/-- Two of them: the first comes as far as the upstream, the second a step beyond its admission. -/
def twoRequests : List (PoolAction Incoming Surroundings) :=
  .spawn listModels :: .spawn listModels ::
    (List.replicate 6 (.advance 0 ⟨steadyHost, calmHost⟩) ++
      List.replicate 4 (.advance 1 ⟨steadyHost, calmHost⟩))

section Plain

attribute [local instance] Digest.rolling FloatText.fraction SqliteReal.fraction

/-- One request a second: one of the two reaches the upstream. -/
theorem reached_within_quota_twoRequests :
    let row := Access.keyRow ⟨"acme", "web", plainMaterial.keyId⟩ 1000
    ∃ s, runAll gatewayStep (Pool.idle (Shared.start (oneProject 1) (fun _ ↦ 2) 0)) twoRequests =
        some s ∧ reached s row = 1 ∧
      ∀ limits, (oneProject 1).projects.get? ("acme", "web") = some limits →
        reached s row ≤ limits.keyRps := by
  intro row
  have heval : (runAll gatewayStep (Pool.idle (Shared.start (oneProject 1) (fun _ ↦ 2) 0))
      twoRequests).map (fun s ↦ (reached s row, s.threads.all fun t ↦ t.label.gateway.hasStore)) =
        some (1, true) := by decide +kernel
  obtain ⟨s, hrun, hboth⟩ := Option.map_eq_some_iff.mp heval
  obtain ⟨hreached, hstore⟩ := Prod.mk.inj hboth
  refine ⟨s, hrun, hreached, fun limits hlimits ↦ ?_⟩
  exact ((reached_within_quota _ _ _ hrun (List.all_eq_true.mp hstore)).2 "acme" "web" limits
    hlimits).1 plainMaterial.keyId 1000

/-- One permit: while the first request is at the upstream, the second gets none. -/
theorem exchanges_within_capacity_twoRequests :
    ∃ s, runAll gatewayStep (Pool.idle (Shared.start (oneProject 2) (fun _ ↦ 1) 0)) twoRequests =
        some s ∧ s.shared.admitted.length = 2 ∧
      s.threads.countP (fun t ↦ t.label.request.isUnder .inFlight &&
        (semaphore .inFlight).busy t.log) = 1 ∧
      s.threads.countP (fun t ↦ t.label.request.isUnder .inFlight &&
        (semaphore .inFlight).busy t.log) + s.shared.free .inFlight ≤ 1 := by
  have heval : (runAll gatewayStep (Pool.idle (Shared.start (oneProject 2) (fun _ ↦ 1) 0))
      twoRequests).map (fun s ↦ (s.shared.admitted.length,
        s.threads.countP (fun t ↦ t.label.request.isUnder .inFlight &&
          (semaphore .inFlight).busy t.log))) = some (2, 1) := by decide +kernel
  obtain ⟨s, hrun, hboth⟩ := Option.map_eq_some_iff.mp heval
  obtain ⟨hadmitted, hbusy⟩ := Prod.mk.inj hboth
  exact ⟨s, hrun, hadmitted, hbusy, exchanges_within_capacity _ _ _ hrun .inFlight⟩

end Plain

end C3RSpec.Ingress

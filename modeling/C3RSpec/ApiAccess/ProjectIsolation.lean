import C3RSpec.ApiAccess.ProjectView
import C3RSpec.Base.Isolation

/-!
# Projects do not see each other

`c3r/api_access.py:47–255`, over any run of calls. An admission of one project deletes old quota
rows of every other, ids of keys and of requests are unique across all of them, and a purge counts
the rows it deletes. What a project is answered depends on its own calls all the same.
-/

namespace C3RSpec.ApiAccess

open Base Access

/-! ### Calls and their projects -/

/-- A call of a method, or of one of the two listings. -/
inductive AccessCall where
  | perform (call : Call)
  | listKeys (tenant project : Text)
  | projectUsage (tenant project : Text)

/-- What it returns. -/
inductive AccessReply where
  | reply (reply : Reply)
  | keys (rows : List KeyListing)
  | usage (rows : List Json)

/-- A call, with what the host contributes and the order in which rows are scanned. -/
structure AccessTurn where
  host : Host
  scan : Scan
  call : AccessCall

/-- The call on the store. -/
def AccessTurn.run [Digest] [FloatText] [SqliteReal] (db : Database) (turn : AccessTurn) :
    Except PyError AccessReply × Database :=
  match turn.call with
  | .perform call => ((perform turn.host db call).1.map .reply, (perform turn.host db call).2)
  | .listKeys tenant project =>
    ((listKeys turn.host turn.scan tenant project db).1.map .keys,
      (listKeys turn.host turn.scan tenant project db).2)
  | .projectUsage tenant project =>
    ((projectUsage turn.host turn.scan tenant project db).1.map .usage,
      (projectUsage turn.host turn.scan tenant project db).2)

variable (owners : Owners)

/-- The project that a call is made for. A key that is presented speaks for its own project. -/
def Call.scope : Call → Option Scope
  | .createProject tenant project _ _ | .issueKey tenant project _ _ _ _
  | .revokeKey tenant project _ | .purgeMetadata tenant project _ _ => some (tenant, project)
  | .authenticate plaintext => (matchKey plaintext).map owners.key
  | .admitRequest principal | .recordUsage principal _ _ | .dispatchEvent principal _ =>
    some (principal.tenantId, principal.projectId)

/-- The same of every call. -/
def AccessCall.scope : AccessCall → Option Scope
  | .perform call => call.scope owners
  | .listKeys tenant project | .projectUsage tenant project => some (tenant, project)

/-- Whether a call is made for the project. -/
def AccessTurn.isOf (x : Scope) (turn : AccessTurn) : Bool :=
  decide (turn.call.scope owners = some x)

/-- The ids that a call writes are not those of another project. -/
def AccessTurn.Scoped (turn : AccessTurn) : Prop :=
  match turn.call with
  | .perform (.issueKey tenant project _ _ _ material) =>
    owners.key material.keyId = (tenant, project)
  | .perform (.recordUsage principal requestId _) =>
    owners.request requestId = (principal.tenantId, principal.projectId)
  | _ => True

/-- The second at which a call asks for admission. -/
def AccessTurn.admitTime? (turn : AccessTurn) : Option Int :=
  match turn.call with
  | .perform (.admitRequest _) => some (truncate (turn.host.clock 0))
  | _ => none

/-! ### What is left of a run -/

variable {owners} {x : Scope}

variable (owners x) in
/-- The rest of a run, from two databases that hold the same of the project. -/
structure Alike (turns : List AccessTurn) (s t : Database) : Prop where
  idsOwned : ∀ turn ∈ turns, turn.Scoped owners
  inOrder : (turns.filterMap AccessTurn.admitTime?).Pairwise (· ≤ ·)
  owned : s.Owned owners
  owned' : t.Owned owners
  same : ∃ latest, (∀ time ∈ turns.filterMap AccessTurn.admitTime?, latest ≤ time) ∧
    SameProject owners x latest s t

/-- At the first turn of the rest, time has passed. -/
private theorem Alike.same_at {turn : AccessTurn} {turns : List AccessTurn} {s t : Database}
    (h : Alike owners x (turn :: turns) s t) : ∃ latest,
      (∀ time ∈ turns.filterMap AccessTurn.admitTime?, turn.admitTime?.getD latest ≤ time) ∧
        SameProject owners x (turn.admitTime?.getD latest) s t := by
  obtain ⟨latest, hlatest, hsame⟩ := h.same
  have hinOrder := h.inOrder
  refine ⟨latest, ?_⟩
  cases htime : turn.admitTime? with
  | none =>
    rw [List.filterMap_cons_none htime] at hlatest
    exact ⟨hlatest, hsame⟩
  | some now =>
    rw [List.filterMap_cons_some htime] at hlatest hinOrder
    exact ⟨(List.pairwise_cons.mp hinOrder).1, hsame.later (hlatest now List.mem_cons_self)⟩

private theorem Alike.inOrder_tail {turn : AccessTurn} {turns : List AccessTurn} {s t : Database}
    (h : Alike owners x (turn :: turns) s t) :
    (turns.filterMap AccessTurn.admitTime?).Pairwise (· ≤ ·) :=
  h.inOrder.sublist ((List.sublist_cons_self turn turns).filterMap _)

/-! ### Turns -/

section Run

variable [Digest] [FloatText] [SqliteReal]

/-- A turn of another project. -/
theorem AccessTurn.spares_run {turn : AccessTurn} (hscoped : turn.Scoped owners)
    (hother : turn.isOf owners x = false) (latest : Int) :
    Spares owners x (turn.admitTime?.getD latest) fun db ↦ turn.run db := by
  obtain ⟨host, scan, call⟩ := turn
  have hscope : call.scope owners ≠ some x := of_decide_eq_false hother
  have hne : ∀ {y : Scope}, call.scope owners = some y → y ≠ x := fun hy heq ↦
    hscope (by rw [hy, heq])
  cases call with
  | listKeys tenant project => exact spares_map _ (spares_listKeys host scan tenant project)
  | projectUsage tenant project => exact spares_map _ (spares_projectUsage host scan tenant project)
  | perform call =>
    refine spares_map AccessReply.reply ?_
    cases call with
    | createProject tenant project rpm keyRps =>
      exact spares_map _ (spares_createProject host (hne rfl) rpm keyRps)
    | issueKey tenant project scopes live expiresAt material =>
      exact spares_map _ (spares_issueKey host (hne rfl) scopes live expiresAt hscoped)
    | revokeKey tenant project keyId => exact spares_map _ (spares_revokeKey host (hne rfl) keyId)
    | authenticate plaintext => exact spares_map _ (spares_authenticate host hscope)
    | admitRequest principal => exact spares_map _ (spares_admitRequest host (hne rfl))
    | recordUsage principal requestId usage =>
      exact spares_map _ (spares_recordUsage host (hne rfl) hscoped usage)
    | purgeMetadata tenant project retentionSeconds limit =>
      exact spares_map _ (spares_purgeMetadata host (hne rfl) retentionSeconds limit)
    | dispatchEvent principal requestId =>
      exact spares_map _ (spares_dispatchEvent host (hne rfl) requestId)

/-- A turn of the project. -/
theorem AccessTurn.reads_run {turn : AccessTurn} (hscoped : turn.Scoped owners)
    (hown : turn.isOf owners x = true) (latest : Int) :
    Reads owners x (turn.admitTime?.getD latest) fun db ↦ turn.run db := by
  obtain ⟨host, scan, call⟩ := turn
  have hscope : call.scope owners = some x := of_decide_eq_true hown
  cases call with
  | listKeys tenant project =>
    exact reads_map _ (reads_listKeys host scan (Option.some.inj hscope))
  | projectUsage tenant project =>
    exact reads_map _ (reads_projectUsage host scan (Option.some.inj hscope))
  | perform call =>
    refine reads_map AccessReply.reply ?_
    cases call with
    | createProject tenant project rpm keyRps =>
      exact reads_map _ (reads_createProject host (Option.some.inj hscope) rpm keyRps)
    | issueKey tenant project scopes live expiresAt material =>
      exact reads_map _
        (reads_issueKey host (Option.some.inj hscope) scopes live expiresAt hscoped)
    | revokeKey tenant project keyId =>
      exact reads_map _ (reads_revokeKey host (Option.some.inj hscope) keyId)
    | authenticate plaintext => exact reads_map _ (reads_authenticate host hscope)
    | admitRequest principal =>
      exact reads_map _ (reads_admitRequest host (Option.some.inj hscope))
    | recordUsage principal requestId usage =>
      exact reads_map _ (reads_recordUsage host (Option.some.inj hscope) hscoped usage)
    | purgeMetadata tenant project retentionSeconds limit =>
      exact reads_map _
        (reads_purgeMetadata host (Option.some.inj hscope) retentionSeconds limit)
    | dispatchEvent principal requestId =>
      exact reads_map _ (reads_dispatchEvent host principal requestId)

/-! ### Runs -/

/-- What a project sees is kept by every turn, and decides the answers to its own. -/
theorem isolates_run :
    Isolates AccessTurn.run (fun turn ↦ turn.isOf owners x) (Alike owners x) where
  answered {turn turns s t} hown h := by
    obtain ⟨latest, hlater, hsame⟩ := h.same_at
    obtain ⟨hanswer, hs, ht, hsame'⟩ := AccessTurn.reads_run (h.idsOwned turn List.mem_cons_self)
      hown latest s t h.owned h.owned' hsame
    exact ⟨hanswer, fun other hother ↦ h.idsOwned other (List.mem_cons_of_mem _ hother),
      h.inOrder_tail, hs, ht, _, hlater, hsame'⟩
  unaffected {turn turns s t} hother h := by
    obtain ⟨latest, hlater, hsame⟩ := h.same_at
    obtain ⟨hs, hspared⟩ := AccessTurn.spares_run (h.idsOwned turn List.mem_cons_self)
      hother latest s h.owned
    exact ⟨fun other hmem ↦ h.idsOwned other (List.mem_cons_of_mem _ hmem), h.inOrder_tail, hs,
      h.owned', _, hlater, hspared.trans hsame⟩

/-- In every run whose ids of keys and of requests are of one project each and whose clock does not
go back, a project is answered as if no other project had made a call, and ends with the same keys,
events and usage. -/
theorem project_isolated (owners : Owners) (x : Scope) (db : Database) (howned : db.Owned owners)
    (turns : List AccessTurn) (hscoped : ∀ turn ∈ turns, turn.Scoped owners)
    (hclock : (turns.filterMap AccessTurn.admitTime?).Pairwise (· ≤ ·)) :
    (replies AccessTurn.run db turns).filter (fun e ↦ e.1.isOf owners x) =
        replies AccessTurn.run db (turns.filter fun turn ↦ turn.isOf owners x) ∧
      ∃ latest, SameProject owners x latest (afterAll AccessTurn.run db turns)
        (afterAll AccessTurn.run db (turns.filter fun turn ↦ turn.isOf owners x)) := by
  have hstart : Alike owners x turns db db := by
    refine ⟨hscoped, hclock, howned, howned, ?_⟩
    cases htimes : turns.filterMap AccessTurn.admitTime? with
    | nil => exact ⟨0, fun time htime ↦ absurd htime List.not_mem_nil, .refl db⟩
    | cons first times =>
      rw [htimes] at hclock
      refine ⟨first, fun time htime ↦ ?_, .refl db⟩
      rcases List.mem_cons.mp htime with rfl | htime
      · exact Int.le_refl _
      · exact (List.pairwise_cons.mp hclock).1 time htime
  obtain ⟨latest, -, hsame⟩ := (isolates_run.afterAll_filter hstart).same
  exact ⟨isolates_run.replies_filter hstart, latest, hsame⟩

end Run

/-! ### Two projects -/

/-- The project `a` and the project `b` of one tenant; only the request `a` is of the first. -/
def twoOwners : Owners where
  key _ := (Text.ofString "t", Text.ofString "a")
  request requestId :=
    if requestId = Text.ofString "a" then (Text.ofString "t", Text.ofString "a")
    else (Text.ofString "t", Text.ofString "b")

/-- Both are created, admitted and used; between the admissions of the first, those of the second
delete its old rows, and the second purges its records. -/
def twoProjects : List AccessTurn :=
  let turn (time : ℚ) (call : Call) : AccessTurn := ⟨⟨fun _ ↦ time, none⟩, .written, .perform call⟩
  let caller (project : String) : Principal :=
    ⟨Text.ofString "t", Text.ofString project, Text.ofString "k", ∅⟩
  let usage : Usage := ⟨Text.ofString "/v1/rank", none, 200, .fin 1, none, none, none, none, none⟩
  [turn 0 (.createProject (Text.ofString "t") (Text.ofString "a") 1 1),
    turn 0 (.createProject (Text.ofString "t") (Text.ofString "b") 1 1),
    turn 0 (.admitRequest (caller "a")),
    turn 0 (.recordUsage (caller "a") (Text.ofString "a") usage),
    turn 0 (.recordUsage (caller "b") (Text.ofString "b") usage),
    turn 300 (.admitRequest (caller "b")),
    turn 300 (.purgeMetadata (Text.ofString "t") (Text.ofString "b") 60 10),
    turn 300 (.admitRequest (caller "a")),
    ⟨⟨fun _ ↦ 300, none⟩, .written, .listKeys (Text.ofString "t") (Text.ofString "a")⟩]

section Plain

attribute [local instance] Digest.rolling FloatText.fraction SqliteReal.fraction

/-- The first project gets five answers, as it does alone. -/
theorem project_isolated_twoProjects :
    let first := (Text.ofString "t", Text.ofString "a")
    (replies AccessTurn.run Database.empty twoProjects).filter (fun e ↦ e.1.isOf twoOwners first) =
        replies AccessTurn.run Database.empty
          (twoProjects.filter fun turn ↦ turn.isOf twoOwners first) ∧
      (twoProjects.filter fun turn ↦ turn.isOf twoOwners first).length = 5 := by
  intro first
  refine ⟨(project_isolated twoOwners first Database.empty ?_ twoProjects ?_ ?_).1, by decide⟩
  · exact Database.Owned.empty twoOwners
  · intro turn hturn
    simp only [twoProjects, List.mem_cons, List.not_mem_nil, or_false] at hturn
    rcases hturn with rfl | rfl | rfl | rfl | rfl | rfl | rfl | rfl | rfl <;> first | rfl | trivial
  · decide +kernel

end Plain

end C3RSpec.ApiAccess

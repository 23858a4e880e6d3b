import C3RSpec.ApiAccess.PgAccess

/-!
# The two access stores answer alike

A simulation between `c3r/api_access.py` and `c3r/pg_access.py`. The tables of the server hold the
rows of the SQLite database in some order; each method keeps that, raises on both sides or
answers alike, and leaves the pool ready for the next call. Rows of listings are compared as
multisets. Nothing else tells the stores apart, as long as no text holds a NUL.
-/

namespace C3RSpec.ApiAccess

open Base Access
open Pg (bind_ok bind_error get_bind modify_bind lift_ok lift_error)

/-! ### Calls on either store -/

/-- A call that both stores have. -/
inductive StoreCall where
  | createProject (tenant project : Text) (rpm keyRps : Int)
  | issueKey (tenant project : Text) (scopes : Finset Text) (live : Bool)
      (expiresAt : Option PyFloat) (material : KeyMaterial)
  | authenticate (plaintext : Text)
  | revokeKey (tenant project keyId : Text)
  | admitRequest (principal : Principal)
  | dispatchEvent (principal : Principal) (requestId : Text)
  | recordUsage (principal : Principal) (requestId : Text) (usage : Usage)
  | projectUsage (tenant project : Text)
  | listKeys (tenant project : Text)

/-- What a call returns. -/
inductive StoreReply where
  | done
  | issued (key : IssuedKey)
  | principal (principal : Option Principal)
  | admitted (answer : Bool)
  | usage (rows : List Json)
  | keys (rows : List KeyListing)

/-- Equal answers, rows in any order. -/
inductive StoreReply.Same : StoreReply → StoreReply → Prop
  | refl (r : StoreReply) : Same r r
  | usage {a b : List Json} (h : a.Perm b) : Same (.usage a) (.usage b)
  | keys {a b : List KeyListing} (h : a.Perm b) : Same (.keys a) (.keys b)

/-- The fields of a principal that are stored. -/
def Principal.texts (p : Principal) : List Text := [p.tenantId, p.projectId, p.keyId]

/-- The texts of a call that reach a statement. -/
def StoreCall.texts : StoreCall → List Text
  | .createProject tenant project _ _ => [tenant, project]
  | .issueKey tenant project _ _ _ _ => [tenant, project]
  | .authenticate _ => []
  | .revokeKey tenant project keyId => [tenant, project, keyId]
  | .admitRequest principal => principal.texts
  | .dispatchEvent principal requestId => requestId :: principal.texts
  | .recordUsage principal requestId _ => requestId :: principal.texts
  | .projectUsage tenant project => [tenant, project]
  | .listKeys tenant project => [tenant, project]

/-- No text of the call holds a NUL. -/
def StoreCall.NulFree (c : StoreCall) : Prop := ∀ t ∈ c.texts, (0 : CodePoint) ∉ t

/-- One call with the readings of the clock, and the order in which each store scans. -/
structure Turn where
  clock : Nat → ℚ
  sqliteScan : Scan
  pgScan : Scan
  call : StoreCall

section Calls

variable [Digest] [FloatText]

/-- A result with its reply. -/
def answer {α S : Type} (reply : α → StoreReply) (x : Except PyError α × S) :
    Except PyError StoreReply × S := (x.1.map reply, x.2)

/-- The call on `AccessStore`. -/
def Turn.onSqlite (t : Turn) (db : Database) : Except PyError StoreReply × Database :=
  match t.call with
  | .createProject tenant project rpm keyRps =>
    answer (fun _ ↦ .done) (createProject ⟨t.clock, none⟩ tenant project rpm keyRps db)
  | .issueKey tenant project scopes live expiresAt material =>
    answer .issued (issueKey ⟨t.clock, none⟩ tenant project scopes live expiresAt material db)
  | .authenticate plaintext => answer .principal (authenticate ⟨t.clock, none⟩ plaintext db)
  | .revokeKey tenant project keyId =>
    answer (fun _ ↦ .done) (revokeKey ⟨t.clock, none⟩ tenant project keyId db)
  | .admitRequest principal => answer .admitted (admitRequest ⟨t.clock, none⟩ principal db)
  | .dispatchEvent principal requestId =>
    answer (fun _ ↦ .done) (dispatchEvent ⟨t.clock, none⟩ principal requestId db)
  | .recordUsage principal requestId usage =>
    answer (fun _ ↦ .done) (recordUsage ⟨t.clock, none⟩ principal requestId usage db)
  | .projectUsage tenant project =>
    answer .usage (projectUsage ⟨t.clock, none⟩ t.sqliteScan tenant project db)
  | .listKeys tenant project =>
    answer .keys (listKeys ⟨t.clock, none⟩ t.sqliteScan tenant project db)

/-- The call on `PostgresAccessStore`. -/
def Turn.onPg (t : Turn) : Pg.PgMethod StoreReply := fun s ↦
  match t.call with
  | .createProject tenant project rpm keyRps =>
    (Pg.createProject tenant project rpm keyRps s).map (answer fun _ ↦ .done)
  | .issueKey tenant project scopes live expiresAt material =>
    (Pg.issueKey t.clock tenant project scopes live expiresAt material s).map (answer .issued)
  | .authenticate plaintext => (Pg.authenticate t.clock plaintext s).map (answer .principal)
  | .revokeKey tenant project keyId =>
    (Pg.revokeKey t.clock tenant project keyId s).map (answer fun _ ↦ .done)
  | .admitRequest principal => (Pg.admitRequest t.clock principal s).map (answer .admitted)
  | .dispatchEvent principal requestId =>
    (Pg.dispatchEvent t.clock principal requestId s).map (answer fun _ ↦ .done)
  | .recordUsage principal requestId usage =>
    (Pg.recordUsage t.clock principal requestId usage s).map (answer fun _ ↦ .done)
  | .projectUsage tenant project =>
    (Pg.projectUsage t.pgScan tenant project s).map (answer .usage)
  | .listKeys tenant project => (Pg.listKeys t.pgScan tenant project s).map (answer .keys)

/-- The answers of `AccessStore` to calls one at a time. -/
def sqliteAnswers (db : Database) : List Turn → List (Except PyError StoreReply)
  | [] => []
  | t :: turns => (t.onSqlite db).1 :: sqliteAnswers (t.onSqlite db).2 turns

/-- The answers of `PostgresAccessStore`; `none` is a call that never returns. -/
def pgAnswers (s : Pg.PgStore) : List Turn → Option (List (Except PyError StoreReply))
  | [] => some []
  | t :: turns => do
    let r ← t.onPg s
    let rest ← pgAnswers r.2 turns
    return r.1 :: rest

end Calls

/-! ### The simulation -/

/-- Both raise, or both return related answers. -/
inductive SameAnswer {α β : Type} (R : α → β → Prop) : Except PyError α → Except PyError β → Prop
  | error (e e' : PyError) : SameAnswer R (.error e) (.error e')
  | ok {a : α} {b : β} (h : R a b) : SameAnswer R (.ok a) (.ok b)

/-- The tables of the server hold the rows of the database. -/
structure Agrees (db : Database) (pg : Pg.PgDatabase) : Prop where
  organizations : pg.organizations = db.organizations
  projects : Table.Represents pg.projects db.projects
  apiKeys : Table.Represents pg.apiKeys db.apiKeys
  quota : Table.Represents pg.quota db.quota
  auditEvents : pg.auditEvents = db.auditEvents
  usageRecords : pg.usageRecords = db.usageRecords

/-- Every connection is idle, and there is room for one. -/
structure Ready (s : Pg.PgStore) : Prop where
  idle : s.idle = s.created
  bounded : s.created ≤ s.size
  positive : 1 ≤ s.size

/-- Transactions that raise on both sides, or answer alike and leave tables that agree. -/
inductive Matches {α β : Type} (R : α → β → Prop) :
    Except PyError (α × Database) → Except PyError (β × Pg.PgDatabase) → Prop
  | error (e e' : PyError) : Matches R (.error e) (.error e')
  | ok {a : α} {b : β} {db : Database} {pg : Pg.PgDatabase} (h : R a b) (hdb : Agrees db pg) :
      Matches R (.ok (a, db)) (.ok (b, pg))

/-- Calls that answer alike and leave stores that agree. -/
def CallMatches {α β : Type} (R : α → β → Prop) (x : Except PyError α × Database)
    (y : Option (Except PyError β × Pg.PgStore)) : Prop :=
  ∃ r s, y = some (r, s) ∧ SameAnswer R x.1 r ∧ Agrees x.2 s.db ∧ Ready s

section Simulation

variable {α β γ δ : Type} {R : α → β → Prop}

/-- A ready pool hands out a connection, and is ready again when it comes back or is closed. -/
private theorem ready_acquire {s : Pg.PgStore} (h : Ready s) :
    ∃ s', Pg.acquire s = some s' ∧ s'.db = s.db ∧ Ready (Pg.discard s') ∧
      ∀ db, Ready (Pg.release { s' with db }) ∧ (Pg.release { s' with db }).db = db := by
  obtain ⟨hidle, hbound, hpos⟩ := h
  unfold Pg.acquire
  split
  · next hsome =>
    refine ⟨_, rfl, rfl, ⟨?_, ?_, hpos⟩, fun db ↦ ?_⟩
    · simp only [Pg.discard]
      omega
    · simp only [Pg.discard]
      omega
    · have hroom : s.idle - 1 < s.size := by omega
      simp only [Pg.release, hroom, if_true]
      refine ⟨⟨?_, hbound, hpos⟩, trivial⟩
      change s.idle - 1 + 1 = s.created
      omega
  · next hnone =>
    have hroom : s.created < s.size := by omega
    rw [if_pos hroom]
    refine ⟨_, rfl, rfl, ⟨?_, ?_, hpos⟩, fun db ↦ ?_⟩
    · simp only [Pg.discard]
      omega
    · simp only [Pg.discard]
      omega
    · have hfree : s.idle < s.size := by omega
      simp only [Pg.release, hfree, if_true]
      refine ⟨⟨?_, ?_, hpos⟩, trivial⟩
      · change s.idle + 1 = s.created + 1
        omega
      · change s.created + 1 ≤ s.size
        omega

/-- A transaction on either side, over a store that is ready. -/
theorem callMatches_connect {db : Database} {s : Pg.PgStore} {body : Txn α} {pgBody : Pg.PgTxn β}
    (hdb : Agrees db s.db) (hs : Ready s) (clock : Nat → ℚ)
    (h : Matches R (body db) (pgBody s.db)) :
    CallMatches R (connect ⟨clock, none⟩ body db) (Pg.withCursor pgBody s) := by
  obtain ⟨s', hacquire, hsame, hdiscard, hrelease⟩ := ready_acquire hs
  rw [Pg.withCursor, hacquire, Option.map_some, hsame, connect]
  generalize body db = x at h
  generalize pgBody s.db = y at h
  cases h with
  | error e e' =>
    refine ⟨_, _, rfl, .error _ _, ?_, hdiscard⟩
    rw [Pg.discard, hsame]
    exact hdb
  | ok hR hdb' =>
    refine ⟨_, _, rfl, .ok hR, ?_, (hrelease _).1⟩
    rw [(hrelease _).2]
    exact hdb'

private theorem callMatches_error {db : Database} {s : Pg.PgStore} (hdb : Agrees db s.db)
    (hs : Ready s) (e e' : PyError) :
    CallMatches R ((.error e, db) : Except PyError α × Database) (some (.error e', s)) :=
  ⟨_, _, rfl, .error e e', hdb, hs⟩

/-- The same check before both methods. -/
private theorem callMatches_checked {db : Database} {s : Pg.PgStore} (hdb : Agrees db s.db)
    (hs : Ready s) {check : Except PyError Unit} {method : Database → Except PyError α × Database}
    {pgMethod : Pg.PgMethod β} (h : check = .ok () → CallMatches R (method db) (pgMethod s)) :
    CallMatches R (checked check method db) (Pg.guarded check pgMethod s) := by
  unfold checked Pg.guarded
  cases check with
  | error e => exact callMatches_error hdb hs e e
  | ok u => exact h rfl

/-- Replies of calls that match. -/
private theorem CallMatches.reply {x : Except PyError α × Database}
    {y : Option (Except PyError β × Pg.PgStore)} (h : CallMatches R x y) {f : α → StoreReply}
    {g : β → StoreReply} (hfg : ∀ a b, R a b → StoreReply.Same (f a) (g b)) :
    CallMatches StoreReply.Same (answer f x) (y.map (answer g)) := by
  obtain ⟨r, s, rfl, hsame, hdb, hs⟩ := h
  refine ⟨r.map g, s, rfl, ?_, hdb, hs⟩
  obtain ⟨x₁, x₂⟩ := x
  cases hsame with
  | error e e' => exact .error e e'
  | ok hR => exact .ok (hfg _ _ hR)

/-! ### Statements -/

private theorem bindParams_error {ts : List Text} {e : PyError} (h : bindTexts ts = .error e)
    (pg : Pg.PgDatabase) : Pg.bindParams ts pg = .error e := by
  rw [Pg.bindParams, h]

private theorem bindParams_ok {ts : List Text} (h : bindTexts ts = .ok ())
    (hnul : ∀ t ∈ ts, (0 : CodePoint) ∉ t) (pg : Pg.PgDatabase) :
    Pg.bindParams ts pg = .ok ((), pg) := by
  have hany : (ts.any fun t ↦ decide (0 ∈ t)) = false := by
    rw [List.any_eq_false]
    intro t ht
    simp [hnul t ht]
  rw [Pg.bindParams, h]
  simp [hany]

/-- Exactly texts without surrogates are bound. -/
theorem bindTexts_eq_ok {ts : List Text} : bindTexts ts = .ok () ↔ ∀ t ∈ ts, Text.IsScalar t := by
  induction ts with
  | nil => simp [bindTexts]
  | cons t ts ih =>
    rw [List.forall_mem_cons, ← ih, ← Text.exists_encodeUtf8_iff, bindTexts]
    cases t.encodeUtf8 with
    | error e => simp
    | ok bytes => simp

private theorem bindTexts_cases (ts : List Text) :
    bindTexts ts = .ok () ∨ ∃ e, bindTexts ts = .error e := by
  cases h : bindTexts ts with
  | ok u => exact .inl rfl
  | error e => exact .inr ⟨e, rfl⟩

/-- The same binding before both statements. -/
private theorem matches_bind {pg : Pg.PgDatabase} (ts : List Text)
    (hnul : ∀ t ∈ ts, (0 : CodePoint) ∉ t) {k : Except PyError (α × Database)}
    {pgK : Unit → Pg.PgTxn β} (h : bindTexts ts = .ok () → Matches R k (pgK () pg)) :
    Matches R (match bindTexts ts with
      | .error e => .error e
      | .ok _ => k) ((Pg.bindParams ts >>= pgK) pg) := by
  obtain hok | ⟨e, he⟩ := bindTexts_cases ts
  · rw [bind_ok (bindParams_ok hok hnul pg), hok]
    exact h hok
  · rw [bind_error (bindParams_error he pg), he]
    exact .error e e

private theorem isScalar_of_identifier {t : Text} (h : identifier t = .ok ()) :
    Text.IsScalar t := by
  have hurl : ∀ {c : CodePoint}, isUrlSafe c = true → c.val < 128 := by
    intro c hc
    simp only [isUrlSafe, Bool.or_eq_true, Bool.and_eq_true, decide_eq_true_eq, beq_iff_eq] at hc
    omega
  apply Text.isScalar_of_isAscii
  unfold identifier at h
  split at h
  · cases h
  · next c rest =>
    split at h
    · next hok =>
      simp only [Bool.and_eq_true] at hok
      obtain ⟨⟨⟨⟨hc, -⟩, -⟩, -⟩, hrest⟩ := hok
      rw [Text.isAscii, List.all_cons, Bool.and_eq_true]
      refine ⟨decide_eq_true (hurl hc), List.all_eq_true.mpr fun d hd ↦ decide_eq_true ?_⟩
      have hd' := List.all_eq_true.mp hrest d hd
      simp only [Bool.or_eq_true, beq_iff_eq] at hd'
      obtain hsafe | hdot := hd'
      · exact hurl hsafe
      · omega
    · cases h

/-! ### Projects and keys -/

private theorem matches_insertProject {db : Database} {pg : Pg.PgDatabase} (h : Agrees db pg)
    {tenant project : Text} (limits : ProjectLimits) (ht : Text.IsScalar tenant)
    (hp : Text.IsScalar project) (hnul : ∀ t ∈ [tenant, project], (0 : CodePoint) ∉ t) :
    Matches Eq (insertProject tenant project limits db) ((do
      Pg.insertOrganization tenant
      Pg.insertProject tenant project limits) pg) := by
  have htenant : bindTexts [tenant] = .ok () := bindTexts_eq_ok.mpr (by simp [ht])
  have hboth : bindTexts [tenant, project] = .ok () := bindTexts_eq_ok.mpr (by simp [ht, hp])
  have hadd : Pg.insertOrganization tenant pg = .ok ((), { pg with
      organizations := if tenant ∈ db.organizations then db.organizations
        else db.organizations ++ [tenant] }) := by
    rw [Pg.insertOrganization,
      bind_ok (bindParams_ok htenant (by simpa using hnul tenant (by simp)) pg)]
    change Except.ok ((), if tenant ∈ pg.organizations then pg else _) = _
    rw [h.organizations]
    split
    · rw [← h.organizations]
    · rfl
  have hmem : tenant ∈ (if tenant ∈ db.organizations then db.organizations
      else db.organizations ++ [tenant]) := by
    split
    · assumption
    · simp
  rw [bind_ok hadd, Pg.insertProject, bind_ok (bindParams_ok hboth hnul _), get_bind,
    h.projects.select_eq]
  unfold insertProject
  dsimp only
  cases hproject : db.projects.get? (tenant, project) with
  | some old => exact .error _ _
  | none =>
    simp only [Option.isSome_none, Bool.false_eq_true, if_false, hmem, not_true]
    exact .ok rfl ⟨rfl, h.projects.append hproject limits, h.apiKeys, h.quota, h.auditEvents,
      h.usageRecords⟩

private theorem callMatches_createProject {db : Database} {s : Pg.PgStore} (h : Agrees db s.db)
    (hs : Ready s) (clock : Nat → ℚ) {tenant project : Text}
    (hnul : ∀ t ∈ [tenant, project], (0 : CodePoint) ∉ t) (rpm keyRps : Int) :
    CallMatches Eq (createProject ⟨clock, none⟩ tenant project rpm keyRps db)
      (Pg.createProject tenant project rpm keyRps s) := by
  refine callMatches_checked h hs fun ht ↦ callMatches_checked h hs fun hp ↦ ?_
  split
  · exact callMatches_connect h hs clock (matches_insertProject h _ (isScalar_of_identifier ht)
      (isScalar_of_identifier hp) hnul)
  · exact callMatches_error h hs _ _

/-- An audit event on the server, for texts that can be bound. -/
private theorem insertEvent_eq (tenant project keyId : Text) (action : AuditAction)
    (requestId : Option Text) (time : ℚ)
    (hscalar : ∀ t ∈ [tenant, project, keyId] ++ requestId.toList, Text.IsScalar t)
    (hnul : ∀ t ∈ [tenant, project, keyId] ++ requestId.toList, (0 : CodePoint) ∉ t)
    (pg : Pg.PgDatabase) :
    Pg.insertEvent tenant project keyId action requestId time pg = .ok ((), { pg with
      auditEvents := pg.auditEvents ++ [⟨tenant, project, keyId, action, requestId, time⟩] }) := by
  rw [Pg.insertEvent, bind_ok (bindParams_ok (bindTexts_eq_ok.mpr hscalar) hnul pg)]
  rfl

private theorem hex_bound {t : Text} (h : t.all isHexChar = true) :
    Text.IsScalar t ∧ (0 : CodePoint) ∉ t := by
  refine ⟨Text.isScalar_of_isAscii (isAscii_of_hex h), fun hzero ↦ ?_⟩
  have := List.all_eq_true.mp h 0 hzero
  exact absurd this (by decide)

private theorem matches_insertKey [Digest] [FloatText] {db : Database} {pg : Pg.PgDatabase}
    (h : Agrees db pg) (clock : Nat → ℚ) {tenant project : Text} (scopes : Finset Text)
    (expiresAt : Option PyFloat) (material : KeyMaterial) (digest : Text)
    (hnul : ∀ t ∈ [tenant, project], (0 : CodePoint) ∉ t) :
    Matches Eq (insertKey ⟨clock, none⟩ tenant project scopes expiresAt material digest db)
      (Pg.insertKey clock tenant project scopes expiresAt material digest pg) := by
  obtain ⟨hhex, hzero⟩ := hex_bound material.isHex_keyId
  unfold insertKey Pg.insertKey Pg.insertKeyRow
  rw [bind_assoc]
  refine matches_bind _ hnul fun hbind ↦ ?_
  rw [bind_assoc, get_bind, h.apiKeys.select_eq, h.projects.select_eq]
  have hscalar := bindTexts_eq_ok.mp hbind
  cases hkey : db.apiKeys.get? material.keyId with
  | some old => exact .error _ _
  | none =>
    cases hproject : db.projects.get? (tenant, project) with
    | none => exact .error _ _
    | some limits =>
      simp only [Option.isSome_none, Option.isNone_some, Bool.false_eq_true, if_false]
      rw [bind_ok (x := set _) rfl, insertEvent_eq _ _ _ _ _ _ (by simp_all) (by simp_all)]
      exact .ok rfl ⟨h.organizations, h.projects, h.apiKeys.append hkey _, h.quota,
        congrArg (· ++ _) h.auditEvents, h.usageRecords⟩

private theorem callMatches_issueKey [Digest] [FloatText] {db : Database} {s : Pg.PgStore}
    (h : Agrees db s.db) (hs : Ready s) (clock : Nat → ℚ) {tenant project : Text}
    (hnul : ∀ t ∈ [tenant, project], (0 : CodePoint) ∉ t) (scopes : Finset Text) (live : Bool)
    (expiresAt : Option PyFloat) (material : KeyMaterial) :
    CallMatches Eq (issueKey ⟨clock, none⟩ tenant project scopes live expiresAt material db)
      (Pg.issueKey clock tenant project scopes live expiresAt material s) := by
  refine callMatches_checked h hs fun _ ↦ ?_
  unfold mintKey
  cases saltedDigest material.salt (keyText live material.keyId material.tail) with
  | error e => exact callMatches_error h hs e e
  | ok digest =>
    obtain ⟨r, s', hpg, hsame, hdb, hs'⟩ := callMatches_connect h hs clock
      (matches_insertKey h clock scopes expiresAt material digest hnul)
    dsimp only
    rw [hpg]
    generalize connect ⟨clock, none⟩ _ db = x at hsame hdb ⊢
    obtain ⟨x₁, x₂⟩ := x
    cases hsame with
    | error e e' => exact ⟨_, s', rfl, .error e e', hdb, hs'⟩
    | ok hR => exact ⟨_, s', rfl, .ok rfl, hdb, hs'⟩

private theorem isHex_of_matchKey {t keyId : Text} (h : matchKey t = some keyId) :
    keyId.all isHexChar = true := by
  unfold matchKey at h
  dsimp only at h
  split at h
  · next hform =>
    cases h
    exact hform.2.2.2.2.1
  · cases h

/-- The checks of both stores on a row are the same. -/
private theorem selectPrincipal_eq [Digest] [FloatText] {db : Database} (clock : Nat → ℚ)
    (plaintext : Text) {keyId : Text} {row : KeyRow} (hrow : db.apiKeys.get? keyId = some row) :
    selectPrincipal ⟨clock, none⟩ plaintext keyId db =
      (Pg.acceptsKey clock plaintext row >>= fun accepted ↦
        if !accepted then .ok (none, db)
        else scopesOf row.scopes >>= fun scopes ↦
          .ok (some ⟨row.tenant, row.project, keyId, scopes⟩, { db with
            apiKeys :=
              db.apiKeys.insert keyId { row with lastUsedAt := some (usedAt clock row) } })) := by
  simp only [selectPrincipal, hrow, Pg.acceptsKey]
  cases bytesFromHex row.salt with
  | error e => rfl
  | ok salt =>
    change _ = ((saltedDigest salt plaintext >>= _) >>= _)
    dsimp only
    cases saltedDigest salt plaintext with
    | error e => rfl
    | ok actual =>
      change _ = ((compareDigest row.digest actual >>= _) >>= _)
      dsimp only
      cases compareDigest row.digest actual with
      | error e => rfl
      | ok same =>
        change _ = if !(same && !row.revoked && !hasExpired (clock 0) row.expiresAt) then _ else _
        have hsame : (!same || row.revoked || hasExpired (clock 0) row.expiresAt) =
            !(same && !row.revoked && !hasExpired (clock 0) row.expiresAt) := by
          simp [Bool.not_and]
        dsimp only
        rw [hsame]
        split
        · rfl
        · cases scopesOf row.scopes <;> rfl

private theorem matches_selectPrincipal [Digest] [FloatText] {db : Database}
    {pg : Pg.PgDatabase} (h : Agrees db pg) (clock : Nat → ℚ) (plaintext : Text) {keyId : Text}
    (hhex : keyId.all isHexChar = true) :
    Matches Eq (selectPrincipal ⟨clock, none⟩ plaintext keyId db)
      (Pg.selectPrincipal clock plaintext keyId pg) := by
  obtain ⟨hscalar, hzero⟩ := hex_bound hhex
  have hbind : bindTexts [keyId] = .ok () := bindTexts_eq_ok.mpr (by simp [hscalar])
  rw [Pg.selectPrincipal, bind_ok (bindParams_ok hbind (by simp [hzero]) pg), get_bind,
    h.apiKeys.select_eq]
  cases hrow : db.apiKeys.get? keyId with
  | none =>
    rw [selectPrincipal, hrow]
    exact .ok rfl h
  | some row =>
    rw [selectPrincipal_eq clock plaintext hrow]
    dsimp only
    cases haccepts : Pg.acceptsKey clock plaintext row with
    | error e => exact .error e e
    | ok accepted =>
      rw [lift_ok rfl]
      change Matches Eq (if !accepted then _ else _) _
      cases accepted with
      | false => exact .ok rfl h
      | true =>
        simp only [Bool.not_true, Bool.false_eq_true, if_false]
        rw [modify_bind]
        cases scopesOf row.scopes with
        | error e => exact .error e e
        | ok scopes =>
          have hkeys := h.apiKeys.update_eq hrow (p := fun id _ ↦ decide (id = keyId))
            (fun a _ _ ↦ decide_eq_true_iff)
            fun stored ↦ { stored with lastUsedAt := some (usedAt clock row) }
          exact .ok rfl ⟨h.organizations, h.projects, hkeys, h.quota, h.auditEvents,
            h.usageRecords⟩

private theorem callMatches_authenticate [Digest] [FloatText] {db : Database} {s : Pg.PgStore}
    (h : Agrees db s.db) (hs : Ready s) (clock : Nat → ℚ) (plaintext : Text) :
    CallMatches Eq (authenticate ⟨clock, none⟩ plaintext db)
      (Pg.authenticate clock plaintext s) := by
  unfold authenticate Pg.authenticate
  cases hkey : matchKey plaintext with
  | none => exact ⟨_, _, rfl, .ok rfl, h, hs⟩
  | some keyId =>
    exact callMatches_connect h hs clock
      (matches_selectPrincipal h clock plaintext (isHex_of_matchKey hkey))

private theorem matches_updateRevoked {db : Database} {pg : Pg.PgDatabase} (h : Agrees db pg)
    (clock : Nat → ℚ) {tenant project keyId : Text}
    (hnul : ∀ t ∈ [tenant, project, keyId], (0 : CodePoint) ∉ t) :
    Matches Eq (updateRevoked ⟨clock, none⟩ tenant project keyId db)
      (Pg.updateRevoked clock tenant project keyId pg) := by
  have hcond : ∀ a b, Pg.isKeyOf tenant project keyId a b = true → a = keyId := by
    intro a b hab
    simp only [Pg.isKeyOf, Bool.and_eq_true, decide_eq_true_eq] at hab
    exact hab.2
  unfold updateRevoked Pg.updateRevoked
  refine matches_bind _ hnul fun hbind ↦ ?_
  rw [get_bind, bind_ok (x := set _) rfl, h.apiKeys.count_eq hcond]
  have hscalar := bindTexts_eq_ok.mp hbind
  cases hrow : db.apiKeys.get? keyId with
  | none => exact .error _ _
  | some row =>
    rw [Option.any_some]
    by_cases hplace : row.tenant = tenant ∧ row.project = project
    · have hmatch : Pg.isKeyOf tenant project keyId keyId row = true := by
        simp [Pg.isKeyOf, hplace]
      simp only [hmatch, if_true, ne_eq, not_true, if_false, if_pos hplace]
      rw [insertEvent_eq _ _ _ _ _ _ (by simp_all) (by simp_all)]
      have hone : ∀ a b, db.apiKeys.get? a = some b →
          (Pg.isKeyOf tenant project keyId a b = true ↔ a = keyId) := by
        intro a b hab
        refine ⟨hcond a b, ?_⟩
        rintro rfl
        rw [hrow] at hab
        cases hab
        exact hmatch
      have hkeys := h.apiKeys.update_eq hrow hone fun row ↦ { row with revoked := true }
      exact .ok rfl ⟨h.organizations, h.projects, hkeys, h.quota,
        congrArg (· ++ _) h.auditEvents, h.usageRecords⟩
    · have hmatch : Pg.isKeyOf tenant project keyId keyId row = false := by
        simpa [Pg.isKeyOf] using hplace
      simp only [hmatch, if_neg hplace]
      exact .error _ _

private theorem matches_selectKeys {db : Database} {pg : Pg.PgDatabase} (h : Agrees db pg)
    (scan pgScan : Scan) {tenant project : Text}
    (hnul : ∀ t ∈ [tenant, project], (0 : CodePoint) ∉ t) :
    Matches List.Perm (selectKeys scan tenant project db)
      (Pg.selectKeys pgScan tenant project pg) := by
  unfold selectKeys Pg.selectKeys
  refine matches_bind _ hnul fun _ ↦ ?_
  refine .ok ?_ h
  refine (scan.perm _).trans (List.Perm.trans ?_ (pgScan.perm _).symm)
  exact ((List.Perm.symm h.apiKeys).filter _).map _

/-! ### Events and usage -/

private theorem matches_insertDispatch {db : Database} {pg : Pg.PgDatabase} (h : Agrees db pg)
    (clock : Nat → ℚ) (principal : Principal) (requestId : Text)
    (hnul : ∀ t ∈ requestId :: principal.texts, (0 : CodePoint) ∉ t) :
    Matches Eq (insertDispatch ⟨clock, none⟩ principal requestId db)
      (Pg.insertEvent principal.tenantId principal.projectId principal.keyId .requestDispatch
        (some requestId) (clock 0) pg) := by
  unfold insertDispatch Pg.insertEvent
  refine matches_bind [principal.tenantId, principal.projectId, principal.keyId, requestId]
    ?_ fun _ ↦ ?_
  · intro t ht
    apply hnul
    simp only [Principal.texts, List.mem_cons, List.not_mem_nil, or_false] at ht ⊢
    tauto
  · exact .ok rfl ⟨h.organizations, h.projects, h.apiKeys, h.quota,
      congrArg (· ++ _) h.auditEvents, h.usageRecords⟩

private theorem matches_insertUsage {db : Database} {pg : Pg.PgDatabase} (h : Agrees db pg)
    (principal : Principal) (requestId : Text) (metadata : Json)
    (hnul : ∀ t ∈ requestId :: principal.texts, (0 : CodePoint) ∉ t) :
    Matches Eq (insertUsage principal requestId metadata db)
      (Pg.insertUsage principal requestId metadata pg) := by
  unfold insertUsage Pg.insertUsage
  cases hwritten : checkWritten metadata with
  | error e =>
    rw [lift_error rfl]
    exact .error _ _
  | ok _ =>
    rw [lift_ok rfl]
    refine matches_bind _ hnul fun _ ↦ ?_
    rw [get_bind, h.usageRecords]
    split
    · exact .error _ _
    · exact .ok rfl ⟨h.organizations, h.projects, h.apiKeys, h.quota, h.auditEvents, rfl⟩

/-- A loop over rows raises in one order exactly when it raises in another. -/
private theorem sameAnswer_mapM {f : γ → Except PyError δ} {xs ys : List γ} (h : xs.Perm ys) :
    SameAnswer List.Perm (xs.mapM f) (ys.mapM f) := by
  induction h with
  | nil => exact .ok .nil
  | cons x hperm ih =>
    rw [List.mapM_cons, List.mapM_cons]
    cases f x with
    | error e => exact .error e e
    | ok a =>
      revert ih
      generalize List.mapM f _ = x
      generalize List.mapM f _ = y
      intro ih
      cases ih with
      | error e e' => exact .error e e'
      | ok hrest => exact .ok (hrest.cons a)
  | swap x y rest =>
    simp only [List.mapM_cons]
    cases f x with
    | error e =>
      cases f y with
      | error e' => exact .error e' e
      | ok b => exact .error e e
    | ok a =>
      cases f y with
      | error e' => exact .error e' e'
      | ok b =>
        cases rest.mapM f with
        | error e => exact .error e e
        | ok as => exact .ok (.swap a b as)
  | trans _ _ ih ih' =>
    revert ih ih'
    generalize List.mapM f _ = x
    generalize List.mapM f _ = y
    generalize List.mapM f _ = z
    intro ih ih'
    cases ih with
    | error e e' =>
      cases ih' with
      | error _ e'' => exact .error e e''
    | ok hab =>
      cases ih' with
      | ok hbc => exact .ok (hab.trans hbc)

private theorem matches_selectUsage [FloatText] {db : Database} {pg : Pg.PgDatabase}
    (h : Agrees db pg) (scan pgScan : Scan) {tenant project : Text}
    (hnul : ∀ t ∈ [tenant, project], (0 : CodePoint) ∉ t) :
    Matches List.Perm (selectUsage scan tenant project db)
      (Pg.selectUsage pgScan tenant project pg) := by
  unfold selectUsage Pg.selectUsage
  refine matches_bind _ hnul fun _ ↦ ?_
  rw [get_bind, h.usageRecords]
  have hrows := sameAnswer_mapM (f := readMetadata) (((scan.perm (db.usageRecords.filter fun r ↦
    decide (r.tenant = tenant) && decide (r.project = project))).trans
      (pgScan.perm _).symm).map UsageRecord.metadata)
  dsimp only
  revert hrows
  generalize List.mapM readMetadata _ = x
  generalize List.mapM readMetadata _ = y
  intro hrows
  cases hrows with
  | error e e' => exact .error e e'
  | ok hperm => exact .ok hperm h

/-! ### Admission -/

/-- The row of a request has reached its limit. -/
private def isFull (quota : Dict QuotaRow Nat) (q : QuotaRequest) : Bool :=
  decide (q.limit ≤ (quota.get? q.row).getD 0) && (quota.get? q.row).isSome

/-- One more request in a row. -/
private def countUp (quota : Dict QuotaRow Nat) (q : QuotaRequest) : Dict QuotaRow Nat :=
  quota.insert q.row ((quota.get? q.row).getD 0 + 1)

/-- The texts of a request can be bound. -/
private def Bindable (q : QuotaRequest) : Prop :=
  ∀ t ∈ [q.row.tenant, q.row.project, q.row.keyId], Text.IsScalar t ∧ (0 : CodePoint) ∉ t

private theorem bindParams_request {q : QuotaRequest} (h : Bindable q) (pg : Pg.PgDatabase) :
    Pg.bindParams [q.row.tenant, q.row.project, q.row.keyId] pg = .ok ((), pg) :=
  bindParams_ok (bindTexts_eq_ok.mpr fun t ht ↦ (h t ht).1) (fun t ht ↦ (h t ht).2) pg

private theorem checkRequests_eq {quota : Dict QuotaRow Nat} {pg : Pg.PgDatabase}
    (h : Table.Represents pg.quota quota) {requests : List QuotaRequest}
    (hbind : ∀ q ∈ requests, Bindable q) :
    Pg.checkRequests requests pg = .ok (!requests.any (isFull quota), pg) := by
  induction requests with
  | nil => rfl
  | cons q rest ih =>
    have hrest := ih fun p hp ↦ hbind p (List.mem_cons_of_mem _ hp)
    rw [Pg.checkRequests, bind_ok (bindParams_request (hbind q (List.mem_cons_self ..)) pg),
      get_bind, h.select_eq, List.any_cons, isFull]
    cases quota.get? q.row with
    | none =>
      simp only [Option.isSome_none, Bool.and_false, Bool.false_or]
      exact hrest
    | some count =>
      simp only [Option.getD_some, Option.isSome_some, Bool.and_true]
      split
      · next hfull =>
        rw [decide_eq_true hfull, Bool.true_or]
        rfl
      · next hfull =>
        rw [decide_eq_false hfull, Bool.false_or]
        exact hrest

private theorem recordRequests_eq {requests : List QuotaRequest} {quota : Dict QuotaRow Nat}
    {pg : Pg.PgDatabase} (h : Table.Represents pg.quota quota)
    (hbind : ∀ q ∈ requests, Bindable q) :
    ∃ rows, Pg.recordRequests requests pg = .ok ((), { pg with quota := rows }) ∧
      Table.Represents rows (requests.foldl countUp quota) := by
  induction requests generalizing quota pg with
  | nil => exact ⟨pg.quota, rfl, h⟩
  | cons q rest ih =>
    have hcount : ((quota.get? q.row).map (· + 1)).getD 1 = (quota.get? q.row).getD 0 + 1 := by
      cases quota.get? q.row <;> rfl
    have hone : Table.Represents (Table.upsert q.row 1 (· + 1) pg.quota) (countUp quota q) := by
      rw [countUp, ← hcount]
      exact h.upsert_eq q.row 1 (· + 1)
    obtain ⟨rows, hrun, hrows⟩ := @ih _ { pg with quota := pg.quota.upsert q.row 1 (· + 1) }
      hone fun p hp ↦ hbind p (List.mem_cons_of_mem _ hp)
    refine ⟨rows, ?_, hrows⟩
    rw [Pg.recordRequests, bind_ok (bindParams_request (hbind q (List.mem_cons_self ..)) pg),
      modify_bind]
    exact hrun

private theorem matches_countRequest {db : Database} {pg : Pg.PgDatabase} (h : Agrees db pg)
    (now : Int) (principal : Principal)
    (hnul : ∀ t ∈ principal.texts, (0 : CodePoint) ∉ t) :
    Matches Eq (countRequest now principal db) (Pg.countRequest now principal pg) := by
  have hplace : ∀ t ∈ [principal.tenantId, principal.projectId], (0 : CodePoint) ∉ t :=
    fun t ht ↦ hnul t (by simp only [Principal.texts, List.mem_cons] at ht ⊢; tauto)
  unfold countRequest Pg.countRequest
  refine matches_bind _ hplace fun hbind ↦ ?_
  rw [get_bind, h.projects.select_eq]
  have hscalar := bindTexts_eq_ok.mp hbind
  cases db.projects.get? (principal.tenantId, principal.projectId) with
  | none => exact .ok rfl h
  | some limits =>
    dsimp only
    obtain hkey | ⟨e, hkey⟩ := bindTexts_cases [principal.keyId]
    · have hbindable : ∀ q ∈ quotaRequests principal now limits, Bindable q := by
        have hkeyScalar := bindTexts_eq_ok.mp hkey principal.keyId (List.mem_singleton_self _)
        have htenant := hscalar principal.tenantId (by simp)
        have hproject := hscalar principal.projectId (by simp)
        intro q hq t ht
        simp only [quotaRequests, requests, keyRow, projectRow, List.mem_cons, List.not_mem_nil,
          or_false] at hq
        obtain rfl | rfl := hq
        · simp only [List.mem_cons, List.not_mem_nil, or_false] at ht
          refine ⟨?_, hnul t (by simpa [Principal.texts] using ht)⟩
          obtain rfl | rfl | rfl := ht <;> assumption
        · simp only [List.mem_cons, List.not_mem_nil, or_false] at ht
          obtain rfl | rfl | rfl := ht
          · exact ⟨htenant, hplace _ (by simp)⟩
          · exact ⟨hproject, hplace _ (by simp)⟩
          · exact ⟨fun c hc ↦ absurd hc List.not_mem_nil, List.not_mem_nil⟩
      rw [hkey, bind_ok (checkRequests_eq h.quota hbindable)]
      dsimp only
      change Matches Eq (if (quotaRequests principal now limits).any (isFull db.quota) = true then _
        else _) _
      cases (quotaRequests principal now limits).any (isFull db.quota) with
      | true => exact .ok rfl h
      | false =>
        obtain ⟨rows, hrun, hrows⟩ := recordRequests_eq h.quota hbindable
        simp only [Bool.not_false, Bool.not_true, Bool.false_eq_true, if_false]
        rw [bind_ok hrun, modify_bind]
        have hdelete := hrows.delete_eq fun row _ ↦ decide (row.windowStart < now - 120)
        have hkeep : (fun (row : QuotaRow) (_ : Nat) ↦ !decide (row.windowStart < now - 120)) =
            fun row _ ↦ decide (now - 120 ≤ row.windowStart) := by
          funext row _
          simp only [← decide_not, Int.not_lt]
        rw [hkeep] at hdelete
        exact .ok rfl ⟨h.organizations, h.projects, h.apiKeys, hdelete, h.auditEvents,
          h.usageRecords⟩
    · -- the key is first bound by the check of its own row
      have hall : ∃ e', bindTexts [principal.tenantId, principal.projectId, principal.keyId] =
          .error e' := by
        obtain hok | herror := bindTexts_cases
          [principal.tenantId, principal.projectId, principal.keyId]
        · have hscalar' := bindTexts_eq_ok.mp hok principal.keyId (by simp)
          rw [bindTexts_eq_ok.mpr (by simpa using hscalar')] at hkey
          cases hkey
        · exact herror
      obtain ⟨e', hall⟩ := hall
      have hcheck : Pg.checkRequests (quotaRequests principal now limits) pg = .error e' := by
        rw [quotaRequests, requests, Pg.checkRequests]
        exact bind_error (bindParams_error hall pg)
      rw [hkey, bind_error hcheck]
      exact .error e e'

/-! ### Whole runs -/

/-- One call of either store. -/
theorem callMatches_turn [Digest] [FloatText] (t : Turn) (hnul : t.call.NulFree) {db : Database}
    {s : Pg.PgStore} (h : Agrees db s.db) (hs : Ready s) :
    CallMatches StoreReply.Same (t.onSqlite db) (t.onPg s) := by
  have hsame : ∀ {κ : Type} (f : κ → StoreReply) (a b : κ), a = b →
      StoreReply.Same (f a) (f b) := by
    rintro κ f a b rfl
    exact .refl _
  unfold Turn.onSqlite Turn.onPg
  unfold StoreCall.NulFree at hnul
  cases hcall : t.call with
  | createProject tenant project rpm keyRps =>
    rw [hcall] at hnul
    exact (callMatches_createProject h hs t.clock hnul rpm keyRps).reply (hsame _)
  | issueKey tenant project scopes live expiresAt material =>
    rw [hcall] at hnul
    exact (callMatches_issueKey h hs t.clock hnul scopes live expiresAt material).reply (hsame _)
  | authenticate plaintext =>
    exact (callMatches_authenticate h hs t.clock plaintext).reply (hsame _)
  | revokeKey tenant project keyId =>
    rw [hcall] at hnul
    exact (callMatches_connect h hs t.clock (matches_updateRevoked h t.clock hnul)).reply (hsame _)
  | admitRequest principal =>
    rw [hcall] at hnul
    exact (callMatches_connect h hs t.clock (matches_countRequest h _ principal hnul)).reply
      (hsame _)
  | dispatchEvent principal requestId =>
    rw [hcall] at hnul
    exact (callMatches_connect h hs t.clock
      (matches_insertDispatch h t.clock principal requestId hnul)).reply (hsame _)
  | recordUsage principal requestId usage =>
    rw [hcall] at hnul
    exact (callMatches_connect h hs t.clock
      (matches_insertUsage h principal requestId _ hnul)).reply (hsame _)
  | projectUsage tenant project =>
    rw [hcall] at hnul
    exact (callMatches_connect h hs t.clock
      (matches_selectUsage h t.sqliteScan t.pgScan hnul)).reply fun _ _ ↦ .usage
  | listKeys tenant project =>
    rw [hcall] at hnul
    exact (callMatches_connect h hs t.clock
      (matches_selectKeys h t.sqliteScan t.pgScan hnul)).reply fun _ _ ↦ .keys

private theorem answers_agree [Digest] [FloatText] {turns : List Turn}
    (hnul : ∀ t ∈ turns, t.call.NulFree) {db : Database} {s : Pg.PgStore} (h : Agrees db s.db)
    (hs : Ready s) :
    ∃ answers, pgAnswers s turns = some answers ∧
      List.Forall₂ (SameAnswer StoreReply.Same) (sqliteAnswers db turns) answers := by
  induction turns generalizing db s with
  | nil => exact ⟨[], rfl, .nil⟩
  | cons t turns ih =>
    obtain ⟨r, s', hpg, hsame, hdb, hs'⟩ :=
      callMatches_turn t (hnul t (List.mem_cons_self ..)) h hs
    obtain ⟨answers, hanswers, hall⟩ :=
      ih (fun u hu ↦ hnul u (List.mem_cons_of_mem _ hu)) hdb hs'
    refine ⟨r :: answers, ?_, .cons hsame hall⟩
    rw [pgAnswers, hpg]
    change (pgAnswers s' turns >>= _) = _
    rw [hanswers]
    rfl

end Simulation

/-- Calls one at a time on two new stores, under the same clock and with the same generated keys:
the PostgreSQL store returns from every call, raises on the calls on which the SQLite store raises
and answers the others alike. -/
theorem stores_agree [Digest] [FloatText] {poolSize : Nat} (hpool : 1 ≤ poolSize)
    {turns : List Turn} (hnul : ∀ t ∈ turns, t.call.NulFree) :
    ∃ answers, pgAnswers (Pg.connected poolSize) turns = some answers ∧
      List.Forall₂ (SameAnswer StoreReply.Same) (sqliteAnswers .empty turns) answers :=
  answers_agree hnul ⟨rfl, .empty, .empty, .empty, rfl, rfl⟩ ⟨rfl, hpool, hpool⟩

/-- A clock that stands still, over stores that scan in the order of writing. -/
def plainTurn (call : StoreCall) : Turn := ⟨fun _ ↦ 1000, .written, .written, call⟩

/-- A project twice, a listing and an admission: the second creation raises on both. -/
theorem stores_agree_duplicate :
    ∃ answers, @pgAnswers Digest.transparent FloatText.fraction (Pg.connected 8)
        [plainTurn (.createProject "acme" "web" 60 10),
          plainTurn (.createProject "acme" "web" 60 10), plainTurn (.listKeys "acme" "web"),
          plainTurn (.admitRequest ⟨"acme", "web", "k", ∅⟩)] = some answers ∧
      List.Forall₂ (SameAnswer StoreReply.Same)
        (@sqliteAnswers Digest.transparent FloatText.fraction .empty
          [plainTurn (.createProject "acme" "web" 60 10),
            plainTurn (.createProject "acme" "web" 60 10), plainTurn (.listKeys "acme" "web"),
            plainTurn (.admitRequest ⟨"acme", "web", "k", ∅⟩)]) answers := by
  refine @stores_agree Digest.transparent FloatText.fraction 8 (by decide) _ ?_
  have hfree : ∀ t ∈ [Text.ofString "acme", Text.ofString "web", Text.ofString "k"],
      (0 : CodePoint) ∉ t := by decide
  intro t ht u hu
  apply hfree
  simp only [List.mem_cons, List.not_mem_nil, or_false] at ht
  obtain rfl | rfl | rfl | rfl := ht <;>
    simp only [plainTurn, StoreCall.texts, Principal.texts, List.mem_cons, List.not_mem_nil,
      or_false] at hu ⊢ <;> tauto

end C3RSpec.ApiAccess

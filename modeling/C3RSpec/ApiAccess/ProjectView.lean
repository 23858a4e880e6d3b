import C3RSpec.ApiAccess.CredentialHistory
import C3RSpec.ApiAccess.QuotaExactness

/-!
# What a project sees of the store

`c3r/api_access.py:47–255`. All projects of all tenants share six tables. A method that is called
for one project leaves alone what another sees of them, and answers from what its own project sees.
-/

namespace C3RSpec.ApiAccess

open Base Access

/-! ### Rows of a project -/

/-- A tenant and one of its projects. -/
abbrev Scope := Text × Text

/-- Which project an id of a key and an id of a request belong to. -/
structure Owners where
  key : Text → Scope
  request : Text → Scope

variable (owners : Owners)

/-- An event of the project. -/
def isEventOf (x : Scope) (e : AuditEvent) : Bool := decide ((e.tenant, e.project) = x)

/-- A usage record of the project. -/
def isUsageOf (x : Scope) (r : UsageRecord) : Bool := decide ((r.tenant, r.project) = x)

/-- An id of a key of the project. -/
def Owners.isKeyOf (x : Scope) (keyId : Text) : Bool := decide (owners.key keyId = x)

/-- Every row of a key or of a request is written for the project of its id. -/
structure Database.Owned (db : Database) : Prop where
  keys : ∀ keyId row, db.apiKeys.get? keyId = some row →
    (row.tenant, row.project) = owners.key keyId
  usage : ∀ r ∈ db.usageRecords, (r.tenant, r.project) = owners.request r.requestId

/-- A new database has no rows. -/
theorem Database.Owned.empty : Database.empty.Owned owners where
  keys _ _ hrow := absurd hrow (Option.some_ne_none _).symm
  usage _ hr := absurd hr List.not_mem_nil

/-- Two databases that hold the same of a project, but for quota windows that no admission after
`latest` reads. -/
structure SameProject (x : Scope) (latest : Int) (s t : Database) : Prop where
  limits : s.projects.get? x = t.projects.get? x
  keys : s.apiKeys.filterEntries (fun keyId _ ↦ owners.isKeyOf x keyId) =
    t.apiKeys.filterEntries fun keyId _ ↦ owners.isKeyOf x keyId
  quota : ∀ row : QuotaRow, (row.tenant, row.project) = x → latest - 120 ≤ row.windowStart →
    s.used row = t.used row
  events : s.auditEvents.filter (isEventOf x) = t.auditEvents.filter (isEventOf x)
  usage : s.usageRecords.filter (isUsageOf x) = t.usageRecords.filter (isUsageOf x)

variable {owners} {x : Scope} {latest : Int} {s t u : Database}

namespace SameProject

/-- A database holds what it holds. -/
theorem refl (s : Database) : SameProject owners x latest s s :=
  ⟨rfl, rfl, fun _ _ _ ↦ rfl, rfl, rfl⟩

/-- What holds the same holds the same as the third. -/
theorem trans (h : SameProject owners x latest s t) (h' : SameProject owners x latest t u) :
    SameProject owners x latest s u where
  limits := h.limits.trans h'.limits
  keys := h.keys.trans h'.keys
  quota row hrow hlate := (h.quota row hrow hlate).trans (h'.quota row hrow hlate)
  events := h.events.trans h'.events
  usage := h.usage.trans h'.usage

/-- Time passes. -/
theorem later (h : SameProject owners x latest s t) {now : Int} (hnow : latest ≤ now) :
    SameProject owners x now s t where
  limits := h.limits
  keys := h.keys
  quota row hrow hlate := h.quota row hrow (by omega)
  events := h.events
  usage := h.usage

/-- The project has the same limits in both. -/
theorem get?_project (h : SameProject owners x latest s t) {tenant project : Text}
    (hown : (tenant, project) = x) :
    s.projects.get? (tenant, project) = t.projects.get? (tenant, project) := by
  rw [hown]
  exact h.limits

/-- A key of the project is found in both. -/
theorem get?_key (h : SameProject owners x latest s t) {keyId : Text}
    (hkey : owners.key keyId = x) : s.apiKeys.get? keyId = t.apiKeys.get? keyId := by
  have hboth := congrArg (·.get? keyId) h.keys
  simp only [Dict.get?_filterEntries, Owners.isKeyOf, hkey, decide_true] at hboth
  have hall : ∀ row : Option KeyRow, row.filter (fun _ ↦ true) = row := fun row ↦ by
    cases row <;> rfl
  rwa [hall, hall] at hboth

end SameProject

/-! ### Methods that leave a project alone, and methods that answer it alike -/

/-- Methods of a store. -/
abbrev Method (α : Type) := Database → Except PyError α × Database

variable (owners x latest) in
/-- The method does not touch what the project sees. -/
def Spares {α : Type} (method : Method α) : Prop :=
  ∀ db : Database, db.Owned owners →
    (method db).2.Owned owners ∧ SameProject owners x latest (method db).2 db

variable (owners x latest) in
/-- The method answers from what the project sees. -/
def Reads {α : Type} (method : Method α) : Prop :=
  ∀ s t : Database, s.Owned owners → t.Owned owners → SameProject owners x latest s t →
    (method s).1 = (method t).1 ∧ (method s).2.Owned owners ∧ (method t).2.Owned owners ∧
      SameProject owners x latest (method s).2 (method t).2

variable {α β : Type}

/-- The answer of a method, as another type. -/
theorem spares_map (f : α → β) {method : Method α} (h : Spares owners x latest method) :
    Spares owners x latest fun db ↦ ((method db).1.map f, (method db).2) := h

theorem reads_map (f : α → β) {method : Method α} (h : Reads owners x latest method) :
    Reads owners x latest fun db ↦ ((method db).1.map f, (method db).2) := fun s t hs ht hsame ↦ by
  obtain ⟨hanswer, hrest⟩ := h s t hs ht hsame
  exact ⟨congrArg (Except.map f) hanswer, hrest⟩

/-- Statements that spare the project, in a transaction. -/
theorem spares_connect (host : Host) {body : Txn α}
    (h : ∀ (db : Database) a db', db.Owned owners → body db = .ok (a, db') →
      db'.Owned owners ∧ SameProject owners x latest db' db) :
    Spares owners x latest (connect host body) := fun db hdb ↦
  connect_keeps (P := fun db' ↦ db'.Owned owners ∧ SameProject owners x latest db' db) host
    ⟨hdb, .refl db⟩ fun a db' ↦ h db a db' hdb

/-- What statements come to in two databases. -/
def SameOutcome (owners : Owners) (x : Scope) (latest : Int)
    (r r' : Except PyError (α × Database)) : Prop :=
  (∃ e, r = .error e ∧ r' = .error e) ∨
    ∃ a s t, r = .ok (a, s) ∧ r' = .ok (a, t) ∧ s.Owned owners ∧ t.Owned owners ∧
      SameProject owners x latest s t

/-- Statements that read what the project sees, in a transaction. -/
theorem reads_connect (host : Host) {body : Txn α}
    (h : ∀ s t : Database, s.Owned owners → t.Owned owners → SameProject owners x latest s t →
      SameOutcome owners x latest (body s) (body t)) :
    Reads owners x latest (connect host body) := by
  intro s t hs ht hsame
  unfold connect
  obtain ⟨e, hbody, hbody'⟩ | ⟨a, s', t', hbody, hbody', hs', ht', hsame'⟩ := h s t hs ht hsame
  · rw [hbody, hbody']
    exact ⟨rfl, hs, ht, hsame⟩
  · rw [hbody, hbody']
    cases host.fault with
    | some e => exact ⟨rfl, hs, ht, hsame⟩
    | none => exact ⟨rfl, hs', ht', hsame'⟩

theorem spares_checked (check : Except PyError Unit) {method : Method α}
    (h : Spares owners x latest method) : Spares owners x latest (checked check method) := by
  intro db hdb
  cases check with
  | error e => exact ⟨hdb, .refl db⟩
  | ok _ => exact h db hdb

theorem reads_checked (check : Except PyError Unit) {method : Method α}
    (h : Reads owners x latest method) : Reads owners x latest (checked check method) := by
  intro s t hs ht hsame
  cases check with
  | error e => exact ⟨rfl, hs, ht, hsame⟩
  | ok _ => exact h s t hs ht hsame

/-! ### Keys -/

private theorem owned_insertKey {keyId : Text} {row : KeyRow} {db : Database} (h : db.Owned owners)
    (hrow : (row.tenant, row.project) = owners.key keyId) (events : List AuditEvent) :
    Database.Owned owners
      { db with apiKeys := db.apiKeys.insert keyId row, auditEvents := events } where
  keys id other hid := by
    rw [Dict.get?_insert] at hid
    split at hid
    · next heq =>
      cases hid
      rw [← heq]
      exact hrow
    · exact h.keys id other hid
  usage := h.usage

private theorem keys_insert {d e : Dict Text KeyRow}
    (h : d.filterEntries (fun keyId _ ↦ owners.isKeyOf x keyId) =
      e.filterEntries fun keyId _ ↦ owners.isKeyOf x keyId) (keyId : Text) (row : KeyRow) :
    (d.insert keyId row).filterEntries (fun keyId _ ↦ owners.isKeyOf x keyId) =
      (e.insert keyId row).filterEntries fun keyId _ ↦ owners.isKeyOf x keyId := by
  rw [Dict.filterEntries_insert, Dict.filterEntries_insert, h]

private theorem keys_insert_other (d : Dict Text KeyRow) {keyId : Text}
    (hkey : owners.key keyId ≠ x) (row : KeyRow) :
    (d.insert keyId row).filterEntries (fun keyId _ ↦ owners.isKeyOf x keyId) =
      d.filterEntries fun keyId _ ↦ owners.isKeyOf x keyId := by
  rw [Dict.filterEntries_insert, if_neg]
  rw [Owners.isKeyOf, decide_eq_true_eq]
  exact hkey

private theorem filter_append_other {A : Type} {p : A → Bool} (rows : List A) {a : A}
    (ha : p a = false) : (rows ++ [a]).filter p = rows.filter p := by
  rw [List.filter_append, List.filter_cons_of_neg (by rw [ha]; exact Bool.false_ne_true),
    List.filter_nil, List.append_nil]

section Keys

variable [Digest] [FloatText]

omit [Digest] in
private theorem spares_insertKey (host : Host) {tenant project : Text}
    (hother : (tenant, project) ≠ x) (scopes : Finset Text) (expiresAt : Option PyFloat)
    {material : KeyMaterial} (howner : owners.key material.keyId = (tenant, project)) (digest : Text) :
    Spares owners x latest
      (connect host (insertKey host tenant project scopes expiresAt material digest)) := by
  refine spares_connect host fun db a db' hdb hbody ↦ ?_
  unfold insertKey at hbody
  split at hbody
  · cases hbody
  · split at hbody
    · cases hbody
    · split at hbody
      · cases hbody
      · cases hbody
        refine ⟨owned_insertKey hdb howner.symm _, rfl, ?_, fun _ _ _ ↦ rfl, ?_, rfl⟩
        · exact keys_insert_other _ (by rw [howner]; exact hother) _
        · exact filter_append_other _ (decide_eq_false hother)

omit [Digest] in
private theorem reads_insertKey (host : Host) {tenant project : Text} (hown : (tenant, project) = x)
    (scopes : Finset Text) (expiresAt : Option PyFloat) {material : KeyMaterial}
    (howner : owners.key material.keyId = (tenant, project)) (digest : Text) :
    Reads owners x latest
      (connect host (insertKey host tenant project scopes expiresAt material digest)) := by
  refine reads_connect host fun s t hs ht hsame ↦ ?_
  unfold insertKey
  rw [hsame.get?_key (howner.trans hown), hsame.get?_project hown]
  split
  · next e _ => exact .inl ⟨e, rfl, rfl⟩
  · split
    · exact .inl ⟨_, rfl, rfl⟩
    · split
      · exact .inl ⟨_, rfl, rfl⟩
      · refine .inr ⟨(), _, _, rfl, rfl, owned_insertKey hs howner.symm _,
          owned_insertKey ht howner.symm _, hsame.limits, keys_insert hsame.keys _ _, hsame.quota,
          ?_, hsame.usage⟩
        rw [List.filter_append, List.filter_append, hsame.events]

/-- A key is issued for its own project. -/
theorem spares_issueKey (host : Host) {tenant project : Text} (hother : (tenant, project) ≠ x)
    (scopes : Finset Text) (live : Bool) (expiresAt : Option PyFloat) {material : KeyMaterial}
    (howner : owners.key material.keyId = (tenant, project)) :
    Spares owners x latest (issueKey host tenant project scopes live expiresAt material) := by
  refine spares_checked _ fun db hdb ↦ ?_
  unfold mintKey
  split
  · exact ⟨hdb, .refl db⟩
  · next digest _ =>
    have h := @spares_insertKey owners x latest _ host tenant project hother scopes expiresAt
      material howner digest db hdb
    split
    · next hresult =>
      rw [hresult] at h
      exact h
    · next hresult =>
      rw [hresult] at h
      exact h

/-- The project's own issue of a key. -/
theorem reads_issueKey (host : Host) {tenant project : Text} (hown : (tenant, project) = x)
    (scopes : Finset Text) (live : Bool) (expiresAt : Option PyFloat) {material : KeyMaterial}
    (howner : owners.key material.keyId = (tenant, project)) :
    Reads owners x latest (issueKey host tenant project scopes live expiresAt material) := by
  refine reads_checked _ fun s t hs ht hsame ↦ ?_
  unfold mintKey
  split
  · exact ⟨rfl, hs, ht, hsame⟩
  · next digest _ =>
    obtain ⟨hanswer, h⟩ := @reads_insertKey owners x latest _ host tenant project hown scopes
      expiresAt material howner digest s t hs ht hsame
    revert hanswer h
    cases connect host (insertKey host tenant project scopes expiresAt material digest) s with
    | mk r s' =>
      cases connect host (insertKey host tenant project scopes expiresAt material digest) t with
      | mk r' t' =>
        rintro rfl h
        cases r with
        | error e => exact ⟨rfl, h⟩
        | ok _ => exact ⟨rfl, h⟩

/-- What becomes of a key that is found. -/
private theorem selectPrincipal_of_row (host : Host) (plaintext keyId : Text) {row : KeyRow} :
    (∃ e, ∀ db : Database, db.apiKeys.get? keyId = some row →
      selectPrincipal host plaintext keyId db = .error e) ∨
    (∀ db : Database, db.apiKeys.get? keyId = some row →
      selectPrincipal host plaintext keyId db = .ok (none, db)) ∨
    ∃ scopes, ∀ db : Database, db.apiKeys.get? keyId = some row →
      selectPrincipal host plaintext keyId db = .ok (some ⟨row.tenant, row.project, keyId, scopes⟩,
        { db with
          apiKeys :=
            db.apiKeys.insert keyId { row with lastUsedAt := some (usedAt host.clock row) } }) := by
  cases hsalt : bytesFromHex row.salt with
  | error e => exact .inl ⟨e, fun db hrow ↦ by simp only [selectPrincipal, hrow, hsalt]⟩
  | ok salt =>
    cases hactual : saltedDigest salt plaintext with
    | error e => exact .inl ⟨e, fun db hrow ↦ by simp only [selectPrincipal, hrow, hsalt, hactual]⟩
    | ok actual =>
      cases hsame : compareDigest row.digest actual with
      | error e =>
        exact .inl ⟨e, fun db hrow ↦ by simp only [selectPrincipal, hrow, hsalt, hactual, hsame]⟩
      | ok same =>
        by_cases hrefused : (!same || row.revoked || hasExpired (host.clock 0) row.expiresAt) = true
        · refine .inr (.inl fun db hrow ↦ ?_)
          simp only [selectPrincipal, hrow, hsalt, hactual, hsame]
          exact if_pos hrefused
        · cases hscopes : scopesOf row.scopes with
          | error e =>
            refine .inl ⟨e, fun db hrow ↦ ?_⟩
            simp only [selectPrincipal, hrow, hsalt, hactual, hsame, hscopes]
            exact if_neg hrefused
          | ok scopes =>
            refine .inr (.inr ⟨scopes, fun db hrow ↦ ?_⟩)
            simp only [selectPrincipal, hrow, hsalt, hactual, hsame, hscopes]
            exact if_neg hrefused

/-- A key that is presented for another project. -/
theorem spares_authenticate (host : Host) {plaintext : Text}
    (hother : (matchKey plaintext).map owners.key ≠ some x) :
    Spares owners x latest (authenticate host plaintext) := by
  intro db hdb
  unfold authenticate
  cases hmatch : matchKey plaintext with
  | none => exact ⟨hdb, .refl db⟩
  | some keyId =>
    have hkey : owners.key keyId ≠ x := fun heq ↦ hother (by rw [hmatch, ← heq]; rfl)
    refine spares_connect host (fun db a db' hdb hbody ↦ ?_) db hdb
    obtain ⟨-, rfl⟩ | ⟨row, scopes, hrow, -, -, rfl⟩ := selectPrincipal_cases hbody
    · exact ⟨hdb, .refl db'⟩
    · have howner := hdb.keys keyId row hrow
      exact ⟨owned_insertKey hdb (by exact howner) _, rfl, keys_insert_other _ hkey _,
        fun _ _ _ ↦ rfl, rfl, rfl⟩

/-- A key of the project that is presented. -/
theorem reads_authenticate (host : Host) {plaintext : Text}
    (hown : (matchKey plaintext).map owners.key = some x) :
    Reads owners x latest (authenticate host plaintext) := by
  intro s t hs ht hsame
  unfold authenticate
  cases hmatch : matchKey plaintext with
  | none => exact ⟨rfl, hs, ht, hsame⟩
  | some keyId =>
    rw [hmatch] at hown
    have hkey : owners.key keyId = x := Option.some.inj hown
    refine reads_connect host (fun s t hs ht hsame ↦ ?_) s t hs ht hsame
    have hfound := hsame.get?_key hkey
    cases hrow : t.apiKeys.get? keyId with
    | none =>
      unfold selectPrincipal
      rw [hfound, hrow]
      exact .inr ⟨none, s, t, rfl, rfl, hs, ht, hsame⟩
    | some row =>
      rw [hrow] at hfound
      obtain ⟨e, h⟩ | h | ⟨scopes, h⟩ := @selectPrincipal_of_row _ _ host plaintext keyId row
      · exact .inl ⟨e, h s hfound, h t hrow⟩
      · exact .inr ⟨none, s, t, h s hfound, h t hrow, hs, ht, hsame⟩
      · have howner := ht.keys keyId row hrow
        exact .inr ⟨_, _, _, h s hfound, h t hrow, owned_insertKey hs (by exact howner) _,
          owned_insertKey ht (by exact howner) _, hsame.limits, keys_insert hsame.keys _ _,
          hsame.quota, hsame.events, hsame.usage⟩

omit [FloatText] [Digest] in
/-- A key is revoked in the project that it belongs to, or in none. -/
theorem spares_revokeKey (host : Host) {tenant project : Text} (hother : (tenant, project) ≠ x)
    (keyId : Text) : Spares owners x latest (revokeKey host tenant project keyId) := by
  refine spares_connect host fun db a db' hdb hbody ↦ ?_
  unfold updateRevoked at hbody
  split at hbody
  · cases hbody
  · split at hbody
    · cases hbody
    · next row hrow =>
      split at hbody
      · next hscope =>
        cases hbody
        have howner := hdb.keys keyId row hrow
        have hkey : owners.key keyId ≠ x := by
          rw [← howner, hscope.1, hscope.2]
          exact hother
        exact ⟨owned_insertKey hdb (by exact howner) _, rfl, keys_insert_other _ hkey _,
          fun _ _ _ ↦ rfl, filter_append_other _ (decide_eq_false hother), rfl⟩
      · cases hbody

omit [FloatText] [Digest] in
/-- The project revokes its own keys; those of others are not found. -/
theorem reads_revokeKey (host : Host) {tenant project : Text} (hown : (tenant, project) = x)
    (keyId : Text) : Reads owners x latest (revokeKey host tenant project keyId) := by
  refine reads_connect host fun s t hs ht hsame ↦ ?_
  have missing : ∃ e, ∀ db : Database, db.Owned owners → owners.key keyId ≠ x →
      updateRevoked host tenant project keyId db = .error e := by
    cases hbind : bindTexts [tenant, project, keyId] with
    | error e => exact ⟨e, fun db _ _ ↦ by simp only [updateRevoked, hbind]⟩
    | ok _ =>
      refine ⟨valueError "key not found in selected project", fun db hdb hkey ↦ ?_⟩
      simp only [updateRevoked, hbind]
      cases hrow : db.apiKeys.get? keyId with
      | none => rfl
      | some row =>
        refine if_neg ?_
        rintro ⟨htenant, hproject⟩
        apply hkey
        rw [← hdb.keys keyId row hrow, htenant, hproject]
        exact hown
  by_cases hkey : owners.key keyId = x
  · unfold updateRevoked
    rw [hsame.get?_key hkey]
    cases bindTexts [tenant, project, keyId] with
    | error e => exact .inl ⟨e, rfl, rfl⟩
    | ok _ =>
      cases hrow : t.apiKeys.get? keyId with
      | none => exact .inl ⟨_, rfl, rfl⟩
      | some row =>
        dsimp only
        split
        · have howner := ht.keys keyId row hrow
          refine .inr ⟨(), _, _, rfl, rfl, owned_insertKey hs (by exact howner) _,
            owned_insertKey ht (by exact howner) _, hsame.limits, keys_insert hsame.keys _ _,
            hsame.quota, ?_, hsame.usage⟩
          rw [List.filter_append, List.filter_append, hsame.events]
        · exact .inl ⟨_, rfl, rfl⟩
  · obtain ⟨e, hmissing⟩ := missing
    exact .inl ⟨e, hmissing s hs hkey, hmissing t ht hkey⟩

end Keys

/-! ### Projects and admission -/

/-- Another project is created. -/
theorem spares_createProject (host : Host) {tenant project : Text} (hother : (tenant, project) ≠ x)
    (rpm keyRps : Int) : Spares owners x latest (createProject host tenant project rpm keyRps) := by
  refine spares_checked _ (spares_checked _ fun db hdb ↦ ?_)
  split
  · next hbounds =>
    refine spares_connect host (fun db a db' hdb hbody ↦ ?_) db hdb
    unfold insertProject at hbody
    dsimp only at hbody
    split at hbody
    · cases hbody
    · cases hbody
      refine ⟨⟨hdb.keys, hdb.usage⟩, ?_, rfl, fun _ _ _ ↦ rfl, rfl, rfl⟩
      rw [Dict.get?_insert, if_neg hother]
  · exact ⟨hdb, .refl db⟩

/-- The project itself is created. -/
theorem reads_createProject (host : Host) {tenant project : Text} (hown : (tenant, project) = x)
    (rpm keyRps : Int) : Reads owners x latest (createProject host tenant project rpm keyRps) := by
  refine reads_checked _ (reads_checked _ fun s t hs ht hsame ↦ ?_)
  split
  · next hbounds =>
    refine reads_connect host (fun s t hs ht hsame ↦ ?_) s t hs ht hsame
    unfold insertProject
    dsimp only
    rw [hsame.get?_project hown]
    split
    · exact .inl ⟨_, rfl, rfl⟩
    · refine .inr ⟨(), _, _, rfl, rfl, ⟨hs.keys, hs.usage⟩, ⟨ht.keys, ht.usage⟩, ?_, hsame.keys,
        hsame.quota, hsame.events, hsame.usage⟩
      rw [Dict.get?_insert, Dict.get?_insert, if_pos hown, if_pos hown]
  · exact ⟨rfl, hs, ht, hsame⟩

private theorem scope_of_uses {c : AdmitCall} {row : QuotaRow} (h : c.uses row) :
    (row.tenant, row.project) = c.project := by
  cases h with
  | inl hkey =>
    rw [← hkey]
    rfl
  | inr hproject =>
    rw [← hproject]
    rfl

/-- An admission deletes old windows of all projects, but none that a later one reads. -/
theorem spares_admitRequest (host : Host) {principal : Principal}
    (hother : (principal.tenantId, principal.projectId) ≠ x) :
    Spares owners x (truncate (host.clock 0)) (admitRequest host principal) := by
  intro db hdb
  obtain ⟨-, -, ⟨quota, hafter⟩, hused⟩ := admit_eq ⟨host, principal⟩ db
  change (admitRequest host principal db).2 = _ at hafter
  have hquota : ∀ row : QuotaRow, (row.tenant, row.project) = x →
      truncate (host.clock 0) - 120 ≤ row.windowStart →
      (admitRequest host principal db).2.used row = db.used row := fun row hrow hlate ↦ by
    have hnot : ¬AdmitCall.uses ⟨host, principal⟩ row := fun huses ↦
      hother ((scope_of_uses huses).symm.trans hrow)
    refine (hused row hlate).trans ?_
    rw [if_neg fun h ↦ hnot h.2, Nat.add_zero]
  rw [hafter] at hquota ⊢
  exact ⟨⟨hdb.keys, hdb.usage⟩, rfl, rfl, hquota, rfl, rfl⟩

/-- The project's own admission reads its limits and two of its counters. -/
theorem reads_admitRequest (host : Host) {principal : Principal}
    (hown : (principal.tenantId, principal.projectId) = x) :
    Reads owners x (truncate (host.clock 0)) (admitRequest host principal) := by
  intro s t hs ht hsame
  obtain ⟨hanswer, -, ⟨quota, hafter⟩, hused⟩ := admit_eq ⟨host, principal⟩ s
  obtain ⟨hanswer', -, ⟨quota', hafter'⟩, hused'⟩ := admit_eq ⟨host, principal⟩ t
  have hrow : ∀ row : QuotaRow, AdmitCall.uses ⟨host, principal⟩ row → s.used row = t.used row :=
    fun row huses ↦ by
      have hlate := windowStart_of_uses huses
      exact hsame.quota row ((scope_of_uses huses).trans hown) hlate
  have hkey := hrow (AdmitCall.keyRow ⟨host, principal⟩) (.inl rfl)
  have hproject := hrow (AdmitCall.projectRow ⟨host, principal⟩) (.inr rfl)
  have hlimits : s.projects.get? (AdmitCall.project ⟨host, principal⟩) =
      t.projects.get? (AdmitCall.project ⟨host, principal⟩) := hsame.get?_project hown
  have hsettled : (admitRequest host principal s).1 = (admitRequest host principal t).1 := by
    refine hanswer.trans (Eq.trans ?_ hanswer'.symm)
    rw [hlimits]
    unfold verdict
    rw [hkey, hproject]
  change (admitRequest host principal s).2 = _ at hafter
  change (admitRequest host principal t).2 = _ at hafter'
  have hquota : ∀ row : QuotaRow, (row.tenant, row.project) = x →
      truncate (host.clock 0) - 120 ≤ row.windowStart →
      (admitRequest host principal s).2.used row = (admitRequest host principal t).2.used row :=
    fun row hrow hlate ↦ by
      refine (hused row hlate).trans (Eq.trans ?_ (hused' row hlate).symm)
      rw [hsame.quota row hrow hlate]
      congr 2
      exact propext (and_congr_left' (by
        change isAdmitted (admitRequest host principal s).1 = true ↔
          isAdmitted (admitRequest host principal t).1 = true
        rw [hsettled]))
  rw [hafter, hafter'] at hquota ⊢
  exact ⟨hsettled, ⟨hs.keys, hs.usage⟩, ⟨ht.keys, ht.usage⟩, hsame.limits, hsame.keys, hquota,
    hsame.events, hsame.usage⟩

/-! ### Events and usage -/

/-- An event of another project. -/
theorem spares_dispatchEvent (host : Host) {principal : Principal}
    (hother : (principal.tenantId, principal.projectId) ≠ x) (requestId : Text) :
    Spares owners x latest (dispatchEvent host principal requestId) := by
  refine spares_connect host fun db a db' hdb hbody ↦ ?_
  unfold insertDispatch at hbody
  split at hbody
  · cases hbody
  · cases hbody
    exact ⟨⟨hdb.keys, hdb.usage⟩, rfl, rfl, fun _ _ _ ↦ rfl,
      filter_append_other _ (decide_eq_false hother), rfl⟩

/-- An event of the project. -/
theorem reads_dispatchEvent (host : Host) (principal : Principal) (requestId : Text) :
    Reads owners x latest (dispatchEvent host principal requestId) := by
  refine reads_connect host fun s t hs ht hsame ↦ ?_
  unfold insertDispatch
  split
  · next e _ => exact .inl ⟨e, rfl, rfl⟩
  · refine .inr ⟨(), _, _, rfl, rfl, ⟨hs.keys, hs.usage⟩, ⟨ht.keys, ht.usage⟩, hsame.limits,
      hsame.keys, hsame.quota, ?_, hsame.usage⟩
    rw [List.filter_append, List.filter_append, hsame.events]

private theorem owned_insertUsage {db : Database} (h : db.Owned owners) {r : UsageRecord}
    (hr : (r.tenant, r.project) = owners.request r.requestId) :
    Database.Owned owners { db with usageRecords := db.usageRecords ++ [r] } where
  keys := h.keys
  usage r' hr' := by
    rcases List.mem_append.mp hr' with hold | hnew
    · exact h.usage r' hold
    · rw [List.mem_singleton.mp hnew]
      exact hr

/-- A record of another project. -/
theorem spares_recordUsage (host : Host) {principal : Principal} {requestId : Text}
    (hother : (principal.tenantId, principal.projectId) ≠ x)
    (howner : owners.request requestId = (principal.tenantId, principal.projectId))
    (usage : Usage) :
    Spares owners x latest (recordUsage host principal requestId usage) := by
  refine spares_connect host fun db a db' hdb hbody ↦ ?_
  unfold insertUsage at hbody
  split at hbody
  · cases hbody
  · split at hbody
    · cases hbody
    · split at hbody
      · cases hbody
      · cases hbody
        exact ⟨owned_insertUsage hdb howner.symm, rfl, rfl, fun _ _ _ ↦ rfl, rfl,
          filter_append_other _ (decide_eq_false hother)⟩

/-- A request id of the project is used where a record of the project has it. -/
private theorem any_requestId {requestId : Text} (howner : owners.request requestId = x)
    {db : Database} (h : db.Owned owners) :
    db.usageRecords.any (fun r ↦ decide (r.requestId = requestId)) =
      (db.usageRecords.filter (isUsageOf x)).any fun r ↦ decide (r.requestId = requestId) := by
  rw [List.any_filter, Bool.eq_iff_iff, List.any_eq_true, List.any_eq_true]
  refine exists_congr fun r ↦ and_congr_right fun hr ↦ ?_
  rw [Bool.and_eq_true, decide_eq_true_eq, isUsageOf, decide_eq_true_eq, h.usage r hr]
  refine ⟨fun heq ↦ ⟨?_, heq⟩, And.right⟩
  rw [heq]
  exact howner

/-- A record of the project. -/
theorem reads_recordUsage (host : Host) {principal : Principal} {requestId : Text}
    (hown : (principal.tenantId, principal.projectId) = x)
    (howner : owners.request requestId = (principal.tenantId, principal.projectId))
    (usage : Usage) :
    Reads owners x latest (recordUsage host principal requestId usage) := by
  refine reads_connect host fun s t hs ht hsame ↦ ?_
  unfold insertUsage
  rw [any_requestId (howner.trans hown) hs, any_requestId (howner.trans hown) ht, hsame.usage]
  split
  · next e _ => exact .inl ⟨e, rfl, rfl⟩
  · split
    · next e _ => exact .inl ⟨e, rfl, rfl⟩
    · split
      · exact .inl ⟨_, rfl, rfl⟩
      · refine .inr ⟨(), _, _, rfl, rfl, owned_insertUsage hs howner.symm,
          owned_insertUsage ht howner.symm, hsame.limits, hsame.keys, hsame.quota, hsame.events, ?_⟩
        rw [List.filter_append, List.filter_append, hsame.usage]

/-! ### Purges -/

private theorem decide_scope (tenant project : Text) (x : Scope) :
    (decide (tenant = x.1) && decide (project = x.2)) = decide ((tenant, project) = x) := by
  rw [Bool.eq_iff_iff, Bool.and_eq_true, decide_eq_true_eq, decide_eq_true_eq, decide_eq_true_eq,
    Prod.ext_iff]

/-- The expired rows of a project are its own. -/
private theorem scope_of_expired {tenant project : Text} {x : Scope} {old : Bool}
    (h : (decide (tenant = x.1) && decide (project = x.2) && old) = true) :
    (tenant, project) = x := by
  rw [decide_scope, Bool.and_eq_true, decide_eq_true_eq] at h
  exact h.1

private theorem owned_deleteMetadata {db : Database} (h : db.Owned owners) {p : UsageRecord → Bool}
    {limit : Nat} {events : List AuditEvent} : Database.Owned owners
      { db with auditEvents := events, usageRecords := deleteFirst p limit db.usageRecords } where
  keys := h.keys
  usage r hr := h.usage r ((batch_deleteFirst p limit db.usageRecords).sublist.subset hr)

/-- The number of rows that a batch deletes depends on the rows it looks at. -/
private theorem deleted_eq {A : Type} {p q : A → Bool} (h : ∀ a, p a = true → q a = true) (n : Nat)
    {rows rows' : List A} (hsame : rows.filter q = rows'.filter q) :
    rows.length - (deleteFirst p n rows).length =
      rows'.length - (deleteFirst p n rows').length := by
  have hcount : ∀ rows : List A, rows.countP p = (rows.filter q).countP p := fun rows ↦ by
    rw [List.countP_filter]
    refine List.countP_congr fun a _ ↦ ?_
    rw [Bool.and_eq_true]
    exact ⟨fun hp ↦ ⟨hp, h a hp⟩, And.left⟩
  rw [(batch_deleteFirst p n rows).length_sub, (batch_deleteFirst p n rows').length_sub,
    hcount rows, hcount rows', hsame]

section Purges

variable [FloatText] [SqliteReal]

/-- Another project's purge. -/
theorem spares_purgeMetadata (host : Host) {tenant project : Text} (hother : (tenant, project) ≠ x)
    (retentionSeconds limit : Int) :
    Spares owners x latest (purgeMetadata host tenant project retentionSeconds limit) := by
  refine spares_checked _ (spares_checked _ fun db hdb ↦ ?_)
  split
  · refine spares_connect host (fun db a db' hdb hbody ↦ ?_) db hdb
    cases hbody
    refine ⟨owned_deleteMetadata hdb, rfl, rfl, fun _ _ _ ↦ rfl, ?_, ?_⟩
    · exact filter_deleteFirst_of_disjoint (fun e he ↦ decide_eq_false (by
        rw [scope_of_expired (x := (tenant, project)) he]
        exact hother)) _ _
    · exact filter_deleteFirst_of_disjoint (fun r hr ↦ decide_eq_false (by
        rw [scope_of_expired (x := (tenant, project)) hr]
        exact hother)) _ _
  · exact ⟨hdb, .refl db⟩

/-- The project's own purge, with its counts. -/
theorem reads_purgeMetadata (host : Host) {tenant project : Text} (hown : (tenant, project) = x)
    (retentionSeconds limit : Int) :
    Reads owners x latest (purgeMetadata host tenant project retentionSeconds limit) := by
  refine reads_checked _ (reads_checked _ fun s t hs ht hsame ↦ ?_)
  have hevent : ∀ {cutoff : ℚ} (e : AuditEvent), (decide (e.tenant = tenant) &&
      decide (e.project = project) && decide (e.time < cutoff)) = true → isEventOf x e = true :=
    fun e he ↦ decide_eq_true ((scope_of_expired (x := (tenant, project)) he).trans hown)
  have husage : ∀ {cutoff : ℚ} (r : UsageRecord), (decide (r.tenant = tenant) &&
      decide (r.project = project) && isOlder cutoff r.metadata) = true → isUsageOf x r = true :=
    fun r hr ↦ decide_eq_true ((scope_of_expired (x := (tenant, project)) hr).trans hown)
  split
  · refine reads_connect host (fun s t hs ht hsame ↦ ?_) s t hs ht hsame
    unfold deleteMetadata
    dsimp only
    rw [deleted_eq husage _ hsame.usage, deleted_eq hevent _ hsame.events]
    refine .inr ⟨_, _, _, rfl, rfl, owned_deleteMetadata hs, owned_deleteMetadata ht, hsame.limits,
      hsame.keys, hsame.quota, ?_, ?_⟩
    · rw [deleteFirst_filter hevent, deleteFirst_filter hevent, hsame.events]
    · rw [deleteFirst_filter husage, deleteFirst_filter husage, hsame.usage]
  · exact ⟨rfl, hs, ht, hsame⟩

end Purges

/-! ### Listings -/

theorem spares_listKeys (host : Host) (scan : Scan) (tenant project : Text) :
    Spares owners x latest (listKeys host scan tenant project) := by
  refine spares_connect host fun db a db' hdb hbody ↦ ?_
  unfold selectKeys at hbody
  split at hbody
  · cases hbody
  · cases hbody
    exact ⟨hdb, .refl db⟩

/-- The keys of a project are those with its ids. -/
private theorem filter_keys {tenant project : Text} (hown : (tenant, project) = x) {db : Database}
    (h : db.Owned owners) : (db.apiKeys.entries.filter fun e ↦
      decide (e.2.tenant = tenant) && decide (e.2.project = project)) =
      (db.apiKeys.filterEntries fun keyId _ ↦ owners.isKeyOf x keyId).entries := by
  refine List.filter_congr fun e he ↦ ?_
  have howner := h.keys e.1 e.2 ((db.apiKeys.get?_eq_some_iff e.1 e.2).mpr he)
  change _ = decide (owners.key e.1 = x)
  rw [← howner, ← hown]
  exact decide_scope _ _ (tenant, project)

/-- The project's own keys. -/
theorem reads_listKeys (host : Host) (scan : Scan) {tenant project : Text}
    (hown : (tenant, project) = x) : Reads owners x latest (listKeys host scan tenant project) := by
  refine reads_connect host fun s t hs ht hsame ↦ ?_
  unfold selectKeys
  rw [filter_keys hown hs, filter_keys hown ht, hsame.keys]
  split
  · next e _ => exact .inl ⟨e, rfl, rfl⟩
  · exact .inr ⟨_, s, t, rfl, rfl, hs, ht, hsame⟩

section Usage

variable [FloatText]

theorem spares_projectUsage (host : Host) (scan : Scan) (tenant project : Text) :
    Spares owners x latest (projectUsage host scan tenant project) := by
  refine spares_connect host fun db a db' hdb hbody ↦ ?_
  unfold selectUsage at hbody
  split at hbody
  · cases hbody
  · dsimp only at hbody
    split at hbody
    · cases hbody
    · cases hbody
      exact ⟨hdb, .refl db⟩

/-- The project's own usage. -/
theorem reads_projectUsage (host : Host) (scan : Scan) {tenant project : Text}
    (hown : (tenant, project) = x) :
    Reads owners x latest (projectUsage host scan tenant project) := by
  refine reads_connect host fun s t hs ht hsame ↦ ?_
  have hrows : ∀ db : Database, (db.usageRecords.filter fun r ↦
      decide (r.tenant = tenant) && decide (r.project = project)) =
      db.usageRecords.filter (isUsageOf x) := fun db ↦ by
    refine List.filter_congr fun r _ ↦ ?_
    rw [isUsageOf, ← hown]
    exact decide_scope _ _ (tenant, project)
  unfold selectUsage
  rw [hrows s, hrows t, hsame.usage]
  split
  · next e _ => exact .inl ⟨e, rfl, rfl⟩
  · dsimp only
    split
    · next e _ => exact .inl ⟨e, rfl, rfl⟩
    · exact .inr ⟨_, s, t, rfl, rfl, hs, ht, hsame⟩

end Usage

end C3RSpec.ApiAccess

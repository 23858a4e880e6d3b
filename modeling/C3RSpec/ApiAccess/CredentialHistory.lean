import C3RSpec.ApiAccess.AccessStore

/-!
# Credentials over whole histories

Which secrets authenticate is determined by the calls made so far: those that `issue_key`
returned, that no later `revoke_key` succeeded for and whose expiry has not come. Calls that
raise leave the tables alone, and nothing but these two methods changes what a key grants.
-/

namespace C3RSpec.ApiAccess

open Base

/-- A call with its outcome. -/
structure Entry where
  call : Call
  outcome : Except PyError Reply

/-- A key as `issue_key` was asked for it and returned it. -/
structure Issue where
  tenant : Text
  project : Text
  scopes : Finset Text
  expiresAt : Option PyFloat
  keyId : Text
  secret : Text

/-- The key that a call issued. -/
def Entry.issue? : Entry → Option Issue
  | ⟨.issueKey tenant project scopes _ expiresAt _, .ok (.issued key)⟩ =>
    some ⟨tenant, project, scopes, expiresAt, key.keyId, key.secret⟩
  | _ => none

/-- The key that a call revoked. -/
def Entry.revoked? : Entry → Option Text
  | ⟨.revokeKey _ _ keyId, .ok _⟩ => some keyId
  | _ => none

/-- The principal of an issued key. -/
def Issue.principal (issue : Issue) : Principal :=
  ⟨issue.tenant, issue.project, issue.keyId, issue.scopes⟩

/-- The key has no expiry or its expiry is after `now`. -/
def Issue.Unexpired (issue : Issue) (now : ℚ) : Prop :=
  ∀ expiration, issue.expiresAt = some expiration → (PyFloat.fin now).lt expiration = true

/-! ### Key texts -/

private theorem keyText_parts (mode keyId tail : Text) (hm : mode.length = 4)
    (hk : keyId.length = 24) :
    let t := Text.ofString "c3r_sk_" ++ (mode ++ 95 :: (keyId ++ 95 :: tail))
    t.take 7 = Text.ofString "c3r_sk_" ∧ (t.drop 7).take 4 = mode ∧
      (t.drop 11).head? = some 95 ∧ (t.drop 12).take 24 = keyId ∧
      (t.drop 36).head? = some 95 ∧ t.drop 37 = tail := by
  intro t
  have h7 : t.drop 7 = mode ++ 95 :: (keyId ++ 95 :: tail) := List.drop_left' (by decide)
  have h11 : t.drop 11 = 95 :: (keyId ++ 95 :: tail) := by
    rw [← List.drop_drop (i := 4) (j := 7), h7]
    exact List.drop_left' hm
  have h12 : t.drop 12 = keyId ++ 95 :: tail := by
    rw [← List.drop_drop (i := 1) (j := 11), h11]
    rfl
  have h36 : t.drop 36 = 95 :: tail := by
    rw [← List.drop_drop (i := 24) (j := 12), h12]
    exact List.drop_left' hk
  have h37 : t.drop 37 = tail := by
    rw [← List.drop_drop (i := 1) (j := 36), h36]
    rfl
  refine ⟨List.take_left' (by decide), ?_, ?_, ?_, ?_, h37⟩
  · rw [h7]
    exact List.take_left' hm
  · rw [h11]
    rfl
  · rw [h12]
    exact List.take_left' hk
  · rw [h36]
    rfl

/-- A generated key has the form that `authenticate` accepts, around its own id. -/
theorem matchKey_keyText (live : Bool) (material : KeyMaterial) :
    matchKey (keyText live material.keyId material.tail) = some material.keyId := by
  obtain ⟨h1, h2, h3, h4, h5, h6⟩ := keyText_parts (Text.ofString (if live then "live" else "test"))
    material.keyId material.tail (by cases live <;> decide) material.length_keyId
  rw [matchKey, keyText]
  simp only [h1, h2, h3, h4, h5, h6, material.length_keyId, material.isHex_keyId,
    material.length_tail, material.isUrlSafe_tail]
  cases live <;> simp

/-! ### Digests and scopes -/

private theorem strings?_map (ts : List Text) : strings? (ts.map Json.str) = some ts := by
  induction ts with
  | nil => rfl
  | cons t ts ih =>
    rw [List.map_cons, strings?, ih]
    rfl

/-- Supported scopes are read back from the text they are stored as. -/
theorem scopesOf_scopesText [FloatText] {scopes : Finset Text} (h : scopes ⊆ supportedScopes) :
    scopesOf (scopesText scopes) = .ok scopes := by
  have hplain : ∀ t ∈ supportedScopes, t.isPlain = true := by decide
  have hread := loads_renderSpaced_texts (scopes.sort (· ≤ ·)) fun t ht ↦
    hplain t (h ((Finset.mem_sort _).mp ht))
  rw [scopesOf, scopesText, hread]
  simp only [strings?_map, Finset.sort_toFinset]

/-- A digest that compares equal is of the same key, when digests do not collide. -/
theorem eq_of_compareDigest [Digest]
    (hinj : ∀ salt, Function.Injective (Digest.hmacSha256Hex salt))
    {salt : ByteArray} {a b x y : Text} (ha : saltedDigest salt a = .ok x)
    (hb : saltedDigest salt b = .ok y) (h : compareDigest x y = .ok true) : a = b := by
  obtain rfl := compareDigest_eq_true h
  unfold saltedDigest at ha hb
  split at ha
  · cases ha
  · next bytes hbytes =>
    split at hb
    · cases hb
    · next bytes' hbytes' =>
      have he : bytes = bytes' := hinj salt ((Except.ok.inj ha).trans (Except.ok.inj hb).symm)
      exact Text.encodeUtf8_inj hbytes (he ▸ hbytes')

/-! ### What a call does to the keys -/

/-- A transaction raises and leaves the tables alone, or does what its statements do. -/
theorem connect_cases {α : Type} (host : Host) (body : Txn α) (db : Database) :
    (∃ e, connect host body db = (.error e, db)) ∨
      ∃ a db', body db = .ok (a, db') ∧ host.fault = none ∧
        connect host body db = (.ok a, db') := by
  unfold connect
  cases hb : body db with
  | error e => exact .inl ⟨_, rfl⟩
  | ok x =>
    cases hf : host.fault with
    | some e => exact .inl ⟨e, rfl⟩
    | none => exact .inr ⟨x.1, x.2, rfl, rfl, rfl⟩

/-- What holds of the tables and of what the statements make of them holds after the call, whether
or not it raises. -/
theorem connect_keeps {α : Type} {P : Database → Prop} (host : Host) {body : Txn α} {db : Database}
    (hdb : P db) (h : ∀ a db', body db = .ok (a, db') → P db') : P (connect host body db).2 := by
  obtain ⟨e, he⟩ | ⟨a, db', hb, -, he⟩ := connect_cases host body db
  · rw [he]
    exact hdb
  · rw [he]
    exact h a db' hb

/-- A check raises and leaves the tables alone, or the method goes on. -/
theorem checked_cases {α : Type} (check : Except PyError Unit)
    (method : Database → Except PyError α × Database) (db : Database) :
    (∃ e, checked check method db = (.error e, db)) ∨
      (check = .ok () ∧ checked check method db = method db) := by
  cases check with
  | error e => exact .inl ⟨e, rfl⟩
  | ok u => exact .inr ⟨rfl, rfl⟩

-- a method whose statements do not touch the keys
private theorem connect_apiKeys {α : Type} (host : Host) {body : Txn α} {db : Database}
    (h : ∀ a db', body db = .ok (a, db') → db'.apiKeys = db.apiKeys) :
    (connect host body db).2.apiKeys = db.apiKeys :=
  connect_keeps (P := fun db' ↦ db'.apiKeys = db.apiKeys) host rfl h

private theorem checked_apiKeys {α : Type} (check : Except PyError Unit)
    {method : Database → Except PyError α × Database} {db : Database}
    (h : (method db).2.apiKeys = db.apiKeys) :
    (checked check method db).2.apiKeys = db.apiKeys := by
  obtain ⟨e, he⟩ | ⟨-, he⟩ := checked_cases check method db
  · rw [he]
  · rw [he]
    exact h

private theorem checkIssue_ok {scopes : Finset Text} {expiresAt : Option PyFloat}
    (h : checkIssue scopes expiresAt = .ok ()) : scopes ⊆ supportedScopes ∧
      ∀ expiration, expiresAt = some expiration → expiration.isFinite = true := by
  unfold checkIssue at h
  split at h
  · cases h
  · next hs =>
    split at h
    · cases h
    · next hf =>
      refine ⟨by_contra fun hn ↦ hs (.inr hn), ?_⟩
      rintro expiration rfl
      exact Bool.not_eq_false _ ▸ hf

section Calls

variable [Digest] [FloatText]

/-- The row stores the key. -/
structure KeyRow.Holds (row : KeyRow) (issue : Issue) : Prop where
  tenant : row.tenant = issue.tenant
  project : row.project = issue.project
  scopes : row.scopes = scopesText issue.scopes
  supported : issue.scopes ⊆ supportedScopes
  expires : row.expiresAt = issue.expiresAt
  finite : ∀ expiration, issue.expiresAt = some expiration → expiration.isFinite = true
  digest : ∃ salt, row.salt = hexBytes salt ∧ saltedDigest salt issue.secret = .ok row.digest
  form : matchKey issue.secret = some issue.keyId

/-- Everything a call can do to the keys: touch when they were last used, add one, revoke one. -/
inductive KeyChange (db db' : Database) (entry : Entry) : Prop
  | none (hissue : entry.issue? = none) (hrevoked : entry.revoked? = none)
      (h : ∀ k, (db'.apiKeys.get? k).map (fun row ↦ { row with lastUsedAt := none }) =
        (db.apiKeys.get? k).map fun row ↦ { row with lastUsedAt := none })
  | issue (issue : Issue) (row : KeyRow) (hissue : entry.issue? = some issue)
      (hrevoked : entry.revoked? = none) (hnew : db.apiKeys.get? issue.keyId = none)
      (hrow : row.Holds issue) (hlive : row.revoked = false)
      (h : ∀ k, db'.apiKeys.get? k = if issue.keyId = k then some row else db.apiKeys.get? k)
  | revoke (keyId : Text) (row : KeyRow) (hissue : entry.issue? = none)
      (hrevoked : entry.revoked? = some keyId) (hold : db.apiKeys.get? keyId = some row)
      (h : ∀ k, db'.apiKeys.get? k =
        if keyId = k then some { row with revoked := true } else db.apiKeys.get? k)

private theorem keyChange_of_apiKeys {db db' : Database} {entry : Entry}
    (hissue : entry.issue? = none) (hrevoked : entry.revoked? = none)
    (h : db'.apiKeys = db.apiKeys) : KeyChange db db' entry :=
  .none hissue hrevoked fun k ↦ by rw [h]

private theorem keyChange_issueKey (host : Host) (tenant project : Text) (scopes : Finset Text)
    (live : Bool) (expiresAt : Option PyFloat) (material : KeyMaterial) (db : Database) :
    KeyChange db (issueKey host tenant project scopes live expiresAt material db).2
      ⟨.issueKey tenant project scopes live expiresAt material,
        (issueKey host tenant project scopes live expiresAt material db).1.map .issued⟩ := by
  rw [issueKey]
  obtain ⟨e, he⟩ | ⟨hcheck, he⟩ := checked_cases (checkIssue scopes expiresAt)
    (mintKey host tenant project scopes live expiresAt material) db
  · rw [he]
    exact keyChange_of_apiKeys rfl rfl rfl
  · obtain ⟨hsub, hfinite⟩ := checkIssue_ok hcheck
    rw [he, mintKey]
    split
    · exact keyChange_of_apiKeys rfl rfl rfl
    · next digest hdigest =>
      obtain ⟨e, hc⟩ | ⟨u, db', hbody, -, hc⟩ := connect_cases host
        (insertKey host tenant project scopes expiresAt material digest) db
      · rw [hc]
        exact keyChange_of_apiKeys rfl rfl rfl
      · rw [hc]
        rw [insertKey] at hbody
        split at hbody
        · cases hbody
        · split at hbody
          · cases hbody
          · next hnew =>
            split at hbody
            · cases hbody
            · cases hbody
              refine .issue ⟨tenant, project, scopes, expiresAt, material.keyId,
                keyText live material.keyId material.tail⟩ _ rfl rfl
                (Option.not_isSome_iff_eq_none.mp hnew) ?_ ?_
                (fun k ↦ Dict.get?_insert db.apiKeys material.keyId k _)
              · exact ⟨rfl, rfl, rfl, hsub, rfl, hfinite, ⟨material.salt, rfl, hdigest⟩,
                  matchKey_keyText live material⟩
              · rfl

/-- The row accepts the presented text at this time. -/
structure KeyRow.Accepts (row : KeyRow) (now : ℚ) (plaintext : Text) (scopes : Finset Text) :
    Prop where
  digest : ∃ salt actual, bytesFromHex row.salt = .ok salt ∧
    saltedDigest salt plaintext = .ok actual ∧ compareDigest row.digest actual = .ok true
  live : row.revoked = false
  unexpired : hasExpired now row.expiresAt = false
  scopes : scopesOf row.scopes = .ok scopes

/-- The statements of `authenticate` find no principal and change nothing, or find the one of an
accepting row and note when it was used. -/
theorem selectPrincipal_cases {host : Host} {plaintext keyId : Text} {db db' : Database}
    {answer : Option Principal} (h : selectPrincipal host plaintext keyId db = .ok (answer, db')) :
    (answer = none ∧ db' = db) ∨ ∃ row scopes, db.apiKeys.get? keyId = some row ∧
      row.Accepts (host.clock 0) plaintext scopes ∧
      answer = some ⟨row.tenant, row.project, keyId, scopes⟩ ∧
      db' = { db with
        apiKeys := db.apiKeys.insert keyId { row with lastUsedAt := some (usedAt host.clock row) } } := by
  rw [selectPrincipal] at h
  split at h
  · cases h
    exact .inl ⟨rfl, rfl⟩
  · next row hrow =>
    split at h
    · cases h
    · next salt hsalt =>
      split at h
      · cases h
      · next actual hactual =>
        split at h
        · cases h
        · next same hsame =>
          split at h
          · cases h
            exact .inl ⟨rfl, rfl⟩
          · next hok =>
            simp only [Bool.or_eq_true, Bool.not_eq_true', not_or, Bool.not_eq_false,
              Bool.not_eq_true] at hok
            obtain ⟨⟨rfl, hlive⟩, hexp⟩ := hok
            split at h
            · cases h
            · next scopes hscopes =>
              cases h
              exact .inr ⟨row, scopes, hrow, ⟨⟨salt, actual, hsalt, hactual, hsame⟩, hlive, hexp,
                hscopes⟩, rfl, rfl⟩

/-- An accepting row authenticates. -/
theorem selectPrincipal_of_accepts {host : Host} {plaintext keyId : Text} {db : Database}
    {row : KeyRow} {scopes : Finset Text} (hrow : db.apiKeys.get? keyId = some row)
    (h : row.Accepts (host.clock 0) plaintext scopes) :
    ∃ db', selectPrincipal host plaintext keyId db =
      .ok (some ⟨row.tenant, row.project, keyId, scopes⟩, db') := by
  obtain ⟨salt, actual, hsalt, hactual, hsame⟩ := h.digest
  simp only [selectPrincipal, hrow, hsalt, hactual, hsame, h.live, h.unexpired, h.scopes]
  exact ⟨_, rfl⟩

private theorem keyChange_authenticate (host : Host) (plaintext : Text) (db : Database) :
    KeyChange db (authenticate host plaintext db).2
      ⟨.authenticate plaintext, (authenticate host plaintext db).1.map .principal⟩ := by
  have hnone : ∀ x : Except PyError Reply,
      (⟨.authenticate plaintext, x⟩ : Entry).issue? = none ∧
        (⟨.authenticate plaintext, x⟩ : Entry).revoked? = none := fun x ↦ ⟨rfl, rfl⟩
  rw [authenticate]
  split
  · exact keyChange_of_apiKeys (hnone _).1 (hnone _).2 rfl
  · next keyId hkey =>
    obtain ⟨e, hc⟩ | ⟨answer, db', hbody, -, hc⟩ :=
      connect_cases host (selectPrincipal host plaintext keyId) db
    · rw [hc]
      exact keyChange_of_apiKeys (hnone _).1 (hnone _).2 rfl
    · rw [hc]
      refine .none (hnone _).1 (hnone _).2 fun k ↦ ?_
      obtain ⟨-, rfl⟩ | ⟨row, scopes, hrow, -, -, rfl⟩ := selectPrincipal_cases hbody
      · rfl
      · rw [Dict.get?_insert]
        split
        · next hk =>
          rw [← hk, hrow]
          rfl
        · rfl

private theorem keyChange_revokeKey (host : Host) (tenant project keyId : Text) (db : Database) :
    KeyChange db (revokeKey host tenant project keyId db).2
      ⟨.revokeKey tenant project keyId,
        (revokeKey host tenant project keyId db).1.map fun _ ↦ .done⟩ := by
  rw [revokeKey]
  obtain ⟨e, hc⟩ | ⟨u, db', hbody, -, hc⟩ :=
    connect_cases host (updateRevoked host tenant project keyId) db
  · rw [hc]
    exact keyChange_of_apiKeys rfl rfl rfl
  · rw [hc]
    rw [updateRevoked] at hbody
    split at hbody
    · cases hbody
    · split at hbody
      · cases hbody
      · next row hrow =>
        split at hbody
        · cases hbody
          exact .revoke keyId row rfl rfl hrow fun k ↦ Dict.get?_insert db.apiKeys keyId k _
        · cases hbody

/-- Every call does one of the three things. -/
theorem keyChange_perform [SqliteReal] (host : Host) (db : Database) (call : Call) :
    KeyChange db (perform host db call).2 ⟨call, (perform host db call).1⟩ := by
  cases call with
  | issueKey tenant project scopes live expiresAt material =>
    exact keyChange_issueKey host tenant project scopes live expiresAt material db
  | revokeKey tenant project keyId => exact keyChange_revokeKey host tenant project keyId db
  | authenticate plaintext => exact keyChange_authenticate host plaintext db
  | createProject tenant project rpm keyRps =>
    refine keyChange_of_apiKeys rfl rfl (checked_apiKeys _ (checked_apiKeys _ ?_))
    split
    · refine connect_apiKeys host fun _ db' hbody ↦ ?_
      rw [insertProject] at hbody
      split at hbody
      · cases hbody
      · cases hbody
        rfl
    · rfl
  | admitRequest principal =>
    refine keyChange_of_apiKeys rfl rfl (connect_apiKeys host fun _ db' hbody ↦ ?_)
    rw [countRequest] at hbody
    split at hbody
    · cases hbody
    · split at hbody
      · cases hbody
        rfl
      · split at hbody
        · cases hbody
        · dsimp only at hbody
          split at hbody
          · cases hbody
            rfl
          · cases hbody
            rfl
  | recordUsage principal requestId usage =>
    refine keyChange_of_apiKeys rfl rfl (connect_apiKeys host fun _ db' hbody ↦ ?_)
    rw [insertUsage] at hbody
    split at hbody
    · cases hbody
    · split at hbody
      · cases hbody
      · split at hbody
        · cases hbody
        · cases hbody
          rfl
  | purgeMetadata tenant project retentionSeconds limit =>
    refine keyChange_of_apiKeys rfl rfl (checked_apiKeys _ (checked_apiKeys _ ?_))
    split
    · refine connect_apiKeys host fun _ db' hbody ↦ ?_
      cases hbody
      rfl
    · rfl
  | dispatchEvent principal requestId =>
    refine keyChange_of_apiKeys rfl rfl (connect_apiKeys host fun _ db' hbody ↦ ?_)
    rw [insertDispatch] at hbody
    split at hbody
    · cases hbody
    · cases hbody
      rfl

/-! ### Histories -/

/-- The store with the calls made so far. -/
structure Store where
  db : Database
  history : List Entry

/-- One more call. -/
def Store.call [SqliteReal] (s : Store) (c : Host × Call) : Store :=
  ⟨(perform c.1 s.db c.2).2, s.history ++ [⟨c.2, (perform c.1 s.db c.2).1⟩]⟩

/-- The store after calls on a new database. -/
def after [SqliteReal] (calls : List (Host × Call)) : Store := calls.foldl Store.call ⟨.empty, []⟩

/-- Every issued key is stored as it was issued, and revoked exactly when a later call revoked
it. -/
def Stored (db : Database) (history : List Entry) : Prop :=
  ∀ pre entry post issue, history = pre ++ entry :: post → entry.issue? = some issue →
    ∃ row, db.apiKeys.get? issue.keyId = some row ∧ row.Holds issue ∧
      (row.revoked = true ↔ ∃ e ∈ post, e.revoked? = some issue.keyId)

/-- Every stored key was issued, and every issued key is stored as it was issued and revoked
exactly when a later call revoked it. -/
structure Tracks (db : Database) (history : List Entry) : Prop where
  known : ∀ keyId row, db.apiKeys.get? keyId = some row →
    ∃ entry ∈ history, ∃ issue, entry.issue? = some issue ∧ issue.keyId = keyId
  stored : ∀ pre entry post issue, history = pre ++ entry :: post → entry.issue? = some issue →
    ∃ row, db.apiKeys.get? issue.keyId = some row ∧ row.Holds issue ∧
      (row.revoked = true ↔ ∃ e ∈ post, e.revoked? = some issue.keyId)

omit [Digest] [FloatText] in
private theorem snoc_eq_append_cons {history pre post : List Entry} {e entry : Entry}
    (h : history ++ [e] = pre ++ entry :: post) :
    (post = [] ∧ entry = e) ∨ ∃ post', post = post' ++ [e] ∧ history = pre ++ entry :: post' := by
  rcases List.eq_nil_or_concat post with rfl | ⟨post', last, rfl⟩
  · obtain ⟨-, he⟩ := List.append_inj' h rfl
    exact .inl ⟨rfl, (List.singleton_inj.mp he).symm⟩
  · rw [List.concat_eq_append] at h ⊢
    rw [← List.cons_append, ← List.append_assoc] at h
    obtain ⟨hh, he⟩ := List.append_inj' h rfl
    rw [List.singleton_inj.mp he]
    exact .inr ⟨post', rfl, hh⟩

omit [Digest] [FloatText] in
private theorem exists_revoked_snoc {post : List Entry} {e : Entry} {keyId : Text} :
    (∃ x ∈ post ++ [e], x.revoked? = some keyId) ↔
      (∃ x ∈ post, x.revoked? = some keyId) ∨ e.revoked? = some keyId := by
  simp only [List.mem_append, List.mem_singleton, or_and_right, exists_or, exists_eq_left]

private theorem KeyRow.Holds.of_same {row row' : KeyRow} {issue : Issue} (h : row.Holds issue)
    (hsame : ({ row' with lastUsedAt := none } : KeyRow) = { row with lastUsedAt := none }) :
    row'.Holds issue ∧ row'.revoked = row.revoked := by
  obtain ⟨salt, digest, tenant, project, scopes, created, expires, used, revoked⟩ := row
  obtain ⟨salt', digest', tenant', project', scopes', created', expires', used', revoked'⟩ := row'
  simp only [KeyRow.mk.injEq, true_and] at hsame
  obtain ⟨rfl, rfl, rfl, rfl, rfl, rfl, rfl, rfl⟩ := hsame
  exact ⟨⟨h.tenant, h.project, h.scopes, h.supported, h.expires, h.finite, h.digest, h.form⟩, rfl⟩

/-- Issued keys stay stored over every call. -/
theorem Stored.step {db db' : Database} {history : List Entry} {entry : Entry}
    (h : Stored db history) (hc : KeyChange db db' entry) : Stored db' (history ++ [entry]) := by
  intro pre x post issue hsplit hx
  obtain ⟨rfl, rfl⟩ | ⟨post', rfl, hold⟩ := snoc_eq_append_cons hsplit
  · -- the last call issued the key
    cases hc with
    | none hissue _ _ =>
      rw [hissue] at hx
      cases hx
    | revoke _ _ hissue _ _ _ =>
      rw [hissue] at hx
      cases hx
    | issue issued row hissue _ _ hrow hlive hget =>
      obtain rfl : issued = issue := Option.some.inj (hissue.symm.trans hx)
      refine ⟨row, by rw [hget, if_pos rfl], hrow, ?_⟩
      rw [hlive]
      exact ⟨fun hf ↦ (by cases hf), fun ⟨_, hm, _⟩ ↦ (by cases hm)⟩
  · obtain ⟨row, hrow, hholds, hrev⟩ := h pre x post' issue hold hx
    have hlater : entry.revoked? ≠ some issue.keyId →
        (row.revoked = true ↔ ∃ e ∈ post' ++ [entry], e.revoked? = some issue.keyId) := by
      intro hne
      rw [hrev, exists_revoked_snoc]
      exact ⟨.inl, fun hr ↦ hr.resolve_right hne⟩
    cases hc with
    | none _ hrevoked hsame =>
      have hs := hsame issue.keyId
      rw [hrow] at hs
      obtain ⟨row', hrow', heq⟩ := Option.map_eq_some_iff.mp hs
      obtain ⟨hholds', hrev'⟩ := hholds.of_same heq
      refine ⟨row', hrow', hholds', ?_⟩
      rw [hrev']
      exact hlater fun hn ↦ by rw [hrevoked] at hn; cases hn
    | issue issued _ _ hrevoked hnew _ _ hget =>
      have hne : issued.keyId ≠ issue.keyId := by
        intro he
        rw [he, hrow] at hnew
        cases hnew
      exact ⟨row, by rw [hget, if_neg hne]; exact hrow, hholds,
        hlater fun hn ↦ by rw [hrevoked] at hn; cases hn⟩
    | revoke keyId row' _ hrevoked hkey hget =>
      by_cases hk : keyId = issue.keyId
      · obtain rfl : row' = row := Option.some.inj (hkey.symm.trans (hk ▸ hrow))
        refine ⟨{ row' with revoked := true }, by rw [hget, if_pos hk], ?_, ?_⟩
        · exact ⟨hholds.tenant, hholds.project, hholds.scopes, hholds.supported, hholds.expires,
            hholds.finite, hholds.digest, hholds.form⟩
        · rw [exists_revoked_snoc, hrevoked, hk]
          exact iff_of_true rfl (.inr rfl)
      · exact ⟨row, by rw [hget, if_neg hk]; exact hrow, hholds,
          hlater fun hn ↦ by rw [hrevoked] at hn; exact hk (Option.some.inj hn)⟩

/-- A stored key was stored before the call, or the call issued it. -/
theorem KeyChange.known {db db' : Database} {entry : Entry} (hc : KeyChange db db' entry)
    {keyId : Text} {row' : KeyRow} (hrow' : db'.apiKeys.get? keyId = some row') :
    (∃ row, db.apiKeys.get? keyId = some row) ∨
      ∃ issue, entry.issue? = some issue ∧ issue.keyId = keyId := by
  cases hc with
  | none _ _ hsame =>
    have hs := hsame keyId
    rw [hrow'] at hs
    obtain ⟨row, hrow, -⟩ := Option.map_eq_some_iff.mp hs.symm
    exact .inl ⟨row, hrow⟩
  | issue issue row hissue _ _ _ _ hget =>
    rw [hget] at hrow'
    split at hrow'
    · next hk => exact .inr ⟨issue, hissue, hk⟩
    · exact .inl ⟨row', hrow'⟩
  | revoke k row _ _ hkey hget =>
    rw [hget] at hrow'
    split at hrow'
    · next hk => exact .inl ⟨row, hk ▸ hkey⟩
    · exact .inl ⟨row', hrow'⟩

/-- Every call keeps track. -/
theorem Tracks.step {db db' : Database} {history : List Entry} {entry : Entry}
    (h : Tracks db history) (hc : KeyChange db db' entry) : Tracks db' (history ++ [entry]) := by
  refine ⟨fun keyId row' hrow' ↦ ?_, Stored.step h.stored hc⟩
  obtain ⟨row, hrow⟩ | ⟨issue, hissue, hk⟩ := hc.known hrow'
  · obtain ⟨e, he, hi⟩ := h.known keyId row hrow
    exact ⟨e, List.mem_append_left _ he, hi⟩
  · exact ⟨entry, List.mem_append_right _ (List.mem_singleton_self _), issue, hissue, hk⟩

/-- Every history is tracked. -/
theorem tracks_after [SqliteReal] (calls : List (Host × Call)) :
    Tracks (after calls).db (after calls).history := by
  have run : ∀ (cs : List (Host × Call)) (s : Store), Tracks s.db s.history →
      Tracks (cs.foldl Store.call s).db (cs.foldl Store.call s).history := by
    intro cs
    induction cs with
    | nil => exact fun s h ↦ h
    | cons c cs ih => exact fun s h ↦ ih (s.call c) (h.step (keyChange_perform c.1 s.db c.2))
  refine run calls _ ⟨fun keyId row h ↦ (by cases h), fun pre entry post issue h ↦ ?_⟩
  exact absurd h.symm (List.append_ne_nil_of_right_ne_nil _ (List.cons_ne_nil _ _))

/-! ### Which secrets authenticate -/

omit [Digest] [FloatText] in
private theorem hasExpired_eq_false {issue : Issue} {now : ℚ}
    (hfinite : ∀ expiration, issue.expiresAt = some expiration → expiration.isFinite = true) :
    hasExpired now issue.expiresAt = false ↔ issue.Unexpired now := by
  unfold Issue.Unexpired
  cases he : issue.expiresAt with
  | none => exact iff_of_true rfl fun _ h ↦ by cases h
  | some expiration =>
    obtain ⟨q, rfl⟩ := PyFloat.exists_of_isFinite (hfinite expiration he)
    simp only [hasExpired, PyFloat.le, PyFloat.lt, PyFloat.beq, Option.some.injEq, forall_eq',
      Bool.or_eq_false_iff, decide_eq_false_iff_not, decide_eq_true_eq]
    constructor
    · rintro ⟨hlt, hne⟩
      exact lt_of_le_of_ne (not_lt.mp hlt) (Ne.symm hne)
    · intro hlt
      exact ⟨not_lt.mpr hlt.le, hlt.ne'⟩

/-- A stored key accepts its own secret, while it is live. -/
theorem KeyRow.Holds.accepts {row : KeyRow} {issue : Issue} (h : row.Holds issue) {now : ℚ}
    (hlive : row.revoked = false) (hexp : issue.Unexpired now) :
    row.Accepts now issue.secret issue.scopes := by
  obtain ⟨salt, hsalt, hdigest⟩ := h.digest
  have hbytes : bytesFromHex row.salt = .ok salt := by rw [hsalt, bytesFromHex_hexBytes]
  have hhex : row.digest.all isHexChar = true := by
    unfold saltedDigest at hdigest
    split at hdigest
    · cases hdigest
    · rw [← Except.ok.inj hdigest]
      exact Digest.isHex_hmacSha256Hex _ _
  refine ⟨⟨salt, row.digest, hbytes, hdigest, compareDigest_self hhex⟩, hlive, ?_, ?_⟩
  · rw [h.expires]
    exact (hasExpired_eq_false h.finite).mpr hexp
  · rw [h.scopes, scopesOf_scopesText h.supported]

/-- A stored key accepts exactly its own secret, while it is live. -/
theorem KeyRow.Holds.accepts_iff (hinj : ∀ salt, Function.Injective (Digest.hmacSha256Hex salt))
    {row : KeyRow} {issue : Issue} (h : row.Holds issue) {now : ℚ} {plaintext : Text}
    {scopes : Finset Text} : row.Accepts now plaintext scopes ↔
      issue.secret = plaintext ∧ row.revoked = false ∧ issue.Unexpired now ∧
        scopes = issue.scopes := by
  constructor
  · rintro ⟨⟨salt', actual, hsalt', hactual, hsame⟩, hlive, hexp, hs⟩
    obtain ⟨salt, hsalt, hdigest⟩ := h.digest
    rw [hsalt, bytesFromHex_hexBytes] at hsalt'
    obtain rfl : salt = salt' := Except.ok.inj hsalt'
    rw [h.expires] at hexp
    rw [h.scopes, scopesOf_scopesText h.supported] at hs
    exact ⟨eq_of_compareDigest hinj hdigest hactual hsame, hlive,
      (hasExpired_eq_false h.finite).mp hexp, (Except.ok.inj hs).symm⟩
  · rintro ⟨rfl, hlive, hexp, rfl⟩
    exact h.accepts hlive hexp

/-- The history grants this principal to whoever presents the secret at this time: some call
issued it, no later one revoked it and it has not expired. -/
def Grants (history : List Entry) (secret : Text) (now : ℚ) (principal : Principal) : Prop :=
  ∃ pre entry post issue, history = pre ++ entry :: post ∧ entry.issue? = some issue ∧
    issue.secret = secret ∧ issue.principal = principal ∧
    (∀ e ∈ post, e.revoked? ≠ some issue.keyId) ∧ issue.Unexpired now

/-- What authenticates is accepted by a row. -/
theorem accepts_of_authenticate {host : Host} {plaintext : Text} {db : Database}
    {principal : Principal} (h : (authenticate host plaintext db).1 = .ok (some principal)) :
    ∃ keyId row scopes, matchKey plaintext = some keyId ∧ db.apiKeys.get? keyId = some row ∧
      row.Accepts (host.clock 0) plaintext scopes ∧
      principal = ⟨row.tenant, row.project, keyId, scopes⟩ := by
  rw [authenticate] at h
  split at h
  · cases h
  · next keyId hkey =>
    obtain ⟨e, hc⟩ | ⟨answer, db', hbody, -, hc⟩ :=
      connect_cases host (selectPrincipal host plaintext keyId) db
    · rw [hc] at h
      cases h
    · rw [hc] at h
      cases h
      obtain ⟨hnone, -⟩ | ⟨row, scopes, hrow, haccepts, hanswer, -⟩ :=
        selectPrincipal_cases hbody
      · cases hnone
      · exact ⟨keyId, row, scopes, hkey, hrow, haccepts, Option.some.inj hanswer⟩

/-- Exactly an accepting row authenticates. -/
theorem authenticate_eq_iff {host : Host} (hfault : host.fault = none) {plaintext : Text}
    {db : Database} {principal : Principal} :
    (authenticate host plaintext db).1 = .ok (some principal) ↔
      ∃ keyId row scopes, matchKey plaintext = some keyId ∧ db.apiKeys.get? keyId = some row ∧
        row.Accepts (host.clock 0) plaintext scopes ∧
        principal = ⟨row.tenant, row.project, keyId, scopes⟩ := by
  refine ⟨accepts_of_authenticate, ?_⟩
  rintro ⟨keyId, row, scopes, hkey, hrow, haccepts, rfl⟩
  obtain ⟨db', hbody⟩ := selectPrincipal_of_accepts hrow haccepts
  rw [authenticate, hkey]
  simp only [connect, hbody, hfault]

/-- An issued key that is stored and not revoked since authenticates until it expires. -/
theorem Stored.authenticate_eq {db : Database} {history pre post : List Entry} {entry : Entry}
    {issue : Issue} (h : Stored db history) (hsplit : history = pre ++ entry :: post)
    (hissue : entry.issue? = some issue) (hnot : ∀ e ∈ post, e.revoked? ≠ some issue.keyId)
    {host : Host} (hfault : host.fault = none) (hexp : issue.Unexpired (host.clock 0)) :
    (authenticate host issue.secret db).1 = .ok (some issue.principal) := by
  obtain ⟨row, hrow, hholds, hrev⟩ := h pre entry post issue hsplit hissue
  have hlive : row.revoked = false := by
    rw [Bool.eq_false_iff]
    intro hr
    obtain ⟨e, he, hre⟩ := hrev.mp hr
    exact hnot e he hre
  refine (authenticate_eq_iff hfault).mpr ⟨issue.keyId, row, issue.scopes, hholds.form, hrow,
    hholds.accepts hlive hexp, ?_⟩
  rw [Issue.principal, hholds.tenant, hholds.project]

omit [Digest] [FloatText] in
/-- A key that is not in the named project stays as it is. -/
theorem revokeKey_elsewhere (host : Host) {tenant project keyId : Text} {db : Database}
    (h : ∀ row, db.apiKeys.get? keyId = some row → ¬ (row.tenant = tenant ∧ row.project = project)) :
    ∃ e, revokeKey host tenant project keyId db = (.error e, db) := by
  obtain hc | ⟨u, db', hbody, -, -⟩ :=
    connect_cases host (updateRevoked host tenant project keyId) db
  · exact hc
  · rw [updateRevoked] at hbody
    split at hbody
    · cases hbody
    · split at hbody
      · cases hbody
      · next row hrow =>
        rw [if_neg (h row hrow)] at hbody
        cases hbody

/-- After any history, exactly the secrets it grants authenticate, and `revoke_key` changes nothing
unless it names the project that the key was issued for. -/
theorem authenticate_iff [SqliteReal] (hinj : ∀ salt, Function.Injective (Digest.hmacSha256Hex salt))
    (calls : List (Host × Call)) :
    (∀ (host : Host) (plaintext : Text) (principal : Principal), host.fault = none →
      ((authenticate host plaintext (after calls).db).1 = .ok (some principal) ↔
        Grants (after calls).history plaintext (host.clock 0) principal)) ∧
    ∀ (host : Host) (tenant project keyId : Text),
      (∀ entry ∈ (after calls).history, ∀ issue, entry.issue? = some issue →
        issue.keyId = keyId → ¬ (issue.tenant = tenant ∧ issue.project = project)) →
      ∃ e, revokeKey host tenant project keyId (after calls).db = (.error e, (after calls).db) := by
  have htracks := tracks_after calls
  refine ⟨fun host plaintext principal hfault ↦ ?_, fun host tenant project keyId hother ↦ ?_⟩
  · rw [authenticate_eq_iff hfault]
    constructor
    · rintro ⟨keyId, row, scopes, hkey, hrow, haccepts, rfl⟩
      obtain ⟨entry, hentry, issue, hissue, rfl⟩ := htracks.known keyId row hrow
      obtain ⟨pre, post, hsplit⟩ := List.append_of_mem hentry
      obtain ⟨row', hrow', hholds, hrev⟩ := htracks.stored pre entry post issue hsplit hissue
      obtain rfl : row = row' := Option.some.inj (hrow.symm.trans hrow')
      obtain ⟨hsecret, hlive, hexp, rfl⟩ := (hholds.accepts_iff hinj).mp haccepts
      refine ⟨pre, entry, post, issue, hsplit, hissue, hsecret, ?_, fun e he hr ↦ ?_, hexp⟩
      · rw [Issue.principal, hholds.tenant, hholds.project]
      · rw [hrev.mpr ⟨e, he, hr⟩] at hlive
        cases hlive
    · rintro ⟨pre, entry, post, issue, hsplit, hissue, rfl, rfl, hnot, hexp⟩
      exact (authenticate_eq_iff hfault).mp
        (Stored.authenticate_eq htracks.stored hsplit hissue hnot hfault hexp)
  · refine revokeKey_elsewhere host fun row hrow ↦ ?_
    obtain ⟨entry, hentry, issue, hissue, rfl⟩ := htracks.known keyId row hrow
    obtain ⟨pre, post, hsplit⟩ := List.append_of_mem hentry
    obtain ⟨row', hrow', hholds, -⟩ := htracks.stored pre entry post issue hsplit hissue
    obtain rfl : row = row' := Option.some.inj (hrow.symm.trans hrow')
    rw [hholds.tenant, hholds.project]
    exact hother entry hentry issue hissue rfl

end Calls

/-! ### One issued key -/

/-- A clock that stands still and a database that works. -/
def steadyHost : Host := ⟨fun _ ↦ 1000, none⟩

/-- Key material of one repeated character each. -/
def plainMaterial : KeyMaterial where
  keyId := List.replicate 24 48
  tail := List.replicate 43 65
  salt := ByteArray.empty
  length_keyId := by decide
  isHex_keyId := by decide
  length_tail := by decide
  isUrlSafe_tail := by decide

/-- A project is created and gets a key that expires later. -/
def oneKey : List (Host × Call) :=
  [(steadyHost, .createProject "acme" "web" 60 10),
    (steadyHost, .issueKey "acme" "web" {Text.ofString "models:read"} false (some (.fin 2000))
      plainMaterial)]

/-- The secret of that key authenticates, and another tenant cannot revoke it. -/
theorem authenticate_iff_oneKey :
    (@authenticate Digest.transparent FloatText.fraction steadyHost
      (keyText false plainMaterial.keyId plainMaterial.tail)
      (@after Digest.transparent FloatText.fraction SqliteReal.fraction oneKey).db).1 =
        .ok (some ⟨"acme", "web", plainMaterial.keyId, {Text.ofString "models:read"}⟩) ∧
    ∃ e, revokeKey steadyHost "other" "web" plainMaterial.keyId
      (@after Digest.transparent FloatText.fraction SqliteReal.fraction oneKey).db =
        (.error e, (@after Digest.transparent FloatText.fraction SqliteReal.fraction oneKey).db) := by
  let _ := Digest.transparent
  let _ := FloatText.fraction
  let _ := SqliteReal.fraction
  have hinj : ∀ salt, Function.Injective (Digest.hmacSha256Hex salt) := fun _ ↦ hexBytes_injective
  have hhistory : (after oneKey).history =
      [⟨.createProject "acme" "web" 60 10, .ok .done⟩,
        ⟨.issueKey "acme" "web" {Text.ofString "models:read"} false (some (.fin 2000))
          plainMaterial, .ok (.issued ⟨plainMaterial.keyId,
            keyText false plainMaterial.keyId plainMaterial.tail⟩)⟩] := rfl
  obtain ⟨hauth, hrevoke⟩ := authenticate_iff hinj oneKey
  constructor
  · refine (hauth steadyHost _ _ rfl).mpr ?_
    rw [hhistory]
    refine ⟨[_], _, [], _, rfl, rfl, rfl, rfl, fun e he ↦ (by cases he), fun expiration he ↦ ?_⟩
    cases he
    decide
  · refine hrevoke steadyHost _ _ _ fun entry hentry issue hissue _ hplace ↦ ?_
    rw [hhistory] at hentry
    simp only [List.mem_cons, List.not_mem_nil, or_false] at hentry
    obtain rfl | rfl := hentry
    · cases hissue
    · cases hissue
      exact absurd hplace.1 (by decide)

end C3RSpec.ApiAccess

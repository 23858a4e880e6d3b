import C3RSpec.Base.Prog
import C3RSpec.Retention.Inventory

/-!
# The purge deletes the expired versions

`c3r/retention_job.py:70–92,163–171`. The job lists the bucket, asks for the deletion of every
version that is 28 days old, and lists the bucket again. Meanwhile others may create objects, and a
deletion may fail with or without an exception. A version is addressed by its name and its
generation, and the bucket never holds two versions with the same ones.
-/

namespace C3RSpec.Retention

open Base

/-! ### The job -/

/-- What the job asks of its client and the service. -/
inductive StorageOp where
  | listAll
  | delete (url : Text)

/-- The answers. -/
@[reducible] def StorageResult : StorageOp → Type
  | .listAll => Except PyError (List StoredObject)
  | .delete _ => Except PyError Unit

/-- A program over the storage. -/
abbrev StorageProg := Prog StorageOp StorageResult

/-- `GcsJsonClient.delete_generation`. -/
def deleteGeneration (bucket : Text) (obj : StoredObject) : StorageProg Unit := do
  if obj.name = [] ∨ obj.generation ≤ 0 then throw (valueError "invalid deletion target")
  let url ← Prog.ofExcept (objectUrl bucket obj)
  let answer ← Prog.perform (.delete url)
  Prog.ofExcept answer

/-- `for item in expired: client.delete_generation(item)`. -/
def deleteAll (bucket : Text) : List StoredObject → StorageProg Unit
  | [] => pure ()
  | obj :: rest => do
    deleteGeneration bucket obj
    deleteAll bucket rest

/-- `client.list_all()`. -/
def listObjects : StorageProg (List StoredObject) := do
  let answer ← Prog.perform .listAll
  Prog.ofExcept answer

/-- `_BUCKET.fullmatch(bucket)`. -/
def isTraceBucket (bucket : Text) : Bool :=
  let stem : Text := "colomboai-c3r-staging-traces-"
  stem.isPrefixOf bucket && (bucket.drop stem.length).length == 12 &&
    (bucket.drop stem.length).all isDigit

/-- `item.created_at <= cutoff`. -/
def isExpired (cutoff : DateTime) (obj : StoredObject) : Bool :=
  obj.createdAt.micros ≤ cutoff.micros

/-- `DELETE_AFTER_DAYS`. -/
def deleteAfterDays : Nat := 28

/-- `cutoff.isoformat()`, which leaves out microseconds when there are none. -/
def cutoffText (cutoff : DateTime) : Text :=
  if cutoff.microsecond = 0 then cutoff.isoformat.take 19 ++ Text.ofString "+00:00"
  else cutoff.isoformat

/-- The report of a purge. -/
structure PurgeReport where
  bucket : Text
  cutoffUtc : Text
  objectsBefore : Nat
  expiredCandidates : Nat
  objectsAfter : Nat
  expiredRemaining : Nat := 0
  traceCollectionEnabled : Bool := false

/-- `purge` from the second listing on. -/
def purgeRemaining (bucket : Text) (cutoff : DateTime) (before : List StoredObject) :
    StorageProg PurgeReport := do
  let remaining ← listObjects
  if remaining.any (isExpired cutoff) then
    throw ⟨.runtimeError, "expired objects remain after purge; collection must stay disabled"⟩
  else
    return {
      bucket
      cutoffUtc := cutoffText cutoff
      objectsBefore := before.length
      expiredCandidates := (before.filter (isExpired cutoff)).length
      objectsAfter := remaining.length }

/-- `purge` after the first listing. -/
def purgeListed (bucket : Text) (cutoff : DateTime) (before : List StoredObject) :
    StorageProg PurgeReport :=
  if inventoryLimit < before.length ∨ ¬ (before.map StoredObject.key).Nodup then
    throw (valueError "bucket inventory is too large or contains duplicate generations")
  else do
    deleteAll bucket (before.filter (isExpired cutoff))
    purgeRemaining bucket cutoff before

/-- `purge` from the first listing on. -/
def purgeBefore (bucket : Text) (cutoff : DateTime) : StorageProg PurgeReport := do
  let before ← listObjects
  purgeListed bucket cutoff before

/-- `purge`; the clock is its reading and its offset from UTC, nothing for a naive one. -/
def purge (bucket : Text) (now : DateTime) (utcOffset : Option Int) : StorageProg PurgeReport := do
  if !isTraceBucket bucket then
    throw (valueError "C3R_TRACE_BUCKET must name the dedicated C3R staging trace bucket")
  if utcOffset ≠ some 0 then throw (valueError "purge clock must be UTC")
  match now.minusDays deleteAfterDays with
  | none => throw ⟨.overflowError, "date value out of range"⟩
  | some cutoff => purgeBefore bucket cutoff

/-! ### The bucket -/

/-- Somebody creates an object, or a request of the job is answered. -/
inductive Happening where
  | created (obj : StoredObject)
  | answered (e : Event StorageOp StorageResult)

/-- What can happen to the objects of a bucket. -/
inductive BucketStep (bucket : Text) (cutoff : DateTime) :
    List StoredObject → Happening → List StoredObject → Prop
  | created {objects : List StoredObject} {obj : StoredObject}
      (late : cutoff.micros < obj.createdAt.micros)
      (unused : obj.key ∉ objects.map StoredObject.key) :
      BucketStep bucket cutoff objects (.created obj) (obj :: objects)
  | listed {objects found : List StoredObject} (h : found.Perm objects) :
      BucketStep bucket cutoff objects (.answered ⟨.listAll, .ok found⟩) objects
  | unlisted {objects : List StoredObject} (e : PyError) :
      BucketStep bucket cutoff objects (.answered ⟨.listAll, .error e⟩) objects
  | deleted {objects : List StoredObject} (url : Text) (answer : Except PyError Unit) :
      BucketStep bucket cutoff objects (.answered ⟨.delete url, answer⟩)
        (objects.filter fun obj ↦ (objectUrl bucket obj).toOption ≠ some url)
  | kept {objects : List StoredObject} (url : Text) (answer : Except PyError Unit) :
      BucketStep bucket cutoff objects (.answered ⟨.delete url, answer⟩) objects

/-- What has happened to a bucket. -/
inductive History (bucket : Text) (cutoff : DateTime) :
    List StoredObject → List Happening → List StoredObject → Prop
  | nil (objects : List StoredObject) : History bucket cutoff objects [] objects
  | snoc {objects mid after : List StoredObject} {moves : List Happening} {move : Happening}
      (h : History bucket cutoff objects moves mid)
      (step : BucketStep bucket cutoff mid move after) :
      History bucket cutoff objects (moves ++ [move]) after

/-- The requests of the job among what has happened. -/
def requests (moves : List Happening) : List (Event StorageOp StorageResult) :=
  moves.filterMap fun move ↦
    match move with
    | .created _ => none
    | .answered e => some e

/-- The objects that the bucket held at first or that were created. -/
def Seen (objects : List StoredObject) (moves : List Happening) (obj : StoredObject) : Prop :=
  obj ∈ objects ∨ .created obj ∈ moves

/-- The first request listed these objects. -/
def FirstListing (moves : List Happening) (before : List StoredObject) : Prop :=
  ∃ rest, requests moves = ⟨.listAll, .ok before⟩ :: rest

/-- The job listed `before`, asked for deletions only, and listed the bucket a second time when
nothing expired was in it. -/
def SecondListingClean (bucket : Text) (cutoff : DateTime) (objects : List StoredObject)
    (moves : List Happening) (before : List StoredObject) : Prop :=
  ∃ pre post found mid deletions, moves = pre ++ .answered ⟨.listAll, .ok found⟩ :: post ∧
    requests pre = ⟨.listAll, .ok before⟩ :: deletions ∧
    (∀ e ∈ deletions, ∃ url answer, e = ⟨.delete url, answer⟩) ∧
    History bucket cutoff objects pre mid ∧ found.Perm mid ∧
    ∀ obj ∈ mid, isExpired cutoff obj = false

/-- What a job does to a bucket, whatever has happened so far and however the job goes on. -/
structure PurgesExpired (bucket : Text) (cutoff : DateTime) (objects : List StoredObject)
    (moves : List Happening) (after : List StoredObject) (rest : StorageProg PurgeReport) :
    Prop where
  survives : ∀ obj, Seen objects moves obj → cutoff.micros < obj.createdAt.micros → obj ∈ after
  gone : ∀ obj, Seen objects moves obj → obj ∉ after → isExpired cutoff obj = true ∧
    ∃ before, FirstListing moves before ∧ obj ∈ before
  deletions : ∀ url answer, ⟨.delete url, answer⟩ ∈ requests moves →
    ∃ before, FirstListing moves before ∧
      ∃ obj ∈ before, isExpired cutoff obj = true ∧ objectUrl bucket obj = .ok url
  returned : ∀ report, rest = .ret report → ∃ before, FirstListing moves before ∧
    report.expiredCandidates = before.countP (isExpired cutoff) ∧
    SecondListingClean bucket cutoff objects moves before

/-! ### Addresses -/

/-- The address of a version determines its name and its generation. -/
theorem objectUrl_inj {bucket url : Text} {a b : StoredObject} (ha : objectUrl bucket a = .ok url)
    (hb : objectUrl bucket b = .ok url) : a.key = b.key := by
  obtain ⟨name, hname, ha⟩ := bind_eq_ok.mp ha
  obtain ⟨generation, hgeneration, ha⟩ := bind_eq_ok.mp ha
  obtain ⟨name', hname', hb⟩ := bind_eq_ok.mp hb
  obtain ⟨generation', hgeneration', hb⟩ := bind_eq_ok.mp hb
  have hurl := List.append_cancel_left ((Except.ok.inj ha).trans (Except.ok.inj hb).symm)
  have hpath := (List.cons.inj hurl).2
  obtain ⟨hn, hquery⟩ := urlQuote_append_inj hname hname' rfl rfl hpath
  have hg := List.append_cancel_left (List.cons.inj hquery).2
  rw [← hg] at hgeneration'
  have hdecimal := urlQuote_inj hgeneration hgeneration'
  have hint : a.generation = b.generation := by
    rw [← intValue_decimalInt a.generation, hdecimal, intValue_decimalInt]
  rw [StoredObject.key, StoredObject.key, hn, hint]

/-! ### What the job asks for -/

/-- A deletion follows the first listing, is of an expired object of it, and has not been asked
for before. -/
def AsksExpired (bucket : Text) (cutoff : DateTime) (es : List (Event StorageOp StorageResult)) :
    StorageOp → Prop
  | .listAll => True
  | .delete url => ∃ before rest, es = ⟨.listAll, .ok before⟩ :: rest ∧
      (before.map StoredObject.key).Nodup ∧ (∀ answer, ⟨.delete url, answer⟩ ∉ es) ∧
      ∃ obj ∈ before, isExpired cutoff obj = true ∧ objectUrl bucket obj = .ok url

section Job

variable {bucket : Text} {cutoff : DateTime}

private theorem guarded_deleteAll {before : List StoredObject}
    (hbefore : (before.map StoredObject.key).Nodup) {objs : List StoredObject}
    {rest : List (Event StorageOp StorageResult)}
    (hobjs : ∀ obj ∈ objs, obj ∈ before ∧ isExpired cutoff obj = true)
    (hnodup : (objs.map StoredObject.key).Nodup)
    (hunasked : ∀ obj ∈ objs, ∀ url answer, objectUrl bucket obj = .ok url →
      (⟨.delete url, answer⟩ : Event StorageOp StorageResult) ∉ rest) :
    Prog.Guarded (AsksExpired bucket cutoff) (⟨.listAll, .ok before⟩ :: rest)
      (deleteAll bucket objs) := by
  induction objs generalizing rest with
  | nil => trivial
  | cons obj objs ih =>
    rw [deleteAll, deleteGeneration]
    by_cases hinvalid : obj.name = [] ∨ obj.generation ≤ 0
    · rw [if_pos hinvalid]
      trivial
    rw [if_neg hinvalid]
    cases hurl : objectUrl bucket obj with
    | error e => trivial
    | ok url =>
      obtain ⟨hin, hexpired⟩ := hobjs obj List.mem_cons_self
      rw [List.map_cons, List.nodup_cons] at hnodup
      refine ⟨⟨before, rest, rfl, hbefore, fun answer hmem ↦ ?_, obj, hin, hexpired, hurl⟩,
        fun answer ↦ ?_⟩
      · obtain hfirst | hmem := List.mem_cons.mp hmem
        · cases hfirst
        · exact hunasked obj List.mem_cons_self url answer hurl hmem
      · cases answer with
        | error e => trivial
        | ok done =>
          refine ih (fun o ho ↦ hobjs o (List.mem_cons_of_mem obj ho)) hnodup.2 ?_
          intro o ho url' answer hurl' hmem
          obtain hmem | hmem := List.mem_append.mp hmem
          · exact hunasked o (List.mem_cons_of_mem obj ho) url' answer hurl' hmem
          · -- two objects with one address are one version
            cases List.mem_singleton.mp hmem
            have hkey := objectUrl_inj hurl' hurl
            exact hnodup.1 (hkey ▸ List.mem_map_of_mem ho)

private theorem guarded_purgeRemaining (before : List StoredObject)
    (es : List (Event StorageOp StorageResult)) :
    Prog.Guarded (AsksExpired bucket cutoff) es (purgeRemaining bucket cutoff before) := by
  refine ⟨trivial, fun answer ↦ ?_⟩
  cases answer with
  | error e => trivial
  | ok remaining =>
    change Prog.Guarded _ _ (if _ then _ else _)
    split <;> trivial

private theorem guarded_purgeBefore :
    Prog.Guarded (AsksExpired bucket cutoff) [] (purgeBefore bucket cutoff) := by
  refine ⟨trivial, fun answer ↦ ?_⟩
  cases answer with
  | error e => trivial
  | ok before =>
    change Prog.Guarded _ _ (purgeListed bucket cutoff before)
    rw [purgeListed]
    by_cases hbad : inventoryLimit < before.length ∨ ¬ (before.map StoredObject.key).Nodup
    · rw [if_pos hbad]
      trivial
    · rw [if_neg hbad]
      rw [not_or, not_not] at hbad
      apply Prog.Guarded.bind
      · refine guarded_deleteAll hbad.2 (fun obj hobj ↦ List.mem_filter.mp hobj) ?_ ?_
        · exact hbad.2.sublist (List.filter_sublist.map _)
        · intro _ _ _ _ _ hmem
          cases hmem
      · exact Prog.All.of_forall _ fun es x _ _ ↦ guarded_purgeRemaining before _

/-- A job asks for nothing, or for what `purgeBefore` asks. -/
theorem purge_cases {now : DateTime} (hcutoff : now.minusDays deleteAfterDays = some cutoff)
    (bucket : Text) (utcOffset : Option Int) :
    (∃ e, purge bucket now utcOffset = .raise e) ∨
      purge bucket now utcOffset = purgeBefore bucket cutoff := by
  rw [purge]
  by_cases hname : (!isTraceBucket bucket) = true
  · rw [if_pos hname]
    exact .inl ⟨_, rfl⟩
  rw [if_neg hname]
  by_cases hclock : utcOffset ≠ some 0
  · rw [if_pos hclock]
    exact .inl ⟨_, rfl⟩
  rw [if_neg hclock, hcutoff]
  exact .inr rfl

/-- A job only asks for the deletion of expired objects of its first listing. -/
theorem guarded_purge {now : DateTime} (hcutoff : now.minusDays deleteAfterDays = some cutoff)
    (utcOffset : Option Int) :
    Prog.Guarded (AsksExpired bucket cutoff) [] (purge bucket now utcOffset) := by
  obtain ⟨e, he⟩ | he := purge_cases hcutoff bucket utcOffset
  · rw [he]
    trivial
  · rw [he]
    exact guarded_purgeBefore

/-- The requests and the report of a job that returns. -/
structure Returned (cutoff : DateTime) (es : List (Event StorageOp StorageResult))
    (report : PurgeReport) (before remaining : List StoredObject) : Prop where
  events : ∃ deletions, es = ⟨.listAll, .ok before⟩ :: deletions ++ [⟨.listAll, .ok remaining⟩] ∧
    ∀ e ∈ deletions, ∃ url answer, e = ⟨.delete url, answer⟩
  clean : ∀ obj ∈ remaining, isExpired cutoff obj = false
  candidates : report.expiredCandidates = before.countP (isExpired cutoff)

private theorem all_deleteAll (objs : List StoredObject) :
    Prog.All (fun es _ ↦ ∀ e ∈ es, ∃ url answer, e = ⟨StorageOp.delete url, answer⟩)
      (deleteAll bucket objs) := by
  induction objs with
  | nil =>
    intro e he
    cases he
  | cons obj objs ih =>
    rw [deleteAll, deleteGeneration]
    by_cases hinvalid : obj.name = [] ∨ obj.generation ≤ 0
    · rw [if_pos hinvalid]
      intro e he
      cases he
    rw [if_neg hinvalid]
    cases objectUrl bucket obj with
    | error e =>
      intro e he
      cases he
    | ok url =>
      intro answer
      cases answer with
      | error e =>
        intro e' he'
        exact ⟨url, .error e, List.mem_singleton.mp he'⟩
      | ok done =>
        refine ih.mono fun es x hes e he ↦ ?_
        obtain rfl | he := List.mem_cons.mp he
        · exact ⟨url, .ok done, rfl⟩
        · exact hes e he

private theorem all_purgeBefore : Prog.All (fun es x ↦ ∀ report, x = .ok report →
    ∃ before remaining, Returned cutoff es report before remaining)
      (purgeBefore bucket cutoff) := by
  intro answer
  cases answer with
  | error e =>
    intro report h
    cases h
  | ok before =>
    change Prog.All _ (purgeListed bucket cutoff before)
    rw [purgeListed]
    by_cases hbad : inventoryLimit < before.length ∨ ¬ (before.map StoredObject.key).Nodup
    · rw [if_pos hbad]
      intro report h
      cases h
    · rw [if_neg hbad]
      apply Prog.All.bind
      refine (all_deleteAll _).mono fun deletions x hdeletions ↦
        ⟨fun _ _ answer ↦ ?_, fun e _ report h ↦ ?_⟩
      · cases answer with
        | error e =>
          intro report h
          cases h
        | ok remaining =>
          change Prog.All _ (if _ then _ else _)
          by_cases hleft : remaining.any (isExpired cutoff) = true
          · rw [if_pos hleft]
            intro report h
            cases h
          · rw [if_neg hleft]
            intro report h
            cases h
            refine ⟨before, remaining, ⟨deletions, rfl, hdeletions⟩, fun obj hobj ↦ ?_, ?_⟩
            · rw [List.any_eq_true, not_exists] at hleft
              exact Bool.eq_false_iff.mpr fun hexpired ↦ hleft obj ⟨hobj, hexpired⟩
            · rw [List.countP_eq_length_filter]
      · cases h

/-- What a job has done when it returns. -/
theorem returned_of_runs {now : DateTime} {utcOffset : Option Int}
    (hcutoff : now.minusDays deleteAfterDays = some cutoff)
    {es : List (Event StorageOp StorageResult)} {report : PurgeReport}
    (h : Prog.Runs (purge bucket now utcOffset) es (.ret report)) :
    ∃ before remaining, Returned cutoff es report before remaining := by
  obtain ⟨e, he⟩ | he := purge_cases hcutoff bucket utcOffset
  · rw [he, Prog.runs_raise] at h
    cases h.2
  · rw [he] at h
    exact all_purgeBefore.of_finishes ⟨_, h, rfl⟩ report rfl

/-! ### What becomes of the objects -/

private theorem requests_created (moves : List Happening) (obj : StoredObject) :
    requests (moves ++ [.created obj]) = requests moves := by
  simp [requests]

private theorem requests_answered (moves : List Happening) (e : Event StorageOp StorageResult) :
    requests (moves ++ [.answered e]) = requests moves ++ [e] := by
  simp [requests]

/-- An object whose deletion was asked for. -/
def Asked (bucket : Text) (moves : List Happening) (obj : StoredObject) : Prop :=
  ∃ url answer, objectUrl bucket obj = .ok url ∧ ⟨.delete url, answer⟩ ∈ requests moves

private theorem Asked.mono {moves : List Happening} {obj : StoredObject}
    (h : Asked bucket moves obj) (move : Happening) : Asked bucket (moves ++ [move]) obj := by
  obtain ⟨url, answer, hurl, hmem⟩ := h
  refine ⟨url, answer, hurl, ?_⟩
  rw [requests, List.filterMap_append]
  exact List.mem_append_left _ hmem

/-- What is gone was listed, expired and asked for; after the first listing no two objects have
one address, and what is expired was listed. -/
structure Preserved (bucket : Text) (cutoff : DateTime) (objects : List StoredObject)
    (moves : List Happening) (now : List StoredObject) : Prop where
  gone : ∀ obj, Seen objects moves obj → obj ∉ now → isExpired cutoff obj = true ∧
    ∃ before, FirstListing moves before ∧ obj ∈ before
  nodup : ∀ before, FirstListing moves before → (before.map StoredObject.key).Nodup →
    (now.map StoredObject.key).Nodup
  asked : ∀ before, FirstListing moves before → ∀ obj ∈ before, obj ∉ now → Asked bucket moves obj

private theorem firstListing_append {moves : List Happening} {before : List StoredObject}
    (h : FirstListing moves before) (e : Event StorageOp StorageResult) :
    FirstListing (moves ++ [.answered e]) before := by
  obtain ⟨rest, hrest⟩ := h
  exact ⟨rest ++ [e], by rw [requests_answered, hrest, List.cons_append]⟩

private theorem firstListing_cases {moves : List Happening} {e : Event StorageOp StorageResult}
    {before : List StoredObject} (h : FirstListing (moves ++ [.answered e]) before) :
    FirstListing moves before ∨ (requests moves = [] ∧ e = ⟨.listAll, .ok before⟩) := by
  obtain ⟨rest, hrest⟩ := h
  rw [requests_answered] at hrest
  cases hmoves : requests moves with
  | nil =>
    rw [hmoves, List.nil_append] at hrest
    exact .inr ⟨rfl, (List.cons.inj hrest).1⟩
  | cons first others =>
    rw [hmoves, List.cons_append] at hrest
    rw [(List.cons.inj hrest).1] at hmoves
    exact .inl ⟨others, hmoves⟩

-- A request that leaves the objects as they are and is not the first listing.
private theorem Preserved.answered {objects now : List StoredObject} {moves : List Happening}
    (h : Preserved bucket cutoff objects moves now) {e : Event StorageOp StorageResult}
    (he : ∀ before, e = ⟨.listAll, .ok before⟩ → before.Perm now) :
    Preserved bucket cutoff objects (moves ++ [.answered e]) now where
  gone obj hseen hgone := by
    have hseen : Seen objects moves obj := by simpa [Seen] using hseen
    obtain ⟨hexpired, before, hfirst, hmem⟩ := h.gone obj hseen hgone
    exact ⟨hexpired, before, firstListing_append hfirst e, hmem⟩
  nodup before hfirst hnodup := by
    obtain hfirst | ⟨-, hlist⟩ := firstListing_cases hfirst
    · exact h.nodup before hfirst hnodup
    · exact ((he before hlist).map _).nodup_iff.mp hnodup
  asked before hfirst obj hmem hgone := by
    obtain hfirst | ⟨-, hlist⟩ := firstListing_cases hfirst
    · exact (h.asked before hfirst obj hmem hgone).mono _
    · exact absurd ((he before hlist).mem_iff.mp hmem) hgone

private theorem Preserved.created {objects now : List StoredObject} {moves : List Happening}
    (h : Preserved bucket cutoff objects moves now) {obj : StoredObject}
    (hunused : obj.key ∉ now.map StoredObject.key) :
    Preserved bucket cutoff objects (moves ++ [.created obj]) (obj :: now) where
  gone o hseen hgone := by
    rw [List.mem_cons, not_or] at hgone
    have hseen : Seen objects moves o := by simpa [Seen, hgone.1] using hseen
    obtain ⟨hexpired, before, hfirst, hmem⟩ := h.gone o hseen hgone.2
    refine ⟨hexpired, before, ?_, hmem⟩
    rw [FirstListing, requests_created]
    exact hfirst
  nodup before hfirst hnodup := by
    rw [FirstListing, requests_created] at hfirst
    rw [List.map_cons, List.nodup_cons]
    exact ⟨hunused, h.nodup before hfirst hnodup⟩
  asked before hfirst o hmem hgone := by
    rw [FirstListing, requests_created] at hfirst
    exact (h.asked before hfirst o hmem fun ho ↦ hgone (List.mem_cons_of_mem obj ho)).mono _

-- The address that is deleted belongs to one listed object, and to no later one.
private theorem Preserved.deleted {objects now : List StoredObject} {moves : List Happening}
    (h : Preserved bucket cutoff objects moves now) {url : Text} (answer : Except PyError Unit)
    (hasks : AsksExpired bucket cutoff (requests moves) (.delete url)) :
    Preserved bucket cutoff objects (moves ++ [.answered ⟨.delete url, answer⟩])
      (now.filter fun obj ↦ (objectUrl bucket obj).toOption ≠ some url) := by
  obtain ⟨before, rest, hes, hbefore, hunasked, target, htarget, hexpired, hurl⟩ := hasks
  have hfirst : FirstListing moves before := ⟨rest, hes⟩
  have hnodup := h.nodup before hfirst hbefore
  have hsame : ∀ obj ∈ now, objectUrl bucket obj = .ok url → obj = target := by
    intro obj hobj hobjurl
    have hstill : target ∈ now := by
      by_contra hgone
      obtain ⟨url', answer', hurl', hmem⟩ := h.asked before hfirst target htarget hgone
      rw [hurl] at hurl'
      cases hurl'
      exact hunasked answer' hmem
    exact List.inj_on_of_nodup_map hnodup hobj hstill (objectUrl_inj hobjurl hurl)
  have hleft : ∀ obj, obj ∉ now.filter (fun o ↦ (objectUrl bucket o).toOption ≠ some url) →
      obj ∉ now ∨ (obj ∈ now ∧ objectUrl bucket obj = .ok url) := by
    intro obj hgone
    by_cases hin : obj ∈ now
    · refine .inr ⟨hin, ?_⟩
      by_contra hother
      apply hgone
      refine List.mem_filter.mpr ⟨hin, decide_eq_true fun hsome ↦ hother ?_⟩
      exact toOption_eq_some.mp hsome
    · exact .inl hin
  refine ⟨fun obj hseen hgone ↦ ?_, fun first hfirst' hnodup' ↦ ?_,
    fun first hfirst' obj hmem hgone ↦ ?_⟩
  · have hseen : Seen objects moves obj := by simpa [Seen] using hseen
    obtain hgone | ⟨hin, hobjurl⟩ := hleft obj hgone
    · obtain ⟨hold, first, hfirst', hmem⟩ := h.gone obj hseen hgone
      exact ⟨hold, first, firstListing_append hfirst' _, hmem⟩
    · rw [hsame obj hin hobjurl]
      exact ⟨hexpired, before, firstListing_append hfirst _, htarget⟩
  · obtain hfirst' | ⟨-, hlist⟩ := firstListing_cases hfirst'
    · exact (h.nodup first hfirst' hnodup').sublist (List.filter_sublist.map _)
    · cases hlist
  · obtain hfirst' | ⟨-, hlist⟩ := firstListing_cases hfirst'
    · obtain hgone | ⟨-, hobjurl⟩ := hleft obj hgone
      · exact (h.asked first hfirst' obj hmem hgone).mono _
      · refine ⟨url, answer, hobjurl, ?_⟩
        rw [requests_answered]
        exact List.mem_append_right _ (List.mem_singleton_self _)
    · cases hlist

/-- Every step that the job takes part in preserves what is not expired. -/
theorem Preserved.step {objects mid after : List StoredObject} {moves : List Happening}
    {move : Happening} (h : Preserved bucket cutoff objects moves mid)
    (hstep : BucketStep bucket cutoff mid move after)
    (hasks : ∀ e, move = .answered e → AsksExpired bucket cutoff (requests moves) e.op) :
    Preserved bucket cutoff objects (moves ++ [move]) after := by
  cases hstep with
  | created late unused => exact h.created unused
  | listed hperm =>
    refine h.answered ?_
    rintro before ⟨⟩
    exact hperm
  | unlisted e =>
    refine h.answered ?_
    rintro before ⟨⟩
  | deleted url answer => exact h.deleted answer (hasks _ rfl)
  | kept url answer =>
    refine h.answered ?_
    rintro before ⟨⟩

/-- So does everything that happens during a job. -/
theorem preserved_of_runs {now : DateTime} {utcOffset : Option Int}
    (hcutoff : now.minusDays deleteAfterDays = some cutoff) {objects after : List StoredObject}
    {moves : List Happening} (hhistory : History bucket cutoff objects moves after)
    (hrun : ∃ rest, Prog.Runs (purge bucket now utcOffset) (requests moves) rest) :
    Preserved bucket cutoff objects moves after := by
  induction hhistory with
  | nil =>
    refine ⟨fun obj hseen hgone ↦ ?_, ?_, ?_⟩
    · obtain hin | hin := hseen
      · exact absurd hin hgone
      · cases hin
    · rintro before ⟨rest, hrest⟩
      cases hrest
    · rintro before ⟨rest, hrest⟩
      cases hrest
  | @snoc mid after moves move hhistory hstep ih =>
    obtain ⟨rest, hrest⟩ := hrun
    cases move with
    | created obj =>
      rw [requests_created] at hrest
      refine (ih ⟨rest, hrest⟩).step hstep ?_
      rintro e ⟨⟩
    | answered e =>
      rw [requests_answered] at hrest
      obtain ⟨waiting, hbefore, hlast⟩ := hrest.split
      refine (ih ⟨waiting, hbefore⟩).step hstep ?_
      rintro _ ⟨⟩
      cases hlast with
      | call o k answer _ _ _ =>
        exact Prog.guarded_iff.mp (guarded_purge hcutoff utcOffset) (requests moves) o k hbefore

/-! ### The second listing -/

private theorem History.split {objects after : List StoredObject} {moves : List Happening}
    (h : History bucket cutoff objects moves after) {pre post : List Happening} {move : Happening}
    (hmoves : moves = pre ++ move :: post) :
    ∃ mid next, History bucket cutoff objects pre mid ∧ BucketStep bucket cutoff mid move next := by
  induction h generalizing post with
  | nil => simp at hmoves
  | @snoc mid after moves last hhistory hstep ih =>
    cases post using List.reverseRecOn with
    | nil =>
      obtain ⟨rfl, hlast⟩ := List.append_inj' hmoves rfl
      cases hlast
      exact ⟨mid, after, hhistory, hstep⟩
    | append_singleton post final =>
      rw [← List.cons_append, ← List.append_assoc] at hmoves
      exact ih (List.append_inj' hmoves rfl).1

private theorem exists_split_of_requests {moves : List Happening}
    {es es' : List (Event StorageOp StorageResult)} {e : Event StorageOp StorageResult}
    (h : requests moves = es ++ e :: es') :
    ∃ pre post, moves = pre ++ .answered e :: post ∧ requests pre = es := by
  obtain ⟨pre, rest, rfl, hpre, hrest⟩ := List.filterMap_eq_append_iff.mp h
  obtain ⟨quiet, move, post, rfl, hquiet, hmove, -⟩ := List.filterMap_eq_cons_iff.mp hrest
  cases move with
  | created obj => cases hmove
  | answered e' =>
    cases hmove
    refine ⟨pre ++ quiet, post, by rw [List.append_assoc], ?_⟩
    have hnone : requests quiet = [] := by
      rw [requests, List.filterMap_eq_nil_iff]
      exact hquiet
    rw [requests, List.filterMap_append, ← requests, ← requests, hnone, List.append_nil]
    exact hpre

/-- A purge deletes nothing that is newer than its cutoff and nothing that it has not listed. When
it returns, its second listing found nothing expired, and it has counted what was expired in the
first one. -/
theorem purge_deletes_expired {now : DateTime} {utcOffset : Option Int}
    (hcutoff : now.minusDays deleteAfterDays = some cutoff) {objects after : List StoredObject}
    {moves : List Happening} {rest : StorageProg PurgeReport}
    (hhistory : History bucket cutoff objects moves after)
    (hrun : Prog.Runs (purge bucket now utcOffset) (requests moves) rest) :
    PurgesExpired bucket cutoff objects moves after rest where
  survives obj hseen hlate := by
    by_contra hgone
    have hexpired := ((preserved_of_runs hcutoff hhistory ⟨rest, hrun⟩).gone obj hseen hgone).1
    exact absurd (of_decide_eq_true hexpired) (Nat.not_le.mpr hlate)
  gone := (preserved_of_runs hcutoff hhistory ⟨rest, hrun⟩).gone
  deletions url answer hmem := by
    obtain ⟨pre, post, hes, before, others, hpre, -, -, obj, hobj, hexpired, hurl⟩ :=
      (guarded_purge hcutoff utcOffset).of_mem hrun hmem
    refine ⟨before, ⟨others ++ ⟨.delete url, answer⟩ :: post, ?_⟩, obj, hobj, hexpired, hurl⟩
    rw [hes, hpre, List.cons_append]
  returned report hreport := by
    rw [hreport] at hrun
    obtain ⟨before, remaining, ⟨deletions, hes, hdeletions⟩, hclean, hcandidates⟩ :=
      returned_of_runs hcutoff hrun
    obtain ⟨pre, post, hmoves, hpre⟩ := exists_split_of_requests hes
    obtain ⟨mid, next, hmid, hstep⟩ := hhistory.split hmoves
    have hfirst : FirstListing moves before :=
      ⟨deletions ++ [⟨.listAll, .ok remaining⟩], by rw [hes, List.cons_append]⟩
    refine ⟨before, hfirst, hcandidates, pre, post, remaining, mid, deletions, hmoves, hpre,
      hdeletions, hmid, ?_⟩
    cases hstep with
    | listed hperm => exact ⟨hperm, fun obj hobj ↦ hclean obj (hperm.mem_iff.mpr hobj)⟩

end Job

/-! ### A replaced object -/

private def exampleBucket : Text := "colomboai-c3r-staging-traces-123456789012"

private def exampleNow : DateTime where
  year := 2027
  month := 10
  day := 23
  hour := 16
  minute := 30
  second := 15
  microsecond := 250000

private def exampleCutoff : DateTime :=
  { exampleNow with month := 9, day := 25, month_valid := by decide, day_valid := by decide }

private def oldObject : StoredObject := ⟨"traces/replaced", 3, exampleCutoff⟩

private def freshObject : StoredObject :=
  ⟨"traces/replaced", 4, { exampleNow with day := 22, day_valid := by decide }⟩

private def lateObject : StoredObject :=
  ⟨"traces/replaced", 5, { exampleNow with hour := 17, hour_valid := by decide }⟩

private def oldUrl : Text :=
  storageApi exampleBucket ++ 47 :: (Text.ofString "traces%2Freplaced" ++
    63 :: (Text.ofString "generation=" ++ Text.ofString "3"))

private def replacement : List Happening :=
  [.answered ⟨.listAll, .ok [oldObject, freshObject]⟩, .answered ⟨.delete oldUrl, .ok ()⟩,
    .created lateObject, .answered ⟨.listAll, .ok [freshObject, lateObject]⟩]

private theorem minusDays_example : exampleNow.minusDays deleteAfterDays = some exampleCutoff :=
  rfl

private theorem objectUrl_old : objectUrl exampleBucket oldObject = .ok oldUrl := by
  have hname : urlQuote false "traces/replaced" = .ok (Text.ofString "traces%2Freplaced") := rfl
  have hgeneration : urlQuote true (decimalInt 3) = .ok (Text.ofString "3") := rfl
  simp only [objectUrl, oldObject, hname, hgeneration]
  rfl

private theorem objectUrl_fresh : (objectUrl exampleBucket freshObject).toOption ≠ some oldUrl := by
  intro h
  have hkey := objectUrl_inj (toOption_eq_some.mp h) objectUrl_old
  exact absurd (congrArg Prod.snd hkey) (by decide)

private theorem history_replacement : History exampleBucket exampleCutoff [oldObject, freshObject]
    replacement [lateObject, freshObject] := by
  have hdeleted : [freshObject] = [oldObject, freshObject].filter
      fun obj ↦ (objectUrl exampleBucket obj).toOption ≠ some oldUrl := by
    have hold : (objectUrl exampleBucket oldObject).toOption = some oldUrl := by
      rw [objectUrl_old]
      rfl
    simp [hold, objectUrl_fresh]
  have hlisted : History exampleBucket exampleCutoff [oldObject, freshObject]
      [.answered ⟨.listAll, .ok [oldObject, freshObject]⟩] [oldObject, freshObject] :=
    (History.nil _).snoc (.listed (List.Perm.refl _))
  have hrest := hlisted.snoc (.deleted oldUrl (.ok ()))
  rw [← hdeleted] at hrest
  exact (hrest.snoc (.created (by decide) (by decide))).snoc (.listed (List.Perm.swap _ _ []))

private theorem runs_purgeRemaining {bucket : Text} {cutoff : DateTime}
    (before : List StoredObject) {remaining : List StoredObject}
    (h : remaining.any (isExpired cutoff) = false) :
    ∃ report, report.expiredCandidates = (before.filter (isExpired cutoff)).length ∧
      Prog.Runs (purgeRemaining bucket cutoff before) [⟨.listAll, .ok remaining⟩]
        (.ret report) := by
  refine ⟨{
    bucket
    cutoffUtc := cutoffText cutoff
    objectsBefore := before.length
    expiredCandidates := (before.filter (isExpired cutoff)).length
    objectsAfter := remaining.length }, rfl, Prog.Runs.call _ _ _ _ _ ?_⟩
  change Prog.Runs (if remaining.any (isExpired cutoff) = true then Prog.raise _ else Prog.ret _) _ _
  rw [h]
  exact .nil _

private theorem runs_replacement : ∃ report, report.expiredCandidates = 1 ∧
    Prog.Runs (purge exampleBucket exampleNow (some 0)) (requests replacement) (.ret report) := by
  have hpurge : purge exampleBucket exampleNow (some 0) = purgeBefore exampleBucket exampleCutoff :=
    rfl
  have hrequests : requests replacement = [⟨.listAll, .ok [oldObject, freshObject]⟩,
      ⟨.delete oldUrl, .ok ()⟩, ⟨.listAll, .ok [freshObject, lateObject]⟩] := rfl
  have hgood : ¬ (inventoryLimit < [oldObject, freshObject].length ∨
      ¬ ([oldObject, freshObject].map StoredObject.key).Nodup) := by
    simp [inventoryLimit, StoredObject.key, oldObject, freshObject]
  have hold : isExpired exampleCutoff oldObject = true := by decide
  have hfresh : isExpired exampleCutoff freshObject = false := by decide
  have hlate : isExpired exampleCutoff lateObject = false := by decide
  have hfilter : [oldObject, freshObject].filter (isExpired exampleCutoff) = [oldObject] := by
    simp [hold, hfresh]
  have hdelete : deleteAll exampleBucket [oldObject] = .call (.delete oldUrl) fun answer ↦
      Prog.ofExcept answer >>= fun _ ↦ pure () := by
    rw [deleteAll, deleteGeneration, objectUrl_old]
    rfl
  obtain ⟨report, hreport, hrest⟩ := runs_purgeRemaining 
    [oldObject, freshObject] (show [freshObject, lateObject].any (isExpired exampleCutoff) = false by
      simp [hfresh, hlate])
  rw [hfilter, List.length_singleton] at hreport
  refine ⟨report, hreport, ?_⟩
  rw [hpurge, hrequests]
  refine Prog.Runs.call _ _ _ _ _ ?_
  change Prog.Runs (purgeListed exampleBucket exampleCutoff [oldObject, freshObject]) _ _
  rw [purgeListed, if_neg hgood, hfilter, hdelete, Prog.bind_call]
  refine Prog.Runs.call _ _ _ _ _ ?_
  rw [Prog.bind_ofExcept_ok, Prog.pure_eq, Prog.bind_ret]
  exact hrest

/-- The older generation of a name is deleted while a third one is created. -/
theorem purge_deletes_expired_generation : ∃ report, report.expiredCandidates = 1 ∧
    PurgesExpired exampleBucket exampleCutoff [oldObject, freshObject] replacement
      [lateObject, freshObject] (.ret report) := by
  obtain ⟨report, hreport, hrun⟩ := runs_replacement
  exact ⟨report, hreport, purge_deletes_expired minusDays_example history_replacement hrun⟩

end C3RSpec.Retention

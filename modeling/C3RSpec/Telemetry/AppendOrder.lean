import C3RSpec.Telemetry.ConcurrentAppend

/-!
# Concurrent collection loses no trace exactly in the order of the clock

An approved call with a valid trace and a new run id is refused for one reason only that depends
on the schedule: a call that read the clock later has committed before it.
-/

namespace C3RSpec.Telemetry

open Base

section Threads

variable [Digest] [FloatText] {grants : Grants} {db : Db} {s : AppendPool}

namespace AppendInv

/-- The steps of a thread are its events in the history. -/
theorem mem_log_iff (h : AppendInv grants db s) {i : Nat} {t : AppendThread}
    (ht : s.threads[i]? = some t) {e : Event AppendOp AppendOp.Res} :
    e ∈ t.log ↔ (i, e) ∈ s.history := by
  rw [h.coherent.logs i t ht, Pool.mem_project]

/-- Every event belongs to a thread. -/
theorem exists_thread (h : AppendInv grants db s) {e : Nat × Event AppendOp AppendOp.Res}
    (he : e ∈ s.history) : ∃ t, s.threads[e.1]? = some t :=
  ⟨_, List.getElem?_eq_getElem (h.coherent.bound e he)⟩

/-- Every thread is somewhere in its call. -/
theorem callPhase (h : AppendInv grants db s) {i : Nat} {t : AppendThread}
    (ht : s.threads[i]? = some t) : CallPhase grants t.label t.log t.rest :=
  callPhase_of_runs (h.coherent.runs i t ht)

/-- A transaction comes from the clock reading of its thread. -/
theorem transaction_of_thread (h : AppendInv grants db s)
    {e : Nat × Event AppendOp AppendOp.Res} (he : e ∈ s.history) {p : Prepared}
    (hp : e.2.op.prepared? = some p) :
    ∃ t now, s.threads[e.1]? = some t ∧ readingOf s.history e.1 = some now ∧
      serialize t.label.trace t.label.sourceId t.label.taskId now = .ok p := by
  obtain ⟨t, ht⟩ := h.exists_thread he
  obtain ⟨now, hn, hs⟩ := (h.callPhase ht).transacted ((h.mem_log_iff ht).mpr he) hp
  rw [h.coherent.logs e.1 t ht] at hn
  exact ⟨t, now, ht, hn, hs⟩

/-- The times of the transactions are the readings of their calls. -/
theorem map_collectedAt (h : AppendInv grants db s) :
    (transactions s.history).map Prepared.collectedAt =
      (transactionReadings s.history).map DateTime.isoformat := by
  rw [transactions, transactionReadings, List.map_filterMap, List.map_filterMap]
  refine List.filterMap_congr fun e he ↦ ?_
  cases hp : e.2.op.prepared? with
  | none => rfl
  | some p =>
    obtain ⟨t, now, -, hn, hs⟩ := h.transaction_of_thread he hp
    obtain ⟨cutoff, payload, -, -, rfl⟩ := serialize_eq_ok hs
    simp [hn]

/-- Calls with distinct run ids run transactions with distinct run ids. -/
theorem nodup_runId (h : AppendInv grants db s)
    (hd : (s.threads.map fun t ↦ t.label.trace.runId).Nodup) :
    ((transactions s.history).map Prepared.runId).Nodup := by
  let runIds := s.threads.map fun t ↦ t.label.trace.runId
  have hmarked : ((s.history.filter fun e ↦ e.2.op.prepared?.isSome).map Prod.fst).Nodup := by
    refine @Pool.nodup_marked AppendOp AppendOp.Res (fun e ↦ e.op.prepared?.isSome) _ fun i ↦ ?_
    cases ht : s.threads[i]? with
    | some t =>
      rw [← h.coherent.logs i t ht]
      exact (h.callPhase ht).transactions_le
    | none =>
      have hnone : Pool.project i s.history = [] := by
        refine List.eq_nil_iff_forall_not_mem.mpr fun e he ↦ ?_
        obtain ⟨t, hu⟩ := h.exists_thread (Pool.mem_project.mp he)
        rw [ht] at hu
        cases hu
      rw [hnone]
      exact Nat.zero_le 1
  -- the run id of a transaction is the one its thread was started with
  have hids : ((transactions s.history).map Prepared.runId).map some =
      ((s.history.filter fun e ↦ e.2.op.prepared?.isSome).map Prod.fst).map (runIds[·]?) := by
    rw [transactions, List.map_filterMap, List.map_filterMap, ← List.filterMap_eq_filter,
      List.map_filterMap, List.map_filterMap]
    refine List.filterMap_congr fun e he ↦ ?_
    cases hp : e.2.op.prepared? with
    | none => simp [Option.guard, hp]
    | some p =>
      obtain ⟨t, now, ht, -, hs⟩ := h.transaction_of_thread he hp
      obtain ⟨cutoff, payload, -, -, rfl⟩ := serialize_eq_ok hs
      simp [Option.guard, hp, runIds, ht]
  refine List.Nodup.of_map some ?_
  rw [hids]
  refine hmarked.map_on fun i hi j _ hij ↦ ?_
  obtain ⟨e, he, rfl⟩ := List.mem_map.mp hi
  have hlt : e.1 < runIds.length := by
    rw [List.length_map]
    exact h.coherent.bound e (List.mem_of_mem_filter he)
  exact (List.getElem?_inj hlt hd).mp hij

/-- A returned call is stored. -/
theorem stored_of_ret (h : AppendInv grants db s) {t : AppendThread} (ht : t ∈ s.threads) :
    AppendThread.Stored t s.shared.db := by
  intro record hret
  obtain ⟨i, hi⟩ := List.mem_iff_getElem?.mp ht
  have hmem := fun e ↦ (@mem_log_iff _ _ _ _ _ h i t hi e).mp
  have hphase := h.callPhase hi
  obtain ⟨call, log, rest⟩ := t
  dsimp only at hret hmem hphase ⊢
  cases hphase with
  | unapproved | start | undated | waiting | locked | closing => cases hret
  | @done now p hs outcome =>
    cases outcome with
    | error e => cases hret
    | ok record =>
      cases hret
      obtain ⟨row, hrow, hrun, hrec⟩ := h.stored _
        (hmem ⟨.transact p, .ok record⟩ (by simp)) p record rfl
      obtain ⟨cutoff, payload, -, -, rfl⟩ := serialize_eq_ok hs
      exact ⟨row, hrow, hrun, hrec⟩

/-- A call that has not finished can move, or the thread that holds the lock can. -/
theorem exists_advance (h : AppendInv grants db s) {t : AppendThread} (ht : t ∈ s.threads)
    (hrest : t.rest.result? = none) :
    ∃ i now s', appendStep grants s (.advance i now) = some s' := by
  have answered : ∀ i u o k now, s.threads[i]? = some u → u.rest = .call o k →
      (∃ x, serve s.shared i now o = some x) →
      ∃ i now s', appendStep grants s (.advance i now) = some s' :=
    fun i u o k now hu hk ⟨_, hx⟩ ↦ ⟨i, now, Pool.exists_step _ _ hu hk hx⟩
  let epoch : DateTime := { year := 1, month := 1, day := 1 }
  obtain ⟨i, hi⟩ := List.mem_iff_getElem?.mp ht
  cases hk : t.rest with
  | ret a => rw [hk] at hrest; cases hrest
  | raise e => rw [hk] at hrest; cases hrest
  | call o k =>
    cases o with
    | clock =>
      refine answered i t _ k (s.shared.lastReading.getD epoch) hi hk ?_
      rw [serve, if_neg]
      · exact ⟨_, rfl⟩
      · cases s.shared.lastReading with
        | none => exact Bool.false_ne_true
        | some last =>
          rw [Option.any_some, Option.getD_some, decide_eq_true_eq]
          exact lt_irrefl _
    | acquire =>
      cases hh : s.shared.holder with
      | none =>
        refine answered i t _ k epoch hi hk ?_
        rw [serve, hh]
        exact ⟨_, rfl⟩
      | some j =>
        obtain ⟨u, hu, o, k', hk', rfl | ⟨p, rfl⟩⟩ := h.holder j hh
        · exact answered j u _ k' epoch hu hk' ⟨_, rfl⟩
        · exact answered j u _ k' epoch hu hk' ⟨_, rfl⟩
    | transact p => exact answered i t _ k epoch hi hk ⟨_, rfl⟩
    | release => exact answered i t _ k epoch hi hk ⟨_, rfl⟩

/-- No admitted call is refused exactly when every reading has a cutoff and every transaction was
committed. -/
theorem refused_iff (h : AppendInv grants db s)
    (hv : ∀ t ∈ s.threads, admitTrace grants t.label.trace t.label.sourceId t.label.taskId = .ok ()) :
    (∀ t ∈ s.threads, ¬ AppendThread.Refused t) ↔
      (∀ e ∈ s.history, ∀ now, reading? e.2 = some now → retentionDays < now.toOrdinal) ∧
      ∀ outcome ∈ (replay db (transactions s.history)).1, ∃ record, outcome = .ok record := by
  have hone : ∀ i t, s.threads[i]? = some t → (AppendThread.Refused t ↔
      (∃ e ∈ t.log, ∃ now, reading? e = some now ∧ ¬ retentionDays < now.toOrdinal) ∨
      ∃ e ∈ t.log, ∃ error, outcome? e = some (.error error)) := fun i t ht ↦
    (h.callPhase ht).refused_iff (hv t (List.mem_of_getElem? ht))
  rw [← h.outcomes]
  constructor
  · intro hall
    have hno : ∀ e ∈ s.history, ∃ t ∈ s.threads, ¬ AppendThread.Refused t ∧ e.2 ∈ t.log ∧
        s.threads[e.1]? = some t := by
      intro e he
      obtain ⟨t, ht⟩ := h.exists_thread he
      have hm := List.mem_of_getElem? ht
      exact ⟨t, hm, hall t hm, (h.mem_log_iff ht).mpr he, ht⟩
    refine ⟨fun e he now hn ↦ ?_, fun outcome ho ↦ ?_⟩
    · obtain ⟨t, -, hr, hlog, ht⟩ := hno e he
      rw [hone _ t ht, not_or] at hr
      exact not_not.mp fun hd ↦ hr.1 ⟨e.2, hlog, now, hn, hd⟩
    · obtain ⟨e, he, ho⟩ := List.mem_filterMap.mp ho
      obtain ⟨t, -, hr, hlog, ht⟩ := hno e he
      rw [hone _ t ht, not_or] at hr
      cases outcome with
      | ok record => exact ⟨record, rfl⟩
      | error error => exact (hr.2 ⟨e.2, hlog, error, ho⟩).elim
  · rintro ⟨hdated, hok⟩ t htm
    obtain ⟨i, ht⟩ := List.mem_iff_getElem?.mp htm
    rw [hone i t ht]
    rintro (⟨e, he, now, hn, hd⟩ | ⟨e, he, error, ho⟩)
    · exact hd (hdated (i, e) ((h.mem_log_iff ht).mp he) now hn)
    · obtain ⟨record, hr⟩ := hok _ (List.mem_filterMap.mpr ⟨(i, e), (h.mem_log_iff ht).mp he, ho⟩)
      cases hr

/-- The transactions that have run are those of the threads. -/
theorem forall_transactions_iff (h : AppendInv grants db s) :
    (∀ p ∈ transactions s.history, ∀ row ∈ db.rows, row.runId ≠ p.runId) ↔
      ∀ t ∈ s.threads, AppendThread.Transacted t →
        ∀ row ∈ db.rows, row.runId ≠ t.label.trace.runId := by
  constructor
  · rintro hall t htm ⟨e, he, hp⟩ row hrow
    obtain ⟨p, hp⟩ := Option.isSome_iff_exists.mp hp
    obtain ⟨i, ht⟩ := List.mem_iff_getElem?.mp htm
    have hmem := (h.mem_log_iff ht).mp he
    obtain ⟨t', now, ht', -, hs⟩ := h.transaction_of_thread hmem hp
    rw [ht] at ht'
    cases ht'
    obtain ⟨cutoff, payload, -, -, rfl⟩ := serialize_eq_ok hs
    exact hall _ (List.mem_filterMap.mpr ⟨(i, e), hmem, hp⟩) row hrow
  · intro hall p hp row hrow
    obtain ⟨e, he, hp⟩ := List.mem_filterMap.mp hp
    obtain ⟨t, now, ht, -, hs⟩ := h.transaction_of_thread he hp
    obtain ⟨cutoff, payload, -, -, rfl⟩ := serialize_eq_ok hs
    exact hall t (List.mem_of_getElem? ht)
      ⟨e.2, (h.mem_log_iff ht).mpr he, by rw [hp]; rfl⟩ row hrow

end AppendInv

/-- Concurrent collection loses no trace: no call is refused, every call that has returned is
stored, and a call that has not returned is not stuck. -/
structure LosesNone (grants : Grants) (s : AppendPool) : Prop where
  succeeds : ∀ t ∈ s.threads, ¬ AppendThread.Refused t
  stored : ∀ t ∈ s.threads, AppendThread.Stored t s.shared.db
  advances : ∀ t ∈ s.threads, t.rest.result? = none →
    ∃ i now s', appendStep grants s (.advance i now) = some s'

end Threads

section Runs

variable [Digest] [FloatText]

/-- In every run of any threads with valid traces, approved tasks and distinct run ids over any
reachable store, while no transaction meets an overdue row: no trace is lost exactly when the
calls run their transactions in the order of the clock. -/
theorem concurrent_append_iff (ops : List StoreOp) (store : Store)
    (hops : runAll Store.next Store.initial ops = some store) (grants : Grants)
    (hopen : store.grants = some grants) (clock : Option DateTime)
    (as : List (PoolAction AppendCall DateTime)) (s : AppendPool)
    (hrun : runAll (appendStep grants) (Pool.idle ⟨store.db, none, clock⟩) as = some s)
    (hc : Collecting grants store.db s) :
    LosesNone grants s ↔ InOrder store.db s := by
  obtain ⟨l, hl⟩ := Store.exists_ledger hops
  have hs := hl.shows_of_open hopen
  have h := appendInv_run hrun
  have hfrom : ∀ p ∈ transactions s.history, p.FromCall := by
    intro p hp
    obtain ⟨e, he, hp⟩ := List.mem_filterMap.mp hp
    obtain ⟨t, now, ht, -, hser⟩ := h.transaction_of_thread he hp
    exact ⟨grants, t.label, now, hc.valid t (List.mem_of_getElem? ht), hser⟩
  have hreplay := replay_ok_iff hs hl.sound hfrom (h.nodup_runId hc.distinct) hc.timely
  have htime : List.IsChain (· ≤ ·)
      (l.lastCollectedAt :: (transactions s.history).map Prepared.collectedAt) ↔
      (∀ now ∈ transactionReadings s.history, ∀ md, store.db.metadata = some md →
        md.lastCollectedAt ≤ now.isoformat) ∧
      (transactionReadings s.history).Pairwise fun a b ↦ a.micros ≤ b.micros := by
    rw [h.map_collectedAt, List.isChain_iff_pairwise, List.pairwise_cons, List.pairwise_map]
    simp only [List.forall_mem_map, DateTime.isoformat_le_iff, hs.metadata, Option.some.injEq,
      forall_eq']
  rw [h.forall_transactions_iff, htime] at hreplay
  constructor
  · intro hlost
    obtain ⟨hdated, hok⟩ := (h.refused_iff hc.valid).mp hlost.succeeds
    obtain ⟨⟨hcurrent, hordered⟩, hfresh⟩ := hreplay.mp hok
    exact ⟨hordered, hcurrent, hfresh, hdated⟩
  · intro hin
    have hok := hreplay.mpr ⟨⟨hin.current, hin.ordered⟩, hin.fresh⟩
    exact ⟨(h.refused_iff hc.valid).mpr ⟨hin.dated, hok⟩, fun t ht ↦ h.stored_of_ret ht,
      fun t ht hrest ↦ h.exists_advance ht hrest⟩

end Runs

section Sample

attribute [local instance] Digest.rolling FloatText.fraction

/-- An approved call. -/
def sampleCall (runId : Text) : AppendCall := ⟨sampleTrace runId, "c3r_internal_001", "task_001"⟩

/-- Two calls read the clock; one of them goes on to its end, then the other. -/
def twoCalls (first second : Nat) : List (PoolAction AppendCall DateTime) :=
  [.spawn (sampleCall "run_001"), .spawn (sampleCall "run_002"),
   .advance 0 morning, .advance 1 noon,
   .advance first noon, .advance first noon, .advance first noon,
   .advance second noon, .advance second noon, .advance second noon]

/-- The call that read the clock first goes first: no trace is lost. -/
theorem concurrent_append_iff_inOrder :
    ∃ s, runAll Store.next Store.initial [.openStore [sampleGrant] .none] = some emptyStore ∧
      runAll (appendStep (Grants.ofList [sampleGrant]))
        (Pool.idle ⟨emptyStore.db, none, none⟩) (twoCalls 0 1) = some s ∧
      s.history.length = 8 ∧ LosesNone (Grants.ofList [sampleGrant]) s := by
  have hopen : runAll Store.next Store.initial [.openStore [sampleGrant] .none] =
      some emptyStore := rfl
  have hrun : (runAll (appendStep (Grants.ofList [sampleGrant]))
      (Pool.idle ⟨emptyStore.db, none, none⟩) (twoCalls 0 1)).any (fun s ↦
        decide (s.history.length = 8) &&
        decide (Collecting (Grants.ofList [sampleGrant]) emptyStore.db s) &&
        decide ((transactionReadings s.history).Pairwise fun a b ↦ a.micros ≤ b.micros) &&
        s.history.all fun e ↦
          (reading? e.2).all fun now ↦ decide (retentionDays < now.toOrdinal)) = true := by
    decide +kernel
  obtain ⟨s, hs, hp⟩ := (Option.any_eq_true _ _).mp hrun
  simp only [Bool.and_eq_true, decide_eq_true_eq, List.all_eq_true, Option.all_eq_true] at hp
  obtain ⟨⟨⟨hlen, hc⟩, hordered⟩, hdated⟩ := hp
  refine ⟨s, hopen, hs, hlen, ?_⟩
  refine (concurrent_append_iff _ emptyStore hopen _ rfl none _ s hs hc).mpr
    ⟨hordered, ?_, fun t _ _ row hrow ↦ (nomatch hrow), hdated⟩
  intro now _ md hmd
  cases hmd
  exact not_lt.mp (List.not_lt_nil now.isoformat)

/-- The call that read the clock later commits first, and the other is refused although the clock
never went backwards. -/
theorem concurrent_append_overtaken :
    ∃ s t, runAll Store.next Store.initial [.openStore [sampleGrant] .none] = some emptyStore ∧
      runAll (appendStep (Grants.ofList [sampleGrant]))
        (Pool.idle ⟨emptyStore.db, none, none⟩) (twoCalls 1 0) = some s ∧
      Collecting (Grants.ofList [sampleGrant]) emptyStore.db s ∧ s.threads[0]? = some t ∧
      t.rest.result? = some (.error (valueError "trace clock moved backwards")) := by
  have hrun : (runAll (appendStep (Grants.ofList [sampleGrant]))
      (Pool.idle ⟨emptyStore.db, none, none⟩) (twoCalls 1 0)).any (fun s ↦
        decide (Collecting (Grants.ofList [sampleGrant]) emptyStore.db s) &&
        s.threads[0]?.any fun t ↦
          decide (t.rest.result? = some (.error (valueError "trace clock moved backwards")))) =
      true := by
    decide +kernel
  obtain ⟨s, hs, hp⟩ := (Option.any_eq_true _ _).mp hrun
  rw [Bool.and_eq_true, decide_eq_true_eq] at hp
  obtain ⟨t, ht, hr⟩ := (Option.any_eq_true _ _).mp hp.2
  exact ⟨s, t, rfl, hs, hp.1, ht, of_decide_eq_true hr⟩

end Sample

end C3RSpec.Telemetry

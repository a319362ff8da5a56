import PetsServer.Foundations.Ownership
import PetsServer.Sql.Result

/-!
# What statements leave in the log

Three things are read off the log of the library calls: the texts that are sent, the uses of the
result sets, and the number of results that are not read yet. A part of the log that only uses the
result sets stored in it, each until its release, and that reads all results of its statements is a
`Segment`; it does no harm anywhere. The rest of the module says what each program that calls the
library returns and leaves in the log.
-/

namespace PetsServer

open Foundations

/-- The texts that are sent. -/
def queries (log : List SqlEvent) : List (List Byte) :=
  log.filterMap fun
    | .query sql _ => some sql
    | _ => none

/-- The uses of the result sets: to fetch a row of a set is to expose it. -/
def resultUses (log : List SqlEvent) : List (Use ℕ) :=
  log.filterMap fun
    | .fetch res => some (.expose res)
    | .free res => some (.release res)
    | _ => none

/-- The number of results not read after the calls, when `n` are not read before. -/
def pending : ℕ → List SqlEvent → ℕ
  | n, [] => n
  | n, .query _ results :: log => pending (n + results) log
  | n, .store _ :: log => pending (n - 1) log
  | n, .fetch _ :: log | n, .free _ :: log | n, .callBack :: log => pending n log

/-- No statement is sent while results are not read. -/
def InSync : ℕ → List SqlEvent → Prop
  | _, [] => True
  | n, .query _ results :: log => n = 0 ∧ InSync (n + results) log
  | n, .store _ :: log => InSync (n - 1) log
  | n, .fetch _ :: log | n, .free _ :: log | n, .callBack :: log => InSync n log

instance decidableInSync : ∀ (n : ℕ) (log : List SqlEvent), Decidable (InSync n log)
  | _, [] => isTrue trivial
  | n, .query _ results :: log =>
    have := decidableInSync (n + results) log
    inferInstanceAs (Decidable (n = 0 ∧ InSync (n + results) log))
  | n, .store _ :: log => decidableInSync (n - 1) log
  | n, .fetch _ :: log | n, .free _ :: log | n, .callBack :: log => decidableInSync n log

/-- The call neither sends a statement nor reads a result. -/
def SqlEvent.quiet : SqlEvent → Bool
  | .query _ _ | .store _ => false
  | .fetch _ | .free _ | .callBack => true

@[simp] theorem queries_append (xs ys : List SqlEvent) :
    queries (xs ++ ys) = queries xs ++ queries ys := List.filterMap_append

@[simp] theorem resultUses_append (xs ys : List SqlEvent) :
    resultUses (xs ++ ys) = resultUses xs ++ resultUses ys := List.filterMap_append

@[simp] theorem pending_append (n : ℕ) (xs ys : List SqlEvent) :
    pending n (xs ++ ys) = pending (pending n xs) ys := by
  induction xs generalizing n with
  | nil => rfl
  | cons event xs ih => cases event <;> exact ih _

theorem inSync_append {n : ℕ} {xs ys : List SqlEvent} :
    InSync n (xs ++ ys) ↔ InSync n xs ∧ InSync (pending n xs) ys := by
  induction xs generalizing n with
  | nil => simp [InSync, pending]
  | cons event xs ih => cases event <;> simp [InSync, pending, ih, and_assoc]

theorem queries_of_quiet {log : List SqlEvent} (h : ∀ event ∈ log, event.quiet = true) :
    queries log = [] := by
  refine List.filterMap_eq_nil_iff.mpr fun event hevent => ?_
  have hquiet := h event hevent
  cases event <;> first | rfl | cases hquiet

theorem pending_of_quiet {log : List SqlEvent} (h : ∀ event ∈ log, event.quiet = true) (n : ℕ) :
    pending n log = n := by
  induction log with
  | nil => rfl
  | cons event log ih =>
    obtain ⟨hquiet, hlog⟩ := List.forall_mem_cons.mp h
    cases event <;> first | exact ih hlog | cases hquiet

theorem inSync_of_quiet {log : List SqlEvent} (h : ∀ event ∈ log, event.quiet = true) (n : ℕ) :
    InSync n log := by
  induction log with
  | nil => trivial
  | cons event log ih =>
    obtain ⟨hquiet, hlog⟩ := List.forall_mem_cons.mp h
    cases event <;> first | exact ih hlog | cases hquiet

/-- A part of the log, from the position `n` on, that uses its own result sets only, and none after
its release. -/
structure Owned (n : ℕ) (log : List SqlEvent) : Prop where
  safe : Safe [] (resultUses log)
  own : ∀ u ∈ resultUses log, n ≤ u.resource ∧ u.resource < n + log.length

/-- Two parts one after the other. -/
theorem Owned.append {n : ℕ} {xs ys : List SqlEvent} (hx : Owned n xs)
    (hy : Owned (n + xs.length) ys) : Owned n (xs ++ ys) where
  safe := by
    rw [resultUses_append, safe_append, List.nil_append, ← List.append_nil (releases _)]
    refine ⟨hx.safe, (safe_append_dead fun u hu hdead => ?_).mpr hy.safe⟩
    have hlt : u.resource < n + xs.length := (hx.own _ (mem_releases.mp hdead)).2
    have hge := (hy.own u hu).1
    omega
  own u hu := by
    rw [resultUses_append, List.mem_append] at hu
    rw [List.length_append]
    rcases hu with hu | hu
    · have h := hx.own u hu
      omega
    · have h := hy.own u hu
      omega

/-- A part of the log that uses no result set. -/
theorem owned_of_unused {n : ℕ} {log : List SqlEvent} (h : resultUses log = []) : Owned n log where
  safe := by rw [h]; trivial
  own u hu := by
    rw [h] at hu
    cases hu

/-- A part of the log that moreover starts with a statement, if it is not empty, and reads all
results of its statements, with the texts sent. -/
structure Segment (n : ℕ) (log : List SqlEvent) (sqls : List (List Byte)) : Prop
    extends Owned n log where
  queries : queries log = sqls
  starts : log = [] ∨ ∃ sql results rest, log = .query sql results :: rest
  inSync : InSync 0 log
  pending : pending 0 log = 0

namespace Segment

theorem nil (n : ℕ) : Segment n [] [] := ⟨owned_of_unused rfl, rfl, .inl rfl, trivial, rfl⟩

theorem append {n : ℕ} {xs ys : List SqlEvent} {ps qs : List (List Byte)} (hx : Segment n xs ps)
    (hy : Segment (n + xs.length) ys qs) : Segment n (xs ++ ys) (ps ++ qs) where
  toOwned := hx.toOwned.append hy.toOwned
  queries := by rw [queries_append, hx.queries, hy.queries]
  starts := by
    rcases hx.starts with rfl | ⟨sql, results, rest, rfl⟩
    · exact hy.starts
    · exact .inr ⟨sql, results, rest ++ ys, rfl⟩
  inSync := by
    rw [inSync_append, hx.pending]
    exact ⟨hx.inSync, hy.inSync⟩
  pending := by rw [pending_append, hx.pending, hy.pending]

/-- After a segment that is in its place the number of results not read is the same. -/
theorem inSync_append {n k : ℕ} {xs ys : List SqlEvent} {sqls : List (List Byte)}
    (hx : Segment n xs sqls) :
    InSync k (xs ++ ys) ↔ (sqls = [] ∨ k = 0) ∧ InSync k ys := by
  rcases hx.starts with rfl | ⟨sql, results, rest, rfl⟩
  · obtain rfl := hx.queries
    exact (and_iff_right (.inl rfl)).symm
  · have hne : sqls ≠ [] := by
      rw [← hx.queries]
      exact List.cons_ne_nil _ _
    have hiff : InSync k (.query sql results :: rest ++ ys) ↔ k = 0 ∧ InSync 0 ys := by
      rw [PetsServer.inSync_append]
      refine ⟨fun ⟨⟨hk, _⟩, hy⟩ => ⟨hk, ?_⟩, fun ⟨hk, hy⟩ => ?_⟩
      · rwa [hk, hx.pending] at hy
      · rw [hk, hx.pending]
        exact ⟨hx.inSync, hy⟩
    rw [hiff, or_iff_right hne]
    exact and_congr_right fun hk => by rw [hk]

/-- A statement that fails. -/
theorem failed (n : ℕ) (sql : List Byte) : Segment n [.query sql 0] [sql] :=
  ⟨owned_of_unused rfl, rfl, .inr ⟨sql, 0, [], rfl⟩, ⟨rfl, trivial⟩, rfl⟩

end Segment

/-! ## The programs -/

/-- The identity of the result set of a `QueryResult`. -/
def QueryResult.handle (qr : QueryResult) : Option ResId := qr.res.map MysqlRes.id

/-- The result set that is stored at the position `n`. -/
def SqlReply.stored (reply : SqlReply) (n : ℕ) : Option MysqlRes :=
  reply.result.map fun set => ⟨n, set, set.rows⟩

/-- The identity of the result set that is stored at the position `n`. -/
def SqlReply.storedId (reply : SqlReply) (n : ℕ) : Option ResId := reply.result.map fun _ => n

/-- The release of a result set, if there is one. -/
def frees : Option ResId → List SqlEvent
  | some id => [.free id]
  | none => []

/-- `k` fetches from a result set, if there is one. -/
def fetches : Option ResId → ℕ → List SqlEvent
  | some id, k => List.replicate k (.fetch id)
  | none, _ => []

@[simp] theorem SqlReply.map_id_stored (reply : SqlReply) (n : ℕ) :
    (reply.stored n).map MysqlRes.id = reply.storedId n := by
  rw [stored, storedId, Option.map_map]
  rfl

@[simp] theorem QueryResult.store_res (qr : QueryResult) (res : Option MysqlRes) (nrow : Qword) :
    (qr.store res nrow).res = res := by
  cases res <;> rfl

@[simp] theorem QueryResult.store_nrow (qr : QueryResult) (res : Option MysqlRes) (nrow : Qword) :
    (qr.store res nrow).nrow = nrow := by
  cases res <;> rfl

@[simp] theorem QueryResult.handle_store (qr : QueryResult) (reply : SqlReply) (n : ℕ)
    (nrow : Qword) : (qr.store (reply.stored n) nrow).handle = reply.storedId n := by
  rw [handle, store_res, SqlReply.map_id_stored]

@[simp] theorem fetches_zero (id : Option ResId) : fetches id 0 = [] := by
  cases id <;> rfl

theorem quiet_of_mem_frees {id : Option ResId} {event : SqlEvent} (h : event ∈ frees id) :
    event.quiet = true := by
  cases id with
  | none => cases h
  | some id => rw [List.mem_singleton.mp h]; rfl

theorem fetches_append (id : Option ResId) (k l : ℕ) :
    fetches id k ++ fetches id l = fetches id (k + l) := by
  cases id with
  | none => rfl
  | some id => exact List.replicate_append_replicate

variable {sql : List Byte} {reply : SqlReply} {sets : ℕ} {log : List SqlEvent}

@[simp] theorem run_record (event : SqlEvent) :
    (record event).run log = .ok ⟨⟩ (log ++ [event]) := rfl

theorem run_release (qr : QueryResult) :
    qr.release.run log = .ok ⟨⟩ (log ++ frees qr.handle) := by
  unfold QueryResult.release QueryResult.handle
  cases hres : qr.res with
  | none => simp [frees]
  | some res => rfl

theorem run_executeSQLTo_of_ne (qr : QueryResult) (h : reply.code ≠ 0) :
    (executeSQLTo sql qr reply sets).run log =
      .ok (reply.code, qr) (log ++ [.query (cString sql) 0]) := by
  simp [executeSQLTo, executeSQL, mysqlRealQuery, h]

theorem run_executeSQLTo_of_eq (qr : QueryResult) (h : reply.code = 0) :
    (executeSQLTo sql qr reply sets).run log =
      .ok (0, qr.store (reply.stored (log.length + 1)) reply.affectedRows)
        (log ++ [.query (cString sql) (sets + 1), .store (reply.storedId (log.length + 1))]) := by
  rw [← SqlReply.map_id_stored]
  simp [executeSQLTo, executeSQL, mysqlRealQuery, mysqlStoreResult, h, SqlReply.stored]

theorem run_executeSQL_null_of_ne (h : reply.code ≠ 0) :
    (executeSQL sql none reply sets).run log =
      .ok (reply.code, none) (log ++ [.query (cString sql) 0]) := by
  simp [executeSQL, mysqlRealQuery, h]

theorem run_executeSQL_null_of_eq (h : reply.code = 0) :
    (executeSQL sql none reply sets).run log =
      .ok (0, none) (log ++ .query (cString sql) (sets + 1) ::
        .store (reply.storedId (log.length + 1)) :: frees (reply.storedId (log.length + 1))) := by
  cases hres : reply.result with
  | none => simp [executeSQL, mysqlRealQuery, mysqlStoreResult, h, SqlReply.storedId, hres, frees]
  | some set =>
    simp [executeSQL, mysqlRealQuery, mysqlStoreResult, mysqlFreeResult, h, SqlReply.storedId, hres,
      frees]

theorem run_fetchResult_of_none {qr : QueryResult} (h : qr.res = none) :
    qr.fetchResult.run log = .ok (1, qr) log := by
  simp [QueryResult.fetchResult, h]

theorem run_fetchResult_of_empty {qr : QueryResult} (h : qr.numRows = 0 ∨ qr.numFields = 0) :
    qr.fetchResult.run log = .ok (1, qr) log := by
  unfold QueryResult.fetchResult
  cases hres : qr.res <;> simp [h]

theorem run_fetchResult_of_some {qr : QueryResult} {res : MysqlRes} (hres : qr.res = some res)
    (h : ¬ (qr.numRows = 0 ∨ qr.numFields = 0)) :
    qr.fetchResult.run log = .ok (if res.rest.head?.isSome then 0 else 1,
      { qr with res := some { res with rest := res.rest.tail }, rows := res.rest.head? })
      (log ++ [.fetch res.id]) := by
  simp [QueryResult.fetchResult, hres, h, mysqlFetchRow]

/-- A fetch keeps the result set. -/
theorem fetchResult_cases {qr : QueryResult} {r : Except Fault (Int32 × QueryResult)}
    {log' : List SqlEvent} (h : Yields qr.fetchResult log r log') :
    ∃ code qr' k, r = .ok (code, qr') ∧ log' = log ++ fetches qr.handle k ∧
      qr'.handle = qr.handle := by
  cases hres : qr.res with
  | none =>
    obtain ⟨rfl, rfl⟩ := h.unique (yields_ok (run_fetchResult_of_none hres))
    exact ⟨1, qr, 0, rfl, by simp [QueryResult.handle, hres, fetches], rfl⟩
  | some res =>
    by_cases hempty : qr.numRows = 0 ∨ qr.numFields = 0
    · obtain ⟨rfl, rfl⟩ := h.unique (yields_ok (run_fetchResult_of_empty hempty))
      exact ⟨1, qr, 0, rfl, by simp [QueryResult.handle, hres, fetches], rfl⟩
    · obtain ⟨rfl, rfl⟩ := h.unique (yields_ok (run_fetchResult_of_some hres hempty))
      refine ⟨_, _, 1, rfl, ?_, ?_⟩
      · simp [QueryResult.handle, hres, fetches]
      · simp [QueryResult.handle, hres]

/-! ## Statements that read their result -/

/-- Nothing happens but fetches from a result set, and calls back. -/
def Reads (res : Option ResId) (log : List SqlEvent) : Prop :=
  ∀ event ∈ log, event = .callBack ∨ ∃ id ∈ res, event = .fetch id

namespace Reads

variable {res : Option ResId} {xs ys : List SqlEvent}

theorem nil (res : Option ResId) : Reads res [] := fun _ h => by cases h

theorem append (hx : Reads res xs) (hy : Reads res ys) : Reads res (xs ++ ys) :=
  List.forall_mem_append.mpr ⟨hx, hy⟩

theorem fetches (res : Option ResId) (k : ℕ) : Reads res (fetches res k) := by
  cases res with
  | none => exact nil _
  | some id => exact fun event hevent => .inr ⟨id, rfl, List.eq_of_mem_replicate hevent⟩

theorem quiet (h : Reads res xs) {event : SqlEvent} (hevent : event ∈ xs) :
    event.quiet = true := by
  rcases h event hevent with rfl | ⟨id, -, rfl⟩ <;> rfl

/-- The result set is exposed only. -/
theorem expose (h : Reads res xs) {u : Use ℕ} (hu : u ∈ resultUses xs) :
    ∃ id ∈ res, u = .expose id := by
  obtain ⟨event, hevent, hmap⟩ := List.mem_filterMap.mp hu
  rcases h event hevent with rfl | ⟨id, hid, rfl⟩
  · cases hmap
  · exact ⟨id, hid, (Option.some.inj hmap).symm⟩

end Reads

/-- The events of a statement whose result set is read and then released, or not. -/
theorem owned_of_reads {n results : ℕ} {sql : List Byte} {res : Option ResId}
    {reads tail : List SqlEvent} (hres : ∀ id ∈ res, id = n + 1) (hreads : Reads res reads)
    (htail : tail = [] ∨ tail = frees res) :
    Owned n (.query sql results :: .store res :: (reads ++ tail)) := by
  have huses : resultUses (.query sql results :: .store res :: (reads ++ tail)) =
      resultUses reads ++ resultUses tail := resultUses_append reads tail
  have htail' : ∀ u ∈ resultUses tail, u = .release (n + 1) := by
    intro u hu
    rcases htail with rfl | rfl
    · cases hu
    · cases res with
      | none => cases hu
      | some id =>
        rw [hres id rfl] at hu
        exact List.mem_singleton.mp hu
  refine ⟨?_, fun u hu => ?_⟩
  · rw [huses, safe_append, List.nil_append, releases_of_expose fun u hu =>
      (hreads.expose hu).imp fun _ h => h.2]
    refine ⟨safe_of_expose fun u hu => (hreads.expose hu).imp fun _ h => ⟨h.2, by simp⟩, ?_⟩
    rcases htail with rfl | rfl
    · trivial
    · cases res with
      | none => trivial
      | some id => exact ⟨by simp, trivial⟩
  · have hu' : u.resource = n + 1 := by
      rw [huses, List.mem_append] at hu
      rcases hu with hu | hu
      · obtain ⟨id, hid, rfl⟩ := hreads.expose hu
        exact hres id hid
      · rw [htail' u hu]
        rfl
    rw [List.length_cons, List.length_cons]
    omega

theorem SqlReply.storedId_eq {id : ResId} {n : ℕ} (h : id ∈ reply.storedId n) : id = n := by
  obtain ⟨_, -, rfl⟩ := Option.map_eq_some_iff.mp h
  rfl

/-- A statement without further results, whose result set is read and then released, or not. -/
theorem Segment.result {n : ℕ} {reads tail : List SqlEvent}
    (hreads : Reads (reply.storedId (n + 1)) reads)
    (htail : tail = [] ∨ tail = frees (reply.storedId (n + 1))) :
    Segment n (.query sql 1 :: .store (reply.storedId (n + 1)) :: (reads ++ tail)) [sql] := by
  have hquiet : ∀ event ∈ reads ++ tail, event.quiet = true := by
    refine List.forall_mem_append.mpr ⟨fun _ => hreads.quiet, fun event hevent => ?_⟩
    rcases htail with rfl | rfl
    · cases hevent
    · exact quiet_of_mem_frees hevent
  refine ⟨owned_of_reads (fun _ => SqlReply.storedId_eq) hreads htail, ?_, .inr ⟨_, _, _, rfl⟩, ?_,
    ?_⟩
  · change sql :: PetsServer.queries (reads ++ tail) = [sql]
    rw [queries_of_quiet hquiet]
  · exact ⟨rfl, inSync_of_quiet hquiet 0⟩
  · exact pending_of_quiet hquiet 0

end PetsServer

import PetsServer.Foundations.Run
import PetsServer.Sql.Outcome

/-!
# Calls one after another

The SQL thread serves tasks one after another on one connection, and calls of procedures on one
static helper. A session is a run of such calls; it ends when a call faults, or with the program.

`result_sets_freed_iff` says in which sessions every result set is released at most once and is not
used after that.
-/

namespace PetsServer

open Foundations OnWorld

/-- The state between two calls. -/
structure SqlSession where
  world : SqlWorld
  /-- The program goes on. -/
  running : Bool

def SqlSession.start : SqlSession := ⟨.start, true⟩

/-- What is done with the connection. -/
inductive SqlCall
  /-- `ExecuteProcedure` -/
  | procedure (env : CallEnv) (pack : SqlPack)
  /-- A plain statement, in `ExecuteSentence`. Its callback fetches rows. -/
  | common (sql : List Byte) (reply : CallReply) (fetches : ℕ)
  /-- `ExecuteSQL` with null for the `QueryResult`. -/
  | noResult (sql : List Byte) (reply : CallReply)
  /-- The program ends: the static helper is destroyed. -/
  | exit

/-- The callback of a plain statement fetches rows. -/
def fetchLocal (qr : QueryResult) : ℕ → Mysql QueryResult
  | 0 => pure qr
  | n + 1 => do
    let (_, qr) ← qr.fetchResult
    fetchLocal qr n

/-- `case SQL_COMMON_TYPE` of `ExecuteSentence`. The destructor of `qr` releases its result. -/
def executeCommon (sql : List Byte) (reply : CallReply) (fetches : ℕ) : Mysql Unit := do
  let (result, qr) ← executeSQLTo sql .new reply.toSqlReply reply.sets
  if result ≠ 0 then qr.release
  else
    record .callBack
    let qr ← fetchLocal qr fetches
    qr.release

namespace SqlCall

/-- The program of a call. -/
def program (paramList : List Byte → List Byte) : SqlCall → OnWorld Unit
  | procedure env pack => do
    let _ ← executeProcedure paramList env pack
  | common sql reply fetches => mysql (executeCommon sql reply fetches)
  | noResult sql reply => do
    let _ ← mysql (executeSQL sql none reply.toSqlReply reply.sets)
  | exit => releaseThis

/-- The program goes on after the call, when there is no fault. -/
def GoesOn : SqlCall → Bool
  | exit => false
  | procedure _ _ | common _ _ _ | noResult _ _ => true

end SqlCall

/-- One call of a session, while the program goes on. -/
def sessionStep (paramList : List Byte → List Byte) (s : SqlSession) (call : SqlCall) :
    Option SqlSession :=
  if s.running then
    match (call.program paramList).run s.world with
    | .ok _ w => some ⟨w, call.GoesOn⟩
    | .error _ w => some ⟨w, false⟩
  else none

/-! ## How calls end -/

variable {plan : CallPlan} {replies : CallReplies} {noReturn : Int32} {res res' : Option ResId}
  {n : ℕ} {r : Except Fault Bool} {log : List SqlEvent}

/-- The call releases no result set that was released before. Here `res` is the result set that
the helper points to before the call. -/
def CallPlan.FreesOnce (plan : CallPlan) (replies : CallReplies) (res : Option ResId) : Prop :=
  match plan.texts with
  | .error _ => True
  | .ok none => res = none
  | .ok (some t) =>
    if replies.call.code ≠ 0 then res = none
    else replies.call.result = none ∨ (t.strSelect ≠ [] ∧ replies.select.code = 0)

theorem owned_callEvents (sql : List Byte) (sets : ℕ) (reply : SqlReply) {reads : List SqlEvent}
    (hreads : Reads (reply.storedId (n + 1)) reads) :
    Owned n (callEvents sql sets (reply.storedId (n + 1)) reads) :=
  owned_of_reads (fun _ => SqlReply.storedId_eq) hreads (.inr rfl)

theorem free_mem_callEvents {id : ResId} (sql : List Byte) (sets : ℕ) (reads : List SqlEvent)
    (h : id ∈ res) : .free id ∈ callEvents sql sets res reads := by
  have hres : res = some id := h
  simp [callEvents, frees, hres]

theorem SqlReply.storedId_eq_none {reply : SqlReply} :
    reply.storedId n = none ↔ reply.result = none := Option.map_eq_none_iff

/-- **What a call does with result sets.** Either it uses its own only, and none after its release,
or in the end it releases one that was released before, if there is one. -/
theorem ProcedureEnds.shape (h : ProcedureEnds plan replies noReturn res n r log res') :
    (Owned n log ∧ plan.FreesOnce replies res) ∨
    ∃ first reads, log = first ++ (reads ++ frees res') ∧ Owned n first ∧ Reads res' reads ∧
      (∀ id ∈ res', id ∈ res ∨ .free id ∈ first) ∧
      (plan.FreesOnce replies res ↔ res' = none) := by
  obtain ⟨code, first, last, hends, hfinish, rfl, rfl⟩ := h
  cases hends with
  | fault fault rest hplan hrest =>
    obtain rfl : last = [] := hfinish
    left
    rw [List.append_nil]
    exact ⟨hrest.toOwned, by simp [CallPlan.FreesOnce, hplan]⟩
  | refused code rest hcode hplan hrest =>
    obtain ⟨reads, hreads, -, rfl⟩ := hfinish
    exact .inr ⟨_, reads, rfl, hrest.toOwned, hreads, fun _ => .inl,
      by simp [CallPlan.FreesOnce, hplan]⟩
  | called t rest log r res' hplan hrest hcall =>
    cases hcall with
    | callFailed hcode =>
      obtain ⟨reads, hreads, -, rfl⟩ := hfinish
      exact .inr ⟨_, reads, rfl, hrest.toOwned.append (owned_of_unused rfl), hreads, fun _ => .inl,
        by simp [CallPlan.FreesOnce, hplan, hcode]⟩
    | noOutputs reads hcode houtputs hreads =>
      obtain ⟨reads', hreads', -, rfl⟩ := hfinish
      refine .inr ⟨_, reads', rfl, hrest.toOwned.append (owned_callEvents _ _ _ hreads), hreads',
        fun id hid => .inr ?_, ?_⟩
      · exact List.mem_append_right _ (free_mem_callEvents _ _ _ hid)
      · simp [CallPlan.FreesOnce, hplan, hcode, houtputs, SqlReply.storedId_eq_none]
    | selectFailed reads hcode houtputs hreads hselect =>
      obtain ⟨reads', hreads', -, rfl⟩ := hfinish
      refine .inr ⟨_, reads', rfl, hrest.toOwned.append ((owned_callEvents _ _ _ hreads).append
        (owned_of_unused rfl)), hreads', fun id hid => .inr ?_, ?_⟩
      · exact List.mem_append_right _ (List.mem_append_left _ (free_mem_callEvents _ _ _ hid))
      · simp [CallPlan.FreesOnce, hplan, hcode, hselect, SqlReply.storedId_eq_none]
    | selected r called reads reads' hcode houtputs hreads hselect hcalled hreads' hresult =>
      obtain ⟨reads'', tail, rfl, hreads'', htail⟩ := hfinish.reads
      refine .inl ⟨?_, by simp [CallPlan.FreesOnce, hplan, hcode, houtputs, hselect]⟩
      have hselected := @owned_of_reads _ 1 (cString t.strSelect) _ _ _
        (fun _ => SqlReply.storedId_eq) (hreads'.append hreads'') htail
      have hcalled' : Owned (n + rest.length) called := hcalled ▸ owned_callEvents _ _ _ hreads
      have howned := hrest.toOwned.append (hcalled'.append hselected)
      rw [List.append_assoc] at howned
      rw [List.append_assoc, List.append_assoc]
      exact howned

/-- Result sets that were released before the call do not matter to what uses its own only. -/
theorem Owned.safe_of_dead {dead : List ResId} (h : Owned n log) (hdead : ∀ a ∈ dead, a < n) :
    Safe dead (resultUses log) := by
  rw [← List.append_nil dead, safe_append_dead fun u hu hmem => ?_]
  · exact h.safe
  · exact absurd (hdead _ hmem) (Nat.not_lt.mpr (h.own u hu).1)

theorem mem_releases_of_free {id : ResId} (h : .free id ∈ log) :
    id ∈ releases (resultUses log) :=
  mem_releases.mpr (List.mem_filterMap.mpr ⟨_, h, rfl⟩)

theorem ProcedureEnds.safe_iff {dead : List ResId}
    (h : ProcedureEnds plan replies noReturn res n r log res') (hdead : ∀ a ∈ dead, a < n)
    (hres : ∀ id ∈ res, id ∈ dead) :
    Safe dead (resultUses log) ↔ plan.FreesOnce replies res := by
  rcases h.shape with ⟨howned, hfrees⟩ | ⟨first, reads, rfl, howned, hreads, hreleased, hfrees⟩
  · exact ⟨fun _ => hfrees, fun _ => howned.safe_of_dead hdead⟩
  · rw [hfrees, resultUses_append, resultUses_append, safe_append]
    refine ⟨fun ⟨_, hlast⟩ => ?_, ?_⟩
    · by_contra hne
      obtain ⟨id, rfl⟩ := Option.ne_none_iff_exists'.mp hne
      refine not_safe_of_release ?_ (List.mem_append_right _ List.mem_cons_self) hlast
      rw [List.mem_append]
      exact (hreleased id rfl).imp (hres id) mem_releases_of_free
    · rintro rfl
      refine ⟨howned.safe_of_dead hdead, ?_⟩
      have hnil : resultUses reads = [] := List.eq_nil_iff_forall_not_mem.mpr fun u hu => by
        obtain ⟨id, hid, -⟩ := hreads.expose hu
        cases hid
      rw [hnil]
      trivial

theorem use_of_mem_frees {u : Use ℕ} (h : u ∈ resultUses (frees res)) : u.resource ∈ res := by
  cases res with
  | none => cases h
  | some id =>
    rw [List.mem_singleton.mp h]
    rfl

/-- A call uses result sets that are in the log already. -/
theorem ProcedureEnds.known (h : ProcedureEnds plan replies noReturn res n r log res')
    (hres : ∀ id ∈ res, id < n) : ∀ u ∈ resultUses log, u.resource < n + log.length := by
  rcases h.shape with ⟨howned, -⟩ | ⟨first, reads, rfl, howned, hreads, hreleased, -⟩
  · exact fun u hu => (howned.own u hu).2
  · have hfirst : ∀ u ∈ resultUses first, u.resource < n + first.length :=
      fun u hu => (howned.own u hu).2
    have hres' : ∀ id ∈ res', id < n + first.length := by
      intro id hid
      rcases hreleased id hid with hid | hfree
      · exact Nat.lt_add_right _ (hres id hid)
      · exact hfirst (.release id) (mem_releases.mp (mem_releases_of_free hfree))
    intro u hu
    rw [resultUses_append, resultUses_append, List.mem_append, List.mem_append] at hu
    rw [List.length_append]
    have hlt : u.resource < n + first.length := by
      rcases hu with hu | hu | hu
      · exact hfirst u hu
      · obtain ⟨id, hid, rfl⟩ := hreads.expose hu
        exact hres' id hid
      · exact hres' _ (use_of_mem_frees hu)
    omega

/-- When a call returns, the result set of the helper has been released. -/
theorem ProcedureEnds.released (h : ProcedureEnds plan replies noReturn res n r log res')
    (hok : r.isOk = true) : ∀ id ∈ res', id ∈ releases (resultUses log) := by
  obtain ⟨code, first, last, -, hfinish, rfl, rfl⟩ := h
  cases code with
  | error fault => cases hok
  | ok code =>
    obtain ⟨reads, -, -, rfl⟩ := hfinish
    intro id hid
    obtain rfl : res' = some id := hid
    refine mem_releases_of_free (List.mem_append_right _ (List.mem_append_right _ ?_))
    exact List.mem_cons_self

/-! ## Statements without the helper -/

/-- How `ExecuteSQL` ends with a result set of its own. -/
def StatementEnds (sql : List Byte) (reply : CallReply) (n : ℕ) (log : List SqlEvent) : Prop :=
  (reply.code ≠ 0 ∧ log = [.query sql 0]) ∨
    (reply.code = 0 ∧ ∃ reads, Reads (reply.storedId (n + 1)) reads ∧
      log = callEvents sql reply.sets (reply.storedId (n + 1)) reads)

theorem StatementEnds.owned {sql : List Byte} {reply : CallReply}
    (h : StatementEnds sql reply n log) : Owned n log := by
  rcases h with ⟨-, rfl⟩ | ⟨-, reads, hreads, rfl⟩
  · exact owned_of_unused rfl
  · exact owned_callEvents _ _ _ hreads

/-- Fetches keep the result set. -/
theorem run_fetchLocal (qr : QueryResult) (k : ℕ) (log : List SqlEvent) :
    ∃ qr' l, (fetchLocal qr k).run log = .ok qr' (log ++ fetches qr.handle l) ∧
      qr'.handle = qr.handle := by
  induction k generalizing qr log with
  | zero => exact ⟨qr, 0, by simp [fetchLocal], rfl⟩
  | succ k ih =>
    obtain ⟨r, log', hfetch⟩ := exists_yields qr.fetchResult log
    obtain ⟨code, qr', l, rfl, rfl, hhandle⟩ := fetchResult_cases hfetch
    obtain ⟨qr'', m, hrest, hhandle'⟩ := ih qr' (log ++ fetches qr.handle l)
    refine ⟨qr'', l + m, ?_, hhandle'.trans hhandle⟩
    rw [hhandle, List.append_assoc, fetches_append] at hrest
    simp only [Yields] at hfetch
    simp [fetchLocal, hfetch, hrest]

theorem run_executeCommon (sql : List Byte) (reply : CallReply) (k : ℕ) (log : List SqlEvent) :
    ∃ events, (executeCommon sql reply k).run log = .ok ⟨⟩ (log ++ events) ∧
      StatementEnds (cString sql) reply log.length events := by
  by_cases hcode : reply.code = 0
  · obtain ⟨qr, l, hfetch, hhandle⟩ := run_fetchLocal (QueryResult.new.store
      (reply.stored (log.length + 1)) reply.affectedRows) k (log ++ [.query (cString sql)
      (reply.sets + 1), .store (reply.storedId (log.length + 1)), .callBack])
    rw [QueryResult.handle_store] at hfetch hhandle
    refine ⟨_, ?_, .inr ⟨hcode, .callBack :: fetches (reply.storedId (log.length + 1)) l, ?_, rfl⟩⟩
    · simp [executeCommon, run_executeSQLTo_of_eq, hcode, hfetch, run_release, hhandle, callEvents]
    · exact List.forall_mem_cons.mpr ⟨.inl rfl, Reads.fetches _ l⟩
  · refine ⟨_, ?_, .inl ⟨hcode, rfl⟩⟩
    simp [executeCommon, run_executeSQLTo_of_ne, hcode, run_release, QueryResult.new,
      QueryResult.handle, frees]

theorem run_noResult (sql : List Byte) (reply : CallReply) (log : List SqlEvent) :
    ∃ events, (executeSQL sql none reply.toSqlReply reply.sets).run log =
        .ok (reply.code, none) (log ++ events) ∧
      StatementEnds (cString sql) reply log.length events := by
  by_cases hcode : reply.code = 0
  · refine ⟨_, ?_, .inr ⟨hcode, [], .nil _, rfl⟩⟩
    rw [run_executeSQL_null_of_eq hcode, hcode]
    rfl
  · exact ⟨_, run_executeSQL_null_of_ne hcode, .inl ⟨hcode, rfl⟩⟩

/-! ## The steps of a session -/

variable {paramList : List Byte → List Byte} {s t : SqlSession} {call : SqlCall}

/-- What a step does to the log and to the result set of the helper, and when the program goes
on. -/
inductive SessionEnds (paramList : List Byte → List Byte) (s t : SqlSession) :
    SqlCall → List SqlEvent → Prop
  | procedure (env : CallEnv) (pack : SqlPack) (r : Except Fault Bool) (log : List SqlEvent)
    (hends : ProcedureEnds (callPlan paramList env pack) env.replies env.noReturn s.world.handle
      s.world.log.length r log t.world.handle)
    (hok : t.running = true → r.isOk = true) : SessionEnds paramList s t (.procedure env pack) log
  | common (sql : List Byte) (reply : CallReply) (fetches : ℕ) (log : List SqlEvent)
    (hends : StatementEnds (cString sql) reply s.world.log.length log)
    (hhandle : t.world.handle = s.world.handle) :
    SessionEnds paramList s t (.common sql reply fetches) log
  | noResult (sql : List Byte) (reply : CallReply) (log : List SqlEvent)
    (hends : StatementEnds (cString sql) reply s.world.log.length log)
    (hhandle : t.world.handle = s.world.handle) :
    SessionEnds paramList s t (.noResult sql reply) log
  | exit (hrunning : t.running = false) :
    SessionEnds paramList s t .exit (frees s.world.handle)

/-- **The steps of a session.** -/
theorem sessionStep_cases (hready : s.running = true → s.world.Ready)
    (h : sessionStep paramList s call = some t) :
    s.running = true ∧ ∃ log, t.world.log = s.world.log ++ log ∧
      (t.running = true → t.world.Ready) ∧ SessionEnds paramList s t call log := by
  unfold sessionStep at h
  split at h
  swap
  · cases h
  rename_i hrunning
  refine ⟨hrunning, ?_⟩
  have hready := hready hrunning
  cases call with
  | procedure env pack =>
    obtain ⟨r, w, hcall⟩ := exists_yields (executeProcedure paramList env pack) s.world
    obtain ⟨log, hlog, hready', hends⟩ := executeProcedure_cases hready hcall
    cases r with
    | ok b =>
      simp only [Yields] at hcall
      obtain rfl : ⟨w, true⟩ = t := by simpa [SqlCall.program, hcall, SqlCall.GoesOn] using h
      exact ⟨log, hlog, fun _ => hready' rfl, .procedure env pack _ log hends fun _ => rfl⟩
    | error fault =>
      simp only [Yields] at hcall
      obtain rfl : ⟨w, false⟩ = t := by simpa [SqlCall.program, hcall] using h
      exact ⟨log, hlog, fun h => (by cases h),
        .procedure env pack _ log hends fun h => (by cases h)⟩
  | common sql reply k =>
    obtain ⟨log, hrun, hends⟩ := run_executeCommon sql reply k s.world.log
    obtain rfl : ⟨{ s.world with log := s.world.log ++ log }, true⟩ = t := by
      simpa [SqlCall.program, mysql, hrun, SqlCall.GoesOn] using h
    exact ⟨log, rfl, fun _ => ⟨hready.zero, hready.size⟩, .common sql reply k log hends rfl⟩
  | noResult sql reply =>
    obtain ⟨log, hrun, hends⟩ := run_noResult sql reply s.world.log
    obtain rfl : ⟨{ s.world with log := s.world.log ++ log }, true⟩ = t := by
      simpa [SqlCall.program, mysql, hrun, SqlCall.GoesOn] using h
    exact ⟨log, rfl, fun _ => ⟨hready.zero, hready.size⟩, .noResult sql reply log hends rfl⟩
  | exit =>
    obtain ⟨w, hrun, hw⟩ := runs_releaseThis s.world
    have hrelease := hrun.1
    simp only [Yields] at hrelease
    obtain rfl : ⟨w, false⟩ = t := by simpa [SqlCall.program, hrelease, SqlCall.GoesOn] using h
    exact ⟨_, hrun.2.log, fun h => (by cases h), .exit rfl⟩

/-- What holds between two calls. -/
structure SqlSession.Sound (s : SqlSession) : Prop where
  ready : s.running = true → s.world.Ready
  known : ∀ u ∈ resultUses s.world.log, u.resource < s.world.log.length
  released : s.running = true → ∀ id ∈ s.world.handle, id ∈ releases (resultUses s.world.log)

theorem SqlSession.sound_start : SqlSession.start.Sound where
  ready _ := SqlWorld.ready_start
  known u hu := by cases hu
  released _ id hid := by cases hid

theorem SqlSession.Sound.dead_lt (hs : s.Sound) :
    ∀ a ∈ releases (resultUses s.world.log), a < s.world.log.length :=
  fun a ha => hs.known (.release a) (mem_releases.mp ha)

theorem SqlSession.Sound.step (hs : s.Sound) (h : sessionStep paramList s call = some t) :
    t.Sound := by
  obtain ⟨hrunning, log, hlog, hready, hends⟩ := sessionStep_cases hs.ready h
  have hhandle : ∀ id ∈ s.world.handle, id < s.world.log.length :=
    fun id hid => hs.dead_lt id (hs.released hrunning id hid)
  have hknown (hnew : ∀ u ∈ resultUses log, u.resource < s.world.log.length + log.length) :
      ∀ u ∈ resultUses t.world.log, u.resource < t.world.log.length := by
    intro u hu
    rw [hlog, resultUses_append, List.mem_append] at hu
    rw [hlog, List.length_append]
    rcases hu with hu | hu
    · exact Nat.lt_add_right _ (hs.known u hu)
    · exact hnew u hu
  have hkept (hsame : t.world.handle = s.world.handle) :
      ∀ id ∈ t.world.handle, id ∈ releases (resultUses t.world.log) := by
    intro id hid
    rw [hlog, resultUses_append, releases_append]
    exact List.mem_append_left _ (hs.released hrunning id (hsame ▸ hid))
  cases hends with
  | procedure env pack r log hends hok =>
    refine ⟨hready, hknown (hends.known hhandle), fun ht id hid => ?_⟩
    rw [hlog, resultUses_append, releases_append]
    exact List.mem_append_right _ (hends.released (hok ht) id hid)
  | common sql reply k log hends hsame =>
    exact ⟨hready, hknown fun u hu => (hends.owned.own u hu).2, fun _ => hkept hsame⟩
  | noResult sql reply log hends hsame =>
    exact ⟨hready, hknown fun u hu => (hends.owned.own u hu).2, fun _ => hkept hsame⟩
  | exit ht =>
    refine ⟨hready, hknown fun u hu => ?_, fun ht' => ?_⟩
    · exact Nat.lt_add_right _ (hhandle _ (use_of_mem_frees hu))
    · rw [ht] at ht'
      cases ht'

/-! ## Result sets -/

/-- The call releases no result set that was released before. -/
def SqlSession.FreesOnce (paramList : List Byte → List Byte) (s : SqlSession) : SqlCall → Prop
  | .procedure env pack => (callPlan paramList env pack).FreesOnce env.replies s.world.handle
  | .common _ _ _ | .noResult _ _ => True
  | .exit => s.world.handle = none

theorem SqlSession.Sound.safe_iff (hs : s.Sound) (h : sessionStep paramList s call = some t) :
    Safe [] (resultUses t.world.log) ↔
      Safe [] (resultUses s.world.log) ∧ s.FreesOnce paramList call := by
  obtain ⟨hrunning, log, hlog, -, hends⟩ := sessionStep_cases hs.ready h
  rw [hlog, resultUses_append, safe_append, List.nil_append]
  refine and_congr_right fun _ => ?_
  cases hends with
  | procedure env pack r log hends hok =>
    exact hends.safe_iff hs.dead_lt (hs.released hrunning)
  | common sql reply k log hends => exact iff_true_intro (hends.owned.safe_of_dead hs.dead_lt)
  | noResult sql reply log hends => exact iff_true_intro (hends.owned.safe_of_dead hs.dead_lt)
  | exit =>
    change _ ↔ s.world.handle = none
    cases hhandle : s.world.handle with
    | none => exact ⟨fun _ => rfl, fun _ => trivial⟩
    | some id =>
      refine ⟨fun hsafe => absurd hsafe (not_safe_of_release ?_ List.mem_cons_self), nofun⟩
      exact hs.released hrunning id hhandle

/-- **Which sessions release every result set once.** In a session no result set is released twice,
or used after its release, if and only if at every call the helper points to no result set, unless
the call gets as far as its `CALL` and that succeeds or faults before, and every `CALL` that
returns a result set is followed by a `SELECT` that succeeds. -/
theorem result_sets_freed_iff {acts : List SqlCall}
    (h : run (sessionStep paramList) .start acts = some s) :
    Safe [] (resultUses s.world.log) ↔
      Meets (sessionStep paramList) (SqlSession.FreesOnce paramList) .start acts :=
  run_iff_meets (fun _ _ _ hs h => hs.step h) (fun _ _ _ hs h => hs.safe_iff h)
    SqlSession.sound_start trivial h

/-- A plain statement, whose row is fetched, and a procedure, both with a result set. -/
def fetchAndCall : List SqlCall :=
  [.common (ascii "select 1") (.value (ascii "1")) 1,
    .procedure (.noParameters (.value (ascii "7"))) ⟨.procedure, ascii "f", none, 0, 0⟩]

theorem result_sets_freed_iff_fetchAndCall : ∃ s,
    run (sessionStep id) .start fetchAndCall = some s ∧
    (Safe [] (resultUses s.world.log) ↔
      Meets (sessionStep id) (SqlSession.FreesOnce id) .start fetchAndCall) := by
  obtain ⟨s, hs⟩ : ∃ s, run (sessionStep id) .start fetchAndCall = some s :=
    Option.isSome_iff_exists.mp (by decide +kernel)
  exact ⟨s, hs, result_sets_freed_iff hs⟩

/-- A procedure without `OUT` parameters returns a result set: `Execute` releases it, and `Clear`
again. -/
theorem result_set_freed_twice : ∃ s,
    run (sessionStep id) .start [.procedure (.noParameters (.value (ascii "7")))
      ⟨.procedure, ascii "f", none, 0, 0⟩] = some s ∧ ¬ Safe [] (resultUses s.world.log) :=
  ⟨_, rfl, by decide⟩

end PetsServer

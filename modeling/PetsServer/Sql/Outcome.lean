import PetsServer.Sql.ReadBack
import PetsServer.Sql.Stages

/-!
# How a call ends

`CallEnds`, `ExecuteEnds` and `ProcedureEnds` list the ways in which a call of a stored procedure
can end, with what each returns, what it leaves in the log and which result set the static helper
points to afterwards. `executeProcedure_cases` says that there are no others; the results about runs
of calls are case analyses over it.
-/

namespace PetsServer

open Foundations OnWorld

/-! ## The stages of Execute -/

/-- A row of the result is fetched: the library reports one, and there is one. -/
def SqlReply.FetchesRow (reply : SqlReply) : Prop :=
  reply.affectedRows.toUInt32.toInt32 = 1 ∧
    ∃ set, reply.result = some set ∧ set.numFields ≠ 0 ∧ set.rows ≠ []

/-- The ways in which `Execute` can end after its `SELECT` has succeeded. -/
inductive SelectEnds (reply : SqlReply) (noReturn : Int32) : Except Fault Int32 → Prop
  | noRow (code : Int32) (hcode : code ≠ 0) (hrow : ¬ reply.FetchesRow) :
    SelectEnds reply noReturn (.ok code)
  | fault (fault : Fault) (hrow : reply.FetchesRow) (hfault : fault ≠ .bufferOverrun) :
    SelectEnds reply noReturn (.error fault)
  | stored (hrow : reply.FetchesRow) : SelectEnds reply noReturn (.ok noReturn)

variable {env : CallEnv} {sql : List Byte}

theorem outputFault_ne_bufferOverrun (s : Signature) (rows : Row) (i : ℕ) :
    s.outputFault rows i ≠ some .bufferOverrun := by
  have hstore : ∀ (type : FieldType) (value : Option (List Byte)),
      type.storeFault value ≠ some .bufferOverrun := by
    intro type value
    cases type <;> cases value <;> exact nofun
  unfold Signature.outputFault
  split
  · cases rows[i]? with
    | none => exact nofun
    | some value => exact hstore _ value
  · exact nofun

/-- A fetch from a result that was just stored. -/
theorem yields_fetchThis_store {qr : QueryResult} {reply : SqlReply} {n : ℕ} {w : SqlWorld}
    (hqr : w.helper.toQueryResult = qr.store (reply.stored n) reply.affectedRows) :
    (∃ set row, reply.result = some set ∧ set.numFields ≠ 0 ∧ set.rows.head? = some row ∧
      ∃ t, Yields fetchThis w (.ok 0) t ∧ t.helper.rows = some row) ∨
    (¬ ∃ set, reply.result = some set ∧ set.numFields ≠ 0 ∧ set.rows ≠ []) ∧
      ∃ t, Yields fetchThis w (.ok 1) t := by
  have hthis {code : Int32} {qr' : QueryResult} {log : List SqlEvent}
      (hfetch : w.helper.toQueryResult.fetchResult.run w.log = .ok (code, qr') log) :
      Yields fetchThis w (.ok code)
        { w with helper := { w.helper with toQueryResult := qr' }, log := log } := by
    simp [Yields, fetchThis, mysql, hfetch]
  cases hresult : reply.result with
  | none =>
    have hres : w.helper.toQueryResult.res = none := by
      rw [hqr, QueryResult.store_res, SqlReply.stored, hresult, Option.map_none]
    exact .inr ⟨by simp, _, hthis (run_fetchResult_of_none hres)⟩
  | some set =>
    have hstored :
        w.helper.toQueryResult = qr.store (some ⟨n, set, set.rows⟩) reply.affectedRows := by
      rw [hqr, SqlReply.stored, hresult, Option.map_some]
    by_cases hempty : set.rows = [] ∨ set.numFields = 0
    · refine .inr ⟨?_, _, hthis (run_fetchResult_of_empty ?_)⟩
      · rintro ⟨set', hset, hfields, hrows⟩
        obtain rfl := Option.some.inj hset
        exact hempty.elim hrows hfields
      · rw [hstored]
        exact hempty.imp_left List.length_eq_zero_iff.mpr
    · obtain ⟨hrows, hfields⟩ := not_or.mp hempty
      obtain ⟨row, rest, hset⟩ := List.exists_cons_of_ne_nil hrows
      have hfetch := @run_fetchResult_of_some w.log _ ⟨n, set, set.rows⟩
        (hstored ▸ QueryResult.store_res qr _ _) (by
          rw [hstored]
          exact fun h => hempty (h.imp_left List.length_eq_zero_iff.mp))
      rw [hset] at hfetch
      exact .inl ⟨set, row, rfl, hfields, by rw [hset]; rfl, _, hthis hfetch, rfl⟩

/-- **How `Execute` ends after its `SELECT`.** -/
theorem readSelect_cases {qr : QueryResult} {n : ℕ} {w t : SqlWorld} {r : Except Fault Int32}
    (hqr : w.helper.toQueryResult =
      qr.store (env.replies.select.stored n) env.replies.select.affectedRows)
    (h : Yields (readSelect env) w r t) : SelectEnds env.replies.select env.noReturn r := by
  have haffected : w.helper.toQueryResult.getAffectedRows =
      env.replies.select.affectedRows.toUInt32.toInt32 := by
    rw [hqr, QueryResult.getAffectedRows, QueryResult.store_nrow]
  by_cases hone : w.helper.toQueryResult.getAffectedRows = 1
  swap
  · have hrun : Yields (readSelect env) w (.ok (-1)) w := by
      refine (yields_get w).bind ?_
      rw [if_pos hone]
      exact yields_pure _ w
    obtain ⟨rfl, -⟩ := h.unique hrun
    exact .noRow (-1) (by decide) fun hrow => hone (haffected.trans hrow.1)
  rcases yields_fetchThis_store hqr with ⟨set, row, hset, hfields, hhead, u, hfetch, hrows⟩ |
    ⟨hnone, u, hfetch⟩
  swap
  · have hrun : Yields (readSelect env) w (.ok 1) u := by
      refine (yields_get w).bind ?_
      rw [if_neg (not_not_intro hone)]
      exact hfetch.bind (yields_pure 1 u)
    obtain ⟨rfl, -⟩ := h.unique hrun
    exact .noRow 1 (by decide) fun hrow => hnone hrow.2
  have hrow : env.replies.select.FetchesRow :=
    ⟨haffected.symm.trans hone, set, hset, hfields, fun hnil => by simp [hnil] at hhead⟩
  -- the outputs are read from the row
  have hrest {r' : Except Fault Int32} {t' : SqlWorld}
      (hread : Yields (signature (readOutputs row) >>= fun _ =>
        modify (fun w : SqlWorld => { w with
          prepareBuffer := List.replicate prepareBufferSize 0 }) >>= fun _ =>
          pure env.noReturn) u r' t') : r = r' := by
    have hrun : Yields (readSelect env) w r' t' := by
      refine (yields_get w).bind ?_
      rw [if_neg (not_not_intro hone)]
      refine hfetch.bind ((yields_get u).bind ?_)
      rw [hrows]
      exact hread
    exact (h.unique hrun).1
  rcases readOutputs_cases u.helper.toSignature row with ⟨-, hstored⟩ |
    ⟨i, -, fault, s, hfault, herror⟩
  · have hsignature : Yields (signature (readOutputs row)) u (.ok ⟨⟩)
        { u with helper := { u.helper with toSignature := u.helper.toSignature.stored row } } :=
      Yields.zoom hstored
    obtain rfl := hrest (hsignature.bind ((yields_modify _ _).bind (yields_pure _ _)))
    exact .stored hrow
  · have hsignature : Yields (signature (readOutputs row)) u (.error fault)
        { u with helper := { u.helper with toSignature := s } } := Yields.zoom herror
    obtain rfl := hrest hsignature.bind_error
    refine .fault fault hrow ?_
    rintro rfl
    exact outputFault_ne_bufferOverrun _ _ _ hfault

theorem runs_selectOutputs_of_ne (w : SqlWorld) (h : env.replies.select.code ≠ 0) :
    ∃ t, Runs (selectOutputs env sql) w (.ok env.replies.select.code)
        [.query (cString sql) 0] t ∧ t.handle = w.handle := by
  obtain ⟨t, hstmt, ht⟩ := @runs_executeSQLThis_of_ne sql env.replies.select 0 w h
  have hpure : Runs (if env.replies.select.code ≠ 0 then pure env.replies.select.code
      else readSelect env) t (.ok env.replies.select.code) [] t := by
    rw [if_pos h]
    exact runs_pure _ t
  exact ⟨t, hstmt.bind hpure, ht⟩

theorem runs_selectOutputs_of_eq (w : SqlWorld) (h : env.replies.select.code = 0) :
    ∃ r log t, Runs (selectOutputs env sql) w r (.query (cString sql) 1 ::
        .store (env.replies.select.storedId (w.log.length + 1)) :: log) t ∧
      Reads (env.replies.select.storedId (w.log.length + 1)) log ∧
      t.handle = env.replies.select.storedId (w.log.length + 1) ∧
      SelectEnds env.replies.select env.noReturn r := by
  obtain ⟨u, hstmt, hu, hqr⟩ := @runs_executeSQLThis_of_eq sql env.replies.select 0 w h
  obtain ⟨r, log, t, hread, hreads, ht⟩ := runs_of_moves (moves_readSelect env) u
  rw [hu] at hreads ht
  exact ⟨r, log, t, hstmt.bind hread, hreads, ht, readSelect_cases hqr hread.1⟩

theorem runs_logCall (w : SqlWorld) : ∃ reads t, Reads w.handle reads ∧
    Runs logCall w (.ok ⟨⟩) (reads ++ frees w.handle) t ∧ t.handle = w.handle := by
  obtain ⟨_, reads, u, hlog, hreads, hu⟩ := runs_of_returns
    (moves_bind moves_get fun v => moves_logRows (v.helper.numRows + 1))
    (returns_bind returns_get fun v => returns_logRows (v.helper.numRows + 1)) w
  obtain ⟨t, hrelease, ht⟩ := runs_releaseThis u
  rw [hu] at hrelease ht
  exact ⟨reads, t, hreads, hlog.bind hrelease, ht⟩

/-- The events of a `CALL` that has succeeded. -/
def callEvents (sql : List Byte) (sets : ℕ) (res : Option ResId) (reads : List SqlEvent) :
    List SqlEvent :=
  .query sql (sets + 1) :: .store res :: (reads ++ frees res)

/-- The ways in which `Execute` can end from the `CALL` on, with what it returns, the events and the
result set that the helper points to afterwards; before it is `res`, and the log has the length
`n`. -/
inductive CallEnds (t : Texts) (replies : CallReplies) (noReturn : Int32) (res : Option ResId)
    (n : ℕ) :
    Except Fault Int32 → List SqlEvent → Option ResId → Prop
  | callFailed (hcode : replies.call.code ≠ 0) :
    CallEnds t replies noReturn res n (.ok replies.call.code) [.query (cString t.pecedureCall) 0]
      res
  | noOutputs (reads : List SqlEvent) (hcode : replies.call.code = 0)
    (houtputs : t.strSelect = []) (hreads : Reads (replies.call.storedId (n + 1)) reads) :
    CallEnds t replies noReturn res n (.ok 0) (callEvents (cString t.pecedureCall) replies.call.sets
      (replies.call.storedId (n + 1)) reads) (replies.call.storedId (n + 1))
  | selectFailed (reads : List SqlEvent) (hcode : replies.call.code = 0)
    (houtputs : t.strSelect ≠ []) (hreads : Reads (replies.call.storedId (n + 1)) reads)
    (hselect : replies.select.code ≠ 0) :
    CallEnds t replies noReturn res n (.ok replies.select.code) (callEvents (cString t.pecedureCall)
      replies.call.sets (replies.call.storedId (n + 1)) reads ++ [.query (cString t.strSelect) 0])
      (replies.call.storedId (n + 1))
  | selected (r : Except Fault Int32) (called reads reads' : List SqlEvent)
    (hcode : replies.call.code = 0) (houtputs : t.strSelect ≠ [])
    (hreads : Reads (replies.call.storedId (n + 1)) reads) (hselect : replies.select.code = 0)
    (hcalled : called = callEvents (cString t.pecedureCall) replies.call.sets
      (replies.call.storedId (n + 1)) reads)
    (hreads' : Reads (replies.select.storedId (n + called.length + 1)) reads')
    (hresult : SelectEnds replies.select noReturn r) :
    CallEnds t replies noReturn res n r (called ++ .query (cString t.strSelect) 1 ::
      .store (replies.select.storedId (n + called.length + 1)) :: reads')
      (replies.select.storedId (n + called.length + 1))

theorem runs_callProcedure (env : CallEnv) (t : Texts) (w : SqlWorld) :
    ∃ r log u, Runs (callProcedure env t) w r log u ∧
      CallEnds t env.replies env.noReturn w.handle w.log.length r log u.handle := by
  by_cases hcode : env.replies.call.code = 0
  swap
  · obtain ⟨u, hstmt, hu⟩ := @runs_executeSQLThis_of_ne t.pecedureCall
      env.replies.call.toSqlReply env.replies.call.sets w hcode
    have hrun : Runs (callProcedure env t) w (.ok env.replies.call.code) _ u :=
      hstmt.bind (by simpa [hcode] using runs_pure _ u)
    refine ⟨_, _, u, hrun, ?_⟩
    rw [hu]
    exact .callFailed hcode
  obtain ⟨u, hstmt, hu, -⟩ := @runs_executeSQLThis_of_eq t.pecedureCall
    env.replies.call.toSqlReply env.replies.call.sets w hcode
  obtain ⟨reads, v, hreads, hlog, hv⟩ := runs_logCall u
  rw [hu] at hreads hlog hv
  -- the rest of `Execute` goes on from `v`
  have hrest {r log x} (h : Runs (if t.strSelect.isEmpty then pure 0
      else selectOutputs env t.strSelect) v r log x) :
      Runs (callProcedure env t) w r (callEvents (cString t.pecedureCall) env.replies.call.sets
        (env.replies.call.storedId (w.log.length + 1)) reads ++ log) x := by
    have hread : Runs (readCall env t) u r _ x := hlog.bind h
    exact hstmt.bind (f := fun result => if result ≠ 0 then pure result else readCall env t)
      (by simpa using hread)
  have hlength : v.log.length = w.log.length + (callEvents (cString t.pecedureCall)
      env.replies.call.sets (env.replies.call.storedId (w.log.length + 1)) reads).length := by
    rw [(hstmt.2.trans hlog.2).log, List.length_append]
    rfl
  by_cases houtputs : t.strSelect = []
  · have hrun := hrest (r := .ok 0) (x := v) (by simpa [houtputs] using runs_pure 0 v)
    rw [List.append_nil] at hrun
    refine ⟨_, _, v, hrun, ?_⟩
    rw [hv]
    exact .noOutputs reads hcode houtputs hreads
  by_cases hselect : env.replies.select.code = 0
  · obtain ⟨r, log, x, hsel, hreads', hx, hresult⟩ :=
      @runs_selectOutputs_of_eq env t.strSelect v hselect
    rw [hlength] at hreads' hx hsel
    refine ⟨r, _, x, hrest (by simpa [houtputs] using hsel), ?_⟩
    rw [hx]
    exact .selected r _ reads log hcode houtputs hreads hselect rfl hreads' hresult
  · obtain ⟨x, hsel, hx⟩ := @runs_selectOutputs_of_ne env t.strSelect v hselect
    refine ⟨_, _, x, hrest (by simpa [houtputs] using hsel), ?_⟩
    rw [hx, hv]
    exact .selectFailed reads hcode houtputs hreads hselect

/-- The ways in which `Execute` can end, or `ExecuteProcedure` before it. -/
inductive ExecuteEnds (plan : CallPlan) (replies : CallReplies) (noReturn : Int32)
    (res : Option ResId) (n : ℕ) :
    Except Fault Int32 → List SqlEvent → Option ResId → Prop
  | fault (fault : Fault) (rest : List SqlEvent) (hplan : plan.texts = .error fault)
    (hrest : Segment n rest plan.sent) :
    ExecuteEnds plan replies noReturn res n (.error fault) rest res
  | refused (code : Int32) (rest : List SqlEvent) (hcode : code ≠ 0)
    (hplan : plan.texts = .ok none) (hrest : Segment n rest plan.sent) :
    ExecuteEnds plan replies noReturn res n (.ok code) rest res
  | called (t : Texts) (rest log : List SqlEvent) (r : Except Fault Int32) (res' : Option ResId)
    (hplan : plan.texts = .ok (some t)) (hrest : Segment n rest plan.sent)
    (hcall : CallEnds t replies noReturn res (n + rest.length) r log res') :
    ExecuteEnds plan replies noReturn res n r (rest ++ log) res'

/-- Statements before. -/
theorem ExecuteEnds.prepend {plan : CallPlan} {replies : CallReplies} {noReturn : Int32}
    {res res' : Option ResId}
    {n : ℕ} {r : Except Fault Int32} {first log : List SqlEvent} {sqls : List (List Byte)}
    (hfirst : Segment n first sqls)
    (h : ExecuteEnds plan replies noReturn res (n + first.length) r log res') :
    ExecuteEnds { plan with sent := sqls ++ plan.sent } replies noReturn res n r (first ++ log)
      res' := by
  cases h with
  | fault fault rest hplan hrest => exact .fault fault _ hplan (hfirst.append hrest)
  | refused code rest hcode hplan hrest => exact .refused code _ hcode hplan (hfirst.append hrest)
  | called t rest log r res' hplan hrest hcall =>
    rw [← List.append_assoc]
    refine .called t _ log r res' hplan (hfirst.append hrest) ?_
    rwa [List.length_append, ← Nat.add_assoc]

/-! ## The stages before -/

/-- The zero after the text of the `SET` ends it. -/
theorem cString_overwrite_zero (b : List Byte) (i : ℕ) :
    cString (overwrite b i [0]) = cString (b.take i) := by
  rw [overwrite, List.append_assoc]
  exact cString_append_zero _ _

theorem runs_sendSet (env : CallEnv) {idx : ℕ} {w : SqlWorld}
    (hsize : w.prepareBuffer.length = prepareBufferSize) (hpos : idx ≠ 0) (hle : ¬ setLimit < idx) :
    ∃ log t, Runs (sendSet env idx) w (.ok env.replies.set.code) log t ∧ t.handle = w.handle ∧
      Segment w.log.length log [cString (w.prepareBuffer.take idx)] := by
  have hfit : idx + [(0 : Byte)].length ≤ w.prepareBuffer.length := by
    rw [hsize, List.length_singleton]
    unfold setLimit prepareBufferSize at *
    omega
  have hwrite := writeAt_of_le hfit
  have hsql := cString_overwrite_zero w.prepareBuffer idx
  simp only [Yields] at hwrite
  by_cases hcode : env.replies.set.code = 0
  · refine ⟨_, { w with
      prepareBuffer := overwrite w.prepareBuffer idx [0]
      log := w.log ++ .query (cString (w.prepareBuffer.take idx)) 1 ::
        .store (env.replies.set.storedId (w.log.length + 1)) ::
        ([] ++ frees (env.replies.set.storedId (w.log.length + 1))) }, ⟨?_, rfl, ?_⟩, rfl,
      .result (.nil _) (.inr rfl)⟩
    · simp [Yields, sendSet, hpos, hle, buffer, mysql, hwrite, run_executeSQL_null_of_eq, hcode,
        hsql]
    · exact fun _ => (length_overwrite hfit).trans hsize
  · refine ⟨_, { w with
      prepareBuffer := overwrite w.prepareBuffer idx [0]
      log := w.log ++ [.query (cString (w.prepareBuffer.take idx)) 0] }, ⟨?_, rfl, ?_⟩, rfl,
      .failed _ _⟩
    · simp [Yields, sendSet, hpos, hle, buffer, mysql, hwrite, run_executeSQL_null_of_ne, hcode,
        hsql]
    · exact fun _ => (length_overwrite hfit).trans hsize

/-- **The texts are sent as planned**, when `PrepareBuffer` agrees with the block of the plan up to
the index. -/
theorem runs_sendTexts (env : CallEnv) {t : Texts} {w : SqlWorld} {b : List Byte}
    (hsize : w.prepareBuffer.length = prepareBufferSize)
    (hagree : AgreeTo t.prepareIdx b w.prepareBuffer) :
    ∃ r log u, Runs (sendTexts env t) w r log u ∧
      ExecuteEnds (setPlan env.replies.set t b) env.replies env.noReturn w.handle w.log.length r log
        u.handle := by
  by_cases hzero : t.prepareIdx = 0
  · obtain ⟨r, log, u, hcall, hends⟩ := runs_callProcedure env t w
    have hset : Runs (sendSet env t.prepareIdx) w (.ok 0) [] w := by
      rw [sendSet, if_neg (not_not_intro hzero)]
      exact runs_pure 0 w
    refine ⟨r, [] ++ log, u, hset.bind (by simpa using hcall), ?_⟩
    rw [setPlan, if_pos hzero]
    exact .called t [] log r _ rfl (.nil _) hends
  by_cases hlimit : setLimit < t.prepareIdx
  · have hset : Runs (sendSet env t.prepareIdx) w (.ok (-1)) [] w := by
      rw [sendSet, if_pos hzero, if_pos hlimit]
      exact runs_pure (-1) w
    refine ⟨.ok (-1), [] ++ [], w, hset.bind (by simpa using runs_pure (-1) w), ?_⟩
    rw [setPlan, if_neg hzero, if_pos hlimit]
    exact .refused (-1) [] (by decide) rfl (.nil _)
  obtain ⟨rest, u, hset, hu, hseg⟩ := runs_sendSet env hsize hzero hlimit
  rw [← hagree.2] at hseg
  rw [setPlan, if_neg hzero, if_neg hlimit]
  by_cases hcode : env.replies.set.code = 0
  · obtain ⟨r, log, v, hcall, hends⟩ := runs_callProcedure env t u
    refine ⟨r, rest ++ log, v, hset.bind (by simpa [hcode] using hcall), ?_⟩
    rw [hu, hset.2.log, List.length_append] at hends
    exact .called t rest log r _ (by rw [if_pos hcode]) hseg hends
  · refine ⟨_, rest ++ [], u, hset.bind (by simpa [hcode] using runs_pure _ u), ?_⟩
    rw [hu, List.append_nil]
    exact .refused _ rest hcode (by rw [if_neg hcode]) hseg

theorem runs_execute (env : CallEnv) {w : SqlWorld}
    (hsize : w.prepareBuffer.length = prepareBufferSize) :
    ∃ r log u, Runs (execute env) w r log u ∧
      ExecuteEnds (textsPlan env w.helper.strProc w.helper.toSignature) env.replies env.noReturn
        w.handle w.log.length r log u.handle := by
  let x := buildTexts env.garbage w.helper.strProc w.helper.declared
  have hlength : (List.replicate prepareBufferSize (0 : Byte)).length = w.prepareBuffer.length := by
    rw [List.length_replicate, hsize]
  obtain ⟨r, b, hplan⟩ := exists_yields x (List.replicate prepareBufferSize 0)
  obtain ⟨b', hbuild, hagree⟩ := coupled_buildTexts w.helper.strProc w.helper.declared
    (fun _ _ _ _ => rfl) _ w.prepareBuffer r b hlength hplan
  have hsize' : b'.length = prepareBufferSize := (moves_buildTexts _ _ _ _ _ _ hbuild).trans hsize
  have hbuffer : Runs (buffer x) w r [] { w with prepareBuffer := b' } :=
    ⟨hbuild.zoom, (List.append_nil w.log).symm, fun _ => hsize'⟩
  rcases r with fault | _ | t
  · refine ⟨_, [], _, ⟨(yields_get w).bind hbuffer.1.bind_error, hbuffer.2⟩, ?_⟩
    rw [textsPlan_of_error hplan]
    exact .fault fault [] rfl (.nil _)
  · refine ⟨_, [], _, ⟨(yields_get w).bind (hbuffer.1.bind (yields_pure (-1) _)), hbuffer.2⟩, ?_⟩
    rw [textsPlan_of_none hplan]
    exact .refused (-1) [] (by decide) rfl (.nil _)
  · obtain ⟨r, log, u, hsend, hends⟩ := @runs_sendTexts env t { w with prepareBuffer := b' } b
      hsize' (agreeOn_some.mp (hagree _ rfl))
    refine ⟨r, log, u, ⟨(yields_get w).bind (hbuffer.1.bind hsend.1), hbuffer.2.trans hsend.2⟩, ?_⟩
    rw [textsPlan_of_some hplan]
    exact hends

theorem runs_signature {α : Type} {x : OnSignature α} {w : SqlWorld} {r : Except Fault α}
    {s : Signature} (h : Yields x w.helper.toSignature r s) :
    Runs (signature x) w r [] { w with helper := { w.helper with toSignature := s } } := by
  refine ⟨Yields.zoom ?_, (List.append_nil w.log).symm, id⟩
  exact h

theorem runs_bindValues (env : CallEnv) (pack : SqlPack) {w : SqlWorld}
    (hsize : w.prepareBuffer.length = prepareBufferSize)
    (hproc : w.helper.strProc = cString pack.sentence) :
    ∃ r log u, Runs (signature (bindValues (pack.anyArr.map env.anyArr) pack.paramNums.toNat) >>=
        fun _ => execute env) w r log u ∧
      ExecuteEnds (bindPlan env pack w.helper.toSignature) env.replies env.noReturn w.handle
        w.log.length r log u.handle := by
  obtain ⟨r, s, hbind⟩ := exists_yields
    (bindValues (pack.anyArr.map env.anyArr) pack.paramNums.toNat) w.helper.toSignature
  have hsignature := runs_signature hbind
  cases r with
  | error fault =>
    have hplan : bindPlan env pack w.helper.toSignature = ⟨[], .error fault⟩ := by
      simp only [Yields] at hbind
      rw [bindPlan, hbind]
    rw [hplan]
    exact ⟨_, [], _, hsignature.bind_error, .fault fault [] rfl (.nil _)⟩
  | ok _ =>
    obtain ⟨r, log, u, hexecute, hends⟩ := @runs_execute env
      { w with helper := { w.helper with toSignature := s } } hsize
    have hplan : bindPlan env pack w.helper.toSignature = textsPlan env w.helper.strProc s := by
      simp only [Yields] at hbind
      rw [bindPlan, hbind, hproc]
    rw [hplan]
    exact ⟨r, log, u, hsignature.bind hexecute, hends⟩

/-! ## The whole call -/

/-- What `ExecuteProcedure` does after `Execute`: nothing after a fault, and else it releases the
result set of the helper, after the callback if `Execute` has returned 0. -/
def Finishes (res : Option ResId) : Except Fault Int32 → List SqlEvent → Prop
  | .error _, log => log = []
  | .ok code, log => ∃ reads, Reads res reads ∧ (code ≠ 0 → reads = []) ∧ log = reads ++ frees res

/-- After `Execute` the result set of the helper is read and released, or not. -/
theorem Finishes.reads {res : Option ResId} {code : Except Fault Int32} {log : List SqlEvent}
    (h : Finishes res code log) :
    ∃ reads tail, log = reads ++ tail ∧ Reads res reads ∧ (tail = [] ∨ tail = frees res) := by
  cases code with
  | error fault => exact ⟨[], [], h, .nil _, .inl rfl⟩
  | ok code =>
    obtain ⟨reads, hreads, -, rfl⟩ := h
    exact ⟨reads, _, rfl, hreads, .inr rfl⟩

/-- `x` is `Execute`, or a part of it. -/
theorem Runs.finish {x : OnWorld Int32} {w t : SqlWorld} {r : Except Fault Int32}
    {log : List SqlEvent} (h : Runs x w r log t) (env : CallEnv) :
    ∃ log' u, Runs (x >>= finishProcedure env) w (r.map (· == 0)) (log ++ log') u ∧
      Finishes t.handle r log' ∧ u.handle = t.handle ∧
      ((r.map (· == 0)).isOk → u.helper.toSignature = .zero) := by
  cases r with
  | error fault =>
    refine ⟨[], t, ?_, rfl, rfl, fun hok => by cases hok⟩
    rw [List.append_nil]
    exact h.bind_error
  | ok code =>
    by_cases hcode : code = 0
    · obtain ⟨_, reads, v, hcall, hreads, hv⟩ := runs_of_returns (moves_sqlCallback env)
        (returns_sqlCallback env) t
      obtain ⟨u, hclear, hu, hzero⟩ := runs_clear v
      rw [hv] at hclear hu
      have hfinish : Runs (finishProcedure env code) t (.ok true)
          (reads ++ (frees t.handle ++ [])) u := by
        rw [finishProcedure, if_neg (not_not_intro hcode)]
        exact hcall.bind (hclear.bind (runs_pure true u))
      rw [List.append_nil] at hfinish
      subst hcode
      exact ⟨_, u, h.bind hfinish, ⟨reads, hreads, fun h => absurd rfl h, rfl⟩, hu, fun _ => hzero⟩
    · obtain ⟨u, hclear, hu, hzero⟩ := runs_clear t
      have hfinish : Runs (finishProcedure env code) t (.ok false) (frees t.handle ++ []) u := by
        rw [finishProcedure, if_pos hcode]
        exact hclear.bind (runs_pure false u)
      rw [List.append_nil] at hfinish
      have hfalse : (code == 0) = false := by simpa using hcode
      refine ⟨_, u, ?_, ⟨[], .nil _, fun _ => rfl, rfl⟩, hu, fun _ => hzero⟩
      simpa [Except.map, hfalse] using h.bind hfinish

/-- `ExecuteProcedure` without its end. -/
def prepareExecute (paramList : List Byte → List Byte) (env : CallEnv) (pack : SqlPack) :
    OnWorld Int32 := do
  let code ← prepare paramList pack.sentence env.replies.paramList
  if code ≠ 0 then pure code
  else
    signature (bindValues (pack.anyArr.map env.anyArr) pack.paramNums.toNat)
    execute env

theorem executeProcedure_eq (paramList : List Byte → List Byte) (env : CallEnv) (pack : SqlPack) :
    executeProcedure paramList env pack =
      prepareExecute paramList env pack >>= finishProcedure env := by
  rw [executeProcedure, prepareExecute, bind_assoc]
  congr 1
  funext code
  by_cases hcode : code = 0
  · simp [hcode, bind_assoc]
  · simp [hcode, finishProcedure]

/-- After `Prepare` the call follows the plan for its reply. -/
theorem runs_prepared {paramList : List Byte → List Byte} {env : CallEnv} {pack : SqlPack}
    {w : SqlWorld} {args : List Byte} {s : Signature} {first : List SqlEvent}
    {r : Except Fault Int32} (hready : w.Ready)
    (hprepare : Runs (prepare paramList pack.sentence env.replies.paramList) w r first
      (w.afterPrepare pack.sentence args s first))
    (hfollows : Follows (prepared env.replies.paramList) r s) :
    ∃ r log u, Runs (prepareExecute paramList env pack) w r (first ++ log) u ∧
      ExecuteEnds (preparedPlan env pack) env.replies env.noReturn w.handle
        (w.log.length + first.length) r log u.handle := by
  obtain ⟨rfl, hsignature⟩ := hfollows
  cases hprepared : prepared env.replies.paramList with
  | error fault =>
    rw [hprepared] at hprepare
    have hplan : preparedPlan env pack = ⟨[], .error fault⟩ := by rw [preparedPlan, hprepared]
    refine ⟨.error fault, [], w.afterPrepare pack.sentence args s first, ?_, ?_⟩
    · rw [List.append_nil]
      exact hprepare.bind_error
    · rw [hplan]
      exact .fault fault [] rfl (.nil _)
  | ok result =>
    obtain ⟨code, s'⟩ := result
    rw [hprepared] at hprepare
    obtain rfl := hsignature code s' hprepared
    by_cases hcode : code = 0
    · have hplan : preparedPlan env pack = bindPlan env pack s := by
        simp [preparedPlan, hprepared, hcode]
      obtain ⟨r, log, u, hbind, hends⟩ := @runs_bindValues env pack
        (w.afterPrepare pack.sentence args s first) hready.size rfl
      have hlength : (w.log ++ first).length = w.log.length + first.length := List.length_append
      refine ⟨r, log, u, hprepare.bind (by simpa [hcode] using hbind), ?_⟩
      rw [hplan, ← hlength]
      exact hends
    · have hplan : preparedPlan env pack = ⟨[], .ok none⟩ := by
        simp [preparedPlan, hprepared, hcode]
      refine ⟨.ok code, [], w.afterPrepare pack.sentence args s first,
        hprepare.bind (by simpa [hcode] using runs_pure code _), ?_⟩
      rw [hplan]
      exact .refused code [] hcode rfl (.nil _)

/-- `Prepare` and `Execute` follow the plan of the call. -/
theorem runs_prepareExecute (paramList : List Byte → List Byte) (env : CallEnv) (pack : SqlPack)
    {w : SqlWorld} (hready : w.Ready) :
    ∃ r log u, Runs (prepareExecute paramList env pack) w r log u ∧
      ExecuteEnds (callPlan paramList env pack) env.replies env.noReturn w.handle w.log.length r
        log u.handle := by
  by_cases hfits : (paramList (cString pack.sentence)).length < 1024
  · obtain ⟨args, s, first, r, hseg, hprepare, hfollows⟩ :=
      @yields_prepare paramList pack.sentence env.replies.paramList w hready.zero hfits
    obtain ⟨r, log, u, hrun, hends⟩ := runs_prepared hready ⟨hprepare, rfl, id⟩ hfollows
    refine ⟨r, _, u, hrun, ?_⟩
    rw [callPlan, if_pos hfits]
    exact hends.prepend hseg
  · have hrun : Runs (prepare paramList pack.sentence env.replies.paramList) w
        (.error .bufferOverrun) [] _ :=
      ⟨yields_prepare_of_not_fits w _ _ hfits, (List.append_nil w.log).symm, id⟩
    refine ⟨_, [], _, hrun.bind_error, ?_⟩
    rw [callPlan, if_neg hfits]
    exact .fault _ [] rfl (.nil _)

/-- The ways in which `ExecuteProcedure` can end. -/
def ProcedureEnds (plan : CallPlan) (replies : CallReplies) (noReturn : Int32) (res : Option ResId)
    (n : ℕ) (r : Except Fault Bool) (log : List SqlEvent) (res' : Option ResId) : Prop :=
  ∃ code first last, ExecuteEnds plan replies noReturn res n code first res' ∧
    Finishes res' code last ∧ r = code.map (· == 0) ∧ log = first ++ last

/-- **How `ExecuteProcedure` ends.** -/
theorem executeProcedure_cases {paramList : List Byte → List Byte} {env : CallEnv} {pack : SqlPack}
    {w t : SqlWorld} {r : Except Fault Bool} (hready : w.Ready)
    (h : Yields (executeProcedure paramList env pack) w r t) :
    ∃ log, t.log = w.log ++ log ∧ (r.isOk → t.Ready) ∧
      ProcedureEnds (callPlan paramList env pack) env.replies env.noReturn w.handle w.log.length r
        log t.handle := by
  obtain ⟨code, first, u, hrun, hends⟩ := runs_prepareExecute paramList env pack hready
  obtain ⟨last, v, hfinish, hlast, hv, hzero⟩ := hrun.finish env
  rw [executeProcedure_eq] at h
  obtain ⟨rfl, rfl⟩ := h.unique hfinish.1
  rw [← hv] at hends hlast
  exact ⟨_, hfinish.2.log, fun hok => ⟨hzero hok, hfinish.2.size hready.size⟩,
    code, first, last, hends, hlast, rfl, rfl⟩

end PetsServer

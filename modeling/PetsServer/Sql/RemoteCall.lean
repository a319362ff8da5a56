import PetsServer.Sql.Arguments
import PetsServer.Sql.Receiving

/-!
# Remote procedure calls

`Prepare`, the binding of the values and `Execute` together call a procedure of a database, whatever
server it is that executes the statements: the procedure is called once, with the values that are
bound, and what it passes out is stored in the parameters.
-/

namespace PetsServer

open Foundations OnWorld

/-! ## The signature between the stages -/

/-- From `w` to `t` the signature stays as it is. -/
def SqlWorld.Keeps (w t : SqlWorld) : Prop := t.helper.toSignature = w.helper.toSignature

instance : Std.Refl SqlWorld.Keeps := ⟨fun _ => rfl⟩

instance : IsTrans SqlWorld SqlWorld.Keeps := ⟨fun _ _ _ h h' => h'.trans h⟩

section Keeps

variable {α : Type}

theorem keeps_mysql (x : Mysql α) : Moves SqlWorld.Keeps (mysql x) :=
  moves_zoom (fun _ _ _ => Std.Refl.refl (r := SqlWorld.Keeps) _)
    (fun _ _ _ _ => trivial : Moves (fun _ _ => True) x)

theorem keeps_buffer (x : OnBuffer α) : Moves SqlWorld.Keeps (buffer x) :=
  moves_zoom (fun _ _ _ => Std.Refl.refl (r := SqlWorld.Keeps) _)
    (fun _ _ _ _ => trivial : Moves (fun _ _ => True) x)

/-- The result of a statement is written to the helper. -/
theorem keeps_modifyHelper (qr : QueryResult) :
    Moves SqlWorld.Keeps (modifyHelper fun h => { h with toQueryResult := qr }) := by
  intro w r t hx
  obtain ⟨-, rfl⟩ := hx.unique (yields_modify _ w)
  exact rfl

theorem keeps_executeSQLThis (sql : List Byte) (reply : SqlReply) (sets : ℕ) :
    Moves SqlWorld.Keeps (executeSQLThis sql reply sets) :=
  moves_bind moves_get fun _ => moves_bind (keeps_mysql _) fun _ =>
    moves_bind (keeps_modifyHelper _) fun _ => moves_pure _

theorem keeps_fetchThis : Moves SqlWorld.Keeps fetchThis :=
  moves_bind moves_get fun _ => moves_bind (keeps_mysql _) fun _ =>
    moves_bind (keeps_modifyHelper _) fun _ => moves_pure _

theorem keeps_logRows (n : ℕ) : Moves SqlWorld.Keeps (logRows n) := by
  induction n with
  | zero => exact moves_pure _
  | succ n ih =>
    refine moves_bind keeps_fetchThis fun result => moves_bind moves_get fun w => ?_
    split
    · exact ih
    · exact moves_pure _

theorem keeps_logCall : Moves SqlWorld.Keeps logCall :=
  moves_bind moves_get fun _ => moves_bind (keeps_logRows _) fun _ =>
    moves_bind moves_get fun _ => keeps_mysql _

theorem keeps_sendSet (env : CallEnv) (idx : ℕ) : Moves SqlWorld.Keeps (sendSet env idx) := by
  unfold sendSet
  split
  · split
    · exact moves_pure _
    · exact moves_bind (keeps_buffer _) fun _ => moves_bind moves_get fun _ =>
        moves_bind (keeps_mysql _) fun _ => moves_pure _
  · exact moves_pure _

end Keeps

/-! ## The stages when the call is served -/

/-- The program, started in `w`, ends in `t` with the result `r`; it sends `sqls`. -/
def Sends {α : Type} (x : OnWorld α) (w : SqlWorld) (r : Except Fault α) (sqls : List (List Byte))
    (t : SqlWorld) : Prop :=
  ∃ log, Runs x w r log t ∧ queries log = sqls

section Sends

variable {α β : Type} {x : OnWorld α} {f : α → OnWorld β} {w t u : SqlWorld}
  {sqls sqls' : List (List Byte)}

theorem Runs.sends {r : Except Fault α} {log : List SqlEvent} (h : Runs x w r log t) :
    Sends x w r (queries log) t := ⟨log, h, rfl⟩

theorem Sends.bind {a : α} {r : Except Fault β} (hx : Sends x w (.ok a) sqls t)
    (hf : Sends (f a) t r sqls' u) : Sends (x >>= f) w r (sqls ++ sqls') u := by
  obtain ⟨log, hx, rfl⟩ := hx
  obtain ⟨log', hf, rfl⟩ := hf
  exact ⟨log ++ log', hx.bind hf, queries_append log log'⟩

end Sends

variable {env : CallEnv} {w : SqlWorld} {params : List SqlParam} {values : List SqlValue}

/-- The `SET` is sent, if there is anything to assign. -/
theorem sends_sendSet (hsize : w.prepareBuffer.length = prepareBufferSize)
    (hfit : (setText params).length ≤ setLimit)
    (hpre : setTextFrom [] 0 params <+: w.prepareBuffer)
    (hset : assignments params ≠ [] → env.replies.set.code = 0) :
    ∃ t, Sends (sendSet env (setTextFrom [] 0 params).length) w (.ok 0)
      (if assignments params = [] then [] else [setText params]) t ∧ w.Keeps t := by
  rw [setTextFrom_eq] at *
  by_cases hassigned : assignments params = []
  · rw [if_pos hassigned, if_pos hassigned]
    exact ⟨w, (runs_pure 0 w).sends, rfl⟩
  · rw [if_neg hassigned] at hpre ⊢
    rw [if_neg hassigned]
    obtain ⟨log, t, hrun, -, hseg⟩ := @runs_sendSet env _ w hsize (setText_length_ne_zero params)
      (Nat.not_lt.mpr hfit)
    have hsent : cString (w.prepareBuffer.take (setText params).length) = setText params := by
      rw [← List.prefix_iff_eq_take.mp hpre, cString_setText]
    rw [hset hassigned] at hrun
    rw [hsent] at hseg
    exact ⟨t, ⟨log, hrun, hseg.queries⟩, keeps_sendSet env _ _ _ _ hrun.1⟩

/-- The `CALL` is sent, and its result is logged. -/
theorem sends_call (strCall : List Byte) (hcall : env.replies.call.code = 0)
    (w : SqlWorld) : ∃ t u,
      Sends (executeSQLThis strCall env.replies.call.toSqlReply env.replies.call.sets) w (.ok 0)
        [cString strCall] t ∧
      Sends logCall t (.ok ⟨⟩) [] u ∧ w.Keeps u := by
  obtain ⟨t, hstmt, -⟩ := @runs_executeSQLThis_of_eq strCall env.replies.call.toSqlReply
    env.replies.call.sets w hcall
  obtain ⟨reads, u, hreads, hlog, -⟩ := runs_logCall t
  refine ⟨t, u, hstmt.sends, ⟨_, hlog, queries_of_quiet (quiet_callEvents hreads)⟩, ?_⟩
  exact (keeps_logCall _ _ _ hlog.1).trans (keeps_executeSQLThis _ _ _ _ _ _ hstmt.1)

/-- The fetch of the row. -/
theorem yields_fetchThis_row {reply : SqlReply} {qr : QueryResult} {n : ℕ} (hne : values ≠ [])
    (hreply : reply = rowReply values)
    (hqr : w.helper.toQueryResult = qr.store (reply.stored n) reply.affectedRows) :
    ∃ t, Yields fetchThis w (.ok 0) t ∧ t.helper.rows = some (outputRow values) := by
  rcases yields_fetchThis_store hqr with ⟨set, row, hset, -, hhead, t, hfetch, hrows⟩ | ⟨hnone, -⟩
  · rw [hreply] at hset
    obtain rfl := Option.some.inj hset
    obtain rfl := Option.some.inj hhead
    exact ⟨t, hfetch, hrows⟩
  · rw [hreply] at hnone
    refine absurd ⟨_, rfl, ?_, List.cons_ne_nil _ _⟩ hnone
    simpa [List.length_eq_zero_iff] using hne

/-- **The outputs are read**, when each of them can be stored. -/
theorem sends_selectOutputs {sql : List Byte} (hne : values ≠ [])
    (hselect : env.replies.select = rowReply values)
    (hstores : ∀ i < w.helper.outCount + w.helper.inoutCount,
      w.helper.toSignature.outputFault (outputRow values) i = none) :
    ∃ t, Sends (selectOutputs env sql) w (.ok env.noReturn) [cString sql] t ∧
      t.helper.toSignature = w.helper.toSignature.stored (outputRow values) := by
  obtain ⟨u, hstmt, -, hqr⟩ := @runs_executeSQLThis_of_eq sql env.replies.select 0 w
    (by rw [hselect]; rfl)
  have hkeeps : u.helper.toSignature = w.helper.toSignature :=
    keeps_executeSQLThis _ _ _ _ _ _ hstmt.1
  obtain ⟨v, hfetch, hrows⟩ := yields_fetchThis_row hne hselect hqr
  have hsame : v.helper.toSignature = w.helper.toSignature :=
    (keeps_fetchThis _ _ _ hfetch).trans hkeeps
  have hone : u.helper.toQueryResult.getAffectedRows = 1 := by
    rw [hqr, QueryResult.getAffectedRows, QueryResult.store_nrow, hselect]
    rfl
  have hstored : Yields (readOutputs (outputRow values)) v.helper.toSignature (.ok ⟨⟩)
      (v.helper.toSignature.stored (outputRow values)) := by
    rw [hsame]
    rcases readOutputs_cases w.helper.toSignature (outputRow values) with ⟨-, hread⟩ |
      ⟨i, hi, fault, t, hfault, -⟩
    · exact hread
    · rw [hstores i hi] at hfault
      cases hfault
  -- after the fetch the columns are stored and the block is emptied
  obtain ⟨t, hread, ht⟩ : ∃ t, Yields (readSelect env) u (.ok env.noReturn) t ∧
      t.helper.toSignature = v.helper.toSignature.stored (outputRow values) := by
    refine ⟨{ v with
      helper := { v.helper with toSignature := v.helper.toSignature.stored (outputRow values) }
      prepareBuffer := List.replicate prepareBufferSize 0 }, ?_, rfl⟩
    have hsignature : Yields (signature (readOutputs (outputRow values))) v (.ok ⟨⟩)
        { v with helper := { v.helper with
            toSignature := v.helper.toSignature.stored (outputRow values) } } := Yields.zoom hstored
    refine (yields_get u).bind ?_
    rw [if_neg (not_not_intro hone)]
    refine hfetch.bind ((yields_get v).bind ?_)
    rw [hrows]
    exact hsignature.bind ((yields_modify _ _).bind (yields_pure _ _))
  obtain ⟨log, hgrows, hreads, -⟩ := moves_readSelect env _ _ _ hread
  have hsends : Sends (readSelect env) u (.ok env.noReturn) [] t :=
    ⟨log, ⟨hread, hgrows⟩, queries_of_quiet fun _ => hreads.quiet⟩
  rw [hsame] at ht
  exact ⟨t, hstmt.sends.bind hsends, ht⟩

/-- What `Execute` returns: its end is reached without a `return` if there are outputs. -/
def executeCode (env : CallEnv) (params : List SqlParam) : Int32 :=
  if outputs params = [] then 0 else env.noReturn

/-- `Execute` after its loop. -/
theorem sends_sendTexts {strProc : List Byte}
    (hsize : w.prepareBuffer.length = prepareBufferSize)
    (hpre : setTextFrom [] 0 params <+: w.prepareBuffer) (hproc : 0 ∉ strProc)
    (hsendable : ∀ param ∈ params, param.Sendable) (hfit : (setText params).length ≤ setLimit)
    (hserve : env.replies.Serve params values) (hvalues : values = [] ↔ outputs params = [])
    (hcount : outputs params = [] → w.helper.outCount + w.helper.inoutCount = 0)
    (hstores : ∀ i < w.helper.outCount + w.helper.inoutCount,
      w.helper.toSignature.outputFault (outputRow values) i = none) :
    ∃ t, Sends (sendTexts env ⟨(setTextFrom [] 0 params).length, callText strProc params,
        selectTextFrom [] 0 params⟩) w (.ok (executeCode env params)) (callTexts strProc params) t ∧
      t.helper.toSignature = w.helper.toSignature.stored (outputRow values) := by
  obtain ⟨u, hset, hu⟩ := sends_sendSet hsize hfit hpre hserve.set
  obtain ⟨v, x, hcall, hlog, hx⟩ := sends_call (callText strProc params) hserve.call u
  have hkeeps : x.helper.toSignature = w.helper.toSignature := hx.trans hu
  rw [cString_callText hproc hsendable] at hcall
  -- the rest of `Execute` goes on from `x`
  have hrest {code : Int32} {sqls : List (List Byte)} {t : SqlWorld}
      (h : Sends (if (selectTextFrom [] 0 params).isEmpty then pure 0
        else selectOutputs env (selectTextFrom [] 0 params)) x (.ok code) sqls t) :
      Sends (sendTexts env ⟨(setTextFrom [] 0 params).length, callText strProc params,
          selectTextFrom [] 0 params⟩) w (.ok code)
        ((if assignments params = [] then [] else [setText params]) ++
          ([callText strProc params] ++ ([] ++ sqls))) t :=
    hset.bind (f := fun result => if result ≠ 0 then pure result else callProcedure env _)
      (hcall.bind (f := fun result => if result ≠ 0 then pure result else readCall env _)
        (hlog.bind h))
  unfold executeCode callTexts
  by_cases houtputs : outputs params = []
  · rw [if_pos houtputs, if_pos houtputs]
    have hselect : selectTextFrom [] 0 params = [] := by rw [selectTextFrom_eq, if_pos houtputs]
    have hsame : w.helper.toSignature.stored (outputRow values) = w.helper.toSignature := by
      rw [Signature.stored, hcount houtputs, Signature.storeFirst_zero]
    rw [hselect] at hrest ⊢
    rw [hsame]
    exact ⟨x, hrest (runs_pure 0 x).sends, hkeeps⟩
  · rw [if_neg houtputs, if_neg houtputs]
    have hselect : selectTextFrom [] 0 params = selectText params := by
      rw [selectTextFrom_eq, if_neg houtputs]
    obtain ⟨t, hsends, ht⟩ := @sends_selectOutputs env x values (selectText params)
      (hvalues.not.mpr houtputs) (hserve.select houtputs) (by rwa [hkeeps])
    rw [cString_selectText] at hsends
    rw [hselect] at hrest ⊢
    rw [hkeeps] at ht
    refine ⟨t, hrest ?_, ht⟩
    rw [if_neg (by simpa using selectText_ne_nil params)]
    exact hsends

/-! ## The whole call -/

theorem Signature.Complete.bind {s : Signature} (h : s.Complete) (values : List AnyValue) :
    (s.bind values).Complete := by
  have hcount (direction : Direction) :
      (s.bind values).declared.countP (·.direction = direction) =
        s.declared.countP (·.direction = direction) := by
    have hmap := map_bindParams s.declared values (f := SqlParam.direction) fun _ _ => rfl
    have := congrArg (List.countP (· = direction)) hmap
    rw [List.countP_map, List.countP_map] at this
    rw [s.declared_bind]
    exact this
  refine ⟨h.total, ?_, ?_, ?_, ?_⟩
  · rw [hcount]
    exact h.inCount
  · rw [hcount]
    exact h.outCount
  · rw [hcount]
    exact h.inoutCount
  · rw [s.declared_bind]
    exact known_bindParams h.types values

theorem SourceDecl.known (d : SourceDecl) : d.param.type.Known := by
  unfold SourceDecl.param
  cases d.typeName <;> trivial

theorem Signature.Holds.complete {s : Signature} {ds : List SourceDecl} (h : s.Holds ds) :
    s.Complete := by
  have hcounts := countP_directions (ds.map SourceDecl.param)
  simp only [List.countP_map, List.length_map, Function.comp_def] at hcounts
  refine ⟨?_, ?_, ?_, ?_, ?_⟩
  · rw [h.totalCount, h.inCount, h.outCount, h.inoutCount]
    exact hcounts.symm
  · rw [h.declared, List.countP_map]
    exact h.inCount
  · rw [h.declared, List.countP_map]
    exact h.outCount
  · rw [h.declared, List.countP_map]
    exact h.inoutCount
  · rw [h.declared]
    exact List.forall_mem_map.mpr fun d _ => d.known

/-- `Execute`, when the call is served. -/
theorem sends_execute {received : List SqlParam}
    (hsize : w.prepareBuffer.length = prepareBufferSize) (hproc : 0 ∉ w.helper.strProc)
    (hcomplete : w.helper.Complete) (hsendable : ∀ param ∈ w.helper.declared, param.Sendable)
    (hfit : (setText w.helper.declared).length ≤ setLimit)
    (horder : DocumentedOrder w.helper.declared)
    (hserve : env.replies.Serve w.helper.declared values)
    (hreceive : receive w.helper.declared values = some received) :
    ∃ t, Sends (execute env) w (.ok (executeCode env w.helper.declared))
        (callTexts w.helper.strProc w.helper.declared) t ∧ t.helper.declared = received := by
  obtain ⟨b, hbuild, hlength, hpre⟩ := @exists_buildTexts w.helper.declared env.garbage
    w.helper.strProc _ hsendable (length_setTextFrom_le hfit) hsize
  have hbuffer : Runs (buffer (buildTexts env.garbage w.helper.strProc w.helper.declared)) w _ []
      { w with prepareBuffer := b } :=
    ⟨hbuild.zoom, (List.append_nil w.log).symm, fun _ => hlength⟩
  have hcount := (receives_of_receive hreceive).count
  have hvalues : values = [] ↔ outputs w.helper.declared = [] := by
    rw [← List.length_eq_zero_iff, hcount, List.length_eq_zero_iff]
  have houtputs := hcomplete.length_outputs
  obtain ⟨t, hsends, ht⟩ := @sends_sendTexts env { w with prepareBuffer := b } w.helper.declared
    values w.helper.strProc hlength hpre hproc hsendable hfit hserve hvalues
    (fun hnil => by rw [← houtputs, hnil]; rfl) (outputFault_eq_none hcomplete horder hreceive)
  refine ⟨t, ?_, ?_⟩
  · obtain ⟨log, hrun, hlog⟩ := hsends
    exact ⟨log, ⟨(yields_get w).bind (hbuffer.1.bind hrun.1), hbuffer.2.trans hrun.2⟩, hlog⟩
  · rw [ht]
    exact declared_stored hcomplete horder hreceive

/-- The parameters of a call, with the values that are bound. -/
def boundParams (ds : List SourceDecl) (env : CallEnv) (pack : SqlPack) : List SqlParam :=
  bindParams (ds.map SourceDecl.param) (boundValues env pack)

/-- A task invokes the procedure `p`, which is declared by `ds`: there are at most ten parameters
and enough values, the values can be sent, the outputs are declared in the documented order, and
the caller can receive them. -/
structure SqlPack.Invokes (pack : SqlPack) (env : CallEnv) (ds : List SourceDecl)
    (p : SqlProcedure) (received : List SqlParam) : Prop where
  name : p.name = cString pack.sentence
  count : ds.length ≤ maxParamCount
  bound : pack.paramNums.toNat ≤ maxParamCount ∧
    pack.paramNums.toNat ≤ ((pack.anyArr.map env.anyArr).getD []).length
  sendable : ∀ param ∈ boundParams ds env pack, param.Sendable
  fits : (setText (boundParams ds env pack)).length ≤ setLimit
  order : DocumentedOrder (boundParams ds env pack)
  passesOut : p.passesOut = outs (boundParams ds env pack)
  receives : receive (boundParams ds env pack) (p.body (passedValues (boundParams ds env pack))) =
    some received

section RemoteCall

variable {paramList : List Byte → List Byte} {pack : SqlPack} {text : List Byte}
  {ds : List SourceDecl} {p : SqlProcedure} {received : List SqlParam}

/-- `Prepare`, and the values are bound. -/
theorem sends_prepare_bind (hready : w.Ready)
    (hgives : GivesText paramList pack.sentence env.replies.paramList text)
    (htext : Spaced isSpace (sourceParts ds) text) (hcount : ds.length ≤ maxParamCount)
    (hbound : pack.paramNums.toNat ≤ maxParamCount ∧
      pack.paramNums.toNat ≤ ((pack.anyArr.map env.anyArr).getD []).length) :
    ∃ t u, Sends (prepare paramList pack.sentence env.replies.paramList) w (.ok 0)
        [cString (paramList (cString pack.sentence))] t ∧
      Sends (signature (bindValues (pack.anyArr.map env.anyArr) pack.paramNums.toNat)) t (.ok ⟨⟩)
        [] u ∧
      u.prepareBuffer.length = prepareBufferSize ∧ u.helper.strProc = cString pack.sentence ∧
      u.helper.Complete ∧ u.helper.declared = boundParams ds env pack := by
  obtain ⟨t, hprepare, hholds⟩ := prepare_source hready.zero hgives htext hcount
  obtain ⟨args, s, log, r, hseg, hrun, -⟩ :=
    @yields_prepare paramList pack.sentence env.replies.paramList w hready.zero hgives.fits
  obtain ⟨rfl, rfl⟩ := hprepare.unique hrun
  rcases bindValues_cases (pack.anyArr.map env.anyArr) pack.paramNums.toNat s with
    ⟨-, -, hbind⟩ | ⟨fault, s', -, hnot, -⟩
  swap
  · exact absurd hbound hnot
  refine ⟨_, _, ⟨log, ⟨hprepare, rfl, id⟩, hseg.queries⟩, (runs_signature hbind).sends, hready.size,
    rfl, hholds.complete.bind _, ?_⟩
  exact (s.declared_bind _).trans (congrArg (bindParams · _) hholds.declared)

/-- `ExecuteProcedure` without its end. -/
theorem sends_prepareExecute (hready : w.Ready)
    (hgives : GivesText paramList pack.sentence env.replies.paramList text)
    (htext : Spaced isSpace (sourceParts ds) text) (hinvokes : pack.Invokes env ds p received)
    (hserve : env.replies.Serve (boundParams ds env pack)
      (p.body (passedValues (boundParams ds env pack)))) :
    ∃ t, Sends (prepareExecute paramList env pack) w
        (.ok (executeCode env (boundParams ds env pack)))
        (cString (paramList (cString pack.sentence)) ::
          callTexts (cString pack.sentence) (boundParams ds env pack)) t ∧
      t.helper.declared = received := by
  obtain ⟨u, v, hprepare, hbind, hsize, hproc, hcomplete, hdeclared⟩ :=
    sends_prepare_bind hready hgives htext hinvokes.count hinvokes.bound
  obtain ⟨t, hexecute, ht⟩ := @sends_execute env v _ received hsize
    (hproc ▸ zero_notMem_cString _) hcomplete (hdeclared ▸ hinvokes.sendable)
    (hdeclared ▸ hinvokes.fits) (hdeclared ▸ hinvokes.order) (hdeclared ▸ hserve)
    (hdeclared ▸ hinvokes.receives)
  rw [hproc, hdeclared] at hexecute
  refine ⟨t, ?_, ht⟩
  exact hprepare.bind (f := fun code => if code ≠ 0 then pure code else
    signature (bindValues (pack.anyArr.map env.anyArr) pack.paramNums.toNat) >>= fun _ =>
      execute env) (hbind.bind hexecute)

/-- **Remote procedure calls.** A server that executes the texts of the call has called the
procedure once more, with the values that are bound, and the parameters hold what it passes out. -/
theorem remote_procedure_call {σ : Type} {S : SqlServer σ} {view : σ → Database} {s : σ}
    (hready : w.Ready) (hgives : GivesText paramList pack.sentence env.replies.paramList text)
    (htext : Spaced isSpace (sourceParts ds) text) (hinvokes : pack.Invokes env ds p received)
    (hexecutes : S.Executes view p (cString (paramList p.name))
      (callTexts p.name (boundParams ds env pack)))
    (hserved : Served S s env.replies (cString (paramList p.name))
      (callTexts p.name (boundParams ds env pack))) :
    ∃ t log, Yields (prepareExecute paramList env pack) w
        (.ok (executeCode env (boundParams ds env pack))) t ∧ t.log = w.log ++ log ∧
      queries log = cString (paramList p.name) :: callTexts p.name (boundParams ds env pack) ∧
      (view (perform S s (queries log)).1).calls =
        (view s).calls ++ [(p.name, passedValues (boundParams ds env pack))] ∧
      t.helper.declared = received := by
  have hserve := hserved.serve hexecutes hinvokes.passesOut hinvokes.sendable
  obtain ⟨t, ⟨log, hrun, hlog⟩, ht⟩ := sends_prepareExecute hready hgives htext hinvokes hserve
  obtain ⟨db, set, call, hdb, -, -, hcalls⟩ :=
    hexecutes.serve_callTexts hinvokes.passesOut hinvokes.sendable s
  rw [← hinvokes.name] at hlog
  refine ⟨t, log, hrun.1, hrun.2.log, hlog, ?_, ht⟩
  rw [hlog, hdb]
  exact hcalls

/-- `IN a Int, b VARCHAR(50), out n int` -/
def SourceDecl.three : List SourceDecl := SourceDecl.two ++
  [{ direction := some ⟨.vOut, ascii "out", by decide⟩
     name := ascii "n"
     typeName := .int
     typeText := ascii "int"
     length := none
     name_isPiece := ⟨⟨by decide, by simp [ascii, charByte, isSpace]⟩, by decide⟩
     name_free := nofun
     typeText_eq := by decide }]

theorem spaced_three :
    Spaced isSpace (sourceParts SourceDecl.three) (ascii "IN a Int, b VARCHAR(50), out n int") := by
  have hone : ∀ b ∈ ascii " ", isSpace b = true := by simp [ascii, charByte, isSpace]
  have hnil : ∀ b ∈ ([] : List Byte), isSpace b = true := fun b hb => by cases hb
  refine .cons [] (ascii "IN") hnil ?_ (fun b hb => by cases hb; rfl)
  refine .cons (ascii " ") (ascii "a") hone ?_ (fun b hb => by cases hb; rfl)
  refine .cons (ascii " ") (ascii "Int,") hone ?_ (fun b hb => by cases hb; rfl)
  refine .cons (ascii " ") (ascii "b") hone ?_ (fun b hb => by cases hb; rfl)
  refine .cons (ascii " ") (ascii "VARCHAR(50),") hone ?_ (fun b hb => by cases hb; rfl)
  refine .cons (ascii " ") (ascii "out") hone ?_ (fun b hb => by cases hb; rfl)
  refine .cons (ascii " ") (ascii "n") hone ?_ (fun b hb => by cases hb; rfl)
  exact .cons (ascii " ") (ascii "int") hone (.nil [] hnil) fun b hb => by cases hb

/-- The reply to a statement that has selected `row`. -/
def replyOf (row : List SqlValue) : Statement ℕ SqlValue → SqlReply
  | .set _ | .call _ => .done
  | .select _ => rowReply row

/-- A server with one procedure. What it cannot execute is answered by `other`. -/
def serverOf (p : SqlProcedure) (other : SqlReply) : SqlServer Database := fun db text =>
  ((readStatement p.name text).bind fun statement =>
    (p.exec db statement).map fun (db, row) => (db, replyOf row statement)).getD (db, other)

section ServerOf

variable {other : SqlReply} {db db' : Database} {row : List SqlValue} {sql : List Byte}

theorem answer_serverOf {statement : Statement ℕ SqlValue}
    (hread : readStatement p.name sql = some statement)
    (hexec : p.exec db statement = some (db', row)) :
    serverOf p other db sql = (db', replyOf row statement) := by
  simp only [serverOf, hread, Option.bind_some, hexec, Option.map_some, Option.getD_some]

theorem answer_serverOf_of_none (hread : readStatement p.name sql = none) :
    serverOf p other db sql = (db, other) := by
  simp only [serverOf, hread, Option.bind_none, Option.getD_none]

theorem executes_serverOf (hquestion : readStatement p.name sql = none)
    (texts : List (List Byte)) : (serverOf p other).Executes id p sql texts where
  question s := by rw [answer_serverOf_of_none hquestion]
  statement s text _ statement db row hread hexec := by
    rw [answer_serverOf hread (show p.exec s statement = _ from hexec)]
    cases statement <;> exact ⟨rfl, rfl⟩

/-- The server answers a call with outputs. -/
theorem served_serverOf {params : List SqlParam} {replies : CallReplies}
    (hquestion : readStatement p.name sql = none) (hp : p.passesOut = outs params)
    (hsendable : ∀ param ∈ params, param.Sendable) (hassigned : assignments params ≠ [])
    (houtputs : outputs params ≠ []) (hset : replies.set = .done)
    (hcall : replies.call.toSqlReply = .done)
    (hselect : replies.select = rowReply (p.body (passedValues params))) :
    Served (serverOf p replies.paramList) db replies sql (callTexts p.name params) := by
  obtain ⟨hset', hcall', hselect'⟩ := replyTo_texts replies p.name params
  have hnames : passedOut p.passesOut (actuals 0 params) = some (outputs params) := by
    rw [hp]
    exact passedOut_actuals 0 params
  have hvalues : passedIn (assign db.vars (setAssignments params)) p.passesOut
      (actuals 0 params) = passedValues params := by
    rw [hp]
    exact passedIn_actuals (assign_setAssignments hsendable db.vars)
  -- the three statements, one after another
  have hfirst : p.exec db (.set (setAssignments params)) =
      some ({ db with vars := assign db.vars (setAssignments params) }, []) := rfl
  obtain ⟨u, hsecond⟩ : ∃ u, p.exec { db with vars := assign db.vars (setAssignments params) }
      (.call (actuals 0 params)) = some (u, []) := by
    simp [StoredProcedure.exec, hnames]
  have hthird := exec_select_of_call hsecond hnames (nodup_outputs params)
  rw [hvalues] at hthird
  rw [Served, callTexts, if_neg hassigned, if_neg houtputs, List.singleton_append,
    perform_cons, answer_serverOf_of_none hquestion, perform_cons,
    answer_serverOf (readStatement_setText p.name hassigned) hfirst, perform_cons,
    answer_serverOf (readStatement_callText p.name hsendable) hsecond, perform_cons,
    answer_serverOf (readStatement_selectText p.name houtputs) hthird]
  simp [hset', hcall', hselect', hset, hcall, hselect, replyOf, perform]

end ServerOf

/-- The number and the length of the text are added. -/
def addsLength : SqlProcedure where
  name := ascii "f"
  passesOut := [false, false, true]
  body
    | [.number z, .bytes data] => [.number (z + data.length)]
    | _ => [.null]
  length_body _ := by split <;> rfl

/-- The signature of `f`. -/
def addsSignature : SqlReply := .value (ascii "IN a Int, b VARCHAR(50), out n int")

/-- Two calls of `f`: 7 and `ab` are passed to it, and 9 is passed out; 5 and `c`, and 6. -/
def addsCall (second : Bool) : CallEnv × SqlPack :=
  ({ CallEnv.noParameters .done with
      replies := ⟨addsSignature, .done, .done, rowReply [.number (if second then 6 else 9)]⟩
      anyArr := fun id => if id = 0 then [.int 7, .charPtr (some (ascii "ab"))]
        else [.int 5, .charPtr (some (ascii "c"))] },
    ⟨.procedure, ascii "f", some (if second then 1 else 0), 0, 2⟩)

/-- The parameters of `f`. -/
def addsParams (second : Bool) (n : AnyValue) : List SqlParam :=
  [⟨.vIn, .long, 0, .int (if second then 5 else 7)⟩,
    ⟨.vIn, .string, 50, .charPtr (some (if second then ascii "c" else ascii "ab"))⟩,
    ⟨.vOut, .long, 0, n⟩]

theorem boundParams_addsCall (second : Bool) :
    boundParams SourceDecl.three (addsCall second).1 (addsCall second).2 =
      addsParams second .empty := by
  cases second <;> decide

theorem invokes_addsCall (second : Bool) :
    (addsCall second).2.Invokes (addsCall second).1 SourceDecl.three addsLength
      (addsParams second (.int (if second then 6 else 9))) := by
  refine ⟨rfl, by decide, by cases second <;> decide, ?_, ?_, ?_, ?_, ?_⟩ <;>
    rw [boundParams_addsCall]
  · intro param hparam
    simp only [addsParams, List.mem_cons, List.not_mem_nil, or_false] at hparam
    rcases hparam with rfl | rfl | rfl
    · exact .supported (.int 0 _)
    · exact .string 50 _ rfl (by cases second <;> simp [Plain, cString, ascii, charByte])
    · exact .supported (.out .long 0 .empty)
  · cases second <;> decide
  · simp [addsParams, DocumentedOrder, ComesFirst]
  · rfl
  · cases second <;> rfl

theorem executes_addsCall (second : Bool) :
    (serverOf addsLength addsSignature).Executes id addsLength (ascii "f")
      (callTexts (ascii "f") (addsParams second .empty)) :=
  executes_serverOf (by decide) _

theorem served_addsCall (second : Bool) (db : Database) :
    Served (serverOf addsLength addsSignature) db (addsCall second).1.replies (ascii "f")
      (callTexts (ascii "f") (addsParams second .empty)) := by
  refine served_serverOf (p := addsLength) (by decide) rfl ?_ ?_ ?_ rfl rfl ?_
  · exact boundParams_addsCall second ▸ (invokes_addsCall second).sendable
  · cases second <;> decide
  · cases second <;> decide
  · cases second <;> rfl

theorem remote_procedure_call_two : ∃ t log,
    Yields (prepareExecute id (addsCall false).1 (addsCall false).2) .start (.ok 0) t ∧
      t.log = [] ++ log ∧
      queries log = [ascii "f", ascii "set @_2 = null", ascii "call f ( 7, 'ab', @_2 )",
        ascii "select @_2"] ∧
      (perform (serverOf addsLength addsSignature) ⟨fun _ => .null, []⟩ (queries log)).1.calls =
        [] ++ [(ascii "f", [.number 7, .bytes (ascii "ab")])] ∧
      t.helper.declared = [⟨.vIn, .long, 0, .int 7⟩,
        ⟨.vIn, .string, 50, .charPtr (some (ascii "ab"))⟩, ⟨.vOut, .long, 0, .int 9⟩] := by
  have hgives : GivesText id (addsCall false).2.sentence (addsCall false).1.replies.paramList _ :=
    givesText_value (by decide) _
  exact remote_procedure_call SqlWorld.ready_start hgives spaced_three (invokes_addsCall false)
    (executes_addsCall false) (served_addsCall false _)

end RemoteCall

end PetsServer

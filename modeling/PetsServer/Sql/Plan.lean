import PetsServer.Sql.Filling
import PetsServer.Sql.Procedure
import PetsServer.Sql.Statements

/-!
# The plan of a call

What a call of a stored procedure does before its `CALL` statement is a function of the task and of
the replies: `callPlan` is that function. It reads neither the static helper, which is empty between
the calls, nor what earlier calls left in `PrepareBuffer`. `yields_prepare` and `yields_sendSet`
say that the stages of the program follow the plan, and what they leave in the log.
-/

namespace PetsServer

open Foundations OnWorld

/-- The result of the state machine for the first row, and the signature it leaves. -/
def rowSignature : Row → Except Fault (Int32 × Signature)
  | some text :: _ =>
    match (parseParts .direction (streamParts ((cString text).map toLower))).run .zero with
    | .ok code s => .ok (code, s)
    | .error fault _ => .error fault
  | none :: _ => .error .nullPointer
  | [] => .error .outOfBounds

/-- The result of `Prepare` for a reply of the server, and the signature it leaves. -/
def prepared (reply : SqlReply) : Except Fault (Int32 × Signature) :=
  if reply.code ≠ 0 then .ok (-4, .zero)
  else if reply.affectedRows.toUInt32.toInt32 < 1 then .ok (-1, .zero)
  else
    match reply.result with
    | none => .ok (-2, .zero)
    | some set =>
      match set.rows with
      | [] => .ok (-2, .zero)
      | row :: _ => if set.numFields = 0 then .ok (-2, .zero) else rowSignature row

/-- The statements that are sent before the `CALL`, and the texts of the call: none when the call
returns before, and a fault when the program ends before. -/
structure CallPlan where
  sent : List (List Byte)
  texts : Except Fault (Option Texts)

/-- The plan from the texts on. -/
def setPlan (reply : SqlReply) (t : Texts) (buffer : List Byte) : CallPlan :=
  if t.prepareIdx = 0 then ⟨[], .ok (some t)⟩
  else if setLimit < t.prepareIdx then ⟨[], .ok none⟩
  else ⟨[cString (buffer.take t.prepareIdx)], .ok (if reply.code = 0 then some t else none)⟩

/-- The plan from the values on. -/
def textsPlan (env : CallEnv) (strProc : List Byte) (s : Signature) : CallPlan :=
  match (buildTexts env.garbage strProc s.declared).run
      (List.replicate prepareBufferSize 0) with
  | .ok (some t) buffer => setPlan env.replies.set t buffer
  | .ok none _ => ⟨[], .ok none⟩
  | .error fault _ => ⟨[], .error fault⟩

/-- The plan from the signature on. -/
def bindPlan (env : CallEnv) (pack : SqlPack) (s : Signature) : CallPlan :=
  match (bindValues (pack.anyArr.map env.anyArr) pack.paramNums.toNat).run s with
  | .ok _ s => textsPlan env (cString pack.sentence) s
  | .error fault _ => ⟨[], .error fault⟩

/-- The plan from the reply to the question for the signature on. -/
def preparedPlan (env : CallEnv) (pack : SqlPack) : CallPlan :=
  match prepared env.replies.paramList with
  | .ok (code, s) => if code ≠ 0 then ⟨[], .ok none⟩ else bindPlan env pack s
  | .error fault => ⟨[], .error fault⟩

/-- What a call does before its `CALL`. -/
def callPlan (paramList : List Byte → List Byte) (env : CallEnv) (pack : SqlPack) : CallPlan :=
  if (paramList (cString pack.sentence)).length < 1024 then
    { preparedPlan env pack with
      sent := cString (paramList (cString pack.sentence)) :: (preparedPlan env pack).sent }
  else ⟨[], .error .bufferOverrun⟩

section TextsPlan

variable {env : CallEnv} {strProc b : List Byte} {s : Signature}

theorem textsPlan_of_error {fault : Fault}
    (h : Yields (buildTexts env.garbage strProc s.declared) (List.replicate prepareBufferSize 0)
      (.error fault) b) : textsPlan env strProc s = ⟨[], .error fault⟩ := by
  simp only [Yields] at h
  rw [textsPlan, h]

theorem textsPlan_of_none
    (h : Yields (buildTexts env.garbage strProc s.declared) (List.replicate prepareBufferSize 0)
      (.ok none) b) : textsPlan env strProc s = ⟨[], .ok none⟩ := by
  simp only [Yields] at h
  rw [textsPlan, h]

theorem textsPlan_of_some {t : Texts}
    (h : Yields (buildTexts env.garbage strProc s.declared) (List.replicate prepareBufferSize 0)
      (.ok (some t)) b) : textsPlan env strProc s = setPlan env.replies.set t b := by
  simp only [Yields] at h
  rw [textsPlan, h]

end TextsPlan

/-! ## The parts of the world -/

@[simp] theorem run_modifyHelper (f : ProcedureHelper → ProcedureHelper) (w : SqlWorld) :
    (modifyHelper f).run w = .ok ⟨⟩ { w with helper := f w.helper } := rfl

/-! ## Prepare -/

variable {paramList : List Byte → List Byte} {procName : List Byte} {reply : SqlReply}
  {w : SqlWorld}

/-- The world after `Prepare`. -/
def SqlWorld.afterPrepare (w : SqlWorld) (procName args : List Byte) (s : Signature)
    (log : List SqlEvent) : SqlWorld :=
  { w with
    helper := { w.helper with strProc := cString procName, strArgs := args, toSignature := s }
    log := w.log ++ log }

/-- The result of a stage and the signature it leaves are those of the plan. -/
def Follows (plan : Except Fault (Int32 × Signature)) (r : Except Fault Int32) (s : Signature) :
    Prop :=
  r = plan.map Prod.fst ∧ ∀ code s', plan = .ok (code, s') → s = s'

/-- The first row is parsed as planned, in any world with an empty signature. -/
theorem yields_parseRow (row : Row) (strArgs : List Byte) :
    ∃ args s r, Follows (rowSignature row) r s ∧ ∀ w : SqlWorld,
      w.helper.toSignature = .zero → w.helper.strArgs = strArgs → Yields (parseRow (some row)) w r
        { w with helper := { w.helper with strArgs := args, toSignature := s } } := by
  match row with
  | [] =>
    refine ⟨strArgs, .zero, .error .outOfBounds, ⟨rfl, by simp [rowSignature]⟩, ?_⟩
    rintro w hzero rfl
    rw [← hzero]
    exact yields_throw _ _
  | none :: _ =>
    refine ⟨strArgs, .zero, .error .nullPointer, ⟨rfl, by simp [rowSignature]⟩, ?_⟩
    rintro w hzero rfl
    rw [← hzero]
    exact yields_throw _ _
  | some text :: _ =>
    refine ⟨(cString text).map toLower, ?_⟩
    cases h : (parseParts .direction (streamParts ((cString text).map toLower))).run .zero with
    | ok code s =>
      refine ⟨s, .ok code, by simp [Follows, rowSignature, h, Except.map], fun w hzero _ => ?_⟩
      simp [Yields, parseRow, signature, hzero, h]
    | error fault s =>
      refine ⟨s, .error fault, by simp [Follows, rowSignature, h, Except.map], fun w hzero _ => ?_⟩
      simp [Yields, parseRow, signature, hzero, h]

/-- What `ExecuteSQL` writes to the local `qr` of `Prepare`, when the log has the length `n`. -/
def SqlReply.asked (reply : SqlReply) (n : ℕ) : QueryResult :=
  QueryResult.new.store (reply.stored (n + 1)) reply.affectedRows

@[simp] theorem SqlReply.getAffectedRows_asked (reply : SqlReply) (n : ℕ) :
    (reply.asked n).getAffectedRows = reply.affectedRows.toUInt32.toInt32 := by
  rw [asked, QueryResult.getAffectedRows, QueryResult.store_nrow]

/-- The statement that asks for the signature is too long. -/
theorem yields_prepare_of_not_fits (w : SqlWorld) (procName : List Byte) (reply : SqlReply)
    (h : ¬ (paramList (cString procName)).length < 1024) :
    Yields (prepare paramList procName reply) w (.error .bufferOverrun)
      { w with helper := { w.helper with strProc := cString procName } } := by
  simp only [Yields, prepare, paramListSQL, if_neg h, EStateM.run_bind, run_modifyHelper]
  rfl

/-- `Prepare` returns before it reads a row. -/
theorem yields_prepare_of_code {code : Int32} (hfits : (paramList (cString procName)).length < 1024)
    (hcode : reply.code = 0) (hread : ∀ v, Yields (readParamList 0 (reply.asked w.log.length)) v
      (.ok (code, reply.asked w.log.length)) v) :
    Yields (prepare paramList procName reply) w (.ok code)
      (w.afterPrepare procName w.helper.strArgs w.helper.toSignature
        (.query (cString (paramList (cString procName))) 1 ::
          .store (reply.storedId (w.log.length + 1)) ::
          frees (reply.storedId (w.log.length + 1)))) := by
  simp only [Yields, SqlReply.asked] at hread
  simp [Yields, prepare, paramListSQL, hfits, mysql, run_executeSQLTo_of_eq, hcode, hread,
    run_release, SqlWorld.afterPrepare]

/-- `Prepare` reads a row. -/
theorem yields_prepare_of_row {row : Row} {rest : List Row} {set : ResultSet}
    (hfits : (paramList (cString procName)).length < 1024) (hcode : reply.code = 0)
    (hrows : ¬ reply.affectedRows.toUInt32.toInt32 < 1) (hresult : reply.result = some set)
    (hset : set.rows = row :: rest) (hfields : set.numFields ≠ 0) {args : List Byte}
    {s : Signature} {r : Except Fault Int32}
    (hparse : ∀ v : SqlWorld, v.helper.toSignature = w.helper.toSignature →
      v.helper.strArgs = w.helper.strArgs → Yields (parseRow (some row)) v r
        { v with helper := { v.helper with strArgs := args, toSignature := s } }) :
    ∃ tail, (tail = [] ∨ tail = frees (reply.storedId (w.log.length + 1))) ∧
      Yields (prepare paramList procName reply) w r (w.afterPrepare procName args s
        (.query (cString (paramList (cString procName))) 1 ::
          .store (reply.storedId (w.log.length + 1)) ::
          (fetches (reply.storedId (w.log.length + 1)) 1 ++ tail))) := by
  have hstored : reply.stored (w.log.length + 1) =
      some ⟨w.log.length + 1, set, row :: rest⟩ := by simp [SqlReply.stored, hresult, hset]
  have hid : reply.storedId (w.log.length + 1) = some (w.log.length + 1) := by
    simp [SqlReply.storedId, hresult]
  have hfetch (log : List SqlEvent) := @run_fetchResult_of_some log _ _
    (QueryResult.store_res .new (some ⟨w.log.length + 1, set, row :: rest⟩) reply.affectedRows)
    (by simp [QueryResult.store, hset, hfields])
  have hparse' := hparse (w.afterPrepare procName w.helper.strArgs w.helper.toSignature
    [.query (cString (paramList (cString procName))) 1, .store (some (w.log.length + 1)),
      .fetch (w.log.length + 1)]) rfl rfl
  cases r with
  | ok code =>
    refine ⟨_, .inr rfl, ?_⟩
    simp only [Yields, SqlWorld.afterPrepare] at hparse'
    simp [Yields, prepare, paramListSQL, hfits, mysql, run_executeSQLTo_of_eq, hcode,
      readParamList, QueryResult.getAffectedRows, hrows, run_release, hfetch, hstored, hid, frees,
      fetches, hparse', SqlWorld.afterPrepare, QueryResult.handle]
  | error fault =>
    refine ⟨_, .inl rfl, ?_⟩
    simp only [Yields, SqlWorld.afterPrepare] at hparse'
    simp [Yields, prepare, paramListSQL, hfits, mysql, run_executeSQLTo_of_eq, hcode,
      readParamList, QueryResult.getAffectedRows, hrows, hfetch, hstored, hid, fetches, hparse',
      SqlWorld.afterPrepare]

/-- **`Prepare` follows the plan.** -/
theorem yields_prepare (hzero : w.helper.toSignature = .zero)
    (hfits : (paramList (cString procName)).length < 1024) :
    ∃ args s log r, Segment w.log.length log [cString (paramList (cString procName))] ∧
      Yields (prepare paramList procName reply) w r (w.afterPrepare procName args s log) ∧
      Follows (prepared reply) r s := by
  by_cases hcode : reply.code = 0
  swap
  · refine ⟨w.helper.strArgs, w.helper.toSignature, _, .ok (-4), .failed _ _, ?_, ?_⟩
    · simp [Yields, prepare, paramListSQL, hfits, mysql, run_executeSQLTo_of_ne, hcode,
        readParamList, run_release, QueryResult.new, QueryResult.handle, frees,
        SqlWorld.afterPrepare]
    · simp [Follows, prepared, hcode, hzero, Except.map]
  have hearly := @Segment.result (cString (paramList (cString procName))) reply w.log.length _ _
    (.nil _) (.inr rfl)
  rw [List.nil_append] at hearly
  by_cases hrows : reply.affectedRows.toUInt32.toInt32 < 1
  · have hread : ∀ v, Yields (readParamList 0 (reply.asked w.log.length)) v
        (.ok (-1, reply.asked w.log.length)) v := fun v => by
      simp [Yields, readParamList, hrows]
    refine ⟨_, _, _, _, hearly, yields_prepare_of_code hfits hcode hread, ?_⟩
    simp [Follows, prepared, hcode, hrows, hzero, Except.map]
  -- nothing is fetched
  have hempty (hfetch : ∀ log, (reply.asked w.log.length).fetchResult.run log =
      .ok (1, reply.asked w.log.length) log) (hplan : prepared reply = .ok (-2, .zero)) :
      ∃ args s log r, Segment w.log.length log [cString (paramList (cString procName))] ∧
        Yields (prepare paramList procName reply) w r (w.afterPrepare procName args s log) ∧
        Follows (prepared reply) r s := by
    have hread : ∀ v, Yields (readParamList 0 (reply.asked w.log.length)) v
        (.ok (-2, reply.asked w.log.length)) v := fun v => by
      simp [Yields, readParamList, hrows, mysql, hfetch]
    refine ⟨_, _, _, _, hearly, yields_prepare_of_code hfits hcode hread, ?_⟩
    simp [Follows, hplan, hzero, Except.map]
  cases hresult : reply.result with
  | none =>
    refine hempty (fun log => run_fetchResult_of_none ?_) ?_
    · simp [SqlReply.asked, SqlReply.stored, hresult]
    · simp [prepared, hcode, hrows, hresult]
  | some set =>
    cases hset : set.rows with
    | nil =>
      refine hempty (fun log => run_fetchResult_of_empty (.inl ?_)) ?_
      · simp [SqlReply.asked, SqlReply.stored, hresult, QueryResult.store, hset]
      · simp [prepared, hcode, hrows, hresult, hset]
    | cons row rest =>
      by_cases hfields : set.numFields = 0
      · refine hempty (fun log => run_fetchResult_of_empty (.inr ?_)) ?_
        · simp [SqlReply.asked, SqlReply.stored, hresult, QueryResult.store, hfields]
        · simp [prepared, hcode, hrows, hresult, hset, hfields]
      · obtain ⟨args, s, r, hfollows, hparse⟩ := yields_parseRow row w.helper.strArgs
        obtain ⟨tail, htail, hprepare⟩ := yields_prepare_of_row hfits hcode hrows hresult hset
          hfields fun v hv => hparse v (hv.trans hzero)
        refine ⟨args, s, _, r, .result (.fetches _ 1) htail, hprepare, ?_⟩
        simpa [prepared, hcode, hrows, hresult, hset, hfields] using hfollows

end PetsServer

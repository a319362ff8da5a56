import PetsServer.Sql.Generated

/-!
# Reports of errors

When a statement fails, `ErrMsg::LogMsg` writes a message with the reason and the text of the
statement to a block of 1024 bytes, with `vsprintf`, which does not know the size of the block.

Where the reason is printed by `%S`, the address of its bytes is taken for that of wide characters,
and what is printed is not said. The formatting may also end there: then neither the rest of the
format nor the statement is printed.
-/

namespace PetsServer

open Foundations

/-- `ERROR_MESSAGE_BUFFER_MAX_LENGTH` -/
def errorMessageBufferMaxLength : ℕ := 1024

/-- What `%S` prints for an address. -/
structure WidePrint where
  bytes : List Byte
  /-- All wide characters have been converted. Else the formatting ends, with `EILSEQ`. -/
  complete : Bool
  deriving DecidableEq, Repr

/-- An argument of `LogMsg`: the bytes at an address, and what `%S` prints for it. -/
structure CharPtr where
  text : List Byte
  asWide : WidePrint
  deriving DecidableEq, Repr

/-- `vsprintf`, for formats with the conversions `%s` and `%S`. -/
def vsprintf : List Byte → List CharPtr → List Byte
  | 37 :: 115 :: format, arg :: args => cString arg.text ++ vsprintf format args
  | 37 :: 83 :: format, arg :: args =>
    arg.asWide.bytes ++ if arg.asWide.complete then vsprintf format args else []
  | b :: format, args => b :: vsprintf format args
  | [], _ => []

/-- Programs that write to `m_ErrInfo`. -/
abbrev OnErrInfo := EStateM Fault (List Byte)

/-- The block `m_ErrInfo` of a new `ErrMsg`. -/
def newErrInfo : List Byte := List.replicate errorMessageBufferMaxLength 0

theorem length_newErrInfo : newErrInfo.length = errorMessageBufferMaxLength :=
  List.length_replicate

/-- `ErrMsg::LogMsg` -/
def logMsg (info : String) (args : List CharPtr) : OnErrInfo Unit := do
  let _ ← sprintfAt 0 (vsprintf (ascii info) args)

/-- `return m_errmsg.LogMsg(...), result` -/
def fail (info : String) (args : List CharPtr) (result : Int32) : OnErrInfo Int32 := do
  logMsg info args
  pure result

/-- A call of `ExecuteStmt`, with what the client library returns. -/
structure StmtCall where
  sql : Option CharPtr
  /-- `m_pMysqlStmt` is not null. -/
  connected : Bool
  bindnum : Dword
  prepare : Int32
  bindParam : Int32
  execute : Int32
  storeResult : Int32
  /-- `mysql_stmt_error` -/
  reason : CharPtr
  deriving DecidableEq, Repr

/-- A call of `ExecuteSQL` or `ExecuteSQLEx`, with what the client library returns. -/
structure QueryCall where
  sql : Option CharPtr
  /-- `m_pMysql` is not null. -/
  connected : Bool
  /-- The result of `mysql_real_query`. -/
  realQuery : Int32
  /-- `mysql_error` -/
  reason : CharPtr
  deriving DecidableEq, Repr

/-- `MyQuery::ExecuteStmt`, up to the storing of the result. -/
def StmtCall.run (call : StmtCall) : OnErrInfo Int32 :=
  match call.sql, call.connected with
  | some sql, true =>
    if call.prepare ≠ 0 then
      fail "Execute mysql_stmt_prepare is Error [ reason:%s --- sql:%s]" [call.reason, sql]
        call.prepare
    else if call.bindnum ≠ 0 ∧ call.bindParam ≠ 0 then
      fail "Execute mysql_stmt_bind_param is Error [reason:%s --- sql:%s]" [call.reason, sql]
        call.bindParam
    else if call.execute ≠ 0 then
      fail "Execute mysql_stmt_execute is Error [reason:%S --- sql:%s]" [call.reason, sql]
        call.execute
    else if call.storeResult ≠ 0 then
      fail "Execute mysql_stmt_store_result is Error [reason:%S --- sql:%s]" [call.reason, sql]
        call.storeResult
    else pure 0
  | _, _ => fail "sql or Mysql_STMT is NULL" [] (-1)

/-- What `ExecuteSQL` and `ExecuteSQLEx` share: the query is sent. -/
def QueryCall.send (call : QueryCall) : OnErrInfo Int32 :=
  match call.sql, call.connected with
  | some sql, true =>
    if call.realQuery ≠ 0 then
      fail "Execute mysql_real_query is Error [reason:%s --- sql:%s]" [call.reason, sql]
        call.realQuery
    else pure 0
  | _, _ => fail "sql or MySQL is NULL!!!" [] (-1)

/-- The calls that can report an error. -/
inductive SqlExecution
  | executeStmt (call : StmtCall)
  | executeSQL (call : QueryCall)
  | executeSQLEx (call : QueryCall)
  deriving DecidableEq, Repr

/-- A call. After the query is sent, `ExecuteSQL` reports nothing. -/
def SqlExecution.run : SqlExecution → OnErrInfo Int32
  | .executeStmt call => call.run
  | .executeSQL call | .executeSQLEx call => call.send

/-! ## The messages -/

/-- What can fail. -/
inductive SqlFailure
  | prepare | bindParam | execute | storeResult | realQuery
  deriving DecidableEq, Repr

/-- The format of the message. -/
def SqlFailure.format : SqlFailure → String
  | prepare => "Execute mysql_stmt_prepare is Error [ reason:%s --- sql:%s]"
  | bindParam => "Execute mysql_stmt_bind_param is Error [reason:%s --- sql:%s]"
  | execute => "Execute mysql_stmt_execute is Error [reason:%S --- sql:%s]"
  | storeResult => "Execute mysql_stmt_store_result is Error [reason:%S --- sql:%s]"
  | realQuery => "Execute mysql_real_query is Error [reason:%s --- sql:%s]"

/-- The bytes that are left for the reason and the statement in the message. -/
def SqlFailure.room : SqlFailure → ℕ
  | prepare => 968
  | bindParam => 966
  | execute => 969
  | storeResult => 964
  | realQuery => 971

/-- What is printed of the reason. -/
def SqlFailure.printed : SqlFailure → CharPtr → List Byte
  | execute, reason | storeResult, reason => reason.asWide.bytes
  | _, reason => cString reason.text

/-- The formatting goes on after the reason. -/
def SqlFailure.goesOn : SqlFailure → CharPtr → Bool
  | execute, reason | storeResult, reason => reason.asWide.complete
  | _, _ => true

/-- What fails first. -/
def StmtCall.firstFailure (call : StmtCall) : Option SqlFailure :=
  if call.prepare ≠ 0 then some .prepare
  else if call.bindnum ≠ 0 ∧ call.bindParam ≠ 0 then some .bindParam
  else if call.execute ≠ 0 then some .execute
  else if call.storeResult ≠ 0 then some .storeResult
  else none

/-- The failure that a statement reports, if any, with the reason and the text. -/
def StmtCall.failure (call : StmtCall) : Option (SqlFailure × CharPtr × CharPtr) :=
  match call.sql, call.connected with
  | some sql, true => call.firstFailure.map (·, call.reason, sql)
  | _, _ => none

/-- The failure that a query reports. -/
def QueryCall.failure (call : QueryCall) : Option (SqlFailure × CharPtr × CharPtr) :=
  match call.sql, call.connected with
  | some sql, true => if call.realQuery ≠ 0 then some (.realQuery, call.reason, sql) else none
  | _, _ => none

/-- The failure that a call reports. -/
def SqlExecution.failure : SqlExecution → Option (SqlFailure × CharPtr × CharPtr)
  | .executeStmt call => call.failure
  | .executeSQL call | .executeSQLEx call => call.failure

/-- The reason and the statement are short enough, or the reason is when the formatting ends with
it: then there is room for the ten bytes around the statement too. -/
def SqlExecution.Fits (e : SqlExecution) : Prop :=
  ∀ failure reason sql, e.failure = some (failure, reason, sql) →
    if failure.goesOn reason then
      (failure.printed reason).length + (cString sql.text).length ≤ failure.room
    else (failure.printed reason).length ≤ failure.room + 10

/-- The text of the message before the reason. -/
def SqlFailure.head : SqlFailure → String
  | prepare => "Execute mysql_stmt_prepare is Error [ reason:"
  | bindParam => "Execute mysql_stmt_bind_param is Error [reason:"
  | execute => "Execute mysql_stmt_execute is Error [reason:"
  | storeResult => "Execute mysql_stmt_store_result is Error [reason:"
  | realQuery => "Execute mysql_real_query is Error [reason:"

/-- The conversion of the reason. -/
def SqlFailure.conversion : SqlFailure → String
  | execute | storeResult => "%S"
  | _ => "%s"

theorem format_eq (failure : SqlFailure) :
    failure.format = failure.head ++ (failure.conversion ++ " --- sql:%s]") := by
  cases failure <;> rfl

/-- What is no `%` is printed as it is. -/
theorem vsprintf_append {plain : List Byte} (h : 37 ∉ plain) (format : List Byte)
    (args : List CharPtr) : vsprintf (plain ++ format) args = plain ++ vsprintf format args := by
  induction plain with
  | nil => rfl
  | cons b plain ih =>
    obtain ⟨hb, hplain⟩ := List.ne_and_not_mem_of_not_mem_cons h
    rw [List.cons_append, List.cons_append, ← ih hplain]
    simp [vsprintf, Ne.symm hb]

theorem vsprintf_conversion (failure : SqlFailure) (format : List Byte) (arg : CharPtr)
    (args : List CharPtr) :
    vsprintf (ascii failure.conversion ++ format) (arg :: args) =
      failure.printed arg ++ if failure.goesOn arg then vsprintf format args else [] := by
  cases failure <;> rfl

theorem vsprintf_sql (sql : CharPtr) :
    vsprintf (ascii " --- sql:%s]") [sql] =
      ascii " --- sql:" ++ (cString sql.text ++ ascii "]") := by
  rfl

/-- The message. -/
theorem vsprintf_format (failure : SqlFailure) (reason sql : CharPtr) :
    vsprintf (ascii failure.format) [reason, sql] =
      ascii failure.head ++ (failure.printed reason ++
        if failure.goesOn reason then ascii " --- sql:" ++ (cString sql.text ++ ascii "]")
        else []) := by
  have hhead : 37 ∉ ascii failure.head := by cases failure <;> decide +kernel
  rw [format_eq, ascii_append, vsprintf_append hhead, ascii_append, vsprintf_conversion,
    vsprintf_sql]

/-- The length of a message. -/
theorem length_message (failure : SqlFailure) (reason sql : CharPtr) :
    (vsprintf (ascii failure.format) [reason, sql]).length + failure.room + 11 =
      errorMessageBufferMaxLength + (failure.printed reason).length +
        if failure.goesOn reason then 10 + (cString sql.text).length else 0 := by
  have hfixed : (ascii failure.head).length + 10 + failure.room + 1 =
      errorMessageBufferMaxLength := by cases failure <;> rfl
  have hmiddle : (ascii " --- sql:").length = 9 := rfl
  have hend : (ascii "]").length = 1 := rfl
  rw [vsprintf_format]
  cases failure.goesOn reason with
  | true =>
    simp only [if_true, List.length_append, hmiddle, hend]
    omega
  | false =>
    simp only [Bool.false_eq_true, if_false, List.length_append, List.length_nil]
    omega

theorem fits_of_failure_eq_none {e : SqlExecution} (h : e.failure = none) : e.Fits := by
  intro failure reason sql hsome
  rw [h] at hsome
  cases hsome

theorem fits_iff {e : SqlExecution} {failure : SqlFailure} {reason sql : CharPtr}
    (h : e.failure = some (failure, reason, sql)) :
    e.Fits ↔
      (vsprintf (ascii failure.format) [reason, sql]).length < errorMessageBufferMaxLength := by
  have hlen := length_message failure reason sql
  have hone : e.Fits ↔ if failure.goesOn reason then
      (failure.printed reason).length + (cString sql.text).length ≤ failure.room
      else (failure.printed reason).length ≤ failure.room + 10 := by
    rw [SqlExecution.Fits, h]
    refine ⟨fun hfits => hfits failure reason sql rfl, ?_⟩
    rintro hfits _ _ _ ⟨⟩
    exact hfits
  rw [hone]
  cases hgoes : failure.goesOn reason with
  | true =>
    rw [hgoes, if_pos rfl] at hlen
    rw [if_pos rfl]
    omega
  | false =>
    rw [hgoes, if_neg nofun] at hlen
    rw [if_neg nofun]
    omega

/-! ## The calls -/

/-- Started on a block of the right size, the program ends on one when the messages fit, and writes
past its end when they do not. -/
def Reports {α : Type} (x : OnErrInfo α) (fits : Prop) : Prop :=
  ∀ b, b.length = errorMessageBufferMaxLength →
    (fits → ∃ a b', Yields x b (.ok a) b' ∧ b'.length = errorMessageBufferMaxLength) ∧
      (¬ fits → ∃ b', Yields x b (.error .bufferOverrun) b')

section Reports

variable {α β : Type} {x : OnErrInfo α} {f : α → OnErrInfo β} {p q : Prop}

theorem reports_pure (a : α) (hp : p) : Reports (pure a) p := fun b hb =>
  ⟨fun _ => ⟨a, b, yields_pure a b, hb⟩, fun hnot => absurd hp hnot⟩

theorem Reports.bind (hx : Reports x p) (hf : ∀ a, Reports (f a) q) :
    Reports (x >>= f) (p ∧ q) := by
  intro b hb
  constructor
  · rintro ⟨hp, hq⟩
    obtain ⟨a, b', hrun, hb'⟩ := (hx b hb).1 hp
    obtain ⟨c, b'', hrun', hb''⟩ := (hf a b' hb').1 hq
    exact ⟨c, b'', hrun.bind hrun', hb''⟩
  · intro hnot
    by_cases hp : p
    · obtain ⟨a, b', hrun, hb'⟩ := (hx b hb).1 hp
      obtain ⟨b'', hrun'⟩ := (hf a b' hb').2 fun hq => hnot ⟨hp, hq⟩
      exact ⟨b'', hrun.bind hrun'⟩
    · obtain ⟨b', hrun⟩ := (hx b hb).2 hp
      exact ⟨b', hrun.bind_error⟩

/-- The program ends exactly when the messages fit. -/
theorem Reports.ok_iff (hx : Reports x p) {b : List Byte}
    (hb : b.length = errorMessageBufferMaxLength) : (∃ a b', Yields x b (.ok a) b') ↔ p := by
  constructor
  · rintro ⟨a, b', hrun⟩
    by_contra hnot
    obtain ⟨b'', hfault⟩ := (hx b hb).2 hnot
    cases (hrun.unique hfault).1
  · intro hp
    obtain ⟨a, b', hrun, -⟩ := (hx b hb).1 hp
    exact ⟨a, b', hrun⟩

theorem Reports.congr (hx : Reports x p) (h : p ↔ q) : Reports x q := by
  rwa [← propext h]

theorem reports_mapM {f : β → OnErrInfo α} {fits : β → Prop} (h : ∀ c, Reports (f c) (fits c))
    (cs : List β) : Reports (cs.mapM f) (∀ c ∈ cs, fits c) := by
  induction cs with
  | nil => exact reports_pure [] fun _ hmem => absurd hmem List.not_mem_nil
  | cons c cs ih =>
    rw [List.mapM_cons]
    refine ((h c).bind fun a => ih.bind fun as => reports_pure (a :: as) trivial).congr ?_
    rw [and_true, List.forall_mem_cons]

end Reports

theorem reports_logMsg (info : String) (args : List CharPtr) :
    Reports (logMsg info args)
      ((vsprintf (ascii info) args).length < errorMessageBufferMaxLength) := by
  intro b hb
  have hlen : (vsprintf (ascii info) args ++ [0]).length =
      (vsprintf (ascii info) args).length + 1 := List.length_append
  constructor
  · intro hlt
    have hle : 0 + (vsprintf (ascii info) args ++ [0]).length ≤ b.length := by omega
    have hrun : Yields (logMsg info args) b (.ok ⟨⟩) _ :=
      ((writeAt_of_le hle).bind (yields_pure (vsprintf (ascii info) args).length _)).bind
        (yields_pure PUnit.unit _)
    exact ⟨⟨⟩, _, hrun, (length_overwrite hle).trans hb⟩
  · intro hnot
    exact ⟨b, (writeAt_of_not_le (by omega)).bind_error.bind_error⟩

theorem reports_fail (info : String) (args : List CharPtr) (result : Int32) :
    Reports (fail info args result)
      ((vsprintf (ascii info) args).length < errorMessageBufferMaxLength) :=
  ((reports_logMsg info args).bind fun _ => reports_pure result trivial).congr
    (and_iff_left trivial)

theorem reports_failure {e : SqlExecution} {failure : SqlFailure} {reason sql : CharPtr}
    (h : e.failure = some (failure, reason, sql)) (result : Int32) :
    Reports (fail failure.format [reason, sql] result) e.Fits :=
  (reports_fail _ _ result).congr (fits_iff h).symm

/-- A message without arguments that fits. -/
theorem reports_null {e : SqlExecution} {info : String} (h : e.failure = none) (result : Int32)
    (hinfo : (vsprintf (ascii info) []).length < errorMessageBufferMaxLength) :
    Reports (fail info [] result) e.Fits :=
  (reports_fail info [] result).congr (iff_of_true hinfo (fits_of_failure_eq_none h))

/-- `ExecuteStmt` writes past the end when the reason and the statement are too long. -/
theorem reports_stmt {e : SqlExecution} {call : StmtCall} (h : e.failure = call.failure) :
    Reports call.run e.Fits := by
  obtain ⟨sql, connected, bindnum, prepare, bindParam, execute, storeResult, reason⟩ := call
  cases sql with
  | none => exact reports_null h (-1) (by decide)
  | some sql =>
    cases connected with
    | false => exact reports_null h (-1) (by decide)
    | true =>
      rw [StmtCall.run]
      dsimp only
      rw [StmtCall.failure, StmtCall.firstFailure] at h
      dsimp only at h
      by_cases hprepare : prepare ≠ 0
      · rw [if_pos hprepare] at h ⊢
        exact @reports_failure e .prepare reason sql h prepare
      rw [if_neg hprepare] at h ⊢
      by_cases hbind : bindnum ≠ 0 ∧ bindParam ≠ 0
      · rw [if_pos hbind] at h ⊢
        exact @reports_failure e .bindParam reason sql h bindParam
      rw [if_neg hbind] at h ⊢
      by_cases hexecute : execute ≠ 0
      · rw [if_pos hexecute] at h ⊢
        exact @reports_failure e .execute reason sql h execute
      rw [if_neg hexecute] at h ⊢
      by_cases hstore : storeResult ≠ 0
      · rw [if_pos hstore] at h ⊢
        exact @reports_failure e .storeResult reason sql h storeResult
      rw [if_neg hstore] at h ⊢
      exact reports_pure 0 (fits_of_failure_eq_none h)

theorem reports_query {e : SqlExecution} {call : QueryCall} (h : e.failure = call.failure) :
    Reports call.send e.Fits := by
  obtain ⟨sql, connected, realQuery, reason⟩ := call
  cases sql with
  | none => exact reports_null h (-1) (by decide)
  | some sql =>
    cases connected with
    | false => exact reports_null h (-1) (by decide)
    | true =>
      rw [QueryCall.send]
      dsimp only
      rw [QueryCall.failure] at h
      dsimp only at h
      by_cases hquery : realQuery ≠ 0
      · rw [if_pos hquery] at h ⊢
        exact @reports_failure e .realQuery reason sql h realQuery
      · rw [if_neg hquery] at h ⊢
        exact reports_pure 0 (fits_of_failure_eq_none h)

/-- A call writes past the end of the block when its reason and statement are too long. -/
theorem SqlExecution.reports (e : SqlExecution) : Reports e.run e.Fits := by
  cases e with
  | executeStmt call => exact reports_stmt rfl
  | executeSQL call => exact reports_query rfl
  | executeSQLEx call => exact reports_query rfl

/-- **The error buffer.** In a sequence of calls no message is written past the end of `m_ErrInfo`
if and only if, in every call that fails, what is printed of the reason and the statement is short
enough. -/
theorem messages_fit_iff (es : List SqlExecution) :
    (∃ codes b, Yields (es.mapM SqlExecution.run) newErrInfo (.ok codes) b) ↔
      ∀ e ∈ es, e.Fits :=
  (reports_mapM SqlExecution.reports es).ok_iff length_newErrInfo

/-- The failure of a statement that leaves no room, whatever the reason. -/
theorem not_ok_of_long {sql reason : CharPtr} (h : 971 < (cString sql.text).length) :
    ¬ ∃ code b, Yields (SqlExecution.run (.executeSQL ⟨some sql, true, 1, reason⟩)) newErrInfo
      (.ok code) b := by
  intro hrun
  have hfits := ((SqlExecution.reports _).ok_iff length_newErrInfo).mp hrun
  have hle : (cString reason.text).length + (cString sql.text).length ≤ 971 :=
    hfits .realQuery reason sql rfl
  omega

/-- The text of the `SET` for one blob that is passed in. -/
theorem setText_blob (lens : ℕ) (block : List Byte) :
    setText [⟨.vIn, .blob, lens, .voidPtr block⟩] =
      ascii "set" ++ (ascii "@_0 = 0x" ++ (block.take lens).flatMap hexByte) := by
  have hassign : assignments [⟨.vIn, .blob, lens, .voidPtr block⟩] =
      [(0, some (block.take lens))] := rfl
  have hname : userVariable 0 ++ ascii " = 0x" = ascii "@_0 = 0x" := by decide
  rw [setText, hassign, List.map_singleton, List.intercalate_singleton, assignmentText, hname]

theorem one_le_maxParamCount : 1 ≤ maxParamCount := by decide

/-- A blob of 500 bytes is passed in. -/
def Signature.oneBlob : Signature where
  totalCount := 1
  inCount := 1
  outCount := 0
  inoutCount := 0
  parameters := #v[⟨.vIn, .blob, 500, .voidPtr (List.replicate 500 0)⟩, .zero, .zero, .zero, .zero,
    .zero, .zero, .zero, .zero, .zero]
  totalCount_le := one_le_maxParamCount

/-- The failure of a `SET` that `Execute` has sent, whatever the reason. -/
theorem set_message_overruns :
    let w : SqlWorld := { SqlWorld.start with
      helper := { QueryResult.new, Signature.oneBlob with strProc := ascii "f", strArgs := [] } }
    ∃ env sql r t log, Yields (execute env) w r t ∧ t.log = w.log ++ log ∧ sql ∈ queries log ∧
      ¬ ∃ code b, Yields (SqlExecution.run (.executeSQL ⟨some ⟨sql, ⟨[], true⟩⟩, true, 1,
        ⟨[], ⟨[], true⟩⟩⟩)) newErrInfo (.ok code) b := by
  intro w
  let env : CallEnv := { CallEnv.noParameters .done with
    replies := ⟨.value [], ⟨1, none, 0⟩, .done, .done⟩ }
  have hdeclared : Signature.oneBlob.declared =
      [⟨.vIn, .blob, 500, .voidPtr (List.replicate 500 0)⟩] := rfl
  have hsupported : ∀ param ∈ Signature.oneBlob.declared, param.Supported := by
    rw [hdeclared]
    intro param hparam
    obtain rfl := List.mem_singleton.mp hparam
    exact .blob 500 _ (by omega) (by rw [List.length_replicate])
  have hlength : (setText Signature.oneBlob.declared).length = 1011 := by
    rw [hdeclared, setText_blob, List.length_append, List.length_append, length_flatMap_hexByte,
      List.length_take, List.length_replicate]
    rfl
  have hfit : (setText Signature.oneBlob.declared).length ≤ setLimit := by
    rw [hlength]
    decide
  obtain ⟨r, log, t, hrun, hends⟩ := @runs_execute env w (List.length_replicate ..)
  have hqueries : queries log = _ :=
    hends.queries.trans (@queries_textsPlan (ascii "f") env _ (by decide) hsupported hfit)
  refine ⟨env, setText Signature.oneBlob.declared, r, t, log, hrun.1, hrun.2.log, ?_, ?_⟩
  · rw [hqueries]
    exact List.mem_cons_self
  · refine not_ok_of_long ?_
    rw [cString_setText, hlength]
    omega

end PetsServer

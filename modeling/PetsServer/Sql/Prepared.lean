import PetsServer.Foundations.Client
import PetsServer.Sql.ErrMsg

/-!
# Prepared statements

`ExecuteStmt` has the one handle of a prepared statement that `Init` opens, and prepares every
statement on it. Its result is read by the callback of the task, and released when `ExecuteSentence`
is done with it.

The client library is a parameter: each of its functions can return anything, and do anything to
the state that it shares with the callbacks. What the library is asked is recorded in a log, with
what it returns. The handle is not null, as the server does not start when `Init` fails.
-/

namespace PetsServer

open Foundations

namespace Prepared

/-! ## The bound variables -/

/-- `enum_field_types`, as far as the parameters of a `QueryBind` have them. -/
inductive BufferType
  | tiny | long | longlong | string | blob
  deriving DecidableEq, Repr

/-- `MYSQL_BIND` -/
structure MysqlBind where
  bufferType : BufferType
  buffer : ℕ
  bufferLength : Qword
  isNull : Option ℕ
  /-- The entry of `m_lens` that is pointed to. -/
  length : ℕ
  deriving DecidableEq, Repr

/-- `QueryBind`, for a number of parameters. -/
structure QueryBind (paramNumbers : Byte) where
  binds : Vector MysqlBind paramNumbers.toNat
  lens : Vector Qword paramNumbers.toNat
  nulls : Vector Byte paramNumbers.toNat

/-- `Arguments` -/
structure Arguments where
  bindnum : Dword
  binds : List MysqlBind
  deriving DecidableEq, Repr

namespace QueryBind

variable {n : Byte}

/-- `MySTMTBind::bind_param` of a parameter. -/
def bindParam (bind : QueryBind n) (i : Fin n.toNat) (bufferType : BufferType) (buffer : ℕ)
    (bufferLength : Dword) (isNull : Option ℕ) : QueryBind n :=
  { bind with
    lens := bind.lens.setIfInBounds i bufferLength.toUInt64
    binds :=
      bind.binds.setIfInBounds i ⟨bufferType, buffer, bufferLength.toUInt64, isNull, i⟩ }

/-- `MySTMTBind::BindBlob` -/
def bindBlob (bind : QueryBind n) (i : Fin n.toNat) (data : ℕ) (size : Qword) : QueryBind n :=
  bind.bindParam i .blob data size.toUInt32 none

/-- `MySTMTBind::BindString` -/
def bindString (bind : QueryBind n) (i : Fin n.toNat) (data : ℕ) (size : Qword) : QueryBind n :=
  bind.bindParam i .string data size.toUInt32 none

/-- `MySTMTBind::BindLong` -/
def bindLong (bind : QueryBind n) (i : Fin n.toNat) (data : ℕ) : QueryBind n :=
  bind.bindParam i .long data 0 none

/-- `MySTMTBind::BindULong` -/
def bindULong (bind : QueryBind n) (i : Fin n.toNat) (data : ℕ) : QueryBind n :=
  bind.bindParam i .long data 0 none

/-- `MySTMTBind::BindLongLong` -/
def bindLongLong (bind : QueryBind n) (i : Fin n.toNat) (data : ℕ) : QueryBind n :=
  bind.bindParam i .longlong data 0 none

/-- `MySTMTBind::BindULongLong` -/
def bindULongLong (bind : QueryBind n) (i : Fin n.toNat) (data : ℕ) : QueryBind n :=
  bind.bindParam i .longlong data 0 none

/-- `MySTMTBind::BindUTiny` -/
def bindUTiny (bind : QueryBind n) (i : Fin n.toNat) (data : ℕ) : QueryBind n :=
  bind.bindParam i .tiny data 0 none

/-- `QueryBind::operator Arguments` -/
def arguments (bind : QueryBind n) : Arguments := ⟨n.toUInt32, bind.binds.toList⟩

end QueryBind

/-! ## The library -/

/-- A `MYSQL_RES`, by its address. -/
abbrev ResPtr := ℕ

/-- The functions of the client library for the handle, with a state of the type `ω`, in which the
variables of the callbacks are too. -/
structure StmtLibrary (ω : Type) where
  /-- `mysql_stmt_prepare` -/
  prepare : List Byte → ω → Int32 × ω
  /-- `mysql_stmt_bind_param` -/
  bindParam : List MysqlBind → ω → Int32 × ω
  /-- `mysql_stmt_execute` -/
  execute : ω → Int32 × ω
  /-- `mysql_stmt_store_result` -/
  storeResult : ω → Int32 × ω
  /-- `mysql_stmt_result_metadata` -/
  resultMetadata : ω → Option ResPtr × ω
  /-- `mysql_stmt_affected_rows` -/
  affectedRows : ω → Qword × ω
  /-- `mysql_num_rows` -/
  numRows : ResPtr → ω → Qword × ω
  /-- `mysql_num_fields` -/
  numFields : ResPtr → ω → Dword × ω
  /-- `mysql_stmt_bind_result` -/
  bindResult : List MysqlBind → ω → Int32 × ω
  /-- `mysql_stmt_fetch` -/
  fetch : ω → Int32 × ω
  /-- `mysql_fetch_row` -/
  fetchRow : ResPtr → ω → Option ℕ × ω
  /-- `mysql_fetch_lengths` -/
  fetchLengths : ResPtr → ω → Option ℕ × ω
  /-- `mysql_free_result` -/
  freeResult : ResPtr → ω → Unit × ω
  /-- `mysql_stmt_free_result` -/
  stmtFreeResult : ω → Unit × ω
  /-- `mysql_stmt_error` -/
  error : ω → CharPtr × ω

/-- The calls of the library, with what they return, and the calls back. -/
inductive StmtEvent
  | prepare (sql : List Byte) (code : Int32)
  | bindParam (binds : List MysqlBind) (code : Int32)
  | execute (code : Int32)
  | storeResult (code : Int32)
  | resultMetadata (res : Option ResPtr)
  | affectedRows
  | numRows (res : ResPtr)
  | numFields (res : ResPtr) (fields : Dword)
  | callBack
  | bindResult (binds : List MysqlBind) (code : Int32)
  | fetch (code : Int32)
  | fetchRow (res : ResPtr)
  | fetchLengths (res : ResPtr)
  | freeResult (res : ResPtr)
  | stmtFreeResult
  | error
  deriving DecidableEq, Repr

/-- `QueryResult`, after a prepared statement. -/
structure QueryResult where
  /-- The handle is stored. -/
  stmt : Bool
  res : Option ResPtr
  nrow : Qword
  numRows : Qword
  numFields : Dword
  lens : Option ℕ
  rows : Option ℕ
  deriving DecidableEq, Repr

/-- A `QueryResult` filled with zeros. -/
def QueryResult.new : QueryResult := ⟨false, none, 0, 0, 0, none, none⟩

/-- The state of the library, the `qr` of the task, the block of `m_errmsg` and the log. -/
structure StmtWorld (ω : Type) where
  lib : ω
  qr : QueryResult
  errInfo : List Byte
  log : List StmtEvent

/-- Programs that use the handle. -/
abbrev OnStmt (ω : Type) := EStateM Fault (StmtWorld ω)

section Source

variable {ω : Type} (L : StmtLibrary ω)

/-- A function of the library is called. -/
def call {α : Type} (f : ω → α × ω) (event : α → StmtEvent) : OnStmt ω α := do
  let w ← get
  let (a, lib) := f w.lib
  set { w with lib := lib, log := w.log ++ [event a] }
  pure a

/-- `qr` is changed. -/
def modifyQr (f : QueryResult → QueryResult) : OnStmt ω Unit :=
  modify fun w => { w with qr := f w.qr }

def errInfo {α : Type} (x : OnErrInfo α) : OnStmt ω α :=
  zoom StmtWorld.errInfo (fun w errInfo => { w with errInfo }) x

/-- `return m_errmsg.LogMsg(...), result`, with `mysql_stmt_error`. -/
def failStmt (info : String) (sql : CharPtr) (result : Int32) : OnStmt ω Int32 := do
  let reason ← call L.error fun _ => .error
  errInfo (fail info [reason, sql] result)

/-- `ExecuteStmt` writes what is stored to `qr`. -/
def writeResult : OnStmt ω Unit := do
  modifyQr fun qr => { qr with stmt := true }
  let res ← call L.resultMetadata .resultMetadata
  modifyQr fun qr => { qr with res := res }
  let nrow ← call L.affectedRows fun _ => .affectedRows
  modifyQr fun qr => { qr with nrow := nrow }
  match res with
  | none => pure ()
  | some res =>
    let numRows ← call (L.numRows res) fun _ => .numRows res
    modifyQr fun qr => { qr with numRows := numRows }
    let numFields ← call (L.numFields res) (.numFields res)
    modifyQr fun qr => { qr with numFields := numFields }

/-- `ExecuteStmt`, after the parameters are bound. -/
def executeBound (sql : CharPtr) : OnStmt ω Int32 := do
  let result ← call L.execute .execute
  if result ≠ 0 then
    failStmt L "Execute mysql_stmt_execute is Error [reason:%S --- sql:%s]" sql result
  else
    let result ← call L.storeResult .storeResult
    if result ≠ 0 then
      failStmt L "Execute mysql_stmt_store_result is Error [reason:%S --- sql:%s]" sql result
    else
      writeResult L
      pure 0

/-- `ExecuteStmt`, after the statement is prepared. -/
def executePrepared (sql : CharPtr) (args : Arguments) : OnStmt ω Int32 :=
  if args.bindnum ≠ 0 then do
    let result ← call (L.bindParam args.binds) (.bindParam args.binds)
    if result ≠ 0 then
      failStmt L "Execute mysql_stmt_bind_param is Error [reason:%s --- sql:%s]" sql result
    else executeBound L sql
  else executeBound L sql

/-- `MyQuery::ExecuteStmt`, which writes to `qr`. -/
def executeStmt (sql : Option CharPtr) (args : Arguments) : OnStmt ω Int32 :=
  match sql with
  | none => errInfo (fail "sql or Mysql_STMT is NULL" [] (-1))
  | some sql => do
    let result ← call (L.prepare (cString sql.text)) (.prepare (cString sql.text))
    if result ≠ 0 then
      failStmt L "Execute mysql_stmt_prepare is Error [ reason:%s --- sql:%s]" sql result
    else executePrepared L sql args

/-- `res` is freed, in `Release`. -/
def freeRes : Option ResPtr → OnStmt ω Unit
  | some res => call (L.freeResult res) fun _ => .freeResult res
  | none => pure ()

/-- `QueryResult::Release` -/
def release : OnStmt ω Unit := do
  let w ← get
  freeRes L w.qr.res
  if w.qr.stmt then call L.stmtFreeResult fun _ => .stmtFreeResult

/-- `QueryResult::AffectedRows` -/
def affectedRows : OnStmt ω Int32 := do
  let w ← get
  pure w.qr.nrow.toUInt32.toInt32

/-- `QueryResult::FetchResult(QueryBind&)` -/
def fetchResult {n : Byte} (bind : QueryBind n) : OnStmt ω Int32 := do
  let w ← get
  if n.toUInt32 ≠ w.qr.numFields then pure 1
  else
    let result ← call (L.bindResult bind.binds.toList) (.bindResult bind.binds.toList)
    if result ≠ 0 then pure result else call L.fetch .fetch

/-- The row is fetched, in `FetchResult()`. -/
def fetchRow (res : ResPtr) : OnStmt ω Int32 := do
  let rows ← call (L.fetchRow res) fun _ => .fetchRow res
  modifyQr fun qr => { qr with rows := rows }
  let lens ← call (L.fetchLengths res) fun _ => .fetchLengths res
  modifyQr fun qr => { qr with lens := lens }
  pure (if rows.isSome ∧ lens.isSome then 0 else 1)

/-- `QueryResult::FetchResult()` -/
def fetchResultRow : OnStmt ω Int32 := do
  let w ← get
  match w.qr.res with
  | none => pure 1
  | some res =>
    if w.qr.numRows = 0 ∨ w.qr.numFields = 0 then pure 1 else fetchRow L res

/-- What a callback asks of its `QueryResult`, and what it does to its variables. -/
inductive ResultRequest (ω : Type)
  | affectedRows
  | fetchResult {n : Byte} (bind : QueryBind n)
  | fetchResultRow
  | update (f : ω → ω)

/-- What a request returns. -/
def answer : ResultRequest ω → OnStmt ω Int32
  | .affectedRows => affectedRows
  | .fetchResult bind => fetchResult L bind
  | .fetchResultRow => fetchResultRow L
  | .update f => do
    modify fun w => { w with lib := f w.lib }
    pure 0

/-- A request of a callback, which sees `qr` and its variables afterwards. -/
def serve (request : ResultRequest ω) : OnStmt ω (Int32 × QueryResult × ω) := do
  let result ← answer L request
  let w ← get
  pure (result, w.qr, w.lib)

/-- A task of the type `SQL_STMT_TYPE`, whose callback returns an `α`. -/
structure StmtTask (ω α : Type) where
  sentence : Option CharPtr
  paramNumbers : Byte
  queryBind : QueryBind paramNumbers
  sqlCallback : Client (ResultRequest ω) (Int32 × QueryResult × ω) α

/-- `case SQL_STMT_TYPE` of `ExecuteSentence`. The destructor of `qr` releases it. -/
def executeStmtTask {α : Type} (task : StmtTask ω α) : OnStmt ω (Option α) := do
  modifyQr fun _ => .new
  let result ← executeStmt L task.sentence task.queryBind.arguments
  if result ≠ 0 then
    release L
    pure none
  else
    call (fun lib => ((), lib)) fun _ => .callBack
    let a ← task.sqlCallback.run (serve L)
    release L
    pure (some a)

end Source

end Prepared

end PetsServer

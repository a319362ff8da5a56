import PetsServer.Define
import PetsServer.Foundations.Program
import PetsServer.Foundations.Text

/-!
# Statements and their results

`ExecuteSQL` sends a statement to the database server and stores its result set; a `QueryResult`
reads the rows of the set and releases it. What the server answers is an input. The calls of the
client library are recorded in a log, in which a result set has the position at which it is stored
as its identity.

The connection has been made: the server does not start when `Init` fails.
-/

namespace PetsServer

open Foundations

/-- The identity of a stored result set. -/
abbrev ResId := ℕ

/-- The columns of a row. A column can be null. -/
abbrev Row := List (Option (List Byte))

/-- A result set, as the server sends it. -/
structure ResultSet where
  numFields : ℕ
  rows : List Row
  wf : ∀ row ∈ rows, row.length = numFields
  deriving DecidableEq

/-- What the client library returns for a statement. -/
structure SqlReply where
  /-- The result of `mysql_real_query`, 0 for success. -/
  code : Int32
  /-- The result of `mysql_store_result`. -/
  result : Option ResultSet
  affectedRows : Qword
  deriving DecidableEq

/-- What the client library returns for a `CALL`. The procedure returns result sets, and after them
a status; when there is nothing but the status, that is what `mysql_store_result` reads. -/
structure CallReply extends SqlReply where
  /-- The number of result sets. -/
  sets : ℕ
  status : sets = 0 → result = none
  deriving DecidableEq

/-- A stored result set, `MYSQL_RES`. -/
structure MysqlRes where
  id : ResId
  set : ResultSet
  /-- The rows that are not fetched yet. -/
  rest : List Row
  deriving DecidableEq

/-- The calls of the client library, and the calls back. -/
inductive SqlEvent
  /-- `mysql_real_query`. The statement has `results` results to read, none if it fails. -/
  | query (sql : List Byte) (results : ℕ)
  /-- `mysql_store_result`, which reads one result. -/
  | store (res : Option ResId)
  | fetch (res : ResId)
  | free (res : ResId)
  | callBack
  deriving DecidableEq, Repr

/-- Programs that call the client library. -/
abbrev Mysql := EStateM Fault (List SqlEvent)

/-- A call is recorded. -/
def record (event : SqlEvent) : Mysql Unit := modify fun log => log ++ [event]

/-- `mysql_real_query`, for a statement with `sets` result sets more than the one that is stored. -/
def mysqlRealQuery (sql : List Byte) (reply : SqlReply) (sets : ℕ) : Mysql Int32 := do
  record (.query sql (if reply.code = 0 then sets + 1 else 0))
  pure reply.code

/-- `mysql_store_result` -/
def mysqlStoreResult (reply : SqlReply) : Mysql (Option MysqlRes) := do
  let log ← get
  let res := reply.result.map fun set => ⟨log.length, set, set.rows⟩
  record (.store (res.map MysqlRes.id))
  pure res

/-- `mysql_fetch_row`, with `mysql_fetch_lengths`. -/
def mysqlFetchRow (res : MysqlRes) : Mysql (Option Row × MysqlRes) := do
  record (.fetch res.id)
  pure (res.rest.head?, { res with rest := res.rest.tail })

/-- `mysql_free_result` -/
def mysqlFreeResult (res : MysqlRes) : Mysql Unit := record (.free res.id)

/-- `QueryResult`. Its `stmt` is null wherever `ExecuteSQL` is used. -/
structure QueryResult where
  res : Option MysqlRes
  nrow : Qword
  numRows : ℕ
  numFields : ℕ
  /-- The current row. -/
  rows : Option Row
  deriving DecidableEq

namespace QueryResult

/-- A `QueryResult` filled with zeros. -/
def new : QueryResult := ⟨none, 0, 0, 0, none⟩

/-- `QueryResult::Release`. The pointer `res` stays as it is. -/
def release (qr : QueryResult) : Mysql Unit :=
  match qr.res with
  | some res => mysqlFreeResult res
  | none => pure ()

/-- `QueryResult::AffectedRows` -/
def getAffectedRows (qr : QueryResult) : Int32 := qr.nrow.toUInt32.toInt32

/-- `QueryResult::FetchResult` -/
def fetchResult (qr : QueryResult) : Mysql (Int32 × QueryResult) :=
  match qr.res with
  | none => pure (1, qr)
  | some res =>
    if qr.numRows = 0 ∨ qr.numFields = 0 then pure (1, qr)
    else do
      let (rows, res) ← mysqlFetchRow res
      pure (if rows.isSome then 0 else 1, { qr with res := some res, rows := rows })

/-- What `ExecuteSQL` writes to a `QueryResult`. -/
def store (qr : QueryResult) (res : Option MysqlRes) (nrow : Qword) : QueryResult :=
  match res with
  | some res => { qr with
      res := some res
      nrow := nrow
      numRows := res.set.rows.length
      numFields := res.set.numFields }
  | none => { qr with res := none, nrow := nrow }

end QueryResult

/-- `MyQuery::ExecuteSQL`, for a statement with `sets` result sets more than the one that is stored;
`qr` can be null. When the statement fails, `LogMsg` also writes to `m_ErrInfo`, and whether the
text fits there is asked in `Sql.ErrMsg`. -/
def executeSQL (sql : List Byte) (qr : Option QueryResult) (reply : SqlReply) (sets : ℕ) :
    Mysql (Int32 × Option QueryResult) := do
  let result ← mysqlRealQuery (cString sql) reply sets
  if result ≠ 0 then
    pure (result, qr)
  else
    let res ← mysqlStoreResult reply
    match qr with
    | some qr => pure (0, some (qr.store res reply.affectedRows))
    | none =>
      match res with
      | some res => mysqlFreeResult res
      | none => pure ()
      pure (0, none)

/-- `ExecuteSQL` with a `QueryResult`. -/
def executeSQLTo (sql : List Byte) (qr : QueryResult) (reply : SqlReply) (sets : ℕ) :
    Mysql (Int32 × QueryResult) := do
  let (result, written) ← executeSQL sql (some qr) reply sets
  pure (result, written.getD qr)

/-! ## Simple replies -/

theorem wf_oneValue (value : List Byte) : ∀ row ∈ [[some value]], row.length = 1 := by simp

/-- The reply of one row with one value. -/
def SqlReply.value (value : List Byte) : SqlReply :=
  ⟨0, some ⟨1, [[some value]], wf_oneValue value⟩, 1⟩

/-- The reply to a statement without a result set. -/
def SqlReply.done : SqlReply := ⟨0, none, 0⟩

/-- The reply of a procedure that returns one value. -/
def CallReply.value (value : List Byte) : CallReply := ⟨.value value, 1, nofun⟩

/-- The reply of a procedure that returns nothing. -/
def CallReply.done : CallReply := ⟨.done, 0, fun _ => rfl⟩

end PetsServer

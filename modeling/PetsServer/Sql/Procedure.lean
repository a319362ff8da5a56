import PetsServer.Sql.Result
import PetsServer.Sql.Task
import PetsServer.Sql.Texts

/-!
# Calls of stored procedures

`MyQuery::ExecuteProcedure` runs a task that calls a procedure, on one static `ProcedureHelper`:
`Prepare` asks the server for the signature, the values are bound, `Execute` builds the texts, sends
them and reads the outputs back, and `Clear` empties the helper. `SqlWorld` is what lives on from
one call to the next. What the server answers, and whatever else a call finds in its surroundings,
is a `CallEnv`.
-/

namespace PetsServer

open Foundations

/-- `ProcedureHelper` -/
structure ProcedureHelper extends QueryResult, Signature where
  strProc : List Byte
  strArgs : List Byte
  deriving DecidableEq

/-- A `ProcedureHelper` as it is constructed. -/
def ProcedureHelper.new : ProcedureHelper := { QueryResult.new, Signature.zero with
  strProc := [], strArgs := [] }

/-- The static helper, `PrepareBuffer`, and the calls of the client library so far. -/
structure SqlWorld where
  helper : ProcedureHelper
  prepareBuffer : List Byte
  log : List SqlEvent
  deriving DecidableEq

/-- A new helper, and `PrepareBuffer` filled with zeros. -/
def SqlWorld.start : SqlWorld := ⟨.new, List.replicate prepareBufferSize 0, []⟩

/-- The replies to the statements of one call of a procedure. Only the `CALL` has results beyond the
first. -/
structure CallReplies where
  paramList : SqlReply
  set : SqlReply
  call : CallReply
  select : SqlReply
  deriving DecidableEq

/-- What one call of a procedure finds in its surroundings. -/
structure CallEnv where
  replies : CallReplies
  /-- The array at an address. -/
  anyArr : ArgId → List AnyValue
  /-- What `sprintf` prints for a `std::string` object. -/
  garbage : ℕ → List Byte
  /-- What the caller of `Execute` takes for its result where it returns none. -/
  noReturn : Int32
  /-- How often the callback fetches a row. -/
  fetches : ℕ

/-- The surroundings of a call of a procedure without parameters. -/
def CallEnv.noParameters (call : CallReply) : CallEnv where
  replies := ⟨.value [], .done, call, .done⟩
  anyArr _ := []
  garbage _ := []
  noReturn := 0
  fetches := 0

/-- Programs on the whole state. -/
abbrev OnWorld := EStateM Fault SqlWorld

namespace OnWorld

/-- The helper is changed. -/
def modifyHelper (f : ProcedureHelper → ProcedureHelper) : OnWorld Unit :=
  modify fun w => { w with helper := f w.helper }

def mysql {α : Type} (x : Mysql α) : OnWorld α := zoom SqlWorld.log (fun w log => { w with log }) x

def buffer {α : Type} (x : OnBuffer α) : OnWorld α :=
  zoom SqlWorld.prepareBuffer (fun w prepareBuffer => { w with prepareBuffer }) x

def signature {α : Type} (x : OnSignature α) : OnWorld α :=
  zoom (fun w => w.helper.toSignature)
    (fun w s => { w with helper := { w.helper with toSignature := s } }) x

/-- `ExecuteSQL` with the helper. -/
def executeSQLThis (sql : List Byte) (reply : SqlReply) (sets : ℕ) : OnWorld Int32 := do
  let (result, qr) ← mysql (executeSQLTo sql (← get).helper.toQueryResult reply sets)
  modifyHelper fun h => { h with toQueryResult := qr }
  pure result

/-- `FetchResult` of the helper. -/
def fetchThis : OnWorld Int32 := do
  let (result, qr) ← mysql (← get).helper.toQueryResult.fetchResult
  modifyHelper fun h => { h with toQueryResult := qr }
  pure result

/-- `Release` of the helper. -/
def releaseThis : OnWorld Unit := do mysql (← get).helper.toQueryResult.release

end OnWorld

open OnWorld

/-! ## Prepare -/

/-- The statement that asks for a signature. The format `SELECT_PROCEDURE_PARAMLIST` and the name of
the database are not in the sources; `paramList` is the text that they make of a name. -/
def paramListSQL (paramList : List Byte → List Byte) (procName : List Byte) : OnWorld (List Byte) :=
  if (paramList procName).length < 1024 then pure (paramList procName) else throw .bufferOverrun

/-- `Prepare` from the first row of the reply on. -/
def parseRow : Option Row → OnWorld Int32
  | some (some text :: _) => do
    let strArgs := (cString text).map toLower
    modifyHelper fun h => { h with strArgs := strArgs }
    signature (parseParts .direction (streamParts strArgs))
  | some (none :: _) => throw .nullPointer
  | _ => throw .outOfBounds

/-- `Prepare` after its statement, with its local `qr`. -/
def readParamList (result : Int32) (qr : QueryResult) : OnWorld (Int32 × QueryResult) :=
  if result ≠ 0 then pure (-4, qr)
  else if qr.getAffectedRows < 1 then pure (-1, qr)
  else do
    let (result, qr) ← mysql qr.fetchResult
    if result ≠ 0 then pure (-2, qr)
    else
      let code ← parseRow qr.rows
      pure (code, qr)

/-- `ProcedureHelper::Prepare`. The destructor of `qr` releases its result. -/
def prepare (paramList : List Byte → List Byte) (procName : List Byte) (reply : SqlReply) :
    OnWorld Int32 := do
  modifyHelper fun h => { h with strProc := cString procName }
  let sql ← paramListSQL paramList (cString procName)
  let (result, qr) ← mysql (executeSQLTo sql .new reply 0)
  let (code, qr) ← readParamList result qr
  mysql qr.release
  pure code

/-! ## Execute -/

/-- The longest `SET` text that is sent. -/
def setLimit : ℕ := prepareBufferSize - 20

/-- The `SET` is sent, if there is any. -/
def sendSet (env : CallEnv) (prepareIdx : ℕ) : OnWorld Int32 :=
  if prepareIdx ≠ 0 then
    if setLimit < prepareIdx then pure (-1)
    else do
      buffer (writeAt prepareIdx [0])
      let (result, _) ← mysql (executeSQL (← get).prepareBuffer none env.replies.set 0)
      pure result
  else pure 0

/-- The rows of the result of the `CALL` are logged while they have two columns; `n` bounds the
number of rows. -/
def logRows : ℕ → OnWorld Unit
  | 0 => pure ()
  | n + 1 => do
    let result ← fetchThis
    if result = 0 ∧ (← get).helper.numFields = 2 then logRows n
    else pure ()

/-- `ProcedureHelper::SqlValueToAny`. `atoll` returns a `long long`, which is not the type of
`int64_t`, and the value of a blob is put into the `any` as a `char*`. -/
def sqlValueToAny (param : SqlParam) (value : Option (List Byte)) : OnSignature SqlParam :=
  match param.type, value with
  | .long, some text => pure { param with bindValue := .int (atoi (cString text)) }
  | .long, none | .longlong, none => throw .nullPointer
  | .longlong, some _ => throw .badAnyCast
  | .string, value => pure { param with bindValue := .charPtr value }
  | .blob, _ => throw .badAnyCast
  | .decimal, _ | .errtype, _ => pure param

/-- The `i`-th output is stored. -/
def readOutput (rows : Row) (i : ℕ) : OnSignature Unit := do
  let s ← get
  if h : s.inCount + i < maxParamCount then
    match rows[i]? with
    | none => throw .outOfBounds
    | some value =>
      let param ← sqlValueToAny s.parameters[s.inCount + i] value
      updateParam (s.inCount + i) fun _ => param
  else throw .outOfBounds

/-- The outputs are stored. -/
def readOutputs (rows : Row) : OnSignature Unit := do
  let s ← get
  (List.range (s.outCount + s.inoutCount)).forM (readOutput rows)

/-- `Execute` after the `SELECT` has succeeded. -/
def readSelect (env : CallEnv) : OnWorld Int32 := do
  if (← get).helper.toQueryResult.getAffectedRows ≠ 1 then pure (-1)
  else
    let result ← fetchThis
    if result ≠ 0 then pure result
    else
      match (← get).helper.rows with
      | none => throw .nullPointer
      | some rows =>
        signature (readOutputs rows)
        modify fun w => { w with prepareBuffer := List.replicate prepareBufferSize 0 }
        -- there is no `return`
        pure env.noReturn

/-- `Execute` from the `SELECT` on. -/
def selectOutputs (env : CallEnv) (strSelect : List Byte) : OnWorld Int32 := do
  let result ← executeSQLThis strSelect env.replies.select 0
  if result ≠ 0 then pure result
  else readSelect env

/-- The result of the `CALL` is logged and released. -/
def logCall : OnWorld Unit := do
  logRows ((← get).helper.numRows + 1)
  releaseThis

/-- `Execute` after the `CALL` has succeeded. -/
def readCall (env : CallEnv) (t : Texts) : OnWorld Int32 := do
  logCall
  if t.strSelect.isEmpty then pure 0
  else selectOutputs env t.strSelect

/-- `Execute` from the `CALL` on. -/
def callProcedure (env : CallEnv) (t : Texts) : OnWorld Int32 := do
  let result ← executeSQLThis t.pecedureCall env.replies.call.toSqlReply env.replies.call.sets
  if result ≠ 0 then pure result
  else readCall env t

/-- `Execute` after its loop. -/
def sendTexts (env : CallEnv) (t : Texts) : OnWorld Int32 := do
  let result ← sendSet env t.prepareIdx
  if result ≠ 0 then pure result
  else callProcedure env t

/-- `ProcedureHelper::Execute` -/
def execute (env : CallEnv) : OnWorld Int32 := do
  let h := (← get).helper
  match ← buffer (buildTexts env.garbage h.strProc h.declared) with
  | none => pure (-1)
  | some t => sendTexts env t

/-! ## ExecuteProcedure -/

/-- `ProcedureHelper::Clear` -/
def clear : OnWorld Unit := do
  releaseThis
  modifyHelper fun h => { h with toSignature := .zero, strProc := [], strArgs := [] }

/-- The callback fetches rows. -/
def fetchRows : ℕ → OnWorld Unit
  | 0 => pure ()
  | n + 1 => do
    let _ ← fetchThis
    fetchRows n

/-- The callback of the task is called with the helper. -/
def sqlCallback (env : CallEnv) : OnWorld Unit := do
  mysql (record .callBack)
  fetchRows env.fetches

/-- `ExecuteProcedure` after `Execute`. -/
def finishProcedure (env : CallEnv) (code : Int32) : OnWorld Bool :=
  if code ≠ 0 then do
    clear
    pure false
  else do
    sqlCallback env
    clear
    pure true

/-- `MyQuery::ExecuteProcedure` -/
def executeProcedure (paramList : List Byte → List Byte) (env : CallEnv) (pack : SqlPack) :
    OnWorld Bool := do
  let code ← prepare paramList pack.sentence env.replies.paramList
  if code ≠ 0 then
    clear
    pure false
  else
    signature (bindValues (pack.anyArr.map env.anyArr) pack.paramNums.toNat)
    let code ← execute env
    finishProcedure env code

end PetsServer

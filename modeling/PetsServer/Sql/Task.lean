import PetsServer.Define

/-!
# SQL tasks

`Pet::PrepareSQL` makes a task, a `SqlPack`, and pushes it to the queue of the SQL thread. A task
has one pointer to its arguments, which the source reads through a union: as a `QueryBind`, or as
an array of `boost::any` in a task that calls a stored procedure.
-/

namespace PetsServer

/-- `SQL_PACK_TYPE` -/
inductive SqlPackType
  | common | stmt | procedure
  deriving DecidableEq, Repr

/-- The address of a `QueryBind` or of an array of `boost::any`. -/
abbrev ArgId := ℕ

/-- The identity of a callback. -/
abbrev SqlCallBack := ℕ

/-- `SqlPack`. Both members of the union are the pointer `arg`, which can be null. -/
structure SqlPack where
  packType : SqlPackType
  sentence : List Byte
  arg : Option ArgId
  sqlCallback : SqlCallBack
  paramNums : Byte
  deriving DecidableEq, Repr

namespace SqlPack

/-- The member `query_bind` of the union. -/
def queryBind (pack : SqlPack) : Option ArgId := pack.arg

/-- The member `any_arr` of the union. -/
def anyArr (pack : SqlPack) : Option ArgId := pack.arg

end SqlPack

/-- The arguments of `Pet::PrepareSQL`. -/
structure SqlRequest where
  type : SqlPackType
  sentence : List Byte
  bind : Option ArgId
  bindNums : ℕ
  cb : SqlCallBack
  deriving DecidableEq, Repr

/-- The task that `Pet::PrepareSQL` makes. A procedure's pointer is stored in `any_arr`, any other
in `query_bind`; the number of arguments is cut to a byte. -/
def prepareSQL (request : SqlRequest) : SqlPack where
  packType := request.type
  sentence := request.sentence
  arg := request.bind
  sqlCallback := request.cb
  paramNums := UInt8.ofNat request.bindNums

/-- A `delete` of the SQL thread. -/
inductive SqlRelease
  | anyArr (arg : ArgId)
  | queryBind (arg : ArgId)
  | pack (pack : SqlPack)
  deriving DecidableEq, Repr

/-- What `MysqlLoop` deletes after a task. The `else` belongs to the inner `if`. -/
def SqlPack.release (pack : SqlPack) : List SqlRelease :=
  (if pack.packType = .procedure then
    match pack.anyArr with
    | some arg => [.anyArr arg]
    | none => (pack.queryBind.map SqlRelease.queryBind).toList
  else []) ++ [.pack pack]

end PetsServer

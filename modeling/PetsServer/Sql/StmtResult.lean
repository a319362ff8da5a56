import Mathlib.Logic.Function.Basic
import PetsServer.Define

/-!
# Results of prepared statements

A `QueryBind` names the variables to which a fetch writes the columns of a row, and holds a flag for
each that says whether the column is null. The variables are `long`s, and all columns are of the
type `MYSQL_TYPE_LONG`.

The client library fetches the rows in order. It writes a column that is not null to the variable,
and whether it is null to the flag that `MYSQL_BIND::is_null` points to, if that is not a null
pointer.
-/

namespace PetsServer

/-- The number that the database gives a pet, `SProperty::m_staticID`. -/
abbrev StaticId := Dword

/-- `MYSQL_BIND`, for a buffer of the type `MYSQL_TYPE_LONG`. -/
structure MysqlBind where
  /-- The address of a `long`. -/
  buffer : ℕ
  /-- The entry of `m_nulls` that is written to; none for a null pointer. -/
  isNull : Option ℕ
  deriving DecidableEq, Repr

/-- `QueryBind`, for a number of parameters. -/
structure QueryBind (paramNumbers : Byte) where
  binds : Vector MysqlBind paramNumbers.toNat
  nulls : Vector Byte paramNumbers.toNat

/-- The variables, by their addresses. -/
abbrev Longs := ℕ → Qword

/-- The low four bytes of a `long` are written. -/
def storeLong (old : Qword) (value : StaticId) : Qword :=
  UInt64.ofNat (old.toNat / 2 ^ 32 * 2 ^ 32 + value.toNat)

/-- What of a `QueryResult` is used when the statement was a prepared one. -/
structure StmtResult where
  numFields : Dword
  nrow : Qword
  /-- The rows that are not fetched yet. -/
  rest : List (List (Option StaticId))
  deriving DecidableEq, Repr

/-- `QueryResult::AffectedRows` -/
def StmtResult.getAffectedRows (qr : StmtResult) : Int32 := qr.nrow.toUInt32.toInt32

namespace QueryBind

variable {n : Byte}

/-- `MySTMTBind::bind_param` of a parameter. -/
def bindParam (bind : QueryBind n) (i : Fin n.toNat) (buffer : ℕ) (isNull : Option ℕ) :
    QueryBind n :=
  { bind with binds := bind.binds.set i ⟨buffer, isNull⟩ }

/-- `MySTMTBind::BindLong` -/
def bindLong (bind : QueryBind n) (i : Fin n.toNat) (data : ℕ) : QueryBind n :=
  bind.bindParam i data none

/-- `MySTMTBind::IsNull` -/
def isNull (bind : QueryBind n) (i : Fin n.toNat) : Bool := bind.nulls.get i ≠ 0

/-- What a fetch writes for a column. -/
def fetchColumn (written : QueryBind n × Longs) (bind : MysqlBind) (column : Option StaticId) :
    QueryBind n × Longs :=
  let nulls := match bind.isNull with
    | some i => written.1.nulls.setIfInBounds i (if column.isNone then 1 else 0)
    | none => written.1.nulls
  let longs := match column with
    | some value =>
      Function.update written.2 bind.buffer (storeLong (written.2 bind.buffer) value)
    | none => written.2
  ({ written.1 with nulls := nulls }, longs)

end QueryBind

/-- A result that is being fetched. -/
structure Fetching (n : Byte) where
  qr : StmtResult
  bind : QueryBind n
  longs : Longs

namespace Fetching

variable {n : Byte}

/-- `mysql_stmt_fetch`, with the parameters bound; 100 is `MYSQL_NO_DATA`. -/
def mysqlStmtFetch (s : Fetching n) : Int32 × Fetching n :=
  match s.qr.rest with
  | [] => (100, s)
  | row :: rest =>
    let (bind, longs) := (s.bind.binds.toList.zip row).foldl
      (fun written column => QueryBind.fetchColumn written column.1 column.2) (s.bind, s.longs)
    (0, ⟨{ s.qr with rest := rest }, bind, longs⟩)

/-- `QueryResult::FetchResult(QueryBind&)`. The parameters are bound without an error. -/
def fetchResult (s : Fetching n) : Int32 × Fetching n :=
  if n.toUInt32 ≠ s.qr.numFields then (1, s) else s.mysqlStmtFetch

end Fetching

/-! ## Small facts -/

theorem StmtResult.getAffectedRows_eq_zero_iff (qr : StmtResult) :
    qr.getAffectedRows = 0 ↔ 2 ^ 32 ∣ qr.nrow.toNat := by
  have hcast : qr.getAffectedRows = 0 ↔ qr.nrow.toUInt32 = 0 :=
    ⟨fun h => congrArg Int32.toUInt32 h, fun h => congrArg UInt32.toInt32 h⟩
  rw [hcast, ← UInt32.toNat_inj, UInt64.toNat_toUInt32]
  exact Nat.dvd_iff_mod_eq_zero.symm

theorem toNat_storeLong {old : Qword} (h : old.toNat < 2 ^ 32) (value : StaticId) :
    (storeLong old value).toNat = value.toNat := by
  have hvalue := value.toNat_lt
  rw [storeLong, Nat.div_eq_of_lt h, Nat.zero_mul, Nat.zero_add, UInt64.toNat_ofNat']
  omega

end PetsServer

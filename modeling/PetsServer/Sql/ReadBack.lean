import PetsServer.Sql.Procedure

/-!
# Reading the outputs back

After the `SELECT` the loop of `Execute` stores column `i` of the row in `parameters[inCount + i]`.
`readOutputs_cases` says what the loop leaves, and at which columns it fails: a null that is
converted to a number, and every column for a parameter whose type is `BIGINT` or `BLOB`.
-/

namespace PetsServer

open Foundations

/-! ## One column -/

/-- `atoll` -/
def atoll (text : List Byte) : Int64 := Int64.ofInt (max (-2 ^ 63) (min (2 ^ 63 - 1) (strtol text)))

/-- The parameter with the value of a column, of the type that is declared. -/
def SqlParam.store (param : SqlParam) (value : Option (List Byte)) : SqlParam :=
  match param.type, value with
  | .long, some text => { param with bindValue := .int (atoi (cString text)) }
  | .longlong, some text => { param with bindValue := .int64 (atoll (cString text)) }
  | .string, value => { param with bindValue := .charPtr value }
  | .blob, some block => { param with bindValue := .voidPtr block, lens := block.length }
  | .long, none | .longlong, none | .blob, none | .decimal, _ | .errtype, _ => param

/-- The fault when a column is stored in a parameter of the type. -/
def FieldType.storeFault (type : FieldType) (value : Option (List Byte)) : Option Fault :=
  match type, value with
  | .long, none | .longlong, none => some .nullPointer
  | .longlong, some _ | .blob, _ => some .badAnyCast
  | .long, some _ | .string, _ | .decimal, _ | .errtype, _ => none

theorem yields_sqlValueToAny (param : SqlParam) (value : Option (List Byte)) (s : Signature) :
    Yields (sqlValueToAny param value) s
      ((param.type.storeFault value).elim (.ok (param.store value)) .error) s := by
  obtain ⟨direction, type, lens, bindValue⟩ := param
  cases type <;> cases value <;> rfl

/-! ## The loop -/

/-- The fault at column `i`. -/
def Signature.outputFault (s : Signature) (rows : Row) (i : ℕ) : Option Fault :=
  if h : s.inCount + i < maxParamCount then
    rows[i]?.elim (some .outOfBounds) s.parameters[s.inCount + i].type.storeFault
  else some .outOfBounds

/-- The signature with the first `n` columns stored. -/
def Signature.storeFirst (s : Signature) (rows : Row) (n : ℕ) : Signature :=
  { s with parameters := s.parameters.mapIdx fun j p =>
      if s.inCount ≤ j ∧ j < s.inCount + n then rows[j - s.inCount]?.elim p p.store else p }

theorem Signature.storeFirst_zero (s : Signature) (rows : Row) : s.storeFirst rows 0 = s := by
  have hparameters : (s.storeFirst rows 0).parameters = s.parameters := by
    ext1 j hj
    rw [storeFirst, Vector.getElem_mapIdx, if_neg (by omega)]
  change { s with parameters := (s.storeFirst rows 0).parameters } = s
  rw [hparameters]

section Loop

variable {s : Signature} {rows : Row} {n : ℕ}

theorem Signature.storeFirst_getElem {j : ℕ} (hj : j < maxParamCount) :
    (s.storeFirst rows n).parameters[j] = if s.inCount ≤ j ∧ j < s.inCount + n then
      rows[j - s.inCount]?.elim s.parameters[j] s.parameters[j].store else s.parameters[j] := by
  rw [storeFirst, Vector.getElem_mapIdx]

/-- One column more. -/
theorem Signature.storeFirst_succ {value : Option (List Byte)} (hn : s.inCount + n < maxParamCount)
    (hvalue : rows[n]? = some value) :
    s.storeFirst rows (n + 1) = { s.storeFirst rows n with
      parameters := (s.storeFirst rows n).parameters.set (s.inCount + n)
        (s.parameters[s.inCount + n].store value) } := by
  have hparameters : (s.storeFirst rows (n + 1)).parameters =
      (s.storeFirst rows n).parameters.set (s.inCount + n)
        (s.parameters[s.inCount + n].store value) := by
    ext1 j hj
    rw [Vector.getElem_set, storeFirst_getElem hj, storeFirst_getElem hj]
    by_cases heq : s.inCount + n = j
    · subst heq
      rw [if_pos rfl, if_pos (by omega), Nat.add_sub_cancel_left, hvalue, Option.elim_some]
    · rw [if_neg heq]
      exact if_congr (by omega) rfl rfl
  rw [← hparameters]
  rfl

/-- Column `n`, after the columns before it. -/
theorem yields_readOutput (s : Signature) (rows : Row) (n : ℕ) :
    Yields (readOutput rows n) (s.storeFirst rows n)
      ((s.outputFault rows n).elim (.ok ⟨⟩) .error)
      ((s.outputFault rows n).elim (s.storeFirst rows (n + 1)) fun _ => s.storeFirst rows n) := by
  refine Yields.bind (yields_get (s.storeFirst rows n)) ?_
  change Yields (if h : s.inCount + n < maxParamCount then _ else _) _ _ _
  unfold Signature.outputFault
  by_cases hn : s.inCount + n < maxParamCount
  swap
  · rw [dif_neg hn, dif_neg hn]
    exact yields_throw _ _
  rw [dif_pos hn, dif_pos hn]
  cases hvalue : rows[n]? with
  | none => exact yields_throw _ _
  | some value =>
    have hparam : (s.storeFirst rows n).parameters[s.inCount + n] =
        s.parameters[s.inCount + n] := by
      rw [Signature.storeFirst_getElem hn, if_neg (by omega)]
    have hstore := yields_sqlValueToAny s.parameters[s.inCount + n] value (s.storeFirst rows n)
    rw [Option.elim_some]
    change Yields (sqlValueToAny (s.storeFirst rows n).parameters[s.inCount + n] value >>= _) _ _ _
    rw [hparam]
    cases hfault : s.parameters[s.inCount + n].type.storeFault value with
    | some fault =>
      rw [hfault] at hstore
      exact hstore.bind_error
    | none =>
      rw [hfault] at hstore
      rw [Option.elim_none, Option.elim_none, Signature.storeFirst_succ hn hvalue]
      exact hstore.bind (yields_updateParam hn _ _)

/-- **The first columns.** -/
theorem readFirst_cases (s : Signature) (rows : Row) (n : ℕ) :
    ((∀ i < n, s.outputFault rows i = none) ∧
      Yields ((List.range n).forM (readOutput rows)) s (.ok ⟨⟩) (s.storeFirst rows n)) ∨
    ∃ i < n, ∃ fault t, s.outputFault rows i = some fault ∧
      Yields ((List.range n).forM (readOutput rows)) s (.error fault) t := by
  induction n with
  | zero =>
    refine .inl ⟨nofun, ?_⟩
    rw [s.storeFirst_zero]
    exact yields_pure _ s
  | succ n ih =>
    have hsucc : (List.range (n + 1)).forM (readOutput rows) =
        (List.range n).forM (readOutput rows) >>= fun _ => readOutput rows n := by
      rw [List.range_succ]
      exact (List.forM_append).trans (by simp)
    rw [hsucc]
    rcases ih with ⟨hnone, hread⟩ | ⟨i, hi, fault, t, hfault, hread⟩
    swap
    · exact .inr ⟨i, Nat.lt_succ_of_lt hi, fault, t, hfault, hread.bind_error⟩
    have hlast := yields_readOutput s rows n
    cases hfault : s.outputFault rows n with
    | none =>
      rw [hfault] at hlast
      refine .inl ⟨fun i hi => ?_, hread.bind hlast⟩
      rcases Nat.lt_succ_iff_lt_or_eq.mp hi with hi | rfl
      · exact hnone i hi
      · exact hfault
    | some fault =>
      rw [hfault] at hlast
      exact .inr ⟨n, Nat.lt_succ_self n, fault, _, hfault, hread.bind hlast⟩

end Loop

/-- The signature with all outputs stored. -/
def Signature.stored (s : Signature) (rows : Row) : Signature :=
  s.storeFirst rows (s.outCount + s.inoutCount)

/-- **How the outputs are stored.** -/
theorem readOutputs_cases (s : Signature) (rows : Row) :
    ((∀ i < s.outCount + s.inoutCount, s.outputFault rows i = none) ∧
      Yields (readOutputs rows) s (.ok ⟨⟩) (s.stored rows)) ∨
    ∃ i < s.outCount + s.inoutCount, ∃ fault t, s.outputFault rows i = some fault ∧
      Yields (readOutputs rows) s (.error fault) t := by
  rcases readFirst_cases s rows (s.outCount + s.inoutCount) with
    ⟨hnone, hread⟩ | ⟨i, hi, fault, t, hfault, hread⟩
  · exact .inl ⟨hnone, (yields_get s).bind hread⟩
  · exact .inr ⟨i, hi, fault, t, hfault, (yields_get s).bind hread⟩

end PetsServer

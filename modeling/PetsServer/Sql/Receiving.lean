import PetsServer.Sql.Database
import PetsServer.Sql.Grammar

/-!
# What a caller receives

`receive` says what the caller of a procedure expects: the parameters that are passed out hold the
values that the procedure has passed out, each in the type that the parameter was declared with.
`declared_stored` says that the signature holds them after the columns are stored, when the
parameters are declared in the documented order.
-/

namespace PetsServer

open Foundations

/-- The value that a parameter of the type should hold; none for a value that the type does not
have, or that the helper cannot store. -/
def FieldType.received (type : FieldType) (value : SqlValue) : Option AnyValue :=
  match type, value with
  | .long, .number z =>
    if -2 ^ 31 ≤ z ∧ z < 2 ^ 31 then some (.int (Int32.ofInt z)) else none
  | .string, .bytes data => some (.charPtr (some data))
  | .string, .null => some (.charPtr none)
  | _, _ => none

/-- The parameters with the values that are passed out, in their order. -/
def receive : List SqlParam → List SqlValue → Option (List SqlParam)
  | [], [] => some []
  | [], _ :: _ => none
  | param :: params, values =>
    if param.direction = .vIn then (receive params values).map (param :: ·)
    else
      match values with
      | [] => none
      | value :: values => (param.type.received value).bind fun bindValue =>
        (receive params values).map ({ param with bindValue } :: ·)

/-! ## Numbers -/

/-- The digits of a number are read. -/
theorem strtol_decimal (z : ℤ) : strtol (decimal z) = z := by
  have hdigits (n : ℕ) : (digits n).takeWhile IsDigit = digits n :=
    List.takeWhile_eq_self_iff.mpr fun b hb => decide_eq_true (isDigit_of_mem_digits hb)
  obtain ⟨b, rest, heq⟩ := List.exists_cons_of_ne_nil (digits_ne_nil z.natAbs)
  have hb : IsDigit b := isDigit_of_mem_digits (heq ▸ List.mem_cons_self)
  have hspace : isSpace b = false := isSpace_of_lt (UInt8.lt_of_lt_of_le (by decide) hb.1)
  unfold decimal
  split
  · rename_i hneg
    change -(readNat ((digits z.natAbs).takeWhile IsDigit) : ℤ) = z
    rw [hdigits, readNat_digits]
    omega
  · rename_i hpos
    have hread : strtol (digits z.natAbs) = readNat ((digits z.natAbs).takeWhile IsDigit) := by
      rw [heq, strtol, List.dropWhile_cons_of_neg (by simp [hspace])]
      split
      · rename_i heq'
        exact absurd (List.cons.inj heq').1 (hb.ne (by decide))
      · rename_i heq'
        exact absurd (List.cons.inj heq').1 (hb.ne (by decide))
      · rfl
    rw [hread, hdigits, readNat_digits]
    omega

theorem atoi_decimal {z : ℤ} (hle : -2 ^ 31 ≤ z) (hlt : z < 2 ^ 31) :
    atoi (cString (decimal z)) = Int32.ofInt z := by
  have hzero : 0 ∉ decimal z := fun h => (mem_decimal h).elim (by decide) (by decide)
  rw [atoi, cString_of_notMem hzero, strtol_decimal]
  congr 1
  omega

/-! ## One column -/

/-- The column of a value is stored as the value that the parameter should hold. -/
theorem store_column {param : SqlParam} {value : SqlValue} {x : AnyValue}
    (h : param.type.received value = some x) :
    param.type.storeFault value.column = none ∧
      param.store value.column = { param with bindValue := x } := by
  obtain ⟨direction, type, lens, bound⟩ := param
  cases type with
  | long =>
    cases value with
    | number z =>
      obtain ⟨⟨hle, hlt⟩, hx⟩ := Option.ite_none_right_eq_some.mp h
      obtain rfl := Option.some.inj hx
      refine ⟨rfl, ?_⟩
      simp only [SqlParam.store, SqlValue.column, atoi_decimal hle hlt]
    | null | bytes => cases h
  | string =>
    cases value with
    | number => cases h
    | null | bytes =>
      obtain rfl := Option.some.inj h
      exact ⟨rfl, rfl⟩
  | decimal | longlong | blob | errtype => cases h

/-! ## The parameters one by one -/

theorem outputs_cons_of_in {param : SqlParam} (h : param.direction = .vIn)
    (params : List SqlParam) : outputs (param :: params) = (outputs params).map (· + 1) := by
  rw [outputs_eq, outputs_eq, ← positionsFrom_succ]
  exact @positionsFrom_cons_of_pos _ (·.direction = .vIn) _ param h 0 params

theorem outputs_cons_of_out {param : SqlParam} (h : param.direction ≠ .vIn)
    (params : List SqlParam) : outputs (param :: params) = 0 :: (outputs params).map (· + 1) := by
  rw [outputs_eq, outputs_eq, ← positionsFrom_succ]
  exact @positionsFrom_cons_of_neg _ (·.direction = .vIn) _ param h 0 params

/-- What is received, parameter by parameter: `positions` are those of the values. -/
structure Receives (params : List SqlParam) (positions : List ℕ) (values : List SqlValue)
    (received : List SqlParam) : Prop where
  length : received.length = params.length
  count : values.length = positions.length
  input : ∀ (j : ℕ) (p : SqlParam), params[j]? = some p → p.direction = .vIn →
    received[j]? = some p
  output : ∀ k j : ℕ, positions[k]? = some j → ∃ p value x, params[j]? = some p ∧
    values[k]? = some value ∧ p.type.received value = some x ∧
    received[j]? = some { p with bindValue := x }

theorem receives_of_receive {params received : List SqlParam} {values : List SqlValue}
    (h : receive params values = some received) :
    Receives params (outputs params) values received := by
  induction params generalizing values received with
  | nil =>
    cases values with
    | nil =>
      obtain rfl : [] = received := by simpa [receive] using h
      exact ⟨rfl, rfl, nofun, nofun⟩
    | cons value values => cases h
  | cons param params ih =>
    by_cases hdir : param.direction = .vIn
    · unfold receive at h
      rw [if_pos hdir] at h
      obtain ⟨rest, hrest, rfl⟩ := Option.map_eq_some_iff.mp h
      obtain ⟨hlength, hcount, hinput, houtput⟩ := ih hrest
      rw [outputs_cons_of_in hdir]
      refine ⟨by simp [hlength], by simp [hcount], fun j p hp hp_in => ?_, fun k j hk => ?_⟩
      · cases j with
        | zero => exact hp
        | succ j => exact hinput j p hp hp_in
      · obtain ⟨j, hj, rfl⟩ := Option.map_eq_some_iff.mp (List.getElem?_map ▸ hk)
        exact houtput k j hj
    · unfold receive at h
      rw [if_neg hdir] at h
      cases values with
      | nil => cases h
      | cons value values =>
        obtain ⟨x, hx, h⟩ := Option.bind_eq_some_iff.mp h
        obtain ⟨rest, hrest, rfl⟩ := Option.map_eq_some_iff.mp h
        obtain ⟨hlength, hcount, hinput, houtput⟩ := ih hrest
        rw [outputs_cons_of_out hdir]
        refine ⟨by simp [hlength], by simp [hcount], fun j p hp hp_in => ?_, fun k j hk => ?_⟩
        · cases j with
          | zero =>
            obtain rfl := Option.some.inj hp
            exact absurd hp_in hdir
          | succ j => exact hinput j p hp hp_in
        · cases k with
          | zero =>
            obtain rfl := Option.some.inj hk
            exact ⟨param, value, x, rfl, rfl, hx, rfl⟩
          | succ k =>
            obtain ⟨j, hj, rfl⟩ := Option.map_eq_some_iff.mp (List.getElem?_map ▸ hk)
            exact houtput k j hj

/-! ## The columns are stored -/

section Stored

variable {s : Signature} {values : List SqlValue} {received : List SqlParam}

/-- The row of the reply to the `SELECT`. -/
def outputRow (values : List SqlValue) : Row := values.map SqlValue.column

theorem getElem?_outputRow (values : List SqlValue) (k : ℕ) :
    (outputRow values)[k]? = values[k]?.map SqlValue.column := List.getElem?_map

/-- In the documented order the `k`-th output is the `k`-th parameter after the inputs. -/
theorem Signature.Complete.getElem?_outputs (hs : s.Complete)
    (horder : DocumentedOrder s.declared) {k : ℕ} (hk : k < s.outCount + s.inoutCount) :
    (outputs s.declared)[k]? = some (s.inCount + k) := by
  rw [← hs.length_outputs] at hk
  rw [List.getElem?_eq_getElem hk, ← hs.documentedOrder_iff.mp horder k _
    (List.getElem?_eq_getElem hk)]

theorem Signature.getElem?_declared {j : ℕ} {p : SqlParam} (h : s.declared[j]? = some p) :
    s.parameters[j]? = some p := by
  obtain ⟨hj, rfl⟩ := List.getElem?_eq_some_iff.mp h
  obtain ⟨hlt, heq⟩ := getElem_declared hj
  rw [heq, Vector.getElem?_eq_getElem hlt]

/-- Every column can be stored. -/
theorem outputFault_eq_none (hs : s.Complete) (horder : DocumentedOrder s.declared)
    (h : receive s.declared values = some received) :
    ∀ k < s.outCount + s.inoutCount, s.outputFault (outputRow values) k = none := by
  intro k hk
  obtain ⟨p, value, x, hp, hvalue, hx, -⟩ :=
    (receives_of_receive h).output k _ (hs.getElem?_outputs horder hk)
  refine outputFault_eq_none_iff.mpr ⟨p, value.column.isNone, s.getElem?_declared hp, ?_, ?_⟩
  · rw [List.getElem?_map, getElem?_outputRow, hvalue]
    rfl
  · exact (storeFault_eq_none_iff _ _).mp (store_column hx).1

/-- **The caller receives what is passed out.** -/
theorem declared_stored (hs : s.Complete) (horder : DocumentedOrder s.declared)
    (h : receive s.declared values = some received) :
    (s.stored (outputRow values)).declared = received := by
  have hreceives := receives_of_receive h
  have hlength : (s.stored (outputRow values)).declared.length = s.declared.length := by
    rw [Signature.length_declared, Signature.length_declared]
    rfl
  refine List.ext_getElem (hlength.trans hreceives.length.symm) fun j hj hj' => ?_
  rw [hlength] at hj
  obtain ⟨hlt, hparam⟩ := Signature.getElem_declared hj
  obtain ⟨_, hstored⟩ := @Signature.getElem_declared (s.stored (outputRow values)) j (hlength ▸ hj)
  rw [hstored, Signature.stored, Signature.storeFirst_getElem hlt]
  by_cases hdir : s.declared[j].direction = .vIn
  · -- a column would be read for an output
    have hrange : ¬ (s.inCount ≤ j ∧ j < s.inCount + (s.outCount + s.inoutCount)) := by
      rintro ⟨hle, hup⟩
      have houtput := hs.getElem?_outputs horder (show j - s.inCount < _ by omega)
      rw [Nat.add_sub_cancel' hle] at houtput
      obtain ⟨_, hne⟩ := mem_outputs.mp (List.mem_of_getElem? houtput)
      exact hne hdir
    have hinput := hreceives.input j _ (List.getElem?_eq_getElem hj) hdir
    rw [if_neg hrange, ← hparam]
    exact (Option.some.inj ((List.getElem?_eq_getElem hj').symm.trans hinput)).symm
  · obtain ⟨k, hk, houtput⟩ := List.getElem_of_mem (mem_outputs.mpr ⟨hj, hdir⟩)
    have hget := List.getElem?_eq_getElem hk
    rw [houtput] at hget
    rw [hs.length_outputs] at hk
    have hindex : j = s.inCount + k := hs.documentedOrder_iff.mp horder k j hget
    obtain ⟨p, value, x, hp, hvalue, hx, hreceived⟩ := hreceives.output k j hget
    obtain rfl := Option.some.inj ((List.getElem?_eq_getElem hj).symm.trans hp)
    have hcolumn : (outputRow values)[j - s.inCount]? = some value.column := by
      rw [hindex, Nat.add_sub_cancel_left, getElem?_outputRow, hvalue, Option.map_some]
    rw [if_pos ⟨by omega, by omega⟩, hcolumn, Option.elim_some, ← hparam, (store_column hx).2]
    exact (Option.some.inj ((List.getElem?_eq_getElem hj').symm.trans hreceived)).symm

end Stored

end PetsServer

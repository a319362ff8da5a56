import PetsServer.Foundations.Positions
import PetsServer.Sql.Accepted
import PetsServer.Sql.Generated
import PetsServer.Sql.ReadBack

/-!
# The order of the parameters

The `SELECT` reads the variables of the outputs in the order in which they are declared; the loop
that reads them back counts from the number of inputs on. `storesColumns_iff` says for which
signatures every column reaches the parameter that it is read for, with any of the columns null, and
`outputs_stored_iff` what this means for the order of the declarations.
-/

namespace PetsServer

open Foundations

/-- No input is declared after an output. -/
def DocumentedOrder (params : List SqlParam) : Prop := ComesFirst (·.direction = .vIn) params

theorem outputs_eq (params : List SqlParam) :
    outputs params = positionsFrom (·.direction = .vIn) 0 params := rfl

/-- The parameters of the outputs. -/
theorem mem_outputs {params : List SqlParam} {i : ℕ} :
    i ∈ outputs params ↔ ∃ h : i < params.length, params[i].direction ≠ .vIn := by
  rw [outputs_eq, mem_positionsFrom]
  simp only [Nat.zero_add]
  exact ⟨fun ⟨k, hk, hi, hdir⟩ => hi ▸ ⟨hk, hdir⟩, fun ⟨hi, hdir⟩ => ⟨i, hi, rfl, hdir⟩⟩

/-! ## Signatures -/

namespace Signature

variable {s : Signature} {i : ℕ}

theorem getElem_declared (hi : i < s.declared.length) :
    ∃ h : i < maxParamCount, s.declared[i] = s.parameters[i] := by
  rw [length_declared] at hi
  refine ⟨Nat.lt_of_lt_of_le hi s.totalCount_le, ?_⟩
  simp [declared]

/-- An output is a parameter of the array. -/
theorem exists_output (hi : i ∈ outputs s.declared) :
    ∃ h : i < maxParamCount, s.parameters[i] ∈ s.declared ∧ s.parameters[i].direction ≠ .vIn := by
  obtain ⟨hlt, hdir⟩ := mem_outputs.mp hi
  obtain ⟨h, heq⟩ := getElem_declared hlt
  exact ⟨h, heq ▸ List.getElem_mem hlt, heq ▸ hdir⟩

namespace Complete

theorem length_outputs (h : s.Complete) :
    (outputs s.declared).length = s.outCount + s.inoutCount := by
  have hlength := length_positionsFrom (p := fun p : SqlParam => p.direction = .vIn) 0 s.declared
  have hcount := countP_directions s.declared
  have hin := h.inCount
  have hout := h.outCount
  have hinout := h.inoutCount
  rw [outputs_eq]
  omega

/-- The documented order: the outputs come one after another, after the inputs. -/
theorem documentedOrder_iff (h : s.Complete) : DocumentedOrder s.declared ↔
    ∀ k i, (outputs s.declared)[k]? = some i → i = s.inCount + k := by
  unfold DocumentedOrder
  rw [comesFirst_iff 0, ← outputs_eq, Nat.zero_add, ← h.inCount]
  refine ⟨fun heq k i hi => ?_, fun hall => ?_⟩
  · obtain ⟨hk, rfl⟩ := List.getElem?_eq_some_iff.mp hi
    have hrange := List.getElem_of_eq heq hk
    rwa [List.getElem_range', Nat.one_mul] at hrange
  · refine List.ext_getElem (by simp) fun k hk _ => ?_
    rw [List.getElem_range', Nat.one_mul]
    exact hall k _ (List.getElem?_eq_getElem hk)

end Complete

end Signature

/-! ## What is stored -/

/-- The type converts a column: any but null to a number, and any to a string. -/
def FieldType.Stores (type : FieldType) (null : Bool) : Prop :=
  type ≠ .longlong ∧ type ≠ .blob ∧ (null = true → type ≠ .long)

theorem storeFault_eq_none_iff (type : FieldType) (value : Option (List Byte)) :
    type.storeFault value = none ↔ type.Stores value.isNone := by
  unfold FieldType.Stores
  cases type <;> cases value <;> simp [FieldType.storeFault]

/-- The values of two columns can be told apart. -/
theorem store_zero_ne_one {param : SqlParam} (hknown : param.type.Known) :
    param.store (some (ascii "0")) ≠ param.store (some (ascii "1")) := by
  intro heq
  obtain ⟨direction, type, lens, value⟩ := param
  have hvalue := congrArg SqlParam.bindValue heq
  cases type with
  | decimal | errtype => cases hknown
  | long => exact absurd (AnyValue.int.inj hvalue) (by decide)
  | longlong => exact absurd (AnyValue.int64.inj hvalue) (by decide)
  | string => exact absurd (AnyValue.charPtr.inj hvalue) (by decide)
  | blob => exact absurd (AnyValue.voidPtr.inj hvalue) (by decide)

/-- Every row with the nulls is stored: every column that is not null reaches the parameter that it
is read for. -/
def StoresColumns (s : Signature) (nulls : List Bool) : Prop :=
  ∀ row : Row, row.map Option.isNone = nulls → ∃ t, Yields (readOutputs row) s (.ok ⟨⟩) t ∧
    ∀ (k i : ℕ) (text : List Byte), (outputs s.declared)[k]? = some i → row[k]? = some (some text) →
      t.parameters[i]? = s.parameters[i]?.map fun p : SqlParam => p.store (some text)

section StoresColumns

variable {s : Signature} {nulls : List Bool} {row : Row}

theorem outputFault_eq_none_iff {i : ℕ} : s.outputFault row i = none ↔
    ∃ p null, s.parameters[s.inCount + i]? = some p ∧ (row.map Option.isNone)[i]? = some null ∧
      p.type.Stores null := by
  unfold Signature.outputFault
  rw [List.getElem?_map]
  by_cases hi : s.inCount + i < maxParamCount
  · rw [dif_pos hi, Vector.getElem?_eq_getElem hi]
    cases hvalue : row[i]? with
    | none => simp
    | some value => simp [storeFault_eq_none_iff]
  · rw [dif_neg hi, Vector.getElem?_eq_none (Nat.not_lt.mp hi)]
    simp

/-- Columns that agree at the place of a parameter leave the same parameter. -/
theorem stored_congr {row' : Row} {i : ℕ} (h : s.inCount ≤ i → row[i - s.inCount]? =
    row'[i - s.inCount]?) : (s.stored row).parameters[i]? = (s.stored row').parameters[i]? := by
  by_cases hi : i < maxParamCount
  · rw [Vector.getElem?_eq_getElem hi, Vector.getElem?_eq_getElem hi, Signature.stored,
      Signature.stored, Signature.storeFirst_getElem hi, Signature.storeFirst_getElem hi]
    by_cases hin : s.inCount ≤ i
    · rw [h hin]
    · rw [if_neg fun h => hin h.1, if_neg fun h => hin h.1]
  · rw [Vector.getElem?_eq_none (Nat.not_lt.mp hi), Vector.getElem?_eq_none (Nat.not_lt.mp hi)]

/-- A row with the nulls, and zeros. -/
def zeroRow (nulls : List Bool) : Row :=
  nulls.map fun null => if null then none else some (ascii "0")

theorem isNone_zeroRow (nulls : List Bool) : (zeroRow nulls).map Option.isNone = nulls := by
  rw [zeroRow, List.map_map]
  refine (List.map_congr_left fun null _ => ?_).trans (List.map_id nulls)
  cases null <;> rfl

/-- A column that is not null reaches its parameter only at its place. -/
theorem eq_of_storesColumns (hknown : ∀ p ∈ s.declared, p.type.Known)
    (h : StoresColumns s nulls) {k i : ℕ}
    (hi : (outputs s.declared)[k]? = some i) (hnull : nulls[k]? = some false) :
    i = s.inCount + k := by
  by_contra hne
  obtain ⟨hlt, hmem, -⟩ := Signature.exists_output (List.mem_of_getElem? hi)
  have hk := (List.getElem?_eq_some_iff.mp hnull).1
  have hzero : (zeroRow nulls)[k]? = some (some (ascii "0")) := by
    simp [zeroRow, hnull]
  -- the same row with a one in the column
  let row := (zeroRow nulls).set k (some (ascii "1"))
  have hone : row[k]? = some (some (ascii "1")) :=
    List.getElem?_set_self (by simpa [zeroRow] using hk)
  have hnulls : row.map Option.isNone = nulls := by
    rw [List.map_set, isNone_zeroRow, Option.isNone_some,
      ← (List.getElem?_eq_some_iff.mp hnull).2, List.set_getElem_self]
  obtain ⟨t, ht, hstore⟩ := h _ (isNone_zeroRow nulls)
  obtain ⟨u, hu, hstore'⟩ := h _ hnulls
  have hread : ∀ row t, Yields (readOutputs row) s (.ok ⟨⟩) t → t = s.stored row := by
    intro row t ht
    rcases readOutputs_cases s row with ⟨-, hstored⟩ | ⟨_, _, _, _, -, herror⟩
    · exact (ht.unique hstored).2
    · cases (ht.unique herror).1
  obtain rfl := hread _ t ht
  obtain rfl := hread _ u hu
  have heq := hstore k i _ hi hzero
  have heq' := hstore' k i _ hi hone
  have hsame : (s.stored (zeroRow nulls)).parameters[i]? = (s.stored row).parameters[i]? :=
    stored_congr fun hin => (List.getElem?_set_ne (by omega)).symm
  rw [heq, heq', Vector.getElem?_eq_getElem hlt] at hsame
  exact store_zero_ne_one (hknown _ hmem) (Option.some.inj hsame)

/-- **Which signatures read their outputs back.** Every column has a parameter whose type stores it,
and a column that is not null is that of the parameter. -/
theorem storesColumns_iff (hknown : ∀ p ∈ s.declared, p.type.Known)
    (hcount : (outputs s.declared).length ≤ s.outCount + s.inoutCount)
    (hlength : nulls.length = (outputs s.declared).length) :
    StoresColumns s nulls ↔ ∀ k < s.outCount + s.inoutCount, ∃ p null,
      s.parameters[s.inCount + k]? = some p ∧ nulls[k]? = some null ∧ p.type.Stores null ∧
        (null = false → (outputs s.declared)[k]? = some (s.inCount + k)) := by
  refine ⟨fun h k hk => ?_, fun h row hrow => ?_⟩
  · obtain ⟨t, ht, -⟩ := h _ (isNone_zeroRow nulls)
    rcases readOutputs_cases s (zeroRow nulls) with ⟨hnone, -⟩ | ⟨_, _, _, _, -, herror⟩
    swap
    · cases (ht.unique herror).1
    obtain ⟨p, null, hp, hnull, hstores⟩ := outputFault_eq_none_iff.mp (hnone k hk)
    rw [isNone_zeroRow] at hnull
    refine ⟨p, null, hp, hnull, hstores, ?_⟩
    rintro rfl
    have hlt : k < (outputs s.declared).length := hlength ▸ (List.getElem?_eq_some_iff.mp hnull).1
    have hi := List.getElem?_eq_getElem hlt
    rw [← eq_of_storesColumns hknown h hi hnull]
    exact hi
  · have hnone : ∀ k < s.outCount + s.inoutCount, s.outputFault row k = none := by
      intro k hk
      obtain ⟨p, null, hp, hnull, hstores, -⟩ := h k hk
      exact outputFault_eq_none_iff.mpr ⟨p, null, hp, hrow ▸ hnull, hstores⟩
    rcases readOutputs_cases s row with ⟨-, hstored⟩ | ⟨k, hk, fault, _, hfault, -⟩
    swap
    · rw [hnone k hk] at hfault
      cases hfault
    refine ⟨_, hstored, fun k i text hi htext => ?_⟩
    have hk : k < s.outCount + s.inoutCount :=
      Nat.lt_of_lt_of_le (List.getElem?_eq_some_iff.mp hi).1 hcount
    obtain ⟨p, null, hp, hnull, -, hplace⟩ := h k hk
    have hfalse : null = false := by
      rw [← hrow, List.getElem?_map, htext] at hnull
      exact (Option.some.inj hnull).symm
    obtain rfl : i = s.inCount + k := Option.some.inj (hi.symm.trans (hplace hfalse))
    have hlt : s.inCount + k < maxParamCount := (Vector.getElem?_eq_some_iff.mp hp).1
    rw [Vector.getElem?_eq_getElem hlt, Vector.getElem?_eq_getElem hlt, Signature.stored,
      Signature.storeFirst_getElem hlt, if_pos (by omega), Nat.add_sub_cancel_left, htext]
    rfl

end StoresColumns

/-! ## The order -/

section Order

variable {s : Signature}

/-- The variables of the `SELECT` are the outputs, in their order. -/
theorem readSelectText_strSelect {garbage : ℕ → List Byte} {strProc b b' : List Byte} {t : Texts}
    {params : List SqlParam} (hknown : ∀ p ∈ params, p.type.Known)
    (hsize : b.length = prepareBufferSize)
    (h : Yields (buildTexts garbage strProc params) b (.ok (some t)) b') (hne : t.strSelect ≠ []) :
    readSelectText t.strSelect = some (outputs params) := by
  have hselect : t.strSelect = selectTextFrom [] 0 params := by
    rcases buildTexts_cases hknown hsize h with ⟨-, -, ht, -⟩ | ⟨fault, ht, -⟩
    · rw [Option.some.inj (Except.ok.inj ht)]
    · cases ht
  rw [hselect] at hne ⊢
  have houtputs : outputs params ≠ [] := (selectTextFrom_eq_nil_iff params).not.mp hne
  rw [selectTextFrom_eq, if_neg houtputs]
  exact readSelectText_selectText houtputs

/-- Rows without nulls. -/
def noNulls (s : Signature) : List Bool := List.replicate (outputs s.declared).length false

theorem Signature.Complete.storesColumns_noNulls_iff (h : s.Complete) :
    StoresColumns s (noNulls s) ↔ ∀ k < s.outCount + s.inoutCount, ∃ p,
      s.parameters[s.inCount + k]? = some p ∧ p.type ≠ .longlong ∧ p.type ≠ .blob ∧
        (outputs s.declared)[k]? = some (s.inCount + k) := by
  have hlength : (noNulls s).length = (outputs s.declared).length := List.length_replicate
  rw [storesColumns_iff h.types h.length_outputs.le hlength]
  refine forall₂_congr fun k hk => ?_
  have hnull : (noNulls s)[k]? = some false := by
    rw [← h.length_outputs] at hk
    simp [noNulls, hk]
  simp only [hnull, Option.some.injEq, FieldType.Stores]
  refine exists_congr fun p => ⟨?_, ?_⟩
  · rintro ⟨null, hp, rfl, ⟨hbigint, hblob, -⟩, hplace⟩
    exact ⟨hp, hbigint, hblob, hplace rfl⟩
  · rintro ⟨hp, hbigint, hblob, hplace⟩
    exact ⟨false, hp, rfl, ⟨hbigint, hblob, nofun⟩, fun _ => hplace⟩

/-- **The order and the outputs.** The variables of the `SELECT` are the outputs; and that every row
without nulls is stored in the right parameters exactly if no input is declared after an output
holds if and only if an input is declared after an output, or no output is a `BIGINT` or a `BLOB`.
-/
theorem outputs_stored_iff (h : s.Complete) :
    (∀ garbage strProc b t b', b.length = prepareBufferSize →
      Yields (buildTexts garbage strProc s.declared) b (.ok (some t)) b' → t.strSelect ≠ [] →
        readSelectText t.strSelect = some (outputs s.declared)) ∧
    ((StoresColumns s (noNulls s) ↔ DocumentedOrder s.declared) ↔
      (DocumentedOrder s.declared → ∀ p ∈ s.declared, p.direction ≠ .vIn →
        p.type ≠ .longlong ∧ p.type ≠ .blob)) := by
  refine ⟨fun garbage strProc b t b' hsize hbuild =>
    readSelectText_strSelect h.types hsize hbuild, ?_⟩
  have hstores := h.storesColumns_noNulls_iff
  have horder : StoresColumns s (noNulls s) → DocumentedOrder s.declared := by
    rw [hstores, h.documentedOrder_iff]
    intro hall k i hi
    have hk : k < s.outCount + s.inoutCount :=
      h.length_outputs ▸ (List.getElem?_eq_some_iff.mp hi).1
    obtain ⟨p, -, -, -, hplace⟩ := hall k hk
    exact Option.some.inj (hi.symm.trans hplace)
  have htypes (hdoc : DocumentedOrder s.declared) : StoresColumns s (noNulls s) ↔
      ∀ p ∈ s.declared, p.direction ≠ .vIn → p.type ≠ .longlong ∧ p.type ≠ .blob := by
    rw [h.documentedOrder_iff] at hdoc
    rw [hstores]
    refine ⟨fun hall p hp hdir => ?_, fun hall k hk => ?_⟩
    · obtain ⟨i, hi, rfl⟩ := List.getElem_of_mem hp
      obtain ⟨k, hk⟩ := List.getElem?_of_mem (mem_outputs.mpr ⟨hi, hdir⟩)
      obtain ⟨hlt, heq⟩ := Signature.getElem_declared hi
      obtain rfl := hdoc k i hk
      obtain ⟨q, hq, hbigint, hblob, -⟩ :=
        hall k (h.length_outputs ▸ (List.getElem?_eq_some_iff.mp hk).1)
      obtain rfl : s.declared[s.inCount + k] = q := by
        rw [heq]
        exact Option.some.inj ((Vector.getElem?_eq_getElem hlt).symm.trans hq)
      exact ⟨hbigint, hblob⟩
    · have hk' := List.getElem?_eq_getElem (h.length_outputs.symm ▸ hk)
      have hi := hdoc k _ hk'
      obtain ⟨hlt, hmem, hdir⟩ := Signature.exists_output (List.mem_of_getElem? hk')
      obtain ⟨hbigint, hblob⟩ := hall _ hmem hdir
      refine ⟨_, ?_, hbigint, hblob, hi ▸ hk'⟩
      rw [← hi]
      exact Vector.getElem?_eq_getElem hlt
  refine ⟨fun hiff hdoc => (htypes hdoc).mp (hiff.mpr hdoc), fun hall => ⟨horder, fun hdoc => ?_⟩⟩
  exact (htypes hdoc).mpr (hall hdoc)

/-- `in a int, out b int` -/
def Signature.inOut : Signature where
  totalCount := 2
  inCount := 1
  outCount := 1
  inoutCount := 0
  parameters := #v[⟨.vIn, .long, 0, .empty⟩, ⟨.vOut, .long, 0, .empty⟩, .zero, .zero, .zero, .zero,
    .zero, .zero, .zero, .zero]
  totalCount_le := by decide

theorem outputs_stored_iff_inOut : StoresColumns Signature.inOut (noNulls Signature.inOut) := by
  have hlists : Signature.inOut.Lists [⟨.vIn, .long, 0, .empty⟩, ⟨.vOut, .long, 0, .empty⟩] [] :=
    ⟨rfl, rfl, rfl, rfl, rfl⟩
  have hcomplete : Signature.inOut.Complete := hlists.complete (by simp [FieldType.Known])
  have horder : DocumentedOrder Signature.inOut.declared := by
    rw [hlists.declared]
    simp [DocumentedOrder, ComesFirst]
  refine ((outputs_stored_iff hcomplete).2.mpr fun _ p hp _ => ?_).mpr horder
  rw [hlists.declared] at hp
  rcases List.mem_pair.mp hp with rfl | rfl <;> exact ⟨nofun, nofun⟩

/-- For `out a bigint` the order is as it should be, and no row is stored. -/
theorem bigint_not_stored : (Signature.single .vOut .longlong 0).Complete ∧
    DocumentedOrder (Signature.single .vOut .longlong 0).declared ∧
    ¬ StoresColumns (Signature.single .vOut .longlong 0)
      (noNulls (Signature.single .vOut .longlong 0)) := by
  have horder : DocumentedOrder (Signature.single .vOut .longlong 0).declared := by
    rw [Signature.declared_single]
    exact List.pairwise_singleton _ _
  refine ⟨@Signature.complete_single .vOut .longlong trivial 0, horder, fun h => ?_⟩
  obtain ⟨t, ht, -⟩ := h [some (ascii "7")] rfl
  have herror : Yields (readOutputs [some (ascii "7")]) (Signature.single .vOut .longlong 0)
      (.error .badAnyCast) (Signature.single .vOut .longlong 0) := rfl
  cases (ht.unique herror).1

end Order

end PetsServer

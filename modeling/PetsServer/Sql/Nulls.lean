import PetsServer.Sql.Binding
import PetsServer.Sql.OutputOrder

/-!
# Null outputs

A column of the row that the `SELECT` returns can be null. `nulls_handled_iff` says for which
signatures and nulls the loop that reads the outputs back reads no string through a null pointer,
and still stores the other columns.
-/

namespace PetsServer

open Foundations

/-- What is done with the string of a column. -/
inductive StringRead
  /-- It is written to the log. -/
  | log
  /-- It is converted to a number. -/
  | convert
  deriving DecidableEq, Repr

/-- The reads of the string in `SqlValueToAny`. `logging` is `__UNUSEFUL__`. -/
def stringReads (logging : Bool) (type : FieldType) : List StringRead :=
  (if logging then [.log] else []) ++
    match type with
    | .long | .longlong => [.convert]
    | .string | .blob | .decimal | .errtype => []

theorem stringReads_eq_nil_iff (logging : Bool) (type : FieldType) :
    stringReads logging type = [] ↔ logging = false ∧ type ≠ .long ∧ type ≠ .longlong := by
  cases logging <;> cases type <;> simp [stringReads]

/-! ## The outputs of a signature -/

section Outputs

variable {s : Signature}

theorem outputs_bindParams (params : List SqlParam) (values : List AnyValue) :
    outputs (bindParams params values) = outputs params := by
  have hmap := map_bindParams (f := SqlParam.direction) params values fun _ _ => rfl
  rw [outputs_eq, outputs_eq, ← positionsFrom_map (p := (· = Direction.vIn)), hmap,
    positionsFrom_map]

theorem Signature.getElem?_bind_of_eq (s : Signature) {values : List AnyValue} {j : ℕ}
    {p : SqlParam} (h : s.parameters[j]? = some p) :
    (s.bind values).parameters[j]? = some { p with bindValue := values[j]?.getD p.bindValue } := by
  simp [bind, Vector.getElem?_mapIdx, h]

theorem Signature.exists_of_bind (s : Signature) {values : List AnyValue} {j : ℕ} {p : SqlParam}
    (h : (s.bind values).parameters[j]? = some p) :
    ∃ q, s.parameters[j]? = some q ∧ { q with bindValue := values[j]?.getD q.bindValue } = p := by
  simpa [bind, Vector.getElem?_mapIdx] using h

theorem Signature.Lists.length_outputs_le {params begun : List SqlParam}
    (h : s.Lists params begun) : (outputs s.declared).length ≤ s.outCount + s.inoutCount := by
  have hlength := length_positionsFrom (p := fun p : SqlParam => p.direction = .vIn) 0 params
  have hcount := countP_directions params
  rw [h.declared, outputs_eq, h.outCount, h.inoutCount, List.countP_append, List.countP_append]
  omega

end Outputs

/-! ## Nulls -/

/-- In every row with the nulls, no string is read through a null pointer, and the columns that are
not null are stored. -/
structure HandlesNulls (logging : Bool) (s : Signature) (nulls : List Bool) : Prop where
  quiet : ∀ k < s.outCount + s.inoutCount, nulls[k]? = some true →
    ∀ p, s.parameters[s.inCount + k]? = some p → stringReads logging p.type = []
  stores : StoresColumns s nulls

/-- **Which nulls are handled.** The signature is one that `Prepare` accepts, with any values, and
the row has a column for each output. -/
theorem nulls_handled_iff {s : Signature} (hs : s.IsAccepted) (values : List AnyValue)
    {nulls : List Bool} (hlength : nulls.length = (outputs s.declared).length) (logging : Bool) :
    HandlesNulls logging (s.bind values) nulls ↔
      ∀ k < s.outCount + s.inoutCount, ∃ p null,
        s.parameters[s.inCount + k]? = some p ∧ nulls[k]? = some null ∧
        p.type ≠ .longlong ∧ p.type ≠ .blob ∧ (null = true → logging = false ∧ p.type ≠ .long) ∧
        (null = false → (outputs s.declared)[k]? = some (s.inCount + k)) := by
  obtain ⟨params, begun, hlists, htypes⟩ := hs.lists
  have hknown : ∀ p ∈ (s.bind values).declared, p.type.Known := by
    rw [s.declared_bind]
    exact known_bindParams (hlists.declared ▸ htypes) values
  have houtputs : outputs (s.bind values).declared = outputs s.declared := by
    rw [s.declared_bind, outputs_bindParams]
  have hstores := storesColumns_iff hknown (houtputs ▸ hlists.length_outputs_le)
    (hlength.trans (by rw [houtputs]))
  rw [houtputs] at hstores
  refine ⟨fun h k hk => ?_, fun h => ⟨fun k hk hnull p hp => ?_, hstores.mpr fun k hk => ?_⟩⟩
  · obtain ⟨p, null, hp, hnull, ⟨hbigint, hblob, -⟩, hplace⟩ := hstores.mp h.stores k hk
    have hquiet := h.quiet k hk
    change (s.bind values).parameters[s.inCount + k]? = some p at hp
    obtain ⟨q, hq, rfl⟩ := s.exists_of_bind hp
    refine ⟨q, null, hq, hnull, hbigint, hblob, ?_, hplace⟩
    rintro rfl
    obtain ⟨hlogging, hlong, -⟩ := (stringReads_eq_nil_iff _ _).mp (hquiet hnull _ hp)
    exact ⟨hlogging, hlong⟩
  · obtain ⟨q, null, hq, hnull', hbigint, -, hlong, -⟩ := h k hk
    obtain rfl : null = true := Option.some.inj (hnull'.symm.trans hnull)
    obtain ⟨q', hq', rfl⟩ := s.exists_of_bind hp
    obtain rfl : q' = q := Option.some.inj (hq'.symm.trans hq)
    exact (stringReads_eq_nil_iff _ _).mpr ⟨(hlong rfl).1, (hlong rfl).2, hbigint⟩
  · obtain ⟨q, null, hq, hnull, hbigint, hblob, hlong, hplace⟩ := h k hk
    refine ⟨_, null, s.getElem?_bind_of_eq hq, hnull, ⟨hbigint, hblob, fun hnull => ?_⟩, hplace⟩
    exact (hlong hnull).2

theorem nulls_handled_iff_string :
    HandlesNulls false ((Signature.single .vOut .string 0).bind []) [true] := by
  refine (nulls_handled_iff (@Signature.Lists.isAccepted _ (ascii "out a char")
    (Signature.lists_single .vOut .string 0) (by decide) rfl) [] rfl false).mpr fun k hk => ?_
  obtain rfl : k = 0 := Nat.lt_one_iff.mp hk
  exact ⟨⟨.vOut, .string, 0, .empty⟩, true, rfl, rfl, nofun, nofun, fun _ => ⟨rfl, nofun⟩, nofun⟩

/-- A null for `out a int` is converted. -/
theorem null_converted : (Signature.single .vOut .long 0).IsAccepted ∧
    ∀ logging, ¬ HandlesNulls logging ((Signature.single .vOut .long 0).bind []) [true] := by
  refine ⟨@Signature.Lists.isAccepted _ (ascii "out a int")
    (Signature.lists_single .vOut .long 0) (by decide) rfl, fun logging h => ?_⟩
  obtain ⟨t, ht, -⟩ := h.stores [none] rfl
  rw [Signature.bind_nil] at ht
  have herror : Yields (readOutputs [none]) (Signature.single .vOut .long 0) (.error .nullPointer)
      (Signature.single .vOut .long 0) := rfl
  cases (ht.unique herror).1

end PetsServer

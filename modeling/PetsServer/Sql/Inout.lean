import PetsServer.Sql.Binding
import PetsServer.Sql.Generated
import PetsServer.Sql.Written

/-!
# Parameters that are passed in and out

The `SET` should give the variable of an `INOUT` parameter the value that the parameter is bound to,
as the `CALL` does for an input. `inouts_never_initialised` says that it never does: the text of a
number or a string is passed to `sprintf` as an object, so that anything can be printed in its
place, and for a blob the name of the variable is missing.
-/

namespace PetsServer

open Foundations

/-! ## Lists of assignments -/

/-- The text of the value of a parameter. -/
def SqlParam.literal (param : SqlParam) : List Byte :=
  if param.type = .blob then ascii "0x" ++ param.blobBytes.flatMap hexByte else param.valueText

/-- The texts that stand for values: null, hexadecimal and decimal numerals, and strings. -/
inductive IsLiteral : List Byte → Prop
  | null : IsLiteral (ascii "null")
  | hex (data : List Byte) : IsLiteral (ascii "0x" ++ data.flatMap hexByte)
  | number (z : ℤ) : IsLiteral (decimal z)
  | string (s : List Byte) : IsLiteral (ascii "'" ++ s ++ ascii "'")

/-- The text of an assignment of a value to a user variable, after blanks. -/
def IsAssignment (piece : List Byte) (a : ℕ × List Byte) : Prop :=
  IsLiteral a.2 ∧ piece.dropWhile (· = 32) = userVariable a.1 ++ ascii " = " ++ a.2

/-- The text of a `SET` that makes the assignments, each of them with its piece of the text. -/
def IsSetText (text : List Byte) (as : List (List Byte × ℕ × List Byte)) : Prop :=
  text = ascii "set" ++ (ascii ",").intercalate (as.map Prod.fst) ∧ ∀ a ∈ as, IsAssignment a.1 a.2

/-- `Execute` builds a `SET` that is a list of assignments, with exactly one for each `INOUT`
parameter, whose value is that of the parameter. -/
def InoutsInitialised (garbage : ℕ → List Byte) (strProc : List Byte) (params : List SqlParam) :
    Prop :=
  ∃ t b, Yields (buildTexts garbage strProc params) (List.replicate prepareBufferSize 0)
      (.ok (some t)) b ∧
    ∃ as, IsSetText (b.take t.prepareIdx) as ∧
      ∀ (i : ℕ) (hi : i < params.length), params[i].direction = .vInout →
        (as.map Prod.snd).filter (·.1 = i) = [(i, params[i].literal)]

/-! ## The pieces that are written -/

/-- The pieces of the `SET`. -/
def setPieces (garbage : ℕ → List Byte) (params : List SqlParam) : List (List Byte) :=
  params.zipIdx.filterMap fun p => p.1.piece (garbage p.2) p.2

section Pieces

variable {garbage : ℕ → List Byte} {params : List SqlParam} {piece : List Byte}

theorem writtenFrom_eq_foldl (text : List Byte) (i : ℕ) :
    writtenFrom garbage text i params = ((params.zipIdx i).filterMap fun p =>
      p.1.piece (garbage p.2) p.2).foldl (joinPiece (ascii "set") (ascii ",")) text :=
  @eq_foldl_joinPiece _ _ _ _ (fun param i => param.piece (garbage i) i) (writtenFrom garbage)
    (fun _ _ => rfl) (fun _ _ _ _ => rfl) text i params

theorem writtenFrom_eq (hne : setPieces garbage params ≠ []) :
    writtenFrom garbage [] 0 params =
      ascii "set" ++ (ascii ",").intercalate (setPieces garbage params) := by
  rw [writtenFrom_eq_foldl]
  change (setPieces garbage params).foldl _ [] = _
  cases h : setPieces garbage params with
  | nil => exact absurd h hne
  | cons piece pieces => exact foldl_joinPiece _ (by decide) piece pieces

theorem mem_setPieces : piece ∈ setPieces garbage params ↔
    ∃ (i : ℕ) (hi : i < params.length), params[i].piece (garbage i) i = some piece := by
  rw [setPieces, List.mem_filterMap]
  refine ⟨fun ⟨⟨param, i⟩, hmem, hpiece⟩ => ?_, fun ⟨i, hi, hpiece⟩ => ⟨(params[i], i), ?_, hpiece⟩⟩
  · obtain ⟨hi, heq⟩ := List.mem_zipIdx' hmem
    exact ⟨i, hi, heq ▸ hpiece⟩
  · rw [List.mk_mem_zipIdx_iff_getElem?, List.getElem?_eq_getElem hi]

end Pieces

section Bytes

/-- A hexadecimal digit is no at sign and no comma. -/
theorem hexDigit_ne {n : ℕ} (h : n < 16) : hexDigit n ≠ 64 ∧ hexDigit n ≠ 44 := by
  interval_cases n <;> decide

theorem ne_of_mem_flatMap_hexByte {data : List Byte} {c : Byte} (h : c ∈ data.flatMap hexByte) :
    c ≠ 64 ∧ c ≠ 44 := by
  obtain ⟨b, -, hc⟩ := List.mem_flatMap.mp h
  have hb := b.toNat_lt
  simp only [hexByte, List.mem_cons, List.not_mem_nil, or_false] at hc
  rcases hc with rfl | rfl
  · exact hexDigit_ne (by omega)
  · exact hexDigit_ne (by omega)

theorem comma_notMem_userVariable (i : ℕ) : 44 ∉ userVariable i := by
  intro h
  rcases List.mem_append.mp h with h | h
  · exact absurd h (by decide)
  · exact (isDigit_of_mem_digits h).ne (by decide) rfl

/-- Blanks and the text up to a comma are cut off in either order. -/
theorem dropWhile_takeWhile (l : List Byte) :
    (l.takeWhile fun c => decide (c ≠ 44)).dropWhile (· = 32) =
      (l.dropWhile (· = 32)).takeWhile fun c => decide (c ≠ 44) := by
  induction l with
  | nil => rfl
  | cons c l ih =>
    by_cases hblank : c = 32
    · subst hblank
      simpa using ih
    · by_cases hcomma : c = 44
      · simp [hcomma]
      · simp [hblank, hcomma]

end Bytes

/-- What is written in the place of the numbers and strings of `INOUT` parameters is empty. -/
def PrintsNothing (garbage : ℕ → List Byte) (params : List SqlParam) : Prop :=
  ∀ (i : ℕ) (hi : i < params.length), params[i].direction = .vInout → params[i].type ≠ .blob →
    cString (garbage i) = []

section Piece

variable {garbage : List Byte} {i : ℕ} {param : SqlParam} {piece : List Byte}

/-- Then a piece has no comma. -/
theorem comma_notMem_piece
    (hgarbage : param.direction = .vInout → param.type ≠ .blob → cString garbage = [])
    (h : param.piece garbage i = some piece) : 44 ∉ piece := by
  have hname := comma_notMem_userVariable i
  have hhex : 44 ∉ param.blobBytes.flatMap hexByte := fun h => (ne_of_mem_flatMap_hexByte h).2 rfl
  have hset : 44 ∉ ascii " = 0x" := by decide
  have hnull : 44 ∉ ascii " = null" := by decide
  have hequal : 44 ∉ ascii " = " := by decide
  have hblank : 44 ∉ ascii " " := by decide
  unfold SqlParam.piece at h
  cases hdirection : param.direction with
  | vIn =>
    simp only [hdirection] at h
    split at h
    · obtain rfl := Option.some.inj h
      simp only [List.mem_append, not_or]
      exact ⟨⟨hname, hset⟩, hhex⟩
    · cases h
  | vOut =>
    simp only [hdirection, Option.some.injEq] at h
    subst h
    simp only [List.mem_append, not_or]
    exact ⟨⟨hblank, hname⟩, hnull⟩
  | vInout =>
    simp only [hdirection] at h
    split at h
    · obtain rfl := Option.some.inj h
      exact hhex
    rename_i htype
    rw [hgarbage hdirection htype, List.append_nil] at h
    split at h
    · obtain rfl := Option.some.inj h
      exact List.not_mem_nil
    · obtain rfl := Option.some.inj h
      simp only [List.mem_append, not_or]
      exact ⟨⟨hblank, hname⟩, hequal⟩

/-- A piece that assigns a value to the variable of a parameter is that of an input or an output. -/
theorem direction_of_assigns {value : List Byte} {j : ℕ}
    (hgarbage : param.direction = .vInout → param.type ≠ .blob → cString garbage = [])
    (h : param.piece garbage i = some piece) (hvalue : value ≠ [])
    (hassigns : piece.dropWhile (· = 32) = userVariable j ++ ascii " = " ++ value) :
    i = j ∧ param.direction ≠ .vInout := by
  have hread (j : ℕ) (value : List Byte) :
      readVariable (userVariable j ++ ascii " = " ++ value) = some (j, ascii " = " ++ value) := by
    rw [List.append_assoc]
    exact readVariable_userVariable j (by simp [ascii, charByte, IsDigit])
  -- the variable of the piece is that of the parameter
  have hvariable {rest : List Byte}
      (hpiece : piece.dropWhile (· = 32) = userVariable i ++ ascii " = " ++ rest) :
      i = j ∧ rest = value := by
    have hsame := congrArg readVariable (hpiece.symm.trans hassigns)
    rw [hread i rest, hread j value] at hsame
    simpa using hsame
  have hat : 64 ∈ piece := (List.dropWhile_suffix _).subset (hassigns ▸ by
    simp [userVariable, ascii, charByte] : (64 : Byte) ∈ piece.dropWhile (· = 32))
  unfold SqlParam.piece at h
  cases hdirection : param.direction with
  | vIn =>
    simp only [hdirection] at h
    split at h
    · obtain rfl := Option.some.inj h
      have hpiece : (userVariable i ++ ascii " = 0x" ++
          param.blobBytes.flatMap hexByte).dropWhile (· = 32) =
          userVariable i ++ ascii " = " ++ (ascii "0x" ++ param.blobBytes.flatMap hexByte) := by
        simp [userVariable, ascii, charByte]
      exact ⟨(hvariable hpiece).1, nofun⟩
    · cases h
  | vOut =>
    simp only [hdirection, Option.some.injEq] at h
    subst h
    have hpiece : (ascii " " ++ userVariable i ++ ascii " = null").dropWhile (· = 32) =
        userVariable i ++ ascii " = " ++ ascii "null" := by
      simp [userVariable, ascii, charByte]
    exact ⟨(hvariable hpiece).1, nofun⟩
  | vInout =>
    simp only [hdirection] at h
    split at h
    · obtain rfl := Option.some.inj h
      exact absurd rfl (ne_of_mem_flatMap_hexByte hat).1
    rename_i htype
    rw [hgarbage hdirection htype] at h
    split at h
    · obtain rfl := Option.some.inj h
      cases hat
    · obtain rfl := Option.some.inj h
      have hpiece : (ascii " " ++ userVariable i ++ ascii " = " ++ []).dropWhile (· = 32) =
          userVariable i ++ ascii " = " ++ [] := by
        simp [userVariable, ascii, charByte]
      exact absurd (hvariable hpiece).2.symm hvalue

/-- The text of a value does not start with a comma. -/
theorem takeWhile_literal_ne_nil (hknown : param.type.Known) (h : param.valueFault = none) :
    param.literal.takeWhile (fun c => decide (c ≠ 44)) ≠ [] := by
  by_cases htype : param.type = .blob
  · rw [SqlParam.literal, if_pos htype]
    exact nofun
  rw [SqlParam.literal, if_neg htype]
  obtain ⟨direction, type, lens, value⟩ := param
  have hdecimal (z : ℤ) : (decimal z).takeWhile (fun c => decide (c ≠ 44)) ≠ [] := by
    rw [List.takeWhile_eq_self_iff.mpr fun c hc => ?_]
    · exact decimal_ne_nil z
    · rcases mem_decimal hc with rfl | hdigit
      · rfl
      · exact decide_eq_true (hdigit.ne (by decide))
  cases type with
  | blob => exact absurd rfl htype
  | decimal | errtype => cases hknown
  | long =>
    cases value with
    | int n => exact hdecimal _
    | empty | int64 | charPtr | voidPtr | other => cases h
  | longlong =>
    cases value with
    | int64 n => exact hdecimal _
    | empty | int | charPtr | voidPtr | other => cases h
  | string =>
    cases value with
    | charPtr s =>
      cases s with
      | none => cases h
      | some s => exact nofun
    | empty | int | int64 | voidPtr | other => cases h

end Piece

/-! ## What is missing -/

/-- The part of an assignment before a comma assigns the part of the value before it. -/
theorem IsAssignment.before_comma {piece : List Byte} {a : ℕ × List Byte}
    (h : IsAssignment piece a) :
    (piece.takeWhile fun c => decide (c ≠ 44)).dropWhile (· = 32) =
      userVariable a.1 ++ ascii " = " ++ a.2.takeWhile fun c => decide (c ≠ 44) := by
  rw [dropWhile_takeWhile, h.2, List.takeWhile_append_of_pos]
  intro c hc
  refine decide_eq_true fun hcomma => ?_
  subst hcomma
  rcases List.mem_append.mp hc with hc | hc
  · exact comma_notMem_userVariable a.1 hc
  · exact absurd hc (by decide)

section Missing

variable {garbage : ℕ → List Byte} {params : List SqlParam}

theorem setPieces_ne_nil (hinout : ∃ param ∈ params, param.direction = .vInout) :
    setPieces garbage params ≠ [] := by
  obtain ⟨param, hparam, hdirection⟩ := hinout
  obtain ⟨i, hi, rfl⟩ := List.getElem_of_mem hparam
  obtain ⟨piece, hpiece⟩ : ∃ piece, params[i].piece (garbage i) i = some piece := by
    unfold SqlParam.piece
    simp only [hdirection]
    split_ifs <;> exact ⟨_, rfl⟩
  exact List.ne_nil_of_mem (mem_setPieces.mpr ⟨i, hi, hpiece⟩)

/-- However the text of the `SET` is cut into assignments, what comes before a comma in one of them
is a piece. -/
theorem takeWhile_mem_setPieces (hgarbage : PrintsNothing garbage params)
    (hne : setPieces garbage params ≠ []) {as : List (List Byte × ℕ × List Byte)}
    (h : IsSetText (writtenFrom garbage [] 0 params) as) {a : List Byte × ℕ × List Byte}
    (ha : a ∈ as) : a.1.takeWhile (fun c => decide (c ≠ 44)) ∈ setPieces garbage params := by
  have hpieces : ∀ piece ∈ setPieces garbage params, 44 ∉ piece := by
    intro piece hpiece
    obtain ⟨j, hj, hpiece⟩ := mem_setPieces.mp hpiece
    exact comma_notMem_piece (hgarbage j hj) hpiece
  have hpart := mem_splitOn_intercalate (List.mem_map_of_mem (f := Prod.fst) ha)
    (takeWhile_mem_splitOn 44 a.1)
  have htext := h.1
  rw [writtenFrom_eq hne] at htext
  have hjoin : [44].intercalate (as.map Prod.fst) = [44].intercalate (setPieces garbage params) :=
    (List.append_cancel_left htext).symm
  rwa [hjoin, List.splitOn_intercalate 44 hpieces hne] at hpart

/-- When nothing is printed for numbers and strings, no `INOUT` parameter has its assignment. -/
theorem not_inoutsInitialised (hknown : ∀ param ∈ params, param.type.Known)
    (hinout : ∃ param ∈ params, param.direction = .vInout)
    (hgarbage : PrintsNothing garbage params) (strProc : List Byte) :
    ¬ InoutsInitialised garbage strProc params := by
  rintro ⟨t, b, hbuild, as, hset, hall⟩
  have hne : setPieces garbage params ≠ [] := setPieces_ne_nil hinout
  obtain ⟨param, hparam, hdirection⟩ := hinout
  obtain ⟨i, hi, rfl⟩ := List.getElem_of_mem hparam
  rcases buildTexts_cases hknown List.length_replicate hbuild with
    ⟨hvalues, -, ht, -, hprefix⟩ | ⟨fault, ht, -⟩
  swap
  · cases ht
  obtain rfl := Option.some.inj (Except.ok.inj ht)
  rw [← List.prefix_iff_eq_take.mp hprefix] at hset
  have hmem : (i, params[i].literal) ∈ (as.map Prod.snd).filter (·.1 = i) := by
    rw [hall i hi hdirection]
    exact List.mem_singleton_self _
  obtain ⟨a, ha, hvalue⟩ := List.mem_map.mp (List.mem_filter.mp hmem).1
  obtain ⟨j, hj, hpiece⟩ := mem_setPieces.mp (takeWhile_mem_setPieces hgarbage hne hset ha)
  have hfault : params[i].valueFault = none := by
    have hnone := List.findSome?_eq_none_iff.mp hvalues params[i] hparam
    rwa [SqlParam.fault, hdirection, if_neg (by decide)] at hnone
  have hassigns := (hset.2 a ha).before_comma
  rw [hvalue] at hassigns
  obtain ⟨rfl, hother⟩ := direction_of_assigns (hgarbage j hj) hpiece
    (takeWhile_literal_ne_nil (hknown _ hparam) hfault) hassigns
  exact hother hdirection

end Missing

/-- **The `INOUT` parameters are never initialised**: for any signature with an `INOUT` parameter
that `Prepare` accepts and any values, not for everything that `sprintf` can print for an object. -/
theorem inouts_never_initialised {s : Signature} (hs : s.IsAccepted)
    (hinout : ∃ param ∈ s.declared, param.direction = .vInout) (values : List AnyValue)
    (strProc : List Byte) :
    ¬ ∀ garbage, InoutsInitialised garbage strProc (s.bind values).declared := by
  obtain ⟨params, begun, hlists, htypes⟩ := hs.lists
  obtain ⟨param, hparam, hdirection⟩ := hinout
  have hknown : ∀ p ∈ (s.bind values).declared, p.type.Known := by
    rw [s.declared_bind, hlists.declared]
    exact known_bindParams htypes values
  have hinout' : ∃ p ∈ (s.bind values).declared, p.direction = .vInout := by
    have hmap := map_bindParams (f := SqlParam.direction) s.declared values fun _ _ => rfl
    have hmem : Direction.vInout ∈ (bindParams s.declared values).map SqlParam.direction := by
      rw [hmap, ← hdirection]
      exact List.mem_map_of_mem hparam
    rw [s.declared_bind]
    obtain ⟨p, hp, hdir⟩ := List.mem_map.mp hmem
    exact ⟨p, hp, hdir⟩
  exact fun h => not_inoutsInitialised hknown hinout' (fun _ _ _ _ => rfl) strProc (h fun _ => [])

theorem inouts_never_initialised_int :
    ¬ ∀ garbage, InoutsInitialised garbage (ascii "f")
      ((Signature.single .vInout .long 0).bind [.int 7]).declared :=
  inouts_never_initialised (@Signature.Lists.isAccepted _ (ascii "inout a int")
    (Signature.lists_single .vInout .long 0) (by decide) rfl) ⟨_, List.mem_cons_self, rfl⟩ _ _

/-- For `inout a blob(1)` the name of the variable is missing, whatever is printed for an object. -/
theorem blob_not_initialised : (Signature.single .vInout .blob 1).IsAccepted ∧ ∀ garbage,
    ¬ InoutsInitialised garbage (ascii "f")
      ((Signature.single .vInout .blob 1).bind [.voidPtr [255]]).declared := by
  have hdeclared : ((Signature.single .vInout .blob 1).bind [.voidPtr [255]]).declared =
      [⟨.vInout, .blob, 1, .voidPtr [255]⟩] := rfl
  refine ⟨@Signature.Lists.isAccepted _ (ascii "inout a blob(1)")
    (Signature.lists_single .vInout .blob 1) (by decide) rfl, fun garbage => ?_⟩
  rw [hdeclared]
  refine not_inoutsInitialised (by simp [FieldType.Known]) ⟨_, List.mem_cons_self, rfl⟩ ?_ _
  intro i hi _ htype
  obtain rfl : i = 0 := Nat.lt_one_iff.mp hi
  exact absurd rfl htype

end PetsServer

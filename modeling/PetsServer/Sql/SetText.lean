import PetsServer.Sql.Procedure
import PetsServer.Sql.Written

/-!
# The text of the SET

For numbers and blobs that are passed in and for parameters that are passed out, the text that
`Execute` writes to `PrepareBuffer` is a list of assignments. `exists_buildTexts` says that it is
built, as long as it fits, and `setTextFrom_eq` and `selectTextFrom_eq` what the texts are as a
whole.
-/

namespace PetsServer

open Foundations

/-! ## One parameter -/

/-- The parameters with which `Execute` works as intended: numbers and blobs that are passed in,
with values of the right type, and parameters that are passed out. -/
inductive SqlParam.Supported : SqlParam → Prop
  | int (lens : ℕ) (n : Int32) : Supported ⟨.vIn, .long, lens, .int n⟩
  | bigint (lens : ℕ) (n : Int64) : Supported ⟨.vIn, .longlong, lens, .int64 n⟩
  | blob (lens : ℕ) (block : List Byte) (hpos : 1 ≤ lens) (hblock : lens ≤ block.length) :
    Supported ⟨.vIn, .blob, lens, .voidPtr block⟩
  | out (type : FieldType) (lens : ℕ) (value : AnyValue) : Supported ⟨.vOut, type, lens, value⟩

/-- The parameters with which a procedure can be called: those that are supported, and strings that
are passed in, when they can stand between quotes as they are. -/
inductive SqlParam.Sendable (param : SqlParam) : Prop
  | supported (h : param.Supported)
  | string (lens : ℕ) (s : List Byte) (hparam : param = ⟨.vIn, .string, lens, .charPtr (some s)⟩)
    (hplain : Plain (cString s))

/-- What the `SET` assigns to the user variable of a parameter, if it assigns anything: the first
bytes of a blob, or null. -/
def SqlParam.assigned (param : SqlParam) : Option (Option (List Byte)) :=
  match param.direction, param.type, param.bindValue with
  | .vIn, .blob, .voidPtr block => some (some (block.take param.lens))
  | .vIn, _, _ => none
  | _, _, _ => some none

/-- The text of an assignment. -/
def assignmentText (i : ℕ) : Option (List Byte) → List Byte
  | some data => userVariable i ++ ascii " = 0x" ++ data.flatMap hexByte
  | none => ascii " " ++ userVariable i ++ ascii " = null"

/-- The text of the `SET` with one more assignment, if there is one. -/
def addAssignment (i : ℕ) (param : SqlParam) (text : List Byte) : List Byte :=
  match param.assigned with
  | some value => joinPiece (ascii "set") (ascii ",") text (assignmentText i value)
  | none => text

theorem length_le_addAssignment (i : ℕ) (param : SqlParam) (text : List Byte) :
    text.length ≤ (addAssignment i param text).length := by
  unfold addAssignment
  split
  · rw [joinPiece, List.length_append]
    exact (length_le_separated _ _ text).trans (Nat.le_add_right _ _)
  · exact Nat.le_refl _

variable {garbage text : List Byte} {i : ℕ} {param : SqlParam}

theorem SqlParam.Supported.fault_eq_none (h : param.Supported) : param.fault = none := by
  cases h with
  | int | bigint | out => rfl
  | blob lens block hpos hblock => exact if_pos hblock

theorem SqlParam.Supported.known (h : param.Supported) (hdirection : param.direction ≠ .vOut) :
    param.type.Known := by
  cases h with
  | int | bigint | blob => trivial
  | out => exact absurd rfl hdirection

/-- The piece of such a parameter is its assignment. -/
theorem SqlParam.Supported.addPiece_eq (h : param.Supported) (garbage : List Byte) (i : ℕ)
    (text : List Byte) : addPiece garbage i param text = addAssignment i param text := by
  cases h <;> rfl

namespace SqlParam.Sendable

theorem fault_eq_none (h : param.Sendable) : param.fault = none := by
  cases h with
  | supported h => exact h.fault_eq_none
  | string lens s hparam =>
    subst hparam
    rfl

theorem known (h : param.Sendable) (hdirection : param.direction ≠ .vOut) : param.type.Known := by
  cases h with
  | supported h => exact h.known hdirection
  | string lens s hparam =>
    subst hparam
    trivial

theorem addPiece_eq (h : param.Sendable) (garbage : List Byte) (i : ℕ) (text : List Byte) :
    addPiece garbage i param text = addAssignment i param text := by
  cases h with
  | supported h => exact h.addPiece_eq garbage i text
  | string lens s hparam =>
    subst hparam
    rfl

end SqlParam.Sendable

theorem length_terminator_le (param : SqlParam) : param.terminator.length ≤ 1 := by
  unfold SqlParam.terminator
  split
  · split <;> decide
  · decide
  · split
    · split <;> decide
    · split <;> decide

/-! ## The loop -/

/-- The text of the `SET` for the parameters from `i` on, after the text so far. -/
def setTextFrom (text : List Byte) : ℕ → List SqlParam → List Byte
  | _, [] => text
  | i, param :: params => setTextFrom (addAssignment i param text) (i + 1) params

theorem length_le_setTextFrom (params : List SqlParam) (i : ℕ) (text : List Byte) :
    text.length ≤ (setTextFrom text i params).length := by
  induction params generalizing i text with
  | nil => exact Nat.le_refl _
  | cons param params ih => exact (length_le_addAssignment i param text).trans (ih _ _)

variable {params : List SqlParam} {allGarbage : ℕ → List Byte}

/-- The pieces of such parameters make the `SET`. -/
theorem writtenFrom_eq_setTextFrom (hsendable : ∀ param ∈ params, param.Sendable) :
    writtenFrom allGarbage text i params = setTextFrom text i params := by
  induction params generalizing i text with
  | nil => rfl
  | cons param params ih =>
    obtain ⟨hparam, hparams⟩ := List.forall_mem_cons.mp hsendable
    rw [writtenFrom, hparam.addPiece_eq, ih hparams]
    rfl

/-- A text within the limit fits at each of its pieces. -/
theorem setFits_of_sendable (hsendable : ∀ param ∈ params, param.Sendable)
    (hfit : (setTextFrom text i params).length ≤ setLimit) : SetFits allGarbage text i params := by
  induction params generalizing i text with
  | nil => trivial
  | cons param params ih =>
    obtain ⟨hparam, hparams⟩ := List.forall_mem_cons.mp hsendable
    have hlimit : setLimit + 20 = prepareBufferSize := rfl
    have hle := length_le_setTextFrom params (i + 1) (addAssignment i param text)
    have hterminator := length_terminator_le param
    have hone : (setTextFrom (addAssignment i param text) (i + 1) params).length ≤ setLimit := hfit
    rw [SetFits, hparam.addPiece_eq, List.length_append]
    exact ⟨by omega, fun _ => ih hparams hone⟩

/-- **The texts are built**, when the `SET` fits. -/
theorem exists_buildTexts {strProc b : List Byte} (hsendable : ∀ param ∈ params, param.Sendable)
    (hfit : (setTextFrom [] 0 params).length ≤ setLimit) (hsize : b.length = prepareBufferSize) :
    ∃ b', Yields (buildTexts allGarbage strProc params) b (.ok (some
        ⟨(setTextFrom [] 0 params).length, callText strProc params,
          selectTextFrom [] 0 params⟩)) b' ∧
      b'.length = prepareBufferSize ∧ setTextFrom [] 0 params <+: b' := by
  have hnone : firstFault params = none :=
    List.findSome?_eq_none_iff.mpr fun param hparam => (hsendable param hparam).fault_eq_none
  obtain ⟨hthen, -⟩ := @fills_buildTexts strProc params allGarbage
    (fun param hparam => (hsendable param hparam).known) b hsize List.nil_prefix
  obtain ⟨b', hrun, hok⟩ := hthen (setFits_of_sendable hsendable hfit)
  rw [hnone, writtenFrom_eq_setTextFrom hsendable] at hrun hok
  exact ⟨b', hrun, hok rfl⟩

/-! ## The texts as a whole -/

/-- The variables that the `SET` assigns, with their values. -/
def assignments (params : List SqlParam) : List (ℕ × Option (List Byte)) :=
  params.zipIdx.filterMap fun p => p.1.assigned.map fun value => (p.2, value)

/-- The parameters that are passed out. -/
def outputs (params : List SqlParam) : List ℕ :=
  params.zipIdx.filterMap fun p => if p.1.direction = .vIn then none else some p.2

/-- The text of a `SET`. -/
def setText (params : List SqlParam) : List Byte :=
  ascii "set" ++ (ascii ",").intercalate ((assignments params).map fun a => assignmentText a.1 a.2)

/-- The text of a `SELECT`. -/
def selectText (params : List SqlParam) : List Byte :=
  ascii "select " ++ (ascii ", ").intercalate ((outputs params).map userVariable)

theorem selectText_ne_nil (params : List SqlParam) : selectText params ≠ [] :=
  List.append_ne_nil_of_left_ne_nil (by decide) _

theorem setTextFrom_eq_foldl (params : List SqlParam) (i : ℕ) (text : List Byte) :
    setTextFrom text i params = ((params.zipIdx i).filterMap fun p => p.1.assigned.map fun value =>
      assignmentText p.2 value).foldl (joinPiece (ascii "set") (ascii ",")) text := by
  have hcons (text : List Byte) (i : ℕ) (param : SqlParam) (params : List SqlParam) :
      setTextFrom text i (param :: params) = setTextFrom ((param.assigned.map fun value =>
        assignmentText i value).elim text (joinPiece (ascii "set") (ascii ",") text))
          (i + 1) params := by
    rw [setTextFrom, addAssignment]
    cases param.assigned <;> rfl
  exact @eq_foldl_joinPiece _ _ _ _ (fun param i => param.assigned.map (assignmentText i))
    setTextFrom (fun _ _ => rfl) hcons text i params

theorem selectTextFrom_eq_foldl (params : List SqlParam) (i : ℕ) (text : List Byte) :
    selectTextFrom text i params = ((params.zipIdx i).filterMap fun p =>
      if p.1.direction = .vIn then none else some (userVariable p.2)).foldl
        (joinPiece (ascii "select ") (ascii ", ")) text := by
  have hcons (text : List Byte) (i : ℕ) (param : SqlParam) (params : List SqlParam) :
      selectTextFrom text i (param :: params) = selectTextFrom
        ((if param.direction = .vIn then none else some (userVariable i)).elim text
          (joinPiece (ascii "select ") (ascii ", ") text)) (i + 1) params := by
    rw [selectTextFrom, addOutput]
    by_cases hdir : param.direction = .vIn
    · rw [if_pos hdir, if_pos hdir, Option.elim_none]
    · rw [if_neg hdir, if_neg hdir, Option.elim_some]
  exact @eq_foldl_joinPiece _ _ _ _
    (fun param i => if param.direction = .vIn then none else some (userVariable i))
    selectTextFrom (fun _ _ => rfl) hcons text i params

/-- **The text of the `SET`**: the word and the assignments, if there are any. -/
theorem setTextFrom_eq (params : List SqlParam) :
    setTextFrom [] 0 params = if assignments params = [] then [] else setText params := by
  have hmap : (params.zipIdx.filterMap fun p => p.1.assigned.map fun value =>
      assignmentText p.2 value) = (assignments params).map fun a => assignmentText a.1 a.2 := by
    rw [assignments, List.map_filterMap]
    simp only [Option.map_map]
    rfl
  rw [setTextFrom_eq_foldl, hmap, setText]
  cases assignments params with
  | nil => rfl
  | cons a as =>
    rw [if_neg (List.cons_ne_nil a as), List.map_cons, foldl_joinPiece _ (by decide)]

theorem selectTextFrom_eq (params : List SqlParam) :
    selectTextFrom [] 0 params = if outputs params = [] then [] else selectText params := by
  have hmap : (params.zipIdx.filterMap fun p =>
      if p.1.direction = .vIn then none else some (userVariable p.2)) =
      (outputs params).map userVariable := by
    rw [outputs, List.map_filterMap]
    refine List.filterMap_congr fun p _ => ?_
    by_cases hdir : p.1.direction = .vIn <;> simp [hdir]
  rw [selectTextFrom_eq_foldl, hmap, selectText]
  cases outputs params with
  | nil => rfl
  | cons i is =>
    rw [if_neg (List.cons_ne_nil i is), List.map_cons, foldl_joinPiece _ (by decide)]

/-- Nothing is read back exactly if nothing is passed out. -/
theorem selectTextFrom_eq_nil_iff (params : List SqlParam) :
    selectTextFrom [] 0 params = [] ↔ outputs params = [] := by
  rw [selectTextFrom_eq]
  by_cases hnil : outputs params = []
  · rw [if_pos hnil]
    exact iff_of_true rfl hnil
  · rw [if_neg hnil]
    exact iff_of_false (selectText_ne_nil params) hnil

end PetsServer

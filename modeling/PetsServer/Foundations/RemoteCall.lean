import Mathlib.Data.List.Nodup
import Mathlib.Logic.Function.Basic
import Mathlib.Tactic.Common

/-!
# Calls through the variables of a session

A server calls a procedure for its client. The values that the procedure passes out have no way
back of their own: the client names a variable of its session for each of them, and selects the
variables afterwards. A session understands three statements: one that assigns variables, one that
calls the procedure with values and variables, and one that selects variables.

`exec_select_of_call` says that the variables of a call, selected after it, have the values that the
procedure has passed out, when they are different from each other.
-/

namespace Foundations

universe u v w

variable {ι : Type u} {κ : Type w} {ν : Type v}

/-! ## Assignments -/

section Assign

variable [DecidableEq ι]

/-- The variables after assignments, one after another. -/
def assign (vars : ι → ν) (assignments : List (ι × ν)) : ι → ν :=
  assignments.foldl (fun vars a => Function.update vars a.1 a.2) vars

@[simp] theorem assign_nil (vars : ι → ν) : assign vars [] = vars := rfl

@[simp] theorem assign_cons (vars : ι → ν) (a : ι × ν) (as : List (ι × ν)) :
    assign vars (a :: as) = assign (Function.update vars a.1 a.2) as := rfl

/-- A variable that is not assigned keeps its value. -/
theorem assign_of_notMem {i : ι} {as : List (ι × ν)} (h : i ∉ as.map Prod.fst) (vars : ι → ν) :
    assign vars as i = vars i := by
  induction as generalizing vars with
  | nil => rfl
  | cons a as ih =>
    rw [List.map_cons, List.mem_cons, not_or] at h
    rw [assign_cons, ih h.2, Function.update_of_ne h.1]

/-- A variable that is assigned once has the value that it was assigned. -/
theorem assign_of_mem {i : ι} {value : ν} {as : List (ι × ν)} (hnodup : (as.map Prod.fst).Nodup)
    (h : (i, value) ∈ as) (vars : ι → ν) : assign vars as i = value := by
  induction as generalizing vars with
  | nil => cases h
  | cons a as ih =>
    rw [List.map_cons, List.nodup_cons] at hnodup
    rw [assign_cons]
    rcases List.mem_cons.mp h with rfl | h
    · rw [assign_of_notMem hnodup.1, Function.update_self]
    · exact ih hnodup.2 h _

/-- Different variables are assigned as many values. -/
theorem map_assign_zip {names : List ι} {values : List ν} (hnodup : names.Nodup)
    (hlength : names.length = values.length) (vars : ι → ν) :
    names.map (assign vars (names.zip values)) = values := by
  refine List.ext_getElem (by rw [List.length_map, hlength]) fun k hk hk' => ?_
  have hk₀ : k < names.length := by rwa [List.length_map] at hk
  rw [List.getElem_map]
  refine assign_of_mem ?_ (List.mem_iff_getElem.mpr ⟨k, ?_, List.getElem_zip⟩) vars
  · rwa [List.map_fst_zip (Nat.le_of_eq hlength)]
  · rw [List.length_zip]
    exact Nat.lt_min.mpr ⟨hk₀, hk'⟩

end Assign

/-! ## Statements -/

/-- What a call passes for a parameter. -/
inductive Actual (ι : Type u) (ν : Type v)
  | value (value : ν)
  | variable (name : ι)

/-- The value that is passed in. -/
def Actual.eval (vars : ι → ν) : Actual ι ν → ν
  | .value x => x
  | .variable name => vars name

/-- A statement of a client. -/
inductive Statement (ι : Type u) (ν : Type v)
  | set (assignments : List (ι × ν))
  | call (actuals : List (Actual ι ν))
  | select (names : List ι)

/-- A procedure of the server: its name, which of its parameters it passes out, and the values it
passes out for the values that are passed in. -/
structure StoredProcedure (κ : Type w) (ν : Type v) where
  name : κ
  passesOut : List Bool
  body : List ν → List ν
  length_body : ∀ values, (body values).length = passesOut.count true

/-- What the server keeps of a client: its variables, and the procedures that were called, with the
values that were passed in. -/
structure ClientSession (ι : Type u) (κ : Type w) (ν : Type v) where
  vars : ι → ν
  calls : List (κ × List ν)

/-- The values that a call passes in. -/
def passedIn (vars : ι → ν) : List Bool → List (Actual ι ν) → List ν
  | false :: outs, actual :: actuals => actual.eval vars :: passedIn vars outs actuals
  | true :: outs, _ :: actuals => passedIn vars outs actuals
  | [], _ | _, [] => []

/-- The variables that a call names for the values that are passed out, if it names one for each of
them and passes as much as the procedure has parameters. -/
def passedOut : List Bool → List (Actual ι ν) → Option (List ι)
  | [], [] => some []
  | false :: outs, _ :: actuals => passedOut outs actuals
  | true :: outs, .variable name :: actuals => (passedOut outs actuals).map (name :: ·)
  | true :: _, .value _ :: _ | [], _ :: _ | _ :: _, [] => none

theorem length_passedOut {outs : List Bool} {actuals : List (Actual ι ν)} {names : List ι}
    (h : passedOut outs actuals = some names) : names.length = outs.count true := by
  induction outs, actuals using passedOut.induct generalizing names with
  | case1 =>
    obtain rfl : [] = names := by simpa [passedOut] using h
    rfl
  | case2 outs actual actuals ih =>
    rw [List.count_cons_of_ne (by decide)]
    exact ih h
  | case3 outs name actuals ih =>
    obtain ⟨rest, hrest, rfl⟩ := Option.map_eq_some_iff.mp h
    rw [List.length_cons, List.count_cons_self, ih hrest]
  | case4 => cases h
  | case5 => cases h
  | case6 => simp [passedOut] at h

variable [DecidableEq ι]

/-- A statement is executed, with the values that it selects; none when the server rejects it. -/
def StoredProcedure.exec (p : StoredProcedure κ ν) (s : ClientSession ι κ ν) :
    Statement ι ν → Option (ClientSession ι κ ν × List ν)
  | .set assignments => some ({ s with vars := assign s.vars assignments }, [])
  | .call actuals =>
    let values := passedIn s.vars p.passesOut actuals
    (passedOut p.passesOut actuals).map fun names =>
      (⟨assign s.vars (names.zip (p.body values)), s.calls ++ [(p.name, values)]⟩, [])
  | .select names => some (s, names.map s.vars)

/-- **The variables of a call have the values that the procedure has passed out.** -/
theorem exec_select_of_call {p : StoredProcedure κ ν} {s t : ClientSession ι κ ν}
    {actuals : List (Actual ι ν)} {names : List ι} {row : List ν}
    (hcall : p.exec s (.call actuals) = some (t, row))
    (hnames : passedOut p.passesOut actuals = some names) (hnodup : names.Nodup) :
    p.exec t (.select names) = some (t, p.body (passedIn s.vars p.passesOut actuals)) := by
  rw [StoredProcedure.exec, hnames, Option.map_some] at hcall
  obtain ⟨rfl, -⟩ := Prod.mk.inj (Option.some.inj hcall)
  rw [StoredProcedure.exec]
  dsimp only
  rw [map_assign_zip hnodup ((length_passedOut hnames).trans (p.length_body _).symm)]

end Foundations

import Mathlib.Data.List.Perm.Basic
import PetsServer.Sql.Loop

/-!
# What the SQL thread releases

`PrepareSQL` allocates a task and stores the pointer to its arguments in the member of the union
that belongs to the task's type; `SqlPack.owed` is what has to be released for it. `MysqlLoop`
releases less: the `else` of its nested tests belongs to the inner `if`, so that the arguments of a
plain or prepared statement stay, and a task without arguments is left by a `continue`.
-/

namespace PetsServer

open Foundations

/-- The release of the arguments at `arg`, through the member in which they are stored. -/
def SqlPackType.releaseOf (type : SqlPackType) (arg : ArgId) : SqlRelease :=
  if type = .procedure then .anyArr arg else .queryBind arg

/-- What is to be released for a task: its arguments, if any, and the task. -/
def SqlPack.owed (pack : SqlPack) : List SqlRelease :=
  (pack.arg.map pack.packType.releaseOf).toList ++ [.pack pack]

/-- The SQL thread is at work on a task. -/
def SqlPc.AtWork : SqlPc → Prop
  | .inHand _ | .executing _ | .callback _ | .deadlocked | .releasing _ => True
  | _ => False

/-- The task that the SQL thread is at work on. -/
def SqlPc.current : SqlPc → List SqlPack
  | .inHand pack | .executing pack | .callback pack | .releasing pack => [pack]
  | _ => []

theorem SqlPc.current_of_not_atWork {pc : SqlPc} (h : ¬ pc.AtWork) : pc.current = [] := by
  cases pc <;> first | rfl | exact absurd trivial h

@[simp] theorem SqlPc.current_notified (pc : SqlPc) : pc.notified.current = pc.current := by
  cases pc <;> rfl

/-- The call of a procedure with arguments. -/
def SqlPack.Calls (pack : SqlPack) : Prop := pack.packType = .procedure ∧ pack.arg ≠ none

theorem SqlPack.release_eq_owed {pack : SqlPack} (h : pack.Calls) : pack.release = pack.owed := by
  obtain ⟨hproc, harg⟩ := h
  obtain ⟨arg, harg⟩ := Option.ne_none_iff_exists'.mp harg
  simp [release, owed, SqlPackType.releaseOf, anyArr, hproc, harg]

/-- Every task that the thread is done with has been released. -/
def SqlState.Released (s : SqlState) : Prop :=
  s.pc = .deadlocked ∨ ∃ done : List SqlPack,
    done ++ s.pc.current ++ s.sqlTaskQueue = s.pushed ∧ s.released = done.flatMap SqlPack.owed

/-- **The step lemma.** -/
theorem released_step {s t : SqlState} {a : SqlAction} (hs : s.Released)
    (hcalls : ∀ pack ∈ s.pushed, pack.Calls) (h : sqlStep s a = some t) : t.Released := by
  rcases hs with hdead | ⟨done, hpushed, hreleased⟩
  · left
    cases sqlStep_cases h with
    | lock | push | unlock => exact hdead
    | notify => simp [hdead]
    | sqlLock hpc => rcases hpc with hpc | hpc <;> simp [hdead] at hpc
    | empty hpc | drain hpc | block hpc | wake hpc | drained hpc | get _ _ hpc | skip _ hpc
      | execute _ hpc | result _ _ hpc | callback _ hpc | deadlock _ _ hpc | release _ hpc
      | sqlUnlock hpc => simp [hdead] at hpc
  · cases sqlStep_cases h with
    | lock | unlock => exact .inr ⟨done, hpushed, hreleased⟩
    | push i pack =>
      refine .inr ⟨done, ?_, hreleased⟩
      change _ ++ _ ++ (_ ++ _) = _ ++ _
      rw [← hpushed, ← List.append_assoc]
      rfl
    | notify =>
      refine .inr ⟨done, ?_, hreleased⟩
      change done ++ s.pc.notified.current ++ s.sqlTaskQueue = s.pushed
      rw [SqlPc.current_notified]
      exact hpushed
    | sqlLock hpc =>
      exact .inr ⟨done, by rcases hpc with hpc | hpc <;> simpa [hpc, SqlPc.current] using hpushed,
        hreleased⟩
    | empty hpc | drain hpc | block hpc | wake hpc | drained hpc | sqlUnlock hpc =>
      exact .inr ⟨done, by simpa [hpc, SqlPc.current] using hpushed, hreleased⟩
    | get pack queue hpc hq =>
      exact .inr ⟨done, by simpa [hpc, hq, SqlPc.current] using hpushed, hreleased⟩
    | skip pack hpc hnull =>
      refine absurd hnull (hcalls pack ?_).2
      rw [← hpushed, hpc]
      simp [SqlPc.current]
    | execute pack hpc | callback pack hpc =>
      exact .inr ⟨done, by simpa [hpc, SqlPc.current] using hpushed, hreleased⟩
    | result pack ok hpc =>
      exact .inr ⟨done, by cases ok <;> simpa [hpc, SqlPc.current] using hpushed, hreleased⟩
    | deadlock => exact .inl rfl
    | release pack hpc =>
      have hpack : pack.Calls := hcalls pack (by rw [← hpushed, hpc]; simp [SqlPc.current])
      refine .inr ⟨done ++ [pack], by simpa [hpc, SqlPc.current] using hpushed, ?_⟩
      change s.released ++ pack.release = _
      rw [hreleased, SqlPack.release_eq_owed hpack, List.flatMap_append, List.flatMap_singleton]

/-- **The run lemma.** -/
theorem released_of_run {acts : List SqlAction} {s : SqlState}
    (hcalls : ∀ pack ∈ s.pushed, pack.Calls) (h : run sqlStep .start acts = some s) :
    s.Released :=
  run_invariant_of_pushed SqlState.Released (fun _ _ _ => released_step) (.inr ⟨[], rfl, rfl⟩)
    hcalls h

/-- A task that is no call of a procedure, or has no arguments, is released in part. -/
theorem exists_run_part {requests : List SqlRequest} {request : SqlRequest}
    (hcalls : ∀ r ∈ requests, (prepareSQL r).Calls) (hnot : ¬ (prepareSQL request).Calls) :
    ∃ acts s, run sqlStep .start acts = some s ∧ ¬ s.pc.AtWork ∧ s.sqlTaskQueue = [] ∧
      s.pushed = (requests ++ [request]).map prepareSQL ∧
      s.released.length < (s.pushed.flatMap SqlPack.owed).length := by
  obtain ⟨acts, hdrained⟩ := exists_run_drained request fun r hr => (hcalls r hr).2
  have hreleased : (requests.map prepareSQL).flatMap SqlPack.release =
      (requests.map prepareSQL).flatMap SqlPack.owed := by
    refine List.flatMap_congr fun pack hp => ?_
    obtain ⟨r, hr, rfl⟩ := List.mem_map.mp hp
    exact SqlPack.release_eq_owed (hcalls r hr)
  by_cases hnull : (prepareSQL request).arg = none
  · refine ⟨_, _, run_trans hdrained (run_drop hnull _ _ _ _), id, rfl, rfl, ?_⟩
    simp [quiet, hreleased, SqlPack.owed]
  · refine ⟨_, _, run_trans hdrained (run_executeOne hnull _ _ _ _), id, rfl, rfl, ?_⟩
    have hproc : (prepareSQL request).packType ≠ .procedure := fun hproc => hnot ⟨hproc, hnull⟩
    obtain ⟨arg, harg⟩ := Option.ne_none_iff_exists'.mp hnull
    simp [quiet, hreleased, SqlPack.release, SqlPack.owed, hproc, harg]

/-- **What is released.** At every moment of every run in which tasks are pushed in the given order
and at which the SQL thread is not at work on a task, the arguments of each task taken off the queue
have been released, once and through the member in which they are stored, and so has the task, if
and only if every task calls a procedure with arguments. -/
theorem tasks_released_iff (requests : List SqlRequest) :
    (∀ acts s, run sqlStep .start acts = some s → s.pushed <+: requests.map prepareSQL →
      ¬ s.pc.AtWork → ∃ taken : List SqlPack, taken ++ s.sqlTaskQueue = s.pushed ∧
        s.released.Perm (taken.flatMap SqlPack.owed)) ↔
    ∀ request ∈ requests, request.type = .procedure ∧ request.bind ≠ none := by
  constructor
  · intro hreleased
    by_contra hall
    obtain ⟨pre, request, post, rfl, hpre, hnot⟩ := exists_first_not hall
    obtain ⟨acts, s, hrun, hpc, hqueue, hpushed, hlt⟩ := exists_run_part hpre hnot
    obtain ⟨taken, htaken, hperm⟩ :=
      hreleased acts s hrun (by rw [hpushed]; exact ⟨post.map prepareSQL, by simp⟩) hpc
    rw [hqueue, List.append_nil] at htaken
    rw [htaken] at hperm
    exact absurd hperm.length_eq (Nat.ne_of_lt hlt)
  · intro hall acts s hrun hpre hpc
    have hcalls : ∀ pack ∈ s.pushed, pack.Calls := fun pack hp => by
      obtain ⟨r, hr, rfl⟩ := List.mem_map.mp (hpre.subset hp)
      exact hall r hr
    rcases released_of_run hcalls hrun with hdead | ⟨done, hpushed, hreleased⟩
    · exact absurd (hdead ▸ trivial) hpc
    · rw [SqlPc.current_of_not_atWork hpc, List.append_nil] at hpushed
      exact ⟨done, hpushed, .of_eq hreleased⟩

/-- A prepared statement that succeeds: its arguments are not released. -/
theorem statement_arguments_kept :
    ∃ s, run sqlStep .start (prepareActions ⟨.stmt, [], some 7, 1, 0⟩ ++
        [.sqlLock, .waitTest, .drainTest, .skipTest, .result true, .callback none, .release]) =
          some s ∧ ¬ s.pc.AtWork ∧
      ¬ ∃ taken : List SqlPack, taken ++ s.sqlTaskQueue = s.pushed ∧
        s.released.Perm (taken.flatMap SqlPack.owed) := by
  refine ⟨_, rfl, id, ?_⟩
  rintro ⟨taken, htaken, hperm⟩
  have hone : taken ++ [] = [prepareSQL ⟨.stmt, [], some 7, 1, 0⟩] := htaken
  rw [List.append_nil] at hone
  rw [hone] at hperm
  exact absurd hperm.length_eq (by decide)

end PetsServer

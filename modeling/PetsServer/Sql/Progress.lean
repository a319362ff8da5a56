import PetsServer.Foundations.Potential
import PetsServer.Sql.Lock

/-!
# How long a task waits

The steps of the SQL thread are counted, spurious wake-ups among them, against the producers, which
do what they like: a queue of `n` tasks is empty of them within `5 * n` steps of the SQL thread. And
while there is a task in the queue, some thread can go on without a new task and without a spurious
wake-up, unless a callback has deadlocked the SQL thread (`exists_step_of_queue`). The two together
are `tasks_taken`.
-/

namespace PetsServer

open Foundations

/-- A step of the SQL thread. -/
def sqlThreadStep (_ : SqlState) : SqlAction → ℕ
  | .lock _ _ | .push _ | .unlock _ | .notify _ => 0
  | _ => 1

/-- The steps that the SQL thread takes at most, with a task in the queue, before it takes one. -/
def SqlPc.stepsLeft : SqlPc → ℕ
  | .deadlocked | .draining => 0
  | .waiting | .releasing _ => 1
  | .top | .woken | .callback _ => 2
  | .blocked | .sleeping | .executing _ => 3
  | .blocking | .inHand _ => 4

theorem SqlPc.stepsLeft_le (pc : SqlPc) : pc.stepsLeft ≤ 4 := by
  cases pc <;> simp [SqlPc.stepsLeft]

theorem SqlPc.stepsLeft_notified (pc : SqlPc) : pc.notified.stepsLeft ≤ pc.stepsLeft := by
  cases pc <;> simp [SqlPc.notified, SqlPc.stepsLeft]

/-- How many of the first `old` tasks are still in the queue. -/
def SqlState.behind (s : SqlState) (old : ℕ) : ℕ := old + s.sqlTaskQueue.length - s.pushed.length

/-- The steps that the SQL thread takes at most before it has taken the first `old` tasks. -/
def SqlState.stepsLeft (s : SqlState) (old : ℕ) : ℕ := 5 * s.behind old + s.pc.stepsLeft

theorem SqlState.queue_ne_nil {s : SqlState} {old : ℕ} (h : 0 < s.behind old)
    (hold : old ≤ s.pushed.length) : s.sqlTaskQueue ≠ [] := by
  intro hq
  rw [behind, hq, List.length_nil] at h
  omega

/-- A step does not bring a task back. -/
theorem behind_le {s t : SqlState} {a : SqlAction} (old : ℕ) (h : sqlStep s a = some t) :
    t.behind old ≤ s.behind old := by
  cases sqlStep_cases h with
  | push i pack =>
    simp only [SqlState.behind, List.length_append, List.length_singleton]
    omega
  | get pack queue hpc hq =>
    simp only [SqlState.behind, hq, List.length_cons]
    omega
  | _ => exact Nat.le_refl _

/-- **The step lemma**: with old tasks in the queue, a step of the SQL thread lowers what is left,
and no step of a producer raises it. -/
theorem stepsLeft_step {s t : SqlState} {a : SqlAction} {old : ℕ} (hs : 0 < s.behind old)
    (hold : old ≤ s.pushed.length) (h : sqlStep s a = some t) :
    sqlThreadStep s a + t.stepsLeft old ≤ s.stepsLeft old := by
  have hqueue := s.queue_ne_nil hs hold
  cases sqlStep_cases h with
  | lock | unlock => exact Nat.le_of_eq (Nat.zero_add _)
  | push i pack =>
    simp only [SqlState.stepsLeft, SqlState.behind, sqlThreadStep, List.length_append,
      List.length_singleton]
    show 0 + (5 * _ + s.pc.stepsLeft) ≤ _
    omega
  | notify i hpc =>
    have hle := s.pc.stepsLeft_notified
    show 0 + (5 * s.behind old + s.pc.notified.stepsLeft) ≤ 5 * s.behind old + s.pc.stepsLeft
    omega
  | sqlLock hpc =>
    show 1 + (5 * s.behind old + 1) ≤ 5 * s.behind old + s.pc.stepsLeft
    rcases hpc with hpc | hpc <;> simp only [hpc, SqlPc.stepsLeft] <;> omega
  | empty hpc hq | drained hpc hq => exact absurd hq hqueue
  | get pack queue hpc hq =>
    simp only [SqlState.stepsLeft, SqlState.behind, hpc, hq, List.length_cons, SqlPc.stepsLeft,
      sqlThreadStep] at hs ⊢
    omega
  | drain hpc | block hpc | wake hpc | skip pack hpc | execute pack hpc | callback pack hpc
    | deadlock pack request hpc | release pack hpc | sqlUnlock hpc =>
    simp only [SqlState.stepsLeft, SqlState.behind, hpc, SqlPc.stepsLeft, sqlThreadStep]
    omega
  | result pack ok hpc =>
    cases ok <;>
      simp only [SqlState.stepsLeft, SqlState.behind, hpc, SqlPc.stepsLeft, sqlThreadStep] <;>
      simp <;> omega

theorem pushed_prefix_of_run {s t : SqlState} {acts : List SqlAction}
    (h : run sqlStep s acts = some t) : s.pushed <+: t.pushed :=
  run_invariant (fun t => s.pushed <+: t.pushed) (fun _ _ _ hs ht => hs.trans (pushed_mono ht))
    (List.prefix_refl _) h

/-- **The run lemma**: while one of the tasks that were in the queue at the start is still there,
the SQL thread has taken fewer than five steps for each of them. -/
theorem total_lt_of_behind {s t : SqlState} {acts : List SqlAction}
    (ht : 0 < t.behind s.pushed.length) (h : run sqlStep s acts = some t) :
    total sqlStep sqlThreadStep s acts < 5 * s.sqlTaskQueue.length := by
  have hle := total_le_of_last sqlThreadStep (fun _ _ => 0)
    (fun _ t => 0 < t.behind s.pushed.length) (fun _ t => t.stepsLeft s.pushed.length) ?_ ?_ ht h
  · have hstart : s.stepsLeft s.pushed.length ≤ 5 * s.sqlTaskQueue.length + 4 := by
      have hpc := s.pc.stepsLeft_le
      rw [SqlState.stepsLeft, SqlState.behind, Nat.add_sub_cancel_left]
      omega
    have hleft : 5 ≤ t.stepsLeft s.pushed.length := by
      rw [SqlState.stepsLeft]
      omega
    rw [total_zero] at hle
    omega
  · exact fun pre m a t _ hstep ht => Nat.lt_of_lt_of_le ht (behind_le _ hstep)
  · intro pre m a t hpre hm hstep
    rw [Nat.zero_add]
    exact stepsLeft_step hm (pushed_prefix_of_run hpre).length_le hstep

/-! ## Some thread can go on -/

/-- The queue holds the last of the tasks pushed. -/
theorem queue_suffix {acts : List SqlAction} {s : SqlState} (h : run sqlStep .start acts = some s) :
    s.sqlTaskQueue <:+ s.pushed := by
  refine run_invariant (fun s => s.sqlTaskQueue <:+ s.pushed) ?_ (List.suffix_refl _) h
  intro s a t hs ht
  cases sqlStep_cases ht with
  | push i pack =>
    obtain ⟨pre, hpre⟩ := hs
    exact ⟨pre, by rw [← List.append_assoc, hpre]⟩
  | get pack queue hpc hq =>
    rw [hq] at hs
    exact (List.suffix_cons pack queue).trans hs
  | _ => exact hs

/-- No new task, and no spurious wake-up. -/
def SqlAction.GoesOn : SqlAction → Prop
  | .lock _ _ | .wake => False
  | _ => True

/-- The SQL thread is never stuck with the mutex locked, but in a deadlock. -/
theorem exists_step_of_holds {s : SqlState} (hholds : s.pc.holds = true)
    (hpc : s.pc ≠ .deadlocked) : ∃ a, a.GoesOn ∧ (sqlStep s a).isSome := by
  cases h : s.pc with
  | top | blocked | woken =>
    rw [h] at hholds
    cases hholds
  | deadlocked => exact absurd h hpc
  | waiting =>
    refine ⟨.waitTest, trivial, ?_⟩
    simp only [sqlStep, mysqlLoopStep, h]
    split <;> rfl
  | blocking => exact ⟨.block, trivial, by simp [sqlStep, mysqlLoopStep, h]⟩
  | draining =>
    refine ⟨.drainTest, trivial, ?_⟩
    simp only [sqlStep, mysqlLoopStep, h]
    split <;> rfl
  | inHand pack =>
    refine ⟨.skipTest, trivial, ?_⟩
    simp only [sqlStep, mysqlLoopStep, h]
    split <;> rfl
  | executing pack => exact ⟨.result true, trivial, by simp [sqlStep, mysqlLoopStep, h]⟩
  | callback pack => exact ⟨.callback none, trivial, by simp [sqlStep, mysqlLoopStep, h]⟩
  | releasing pack => exact ⟨.release, trivial, by simp [sqlStep, mysqlLoopStep, h]⟩
  | sleeping => exact ⟨.sqlUnlock, trivial, by simp [sqlStep, mysqlLoopStep, h]⟩

/-- A producer past its lock always goes on. -/
theorem exists_step_of_producer {s : SqlState} {i : ℕ} (h : s.producers i ≠ .idle) :
    ∃ a, a.GoesOn ∧ (sqlStep s a).isSome := by
  cases hp : s.producers i with
  | idle => exact absurd hp h
  | locked pack => exact ⟨.push i, trivial, by simp [sqlStep, producerStep, hp]⟩
  | pushed => exact ⟨.unlock i, trivial, by simp [sqlStep, producerStep, hp]⟩
  | unlocked => exact ⟨.notify i, trivial, by simp [sqlStep, producerStep, hp]⟩

/-- **No thread waits for another in a circle**: with a task in the queue, some thread can go on. -/
theorem exists_step_of_queue {acts : List SqlAction} {s : SqlState}
    (h : run sqlStep .start acts = some s) (hqueue : s.sqlTaskQueue ≠ [])
    (hpc : s.pc ≠ .deadlocked) : ∃ a, a.GoesOn ∧ (sqlStep s a).isSome := by
  have hs := SqlState.locking_of_run h
  cases howner : s.owner with
  | some thread =>
    cases thread with
    | sql => exact exists_step_of_holds (hs.sql.mp howner) hpc
    | producer i =>
      have hi := (hs.producer i).mp howner
      refine exists_step_of_producer (i := i) fun hidle => ?_
      rw [hidle] at hi
      cases hi
  | none =>
    have hholds := (hs.free howner).1
    have hlock : s.pc = .top ∨ s.pc = .woken → ∃ a, a.GoesOn ∧ (sqlStep s a).isSome := by
      rintro (hpc | hpc) <;>
        exact ⟨.sqlLock, trivial, by simp [sqlStep, mysqlLoopStep, hpc, howner]⟩
    cases hblocked : s.pc with
    | top => exact hlock (.inl hblocked)
    | woken => exact hlock (.inr hblocked)
    | blocked =>
      obtain ⟨i, hi⟩ := hs.notifies hblocked hqueue
      refine exists_step_of_producer (i := i) fun hidle => ?_
      rw [hidle] at hi
      cases hi
    | _ =>
      rw [hblocked] at hholds
      cases hholds

/-- **Every task is taken.** From any reachable state, whatever the producers do and however often
the SQL thread wakes up spuriously, the `n` tasks that are in the queue have left it when the SQL
thread has taken `5 * n` steps: only tasks pushed later are left there, and when all tasks have
arguments, those from before have been executed, or one of them is in hand. And as long as there is
a task in the queue, a thread can go on without a new task and without a spurious wake-up, unless a
callback has called `PrepareSQL` and deadlocked the SQL thread. -/
theorem tasks_taken (acts : List SqlAction) (s : SqlState) (h : run sqlStep .start acts = some s) :
    (∀ more t, run sqlStep s more = some t →
      5 * s.sqlTaskQueue.length ≤ total sqlStep sqlThreadStep s more →
      ∃ later, t.pushed = s.pushed ++ later ∧ t.sqlTaskQueue <:+ later ∧
        ((∀ pack ∈ t.pushed, pack.arg ≠ none) → s.pushed <+: t.executed ++ t.pc.hand)) ∧
    (s.sqlTaskQueue ≠ [] → s.pc ≠ .deadlocked → ∃ a, a.GoesOn ∧ (sqlStep s a).isSome) := by
  refine ⟨fun more t hmore hsteps => ?_, exists_step_of_queue h⟩
  have ht := run_trans h hmore
  obtain ⟨later, hlater⟩ := pushed_prefix_of_run hmore
  have hdone : t.behind s.pushed.length = 0 := by
    by_contra hne
    exact absurd (total_lt_of_behind (Nat.pos_of_ne_zero hne) hmore) (Nat.not_lt.mpr hsteps)
  have hlen : t.sqlTaskQueue.length ≤ later.length := by
    rw [SqlState.behind, ← hlater, List.length_append] at hdone
    omega
  refine ⟨later, hlater.symm, ?_, fun hargs => ?_⟩
  · exact List.suffix_of_suffix_length_le (queue_suffix ht) ⟨_, hlater⟩ hlen
  · have hcons : t.executed ++ t.pc.hand ++ t.sqlTaskQueue = t.pushed := conserved_of_run hargs ht
    have hdone' : t.executed ++ t.pc.hand <+: t.pushed := ⟨_, hcons⟩
    refine List.prefix_of_prefix_length_le ⟨_, hlater⟩ hdone' ?_
    have hsum := congrArg List.length hcons
    have hpushed := congrArg List.length hlater
    simp only [List.length_append] at hsum hpushed ⊢
    omega

/-- The SQL thread is blocked when two producers submit a task each. -/
def twoWaiting : List SqlAction :=
  [.sqlLock, .waitTest, .block] ++ prepareActions ⟨.stmt, [], some 1, 0, 0⟩ ++
    [.lock 1 ⟨.stmt, [], some 2, 0, 0⟩, .push 1, .unlock 1, .notify 1]

/-- A third task comes before the SQL thread takes its steps; the first two succeed. -/
def tenSteps : List SqlAction :=
  [.lock 2 ⟨.stmt, [], some 3, 0, 0⟩, .push 2, .unlock 2, .sqlLock, .waitTest, .drainTest,
    .skipTest, .result true, .callback none, .release, .drainTest, .skipTest, .result true]

theorem tasks_taken_two :
    ∃ s t, run sqlStep .start twoWaiting = some s ∧ s.pc = .woken ∧
      s.sqlTaskQueue = [⟨.stmt, [], some 1, 0, 0⟩, ⟨.stmt, [], some 2, 0, 0⟩] ∧
      run sqlStep s tenSteps = some t ∧ t.sqlTaskQueue = [⟨.stmt, [], some 3, 0, 0⟩] ∧
      s.pushed <+: t.executed ++ t.pc.hand := by
  obtain ⟨s, t, hs, hpc, hqueue, ht, hrest, hsteps, hargs⟩ : ∃ s t,
      run sqlStep .start twoWaiting = some s ∧ s.pc = .woken ∧
      s.sqlTaskQueue = [⟨.stmt, [], some 1, 0, 0⟩, ⟨.stmt, [], some 2, 0, 0⟩] ∧
      run sqlStep s tenSteps = some t ∧ t.sqlTaskQueue = [⟨.stmt, [], some 3, 0, 0⟩] ∧
      5 * s.sqlTaskQueue.length ≤ total sqlStep sqlThreadStep s tenSteps ∧
      ∀ pack ∈ t.pushed, pack.arg ≠ none :=
    ⟨_, _, rfl, rfl, rfl, rfl, rfl, by decide, by decide⟩
  obtain ⟨later, -, -, hexec⟩ := (tasks_taken _ s hs).1 _ t ht hsteps
  exact ⟨s, t, hs, hpc, hqueue, ht, hrest, hexec hargs⟩

end PetsServer

import PetsServer.Sql.Loop

/-!
# The lock of the SQL queue

Who owns `m_sqlQueueMtx` in a reachable state is read off where the threads are: a producer owns it
from its lock to its unlock, and the SQL thread from the lock at the top of its loop to the end of
the sleep, except while it waits (`SqlState.Locking`). The same invariant says that a producer
still has to notify when the SQL thread is blocked and the queue is not empty, so that no wake-up
is lost (`no_lost_wakeup`), and that the SQL thread executes, calls back and sleeps with the mutex
locked (`sql_unlocked_iff`).
-/

namespace PetsServer

open Foundations

/-- The producer owns the mutex. -/
def ProducerPc.holds : ProducerPc → Bool
  | .locked _ | .pushed => true
  | .idle | .unlocked => false

/-- The producer is between its push and its `notify_one`. -/
def ProducerPc.notifies : ProducerPc → Bool
  | .pushed | .unlocked => true
  | .idle | .locked _ => false

/-- The SQL thread owns the mutex. -/
def SqlPc.holds : SqlPc → Bool
  | .top | .blocked | .woken => false
  | _ => true

/-- The SQL thread executes a statement, runs the callback of a task, or sleeps. -/
def SqlPc.works : SqlPc → Bool
  | .executing _ | .callback _ | .sleeping => true
  | _ => false

/-- The SQL thread is before the test of the wait's predicate, or in the wait. -/
def SqlPc.waits : SqlPc → Bool
  | .top | .waiting | .blocking | .blocked | .woken => true
  | _ => false

/-- Wherever the thread works, it holds the mutex. -/
theorem SqlPc.holds_of_works {pc : SqlPc} (h : pc.works = true) : pc.holds = true := by
  cases pc with
  | executing | callback | sleeping => rfl
  | _ => cases h

theorem SqlPc.not_works_of_waits {pc : SqlPc} (h : pc.waits = true) : pc.works = false := by
  cases pc with
  | executing | callback | sleeping => cases h
  | _ => rfl

@[simp] theorem SqlPc.holds_notified (pc : SqlPc) : pc.notified.holds = pc.holds := by
  cases pc <;> rfl

@[simp] theorem SqlPc.waits_notified (pc : SqlPc) : pc.notified.waits = pc.waits := by
  cases pc <;> rfl

theorem SqlPc.notified_ne_blocked (pc : SqlPc) : pc.notified ≠ .blocked := by
  cases pc <;> exact fun h => by cases h

theorem SqlPc.notified_eq_blocking {pc : SqlPc} : pc.notified = .blocking ↔ pc = .blocking := by
  cases pc <;> simp [notified]

/-! ## The invariant -/

/-- Who owns the mutex, and who still has to notify. -/
structure SqlState.Locking (s : SqlState) : Prop where
  sql : s.owner = some .sql ↔ s.pc.holds = true
  producer : ∀ i, s.owner = some (.producer i) ↔ (s.producers i).holds = true
  /-- The queue is still empty when the thread blocks. -/
  tested : s.pc = .blocking → s.sqlTaskQueue = []
  notifies : s.pc = .blocked → s.sqlTaskQueue ≠ [] → ∃ i, (s.producers i).notifies = true

theorem SqlState.locking_start : SqlState.start.Locking where
  sql := by simp [start, SqlPc.holds]
  producer := fun i => by simp [start, ProducerPc.holds]
  tested := fun h => by cases h
  notifies := fun h => by cases h

namespace SqlState.Locking

variable {s : SqlState}

/-- The mutex is free when the SQL thread is outside it and every producer is. -/
theorem free (hs : s.Locking) (h : s.owner = none) :
    s.pc.holds = false ∧ ∀ i, (s.producers i).holds = false := by
  refine ⟨?_, fun i => ?_⟩
  · rw [Bool.eq_false_iff, ne_eq, ← hs.sql, h]
    exact fun heq => by cases heq
  · rw [Bool.eq_false_iff, ne_eq, ← hs.producer i, h]
    exact fun heq => by cases heq

/-- While the SQL thread owns the mutex no producer does. -/
theorem producer_outside (hs : s.Locking) (h : s.pc.holds = true) (i : ℕ) :
    (s.producers i).holds = false := by
  rw [Bool.eq_false_iff, ne_eq, ← hs.producer i, hs.sql.mpr h]
  exact fun heq => by cases heq

/-- While a producer owns the mutex the SQL thread does not. -/
theorem sql_outside (hs : s.Locking) {i : ℕ} (h : (s.producers i).holds = true) :
    s.pc.holds = false := by
  rw [Bool.eq_false_iff, ne_eq, ← hs.sql, (hs.producer i).mpr h]
  exact fun heq => by cases heq

/-- A step of the SQL thread inside the mutex, or outside it. -/
theorem setPc (hs : s.Locking) {t : SqlState} (howner : t.owner = s.owner)
    (hproducers : t.producers = s.producers) (hholds : t.pc.holds = s.pc.holds)
    (hblocked : t.pc ≠ .blocked) (htested : t.pc = .blocking → t.sqlTaskQueue = []) :
    t.Locking where
  sql := by rw [howner, hholds, hs.sql]
  producer i := by rw [howner, hproducers, hs.producer i]
  tested := htested
  notifies h := absurd h hblocked

/-- The SQL thread gives the mutex back. -/
theorem release (hs : s.Locking) {t : SqlState} (hheld : s.pc.holds = true)
    (howner : t.owner = none) (hproducers : t.producers = s.producers)
    (hholds : t.pc.holds = false) (hqueue : t.sqlTaskQueue = [] ∨ t.pc ≠ .blocked) :
    t.Locking where
  sql := by simp [howner, hholds]
  producer i := by simp [howner, hproducers, hs.producer_outside hheld i]
  tested h := by
    rw [h] at hholds
    cases hholds
  notifies h hne := (hqueue.elim hne fun hnot => hnot h).elim

/-- Producer `i` goes on to `p`, and the mutex with it. -/
theorem setProducer (hs : s.Locking) {t : SqlState} {i : ℕ} {p : ProducerPc}
    (hproducers : t.producers = Function.update s.producers i p) (hpc : t.pc.holds = s.pc.holds)
    (hsql : t.owner = some .sql ↔ s.owner = some .sql)
    (hown : t.owner = some (.producer i) ↔ p.holds = true)
    (hother : ∀ j, j ≠ i → (t.owner = some (.producer j) ↔ s.owner = some (.producer j)))
    (htested : t.pc = .blocking → t.sqlTaskQueue = [])
    (hnotifies : t.pc = .blocked → t.sqlTaskQueue ≠ [] → p.notifies = true ∨
      ∃ j, j ≠ i ∧ (s.producers j).notifies = true) : t.Locking where
  sql := by rw [hsql, hs.sql, hpc]
  producer j := by
    by_cases hj : j = i
    · rw [hj, hproducers, Function.update_self, hown]
    · rw [hproducers, Function.update_of_ne hj, hother j hj, hs.producer j]
  tested := htested
  notifies hb hq := by
    rcases hnotifies hb hq with hp | ⟨j, hj, hn⟩
    · exact ⟨i, by rwa [hproducers, Function.update_self]⟩
    · exact ⟨j, by rwa [hproducers, Function.update_of_ne hj]⟩

/-- A producer that still has to notify is another one. -/
theorem notifies_other (hs : s.Locking) {i : ℕ} (hi : (s.producers i).notifies = false)
    (hb : s.pc = .blocked) (hq : s.sqlTaskQueue ≠ []) :
    ∃ j, j ≠ i ∧ (s.producers j).notifies = true := by
  obtain ⟨j, hj⟩ := hs.notifies hb hq
  refine ⟨j, fun heq => ?_, hj⟩
  rw [heq, hi] at hj
  cases hj

/-- **The step lemma.** -/
theorem step (hs : s.Locking) {t : SqlState} {a : SqlAction} (h : sqlStep s a = some t) :
    t.Locking := by
  cases sqlStep_cases h with
  | lock i request hidle hfree =>
    refine hs.setProducer rfl rfl ?_ ?_ (fun j hj => ?_) hs.tested fun hb hq => .inr ?_
    · simp [hfree]
    · simp [ProducerPc.holds]
    · simp [hfree, Ne.symm hj]
    · exact hs.notifies_other (by rw [hidle]; rfl) hb hq
  | push i pack hlocked =>
    have hheld : (s.producers i).holds = true := by rw [hlocked]; rfl
    refine hs.setProducer rfl rfl Iff.rfl ?_ (fun _ _ => Iff.rfl) (fun hb => ?_) fun _ _ => .inl rfl
    · exact iff_of_true ((hs.producer i).mpr hheld) rfl
    · -- the SQL thread would own the mutex
      have hout := hs.sql_outside hheld
      rw [show s.pc = .blocking from hb] at hout
      cases hout
  | unlock i hpushed =>
    have hheld : (s.producers i).holds = true := by rw [hpushed]; rfl
    have howner := (hs.producer i).mpr hheld
    refine hs.setProducer rfl rfl ?_ ?_ (fun j hj => ?_) hs.tested fun _ _ => .inl rfl
    · simp [howner]
    · simp [ProducerPc.holds]
    · simp [howner, Ne.symm hj]
  | notify i hunlocked =>
    have hout : (s.producers i).holds = false := by rw [hunlocked]; rfl
    refine hs.setProducer rfl s.pc.holds_notified Iff.rfl ?_ (fun _ _ => Iff.rfl)
      (fun hb => hs.tested (SqlPc.notified_eq_blocking.mp hb)) fun hb => ?_
    · exact (hs.producer i).trans (by rw [hout]; exact Iff.rfl)
    · exact absurd hb s.pc.notified_ne_blocked
  | sqlLock hpc hfree =>
    refine ⟨by simp [SqlPc.holds], fun i => ?_, fun hb => ?_, fun hb => ?_⟩
    · simp [(hs.free hfree).2 i]
    · cases hb
    · cases hb
  | empty hpc hq =>
    exact hs.setPc rfl rfl (by rw [hpc]; rfl) (fun hb => by cases hb) fun _ => hq
  | block hpc => exact hs.release (by rw [hpc]; rfl) rfl rfl rfl (.inl (hs.tested hpc))
  | sqlUnlock hpc =>
    exact hs.release (by rw [hpc]; rfl) rfl rfl rfl (.inr fun hb => by cases hb)
  | drain hpc | wake hpc | drained hpc | get _ _ hpc | skip _ hpc | execute _ hpc | callback _ hpc
    | deadlock _ _ hpc | release _ hpc =>
    exact hs.setPc rfl rfl (by rw [hpc]; rfl) (fun hb => by cases hb) fun hb => by cases hb
  | result pack ok hpc =>
    cases ok <;>
      exact hs.setPc rfl rfl (by rw [hpc]; rfl) (fun hb => by cases hb) fun hb => by cases hb

end SqlState.Locking

/-- **The run lemma.** -/
theorem SqlState.locking_of_run {acts : List SqlAction} {s : SqlState}
    (h : run sqlStep .start acts = some s) : s.Locking :=
  run_invariant SqlState.Locking (fun _ _ _ hs => hs.step) SqlState.locking_start h

/-! ## No lost wake-up -/

/-- **No lost wake-up.** When the SQL thread is blocked and the queue is not empty, some producer is
between its push and its `notify_one`. -/
theorem no_lost_wakeup {acts : List SqlAction} {s : SqlState}
    (h : run sqlStep .start acts = some s) (hblocked : s.pc = .blocked)
    (hqueue : s.sqlTaskQueue ≠ []) : ∃ i, s.producers i = .pushed ∨ s.producers i = .unlocked := by
  obtain ⟨i, hi⟩ := (SqlState.locking_of_run h).notifies hblocked hqueue
  refine ⟨i, ?_⟩
  cases hp : s.producers i with
  | pushed => exact .inl rfl
  | unlocked => exact .inr rfl
  | idle | locked => rw [hp] at hi; cases hi

/-- The SQL thread blocks before the first task is pushed, and is not yet notified. -/
theorem no_lost_wakeup_first :
    ∃ s, run sqlStep .start [.sqlLock, .waitTest, .block, .lock 0 ⟨.stmt, [], some 1, 0, 0⟩,
        .push 0, .unlock 0] = some s ∧
      ∃ i, s.producers i = .pushed ∨ s.producers i = .unlocked := by
  have hrun : run sqlStep .start [.sqlLock, .waitTest, .block,
      .lock 0 ⟨.stmt, [], some 1, 0, 0⟩, .push 0, .unlock 0] = some _ := rfl
  exact ⟨_, hrun, no_lost_wakeup hrun rfl (List.cons_ne_nil _ _)⟩

/-! ## The extent of the lock -/

/-- The SQL thread works with the mutex locked. -/
theorem owner_of_works {acts : List SqlAction} {s : SqlState}
    (h : run sqlStep .start acts = some s) (hworks : s.pc.works = true) : s.owner = some .sql :=
  (SqlState.locking_of_run h).sql.mpr (SqlPc.holds_of_works hworks)

/-- Until a task is pushed, the SQL thread does nothing but wait. -/
def SqlState.Waiting (s : SqlState) : Prop :=
  s.pushed = [] → s.sqlTaskQueue = [] ∧ s.pc.waits = true

theorem waiting_step {s t : SqlState} {a : SqlAction} (hs : s.Waiting)
    (h : sqlStep s a = some t) : t.Waiting := by
  intro hnone
  obtain ⟨hqueue, hwaits⟩ := hs (List.prefix_nil.mp (hnone ▸ pushed_mono h))
  cases sqlStep_cases h with
  | lock | unlock => exact ⟨hqueue, hwaits⟩
  | push => exact absurd hnone (List.append_ne_nil_of_right_ne_nil _ (List.cons_ne_nil _ _))
  | notify => exact ⟨hqueue, s.pc.waits_notified.trans hwaits⟩
  | sqlLock | empty | block | wake => exact ⟨hqueue, rfl⟩
  | drain _ hne => exact absurd hqueue hne
  | drained hpc | get _ _ hpc | skip _ hpc | execute _ hpc | result _ _ hpc | callback _ hpc
    | deadlock _ _ hpc | release _ hpc | sqlUnlock hpc =>
    rw [hpc] at hwaits
    cases hwaits

theorem waiting_of_run {acts : List SqlAction} {s : SqlState}
    (h : run sqlStep .start acts = some s) : s.Waiting :=
  run_invariant SqlState.Waiting (fun _ _ _ hs => waiting_step hs)
    (fun _ => ⟨rfl, rfl⟩) h

/-- One task is enough for the SQL thread to work. -/
theorem exists_run_works (request : SqlRequest) :
    ∃ acts s, run sqlStep .start acts = some s ∧ s.pushed = [prepareSQL request] ∧
      s.pc.works = true := by
  have hlock : run sqlStep (quiet none .top [prepareSQL request] [prepareSQL request] [] [])
      [.sqlLock, .waitTest, .drainTest] = some (quiet (some .sql) (.inHand (prepareSQL request)) []
        [prepareSQL request] [] []) := by
    simp [run_cons, sqlStep, mysqlLoopStep, quiet]
  have hrun := run_trans (run_prepareActions [] request) hlock
  cases harg : request.bind with
  | none =>
    -- the task is dropped, and the thread sleeps
    have hsleep : run sqlStep (quiet (some .sql) (.inHand (prepareSQL request)) []
        [prepareSQL request] [] []) [.skipTest, .drainTest] =
        some (quiet (some .sql) .sleeping [] [prepareSQL request] [] []) := by
      simp [run_cons, sqlStep, mysqlLoopStep, quiet, SqlPack.queryBind, prepareSQL, harg]
    exact ⟨_, _, run_trans hrun hsleep, rfl, rfl⟩
  | some arg =>
    have hexec : run sqlStep (quiet (some .sql) (.inHand (prepareSQL request)) []
        [prepareSQL request] [] []) [.skipTest] = some (quiet (some .sql)
          (.executing (prepareSQL request)) [] [prepareSQL request] [prepareSQL request] []) := by
      simp [sqlStep, mysqlLoopStep, quiet, SqlPack.queryBind, prepareSQL, harg]
    exact ⟨_, _, run_trans hrun hexec, rfl, rfl⟩

/-- **When the mutex is free for the producers.** In every state of every run in which the tasks
submitted are from the given ones, the SQL thread works without the mutex and no thread locks it
twice, if and only if no task is given. Whenever the thread works it owns the mutex. -/
theorem sql_unlocked_iff (requests : List SqlRequest) :
    ((∀ acts s, run sqlStep .start acts = some s → s.pushed <+: requests.map prepareSQL →
        (s.pc.works = true → s.owner ≠ some .sql) ∧ s.pc ≠ .deadlocked) ↔ requests = []) ∧
      ∀ acts s, run sqlStep .start acts = some s → s.pc.works = true → s.owner = some .sql := by
  refine ⟨⟨fun hfree => ?_, ?_⟩, fun acts s hrun => owner_of_works hrun⟩
  · by_contra hne
    obtain ⟨request, requests, rfl⟩ := List.exists_cons_of_ne_nil hne
    obtain ⟨acts, s, hrun, hpushed, hworks⟩ := exists_run_works request
    refine (hfree acts s hrun ?_).1 hworks (owner_of_works hrun hworks)
    rw [hpushed]
    exact ⟨requests.map prepareSQL, rfl⟩
  · rintro rfl acts s hrun hpre
    obtain ⟨-, hwaits⟩ := waiting_of_run hrun (List.prefix_nil.mp hpre)
    constructor
    · intro hworks
      rw [SqlPc.not_works_of_waits hwaits] at hworks
      cases hworks
    · intro hdead
      rw [hdead] at hwaits
      cases hwaits

/-- A task is executed with the mutex locked, and its callback submits another. -/
theorem callback_deadlocks :
    ∃ s t, run sqlStep .start (prepareActions ⟨.stmt, [], some 1, 0, 0⟩ ++
        [.sqlLock, .waitTest, .drainTest, .skipTest, .result true]) = some s ∧
      s.pc = .callback ⟨.stmt, [], some 1, 0, 0⟩ ∧ s.owner = some .sql ∧
      sqlStep s (.callback (some ⟨.stmt, [], some 2, 0, 0⟩)) = some t ∧ t.pc = .deadlocked :=
  ⟨_, _, rfl, rfl, rfl, rfl, rfl⟩

end PetsServer

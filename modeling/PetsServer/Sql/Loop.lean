import Mathlib.Logic.Function.Basic
import PetsServer.Foundations.Run
import PetsServer.Sql.Task

/-!
# The SQL thread

`sqlStep` interleaves any number of producers, which run `Pet::PrepareSQL`, with the SQL thread,
which runs `MysqlLoop`. The mutex `m_sqlQueueMtx` has at most one owner; the wait of `m_cv` tests
its predicate with the mutex held, and then blocks and releases the mutex in one step; a blocked
thread can be woken by `notify_one`, or spuriously. What a statement and its callback do is up to
the database and to the caller of `PrepareSQL`.

`tasks_conserved_iff` says for which tasks the queue loses none.
-/

namespace PetsServer

open Foundations

/-- The threads that lock `m_sqlQueueMtx`. -/
inductive SqlThread
  | sql
  | producer (i : ℕ)
  deriving DecidableEq, Repr

/-- Where a producer is in `PrepareSQL`. -/
inductive ProducerPc
  | idle
  /-- In `PushSqlPack`, with the mutex locked. -/
  | locked (pack : SqlPack)
  /-- The task is in the queue. -/
  | pushed
  /-- Before `notify_one`. -/
  | unlocked
  deriving DecidableEq, Repr

/-- Where the SQL thread is in `MysqlLoop`. -/
inductive SqlPc
  /-- Before the lock. -/
  | top
  /-- Before the test of the wait's predicate. -/
  | waiting
  /-- The predicate is false; before the mutex is released. -/
  | blocking
  /-- Blocked in the wait, without the mutex. -/
  | blocked
  /-- Woken, and about to lock the mutex again. -/
  | woken
  /-- Before the test of the inner loop. -/
  | draining
  | inHand (pack : SqlPack)
  /-- In `ExecuteSentence`. -/
  | executing (pack : SqlPack)
  /-- In the callback of the task. -/
  | callback (pack : SqlPack)
  /-- Locking a mutex that it already owns. -/
  | deadlocked
  | releasing (pack : SqlPack)
  | sleeping
  deriving DecidableEq, Repr

/-- The task in hand, if any. -/
def SqlPc.hand : SqlPc → List SqlPack
  | .inHand pack => [pack]
  | _ => []

/-- The mutex, the queue and the threads, with the tasks pushed, the tasks passed to
`ExecuteSentence` and the releases, each in order. -/
structure SqlState where
  owner : Option SqlThread
  sqlTaskQueue : List SqlPack
  producers : ℕ → ProducerPc
  pc : SqlPc
  pushed : List SqlPack
  executed : List SqlPack
  released : List SqlRelease

/-- The start of the SQL thread. -/
def SqlState.start : SqlState := ⟨none, [], fun _ => .idle, .top, [], [], []⟩

/-- A producer goes on. -/
def SqlState.setProducer (s : SqlState) (i : ℕ) (pc : ProducerPc) : SqlState :=
  { s with producers := Function.update s.producers i pc }

/-- The steps. -/
inductive SqlAction
  /-- Producer `i` calls `PrepareSQL`, makes a task and locks the mutex. -/
  | lock (i : ℕ) (request : SqlRequest)
  | push (i : ℕ)
  | unlock (i : ℕ)
  | notify (i : ℕ)
  /-- The SQL thread locks the mutex. -/
  | sqlLock
  /-- The predicate of the wait is tested. -/
  | waitTest
  /-- The mutex is released and the thread blocks. -/
  | block
  /-- A spurious wake-up. -/
  | wake
  /-- The test of the inner loop, and `GetSqlPack`. -/
  | drainTest
  /-- The test of `query_bind`. -/
  | skipTest
  /-- The statement has succeeded, or not. -/
  | result (ok : Bool)
  /-- The callback returns, or calls `PrepareSQL` itself. -/
  | callback (prepares : Option SqlRequest)
  | release
  /-- The end of the sleep, where the lock goes out of scope. -/
  | sqlUnlock
  deriving DecidableEq, Repr

/-- One step of a producer. -/
def producerStep (s : SqlState) : SqlAction → Option SqlState
  | .lock i request =>
    match s.producers i, s.owner with
    | .idle, none =>
      some { s.setProducer i (.locked (prepareSQL request)) with owner := some (.producer i) }
    | _, _ => none
  | .push i =>
    match s.producers i with
    | .locked pack => some { s.setProducer i .pushed with
        sqlTaskQueue := s.sqlTaskQueue ++ [pack], pushed := s.pushed ++ [pack] }
    | _ => none
  | .unlock i =>
    match s.producers i with
    | .pushed => some { s.setProducer i .unlocked with owner := none }
    | _ => none
  | .notify i =>
    match s.producers i with
    | .unlocked => some { s.setProducer i .idle with
        pc := if s.pc = .blocked then .woken else s.pc }
    | _ => none
  | _ => none

/-- One step of the SQL thread. -/
def mysqlLoopStep (s : SqlState) (a : SqlAction) : Option SqlState :=
  match s.pc, a with
  | .top, .sqlLock | .woken, .sqlLock =>
    match s.owner with
    | none => some { s with owner := some .sql, pc := .waiting }
    | some _ => none
  | .waiting, .waitTest =>
    if s.sqlTaskQueue.isEmpty then some { s with pc := .blocking }
    else some { s with pc := .draining }
  | .blocking, .block => some { s with owner := none, pc := .blocked }
  | .blocked, .wake => some { s with pc := .woken }
  | .draining, .drainTest =>
    match s.sqlTaskQueue with
    | [] => some { s with pc := .sleeping }
    | pack :: queue => some { s with sqlTaskQueue := queue, pc := .inHand pack }
  | .inHand pack, .skipTest =>
    -- `continue`: nothing is executed, and nothing is released
    if pack.queryBind = none then some { s with pc := .draining }
    else some { s with executed := s.executed ++ [pack], pc := .executing pack }
  | .executing pack, .result ok =>
    some { s with pc := if ok then .callback pack else .releasing pack }
  | .callback pack, .callback none => some { s with pc := .releasing pack }
  -- `PushSqlPack` locks the mutex, which this thread owns since the top of the loop
  | .callback _, .callback (some _) => some { s with pc := .deadlocked }
  | .releasing pack, .release =>
    some { s with released := s.released ++ pack.release, pc := .draining }
  | .sleeping, .sqlUnlock => some { s with owner := none, pc := .top }
  | _, _ => none

/-- One step. -/
def sqlStep (s : SqlState) (a : SqlAction) : Option SqlState :=
  match a with
  | .lock _ _ | .push _ | .unlock _ | .notify _ => producerStep s a
  | _ => mysqlLoopStep s a

/-- What a step does, case by case. -/
inductive SqlStep (s : SqlState) : SqlAction → SqlState → Prop
  | lock (i : ℕ) (request : SqlRequest) : s.producers i = .idle → s.owner = none →
      SqlStep s (.lock i request)
        { s.setProducer i (.locked (prepareSQL request)) with owner := some (.producer i) }
  | push (i : ℕ) (pack : SqlPack) : s.producers i = .locked pack →
      SqlStep s (.push i) { s.setProducer i .pushed with
        sqlTaskQueue := s.sqlTaskQueue ++ [pack], pushed := s.pushed ++ [pack] }
  | unlock (i : ℕ) : s.producers i = .pushed →
      SqlStep s (.unlock i) { s.setProducer i .unlocked with owner := none }
  | notify (i : ℕ) : s.producers i = .unlocked →
      SqlStep s (.notify i) { s.setProducer i .idle with
        pc := if s.pc = .blocked then .woken else s.pc }
  | sqlLock : s.pc = .top ∨ s.pc = .woken → s.owner = none →
      SqlStep s .sqlLock { s with owner := some .sql, pc := .waiting }
  | empty : s.pc = .waiting → s.sqlTaskQueue = [] → SqlStep s .waitTest { s with pc := .blocking }
  | drain : s.pc = .waiting → s.sqlTaskQueue ≠ [] → SqlStep s .waitTest { s with pc := .draining }
  | block : s.pc = .blocking → SqlStep s .block { s with owner := none, pc := .blocked }
  | wake : s.pc = .blocked → SqlStep s .wake { s with pc := .woken }
  | drained : s.pc = .draining → s.sqlTaskQueue = [] →
      SqlStep s .drainTest { s with pc := .sleeping }
  | get (pack : SqlPack) (queue : List SqlPack) : s.pc = .draining →
      s.sqlTaskQueue = pack :: queue →
      SqlStep s .drainTest { s with sqlTaskQueue := queue, pc := .inHand pack }
  | skip (pack : SqlPack) : s.pc = .inHand pack → pack.arg = none →
      SqlStep s .skipTest { s with pc := .draining }
  | execute (pack : SqlPack) : s.pc = .inHand pack → pack.arg ≠ none →
      SqlStep s .skipTest { s with executed := s.executed ++ [pack], pc := .executing pack }
  | result (pack : SqlPack) (ok : Bool) : s.pc = .executing pack →
      SqlStep s (.result ok) { s with pc := if ok then .callback pack else .releasing pack }
  | callback (pack : SqlPack) : s.pc = .callback pack →
      SqlStep s (.callback none) { s with pc := .releasing pack }
  | deadlock (pack : SqlPack) (request : SqlRequest) : s.pc = .callback pack →
      SqlStep s (.callback (some request)) { s with pc := .deadlocked }
  | release (pack : SqlPack) : s.pc = .releasing pack →
      SqlStep s .release { s with released := s.released ++ pack.release, pc := .draining }
  | sqlUnlock : s.pc = .sleeping → SqlStep s .sqlUnlock { s with owner := none, pc := .top }

theorem producerStep_cases {s t : SqlState} {a : SqlAction} (h : producerStep s a = some t) :
    SqlStep s a t := by
  unfold producerStep at h
  split at h
  case h_1 i request =>
    split at h <;> cases h
    rename_i hidle hfree
    exact .lock i request hidle hfree
  case h_2 i =>
    split at h <;> cases h
    rename_i pack hlocked
    exact .push i pack hlocked
  case h_3 i =>
    split at h <;> cases h
    rename_i hpushed
    exact .unlock i hpushed
  case h_4 i =>
    split at h <;> cases h
    rename_i hunlocked
    exact .notify i hunlocked
  case h_5 => cases h

theorem mysqlLoopStep_cases {s t : SqlState} {a : SqlAction} (h : mysqlLoopStep s a = some t) :
    SqlStep s a t := by
  unfold mysqlLoopStep at h
  split at h
  case h_1 hpc =>
    split at h <;> cases h
    rename_i hfree
    exact .sqlLock (.inl hpc) hfree
  case h_2 hpc =>
    split at h <;> cases h
    rename_i hfree
    exact .sqlLock (.inr hpc) hfree
  case h_3 hpc =>
    split at h <;> rename_i hq <;> cases h
    · exact .empty hpc (List.isEmpty_iff.mp hq)
    · exact .drain hpc (fun hn => hq (List.isEmpty_iff.mpr hn))
  case h_4 hpc => cases h; exact .block hpc
  case h_5 hpc => cases h; exact .wake hpc
  case h_6 hpc =>
    split at h <;> rename_i hq <;> cases h
    · exact .drained hpc hq
    · exact .get _ _ hpc hq
  case h_7 pack hpc =>
    split at h <;> rename_i hnull <;> cases h
    · exact .skip pack hpc hnull
    · exact .execute pack hpc hnull
  case h_8 pack ok hpc => cases h; exact .result pack ok hpc
  case h_9 pack hpc => cases h; exact .callback pack hpc
  case h_10 pack request hpc => cases h; exact .deadlock pack request hpc
  case h_11 pack hpc => cases h; exact .release pack hpc
  case h_12 hpc => cases h; exact .sqlUnlock hpc
  case h_13 => cases h

theorem sqlStep_cases {s t : SqlState} {a : SqlAction} (h : sqlStep s a = some t) :
    SqlStep s a t := by
  unfold sqlStep at h
  split at h
  case h_5 => exact mysqlLoopStep_cases h
  all_goals exact producerStep_cases h

/-! ## The queue -/

/-- A notification wakes a blocked thread, and does nothing to any other. -/
def SqlPc.notified (pc : SqlPc) : SqlPc := if pc = .blocked then .woken else pc

@[simp] theorem SqlPc.hand_notified (pc : SqlPc) : pc.notified.hand = pc.hand := by
  cases pc <;> rfl

/-- No task is lost, duplicated or overtaken. -/
def SqlState.Conserved (s : SqlState) : Prop :=
  s.executed ++ s.pc.hand ++ s.sqlTaskQueue = s.pushed

/-- **The step lemma**: only the test of `query_bind` can lose a task. -/
theorem conserved_step {s t : SqlState} {a : SqlAction} (hs : s.Conserved)
    (hargs : ∀ pack ∈ s.pushed, pack.arg ≠ none) (h : sqlStep s a = some t) : t.Conserved := by
  unfold SqlState.Conserved at hs ⊢
  cases sqlStep_cases h with
  | lock | unlock => exact hs
  | push i pack =>
    change _ ++ _ ++ (_ ++ _) = _ ++ _
    rw [← hs, ← List.append_assoc]
    rfl
  | notify =>
    change s.executed ++ s.pc.notified.hand ++ s.sqlTaskQueue = s.pushed
    rw [SqlPc.hand_notified]
    exact hs
  | sqlLock hpc =>
    rcases hpc with hpc | hpc <;> simpa [hpc, SqlPc.hand] using hs
  | empty hpc | drain hpc | block hpc | wake hpc | drained hpc | callback pack hpc
    | deadlock pack _ hpc | release pack hpc | sqlUnlock hpc =>
    simpa [hpc, SqlPc.hand] using hs
  | result pack ok hpc => cases ok <;> simpa [hpc, SqlPc.hand] using hs
  | get pack queue hpc hq => simpa [hpc, hq, SqlPc.hand] using hs
  | skip pack hpc hnull =>
    refine absurd hnull (hargs pack ?_)
    rw [← hs, hpc]
    simp [SqlPc.hand]
  | execute pack hpc => simpa [hpc, SqlPc.hand] using hs

/-- Tasks that are pushed stay pushed. -/
theorem pushed_mono {s t : SqlState} {a : SqlAction} (h : sqlStep s a = some t) :
    s.pushed <+: t.pushed := by
  cases sqlStep_cases h with
  | push i pack => exact List.prefix_append _ _
  | _ => exact List.prefix_refl _

/-- The run rule for a condition on the tasks that are pushed. -/
theorem run_invariant_of_pushed {P : SqlPack → Prop} (I : SqlState → Prop)
    (hstep : ∀ s a t, I s → (∀ pack ∈ s.pushed, P pack) → sqlStep s a = some t → I t)
    {acts : List SqlAction} {s : SqlState} (h₀ : I .start) (hpushed : ∀ pack ∈ s.pushed, P pack)
    (h : run sqlStep .start acts = some s) : I s :=
  run_invariant_of_last I (fun s => ∀ pack ∈ s.pushed, P pack)
    (fun _ _ _ ht hall pack hp => hall pack ((pushed_mono ht).subset hp)) hstep h₀ hpushed h

/-- **The run lemma.** -/
theorem conserved_of_run {acts : List SqlAction} {s : SqlState}
    (hargs : ∀ pack ∈ s.pushed, pack.arg ≠ none) (h : run sqlStep .start acts = some s) :
    s.Conserved :=
  run_invariant_of_pushed SqlState.Conserved (fun _ _ _ => conserved_step) rfl hargs h

/-! ## Runs with one producer -/

/-- Producer 0 runs `PrepareSQL` from start to end. -/
def prepareActions (request : SqlRequest) : List SqlAction :=
  [.lock 0 request, .push 0, .unlock 0, .notify 0]

/-- No producer is at work. The SQL thread is at `pc`. -/
def quiet (owner : Option SqlThread) (pc : SqlPc) (queue pushed executed : List SqlPack)
    (released : List SqlRelease) : SqlState :=
  ⟨owner, queue, fun _ => .idle, pc, pushed, executed, released⟩

theorem run_prepareActions (queue : List SqlPack) (request : SqlRequest) :
    run sqlStep (quiet none .top queue queue [] []) (prepareActions request) =
      some (quiet none .top (queue ++ [prepareSQL request]) (queue ++ [prepareSQL request])
        [] []) := by
  simp [prepareActions, run_cons, sqlStep, producerStep, SqlState.setProducer, quiet]

theorem run_prepareAll (queue : List SqlPack) (requests : List SqlRequest) :
    run sqlStep (quiet none .top queue queue [] []) (requests.flatMap prepareActions) =
      some (quiet none .top (queue ++ requests.map prepareSQL) (queue ++ requests.map prepareSQL)
        [] []) := by
  induction requests generalizing queue with
  | nil => simp
  | cons request requests ih =>
    rw [List.flatMap_cons, run_append, run_prepareActions, Option.bind_some, ih]
    simp

/-- A task with arguments is executed; here its statement fails. -/
theorem run_executeOne {pack : SqlPack} (harg : pack.arg ≠ none)
    (queue pushed executed : List SqlPack) (released : List SqlRelease) :
    run sqlStep (quiet (some .sql) .draining (pack :: queue) pushed executed released)
      [.drainTest, .skipTest, .result false, .release] =
        some (quiet (some .sql) .draining queue pushed (executed ++ [pack])
          (released ++ pack.release)) := by
  simp [run_cons, sqlStep, mysqlLoopStep, quiet, SqlPack.queryBind, harg]

theorem exists_run_executeAll {packs : List SqlPack} (hargs : ∀ pack ∈ packs, pack.arg ≠ none)
    (queue pushed executed : List SqlPack) (released : List SqlRelease) :
    ∃ acts, run sqlStep
      (quiet (some .sql) .draining (packs ++ queue) pushed executed released) acts =
        some (quiet (some .sql) .draining queue pushed (executed ++ packs)
          (released ++ packs.flatMap SqlPack.release)) := by
  induction packs generalizing executed released with
  | nil => exact ⟨[], by simp⟩
  | cons pack packs ih =>
    obtain ⟨acts, hrun⟩ := ih (fun p hp => hargs p (List.mem_cons_of_mem _ hp))
      (executed ++ [pack]) (released ++ pack.release)
    rw [List.append_assoc, List.append_assoc] at hrun
    exact ⟨_, run_trans
      (run_executeOne (hargs pack List.mem_cons_self) (packs ++ queue) pushed executed released)
      hrun⟩

/-- All tasks but the last are executed, and the SQL thread is about to take that one. -/
theorem exists_run_drained {requests : List SqlRequest} (request : SqlRequest)
    (hargs : ∀ r ∈ requests, r.bind ≠ none) :
    ∃ acts, run sqlStep .start acts = some (quiet (some .sql) .draining [prepareSQL request]
      ((requests ++ [request]).map prepareSQL) (requests.map prepareSQL)
      ((requests.map prepareSQL).flatMap SqlPack.release)) := by
  have hpush := run_prepareAll [] (requests ++ [request])
  have hlock : run sqlStep (quiet none .top ((requests ++ [request]).map prepareSQL)
      ((requests ++ [request]).map prepareSQL) [] []) [.sqlLock, .waitTest] =
      some (quiet (some .sql) .draining ((requests ++ [request]).map prepareSQL)
        ((requests ++ [request]).map prepareSQL) [] []) := by
    simp [run_cons, sqlStep, mysqlLoopStep, quiet]
  have hpacks : ∀ pack ∈ requests.map prepareSQL, pack.arg ≠ none := by
    intro pack hp
    obtain ⟨r, hr, rfl⟩ := List.mem_map.mp hp
    exact hargs r hr
  obtain ⟨acts, hexec⟩ := exists_run_executeAll hpacks [prepareSQL request]
    ((requests ++ [request]).map prepareSQL) [] []
  rw [← List.map_singleton, ← List.map_append, List.nil_append, List.nil_append] at hexec
  exact ⟨_, run_trans (run_trans hpush hlock) hexec⟩

/-- A task without arguments is dropped. -/
theorem run_drop {pack : SqlPack} (hnull : pack.arg = none) (queue pushed executed : List SqlPack)
    (released : List SqlRelease) :
    run sqlStep (quiet (some .sql) .draining (pack :: queue) pushed executed released)
      [.drainTest, .skipTest] =
        some (quiet (some .sql) .draining queue pushed executed released) := by
  simp [run_cons, sqlStep, mysqlLoopStep, quiet, SqlPack.queryBind, hnull]

/-- A task without arguments, after tasks with arguments, is dropped. -/
theorem exists_run_dropped {requests : List SqlRequest} {request : SqlRequest}
    (hargs : ∀ r ∈ requests, r.bind ≠ none) (hnull : request.bind = none) :
    ∃ acts s, run sqlStep .start acts = some s ∧
      s.pushed = (requests ++ [request]).map prepareSQL ∧ ¬ s.Conserved := by
  obtain ⟨acts, hdrained⟩ := exists_run_drained request hargs
  refine ⟨_, _, run_trans hdrained (@run_drop (prepareSQL request) hnull _ _ _ _), rfl, ?_⟩
  intro hcons
  have hlen := congrArg List.length hcons
  simp [quiet, SqlPc.hand] at hlen

/-- **Which tasks are conserved.** At every moment of every run in which tasks are pushed in the
given order, the tasks passed to `ExecuteSentence`, the task in hand and the queue are the tasks
pushed, if and only if every task has a pointer to arguments. -/
theorem tasks_conserved_iff (requests : List SqlRequest) :
    (∀ acts s, run sqlStep .start acts = some s → s.pushed <+: requests.map prepareSQL →
      s.executed ++ s.pc.hand ++ s.sqlTaskQueue = s.pushed) ↔
    ∀ request ∈ requests, request.bind ≠ none := by
  constructor
  · intro hcons
    by_contra hall
    -- the first task without arguments is the one that is dropped
    obtain ⟨pre, request, post, rfl, hpre, hnull⟩ := exists_first_not hall
    obtain ⟨acts, s, hrun, hpushed, hnot⟩ := exists_run_dropped hpre (not_not.mp hnull)
    refine hnot (hcons acts s hrun ?_)
    rw [hpushed]
    exact ⟨post.map prepareSQL, by simp⟩
  · intro hargs acts s hrun hpre
    refine conserved_of_run (fun pack hp => ?_) hrun
    obtain ⟨r, hr, rfl⟩ := List.mem_map.mp (hpre.subset hp)
    exact hargs r hr

/-- A plain statement, which needs no arguments, is taken off the queue and not executed. -/
theorem plain_statement_dropped :
    ∃ s, run sqlStep .start (prepareActions ⟨.common, [], none, 0, 0⟩ ++
        [.sqlLock, .waitTest, .drainTest, .skipTest]) = some s ∧
      s.pushed = [⟨.common, [], none, 0, 0⟩] ∧ s.executed = [] ∧ s.pc.hand = [] ∧
      s.sqlTaskQueue = [] :=
  ⟨_, rfl, rfl, rfl, rfl, rfl⟩

end PetsServer

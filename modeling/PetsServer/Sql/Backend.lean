import PetsServer.Sql.Releases
import PetsServer.Sql.RemoteCall

/-!
# From the producers to the database

The SQL thread executes the tasks that the producers push, one after another, and every task calls a
procedure of a database. `backendStep` is a step of one of the threads, together with what the
helper, the connection and the server do at it. The producers and the SQL thread are interleaved
arbitrarily; the server is any that executes the texts of the calls.

The main result is `procedures_called_in_order`.
-/

namespace PetsServer

open Foundations OnWorld

variable {σ : Type}

/-- What the tasks find: the arrays at the addresses, the procedures, with their declarations, by
their names, and the server, with the session that it keeps. -/
structure Catalog (σ : Type) where
  paramList : List Byte → List Byte
  anyArr : ArgId → List AnyValue
  source : List Byte → List SourceDecl
  procedure : List Byte → SqlProcedure
  server : SqlServer σ
  view : σ → Database

namespace Catalog

/-- The parameters of a task, with the values that are bound. -/
def params (c : Catalog σ) (pack : SqlPack) : List SqlParam :=
  bindParams ((c.source (cString pack.sentence)).map SourceDecl.param)
    (((pack.anyArr.map c.anyArr).getD []).take pack.paramNums.toNat)

/-- The procedure that a task calls. -/
def callee (c : Catalog σ) (pack : SqlPack) : SqlProcedure := c.procedure (cString pack.sentence)

/-- The call that a task makes: the name of the procedure, and the values that are passed in. -/
def call (c : Catalog σ) (pack : SqlPack) : List Byte × List SqlValue :=
  ((c.callee pack).name, passedValues (c.params pack))

/-- What the caller of a task should receive. -/
def outcome (c : Catalog σ) (pack : SqlPack) : Option (List SqlParam) :=
  receive (c.params pack) ((c.callee pack).body (passedValues (c.params pack)))

/-- The question of a task for the signature of its procedure. -/
def question (c : Catalog σ) (pack : SqlPack) : List Byte :=
  cString (c.paramList (c.callee pack).name)

/-- The texts of a task's call. -/
def texts (c : Catalog σ) (pack : SqlPack) : List (List Byte) :=
  callTexts (c.callee pack).name (c.params pack)

/-- The server answers the statements that are in `log` and not in `before`. -/
def serve (c : Catalog σ) (db : σ) (before log : List SqlEvent) : σ :=
  (perform c.server db (queries (log.drop before.length))).1

end Catalog

/-- The threads, the helper and the connection, and the server. -/
structure Backend (σ : Type) where
  sql : SqlState
  world : SqlWorld
  db : σ

/-- Nothing is pushed and nothing is called. -/
def Backend.start (db : σ) : Backend σ := ⟨.start, .start, db⟩

/-- The cases of `ExecuteSentence`, until the callback is called. Only the one of the procedures is
here, which uses the helper. -/
def executeCase (c : Catalog σ) (env : CallEnv) (pack : SqlPack) : Option (OnWorld Int32) :=
  match pack.packType with
  | .procedure => some (prepareExecute c.paramList env pack)
  | .common | .stmt => none

/-- One step, with the surroundings of the call that it belongs to. A fault ends the program. -/
def backendStep (c : Catalog σ) (s : Backend σ) (a : SqlAction × CallEnv) : Option (Backend σ) :=
  (sqlStep s.sql a.1).bind fun sql =>
    match s.sql.pc, a.1 with
    | .executing pack, .result ok =>
      (executeCase c a.2 pack).bind fun x =>
        match x.run s.world with
        | .ok code w =>
          if ok = (code == 0) then some ⟨sql, w, c.serve s.db s.world.log w.log⟩ else none
        | .error _ _ => none
    | .callback _, .callback none =>
      match (sqlCallback a.2).run s.world with
      | .ok _ w => some ⟨sql, w, s.db⟩
      | .error _ _ => none
    | .releasing _, .release =>
      match clear.run s.world with
      | .ok _ w => some ⟨sql, w, s.db⟩
      | .error _ _ => none
    | _, _ => some ⟨sql, s.world, s.db⟩

/-- What a step does, case by case. -/
inductive BackendStep (c : Catalog σ) (s : Backend σ) (env : CallEnv) :
    SqlAction → Backend σ → Prop
  | execute (pack : SqlPack) (code : Int32) (w : SqlWorld) (hpc : s.sql.pc = .executing pack)
    (htype : pack.packType = .procedure)
    (hrun : Yields (prepareExecute c.paramList env pack) s.world (.ok code) w) :
    BackendStep c s env (.result (code == 0))
      ⟨{ s.sql with pc := if (code == 0) = true then .callback pack else .releasing pack }, w,
        c.serve s.db s.world.log w.log⟩
  | callback (pack : SqlPack) (w : SqlWorld) (hpc : s.sql.pc = .callback pack)
    (hrun : Yields (sqlCallback env) s.world (.ok ⟨⟩) w) :
    BackendStep c s env (.callback none) ⟨{ s.sql with pc := .releasing pack }, w, s.db⟩
  | release (pack : SqlPack) (w : SqlWorld) (hpc : s.sql.pc = .releasing pack)
    (hrun : Yields clear s.world (.ok ⟨⟩) w) :
    BackendStep c s env .release
      ⟨{ s.sql with released := s.sql.released ++ pack.release, pc := .draining }, w, s.db⟩
  | other (a : SqlAction) (sql : SqlState) (hstep : SqlStep s.sql a sql)
    (hresult : ∀ pack ok, s.sql.pc = .executing pack → a ≠ .result ok)
    (hcallback : ∀ pack, s.sql.pc = .callback pack → a ≠ .callback none)
    (hrelease : ∀ pack, s.sql.pc = .releasing pack → a ≠ .release) :
    BackendStep c s env a ⟨sql, s.world, s.db⟩

theorem executeCase_eq_some {c : Catalog σ} {env : CallEnv} {pack : SqlPack} {x : OnWorld Int32}
    (h : executeCase c env pack = some x) :
    pack.packType = .procedure ∧ x = prepareExecute c.paramList env pack := by
  unfold executeCase at h
  split at h
  case h_1 hprocedure => exact ⟨hprocedure, (Option.some.inj h).symm⟩
  case h_2 | h_3 => cases h

theorem backendStep_cases {c : Catalog σ} {s t : Backend σ} {a : SqlAction × CallEnv}
    (h : backendStep c s a = some t) : BackendStep c s a.2 a.1 t := by
  obtain ⟨a, env⟩ := a
  rw [backendStep, Option.bind_eq_some_iff] at h
  obtain ⟨sql, hsql, h⟩ := h
  have hstep := sqlStep_cases hsql
  dsimp only at h hstep ⊢
  split at h
  case h_1 pack ok hpc =>
    obtain ⟨x, hcase, h⟩ := Option.bind_eq_some_iff.mp h
    obtain ⟨htype, rfl⟩ := executeCase_eq_some hcase
    split at h
    case h_1 code w hrun =>
      split at h <;> cases h
      rename_i hok
      obtain rfl := hok
      cases hstep with
      | result pack' _ hpc' =>
        obtain rfl := SqlPc.executing.inj (hpc.symm.trans hpc')
        exact .execute pack code w hpc htype hrun
    case h_2 => cases h
  case h_2 pack hpc =>
    split at h <;> cases h
    rename_i w hrun
    cases hstep with
    | callback pack' hpc' =>
      obtain rfl := SqlPc.callback.inj (hpc.symm.trans hpc')
      exact .callback pack w hpc hrun
  case h_3 pack hpc =>
    split at h <;> cases h
    rename_i w hrun
    cases hstep with
    | release pack' hpc' =>
      obtain rfl := SqlPc.releasing.inj (hpc.symm.trans hpc')
      exact .release pack w hpc hrun
  case h_4 hresult hcallback hrelease =>
    cases h
    exact .other _ sql hstep (fun pack ok hpc ha => hresult pack ok hpc ha)
      (fun pack hpc ha => hcallback pack hpc ha) fun pack hpc ha => hrelease pack hpc ha

/-! ## What the database has seen -/

/-- The helper is not empty: a call has not been cleared yet. -/
def SqlPc.Holding : SqlPc → Prop
  | .callback _ | .deadlocked | .releasing _ => True
  | _ => False

/-- The task that is taken off the queue and not answered. -/
def SqlPc.unanswered : SqlPc → List SqlPack
  | .inHand pack | .executing pack => [pack]
  | _ => []

@[simp] theorem SqlPc.unanswered_notified (pc : SqlPc) :
    pc.notified.unanswered = pc.unanswered := by
  cases pc <;> rfl

theorem SqlPc.holding_notified {pc : SqlPc} : pc.notified.Holding ↔ pc.Holding := by
  cases pc <;> rfl

theorem SqlPc.notified_eq_callback {pc : SqlPc} {pack : SqlPack} :
    pc.notified = .callback pack ↔ pc = .callback pack := by
  cases pc <;> simp [notified]

/-- The tasks before those that wait have been answered, in the order in which they were pushed, and
a callback is called with what its own task has received. -/
structure Backend.Sound (c : Catalog σ) (before : List (List Byte × List SqlValue))
    (s : Backend σ) : Prop where
  size : s.world.prepareBuffer.length = prepareBufferSize
  ready : ¬ s.sql.pc.Holding → s.world.helper.toSignature = .zero
  calls : ∃ done, done ++ s.sql.pc.unanswered ++ s.sql.sqlTaskQueue = s.sql.pushed ∧
    (c.view s.db).calls = before ++ done.map c.call
  received : ∀ pack, s.sql.pc = .callback pack →
    some s.world.helper.declared = c.outcome pack

theorem Backend.sound_start (c : Catalog σ) (db : σ) :
    (Backend.start db).Sound c (c.view db).calls where
  size := SqlWorld.ready_start.size
  ready _ := rfl
  calls := ⟨[], rfl, (List.append_nil _).symm⟩
  received _ h := by cases h

/-- The call of a step is served: the arrays are those of the catalog, the server knows the
signature of the procedure, the procedure can be called with the values, and the server, which is in
the state `db`, executes the texts of the call. -/
structure Catalog.Serves (c : Catalog σ) (db : σ) (env : CallEnv) (pack : SqlPack) : Prop where
  anyArr : env.anyArr = c.anyArr
  signature : ∃ text, GivesText c.paramList pack.sentence env.replies.paramList text ∧
    Spaced isSpace (sourceParts (c.source (cString pack.sentence))) text
  invokes : ∃ received, pack.Invokes env (c.source (cString pack.sentence)) (c.callee pack) received
  executes : c.server.Executes c.view (c.callee pack) (c.question pack) (c.texts pack)
  served : Served c.server db env.replies (c.question pack) (c.texts pack)

/-- Every call that a step makes is served. -/
def Catalog.ServesStep (c : Catalog σ) (s : Backend σ) (a : SqlAction × CallEnv) : Prop :=
  ∀ pack ok, s.sql.pc = .executing pack → a.1 = .result ok → c.Serves s.db a.2 pack

section Step

variable {c : Catalog σ} {before : List (List Byte × List SqlValue)} {s t : Backend σ}
  {env : CallEnv} {pack : SqlPack}

theorem Catalog.Serves.boundParams_eq {db : σ} (h : c.Serves db env pack) :
    boundParams (c.source (cString pack.sentence)) env pack = c.params pack := by
  rw [boundParams, boundValues, h.anyArr]
  rfl

/-- A call that is served is made once, and received. -/
theorem Catalog.Serves.prepareExecute {w : SqlWorld} {db : σ} (h : c.Serves db env pack)
    (hready : w.Ready) : ∃ u,
      Yields (PetsServer.prepareExecute c.paramList env pack) w
        (.ok (executeCode env (c.params pack))) u ∧
      u.prepareBuffer.length = prepareBufferSize ∧
      (c.view (c.serve db w.log u.log)).calls = (c.view db).calls ++ [c.call pack] ∧
      some u.helper.declared = c.outcome pack := by
  obtain ⟨text, hgives, htext⟩ := h.signature
  obtain ⟨received, hinvokes⟩ := h.invokes
  have hparams := h.boundParams_eq
  have hsendable := hinvokes.sendable
  have hreceives := hinvokes.receives
  have hpassesOut := hinvokes.passesOut
  rw [hparams] at hsendable hreceives hpassesOut
  have hserve := h.served.serve h.executes hpassesOut hsendable
  obtain ⟨u, ⟨log, hsends, hlog⟩, hu⟩ :=
    sends_prepareExecute hready hgives htext hinvokes (hparams.symm ▸ hserve)
  obtain ⟨db', set, call, hdb, -, -, hcalls⟩ := h.executes.serve_callTexts hpassesOut hsendable db
  rw [hparams] at hsends hlog
  rw [← hinvokes.name] at hlog
  refine ⟨u, hsends.1, hsends.2.size hready.size, ?_, ?_⟩
  · rw [Catalog.serve, hsends.2.log, List.drop_left, hlog]
    change (c.view (perform c.server db (c.question pack :: c.texts pack)).1).calls = _
    rw [Catalog.texts, hdb]
    exact hcalls
  · rw [hu, Catalog.outcome, hreceives]

/-- **The step lemma.** -/
theorem Backend.Sound.step {a : SqlAction × CallEnv} (hs : s.Sound c before)
    (hargs : ∀ pack ∈ s.sql.pushed, pack.arg ≠ none) (hserves : c.ServesStep s a)
    (h : backendStep c s a = some t) : t.Sound c before := by
  obtain ⟨a, env⟩ := a
  obtain ⟨hsize, hready, ⟨done, hpushed, hcalls⟩, hreceived⟩ := hs
  cases backendStep_cases h with
  | execute pack code w hpc htype hrun =>
    have hzero : s.world.helper.toSignature = .zero := hready (by rw [hpc]; exact id)
    obtain ⟨u, hexecute, hsize', hcalls', hreceived'⟩ :=
      (hserves pack _ hpc rfl).prepareExecute ⟨hzero, hsize⟩
    obtain ⟨-, rfl⟩ := hrun.unique hexecute
    rw [hpc] at hpushed
    -- the callback is called, or not
    cases code == 0 with
    | false =>
      exact ⟨hsize', fun h => absurd trivial h, ⟨done ++ [pack],
        by simpa [SqlPc.unanswered] using hpushed,
        by rw [hcalls', hcalls, List.map_append, List.map_singleton, List.append_assoc]⟩, nofun⟩
    | true =>
      refine ⟨hsize', fun h => absurd trivial h, ⟨done ++ [pack],
        by simpa [SqlPc.unanswered] using hpushed,
        by rw [hcalls', hcalls, List.map_append, List.map_singleton, List.append_assoc]⟩,
        fun pack' hpack => ?_⟩
      obtain rfl := SqlPc.callback.inj hpack
      exact hreceived'
  | callback pack w hpc hrun =>
    obtain ⟨_, hgrows, -, -⟩ := moves_sqlCallback env _ _ _ hrun
    rw [hpc] at hpushed
    exact ⟨hgrows.size hsize, fun h => absurd trivial h, ⟨done, hpushed, hcalls⟩, nofun⟩
  | release pack w hpc hrun =>
    obtain ⟨u, hclear, -, hzero⟩ := runs_clear s.world
    obtain ⟨-, rfl⟩ := hrun.unique hclear.1
    rw [hpc] at hpushed
    exact ⟨hclear.2.size hsize, fun _ => hzero, ⟨done, hpushed, hcalls⟩, nofun⟩
  | other a sql hstep hresult hcallback hrelease =>
    cases hstep with
    | lock | unlock => exact ⟨hsize, hready, ⟨done, hpushed, hcalls⟩, hreceived⟩
    | push i pack =>
      refine ⟨hsize, hready, ⟨done, ?_, hcalls⟩, hreceived⟩
      change _ ++ _ ++ (_ ++ _) = _ ++ _
      rw [← hpushed, ← List.append_assoc]
      rfl
    | notify =>
      refine ⟨hsize, fun h => hready (SqlPc.holding_notified.not.mp h), ⟨done, ?_, hcalls⟩,
        fun pack h => hreceived pack (SqlPc.notified_eq_callback.mp h)⟩
      change done ++ s.sql.pc.notified.unanswered ++ s.sql.sqlTaskQueue = s.sql.pushed
      rw [SqlPc.unanswered_notified]
      exact hpushed
    | sqlLock hpc =>
      refine ⟨hsize, fun _ => hready ?_, ⟨done, ?_, hcalls⟩, nofun⟩
      · rcases hpc with hpc | hpc <;> rw [hpc] <;> exact id
      · rcases hpc with hpc | hpc <;> simpa [hpc, SqlPc.unanswered] using hpushed
    | empty hpc | drain hpc | block hpc | wake hpc | drained hpc | sqlUnlock hpc =>
      rw [hpc] at hpushed hready
      exact ⟨hsize, fun _ => hready id, ⟨done, hpushed, hcalls⟩, nofun⟩
    | get pack queue hpc hq =>
      rw [hpc] at hpushed hready
      exact ⟨hsize, fun _ => hready id,
        ⟨done, by simpa [hq, SqlPc.unanswered] using hpushed, hcalls⟩, nofun⟩
    | skip pack hpc hnull =>
      refine absurd hnull (hargs pack ?_)
      rw [← hpushed, hpc]
      simp [SqlPc.unanswered]
    | execute pack hpc =>
      rw [hpc] at hpushed hready
      exact ⟨hsize, fun _ => hready id, ⟨done, hpushed, hcalls⟩, nofun⟩
    | deadlock pack _ hpc =>
      rw [hpc] at hpushed
      exact ⟨hsize, fun h => absurd trivial h, ⟨done, hpushed, hcalls⟩, nofun⟩
    | result pack ok hpc => exact absurd rfl (hresult pack ok hpc)
    | callback pack hpc => exact absurd rfl (hcallback pack hpc)
    | release pack hpc => exact absurd rfl (hrelease pack hpc)

end Step

/-! ## Runs -/

/-- A task that calls a procedure and has an array. -/
def SqlPack.IsCall (pack : SqlPack) : Prop := pack.packType = .procedure ∧ pack.arg ≠ none

section Run

variable {c : Catalog σ} {s t : Backend σ} {db : σ} {acts : List (SqlAction × CallEnv)}

theorem backend_pushed_mono {a : SqlAction × CallEnv} (h : backendStep c s a = some t) :
    s.sql.pushed <+: t.sql.pushed := by
  obtain ⟨a, env⟩ := a
  cases backendStep_cases h with
  | execute | callback | release => exact List.prefix_refl _
  | other a sql hstep =>
    cases hstep with
    | push i pack => exact List.prefix_append _ _
    | _ => exact List.prefix_refl _

/-- **The run lemma.** -/
theorem backend_sound_of_run (hserves : Meets (backendStep c) c.ServesStep (.start db) acts)
    (hargs : ∀ pack ∈ s.sql.pushed, pack.arg ≠ none)
    (h : run (backendStep c) (.start db) acts = some s) : s.Sound c (c.view db).calls := by
  have hall : Meets (backendStep c) (fun s a => c.ServesStep s a ∧
      ∀ pack ∈ s.sql.pushed, pack.arg ≠ none) (.start db) acts := by
    intro pre a u v hpre hu hv
    refine ⟨hserves pre a u v hpre hu hv, fun pack hpack => hargs pack ?_⟩
    obtain ⟨rest, rfl⟩ := hpre
    rw [List.append_assoc] at h
    obtain ⟨u', hu', hrest⟩ := run_append_eq_some.mp h
    rw [hu] at hu'
    obtain rfl := Option.some.inj hu'
    exact (run_invariant (fun v : Backend σ => u.sql.pushed <+: v.sql.pushed)
      (fun _ _ _ hx hy => hx.trans (backend_pushed_mono hy)) (List.prefix_refl _) hrest).subset
        hpack
  exact run_invariant_of_meets (Backend.Sound c (c.view db).calls)
    (fun _ _ _ hI hcond => hI.step hcond.2 hcond.1) (Backend.sound_start c db) hall h

/-- **The procedures are called in order.** In every run, whatever the interleaving of the producers
with the SQL thread, the server has called one procedure for each task that was taken off the queue
and answered, the one of the task with the values of the task, in the order in which the tasks were
pushed; and a task's callback is called with what its own call has passed out. -/
theorem procedures_called_in_order
    (hserves : Meets (backendStep c) c.ServesStep (.start db) acts)
    (hcalls : ∀ pack ∈ s.sql.pushed, pack.IsCall)
    (h : run (backendStep c) (.start db) acts = some s) :
    ∃ answered, s.sql.pushed = answered ++ s.sql.pc.unanswered ++ s.sql.sqlTaskQueue ∧
      (c.view s.db).calls = (c.view db).calls ++ answered.map c.call ∧
      ∀ pack, s.sql.pc = .callback pack → some s.world.helper.declared = c.outcome pack := by
  obtain ⟨-, -, ⟨answered, hpushed, hanswered⟩, hreceived⟩ :=
    backend_sound_of_run hserves (fun pack hpack => (hcalls pack hpack).2) h
  exact ⟨answered, hpushed.symm, hanswered, hreceived⟩

end Run

/-! ## Runs that are served -/

section Served

variable {c : Catalog σ} {s : Backend σ} {env : CallEnv} {pack : SqlPack}

theorem Catalog.Serves.step (h : c.Serves s.db env pack) (hpc : s.sql.pc = .executing pack)
    (a : SqlAction) : c.ServesStep s (a, env) := by
  intro pack' ok hpc' _
  obtain rfl := SqlPc.executing.inj (hpc.symm.trans hpc')
  exact h

/-- Steps that execute nothing. -/
theorem meets_servesStep {acts : List (SqlAction × CallEnv)}
    (h : ∀ a ∈ acts, ∀ ok, a.1 ≠ .result ok) : Meets (backendStep c) c.ServesStep s acts :=
  meets_of_forall fun a ha _ _ ok _ hok => absurd hok (h a ha ok)

/-- A call that is served and returns 0 is followed by its callback. -/
theorem Catalog.Serves.result (h : c.Serves s.db env pack) (hready : s.world.Ready)
    (hpc : s.sql.pc = .executing pack) (htype : pack.packType = .procedure)
    (hcode : executeCode env (c.params pack) = 0) :
    ∃ t, backendStep c s (.result true, env) = some t ∧
      t.sql = { s.sql with pc := .callback pack } ∧
      t.world.prepareBuffer.length = prepareBufferSize := by
  obtain ⟨w, hrun, hsize, -, -⟩ := h.prepareExecute hready
  rw [hcode] at hrun
  have hcase : executeCase c env pack = some (PetsServer.prepareExecute c.paramList env pack) := by
    rw [executeCase, htype]
  have hrun : (PetsServer.prepareExecute c.paramList env pack).run s.world = .ok 0 w := hrun
  refine ⟨⟨_, w, c.serve s.db s.world.log w.log⟩, ?_, rfl, hsize⟩
  simp [backendStep, sqlStep, mysqlLoopStep, hpc, hcase, hrun]

/-- After the callback and the release the helper is ready again. -/
theorem run_callback_release (c : Catalog σ) (env : CallEnv) (hpc : s.sql.pc = .callback pack)
    (hsize : s.world.prepareBuffer.length = prepareBufferSize) :
    ∃ t, run (backendStep c) s [(.callback none, env), (.release, env)] = some t ∧
      t.sql = { s.sql with released := s.sql.released ++ pack.release, pc := .draining } ∧
      t.world.Ready := by
  obtain ⟨_, _, u, hcallback, -, -⟩ :=
    runs_of_returns (moves_sqlCallback env) (returns_sqlCallback env) s.world
  obtain ⟨w, hclear, -, hzero⟩ := runs_clear u
  have hrun : (sqlCallback env).run s.world = .ok ⟨⟩ u := hcallback.1
  have hrun' : clear.run u = .ok ⟨⟩ w := hclear.1
  refine ⟨⟨_, w, s.db⟩, ?_, rfl, hzero, hclear.2.size (hcallback.2.size hsize)⟩
  simp [run_cons, backendStep, sqlStep, mysqlLoopStep, hpc, hrun, hrun']

/-- The next task is taken off the queue. -/
theorem run_take (c : Catalog σ) (env : CallEnv) {queue : List SqlPack}
    (hpc : s.sql.pc = .draining) (hqueue : s.sql.sqlTaskQueue = pack :: queue)
    (harg : pack.queryBind ≠ none) :
    ∃ t, run (backendStep c) s [(.drainTest, env), (.skipTest, env)] = some t ∧
      t.sql = { s.sql with
        sqlTaskQueue := queue
        executed := s.sql.executed ++ [pack]
        pc := .executing pack } ∧
      t.world = s.world := by
  refine ⟨⟨_, s.world, s.db⟩, ?_, rfl, rfl⟩
  simp [run_cons, backendStep, sqlStep, mysqlLoopStep, hpc, hqueue, harg]

end Served

/-- The arrays, the procedure and the server of `addsCall`. -/
def addsCatalog : Catalog Database where
  paramList := id
  anyArr := (addsCall false).1.anyArr
  source _ := SourceDecl.three
  procedure _ := addsLength
  server := serverOf addsLength addsSignature
  view := id

theorem serves_addsCall (second : Bool) (db : Database) :
    addsCatalog.Serves db (addsCall second).1 (addsCall second).2 := by
  have hparams : addsCatalog.params (addsCall second).2 = addsParams second .empty :=
    boundParams_addsCall second
  refine ⟨rfl, ⟨_, givesText_value (by cases second <;> decide) _, spaced_three⟩,
    ⟨_, invokes_addsCall second⟩, ?_, ?_⟩ <;> rw [Catalog.texts, hparams]
  · exact executes_addsCall second
  · exact served_addsCall second db

/-- Two producers push a task each, and the first is taken off the queue. -/
def addsTaken : List (SqlAction × CallEnv) :=
  [SqlAction.lock 0 ⟨.procedure, ascii "f", some 0, 2, 0⟩, .push 0, .unlock 0,
    .lock 1 ⟨.procedure, ascii "f", some 1, 2, 0⟩, .notify 0, .push 1, .unlock 1, .notify 1,
    .sqlLock, .waitTest, .drainTest, .skipTest].map (·, (addsCall false).1)

/-- The first task is executed, and the second. -/
def addsExecuted : List (SqlAction × CallEnv) :=
  [(.result true, (addsCall false).1), (.callback none, (addsCall false).1),
    (.release, (addsCall false).1), (.drainTest, (addsCall false).1),
    (.skipTest, (addsCall false).1), (.result true, (addsCall true).1)]

theorem procedures_called_in_order_two : ∃ s,
    run (backendStep addsCatalog) (.start ⟨fun _ => .null, []⟩) (addsTaken ++ addsExecuted) =
        some s ∧
      s.sql.pc = .callback (addsCall true).2 ∧
      ∃ answered, s.sql.pushed = answered ++ s.sql.pc.unanswered ++ s.sql.sqlTaskQueue ∧
        (addsCatalog.view s.db).calls = [] ++ answered.map addsCatalog.call ∧
        ∀ pack, s.sql.pc = .callback pack →
          some s.world.helper.declared = addsCatalog.outcome pack := by
  obtain ⟨u, hu, hpc, hqueue, hworld, hpushed⟩ : ∃ u,
      run (backendStep addsCatalog) (.start ⟨fun _ => .null, []⟩) addsTaken = some u ∧
        u.sql.pc = .executing (addsCall false).2 ∧ u.sql.sqlTaskQueue = [(addsCall true).2] ∧
        u.world = .start ∧ u.sql.pushed = [(addsCall false).2, (addsCall true).2] :=
    ⟨_, rfl, rfl, rfl, rfl, rfl⟩
  -- the first task is executed, and its callback returns
  have hserves := serves_addsCall false u.db
  obtain ⟨v, hv, hcallback, hsize⟩ :=
    hserves.result (hworld ▸ SqlWorld.ready_start) hpc rfl rfl
  obtain ⟨w, hw, hreleased, hready⟩ :=
    run_callback_release addsCatalog (addsCall false).1 (congrArg SqlState.pc hcallback) hsize
  -- and the second
  obtain ⟨x, hx, htaken, hworld⟩ := run_take addsCatalog (addsCall false).1
    (congrArg SqlState.pc hreleased) (by rw [hreleased, hcallback]; exact hqueue)
      (by decide)
  have hserves' := serves_addsCall true x.db
  have hpc' : x.sql.pc = .executing (addsCall true).2 := congrArg SqlState.pc htaken
  obtain ⟨s, hs, hlast, -⟩ := hserves'.result (hworld ▸ hready) hpc' rfl rfl
  have hfirst := run_snoc hu hv
  have hsecond := run_trans (run_trans hfirst hw) hx
  have hmeets : Meets (backendStep addsCatalog) addsCatalog.ServesStep _
      (addsTaken ++ addsExecuted) :=
    ((((meets_servesStep (by simp [addsTaken])).snoc hu (hserves.step hpc _)).append hfirst
      (meets_servesStep (by simp))).append (run_trans hfirst hw)
        (meets_servesStep (by simp))).snoc hsecond (hserves'.step hpc' _)
  have hrun : run (backendStep addsCatalog) _ (addsTaken ++ addsExecuted) = some s :=
    run_snoc hsecond hs
  refine ⟨s, hrun, congrArg SqlState.pc hlast, procedures_called_in_order hmeets ?_ hrun⟩
  rw [hlast, htaken, hreleased, hcallback]
  change ∀ pack ∈ u.sql.pushed, pack.IsCall
  rw [hpushed]
  intro pack hpack
  rcases List.mem_pair.mp hpack with rfl | rfl <;> exact ⟨rfl, nofun⟩

end PetsServer

import PetsServer.Sql.Plan

/-!
# The stages of a call

`Runs` says how a part of a call ends, and what it adds to the log. To fetch rows only reads the
result set that the helper points to; a statement replaces it, if it succeeds.
-/

namespace PetsServer

open Foundations OnWorld

/-- The identity of the result set that the static helper points to. -/
def SqlWorld.handle (w : SqlWorld) : Option ResId := w.helper.toQueryResult.handle

/-- The state between two calls. -/
structure SqlWorld.Ready (w : SqlWorld) : Prop where
  zero : w.helper.toSignature = .zero
  size : w.prepareBuffer.length = prepareBufferSize

theorem SqlWorld.ready_start : SqlWorld.start.Ready := ⟨rfl, List.length_replicate ..⟩

/-- From `w` to `t` the log grows by `log`. -/
structure SqlWorld.Grows (w : SqlWorld) (log : List SqlEvent) (t : SqlWorld) : Prop where
  log : t.log = w.log ++ log
  size : w.prepareBuffer.length = prepareBufferSize → t.prepareBuffer.length = prepareBufferSize

/-- The program, started in `w`, ends in `t` with the result `r`; the log grows by `log`. -/
def Runs {α : Type} (x : OnWorld α) (w : SqlWorld) (r : Except Fault α) (log : List SqlEvent)
    (t : SqlWorld) : Prop :=
  Yields x w r t ∧ w.Grows log t

section Runs

variable {α β : Type} {x : OnWorld α} {f : α → OnWorld β} {w t u : SqlWorld}
  {log log' : List SqlEvent}

theorem SqlWorld.Grows.trans (h : w.Grows log t) (h' : t.Grows log' u) :
    w.Grows (log ++ log') u :=
  ⟨by rw [h'.log, h.log, List.append_assoc], h'.size ∘ h.size⟩

theorem runs_pure (a : α) (w : SqlWorld) : Runs (pure a) w (.ok a) [] w :=
  ⟨yields_pure a w, (List.append_nil w.log).symm, id⟩

theorem Runs.bind {a : α} {r : Except Fault β} (hx : Runs x w (.ok a) log t)
    (hf : Runs (f a) t r log' u) : Runs (x >>= f) w r (log ++ log') u :=
  ⟨hx.1.bind hf.1, hx.2.trans hf.2⟩

theorem Runs.bind_error {fault : Fault} (hx : Runs x w (.error fault) log t) :
    Runs (x >>= f) w (.error fault) log t := ⟨hx.1.bind_error, hx.2⟩

end Runs

/-! ## Fetching rows -/

/-- From `w` to `t` only the result set of the helper is read. -/
def SqlWorld.ReadsTo (w t : SqlWorld) : Prop :=
  ∃ log, w.Grows log t ∧ Reads w.handle log ∧ t.handle = w.handle

instance : Std.Refl SqlWorld.ReadsTo :=
  ⟨fun w => ⟨[], ⟨(List.append_nil w.log).symm, id⟩, .nil _, rfl⟩⟩

instance : IsTrans SqlWorld SqlWorld.ReadsTo where
  trans := by
    rintro u v w ⟨log, hgrows, hreads, hhandle⟩ ⟨log', hgrows', hreads', hhandle'⟩
    rw [hhandle] at hreads' hhandle'
    exact ⟨log ++ log', hgrows.trans hgrows', hreads.append hreads', hhandle'⟩

theorem yields_fetchThis (w : SqlWorld) : ∃ code t, Yields fetchThis w (.ok code) t ∧
    w.ReadsTo t := by
  obtain ⟨r, log, hfetch⟩ := exists_yields w.helper.toQueryResult.fetchResult w.log
  obtain ⟨code, qr, k, rfl, rfl, hhandle⟩ := fetchResult_cases hfetch
  simp only [Yields] at hfetch
  refine ⟨code, { w with
    helper := { w.helper with toQueryResult := qr }, log := w.log ++ fetches w.handle k }, ?_,
    fetches w.handle k, ⟨rfl, id⟩, .fetches _ k, hhandle⟩
  simp [Yields, fetchThis, mysql, hfetch, SqlWorld.handle]

theorem moves_fetchThis : Moves SqlWorld.ReadsTo fetchThis := by
  intro w r t hx
  obtain ⟨code, u, hfetch, hreads⟩ := yields_fetchThis w
  obtain ⟨-, rfl⟩ := hx.unique hfetch
  exact hreads

theorem returns_fetchThis : Returns fetchThis := by
  intro w
  obtain ⟨code, t, hfetch, -⟩ := yields_fetchThis w
  exact ⟨code, t, hfetch⟩

theorem moves_signature {α : Type} (x : OnSignature α) :
    Moves SqlWorld.ReadsTo (signature x) := by
  intro w r t hx
  obtain ⟨s, -, rfl⟩ := yields_zoom hx
  exact ⟨[], ⟨(List.append_nil w.log).symm, id⟩, .nil _, rfl⟩

theorem moves_logRows (n : ℕ) : Moves SqlWorld.ReadsTo (logRows n) := by
  induction n with
  | zero => exact moves_pure _
  | succ n ih =>
    refine moves_bind moves_fetchThis fun result => moves_bind moves_get fun w => ?_
    split
    · exact ih
    · exact moves_pure _

theorem returns_logRows (n : ℕ) : Returns (logRows n) := by
  induction n with
  | zero => exact returns_pure _
  | succ n ih =>
    refine returns_bind returns_fetchThis fun result => returns_bind returns_get fun w => ?_
    split
    · exact ih
    · exact returns_pure _

theorem moves_fetchRows (n : ℕ) : Moves SqlWorld.ReadsTo (fetchRows n) := by
  induction n with
  | zero => exact moves_pure _
  | succ n ih => exact moves_bind moves_fetchThis fun _ => ih

theorem returns_fetchRows (n : ℕ) : Returns (fetchRows n) := by
  induction n with
  | zero => exact returns_pure _
  | succ n ih => exact returns_bind returns_fetchThis fun _ => ih

theorem yields_callBack (w : SqlWorld) : Yields (mysql (record .callBack)) w (.ok ⟨⟩)
    { w with log := w.log ++ [.callBack] } := by
  simp [Yields, mysql]

theorem moves_sqlCallback (env : CallEnv) : Moves SqlWorld.ReadsTo (sqlCallback env) := by
  refine moves_bind (fun w r t hx => ?_) fun _ => moves_fetchRows env.fetches
  obtain ⟨-, rfl⟩ := hx.unique (yields_callBack w)
  exact ⟨[.callBack], ⟨rfl, id⟩, fun event hevent => .inl (List.mem_singleton.mp hevent), rfl⟩

theorem returns_sqlCallback (env : CallEnv) : Returns (sqlCallback env) :=
  returns_bind (fun w => ⟨_, _, yields_callBack w⟩) fun _ => returns_fetchRows env.fetches

/-- After the `SELECT` only its result set is read. -/
theorem moves_readSelect (env : CallEnv) : Moves SqlWorld.ReadsTo (readSelect env) := by
  refine moves_bind moves_get fun w => ?_
  split
  · exact moves_pure _
  · refine moves_bind moves_fetchThis fun result => ?_
    split
    · exact moves_pure _
    · refine moves_bind moves_get fun w => ?_
      split
      · exact moves_throw _
      · refine moves_bind (moves_signature _) fun _ => moves_bind (fun w r t hx => ?_) fun _ =>
          moves_pure _
        obtain ⟨-, rfl⟩ := hx.unique (yields_modify _ w)
        exact ⟨[], ⟨(List.append_nil w.log).symm, fun _ => List.length_replicate ..⟩, .nil _, rfl⟩

/-! ## Statements with the helper -/

variable {env : CallEnv} {sql : List Byte} {reply : SqlReply} {sets : ℕ}

theorem runs_releaseThis (w : SqlWorld) : ∃ t, Runs releaseThis w (.ok ⟨⟩) (frees w.handle) t ∧
    t.handle = w.handle := by
  refine ⟨{ w with log := w.log ++ frees w.handle }, ⟨?_, rfl, id⟩, rfl⟩
  simp [Yields, releaseThis, mysql, run_release, SqlWorld.handle]

theorem runs_clear (w : SqlWorld) : ∃ t, Runs clear w (.ok ⟨⟩) (frees w.handle) t ∧
    t.handle = w.handle ∧ t.helper.toSignature = .zero := by
  refine ⟨{ w with
    helper := { w.helper with toSignature := .zero, strProc := [], strArgs := [] }
    log := w.log ++ frees w.handle }, ⟨?_, rfl, id⟩, rfl, rfl⟩
  simp [Yields, clear, releaseThis, mysql, run_release, SqlWorld.handle]

/-- A statement that fails leaves the pointer to the last result set as it is. -/
theorem runs_executeSQLThis_of_ne (w : SqlWorld) (h : reply.code ≠ 0) :
    ∃ t, Runs (executeSQLThis sql reply sets) w (.ok reply.code) [.query (cString sql) 0] t ∧
      t.handle = w.handle := by
  refine ⟨{ w with log := w.log ++ [.query (cString sql) 0] }, ⟨?_, rfl, id⟩, rfl⟩
  simp [Yields, executeSQLThis, mysql, run_executeSQLTo_of_ne, h]

theorem runs_executeSQLThis_of_eq (w : SqlWorld) (h : reply.code = 0) :
    ∃ t, Runs (executeSQLThis sql reply sets) w (.ok 0)
        [.query (cString sql) (sets + 1), .store (reply.storedId (w.log.length + 1))] t ∧
      t.handle = reply.storedId (w.log.length + 1) ∧ t.helper.toQueryResult =
        w.helper.toQueryResult.store (reply.stored (w.log.length + 1)) reply.affectedRows := by
  refine ⟨{ w with
    helper := { w.helper with
      toQueryResult := w.helper.toQueryResult.store (reply.stored (w.log.length + 1))
        reply.affectedRows }
    log := w.log ++ [.query (cString sql) (sets + 1),
      .store (reply.storedId (w.log.length + 1))] }, ⟨?_, rfl, id⟩, ?_, rfl⟩
  · simp [Yields, executeSQLThis, mysql, run_executeSQLTo_of_eq, h]
  · exact QueryResult.handle_store ..

/-- A program that only reads is run. -/
theorem runs_of_moves {α : Type} {x : OnWorld α} (hmoves : Moves SqlWorld.ReadsTo x)
    (w : SqlWorld) : ∃ r log t, Runs x w r log t ∧ Reads w.handle log ∧ t.handle = w.handle := by
  obtain ⟨r, t, hx⟩ := exists_yields x w
  obtain ⟨log, hgrows, hreads, hhandle⟩ := hmoves w r t hx
  exact ⟨r, log, t, ⟨hx, hgrows⟩, hreads, hhandle⟩

theorem runs_of_returns {α : Type} {x : OnWorld α} (hmoves : Moves SqlWorld.ReadsTo x)
    (hreturns : Returns x) (w : SqlWorld) :
    ∃ a log t, Runs x w (.ok a) log t ∧ Reads w.handle log ∧ t.handle = w.handle := by
  obtain ⟨a, t, hx⟩ := hreturns w
  obtain ⟨log, hgrows, hreads, hhandle⟩ := hmoves w _ t hx
  exact ⟨a, log, t, ⟨hx, hgrows⟩, hreads, hhandle⟩

end PetsServer

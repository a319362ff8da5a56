import PetsServer.Sql.Outcome

/-!
# The callback of a call

`ExecuteProcedure` calls back after `Execute` has returned 0, and nowhere else:
`count_callBack` says how often a call that returns has called back.
-/

namespace PetsServer

open Foundations OnWorld

/-- Between the two logs there is no callback. -/
def Uncalled (log log' : List SqlEvent) : Prop := log'.count .callBack = log.count .callBack

instance : Std.Refl Uncalled := ⟨fun _ => rfl⟩

instance : IsTrans (List SqlEvent) Uncalled := ⟨fun _ _ _ h h' => h'.trans h⟩

/-- From `w` to `t` nothing is called back. -/
def SqlWorld.Uncalled (w t : SqlWorld) : Prop := PetsServer.Uncalled w.log t.log

instance : Std.Refl SqlWorld.Uncalled := ⟨fun _ => rfl⟩

instance : IsTrans SqlWorld SqlWorld.Uncalled := ⟨fun _ _ _ h h' => h'.trans h⟩

/-! ## The client library -/

theorem uncalled_record {event : SqlEvent} (h : event ≠ .callBack) :
    Moves Uncalled (record event) := by
  intro log r log' hx
  obtain ⟨-, rfl⟩ := hx.unique (yields_modify _ log)
  rw [Uncalled, List.count_append, List.count_singleton, if_neg (by simpa using h), Nat.add_zero]

theorem uncalled_release (qr : QueryResult) : Moves Uncalled qr.release := by
  unfold QueryResult.release
  split
  · exact uncalled_record nofun
  · exact moves_pure _

theorem uncalled_fetchResult (qr : QueryResult) : Moves Uncalled qr.fetchResult := by
  unfold QueryResult.fetchResult
  split
  · exact moves_pure _
  split
  · exact moves_pure _
  · have hfetch (res : MysqlRes) : Moves Uncalled (mysqlFetchRow res) :=
      moves_bind (uncalled_record nofun) fun _ => moves_pure _
    exact moves_bind (hfetch _) fun _ => moves_pure _

theorem uncalled_executeSQL (sql : List Byte) (qr : Option QueryResult) (reply : SqlReply)
    (sets : ℕ) : Moves Uncalled (executeSQL sql qr reply sets) := by
  refine moves_bind (moves_bind (uncalled_record nofun) fun _ => moves_pure _) fun result => ?_
  split
  · exact moves_pure _
  have hstore : Moves Uncalled (mysqlStoreResult reply) :=
    moves_bind moves_get fun _ => moves_bind (uncalled_record nofun) fun _ => moves_pure _
  refine moves_bind hstore fun res => ?_
  split
  · exact moves_pure _
  split
  · exact moves_bind (uncalled_record nofun) fun _ => moves_pure _
  · exact moves_bind (moves_pure _) fun _ => moves_pure _

theorem uncalled_executeSQLTo (sql : List Byte) (qr : QueryResult) (reply : SqlReply) (sets : ℕ) :
    Moves Uncalled (executeSQLTo sql qr reply sets) :=
  moves_bind (uncalled_executeSQL _ _ _ _) fun _ => moves_pure _

/-! ## The parts of the world -/

section World

variable {α : Type}

theorem uncalled_mysql {x : Mysql α} (h : Moves Uncalled x) : Moves SqlWorld.Uncalled (mysql x) :=
  moves_zoom (fun _ _ hlog => hlog) h

theorem uncalled_modify {f : SqlWorld → SqlWorld} (h : ∀ w, (f w).log = w.log) :
    Moves SqlWorld.Uncalled (modify f : OnWorld PUnit) := by
  intro w r t hx
  obtain ⟨-, rfl⟩ := hx.unique (yields_modify f w)
  rw [SqlWorld.Uncalled, h w]
  exact Std.Refl.refl _

theorem uncalled_buffer (x : OnBuffer α) : Moves SqlWorld.Uncalled (buffer x) :=
  moves_zoom (fun _ _ _ => Std.Refl.refl (r := Uncalled) _)
    (fun _ _ _ _ => trivial : Moves (fun _ _ => True) x)

theorem uncalled_signature (x : OnSignature α) : Moves SqlWorld.Uncalled (signature x) :=
  moves_zoom (fun _ _ _ => Std.Refl.refl (r := Uncalled) _)
    (fun _ _ _ _ => trivial : Moves (fun _ _ => True) x)

theorem uncalled_executeSQLThis (sql : List Byte) (reply : SqlReply) (sets : ℕ) :
    Moves SqlWorld.Uncalled (executeSQLThis sql reply sets) :=
  moves_bind moves_get fun _ => moves_bind (uncalled_mysql (uncalled_executeSQLTo _ _ _ _)) fun _ =>
    moves_bind (uncalled_modify fun _ => rfl) fun _ => moves_pure _

theorem uncalled_fetchThis : Moves SqlWorld.Uncalled fetchThis :=
  moves_bind moves_get fun _ => moves_bind (uncalled_mysql (uncalled_fetchResult _)) fun _ =>
    moves_bind (uncalled_modify fun _ => rfl) fun _ => moves_pure _

theorem uncalled_releaseThis : Moves SqlWorld.Uncalled releaseThis :=
  moves_bind moves_get fun _ => uncalled_mysql (uncalled_release _)

end World

/-! ## The stages -/

theorem uncalled_parseRow (row : Option Row) : Moves SqlWorld.Uncalled (parseRow row) := by
  unfold parseRow
  split
  · exact moves_bind (uncalled_modify fun _ => rfl) fun _ => uncalled_signature _
  · exact moves_throw _
  · exact moves_throw _

theorem uncalled_prepare (paramList : List Byte → List Byte) (procName : List Byte)
    (reply : SqlReply) : Moves SqlWorld.Uncalled (prepare paramList procName reply) := by
  have hquestion : Moves SqlWorld.Uncalled (paramListSQL paramList (cString procName)) := by
    unfold paramListSQL
    split
    · exact moves_pure _
    · exact moves_throw _
  have hread (result : Int32) (qr : QueryResult) :
      Moves SqlWorld.Uncalled (readParamList result qr) := by
    unfold readParamList
    split
    · exact moves_pure _
    split
    · exact moves_pure _
    refine moves_bind (uncalled_mysql (uncalled_fetchResult _)) fun ⟨fetched, _⟩ => ?_
    change Moves _ (if fetched ≠ 0 then _ else _)
    split
    · exact moves_pure _
    · exact moves_bind (uncalled_parseRow _) fun _ => moves_pure _
  exact moves_bind (uncalled_modify fun _ => rfl) fun _ => moves_bind hquestion fun _ =>
    moves_bind (uncalled_mysql (uncalled_executeSQLTo _ _ _ _)) fun _ =>
      moves_bind (hread _ _) fun _ => moves_bind (uncalled_mysql (uncalled_release _)) fun _ =>
        moves_pure _

theorem uncalled_sendSet (env : CallEnv) (idx : ℕ) : Moves SqlWorld.Uncalled (sendSet env idx) := by
  unfold sendSet
  split
  · split
    · exact moves_pure _
    · exact moves_bind (uncalled_buffer _) fun _ => moves_bind moves_get fun _ =>
        moves_bind (uncalled_mysql (uncalled_executeSQL _ _ _ _)) fun _ => moves_pure _
  · exact moves_pure _

theorem uncalled_logRows (n : ℕ) : Moves SqlWorld.Uncalled (logRows n) := by
  induction n with
  | zero => exact moves_pure _
  | succ n ih =>
    refine moves_bind uncalled_fetchThis fun result => moves_bind moves_get fun w => ?_
    split
    · exact ih
    · exact moves_pure _

theorem uncalled_readSelect (env : CallEnv) : Moves SqlWorld.Uncalled (readSelect env) := by
  refine moves_bind moves_get fun w => ?_
  split
  · exact moves_pure _
  refine moves_bind uncalled_fetchThis fun result => ?_
  split
  · exact moves_pure _
  refine moves_bind moves_get fun w => ?_
  split
  · exact moves_throw _
  · exact moves_bind (uncalled_signature _) fun _ =>
      moves_bind (uncalled_modify fun _ => rfl) fun _ => moves_pure _

theorem uncalled_callProcedure (env : CallEnv) (t : Texts) :
    Moves SqlWorld.Uncalled (callProcedure env t) := by
  refine moves_bind (uncalled_executeSQLThis _ _ _) fun result => ?_
  split
  · exact moves_pure _
  have hlog : Moves SqlWorld.Uncalled logCall :=
    moves_bind moves_get fun _ => moves_bind (uncalled_logRows _) fun _ => uncalled_releaseThis
  refine moves_bind hlog fun _ => ?_
  split
  · exact moves_pure _
  refine moves_bind (uncalled_executeSQLThis _ _ _) fun result => ?_
  split
  · exact moves_pure _
  · exact uncalled_readSelect env

/-- **`Execute` does not call back.** -/
theorem uncalled_execute (env : CallEnv) : Moves SqlWorld.Uncalled (execute env) := by
  refine moves_bind moves_get fun w => moves_bind (uncalled_buffer _) fun texts => ?_
  split
  · exact moves_pure _
  refine moves_bind (uncalled_sendSet env _) fun result => ?_
  split
  · exact moves_pure _
  · exact uncalled_callProcedure env _

theorem uncalled_prepareExecute (paramList : List Byte → List Byte) (env : CallEnv)
    (pack : SqlPack) : Moves SqlWorld.Uncalled (prepareExecute paramList env pack) := by
  refine moves_bind (uncalled_prepare _ _ _) fun code => ?_
  split
  · exact moves_pure _
  · exact moves_bind (uncalled_signature _) fun _ => uncalled_execute env

/-! ## The end of a call -/

theorem uncalled_clear : Moves SqlWorld.Uncalled clear :=
  moves_bind uncalled_releaseThis fun _ => uncalled_modify fun _ => rfl

theorem uncalled_fetchRows (n : ℕ) : Moves SqlWorld.Uncalled (fetchRows n) := by
  induction n with
  | zero => exact moves_pure _
  | succ n ih => exact moves_bind uncalled_fetchThis fun _ => ih

variable {env : CallEnv} {w t : SqlWorld} {b : Bool}

/-- The callback is called once if `Execute` has returned 0. -/
theorem count_finishProcedure {code : Int32}
    (h : Yields (finishProcedure env code) w (.ok b) t) :
    t.log.count .callBack = w.log.count .callBack + if code = 0 then 1 else 0 := by
  unfold finishProcedure at h
  by_cases hcode : code = 0
  · rw [if_neg (not_not_intro hcode)] at h
    rw [if_pos hcode]
    obtain ⟨_, u, hcall, hrest⟩ := yields_bind_ok.mp h
    obtain ⟨_, v, hrecord, hfetch⟩ := yields_bind_ok.mp hcall
    obtain ⟨-, rfl⟩ := hrecord.unique (yields_callBack w)
    have hlater : Moves SqlWorld.Uncalled (clear >>= fun _ => pure true) :=
      moves_bind uncalled_clear fun _ => moves_pure _
    have hend := (uncalled_fetchRows env.fetches _ _ _ hfetch)
    rw [hlater _ _ _ hrest, hend, List.count_append]
    rfl
  · rw [if_pos hcode] at h
    have hlater : Moves SqlWorld.Uncalled (clear >>= fun _ => pure false) :=
      moves_bind uncalled_clear fun _ => moves_pure _
    rw [if_neg hcode, Nat.add_zero]
    exact hlater _ _ _ h

/-- **How often a call calls back.** -/
theorem count_callBack {paramList : List Byte → List Byte} {pack : SqlPack}
    (h : Yields (executeProcedure paramList env pack) w (.ok b) t) :
    t.log.count .callBack = w.log.count .callBack + if b then 1 else 0 := by
  rw [executeProcedure_eq] at h
  obtain ⟨code, u, hprepare, hfinish⟩ := yields_bind_ok.mp h
  have hbefore := uncalled_prepareExecute paramList env pack _ _ _ hprepare
  have hb : b = (code == 0) := by
    obtain ⟨log, v, hrun, -⟩ := @Runs.finish (pure code) u u (.ok code) [] (runs_pure code u) env
    rw [pure_bind] at hrun
    exact Except.ok.inj (hfinish.unique hrun.1).1
  rw [count_finishProcedure hfinish, hbefore, hb]
  by_cases hcode : code = 0 <;> simp [hcode]

end PetsServer

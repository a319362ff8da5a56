import PetsServer.Sql.Prepared

/-!
# The protocol of the handle

The functions of the client library for a prepared statement are to be called in a certain order.
`stmtProtocol` is that order: a statement is prepared, its parameters are bound, it is executed, its
result is stored and described; then columns can be bound and rows fetched, until the description
and the result are freed. A statement that fails on the way is given up.

`handle_protocol` says that every session of tasks keeps to it, whatever the library returns and
whatever the callbacks ask. `executeStmt_reports` says what a statement reports when it fails.
-/

namespace PetsServer

open Foundations

namespace Prepared

/-- What is under way on the handle. -/
inductive StmtStage
  /-- No statement is, whatever the handle still holds. -/
  | closed
  | prepared
  /-- The parameters are bound. -/
  | bound
  | executed
  | stored
  /-- The result is described by `res`, which has `fields` fields; none has no fields. The columns
  are `bound`, or not. -/
  | described (res : Option ResPtr) (fields : Dword) (bound : Bool)
  /-- The description is freed. -/
  | freed
  deriving DecidableEq, Repr

/-- The stage after a call that can fail: the statement is given up then. -/
def StmtStage.after (stage : StmtStage) (code : Int32) : StmtStage :=
  if code = 0 then stage else .closed

/-- The protocol while a result is described. As many columns are bound as it has fields, because so
many entries are read, and the description is used until it is freed, and no other. -/
def describedProtocol (res : Option ResPtr) (fields : Dword) (bound : Bool) :
    StmtEvent → Option StmtStage
  | .affectedRows | .callBack => some (.described res fields bound)
  | .numRows res' | .fetchRow res' | .fetchLengths res' =>
    if res = some res' then some (.described res fields bound) else none
  | .numFields res' fields => if res = some res' then some (.described res fields bound) else none
  | .bindResult binds code =>
    if binds.length = fields.toNat then some (.described res fields (code = 0)) else none
  | .fetch _ => if bound then some (.described res fields bound) else none
  | .freeResult res' => if res = some res' then some .freed else none
  | .stmtFreeResult => if res = none then some .closed else none
  | _ => none

/-- The protocol of the handle. -/
def stmtProtocol : StmtStage → StmtEvent → Option StmtStage
  | stage, .error => some stage
  | .closed, .prepare _ code => some (StmtStage.prepared.after code)
  | .prepared, .bindParam _ code => some (StmtStage.bound.after code)
  | .prepared, .execute code | .bound, .execute code => some (StmtStage.executed.after code)
  | .executed, .storeResult code => some (StmtStage.stored.after code)
  | .stored, .resultMetadata res => some (.described res 0 false)
  | .described res fields bound, event => describedProtocol res fields bound event
  | .freed, .stmtFreeResult => some .closed
  | _, _ => none

/-! ## What the protocol says -/

/-- The description that is not freed yet. -/
def StmtStage.outstanding : StmtStage → List ResPtr
  | described (some res) _ _ => [res]
  | _ => []

/-- A result is stored and not freed yet. -/
def StmtStage.storing : StmtStage → ℕ
  | stored | described _ _ _ | freed => 1
  | closed | prepared | bound | executed => 0

/-- The descriptions that the library has returned. -/
def descriptions (events : List StmtEvent) : List ResPtr :=
  events.filterMap fun
    | .resultMetadata res => res
    | _ => none

/-- The descriptions that are freed. -/
def frees (events : List StmtEvent) : List ResPtr :=
  events.filterMap fun
    | .freeResult res => some res
    | _ => none

/-- A call that has stored a result. -/
def StmtEvent.stores : StmtEvent → Bool
  | storeResult code => code = 0
  | _ => false

/-- What an event returns and frees while a result is described. -/
theorem balanced_describedProtocol {res : Option ResPtr} {fields : Dword} {bound : Bool}
    {stage : StmtStage} {event : StmtEvent}
    (h : describedProtocol res fields bound event = some stage) :
    (StmtStage.described res fields bound).outstanding ++ descriptions [event] =
        frees [event] ++ stage.outstanding ∧
      1 + [event].countP StmtEvent.stores = [event].count .stmtFreeResult + stage.storing := by
  cases event with
  | affectedRows | callBack =>
    obtain rfl := Option.some.inj h
    cases res <;> exact ⟨rfl, rfl⟩
  | numRows | fetchRow | fetchLengths | numFields | fetch | bindResult =>
    obtain ⟨-, hstage⟩ := Option.ite_none_right_eq_some.mp h
    obtain rfl := Option.some.inj hstage
    cases res <;> exact ⟨rfl, rfl⟩
  | freeResult | stmtFreeResult =>
    obtain ⟨rfl, hstage⟩ := Option.ite_none_right_eq_some.mp h
    obtain rfl := Option.some.inj hstage
    exact ⟨rfl, rfl⟩
  | prepare | bindParam | execute | storeResult | resultMetadata | error => cases h

/-- Nothing is outstanding after a call that can fail, if nothing is when it succeeds. -/
theorem balanced_after {stage stage' : StmtStage} {code : Int32}
    (houtstanding : stage.outstanding = []) (hstoring : stage.storing = 0)
    (h : some (stage.after code) = some stage') :
    [] = stage'.outstanding ∧ 0 = 0 + stage'.storing := by
  obtain rfl := Option.some.inj h
  unfold StmtStage.after
  split
  · rw [houtstanding, hstoring]
    exact ⟨rfl, rfl⟩
  · exact ⟨rfl, rfl⟩

/-- What an event returns and frees. -/
theorem balanced_stmtProtocol {stage stage' : StmtStage} {event : StmtEvent}
    (h : stmtProtocol stage event = some stage') :
    stage.outstanding ++ descriptions [event] = frees [event] ++ stage'.outstanding ∧
      stage.storing + [event].countP StmtEvent.stores =
        [event].count .stmtFreeResult + stage'.storing := by
  have herror (h : some stage = some stage') :
      stage.outstanding ++ [] = stage'.outstanding ∧ stage.storing = 0 + stage'.storing := by
    obtain rfl := Option.some.inj h
    exact ⟨List.append_nil _, (Nat.zero_add _).symm⟩
  cases stage with
  | closed =>
    cases event with
    | error => exact herror h
    | prepare => exact @balanced_after .prepared _ _ rfl rfl h
    | _ => cases h
  | prepared =>
    cases event with
    | error => exact herror h
    | bindParam => exact @balanced_after .bound _ _ rfl rfl h
    | execute => exact @balanced_after .executed _ _ rfl rfl h
    | _ => cases h
  | bound =>
    cases event with
    | error => exact herror h
    | execute => exact @balanced_after .executed _ _ rfl rfl h
    | _ => cases h
  | executed =>
    cases event with
    | error => exact herror h
    | storeResult code =>
      obtain rfl := Option.some.inj h
      by_cases hcode : code = 0
      · rw [StmtStage.after, if_pos hcode, hcode]
        exact ⟨rfl, rfl⟩
      · rw [StmtStage.after, if_neg hcode, List.countP_singleton, StmtEvent.stores,
          decide_eq_false hcode]
        exact ⟨rfl, rfl⟩
    | _ => cases h
  | stored =>
    cases event with
    | error => exact herror h
    | resultMetadata res =>
      obtain rfl := Option.some.inj h
      cases res <;> exact ⟨rfl, rfl⟩
    | _ => cases h
  | described res fields bound =>
    cases event with
    | error => exact herror h
    | _ => exact balanced_describedProtocol h
  | freed =>
    cases event with
    | error => exact herror h
    | stmtFreeResult =>
      obtain rfl := Option.some.inj h
      exact ⟨rfl, rfl⟩
    | _ => cases h

/-- **What is returned is freed exactly once**: the descriptions in the order in which they were
returned, and the results that are stored, but for what is outstanding. -/
theorem freed_of_run {events : List StmtEvent} {stage : StmtStage}
    (h : run stmtProtocol .closed events = some stage) :
    descriptions events = frees events ++ stage.outstanding ∧
      events.countP StmtEvent.stores = events.count .stmtFreeResult + stage.storing := by
  refine run_induction (fun events stage =>
    descriptions events = frees events ++ stage.outstanding ∧
      events.countP StmtEvent.stores = events.count .stmtFreeResult + stage.storing)
    ⟨rfl, rfl⟩ (fun events stage event stage' _ ih hstep => ⟨?_, ?_⟩) events stage h
  · have hstep := (balanced_stmtProtocol hstep).1
    unfold descriptions frees at *
    rw [List.filterMap_append, List.filterMap_append, ih.1, List.append_assoc, hstep,
      List.append_assoc]
  · have hstep := (balanced_stmtProtocol hstep).2
    rw [List.countP_append, List.count_append, ih.2]
    omega

/-! ## The rules -/

variable {ω : Type} {L : StmtLibrary ω}

/-- The program keeps to the protocol; what is known before it and after it is of `qr` and of the
stage. -/
def Obeys {α : Type} (pre : QueryResult → StmtStage → Prop) (x : OnStmt ω α)
    (post : α → QueryResult → StmtStage → Prop) : Prop :=
  KeepsTo stmtProtocol StmtWorld.log (fun w => pre w.qr) x fun a w => post a w.qr

section Rules

variable {α β : Type} {pre : QueryResult → StmtStage → Prop}
  {post : α → QueryResult → StmtStage → Prop} {post' : β → QueryResult → StmtStage → Prop}

theorem Obeys.bind {x : OnStmt ω α} {f : α → OnStmt ω β} (hx : Obeys pre x post)
    (hf : ∀ a, Obeys (post a) (f a) post') : Obeys pre (x >>= f) post' :=
  keepsTo_bind hx hf

theorem obeys_pure {a : α} (h : ∀ qr g, pre qr g → post a qr g) :
    Obeys pre (pure a : OnStmt ω α) post :=
  keepsTo_pure fun w => h w.qr

theorem obeys_call {f : ω → α × ω} {event : α → StmtEvent}
    (h : ∀ qr g, pre qr g → ∀ a, ∃ g', stmtProtocol g (event a) = some g' ∧ post a qr g') :
    Obeys pre (call f event) post := by
  refine keepsTo_of_event fun w g hpre => ?_
  obtain ⟨g', hstep, hpost⟩ := h w.qr g hpre (f w.lib).1
  exact ⟨_, event (f w.lib).1, _, g', (yields_get w).bind ((yields_set w _).bind (yields_pure _ _)),
    rfl, hstep, hpost⟩

theorem obeys_modifyQr {f : QueryResult → QueryResult}
    {post : Unit → QueryResult → StmtStage → Prop}
    (h : ∀ qr g, pre qr g → post ⟨⟩ (f qr) g) :
    Obeys pre (modifyQr f : OnStmt ω Unit) post :=
  keepsTo_modify (fun _ => rfl) fun w => h w.qr

/-- `qr` is changed first, and what is known stays. -/
theorem obeys_modifyQr_bind {f : QueryResult → QueryResult} {x : Unit → OnStmt ω α}
    (h : ∀ qr g, pre qr g → pre (f qr) g) (hx : ∀ a, Obeys pre (x a) post) :
    Obeys pre (modifyQr f >>= x) post :=
  have hf : Obeys pre (modifyQr f : OnStmt ω Unit) fun _ => pre := obeys_modifyQr h
  hf.bind hx

/-- The program reads the state first. -/
theorem obeys_get {f : StmtWorld ω → OnStmt ω α}
    (h : ∀ w : StmtWorld ω, Obeys (fun qr g => qr = w.qr ∧ pre qr g) (f w) post) :
    Obeys pre (get >>= f) post := by
  have hget : KeepsTo stmtProtocol StmtWorld.log (fun s : StmtWorld ω => pre s.qr)
      (get : OnStmt ω (StmtWorld ω))
      fun w s g => s.qr = w.qr ∧ pre s.qr g :=
    keepsTo_get fun _ _ hpre => ⟨rfl, hpre⟩
  exact keepsTo_bind hget h

/-- What is reported is no event. -/
theorem obeys_errInfo {x : OnErrInfo α}
    (h : ∀ b a b', Yields x b (.ok a) b' → ∀ qr g, pre qr g → post a qr g) :
    Obeys pre (errInfo x : OnStmt ω α) post := by
  refine keepsTo_of_quiet fun w g r t hpre hx => ?_
  obtain ⟨b, hb, rfl⟩ := yields_zoom hx
  refine ⟨rfl, fun a ha => ?_⟩
  subst ha
  exact h _ _ _ hb w.qr g hpre

/-- **The rule of consequence.** -/
theorem Obeys.mono {x : OnStmt ω α} {pre' : QueryResult → StmtStage → Prop}
    {post₁ : α → QueryResult → StmtStage → Prop} (h : Obeys pre x post)
    (hpre : ∀ qr g, pre' qr g → pre qr g) (hpost : ∀ a qr g, post a qr g → post₁ a qr g) :
    Obeys pre' x post₁ :=
  KeepsTo.mono h (fun w => hpre w.qr) fun a w => hpost a w.qr

/-- What follows from the start can be used. -/
theorem obeys_of_fact {p : Prop} {x : OnStmt ω α} (hp : ∀ qr g, pre qr g → p)
    (h : p → Obeys pre x post) : Obeys pre x post :=
  keepsTo_of_fact (fun w => hp w.qr) h

end Rules

/-! ## The stages of a task -/

/-- Nothing is under way, and nothing is in `qr`. -/
def Idle (qr : QueryResult) (g : StmtStage) : Prop := qr = .new ∧ g = .closed

/-- `qr` describes the result that is stored. -/
def Holds (qr : QueryResult) (g : StmtStage) : Prop :=
  qr.stmt = true ∧ ∃ bound, g = .described qr.res qr.numFields bound

/-- How `ExecuteStmt` ends. -/
def Ended (code : Int32) (qr : QueryResult) (g : StmtStage) : Prop :=
  if code = 0 then Holds qr g else Idle qr g

/-- After a call that can fail. -/
def Tried (stage : StmtStage) (code : Int32) (qr : QueryResult) (g : StmtStage) : Prop :=
  qr = .new ∧ g = stage.after code

theorem yields_fail {info : String} {args : List CharPtr} {result code : Int32}
    {b b' : List Byte} (h : Yields (fail info args result) b (.ok code) b') : code = result := by
  obtain ⟨_, _, -, hpure⟩ := yields_bind_ok.mp h
  exact (yields_pure_ok.mp hpure).1

theorem obeys_fail {info : String} {args : List CharPtr} {result : Int32} (h : result ≠ 0) :
    Obeys Idle (errInfo (fail info args result) : OnStmt ω Int32) Ended := by
  refine obeys_errInfo fun b code b' hfail qr g hidle => ?_
  obtain rfl := yields_fail hfail
  exact (if_neg h).mpr hidle

theorem obeys_failStmt {info : String} {sql : CharPtr} {result : Int32} (h : result ≠ 0) :
    Obeys Idle (failStmt L info sql result) Ended :=
  have hreason : Obeys Idle (call L.error fun _ => .error) fun _ => Idle :=
    obeys_call fun _ g hidle _ => ⟨g, rfl, hidle⟩
  hreason.bind fun _ => obeys_fail h

/-- After a call that has failed, or not. -/
theorem obeys_tried {α : Type} {stage : StmtStage} {code : Int32} {x y : OnStmt ω α}
    {post : α → QueryResult → StmtStage → Prop} (hx : code ≠ 0 → Obeys Idle x post)
    (hy : Obeys (fun qr g => qr = .new ∧ g = stage) y post) :
    Obeys (Tried stage code) (if code ≠ 0 then x else y) post := by
  by_cases hcode : code = 0
  · rw [if_neg (not_not_intro hcode)]
    exact hy.mono (fun qr g h => ⟨h.1, h.2.trans (if_pos hcode)⟩) fun _ _ _ h => h
  · rw [if_pos hcode]
    exact (hx hcode).mono (fun qr g h => ⟨h.1, h.2.trans (if_neg hcode)⟩) fun _ _ _ h => h

/-- The description is returned, and its fields are not asked for yet. -/
def Describes (res : Option ResPtr) (qr : QueryResult) (g : StmtStage) : Prop :=
  qr.stmt = true ∧ qr.res = res ∧ qr.numFields = 0 ∧ g = .described res 0 false

theorem obeys_writeFields (res : ResPtr) : Obeys (Describes (some res)) (do
    let numRows ← call (L.numRows res) fun _ => .numRows res
    modifyQr fun qr => { qr with numRows := numRows }
    let numFields ← call (L.numFields res) (.numFields res)
    modifyQr fun qr => { qr with numFields := numFields }) fun _ => Holds := by
  have hrows : Obeys (Describes (some res)) (call (L.numRows res) fun _ => .numRows res)
      fun _ => Describes (some res) :=
    obeys_call fun qr g h _ => ⟨g, h.2.2.2 ▸ if_pos rfl, h⟩
  have hfields : Obeys (Describes (some res)) (call (L.numFields res) (.numFields res))
      fun fields qr g => qr.stmt = true ∧ qr.res = some res ∧
        g = .described (some res) fields false :=
    obeys_call fun qr g h _ => ⟨_, h.2.2.2 ▸ if_pos rfl, h.1, h.2.1, rfl⟩
  refine hrows.bind fun numRows => obeys_modifyQr_bind (fun _ _ h => h) fun _ => ?_
  exact hfields.bind fun fields => obeys_modifyQr fun qr g h => ⟨h.1, false, by rw [h.2.2, h.2.1]⟩

theorem obeys_writeResult : Obeys (fun qr g => qr = .new ∧ g = .stored) (writeResult L)
    fun _ => Holds := by
  have hstmt : Obeys (fun qr g => qr = .new ∧ g = .stored)
      (modifyQr fun qr => { qr with stmt := true } : OnStmt ω Unit)
      fun _ qr g => qr = { QueryResult.new with stmt := true } ∧ g = .stored :=
    obeys_modifyQr fun qr g h => ⟨by rw [h.1], h.2⟩
  have hres : Obeys (fun qr g => qr = { QueryResult.new with stmt := true } ∧ g = .stored)
      (call L.resultMetadata .resultMetadata) fun res qr g =>
        qr = { QueryResult.new with stmt := true } ∧ g = .described res 0 false :=
    obeys_call fun qr g h res => ⟨_, by rw [h.2]; rfl, h.1, rfl⟩
  have hdescribes (res : Option ResPtr) : Obeys
      (fun qr g => qr = { QueryResult.new with stmt := true } ∧ g = .described res 0 false)
      (modifyQr fun qr => { qr with res := res } : OnStmt ω Unit) fun _ => Describes res :=
    obeys_modifyQr fun qr g h => by
      rw [h.1]
      exact ⟨rfl, rfl, rfl, h.2⟩
  have hnrow (res : Option ResPtr) : Obeys (Describes res)
      (call L.affectedRows fun _ => .affectedRows) fun _ => Describes res :=
    obeys_call fun qr g h _ => ⟨g, by rw [h.2.2.2]; rfl, h⟩
  refine hstmt.bind fun _ => hres.bind fun res => (hdescribes res).bind fun _ =>
    (hnrow res).bind fun nrow => obeys_modifyQr_bind (fun _ _ h => h) fun _ => ?_
  cases res with
  | none => exact obeys_pure fun qr g h => ⟨h.1, false, by rw [h.2.2.2, h.2.1, h.2.2.1]⟩
  | some res => exact obeys_writeFields res

theorem obeys_executeBound (sql : CharPtr) :
    Obeys (fun qr g => qr = .new ∧ (g = .prepared ∨ g = .bound)) (executeBound L sql) Ended := by
  have hexecute : Obeys (fun qr g => qr = .new ∧ (g = .prepared ∨ g = .bound))
      (call L.execute .execute) (Tried .executed) := by
    refine obeys_call fun qr g h code => ⟨_, ?_, h.1, rfl⟩
    rcases h.2 with rfl | rfl <;> rfl
  have hstore : Obeys (fun qr g => qr = .new ∧ g = .executed)
      (call L.storeResult .storeResult) (Tried .stored) := by
    refine obeys_call fun qr g h code => ⟨_, ?_, h.1, rfl⟩
    obtain ⟨-, rfl⟩ := h
    rfl
  refine hexecute.bind fun code => obeys_tried (fun hcode => obeys_failStmt hcode) ?_
  refine hstore.bind fun code => obeys_tried (fun hcode => obeys_failStmt hcode) ?_
  exact obeys_writeResult.bind fun _ => obeys_pure fun _ _ h => (if_pos rfl).mpr h

theorem obeys_executePrepared (sql : CharPtr) (args : Arguments) :
    Obeys (fun qr g => qr = .new ∧ g = .prepared) (executePrepared L sql args) Ended := by
  unfold executePrepared
  split
  · have hbind : Obeys (fun qr g => qr = .new ∧ g = .prepared)
        (call (L.bindParam args.binds) (.bindParam args.binds)) (Tried .bound) := by
      refine obeys_call fun qr g h code => ⟨_, ?_, h.1, rfl⟩
      obtain ⟨-, rfl⟩ := h
      rfl
    refine hbind.bind fun code => obeys_tried (fun hcode => obeys_failStmt hcode) ?_
    exact (obeys_executeBound sql).mono (fun qr g h => ⟨h.1, .inr h.2⟩) fun _ _ _ h => h
  · exact (obeys_executeBound sql).mono (fun qr g h => ⟨h.1, .inl h.2⟩) fun _ _ _ h => h

theorem obeys_executeStmt (sql : Option CharPtr) (args : Arguments) :
    Obeys Idle (executeStmt L sql args) Ended := by
  cases sql with
  | none => exact obeys_fail (by decide)
  | some sql =>
    have hprepare : Obeys Idle
        (call (L.prepare (cString sql.text)) (.prepare (cString sql.text))) (Tried .prepared) := by
      refine obeys_call fun qr g h code => ⟨_, ?_, h.1, rfl⟩
      obtain ⟨-, rfl⟩ := h
      rfl
    exact hprepare.bind fun code => obeys_tried (fun hcode => obeys_failStmt hcode)
      (obeys_executePrepared sql args)

/-! ## The end of a task -/

theorem obeys_freeRes (res : Option ResPtr) :
    Obeys (fun _ g => ∃ fields bound, g = .described res fields bound) (freeRes L res)
      fun _ _ g => stmtProtocol g .stmtFreeResult = some .closed := by
  cases res with
  | none =>
    refine obeys_pure fun _ g h => ?_
    obtain ⟨fields, bound, rfl⟩ := h
    rfl
  | some res =>
    have hfree : Obeys (fun _ g => ∃ fields bound, g = .described (some res) fields bound)
        (call (L.freeResult res) fun _ => .freeResult res)
        fun _ _ g => stmtProtocol g .stmtFreeResult = some .closed := by
      refine obeys_call fun _ g h _ => ⟨.freed, ?_, rfl⟩
      obtain ⟨fields, bound, rfl⟩ := h
      exact if_pos rfl
    exact hfree

/-- What is held is freed. -/
theorem obeys_release_holds : Obeys Holds (release L) fun _ _ g => g = .closed := by
  refine obeys_get fun w => obeys_of_fact (fun qr g h => h.1 ▸ h.2.1) fun hstmt => ?_
  have hres : Obeys (fun qr g => qr = w.qr ∧ Holds qr g) (freeRes L w.qr.res)
      fun _ _ g => stmtProtocol g .stmtFreeResult = some .closed := by
    refine (obeys_freeRes w.qr.res).mono (fun qr g h => ?_) fun _ _ _ h => h
    obtain ⟨rfl, -, bound, rfl⟩ := h
    exact ⟨_, bound, rfl⟩
  refine hres.bind fun _ => ?_
  rw [if_pos hstmt]
  exact obeys_call fun _ g h _ => ⟨.closed, h, rfl⟩

theorem obeys_release_idle : Obeys Idle (release L) fun _ _ g => g = .closed := by
  refine obeys_get fun w => obeys_of_fact (fun qr g h => h.1.symm.trans h.2.1) fun hnew => ?_
  rw [hnew]
  exact obeys_pure fun _ g h => h.2.2

/-! ## The callback -/

/-- The columns are bound, or not: `code` says. -/
def Binds (code : Int32) (qr : QueryResult) (g : StmtStage) : Prop :=
  qr.stmt = true ∧ g = .described qr.res qr.numFields (code = 0)

theorem Binds.holds {code : Int32} {qr : QueryResult} {g : StmtStage} (h : Binds code qr g) :
    Holds qr g := ⟨h.1, _, h.2⟩

/-- As many columns are bound as the result has fields. -/
theorem obeys_fetchResult {n : Byte} (bind : QueryBind n) :
    Obeys Holds (fetchResult L bind) fun _ => Holds := by
  refine obeys_get fun w => ?_
  by_cases hfields : n.toUInt32 = w.qr.numFields
  · rw [if_neg (not_not_intro hfields)]
    have hlength : bind.binds.toList.length = w.qr.numFields.toNat := by
      rw [Vector.length_toList, ← hfields, UInt8.toNat_toUInt32]
    have hbind : Obeys (fun qr g => qr = w.qr ∧ Holds qr g)
        (call (L.bindResult bind.binds.toList) (.bindResult bind.binds.toList)) Binds := by
      refine obeys_call fun qr g h code => ⟨_, ?_, h.2.1, rfl⟩
      obtain ⟨rfl, -, bound, rfl⟩ := h
      exact if_pos hlength
    refine hbind.bind fun code => ?_
    by_cases hcode : code = 0
    · rw [if_neg (not_not_intro hcode)]
      refine obeys_call fun qr g h _ => ⟨g, ?_, h.holds⟩
      rw [h.2, decide_eq_true hcode]
      rfl
    · rw [if_pos hcode]
      exact obeys_pure fun _ _ h => h.holds
  · rw [if_pos hfields]
    exact obeys_pure fun _ _ h => h.2

/-- The description is used before it is freed. -/
theorem obeys_fetchRow (res : ResPtr) :
    Obeys (fun qr g => qr.res = some res ∧ Holds qr g) (fetchRow L res) fun _ => Holds := by
  have hrows : Obeys (fun qr g => qr.res = some res ∧ Holds qr g)
      (call (L.fetchRow res) fun _ => .fetchRow res) fun _ qr g =>
        qr.res = some res ∧ Holds qr g := by
    refine obeys_call fun qr g h _ => ⟨g, ?_, h⟩
    obtain ⟨hres, -, bound, rfl⟩ := h
    rw [hres]
    exact if_pos rfl
  have hlens : Obeys (fun qr g => qr.res = some res ∧ Holds qr g)
      (call (L.fetchLengths res) fun _ => .fetchLengths res) fun _ qr g =>
        qr.res = some res ∧ Holds qr g := by
    refine obeys_call fun qr g h _ => ⟨g, ?_, h⟩
    obtain ⟨hres, -, bound, rfl⟩ := h
    rw [hres]
    exact if_pos rfl
  exact hrows.bind fun rows => obeys_modifyQr_bind (fun _ _ h => h) fun _ =>
    hlens.bind fun lens => obeys_modifyQr_bind (fun _ _ h => h) fun _ =>
      obeys_pure fun _ _ h => h.2

theorem obeys_fetchResultRow : Obeys Holds (fetchResultRow L) fun _ => Holds := by
  refine obeys_get fun w => ?_
  cases hres : w.qr.res with
  | none => exact obeys_pure fun _ _ h => h.2
  | some res =>
    dsimp only
    split
    · exact obeys_pure fun _ _ h => h.2
    · exact (obeys_fetchRow res).mono (fun qr g h => ⟨h.1 ▸ hres, h.2⟩) fun _ _ _ h => h

/-- Whatever a callback asks, it is not freed. -/
theorem obeys_answer (request : ResultRequest ω) :
    Obeys Holds (answer L request) fun _ => Holds := by
  cases request with
  | affectedRows => exact obeys_get fun _ => obeys_pure fun _ _ h => h.2
  | fetchResult bind => exact obeys_fetchResult bind
  | fetchResultRow => exact obeys_fetchResultRow
  | update f =>
    have hupdate : Obeys Holds (modify fun w => { w with lib := f w.lib } : OnStmt ω Unit)
        fun _ => Holds :=
      keepsTo_modify (fun _ => rfl) fun _ _ h => h
    exact hupdate.bind fun _ => obeys_pure fun _ _ h => h

theorem obeys_serve (request : ResultRequest ω) :
    Obeys Holds (serve L request) fun _ => Holds :=
  (obeys_answer request).bind fun _ => obeys_get fun _ => obeys_pure fun _ _ h => h.2

/-! ## Tasks -/

/-- **A task** leaves nothing under way. -/
theorem obeys_executeStmtTask {α : Type} (task : StmtTask ω α) :
    Obeys (fun _ g => g = .closed) (executeStmtTask L task) fun _ _ g => g = .closed := by
  have hnew : Obeys (fun _ g => g = .closed) (modifyQr fun _ => .new : OnStmt ω Unit)
      fun _ => Idle := obeys_modifyQr fun _ _ h => ⟨rfl, h⟩
  have hcallBack : Obeys Holds (call (fun lib => ((), lib)) fun _ => .callBack : OnStmt ω Unit)
      fun _ => Holds := by
    refine obeys_call fun qr g h _ => ⟨g, ?_, h⟩
    obtain ⟨-, bound, rfl⟩ := h
    rfl
  refine hnew.bind fun _ => (obeys_executeStmt _ _).bind fun result => ?_
  by_cases hresult : result = 0
  · have hrun : Obeys Holds (task.sqlCallback.run (serve L)) fun _ => Holds :=
      keepsTo_run obeys_serve task.sqlCallback
    rw [if_neg (not_not_intro hresult)]
    refine Obeys.mono (hcallBack.bind fun _ => hrun.bind fun a => obeys_release_holds.bind fun _ =>
      obeys_pure fun _ _ h => h) (fun qr g h => ?_) fun _ _ _ h => h
    exact (if_pos hresult).mp h
  · rw [if_pos hresult]
    refine Obeys.mono (obeys_release_idle.bind fun _ => obeys_pure fun _ _ h => h)
      (fun qr g h => ?_) fun _ _ _ h => h
    exact (if_neg hresult).mp h

/-- A library for which every result has one row of two columns; the state is the number of rows
that are not fetched. -/
def oneRow : StmtLibrary ℕ where
  prepare _ n := (0, n)
  bindParam _ n := (0, n)
  execute _ := (0, 1)
  storeResult n := (0, n)
  resultMetadata n := (some 7, n)
  affectedRows n := (1, n)
  numRows _ n := (0, n)
  numFields _ n := (2, n)
  bindResult _ n := (0, n)
  fetch n := (if n = 0 then 100 else 0, n - 1)
  fetchRow _ n := (none, n)
  fetchLengths _ n := (none, n)
  freeResult _ n := ((), n)
  stmtFreeResult n := ((), n)
  error n := (⟨[], ⟨[], true⟩⟩, n)

/-- The entries before they are bound. -/
def QueryBind.two : QueryBind 2 :=
  ⟨.replicate 2 ⟨.tiny, 0, 0, none, 0⟩, .replicate 2 0, .replicate 2 0⟩

/-- Two strings are passed. -/
def QueryBind.strings : QueryBind 2 :=
  (QueryBind.two.bindString (0 : Fin 2) 16 4).bindString (1 : Fin 2) 32 8

/-- Two numbers are fetched. -/
def QueryBind.numbers : QueryBind 2 :=
  (QueryBind.two.bindLong (0 : Fin 2) 48).bindLong (1 : Fin 2) 56

/-- A statement with two parameters, whose callback fetches twice. -/
def twoNumbers : StmtTask ℕ Int32 where
  sentence := some ⟨ascii "select ? ?", ⟨[], true⟩⟩
  paramNumbers := 2
  queryBind := .strings
  sqlCallback := .ask (.fetchResult .numbers) fun _ =>
    .ask (.fetchResult .numbers) fun last => .done last.1

example :
    let strings : List MysqlBind := [⟨.string, 16, 4, none, 0⟩, ⟨.string, 32, 8, none, 1⟩]
    let numbers : List MysqlBind := [⟨.long, 48, 0, none, 0⟩, ⟨.long, 56, 0, none, 1⟩]
    (match (executeStmtTask oneRow twoNumbers).run ⟨0, .new, [], []⟩ with
      | .ok last w => some (last, w.log)
      | .error _ _ => none) =
    some (some 100, [.prepare (ascii "select ? ?") 0, .bindParam strings 0, .execute 0,
      .storeResult 0, .resultMetadata (some 7), .affectedRows, .numRows 7, .numFields 7 2,
      .callBack, .bindResult numbers 0, .fetch 0, .bindResult numbers 0, .fetch 100,
      .freeResult 7, .stmtFreeResult]) := by
  decide +kernel

/-! ## The reports -/

/-- The program returns a value and reports nothing. -/
def Silent {α : Type} (x : OnStmt ω α) : Prop :=
  ∀ w, ∃ a t, Yields x w (.ok a) t ∧ t.errInfo = w.errInfo

section Silent

variable {α β : Type}

theorem silent_pure (a : α) : Silent (pure a : OnStmt ω α) := fun w => ⟨a, w, yields_pure a w, rfl⟩

theorem silent_call (f : ω → α × ω) (event : α → StmtEvent) : Silent (call f event) := fun w =>
  ⟨_, _, (yields_get w).bind ((yields_set w _).bind (yields_pure _ _)), rfl⟩

theorem silent_modifyQr (f : QueryResult → QueryResult) : Silent (modifyQr f : OnStmt ω Unit) :=
  fun w => ⟨⟨⟩, _, yields_modify _ w, rfl⟩

theorem Silent.bind {x : OnStmt ω α} {f : α → OnStmt ω β} (hx : Silent x)
    (hf : ∀ a, Silent (f a)) : Silent (x >>= f) := by
  intro w
  obtain ⟨a, t, ha, ht⟩ := hx w
  obtain ⟨b, u, hb, hu⟩ := hf a t
  exact ⟨b, u, ha.bind hb, hu.trans ht⟩

/-- What comes after a program that reports nothing. -/
theorem Silent.of_bind {x : OnStmt ω α} {f : α → OnStmt ω β} {w u : StmtWorld ω}
    {r : Except Fault β} (hx : Silent x) (h : Yields (x >>= f) w r u) :
    ∃ a t, t.errInfo = w.errInfo ∧ Yields (f a) t r u := by
  obtain ⟨a, t, ha, ht⟩ := hx w
  rcases yields_bind.mp h with ⟨a', t', ha', hf⟩ | ⟨e, he, -⟩
  · obtain ⟨-, rfl⟩ := ha'.unique ha
    exact ⟨a', t', ht, hf⟩
  · cases (he.unique ha).1

theorem silent_writeResult : Silent (writeResult L) := by
  refine (silent_modifyQr _).bind fun _ => (silent_call _ _).bind fun res =>
    (silent_modifyQr _).bind fun _ => (silent_call _ _).bind fun nrow =>
      (silent_modifyQr _).bind fun _ => ?_
  cases res with
  | none => exact silent_pure _
  | some res =>
    exact (silent_call _ _).bind fun numRows => (silent_modifyQr _).bind fun _ =>
      (silent_call _ _).bind fun numFields => silent_modifyQr _

end Silent

section Reports

variable {w t : StmtWorld ω} {r : Except Fault Int32} {sql : CharPtr}

theorem failStmt_reports {info : String} {result : Int32}
    (h : Yields (failStmt L info sql result) w r t) :
    ∃ reason, Yields (fail info [reason, sql] result) w.errInfo r t.errInfo := by
  obtain ⟨reason, v, hv, hfail⟩ := (silent_call _ _).of_bind h
  obtain ⟨b, hb, rfl⟩ := yields_zoom hfail
  exact ⟨reason, hv ▸ hb⟩

theorem executeBound_reports (bindnum : Dword) (bindParam : Int32)
    (hbind : ¬ (bindnum ≠ 0 ∧ bindParam ≠ 0)) (h : Yields (executeBound L sql) w r t) :
    ∃ execute storeResult reason,
      Yields (StmtCall.run ⟨some sql, true, bindnum, 0, bindParam, execute, storeResult, reason⟩)
        w.errInfo r t.errInfo := by
  obtain ⟨execute, u, hu, h⟩ := (silent_call _ _).of_bind h
  by_cases hexecute : execute = 0
  · rw [if_neg (not_not_intro hexecute)] at h
    obtain ⟨storeResult, v, hv, h⟩ := (silent_call _ _).of_bind h
    by_cases hstore : storeResult = 0
    · rw [if_neg (not_not_intro hstore)] at h
      obtain ⟨-, x, hx, h⟩ := silent_writeResult.of_bind h
      obtain ⟨rfl, rfl⟩ := h.unique (yields_pure 0 x)
      refine ⟨0, 0, ⟨[], ⟨[], true⟩⟩, ?_⟩
      rw [hx, hv, hu, StmtCall.run]
      dsimp only
      rw [if_neg (not_not_intro rfl), if_neg hbind, if_neg (not_not_intro rfl),
        if_neg (not_not_intro rfl)]
      exact yields_pure 0 _
    · rw [if_pos hstore] at h
      obtain ⟨reason, hfail⟩ := failStmt_reports h
      refine ⟨0, storeResult, reason, ?_⟩
      rw [← hu, ← hv, StmtCall.run]
      dsimp only
      rw [if_neg (not_not_intro rfl), if_neg hbind, if_neg (not_not_intro rfl), if_pos hstore]
      exact hfail
  · rw [if_pos hexecute] at h
    obtain ⟨reason, hfail⟩ := failStmt_reports h
    refine ⟨execute, 0, reason, ?_⟩
    rw [← hu, StmtCall.run]
    dsimp only
    rw [if_neg (not_not_intro rfl), if_neg hbind, if_pos hexecute]
    exact hfail

/-- **What a statement reports** is what `StmtCall.run` reports, for what the library returns. -/
theorem executeStmt_reports {sql : Option CharPtr} {args : Arguments}
    (h : Yields (executeStmt L sql args) w r t) : ∃ call : StmtCall, call.sql = sql ∧
      call.connected = true ∧ call.bindnum = args.bindnum ∧
      Yields call.run w.errInfo r t.errInfo := by
  cases sql with
  | none =>
    obtain ⟨b, hb, rfl⟩ := yields_zoom h
    exact ⟨⟨none, true, args.bindnum, 0, 0, 0, 0, ⟨[], ⟨[], true⟩⟩⟩, rfl, rfl, rfl, hb⟩
  | some sql =>
    obtain ⟨prepare, u, hu, h⟩ := (silent_call _ _).of_bind h
    rw [← hu]
    by_cases hprepare : prepare = 0
    · rw [if_neg (not_not_intro hprepare), executePrepared] at h
      by_cases hargs : args.bindnum = 0
      · rw [if_neg (not_not_intro hargs)] at h
        obtain ⟨execute, storeResult, reason, hrun⟩ :=
          executeBound_reports args.bindnum 0 (fun hbind => hbind.2 rfl) h
        exact ⟨_, rfl, rfl, rfl, hrun⟩
      · rw [if_pos hargs] at h
        obtain ⟨bindParam, v, hv, h⟩ := (silent_call _ _).of_bind h
        rw [← hv]
        by_cases hbind : bindParam = 0
        · rw [if_neg (not_not_intro hbind)] at h
          obtain ⟨execute, storeResult, reason, hrun⟩ :=
            executeBound_reports args.bindnum 0 (fun hbind => hbind.2 rfl) h
          exact ⟨_, rfl, rfl, rfl, hrun⟩
        · rw [if_pos hbind] at h
          obtain ⟨reason, hfail⟩ := failStmt_reports h
          refine ⟨⟨some sql, true, args.bindnum, 0, bindParam, 0, 0, reason⟩, rfl, rfl, rfl, ?_⟩
          rw [StmtCall.run]
          dsimp only
          rw [if_neg (not_not_intro rfl), if_pos ⟨hargs, hbind⟩]
          exact hfail
    · rw [if_pos hprepare] at h
      obtain ⟨reason, hfail⟩ := failStmt_reports h
      refine ⟨⟨some sql, true, args.bindnum, prepare, 0, 0, 0, reason⟩, rfl, rfl, rfl, ?_⟩
      rw [StmtCall.run]
      dsimp only
      rw [if_pos hprepare]
      exact hfail

end Reports

end Prepared

end PetsServer

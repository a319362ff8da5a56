import PetsServer.Foundations.RemoteCall
import PetsServer.Foundations.Run
import PetsServer.Sql.OutputOrder

/-!
# A database

The database server is given: nothing is known of it but that it answers texts, one after another.
`SqlServer.Executes` says what a call relies on: the server executes the texts as the statements of
a session that `readStatement` reads in them. `readStatement_setText`, `readStatement_callText` and
`readStatement_selectText` say which statements the texts of `Execute` are.
-/

namespace PetsServer

open Foundations

/-- A value of the database. -/
inductive SqlValue
  | null
  | number (z : ℤ)
  | bytes (data : List Byte)
  deriving DecidableEq, Repr

namespace SqlValue

/-- A value in a row: a number in decimal, and no text for null. -/
def column : SqlValue → Option (List Byte)
  | null => none
  | number z => some (decimal z)
  | bytes data => some data

/-- What a `SET` assigns: null, or the bytes of a hexadecimal literal. -/
def assigned (value : Option (List Byte)) : SqlValue := value.elim null bytes

end SqlValue

/-- The session of a client. -/
abbrev Database := ClientSession ℕ (List Byte) SqlValue

/-- A stored procedure, which selects nothing itself. -/
abbrev SqlProcedure := StoredProcedure (List Byte) SqlValue

/-- A database server: it answers a text, and goes on to another state. -/
abbrev SqlServer (σ : Type) := σ → List Byte → σ × SqlReply

/-! ## Reading the texts -/

/-- A number, or a user variable. -/
def CallArgument.actual : CallArgument → Actual ℕ SqlValue
  | .number z => .value (.number z)
  | .variable i => .variable i

/-- The argument that tokens stand for. -/
def readActual : List Token → Option (Actual ℕ SqlValue)
  | [.literal s] => some (.value (.bytes s))
  | ts => (readArgument ts).map CallArgument.actual

/-- The arguments of a `CALL`. -/
def readActuals (strProc text : List Byte) : Option (List (Actual ℕ SqlValue)) :=
  let start := ascii "call " ++ strProc ++ ascii " ( "
  if text.take start.length = start then
    (arguments (text.drop start.length)).bind fun args => args.mapM readActual
  else none

/-- The assignments of a `SET`. -/
def readSet (text : List Byte) : Option (List (ℕ × SqlValue)) :=
  (readSetText text).map fun assignments => assignments.map fun a => (a.1, .assigned a.2)

/-- The statement that a text says. -/
def readStatement (strProc text : List Byte) : Option (Statement ℕ SqlValue) :=
  (((readSet text).map .set).or ((readActuals strProc text).map .call)).or
    ((readSelectText text).map .select)

/-! ## The server -/

/-- The reply with one row. -/
def SqlReply.row (columns : Row) : SqlReply := ⟨0, some ⟨columns.length, [columns], by simp⟩, 1⟩

/-- The reply to a `SELECT` of `values`. -/
def rowReply (values : List SqlValue) : SqlReply := .row (values.map SqlValue.column)

/-- The reply to a statement that is executed and has selected `row`. -/
def Answers (row : List SqlValue) : Statement ℕ SqlValue → SqlReply → Prop
  | .set _, reply | .call _, reply => reply.code = 0
  | .select _, reply => reply = rowReply row

/-- What a call of the procedure `p` relies on of the server, whatever state it is in; `view` is the
session that it keeps. -/
structure SqlServer.Executes {σ : Type} (S : SqlServer σ) (view : σ → Database) (p : SqlProcedure)
    (question : List Byte) (texts : List (List Byte)) : Prop where
  /-- The question for the signature changes nothing. -/
  question : ∀ s, view (S s question).1 = view s
  /-- The texts are executed as what they say. -/
  statement : ∀ s, ∀ text ∈ texts, ∀ statement db row,
    readStatement p.name text = some statement → p.exec (view s) statement = some (db, row) →
      view (S s text).1 = db ∧ Answers row statement (S s text).2

/-- The reply that a call finds to one of its texts. -/
def CallReplies.replyTo (replies : CallReplies) (text : List Byte) : SqlReply :=
  if text.take 3 = ascii "set" then replies.set
  else if text.take 5 = ascii "call " then replies.call.toSqlReply
  else replies.select

/-- The replies that a call finds are the answers of the server, which is in the state `s`. -/
def Served {σ : Type} (S : SqlServer σ) (s : σ) (replies : CallReplies) (question : List Byte)
    (texts : List (List Byte)) : Prop :=
  replies.paramList :: texts.map replies.replyTo = (perform S s (question :: texts)).2

/-! ## The texts of Execute -/

/-- The value that is passed in for a parameter. -/
def SqlParam.passed (param : SqlParam) : SqlValue :=
  match param.type, param.bindValue with
  | .long, .int n => .number n.toInt
  | .longlong, .int64 n => .number n.toInt
  | .string, .charPtr (some s) => .bytes (cString s)
  | .blob, .voidPtr block => .bytes (block.take param.lens)
  | _, _ => .null

/-- What the `CALL` passes for the `i`-th parameter. -/
def SqlParam.actual (i : ℕ) (param : SqlParam) : Actual ℕ SqlValue :=
  if param.direction = .vIn ∧ param.type ≠ .blob then .value param.passed else .variable i

/-- What the `CALL` passes for the parameters from `i` on. -/
def actuals (i : ℕ) (params : List SqlParam) : List (Actual ℕ SqlValue) :=
  (params.zipIdx i).map fun p => p.1.actual p.2

@[simp] theorem actuals_cons (i : ℕ) (param : SqlParam) (params : List SqlParam) :
    actuals i (param :: params) = param.actual i :: actuals (i + 1) params := rfl

/-- What the `SET` assigns. -/
def setAssignments (params : List SqlParam) : List (ℕ × SqlValue) :=
  (assignments params).map fun a => (a.1, .assigned a.2)

namespace SqlParam.Sendable

variable {param : SqlParam}

theorem readActual (h : param.Sendable) (i : ℕ) :
    readActual (param.argumentTokens i) = some (param.actual i) := by
  have hread {l : List Byte} {arg : CallArgument} (h : readArgument (l.map .byte) = some arg) :
      PetsServer.readActual (l.map .byte) = some arg.actual := by
    have hbytes : PetsServer.readActual (l.map .byte) =
        (readArgument (l.map .byte)).map CallArgument.actual := by
      cases l <;> rfl
    rw [hbytes, h, Option.map_some]
  cases h with
  | supported h =>
    cases h with
    | int lens n => exact hread (readArgument_decimal n.toInt)
    | bigint lens n => exact hread (readArgument_decimal n.toInt)
    | blob lens block hpos hblock => exact hread (readArgument_userVariable i)
    | out type lens value => exact hread (readArgument_userVariable i)
  | string lens s hparam =>
    subst hparam
    rfl

theorem argument_ne_nil (h : param.Sendable) (i : ℕ) : param.argument i ≠ [] := by
  cases h with
  | supported h => exact h.argument_ne_nil i
  | string lens s hparam =>
    subst hparam
    exact List.cons_ne_nil _ _

theorem plain (h : param.Sendable) : ∀ s ∈ param.stringValue, Plain s := by
  cases h with
  | supported h =>
    rw [h.stringValue]
    exact nofun
  | string lens s hparam hplain =>
    subst hparam
    rintro _ ⟨⟩
    exact hplain

end SqlParam.Sendable

variable {params : List SqlParam}

theorem readStatement_setText (strProc : List Byte) (hne : assignments params ≠ []) :
    readStatement strProc (setText params) = some (.set (setAssignments params)) := by
  rw [readStatement, readSet, readSetText_setText hne]
  rfl

/-- A text that begins otherwise is not a `SET`. -/
theorem readSet_of_ne {text : List Byte} (h : text.take 3 ≠ ascii "set") : readSet text = none := by
  rw [readSet, readSetText, if_neg h, Option.map_none]

theorem readStatement_callText (strProc : List Byte)
    (hsendable : ∀ param ∈ params, param.Sendable) :
    readStatement strProc (callText strProc params) = some (.call (actuals 0 params)) := by
  have hmem : ∀ p ∈ params.zipIdx, p.1.Sendable := fun p hp =>
    hsendable p.1 (List.fst_mem_of_mem_zipIdx hp)
  have hargs := @arguments_callText params
    (List.forall_mem_map.mpr fun p hp => (hmem p hp).argument_ne_nil p.2)
    (fun param hparam => (hsendable param hparam).plain)
  have hread := mapM_map_eq_some (f := readActual) fun p hp => (hmem p hp).readActual p.2
  have hcall : readActuals strProc (callText strProc params) = some (actuals 0 params) := by
    rw [readActuals, callText, List.take_left, if_pos rfl, List.drop_left, hargs]
    exact hread
  have hset : (callText strProc params).take 3 ≠ ascii "set" := by
    simp [callText, ascii, charByte]
  rw [readStatement, hcall, readSet_of_ne hset]
  rfl

theorem readStatement_selectText (strProc : List Byte) (hne : outputs params ≠ []) :
    readStatement strProc (selectText params) = some (.select (outputs params)) := by
  have hset : (selectText params).take 3 ≠ ascii "set" := by
    simp [selectText, ascii, charByte]
  have hcall : readActuals strProc (selectText params) = none := by
    rw [readActuals, if_neg]
    intro h
    simpa [selectText, ascii, charByte] using congrArg List.head? h
  rw [readStatement, hcall, readSet_of_ne hset, readSelectText_selectText hne]
  rfl

/-! ## A call of the procedure -/

/-- The texts that call the procedure: the `SET`, if there is anything to assign, the `CALL`, and
the `SELECT`, if there is anything to read. -/
def callTexts (strProc : List Byte) (params : List SqlParam) : List (List Byte) :=
  (if assignments params = [] then [] else [setText params]) ++ callText strProc params ::
    if outputs params = [] then [] else [selectText params]

theorem setText_mem (strProc : List Byte) (h : assignments params ≠ []) :
    setText params ∈ callTexts strProc params := by
  rw [callTexts, if_neg h]
  exact List.mem_append_left _ List.mem_cons_self

theorem callText_mem (strProc : List Byte) (params : List SqlParam) :
    callText strProc params ∈ callTexts strProc params :=
  List.mem_append_right _ List.mem_cons_self

theorem selectText_mem (strProc : List Byte) (h : outputs params ≠ []) :
    selectText params ∈ callTexts strProc params := by
  rw [callTexts, if_neg h]
  exact List.mem_append_right _ (List.mem_cons_of_mem _ List.mem_cons_self)

/-- Which of the parameters are passed out. -/
def outs (params : List SqlParam) : List Bool := params.map fun param => param.direction ≠ .vIn

/-- The values that are passed in. -/
def passedValues (params : List SqlParam) : List SqlValue :=
  (params.filter fun param => param.direction = .vIn).map SqlParam.passed

theorem passedValues_cons_of_in {param : SqlParam} (h : param.direction = .vIn) :
    passedValues (param :: params) = param.passed :: passedValues params := by
  simp [passedValues, h]

theorem passedValues_cons_of_out {param : SqlParam} (h : param.direction ≠ .vIn) :
    passedValues (param :: params) = passedValues params := by
  simp [passedValues, h]

/-- The `CALL` names the variables of the outputs. -/
theorem passedOut_actuals (i : ℕ) (params : List SqlParam) :
    passedOut (outs params) (actuals i params) =
      some (positionsFrom (·.direction = .vIn) i params) := by
  induction params generalizing i with
  | nil => rfl
  | cons param params ih =>
    rw [outs, List.map_cons, actuals_cons]
    by_cases hdir : param.direction = .vIn
    · have hskip : positionsFrom (·.direction = .vIn) i (param :: params) =
          positionsFrom (·.direction = .vIn) (i + 1) params :=
        @positionsFrom_cons_of_pos _ (·.direction = .vIn) _ param hdir i params
      rw [hskip, ← ih (i + 1), decide_eq_false (not_not_intro hdir)]
      rfl
    · have hactual : param.actual i = .variable i := if_neg fun h => hdir h.1
      have htake : positionsFrom (·.direction = .vIn) i (param :: params) =
          i :: positionsFrom (·.direction = .vIn) (i + 1) params :=
        @positionsFrom_cons_of_neg _ (·.direction = .vIn) _ param hdir i params
      rw [htake, decide_eq_true hdir, hactual, passedOut]
      exact congrArg (Option.map (i :: ·)) (ih (i + 1))

/-- The `CALL` passes the values, when the variables of the blobs hold their bytes. -/
theorem passedIn_actuals {vars : ℕ → SqlValue} {i : ℕ} (hvars : ∀ p ∈ params.zipIdx i,
    p.1.direction = .vIn → p.1.type = .blob → vars p.2 = p.1.passed) :
    passedIn vars (outs params) (actuals i params) = passedValues params := by
  induction params generalizing i with
  | nil => rfl
  | cons param params ih =>
    rw [List.zipIdx_cons, List.forall_mem_cons] at hvars
    obtain ⟨hparam, hparams⟩ := hvars
    rw [outs, List.map_cons, actuals_cons]
    by_cases hdir : param.direction = .vIn
    · have heval : (param.actual i).eval vars = param.passed := by
        by_cases htype : param.type = .blob
        · rw [SqlParam.actual, if_neg fun h => h.2 htype]
          exact hparam hdir htype
        · rw [SqlParam.actual, if_pos ⟨hdir, htype⟩]
          rfl
      rw [decide_eq_false (not_not_intro hdir), passedIn, heval, passedValues_cons_of_in hdir]
      exact congrArg (param.passed :: ·) (ih hparams)
    · rw [decide_eq_true hdir, passedIn, passedValues_cons_of_out hdir]
      exact ih hparams

theorem nodup_outputs (params : List SqlParam) : (outputs params).Nodup := by
  rw [outputs_eq]
  exact nodup_positionsFrom 0 params

theorem nodup_assignments (params : List SqlParam) :
    ((assignments params).map Prod.fst).Nodup := by
  rw [map_fst_assignments]
  refine List.Nodup.sublist (List.filter_sublist.map Prod.snd) ?_
  rw [List.zipIdx_map_snd]
  exact List.nodup_range'

/-- A blob that is passed in. -/
theorem SqlParam.Sendable.blob_eq {param : SqlParam} (h : param.Sendable)
    (hdir : param.direction = .vIn) (htype : param.type = .blob) :
    ∃ block, param.bindValue = .voidPtr block := by
  cases h with
  | supported h =>
    cases h with
    | int | bigint => cases htype
    | blob lens block => exact ⟨block, rfl⟩
    | out => cases hdir
  | string lens s hparam =>
    subst hparam
    cases htype

/-- After the `SET` the variable of a blob holds its bytes. -/
theorem assign_setAssignments (hsendable : ∀ param ∈ params, param.Sendable)
    (vars : ℕ → SqlValue) : ∀ p ∈ params.zipIdx, p.1.direction = .vIn → p.1.type = .blob →
      assign vars (setAssignments params) p.2 = p.1.passed := by
  rintro ⟨param, i⟩ hp (hdir : param.direction = .vIn) (htype : param.type = .blob)
  obtain ⟨block, hblock⟩ :=
    (hsendable param (List.fst_mem_of_mem_zipIdx hp)).blob_eq hdir htype
  have hassigned : (i, some (block.take param.lens)) ∈ assignments params := by
    refine List.mem_filterMap.mpr ⟨_, hp, ?_⟩
    simp [SqlParam.assigned, hdir, htype, hblock]
  have hnodup : ((setAssignments params).map Prod.fst).Nodup := by
    rw [setAssignments, List.map_map]
    exact nodup_assignments params
  have hpassed : param.passed = .assigned (some (block.take param.lens)) := by
    simp [SqlParam.passed, htype, hblock, SqlValue.assigned]
  exact assign_of_mem hnodup (List.mem_map.mpr ⟨_, hassigned, congrArg (i, ·) hpassed.symm⟩) vars

section Serve

variable {σ : Type} {S : SqlServer σ} {view : σ → Database} {p : SqlProcedure}
  {question : List Byte} {texts : List (List Byte)}

/-- The `CALL` and the `SELECT` are served. -/
theorem SqlServer.Executes.serve_call {s : σ}
    (h : S.Executes view p question (callTexts p.name params))
    (hp : p.passesOut = outs params) (hsendable : ∀ param ∈ params, param.Sendable)
    (hvars : ∀ q ∈ params.zipIdx, q.1.direction = .vIn → q.1.type = .blob →
      (view s).vars q.2 = q.1.passed) :
    ∃ t call, perform S s (callText p.name params ::
          if outputs params = [] then [] else [selectText params]) =
        (t, call :: if outputs params = [] then [] else [rowReply (p.body (passedValues params))]) ∧
      call.code = 0 ∧
      (view t).calls = (view s).calls ++ [(p.name, passedValues params)] := by
  have hnames : passedOut p.passesOut (actuals 0 params) = some (outputs params) := by
    rw [hp]
    exact passedOut_actuals 0 params
  have hvalues : passedIn (view s).vars p.passesOut (actuals 0 params) = passedValues params := by
    rw [hp]
    exact passedIn_actuals hvars
  obtain ⟨db, hexec, hcalls⟩ : ∃ db, p.exec (view s) (.call (actuals 0 params)) = some (db, []) ∧
      db.calls = (view s).calls ++ [(p.name, passedValues params)] := by
    simp [StoredProcedure.exec, hnames, hvalues]
  obtain ⟨rfl, hcode⟩ := h.statement s _ (callText_mem p.name params) _ _ _
    (readStatement_callText p.name hsendable) hexec
  by_cases houtputs : outputs params = []
  · rw [if_pos houtputs, if_pos houtputs]
    exact ⟨_, _, rfl, hcode, hcalls⟩
  · have hselect := exec_select_of_call hexec hnames (nodup_outputs params)
    rw [hvalues] at hselect
    obtain ⟨hview, hrow⟩ := h.statement _ _ (selectText_mem p.name houtputs) _ _ _
      (readStatement_selectText p.name houtputs) hselect
    rw [if_neg houtputs, if_neg houtputs]
    refine ⟨_, _, ?_, hcode, hview ▸ hcalls⟩
    rw [perform_cons, perform_cons, hrow]
    rfl

/-- **The texts of a call are served**: the procedure is called once, with the values that are
bound, and the row is what it passes out. -/
theorem SqlServer.Executes.serve_callTexts
    (h : S.Executes view p question (callTexts p.name params))
    (hp : p.passesOut = outs params) (hsendable : ∀ param ∈ params, param.Sendable) (s : σ) :
    ∃ t set call, perform S s (question :: callTexts p.name params) =
        (t, (S s question).2 :: ((if assignments params = [] then [] else [set]) ++ call ::
          if outputs params = [] then [] else [rowReply (p.body (passedValues params))])) ∧
      set.code = 0 ∧ call.code = 0 ∧
      (view t).calls = (view s).calls ++ [(p.name, passedValues params)] := by
  rw [perform_cons, ← h.question s]
  generalize (S s question).1 = s
  by_cases hset : assignments params = []
  · have hvars := assign_setAssignments hsendable (view s).vars
    rw [setAssignments, hset] at hvars
    obtain ⟨t, call, hserve, hcode, hcalls⟩ := h.serve_call hp hsendable hvars
    refine ⟨t, .done, call, ?_, rfl, hcode, hcalls⟩
    rw [callTexts, if_pos hset, if_pos hset, List.nil_append, hserve]
    rfl
  · obtain ⟨hview, hdone⟩ := h.statement s _ (setText_mem p.name hset) _ _ _
      (readStatement_setText p.name hset) rfl
    have hvars : ∀ q ∈ params.zipIdx, q.1.direction = .vIn → q.1.type = .blob →
        (view (S s (setText params)).1).vars q.2 = q.1.passed := by
      rw [hview]
      exact assign_setAssignments hsendable (view s).vars
    obtain ⟨t, call, hserve, hcode, hcalls⟩ := h.serve_call hp hsendable hvars
    refine ⟨t, (S s (setText params)).2, call, ?_, hdone, hcode, ?_⟩
    · rw [callTexts, if_neg hset, if_neg hset, List.singleton_append, perform_cons, hserve]
      rfl
    · rw [hcalls, hview]

/-- What the replies of a call are when it is served. -/
structure CallReplies.Serve (replies : CallReplies) (params : List SqlParam)
    (values : List SqlValue) : Prop where
  set : assignments params ≠ [] → replies.set.code = 0
  call : replies.call.code = 0
  select : outputs params ≠ [] → replies.select = rowReply values

theorem replyTo_texts (replies : CallReplies) (strProc : List Byte) (params : List SqlParam) :
    replies.replyTo (setText params) = replies.set ∧
    replies.replyTo (callText strProc params) = replies.call.toSqlReply ∧
    replies.replyTo (selectText params) = replies.select := by
  refine ⟨if_pos rfl, ?_, ?_⟩
  · rw [CallReplies.replyTo, if_neg (by simp [callText, ascii, charByte]), if_pos]
    simp [callText, ascii, charByte]
  · rw [CallReplies.replyTo, if_neg, if_neg] <;> simp [selectText, ascii, charByte]

theorem Served.serve {s : σ} {replies : CallReplies}
    (h : Served S s replies question (callTexts p.name params))
    (hexecutes : S.Executes view p question (callTexts p.name params))
    (hp : p.passesOut = outs params) (hsendable : ∀ param ∈ params, param.Sendable) :
    replies.Serve params (p.body (passedValues params)) := by
  obtain ⟨t, set, call, hserve, hdone, hcode, -⟩ := hexecutes.serve_callTexts hp hsendable s
  obtain ⟨hset, hcall, hselect⟩ := replyTo_texts replies p.name params
  rw [Served, hserve, callTexts, List.map_append, List.map_cons, hcall] at h
  obtain ⟨-, h⟩ := List.cons.inj h
  have hcalled (h : replies.call.toSqlReply :: (if outputs params = [] then []
      else [selectText params]).map replies.replyTo = call :: if outputs params = [] then []
        else [rowReply (p.body (passedValues params))]) :
      replies.call.code = 0 ∧ (outputs params ≠ [] →
        replies.select = rowReply (p.body (passedValues params))) := by
    obtain ⟨hreply, hrest⟩ := List.cons.inj h
    refine ⟨hreply ▸ hcode, fun houtputs => ?_⟩
    rw [if_neg houtputs, if_neg houtputs, List.map_singleton, hselect] at hrest
    exact (List.cons.inj hrest).1
  by_cases hassigned : assignments params = []
  · rw [if_pos hassigned, if_pos hassigned] at h
    obtain ⟨hcalled, hrow⟩ := hcalled h
    exact ⟨fun hne => absurd hassigned hne, hcalled, hrow⟩
  · rw [if_neg hassigned, if_neg hassigned, List.map_singleton, hset] at h
    obtain ⟨hset, hrest⟩ := List.cons.inj h
    obtain ⟨hcalled, hrow⟩ := hcalled hrest
    exact ⟨fun _ => hset ▸ hdone, hcalled, hrow⟩

end Serve

end PetsServer

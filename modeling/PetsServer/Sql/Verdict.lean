import PetsServer.Sql.Arguments
import PetsServer.Sql.CallBack
import PetsServer.Sql.Nulls
import PetsServer.Sql.Overrun

/-!
# The verdict of a call

The result of `Execute` decides whether a call calls back. `reports_once_iff` says in which
surroundings it is right, whatever the caller takes for the result where `Execute` returns none.
Both what should happen and what does are stated in terms of the inputs: `plan_cases` says what they
mean for the plan of the call.
-/

namespace PetsServer

open Foundations OnWorld

/-! ## Success -/

/-- The answer to the question for the signature is a row with this column first. -/
structure SqlReply.Answers (reply : SqlReply) (column : Option (List Byte)) : Prop where
  code : reply.code = 0
  affected : ¬ reply.affectedRows.toUInt32.toInt32 < 1
  row : ∃ set columns rest, reply.result = some set ∧ set.rows = (column :: columns) :: rest

/-- The library counts one row and returns one, in which no column is null. -/
structure SqlReply.OneRow (reply : SqlReply) : Prop where
  affected : reply.affectedRows = 1
  row : ∃ set columns, reply.result = some set ∧ set.rows = [columns] ∧ columns ≠ [] ∧
    none ∉ columns

/-- The parameters of a call, for the text of the signature. -/
def callParams (env : CallEnv) (pack : SqlPack) (text : List Byte) : List SqlParam :=
  bindParams (listed (textDeclarations text)) (boundValues env pack)

/-- The length of the `SET` for the parameters from `i` on, after `n` bytes. -/
def setSize (garbage : ℕ → List Byte) (n : ℕ) : ℕ → List SqlParam → ℕ
  | _, [] => n
  | i, param :: params => setSize garbage (param.sizeAfter (garbage i) n) (i + 1) params

/-- The question for the signature succeeds with this text, the signature is accepted, and the
`SET`, if there is any, is not too long and succeeds. -/
structure ReachesCall (env : CallEnv) (pack : SqlPack) (text : List Byte) : Prop where
  answers : env.replies.paramList.Answers (some text)
  accepted : Accepted (textDeclarations text)
  set : setSize env.garbage 0 0 (callParams env pack text) ≠ 0 →
    setSize env.garbage 0 0 (callParams env pack text) ≤ setLimit ∧ env.replies.set.code = 0

/-- All statements of a call succeed, and the `SELECT`, if there is any, with one row without
nulls. -/
def Succeeds (env : CallEnv) (pack : SqlPack) : Prop :=
  ∃ text, ReachesCall env pack text ∧ env.replies.call.code = 0 ∧
    (outputs (listed (textDeclarations text)) ≠ [] →
      env.replies.select.code = 0 ∧ env.replies.select.OneRow)

/-- The call calls back once and returns true if it succeeds, and else it returns false without a
callback, whatever is taken for the result where `Execute` returns none. -/
def ReportsOnce (paramList : List Byte → List Byte) (env : CallEnv) (pack : SqlPack)
    (w : SqlWorld) : Prop :=
  ∀ noReturn, ∃ b t, Yields (executeProcedure paramList { env with noReturn } pack) w (.ok b) t ∧
    (Succeeds env pack → b = true ∧ t.log.count .callBack = w.log.count .callBack + 1) ∧
    (¬ Succeeds env pack → b = false ∧ t.log.count .callBack = w.log.count .callBack)

/-! ## What goes wrong -/

/-- Nothing ends the program before the `CALL`: the question fits in its block; the first column of
the answer is not null; the text has at most ten declarations up to the first that stops the parser,
none with a comma alone for its type; and if it is accepted, at most ten values are bound, which are
there, every value that is passed in can be used, and the `SET` fits in `PrepareBuffer`. -/
structure Undisturbed (paramList : List Byte → List Byte) (env : CallEnv) (pack : SqlPack) : Prop
    where
  question : (paramList (cString pack.sentence)).length < 1024
  answer : ¬ env.replies.paramList.Answers none
  count : ∀ text, env.replies.paramList.Answers (some text) →
    (reached (textDeclarations text)).length ≤ maxParamCount
  comma : ∀ text, env.replies.paramList.Answers (some text) →
    ∀ d ∈ reached (textDeclarations text), d.typePart ≠ some (ascii ",")
  bound : ∀ text, env.replies.paramList.Answers (some text) → Accepted (textDeclarations text) →
    pack.paramNums.toNat ≤ maxParamCount ∧
      pack.paramNums.toNat ≤ ((pack.anyArr.map env.anyArr).getD []).length
  values : ∀ text, env.replies.paramList.Answers (some text) → Accepted (textDeclarations text) →
    ∀ param ∈ callParams env pack text, param.fault = none
  fits : ∀ text, env.replies.paramList.Answers (some text) → Accepted (textDeclarations text) →
    BytesFit env.garbage 0 0 (callParams env pack text)

/-- `Execute` fetches a row with the outputs, and so it comes to its end, where it returns no
result. -/
def ReachesEnd (env : CallEnv) (pack : SqlPack) : Prop :=
  ∃ text, ReachesCall env pack text ∧ env.replies.call.code = 0 ∧
    outputs (listed (textDeclarations text)) ≠ [] ∧ env.replies.select.code = 0 ∧
    env.replies.select.FetchesRow

theorem SqlReply.OneRow.fetchesRow {reply : SqlReply} (h : reply.OneRow) : reply.FetchesRow := by
  obtain ⟨set, columns, hresult, hrows, hne, -⟩ := h.row
  refine ⟨by rw [h.affected]; decide, set, hresult, ?_, by simp [hrows]⟩
  rw [← set.wf columns (by simp [hrows])]
  exact List.length_eq_zero_iff.not.mpr hne

/-! ## The plan -/

section Plan

variable {paramList : List Byte → List Byte} {env : CallEnv} {pack : SqlPack} {reply : SqlReply}
  {text : List Byte} {s : Signature} {garbage : ℕ → List Byte} {params : List SqlParam} {i : ℕ}

theorem SqlReply.Answers.unique {column column' : Option (List Byte)} (h : reply.Answers column)
    (h' : reply.Answers column') : column = column' := by
  obtain ⟨set, columns, rest, hresult, hrows⟩ := h.row
  obtain ⟨set', columns', rest', hresult', hrows'⟩ := h'.row
  obtain rfl := Option.some.inj (hresult.symm.trans hresult')
  have hcons := hrows.symm.trans hrows'
  simp only [List.cons.injEq] at hcons
  exact hcons.1.1

/-- The reply is an error, or its first row is read. -/
theorem prepared_cases (reply : SqlReply) :
    (∃ code, prepared reply = .ok (code, .zero) ∧ code ≠ 0 ∧ ∀ column, ¬ reply.Answers column) ∨
    ∃ column columns, reply.Answers column ∧ prepared reply = rowSignature (column :: columns) := by
  by_cases hcode : reply.code = 0
  swap
  · exact .inl ⟨-4, by simp [prepared, hcode], by decide, fun column h => hcode h.code⟩
  by_cases hrows : reply.affectedRows.toUInt32.toInt32 < 1
  · exact .inl ⟨-1, by simp [prepared, hcode, hrows], by decide, fun column h => h.affected hrows⟩
  cases hresult : reply.result with
  | none =>
    refine .inl ⟨-2, by simp [prepared, hcode, hrows, hresult], by decide, fun column h => ?_⟩
    obtain ⟨set, columns, rest, hset, -⟩ := h.row
    cases hresult.symm.trans hset
  | some set =>
    have hno (hempty : ∀ column columns rest, set.rows ≠ (column :: columns) :: rest) :
        ∀ column, ¬ reply.Answers column := by
      intro column h
      obtain ⟨set', columns, rest, hset, hrow⟩ := h.row
      obtain rfl := Option.some.inj (hresult.symm.trans hset)
      exact hempty _ _ _ hrow
    cases hset : set.rows with
    | nil =>
      exact .inl ⟨-2, by simp [prepared, hcode, hrows, hresult, hset], by decide,
        hno (by simp [hset])⟩
    | cons row rest =>
      have hwidth : row.length = set.numFields := set.wf row (hset ▸ List.mem_cons_self)
      cases row with
      | nil =>
        have hfields : set.numFields = 0 := hwidth.symm
        exact .inl ⟨-2, by simp [prepared, hcode, hrows, hresult, hset, hfields], by decide,
          hno (by simp [hset])⟩
      | cons column columns =>
        have hfields : set.numFields ≠ 0 := by
          rw [← hwidth]
          simp
        exact .inr ⟨column, columns, ⟨hcode, hrows, set, columns, rest, hresult, hset⟩,
          by simp [prepared, hcode, hrows, hresult, hset, hfields]⟩

/-- What the text of a signature leads to. -/
theorem rowSignature_cases (text : List Byte) (columns : Row) :
    ((∃ fault, rowSignature (some text :: columns) = .error fault) ∧
      (maxParamCount < (reached (textDeclarations text)).length ∨
        stop (textDeclarations text) = some .throws)) ∨
    (∃ code s, rowSignature (some text :: columns) = .ok (code, s) ∧ code ≠ 0 ∧
      (reached (textDeclarations text)).length ≤ maxParamCount ∧
      stop (textDeclarations text) = some .unknown) ∨
    ∃ s begun, rowSignature (some text :: columns) = .ok (0, s) ∧
      (reached (textDeclarations text)).length ≤ maxParamCount ∧ Accepted (textDeclarations text) ∧
      s.Lists (listed (textDeclarations text)) begun := by
  obtain ⟨r, s, hparsed, hrow⟩ := rowSignature_text text columns
  rw [hrow]
  by_cases hle : (reached (textDeclarations text)).length ≤ maxParamCount
  · rcases hparsed.cases_of_start hle with ⟨hstop, rfl, hlists⟩ | ⟨hstop, rfl, p, hlists⟩ |
      ⟨hstop, rfl⟩ | ⟨hstop, rfl⟩
    · exact .inr (.inr ⟨s, _, rfl, hle, .inl hstop, hlists⟩)
    · exact .inr (.inr ⟨s, _, rfl, hle, .inr hstop, hlists⟩)
    · exact .inl ⟨⟨_, rfl⟩, .inr hstop⟩
    · exact .inr (.inl ⟨-3, s, rfl, by decide, hle, hstop⟩)
  · have hlt := Nat.not_le.mp hle
    obtain rfl := hparsed.overrun_zero_iff.mpr hlt
    exact .inl ⟨⟨_, rfl⟩, .inl hlt⟩

theorem length_writtenFrom (hknown : ∀ param ∈ params, param.type.Known)
    (hvalues : ∀ param ∈ params, param.fault = none)
    (hcount : i + params.length ≤ maxParamCount) (text : List Byte) :
    (writtenFrom garbage text i params).length = setSize garbage text.length i params := by
  induction params generalizing i text with
  | nil => rfl
  | cons param params ih =>
    obtain ⟨hparam, hparams⟩ := List.forall_mem_cons.mp hknown
    obtain ⟨hvalue, hvalues⟩ := List.forall_mem_cons.mp hvalues
    rw [List.length_cons] at hcount
    have hone := length_addPiece hparam (by omega : i < maxParamCount) (garbage i) text
      (by rw [hvalue]; exact nofun)
    rw [writtenFrom, setSize, ih hparams hvalues (by omega), hone]

/-- The texts of the plan: a fault if a value cannot be used or the `SET` does not fit; else none if
the `SET` is too long or fails. -/
theorem textsPlan_cases (hknown : ∀ param ∈ s.declared, param.type.Known) (strProc : List Byte) :
    ((∃ fault, (textsPlan env strProc s).texts = .error fault) ∧
      ¬ ((∀ param ∈ s.declared, param.fault = none) ∧ BytesFit env.garbage 0 0 s.declared)) ∨
    ((∀ param ∈ s.declared, param.fault = none) ∧ BytesFit env.garbage 0 0 s.declared ∧
      ((∃ t, (textsPlan env strProc s).texts = .ok (some t) ∧
          (t.strSelect = [] ↔ outputs s.declared = []) ∧
          (setSize env.garbage 0 0 s.declared ≠ 0 →
            setSize env.garbage 0 0 s.declared ≤ setLimit ∧ env.replies.set.code = 0)) ∨
        (textsPlan env strProc s).texts = .ok none ∧
          ¬ (setSize env.garbage 0 0 s.declared ≠ 0 →
            setSize env.garbage 0 0 s.declared ≤ setLimit ∧ env.replies.set.code = 0))) := by
  have hcount : 0 + s.declared.length ≤ maxParamCount := by
    rw [Nat.zero_add]
    exact (List.length_take_le _ _).trans s.totalCount_le
  have hvalues : firstFault s.declared = none ↔ ∀ param ∈ s.declared, param.fault = none :=
    List.findSome?_eq_none_iff
  obtain ⟨r, b, hbuild⟩ := exists_yields (buildTexts env.garbage strProc s.declared)
    (List.replicate prepareBufferSize 0)
  rcases buildTexts_cases hknown List.length_replicate hbuild with
    ⟨hnone, hset, rfl, -⟩ | ⟨fault, rfl, -, hfirst⟩
  · have hall := hvalues.mp hnone
    have hbytes : BytesFit env.garbage 0 0 s.declared := bytesFit_of_setFits hknown
      (fun param hparam => by rw [hall param hparam]; exact nofun) hcount [] hset
    have hsize : (writtenFrom env.garbage [] 0 s.declared).length =
        setSize env.garbage 0 0 s.declared := length_writtenFrom hknown hall hcount []
    refine .inr ⟨hall, hbytes, ?_⟩
    have hselect := selectTextFrom_eq_nil_iff s.declared
    rw [textsPlan_of_some hbuild, setPlan, hsize]
    by_cases hzero : setSize env.garbage 0 0 s.declared = 0
    · rw [if_pos hzero]
      exact .inl ⟨_, rfl, hselect, fun h => absurd hzero h⟩
    rw [if_neg hzero]
    by_cases hlimit : setLimit < setSize env.garbage 0 0 s.declared
    · rw [if_pos hlimit]
      exact .inr ⟨rfl, fun h => absurd (h hzero).1 (Nat.not_le.mpr hlimit)⟩
    rw [if_neg hlimit]
    by_cases hcode : env.replies.set.code = 0
    · rw [if_pos hcode]
      exact .inl ⟨_, rfl, hselect, fun _ => ⟨Nat.not_lt.mp hlimit, hcode⟩⟩
    · rw [if_neg hcode]
      exact .inr ⟨rfl, fun h => hcode (h hzero).2⟩
  · refine .inl ⟨⟨fault, by rw [textsPlan_of_error hbuild]⟩, fun h => ?_⟩
    exact hfirst (setFits_of_bytesFit hknown hcount [] h.2) (hvalues.mpr h.1)

/-- The conditions on the text, if the server answers with one. -/
theorem undisturbed_iff_of_answers (hquestion : (paramList (cString pack.sentence)).length < 1024)
    (h : env.replies.paramList.Answers (some text)) :
    Undisturbed paramList env pack ↔
      ((reached (textDeclarations text)).length ≤ maxParamCount ∧
        stop (textDeclarations text) ≠ some .throws) ∧
      (Accepted (textDeclarations text) → (pack.paramNums.toNat ≤ maxParamCount ∧
        pack.paramNums.toNat ≤ ((pack.anyArr.map env.anyArr).getD []).length) ∧
        (∀ param ∈ callParams env pack text, param.fault = none) ∧
        BytesFit env.garbage 0 0 (callParams env pack text)) := by
  have hcomma := stop_textDeclarations_eq_throws_iff text
  have htext : ∀ {text'}, env.replies.paramList.Answers (some text') → text' = text :=
    fun h' => Option.some.inj (h'.unique h)
  refine ⟨fun hu => ⟨⟨hu.count text h, fun hstop => ?_⟩, fun haccepted => ?_⟩,
    fun ⟨⟨hcount, hstop⟩, hrest⟩ => ⟨hquestion, fun hnone => ?_, ?_, ?_, ?_, ?_, ?_⟩⟩
  · obtain ⟨d, hd, hpart⟩ := hcomma.mp hstop
    exact hu.comma text h d hd hpart
  · exact ⟨hu.bound text h haccepted, hu.values text h haccepted, hu.fits text h haccepted⟩
  · cases hnone.unique h
  · intro text' h'
    rw [htext h']
    exact hcount
  · intro text' h'
    rw [htext h']
    exact fun d hd hpart => hstop (hcomma.mpr ⟨d, hd, hpart⟩)
  · intro text' h'
    rw [htext h']
    exact fun haccepted => (hrest haccepted).1
  · intro text' h'
    rw [htext h']
    exact fun haccepted => (hrest haccepted).2.1
  · intro text' h'
    rw [htext h']
    exact fun haccepted => (hrest haccepted).2.2

/-- The plan for a signature that is accepted. -/
theorem bindPlan_cases {begun : List SqlParam}
    (hquestion : (paramList (cString pack.sentence)).length < 1024)
    (h : env.replies.paramList.Answers (some text))
    (hcount : (reached (textDeclarations text)).length ≤ maxParamCount)
    (haccepted : Accepted (textDeclarations text))
    (hlists : s.Lists (listed (textDeclarations text)) begun) :
    ((∃ fault, (bindPlan env pack s).texts = .error fault) ∧ ¬ Undisturbed paramList env pack) ∨
    Undisturbed paramList env pack ∧
      ((∃ t, (bindPlan env pack s).texts = .ok (some t) ∧ ReachesCall env pack text ∧
          (t.strSelect = [] ↔ outputs (listed (textDeclarations text)) = [])) ∨
        (bindPlan env pack s).texts = .ok none ∧ ¬ ReachesCall env pack text) := by
  have hstop : stop (textDeclarations text) ≠ some .throws := haccepted.stop_ne (by simp)
  have hiff := undisturbed_iff_of_answers hquestion h
  rw [and_iff_right (⟨hcount, hstop⟩ : _ ∧ _), forall_prop_of_true haccepted] at hiff
  have hreaches : ReachesCall env pack text ↔
      (setSize env.garbage 0 0 (callParams env pack text) ≠ 0 →
        setSize env.garbage 0 0 (callParams env pack text) ≤ setLimit ∧
          env.replies.set.code = 0) := ⟨fun h => h.set, fun hset => ⟨h, haccepted, hset⟩⟩
  have hdeclared : (s.bind (boundValues env pack)).declared = callParams env pack text := by
    rw [s.declared_bind, hlists.declared]
    rfl
  have hknown : ∀ p ∈ (s.bind (boundValues env pack)).declared, p.type.Known := by
    rw [hdeclared]
    exact known_bindParams known_of_listed _
  have houtputs : outputs (callParams env pack text) = outputs (listed (textDeclarations text)) :=
    outputs_bindParams _ _
  rw [hiff, hreaches]
  rcases bindValues_cases (pack.anyArr.map env.anyArr) pack.paramNums.toNat s with
    ⟨hn, hlength, hbind⟩ | ⟨fault, t, hbind, hnot, -⟩
  · have hplan : bindPlan env pack s =
        textsPlan env (cString pack.sentence) (s.bind (boundValues env pack)) := by
      simp only [Yields] at hbind
      rw [bindPlan, hbind, boundValues]
    have hcases := @textsPlan_cases env _ hknown (cString pack.sentence)
    rw [hdeclared, houtputs, ← hplan] at hcases
    rw [and_iff_right (⟨hn, hlength⟩ : _ ∧ _)]
    rcases hcases with hfault | ⟨hvalues, hbytes, htexts⟩
    · exact .inl hfault
    · refine .inr ⟨⟨hvalues, hbytes⟩, htexts.imp_left ?_⟩
      rintro ⟨t, ht, hselect, hset⟩
      exact ⟨t, ht, hset, hselect⟩
  · refine .inl ⟨⟨fault, ?_⟩, fun h => hnot h.1⟩
    simp only [Yields] at hbind
    rw [bindPlan, hbind]

/-- **What the inputs mean for the plan.** -/
theorem plan_cases (paramList : List Byte → List Byte) (env : CallEnv) (pack : SqlPack) :
    ((∃ fault, (callPlan paramList env pack).texts = .error fault) ∧
      ¬ Undisturbed paramList env pack) ∨
    Undisturbed paramList env pack ∧
      ((∃ text t, (callPlan paramList env pack).texts = .ok (some t) ∧
          ReachesCall env pack text ∧
          (t.strSelect = [] ↔ outputs (listed (textDeclarations text)) = [])) ∨
        (callPlan paramList env pack).texts = .ok none ∧ ∀ text, ¬ ReachesCall env pack text) := by
  by_cases hquestion : (paramList (cString pack.sentence)).length < 1024
  swap
  · refine .inl ⟨⟨.bufferOverrun, ?_⟩, fun h => hquestion h.question⟩
    rw [callPlan, if_neg hquestion]
  have htexts : (callPlan paramList env pack).texts = (preparedPlan env pack).texts := by
    rw [callPlan, if_pos hquestion]
  rw [htexts]
  rcases prepared_cases env.replies.paramList with ⟨code, hprepared, hcode, hno⟩ |
    ⟨column, columns, hanswers, hprepared⟩
  · have hundisturbed : Undisturbed paramList env pack :=
      ⟨hquestion, hno none, fun _ h => absurd h (hno _), fun _ h => absurd h (hno _),
        fun _ h => absurd h (hno _), fun _ h => absurd h (hno _), fun _ h => absurd h (hno _)⟩
    exact .inr ⟨hundisturbed, .inr ⟨by simp [preparedPlan, hprepared, hcode],
      fun text h => hno _ h.answers⟩⟩
  cases column with
  | none =>
    refine .inl ⟨⟨.nullPointer, ?_⟩, fun h => h.answer hanswers⟩
    simp [preparedPlan, hprepared, rowSignature]
  | some text =>
    have hiff := undisturbed_iff_of_answers hquestion hanswers
    rcases rowSignature_cases text columns with ⟨⟨fault, hrow⟩, hstop⟩ |
      ⟨code, s, hrow, hcode, hcount, hstop⟩ | ⟨s, begun, hrow, hcount, haccepted, hlists⟩
    · refine .inl ⟨⟨fault, by simp [preparedPlan, hprepared, hrow]⟩, fun h => ?_⟩
      obtain ⟨hcount, hthrows⟩ := (hiff.mp h).1
      exact hstop.elim (Nat.not_lt.mpr hcount) hthrows
    · have hrejected : ¬ Accepted (textDeclarations text) :=
        fun h => h.stop_ne (by simp) hstop
      refine .inr ⟨hiff.mpr ⟨⟨hcount, by simp [hstop]⟩, fun h => absurd h hrejected⟩,
        .inr ⟨by simp [preparedPlan, hprepared, hrow, hcode], fun text' h => ?_⟩⟩
      obtain rfl := Option.some.inj (h.answers.unique hanswers)
      exact hrejected h.accepted
    · have hplan : preparedPlan env pack = bindPlan env pack s := by
        simp [preparedPlan, hprepared, hrow]
      rw [hplan]
      refine (bindPlan_cases hquestion hanswers hcount haccepted hlists).imp_right
        (And.imp_right ?_)
      rintro (⟨t, ht⟩ | ⟨hnone, hnot⟩)
      · exact .inl ⟨text, t, ht⟩
      · refine .inr ⟨hnone, fun text' h => ?_⟩
        obtain rfl := Option.some.inj (h.answers.unique hanswers)
        exact hnot h

end Plan

/-! ## The verdict -/

section Verdict

variable {paramList : List Byte → List Byte} {env : CallEnv} {pack : SqlPack} {w : SqlWorld}
  {plan : CallPlan} {replies : CallReplies} {noReturn : Int32} {res res' : Option ResId} {n : ℕ}
  {r : Except Fault Int32} {log : List SqlEvent} {t : Texts}

/-- What `Execute` returns from the `CALL` on: 0 without outputs; no result or a fault when a row is
fetched; else an error. -/
theorem CallEnds.verdict (h : CallEnds t replies noReturn res n r log res') :
    (r = .ok 0 ∧ replies.call.code = 0 ∧ t.strSelect = []) ∨
    (replies.call.code = 0 ∧ t.strSelect ≠ [] ∧ replies.select.code = 0 ∧
      replies.select.FetchesRow ∧ (r = .ok noReturn ∨ ∃ fault, r = .error fault)) ∨
    (∃ code, r = .ok code ∧ code ≠ 0) ∧ ¬ (replies.call.code = 0 ∧
      (t.strSelect ≠ [] → replies.select.code = 0 ∧ replies.select.FetchesRow)) := by
  cases h with
  | callFailed hcode => exact .inr (.inr ⟨⟨_, rfl, hcode⟩, fun h => hcode h.1⟩)
  | noOutputs reads hcode houtputs => exact .inl ⟨rfl, hcode, houtputs⟩
  | selectFailed reads hcode houtputs hreads hselect =>
    exact .inr (.inr ⟨⟨_, rfl, hselect⟩, fun h => hselect (h.2 houtputs).1⟩)
  | selected _ _ _ _ hcode houtputs _ hselect _ _ hresult =>
    cases hresult with
    | noRow code hne hrow =>
      exact .inr (.inr ⟨⟨code, rfl, hne⟩, fun h => hrow (h.2 houtputs).2⟩)
    | fault fault hrow hfault =>
      exact .inr (.inl ⟨hcode, houtputs, hselect, hrow, .inr ⟨fault, rfl⟩⟩)
    | stored hrow => exact .inr (.inl ⟨hcode, houtputs, hselect, hrow, .inl rfl⟩)

theorem ExecuteEnds.callEnds (h : ExecuteEnds plan replies noReturn res n r log res')
    (hplan : plan.texts = .ok (some t)) :
    ∃ n' log', CallEnds t replies noReturn res n' r log' res' := by
  cases h with
  | fault fault rest hplan' => cases hplan.symm.trans hplan'
  | refused code rest hcode hplan' => cases hplan.symm.trans hplan'
  | called t' rest log r res' hplan' hrest hcall =>
    obtain rfl := Option.some.inj (Except.ok.inj (hplan'.symm.trans hplan))
    exact ⟨_, _, hcall⟩

/-- A call ends as its plan says, whatever is taken for the missing result. -/
theorem exists_executeEnds (hready : w.Ready) (noReturn : Int32) :
    ∃ code log res u, ExecuteEnds (callPlan paramList env pack) env.replies noReturn w.handle
        w.log.length code log res ∧
      Yields (executeProcedure paramList { env with noReturn } pack) w (code.map (· == 0)) u := by
  obtain ⟨r, u, hrun⟩ := exists_yields (executeProcedure paramList { env with noReturn } pack) w
  obtain ⟨log, -, -, code, first, last, hends, -, rfl, -⟩ := executeProcedure_cases hready hrun
  exact ⟨code, first, u.handle, u, hends, hrun⟩

theorem not_reportsOnce_of_fault (hready : w.Ready) {fault : Fault}
    (hplan : (callPlan paramList env pack).texts = .error fault) :
    ¬ ReportsOnce paramList env pack w := by
  intro h
  obtain ⟨b, u, hrun, -⟩ := h 0
  obtain ⟨code, log, res, v, hends, hrun'⟩ := exists_executeEnds hready 0
  obtain rfl := hends.eq_error hplan
  cases (hrun.unique hrun').1

/-- After an error the call returns false, and has not called back. -/
theorem returns_false {noReturn code : Int32} {u : SqlWorld} (hcode : code ≠ 0)
    (hrun : Yields (executeProcedure paramList { env with noReturn } pack) w
      ((Except.ok code : Except Fault Int32).map (· == 0)) u) :
    Yields (executeProcedure paramList { env with noReturn } pack) w (.ok false) u ∧
      u.log.count .callBack = w.log.count .callBack := by
  have hzero : (code == 0) = false := by simpa using hcode
  rw [Except.map, hzero] at hrun
  exact ⟨hrun, count_callBack hrun⟩

theorem reportsOnce_of_none (hready : w.Ready)
    (hplan : (callPlan paramList env pack).texts = .ok none) (hfails : ¬ Succeeds env pack) :
    ReportsOnce paramList env pack w := by
  intro noReturn
  obtain ⟨code, log, res, u, hends, hrun⟩ := exists_executeEnds hready noReturn
  obtain ⟨code, rfl, hne⟩ := hends.refuses hplan
  obtain ⟨hrun, hcount⟩ := returns_false hne hrun
  exact ⟨false, u, hrun, fun hgood => absurd hgood hfails, fun _ => ⟨rfl, hcount⟩⟩

/-- When a row with the outputs is fetched, two results are possible, and one of them is wrong. -/
theorem not_reportsOnce_of_row (hready : w.Ready)
    (hplan : (callPlan paramList env pack).texts = .ok (some t))
    (hcall : env.replies.call.code = 0) (houtputs : t.strSelect ≠ [])
    (hrow : env.replies.select.code = 0 ∧ env.replies.select.FetchesRow) :
    ¬ ReportsOnce paramList env pack w := by
  intro h
  have hresult (noReturn : Int32) : ∃ u,
      Yields (executeProcedure paramList { env with noReturn } pack) w (.ok (noReturn == 0)) u := by
    obtain ⟨b, u, hrun, -⟩ := h noReturn
    obtain ⟨code, log, res, v, hends, hrun'⟩ := exists_executeEnds hready noReturn
    obtain ⟨n', log', hcall'⟩ := hends.callEnds hplan
    rcases hcall'.verdict with ⟨-, -, hnil⟩ | ⟨-, -, -, -, rfl | ⟨fault, rfl⟩⟩ | ⟨-, herror⟩
    · exact absurd hnil houtputs
    · exact ⟨v, hrun'⟩
    · cases (hrun.unique hrun').1
    · exact absurd ⟨hcall, fun _ => hrow⟩ herror
  by_cases hgood : Succeeds env pack
  · obtain ⟨b, u, hrun, htrue, -⟩ := h 1
    obtain ⟨v, hv⟩ := hresult 1
    cases (htrue hgood).1.symm.trans (Except.ok.inj (hrun.unique hv).1)
  · obtain ⟨b, u, hrun, -, hfalse⟩ := h 0
    obtain ⟨v, hv⟩ := hresult 0
    cases (hfalse hgood).1.symm.trans (Except.ok.inj (hrun.unique hv).1)

theorem reportsOnce_of_texts (hready : w.Ready)
    (hplan : (callPlan paramList env pack).texts = .ok (some t))
    (hsucceeds : Succeeds env pack ↔ env.replies.call.code = 0 ∧
      (t.strSelect ≠ [] → env.replies.select.code = 0 ∧ env.replies.select.OneRow))
    (hrow : ¬ (env.replies.call.code = 0 ∧ t.strSelect ≠ [] ∧ env.replies.select.code = 0 ∧
      env.replies.select.FetchesRow)) : ReportsOnce paramList env pack w := by
  intro noReturn
  obtain ⟨code, log, res, u, hends, hrun⟩ := exists_executeEnds hready noReturn
  obtain ⟨n', log', hcall⟩ := hends.callEnds hplan
  rcases hcall.verdict with ⟨rfl, hzero, hnil⟩ | ⟨hzero, houtputs, hselect, hfetched, -⟩ |
    ⟨⟨code, rfl, hne⟩, herror⟩
  · refine ⟨true, u, hrun, fun _ => ⟨rfl, count_callBack hrun⟩, fun hbad => ?_⟩
    exact absurd (hsucceeds.mpr ⟨hzero, fun hne => absurd hnil hne⟩) hbad
  · exact absurd ⟨hzero, houtputs, hselect, hfetched⟩ hrow
  · obtain ⟨hrun, hcount⟩ := returns_false hne hrun
    refine ⟨false, u, hrun, fun hgood => ?_, fun _ => ⟨rfl, hcount⟩⟩
    obtain ⟨hzero, hrest⟩ := hsucceeds.mp hgood
    exact absurd ⟨hzero, fun hne => (hrest hne).imp_right SqlReply.OneRow.fetchesRow⟩ herror

/-- At its end `Execute` returns no result. -/
theorem not_reportsOnce_of_reachesEnd (hready : w.Ready) (h : ReachesEnd env pack) :
    ¬ ReportsOnce paramList env pack w := by
  obtain ⟨text, hreaches, hcall, houtputs, hrow⟩ := h
  rcases plan_cases paramList env pack with ⟨⟨fault, hplan⟩, -⟩ |
    ⟨-, ⟨text', t, hplan, hreaches', hselect⟩ | ⟨-, hnot⟩⟩
  · exact not_reportsOnce_of_fault hready hplan
  · obtain rfl := Option.some.inj (hreaches.answers.unique hreaches'.answers)
    exact not_reportsOnce_of_row hready hplan hcall (hselect.not.mpr houtputs) hrow
  · exact absurd hreaches (hnot text)

/-- **When the verdict is right**: exactly if nothing ends the program before the `CALL`, and
`Execute` does not come to its end, where it returns no result. -/
theorem reports_once_iff (hready : w.Ready) : ReportsOnce paramList env pack w ↔
    Undisturbed paramList env pack ∧ ¬ ReachesEnd env pack := by
  have hend := @not_reportsOnce_of_reachesEnd paramList env pack w hready
  refine ⟨fun h => ⟨?_, fun hreach => hend hreach h⟩, fun ⟨hundisturbed, hno⟩ => ?_⟩
  · rcases plan_cases paramList env pack with ⟨⟨fault, hplan⟩, -⟩ | ⟨hundisturbed, -⟩
    · exact absurd h (not_reportsOnce_of_fault hready hplan)
    · exact hundisturbed
  rcases plan_cases paramList env pack with ⟨-, hdisturbed⟩ |
    ⟨-, ⟨text, t, hplan, hreaches, hselect⟩ | ⟨hplan, hnot⟩⟩
  · exact absurd hundisturbed hdisturbed
  · refine reportsOnce_of_texts hready hplan ?_ fun ⟨hcall, houtputs, hrow⟩ => ?_
    · rw [ne_eq, hselect]
      refine ⟨?_, fun h => ⟨text, hreaches, h⟩⟩
      rintro ⟨text', hreaches', hrest⟩
      obtain rfl := Option.some.inj (hreaches.answers.unique hreaches'.answers)
      exact hrest
    · exact hno ⟨text, hreaches, hcall, hselect.not.mp houtputs, hrow⟩
  · exact reportsOnce_of_none hready hplan fun ⟨text, h, _⟩ => hnot text h

/-- A call of `f` that passes nothing; the server answers with a text for the signature. -/
def passesNothing (text : List Byte) (select : SqlReply) : CallEnv × SqlPack :=
  ({ CallEnv.noParameters .done with replies := ⟨.value text, .done, .done, select⟩ },
    ⟨.procedure, ascii "f", none, 0, 0⟩)

theorem answers_value (text : List Byte) : (SqlReply.value text).Answers (some text) :=
  ⟨rfl, show ¬ UInt32.toInt32 (UInt64.toUInt32 1) < 1 by decide, _, [], [], rfl, rfl⟩

/-- A call of `f` that passes a blob and a number. -/
def passesTwo : CallEnv × SqlPack :=
  ({ CallEnv.noParameters .done with
      replies := ⟨.value (ascii "in a blob(1), in b int"), .done, .done, .done⟩
      anyArr := fun _ => [.voidPtr [1], .int 7] },
    ⟨.procedure, ascii "f", some 0, 0, 2⟩)

theorem reports_once_iff_two : ReportsOnce id passesTwo.1 passesTwo.2 .start := by
  have htext : textDeclarations (ascii "in a blob(1), in b int") =
      [⟨.vIn, some (ascii "blob(1),")⟩, ⟨.vIn, some (ascii "int")⟩] := by decide
  have hlisted : listed (textDeclarations (ascii "in a blob(1), in b int")) =
      [⟨.vIn, .blob, 1, .empty⟩, ⟨.vIn, .long, 0, .empty⟩] := by
    rw [htext]
    rfl
  have hparams : callParams passesTwo.1 passesTwo.2 (ascii "in a blob(1), in b int") =
      [⟨.vIn, .blob, 1, .voidPtr [1]⟩, ⟨.vIn, .long, 0, .int 7⟩] := by
    rw [callParams, hlisted]
    rfl
  have hanswers : passesTwo.1.replies.paramList.Answers (some (ascii "in a blob(1), in b int")) :=
    answers_value _
  have hundisturbed : Undisturbed id passesTwo.1 passesTwo.2 := by
    refine (undisturbed_iff_of_answers (by decide) hanswers).mpr ⟨?_, fun _ => ⟨?_, ?_, ?_⟩⟩
    · rw [htext]
      exact ⟨by decide, nofun⟩
    · exact ⟨by decide, by decide⟩
    · rw [hparams]
      exact List.forall_mem_cons.mpr ⟨rfl, List.forall_mem_singleton.mpr rfl⟩
    · rw [hparams]
      exact ⟨by decide, fun _ => ⟨by decide, fun _ => trivial⟩⟩
  refine (reports_once_iff SqlWorld.ready_start).mpr ⟨hundisturbed, ?_⟩
  rintro ⟨text, hreaches, -, houtputs, -⟩
  obtain rfl := Option.some.inj (hreaches.answers.unique hanswers)
  rw [hlisted] at houtputs
  exact houtputs rfl

/-- For `out a int` and one row with the output, all statements succeed, and there is no result. -/
theorem output_not_reported :
    Succeeds (passesNothing (ascii "out a int") (.value (ascii "7"))).1
        (passesNothing (ascii "out a int") (.value (ascii "7"))).2 ∧
      ¬ ReportsOnce id (passesNothing (ascii "out a int") (.value (ascii "7"))).1
        (passesNothing (ascii "out a int") (.value (ascii "7"))).2 .start := by
  have hreaches : ReachesCall (passesNothing (ascii "out a int") (.value (ascii "7"))).1
      (passesNothing (ascii "out a int") (.value (ascii "7"))).2 (ascii "out a int") :=
    ⟨answers_value _, .inl rfl, fun _ => ⟨by decide, rfl⟩⟩
  have hrow : (SqlReply.value (ascii "7")).OneRow :=
    ⟨rfl, _, [some (ascii "7")], rfl, rfl, nofun, by simp⟩
  refine ⟨⟨_, hreaches, rfl, fun _ => ⟨rfl, hrow⟩⟩, ?_⟩
  exact not_reportsOnce_of_reachesEnd SqlWorld.ready_start
    ⟨_, hreaches, rfl, by decide, rfl, hrow.fetchesRow⟩

end Verdict

end PetsServer

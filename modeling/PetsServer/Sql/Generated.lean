import PetsServer.Sql.Sent
import PetsServer.Sql.CallText
import PetsServer.Sql.SetText

/-!
# What the generated statements say

The readers of this module are the server's: they read the assignments of a `SET`, the arguments of
a `CALL` and the variables of a `SELECT` off the texts. `generated_sql` says that for numbers and
blobs that are passed in and for parameters that are passed out `Execute` sends statements that say
what they should.
-/

namespace PetsServer

open Foundations OnWorld

/-! ## The readers -/

/-- The user variable at the start of a text, and what comes after it. -/
def readVariable : List Byte → Option (ℕ × List Byte)
  | 64 :: 95 :: l =>
    if l.takeWhile IsDigit = [] then none
    else some (readNat (l.takeWhile IsDigit), l.dropWhile IsDigit)
  | _ => none

/-- The value that is assigned: null, or the bytes of a hexadecimal numeral. -/
def readAssigned (l : List Byte) : Option (Option (List Byte)) :=
  if l = ascii " = null" then some none
  else if l.take 5 = ascii " = 0x" then (readHex (l.drop 5)).map some
  else none

/-- One assignment. -/
def readAssignment (piece : List Byte) : Option (ℕ × Option (List Byte)) :=
  (readVariable (piece.dropWhile (· = 32))).bind fun (i, l) => (readAssigned l).map (i, ·)

/-- The assignments of a `SET`. -/
def readSetText (text : List Byte) : Option (List (ℕ × Option (List Byte))) :=
  if text.take 3 = ascii "set" then ((text.drop 3).splitOn 44).mapM readAssignment
  else none

/-- One variable of a `SELECT`. -/
def readOutputName (piece : List Byte) : Option ℕ :=
  (readVariable (piece.dropWhile (· = 32))).bind fun (i, l) => if l = [] then some i else none

/-- The variables of a `SELECT`. -/
def readSelectText (text : List Byte) : Option (List ℕ) :=
  if text.take 7 = ascii "select " then ((text.drop 7).splitOn 44).mapM readOutputName
  else none

/-- What an argument of a `CALL` stands for. -/
inductive CallArgument
  | number (z : ℤ)
  | variable (i : ℕ)
  deriving DecidableEq, Repr

/-- The byte of a token outside of literals. -/
def Token.byte? : Token → Option Byte
  | .byte b => some b
  | .literal _ => none

/-- An argument: a numeral, or a user variable. -/
def readArgument (ts : List Token) : Option CallArgument :=
  (ts.mapM Token.byte?).bind fun l =>
    match readVariable l with
    | some (i, []) => some (.variable i)
    | some (_, _ :: _) => none
    | none => if IsNumeral l then some (.number (readInt l)) else none

/-- The arguments of a `CALL` of the procedure. -/
def readCallText (strProc text : List Byte) : Option (List CallArgument) :=
  let start := ascii "call " ++ strProc ++ ascii " ( "
  if text.take start.length = start then
    (arguments (text.drop start.length)).bind fun args => args.mapM readArgument
  else none

/-! ## Reading the pieces -/

/-- The variable is read back before anything but a digit. -/
theorem readVariable_userVariable (i : ℕ) {rest : List Byte}
    (hrest : ∀ c ∈ rest.head?, ¬ IsDigit c) :
    readVariable (userVariable i ++ rest) = some (i, rest) := by
  have hdigits : ∀ c ∈ digits i, decide (IsDigit c) = true := fun c hc =>
    decide_eq_true (isDigit_of_mem_digits hc)
  have htake : (digits i ++ rest).takeWhile IsDigit = digits i := by
    rw [List.takeWhile_append_of_pos hdigits]
    cases rest with
    | nil => simp
    | cons c rest => simp [hrest c rfl]
  have hdrop : (digits i ++ rest).dropWhile IsDigit = rest := by
    rw [List.dropWhile_append_of_pos hdigits]
    cases rest with
    | nil => rfl
    | cons c rest => simp [hrest c rfl]
  change (if (digits i ++ rest).takeWhile IsDigit = [] then none
    else some (readNat ((digits i ++ rest).takeWhile IsDigit),
      (digits i ++ rest).dropWhile IsDigit)) = _
  rw [htake, hdrop, if_neg (digits_ne_nil i), readNat_digits]

theorem readVariable_userVariable_nil (i : ℕ) :
    readVariable (userVariable i) = some (i, []) := by
  have hread := @readVariable_userVariable i [] (by simp)
  rwa [List.append_nil] at hread

/-- **An assignment is read back.** -/
theorem readAssignment_assignmentText (i : ℕ) (value : Option (List Byte)) :
    readAssignment (assignmentText i value) = some (i, value) := by
  cases value with
  | none =>
    have hread := @readVariable_userVariable i (ascii " = null")
      (by simp [ascii, charByte, IsDigit])
    change (readVariable (userVariable i ++ ascii " = null")).bind _ = _
    rw [hread]
    rfl
  | some data =>
    have hread := @readVariable_userVariable i (ascii " = 0x" ++ data.flatMap hexByte)
      (by simp [ascii, charByte, IsDigit])
    have hvalue : readAssigned (ascii " = 0x" ++ data.flatMap hexByte) = some (some data) := by
      have hnull : ascii " = 0x" ++ data.flatMap hexByte ≠ ascii " = null" := by
        simp [ascii, charByte]
      rw [readAssigned, if_neg hnull]
      change (readHex (data.flatMap hexByte)).map _ = _
      rw [readHex_flatMap_hexByte, Option.map_some]
    rw [← List.append_assoc] at hread
    change (readVariable (assignmentText i (some data))).bind _ = _
    rw [assignmentText, hread]
    change (readAssigned _).map _ = _
    rw [hvalue, Option.map_some]

theorem readOutputName_userVariable (i : ℕ) : readOutputName (userVariable i) = some i := by
  change (readVariable (userVariable i)).bind _ = _
  rw [readVariable_userVariable_nil]
  rfl

theorem mapM_byte (l : List Byte) : (l.map Token.byte).mapM Token.byte? = some l := by
  have hread := mapM_map_eq_some (f := Token.byte?) (g := Token.byte) (h := id)
    fun b (_ : b ∈ l) => rfl
  rwa [List.map_id] at hread

theorem readArgument_userVariable (i : ℕ) :
    readArgument ((userVariable i).map .byte) = some (.variable i) := by
  rw [readArgument, mapM_byte, Option.bind_some, readVariable_userVariable_nil]

theorem readArgument_decimal (z : ℤ) : readArgument ((decimal z).map .byte) = some (.number z) := by
  have hread : readVariable (decimal z) = none := by
    unfold readVariable
    split
    · rename_i l heq
      rcases mem_decimal (heq ▸ List.mem_cons_self : (64 : Byte) ∈ decimal z) with h | h
      · exact absurd h (by decide)
      · exact absurd h (by decide)
    · rfl
  rw [readArgument, mapM_byte, Option.bind_some, hread]
  change (if IsNumeral (decimal z) then _ else _) = _
  rw [if_pos (isNumeral_decimal z), readInt_decimal]

/-! ## Reading the statements -/

variable {i : ℕ} {param : SqlParam} {params : List SqlParam} {strProc : List Byte}

theorem mem_userVariable {c : Byte} (h : c ∈ userVariable i) : c ∈ ascii "@_" ∨ 48 ≤ c :=
  (List.mem_append.mp h).imp_right fun hdigit => (isDigit_of_mem_digits hdigit).1

theorem mem_assignmentText {c : Byte} {value : Option (List Byte)}
    (h : c ∈ assignmentText i value) : c ∈ ascii " @_=" ∨ 48 ≤ c := by
  have hname : ascii "@_" ⊆ ascii " @_=" := by decide
  cases value with
  | none =>
    have hnull : ∀ c ∈ ascii " = null", c ∈ ascii " @_=" ∨ 48 ≤ c := by simp [ascii, charByte]
    rcases List.mem_cons.mp h with rfl | h
    · exact .inl (by decide)
    rcases List.mem_append.mp h with h | h
    · exact (mem_userVariable h).imp_left (hname ·)
    · exact hnull c h
  | some data =>
    have hstart : ∀ c ∈ ascii " = 0x", c ∈ ascii " @_=" ∨ 48 ≤ c := by simp [ascii, charByte]
    rcases List.mem_append.mp h with h | h
    · rcases List.mem_append.mp h with h | h
      · exact (mem_userVariable h).imp_left (hname ·)
      · exact hstart c h
    · obtain ⟨b, -, hb⟩ := List.mem_flatMap.mp h
      exact .inr (le_of_mem_hexByte hb)

/-- Neither a comma nor a zero. -/
theorem notMem_userVariable {c : Byte} (hc : c ∉ ascii " @_=") (hlt : c < 48) :
    c ∉ userVariable i := by
  have hname : ascii "@_" ⊆ ascii " @_=" := by decide
  intro h
  rcases mem_userVariable h with h | h
  · exact hc (hname h)
  · exact absurd hlt (UInt8.not_lt.mpr h)

theorem notMem_assignmentText {c : Byte} (hc : c ∉ ascii " @_=") (hlt : c < 48)
    {value : Option (List Byte)} : c ∉ assignmentText i value := by
  intro h
  rcases mem_assignmentText h with h | h
  · exact hc h
  · exact absurd hlt (UInt8.not_lt.mpr h)

/-- **The assignments are read back.** -/
theorem readSetText_setText (hne : assignments params ≠ []) :
    readSetText (setText params) = some (assignments params) := by
  have hpieces := mapM_splitOn_intercalate (f := readAssignment) (h := id) (x := (44 : Byte)) hne
    (fun a _ => notMem_assignmentText (by decide) (by decide))
    (fun a _ => readAssignment_assignmentText a.1 a.2)
  rw [List.map_id] at hpieces
  exact (if_pos rfl).trans hpieces

/-- **The variables are read back.** -/
theorem readSelectText_selectText (hne : outputs params ≠ []) :
    readSelectText (selectText params) = some (outputs params) := by
  have hpieces := mapM_splitOn_intercalate_pair (f := readOutputName) (h := id) (x := (44 : Byte))
    (y := 32) hne (by decide) (fun i _ => notMem_userVariable (by decide) (by decide))
    (fun i _ => readOutputName_userVariable i) (fun i _ => readOutputName_userVariable i)
  rw [List.map_id] at hpieces
  exact (if_pos rfl).trans hpieces

/-- What the argument for the `i`-th parameter should stand for: the number that is bound, or the
user variable. -/
def SqlParam.callArgument (i : ℕ) (param : SqlParam) : CallArgument :=
  match param.direction, param.type, param.bindValue with
  | .vIn, .long, .int n => .number n.toInt
  | .vIn, .longlong, .int64 n => .number n.toInt
  | _, _, _ => .variable i

namespace SqlParam.Supported

theorem readArgument (h : param.Supported) (i : ℕ) :
    readArgument (param.argumentTokens i) = some (param.callArgument i) := by
  cases h with
  | int lens n => exact readArgument_decimal n.toInt
  | bigint lens n => exact readArgument_decimal n.toInt
  | blob lens block hpos hblock => exact readArgument_userVariable i
  | out type lens value => exact readArgument_userVariable i

theorem argument_ne_nil (h : param.Supported) (i : ℕ) : param.argument i ≠ [] := by
  cases h with
  | int lens n => exact decimal_ne_nil n.toInt
  | bigint lens n => exact decimal_ne_nil n.toInt
  | blob lens block hpos hblock => exact userVariable_ne_nil i
  | out type lens value => exact userVariable_ne_nil i

theorem stringValue (h : param.Supported) : param.stringValue = none := by cases h <;> rfl

theorem zero_notMem_argument (h : param.Supported) (i : ℕ) : 0 ∉ param.argument i := by
  have hdecimal : ∀ z, 0 ∉ decimal z := fun z h =>
    (mem_decimal h).elim (by decide) (by decide)
  have hvariable : 0 ∉ userVariable i := notMem_userVariable (by decide) (by decide)
  cases h with
  | int lens n => exact hdecimal n.toInt
  | bigint lens n => exact hdecimal n.toInt
  | blob lens block hpos hblock => exact hvariable
  | out type lens value => exact hvariable

end SqlParam.Supported

theorem SqlParam.Sendable.zero_notMem_argument (h : param.Sendable) (i : ℕ) :
    0 ∉ param.argument i := by
  cases h with
  | supported h => exact h.zero_notMem_argument i
  | string lens s hparam =>
    subst hparam
    have hquote : (0 : Byte) ∉ ascii "'" := by decide
    change 0 ∉ ascii "'" ++ cString s ++ ascii "'"
    simp [hquote, zero_notMem_cString]

/-- **The arguments are read back.** -/
theorem readCallText_callText (strProc : List Byte)
    (hsupported : ∀ param ∈ params, param.Supported) :
    readCallText strProc (callText strProc params) =
      some (params.zipIdx.map fun p => p.1.callArgument p.2) := by
  have hmem : ∀ p ∈ params.zipIdx, p.1.Supported := fun p hp =>
    hsupported p.1 (List.fst_mem_of_mem_zipIdx hp)
  have hargs := @arguments_callText params
    (List.forall_mem_map.mpr fun p hp => (hmem p hp).argument_ne_nil p.2)
    (fun param hparam s hs => by rw [(hsupported param hparam).stringValue] at hs; cases hs)
  have hread := mapM_map_eq_some (f := readArgument) fun p hp => (hmem p hp).readArgument p.2
  rw [readCallText, callText, List.take_left, if_pos rfl, List.drop_left, hargs]
  exact hread

/-! ## The variables -/

theorem map_fst_assignments (params : List SqlParam) : (assignments params).map Prod.fst =
    (params.zipIdx.filter fun p => p.1.assigned.isSome).map Prod.snd := by
  unfold assignments
  induction params.zipIdx with
  | nil => rfl
  | cons p ps ih => cases h : p.1.assigned <;> simp [h, ih]

/-- A variable that stands for a parameter is assigned. -/
theorem SqlParam.Supported.isSome_assigned (h : param.Supported) {j : ℕ}
    (hused : param.callArgument i = .variable j ∨ param.direction ≠ .vIn ∧ i = j) :
    param.assigned.isSome ∧ i = j := by
  cases h with
  | int lens n | bigint lens n =>
    rcases hused with hused | ⟨hdir, -⟩
    · cases hused
    · exact absurd rfl hdir
  | blob lens block hpos hblock | out type lens value =>
    exact ⟨rfl, hused.elim CallArgument.variable.inj And.right⟩

/-- **Every variable that is used is assigned once.** -/
theorem count_assignments (hsupported : ∀ param ∈ params, param.Supported)
    (hused : .variable i ∈ params.zipIdx.map (fun p => p.1.callArgument p.2) ∨
      i ∈ outputs params) : ((assignments params).map Prod.fst).count i = 1 := by
  have hnodup : ((assignments params).map Prod.fst).Nodup := by
    rw [map_fst_assignments]
    refine List.Nodup.sublist (List.filter_sublist.map Prod.snd) ?_
    rw [List.zipIdx_map_snd]
    exact List.nodup_range'
  have hparam : ∃ p ∈ params.zipIdx, p.1.callArgument p.2 = .variable i ∨
      p.1.direction ≠ .vIn ∧ p.2 = i := by
    rcases hused with hused | hused
    · obtain ⟨p, hp, heq⟩ := List.mem_map.mp hused
      exact ⟨p, hp, .inl heq⟩
    · obtain ⟨p, hp, heq⟩ := List.mem_filterMap.mp hused
      by_cases hdir : p.1.direction = .vIn
      · simp [hdir] at heq
      · exact ⟨p, hp, .inr ⟨hdir, by simpa [hdir] using heq⟩⟩
  obtain ⟨p, hp, hvariable⟩ := hparam
  obtain ⟨hassigned, rfl⟩ :=
    (hsupported p.1 (List.fst_mem_of_mem_zipIdx hp)).isSome_assigned hvariable
  refine List.count_eq_one_of_mem hnodup ?_
  rw [map_fst_assignments]
  exact List.mem_map_of_mem (List.mem_filter.mpr ⟨hp, hassigned⟩)

/-! ## What is sent -/

/-- The statements of `Execute`: the `SET` if there is anything to assign, the `CALL` unless the
`SET` fails, and the `SELECT` if there is anything to read and the `CALL` does not fail. -/
def sentTexts (replies : CallReplies) (strProc : List Byte) (params : List SqlParam) :
    List (List Byte) :=
  (if assignments params = [] then [] else [setText params]) ++
    if assignments params = [] ∨ replies.set.code = 0 then
      callText strProc params ::
        if replies.call.code = 0 ∧ outputs params ≠ [] then [selectText params] else []
    else []

theorem cString_setText (params : List SqlParam) : cString (setText params) = setText params := by
  refine cString_of_notMem fun h => ?_
  rcases List.mem_append.mp h with h | h
  · exact absurd h (by decide)
  · refine notMem_intercalate (by decide) (List.forall_mem_map.mpr fun a _ => ?_) h
    exact notMem_assignmentText (by decide) (by decide)

theorem cString_selectText (params : List SqlParam) :
    cString (selectText params) = selectText params := by
  refine cString_of_notMem fun h => ?_
  rcases List.mem_append.mp h with h | h
  · exact absurd h (by decide)
  · refine notMem_intercalate (by decide) (List.forall_mem_map.mpr fun i _ => ?_) h
    exact notMem_userVariable (by decide) (by decide)

theorem cString_callText (hproc : 0 ∉ strProc) (hsendable : ∀ param ∈ params, param.Sendable) :
    cString (callText strProc params) = callText strProc params := by
  refine cString_of_notMem fun h => ?_
  have hargs : 0 ∉ (ascii ", ").intercalate (callArguments 0 params) := by
    refine notMem_intercalate (by decide) (List.forall_mem_map.mpr fun p hp => ?_)
    exact (hsendable p.1 (List.fst_mem_of_mem_zipIdx hp)).zero_notMem_argument p.2
  simp only [callText, List.mem_append] at h
  rcases h with ((h | h) | h) | h | h
  · exact absurd h (by decide)
  · exact hproc h
  · exact absurd h (by decide)
  · exact hargs h
  · exact absurd h (by decide)

theorem length_setTextFrom_le (hfit : (setText params).length ≤ setLimit) :
    (setTextFrom [] 0 params).length ≤ setLimit := by
  rw [setTextFrom_eq]
  split
  · exact Nat.zero_le _
  · exact hfit

theorem setText_length_ne_zero (params : List SqlParam) : (setText params).length ≠ 0 :=
  fun h => absurd (List.append_eq_nil_iff.mp (List.length_eq_zero_iff.mp h)).1 (by decide)

/-- The `CALL` and the `SELECT` of a plan. -/
theorem queries_called {replies : CallReplies} {sent : List (List Byte)} {t : Texts}
    (hcall : cString t.pecedureCall = callText strProc params)
    (hselect : t.strSelect = selectTextFrom [] 0 params) :
    (⟨sent, .ok (some t)⟩ : CallPlan).queries replies = sent ++ callText strProc params ::
      if replies.call.code = 0 ∧ outputs params ≠ [] then [selectText params] else [] := by
  rw [selectTextFrom_eq] at hselect
  by_cases houtputs : outputs params = []
  · simp [CallPlan.queries, hcall, hselect, houtputs]
  · simp [CallPlan.queries, hcall, hselect, houtputs, selectText_ne_nil, cString_selectText]

/-- **The plan of `Execute`.** -/
theorem queries_textsPlan (env : CallEnv) {s : Signature} (hproc : 0 ∉ strProc)
    (hsupported : ∀ param ∈ s.declared, param.Supported)
    (hfit : (setText s.declared).length ≤ setLimit) :
    (textsPlan env strProc s).queries env.replies = sentTexts env.replies strProc s.declared := by
  have hsendable : ∀ param ∈ s.declared, param.Sendable := fun param hparam =>
    .supported (hsupported param hparam)
  obtain ⟨b, hbuild, -, hpre⟩ := @exists_buildTexts s.declared env.garbage strProc _ hsendable
    (length_setTextFrom_le hfit) (List.length_replicate ..)
  have hcall := cString_callText hproc hsendable
  rw [textsPlan_of_some hbuild]
  by_cases hset : assignments s.declared = []
  · have hempty : setTextFrom [] 0 s.declared = [] := by rw [setTextFrom_eq, if_pos hset]
    rw [setPlan, if_pos (by rw [hempty]; rfl), queries_called hcall rfl]
    simp [sentTexts, hset]
  · have htext : setTextFrom [] 0 s.declared = setText s.declared := by
      rw [setTextFrom_eq, if_neg hset]
    have hsent : cString (b.take (setText s.declared).length) = setText s.declared := by
      rw [htext] at hpre
      rw [← List.prefix_iff_eq_take.mp hpre, cString_setText]
    rw [htext, setPlan, if_neg (setText_length_ne_zero _), if_neg (Nat.not_lt.mpr hfit)]
    dsimp only
    rw [hsent]
    by_cases hcode : env.replies.set.code = 0
    · rw [if_pos hcode, queries_called hcall rfl]
      simp [sentTexts, hset, hcode]
    · simp [CallPlan.queries, sentTexts, hset, hcode]

/-- What the texts say, for the parameters of a signature. -/
structure Signature.TextsSay (s : Signature) (strProc : List Byte) : Prop where
  set : assignments s.declared ≠ [] →
    readSetText (setText s.declared) = some (assignments s.declared)
  call : ∃ args, readCallText strProc (callText strProc s.declared) = some args ∧
    args.length = s.totalCount ∧ args = s.declared.zipIdx.map fun p => p.1.callArgument p.2
  select : outputs s.declared ≠ [] →
    readSelectText (selectText s.declared) = some (outputs s.declared)
  /-- Every variable that the `CALL` or the `SELECT` uses is assigned once. -/
  assigned : ∀ i args, readCallText strProc (callText strProc s.declared) = some args →
    .variable i ∈ args ∨ i ∈ outputs s.declared →
    ((assignments s.declared).map Prod.fst).count i = 1

theorem Signature.length_declared (s : Signature) : s.declared.length = s.totalCount := by
  rw [declared, List.length_take, Vector.length_toList]
  exact Nat.min_eq_left s.totalCount_le

theorem Signature.textsSay {s : Signature} (strProc : List Byte)
    (hsupported : ∀ param ∈ s.declared, param.Supported) : s.TextsSay strProc where
  set := readSetText_setText
  call := ⟨_, readCallText_callText strProc hsupported, by simp [s.length_declared], rfl⟩
  select := readSelectText_selectText
  assigned i args hargs hused := by
    rw [readCallText_callText strProc hsupported] at hargs
    obtain rfl := Option.some.inj hargs
    exact count_assignments hsupported hused

/-- **The generated statements.** When numbers and blobs are passed in, parameters of any type are
passed out and the `SET` fits, `Execute` sends these texts, and they say what they should. The
helper has been prepared for `procName`. -/
theorem generated_sql (env : CallEnv) {w : SqlWorld} {procName : List Byte}
    (hsize : w.prepareBuffer.length = prepareBufferSize)
    (hproc : w.helper.strProc = cString procName)
    (hsupported : ∀ param ∈ w.helper.declared, param.Supported)
    (hfit : (setText w.helper.declared).length ≤ setLimit) :
    (∃ r t log, Yields (execute env) w r t ∧ t.log = w.log ++ log ∧
      queries log = sentTexts env.replies (cString procName) w.helper.declared) ∧
    w.helper.TextsSay (cString procName) := by
  refine ⟨?_, Signature.textsSay _ hsupported⟩
  obtain ⟨r, log, t, hrun, hends⟩ := runs_execute env hsize
  refine ⟨r, t, log, hrun.1, hrun.2.log, ?_⟩
  rw [hends.queries, hproc]
  exact queries_textsPlan env (zero_notMem_cString _) hsupported hfit

/-- A number and a blob are passed in, and a text is passed out. -/
def Signature.three : Signature where
  totalCount := 3
  inCount := 2
  outCount := 1
  inoutCount := 0
  parameters := #v[⟨.vIn, .long, 0, .int (-7)⟩, ⟨.vIn, .blob, 2, .voidPtr [0xab, 0, 0x27]⟩,
    ⟨.vOut, .string, 20, .empty⟩, .zero, .zero, .zero, .zero, .zero, .zero, .zero]
  totalCount_le := by decide

theorem generated_sql_three :
    let w : SqlWorld := { SqlWorld.start with
      helper := { QueryResult.new, Signature.three with strProc := ascii "f", strArgs := [] } }
    (∃ r t log, Yields (execute (.noParameters .done)) w r t ∧ t.log = w.log ++ log ∧
      queries log = [ascii "set@_1 = 0xab00, @_2 = null", ascii "call f ( -7, @_1, @_2 )",
        ascii "select @_2"]) ∧
    Signature.three.TextsSay (ascii "f") := by
  have hsupported : ∀ param ∈ Signature.three.declared, param.Supported := by
    intro param hparam
    have hdeclared : Signature.three.declared = [⟨.vIn, .long, 0, .int (-7)⟩,
      ⟨.vIn, .blob, 2, .voidPtr [0xab, 0, 0x27]⟩, ⟨.vOut, .string, 20, .empty⟩] := rfl
    rw [hdeclared] at hparam
    simp only [List.mem_cons, List.not_mem_nil, or_false] at hparam
    rcases hparam with rfl | rfl | rfl
    · exact .int 0 (-7)
    · exact .blob 2 _ (by decide) (by decide)
    · exact .out .string 20 .empty
  intro w
  exact @generated_sql (.noParameters .done) w (ascii "f") (List.length_replicate ..) rfl hsupported
    (by decide)

end PetsServer

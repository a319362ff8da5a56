import PetsServer.Foundations.Quoted
import PetsServer.Sql.Texts

/-!
# The text of the CALL

Whatever the parameters are, when `Execute` builds its texts the `CALL` has one argument for each:
the value of a parameter that is passed in, and else the user variable. The argument of a string is
the string between quotes. `string_arguments_iff` says when the server reads it back.
-/

namespace PetsServer

open Foundations

/-- The text of the value of a parameter that is not a blob. -/
def SqlParam.valueText (param : SqlParam) : List Byte :=
  match param.type, param.bindValue with
  | .long, .int n => decimal n.toInt
  | .longlong, .int64 n => decimal n.toInt
  | .string, .charPtr (some s) => ascii "'" ++ cString s ++ ascii "'"
  | _, _ => []

/-- The argument for the `i`-th parameter. -/
def SqlParam.argument (i : ℕ) (param : SqlParam) : List Byte :=
  if param.direction = .vIn ∧ param.type ≠ .blob then param.valueText else userVariable i

variable {param : SqlParam} {b b' : List Byte} {i : ℕ}

theorem yields_anyCastInt {value : AnyValue} {n : Int32}
    (h : Yields (anyCastInt value) b (.ok n) b') : value = .int n := by
  cases value with
  | int m => rw [(yields_pure_ok.mp h).1]
  | empty | int64 | charPtr | voidPtr | other => exact absurd h not_yields_throw_ok

theorem yields_anyCastInt64 {value : AnyValue} {n : Int64}
    (h : Yields (anyCastInt64 value) b (.ok n) b') : value = .int64 n := by
  cases value with
  | int64 m => rw [(yields_pure_ok.mp h).1]
  | empty | int | charPtr | voidPtr | other => exact absurd h not_yields_throw_ok

theorem yields_anyCastString {value : AnyValue} {text : List Byte}
    (h : Yields (anyCastString value) b (.ok text) b') :
    ∃ s, value = .charPtr (some s) ∧ text = cString s := by
  cases value with
  | charPtr p =>
    cases p with
    | none => exact absurd h not_yields_throw_ok
    | some s => exact ⟨s, rfl, (yields_pure_ok.mp h).1⟩
  | empty | int | int64 | voidPtr | other => exact absurd h not_yields_throw_ok

theorem yields_anyValueToString {text : List Byte}
    (h : Yields (anyValueToString param) b (.ok text) b') : text = param.valueText := by
  unfold anyValueToString at h
  split at h
  · rename_i htype
    obtain ⟨n, m, hn, htext⟩ := yields_bind_ok.mp h
    simp [SqlParam.valueText, htype, yields_anyCastInt hn, (yields_pure_ok.mp htext).1]
  · rename_i htype
    obtain ⟨n, m, hn, htext⟩ := yields_bind_ok.mp h
    simp [SqlParam.valueText, htype, yields_anyCastInt64 hn, (yields_pure_ok.mp htext).1]
  · rename_i htype
    obtain ⟨n, m, hn, htext⟩ := yields_bind_ok.mp h
    obtain ⟨s, hs, rfl⟩ := yields_anyCastString hn
    simp [SqlParam.valueText, htype, hs, (yields_pure_ok.mp htext).1]
  all_goals
    rename_i htype
    simp [SqlParam.valueText, htype, (yields_pure_ok.mp h).1]

/-! ## One parameter -/

variable {t u : Texts} {garbage : List Byte}

theorem yields_executeIn (h : Yields (executeIn i param t) b (.ok (some u)) b') :
    u.pecedureCall = t.pecedureCall ++
      (if param.type ≠ .blob then param.valueText else userVariable i) ∧
    (param.type ≠ .blob → param.valueText ≠ []) := by
  unfold executeIn at h
  split at h
  · rename_i htype
    obtain ⟨ret, m, hret, hu⟩ := yields_bind_ok.mp h
    obtain rfl := yields_anyValueToString hret
    split at hu
    · cases (yields_pure_ok.mp hu).1
    · rename_i hempty
      obtain rfl := Option.some.inj (yields_pure_ok.mp hu).1
      exact ⟨by rw [if_pos htype], fun _ => by simpa using hempty⟩
  · rename_i htype
    obtain ⟨idx, _, -, h⟩ := yields_bind_ok.mp h
    obtain ⟨_, _, -, h⟩ := yields_bind_ok.mp h
    obtain ⟨block, _, -, h⟩ := yields_bind_ok.mp h
    obtain ⟨_, _, -, h⟩ := yields_bind_ok.mp h
    obtain rfl := Option.some.inj (yields_pure_ok.mp h).1
    exact ⟨by rw [if_neg htype], fun h => absurd h htype⟩

theorem yields_executeOut (h : Yields (executeOut garbage i param t) b (.ok (some u)) b') :
    u.pecedureCall = t.pecedureCall ++ userVariable i := by
  unfold executeOut at h
  obtain ⟨idx, _, -, h⟩ := yields_bind_ok.mp h
  obtain ⟨r, _, -, h⟩ := yields_bind_ok.mp h
  cases r with
  | none => cases (yields_pure_ok.mp h).1
  | some idx =>
    obtain rfl := Option.some.inj (yields_pure_ok.mp h).1
    rfl

theorem userVariable_ne_nil (i : ℕ) : userVariable i ≠ [] := List.cons_ne_nil _ _

/-- **The argument of a parameter.** -/
theorem yields_executeParam (h : Yields (executeParam garbage i param t) b (.ok (some u)) b') :
    u.pecedureCall = t.pecedureCall ++ (if i ≠ 0 then ascii ", " else []) ++ param.argument i ∧
    param.argument i ≠ [] := by
  have hcases : ∀ t : Texts, Yields (if param.direction = .vIn then executeIn i param t
      else executeOut garbage i param t) b (.ok (some u)) b' →
      u.pecedureCall = t.pecedureCall ++ param.argument i ∧ param.argument i ≠ [] := by
    intro t ht
    unfold SqlParam.argument
    by_cases hdir : param.direction = .vIn
    · rw [if_pos hdir] at ht
      obtain ⟨hcall, hne⟩ := yields_executeIn ht
      by_cases htype : param.type = .blob
      · rw [if_neg (not_not_intro htype)] at hcall
        rw [if_neg fun h => h.2 htype]
        exact ⟨hcall, userVariable_ne_nil i⟩
      · rw [if_pos htype] at hcall
        rw [if_pos ⟨hdir, htype⟩]
        exact ⟨hcall, hne htype⟩
    · rw [if_neg hdir] at ht
      rw [if_neg fun h => hdir h.1]
      exact ⟨yields_executeOut ht, userVariable_ne_nil i⟩
  by_cases hi : i = 0
  · simpa [hi] using hcases t (by simpa [executeParam, hi] using h)
  · simpa [hi] using hcases { t with pecedureCall := t.pecedureCall ++ ascii ", " }
      (by simpa [executeParam, hi] using h)

/-! ## The loop -/

/-- The arguments of the parameters, from the parameter `i` on. -/
def callArguments (i : ℕ) (params : List SqlParam) : List (List Byte) :=
  (params.zipIdx i).map fun p => p.1.argument p.2

@[simp] theorem callArguments_cons (i : ℕ) (param : SqlParam) (params : List SqlParam) :
    callArguments i (param :: params) = param.argument i :: callArguments (i + 1) params := rfl

/-- The text of a `CALL`. -/
def callText (strProc : List Byte) (params : List SqlParam) : List Byte :=
  ascii "call " ++ strProc ++ ascii " ( " ++
    ((ascii ", ").intercalate (callArguments 0 params) ++ ascii " )")

variable {params : List SqlParam} {allGarbage : ℕ → List Byte}

/-- The loop, after the first parameter. -/
theorem yields_executeParams_further
    (h : Yields (executeParams allGarbage (i + 1) params t) b (.ok (some u)) b') :
    u.pecedureCall = t.pecedureCall ++ (callArguments (i + 1) params).flatMap (ascii ", " ++ ·) ∧
    ∀ arg ∈ callArguments (i + 1) params, arg ≠ [] := by
  induction params generalizing i t b with
  | nil =>
    obtain rfl := Option.some.inj (yields_pure_ok.mp h).1
    exact ⟨by simp [callArguments], fun arg harg => by cases harg⟩
  | cons param params ih =>
    obtain ⟨r, m, hparam, h⟩ := yields_bind_ok.mp h
    cases r with
    | none => cases (yields_pure_ok.mp h).1
    | some v =>
      obtain ⟨hcall, hne⟩ := yields_executeParam hparam
      obtain ⟨hrest, hnes⟩ := ih h
      refine ⟨?_, List.forall_mem_cons.mpr ⟨hne, hnes⟩⟩
      rw [hrest, hcall, if_pos (Nat.succ_ne_zero i), callArguments_cons, List.flatMap_cons]
      simp only [List.append_assoc]

/-- **The text of the `CALL`.** -/
theorem yields_buildTexts {strProc : List Byte}
    (h : Yields (buildTexts allGarbage strProc params) b (.ok (some u)) b') :
    u.pecedureCall = callText strProc params ∧ ∀ arg ∈ callArguments 0 params, arg ≠ [] := by
  obtain ⟨r, m, hloop, h⟩ := yields_bind_ok.mp h
  cases r with
  | none => cases (yields_pure_ok.mp h).1
  | some v =>
    obtain rfl := Option.some.inj (yields_pure_ok.mp h).1
    unfold callText
    cases params with
    | nil =>
      obtain rfl := Option.some.inj (yields_pure_ok.mp hloop).1
      exact ⟨by simp [callArguments], fun arg harg => by cases harg⟩
    | cons param params =>
      obtain ⟨r, m, hparam, hrest⟩ := yields_bind_ok.mp hloop
      cases r with
      | none => cases (yields_pure_ok.mp hrest).1
      | some w =>
        obtain ⟨hcall, hne⟩ := yields_executeParam hparam
        obtain ⟨hrest, hnes⟩ := yields_executeParams_further hrest
        refine ⟨?_, List.forall_mem_cons.mpr ⟨hne, hnes⟩⟩
        rw [callArguments_cons, intercalate_cons_eq_flatMap]
        simp [hrest, hcall]

/-! ## Reading the arguments back -/

/-- A byte that neither separates arguments nor opens a literal. -/
theorem ne_of_isDigit {c : Byte} (h : IsDigit c) : c ≠ 32 ∧ c ≠ 39 ∧ c ≠ 41 ∧ c ≠ 44 :=
  ⟨h.ne (by decide), h.ne (by decide), h.ne (by decide), h.ne (by decide)⟩

theorem isArgument_userVariable (i : ℕ) :
    IsArgument (userVariable i) ((userVariable i).map .byte) := by
  refine isArgument_of_bytes (userVariable_ne_nil i) fun c hc => ?_
  rcases List.mem_append.mp hc with hc | hc
  · have hname : ∀ c ∈ ascii "@_", c ≠ 32 ∧ c ≠ 39 ∧ c ≠ 41 ∧ c ≠ 44 := by
      simp [ascii, charByte]
    exact hname c hc
  · exact ne_of_isDigit (isDigit_of_mem_digits hc)

theorem isArgument_decimal (z : ℤ) : IsArgument (decimal z) ((decimal z).map .byte) := by
  refine isArgument_of_bytes (decimal_ne_nil z) fun c hc => ?_
  rcases mem_decimal hc with rfl | hc
  · decide
  · exact ne_of_isDigit hc

/-- The tokens of an argument, as the server should read them. -/
def SqlParam.argumentTokens (i : ℕ) (param : SqlParam) : List Token :=
  match param.direction, param.type, param.bindValue with
  | .vIn, .string, .charPtr (some s) => [.literal (cString s)]
  | _, _, _ => (param.argument i).map .byte

/-- The string that is bound to a parameter, if it is converted to text. -/
def SqlParam.stringValue (param : SqlParam) : Option (List Byte) :=
  match param.direction, param.type, param.bindValue with
  | .vIn, .string, .charPtr (some s) | .vInout, .string, .charPtr (some s) => some (cString s)
  | _, _, _ => none

theorem isArgument_argument (i : ℕ) (hne : param.argument i ≠ [])
    (hplain : ∀ s ∈ param.stringValue, Plain s) :
    IsArgument (param.argument i) (param.argumentTokens i) := by
  obtain ⟨direction, type, lens, bindValue⟩ := param
  cases direction with
  | vOut | vInout => exact isArgument_userVariable i
  | vIn =>
    cases type with
    | blob => exact isArgument_userVariable i
    | long =>
      cases bindValue with
      | int n => exact isArgument_decimal n.toInt
      | empty | int64 | charPtr | voidPtr | other => exact absurd rfl hne
    | longlong =>
      cases bindValue with
      | int64 n => exact isArgument_decimal n.toInt
      | empty | int | charPtr | voidPtr | other => exact absurd rfl hne
    | string =>
      cases bindValue with
      | charPtr s =>
        cases s with
        | none => exact absurd rfl hne
        | some s => exact isArgument_of_plain (hplain _ rfl)
      | empty | int | int64 | voidPtr | other => exact absurd rfl hne
    | decimal | errtype => exact absurd rfl hne

theorem callArguments_eq (params : List SqlParam) (i : ℕ) :
    callArguments i params = ((params.zipIdx i).map fun p =>
      (p.1.argument p.2, p.1.argumentTokens p.2)).map Prod.fst := by
  rw [List.map_map]
  rfl

/-- **The server reads back one argument for each parameter**, when the strings are plain. -/
theorem arguments_callText (hne : ∀ arg ∈ callArguments 0 params, arg ≠ [])
    (hplain : ∀ param ∈ params, ∀ s ∈ param.stringValue, Plain s) :
    arguments ((ascii ", ").intercalate (callArguments 0 params) ++ ascii " )") =
      some (params.zipIdx.map fun p => p.1.argumentTokens p.2) := by
  rw [callArguments_eq, arguments_join]
  · rw [List.map_map]
    rfl
  · intro arg harg
    obtain ⟨p, hp, rfl⟩ := List.mem_map.mp harg
    exact isArgument_argument p.2 (hne _ (List.mem_map_of_mem hp))
      (hplain p.1 (List.fst_mem_of_mem_zipIdx hp))

theorem valueText_of_stringValue {s : List Byte} (hs : s ∈ param.stringValue) :
    param.valueText = 39 :: s ++ [39] := by
  unfold SqlParam.stringValue at hs
  split at hs
  · rename_i htype hvalue
    obtain rfl := Option.some.inj hs
    simp [SqlParam.valueText, htype, hvalue, ascii, charByte]
  · rename_i htype hvalue
    obtain rfl := Option.some.inj hs
    simp [SqlParam.valueText, htype, hvalue, ascii, charByte]
  · cases hs

/-- Such a value is converted. -/
theorem exists_anyValueToString {s : List Byte} (hs : s ∈ param.stringValue) (b : List Byte) :
    Yields (anyValueToString param) b (.ok (39 :: s ++ [39])) b := by
  unfold SqlParam.stringValue at hs
  split at hs
  · rename_i htype hvalue
    obtain rfl := Option.some.inj hs
    simp [Yields, anyValueToString, htype, hvalue, anyCastString, ascii, charByte]
  · rename_i htype hvalue
    obtain rfl := Option.some.inj hs
    simp [Yields, anyValueToString, htype, hvalue, anyCastString, ascii, charByte]
  · cases hs

/-- The text of the value is one literal, with `s` as its value. -/
def SqlParam.ReadsBack (param : SqlParam) (s : List Byte) : Prop :=
  ∀ b text b', Yields (anyValueToString param) b (.ok text) b' → tokens text = some [.literal s]

theorem readsBack_iff {s : List Byte} (hs : s ∈ param.stringValue) :
    param.ReadsBack s ↔ Plain s := by
  rw [← tokens_quoted_iff]
  refine ⟨fun h => h [] _ [] (exists_anyValueToString hs []), fun h b text b' htext => ?_⟩
  rw [yields_anyValueToString htext, valueText_of_stringValue hs]
  exact h

/-- **When strings stay in their literals.** Whenever `Execute` builds its texts, the text of every
string argument is one literal with the string as its value, and the `CALL` has one argument for
each parameter, if and only if every string is plain. -/
theorem string_arguments_iff {strProc : List Byte}
    (h : Yields (buildTexts allGarbage strProc params) b (.ok (some u)) b') :
    ((∀ param ∈ params, ∀ s ∈ param.stringValue, param.ReadsBack s) ∧
      ∃ text args, u.pecedureCall = ascii "call " ++ strProc ++ ascii " ( " ++ text ∧
        arguments text = some args ∧ args.length = params.length) ↔
    ∀ param ∈ params, ∀ s ∈ param.stringValue, Plain s := by
  refine ⟨fun ⟨hreads, _⟩ param hparam s hs => ?_, fun hplain => ⟨fun param hparam s hs => ?_, ?_⟩⟩
  · exact (readsBack_iff hs).mp (hreads param hparam s hs)
  · exact (readsBack_iff hs).mpr (hplain param hparam s hs)
  · obtain ⟨hcall, hne⟩ := yields_buildTexts h
    exact ⟨_, _, hcall, arguments_callText hne hplain, by simp⟩

/-- The pattern `50` with an escaped wildcard after it. -/
def escapedWildcard : List Byte := ascii "50" ++ [92, 37]

/-- The procedure `f` is called with `ab` and a pattern. -/
theorem string_arguments_iff_two :
    let params : List SqlParam := [⟨.vIn, .string, 0, .charPtr (some (ascii "ab"))⟩,
      ⟨.vIn, .string, 0, .charPtr (some escapedWildcard)⟩]
    let call := ascii "call f ( 'ab', '" ++ escapedWildcard ++ ascii "' )"
    (∀ p ∈ params, ∀ s ∈ p.stringValue, p.ReadsBack s) ∧
      ∃ text args, call = ascii "call " ++ ascii "f" ++ ascii " ( " ++ text ∧
        arguments text = some args ∧ args.length = params.length := by
  intro params call
  have hbuild : Yields (buildTexts (fun _ => []) (ascii "f") params) [] (.ok (some ⟨0, call, []⟩))
      [] := rfl
  refine (string_arguments_iff hbuild).mpr fun p hp s hs => ?_
  have hsome : p.stringValue = some (ascii "ab") ∨ p.stringValue = some escapedWildcard := by
    rcases List.mem_pair.mp hp with rfl | rfl
    · exact .inl rfl
    · exact .inr rfl
  rw [Option.mem_def] at hs
  rcases hsome with h | h
  · obtain rfl := Option.some.inj (h.symm.trans hs)
    exact ⟨by decide, by decide, trivial⟩
  · obtain rfl := Option.some.inj (h.symm.trans hs)
    exact ⟨by decide, by decide, .inl rfl, trivial⟩

/-- A string with quotes ends its literal, and one parameter becomes two arguments. -/
theorem string_argument_splits :
    let param : SqlParam := ⟨.vIn, .string, 0, .charPtr (some (ascii "a', 'b"))⟩
    ¬ param.ReadsBack (ascii "a', 'b") ∧
      Yields (buildTexts (fun _ => []) (ascii "f") [param]) []
        (.ok (some ⟨0, ascii "call f ( " ++ ascii "'a', 'b' )", []⟩)) [] ∧
      arguments (ascii "'a', 'b' )") = some [[.literal (ascii "a")], [.literal (ascii "b")]] := by
  refine ⟨fun h => ?_, rfl, ?_⟩
  · exact absurd ((readsBack_iff rfl).mp h) (by simp [Plain, ascii, charByte])
  · have ha : IsArgument (ascii "'a'") [.literal (ascii "a")] :=
      @isArgument_of_plain (ascii "a") ⟨by decide, trivial⟩
    have hb : IsArgument (ascii "'b'") [.literal (ascii "b")] :=
      @isArgument_of_plain (ascii "b") ⟨by decide, trivial⟩
    exact @arguments_join [(_, _), (_, _)] (List.forall_mem_cons.mpr ⟨ha, by simpa using hb⟩)

end PetsServer

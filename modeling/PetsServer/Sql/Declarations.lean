import PetsServer.Sql.Signature

/-!
# The declarations in a signature

The pieces of a signature fall into declarations, each with a direction, a name and a piece for the
type. `parseParts_eq` says that the state machine of `Prepare` takes one declaration after another,
and `yields_parseDeclarations` what it makes of them: `Parsed` lists the ways in which the parser
can end, with the signature that it leaves.
-/

namespace PetsServer

open Foundations

/-- The direction that a piece names. -/
def keyword (part : List Byte) : Option Direction :=
  if part = ascii "in" then some .vIn
  else if part = ascii "out" then some .vOut
  else if part = ascii "inout" then some .vInout
  else none

/-- A declaration. Without a piece for the type the text ends in the middle of it. -/
structure Declaration where
  direction : Direction
  typePart : Option (List Byte)
  deriving DecidableEq

/-- The declarations in the pieces, when the next piece is the given part of a declaration in the
given direction. -/
def declarationsFrom : WhichPart → Direction → List (List Byte) → List Declaration
  | .direction, _, [] => []
  | .direction, _, part :: parts =>
    match keyword part with
    | some direction => declarationsFrom .name direction parts
    | none => declarationsFrom .type .vIn parts
  | .name, direction, [] => [⟨direction, none⟩]
  | .name, direction, _ :: parts => declarationsFrom .type direction parts
  | .type, direction, [] => [⟨direction, none⟩]
  | .type, direction, part :: parts =>
    ⟨direction, some part⟩ :: declarationsFrom .direction .vIn parts

/-- The declarations in the pieces of a text. -/
def declarations (parts : List (List Byte)) : List Declaration :=
  declarationsFrom .direction .vIn parts

/-- The loop of `Prepare`, by declarations. -/
def parseDeclarations : List Declaration → OnSignature Int32
  | [] => pure 0
  | d :: ds => do
    declareDirection d.direction
    match d.typePart with
    | none => pure 0
    | some part =>
      if ← parseType part then parseDeclarations ds
      else pure (-3)

theorem parseDirection_eq (part : List Byte) : parseDirection part =
    match keyword part with
    | some direction => declareDirection direction >>= fun _ => pure .name
    | none => declareDirection .vIn >>= fun _ => pure .type := by
  unfold parseDirection keyword
  by_cases hin : part = ascii "in"
  · rw [if_pos hin, if_pos hin]
  by_cases hout : part = ascii "out"
  · rw [if_neg hin, if_neg hin, if_pos hout, if_pos hout]
  rw [if_neg hin, if_neg hin, if_neg hout, if_neg hout]
  split
  · rfl
  · rfl

theorem parseParts_eq_from (parts : List (List Byte)) (direction : Direction) :
    parseParts .direction parts = parseDeclarations (declarationsFrom .direction .vIn parts) ∧
    (declareDirection direction >>= fun _ => parseParts .name parts) =
      parseDeclarations (declarationsFrom .name direction parts) ∧
    (declareDirection direction >>= fun _ => parseParts .type parts) =
      parseDeclarations (declarationsFrom .type direction parts) := by
  induction parts generalizing direction with
  | nil => exact ⟨rfl, rfl, rfl⟩
  | cons part parts ih =>
    refine ⟨?_, (ih direction).2.2, ?_⟩
    · rw [parseParts, parseDirection_eq, declarationsFrom]
      cases keyword part with
      | some d =>
        rw [← (ih d).2.1]
        simp
      | none =>
        rw [← (ih .vIn).2.2]
        simp
    · rw [declarationsFrom, parseDeclarations, ← (ih .vIn).1]
      rfl

/-- **The state machine takes one declaration after another.** -/
theorem parseParts_eq (parts : List (List Byte)) :
    parseParts .direction parts = parseDeclarations (declarations parts) :=
  (parseParts_eq_from parts .vIn).1

/-! ## What a declaration says -/

/-- The length of a piece without the comma. -/
def lengthWithoutComma (part : List Byte) : ℕ :=
  if part.getLast? = some (charByte ',') then part.length - 1 else part.length

/-- The name of the type in a piece, and the length, if there is one. There is none in the empty
piece, nor in a comma: for them `at` throws. -/
def typeText (part : List Byte) : Option (List Byte × Option ℕ) :=
  if lengthWithoutComma part = 0 then none
  else if part[lengthWithoutComma part - 1]? = some (charByte ')') then
    match part.idxOf? (charByte '(') with
    | some first => some (part.take first, some (toSize (atoi (part.drop (first + 1)))))
    | none => some (part, none)
  else some (part.take (lengthWithoutComma part), none)

/-- What a declaration says. -/
inductive DeclarationReading
  /-- The text ends in the middle. -/
  | unfinished
  /-- `at` throws. -/
  | throws
  /-- The type is not known. -/
  | unknown
  | param (p : SqlParam)

/-- A declaration is read. -/
def Declaration.read (d : Declaration) : DeclarationReading :=
  match d.typePart with
  | none => .unfinished
  | some part =>
    match typeText part with
    | none => .throws
    | some (text, lens) =>
      if getMySqlType text = .errtype then .unknown
      else .param ⟨d.direction, getMySqlType text, lens.getD 0, .empty⟩

/-- In the signature `params` are declared, and after them the parameters in `begun` have a
direction, but are not counted yet. -/
structure Signature.Lists (s : Signature) (params begun : List SqlParam) : Prop where
  totalCount : s.totalCount = params.length
  inCount : s.inCount = (params ++ begun).countP (·.direction = .vIn)
  outCount : s.outCount = (params ++ begun).countP (·.direction = .vOut)
  inoutCount : s.inoutCount = (params ++ begun).countP (·.direction = .vInout)
  parameters : s.parameters.toList =
    params ++ begun ++ List.replicate (maxParamCount - (params.length + begun.length)) .zero

theorem Signature.lists_zero : Signature.zero.Lists [] [] where
  totalCount := rfl
  inCount := rfl
  outCount := rfl
  inoutCount := rfl
  parameters := rfl

section Lists

variable {s : Signature} {params : List SqlParam} {p : SqlParam}

/-- The parameter after those that are declared. -/
theorem Signature.Lists.getElem (h : s.Lists params [p]) (hlt : params.length < maxParamCount) :
    s.parameters[params.length] = p := by
  have hlist : s.parameters.toList[params.length]? = some p := by
    rw [h.parameters]
    simp
  simpa [Vector.getElem?_toList, hlt] using hlist

/-- The parameter that is begun is written. -/
theorem Signature.Lists.update (h : s.Lists params [p]) (hlt : params.length < maxParamCount)
    {f : SqlParam → SqlParam} (hf : (f p).direction = p.direction) :
    ∃ t, Yields (updateParam s.totalCount f) s (.ok ⟨⟩) t ∧ t.Lists params [f p] := by
  have hlt' : s.totalCount < maxParamCount := h.totalCount ▸ hlt
  refine ⟨_, yields_updateParam hlt' f s, h.totalCount, ?_, ?_, ?_, ?_⟩
  · simpa [hf] using h.inCount
  · simpa [hf] using h.outCount
  · simpa [hf] using h.inoutCount
  · have hp : s.parameters[s.totalCount] = p := by simpa [h.totalCount] using h.getElem hlt
    change (s.parameters.set s.totalCount (f s.parameters[s.totalCount])).toList = _
    rw [Vector.toList_set, hp, h.parameters, h.totalCount]
    simp

/-- The parameter that is begun is counted. -/
theorem Signature.Lists.count (h : s.Lists params [p]) (hlt : params.length < maxParamCount) :
    ∃ t, Yields countParam s (.ok ⟨⟩) t ∧ t.Lists (params ++ [p]) [] := by
  have hlt' : s.totalCount < maxParamCount := h.totalCount ▸ hlt
  refine ⟨{ s with totalCount := s.totalCount + 1, totalCount_le := hlt' }, ?_, ?_, ?_, ?_, ?_, ?_⟩
  · simp [Yields, countParam, hlt']
  · simp [h.totalCount]
  · simpa using h.inCount
  · simpa using h.outCount
  · simpa using h.inoutCount
  · simpa using h.parameters

/-- A parameter is begun. -/
theorem Signature.Lists.declare (h : s.Lists params []) (hlt : params.length < maxParamCount)
    (direction : Direction) : ∃ t, Yields (declareDirection direction) s (.ok ⟨⟩) t ∧
      t.Lists params [{ SqlParam.zero with direction := direction }] := by
  have hlt' : s.totalCount < maxParamCount := h.totalCount ▸ hlt
  have hzero : s.parameters[s.totalCount] = .zero := by
    have hlist : s.parameters.toList[s.totalCount]? = some .zero := by
      rw [h.parameters, h.totalCount]
      simp [hlt]
    simpa [Vector.getElem?_toList, hlt'] using hlist
  have hparameters : (s.parameters.set s.totalCount
      { s.parameters[s.totalCount] with direction := direction }).toList = params ++
        [{ SqlParam.zero with direction := direction }] ++
          List.replicate (maxParamCount - (params.length + 1)) .zero := by
    obtain ⟨n, hn⟩ : ∃ n, maxParamCount - params.length = n + 1 :=
      ⟨maxParamCount - params.length - 1, by omega⟩
    have hrest : maxParamCount - (params.length + 1) = n := by omega
    rw [Vector.toList_set, hzero, h.parameters, h.totalCount, hrest]
    simp [hn, List.replicate_succ]
  refine ⟨_, (yields_modify _ s).bind ((yields_get _).bind (yields_updateParam ?_ _ _)), ?_⟩
  · cases direction <;> exact hlt'
  · cases direction with
    | vIn =>
      refine ⟨h.totalCount, ?_, ?_, ?_, hparameters⟩
      · simp [h.inCount]
      · simp [h.outCount]
      · simp [h.inoutCount]
    | vOut =>
      refine ⟨h.totalCount, ?_, ?_, ?_, hparameters⟩
      · simp [h.inCount]
      · simp [h.outCount]
      · simp [h.inoutCount]
    | vInout =>
      refine ⟨h.totalCount, ?_, ?_, ?_, hparameters⟩
      · simp [h.inCount]
      · simp [h.outCount]
      · simp [h.inoutCount]

theorem Signature.Lists.declare_of_not_lt (h : s.Lists params [])
    (hlt : ¬ params.length < maxParamCount) (direction : Direction) :
    ∃ t, Yields (declareDirection direction) s (.error .bufferOverrun) t := by
  refine ⟨_, (yields_modify _ s).bind ((yields_get _).bind
    (yields_updateParam_of_not_lt ?_ _ _))⟩
  cases direction <;> exact h.totalCount ▸ hlt

end Lists

/-! ## The type -/

section Types

variable {s : Signature} {params : List SqlParam} {p : SqlParam} {part : List Byte} {last : ℕ}

theorem yields_byteBefore {b : Byte} (hlast : last ≠ 0) (hb : part[last - 1]? = some b)
    (s : Signature) : Yields (byteBefore part last) s (.ok b) s := by
  cases last with
  | zero => exact absurd rfl hlast
  | succ last =>
    have hb' : part[last]? = some b := hb
    simp [Yields, byteBefore, hb']

theorem yields_byteBefore_zero (s : Signature) :
    Yields (byteBefore part 0) s (.error .outOfRange) s := yields_throw _ s

/-- `parseLength` from the second `at` on. -/
def parseLengthFrom (part : List Byte) (last : ℕ) : OnSignature (List Byte) := do
  let b ← byteBefore part last
  if b = charByte ')' then
    match part.idxOf? (charByte '(') with
    | some last => do
      updateParam (← get).totalCount fun p =>
        { p with lens := toSize (atoi (part.drop (last + 1))) }
      pure (part.take last)
    | none => pure part
  else pure (part.take last)

theorem yields_parseLength_of_ne_nil {r : Except Fault (List Byte)} {t : Signature}
    (hpart : part ≠ []) (h : Yields (parseLengthFrom part (lengthWithoutComma part)) s r t) :
    Yields (parseLength part) s r t := by
  obtain ⟨b, hb⟩ : ∃ b, part.getLast? = some b := ⟨_, List.getLast?_eq_some_getLast hpart⟩
  have hlength : part.length ≠ 0 := by simpa using hpart
  have hlast : part[part.length - 1]? = some b := by rw [← List.getLast?_eq_getElem?, hb]
  have hcomma : lengthWithoutComma part =
      if b = charByte ',' then part.length - 1 else part.length := by
    rw [lengthWithoutComma, hb]
    simp only [Option.some.injEq]
  rw [hcomma] at h
  exact (yields_byteBefore hlength hlast s).bind h

theorem ne_nil_of_lengthWithoutComma (h : lengthWithoutComma part ≠ 0) : part ≠ [] := by
  rintro rfl
  exact h rfl

theorem yields_parseLength_of_none (htext : typeText part = none) (s : Signature) :
    Yields (parseLength part) s (.error .outOfRange) s := by
  have hzero : lengthWithoutComma part = 0 := by
    by_contra hne
    rw [typeText, if_neg hne] at htext
    split at htext
    · split at htext <;> cases htext
    · cases htext
  by_cases hpart : part = []
  · subst hpart
    exact (yields_byteBefore_zero s).bind_error
  · refine yields_parseLength_of_ne_nil hpart ?_
    rw [hzero]
    exact (yields_byteBefore_zero s).bind_error

/-- **The type and the length are cut apart.** -/
theorem Signature.Lists.parseLength (h : s.Lists params [p]) (hlt : params.length < maxParamCount)
    {text : List Byte} {lens : Option ℕ} (htext : typeText part = some (text, lens)) :
    ∃ t, Yields (parseLength part) s (.ok text) t ∧
      t.Lists params [{ p with lens := lens.getD p.lens }] := by
  have hne : lengthWithoutComma part ≠ 0 := by
    intro hzero
    rw [typeText, if_pos hzero] at htext
    cases htext
  have hpart := ne_nil_of_lengthWithoutComma hne
  have hle : lengthWithoutComma part ≤ part.length := by
    unfold lengthWithoutComma
    split <;> omega
  obtain ⟨b, hb⟩ : ∃ b, part[lengthWithoutComma part - 1]? = some b :=
    ⟨_, List.getElem?_eq_getElem (by omega)⟩
  rw [typeText, if_neg hne, hb] at htext
  have hbefore := yields_byteBefore hne hb s
  by_cases hclose : b = charByte ')'
  · rw [if_pos (congrArg some hclose)] at htext
    cases hopen : part.idxOf? (charByte '(') with
    | some first =>
      rw [hopen] at htext
      obtain ⟨rfl, rfl⟩ := Prod.mk.inj (Option.some.inj htext)
      obtain ⟨t, ht, hlists⟩ := h.update hlt
        (f := fun p => { p with lens := toSize (atoi (part.drop (first + 1))) }) rfl
      refine ⟨t, yields_parseLength_of_ne_nil hpart (hbefore.bind ?_), hlists⟩
      rw [if_pos hclose, hopen]
      exact (yields_get s).bind (ht.bind (yields_pure _ t))
    | none =>
      rw [hopen] at htext
      obtain ⟨rfl, rfl⟩ := Prod.mk.inj (Option.some.inj htext)
      refine ⟨s, yields_parseLength_of_ne_nil hpart (hbefore.bind ?_), h⟩
      rw [if_pos hclose, hopen]
      exact yields_pure _ s
  · rw [if_neg fun heq => hclose (Option.some.inj heq)] at htext
    obtain ⟨rfl, rfl⟩ := Prod.mk.inj (Option.some.inj htext)
    refine ⟨s, yields_parseLength_of_ne_nil hpart (hbefore.bind ?_), h⟩
    rw [if_neg hclose]
    exact yields_pure _ s

/-- The type is written, and the parameter counted if the type is known. -/
theorem Signature.Lists.parseType (h : s.Lists params [p]) (hlt : params.length < maxParamCount)
    {text : List Byte} {lens : Option ℕ} (htext : typeText part = some (text, lens)) :
    ∃ t, Yields (parseType part) s (.ok (getMySqlType text ≠ .errtype)) t ∧
      (getMySqlType text ≠ .errtype → t.Lists
        (params ++ [{ p with lens := lens.getD p.lens, type := getMySqlType text }]) []) := by
  obtain ⟨u, hlength, hu⟩ := h.parseLength hlt htext
  obtain ⟨v, htype, hv⟩ := hu.update hlt (f := fun p => { p with type := getMySqlType text }) rfl
  by_cases hknown : getMySqlType text = .errtype
  · refine ⟨v, hlength.bind ((yields_get u).bind (htype.bind ?_)), fun hne => absurd hknown hne⟩
    rw [if_pos hknown, hknown]
    exact yields_pure _ v
  · obtain ⟨t, hcount, ht⟩ := hv.count hlt
    refine ⟨t, hlength.bind ((yields_get u).bind (htype.bind ?_)), fun _ => ht⟩
    rw [if_neg hknown, decide_eq_true hknown]
    exact hcount.bind (yields_pure _ t)

end Types

/-! ## The parser -/

/-- The ways in which the parser can end on declarations, when `params` were declared before: its
result, and the signature `t` that it leaves. -/
inductive Parsed (t : Signature) : List SqlParam → List Declaration → Except Fault Int32 → Prop
  | done (params : List SqlParam) (h : t.Lists params []) : Parsed t params [] (.ok 0)
  | full (params : List SqlParam) (d : Declaration) (ds : List Declaration)
    (hfull : ¬ params.length < maxParamCount) : Parsed t params (d :: ds) (.error .bufferOverrun)
  | unfinished (params : List SqlParam) (d : Declaration) (ds : List Declaration)
    (hlt : params.length < maxParamCount) (hread : d.read = .unfinished)
    (h : t.Lists params [{ SqlParam.zero with direction := d.direction }]) :
    Parsed t params (d :: ds) (.ok 0)
  | throws (params : List SqlParam) (d : Declaration) (ds : List Declaration)
    (hlt : params.length < maxParamCount) (hread : d.read = .throws) :
    Parsed t params (d :: ds) (.error .outOfRange)
  | unknown (params : List SqlParam) (d : Declaration) (ds : List Declaration)
    (hlt : params.length < maxParamCount) (hread : d.read = .unknown) :
    Parsed t params (d :: ds) (.ok (-3))
  | next (params : List SqlParam) (d : Declaration) (ds : List Declaration) (p : SqlParam)
    (r : Except Fault Int32) (hlt : params.length < maxParamCount) (hread : d.read = .param p)
    (h : Parsed t (params ++ [p]) ds r) : Parsed t params (d :: ds) r

theorem Declaration.read_of_some {d : Declaration} {part : List Byte}
    (hpart : d.typePart = some part) :
    (typeText part = none ∧ d.read = .throws) ∨ ∃ text lens, typeText part = some (text, lens) ∧
      d.read = if getMySqlType text = .errtype then .unknown
        else .param ⟨d.direction, getMySqlType text, lens.getD 0, .empty⟩ := by
  unfold read
  simp only [hpart]
  cases htext : typeText part with
  | none => exact .inl ⟨rfl, rfl⟩
  | some typed => exact .inr ⟨typed.1, typed.2, rfl, rfl⟩

/-- **What the parser makes of declarations.** -/
theorem yields_parseDeclarations (ds : List Declaration) {s : Signature} {params : List SqlParam}
    (h : s.Lists params []) :
    ∃ r t, Yields (parseDeclarations ds) s r t ∧ Parsed t params ds r := by
  induction ds generalizing s params with
  | nil => exact ⟨.ok 0, s, yields_pure 0 s, .done params h⟩
  | cons d ds ih =>
    by_cases hlt : params.length < maxParamCount
    swap
    · obtain ⟨t, hdeclare⟩ := h.declare_of_not_lt hlt d.direction
      exact ⟨_, t, hdeclare.bind_error, .full params d ds hlt⟩
    obtain ⟨u, hdeclare, hu⟩ := h.declare hlt d.direction
    cases hpart : d.typePart with
    | none =>
      have hread : d.read = .unfinished := by rw [Declaration.read, hpart]
      refine ⟨.ok 0, u, hdeclare.bind ?_, .unfinished params d ds hlt hread hu⟩
      rw [hpart]
      exact yields_pure 0 u
    | some part =>
      rcases Declaration.read_of_some hpart with ⟨htext, hread⟩ | ⟨text, lens, htext, hread⟩
      · refine ⟨_, u, hdeclare.bind ?_, .throws params d ds hlt hread⟩
        rw [hpart]
        exact Yields.bind_error (yields_parseLength_of_none htext u).bind_error
      · obtain ⟨v, htype, hv⟩ := hu.parseType hlt htext
        by_cases hknown : getMySqlType text = .errtype
        · rw [if_pos hknown] at hread
          refine ⟨.ok (-3), v, hdeclare.bind ?_, .unknown params d ds hlt hread⟩
          rw [hpart]
          exact htype.bind (by simpa [hknown] using yields_pure (-3) v)
        · rw [if_neg hknown] at hread
          obtain ⟨r, t, hrest, hparsed⟩ := ih (hv hknown)
          refine ⟨r, t, hdeclare.bind ?_, .next params d ds _ r hlt hread hparsed⟩
          rw [hpart]
          exact htype.bind (by simpa [hknown] using hrest)

/-- **What the parser makes of the pieces of a text.** -/
theorem yields_parseParts (parts : List (List Byte)) :
    ∃ r t, Yields (parseParts .direction parts) .zero r t ∧ Parsed t [] (declarations parts) r := by
  rw [parseParts_eq]
  exact yields_parseDeclarations _ Signature.lists_zero

end PetsServer

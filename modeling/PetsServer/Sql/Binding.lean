import PetsServer.Sql.Accepted

/-!
# The values of a call

`ExecuteProcedure` copies the values of the task to the parameters, one after another.
`subscripts_in_range_iff` says for which texts and tasks all subscripts of `parameters` in a call
are in range.
-/

namespace PetsServer

open Foundations

/-- The signature with values for its first parameters. -/
def Signature.bind (s : Signature) (values : List AnyValue) : Signature :=
  { s with parameters := s.parameters.mapIdx fun i p =>
      { p with bindValue := values[i]?.getD p.bindValue } }

/-- The parameters with values for the first of them. -/
def bindParams (params : List SqlParam) (values : List AnyValue) : List SqlParam :=
  params.mapIdx fun i p => { p with bindValue := values[i]?.getD p.bindValue }

theorem Signature.declared_bind (s : Signature) (values : List AnyValue) :
    (s.bind values).declared = bindParams s.declared values := by
  refine List.ext_getElem ?_ fun i hi _ => ?_
  · simp [declared, bindParams, bind]
  · simp [declared, bindParams, bind]

/-- Types and directions are kept. -/
theorem map_bindParams {β : Type} {f : SqlParam → β} (params : List SqlParam)
    (values : List AnyValue) (h : ∀ p value, f { p with bindValue := value } = f p) :
    (bindParams params values).map f = params.map f := by
  refine List.ext_getElem (by simp [bindParams]) fun i hi _ => ?_
  simp [bindParams, h]

theorem known_bindParams {params : List SqlParam} (h : ∀ p ∈ params, p.type.Known)
    (values : List AnyValue) : ∀ p ∈ bindParams params values, p.type.Known := by
  intro p hp
  obtain ⟨i, hi, rfl⟩ := List.mem_mapIdx.mp hp
  exact h params[i] (List.getElem_mem hi)

theorem bindValues_zero (anyArr : Option (List AnyValue)) : bindValues anyArr 0 = pure ⟨⟩ := rfl

theorem bindValues_succ (anyArr : Option (List AnyValue)) (n : ℕ) :
    bindValues anyArr (n + 1) = bindValues anyArr n >>= fun _ => bindValue anyArr n := by
  change (List.range (n + 1)).forM (bindValue anyArr) = (List.range n).forM (bindValue anyArr) >>= _
  rw [List.range_succ]
  exact (List.forM_append).trans (by simp)

theorem Signature.bind_nil (s : Signature) : s.bind [] = s := by
  have hparameters : s.parameters.mapIdx (fun i p =>
      { p with bindValue := ([] : List AnyValue)[i]?.getD p.bindValue }) = s.parameters := by
    ext i hi
    simp
  rw [bind, hparameters]

/-- One value more. -/
theorem Signature.bind_take_succ (s : Signature) {values : List AnyValue} {n : ℕ} {value : AnyValue}
    (hn : n < maxParamCount) (hvalue : values[n]? = some value) :
    s.bind (values.take (n + 1)) = { s.bind (values.take n) with
      parameters := (s.bind (values.take n)).parameters.set n
        { (s.bind (values.take n)).parameters[n] with bindValue := value } } := by
  have hparameters : (s.bind (values.take (n + 1))).parameters =
      (s.bind (values.take n)).parameters.set n
        { (s.bind (values.take n)).parameters[n] with bindValue := value } := by
    ext1 i hi
    rw [Vector.getElem_set]
    simp only [bind, Vector.getElem_mapIdx]
    split
    · rename_i heq
      subst heq
      simp [hvalue]
    · rw [List.getElem?_take, List.getElem?_take]
      split_ifs <;> first | rfl | omega
  rw [← hparameters]
  rfl

/-- **How the values are copied.** -/
theorem bindValues_cases (anyArr : Option (List AnyValue)) (n : ℕ) (s : Signature) :
    (n ≤ maxParamCount ∧ n ≤ (anyArr.getD []).length ∧
      Yields (bindValues anyArr n) s (.ok ⟨⟩) (s.bind ((anyArr.getD []).take n))) ∨
    ∃ fault t, Yields (bindValues anyArr n) s (.error fault) t ∧
      ¬ (n ≤ maxParamCount ∧ n ≤ (anyArr.getD []).length) ∧
      (fault = .bufferOverrun ↔ maxParamCount < n ∧ maxParamCount ≤ (anyArr.getD []).length) := by
  induction n with
  | zero =>
    refine .inl ⟨Nat.zero_le _, Nat.zero_le _, ?_⟩
    rw [bindValues_zero, List.take_zero, Signature.bind_nil]
    exact yields_pure _ s
  | succ n ih =>
    rw [bindValues_succ]
    rcases ih with ⟨hn, hlength, hbind⟩ | ⟨fault, t, hbind, hnot, hfault⟩
    swap
    · refine .inr ⟨fault, t, hbind.bind_error, by omega, hfault.trans ?_⟩
      omega
    -- the subscript of `parameters` comes first
    by_cases hmax : n < maxParamCount
    swap
    · have hthrow : bindValue anyArr n = throw .bufferOverrun := if_neg hmax
      refine .inr ⟨.bufferOverrun, s.bind ((anyArr.getD []).take n), hbind.bind ?_, by omega, ?_⟩
      · rw [hthrow]
        exact yields_throw _ _
      · simp only [true_iff]
        omega
    cases anyArr with
    | none =>
      have hthrow : bindValue none n = throw .nullPointer := if_pos hmax
      rw [Option.getD_none, List.length_nil] at *
      refine .inr ⟨.nullPointer, s.bind (List.take n []), hbind.bind ?_, by omega, ?_⟩
      · rw [hthrow]
        exact yields_throw _ _
      · simp only [reduceCtorEq, false_iff]
        omega
    | some values =>
      rw [Option.getD_some] at *
      cases hvalue : values[n]? with
      | none =>
        have hle := List.getElem?_eq_none_iff.mp hvalue
        have hthrow : bindValue (some values) n = throw .outOfBounds := by
          unfold bindValue
          simp only [if_pos hmax, hvalue]
        refine .inr ⟨.outOfBounds, s.bind (values.take n), hbind.bind ?_, by omega, ?_⟩
        · rw [hthrow]
          exact yields_throw _ _
        · simp only [reduceCtorEq, false_iff]
          omega
      | some value =>
        have hlt : n < values.length := (List.getElem?_eq_some_iff.mp hvalue).1
        have hone : bindValue (some values) n =
            updateParam n fun p => { p with bindValue := value } := by
          unfold bindValue
          simp only [if_pos hmax, hvalue]
        refine .inl ⟨hmax, hlt, hbind.bind ?_⟩
        rw [hone, s.bind_take_succ hmax hvalue]
        exact yields_updateParam hmax _ _

/-- More values than parameters. -/
theorem bindValues_overrun {anyArr : Option (List AnyValue)} {n : ℕ} (hn : maxParamCount < n)
    (hlength : maxParamCount ≤ (anyArr.getD []).length) (s : Signature) :
    ∃ t, Yields (bindValues anyArr n) s (.error .bufferOverrun) t := by
  rcases bindValues_cases anyArr n s with ⟨hle, -⟩ | ⟨fault, t, hbind, -, hfault⟩
  · omega
  · obtain rfl := hfault.mpr ⟨hn, hlength⟩
    exact ⟨t, hbind⟩

/-! ## The subscripts -/

/-- The subscripts of `parameters` in a call: those of `Prepare` and of the loop that copies the
values fail when they are out of range, and those of `Execute` are below counts. -/
structure SubscriptsInRange (paramList : List Byte → List Byte) (env : CallEnv) (pack : SqlPack)
    (w : SqlWorld) : Prop where
  prepare : ∀ t, ¬ Yields (prepare paramList pack.sentence env.replies.paramList) w
    (.error .bufferOverrun) t
  bind : ∀ t,
    Yields (PetsServer.prepare paramList pack.sentence env.replies.paramList) w (.ok 0) t →
      ∀ s, ¬ Yields (bindValues (pack.anyArr.map env.anyArr) pack.paramNums.toNat)
        t.helper.toSignature (.error .bufferOverrun) s
  execute : ∀ t, Yields (PetsServer.prepare paramList pack.sentence env.replies.paramList) w
    (.ok 0) t → ∀ s, Yields (bindValues (pack.anyArr.map env.anyArr) pack.paramNums.toNat)
      t.helper.toSignature (.ok ⟨⟩) s → (∀ i < s.totalCount, i < maxParamCount) ∧
        ∀ i < s.outCount + s.inoutCount, s.inCount + i < maxParamCount

/-- The parser accepts the declarations. -/
def Accepted (ds : List Declaration) : Prop := stop ds = none ∨ stop ds = some .unfinished

theorem Accepted.stop_ne {ds : List Declaration} (h : Accepted ds) {d : DeclarationReading}
    (hd : d ≠ .unfinished) : stop ds ≠ some d := by
  intro hstop
  rcases h with hnone | hunfinished
  · cases hstop.symm.trans hnone
  · exact hd (Option.some.inj (hstop.symm.trans hunfinished))

section Parsed

variable {s : Signature} {ds : List Declaration} {r : Except Fault Int32}

/-- What the parser leaves when it accepts. -/
theorem Parsed.lists_of_ok (h : Parsed s [] ds (.ok 0)) :
    Accepted ds ∧ ∃ begun, s.Lists (listed ds) begun := by
  rcases h.cases_of_start h.length_reached_le with ⟨hstop, -, hlists⟩ | ⟨hstop, -, p, hlists⟩ |
    ⟨-, hr⟩ | ⟨-, hr⟩
  · exact ⟨.inl hstop, _, hlists⟩
  · exact ⟨.inr hstop, _, hlists⟩
  · cases hr
  · exact absurd (Except.ok.inj hr) (by decide)

theorem Parsed.ok_of_accepted (h : Parsed s [] ds r) (hle : (reached ds).length ≤ maxParamCount)
    (haccepted : Accepted ds) : r = .ok 0 := by
  rcases h.cases_of_start hle with ⟨-, hr, -⟩ | ⟨-, hr, -⟩ | ⟨hstop, -⟩ | ⟨hstop, -⟩
  · exact hr
  · exact hr
  · exact absurd hstop (haccepted.stop_ne (by simp))
  · exact absurd hstop (haccepted.stop_ne (by simp))

end Parsed

/-- The signatures that `Prepare` accepts. -/
def Signature.IsAccepted (s : Signature) : Prop :=
  ∃ text, Yields (parseParts .direction (signatureParts text)) .zero (.ok 0) s

theorem Signature.IsAccepted.lists {s : Signature} (h : s.IsAccepted) :
    ∃ params begun, s.Lists params begun ∧ ∀ p ∈ params, p.type.Known := by
  obtain ⟨text, hparse⟩ := h
  obtain ⟨r, t, hyields, hparsed⟩ := yields_parseParts (signatureParts text)
  obtain ⟨rfl, rfl⟩ := hparse.unique hyields
  obtain ⟨-, begun, hlists⟩ := hparsed.lists_of_ok
  exact ⟨_, begun, hlists, known_of_listed⟩

/-- A signature is what it lists. -/
theorem Signature.Lists.unique {s t : Signature} {params begun : List SqlParam}
    (hs : s.Lists params begun) (ht : t.Lists params begun) : s = t := by
  have htotal := hs.totalCount.trans ht.totalCount.symm
  have hin := hs.inCount.trans ht.inCount.symm
  have hout := hs.outCount.trans ht.outCount.symm
  have hinout := hs.inoutCount.trans ht.inoutCount.symm
  have hparameters := Vector.toList_inj.mp (hs.parameters.trans ht.parameters.symm)
  cases s
  cases t
  simp_all

/-- A signature that lists the declarations of a text is accepted. -/
theorem Signature.Lists.isAccepted {s : Signature} {text : List Byte}
    (h : s.Lists (listed (textDeclarations text)) [])
    (hle : (reached (textDeclarations text)).length ≤ maxParamCount)
    (hstop : stop (textDeclarations text) = none) : s.IsAccepted := by
  obtain ⟨r, t, hyields, hparsed⟩ := yields_parseParts (signatureParts text)
  obtain ⟨rfl, hlists⟩ := hparsed.lists_of_stop_none hle hstop
  obtain rfl := h.unique hlists
  exact ⟨text, hyields⟩

/-- `Prepare` accepts a text and leaves the signature that lists its declarations. -/
theorem prepare_of_lists {paramList : List Byte → List Byte} {procName text : List Byte}
    {reply : SqlReply} {w : SqlWorld} {s : Signature} (hzero : w.helper.toSignature = .zero)
    (hgives : GivesText paramList procName reply text)
    (h : s.Lists (listed (textDeclarations text)) [])
    (hle : (reached (textDeclarations text)).length ≤ maxParamCount)
    (hstop : stop (textDeclarations text) = none) :
    ∃ t, Yields (prepare paramList procName reply) w (.ok 0) t ∧ t.helper.toSignature = s := by
  obtain ⟨t, hprepare, hlists⟩ := yields_prepare_of_stop_none hzero hgives hle hstop
  exact ⟨t, hprepare, hlists.unique h⟩

/-- The parameters of a signature fit in the array. -/
theorem Signature.Lists.count_le {s : Signature} {params begun : List SqlParam}
    (h : s.Lists params begun) : s.inCount + s.outCount + s.inoutCount ≤ maxParamCount := by
  have hlength := congrArg List.length h.parameters
  have hcount := countP_directions (params ++ begun)
  rw [← h.inCount, ← h.outCount, ← h.inoutCount] at hcount
  simp only [List.length_append, List.length_replicate, Vector.length_toList] at hlength hcount
  omega

section Subscripts

variable {paramList : List Byte → List Byte} {env : CallEnv} {pack : SqlPack} {text : List Byte}
  {w : SqlWorld}

/-- **Which calls stay in the array.** On a helper that is cleared, all subscripts of `parameters`
in a call are in range if and only if the text has at most ten declarations up to the first that
stops the parser and, when it is accepted, the task has at most ten values by its count or less
than ten in its array. -/
theorem subscripts_in_range_iff (hzero : w.helper.toSignature = .zero)
    (h : GivesText paramList pack.sentence env.replies.paramList text) :
    SubscriptsInRange paramList env pack w ↔
      (reached (textDeclarations text)).length ≤ maxParamCount ∧
        (Accepted (textDeclarations text) → pack.paramNums.toNat ≤ maxParamCount ∨
          ((pack.anyArr.map env.anyArr).getD []).length < maxParamCount) := by
  obtain ⟨r, t, s, hprepare, hparsed, hs⟩ := yields_prepare_text hzero h
  have hbind := bindValues_cases (pack.anyArr.map env.anyArr) pack.paramNums.toNat
    t.helper.toSignature
  refine ⟨fun hrange => ?_, fun ⟨hle, hvalues⟩ => ?_⟩
  · have hle : (reached (textDeclarations text)).length ≤ maxParamCount :=
      Nat.not_lt.mp fun hlt => hrange.prepare t (hparsed.overrun_zero_iff.mpr hlt ▸ hprepare)
    refine ⟨hle, fun haccepted => ?_⟩
    obtain rfl := hparsed.ok_of_accepted hle haccepted
    by_contra hnot
    obtain ⟨hn, hlength⟩ := not_or.mp hnot
    obtain ⟨u, hoverrun⟩ := bindValues_overrun (Nat.not_le.mp hn) (Nat.not_lt.mp hlength)
      t.helper.toSignature
    exact hrange.bind t hprepare u hoverrun
  · have hunique : ∀ t', Yields (prepare paramList pack.sentence env.replies.paramList) w (.ok 0)
        t' → t' = t ∧ r = .ok 0 := fun t' ht' => ((hprepare.unique ht').imp id Eq.symm).symm
    refine ⟨fun t' ht' => ?_, fun t' ht' u hu => ?_, fun t' ht' u hu => ?_⟩
    · obtain ⟨hr, -⟩ := hprepare.unique ht'
      exact absurd (hparsed.overrun_zero_iff.mp hr) (Nat.not_lt.mpr hle)
    · obtain ⟨rfl, rfl⟩ := hunique t' ht'
      obtain ⟨haccepted, -⟩ := hparsed.lists_of_ok
      rcases hbind with ⟨-, -, hok⟩ | ⟨fault, v, hyields, -, hfault⟩
      · cases (hok.unique hu).1
      · obtain rfl := Except.error.inj (hyields.unique hu).1
        have hover := hfault.mp rfl
        rcases hvalues haccepted with hn | hlength
        · exact absurd hover.1 (Nat.not_lt.mpr hn)
        · exact absurd hover.2 (Nat.not_le.mpr hlength)
    · obtain ⟨rfl, rfl⟩ := hunique t' ht'
      obtain ⟨-, begun, hlists⟩ := hparsed.lists_of_ok
      have hcount := hlists.count_le
      rw [← hs rfl] at hcount
      refine ⟨fun i hi => Nat.lt_of_lt_of_le hi u.totalCount_le, fun i hi => ?_⟩
      rcases hbind with ⟨-, -, hok⟩ | ⟨fault, v, hyields, -⟩
      · obtain ⟨-, rfl⟩ := hok.unique hu
        change i < t'.helper.outCount + t'.helper.inoutCount at hi
        change t'.helper.inCount + i < maxParamCount
        omega
      · cases (hyields.unique hu).1

/-- A task that binds `n` numbers to the parameters of `f`, which the server describes by `text`. -/
def bindsNumbers (text : List Byte) (n : UInt8) : CallEnv × SqlPack :=
  ({ CallEnv.noParameters .done with
      replies := ⟨.value text, .done, .done, .done⟩
      anyArr := fun _ => List.replicate n.toNat (.int 0) },
    ⟨.procedure, ascii "f", some 0, 0, n⟩)

/-- Two values for two parameters. -/
theorem subscripts_in_range_iff_two :
    SubscriptsInRange id (bindsNumbers (ascii "in a int, in b int") 2).1
      (bindsNumbers (ascii "in a int, in b int") 2).2 .start :=
  (subscripts_in_range_iff rfl (givesText_value (by decide) (ascii "in a int, in b int"))).mpr
    ⟨by decide, fun _ => .inl (by decide)⟩

/-- Eleven values are written to the ten parameters. -/
theorem eleven_values_overrun :
    ¬ SubscriptsInRange id (bindsNumbers [] 11).1 (bindsNumbers [] 11).2 .start := by
  intro h
  obtain ⟨t, hoverrun⟩ := @bindValues_overrun (some (List.replicate 11 (.int 0))) 11 (by decide)
    (by decide) .zero
  exact h.bind _ (yields_ok rfl) t hoverrun

end Subscripts

end PetsServer

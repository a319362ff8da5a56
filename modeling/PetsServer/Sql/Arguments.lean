import PetsServer.Sql.Binding
import PetsServer.Sql.Sent
import PetsServer.Sql.Written

/-!
# Wrong arguments

The values of a call come with the task, the types of its parameters from the server. Nothing
compares them: `any_cast` throws where they differ. `wrong_argument_not_clean` says that a call that
lacks a value for a parameter never fails as it should.
-/

namespace PetsServer

open Foundations OnWorld

/-! ## From the signature to the texts -/

section Plan

variable {paramList : List Byte → List Byte} {env : CallEnv} {pack : SqlPack} {reply : SqlReply}
  {s : Signature} {w t : SqlWorld}

/-- The values that a call binds to the parameters. -/
def boundValues (env : CallEnv) (pack : SqlPack) : List AnyValue :=
  ((pack.anyArr.map env.anyArr).getD []).take pack.paramNums.toNat

theorem isAccepted_of_rowSignature {row : Row} (h : rowSignature row = .ok (0, s)) :
    s.IsAccepted := by
  match row with
  | [] | none :: _ => cases h
  | some text :: _ =>
    refine ⟨text, ?_⟩
    unfold rowSignature at h
    unfold Yields signatureParts
    cases hrun : (parseParts .direction (streamParts ((cString text).map toLower))).run .zero with
    | ok code s' =>
      simp only [hrun, Except.ok.injEq, Prod.mk.injEq] at h
      obtain ⟨rfl, rfl⟩ := h
      rfl
    | error fault s' =>
      simp only [hrun] at h
      cases h

theorem isAccepted_of_prepared (h : prepared reply = .ok (0, s)) : s.IsAccepted := by
  unfold prepared at h
  split at h
  · cases h
  split at h
  · cases h
  split at h
  · cases h
  split at h
  · cases h
  split at h
  · cases h
  · exact isAccepted_of_rowSignature h

/-- After `Prepare` has accepted a signature, the texts of the plan depend on the values. -/
theorem texts_callPlan (hzero : w.helper.toSignature = .zero)
    (h : Yields (prepare paramList pack.sentence env.replies.paramList) w (.ok 0) t) :
    t.helper.toSignature.IsAccepted ∧
      (callPlan paramList env pack).texts = (bindPlan env pack t.helper.toSignature).texts := by
  by_cases hfits : (paramList (cString pack.sentence)).length < 1024
  swap
  · cases (h.unique (yields_prepare_of_not_fits w _ _ hfits)).1
  obtain ⟨args, s, log, r, -, hprepare, hr, hs⟩ :=
    @yields_prepare paramList pack.sentence env.replies.paramList w hzero hfits
  obtain ⟨rfl, rfl⟩ := h.unique hprepare
  cases hprepared : prepared env.replies.paramList with
  | error fault =>
    rw [hprepared] at hr
    cases hr
  | ok result =>
    obtain ⟨code, s'⟩ := result
    rw [hprepared] at hr
    obtain rfl : 0 = code := Except.ok.inj hr
    obtain rfl := hs 0 s' hprepared
    refine ⟨isAccepted_of_prepared hprepared, ?_⟩
    rw [callPlan, if_pos hfits]
    change (preparedPlan env pack).texts = (bindPlan env pack s).texts
    simp [preparedPlan, hprepared]

/-- The values are bound, or a fault ends the plan. -/
theorem texts_bindPlan (s : Signature) :
    (∃ fault, (bindPlan env pack s).texts = .error fault) ∨ bindPlan env pack s =
      textsPlan env (cString pack.sentence) (s.bind (boundValues env pack)) := by
  rcases bindValues_cases (pack.anyArr.map env.anyArr) pack.paramNums.toNat s with
    ⟨-, -, hbind⟩ | ⟨fault, t, hbind, -⟩
  · simp only [Yields] at hbind
    exact .inr (by rw [bindPlan, hbind, boundValues])
  · simp only [Yields] at hbind
    exact .inl ⟨fault, by rw [bindPlan, hbind]⟩

theorem known_bind (hs : s.IsAccepted) (values : List AnyValue) :
    ∀ p ∈ (s.bind values).declared, p.type.Known := by
  obtain ⟨params, begun, hlists, htypes⟩ := hs.lists
  rw [s.declared_bind, hlists.declared]
  exact known_bindParams htypes values

end Plan

/-! ## Wrong values -/

/-- The value of a parameter has the type that is read from it. -/
def SqlParam.HasValue (param : SqlParam) : Prop :=
  match param.type, param.bindValue with
  | .long, .int _ | .longlong, .int64 _ | .string, .charPtr _ | .blob, .voidPtr _ => True
  | _, _ => False

/-- `ExecuteProcedure` returns false in `t`, has sent nothing but the question for the signature,
has not called back, and has cleared the helper. -/
structure FailsCleanly (paramList : List Byte → List Byte) (env : CallEnv) (pack : SqlPack)
    (w t : SqlWorld) : Prop where
  returns : Yields (executeProcedure paramList env pack) w (.ok false) t
  sent : queries t.log = queries w.log ++ [cString (paramList (cString pack.sentence))]
  quiet : t.log.count .callBack = w.log.count .callBack
  cleared : t.helper.toSignature = .zero ∧ t.helper.strProc = [] ∧ t.helper.strArgs = []

theorem valueFault_of_not_hasValue {param : SqlParam} (hknown : param.type.Known)
    (h : ¬ param.HasValue) : param.valueFault = some .badAnyCast := by
  obtain ⟨direction, type, lens, value⟩ := param
  cases type with
  | decimal | errtype => cases hknown
  | long | longlong | string | blob =>
    cases value <;> first | rfl | exact absurd trivial h

section Call

variable {paramList : List Byte → List Byte} {env : CallEnv} {pack : SqlPack} {w t : SqlWorld}

theorem ExecuteEnds.eq_error {plan : CallPlan} {replies : CallReplies} {noReturn : Int32}
    {res res' : Option ResId} {n : ℕ} {r : Except Fault Int32} {log : List SqlEvent}
    {fault : Fault} (h : ExecuteEnds plan replies noReturn res n r log res')
    (hplan : plan.texts = .error fault) : r = .error fault := by
  cases h with
  | fault fault' rest hplan' =>
    rw [Except.error.inj (hplan'.symm.trans hplan)]
  | refused code rest hcode hplan' => cases hplan.symm.trans hplan'
  | called t rest log r res' hplan' => cases hplan.symm.trans hplan'

/-- A parameter that lacks a value ends the plan with a fault. -/
theorem texts_callPlan_of_not_hasValue (hzero : w.helper.toSignature = .zero)
    (hprepare : Yields (prepare paramList pack.sentence env.replies.paramList) w (.ok 0) t)
    {param : SqlParam}
    (hparam : param ∈ bindParams t.helper.declared (boundValues env pack))
    (hdirection : param.direction ≠ .vOut) (hvalue : ¬ param.HasValue) :
    ∃ fault, (callPlan paramList env pack).texts = .error fault := by
  obtain ⟨haccepted, htexts⟩ := texts_callPlan hzero hprepare
  rw [htexts]
  rcases @texts_bindPlan env pack t.helper.toSignature with hfault | hbind
  · exact hfault
  have hknown := known_bind haccepted (boundValues env pack)
  rw [← t.helper.toSignature.declared_bind] at hparam
  have hfault : param.fault ≠ none := by
    rw [SqlParam.fault, if_neg hdirection, valueFault_of_not_hasValue (hknown param hparam) hvalue]
    exact Option.some_ne_none _
  have hfirst : firstFault (t.helper.bind (boundValues env pack)).declared ≠ none := by
    intro hnone
    exact hfault (List.findSome?_eq_none_iff.mp hnone param hparam)
  rw [hbind]
  obtain ⟨r, b, hbuild⟩ := exists_yields (buildTexts env.garbage (cString pack.sentence)
    (t.helper.bind (boundValues env pack)).declared) (List.replicate prepareBufferSize 0)
  rcases buildTexts_cases hknown List.length_replicate hbuild with ⟨hnone, -⟩ | ⟨fault, rfl, -⟩
  · exact absurd hnone hfirst
  · exact ⟨fault, by rw [textsPlan_of_error hbuild]⟩

/-- **A wrong argument is a fault.** -/
theorem executeProcedure_of_not_hasValue (hready : w.Ready)
    (hprepare : Yields (prepare paramList pack.sentence env.replies.paramList) w (.ok 0) t)
    {param : SqlParam}
    (hparam : param ∈ bindParams t.helper.declared (boundValues env pack))
    (hdirection : param.direction ≠ .vOut) (hvalue : ¬ param.HasValue) :
    ∃ fault u, Yields (executeProcedure paramList env pack) w (.error fault) u := by
  obtain ⟨fault, hplan⟩ := texts_callPlan_of_not_hasValue hready.zero hprepare hparam hdirection
    hvalue
  obtain ⟨r, u, hrun⟩ := exists_yields (executeProcedure paramList env pack) w
  obtain ⟨log, -, -, code, first, last, hends, -, rfl, -⟩ := executeProcedure_cases hready hrun
  obtain rfl := hends.eq_error hplan
  exact ⟨fault, u, hrun⟩

/-- **A wrong argument never fails cleanly**: for any signature that `Prepare` accepts and any
values, if a parameter that is passed in lacks a value of its type. -/
theorem wrong_argument_not_clean (hready : w.Ready)
    (hprepare : Yields (prepare paramList pack.sentence env.replies.paramList) w (.ok 0) t)
    {param : SqlParam}
    (hparam : param ∈ bindParams t.helper.declared (boundValues env pack))
    (hdirection : param.direction ≠ .vOut) (hvalue : ¬ param.HasValue) :
    ¬ ∃ u, FailsCleanly paramList env pack w u := by
  rintro ⟨u, h⟩
  obtain ⟨fault, v, hfault⟩ := executeProcedure_of_not_hasValue hready hprepare hparam hdirection
    hvalue
  cases (h.returns.unique hfault).1

/-- A call of a procedure with the signature `in a int` that passes these values. -/
def passesInt (values : List AnyValue) : CallEnv × SqlPack :=
  ({ CallEnv.noParameters .done with
      replies := ⟨.value (ascii "in a int"), .done, .done, .done⟩, anyArr := fun _ => values },
    ⟨.procedure, ascii "f", some 0, 0, UInt8.ofNat values.length⟩)

theorem prepare_passesInt (values : List AnyValue) :
    ∃ t, Yields (prepare id (passesInt values).2.sentence (passesInt values).1.replies.paramList)
      .start (.ok 0) t ∧ t.helper.toSignature = .single .vIn .long 0 := by
  have hfits : (id (cString (ascii "f"))).length < 1024 := by decide
  exact prepare_of_lists rfl (givesText_value hfits (ascii "in a int"))
    (Signature.lists_single .vIn .long 0) (by decide) rfl

theorem wrong_argument_not_clean_empty :
    ¬ ∃ u, FailsCleanly id (passesInt []).1 (passesInt []).2 .start u := by
  obtain ⟨t, hprepare, ht⟩ := prepare_passesInt []
  have hparam : (⟨.vIn, .long, 0, .empty⟩ : SqlParam) ∈ bindParams t.helper.declared
      (boundValues (passesInt []).1 (passesInt []).2) := by
    rw [ht]
    exact List.mem_cons_self
  exact wrong_argument_not_clean SqlWorld.ready_start hprepare hparam nofun fun h => h

/-- A 64-bit integer for `in a int`. -/
theorem bigint_for_int_not_clean : SqlParam.fault ⟨.vIn, .long, 0, .int64 7⟩ = some .badAnyCast ∧
    (∃ fault u, Yields (executeProcedure id (passesInt [.int64 7]).1 (passesInt [.int64 7]).2)
      .start (.error fault) u) ∧
    ¬ ∃ u, FailsCleanly id (passesInt [.int64 7]).1 (passesInt [.int64 7]).2 .start u := by
  obtain ⟨t, hprepare, ht⟩ := prepare_passesInt [.int64 7]
  have hparam : (⟨.vIn, .long, 0, .int64 7⟩ : SqlParam) ∈ bindParams t.helper.declared
      (boundValues (passesInt [.int64 7]).1 (passesInt [.int64 7]).2) := by
    rw [ht]
    exact List.mem_cons_self
  obtain ⟨fault, v, hfault⟩ := executeProcedure_of_not_hasValue SqlWorld.ready_start hprepare hparam
    nofun fun h => h
  refine ⟨rfl, ⟨fault, v, hfault⟩, fun ⟨u, h⟩ => ?_⟩
  cases (h.returns.unique hfault).1

end Call

end PetsServer

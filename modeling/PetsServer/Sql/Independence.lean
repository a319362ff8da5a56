import PetsServer.Sql.Accepted
import PetsServer.Sql.Sent
import PetsServer.Sql.Session

/-!
# Calls do not leak into each other

The static helper and `PrepareBuffer` live on from one call of a procedure to the next.
`procedure_calls_independent` compares a call after any session with the same call on a new helper
and a block of zeros: both make the same of the signature and send the same texts.
-/

namespace PetsServer

open Foundations OnWorld

/-! ## The plans of two calls -/

variable {paramList : List Byte → List Byte} {env env' : CallEnv} {pack : SqlPack}

/-- What `sprintf` makes of a `std::string` does not matter without such a parameter. -/
theorem textsPlan_congr (hreplies : env.replies = env'.replies) (strProc : List Byte)
    (s : Signature) (hinout : ∀ p ∈ s.declared, p.direction = .vInout → p.type = .blob) :
    textsPlan env strProc s = textsPlan env' strProc s := by
  obtain ⟨r, b, hx⟩ := exists_yields (buildTexts env.garbage strProc s.declared)
    (List.replicate prepareBufferSize (0 : Byte))
  obtain ⟨b', hx', hagree⟩ := coupled_buildTexts strProc s.declared
    (fun j hj hdir htype => absurd (hinout _ (List.getElem_mem hj) hdir) htype) _
    (List.replicate prepareBufferSize (0 : Byte)) r b rfl hx
  rcases r with fault | _ | t
  · rw [textsPlan_of_error hx, textsPlan_of_error hx']
  · rw [textsPlan_of_none hx, textsPlan_of_none hx']
  · have htake := (agreeOn_some.mp (hagree _ rfl)).2
    rw [textsPlan_of_some hx, textsPlan_of_some hx', setPlan, setPlan, hreplies, htake]

/-- The parameters are declared in the same way. -/
def Signature.SameDeclared (s t : Signature) : Prop :=
  t.declared.map (fun p => (p.direction, p.type)) = s.declared.map fun p => (p.direction, p.type)

instance : Std.Refl Signature.SameDeclared := ⟨fun _ => rfl⟩

instance : IsTrans Signature Signature.SameDeclared := ⟨fun _ _ _ h h' => h'.trans h⟩

theorem moves_updateParam {f : SqlParam → SqlParam} (i : ℕ)
    (h : ∀ p, (f p).direction = p.direction ∧ (f p).type = p.type) :
    Moves Signature.SameDeclared (updateParam i f) := by
  intro s r t hx
  by_cases hi : i < maxParamCount
  · obtain ⟨-, rfl⟩ := hx.unique (yields_updateParam hi f s)
    refine List.ext_getElem (by simp [Signature.declared]) fun j hj hj' => ?_
    simp only [Signature.declared, List.getElem_map, List.getElem_take, Vector.getElem_toList,
      Vector.getElem_set]
    split
    · subst i
      exact Prod.ext (h _).1 (h _).2
    · rfl
  · obtain ⟨-, rfl⟩ := hx.unique (yields_updateParam_of_not_lt hi f s)
    exact Std.Refl.refl _

/-- To bind values leaves the declarations alone. -/
theorem moves_bindValues (anyArr : Option (List AnyValue)) (paramNums : ℕ) :
    Moves Signature.SameDeclared (bindValues anyArr paramNums) := by
  refine moves_forM fun i _ => ?_
  unfold bindValue
  split
  · split
    · exact moves_throw _
    · split
      · exact moves_throw _
      · exact moves_updateParam i fun p => ⟨rfl, rfl⟩
  · exact moves_throw _

theorem Signature.SameDeclared.inout {s t : Signature} (h : s.SameDeclared t)
    (hinout : ∀ p ∈ s.declared, p.direction = .vInout → p.type = .blob) :
    ∀ p ∈ t.declared, p.direction = .vInout → p.type = .blob := by
  intro p hp hdir
  obtain ⟨q, hq, heq⟩ := List.mem_map.mp (h ▸ List.mem_map_of_mem hp)
  obtain ⟨hdir', htype⟩ := Prod.mk.inj heq
  exact htype ▸ hinout q hq (hdir' ▸ hdir)

theorem callPlan_congr (hreplies : env.replies = env'.replies) (harr : env.anyArr = env'.anyArr)
    (hinout : ∀ s, prepared env.replies.paramList = .ok (0, s) →
      ∀ p ∈ s.declared, p.direction = .vInout → p.type = .blob) :
    callPlan paramList env pack = callPlan paramList env' pack := by
  have hbind : ∀ s, prepared env.replies.paramList = .ok (0, s) →
      bindPlan env pack s = bindPlan env' pack s := by
    intro s hs
    obtain ⟨r, t, hx⟩ := exists_yields
      (bindValues (pack.anyArr.map env.anyArr) pack.paramNums.toNat) s
    have hsame := moves_bindValues _ _ _ _ _ hx
    unfold bindPlan
    rw [← harr]
    cases r with
    | error fault =>
      simp only [Yields] at hx
      rw [hx]
    | ok _ =>
      simp only [Yields] at hx
      rw [hx]
      exact textsPlan_congr hreplies _ t (hsame.inout (hinout s hs))
  have hprepared : preparedPlan env pack = preparedPlan env' pack := by
    unfold preparedPlan
    rw [← hreplies]
    cases hs : prepared env.replies.paramList with
    | error fault => rfl
    | ok result =>
      obtain ⟨code, s⟩ := result
      by_cases hcode : code = 0
      · simp only [hcode, ne_eq, not_true_eq_false, if_false]
        exact hbind s (hcode ▸ hs)
      · simp [hcode]
  rw [callPlan, callPlan, hprepared]

/-! ## Two calls -/

/-- Two calls, in two worlds, make the same of the signature and send the same texts. -/
structure CallsAlike (paramList : List Byte → List Byte) (pack : SqlPack) (env env' : CallEnv)
    (w w' : SqlWorld) : Prop where
  signature : ∀ r t r' t', Yields (prepare paramList pack.sentence env.replies.paramList) w r t →
    Yields (prepare paramList pack.sentence env'.replies.paramList) w' r' t' →
    r = r' ∧ (r.isOk = true → t.helper.toSignature = t'.helper.toSignature)
  texts : ∀ r t r' t', Yields (executeProcedure paramList env pack) w r t →
    Yields (executeProcedure paramList env' pack) w' r' t' →
    ∃ log log', t.log = w.log ++ log ∧ t'.log = w'.log ++ log' ∧ queries log = queries log'

/-- `Prepare` makes the same of the signature in all worlds in which it is empty. -/
theorem prepare_alike {w w' t t' : SqlWorld} {procName : List Byte} {reply : SqlReply}
    {r r' : Except Fault Int32} (hzero : w.helper.toSignature = .zero)
    (hzero' : w'.helper.toSignature = .zero) (h : Yields (prepare paramList procName reply) w r t)
    (h' : Yields (prepare paramList procName reply) w' r' t') :
    r = r' ∧ (r.isOk = true → t.helper.toSignature = t'.helper.toSignature) := by
  by_cases hfits : (paramList (cString procName)).length < 1024
  · obtain ⟨args, s, log, p, -, hprepare, hp, hs⟩ := @yields_prepare _ _ reply w hzero hfits
    obtain ⟨args', s', log', p', -, hprepare', hp', hs'⟩ :=
      @yields_prepare _ _ reply w' hzero' hfits
    obtain ⟨rfl, rfl⟩ := h.unique hprepare
    obtain ⟨rfl, rfl⟩ := h'.unique hprepare'
    refine ⟨hp.trans hp'.symm, fun hok => ?_⟩
    cases hplan : prepared reply with
    | error fault =>
      rw [hp, hplan] at hok
      cases hok
    | ok result => exact (hs result.1 result.2 hplan).trans (hs' result.1 result.2 hplan).symm
  · obtain ⟨rfl, -⟩ := h.unique (yields_prepare_of_not_fits w _ _ hfits)
    obtain ⟨rfl, -⟩ := h'.unique (yields_prepare_of_not_fits w' _ _ hfits)
    exact ⟨rfl, fun hok => by cases hok⟩

/-- Two calls with one plan send the same texts. -/
theorem texts_alike {w w' t t' : SqlWorld} {r r' : Except Fault Bool} (hready : w.Ready)
    (hready' : w'.Ready) (hreplies : env.replies = env'.replies)
    (hplan : callPlan paramList env pack = callPlan paramList env' pack)
    (h : Yields (executeProcedure paramList env pack) w r t)
    (h' : Yields (executeProcedure paramList env' pack) w' r' t') :
    ∃ log log', t.log = w.log ++ log ∧ t'.log = w'.log ++ log' ∧ queries log = queries log' := by
  obtain ⟨log, hlog, -, hends⟩ := executeProcedure_cases hready h
  obtain ⟨log', hlog', -, hends'⟩ := executeProcedure_cases hready' h'
  refine ⟨log, log', hlog, hlog', ?_⟩
  rw [hends.queries, hends'.queries, hplan, hreplies]

/-- **Calls do not leak into each other.** After any session in which all calls have returned, a
call makes the same of the signature and sends the same texts as on a new helper and a block of
zeros, when the task, its values and the replies of the server are the same. What `sprintf` makes of
a `std::string` can differ, if there is no such parameter. -/
theorem procedure_calls_independent {acts : List SqlCall} {s : SqlSession}
    (h : run (sessionStep paramList) .start acts = some s) (hrunning : s.running = true)
    (hreplies : env.replies = env'.replies) (harr : env.anyArr = env'.anyArr)
    (hinout : ∀ u, Yields (prepare paramList pack.sentence env.replies.paramList) .start (.ok 0) u →
      ∀ p ∈ u.helper.declared, p.direction = .vInout → p.type = .blob) :
    CallsAlike paramList pack env env' s.world .start := by
  have hsound : s.Sound := run_invariant _ (fun _ _ _ hs h => hs.step h) SqlSession.sound_start h
  have hready := hsound.ready hrunning
  have hplan : callPlan paramList env pack = callPlan paramList env' pack := by
    by_cases hfits : (paramList (cString pack.sentence)).length < 1024
    · refine callPlan_congr hreplies harr fun t ht => ?_
      obtain ⟨args, t', log, r, -, hprepare, hr, ht'⟩ := @yields_prepare paramList pack.sentence
        env.replies.paramList .start rfl hfits
      rw [ht] at hr
      subst hr
      rw [← ht' 0 t ht]
      exact hinout _ hprepare
    · rw [callPlan, callPlan, if_neg hfits, if_neg hfits]
  refine ⟨fun r t r' t' ht ht' => ?_, fun r t r' t' ht ht' => ?_⟩
  · rw [← hreplies] at ht'
    exact prepare_alike hready.zero rfl ht ht'
  · exact texts_alike hready SqlWorld.ready_start hreplies hplan ht ht'

/-- A call with a blob of two bytes and an output; in each place where `sprintf` is given a
`std::string`, it prints the text. -/
def blobCall (printed : List Byte) : CallEnv where
  replies := ⟨.value (ascii "in b blob(2), out o int"), .done, .done, .value (ascii "7")⟩
  anyArr _ := [.voidPtr [1, 2]]
  garbage _ := printed
  noReturn := 0
  fetches := 1

theorem procedure_calls_independent_after_value : ∃ s,
    run (sessionStep id) .start [.procedure (.noParameters (.value (ascii "7")))
      ⟨.procedure, ascii "f", none, 0, 0⟩] = some s ∧
    CallsAlike id ⟨.procedure, ascii "g", some 0, 1, 0⟩ (blobCall []) (blobCall (ascii "7"))
      s.world .start := by
  refine ⟨_, rfl, @procedure_calls_independent _ _ _ _ [.procedure
    (.noParameters (.value (ascii "7"))) ⟨.procedure, ascii "f", none, 0, 0⟩] _ rfl rfl rfl rfl ?_⟩
  intro u hu p hp
  have htext : textDeclarations (ascii "in b blob(2), out o int") =
      [⟨.vIn, some (ascii "blob(2),")⟩, ⟨.vOut, some (ascii "int")⟩] := by decide
  have hlisted : listed (textDeclarations (ascii "in b blob(2), out o int")) =
      [⟨.vIn, .blob, 2, .empty⟩, ⟨.vOut, .long, 0, .empty⟩] := by
    rw [htext]
    rfl
  have hstop : stop (textDeclarations (ascii "in b blob(2), out o int")) = none := by
    rw [htext]
    rfl
  obtain ⟨t, hprepare, hlists⟩ := @yields_prepare_of_stop_none id (ascii "g") _ _ .start rfl
    (givesText_value (by decide) (ascii "in b blob(2), out o int")) (by rw [htext]; decide) hstop
  obtain ⟨-, rfl⟩ := hu.unique hprepare
  rw [hlists.declared, hlisted] at hp
  intro hinout
  rcases List.mem_pair.mp hp with rfl | rfl <;> cases hinout

end PetsServer

import PetsServer.Sql.Outcome

/-!
# What a call sends

The statements of a call are those of its plan.
-/

namespace PetsServer

open Foundations OnWorld

/-- The texts that a call sends, by its plan. -/
def CallPlan.queries (plan : CallPlan) (replies : CallReplies) : List (List Byte) :=
  plan.sent ++
    match plan.texts with
    | .ok (some t) => cString t.pecedureCall ::
        if replies.call.code = 0 ∧ t.strSelect ≠ [] then [cString t.strSelect] else []
    | .ok none | .error _ => []

theorem queries_append_quiet {xs ys : List SqlEvent} (h : ∀ event ∈ ys, event.quiet = true) :
    queries (xs ++ ys) = queries xs := by
  rw [queries_append, queries_of_quiet h, List.append_nil]

theorem quiet_callEvents {res : Option ResId} {reads : List SqlEvent} (hreads : Reads res reads) :
    ∀ event ∈ reads ++ frees res, event.quiet = true :=
  List.forall_mem_append.mpr ⟨fun _ => hreads.quiet, fun _ => quiet_of_mem_frees⟩

theorem Finishes.quiet {res : Option ResId} {code : Except Fault Int32} {log : List SqlEvent}
    (h : Finishes res code log) :
    ∀ event ∈ log, event.quiet = true := by
  obtain ⟨reads, tail, rfl, hreads, htail⟩ := h.reads
  refine List.forall_mem_append.mpr ⟨fun _ => hreads.quiet, ?_⟩
  rcases htail with rfl | rfl
  · exact fun _ hmem => by cases hmem
  · exact fun _ => quiet_of_mem_frees

theorem queries_callEvents (sql : List Byte) (sets : ℕ) {res : Option ResId}
    {reads : List SqlEvent} (h : Reads res reads) :
    queries (callEvents sql sets res reads) = [sql] :=
  congrArg (List.cons sql) (show queries (reads ++ frees res) = [] from
    queries_of_quiet (quiet_callEvents h))

/-- **`Execute` sends the texts of its plan.** -/
theorem ExecuteEnds.queries {plan : CallPlan} {replies : CallReplies} {noReturn : Int32}
    {res res' : Option ResId}
    {n : ℕ} {r : Except Fault Int32} {log : List SqlEvent}
    (h : ExecuteEnds plan replies noReturn res n r log res') :
    queries log = plan.queries replies := by
  cases h with
  | fault fault rest hplan hrest => simp [CallPlan.queries, hplan, hrest.queries]
  | refused code rest hcode hplan hrest => simp [CallPlan.queries, hplan, hrest.queries]
  | called t rest log r res' hplan hrest hcall =>
    rw [queries_append, hrest.queries, CallPlan.queries, hplan]
    refine congrArg (plan.sent ++ ·) ?_
    cases hcall with
    | callFailed hcode => simp [PetsServer.queries, hcode]
    | noOutputs reads hcode houtputs hreads => simp [queries_callEvents _ _ hreads, houtputs]
    | selectFailed reads hcode houtputs hreads hselect =>
      rw [queries_append, queries_callEvents _ _ hreads]
      simp [PetsServer.queries, hcode, houtputs]
    | selected r called reads reads' hcode houtputs hreads hselect hcalled hreads' hresult =>
      subst hcalled
      rw [queries_append, queries_callEvents _ _ hreads]
      have hreads'' : PetsServer.queries reads' = [] := queries_of_quiet fun _ => hreads'.quiet
      simp only [hcode, houtputs, ne_eq, not_false_eq_true, and_self, if_true]
      exact congrArg (fun sqls => [_, _] ++ sqls) hreads''

/-- **A call sends the texts of its plan.** -/
theorem ProcedureEnds.queries {plan : CallPlan} {replies : CallReplies} {noReturn : Int32}
    {res res' : Option ResId}
    {n : ℕ} {r : Except Fault Bool} {log : List SqlEvent}
    (h : ProcedureEnds plan replies noReturn res n r log res') :
    queries log = plan.queries replies := by
  obtain ⟨code, first, last, hends, hfinish, rfl, rfl⟩ := h
  rw [queries_append_quiet hfinish.quiet, hends.queries]

end PetsServer

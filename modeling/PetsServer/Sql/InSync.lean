import PetsServer.Sql.Sent
import PetsServer.Sql.Session

/-!
# Statements in their place

No statement may be sent while results of the one before are not read. `in_sync_iff` says for which
lists of calls that is so.
-/

namespace PetsServer

open Foundations OnWorld

variable {plan : CallPlan} {replies : CallReplies} {noReturn : Int32} {res res' : Option ResId}
  {n : ℕ} {r : Except Fault Bool} {log : List SqlEvent}

theorem inSync_append_quiet {k : ℕ} {xs ys : List SqlEvent}
    (h : ∀ event ∈ ys, event.quiet = true) : InSync k (xs ++ ys) ↔ InSync k xs := by
  rw [inSync_append]
  exact and_iff_left (inSync_of_quiet h _)

variable {paramList : List Byte → List Byte} {s t : SqlSession} {call : SqlCall}

section CallEvents

variable {reads : List SqlEvent} (sql : List Byte) (sets : ℕ)

theorem inSync_callEvents {k : ℕ} (hreads : Reads res reads) :
    InSync k (callEvents sql sets res reads) ↔ k = 0 :=
  and_iff_left (inSync_of_quiet (quiet_callEvents hreads) _)

/-- The result sets after the first are not read. -/
theorem pending_callEvents (hreads : Reads res reads) :
    pending 0 (callEvents sql sets res reads) = sets := by
  rw [callEvents, pending, pending, pending_of_quiet (quiet_callEvents hreads)]
  omega

end CallEvents

theorem StatementEnds.inSync_iff {sql : List Byte} {reply : CallReply} {k : ℕ}
    (h : StatementEnds sql reply n log) : InSync k log ↔ k = 0 := by
  rcases h with ⟨-, rfl⟩ | ⟨-, reads, hreads, rfl⟩
  · exact and_iff_left trivial
  · exact inSync_callEvents _ _ hreads

theorem StatementEnds.pending_eq_zero_iff {sql : List Byte} {reply : CallReply} {k : ℕ}
    (h : StatementEnds sql reply n log) (hsync : InSync k log) :
    pending k log = 0 ↔ k = 0 ∧ (reply.code = 0 → reply.sets = 0) := by
  obtain rfl : k = 0 := h.inSync_iff.mp hsync
  rw [and_iff_right rfl]
  rcases h with ⟨hcode, rfl⟩ | ⟨hcode, reads, hreads, rfl⟩
  · exact iff_of_true rfl fun hzero => absurd hzero hcode
  · rw [pending_callEvents _ _ hreads, forall_prop_of_true hcode]

/-- **When a call is in its place**: `k` results are not read before it. -/
theorem ProcedureEnds.inSync_iff {k : ℕ} (h : ProcedureEnds plan replies noReturn res n r log res')
    (hsent : plan.sent = [] → ∃ fault, plan.texts = .error fault) :
    InSync k log ↔ (plan.sent = [] ∨ k = 0) ∧ ∀ t, plan.texts = .ok (some t) →
      replies.call.code = 0 → t.strSelect ≠ [] → replies.call.sets = 0 := by
  obtain ⟨code, first, last, hends, hfinish, rfl, rfl⟩ := h
  rw [inSync_append_quiet hfinish.quiet]
  cases hends with
  | fault fault rest hplan hrest =>
    rw [← List.append_nil first, hrest.inSync_append]
    simp [InSync, hplan]
  | refused code rest hcode hplan hrest =>
    rw [← List.append_nil first, hrest.inSync_append]
    simp [InSync, hplan]
  | called t rest log r res' hplan hrest hcall =>
    rw [hrest.inSync_append]
    refine and_congr_right fun hzero => ?_
    obtain rfl : k = 0 := hzero.resolve_left fun hnil => by
      obtain ⟨fault, herror⟩ := hsent hnil
      rw [hplan] at herror
      cases herror
    cases hcall with
    | callFailed hcode => simp [InSync, hplan, hcode]
    | noOutputs reads hcode houtputs hreads =>
      simp [inSync_callEvents _ _ hreads, hplan, houtputs]
    | selectFailed reads hcode houtputs hreads hselect =>
      rw [inSync_append, inSync_callEvents _ _ hreads, pending_callEvents _ _ hreads]
      simp [InSync, hplan, hcode, houtputs]
    | selected r called reads reads' hcode houtputs hreads hselect hcalled hreads' hresult =>
      subst hcalled
      rw [inSync_append, inSync_callEvents _ _ hreads, pending_callEvents _ _ hreads]
      simp [InSync, hplan, hcode, houtputs, inSync_of_quiet fun _ => hreads'.quiet]

/-- A segment that is in its place leaves as many results as there were. -/
theorem Segment.pending_of_inSync {k : ℕ} {sqls : List (List Byte)} (h : Segment n log sqls)
    (hsync : InSync k log) : PetsServer.pending k log = k := by
  rcases h.starts with rfl | ⟨sql, results, rest, rfl⟩
  · rfl
  · obtain rfl : k = 0 := hsync.1
    exact h.pending

/-- **What a call leaves** when it is in its place: the results of its `CALL` after the first. -/
theorem ProcedureEnds.pending_eq_zero_iff {k : ℕ}
    (h : ProcedureEnds plan replies noReturn res n r log res') (hsync : InSync k log) :
    pending k log = 0 ↔ k = 0 ∧ ∀ t, plan.texts = .ok (some t) → replies.call.code = 0 →
      replies.call.sets = 0 := by
  obtain ⟨code, first, last, hends, hfinish, rfl, rfl⟩ := h
  rw [inSync_append_quiet hfinish.quiet] at hsync
  rw [pending_append, pending_of_quiet hfinish.quiet]
  cases hends with
  | fault fault rest hplan hrest => simp [hrest.pending_of_inSync hsync, hplan]
  | refused code rest hcode hplan hrest => simp [hrest.pending_of_inSync hsync, hplan]
  | called t rest log r res' hplan hrest hcall =>
    rw [inSync_append] at hsync
    obtain ⟨hfirst, hsync⟩ := hsync
    rw [pending_append, hrest.pending_of_inSync hfirst]
    rw [hrest.pending_of_inSync hfirst] at hsync
    cases hcall with
    | callFailed hcode =>
      obtain rfl : k = 0 := hsync.1
      simp [pending, hplan, hcode]
    | noOutputs reads hcode houtputs hreads =>
      obtain rfl := (inSync_callEvents _ _ hreads).mp hsync
      simp [pending_callEvents _ _ hreads, hplan, hcode]
    | selectFailed reads hcode houtputs hreads hselect =>
      rw [inSync_append, inSync_callEvents _ _ hreads] at hsync
      obtain ⟨rfl, hselected⟩ := hsync
      rw [pending_callEvents _ _ hreads] at hselected
      rw [pending_append, pending_callEvents _ _ hreads]
      simp [pending, hplan, hcode, hselected.1]
    | selected r called reads reads' hcode houtputs hreads hselect hcalled hreads' hresult =>
      subst hcalled
      rw [inSync_append, inSync_callEvents _ _ hreads] at hsync
      obtain ⟨rfl, hselected⟩ := hsync
      rw [pending_callEvents _ _ hreads] at hselected
      rw [pending_append, pending_callEvents _ _ hreads, pending, pending,
        pending_of_quiet fun _ => hreads'.quiet]
      simp [hplan, hcode, hselected.1]

/-- Without the statement that asks for the signature nothing is sent. -/
theorem callPlan_sent (env : CallEnv) (pack : SqlPack) :
    (callPlan paramList env pack).sent = [] ↔
      ¬ (paramList (cString pack.sentence)).length < 1024 := by
  unfold callPlan
  split <;> simp [*]

/-! ## The calls of a session -/

namespace SqlCall

/-- The call sends a statement. -/
def Sends (paramList : List Byte → List Byte) : SqlCall → Prop
  | procedure _ pack => (paramList (cString pack.sentence)).length < 1024
  | common _ _ _ | noResult _ _ => True
  | exit => False

/-- The statement of the call, or the `CALL` of a procedure that gets as far as that, returns no
result set that is not read, when it succeeds. -/
def LeavesNothing (paramList : List Byte → List Byte) : SqlCall → Prop
  | procedure env pack => ∀ t, (callPlan paramList env pack).texts = .ok (some t) →
    env.replies.call.code = 0 → env.replies.call.sets = 0
  | common _ reply _ | noResult _ reply => reply.code = 0 → reply.sets = 0
  | exit => True

/-- The `CALL` of a procedure returns no result set when it succeeds and a `SELECT` follows. -/
def SelectsInOrder (paramList : List Byte → List Byte) : SqlCall → Prop
  | procedure env pack => ∀ t, (callPlan paramList env pack).texts = .ok (some t) →
    env.replies.call.code = 0 → t.strSelect ≠ [] → env.replies.call.sets = 0
  | common _ _ _ | noResult _ _ | exit => True

/-- Only after the last call that sends a statement results are left, and none before a `SELECT`. -/
def InOrder (paramList : List Byte → List Byte) (calls : List SqlCall) : Prop :=
  calls.Pairwise (fun c d => d.Sends paramList → c.LeavesNothing paramList) ∧
    ∀ c ∈ calls, c.SelectsInOrder paramList

/-- One call more. -/
theorem inOrder_snoc {calls : List SqlCall} :
    InOrder paramList (calls ++ [call]) ↔ InOrder paramList calls ∧
      (call.Sends paramList → ∀ c ∈ calls, c.LeavesNothing paramList) ∧
        call.SelectsInOrder paramList := by
  simp only [InOrder, List.pairwise_append, List.pairwise_singleton, List.mem_append,
    List.mem_singleton, or_imp, forall_and, forall_eq, true_and]
  tauto

end SqlCall

/-- **The step lemma.** -/
theorem SqlSession.Sound.inSync_iff (hs : s.Sound) (h : sessionStep paramList s call = some t) :
    InSync 0 t.world.log ↔ InSync 0 s.world.log ∧
      (call.Sends paramList → pending 0 s.world.log = 0) ∧ call.SelectsInOrder paramList := by
  obtain ⟨hrunning, log, hlog, -, hends⟩ := sessionStep_cases hs.ready h
  rw [hlog, inSync_append]
  refine and_congr_right fun _ => ?_
  cases hends with
  | procedure env pack r log hends hok =>
    rw [hends.inSync_iff fun hnil => ?_, callPlan_sent, ← imp_iff_not_or]
    · rfl
    · exact ⟨_, congrArg CallPlan.texts (if_neg ((callPlan_sent env pack).mp hnil))⟩
  | common sql reply k log hends =>
    exact hends.inSync_iff.trans ((true_imp_iff.symm).trans (and_iff_left trivial).symm)
  | noResult sql reply log hends =>
    exact hends.inSync_iff.trans ((true_imp_iff.symm).trans (and_iff_left trivial).symm)
  | exit => exact iff_of_true (inSync_of_quiet (fun _ => quiet_of_mem_frees) _) ⟨nofun, trivial⟩

/-- What a call in its place leaves. -/
theorem SqlSession.Sound.pending_iff (hs : s.Sound) (h : sessionStep paramList s call = some t)
    (hsync : InSync 0 t.world.log) :
    pending 0 t.world.log = 0 ↔ pending 0 s.world.log = 0 ∧ call.LeavesNothing paramList := by
  obtain ⟨hrunning, log, hlog, -, hends⟩ := sessionStep_cases hs.ready h
  rw [hlog, inSync_append] at hsync
  rw [hlog, pending_append]
  cases hends with
  | procedure env pack r log hends hok => exact hends.pending_eq_zero_iff hsync.2
  | common sql reply k log hends => exact hends.pending_eq_zero_iff hsync.2
  | noResult sql reply log hends => exact hends.pending_eq_zero_iff hsync.2
  | exit =>
    rw [pending_of_quiet fun _ => quiet_of_mem_frees]
    exact (and_iff_left trivial).symm

/-- **The run lemma.** -/
theorem inSync_of_run {acts : List SqlCall}
    (h : run (sessionStep paramList) .start acts = some s) :
    (InSync 0 s.world.log ↔ SqlCall.InOrder paramList acts) ∧ (InSync 0 s.world.log →
      (pending 0 s.world.log = 0 ↔ ∀ c ∈ acts, c.LeavesNothing paramList)) := by
  have hsound : ∀ acts s, run (sessionStep paramList) .start acts = some s → s.Sound :=
    fun _ _ h => run_invariant SqlSession.Sound (fun _ _ _ hs ht => hs.step ht)
      SqlSession.sound_start h
  revert h
  refine run_induction (fun acts s => (InSync 0 s.world.log ↔ SqlCall.InOrder paramList acts) ∧
    (InSync 0 s.world.log → (pending 0 s.world.log = 0 ↔
      ∀ c ∈ acts, c.LeavesNothing paramList))) ?_ ?_ acts s
  · exact ⟨iff_of_true trivial ⟨.nil, nofun⟩, fun _ => iff_of_true rfl nofun⟩
  intro pre s call t hrun ⟨hsync, hpending⟩ ht
  have hs := hsound pre s hrun
  refine ⟨?_, fun hsync' => ?_⟩
  · rw [hs.inSync_iff ht, SqlCall.inOrder_snoc, ← hsync]
    refine and_congr_right fun hin => ?_
    rw [hpending hin]
  · rw [hs.pending_iff ht hsync', hpending ((hs.inSync_iff ht).mp hsync').1]
    simp [or_imp, forall_and]

/-- The program sends a plain statement, and last it calls a procedure that returns a result set. -/
def commitAndCall : List SqlCall :=
  [.noResult (ascii "commit") .done,
    .procedure (.noParameters (.value (ascii "7"))) ⟨.procedure, ascii "f", none, 0, 0⟩]

end PetsServer

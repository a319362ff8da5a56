import PetsServer.Server.Mirror

/-!
# The pointer to the player's object

`OnDispatchLoginMsg` calls `OnNetLoginMsg` through the packet's pointer to the player's object,
which `onMessage` takes from the connection's context. Since nothing ever puts an object into a
context (`Server.mirrors_of_run`), every packet in the queue carries null, and so the pointer is
null whenever the call is reached: `pet_nonnull_iff`.
-/

namespace PetsServer

open Foundations

/-- The pointers through which a handler calls `OnNetLoginMsg`: one, in the case of a login. -/
def CallBack.petCalls : Invoke CallBack (List (Option Pet))
  | cb, dnid, basemsg, pet => do
    let (reached, _) ← cb.enter dnid basemsg pet
    .ok (if reached = .login .login then [pet] else [])

/-- A handler that returns from the case of a login has made the call, and no other has. -/
theorem CallBack.petCalls_of_call {cb : CallBack} {dnid : Dnid} {msg : List Byte} {pet : Option Pet}
    {reached : SwitchCase} (h : cb.call dnid msg pet = .ok reached) :
    cb.petCalls dnid msg pet = .ok (if reached = .login .login then [pet] else []) := by
  simp only [petCalls, enter_of_call h]
  rfl

/-- The calls for a packet whose handler returns. -/
theorem dispatchPack_petCalls_of_call {pack : SPacket} {reached : SwitchCase}
    (h : (dispatchPack CallBack.call initServer.callBackMap pack).2 = .ok (some reached)) :
    (dispatchPack CallBack.petCalls initServer.callBackMap pack).2 =
      .ok (some (if reached = .login .login then [pack.context] else [])) := by
  rcases hbuf : pack.buffer with _ | _ | ⟨b, rest⟩
  · rw [dispatchPack, hbuf] at h
    cases h
  · rw [dispatchPack, hbuf] at h
    cases h
  · rw [dispatchPack_initServer _ hbuf] at h ⊢
    cases hcb : handlerOf b with
    | none =>
      rw [hcb] at h
      cases h
    | some cb =>
      rw [hcb] at h
      have hcall : cb.call pack.dnid (b :: rest) pack.context = .ok reached := by
        cases hr : cb.call pack.dnid (b :: rest) pack.context with
        | error fault =>
          simp only [hr] at h
          cases h
        | ok r =>
          simp only [hr] at h
          cases h
          rfl
      simp only [CallBack.petCalls_of_call hcall]
      rfl

/-- A packet that is handled leaves the callback map alone, whatever the map. -/
theorem dispatchPack_fst_of_ok {κ ρ : Type*} {invoke : Invoke κ ρ} {m : CallBackMap κ}
    {pack : SPacket} {r : Option ρ} (h : (dispatchPack invoke m pack).2 = .ok r) :
    (dispatchPack invoke m pack).1 = m := by
  unfold dispatchPack at h ⊢
  split at h
  · rfl
  · split at h
    · cases h
    · rename_i protocol _
      unfold CallBackMap.subscript at h ⊢
      cases hget : m[protocol.toUInt16]? with
      | none =>
        rw [hget] at h
        cases h
      | some cb =>
        rw [hget] at h
        cases cb with
        | none => cases h
        | some cb => rfl

namespace Server

/-! ## The invariant -/

/-- No packet in the queue carries a player's object, and the handlers are those that `InitServer`
has bound, as long as the process runs. -/
structure Anonymous (s : Server) : Prop where
  queued : ∀ q ∈ s.msgQueue, q.pack.context = none
  handlers : s.crashed = none → s.callBackMap = initServer.callBackMap

theorem anonymous_start : Anonymous start :=
  ⟨fun _ h => absurd h List.not_mem_nil, fun _ => rfl⟩

theorem crashed_eq_none_of_step {s t : Server} {a : ServerAction} (h : serverStep s a = some t) :
    s.crashed = none := by
  unfold serverStep at h
  split at h
  · cases h
  · assumption

/-- **The step lemma**: a packet carries what the context of its connection holds, a number. -/
theorem Anonymous.step {s t : Server} {a : ServerAction} (hs : s.Anonymous) (hm : s.Mirrors)
    (h : serverStep s a = some t) : t.Anonymous := by
  have hrunning := crashed_eq_none_of_step h
  cases serverStep_cases h with
  | up c pre r _ _ _ => exact ⟨hs.queued, hs.handlers⟩
  | down c est buf hup =>
    obtain ⟨pets, heq⟩ := s.onConnectionDown_spec c est
    rw [heq]
    exact ⟨hs.queued, hs.handlers⟩
  | recv c est buf chunk hup =>
    obtain ⟨buf', heq⟩ := s.onMessage_spec c est buf chunk
    have hpet : est.pet = none := by
      rw [hm.context c est buf hup]
      rfl
    rw [heq]
    refine ⟨fun q hq => ?_, hs.handlers⟩
    rcases List.mem_append.mp hq with hq | hq
    · exact hs.queued q hq
    · obtain ⟨body, -, rfl⟩ := List.mem_map.mp hq
      exact hpet
  | dispatch q queue hq =>
    have hqueued : ∀ p ∈ queue, p.pack.context = none := fun p hp =>
      hs.queued p (hq ▸ List.mem_cons_of_mem _ hp)
    unfold dispatchMsg
    simp only
    split
    · rename_i r hr
      refine ⟨hqueued, fun _ => ?_⟩
      rw [← hs.handlers hrunning]
      exact dispatchPack_fst_of_ok hr
    · exact ⟨hqueued, fun hcrash => absurd hcrash (Option.some_ne_none _)⟩
  | petsRun => exact ⟨hs.queued, hs.handlers⟩

/-- **The run lemma.** -/
theorem anonymous_of_run {acts : List ServerAction} {s : Server}
    (hrun : run serverStep .start acts = some s) : s.Anonymous := by
  have hinv : s.Mirrors ∧ s.Anonymous :=
    run_invariant (fun s => s.Mirrors ∧ s.Anonymous)
      (fun _ _ _ hs ht => ⟨hs.1.step ht, hs.2.step hs.1 ht⟩) ⟨mirrors_start, anonymous_start⟩ hrun
  exact hinv.2

/-! ## The calls -/

/-- When the packet at the front is dispatched and `OnNetLoginMsg` is called, the pointer is not
null. -/
def PetNonNull (s : Server) : ServerAction → Prop
  | .dispatch => ∀ q queue, s.msgQueue = q :: queue → ∀ calls,
      (dispatchPack CallBack.petCalls s.callBackMap q.pack).2 = .ok (some calls) → none ∉ calls
  | _ => True

/-- The packet at the front is not a login proper, when it is dispatched. -/
def NoLogin (s : Server) : ServerAction → Prop
  | .dispatch => ∀ q queue, s.msgQueue = q :: queue →
      ¬ [MessageBase.login.toByte, LoginKind.login.toByte] <+: q.pack.body
  | _ => True

end Server

theorem LoginKind.ofByte_eq_login_iff {b : Byte} :
    LoginKind.ofByte b = some .login ↔ b = LoginKind.login.toByte := by
  constructor
  · intro hfind
    have hp := List.find?_some (p := fun kind : LoginKind => kind.toByte = b) hfind
    exact (of_decide_eq_true hp).symm
  · rintro rfl
    rfl

theorem handlerOf_eq_login_iff {a : Byte} :
    handlerOf a = some .onDispatchLoginMsg ↔ a = MessageBase.login.toByte := by
  unfold handlerOf
  split
  · simp [*]
  · rename_i ha
    split
    · simp [ha]
    · split <;> simp [ha]

theorem CallBack.caseOf_eq_login_iff {cb : CallBack} {b : Byte} :
    cb.caseOf b = .login .login ↔ cb = .onDispatchLoginMsg ∧ b = LoginKind.login.toByte := by
  rw [← LoginKind.ofByte_eq_login_iff]
  cases cb with
  | onDispatchLoginMsg => cases h : LoginKind.ofByte b <;> simp [caseOf, h]
  | onDispatchChatMsg => cases h : ChatKind.ofByte b <;> simp [caseOf, h]
  | onDispatchMoveMsg => cases h : MoveKind.ofByte b <;> simp [caseOf, h]

/-- A login proper reaches the call, with the packet's pointer. -/
theorem dispatchPack_petCalls_of_login {pack : SPacket}
    (h : [MessageBase.login.toByte, LoginKind.login.toByte] <+: pack.body) :
    (dispatchPack CallBack.petCalls initServer.callBackMap pack).2 = .ok (some [pack.context]) := by
  obtain ⟨rest, hbody⟩ := h
  have hbuf : pack.buffer = some (MessageBase.login.toByte :: LoginKind.login.toByte :: rest) := by
    unfold SPacket.body at hbody
    cases hb : pack.buffer with
    | none =>
      rw [hb] at hbody
      cases hbody
    | some body =>
      rw [hb] at hbody
      exact congrArg some hbody.symm
  rw [dispatchPack_initServer _ hbuf]
  rfl

/-- No other packet reaches the call. -/
theorem dispatchPack_petCalls_of_ok {pack : SPacket} {calls : List (Option Pet)}
    (h : (dispatchPack CallBack.petCalls initServer.callBackMap pack).2 = .ok (some calls))
    (hno : ¬ [MessageBase.login.toByte, LoginKind.login.toByte] <+: pack.body) : calls = [] := by
  cases hbuf : pack.buffer with
  | none =>
    rw [dispatchPack, hbuf] at h
    cases h
  | some body =>
    cases body with
    | nil =>
      rw [dispatchPack, hbuf] at h
      cases h
    | cons a body =>
      rw [dispatchPack_initServer _ hbuf] at h
      cases body with
      | nil => split at h <;> cases h
      | cons b rest =>
        split at h
        · cases h
        · rename_i cb hcb
          have hcase : cb.caseOf b ≠ .login .login := by
            intro hcase
            obtain ⟨rfl, hb⟩ := CallBack.caseOf_eq_login_iff.mp hcase
            have ha := handlerOf_eq_login_iff.mp hcb
            refine hno ⟨rest, ?_⟩
            rw [ha, hb] at hbuf
            rw [SPacket.body, hbuf]
            rfl
          change Except.ok (some (if cb.caseOf b = .login .login then [pack.context] else [])) = _
            at h
          rw [if_neg hcase] at h
          cases h
          rfl

/-- For the packet at the front, the two conditions are one: every packet carries null. -/
theorem Server.petNonNull_iff_noLogin {s t : Server} {a : ServerAction} (hs : s.Anonymous)
    (h : serverStep s a = some t) : s.PetNonNull a ↔ s.NoLogin a := by
  have hmap := hs.handlers (crashed_eq_none_of_step h)
  cases a with
  | dispatch =>
    refine forall_congr' fun q => forall_congr' fun queue => forall_congr' fun hq => ?_
    have hctx := hs.queued q (hq ▸ List.mem_cons_self)
    rw [hmap]
    constructor
    · intro hnonnull hlogin
      have hcalls := hnonnull _ (dispatchPack_petCalls_of_login hlogin)
      rw [hctx] at hcalls
      exact hcalls List.mem_cons_self
    · intro hno calls hcalls
      rw [dispatchPack_petCalls_of_ok hcalls hno]
      exact List.not_mem_nil
  | up | down | recv | petsRun => exact Iff.rfl

/-- **When the pointer is not null.** In a run of the server, no call of `OnNetLoginMsg` goes
through a null pointer if and only if no packet that is dispatched is a login proper: whenever the
call is reached, the pointer is null. -/
theorem pet_nonnull_iff (acts : List ServerAction) :
    (Meets serverStep Server.PetNonNull .start acts ↔ Meets serverStep Server.NoLogin .start acts) ∧
      ∀ s q queue, run serverStep .start acts = some s → s.msgQueue = q :: queue →
        q.pack.context = none := by
  constructor
  · constructor
    · intro hm pre a s t hp hrun ht
      exact (Server.petNonNull_iff_noLogin (Server.anonymous_of_run hrun) ht).mp
        (hm pre a s t hp hrun ht)
    · intro hm pre a s t hp hrun ht
      exact (Server.petNonNull_iff_noLogin (Server.anonymous_of_run hrun) ht).mpr
        (hm pre a s t hp hrun ht)
  · intro s q queue hrun hq
    exact (Server.anonymous_of_run hrun).queued q (hq ▸ List.mem_cons_self)

/-- **Logins are handled through null.** In a run of the server, a handler that returns has called
`OnNetLoginMsg` through a null pointer if it comes from the case of a login proper, and else it has
not called it. -/
theorem calls_through_null {acts : List ServerAction} {s : Server} {q : Queued}
    {queue : List Queued} {reached : SwitchCase} (hrun : run serverStep .start acts = some s)
    (hcrashed : s.crashed = none) (hq : s.msgQueue = q :: queue)
    (h : (dispatchPack CallBack.call s.callBackMap q.pack).2 = .ok (some reached)) :
    (dispatchPack CallBack.petCalls s.callBackMap q.pack).2 =
      .ok (some (if reached = .login .login then [none] else [])) := by
  have hs := Server.anonymous_of_run hrun
  rw [hs.handlers hcrashed] at h ⊢
  rw [dispatchPack_petCalls_of_call h, hs.queued q (hq ▸ List.mem_cons_self)]

/-- A login message: the account `a` and the password `b`. -/
def loginBody : List Byte := [0x64, 0, 0x61, 0x26, 0x62, 0]

/-- The first connection sends a login message, and its handler is called through null. -/
theorem login_through_null :
    ∃ s t q, run serverStep .start [.up 0 [⟨1, 5⟩], .recv 0 (frame loginBody)] = some s ∧
      s.msgQueue = [q] ∧ serverStep s .dispatch = some t ∧
      (dispatchPack CallBack.petCalls s.callBackMap q.pack).2 = .ok (some [none]) ∧
      ¬ s.PetNonNull .dispatch := by
  have hlen : loginBody.length ≤ maxBody := by decide
  obtain ⟨buf, heq⟩ := (Server.start.onConnectionUp 0 (Reading.dnid ⟨1, 5⟩)).onMessage_new 0
    (.ofDnid (Reading.dnid ⟨1, 5⟩)) hlen
  have hup : serverStep .start (.up 0 [⟨1, 5⟩]) =
      some (Server.start.onConnectionUp 0 (Reading.dnid ⟨1, 5⟩)) := by
    simp [serverStep, Server.start, greateDnid]
  have hrecv := congrArg some heq
  refine ⟨_, _, _, run_snoc ((run_singleton _ _).trans hup) hrecv, rfl, rfl, rfl, fun h => ?_⟩
  exact h _ _ rfl _ rfl List.mem_cons_self

end PetsServer

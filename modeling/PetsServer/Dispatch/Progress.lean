import PetsServer.Dispatch.GameThread
import PetsServer.Foundations.Potential

/-!
# How long a packet waits

`dispatch_fifo` says what is handled, and not when. Here the readings of the clock are counted that
let the game thread go on in its loop: between two of them it handles a packet, if there is one. So
a packet behind `n` others is handled after at most `n + 1` such readings (`handled_within`),
whatever the network threads push meanwhile and however often `DispatchMsg` returns early.
-/

namespace PetsServer

open Foundations

variable {κ ρ : Type*}

/-- A reading of the clock after which the loop goes on. -/
def inTime (s : GameState κ) : GameAction → ℕ
  | .clock now =>
    match s.pc with
    | .clock l => if now.toUInt64 - l.beginTimeStamp ≤ 1000 then 1 else 0
    | _ => 0
  | _ => 0

/-- The packets not dealt with: in hand, or in the queue. -/
def GameState.waiting (s : GameState κ) : List SPacket := s.pc.hand ++ s.dispatcher.msgQueue

/-- The readings that the game thread needs before it takes the next packet. -/
def Pc.readings : Pc → ℕ
  | .outside | .clock _ => 1
  | _ => 0

theorem Pc.readings_le (pc : Pc) : pc.readings ≤ 1 := by
  cases pc <;> simp [Pc.readings]

/-- What handling the packet in hand leaves to do. -/
theorem handleStep_waiting (invoke : Invoke κ ρ) (s : GameState κ) (l : Locals) (pack : SPacket) :
    (handleStep invoke s l pack).waiting = s.dispatcher.msgQueue := by
  unfold handleStep
  simp only
  split
  · rfl
  · rfl
  · split <;> rfl

/-- Some of the packets that waited when the actions began are still waiting. -/
def Unfinished (acts : List GameAction) (s : GameState κ) : Prop :=
  (pushes acts).length < s.waiting.length

theorem length_pushes_snoc (acts : List GameAction) (a : GameAction) :
    (pushes (acts ++ [a])).length = (pushes acts).length + (pushes [a]).length := by
  rw [pushes_append, List.length_append]

/-- A step adds to the packets that wait only by a push. -/
theorem length_waiting_le {invoke : Invoke κ ρ} {s t : GameState κ} {a : GameAction}
    (h : gameStep invoke s a = some t) :
    t.waiting.length ≤ s.waiting.length + (pushes [a]).length := by
  cases gameStep_cases h with
  | push pack => simp [GameState.waiting, Dispatcher.pushPack, pushes, Nat.add_assoc]
  | handle l pack hpc =>
    rw [handleStep_waiting]
    simp only [GameState.waiting, List.length_append]
    omega
  | pop l pack rest hpc hq => simp [GameState.waiting, Pc.hand, hq, hpc, pushes]
  | _ => simp [GameState.waiting, GameState.leave, Pc.hand, *]

theorem inTime_le_one (s : GameState κ) (a : GameAction) : inTime s a ≤ 1 := by
  unfold inTime
  split
  · split
    · split <;> omega
    · omega
  · omega

/-- A reading after which `DispatchMsg` returns is not in time. -/
theorem inTime_of_leave {invoke : Invoke κ ρ} {s t : GameState κ} {now : Int64}
    (h : gameStep invoke s (.clock now) = some t) (ht : t.pc = .outside) :
    inTime s (.clock now) = 0 := by
  cases hpc : s.pc with
  | clock l =>
    have hlate : ¬ now.toUInt64 - l.beginTimeStamp ≤ 1000 := by
      intro hle
      simp only [gameStep, hpc, hle, if_true, Option.some.injEq] at h
      rw [← h] at ht
      cases ht
    simp only [inTime, hpc, hlate, if_false]
  | _ => simp only [inTime, hpc]

/-- The packets that still wait of those that waited when the actions began, and the readings before
the next is taken. -/
def readingsLeft (acts : List GameAction) (s : GameState κ) : ℕ :=
  s.waiting.length - (pushes acts).length + s.pc.readings

/-- **The step lemma**: a reading in time lowers what is left, and no other step raises it. -/
theorem readingsLeft_step {invoke : Invoke κ ρ} {pre : List GameAction} {s t : GameState κ}
    {a : GameAction} (hs : Unfinished pre s) (h : gameStep invoke s a = some t) :
    inTime s a + readingsLeft (pre ++ [a]) t ≤ readingsLeft pre s := by
  unfold Unfinished at hs
  unfold readingsLeft
  have hpush := length_pushes_snoc pre a
  have hone := inTime_le_one s a
  cases gameStep_cases h with
  | push pack =>
    have hread : inTime s (.push pack) = 0 := rfl
    have hnew : (pushes [GameAction.push pack]).length = 1 := rfl
    rw [hread, hpush, hnew]
    simp only [GameState.waiting, Dispatcher.pushPack, List.length_append, List.length_singleton]
    omega
  | enter now hpc =>
    simp [GameState.waiting, hpc, Pc.hand, Pc.readings, inTime, pushes]
  | inTime l now hpc =>
    simp [GameState.waiting, hpc, Pc.hand, Pc.readings, pushes]
    omega
  | late l now hpc =>
    have hzero := inTime_of_leave h rfl
    simp [GameState.waiting, GameState.leave, hpc, Pc.hand, Pc.readings, pushes, hzero]
  | empty l hpc hq =>
    -- the loop ends only when no packet waits
    simp [GameState.waiting, hpc, hq, Pc.hand] at hs
  | nonempty l hpc hq =>
    simp [GameState.waiting, hpc, Pc.hand, Pc.readings, inTime, pushes]
  | underflow l hpc hq =>
    simp [GameState.waiting, hpc, hq, Pc.hand] at hs
  | pop l pack rest hpc hq =>
    simp [GameState.waiting, hpc, hq, Pc.hand, Pc.readings, inTime, pushes]
  | handle l pack hpc =>
    have hread := (handleStep invoke s l pack).pc.readings_le
    have hwait : s.waiting.length = s.dispatcher.msgQueue.length + 1 := by
      simp [GameState.waiting, hpc, Pc.hand]
    have hzero : inTime s .handle = 0 := rfl
    have hnone : (pushes [GameAction.handle]).length = 0 := rfl
    rw [handleStep_waiting, hpush, hzero, hnone]
    omega

/-- **The run lemma**: while a packet that waited at the start still waits, there have been at most
as many readings in time as packets waited. -/
theorem readings_le_of_unfinished {invoke : Invoke κ ρ} {s t : GameState κ} {acts : List GameAction}
    (ht : Unfinished acts t) (h : run (gameStep invoke) s acts = some t) :
    total (gameStep invoke) inTime s acts ≤ s.waiting.length := by
  have hle := total_le_of_last inTime (fun _ _ => 0) Unfinished readingsLeft ?_ ?_ ht h
  · have hstart : readingsLeft [] s ≤ s.waiting.length + 1 :=
      Nat.add_le_add (Nat.sub_le _ _) s.pc.readings_le
    have hleft : 1 ≤ readingsLeft acts t := by
      unfold Unfinished at ht
      unfold readingsLeft
      omega
    rw [total_zero] at hle
    omega
  · intro pre s a t _ hstep ht
    have hle := length_waiting_le hstep
    unfold Unfinished at ht ⊢
    rw [length_pushes_snoc] at ht
    omega
  · intro pre s a t _ hs hstep
    rw [Nat.zero_add]
    exact readingsLeft_step hs hstep

/-- **Bounded waiting.** In any run of dispatchable packets, when `n` packets have been pushed and
not yet handled, they have all been handled, and before any packet pushed later, by the time the
game thread has read the clock more than `n` times and gone on: whatever the network threads push
meanwhile, whatever other readings make `DispatchMsg` return, and unless the counter overflows. -/
theorem handled_within (invoke : Invoke κ ρ) (m : CallBackMap κ) (acts more : List GameAction)
    (s t : GameState κ) (hd : ∀ pack ∈ pushes (acts ++ more), Dispatchable invoke m pack)
    (h : run (gameStep invoke) (.start m) acts = some s)
    (hmore : run (gameStep invoke) s more = some t)
    (hreadings : (s.pc.hand ++ s.dispatcher.msgQueue).length <
      total (gameStep invoke) inTime s more) :
    pushes acts <+: t.handled := by
  have hf := fifo_of_run hd (run_trans h hmore)
  have hcons := hf.conserved
  rw [pushes_append] at hcons
  have hdone : ¬ Unfinished more t := fun ht =>
    absurd hreadings (Nat.not_lt.mpr (readings_le_of_unfinished ht hmore))
  have hlen : (pushes acts).length ≤ t.handled.length := by
    have hsum := congrArg List.length hcons
    unfold Unfinished GameState.waiting at hdone
    simp only [List.length_append] at hsum hdone
    omega
  refine List.prefix_of_prefix_length_le (List.prefix_append _ (pushes more)) ?_ hlen
  rw [← hcons, List.append_assoc]
  exact List.prefix_append _ _

/-- A packet waits while the first call returns early and another packet is pushed; two readings in
time are enough. -/
theorem handled_within_two :
    ∃ s t : GameState Unit, s.dispatcher.msgQueue = [⟨7, some [0x64], none⟩] ∧
      t.pc = .getPack ⟨0, 1⟩ ∧ [⟨7, some [0x64], none⟩] <+: t.handled := by
  obtain ⟨s, hs, hqueue⟩ : ∃ s : GameState Unit,
      run (gameStep fun _ _ _ _ => .ok ()) (.start ((∅ : CallBackMap Unit).insert 0x64 (some ())))
        [.push ⟨7, some [0x64], none⟩] = some s ∧
      s = ⟨⟨(∅ : CallBackMap Unit).insert 0x64 (some ()), [⟨7, some [0x64], none⟩]⟩, .outside, [],
        []⟩ := ⟨_, rfl, rfl⟩
  obtain ⟨t, ht, hpc⟩ : ∃ t : GameState Unit,
      run (gameStep fun _ _ _ _ => .ok ()) s [.enter 0, .clock 2000, .enter 0, .clock 5,
        .push ⟨8, some [0x64], none⟩, .empty, .pop, .handle, .clock 6] = some t ∧
      t.pc = .getPack ⟨0, 1⟩ := by
    subst hqueue
    exact ⟨_, rfl, rfl⟩
  refine ⟨s, t, by rw [hqueue], hpc, handled_within (fun _ _ _ _ => .ok ()) _ _ _ s t ?_ hs ht ?_⟩
  · intro pack hp
    have hpack : pack = ⟨7, some [0x64], none⟩ ∨ pack = ⟨8, some [0x64], none⟩ := by
      simpa [pushes] using hp
    rcases hpack with rfl | rfl <;>
      exact ⟨0x64, [], (), (), rfl, CallBackMap.binds_insert_self _ _ _, rfl⟩
  · subst hqueue
    decide

end PetsServer

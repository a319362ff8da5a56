import PetsServer.Dispatch.Dispatcher
import PetsServer.Foundations.Run

/-!
# The game thread

`gameStep` interleaves the network threads, which call `PushPack`, with the game thread, which calls
`DispatchMsg` again and again. A step is what happens atomically: a push, which holds the mutex; the
reading of the clock; the empty test of `GetPack`, which does not hold the mutex; its `front` and
`pop`, which do; and the handling of the packet in hand. The clock can read anything at any time.

The main result is `dispatch_fifo`: packets that are all dispatchable are handled once each, in the
order of the pushes, whatever the interleaving and the clock.
-/

namespace PetsServer

open Foundations

variable {κ ρ : Type*}

/-- The local variables of `DispatchMsg`. -/
structure Locals where
  beginTimeStamp : Qword
  msgCounter : Int32
  deriving DecidableEq, Repr

/-- Where the game thread is. -/
inductive Pc
  /-- Between two calls of `DispatchMsg`. -/
  | outside
  /-- Before the test of the loop. -/
  | clock (l : Locals)
  /-- Before the empty test of `GetPack`. -/
  | getPack (l : Locals)
  /-- Before `front` and `pop`: the queue was not empty. -/
  | locked (l : Locals)
  | inHand (l : Locals) (pack : SPacket)
  | crashed (e : Fault)
  deriving DecidableEq, Repr

/-- The packet in hand, if any. -/
def Pc.hand : Pc → List SPacket
  | .inHand _ pack => [pack]
  | _ => []

/-- A completed call of `DispatchMsg`: what it returned, and the packets handled during it. -/
structure Call where
  ret : Int32
  packets : List SPacket
  deriving DecidableEq, Repr

/-- The dispatcher, the game thread, the packets handled in the call under way, and the calls
completed. -/
structure GameState (κ : Type*) where
  dispatcher : Dispatcher κ
  pc : Pc
  current : List SPacket
  calls : List Call

namespace GameState

/-- No packet has arrived; the callbacks of `m` are bound. -/
def start (m : CallBackMap κ) : GameState κ := ⟨⟨m, []⟩, .outside, [], []⟩

/-- The packets handled so far, in the order of handling. -/
def handled (s : GameState κ) : List SPacket := s.calls.flatMap Call.packets ++ s.current

/-- `DispatchMsg` returns. -/
def leave (s : GameState κ) (l : Locals) : GameState κ :=
  { s with pc := .outside, current := [], calls := s.calls ++ [⟨l.msgCounter, s.current⟩] }

@[simp] theorem handled_leave (s : GameState κ) (l : Locals) : (s.leave l).handled = s.handled := by
  simp [handled, leave]

end GameState

/-- The steps: a network thread pushes a packet, or the game thread goes on. -/
inductive GameAction
  | push (pack : SPacket)
  /-- `DispatchMsg` is called, and reads the clock. -/
  | enter (now : Int64)
  | clock (now : Int64)
  | empty
  | pop
  | handle
  deriving DecidableEq, Repr

/-- The packets pushed by the actions. -/
def pushes (acts : List GameAction) : List SPacket :=
  acts.filterMap fun
    | .push pack => some pack
    | _ => none

/-- The packet in hand is dealt with. -/
def handleStep (invoke : Invoke κ ρ) (s : GameState κ) (l : Locals) (pack : SPacket) :
    GameState κ :=
  let (m, r) := dispatchPack invoke s.dispatcher.callBackMap pack
  let s := { s with dispatcher.callBackMap := m }
  match r with
  | .error e => { s with pc := .crashed e }
  | .ok none => { s with pc := .clock l }
  | .ok (some _) =>
    let s := { s with current := s.current ++ [pack] }
    match addInt l.msgCounter 1 with
    | .error e => { s with pc := .crashed e }
    | .ok msgCounter => { s with pc := .clock { l with msgCounter } }

/-- One step. A crash ends the process. -/
def gameStep (invoke : Invoke κ ρ) (s : GameState κ) (a : GameAction) : Option (GameState κ) :=
  match s.pc, a with
  | .crashed _, _ => none
  | _, .push pack => some { s with dispatcher := s.dispatcher.pushPack pack }
  | .outside, .enter now => some { s with pc := .clock ⟨now.toUInt64, 0⟩ }
  | .clock l, .clock now =>
    -- the difference of a signed and an unsigned number is unsigned: a clock set back wraps
    if now.toUInt64 - l.beginTimeStamp ≤ 1000 then some { s with pc := .getPack l }
    else some (s.leave l)
  | .getPack l, .empty =>
    if s.dispatcher.msgQueue.isEmpty then some (s.leave l) else some { s with pc := .locked l }
  | .locked l, .pop =>
    match s.dispatcher.msgQueue with
    | [] => some { s with pc := .crashed .emptyQueue }
    | pack :: rest => some { s with dispatcher.msgQueue := rest, pc := .inHand l pack }
  | .inHand l pack, .handle => some (handleStep invoke s l pack)
  | _, _ => none

/-- What a step can do, case by case. -/
inductive GameStep (invoke : Invoke κ ρ) (s : GameState κ) : GameAction → GameState κ → Prop
  | push (pack : SPacket) : GameStep invoke s (.push pack)
      { s with dispatcher := s.dispatcher.pushPack pack }
  | enter (now : Int64) : s.pc = .outside →
      GameStep invoke s (.enter now) { s with pc := .clock ⟨now.toUInt64, 0⟩ }
  | inTime (l : Locals) (now : Int64) : s.pc = .clock l →
      GameStep invoke s (.clock now) { s with pc := .getPack l }
  | late (l : Locals) (now : Int64) : s.pc = .clock l → GameStep invoke s (.clock now) (s.leave l)
  | empty (l : Locals) : s.pc = .getPack l → s.dispatcher.msgQueue = [] →
      GameStep invoke s .empty (s.leave l)
  | nonempty (l : Locals) : s.pc = .getPack l → s.dispatcher.msgQueue ≠ [] →
      GameStep invoke s .empty { s with pc := .locked l }
  | underflow (l : Locals) : s.pc = .locked l → s.dispatcher.msgQueue = [] →
      GameStep invoke s .pop { s with pc := .crashed .emptyQueue }
  | pop (l : Locals) (pack : SPacket) (rest : List SPacket) : s.pc = .locked l →
      s.dispatcher.msgQueue = pack :: rest →
      GameStep invoke s .pop { s with dispatcher.msgQueue := rest, pc := .inHand l pack }
  | handle (l : Locals) (pack : SPacket) : s.pc = .inHand l pack →
      GameStep invoke s .handle (handleStep invoke s l pack)

theorem gameStep_cases {invoke : Invoke κ ρ} {s t : GameState κ} {a : GameAction}
    (h : gameStep invoke s a = some t) : GameStep invoke s a t := by
  unfold gameStep at h
  split at h
  case h_1 => cases h
  case h_2 pack _ => cases h; exact .push pack
  case h_3 now hpc => cases h; exact .enter now hpc
  case h_4 l now hpc =>
    split at h <;> cases h
    · exact .inTime l now hpc
    · exact .late l now hpc
  case h_5 l hpc =>
    split at h <;> rename_i hq <;> cases h
    · exact .empty l hpc (List.isEmpty_iff.mp hq)
    · exact .nonempty l hpc (fun hn => hq (List.isEmpty_iff.mpr hn))
  case h_6 l hpc =>
    split at h <;> rename_i hq <;> cases h
    · exact .underflow l hpc hq
    · exact .pop l _ _ hpc hq
  case h_7 l pack hpc => cases h; exact .handle l pack hpc
  case h_8 => cases h

theorem pushes_append (as bs : List GameAction) : pushes (as ++ bs) = pushes as ++ pushes bs :=
  List.filterMap_append

/-! ## The invariant -/

/-- What holds of the local variables, of the packets handled in the call under way, and of the
queue, where the game thread is. -/
def PcOk (s : GameState κ) : Pc → Prop
  | .outside => s.current = []
  | .clock l | .getPack l | .inHand l _ => l.msgCounter.toInt = s.current.length
  | .locked l => l.msgCounter.toInt = s.current.length ∧ s.dispatcher.msgQueue ≠ []
  | .crashed e => e = .intOverflow

/-- The invariant of the runs in which the packets `pushed` have arrived: none is lost, duplicated
or overtaken, and the counter counts the packets handled. -/
structure Fifo (m : CallBackMap κ) (pushed : List SPacket) (s : GameState κ) : Prop where
  map_eq : s.dispatcher.callBackMap = m
  conserved : s.handled ++ s.pc.hand ++ s.dispatcher.msgQueue = pushed
  pcOk : PcOk s s.pc
  calls : ∀ c ∈ s.calls, c.ret.toInt = c.packets.length

theorem fifo_start (m : CallBackMap κ) : Fifo m [] (.start m) :=
  ⟨rfl, rfl, rfl, fun _ hc => absurd hc List.not_mem_nil⟩

/-- Returning from `DispatchMsg` with nothing in hand. -/
theorem Fifo.leave {m : CallBackMap κ} {pushed : List SPacket} {s : GameState κ}
    (hs : Fifo m pushed s) {l : Locals} (hhand : s.pc.hand = [])
    (hl : l.msgCounter.toInt = s.current.length) : Fifo m pushed (s.leave l) := by
  refine ⟨hs.map_eq, ?_, rfl, ?_⟩
  · rw [GameState.handled_leave, ← hs.conserved, hhand]
    rfl
  · intro c hc
    rcases List.mem_append.mp hc with hc | hc
    · exact hs.calls c hc
    · obtain rfl := List.mem_singleton.mp hc
      exact hl

/-- The game thread goes on, with the packet in hand that it had. -/
theorem Fifo.goto {m : CallBackMap κ} {pushed : List SPacket} {s : GameState κ}
    (hs : Fifo m pushed s) {pc : Pc} (hhand : s.pc.hand = pc.hand) (hok : PcOk s pc) :
    Fifo m pushed { s with pc } := by
  refine ⟨hs.map_eq, ?_, hok, hs.calls⟩
  show s.handled ++ pc.hand ++ s.dispatcher.msgQueue = pushed
  rw [← hhand]
  exact hs.conserved

/-- A packet that is dispatchable is handled: the count goes up, unless it overflows. -/
theorem handleStep_of_dispatchable {invoke : Invoke κ ρ} {s : GameState κ} {l : Locals}
    {pack : SPacket} (h : Dispatchable invoke s.dispatcher.callBackMap pack)
    (hl : l.msgCounter.toInt = s.current.length) :
    ∃ pc, handleStep invoke s l pack = { s with current := s.current ++ [pack], pc } ∧
      (pc = .crashed .intOverflow ∨ ∃ n : Int32, pc = .clock { l with msgCounter := n } ∧
        n.toInt = (s.current ++ [pack]).length) := by
  obtain ⟨r, hr⟩ := dispatchPack_of_dispatchable h
  simp only [handleStep, hr]
  by_cases hlt : l.msgCounter.toInt + (1 : Int32).toInt < 2 ^ 31
  · have hpos : -2 ^ 31 ≤ l.msgCounter.toInt + (1 : Int32).toInt := by
      have : (1 : Int32).toInt = 1 := rfl
      omega
    obtain ⟨n, hn, hval⟩ := addInt_spec hpos hlt
    refine ⟨_, by rw [hn], Or.inr ⟨n, rfl, ?_⟩⟩
    rw [hval, hl, List.length_append]
    rfl
  · refine ⟨_, by rw [addInt, if_neg (fun hc => hlt hc.2)], Or.inl rfl⟩

/-- A push does not disturb the game thread. -/
theorem PcOk.push {s : GameState κ} {pc : Pc} (h : PcOk s pc) (pack : SPacket) :
    PcOk { s with dispatcher := s.dispatcher.pushPack pack } pc := by
  cases pc with
  | locked l => exact ⟨h.1, List.append_ne_nil_of_right_ne_nil _ (List.cons_ne_nil pack [])⟩
  | _ => exact h

/-- **The step lemma**: a step keeps the invariant when the packets pushed are dispatchable. -/
theorem Fifo.step {invoke : Invoke κ ρ} {m : CallBackMap κ} {pushed : List SPacket}
    {s t : GameState κ} {a : GameAction} (hs : Fifo m pushed s)
    (hd : ∀ pack ∈ pushed, Dispatchable invoke m pack)
    (h : gameStep invoke s a = some t) : Fifo m (pushed ++ pushes [a]) t := by
  have hpc := hs.pcOk
  have hcons := hs.conserved
  cases gameStep_cases h with
  | push pack =>
    refine ⟨hs.map_eq, ?_, hpc.push pack, hs.calls⟩
    rw [← hcons, List.append_assoc _ _ (pushes _)]
    rfl
  | enter now hq =>
    rw [hq] at hpc
    show Fifo m (pushed ++ []) _
    rw [List.append_nil]
    exact hs.goto (by rw [hq]; rfl)
      (congrArg (fun l : List SPacket => (l.length : Int)) hpc).symm
  | inTime l now hq =>
    rw [hq] at hpc
    show Fifo m (pushed ++ []) _
    rw [List.append_nil]
    exact hs.goto (by rw [hq]; rfl) hpc
  | late l now hq | empty l hq =>
    rw [hq] at hpc
    show Fifo m (pushed ++ []) _
    rw [List.append_nil]
    exact hs.leave (congrArg Pc.hand hq) hpc
  | nonempty l hq hn =>
    rw [hq] at hpc
    show Fifo m (pushed ++ []) _
    rw [List.append_nil]
    exact hs.goto (by rw [hq]; rfl) ⟨hpc, hn⟩
  | underflow l hq hn =>
    rw [hq] at hpc
    exact absurd hn hpc.2
  | pop l pack rest hq hn =>
    rw [hq] at hpc hcons
    rw [hn] at hcons
    refine ⟨hs.map_eq, ?_, hpc.1, hs.calls⟩
    rw [← hcons]
    simp [pushes, Pc.hand, GameState.handled]
  | handle l pack hq =>
    rw [hq] at hpc hcons
    have hmem : pack ∈ pushed := by
      rw [← hcons]
      simp [Pc.hand]
    obtain ⟨pc, heq, hcase⟩ := handleStep_of_dispatchable (hs.map_eq ▸ hd pack hmem) hpc
    have hhand : pc.hand = [] := by
      rcases hcase with rfl | ⟨n, rfl, -⟩ <;> rfl
    rw [heq]
    refine ⟨hs.map_eq, ?_, ?_, hs.calls⟩
    · change _ ++ (s.current ++ [pack]) ++ pc.hand ++ _ = _
      rw [← hcons, hhand]
      simp [GameState.handled, Pc.hand, pushes]
    · rcases hcase with rfl | ⟨n, rfl, hn⟩
      · rfl
      · exact hn

/-- **The run lemma.** -/
theorem fifo_of_run {invoke : Invoke κ ρ} {m : CallBackMap κ} {acts : List GameAction}
    {s : GameState κ} (hd : ∀ pack ∈ pushes acts, Dispatchable invoke m pack)
    (h : run (gameStep invoke) (.start m) acts = some s) : Fifo m (pushes acts) s := by
  have hinv : ∀ acts s, run (gameStep invoke) (.start m) acts = some s →
      (∀ pack ∈ pushes acts, Dispatchable invoke m pack) → Fifo m (pushes acts) s := by
    apply run_induction
    · exact fun _ => fifo_start m
    · intro pre s a t _ ih ht hd
      rw [pushes_append] at hd ⊢
      have hpre : ∀ pack ∈ pushes pre, Dispatchable invoke m pack := fun pack hp =>
        hd pack (List.mem_append_left _ hp)
      exact (ih hpre).step hpre ht
  exact hinv acts s h hd

/-- **Exactly-once dispatch in the order of the pushes.** Packets that are all dispatchable are
handled once each and in order: at every moment the packets handled, the packet in hand and the
queue are the packets pushed. `front` and `pop` are never reached with an empty queue, and a
completed call returns the number of packets handled during it. The one way to fail that is left is
the overflow of the counter, after 2147483647 packets in one call. -/
theorem dispatch_fifo (invoke : Invoke κ ρ) (m : CallBackMap κ) (acts : List GameAction)
    (s : GameState κ) (hd : ∀ pack ∈ pushes acts, Dispatchable invoke m pack)
    (h : run (gameStep invoke) (.start m) acts = some s) :
    s.handled ++ s.pc.hand ++ s.dispatcher.msgQueue = pushes acts ∧
      s.pc ≠ .crashed .emptyQueue ∧ (∀ e, s.pc = .crashed e → e = .intOverflow) ∧
      ∀ c ∈ s.calls, c.ret.toInt = c.packets.length := by
  have hs := fifo_of_run hd h
  have hcrash : ∀ e, s.pc = .crashed e → e = .intOverflow := by
    intro e he
    have hpc := hs.pcOk
    rwa [he] at hpc
  exact ⟨hs.conserved, fun he => Fault.noConfusion (hcrash _ he), hcrash, hs.calls⟩

/-- One network thread pushes two packets, another one pushes a packet between them, and the game
thread handles two of the three in one call. -/
def interleaved : List GameAction :=
  [.push ⟨7, some [0x64, 1], none⟩, .enter 5, .clock 5, .push ⟨8, some [0x64, 2], none⟩, .empty,
    .pop, .push ⟨7, some [0x64, 3], none⟩, .handle, .clock 9, .empty, .pop, .handle, .clock 2000]

theorem dispatch_fifo_interleaved :
    ∃ s, run (gameStep (ρ := Unit) fun _ _ _ _ => .ok ())
        (.start ((∅ : CallBackMap Unit).insert 0x64 (some ()))) interleaved = some s ∧
      s.handled = [⟨7, some [0x64, 1], none⟩, ⟨8, some [0x64, 2], none⟩] ∧
      s.handled ++ s.pc.hand ++ s.dispatcher.msgQueue = pushes interleaved ∧
      s.calls.map Call.ret = [2] := by
  have h := dispatch_fifo (fun _ _ _ _ => .ok ()) ((∅ : CallBackMap Unit).insert 0x64 (some ()))
    interleaved ⟨⟨(∅ : CallBackMap Unit).insert 0x64 (some ()), [⟨7, some [0x64, 3], none⟩]⟩,
      .outside, [], [⟨2, [⟨7, some [0x64, 1], none⟩, ⟨8, some [0x64, 2], none⟩]⟩]⟩ ?_ rfl
  · exact ⟨_, rfl, rfl, h.1, rfl⟩
  have hbody : ∀ pack ∈ pushes interleaved, ∃ b, pack.buffer = some [0x64, b] := by
    simp [pushes, interleaved]
  intro pack hpack
  obtain ⟨b, hbuffer⟩ := hbody pack hpack
  exact ⟨0x64, [b], (), (), hbuffer, CallBackMap.binds_insert_self _ _ _, rfl⟩

/-! ## Frames of one packet

Schedules in which the clock ends every call after one packet: between two calls, the game thread
can always hand over the packets at the front of the queue. -/

/-- The packets arrive one after another. -/
theorem run_pushes {invoke : Invoke κ ρ} {s : GameState κ} (hpc : s.pc = .outside)
    (packs : List SPacket) :
    run (gameStep invoke) s (packs.map .push) =
      some { s with dispatcher.msgQueue := s.dispatcher.msgQueue ++ packs } := by
  induction packs generalizing s with
  | nil => simp
  | cons pack packs ih =>
    have hstep : gameStep invoke s (.push pack) =
        some { s with dispatcher := s.dispatcher.pushPack pack } := by
      simp only [gameStep, hpc]
    rw [List.map_cons, run_cons, hstep, Option.bind_some,
      ih (s := { s with dispatcher := s.dispatcher.pushPack pack }) hpc]
    simp [Dispatcher.pushPack]

@[simp] theorem pushes_map_push (packs : List SPacket) : pushes (packs.map .push) = packs := by
  induction packs with
  | nil => rfl
  | cons pack packs ih => exact congrArg (pack :: ·) ih

/-- A call of `DispatchMsg` up to the handling of the first packet. -/
def takeOne : List GameAction := [.enter 0, .clock 0, .empty, .pop]

theorem run_takeOne {invoke : Invoke κ ρ} {s : GameState κ} {pack : SPacket} {rest : List SPacket}
    (hpc : s.pc = .outside) (hq : s.dispatcher.msgQueue = pack :: rest) :
    run (gameStep invoke) s takeOne =
      some { s with dispatcher.msgQueue := rest, pc := .inHand ⟨0, 0⟩ pack } := by
  obtain ⟨⟨m, queue⟩, pc, current, calls⟩ := s
  obtain rfl : pc = .outside := hpc
  obtain rfl : queue = pack :: rest := hq
  rfl

theorem run_oneFrame {invoke : Invoke κ ρ} {s : GameState κ} {pack : SPacket} {rest : List SPacket}
    (hpc : s.pc = .outside) (hcur : s.current = []) (hq : s.dispatcher.msgQueue = pack :: rest)
    (hd : Dispatchable invoke s.dispatcher.callBackMap pack) :
    run (gameStep invoke) s (takeOne ++ [.handle, .clock 2000]) =
      some { s with dispatcher.msgQueue := rest, calls := s.calls ++ [⟨1, [pack]⟩] } := by
  obtain ⟨r, hr⟩ := dispatchPack_of_dispatchable hd
  rw [run_append, run_takeOne hpc hq, Option.bind_some, run_cons]
  obtain ⟨⟨m, queue⟩, pc, current, calls⟩ := s
  obtain rfl : pc = .outside := hpc
  obtain rfl : current = [] := hcur
  simp only [gameStep, handleStep, hr, Option.bind_some]
  rfl

/-- **Progress**: between two calls, dispatchable packets at the front of the queue can be handed
over without another push. -/
theorem exists_run_handled {invoke : Invoke κ ρ} {s : GameState κ} (packs rest : List SPacket)
    (hpc : s.pc = .outside) (hcur : s.current = []) (hq : s.dispatcher.msgQueue = packs ++ rest)
    (hd : ∀ pack ∈ packs, Dispatchable invoke s.dispatcher.callBackMap pack) :
    ∃ acts t, pushes acts = [] ∧ run (gameStep invoke) s acts = some t ∧ t.pc = .outside ∧
      t.dispatcher = ⟨s.dispatcher.callBackMap, rest⟩ ∧ t.handled = s.handled ++ packs := by
  induction packs generalizing s with
  | nil =>
    refine ⟨[], s, rfl, rfl, hpc, ?_, (List.append_nil _).symm⟩
    rw [List.nil_append] at hq
    rw [← hq]
  | cons pack packs ih =>
    have hone := run_oneFrame hpc hcur hq (hd pack List.mem_cons_self)
    obtain ⟨acts, t, hpush, hrun, htpc, htd, hth⟩ := ih (s := { s with
      dispatcher.msgQueue := packs ++ rest, calls := s.calls ++ [⟨1, [pack]⟩] }) hpc hcur rfl
      (fun p hp => hd p (List.mem_cons_of_mem _ hp))
    refine ⟨_, t, ?_, run_trans hone hrun, htpc, htd, ?_⟩
    · rw [pushes_append, hpush]
      rfl
    · rw [hth]
      simp [GameState.handled, hcur]

end PetsServer

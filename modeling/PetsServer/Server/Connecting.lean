import Mathlib.Logic.Function.Basic
import PetsServer.Foundations.Run
import PetsServer.Server.Server

/-!
# Connections that go up at the same time

`onConnection` runs on several threads. `connectStep` takes apart what it does for a connection that
goes up: each pass of the loop in `GreateDnid`, which checks one number against the map;
`setContext`; and the insertion. Nothing holds a lock from the check to the insertion. Without
interruption the steps do what `greateDnid` and one insertion do (`run_uninterrupted`).

`numbers_unique`: as long as nobody draws a number that another thread has checked and not yet
inserted, no two connections hold one number, and no insertion overwrites an entry.
`same_number_twice` is the run in which somebody does.
-/

namespace PetsServer

open Foundations

/-- Where `onConnection` is, for one connection. -/
inductive ConnectPc
  | fresh
  /-- In the loop of `GreateDnid`. -/
  | drawing
  /-- `GreateDnid` has returned. -/
  | drawn (dnid : Dnid)
  | contextSet (dnid : Dnid)
  /-- The connection is in the map. -/
  | up (dnid : Dnid)
  | down
  deriving DecidableEq, Repr

namespace ConnectPc

/-- The number that the connection has got. -/
def number : ConnectPc → Option Dnid
  | drawn dnid | contextSet dnid | up dnid => some dnid
  | _ => none

/-- The number is checked, and not yet in the map. -/
def Claims (pc : ConnectPc) (dnid : Dnid) : Prop := pc = drawn dnid ∨ pc = contextSet dnid

/-- The number is in the connection's context. -/
def Holds (pc : ConnectPc) (dnid : Dnid) : Prop := pc = contextSet dnid ∨ pc = up dnid

theorem Holds.number {pc : ConnectPc} {dnid : Dnid} (h : pc.Holds dnid) :
    pc.number = some dnid := by
  rcases h with rfl | rfl <;> rfl

theorem number_eq_some {pc : ConnectPc} {dnid : Dnid} (h : pc.number = some dnid) :
    pc.Claims dnid ∨ pc = up dnid := by
  cases pc with
  | drawn d => exact Or.inl (Or.inl (congrArg drawn (Option.some.inj h)))
  | contextSet d => exact Or.inl (Or.inr (congrArg contextSet (Option.some.inj h)))
  | up d => exact Or.inr (congrArg up (Option.some.inj h))
  | fresh | drawing | down => cases h

end ConnectPc

/-- The connections map, and where the callbacks are. -/
structure Connecting where
  connections : ConnectionMap
  pcs : ConnId → ConnectPc

namespace Connecting

/-- No connection yet. -/
def start : Connecting := ⟨∅, fun _ => .fresh⟩

@[simp] theorem pcs_start (c : ConnId) : start.pcs c = .fresh := rfl

/-- The callback of `c` goes on. -/
def goto (s : Connecting) (c : ConnId) (pc : ConnectPc) : Connecting :=
  { s with pcs := Function.update s.pcs c pc }

end Connecting

/-- The steps of the callbacks. -/
inductive ConnectAction
  | enter (c : ConnId)
  /-- One pass of the loop in `GreateDnid`. -/
  | draw (c : ConnId) (r : Reading)
  | setContext (c : ConnId)
  | insert (c : ConnId)
  /-- `onConnection` when the connection goes down. -/
  | down (c : ConnId)
  deriving DecidableEq, Repr

/-- One step of one callback. -/
def connectStep (s : Connecting) : ConnectAction → Option Connecting
  | .enter c =>
    match s.pcs c with
    | .fresh => some (s.goto c .drawing)
    | _ => none
  | .draw c r =>
    match s.pcs c with
    | .drawing => if r.dnid ∈ s.connections then some s else some (s.goto c (.drawn r.dnid))
    | _ => none
  | .setContext c =>
    match s.pcs c with
    | .drawn dnid => some (s.goto c (.contextSet dnid))
    | _ => none
  | .insert c =>
    match s.pcs c with
    | .contextSet dnid =>
      let scon : Connection := ⟨c, 3⟩
      some { s.goto c (.up dnid) with connections := s.connections.insert dnid scon }
    | _ => none
  | .down c =>
    match s.pcs c with
    | .up dnid => some { s.goto c .down with connections := s.connections.erase dnid }
    | _ => none

/-- What a step does, case by case. -/
inductive ConnectStep (s : Connecting) : ConnectAction → Connecting → Prop
  | enter (c : ConnId) : s.pcs c = .fresh → ConnectStep s (.enter c) (s.goto c .drawing)
  | taken (c : ConnId) (r : Reading) : s.pcs c = .drawing → r.dnid ∈ s.connections →
      ConnectStep s (.draw c r) s
  | drawn (c : ConnId) (r : Reading) : s.pcs c = .drawing → r.dnid ∉ s.connections →
      ConnectStep s (.draw c r) (s.goto c (.drawn r.dnid))
  | setContext (c : ConnId) (dnid : Dnid) : s.pcs c = .drawn dnid →
      ConnectStep s (.setContext c) (s.goto c (.contextSet dnid))
  | insert (c : ConnId) (dnid : Dnid) : s.pcs c = .contextSet dnid → ConnectStep s (.insert c)
      { s.goto c (.up dnid) with connections := s.connections.insert dnid ⟨c, 3⟩ }
  | down (c : ConnId) (dnid : Dnid) : s.pcs c = .up dnid → ConnectStep s (.down c)
      { s.goto c .down with connections := s.connections.erase dnid }

theorem connectStep_cases {s t : Connecting} {a : ConnectAction} (h : connectStep s a = some t) :
    ConnectStep s a t := by
  cases a with
  | enter c =>
    simp only [connectStep] at h
    split at h <;> cases h
    rename_i hpc
    exact .enter c hpc
  | draw c r =>
    simp only [connectStep] at h
    split at h
    · rename_i hpc
      split at h <;> rename_i hmem <;> cases h
      · exact .taken c r hpc hmem
      · exact .drawn c r hpc hmem
    · cases h
  | setContext c =>
    simp only [connectStep] at h
    split at h <;> cases h
    rename_i hpc
    exact .setContext c _ hpc
  | insert c =>
    simp only [connectStep] at h
    split at h <;> cases h
    rename_i hpc
    exact .insert c _ hpc
  | down c =>
    simp only [connectStep] at h
    split at h <;> cases h
    rename_i hpc
    exact .down c _ hpc

/-! ## Without interruption -/

/-- The steps of one callback for a connection that goes up, with the readings of `GreateDnid`. -/
def uninterrupted (c : ConnId) (readings : List Reading) : List ConnectAction :=
  .enter c :: readings.map (.draw c) ++ [.setContext c, .insert c]

theorem run_draw {s : Connecting} {c : ConnId} (hpc : s.pcs c = .drawing) {readings : List Reading}
    {dnid : Dnid} (h : greateDnid s.connections readings = some (dnid, [])) :
    run connectStep s (readings.map (.draw c)) = some (s.goto c (.drawn dnid)) := by
  induction readings with
  | nil => cases h
  | cons r readings ih =>
    rw [List.map_cons, run_cons]
    unfold greateDnid at h
    split at h
    · rename_i hmem
      have hstep : connectStep s (.draw c r) = some s := by
        simp only [connectStep, hpc, if_pos hmem]
      rw [hstep, Option.bind_some, ih h]
    · rename_i hmem
      cases h
      simp only [connectStep, hpc, if_neg hmem]
      rfl

/-- The steps of a callback that nobody interrupts are `greateDnid` and one insertion. -/
theorem run_uninterrupted {s : Connecting} {c : ConnId} (hpc : s.pcs c = .fresh)
    {readings : List Reading} {dnid : Dnid}
    (h : greateDnid s.connections readings = some (dnid, [])) :
    run connectStep s (uninterrupted c readings) =
      some { s.goto c (.up dnid) with connections := s.connections.insert dnid ⟨c, 3⟩ } := by
  have henter : connectStep s (.enter c) = some (s.goto c .drawing) := by
    simp only [connectStep, hpc]
  have hdrawing : (s.goto c .drawing).pcs c = .drawing := Function.update_self _ _ _
  have hdraw := run_draw hdrawing h
  rw [uninterrupted, List.cons_append, run_cons, henter, Option.bind_some, run_append, hdraw,
    Option.bind_some]
  simp [run_cons, connectStep, Connecting.goto]

/-! ## The invariant -/

namespace Connecting

/-- No two connections have got one number, and the map has the entries of the connections that are
up, and no other. -/
structure Unique (s : Connecting) : Prop where
  distinct : ∀ c c' dnid, (s.pcs c).number = some dnid → (s.pcs c').number = some dnid → c = c'
  mirror : ∀ dnid e, s.connections[dnid]? = some e ↔ s.pcs e.conn = .up dnid ∧ e.ttl = 3

/-- The number that is drawn, if the check finds it free, is not checked and waiting to be inserted
by another callback. -/
def NumberUnclaimed (s : Connecting) : ConnectAction → Prop
  | .draw _ r => r.dnid ∉ s.connections → ∀ c, ¬ (s.pcs c).Claims r.dnid
  | _ => True

theorem unique_start : Unique start := by
  constructor
  · intro c c' dnid h
    cases h
  · intro dnid e
    simp [start]

theorem pcs_goto (s : Connecting) (c c' : ConnId) (pc : ConnectPc) :
    (s.goto c pc).pcs c' = if c' = c then pc else s.pcs c' :=
  Function.update_apply ..

/-- The numbers stay distinct when a callback goes on with a number that no other one has. -/
theorem Unique.distinct_goto {s : Connecting} (hs : s.Unique) {c : ConnId} {pc : ConnectPc}
    (h : ∀ dnid, pc.number = some dnid → ∀ c', c' ≠ c → (s.pcs c').number ≠ some dnid) :
    ∀ c₁ c₂ dnid, ((s.goto c pc).pcs c₁).number = some dnid →
      ((s.goto c pc).pcs c₂).number = some dnid → c₁ = c₂ := by
  intro c₁ c₂ dnid h₁ h₂
  rw [pcs_goto] at h₁ h₂
  split at h₁ <;> split at h₂
  · simp_all
  · rename_i hc₁ hc₂
    exact absurd h₂ (h dnid h₁ c₂ hc₂)
  · rename_i hc₁ hc₂
    exact absurd h₁ (h dnid h₂ c₁ hc₁)
  · exact hs.distinct c₁ c₂ dnid h₁ h₂

/-- A callback that keeps its number, or gives it up. -/
theorem Unique.distinct_keep {s : Connecting} (hs : s.Unique) {c : ConnId} {pc : ConnectPc}
    (h : ∀ dnid, pc.number = some dnid → (s.pcs c).number = some dnid) :
    ∀ c₁ c₂ dnid, ((s.goto c pc).pcs c₁).number = some dnid →
      ((s.goto c pc).pcs c₂).number = some dnid → c₁ = c₂ :=
  hs.distinct_goto fun dnid hpc c' hc' hnum => hc' (hs.distinct c' c dnid hnum (h dnid hpc))

/-- The map is still right when a callback goes on that is not up, before or after. -/
theorem Unique.mirror_goto {s : Connecting} (hs : s.Unique) {c : ConnId} {pc : ConnectPc}
    (hold : ∀ dnid, s.pcs c ≠ .up dnid) (hnew : ∀ dnid, pc ≠ .up dnid) (dnid : Dnid)
    (e : Connection) : (s.goto c pc).connections[dnid]? = some e ↔
      (s.goto c pc).pcs e.conn = .up dnid ∧ e.ttl = 3 := by
  rw [pcs_goto]
  refine (hs.mirror dnid e).trans ?_
  split
  · rename_i hc
    simp [hc, hold, hnew]
  · rfl

/-- A number that is not in the map and not claimed is new. -/
theorem Unique.number_ne {s : Connecting} (hs : s.Unique) {dnid : Dnid}
    (hfree : dnid ∉ s.connections) (hunclaimed : ∀ c, ¬ (s.pcs c).Claims dnid) (c : ConnId) :
    (s.pcs c).number ≠ some dnid := by
  intro hnum
  rcases ConnectPc.number_eq_some hnum with hclaims | hup
  · exact hunclaimed c hclaims
  · have hentry := (hs.mirror dnid ⟨c, 3⟩).mpr ⟨hup, rfl⟩
    exact hfree (Std.ExtTreeMap.mem_iff_isSome_getElem?.mpr (by rw [hentry]; rfl))

/-- The map is still right when a callback goes on and the entry of its own number changes. -/
theorem Unique.mirror_at {s : Connecting} (hs : s.Unique) {c : ConnId} {dnid : Dnid}
    (hnum : (s.pcs c).number = some dnid) {pc : ConnectPc} {connections : ConnectionMap}
    (entry : Option Connection)
    (hget : ∀ k, connections[k]? = if dnid = k then entry else s.connections[k]?)
    (hpc : ∀ k, pc = .up k → k = dnid)
    (hentry : ∀ e, entry = some e ↔ e.conn = c ∧ pc = .up dnid ∧ e.ttl = 3) (k : Dnid)
    (e : Connection) : connections[k]? = some e ↔ (s.goto c pc).pcs e.conn = .up k ∧ e.ttl = 3 := by
  rw [hget, pcs_goto]
  by_cases hk : dnid = k
  · subst hk
    rw [if_pos rfl, hentry]
    by_cases hc : e.conn = c
    · simp [hc]
    · have hup : s.pcs e.conn ≠ .up dnid := fun hup =>
        hc (hs.distinct e.conn c dnid (by rw [hup]; rfl) hnum)
      simp [hc, hup]
  · rw [if_neg hk, hs.mirror]
    by_cases hc : e.conn = c
    · have hold : s.pcs c ≠ .up k := by
        intro hup
        rw [hup] at hnum
        exact hk (Option.some.inj hnum).symm
      have hnew : pc ≠ .up k := fun hup => hk (hpc k hup).symm
      simp [hc, hold, hnew]
    · simp [hc]

/-- A claimed number is not in the map. -/
theorem Unique.free {s : Connecting} (hs : s.Unique) {c : ConnId} {dnid : Dnid}
    (hpc : s.pcs c = .contextSet dnid) : s.connections[dnid]? = none := by
  cases hget : s.connections[dnid]? with
  | none => rfl
  | some e =>
    obtain ⟨hup, -⟩ := (hs.mirror dnid e).mp hget
    obtain rfl := hs.distinct c e.conn dnid (by rw [hpc]; rfl) (by rw [hup]; rfl)
    rw [hpc] at hup
    cases hup

/-- **The step lemma.** -/
theorem Unique.step {s t : Connecting} {a : ConnectAction} (hs : s.Unique)
    (hunclaimed : s.NumberUnclaimed a) (h : connectStep s a = some t) : t.Unique := by
  cases connectStep_cases h with
  | enter c hpc =>
    exact ⟨hs.distinct_keep (fun _ h => nomatch h),
      hs.mirror_goto (fun _ h => by rw [hpc] at h; cases h) (fun _ h => nomatch h)⟩
  | taken => exact hs
  | drawn c r hpc hfree =>
    refine ⟨hs.distinct_goto fun dnid hnum c' _ => ?_,
      hs.mirror_goto (fun _ h => by rw [hpc] at h; cases h) (fun _ h => nomatch h)⟩
    obtain rfl := Option.some.inj hnum
    exact hs.number_ne hfree (hunclaimed hfree) c'
  | setContext c dnid hpc =>
    exact ⟨hs.distinct_keep (fun _ h => by rw [hpc]; exact h),
      hs.mirror_goto (fun _ h => by rw [hpc] at h; cases h) (fun _ h => nomatch h)⟩
  | insert c dnid hpc =>
    refine ⟨hs.distinct_keep (fun _ h => by rw [hpc]; exact h),
      hs.mirror_at (by rw [hpc]; rfl) (some ⟨c, 3⟩) ?_ ?_ ?_⟩
    · intro k
      simp only [Std.ExtTreeMap.getElem?_insert, Std.LawfulEqCmp.compare_eq_iff_eq]
    · intro k hk
      exact (ConnectPc.up.inj hk).symm
    · rintro ⟨c', ttl⟩
      simp [eq_comm]
  | down c dnid hpc =>
    refine ⟨hs.distinct_keep (fun _ h => by cases h),
      hs.mirror_at (by rw [hpc]; rfl) none ?_ ?_ ?_⟩
    · intro k
      simp only [Std.ExtTreeMap.getElem?_erase, Std.LawfulEqCmp.compare_eq_iff_eq]
    · intro k hk
      cases hk
    · simp

end Connecting

/-- **The numbers are unique** in a run in which nobody draws a number that another callback has
checked and not yet inserted: no two connections have one number in their contexts, and no insertion
finds an entry under its number. -/
theorem numbers_unique (acts : List ConnectAction) (s : Connecting)
    (hunclaimed : Meets connectStep Connecting.NumberUnclaimed .start acts)
    (hrun : run connectStep .start acts = some s) :
    (∀ c c' dnid, (s.pcs c).Holds dnid → (s.pcs c').Holds dnid → c = c') ∧
      ∀ c dnid, s.pcs c = .contextSet dnid → s.connections[dnid]? = none := by
  have hs : s.Unique := run_invariant_of_meets Connecting.Unique
    (fun _ _ _ hs ha ht => hs.step ha ht) Connecting.unique_start hunclaimed hrun
  exact ⟨fun c c' dnid h h' => hs.distinct c c' dnid h.number h'.number, fun _ _ => hs.free⟩

/-- Two callbacks overlap and draw different numbers. -/
theorem numbers_unique_overlap :
    ∃ s, run connectStep .start
        [.enter 0, .enter 1, .draw 0 ⟨1, 5⟩, .draw 1 ⟨1, 6⟩, .setContext 0] = some s ∧
      (s.pcs 0).Holds 0x10005 ∧ s.pcs 1 = .drawn 0x10006 ∧
      ∀ c dnid, s.pcs c = .contextSet dnid → s.connections[dnid]? = none := by
  let s₂ := (Connecting.start.goto 0 .drawing).goto 1 .drawing
  let s₃ := s₂.goto 0 (.drawn (Reading.dnid ⟨1, 5⟩))
  have hnil : Meets connectStep Connecting.NumberUnclaimed .start [] := meets_nil
  have hdraw₀ : s₂.NumberUnclaimed (.draw 0 ⟨1, 5⟩) := by
    rintro - c (hc | hc) <;>
      simp only [s₂, Connecting.pcs_goto, Connecting.pcs_start] at hc <;> grind
  have hdraw₁ : s₃.NumberUnclaimed (.draw 1 ⟨1, 6⟩) := by
    have hne : Reading.dnid ⟨1, 5⟩ ≠ Reading.dnid ⟨1, 6⟩ := by decide
    rintro - c (hc | hc) <;>
      simp only [s₃, s₂, Connecting.pcs_goto, Connecting.pcs_start] at hc <;> grind
  have henter (s : Connecting) (c : ConnId) : s.NumberUnclaimed (.enter c) := trivial
  have hset (s : Connecting) (c : ConnId) : s.NumberUnclaimed (.setContext c) := trivial
  have hmeets := ((((hnil.snoc rfl (henter _ 0)).snoc rfl (henter _ 1)).snoc rfl hdraw₀).snoc rfl
    hdraw₁).snoc rfl (hset _ 0)
  exact ⟨_, rfl, Or.inl rfl, rfl, (numbers_unique _ _ hmeets rfl).2⟩

/-- Two callbacks overlap and draw the same number in the same second: both connections hold it, and
the second insertion overwrites the entry of the first connection. -/
theorem same_number_twice :
    ∃ s t, run connectStep .start [.enter 0, .enter 1, .draw 0 ⟨1, 5⟩, .draw 1 ⟨1, 5⟩,
        .setContext 0, .setContext 1, .insert 0] = some s ∧
      (s.pcs 0).Holds 0x10005 ∧ (s.pcs 1).Holds 0x10005 ∧
      s.pcs 0 = .up 0x10005 ∧ s.connections[(0x10005 : Dnid)]? = some ⟨0, 3⟩ ∧
      connectStep s (.insert 1) = some t ∧ t.connections[(0x10005 : Dnid)]? = some ⟨1, 3⟩ ∧
      t.pcs 0 = .up 0x10005 :=
  ⟨_, _, rfl, Or.inr rfl, Or.inl rfl, rfl, rfl, rfl, rfl, rfl⟩

end PetsServer

import PetsServer.Object.Manager

/-!
# Who deletes an object

The operations of a `CObjectManager` are called in any order, and the destructor last. As long as no
call of `Clear` or `Destroy` deletes anything, the manager holds only objects that are alive
(`Owned`), and no use comes after a `delete`. A call that does delete leaves the addresses in the
map (`Stale`), and then the destructor, if nothing before it, deletes an object for the second time.
Both are kept by every other operation, by induction on `Serves`; together they give
`manager_safe_iff`.
-/

namespace PetsServer

open Foundations

/-- The operations. -/
inductive ManagerOp
  | realseObject (dnid : Dnid)
  | run
  | clear
  | destroy
  | locate (gid : Dnid)
  | traversalObjects (traversalFunc : CObjectManager.TraversalFunc)

/-- The manager an operation leaves, and what it does with objects. -/
def ManagerOp.apply (m : CObjectManager) : ManagerOp → CObjectManager × Uses
  | realseObject dnid => ((m.realseObject dnid).1, (m.realseObject dnid).2.1)
  | run => (m.run, [])
  | clear => m.clear
  | destroy => m.destroy
  | locate gid => (m, (m.locate gid).toList.map .expose)
  | traversalObjects f => ((m.traversalObjects f).1, (m.traversalObjects f).2.1)

/-- `Clear` and `Destroy` are one operation. -/
def ManagerOp.Clears : ManagerOp → Prop
  | clear | destroy => True
  | _ => False

/-- A manager after some operations, with all they have done with objects. -/
structure Managed where
  manager : CObjectManager
  uses : Uses

/-- One operation. -/
def managerStep (s : Managed) (op : ManagerOp) : Option Managed :=
  some ⟨(op.apply s.manager).1, s.uses ++ (op.apply s.manager).2⟩

namespace CObjectManager

theorem apply_cases (m : CObjectManager) (op : ManagerOp) :
    Serves m (op.apply m).2 (op.apply m).1 ∨ op.apply m = (m.run, []) ∨
      (op.Clears ∧ op.apply m = m.clear) := by
  cases op with
  | realseObject dnid => exact .inl (serves_realseObject m dnid)
  | run => exact .inr (.inl rfl)
  | clear => exact .inr (.inr ⟨trivial, rfl⟩)
  | destroy => exact .inr (.inr ⟨trivial, rfl⟩)
  | locate gid => exact .inl (serves_locate m gid)
  | traversalObjects f => exact .inl (serves_traverse f _ [] m)

/-- An operation that clears is `Clear`. -/
theorem apply_of_clears (m : CObjectManager) {op : ManagerOp} (h : op.Clears) :
    op.apply m = m.clear := by
  cases op <;> first | rfl | exact False.elim h

/-! ## Objects that are alive -/

/-- The objects of the map are distinct, and none has been released. -/
structure Owned (dead : List ObjId) (m : CObjectManager) : Prop where
  distinct : ∀ k k' obj, m.Holds k obj → m.Holds k' obj → k = k'
  live : ∀ k obj, m.Holds k obj → obj ∉ dead

/-- Deleting everything is safe once. -/
theorem Owned.safe_clear {dead : List ObjId} {m : CObjectManager} (h : Owned dead m) :
    Safe dead m.clear.2 := by
  refine safe_map_release (nodup_objects h.distinct) fun obj hobj => ?_
  obtain ⟨k, hk⟩ := mem_objects_iff.mp hobj
  exact h.live k obj hk

theorem Owned.realseObject {dead : List ObjId} {m : CObjectManager} (h : Owned dead m)
    (dnid : Dnid) : Safe dead (m.realseObject dnid).2.1 ∧
      Owned (dead ++ releases (m.realseObject dnid).2.1) (m.realseObject dnid).1 := by
  by_cases hex : ∃ obj, m.Holds dnid obj
  · obtain ⟨obj, hobj⟩ := hex
    have huses : (m.realseObject dnid).2.1 = [.release obj] := by rw [realseObject_of_holds hobj]
    rw [huses]
    refine ⟨⟨h.live dnid obj hobj, trivial⟩, ?_, ?_⟩
    · intro k k' o hk hk'
      exact h.distinct k k' o (holds_realseObject_iff.mp hk).1 (holds_realseObject_iff.mp hk').1
    · intro k o hk
      obtain ⟨hold, hne⟩ := holds_realseObject_iff.mp hk
      rw [releases_release, releases_nil, List.mem_append, List.mem_singleton, not_or]
      refine ⟨h.live k o hold, ?_⟩
      rintro rfl
      exact hne (h.distinct dnid k o hobj hold)
  · rw [realseObject_of_not_holds (not_exists.mp hex)]
    exact ⟨trivial, by rwa [releases_nil, List.append_nil]⟩

/-- **The step lemma for objects that are alive.** -/
theorem Owned.serves {dead : List ObjId} {m m' : CObjectManager} {uses : Uses} (h : Owned dead m)
    (hs : Serves m uses m') : Safe dead uses ∧ Owned (dead ++ releases uses) m' := by
  induction hs generalizing dead with
  | done m => exact ⟨trivial, by rwa [releases_nil, List.append_nil]⟩
  | expose hold _ ih => exact ⟨⟨h.live _ _ hold, (ih h).1⟩, (ih h).2⟩
  | release dnid _ ih =>
    obtain ⟨hsafe, howned⟩ := h.realseObject dnid
    rw [safe_append, releases_append, ← List.append_assoc]
    exact ⟨⟨hsafe, (ih howned).1⟩, (ih howned).2⟩

/-! ## Addresses of objects that have been released -/

/-- The map has the address of a released object. -/
def Stale (dead : List ObjId) (m : CObjectManager) : Prop := ∃ k obj, m.Holds k obj ∧ obj ∈ dead

/-- The destructor deletes the object again. -/
theorem Stale.not_safe_clear {dead : List ObjId} {m : CObjectManager} (h : Stale dead m) :
    ¬ Safe dead m.clear.2 := by
  obtain ⟨k, obj, hold, hdead⟩ := h
  exact not_safe_of_release hdead (List.mem_map_of_mem (mem_objects_iff.mpr ⟨k, hold⟩))

/-- **The step lemma for stale addresses**: an address stays, unless its object is deleted again. -/
theorem Stale.serves {dead : List ObjId} {m m' : CObjectManager} {uses : Uses} (h : Stale dead m)
    (hs : Serves m uses m') (hsafe : Safe dead uses) : Stale (dead ++ releases uses) m' := by
  induction hs generalizing dead with
  | done m => rwa [releases_nil, List.append_nil]
  | expose _ _ ih => exact ih h hsafe.2
  | @release m _ _ dnid _ ih =>
    obtain ⟨k, obj, hold, hdead⟩ := h
    obtain ⟨hfst, hsnd⟩ := safe_append.mp hsafe
    rw [releases_append, ← List.append_assoc]
    refine ih ⟨k, obj, holds_realseObject_iff.mpr ⟨hold, ?_⟩, List.mem_append_left _ hdead⟩ hsnd
    rintro rfl
    rw [realseObject_of_holds hold] at hfst
    exact hfst.1 hdead

/-! ## Any operations in any order -/

theorem Serves.removeList_eq {m m' : CObjectManager} {uses : Uses} (hs : Serves m uses m') :
    m'.removeList = m.removeList := by
  induction hs with
  | done => rfl
  | expose _ _ ih => exact ih
  | @release m _ _ dnid _ ih =>
    rw [ih]
    unfold CObjectManager.realseObject
    split <;> rfl

/-- Between two operations nothing is waiting to be removed. -/
theorem removeList_apply {m : CObjectManager} (hm : m.removeList = []) (op : ManagerOp) :
    (op.apply m).1.removeList = [] := by
  rcases apply_cases m op with hs | hrun | ⟨-, hclear⟩
  · rw [hs.removeList_eq, hm]
  · rw [hrun]
    rfl
  · rw [hclear]
    exact hm

/-- What an operation that clears nothing keeps. -/
theorem Owned.apply {dead : List ObjId} {m : CObjectManager} (h : Owned dead m)
    (hm : m.removeList = []) {op : ManagerOp} (hop : op.Clears → m.objects = []) :
    Safe dead (op.apply m).2 ∧ Owned (dead ++ releases (op.apply m).2) (op.apply m).1 := by
  rcases apply_cases m op with hs | hrun | ⟨hclears, hclear⟩
  · exact h.serves hs
  · rw [hrun, releases_nil, List.append_nil]
    refine ⟨trivial, ?_, ?_⟩
    · intro k k' obj hk hk'
      exact h.distinct k k' obj ((holds_run_iff hm).mp hk) ((holds_run_iff hm).mp hk')
    · intro k obj hk
      exact h.live k obj ((holds_run_iff hm).mp hk)
  · have huses : m.clear.2 = [] := by rw [clear, hop hclears, List.map_nil]
    rw [hclear, huses, releases_nil, List.append_nil]
    exact ⟨trivial, h.distinct, h.live⟩

/-- What any operation keeps, unless it uses a released object. -/
theorem Stale.apply {dead : List ObjId} {m : CObjectManager} (h : Stale dead m)
    (hm : m.removeList = []) {op : ManagerOp} (hsafe : Safe dead (op.apply m).2) :
    Stale (dead ++ releases (op.apply m).2) (op.apply m).1 := by
  rcases apply_cases m op with hs | hrun | ⟨-, hclear⟩
  · exact h.serves hs hsafe
  · obtain ⟨k, obj, hold, hdead⟩ := h
    rw [hrun]
    exact ⟨k, obj, (holds_run_iff hm).mpr hold, List.mem_append_left _ hdead⟩
  · rw [hclear] at hsafe
    exact absurd hsafe h.not_safe_clear

end CObjectManager

open CObjectManager

theorem exists_run_managerStep (s : Managed) (ops : List ManagerOp) :
    ∃ t, run managerStep s ops = some t := by
  induction ops generalizing s with
  | nil => exact ⟨s, rfl⟩
  | cons op ops ih =>
    obtain ⟨t, ht⟩ := ih ⟨(op.apply s.manager).1, s.uses ++ (op.apply s.manager).2⟩
    exact ⟨t, run_cons_eq_some.mpr ⟨_, rfl, ht⟩⟩

theorem removeList_of_run {s t : Managed} {ops : List ManagerOp} (hm : s.manager.removeList = [])
    (hrun : run managerStep s ops = some t) : t.manager.removeList = [] := by
  refine run_invariant (fun s : Managed => s.manager.removeList = []) ?_ hm hrun
  intro s op t hs ht
  obtain rfl := Option.some.inj ht
  exact removeList_apply hs op

/-- **The run lemma for objects that are alive.** -/
theorem owned_of_run {m : CObjectManager} (hm : m.removeList = []) (h : Owned [] m)
    {ops : List ManagerOp} {s : Managed}
    (hops : Meets managerStep (fun s op => op.Clears → s.manager.objects = []) ⟨m, []⟩ ops)
    (hrun : run managerStep ⟨m, []⟩ ops = some s) :
    Safe [] s.uses ∧ Owned (releases s.uses) s.manager := by
  refine (run_invariant_of_meets (fun s : Managed => s.manager.removeList = [] ∧
    Safe [] s.uses ∧ Owned (releases s.uses) s.manager) ?_ ?_ hops hrun).2
  · rintro s op t ⟨hrem, hsafe, howned⟩ hop ht
    obtain rfl := Option.some.inj ht
    obtain ⟨hsafe', howned'⟩ := howned.apply hrem hop
    refine ⟨removeList_apply hrem op, safe_append.mpr ⟨hsafe, hsafe'⟩, ?_⟩
    rwa [releases_append]
  · exact ⟨hm, trivial, h⟩

/-- **The run lemma for stale addresses.** -/
theorem stale_of_run {s t : Managed} {ops : List ManagerOp} (hm : s.manager.removeList = [])
    (h : Stale (releases s.uses) s.manager) (hrun : run managerStep s ops = some t)
    (hsafe : Safe [] t.uses) : Stale (releases t.uses) t.manager := by
  refine (run_invariant (fun s : Managed => s.manager.removeList = [] ∧
    (Safe [] s.uses → Stale (releases s.uses) s.manager)) ?_ ?_ hrun).2 hsafe
  · rintro s op t ⟨hrem, hstale⟩ ht
    obtain rfl := Option.some.inj ht
    refine ⟨removeList_apply hrem op, fun hsafe => ?_⟩
    obtain ⟨hfst, hsnd⟩ := safe_append.mp hsafe
    rw [releases_append]
    exact (hstale hfst).apply hrem hsnd
  · exact ⟨hm, fun _ => h⟩

/-- **When no object is used after its `delete`.** From a map of distinct live objects, and whatever
the operations, no object is deleted twice, and none is handed out after its `delete`, by the time
the destructor has run, if and only if each call of `Clear` or `Destroy` before it found no object
in the map. -/
theorem manager_safe_iff (lMaxSize : Int64) (objectMap : Std.ExtTreeMap Dnid (Option ObjId))
    (hdistinct : ∀ (k k' : Dnid) (obj : ObjId), objectMap[k]? = some (some obj) →
      objectMap[k']? = some (some obj) → k = k') (ops : List ManagerOp) :
    (∀ s, run managerStep ⟨.ofMap lMaxSize objectMap, []⟩ ops = some s →
      Safe [] (s.uses ++ s.manager.destructor)) ↔
    Meets managerStep (fun s op => op.Clears → s.manager.objects = [])
      ⟨.ofMap lMaxSize objectMap, []⟩ ops := by
  have howned : Owned [] (.ofMap lMaxSize objectMap) := ⟨hdistinct, fun _ _ _ => List.not_mem_nil⟩
  constructor
  · rintro hsafe pre op s t ⟨post, rfl⟩ hrun ht hclears
    by_contra hobj
    obtain ⟨obj, hobj⟩ := List.exists_mem_of_ne_nil _ hobj
    obtain ⟨k, hold⟩ := mem_objects_iff.mp hobj
    obtain rfl := Option.some.inj ht
    have hrem : s.manager.removeList = [] := removeList_of_run rfl hrun
    -- the address of `obj` stays in the map after `Clear` has deleted the object
    have hstale : Stale (releases (s.uses ++ (op.apply s.manager).2)) (op.apply s.manager).1 := by
      rw [apply_of_clears _ hclears]
      refine ⟨k, obj, hold, ?_⟩
      rw [releases_append]
      refine List.mem_append_right _ ?_
      rw [clear, releases_map_release]
      exact hobj
    obtain ⟨u, hu⟩ := exists_run_managerStep
      ⟨(op.apply s.manager).1, s.uses ++ (op.apply s.manager).2⟩ post
    obtain ⟨hfst, hsnd⟩ := safe_append.mp (hsafe u (run_trans (run_snoc hrun rfl) hu))
    exact (stale_of_run (removeList_apply hrem op) hstale hu hfst).not_safe_clear hsnd
  · intro hops s hrun
    obtain ⟨hsafe, howned⟩ := owned_of_run rfl howned hops hrun
    exact safe_append.mpr ⟨hsafe, howned.safe_clear⟩

/-- Two objects: one is released, and a traversal releases the other. -/
theorem manager_safe_two_objects :
    ∃ s, run managerStep ⟨.ofMap 0 (((∅ : Std.ExtTreeMap Dnid (Option ObjId)).insert 7
        (some 1)).insert 9 (some 2)), []⟩
      [.locate 7, .realseObject 7, .traversalObjects fun _ _ _ => ([9], true), .run] = some s ∧
      Safe [] (s.uses ++ s.manager.destructor) := by
  obtain ⟨s, hrun⟩ := exists_run_managerStep ⟨.ofMap 0 (((∅ : Std.ExtTreeMap Dnid
    (Option ObjId)).insert 7 (some 1)).insert 9 (some 2)), []⟩
    [.locate 7, .realseObject 7, .traversalObjects fun _ _ _ => ([9], true), .run]
  refine ⟨s, hrun, (manager_safe_iff _ _ ?_ _).mpr (meets_of_forall ?_) s hrun⟩
  · intro k k' obj hk hk'
    simp only [Std.ExtTreeMap.getElem?_insert, Std.LawfulEqCmp.compare_eq_iff_eq] at hk hk'
    grind
  · intro op hop s hclears
    simp only [List.mem_cons, List.not_mem_nil, or_false] at hop
    rcases hop with rfl | rfl | rfl | rfl <;> exact False.elim hclears

/-- `Clear`, and then the destructor: the object is deleted twice. -/
theorem clear_then_destructor :
    ∃ s, run managerStep ⟨.ofMap 0 ((∅ : Std.ExtTreeMap Dnid (Option ObjId)).insert 7 (some 1)), []⟩
      [.clear] = some s ∧ s.uses ++ s.manager.destructor = [.release 1, .release 1] ∧
      ¬ Safe [] (s.uses ++ s.manager.destructor) :=
  ⟨_, rfl, by decide, by decide⟩

end PetsServer

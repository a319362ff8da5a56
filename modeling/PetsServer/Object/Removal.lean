import PetsServer.Foundations.Run
import PetsServer.Object.Manager

/-!
# Deferred removal

`RealseObject` leaves a null entry behind, and `Run` erases it later. Whatever is asked of the
manager in between, it answers like a map of the objects alone, from which `RealseObject` erases its
key at once and in which `Run` does nothing (`removal_refines_map`).
-/

namespace PetsServer

open Foundations

/-- A map of objects, without null entries. -/
abbrev LiveMap := Std.ExtTreeMap Dnid ObjId

/-- The operations that remove. -/
inductive RemovalOp
  | realseObject (dnid : Dnid)
  | run
  deriving DecidableEq, Repr

/-- The manager an operation leaves, what it does with objects and what it returns. -/
def RemovalOp.apply (m : CObjectManager) : RemovalOp → CObjectManager × Uses × Bool
  | realseObject dnid => m.realseObject dnid
  | run => (m.run, [], true)

/-- What an operation is for, in a map of objects. -/
def LiveMap.apply (live : LiveMap) : RemovalOp → LiveMap × Uses × Bool
  | .realseObject dnid =>
    (live.erase dnid, live[dnid]?.toList.map .release, live[dnid]?.isSome)
  | .run => (live, [], true)

namespace CObjectManager

/-- The objects in the map, under their numbers. -/
def live (m : CObjectManager) : LiveMap := m.objectMap.filterMap fun _ obj => obj

/-- `CObjectManager::size` -/
def size (m : CObjectManager) : ℕ := m.objectMap.size

variable {m : CObjectManager}

theorem getElem?_live (m : CObjectManager) (k : Dnid) : m.live[k]? = m.objectMap[k]?.join := by
  rw [live, Std.ExtTreeMap.getElem?_filterMap']
  cases m.objectMap[k]? <;> rfl

theorem getElem?_live_eq_some_iff {k : Dnid} {obj : ObjId} :
    m.live[k]? = some obj ↔ m.Holds k obj := by
  rw [getElem?_live, Option.join_eq_some_iff]
  rfl

/-- Two managers with the same objects. -/
theorem live_ext {m' : CObjectManager} (h : ∀ k obj, m.Holds k obj ↔ m'.Holds k obj) :
    m.live = m'.live := by
  apply Std.ExtTreeMap.ext_getElem?
  intro k
  ext obj
  rw [getElem?_live_eq_some_iff, getElem?_live_eq_some_iff]
  exact h k obj

theorem locate_eq_live (m : CObjectManager) (k : Dnid) : m.locate k = m.live[k]? :=
  (getElem?_live m k).symm

/-- `RealseObject` erases its key from the objects. -/
theorem live_realseObject (m : CObjectManager) (dnid : Dnid) :
    (m.realseObject dnid).1.live = m.live.erase dnid := by
  apply Std.ExtTreeMap.ext_getElem?
  intro k
  ext obj
  rw [getElem?_live_eq_some_iff, holds_realseObject_iff, Std.ExtTreeMap.getElem?_erase]
  by_cases hk : dnid = k
  · simp [hk]
  · simp [hk, getElem?_live_eq_some_iff]

/-- It deletes the object under the key, and returns whether there is one. -/
theorem realseObject_snd (m : CObjectManager) (dnid : Dnid) :
    (m.realseObject dnid).2 = (m.live[dnid]?.toList.map .release, m.live[dnid]?.isSome) := by
  cases hlive : m.live[dnid]? with
  | some obj =>
    rw [realseObject_of_holds (getElem?_live_eq_some_iff.mp hlive)]
    rfl
  | none =>
    have hnone : ∀ obj, ¬ m.Holds dnid obj := by
      intro obj hobj
      rw [← getElem?_live_eq_some_iff, hlive] at hobj
      cases hobj
    rw [realseObject_of_not_holds hnone]
    rfl

theorem removeList_realseObject (m : CObjectManager) (dnid : Dnid) :
    (m.realseObject dnid).1.removeList = m.removeList := by
  unfold realseObject
  split <;> rfl

/-- `Run` leaves the objects alone. -/
theorem live_run (hm : m.removeList = []) : m.run.live = m.live :=
  live_ext fun _ _ => holds_run_iff hm

/-- `Run` erases the null entries and no others. -/
theorem getElem?_run (hm : m.removeList = []) (k : Dnid) :
    m.run.objectMap[k]? = if m.objectMap[k]? = some none then none else m.objectMap[k]? := by
  have hmem : k ∈ (m.objectMap.toList.filter (·.2.isNone)).map (·.1) ↔
      m.objectMap[k]? = some none := by
    simp only [List.mem_map, List.mem_filter, Prod.exists,
      Std.ExtTreeMap.mem_toList_iff_getElem?_eq_some]
    constructor
    · rintro ⟨dnid, obj, ⟨hget, hnone⟩, rfl⟩
      rw [hget, Option.isNone_iff_eq_none.mp hnone]
    · exact fun hget => ⟨k, none, ⟨hget, rfl⟩, rfl⟩
  simp only [run, hm, List.nil_append, getElem?_foldl_erase, hmem]

/-- After `Run` every entry is an object. -/
theorem size_run (hm : m.removeList = []) : m.run.size = m.live.size := by
  rw [← live_run hm]
  refine (Std.ExtTreeMap.size_filterMap_eq_size_iff.mpr fun k hk => ?_).symm
  have hget := getElem?_run hm k
  rw [Std.ExtTreeMap.getElem?_eq_some_getElem hk] at hget
  split_ifs at hget with hnone
  rw [← hget] at hnone
  exact Option.isSome_iff_ne_none.mpr fun heq => hnone (congrArg some heq)

end CObjectManager

/-- Between two operations nothing is waiting to be removed, and the map has the objects of the
abstract map. -/
structure Represents (m : CObjectManager) (live : LiveMap) : Prop where
  live_eq : m.live = live
  removeList : m.removeList = []

/-- **The step lemma**: every operation does to the manager what it is for. -/
theorem simulates_removal : Simulates Represents RemovalOp.apply LiveMap.apply where
  step := by
    rintro m live ⟨rfl, hm⟩ op
    cases op with
    | realseObject dnid =>
      exact ⟨m.live_realseObject dnid, (m.removeList_realseObject dnid).trans hm⟩
    | run => exact ⟨CObjectManager.live_run hm, rfl⟩
  output := by
    rintro m live ⟨rfl, -⟩ op
    cases op with
    | realseObject dnid => exact m.realseObject_snd dnid
    | run => rfl

/-- **Deferred removal refines a finite map.** After any calls of `RealseObject` and `Run`, which
have deleted and returned what they should, `_Locate` finds the objects of the abstract map. A
further `RealseObject` returns whether its key is in the abstract map, deletes the object there and
erases that key; and a `Run` leaves the abstract map alone, erases exactly the null entries, and
leaves as many entries as there are objects and an empty list. -/
theorem removal_refines_map (lMaxSize : Int64)
    (objectMap : Std.ExtTreeMap Dnid (Option ObjId)) (ops : List RemovalOp) :
    let start := CObjectManager.ofMap lMaxSize objectMap
    let m := (perform RemovalOp.apply start ops).1
    let live := (perform LiveMap.apply start.live ops).1
    (perform RemovalOp.apply start ops).2 = (perform LiveMap.apply start.live ops).2 ∧
      m.live = live ∧ (∀ k, m.locate k = live[k]?) ∧
      (∀ k, ((m.realseObject k).2.2 = true ↔ k ∈ live) ∧
        (m.realseObject k).2.1 = live[k]?.toList.map .release ∧
        (m.realseObject k).1.live = live.erase k) ∧
      m.run.live = live ∧
      (∀ k : Dnid, m.run.objectMap[k]? =
        if m.objectMap[k]? = some none then none else m.objectMap[k]?) ∧
      m.run.removeList = [] ∧ m.run.size = live.size := by
  intro start m live
  obtain ⟨⟨hlive, hm⟩, houts⟩ :=
    simulates_removal.perform (s := start) (t := start.live) ⟨rfl, rfl⟩ ops
  change m.live = live at hlive
  rw [← hlive]
  refine ⟨houts, rfl, m.locate_eq_live, fun k => ⟨?_, ?_, m.live_realseObject k⟩,
    CObjectManager.live_run hm, CObjectManager.getElem?_run hm, rfl, CObjectManager.size_run hm⟩
  · rw [m.realseObject_snd k]
    exact (Std.ExtTreeMap.mem_iff_isSome_getElem? (t := m.live)).symm
  · rw [m.realseObject_snd k]

end PetsServer

import PetsServer.Define
import PetsServer.Foundations.Ownership
import PetsServer.Foundations.Run
import Std.Data.ExtTreeMap

/-!
# The object manager

`CObjectManager` owns objects under connection numbers. An object is known by its address; an entry
of the map can be null. An operation returns the manager it leaves together with what it did with
objects: `release` is a `delete`, and `expose` hands an object out, to the caller of `_Locate` or to
the callback of `TraversalObjects`.

`Serves` says in one relation what every operation but `Run` and `Clear` does with the objects: it
hands out objects that are in the map, and releases entries.
-/

namespace PetsServer

open Foundations

/-- The address of an object; a pointer is an `Option ObjId`, and null is `none`. -/
abbrev ObjId := ℕ

/-- The uses of objects by an operation. -/
abbrev Uses := List (Use ObjId)

/-- `CObjectManager` -/
structure CObjectManager where
  lMaxSize : Int64
  objectMap : Std.ExtTreeMap Dnid (Option ObjId)
  removeList : List Dnid

namespace CObjectManager

/-- A manager with the given limit and map. -/
def ofMap (lMaxSize : Int64) (objectMap : Std.ExtTreeMap Dnid (Option ObjId)) : CObjectManager :=
  ⟨lMaxSize, objectMap, []⟩

/-- The object is in the map under the number. -/
def Holds (m : CObjectManager) (dnid : Dnid) (obj : ObjId) : Prop :=
  m.objectMap[dnid]? = some (some obj)

/-- The objects in the map, in the order of their numbers. -/
def objects (m : CObjectManager) : List ObjId := m.objectMap.toList.filterMap (·.2)

/-- `CObjectManager::Run` -/
def run (m : CObjectManager) : CObjectManager :=
  let nulls := (m.objectMap.toList.filter (·.2.isNone)).map (·.1)
  { m with
    objectMap := (m.removeList ++ nulls).foldl (·.erase ·) m.objectMap
    removeList := [] }

/-- `CObjectManager::RealseObject` -/
def realseObject (m : CObjectManager) (dnid : Dnid) : CObjectManager × Uses × Bool :=
  match m.objectMap[dnid]? with
  | some (some ret) =>
    ({ m with objectMap := m.objectMap.insert dnid none }, [.release ret], true)
  | _ => (m, [], false)

/-- `CObjectManager::_Locate` -/
def locate (m : CObjectManager) (gid : Dnid) : Option ObjId := m.objectMap[gid]?.join

/-- `CObjectManager::Clear`. The pointer that is set to null after the `delete` is a local variable:
the map keeps the address. -/
def clear (m : CObjectManager) : CObjectManager × Uses :=
  ({ m with lMaxSize := 0 }, m.objects.map .release)

/-- `CObjectManager::Destroy` -/
def destroy (m : CObjectManager) : CObjectManager × Uses := m.clear

/-- The destructor. -/
def destructor (m : CObjectManager) : Uses := m.clear.2

/-- Several calls of `RealseObject`. -/
def realseObjects (m : CObjectManager) : List Dnid → CObjectManager × Uses
  | [] => (m, [])
  | dnid :: dnids =>
    let (m', uses, _) := m.realseObject dnid
    let (m'', uses') := m'.realseObjects dnids
    (m'', uses ++ uses')

/-- A callback of `TraversalObjects`: from what it can see, the manager and the objects it was
called with, which objects it releases, and what it returns. -/
abbrev TraversalFunc := CObjectManager → List ObjId → ObjId → List Dnid × Bool

/-- The loop of `TraversalObjects`, over the keys that are still to come. -/
def traverse (traversalFunc : TraversalFunc) :
    List Dnid → List ObjId → CObjectManager → CObjectManager × Uses
  | [], _, m => (m, [])
  | dnid :: dnids, seen, m =>
    match m.locate dnid with
    | none => traverse traversalFunc dnids seen m
    | some obj =>
      let (released, result) := traversalFunc m seen obj
      let (m', uses) := m.realseObjects released
      if result then
        let (m'', uses') := traverse traversalFunc dnids (seen ++ [obj]) m'
        (m'', .expose obj :: uses ++ uses')
      else (m', .expose obj :: uses)

/-- `CObjectManager::TraversalObjects` -/
def traversalObjects (m : CObjectManager) (traversalFunc : TraversalFunc) :
    CObjectManager × Uses × Int32 :=
  let (m', uses) := traverse traversalFunc m.objectMap.keys [] m
  (m', uses, Int32.ofNat m'.objectMap.size)

/-! ## What the operations leave in the map -/

theorem locate_eq_some_iff {m : CObjectManager} {dnid : Dnid} {obj : ObjId} :
    m.locate dnid = some obj ↔ m.Holds dnid obj :=
  Option.join_eq_some_iff

theorem realseObject_of_holds {m : CObjectManager} {dnid : Dnid} {obj : ObjId}
    (h : m.Holds dnid obj) : m.realseObject dnid =
      ({ m with objectMap := m.objectMap.insert dnid none }, [.release obj], true) := by
  rw [realseObject, show m.objectMap[dnid]? = some (some obj) from h]

theorem realseObject_of_not_holds {m : CObjectManager} {dnid : Dnid}
    (h : ∀ obj, ¬ m.Holds dnid obj) : m.realseObject dnid = (m, [], false) := by
  unfold realseObject
  split
  · rename_i obj hget
    exact absurd hget (h obj)
  · rfl

/-- `RealseObject` takes its own entry out, and no other. -/
theorem holds_realseObject_iff {m : CObjectManager} {dnid k : Dnid} {obj : ObjId} :
    (m.realseObject dnid).1.Holds k obj ↔ m.Holds k obj ∧ dnid ≠ k := by
  by_cases hex : ∃ o, m.Holds dnid o
  · obtain ⟨o, ho⟩ := hex
    rw [realseObject_of_holds ho]
    simp only [Holds, Std.ExtTreeMap.getElem?_insert, Std.LawfulEqCmp.compare_eq_iff_eq]
    by_cases hk : dnid = k <;> simp [hk]
  · rw [realseObject_of_not_holds (not_exists.mp hex)]
    refine ⟨fun h => ⟨h, ?_⟩, And.left⟩
    rintro rfl
    exact hex ⟨obj, h⟩

theorem getElem?_foldl_erase (dnids : List Dnid) (map : Std.ExtTreeMap Dnid (Option ObjId))
    (k : Dnid) : (dnids.foldl (·.erase ·) map)[k]? = if k ∈ dnids then none else map[k]? := by
  induction dnids generalizing map with
  | nil => simp
  | cons dnid dnids ih =>
    rw [List.foldl_cons, ih, Std.ExtTreeMap.getElem?_erase]
    simp only [Std.LawfulEqCmp.compare_eq_iff_eq, List.mem_cons, eq_comm (a := k)]
    by_cases h : k ∈ dnids <;> by_cases h' : dnid = k <;> simp [h, h']

/-- `Run` takes no object out of the map. -/
theorem holds_run_iff {m : CObjectManager} (hm : m.removeList = []) {k : Dnid} {obj : ObjId} :
    m.run.Holds k obj ↔ m.Holds k obj := by
  simp only [Holds, run, hm, List.nil_append, getElem?_foldl_erase]
  split
  · rename_i hmem
    obtain ⟨⟨k', v⟩, hv, rfl⟩ := List.mem_map.mp hmem
    obtain ⟨hget, hnone⟩ := List.mem_filter.mp hv
    rw [Std.ExtTreeMap.mem_toList_iff_getElem?_eq_some] at hget
    obtain rfl := Option.isNone_iff_eq_none.mp hnone
    simp [hget]
  · rfl

theorem mem_objects_iff {m : CObjectManager} {obj : ObjId} :
    obj ∈ m.objects ↔ ∃ k, m.Holds k obj := by
  simp only [objects, List.mem_filterMap, Prod.exists,
    Std.ExtTreeMap.mem_toList_iff_getElem?_eq_some]
  constructor
  · rintro ⟨k, v, hget, rfl⟩
    exact ⟨k, hget⟩
  · rintro ⟨k, hget⟩
    exact ⟨k, some obj, hget, rfl⟩

/-- Objects under distinct numbers that are distinct are listed once each. -/
theorem nodup_objects {m : CObjectManager}
    (h : ∀ k k' obj, m.Holds k obj → m.Holds k' obj → k = k') : m.objects.Nodup := by
  refine List.pairwise_filterMap.mpr (m.objectMap.distinct_keys_toList.imp_of_mem ?_)
  rintro ⟨k, v⟩ ⟨k', v'⟩ hv hv' hne obj rfl obj' rfl rfl
  rw [Std.ExtTreeMap.mem_toList_iff_getElem?_eq_some] at hv hv'
  exact hne (Std.LawfulEqCmp.compare_eq_iff_eq.mpr (h k k' obj hv hv'))

/-! ## Handing out and releasing -/

/-- The manager hands out objects that it holds, and releases entries. -/
inductive Serves : CObjectManager → Uses → CObjectManager → Prop
  | done (m : CObjectManager) : Serves m [] m
  | expose {m m' : CObjectManager} {uses : Uses} {dnid : Dnid} {obj : ObjId} :
      m.Holds dnid obj → Serves m uses m' → Serves m (.expose obj :: uses) m'
  | release {m m' : CObjectManager} {uses : Uses} (dnid : Dnid) :
      Serves (m.realseObject dnid).1 uses m' → Serves m ((m.realseObject dnid).2.1 ++ uses) m'

theorem Serves.trans {m m' m'' : CObjectManager} {us vs : Uses} (h₁ : Serves m us m')
    (h₂ : Serves m' vs m'') : Serves m (us ++ vs) m'' := by
  induction h₁ with
  | done => exact h₂
  | expose hold _ ih => exact .expose hold (ih h₂)
  | release dnid _ ih =>
    rw [List.append_assoc]
    exact .release dnid (ih h₂)

theorem serves_realseObject (m : CObjectManager) (dnid : Dnid) :
    Serves m (m.realseObject dnid).2.1 (m.realseObject dnid).1 := by
  have h := Serves.release dnid (Serves.done (m.realseObject dnid).1)
  rwa [List.append_nil] at h

theorem serves_realseObjects (m : CObjectManager) (dnids : List Dnid) :
    Serves m (m.realseObjects dnids).2 (m.realseObjects dnids).1 := by
  induction dnids generalizing m with
  | nil => exact .done m
  | cons dnid dnids ih => exact .release dnid (ih (m.realseObject dnid).1)

theorem serves_traverse (traversalFunc : TraversalFunc) (dnids : List Dnid) (seen : List ObjId)
    (m : CObjectManager) :
    Serves m (traverse traversalFunc dnids seen m).2 (traverse traversalFunc dnids seen m).1 := by
  induction dnids generalizing seen m with
  | nil => exact .done m
  | cons dnid dnids ih =>
    unfold traverse
    split
    · exact ih seen m
    · rename_i obj hloc
      have hreleased := serves_realseObjects m (traversalFunc m seen obj).1
      have hold := locate_eq_some_iff.mp hloc
      simp only
      split
      · exact .expose hold (hreleased.trans (ih _ _))
      · exact .expose hold hreleased

theorem serves_locate (m : CObjectManager) (gid : Dnid) :
    Serves m ((m.locate gid).toList.map .expose) m := by
  cases hloc : m.locate gid with
  | none => exact .done m
  | some obj => exact .expose (locate_eq_some_iff.mp hloc) (.done m)

end CObjectManager

end PetsServer

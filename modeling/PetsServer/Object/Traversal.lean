import PetsServer.Foundations.ForLoop
import PetsServer.Object.Manager

/-!
# Traversals that release objects

The callback of `TraversalObjects` can release objects of the manager it goes over. `RealseObject`
sets entries to null and erases none, so that the loop keeps its way over the keys, and looks at
each entry when its turn comes (`traversalObjects_visits`). Only the number it returns is cut to an
`int` (`traversal_count_overflows`).
-/

namespace PetsServer

open Foundations

variable {σ : Type*}

/-- A callback of `TraversalObjects` that remembers a `σ`, behind its `void*` or elsewhere: from
that, the manager and the object it is called with, what it remembers next, which objects it
releases, and whether what it returns is not 0. -/
abbrev StatefulFunc (σ : Type*) := σ → CObjectManager → ObjId → σ × List Dnid × Bool

/-- In the loop of `TraversalObjects`: what the callback remembers, the manager, and what has been
done with objects. -/
structure Traversing (σ : Type*) where
  param : σ
  manager : CObjectManager
  uses : Uses

/-- The pointer in the entry of a key. -/
def Traversing.entry (t : Traversing σ) (dnid : Dnid) : Option ObjId := t.manager.locate dnid

/-- The body of the loop. -/
def traversalBody (f : StatefulFunc σ) (t : Traversing σ) (dnid : Dnid) : Traversing σ × Bool :=
  match t.entry dnid with
  | none => (t, true)
  | some obj =>
    let (param, released, result) := f t.param t.manager obj
    let (manager, uses) := t.manager.realseObjects released
    (⟨param, manager, t.uses ++ .expose obj :: uses⟩, result)

namespace CObjectManager

/-- `CObjectManager::TraversalObjects`, for a callback with a memory. -/
def traversalObjectsWith (m : CObjectManager) (f : StatefulFunc σ) (param : σ) :
    CObjectManager × Uses × Int32 :=
  let t := forLoop (traversalBody f) ⟨param, m, []⟩ m.objectMap.keys
  (t.manager, t.uses, Int32.ofNat t.manager.objectMap.size)

/-- The turns of the loop: each key that it comes to, with what it finds there. -/
def traversalTurns (m : CObjectManager) (f : StatefulFunc σ) (param : σ) :
    List (Traversing σ × Dnid) :=
  turns (traversalBody f) ⟨param, m, []⟩ m.objectMap.keys

/-! ## The entries of the map -/

/-- `RealseObject` keeps the number of entries. -/
theorem size_realseObject (m : CObjectManager) (dnid : Dnid) :
    (m.realseObject dnid).1.objectMap.size = m.objectMap.size := by
  by_cases hex : ∃ obj, m.Holds dnid obj
  · obtain ⟨obj, hobj⟩ := hex
    have hmem : m.objectMap.contains dnid = true := by
      rw [Std.ExtTreeMap.contains_eq_isSome_getElem?, hobj]
      rfl
    rw [realseObject_of_holds hobj, Std.ExtTreeMap.size_insert, if_pos hmem]
  · rw [realseObject_of_not_holds (not_exists.mp hex)]

theorem size_realseObjects (m : CObjectManager) (dnids : List Dnid) :
    (m.realseObjects dnids).1.objectMap.size = m.objectMap.size := by
  induction dnids generalizing m with
  | nil => rfl
  | cons dnid dnids ih => exact (ih _).trans (m.size_realseObject dnid)

/-- A callback that only uses what it is called with is one that remembers the objects. -/
theorem traversalObjects_eq (m : CObjectManager) (f : TraversalFunc) :
    m.traversalObjects f =
      m.traversalObjectsWith (fun seen m obj => (seen ++ [obj], f m seen obj)) [] := by
  have hloop : ∀ (dnids : List Dnid) (seen : List ObjId) (m : CObjectManager) (uses : Uses),
      let t := forLoop (traversalBody fun seen m obj => (seen ++ [obj], f m seen obj))
        ⟨seen, m, uses⟩ dnids
      t.manager = (traverse f dnids seen m).1 ∧ t.uses = uses ++ (traverse f dnids seen m).2 := by
    intro dnids
    induction dnids with
    | nil => exact fun seen m uses => ⟨rfl, (List.append_nil uses).symm⟩
    | cons dnid dnids ih =>
      intro seen m uses
      cases hentry : m.locate dnid with
      | none =>
        simpa [forLoop, traversalBody, Traversing.entry, traverse, hentry] using ih seen m uses
      | some obj =>
        cases hresult : (f m seen obj).2 with
        | true =>
          simpa [forLoop, traversalBody, Traversing.entry, traverse, hentry, hresult] using
            ih (seen ++ [obj]) (m.realseObjects (f m seen obj).1).1
              (uses ++ .expose obj :: (m.realseObjects (f m seen obj).1).2)
        | false =>
          simp [forLoop, traversalBody, Traversing.entry, traverse, hentry, hresult]
  obtain ⟨hmanager, huses⟩ := hloop m.objectMap.keys [] m []
  simp only [traversalObjects, traversalObjectsWith, hmanager, huses, List.nil_append]

/-! ## The turns -/

/-- The objects that the callback is called with, and their keys. -/
def traversalCalls (m : CObjectManager) (f : StatefulFunc σ) (param : σ) : List (Dnid × ObjId) :=
  (m.traversalTurns f param).filterMap fun t => (t.1.entry t.2).map (t.2, ·)

/-- `RealseObject` hands nothing out. -/
theorem exposures_realseObjects (m : CObjectManager) (dnids : List Dnid) :
    exposures (m.realseObjects dnids).2 = [] := by
  induction dnids generalizing m with
  | nil => rfl
  | cons dnid dnids ih =>
    have hone : exposures (m.realseObject dnid).2.1 = [] := by
      unfold realseObject
      split <;> rfl
    simp only [realseObjects, exposures_append, hone, ih, List.append_nil]

/-- A turn hands out the object in the entry, if there is one. -/
theorem exposures_traversalBody (f : StatefulFunc σ) (t : Traversing σ) (dnid : Dnid) :
    exposures (traversalBody f t dnid).1.uses =
      exposures t.uses ++ (t.entry dnid).toList := by
  cases hentry : t.entry dnid with
  | none => simp [traversalBody, hentry]
  | some obj => simp [traversalBody, hentry, exposures_realseObjects]

theorem size_traversalBody (f : StatefulFunc σ) (t : Traversing σ) (dnid : Dnid) :
    (traversalBody f t dnid).1.manager.objectMap.size = t.manager.objectMap.size := by
  cases hentry : t.entry dnid with
  | none => simp [traversalBody, hentry]
  | some obj => simp [traversalBody, hentry, size_realseObjects]

theorem exposures_traversalObjectsWith (m : CObjectManager) (f : StatefulFunc σ) (param : σ) :
    exposures (m.traversalObjectsWith f param).2.1 = (m.traversalCalls f param).map Prod.snd := by
  have hloop := forLoop_append (fun t : Traversing σ => exposures t.uses)
    (fun t dnid => (t.entry dnid).toList) (exposures_traversalBody f) ⟨param, m, []⟩
    m.objectMap.keys
  have hcalls : (m.traversalCalls f param).map Prod.snd =
      (m.traversalTurns f param).filterMap fun t => t.1.entry t.2 := by
    rw [traversalCalls, List.map_filterMap]
    refine List.filterMap_congr fun t _ => ?_
    rw [Option.map_map]
    exact Option.map_id_apply
  rw [hcalls, List.filterMap_eq_flatMap_toList]
  exact hloop.trans (List.nil_append _)

/-- The keys come in their order. -/
theorem pairwise_keys (m : CObjectManager) : m.objectMap.keys.Pairwise (· < ·) :=
  m.objectMap.ordered_keys.imp fun h => Std.compare_eq_lt.mp h

theorem pairwise_traversalCalls (m : CObjectManager) (f : StatefulFunc σ) (param : σ) :
    ((m.traversalCalls f param).map Prod.fst).Pairwise (· < ·) := by
  have hturns : ((m.traversalTurns f param).map Prod.snd).Pairwise (· < ·) :=
    m.pairwise_keys.sublist (turns_isPrefix _ _).sublist
  rw [List.pairwise_map] at hturns ⊢
  refine hturns.filterMap _ fun t t' hlt call hcall call' hcall' => ?_
  obtain ⟨obj, -, rfl⟩ := Option.map_eq_some_iff.mp hcall
  obtain ⟨obj', -, rfl⟩ := Option.map_eq_some_iff.mp hcall'
  exact hlt

theorem size_traversalObjectsWith (m : CObjectManager) (f : StatefulFunc σ) (param : σ) :
    (m.traversalObjectsWith f param).1.objectMap.size = m.objectMap.size :=
  forLoop_invariant (fun t : Traversing σ => t.manager.objectMap.size = m.objectMap.size)
    (fun t dnid h => (size_traversalBody f t dnid).trans h) rfl _

theorem count_traversalObjectsWith (m : CObjectManager) (f : StatefulFunc σ) (param : σ) :
    (m.traversalObjectsWith f param).2.2 = Int32.ofNat m.objectMap.size :=
  congrArg Int32.ofNat (m.size_traversalObjectsWith f param)

/-- Fewer than 2³¹ entries are counted right. -/
theorem toInt_count_traversalObjectsWith (m : CObjectManager) (f : StatefulFunc σ) (param : σ)
    (h : m.objectMap.size < 2 ^ 31) :
    (m.traversalObjectsWith f param).2.2.toInt = m.objectMap.size := by
  rw [count_traversalObjectsWith]
  exact Int32.toInt_ofNat_of_lt h

end CObjectManager

/-- **Traversals are safe under releases.** The callback is called with the objects of exactly those
entries that are not null when their turn comes, in the order of their keys and once each. The first
turn finds the manager as it is, and every other what the one before has left; a turn comes only if
the call in the turn before, if any, has not returned 0; and every key has its turn unless a call
has returned 0. The number of entries is returned, as an `int`: when there are fewer than 2³¹, it is
that number. -/
theorem traversalObjects_visits (m : CObjectManager) (f : StatefulFunc σ) (param : σ) :
    let ts := m.traversalTurns f param
    exposures (m.traversalObjectsWith f param).2.1 = (m.traversalCalls f param).map Prod.snd ∧
      m.traversalCalls f param = ts.filterMap (fun t => (t.1.entry t.2).map (t.2, ·)) ∧
      ((m.traversalCalls f param).map Prod.fst).Pairwise (· < ·) ∧
      (∀ t ∈ ts.head?, t.1 = ⟨param, m, []⟩) ∧
      (ts.IsChain fun t t' => traversalBody f t.1 t.2 = (t'.1, true)) ∧
      ts.map Prod.snd <+: m.objectMap.keys ∧
      ((∀ t ∈ ts, (traversalBody f t.1 t.2).2 = true) → ts.map Prod.snd = m.objectMap.keys) ∧
      (m.traversalObjectsWith f param).2.2 = Int32.ofNat m.objectMap.size ∧
      (m.objectMap.size < 2 ^ 31 →
        (m.traversalObjectsWith f param).2.2.toInt = m.objectMap.size) := by
  intro ts
  exact ⟨m.exposures_traversalObjectsWith f param, rfl, m.pairwise_traversalCalls f param,
    fun t ht => fst_of_mem_head?_turns _ _ ht, isChain_turns _ _, turns_isPrefix _ _,
    turns_of_forall _ _, m.count_traversalObjectsWith f param,
    m.toInt_count_traversalObjectsWith f param⟩

/-- Two objects; the callback releases the second when it is called with the first. -/
theorem traversalObjects_visits_two :
    let m := CObjectManager.ofMap 0 (((∅ : Std.ExtTreeMap Dnid (Option ObjId)).insert 7
      (some 1)).insert 9 (some 2))
    let f : StatefulFunc ℕ := fun n _ _ => (n + 1, [9], true)
    exposures (m.traversalObjectsWith f 0).2.1 = (m.traversalCalls f 0).map Prod.snd ∧
      (m.traversalTurns f 0).map Prod.snd = m.objectMap.keys ∧
      (m.traversalObjectsWith f 0).2.2.toInt = m.objectMap.size := by
  intro m f
  obtain ⟨hcalls, -, -, -, -, -, hall, -, hcount⟩ := traversalObjects_visits m f 0
  have hsize : m.objectMap.size < 2 ^ 31 := by decide
  refine ⟨hcalls, hall fun t _ => ?_, hcount hsize⟩
  unfold traversalBody
  cases t.1.entry t.2 <;> rfl

/-- A map of `n` null entries. -/
def nullEntries (n : ℕ) : Std.ExtTreeMap Dnid (Option ObjId) :=
  .ofList ((List.range n).map fun i => (UInt32.ofNat i, none))

theorem size_nullEntries {n : ℕ} (h : n ≤ 2 ^ 32) : (nullEntries n).size = n := by
  rw [nullEntries, Std.ExtTreeMap.size_ofList, List.length_map, List.length_range]
  rw [List.pairwise_map]
  refine List.nodup_range.imp_of_mem fun {i j} hi hj hne heq => hne ?_
  have hof : (UInt32.ofNat i).toNat = (UInt32.ofNat j).toNat :=
    congrArg UInt32.toNat (Std.LawfulEqCmp.compare_eq_iff_eq.mp heq)
  have hi : i < UInt32.size := (List.mem_range.mp hi).trans_le h
  have hj : j < UInt32.size := (List.mem_range.mp hj).trans_le h
  rwa [UInt32.toNat_ofNat_of_lt' hi, UInt32.toNat_ofNat_of_lt' hj] at hof

/-- Of 2147483648 entries, a negative number is returned. -/
theorem traversal_count_overflows :
    ((CObjectManager.ofMap 0 (nullEntries (2 ^ 31))).traversalObjectsWith
      (fun (n : ℕ) _ _ => (n, [], true)) 0).2.2.toInt ≠
      (CObjectManager.ofMap 0 (nullEntries (2 ^ 31))).objectMap.size := by
  have hsize : (CObjectManager.ofMap 0 (nullEntries (2 ^ 31))).objectMap.size = 2 ^ 31 :=
    size_nullEntries (Nat.pow_le_pow_right Nat.two_pos (by omega))
  have hcount : ((CObjectManager.ofMap 0 (nullEntries (2 ^ 31))).traversalObjectsWith
      (fun (n : ℕ) _ _ => (n, [], true)) 0).2.2 = Int32.ofNat (2 ^ 31) := by
    rw [CObjectManager.count_traversalObjectsWith, hsize]
  rw [hcount, hsize]
  decide

end PetsServer

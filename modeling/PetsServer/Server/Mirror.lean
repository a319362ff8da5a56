import PetsServer.Server.Server

/-!
# The table of the live connections

Whatever happens to the server, the connections map is the table of the connections that are up,
each under the number in its context (`connections_mirror`). The context of a connection is set by
`onConnection` alone, and so always holds a number; the number is composed of a reading whose lower
half is less than `0xFFFF`, and so is never the placeholder of a new `Pet`.
-/

namespace PetsServer

open Foundations

/-! ## The numbers -/

/-- The lower half of a number is the random part. -/
theorem Reading.toNat_dnid_mod (r : Reading) : r.dnid.toNat % 2 ^ 16 = r.rand.val % 0xFFFF := by
  have hrand : r.rand.val % 0xFFFF < 2 ^ 16 := by omega
  have hbits : r.dnid.toBitVec =
      ((r.time.toBitVec <<< 16) ||| BitVec.ofNat 64 (r.rand.val % 0xFFFF)).setWidth 32 := rfl
  have hnat : r.dnid.toNat = ((r.time.toBitVec.toNat <<< 16 % 2 ^ 64) |||
      (r.rand.val % 0xFFFF % 2 ^ 64)) % 2 ^ 32 := by
    rw [← UInt32.toNat_toBitVec, hbits]
    simp only [BitVec.toNat_setWidth, BitVec.toNat_or, BitVec.toNat_shiftLeft, BitVec.toNat_ofNat]
  have hshift : r.time.toBitVec.toNat <<< 16 % 2 ^ 64 % 2 ^ 16 = 0 := by
    rw [Nat.shiftLeft_eq]
    omega
  rw [hnat, Nat.mod_mod_of_dvd _ (by decide : 2 ^ 16 ∣ 2 ^ 32), Nat.or_mod_two_pow, hshift,
    Nat.zero_or]
  omega

/-- No number is the placeholder of a new `Pet`. -/
theorem Reading.dnid_ne_placeholder (r : Reading) : r.dnid ≠ Pet.new.getDnid := by
  intro h
  have hmod := r.toNat_dnid_mod
  rw [h] at hmod
  have hall : Pet.new.getDnid.toNat % 2 ^ 16 = 0xFFFF := by decide
  omega

namespace Server

/-! ## The invariant -/

/-- The connection is up, and its context holds the number. -/
def Up (s : Server) (c : ConnId) (dnid : Dnid) : Prop :=
  ∃ est buf, s.conns c = .up est buf ∧ est.context = .dnid dnid

/-- The contexts hold numbers, and the map has the entries of the connections that are up, and no
other. -/
structure Mirrors (s : Server) : Prop where
  context : ∀ c est buf, s.conns c = .up est buf → est = .ofDnid est.dnid
  entry : ∀ c dnid, s.Up c dnid → s.connections[dnid]? = some ⟨c, 3⟩
  live : ∀ dnid e, s.connections[dnid]? = some e → s.Up e.conn dnid
  proper : Pet.new.getDnid ∉ s.connections

theorem mirrors_start : Mirrors start := by
  refine ⟨fun c est buf h => ConnState.noConfusion h, ?_, ?_, Std.ExtTreeMap.not_mem_empty⟩
  · rintro c dnid ⟨est, buf, h, -⟩
    exact ConnState.noConfusion h
  · intro dnid e h
    rw [show start.connections[dnid]? = none from Std.ExtTreeMap.getElem?_empty] at h
    cases h

theorem up_setConn_iff {s : Server} {c c' : ConnId} {state : ConnState} {dnid : Dnid} :
    (s.setConn c state).Up c' dnid ↔
      (c' = c ∧ ∃ est buf, state = .up est buf ∧ est.context = .dnid dnid) ∨
        (c' ≠ c ∧ s.Up c' dnid) := by
  simp only [Up, setConn]
  by_cases hc : c' = c
  · subst hc
    simp
  · simp [hc]

/-- A connection that is up is up under one number. -/
theorem Up.unique {s : Server} {c : ConnId} {d d' : Dnid} (h : s.Up c d) (h' : s.Up c d') :
    d = d' := by
  obtain ⟨est, buf, hup, hd⟩ := h
  obtain ⟨est', buf', hup', hd'⟩ := h'
  rw [hup] at hup'
  injection hup' with hest
  rw [← hest, hd] at hd'
  exact Context.dnid.inj hd'

/-- The two ways to say that a connection is up under a number. -/
theorem Mirrors.up_iff {s : Server} (hs : s.Mirrors) {c : ConnId} {est : Established} {buf : Buffer}
    (hup : s.conns c = .up est buf) {dnid : Dnid} : s.Up c dnid ↔ est.dnid = dnid := by
  have hctx : est.context = .dnid est.dnid := by rw [hs.context c est buf hup]; rfl
  constructor
  · intro h
    exact Up.unique ⟨est, buf, hup, hctx⟩ h
  · rintro rfl
    exact ⟨est, buf, hup, hctx⟩

theorem Mirrors.up {s : Server} (hs : s.Mirrors) {c : ConnId} (hfresh : s.conns c = .fresh)
    (r : Reading) (hnew : r.dnid ∉ s.connections) : (s.onConnectionUp c r.dnid).Mirrors := by
  have hnotup : ∀ dnid, ¬ s.Up c dnid := by
    rintro dnid ⟨est, buf, h, -⟩
    rw [hfresh] at h
    cases h
  have hup : ∀ c' dnid, (s.onConnectionUp c r.dnid).Up c' dnid ↔
      (c' = c ∧ r.dnid = dnid) ∨ (c' ≠ c ∧ s.Up c' dnid) := by
    intro c' dnid
    refine up_setConn_iff.trans (or_congr (and_congr_right fun _ => ?_) Iff.rfl)
    constructor
    · rintro ⟨est, buf, h, hd⟩
      injection h with h
      rw [← h] at hd
      exact Context.dnid.inj hd
    · rintro rfl
      exact ⟨_, _, rfl, rfl⟩
  constructor
  · intro c' est buf h
    by_cases hc : c' = c
    · subst hc
      have h' := (Function.update_self _ _ _).symm.trans h
      injection h' with hest
      rw [← hest]
      rfl
    · exact hs.context c' est buf ((Function.update_of_ne hc _ _).symm.trans h)
  · intro c' dnid h
    show (s.connections.insert r.dnid _)[dnid]? = _
    rw [Std.ExtTreeMap.getElem?_insert]
    simp only [Std.LawfulEqCmp.compare_eq_iff_eq]
    rcases (hup c' dnid).mp h with ⟨rfl, hd⟩ | ⟨-, h⟩
    · rw [if_pos hd]
    · have he := hs.entry c' dnid h
      refine (if_neg ?_).trans he
      rintro rfl
      exact hnew (Std.ExtTreeMap.mem_iff_isSome_getElem?.mpr (by rw [he]; rfl))
  · intro dnid e h
    change (s.connections.insert r.dnid _)[dnid]? = _ at h
    rw [Std.ExtTreeMap.getElem?_insert] at h
    simp only [Std.LawfulEqCmp.compare_eq_iff_eq] at h
    rw [hup]
    split at h
    · rename_i hd
      cases h
      exact Or.inl ⟨rfl, hd⟩
    · have hlive := hs.live dnid e h
      refine Or.inr ⟨?_, hlive⟩
      rintro rfl
      exact hnotup dnid hlive
  · show Pet.new.getDnid ∉ s.connections.insert r.dnid _
    rw [Std.ExtTreeMap.mem_insert]
    simp only [Std.LawfulEqCmp.compare_eq_iff_eq, not_or]
    exact ⟨r.dnid_ne_placeholder, hs.proper⟩

theorem Mirrors.down {s : Server} (hs : s.Mirrors) {c : ConnId} {est : Established} {buf : Buffer}
    (hup : s.conns c = .up est buf) : (s.onConnectionDown c est).Mirrors := by
  obtain ⟨pets, heq⟩ := s.onConnectionDown_spec c est
  have hown := hs.entry c est.dnid ((hs.up_iff hup).mpr rfl)
  have hdown : ∀ c' dnid, (s.onConnectionDown c est).Up c' dnid ↔ c' ≠ c ∧ s.Up c' dnid := by
    intro c' dnid
    rw [heq]
    exact up_setConn_iff.trans (by simp)
  constructor
  · intro c' est' buf' h
    rw [heq] at h
    by_cases hc : c' = c
    · subst hc
      cases (Function.update_self _ _ _).symm.trans h
    · exact hs.context c' est' buf' ((Function.update_of_ne hc _ _).symm.trans h)
  · intro c' dnid h
    obtain ⟨hne, h⟩ := (hdown c' dnid).mp h
    have he := hs.entry c' dnid h
    rw [heq]
    simp only [Std.ExtTreeMap.getElem?_erase, Std.LawfulEqCmp.compare_eq_iff_eq]
    refine (if_neg ?_).trans he
    rintro rfl
    rw [hown] at he
    cases he
    exact hne rfl
  · intro dnid e h
    rw [heq] at h
    simp only [Std.ExtTreeMap.getElem?_erase, Std.LawfulEqCmp.compare_eq_iff_eq] at h
    rw [hdown]
    split at h
    · cases h
    · rename_i hne
      have hlive := hs.live dnid e h
      refine ⟨?_, hlive⟩
      rintro rfl
      exact hne ((hs.up_iff hup).mp hlive)
  · rw [heq]
    simp only [Std.ExtTreeMap.mem_erase, not_and]
    exact fun _ => hs.proper

/-- Bytes that arrive change neither the map nor a context. -/
theorem Mirrors.recv {s : Server} (hs : s.Mirrors) {c : ConnId} {est : Established} {buf : Buffer}
    (hup : s.conns c = .up est buf) (chunk : List Byte) :
    (s.onMessage c est buf chunk).Mirrors := by
  obtain ⟨buf', heq⟩ := s.onMessage_spec c est buf chunk
  have hsame : ∀ c' dnid, (s.onMessage c est buf chunk).Up c' dnid ↔ s.Up c' dnid := by
    intro c' dnid
    rw [heq]
    refine up_setConn_iff.trans ?_
    by_cases hc : c' = c
    · subst hc
      simp [Up, hup]
    · simp [hc]
  constructor
  · intro c' est' buf'' h
    rw [heq] at h
    by_cases hc : c' = c
    · subst hc
      have h' := (Function.update_self _ _ _).symm.trans h
      injection h' with hest
      exact hest ▸ hs.context c' est buf hup
    · exact hs.context c' est' buf'' ((Function.update_of_ne hc _ _).symm.trans h)
  · intro c' dnid h
    rw [heq]
    exact hs.entry c' dnid ((hsame c' dnid).mp h)
  · intro dnid e h
    rw [hsame]
    rw [heq] at h
    exact hs.live dnid e h
  · rw [heq]
    exact hs.proper

/-- **The step lemma.** -/
theorem Mirrors.step {s t : Server} {a : ServerAction} (hs : s.Mirrors)
    (h : serverStep s a = some t) : t.Mirrors := by
  cases serverStep_cases h with
  | up c pre r hfresh _ hnew => exact hs.up hfresh r hnew
  | down c est buf hup => exact hs.down hup
  | recv c est buf chunk hup => exact hs.recv hup chunk
  | dispatch q queue hq =>
    obtain ⟨m, e, heq⟩ := s.dispatchMsg_spec q.pack queue
    rw [heq]
    exact ⟨hs.context, hs.entry, hs.live, hs.proper⟩
  | petsRun => exact ⟨hs.context, hs.entry, hs.live, hs.proper⟩

/-- **The run lemma.** -/
theorem mirrors_of_run {acts : List ServerAction} {s : Server}
    (hrun : run serverStep .start acts = some s) : s.Mirrors :=
  run_invariant Mirrors (fun _ _ _ hs ht => hs.step ht) mirrors_start hrun

end Server

/-- **The connections map mirrors the live connections.** After any run, the keys are the numbers in
the contexts of the connections that are up, each key has the entry of the connection whose context
holds it, and none is the placeholder of a new `Pet`; and a connection that goes down takes its own
entry out of the map, and no other. -/
theorem connections_mirror (acts : List ServerAction) (s : Server)
    (hrun : run serverStep .start acts = some s) :
    (∀ dnid, dnid ∈ s.connections ↔ ∃ c, s.Up c dnid) ∧
      (∀ dnid e, s.connections[dnid]? = some e → s.Up e.conn dnid) ∧
      Pet.new.getDnid ∉ s.connections ∧
      ∀ c t, serverStep s (.down c) = some t → ∃ dnid, s.Up c dnid ∧
        s.connections[dnid]? = some ⟨c, 3⟩ ∧
        ∀ k, t.connections[k]? = if dnid = k then none else s.connections[k]? := by
  have hs := Server.mirrors_of_run hrun
  refine ⟨fun dnid => ?_, hs.live, hs.proper, fun c t ht => ?_⟩
  · rw [Std.ExtTreeMap.mem_iff_isSome_getElem?, Option.isSome_iff_exists]
    constructor
    · rintro ⟨e, he⟩
      exact ⟨e.conn, hs.live dnid e he⟩
    · rintro ⟨c, hc⟩
      exact ⟨_, hs.entry c dnid hc⟩
  · cases serverStep_cases ht with
    | down _ est buf hup =>
      have hown := (hs.up_iff hup).mpr rfl
      refine ⟨est.dnid, hown, hs.entry c est.dnid hown, fun k => ?_⟩
      obtain ⟨pets, heq⟩ := s.onConnectionDown_spec c est
      rw [heq]
      simp only [Std.ExtTreeMap.getElem?_erase, Std.LawfulEqCmp.compare_eq_iff_eq]

/-- Two connections go up, and the first of them goes down. -/
theorem connections_mirror_two :
    ∃ s, run serverStep .start [.up 0 [⟨1, 5⟩], .up 1 [⟨1, 5⟩, ⟨1, 6⟩], .down 0] = some s ∧
      (∃ c, s.Up c 0x10006) ∧ Pet.new.getDnid ∉ s.connections := by
  have hrun : run serverStep .start [.up 0 [⟨1, 5⟩], .up 1 [⟨1, 5⟩, ⟨1, 6⟩], .down 0] =
      some _ := rfl
  have h := connections_mirror _ _ hrun
  exact ⟨_, hrun, (h.1 _).mp (by decide), h.2.2.1⟩

end PetsServer

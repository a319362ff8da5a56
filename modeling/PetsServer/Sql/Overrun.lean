import PetsServer.Sql.Binding
import PetsServer.Sql.Outcome
import PetsServer.Sql.Written

/-!
# The size of PrepareBuffer

`Execute` compares the length of its `SET` with the size of `PrepareBuffer` only after the loop that
writes it. `buffer_safe_iff` says for which parameters the loop stays in the block: it counts the
bytes that the loop writes, piece by piece.
-/

namespace PetsServer

open Foundations

/-! ## The number of bytes -/

/-- The digits that are written for a blob: two for each byte of the declared length, whatever the
size of the block. -/
def SqlParam.digitsSize (param : SqlParam) : ℕ :=
  match param.bindValue with
  | .voidPtr _ => 2 * param.lens
  | _ => 0

/-- The bytes of the piece of a parameter, if there is a piece. The name of a user variable has
three. -/
def SqlParam.pieceSize (garbage : List Byte) (param : SqlParam) : Option ℕ :=
  match param.direction with
  | .vIn => if param.type = .blob then some (8 + param.digitsSize) else none
  | .vOut => some 11
  | .vInout =>
    if param.type = .blob then some param.digitsSize
    else if param.valueFault = none then some (7 + (cString garbage).length)
    else some 0

/-- The zero after the piece, if `sprintf` writes one. -/
def SqlParam.terminatorSize (param : SqlParam) : ℕ :=
  match param.direction with
  | .vIn => if param.type = .blob ∧ param.digitsSize ≠ 0 then 1 else 0
  | .vOut => 1
  | .vInout =>
    if param.type = .blob then if param.digitsSize = 0 then 0 else 1
    else if param.valueFault = none then 1 else 0

/-- The bytes of the text with one more parameter, after `n` bytes: the piece comes after the word
`set` or a comma. -/
def SqlParam.sizeAfter (garbage : List Byte) (param : SqlParam) (n : ℕ) : ℕ :=
  (param.pieceSize garbage).elim n fun size => (if n = 0 then 3 else n + 1) + size

/-- The value can be used, though the block of a blob may be too short: then it is read beyond its
end. -/
def SqlParam.Usable (param : SqlParam) : Prop :=
  param.fault = none ∨ param.fault = some .outOfBounds

/-- The bytes of all pieces after `n` bytes, with the zero after each piece, are in the block, up to
the first parameter whose value cannot be used. -/
def BytesFit (garbage : ℕ → List Byte) (n : ℕ) : ℕ → List SqlParam → Prop
  | _, [] => True
  | i, param :: params =>
    param.sizeAfter (garbage i) n + param.terminatorSize ≤ prepareBufferSize ∧
      (param.Usable → BytesFit garbage (param.sizeAfter (garbage i) n) (i + 1) params)

section Size

variable {garbage : ℕ → List Byte} {params : List SqlParam} {param : SqlParam} {i : ℕ}

/-- There are at most ten variables. -/
theorem length_userVariable (hi : i < maxParamCount) : (userVariable i).length = 3 := by
  unfold maxParamCount at hi
  interval_cases i <;> rfl

/-- The block of a blob is as long as declared, or it is not one. -/
theorem two_mul_length_blobBytes (htype : param.type = .blob)
    (h : param.valueFault ≠ some .outOfBounds) :
    2 * param.blobBytes.length = param.digitsSize := by
  obtain ⟨direction, type, lens, value⟩ := param
  obtain rfl : type = .blob := htype
  cases value with
  | voidPtr block =>
    have hle : lens ≤ block.length := by
      by_contra hnot
      exact h (by simp [SqlParam.valueFault, hnot])
    simp [SqlParam.blobBytes, SqlParam.digitsSize, hle]
  | empty | int | int64 | charPtr | other => rfl

theorem two_mul_length_blobBytes_le (param : SqlParam) :
    2 * param.blobBytes.length ≤ param.digitsSize := by
  unfold SqlParam.blobBytes SqlParam.digitsSize
  cases param.bindValue with
  | voidPtr block =>
    have := List.length_take_le param.lens block
    simp only
    omega
  | empty | int | int64 | charPtr | other => exact Nat.zero_le _

/-- Only a blob has a block that can be too short. -/
theorem type_of_outOfBounds (h : param.valueFault = some .outOfBounds) : param.type = .blob := by
  obtain ⟨direction, type, lens, value⟩ := param
  cases type <;> cases value <;> first | rfl | cases h | skip
  rename_i pointer
  cases pointer <;> cases h

theorem length_piece (hknown : param.type.Known) (hi : i < maxParamCount) (garbage : List Byte)
    (hwhole : param.fault ≠ some .outOfBounds) :
    (param.piece garbage i).map List.length = param.pieceSize garbage := by
  have hname := length_userVariable hi
  have hset : (ascii " = 0x").length = 5 := rfl
  have hnull : (ascii " = null").length = 7 := rfl
  have hequal : (ascii " = ").length = 3 := rfl
  have hblank : (ascii " ").length = 1 := rfl
  unfold SqlParam.fault at hwhole
  unfold SqlParam.piece SqlParam.pieceSize
  cases hdirection : param.direction with
  | vIn =>
    rw [if_neg (by simp [hdirection])] at hwhole
    by_cases htype : param.type = .blob
    · simp only [htype, if_true, Option.map_some, List.length_append, length_flatMap_hexByte, hname,
        hset, ← two_mul_length_blobBytes htype hwhole]
    · simp only [htype, if_false, Option.map_none]
  | vOut => simp only [Option.map_some, List.length_append, hname, hnull, hblank]
  | vInout =>
    rw [if_neg (by simp [hdirection])] at hwhole
    by_cases htype : param.type = .blob
    · simp only [htype, if_true, Option.map_some, length_flatMap_hexByte,
        ← two_mul_length_blobBytes htype hwhole]
    · have hnil := valueText_eq_nil_iff hknown htype
      by_cases hfault : param.valueFault = none
      · have hne : param.valueText ≠ [] := fun h => hnil.mp h hfault
        simp only [htype, hne, hfault, if_false, if_true, Option.map_some, List.length_append,
          hname, hequal, hblank]
      · simp only [htype, hnil.mpr hfault, hfault, if_false, if_true, Option.map_some,
          List.length_nil]

theorem length_terminator (hknown : param.type.Known) (hwhole : param.fault ≠ some .outOfBounds) :
    param.terminator.length = param.terminatorSize := by
  unfold SqlParam.fault at hwhole
  unfold SqlParam.terminator SqlParam.terminatorSize
  have hdigits (htype : param.type = .blob) (h : param.valueFault ≠ some .outOfBounds) :
      param.blobBytes = [] ↔ param.digitsSize = 0 := by
    rw [← two_mul_length_blobBytes htype h, ← List.length_eq_zero_iff]
    omega
  cases hdirection : param.direction with
  | vIn =>
    rw [if_neg (by simp [hdirection])] at hwhole
    by_cases htype : param.type = .blob
    · have hnil := hdigits htype hwhole
      by_cases hzero : param.digitsSize = 0 <;> simp [htype, hnil, hzero]
    · simp [htype]
  | vOut => rfl
  | vInout =>
    rw [if_neg (by simp [hdirection])] at hwhole
    by_cases htype : param.type = .blob
    · have hnil := hdigits htype hwhole
      by_cases hzero : param.digitsSize = 0 <;> simp [htype, hnil, hzero]
    · have hnil := valueText_eq_nil_iff hknown htype
      by_cases hfault : param.valueFault = none
      · have hne : param.valueText ≠ [] := fun h => hnil.mp h hfault
        simp [htype, hfault, hne]
      · simp [htype, hfault, hnil.mpr hfault]

theorem length_separated_set (text : List Byte) :
    (separated (ascii "set") (ascii ",") text).length =
      if text.length = 0 then 3 else text.length + 1 := by
  cases text with
  | nil => rfl
  | cons c text => exact List.length_append

theorem length_addPiece (hknown : param.type.Known) (hi : i < maxParamCount)
    (garbage text : List Byte) (hwhole : param.fault ≠ some .outOfBounds) :
    (addPiece garbage i param text).length = param.sizeAfter garbage text.length := by
  rw [addPiece, SqlParam.sizeAfter, ← length_piece hknown hi garbage hwhole]
  cases param.piece garbage i with
  | none => rfl
  | some piece =>
    change (separated (ascii "set") (ascii ",") text ++ piece).length = _
    rw [List.length_append, length_separated_set]
    rfl

/-- A block that is too short gives fewer digits. -/
theorem length_addPiece_le (hi : i < maxParamCount) (garbage text : List Byte)
    (hshort : param.fault = some .outOfBounds) :
    (addPiece garbage i param text ++ param.terminator).length ≤
      param.sizeAfter garbage text.length + param.terminatorSize := by
  have hdirection : param.direction ≠ .vOut := fun h => by simp [SqlParam.fault, h] at hshort
  have hfault : param.valueFault = some .outOfBounds := by
    rwa [SqlParam.fault, if_neg hdirection] at hshort
  have htype := type_of_outOfBounds hfault
  have hle := two_mul_length_blobBytes_le param
  have hterminator : param.terminator.length ≤ param.terminatorSize := by
    have hnil : param.blobBytes ≠ [] → param.digitsSize ≠ 0 := by
      intro hne
      have := List.length_pos_iff.mpr hne
      omega
    unfold SqlParam.terminator SqlParam.terminatorSize
    cases hdir : param.direction with
    | vOut => exact absurd hdir hdirection
    | vIn | vInout =>
      by_cases hblob : param.blobBytes = []
      · simp [htype, hblob]
      · simp [htype, hblob, hnil hblob]
  have hname := length_userVariable hi
  have hset : (ascii " = 0x").length = 5 := rfl
  have hseparated := length_separated_set text
  rw [List.length_append]
  refine Nat.add_le_add ?_ hterminator
  unfold addPiece SqlParam.sizeAfter SqlParam.piece SqlParam.pieceSize joinPiece
  cases hdir : param.direction with
  | vOut => exact absurd hdir hdirection
  | vIn | vInout =>
    simp only [htype, if_true, Option.elim_some, List.length_append, length_flatMap_hexByte, hname,
      hset, hseparated]
    omega

/-- **The digits that are counted are enough.** -/
theorem setFits_of_bytesFit (hknown : ∀ param ∈ params, param.type.Known)
    (hcount : i + params.length ≤ maxParamCount) (text : List Byte)
    (h : BytesFit garbage text.length i params) : SetFits garbage text i params := by
  induction params generalizing i text with
  | nil => trivial
  | cons param params ih =>
    obtain ⟨hparam, hparams⟩ := List.forall_mem_cons.mp hknown
    rw [List.length_cons] at hcount
    obtain ⟨hfit, hrest⟩ := h
    have hi : i < maxParamCount := by omega
    by_cases hshort : param.fault = some .outOfBounds
    · refine ⟨(length_addPiece_le hi _ _ hshort).trans hfit, fun hnone => ?_⟩
      cases hshort.symm.trans hnone
    · have hlength := length_addPiece hparam hi (garbage i) text hshort
      refine ⟨?_, fun hnone => ih hparams (by omega) _ ?_⟩
      · rwa [List.length_append, hlength, length_terminator hparam hshort]
      · rw [hlength]
        exact hrest (.inl hnone)

/-- When no block is too short, they are those that are written. -/
theorem bytesFit_of_setFits (hknown : ∀ param ∈ params, param.type.Known)
    (hwhole : ∀ param ∈ params, param.fault ≠ some .outOfBounds)
    (hcount : i + params.length ≤ maxParamCount) (text : List Byte)
    (h : SetFits garbage text i params) : BytesFit garbage text.length i params := by
  induction params generalizing i text with
  | nil => trivial
  | cons param params ih =>
    obtain ⟨hparam, hparams⟩ := List.forall_mem_cons.mp hknown
    obtain ⟨hshort, hwhole⟩ := List.forall_mem_cons.mp hwhole
    rw [List.length_cons] at hcount
    obtain ⟨hfit, hrest⟩ := h
    have hlength := length_addPiece hparam (by omega : i < maxParamCount) (garbage i) text hshort
    rw [List.length_append, hlength, length_terminator hparam hshort] at hfit
    refine ⟨hfit, fun husable => ?_⟩
    rw [← hlength]
    exact ih hparams hwhole (by omega) _ (hrest (husable.resolve_right hshort))

end Size

/-! ## Behind the blocks -/

/-- The value, when these bytes lie in memory behind its block. -/
def AnyValue.followedBy (behind : List Byte) : AnyValue → AnyValue
  | .voidPtr block => .voidPtr (block ++ behind)
  | value => value

/-- The parameter, when these bytes lie behind the block of its value. -/
def SqlParam.followedBy (behind : List Byte) (param : SqlParam) : SqlParam :=
  { param with bindValue := param.bindValue.followedBy behind }

/-- The signature, when such bytes lie behind the blocks of the values. -/
def Signature.followedBy (behind : ℕ → List Byte) (s : Signature) : Signature :=
  { s with parameters := s.parameters.mapIdx fun i p => p.followedBy (behind i) }

/-- The world, when such bytes lie behind the blocks of the values. -/
def SqlWorld.followedBy (behind : ℕ → List Byte) (w : SqlWorld) : SqlWorld :=
  { w with helper := { w.helper with toSignature := w.helper.toSignature.followedBy behind } }

section Behind

variable {garbage : ℕ → List Byte} {behind : ℕ → List Byte} {params : List SqlParam}
  {param : SqlParam} {i n : ℕ}

theorem Signature.declared_followedBy (s : Signature) (behind : ℕ → List Byte) :
    (s.followedBy behind).declared = s.declared.mapIdx fun i p => p.followedBy (behind i) := by
  refine List.ext_getElem ?_ fun i hi _ => ?_
  · simp [declared, followedBy]
  · simp [declared, followedBy]

theorem usable_followedBy (behind : List Byte) (param : SqlParam) :
    (param.followedBy behind).Usable ↔ param.Usable := by
  obtain ⟨direction, type, lens, value⟩ := param
  cases value with
  | voidPtr block =>
    have hvoid (block : List Byte) : SqlParam.Usable ⟨direction, type, lens, .voidPtr block⟩ ↔
        direction = .vOut ∨ type = .blob ∨ type = .decimal ∨ type = .errtype := by
      cases direction <;> cases type <;>
        simp [SqlParam.Usable, SqlParam.fault, SqlParam.valueFault]
      all_goals exact Nat.lt_or_ge _ _ |>.symm
    exact (hvoid _).trans (hvoid _).symm
  | empty | int | int64 | charPtr | other => exact Iff.rfl

/-- The bytes that are counted do not depend on what lies behind the blocks. -/
theorem bytesFit_followedBy (i : ℕ) (params : List SqlParam) (n : ℕ) :
    BytesFit garbage n i (params.mapIdx fun j p => p.followedBy (behind (i + j))) ↔
      BytesFit garbage n i params := by
  induction params generalizing i n with
  | nil => exact Iff.rfl
  | cons param params ih =>
    have hsize : (param.followedBy (behind i)).sizeAfter (garbage i) n =
        param.sizeAfter (garbage i) n ∧
        (param.followedBy (behind i)).terminatorSize = param.terminatorSize := by
      obtain ⟨direction, type, lens, value⟩ := param
      cases value with
      | voidPtr block => cases direction <;> cases type <;> exact ⟨rfl, rfl⟩
      | empty | int | int64 | charPtr | other => exact ⟨rfl, rfl⟩
    rw [List.mapIdx_cons, BytesFit, BytesFit, Nat.add_zero, hsize.1, hsize.2,
      usable_followedBy, ← ih]
    simp only [Nat.add_assoc, Nat.add_comm 1]

/-- Enough bytes behind a block. -/
theorem fault_followedBy (h : param.lens ≤ n) :
    (param.followedBy (List.replicate n 0)).fault ≠ some .outOfBounds := by
  obtain ⟨direction, type, lens, value⟩ := param
  have hle (block : List Byte) : lens ≤ (block ++ List.replicate n (0 : Byte)).length := by
    rw [List.length_append, List.length_replicate]
    exact Nat.le_add_left_of_le h
  intro hfault
  have hdirection : direction ≠ .vOut := fun hd => by
    simp [SqlParam.fault, SqlParam.followedBy, hd] at hfault
  replace hfault := (if_neg hdirection).symm.trans hfault
  obtain rfl : type = .blob := type_of_outOfBounds hfault
  cases value with
  | voidPtr block =>
    replace hfault := (if_pos (hle block)).symm.trans hfault
    cases hfault
  | empty | int | int64 | charPtr | other => cases hfault

end Behind

/-! ## Execute -/

/-- All bytes that `Execute` writes are in `PrepareBuffer`, and when the text with its zero does not
fit, an error is returned. -/
structure BufferSafe (env : CallEnv) (w : SqlWorld) : Prop where
  inBounds : ∀ t, ¬ Yields (execute env) w (.error .bufferOverrun) t
  rejects : firstFault w.helper.declared = none →
    prepareBufferSize < (writtenFrom env.garbage [] 0 w.helper.declared ++ [0]).length →
      ∃ code t, Yields (execute env) w (.ok code) t ∧ code ≠ 0

section Execute

variable {plan : CallPlan} {replies : CallReplies} {noReturn : Int32} {res res' : Option ResId}
  {n : ℕ} {r : Except Fault Int32} {log : List SqlEvent} {env : CallEnv} {strProc : List Byte}

/-- After the texts are built nothing is written out of range. -/
theorem CallEnds.ne_bufferOverrun {t : Texts} (h : CallEnds t replies noReturn res n r log res') :
    r ≠ .error .bufferOverrun := by
  cases h with
  | callFailed | noOutputs | selectFailed => exact nofun
  | selected _ _ _ _ _ _ _ _ _ _ hresult =>
    cases hresult with
    | noRow | stored => exact nofun
    | fault fault hrow hfault => exact fun h => hfault (Except.error.inj h)

theorem ExecuteEnds.overrun_iff (h : ExecuteEnds plan replies noReturn res n r log res') :
    r = .error .bufferOverrun ↔ plan.texts = .error .bufferOverrun := by
  cases h with
  | fault fault rest hplan hrest =>
    rw [hplan, Except.error.injEq, Except.error.injEq]
  | refused code rest hcode hplan hrest =>
    rw [hplan]
    exact iff_of_false nofun nofun
  | called t rest log r res' hplan hrest hcall =>
    rw [hplan]
    exact iff_of_false hcall.ne_bufferOverrun nofun

/-- Without texts an error is returned. -/
theorem ExecuteEnds.refuses (h : ExecuteEnds plan replies noReturn res n r log res')
    (hplan : plan.texts = .ok none) : ∃ code, r = .ok code ∧ code ≠ 0 := by
  cases h with
  | fault fault rest hplan' => cases hplan.symm.trans hplan'
  | refused code rest hcode => exact ⟨code, rfl, hcode⟩
  | called t rest log r res' hplan' => cases hplan.symm.trans hplan'

theorem texts_setPlan_ne_error (reply : SqlReply) (t : Texts) (b : List Byte) (fault : Fault) :
    (setPlan reply t b).texts ≠ .error fault := by
  unfold setPlan
  split_ifs <;> exact nofun

/-- **The plan overruns the block** exactly if the `SET` does not fit. -/
theorem textsPlan_overrun_iff {s : Signature} (hknown : ∀ param ∈ s.declared, param.type.Known) :
    (textsPlan env strProc s).texts = .error .bufferOverrun ↔
      ¬ SetFits env.garbage [] 0 s.declared := by
  obtain ⟨r, b, hbuild⟩ := exists_yields (buildTexts env.garbage strProc s.declared)
    (List.replicate prepareBufferSize 0)
  rcases buildTexts_cases hknown List.length_replicate hbuild with
    ⟨-, hfits, rfl, -⟩ | ⟨fault, rfl, hfault, -⟩
  · rw [textsPlan_of_some hbuild]
    exact iff_of_false (texts_setPlan_ne_error _ _ _ _) (not_not_intro hfits)
  · rw [textsPlan_of_error hbuild, Except.error.injEq, hfault]

/-- A text that does not fit with its zero is not sent. -/
theorem textsPlan_of_long {s : Signature} (hknown : ∀ param ∈ s.declared, param.type.Known)
    (hfits : SetFits env.garbage [] 0 s.declared) (hvalues : firstFault s.declared = none)
    (hlong : prepareBufferSize < (writtenFrom env.garbage [] 0 s.declared ++ [0]).length) :
    (textsPlan env strProc s).texts = .ok none := by
  obtain ⟨r, b, hbuild⟩ := exists_yields (buildTexts env.garbage strProc s.declared)
    (List.replicate prepareBufferSize 0)
  rcases buildTexts_cases hknown List.length_replicate hbuild with
    ⟨-, -, rfl, -⟩ | ⟨fault, -, -, hnone⟩
  · have hlimit : setLimit < (writtenFrom env.garbage [] 0 s.declared).length := by
      rw [List.length_append, List.length_singleton] at hlong
      unfold setLimit prepareBufferSize at *
      omega
    rw [textsPlan_of_some hbuild, setPlan, if_neg (Nat.ne_zero_of_lt hlimit), if_pos hlimit]
  · exact absurd hvalues (hnone hfits)

/-- The block is safe exactly if the `SET` fits. -/
theorem bufferSafe_iff_setFits {w : SqlWorld} (hsize : w.prepareBuffer.length = prepareBufferSize)
    (hknown : ∀ param ∈ w.helper.declared, param.type.Known) (env : CallEnv) :
    BufferSafe env w ↔ SetFits env.garbage [] 0 w.helper.declared := by
  obtain ⟨r, log, u, ⟨hrun, -⟩, hends⟩ := runs_execute env hsize
  have hoverrun := hends.overrun_iff.trans (textsPlan_overrun_iff hknown)
  refine ⟨fun hsafe => ?_, fun h => ⟨fun t ht => ?_, fun hvalues hlong => ?_⟩⟩
  · by_contra hnot
    obtain rfl := hoverrun.mpr hnot
    exact hsafe.inBounds u hrun
  · obtain ⟨rfl, -⟩ := hrun.unique ht
    exact hoverrun.mp rfl h
  · obtain ⟨code, rfl, hcode⟩ := hends.refuses (textsPlan_of_long hknown h hvalues hlong)
    exact ⟨code, u, hrun, hcode⟩

/-- Whatever lies behind the blocks, the block is safe exactly if the bytes that are counted fit. -/
theorem bufferSafe_followedBy_iff {w : SqlWorld}
    (hsize : w.prepareBuffer.length = prepareBufferSize)
    (hknown : ∀ param ∈ w.helper.declared, param.type.Known) (env : CallEnv) :
    (∀ behind, BufferSafe env (w.followedBy behind)) ↔
      BytesFit env.garbage 0 0 w.helper.declared := by
  have hdeclared (behind : ℕ → List Byte) : (w.followedBy behind).helper.declared =
      w.helper.declared.mapIdx fun i p => p.followedBy (behind i) :=
    w.helper.toSignature.declared_followedBy behind
  have hknown' (behind : ℕ → List Byte) :
      ∀ param ∈ (w.followedBy behind).helper.declared, param.type.Known := by
    rw [hdeclared]
    intro param hparam
    obtain ⟨i, hi, rfl⟩ := List.mem_mapIdx.mp hparam
    exact hknown w.helper.declared[i] (List.getElem_mem hi)
  have hcount (behind : ℕ → List Byte) :
      0 + (w.followedBy behind).helper.declared.length ≤ maxParamCount := by
    rw [Nat.zero_add]
    exact (List.length_take_le _ _).trans (w.followedBy behind).helper.totalCount_le
  have hsafe (behind : ℕ → List Byte) : BufferSafe env (w.followedBy behind) ↔
      SetFits env.garbage [] 0 (w.followedBy behind).helper.declared :=
    @bufferSafe_iff_setFits (w.followedBy behind) hsize (hknown' behind) env
  have hbytes (behind : ℕ → List Byte) :
      BytesFit env.garbage 0 0 (w.followedBy behind).helper.declared ↔
        BytesFit env.garbage 0 0 w.helper.declared := by
    have h := @bytesFit_followedBy env.garbage behind 0 w.helper.declared 0
    simp only [Nat.zero_add] at h
    rw [hdeclared]
    exact h
  refine ⟨fun h => ?_, fun h behind => (hsafe behind).mpr ?_⟩
  · -- all blocks are long enough
    let behind : ℕ → List Byte := fun i =>
      List.replicate ((w.helper.declared[i]?.map SqlParam.lens).getD 0) 0
    refine (hbytes behind).mp (bytesFit_of_setFits (hknown' behind) ?_ (hcount behind) []
      ((hsafe behind).mp (h behind)))
    rw [hdeclared]
    intro param hparam
    obtain ⟨i, hi, rfl⟩ := List.mem_mapIdx.mp hparam
    refine fault_followedBy ?_
    rw [List.getElem?_eq_getElem hi]
    exact Nat.le_refl _
  · exact setFits_of_bytesFit (hknown' behind) (hcount behind) [] ((hbytes behind).mpr h)

/-- **When the block is safe.** For a signature that `Prepare` accepts and any values, `Execute`
stays in `PrepareBuffer`, whatever lies in memory behind the blocks of the values, if and only if
the bytes of the pieces fit. -/
theorem buffer_safe_iff {s : Signature} (hs : s.IsAccepted) (values : List AnyValue) {w : SqlWorld}
    (hsize : w.prepareBuffer.length = prepareBufferSize)
    (hw : w.helper.toSignature = s.bind values) (env : CallEnv) :
    (∀ behind, BufferSafe env (w.followedBy behind)) ↔
      BytesFit env.garbage 0 0 (bindParams s.declared values) := by
  obtain ⟨params, begun, hlists, htypes⟩ := hs.lists
  have hdeclared : w.helper.declared = bindParams s.declared values := by
    rw [hw, s.declared_bind]
  rw [← hdeclared]
  refine bufferSafe_followedBy_iff hsize ?_ env
  rw [hdeclared]
  exact known_bindParams (hlists.declared ▸ htypes) values

/-- A world whose helper has a signature. -/
def SqlWorld.withSignature (s : Signature) : SqlWorld :=
  { SqlWorld.start with helper := { ProcedureHelper.new with toSignature := s } }

/-- A block of one byte, of which two are read; behind it lies a 2. -/
theorem buffer_safe_iff_blob : BufferSafe (.noParameters .done)
    (SqlWorld.followedBy (fun _ => [2])
      (.withSignature ((Signature.single .vIn .blob 2).bind [.voidPtr [1]]))) :=
  have hsafe : ∀ behind, BufferSafe (.noParameters .done) (SqlWorld.followedBy behind
      (.withSignature ((Signature.single .vIn .blob 2).bind [.voidPtr [1]]))) :=
    (buffer_safe_iff (@Signature.Lists.isAccepted _ (ascii "in a blob(2)")
      (Signature.lists_single .vIn .blob 2) (by decide) rfl) [.voidPtr [1]]
        List.length_replicate rfl _).mpr ⟨by decide, fun _ => trivial⟩
  hsafe _

/-- A blob of which the digits do not fit. -/
theorem not_bufferSafe_blob {lens : ℕ} {block : List Byte} (hlength : block.length = lens)
    (hlong : 31994 < lens) (env : CallEnv) :
    ¬ BufferSafe env
      (.withSignature ((Signature.single .vIn .blob lens).bind [.voidPtr block])) := by
  have hdeclared : (SqlWorld.withSignature ((Signature.single .vIn .blob lens).bind
      [.voidPtr block])).helper.declared = [⟨.vIn, .blob, lens, .voidPtr block⟩] := rfl
  have hwhole : SqlParam.fault ⟨.vIn, .blob, lens, .voidPtr block⟩ = none := by
    simp [SqlParam.fault, SqlParam.valueFault, hlength]
  intro h
  have hknown : ∀ param ∈ [(⟨.vIn, .blob, lens, .voidPtr block⟩ : SqlParam)],
      param.type.Known := by simp [FieldType.Known]
  have hfits := (bufferSafe_iff_setFits List.length_replicate (hdeclared ▸ hknown) env).mp h
  rw [hdeclared] at hfits
  have hbytes : 3 + (8 + 2 * lens) + _ ≤ prepareBufferSize :=
    (bytesFit_of_setFits hknown (by simp [hwhole])
      (show 0 + 1 ≤ maxParamCount by decide) [] hfits).1
  unfold prepareBufferSize at hbytes
  omega

/-- The digits of 32000 bytes do not fit. -/
theorem large_blob_overruns : (Signature.single .vIn .blob 32000).IsAccepted ∧
    ¬ BufferSafe (.noParameters .done) (.withSignature
      ((Signature.single .vIn .blob 32000).bind [.voidPtr (List.replicate 32000 0)])) :=
  ⟨@Signature.Lists.isAccepted _ (ascii "in a blob(32000)")
    (Signature.lists_single .vIn .blob 32000) (by decide) rfl,
    not_bufferSafe_blob List.length_replicate (by decide) _⟩

end Execute

end PetsServer

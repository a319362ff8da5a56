import Mathlib.Data.List.ReduceOption
import PetsServer.Foundations.Loop
import PetsServer.Sql.StmtResult

/-!
# The verdict on a login

`OnMysqlLoginMsg` is called with the result of `SELECT_PETSLOGIN_STMT`, and looks in its rows for a
number that is neither null nor 0. Whether a number is null it asks a flag that nobody writes to
(`fetchResult_cons`), so that with the flag set it never breaks off: the last number that is not
null decides. A result without rows has no verdict.
-/

namespace PetsServer

open Foundations

/-- The branches of `OnMysqlLoginMsg`. -/
inductive LoginVerdict
  | failed
  | succeeded
  deriving DecidableEq, Repr

/-- The result of `SELECT_PETSLOGIN_STMT`, whose rows have the column `StaticID`. -/
def petsLoginResult (ids : List (Option StaticId)) : StmtResult where
  numFields := 1
  nrow := UInt64.ofNat ids.length
  rest := ids.map ([·])

/-- The address of `roleID`. -/
def roleID : ℕ := 0

/-- The index of the only parameter. -/
def loginParam : Fin (1 : Byte).toNat := ⟨0, Nat.one_pos⟩

/-- A pass of the loop of `OnMysqlLoginMsg`. -/
def loginPass (s : Fetching 1) : Except Fault (Pass (Fetching 1) (Fetching 1)) :=
  let (result, s) := s.fetchResult
  .ok (if result ≠ 0 then .leave s
    else if s.bind.isNull loginParam ∨ s.longs roleID = 0 then .again s
    else .leave s)

/-- `Pet::OnMysqlLoginMsg`, for the contents of the arrays that `QueryBind` allocates. The result is
the branch that is taken, if any. -/
def Pet.onMysqlLoginMsg (qr : StmtResult) (contents : QueryBind 1) :
    Except Fault (Option LoginVerdict) :=
  if qr.getAffectedRows ≠ 0 then do
    let s ← loop loginPass .stillRunning (qr.rest.length + 1)
      ⟨qr, contents.bindLong loginParam roleID, fun _ => 0⟩
    .ok (some (if s.longs roleID = 0 then .failed else .succeeded))
  else .ok none

/-! ## The loop -/

/-- The state of the loop, with the rows `ids` to go. -/
def loggingIn (nrow : Qword) (nulls : Vector Byte 1) (longs : Longs)
    (ids : List (Option StaticId)) : Fetching 1 :=
  ⟨⟨1, nrow, ids.map ([·])⟩, ⟨#v[⟨roleID, none⟩], nulls⟩, longs⟩

/-- What a row does to the variables. -/
def readId (longs : Longs) : Option StaticId → Longs
  | some id => Function.update longs roleID (storeLong (longs roleID) id)
  | none => longs

variable {nrow : Qword} {nulls : Vector Byte 1} {longs : Longs} {ids : List (Option StaticId)}

theorem bindLong_loginParam (contents : QueryBind 1) :
    contents.bindLong loginParam roleID = ⟨#v[⟨roleID, none⟩], contents.nulls⟩ := by
  rw [QueryBind.bindLong, QueryBind.bindParam]
  congr 1
  refine Vector.ext fun i hi => ?_
  obtain rfl : i = 0 := Nat.lt_one_iff.mp hi
  exact Vector.getElem_set_self _

/-- A fetch leaves the flag as it is. -/
theorem fetchResult_cons (id : Option StaticId) :
    (loggingIn nrow nulls longs (id :: ids)).fetchResult =
      (0, loggingIn nrow nulls (readId longs id) ids) := by
  cases id <;> rfl

theorem loginPass_nil :
    loginPass (loggingIn nrow nulls longs []) = .ok (.leave (loggingIn nrow nulls longs [])) := rfl

theorem isNull_loggingIn :
    (loggingIn nrow nulls longs ids).bind.isNull loginParam = decide (nulls[0] ≠ 0) := rfl

theorem loginPass_cons (id : Option StaticId) :
    loginPass (loggingIn nrow nulls longs (id :: ids)) =
      .ok (if nulls[0] ≠ 0 ∨ readId longs id roleID = 0 then
        .again (loggingIn nrow nulls (readId longs id) ids)
      else .leave (loggingIn nrow nulls (readId longs id) ids)) := by
  rw [loginPass, fetchResult_cons]
  simp only [isNull_loggingIn, decide_eq_true_eq]
  rfl

theorem readId_some (id : StaticId) (h : (longs roleID).toNat < 2 ^ 32) :
    (readId longs (some id) roleID).toNat = id.toNat := by
  rw [readId, Function.update_self, toNat_storeLong h]

theorem eq_zero_iff_toNat {x : Qword} : x = 0 ↔ x.toNat = 0 := UInt64.toNat_inj.symm

/-- With the flag not set, the loop stops at the first number that is not 0. -/
theorem loop_of_flag_eq_zero (hflag : nulls[0] = 0) (hrole : longs roleID = 0) :
    ∃ s, loop loginPass .stillRunning (ids.length + 1) (loggingIn nrow nulls longs ids) = .ok s ∧
      (s.longs roleID = 0 ↔ ∀ id ∈ ids.reduceOption, id = 0) := by
  induction ids generalizing longs with
  | nil => exact ⟨_, loop_leave loginPass_nil, iff_of_true hrole (by simp)⟩
  | cons id ids ih =>
    have hpass := @loginPass_cons nrow nulls longs ids id
    by_cases hread : readId longs id roleID = 0
    · rw [if_pos (.inr hread)] at hpass
      obtain ⟨s, hs, hall⟩ := ih hread
      refine ⟨s, (loop_again hpass).trans hs, hall.trans ?_⟩
      cases id with
      | none => rfl
      | some id =>
        rw [eq_zero_iff_toNat, readId_some id (by rw [hrole]; decide)] at hread
        have hid : id = 0 := UInt32.toNat_inj.mp hread
        simp [List.reduceOption_cons_of_some, hid]
    · rw [if_neg (by simp [hflag, hread])] at hpass
      refine ⟨_, loop_leave hpass, iff_of_false hread fun hall => hread ?_⟩
      cases id with
      | none => exact hrole
      | some id =>
        rw [eq_zero_iff_toNat, readId_some id (by rw [hrole]; decide), hall id (by simp)]
        rfl

/-- With the flag set, the loop goes on to the end; the last number that is not null stays. -/
theorem loop_of_flag_ne_zero (hflag : nulls[0] ≠ 0) (hrole : (longs roleID).toNat < 2 ^ 32) :
    ∃ s, loop loginPass .stillRunning (ids.length + 1) (loggingIn nrow nulls longs ids) = .ok s ∧
      (s.longs roleID).toNat =
        (ids.reduceOption.getLast?.map UInt32.toNat).getD (longs roleID).toNat := by
  induction ids generalizing longs with
  | nil => exact ⟨_, loop_leave loginPass_nil, rfl⟩
  | cons id ids ih =>
    have hpass := @loginPass_cons nrow nulls longs ids id
    rw [if_pos (.inl hflag)] at hpass
    cases id with
    | none =>
      obtain ⟨s, hs, hlast⟩ := ih hrole
      exact ⟨s, (loop_again hpass).trans hs, hlast⟩
    | some id =>
      have hread := readId_some id hrole
      obtain ⟨s, hs, hlast⟩ := ih (hread ▸ id.toNat_lt)
      refine ⟨s, (loop_again hpass).trans hs, hlast.trans ?_⟩
      rw [hread, List.reduceOption_cons_of_some, List.getLast?_cons]
      cases ids.reduceOption.getLast? <;> rfl

/-! ## The verdict -/

theorem getAffectedRows_petsLoginResult :
    (petsLoginResult ids).getAffectedRows = 0 ↔ 2 ^ 32 ∣ ids.length := by
  rw [StmtResult.getAffectedRows_eq_zero_iff, petsLoginResult, UInt64.toNat_ofNat']
  omega

/-- The numbers that the verdict depends on: all that are not null, or with the flag set, the last
of them. -/
def decidingIds (flag : Bool) (ids : List (Option StaticId)) : List StaticId :=
  if flag then ids.reduceOption.getLast?.toList else ids.reduceOption

/-- When the deciding numbers decide rightly. -/
theorem decidingIds_iff (flag : Bool) (ids : List (Option StaticId)) :
    ((∀ id ∈ decidingIds flag ids, id = 0) ↔ ∀ id ∈ ids.reduceOption, id = 0) ↔
      flag = false ∨ (ids.reduceOption.getLast? = some 0 → ∀ id ∈ ids.reduceOption, id = 0) := by
  cases flag with
  | false => simp [decidingIds]
  | true =>
    cases hlast : ids.reduceOption.getLast? with
    | none => simp [decidingIds, List.getLast?_eq_none_iff.mp hlast]
    | some id =>
      have hmem := List.mem_of_getLast? hlast
      simp only [decidingIds, hlast, if_true, Option.toList_some, List.mem_singleton, forall_eq,
        Option.some.injEq, Bool.true_eq_false, false_or]
      exact ⟨fun h => h.mp, fun h => ⟨h, fun hall => hall id hmem⟩⟩

/-- The loop, in every case. -/
theorem loop_loginPass (nulls : Vector Byte 1) :
    ∃ s, loop loginPass .stillRunning (ids.length + 1)
        (loggingIn nrow nulls (fun _ => 0) ids) = .ok s ∧
      (s.longs roleID = 0 ↔ ∀ id ∈ decidingIds (nulls[0] ≠ 0) ids, id = 0) := by
  by_cases hflag : nulls[0] = 0
  · simpa [decidingIds, hflag] using loop_of_flag_eq_zero hflag rfl
  · obtain ⟨s, hs, hlast⟩ := @loop_of_flag_ne_zero nrow nulls (fun _ => 0) ids hflag (by decide)
    refine ⟨s, hs, ?_⟩
    rw [eq_zero_iff_toNat, hlast]
    have hzero (id : StaticId) : id.toNat = 0 ↔ id = 0 := UInt32.toNat_inj (b := 0)
    cases h : ids.reduceOption.getLast? with
    | none => simp [decidingIds, hflag, h]
    | some id => simp [decidingIds, hflag, h, hzero]

theorem onMysqlLoginMsg_of_dvd {ids : List (Option StaticId)} (hrows : 2 ^ 32 ∣ ids.length)
    (contents : QueryBind 1) : Pet.onMysqlLoginMsg (petsLoginResult ids) contents = .ok none := by
  rw [Pet.onMysqlLoginMsg, if_neg (not_not.mpr (getAffectedRows_petsLoginResult.mpr hrows))]

theorem onMysqlLoginMsg_of_not_dvd {ids : List (Option StaticId)} (hrows : ¬ 2 ^ 32 ∣ ids.length)
    (contents : QueryBind 1) :
    ∃ verdict, Pet.onMysqlLoginMsg (petsLoginResult ids) contents = .ok (some verdict) ∧
      (verdict = .failed ↔ ∀ id ∈ decidingIds (contents.isNull loginParam) ids, id = 0) := by
  obtain ⟨s, hs, hrole⟩ := @loop_loginPass (UInt64.ofNat ids.length) ids contents.nulls
  have hstart : (⟨petsLoginResult ids, contents.bindLong loginParam roleID, fun _ => 0⟩ :
      Fetching 1) =
        loggingIn (UInt64.ofNat ids.length) contents.nulls (fun _ => 0) ids := by
    rw [bindLong_loginParam]
    rfl
  have hpasses : (petsLoginResult ids).rest.length = ids.length := List.length_map _
  refine ⟨if s.longs roleID = 0 then .failed else .succeeded, ?_, Iff.trans ?_ hrole⟩
  · rw [Pet.onMysqlLoginMsg, if_pos (mt getAffectedRows_petsLoginResult.mp hrows), hstart,
      hpasses, hs]
    rfl
  · by_cases h : s.longs roleID = 0 <;> simp [h]

/-- **The login verdict.** A branch is taken, and it is the right one, exactly when the number of
rows is no multiple of 2³², and the flag is not set, or the last number that is not null is 0 only
if all are. -/
theorem onMysqlLoginMsg_right (ids : List (Option StaticId)) (contents : QueryBind 1) :
    (∃ verdict, Pet.onMysqlLoginMsg (petsLoginResult ids) contents = .ok (some verdict) ∧
        (verdict = .succeeded ↔ ∃ id, some id ∈ ids ∧ id ≠ 0)) ↔
      ¬ 2 ^ 32 ∣ ids.length ∧
        (contents.isNull loginParam = false ∨
          (ids.reduceOption.getLast? = some 0 → ∀ id ∈ ids.reduceOption, id = 0)) := by
  simp only [← List.reduceOption_mem_iff]
  by_cases hrows : 2 ^ 32 ∣ ids.length
  · rw [onMysqlLoginMsg_of_dvd hrows]
    exact iff_of_false (fun ⟨verdict, h, _⟩ => by cases h) fun h => h.1 hrows
  · obtain ⟨verdict, hverdict, hfailed⟩ := onMysqlLoginMsg_of_not_dvd hrows contents
    have hsucceeded : verdict = .succeeded ↔
        ¬ ∀ id ∈ decidingIds (contents.isNull loginParam) ids, id = 0 := by
      rw [← hfailed]
      cases verdict <;> decide
    have hnonzero : (∃ id, id ∈ ids.reduceOption ∧ id ≠ 0) ↔ ¬ ∀ id ∈ ids.reduceOption, id = 0 := by
      simp only [not_forall, exists_prop]
    rw [and_iff_right hrows, ← decidingIds_iff, hverdict, hnonzero]
    simp only [Except.ok.injEq, Option.some.injEq, exists_eq_left', hsucceeded, not_iff_not]

/-- No rows: no verdict. -/
theorem onMysqlLoginMsg_no_rows :
    ¬ ∃ verdict, Pet.onMysqlLoginMsg (petsLoginResult []) ⟨#v[⟨0, none⟩], #v[0]⟩ =
        .ok (some verdict) ∧
      (verdict = .succeeded ↔ ∃ id : StaticId, some id ∈ [] ∧ id ≠ 0) := by
  rintro ⟨verdict, h, -⟩
  cases h

end PetsServer

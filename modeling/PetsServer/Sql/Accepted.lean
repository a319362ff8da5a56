import PetsServer.Sql.Declarations
import PetsServer.Sql.Plan

/-!
# Which signatures are accepted

`Prepare` reads the declarations of a signature one after another, until one of them stops it.
`accepted_complete_iff` says for which texts an accepted signature is complete, and
`rejected_by_code_iff` for which texts `Prepare` returns instead of throwing.
-/

namespace PetsServer

open Foundations OnWorld

/-- The pieces into which `Prepare` cuts a text. -/
def signatureParts (text : List Byte) : List (List Byte) :=
  streamParts ((cString text).map toLower)

/-- The declarations in a text. -/
def textDeclarations (text : List Byte) : List Declaration := declarations (signatureParts text)

/-- The declarations up to the first that stops the parser. -/
def reached : List Declaration → List Declaration
  | [] => []
  | d :: ds =>
    match d.read with
    | .param _ => d :: reached ds
    | .unfinished | .throws | .unknown => [d]

/-- The parameters that are declared before the parser stops. -/
def listed : List Declaration → List SqlParam
  | [] => []
  | d :: ds =>
    match d.read with
    | .param p => p :: listed ds
    | .unfinished | .throws | .unknown => []

/-- What stops the parser. -/
def stop : List Declaration → Option DeclarationReading
  | [] => none
  | d :: ds =>
    match d.read with
    | .param _ => stop ds
    | .unfinished => some .unfinished
    | .throws => some .throws
    | .unknown => some .unknown

/-! ## How the parser ends -/

section Parsed

variable {t : Signature} {params : List SqlParam} {ds : List Declaration} {r : Except Fault Int32}

theorem Parsed.overrun_iff (h : Parsed t params ds r) (hle : params.length ≤ maxParamCount) :
    r = .error .bufferOverrun ↔ maxParamCount < params.length + (reached ds).length := by
  induction h with
  | done params h => simpa [reached] using hle
  | full params d ds hfull =>
    refine iff_of_true rfl ?_
    have hpos : 0 < (reached (d :: ds)).length := by
      unfold reached
      split <;> simp
    omega
  | unfinished params d ds hlt hread h => simpa [reached, hread] using Nat.succ_le_of_lt hlt
  | throws params d ds hlt hread => simpa [reached, hread] using Nat.succ_le_of_lt hlt
  | unknown params d ds hlt hread => simpa [reached, hread] using Nat.succ_le_of_lt hlt
  | next params d ds p r hlt hread h ih =>
    rw [ih (by simpa using Nat.succ_le_of_lt hlt)]
    simp only [reached, hread, List.length_append, List.length_cons, List.length_nil]
    omega

/-- **How the parser ends**, when there are not too many declarations. -/
theorem Parsed.cases_of_le (h : Parsed t params ds r)
    (hle : params.length + (reached ds).length ≤ maxParamCount) :
    (stop ds = none ∧ r = .ok 0 ∧ t.Lists (params ++ listed ds) []) ∨
    (stop ds = some .unfinished ∧ r = .ok 0 ∧ ∃ p, t.Lists (params ++ listed ds) [p]) ∨
    (stop ds = some .throws ∧ r = .error .outOfRange) ∨
    (stop ds = some .unknown ∧ r = .ok (-3)) := by
  induction h with
  | done params h => simpa [listed, stop] using h
  | full params d ds hfull =>
    have hpos : 0 < (reached (d :: ds)).length := by
      unfold reached
      split <;> simp
    omega
  | unfinished params d ds hlt hread h => simpa [stop, listed, hread] using ⟨_, h⟩
  | throws params d ds hlt hread => simp [stop, hread]
  | unknown params d ds hlt hread => simp [stop, hread]
  | next params d ds p r hlt hread h ih =>
    have hstop : stop (d :: ds) = stop ds := by simp [stop, hread]
    have hlisted : params ++ listed (d :: ds) = params ++ [p] ++ listed ds := by
      simp [listed, hread]
    rw [hstop, hlisted]
    refine ih ?_
    simp only [reached, hread, List.length_append, List.length_cons, List.length_nil] at hle ⊢
    omega

/-- How the parser ends on a signature that is cleared. -/
theorem Parsed.cases_of_start (h : Parsed t [] ds r) (hle : (reached ds).length ≤ maxParamCount) :
    (stop ds = none ∧ r = .ok 0 ∧ t.Lists (listed ds) []) ∨
    (stop ds = some .unfinished ∧ r = .ok 0 ∧ ∃ p, t.Lists (listed ds) [p]) ∨
    (stop ds = some .throws ∧ r = .error .outOfRange) ∨
    (stop ds = some .unknown ∧ r = .ok (-3)) := by
  have hcases := h.cases_of_le
  rw [List.length_nil, Nat.zero_add] at hcases
  exact hcases hle

theorem Parsed.overrun_zero_iff (h : Parsed t [] ds r) :
    r = .error .bufferOverrun ↔ maxParamCount < (reached ds).length := by
  have hoverrun := h.overrun_iff (Nat.zero_le _)
  rwa [List.length_nil, Nat.zero_add] at hoverrun

/-- A result of the parser fits in the array. -/
theorem Parsed.length_reached_le {code : Int32} (h : Parsed t [] ds (.ok code)) :
    (reached ds).length ≤ maxParamCount :=
  Nat.not_lt.mp fun hlt => by cases h.overrun_zero_iff.mpr hlt

/-- What the parser leaves when nothing stops it. -/
theorem Parsed.lists_of_stop_none (h : Parsed t [] ds r)
    (hle : (reached ds).length ≤ maxParamCount) (hstop : stop ds = none) :
    r = .ok 0 ∧ t.Lists (listed ds) [] := by
  rcases h.cases_of_start hle with ⟨-, hr, hlists⟩ | ⟨hstop', -⟩ | ⟨hstop', -⟩ | ⟨hstop', -⟩
  · exact ⟨hr, hlists⟩
  all_goals cases hstop.symm.trans hstop'

theorem Parsed.eq_of_stop_throws (h : Parsed t [] ds r)
    (hle : (reached ds).length ≤ maxParamCount) (hstop : stop ds = some .throws) :
    r = .error .outOfRange := by
  rcases h.cases_of_start hle with ⟨hstop', -⟩ | ⟨hstop', -⟩ | ⟨-, hr⟩ | ⟨hstop', -⟩
  case inr.inr.inl => exact hr
  all_goals cases hstop.symm.trans hstop'

theorem Parsed.eq_of_stop_unknown (h : Parsed t [] ds r)
    (hle : (reached ds).length ≤ maxParamCount) (hstop : stop ds = some .unknown) :
    r = .ok (-3) := by
  rcases h.cases_of_start hle with ⟨hstop', -⟩ | ⟨hstop', -⟩ | ⟨hstop', -⟩ | ⟨-, hr⟩
  case inr.inr.inr => exact hr
  all_goals cases hstop.symm.trans hstop'

end Parsed

theorem Declaration.typePart_of_unfinished {d : Declaration} (h : d.read = .unfinished) :
    d.typePart = none := by
  cases hpart : d.typePart with
  | none => rfl
  | some part =>
    rcases Declaration.read_of_some hpart with ⟨-, hread⟩ | ⟨text, lens, -, hread⟩
    · cases h.symm.trans hread
    · rw [h] at hread
      split at hread <;> cases hread

theorem Declaration.read_of_none {d : Declaration} (h : d.typePart = none) :
    d.read = .unfinished := by rw [read, h]

/-- The text ends in the middle of its last declaration. -/
def EndsInside (ds : List Declaration) : Prop := ∃ d ∈ ds, d.typePart = none

theorem endsInside_of_stop {ds : List Declaration} (h : stop ds = some .unfinished) :
    EndsInside ds := by
  induction ds with
  | nil => cases h
  | cons d ds ih =>
    unfold stop at h
    split at h
    · obtain ⟨e, he, hpart⟩ := ih h
      exact ⟨e, List.mem_cons_of_mem d he, hpart⟩
    · rename_i hread
      exact ⟨d, List.mem_cons_self, Declaration.typePart_of_unfinished hread⟩
    · cases h
    · cases h

theorem not_endsInside_of_stop {ds : List Declaration} (h : stop ds = none) : ¬ EndsInside ds := by
  induction ds with
  | nil => simp [EndsInside]
  | cons d ds ih =>
    unfold stop at h
    split at h
    · rename_i p hread
      rintro ⟨e, he, hpart⟩
      rcases List.mem_cons.mp he with rfl | he
      · rw [Declaration.read_of_none hpart] at hread
        cases hread
      · exact ih h ⟨e, he, hpart⟩
    · cases h
    · cases h
    · cases h

/-! ## The types -/

theorem known_of_listed {ds : List Declaration} : ∀ p ∈ listed ds, p.type.Known := by
  induction ds with
  | nil => exact fun p hp => by cases hp
  | cons d ds ih =>
    unfold listed
    split
    · rename_i p hread
      refine List.forall_mem_cons.mpr ⟨?_, ih⟩
      cases hpart : d.typePart with
      | none => cases (Declaration.read_of_none hpart).symm.trans hread
      | some part =>
        rcases Declaration.read_of_some hpart with ⟨-, hthrows⟩ | ⟨text, lens, -, hparam⟩
        · cases hthrows.symm.trans hread
        · rw [hread] at hparam
          split at hparam
          · cases hparam
          · rename_i hknown
            obtain rfl := DeclarationReading.param.inj hparam
            exact known_getMySqlType hknown
    all_goals exact fun p hp => by cases hp

/-- All declarations of a signature are complete: every direction is counted with its parameter, and
every type is known. -/
structure Signature.Complete (s : Signature) : Prop where
  total : s.totalCount = s.inCount + s.outCount + s.inoutCount
  inCount : s.inCount = s.declared.countP (·.direction = .vIn)
  outCount : s.outCount = s.declared.countP (·.direction = .vOut)
  inoutCount : s.inoutCount = s.declared.countP (·.direction = .vInout)
  types : ∀ p ∈ s.declared, p.type.Known

/-- Every parameter has one direction. -/
theorem countP_directions (params : List SqlParam) :
    params.countP (·.direction = .vIn) + params.countP (·.direction = .vOut) +
      params.countP (·.direction = .vInout) = params.length := by
  induction params with
  | nil => rfl
  | cons p params ih =>
    simp only [List.countP_cons, List.length_cons]
    cases p.direction <;> simp <;> omega

theorem Signature.Lists.declared {s : Signature} {params begun : List SqlParam}
    (h : s.Lists params begun) : s.declared = params := by
  rw [Signature.declared, h.parameters, h.totalCount, List.append_assoc]
  exact List.take_left

theorem Signature.Lists.complete {s : Signature} {params : List SqlParam} (h : s.Lists params [])
    (htypes : ∀ p ∈ params, p.type.Known) : s.Complete where
  total := by
    rw [h.totalCount, h.inCount, h.outCount, h.inoutCount, countP_directions]
    simp
  inCount := by rw [h.declared, h.inCount, List.append_nil]
  outCount := by rw [h.declared, h.outCount, List.append_nil]
  inoutCount := by rw [h.declared, h.inoutCount, List.append_nil]
  types := h.declared ▸ htypes

/-- A signature of one parameter. -/
def Signature.single (direction : Direction) (type : FieldType) (lens : ℕ) : Signature where
  totalCount := 1
  inCount := if direction = .vIn then 1 else 0
  outCount := if direction = .vOut then 1 else 0
  inoutCount := if direction = .vInout then 1 else 0
  parameters := (Vector.replicate maxParamCount .zero).set 0 ⟨direction, type, lens, .empty⟩
    (by decide)
  totalCount_le := by decide

theorem Signature.lists_single (direction : Direction) (type : FieldType) (lens : ℕ) :
    (single direction type lens).Lists [⟨direction, type, lens, .empty⟩] [] := by
  cases direction <;> exact ⟨rfl, rfl, rfl, rfl, rfl⟩

theorem Signature.declared_single (direction : Direction) (type : FieldType) (lens : ℕ) :
    (single direction type lens).declared = [⟨direction, type, lens, .empty⟩] :=
  (lists_single direction type lens).declared

theorem Signature.complete_single (direction : Direction) {type : FieldType} (h : type.Known)
    (lens : ℕ) : (single direction type lens).Complete :=
  (lists_single direction type lens).complete (by simpa using h)

/-! ## Prepare -/

/-- The question for the signature fits in its block, and the server answers with a text. -/
structure GivesText (paramList : List Byte → List Byte) (procName : List Byte) (reply : SqlReply)
    (text : List Byte) : Prop where
  fits : (paramList (cString procName)).length < 1024
  code : reply.code = 0
  affected : ¬ reply.affectedRows.toUInt32.toInt32 < 1
  answer : ∃ set columns rest, reply.result = some set ∧ set.rows = (some text :: columns) :: rest

section Prepare

variable {paramList : List Byte → List Byte} {procName text : List Byte} {reply : SqlReply}
  {w : SqlWorld}

theorem givesText_value (h : (paramList (cString procName)).length < 1024) (text : List Byte) :
    GivesText paramList procName (.value text) text :=
  ⟨h, rfl, show ¬ UInt32.toInt32 (UInt64.toUInt32 1) < 1 by decide, _, [], [], rfl, rfl⟩

theorem prepared_of_givesText (h : GivesText paramList procName reply text) :
    ∃ columns, prepared reply = rowSignature (some text :: columns) := by
  obtain ⟨set, columns, rest, hresult, hrows⟩ := h.answer
  have hfields : set.numFields ≠ 0 := by
    rw [← set.wf (some text :: columns) (hrows ▸ List.mem_cons_self)]
    simp
  exact ⟨columns, by simp [prepared, h.code, h.affected, hresult, hrows, hfields]⟩

/-- The text in the first row is parsed. -/
theorem rowSignature_text (text : List Byte) (columns : Row) :
    ∃ r s, Parsed s [] (textDeclarations text) r ∧
      rowSignature (some text :: columns) = r.map fun code => (code, s) := by
  obtain ⟨r, s, hparse, hparsed⟩ := yields_parseParts (signatureParts text)
  refine ⟨r, s, hparsed, ?_⟩
  rw [rowSignature]
  cases r with
  | ok code | error fault =>
    simp only [Yields, signatureParts] at hparse
    rw [hparse]
    rfl

/-- **`Prepare` parses the text.** -/
theorem yields_prepare_text (hzero : w.helper.toSignature = .zero)
    (h : GivesText paramList procName reply text) :
    ∃ r t s, Yields (prepare paramList procName reply) w r t ∧
      Parsed s [] (textDeclarations text) r ∧ (r.isOk = true → t.helper.toSignature = s) := by
  obtain ⟨args, u, log, r, -, hprepare, hr, hu⟩ := @yields_prepare paramList procName reply w hzero
    h.fits
  obtain ⟨columns, hprepared⟩ := prepared_of_givesText h
  obtain ⟨r', s, hparsed, hrow⟩ := rowSignature_text text columns
  rw [← hprepared] at hrow
  rw [hrow] at hr hu
  have hr' : r = r' := by rw [hr]; cases r' <;> rfl
  subst hr'
  refine ⟨r, _, s, hprepare, hparsed, fun hok => ?_⟩
  cases r with
  | ok code => exact hu code s rfl
  | error fault => cases hok

/-- A text that nothing stops the parser at is accepted, with the parameters that it declares. -/
theorem yields_prepare_of_stop_none (hzero : w.helper.toSignature = .zero)
    (h : GivesText paramList procName reply text)
    (hle : (reached (textDeclarations text)).length ≤ maxParamCount)
    (hstop : stop (textDeclarations text) = none) :
    ∃ t, Yields (prepare paramList procName reply) w (.ok 0) t ∧
      t.helper.Lists (listed (textDeclarations text)) [] := by
  obtain ⟨r, t, s, hprepare, hparsed, hs⟩ := yields_prepare_text hzero h
  obtain ⟨rfl, hlists⟩ := hparsed.lists_of_stop_none hle hstop
  exact ⟨t, hprepare, hs rfl ▸ hlists⟩

end Prepare

/-! ## Complete signatures -/

/-- The result of `Prepare` on the text, and the signature it leaves: when the text is accepted, the
signature is complete, and a text that ends in the middle of a declaration is an error. -/
structure AcceptsComplete (text : List Byte) (r : Except Fault Int32) (s : Signature) : Prop where
  complete : r = .ok 0 → s.Complete
  error : EndsInside (textDeclarations text) → ∃ code, r = .ok code ∧ code ≠ 0

/-- `Prepare` accepts the text only if its signature is complete. -/
def PreparesComplete (paramList : List Byte → List Byte) (procName : List Byte) (reply : SqlReply)
    (text : List Byte) (w : SqlWorld) : Prop :=
  ∀ r t, Yields (prepare paramList procName reply) w r t →
    AcceptsComplete text r t.helper.toSignature

section Results

variable {paramList : List Byte → List Byte} {procName text : List Byte} {reply : SqlReply}
  {w : SqlWorld}

/-- **Which texts give complete signatures.** On a helper that is cleared, an accepted signature is
complete, and a text that ends in the middle of a declaration is an error, if and only if the text
does not end in the middle of a declaration, or has before that, among the first declarations, one
with an unknown type. -/
theorem accepted_complete_iff (hzero : w.helper.toSignature = .zero)
    (h : GivesText paramList procName reply text) :
    PreparesComplete paramList procName reply text w ↔
      (EndsInside (textDeclarations text) →
        (reached (textDeclarations text)).length ≤ maxParamCount ∧
          stop (textDeclarations text) = some .unknown) := by
  obtain ⟨r, t, s, hprepare, hparsed, hs⟩ := yields_prepare_text hzero h
  refine ⟨fun haccepts hends => ?_, fun hcond r' t' hr' => ?_⟩
  · obtain ⟨code, rfl, hcode⟩ := (haccepts r t hprepare).error hends
    have hle := hparsed.length_reached_le
    rcases hparsed.cases_of_start hle with ⟨hstop, -⟩ | ⟨-, hzero, -⟩ | ⟨-, hthrows⟩ | ⟨hstop, -⟩
    · exact absurd hends (not_endsInside_of_stop hstop)
    · exact absurd (Except.ok.inj hzero) hcode
    · cases hthrows
    · exact ⟨hle, hstop⟩
  · obtain ⟨rfl, rfl⟩ := hr'.unique hprepare
    refine ⟨fun hok => ?_, fun hends => ?_⟩
    · subst hok
      rcases hparsed.cases_of_start hparsed.length_reached_le with ⟨-, -, hlists⟩ | ⟨hstop, -⟩ |
        ⟨-, hthrows⟩ | ⟨-, hunknown⟩
      · rw [hs rfl]
        exact hlists.complete known_of_listed
      · have hunknown := (hcond (endsInside_of_stop hstop)).2
        rw [hstop] at hunknown
        cases hunknown
      · cases hthrows
      · exact absurd (Except.ok.inj hunknown) (by decide)
    · obtain ⟨hle, hstop⟩ := hcond hends
      exact ⟨-3, hparsed.eq_of_stop_unknown hle hstop, by decide⟩

theorem accepted_complete_iff_int :
    PreparesComplete id (ascii "f") (.value (ascii "in a int")) (ascii "in a int") .start :=
  (accepted_complete_iff rfl (givesText_value (by decide) _)).mpr
    fun ⟨d, hd, hpart⟩ => absurd hpart (by
      obtain rfl : d = ⟨.vIn, some (ascii "int")⟩ := List.mem_singleton.mp hd
      exact nofun)

/-- The text `in a` is accepted, with one `IN` parameter and none in total. -/
theorem unfinished_declaration_accepted :
    ∃ t, Yields (prepare id (ascii "f") (.value (ascii "in a"))) .start (.ok 0) t ∧
      EndsInside (textDeclarations (ascii "in a")) ∧ ¬ t.helper.Complete :=
  ⟨_, yields_ok rfl, ⟨⟨.vIn, none⟩, List.mem_cons_self, rfl⟩, fun h => absurd h.total (by decide)⟩

end Results

/-! ## Rejected signatures -/

theorem length_reached_le (ds : List Declaration) : (reached ds).length ≤ ds.length := by
  induction ds with
  | nil => exact Nat.le_refl 0
  | cons d ds ih =>
    unfold reached
    split
    · exact Nat.succ_le_succ ih
    all_goals exact Nat.succ_le_succ (Nat.zero_le _)

/-- The parser stops at a piece for which `at` throws. -/
theorem stop_eq_throws_iff (ds : List Declaration) :
    stop ds = some .throws ↔ ∃ d ∈ reached ds, d.read = .throws := by
  induction ds with
  | nil => simp [stop, reached]
  | cons d ds ih =>
    cases hread : d.read with
    | param p =>
      have hstop : stop (d :: ds) = stop ds := by simp [stop, hread]
      have hreached : reached (d :: ds) = d :: reached ds := by simp [reached, hread]
      rw [hstop, hreached, ih]
      simp [hread]
    | unfinished | throws | unknown => simp [stop, reached, hread]

theorem typeText_eq_none_iff (part : List Byte) :
    typeText part = none ↔ part = [] ∨ part = ascii "," := by
  have hzero : lengthWithoutComma part = 0 ↔ part = [] ∨ part = ascii "," := by
    unfold lengthWithoutComma
    rcases part.eq_nil_or_concat with rfl | ⟨init, b, rfl⟩
    · simp
    · by_cases hb : b = charByte ','
      · simp [hb, ascii]
      · have hne : init ++ [b] ≠ ascii "," := fun heq =>
          hb (by simpa [ascii] using congrArg List.getLast? heq)
        simp [hb, hne]
  rw [← hzero]
  refine ⟨fun h => ?_, fun h => by rw [typeText, if_pos h]⟩
  by_contra hne
  rw [typeText, if_neg hne] at h
  split at h
  · split at h <;> cases h
  · cases h

theorem Declaration.read_eq_throws_iff (d : Declaration) :
    d.read = .throws ↔ d.typePart = some [] ∨ d.typePart = some (ascii ",") := by
  cases hpart : d.typePart with
  | none => simp [Declaration.read_of_none hpart]
  | some part =>
    rcases Declaration.read_of_some hpart with ⟨htext, hread⟩ | ⟨text, lens, htext, hread⟩
    · simpa [hread] using (typeText_eq_none_iff part).mp htext
    · have hne : ¬ (part = [] ∨ part = ascii ",") := by
        rw [← typeText_eq_none_iff, htext]
        exact nofun
      rw [hread]
      simp only [Option.some.injEq, hne, iff_false]
      split <;> exact nofun

/-- The pieces for the types are pieces of the text. -/
theorem mem_of_mem_declarationsFrom {parts : List (List Byte)} {whichPart : WhichPart}
    {direction : Direction} {d : Declaration} {part : List Byte}
    (hd : d ∈ declarationsFrom whichPart direction parts) (hpart : d.typePart = some part) :
    part ∈ parts := by
  induction parts generalizing whichPart direction with
  | nil =>
    cases whichPart with
    | direction => cases hd
    | name | type =>
      obtain rfl := List.mem_singleton.mp hd
      cases hpart
  | cons first parts ih =>
    cases whichPart with
    | direction =>
      unfold declarationsFrom at hd
      split at hd <;> exact List.mem_cons_of_mem first (ih hd)
    | name => exact List.mem_cons_of_mem first (ih hd)
    | type =>
      rcases List.mem_cons.mp hd with rfl | hd
      · exact Option.some.inj hpart ▸ List.mem_cons_self
      · exact List.mem_cons_of_mem first (ih hd)

theorem nil_notMem_streamParts (text : List Byte) : [] ∉ streamParts text := fun h => by
  cases (List.mem_filter.mp h).2

theorem mem_of_mem_reached {d : Declaration} {ds : List Declaration} (h : d ∈ reached ds) :
    d ∈ ds := by
  induction ds with
  | nil => cases h
  | cons e ds ih =>
    unfold reached at h
    split at h
    · rcases List.mem_cons.mp h with rfl | h
      · exact List.mem_cons_self
      · exact List.mem_cons_of_mem e (ih h)
    all_goals exact List.mem_singleton.mp h ▸ List.mem_cons_self

/-- `at` throws for a comma between blanks in the place of a type. -/
theorem stop_textDeclarations_eq_throws_iff (text : List Byte) :
    stop (textDeclarations text) = some .throws ↔
      ∃ d ∈ reached (textDeclarations text), d.typePart = some (ascii ",") := by
  rw [stop_eq_throws_iff]
  refine exists_congr fun d => and_congr_right fun hd => ?_
  rw [Declaration.read_eq_throws_iff]
  refine or_iff_right fun hnil => ?_
  exact nil_notMem_streamParts _ (mem_of_mem_declarationsFrom (mem_of_mem_reached hd) hnil)

section Results

variable {paramList : List Byte → List Byte} {procName text : List Byte} {reply : SqlReply}
  {w : SqlWorld}

/-- **Which texts do not throw.** On a helper that is cleared and a text with no more declarations
than parameters fit, `Prepare` returns 0 or a negative code if and only if no declaration up to the
first that stops the parser has a comma for its type. -/
theorem rejected_by_code_iff (hzero : w.helper.toSignature = .zero)
    (h : GivesText paramList procName reply text)
    (hcount : (textDeclarations text).length ≤ maxParamCount) :
    (∃ code t, Yields (prepare paramList procName reply) w (.ok code) t ∧ code ≤ 0) ↔
      ∀ d ∈ reached (textDeclarations text), d.typePart ≠ some (ascii ",") := by
  obtain ⟨r, t, s, hprepare, hparsed, -⟩ := yields_prepare_text hzero h
  have hle := (length_reached_le (textDeclarations text)).trans hcount
  have hthrows := stop_textDeclarations_eq_throws_iff text
  refine ⟨fun ⟨code, t', hcode, _⟩ d hd hpart => ?_, fun hplain => ?_⟩
  · obtain ⟨rfl, -⟩ := hcode.unique hprepare
    cases hparsed.eq_of_stop_throws hle (hthrows.mpr ⟨d, hd, hpart⟩)
  · rcases hparsed.cases_of_start hle with ⟨-, rfl, -⟩ | ⟨-, rfl, -⟩ | ⟨hstop, -⟩ | ⟨-, rfl⟩
    · exact ⟨0, t, hprepare, by decide⟩
    · exact ⟨0, t, hprepare, by decide⟩
    · obtain ⟨d, hd, hpart⟩ := hthrows.mp hstop
      exact absurd hpart (hplain d hd)
    · exact ⟨-3, t, hprepare, by decide⟩

theorem rejected_by_code_iff_unknown :
    ∃ code t, Yields (prepare id (ascii "f") (.value (ascii "in a float, ("))) .start (.ok code) t ∧
      code ≤ 0 := by
  refine (rejected_by_code_iff rfl (givesText_value (by decide) _) (by decide)).mpr ?_
  intro d hd
  obtain rfl : d = ⟨.vIn, some (ascii "float,")⟩ := List.mem_singleton.mp hd
  decide

/-- In `in a ,` the comma is no part of the type: `at` throws. -/
theorem comma_throws : (textDeclarations (ascii "in a ,")).length ≤ maxParamCount ∧
    ∃ t, Yields (prepare id (ascii "f") (.value (ascii "in a ,"))) .start
      (.error .outOfRange) t :=
  ⟨by decide, _, rfl⟩

end Results

end PetsServer

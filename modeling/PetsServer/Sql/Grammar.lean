import PetsServer.Foundations.Words
import PetsServer.Sql.Accepted

/-!
# The grammar of signatures

A `SourceDecl` is a declaration as it may be written: an optional direction, a name, and a type with
an optional length, in any letter case. `prepare_source` says that `Prepare` reads back every list
of declarations that is written with blanks between the pieces, and a comma after every declaration
but the last.
-/

namespace PetsServer

open Foundations OnWorld

/-- The names of the types. -/
inductive TypeName
  | int | bigint | char | varchar | blob
  deriving DecidableEq, Repr

/-- A type name in lower case. -/
def TypeName.text : TypeName → List Byte
  | int => ascii "int"
  | bigint => ascii "bigint"
  | char => ascii "char"
  | varchar => ascii "varchar"
  | blob => ascii "blob"

/-- The type that a name stands for. -/
def TypeName.fieldType : TypeName → FieldType
  | int => .long
  | bigint => .longlong
  | char | varchar => .string
  | blob => .blob

/-- A direction, as it is written. -/
structure DirectionText where
  direction : Direction
  text : List Byte
  text_eq : keyword (text.map toLower) = some direction

/-- The decimal numeral of a length. -/
structure LengthText where
  digits : List Byte
  ne_nil : digits ≠ []
  isDigit : ∀ b ∈ digits, IsDigit b
  lt : readNat digits < 2 ^ 31

/-- A piece of a text has no blanks and does not end it. -/
def IsPiece (part : List Byte) : Prop := IsWord isSpace part ∧ 0 ∉ part

/-- A declaration, as it is written. Without a direction the name is none either. -/
structure SourceDecl where
  direction : Option DirectionText
  name : List Byte
  typeName : TypeName
  typeText : List Byte
  length : Option LengthText
  name_isPiece : IsPiece name
  name_free : direction = none → keyword (name.map toLower) = none
  typeText_eq : typeText.map toLower = typeName.text

namespace SourceDecl

/-- The length in its parentheses. -/
def lengthText (d : SourceDecl) : List Byte :=
  match d.length with
  | none => []
  | some length => ascii "(" ++ length.digits ++ ascii ")"

/-- The pieces of a declaration, with what is attached to its end. -/
def parts (comma : List Byte) (d : SourceDecl) : List (List Byte) :=
  (d.direction.map DirectionText.text).toList ++ [d.name, d.typeText ++ d.lengthText ++ comma]

/-- The parameter that is declared, an `IN` parameter without a direction. -/
def param (d : SourceDecl) : SqlParam :=
  ⟨(d.direction.map DirectionText.direction).getD .vIn, d.typeName.fieldType,
    (d.length.map fun length => readNat length.digits).getD 0, .empty⟩

end SourceDecl

/-- The pieces of declarations, with commas. -/
def sourceParts : List SourceDecl → List (List Byte)
  | [] => []
  | [d] => d.parts []
  | d :: e :: ds => d.parts (ascii ",") ++ sourceParts (e :: ds)

/-! ## Letter case -/

theorem isSpace_of_lt {b : Byte} (h : 32 < b) : isSpace b = false := by
  have h' : 32 < b.toNat := UInt8.lt_iff_toNat_lt.mp h
  have hne : b ≠ 32 := fun heq => by
    rw [heq] at h'
    exact absurd h' (by decide)
  have hgt : ¬ b ≤ 13 := fun hle => by
    have hle' : b.toNat ≤ 13 := UInt8.le_iff_toNat_le.mp hle
    omega
  simp [isSpace, hne, hgt]

/-- Upper case letters, and what becomes of them. -/
theorem toLower_cases (b : Byte) : toLower b = b ∨ 32 < b ∧ 96 < toLower b ∧ toLower b ≤ 122 := by
  unfold toLower
  split
  · rename_i h
    have hlow : 65 ≤ b.toNat := UInt8.le_iff_toNat_le.mp h.1
    have hhigh : b.toNat ≤ 90 := UInt8.le_iff_toNat_le.mp h.2
    have hb : (b + 32).toNat = b.toNat + 32 := by
      rw [UInt8.toNat_add]
      exact Nat.mod_eq_of_lt (by change b.toNat + 32 < 256; omega)
    refine .inr ⟨UInt8.lt_iff_toNat_lt.mpr ?_, UInt8.lt_iff_toNat_lt.mpr ?_,
      UInt8.le_iff_toNat_le.mpr ?_⟩
    · change 32 < b.toNat
      omega
    · change 96 < (b + 32).toNat
      omega
    · change (b + 32).toNat ≤ 122
      omega
  · exact .inl rfl

theorem isSpace_toLower (b : Byte) : isSpace (toLower b) = isSpace b := by
  rcases toLower_cases b with h | ⟨hb, hlow, -⟩
  · rw [h]
  · rw [isSpace_of_lt hb, isSpace_of_lt (UInt8.lt_trans (by decide) hlow)]

theorem toLower_eq_zero_iff (b : Byte) : toLower b = 0 ↔ b = 0 := by
  rcases toLower_cases b with h | ⟨hb, hlow, -⟩
  · rw [h]
  · refine iff_of_false (fun h => ?_) (fun h => ?_)
    · rw [h] at hlow
      exact absurd hlow (by decide)
    · rw [h] at hb
      exact absurd hb (by decide)

/-- What has no letters stays as it is. -/
theorem toLower_of_lt {b : Byte} (h : b < 65) : toLower b = b :=
  if_neg fun hupper => absurd h (UInt8.not_lt.mpr hupper.1)

theorem lt_of_isDigit {b : Byte} (h : IsDigit b) : b < 65 := UInt8.lt_of_le_of_lt h.2 (by decide)

theorem isPiece_of_map_toLower {part : List Byte} (h : IsPiece (part.map toLower)) :
    IsPiece part := by
  obtain ⟨⟨hne, hblank⟩, hzero⟩ := h
  refine ⟨⟨by simpa using hne, fun b hb => ?_⟩, fun hmem => hzero ?_⟩
  · rw [← isSpace_toLower]
    exact hblank _ (List.mem_map_of_mem hb)
  · exact (toLower_eq_zero_iff 0).mpr rfl ▸ List.mem_map_of_mem hmem

/-- The three keywords. -/
theorem keyword_eq_some {part : List Byte} {direction : Direction}
    (h : keyword part = some direction) :
    part = ascii "in" ∨ part = ascii "out" ∨ part = ascii "inout" := by
  unfold keyword at h
  split_ifs at h <;> simp_all

theorem DirectionText.isPiece (d : DirectionText) : IsPiece d.text := by
  refine isPiece_of_map_toLower ?_
  have hpiece : ∀ part ∈ [ascii "in", ascii "out", ascii "inout"], IsPiece part := by
    simp [IsPiece, IsWord, isSpace, ascii, charByte]
  refine hpiece _ ?_
  simpa using keyword_eq_some d.text_eq

/-! ## The type -/

/-- `atoi` reads a numeral up to the parenthesis. -/
theorem toSize_atoi (length : LengthText) (rest : List Byte) :
    toSize (atoi (length.digits ++ charByte ')' :: rest)) = readNat length.digits := by
  have hdigits := length.isDigit
  have htake : (length.digits ++ charByte ')' :: rest).takeWhile IsDigit = length.digits := by
    rw [List.takeWhile_append_of_pos fun b hb => decide_eq_true (hdigits b hb)]
    simp [charByte, IsDigit]
  have hvalue : strtol (length.digits ++ charByte ')' :: rest) = readNat length.digits := by
    obtain ⟨b, digits, heq⟩ := List.exists_cons_of_ne_nil length.ne_nil
    rw [heq] at hdigits htake ⊢
    have hb : IsDigit b := hdigits b List.mem_cons_self
    have hspace : isSpace b = false := isSpace_of_lt (UInt8.lt_of_lt_of_le (by decide) hb.1)
    rw [strtol, List.cons_append, List.dropWhile_cons_of_neg (by simp [hspace])]
    split
    · rename_i heq'
      exact absurd (List.cons.inj heq').1 (hb.ne (by decide))
    · rename_i heq'
      exact absurd (List.cons.inj heq').1 (hb.ne (by decide))
    · rw [← List.cons_append, htake]
  have hlt := length.lt
  rw [atoi, hvalue, toSize, Int32.toInt_ofInt_of_le (by omega) (by omega)]
  omega

/-- The comma is not counted. -/
theorem lengthWithoutComma_append {part comma : List Byte}
    (hlast : part.getLast? ≠ some (charByte ',')) (hcomma : comma = [] ∨ comma = ascii ",") :
    lengthWithoutComma (part ++ comma) = part.length := by
  rcases hcomma with rfl | rfl
  · rw [List.append_nil, lengthWithoutComma, if_neg hlast]
  · have hcomma : (part ++ ascii ",").getLast? = some (charByte ',') := by simp [ascii]
    rw [lengthWithoutComma, if_pos hcomma]
    simp [ascii]

/-- **The type and the length of a declaration are read back.** -/
theorem SourceDecl.typeText_eq_some (d : SourceDecl) {comma : List Byte}
    (hcomma : comma = [] ∨ comma = ascii ",") :
    PetsServer.typeText (d.typeName.text ++ d.lengthText ++ comma) =
      some (d.typeName.text, d.length.map fun length => readNat length.digits) := by
  have hname : d.typeName.text ≠ [] := by cases d.typeName <;> exact List.cons_ne_nil _ _
  cases hlength : d.length with
  | none =>
    have htext : d.lengthText = [] := by rw [lengthText, hlength]
    have hlast : d.typeName.text.getLast? ≠ some (charByte ',') ∧
        d.typeName.text.getLast? ≠ some (charByte ')') := by
      cases d.typeName <;> decide
    have hcount := lengthWithoutComma_append hlast.1 hcomma
    have hpos : d.typeName.text.length ≠ 0 := by simpa using hname
    have hbyte : (d.typeName.text ++ comma)[d.typeName.text.length - 1]? =
        d.typeName.text.getLast? := by
      rw [List.getElem?_append_left (by omega), List.getLast?_eq_getElem?]
    rw [htext, List.append_nil, PetsServer.typeText, hcount, if_neg hpos, hbyte, if_neg hlast.2,
      List.take_left]
    rfl
  | some length =>
    have htext : d.lengthText = (charByte '(' :: length.digits) ++ [charByte ')'] := by
      rw [lengthText, hlength]
      rfl
    have hlast : (d.typeName.text ++ d.lengthText).getLast? = some (charByte ')') := by
      rw [htext, ← List.append_assoc, List.getLast?_concat]
    have hnot : (d.typeName.text ++ d.lengthText).getLast? ≠ some (charByte ',') := by
      rw [hlast]
      decide
    have hcount := lengthWithoutComma_append hnot hcomma
    have hpos : (d.typeName.text ++ d.lengthText).length ≠ 0 := by simp [htext]
    have hbyte : (d.typeName.text ++ d.lengthText ++ comma)[
        (d.typeName.text ++ d.lengthText).length - 1]? = some (charByte ')') := by
      rw [List.getElem?_append_left (by omega), ← List.getLast?_eq_getElem?, hlast]
    have hopen : (d.typeName.text ++ d.lengthText ++ comma).idxOf? (charByte '(') =
        some d.typeName.text.length := by
      rw [htext]
      cases d.typeName <;> simp [TypeName.text, ascii, charByte, List.idxOf?_cons]
    have hdrop : (d.typeName.text ++ d.lengthText ++ comma).drop (d.typeName.text.length + 1) =
        length.digits ++ charByte ')' :: comma := by
      rw [htext, List.append_assoc, List.drop_append]
      simp
    rw [PetsServer.typeText, hcount, if_neg hpos, hbyte, if_pos rfl, hopen]
    dsimp only
    rw [hdrop, toSize_atoi, List.append_assoc, List.take_left]
    rfl

/-! ## The pieces -/

namespace SourceDecl

variable {comma : List Byte}

theorem lt_of_mem_lengthText {d : SourceDecl} {b : Byte} (hb : b ∈ d.lengthText) :
    32 < b ∧ b < 65 := by
  unfold lengthText at hb
  split at hb
  · cases hb
  · rename_i length _
    rcases List.mem_append.mp hb with hb | hb
    · rcases List.mem_append.mp hb with hb | hb
      · obtain rfl := List.mem_singleton.mp hb
        decide
      · have hdigit := length.isDigit b hb
        exact ⟨UInt8.lt_of_lt_of_le (by decide) hdigit.1, lt_of_isDigit hdigit⟩
    · obtain rfl := List.mem_singleton.mp hb
      decide

/-- The piece for the type, in lower case. -/
theorem map_toLower_typePart (d : SourceDecl) (hcomma : comma = [] ∨ comma = ascii ",") :
    (d.typeText ++ d.lengthText ++ comma).map toLower =
      d.typeName.text ++ d.lengthText ++ comma := by
  have hlength : d.lengthText.map toLower = d.lengthText :=
    (List.map_congr_left fun b hb => toLower_of_lt (lt_of_mem_lengthText hb).2).trans
      (List.map_id _)
  have hcomma' : comma.map toLower = comma := by rcases hcomma with rfl | rfl <;> rfl
  rw [List.map_append, List.map_append, d.typeText_eq, hlength, hcomma']

theorem isPiece_of_forall_lt {part : List Byte} (hne : part ≠ []) (h : ∀ b ∈ part, 32 < b) :
    IsPiece part :=
  ⟨⟨hne, fun b hb => isSpace_of_lt (h b hb)⟩, fun hzero => absurd (h 0 hzero) (by decide)⟩

theorem isPiece_typePart (d : SourceDecl) (hcomma : comma = [] ∨ comma = ascii ",") :
    IsPiece (d.typeText ++ d.lengthText ++ comma) := by
  refine isPiece_of_map_toLower ?_
  rw [d.map_toLower_typePart hcomma]
  have hname : d.typeName.text ≠ [] ∧ ∀ b ∈ d.typeName.text, 32 < b := by
    cases d.typeName <;> simp [TypeName.text, ascii, charByte]
  refine isPiece_of_forall_lt (by simp [hname.1]) fun b hb => ?_
  rcases List.mem_append.mp hb with hb | hb
  · rcases List.mem_append.mp hb with hb | hb
    · exact hname.2 b hb
    · exact (lt_of_mem_lengthText hb).1
  · rcases hcomma with rfl | rfl
    · cases hb
    · obtain rfl := List.mem_singleton.mp hb
      decide

theorem isPiece_parts (d : SourceDecl) (hcomma : comma = [] ∨ comma = ascii ",") :
    ∀ part ∈ d.parts comma, IsPiece part := by
  refine List.forall_mem_append.mpr ⟨fun part hpart => ?_, ?_⟩
  · cases hdirection : d.direction with
    | none =>
      rw [hdirection] at hpart
      cases hpart
    | some direction =>
      rw [hdirection] at hpart
      obtain rfl := List.mem_singleton.mp hpart
      exact direction.isPiece
  · simpa using ⟨d.name_isPiece, by simpa using d.isPiece_typePart hcomma⟩

/-- The declaration that the parser finds. -/
def declaration (comma : List Byte) (d : SourceDecl) : Declaration :=
  ⟨d.param.direction, some (d.typeName.text ++ d.lengthText ++ comma)⟩

theorem read_declaration (d : SourceDecl) (hcomma : comma = [] ∨ comma = ascii ",") :
    (d.declaration comma).read = .param d.param := by
  have hknown : getMySqlType d.typeName.text = d.typeName.fieldType := by
    cases d.typeName <;> decide
  have hne : d.typeName.fieldType ≠ .errtype := by cases d.typeName <;> decide
  rw [declaration, Declaration.read]
  simp only [d.typeText_eq_some hcomma, hknown, if_neg hne]
  rfl

/-- The parser finds the declaration. -/
theorem declarationsFrom_parts (d : SourceDecl) (hcomma : comma = [] ∨ comma = ascii ",")
    (rest : List (List Byte)) (direction : Direction) :
    declarationsFrom .direction direction ((d.parts comma).map (List.map toLower) ++ rest) =
      d.declaration comma :: declarationsFrom .direction .vIn rest := by
  have htype := d.map_toLower_typePart hcomma
  cases hdirection : d.direction with
  | none =>
    have hfree := d.name_free hdirection
    simp [parts, declarationsFrom, hdirection, hfree, declaration, param, ← htype]
  | some text =>
    have hkeyword := text.text_eq
    simp [parts, declarationsFrom, hdirection, hkeyword, declaration, param, ← htype]

end SourceDecl

/-- The declarations that the parser finds in a list. -/
def sourceDeclarations : List SourceDecl → List Declaration
  | [] => []
  | [d] => [d.declaration []]
  | d :: e :: ds => d.declaration (ascii ",") :: sourceDeclarations (e :: ds)

theorem declarations_sourceParts (ds : List SourceDecl) (direction : Direction) :
    declarationsFrom .direction direction ((sourceParts ds).map (List.map toLower)) =
      sourceDeclarations ds := by
  induction ds using sourceParts.induct generalizing direction with
  | case1 => rfl
  | case2 d =>
    have hparts := d.declarationsFrom_parts (.inl rfl) [] direction
    rwa [List.append_nil] at hparts
  | case3 d e ds ih =>
    rw [sourceParts, List.map_append, d.declarationsFrom_parts (.inr rfl), ih]
    rfl

theorem isPiece_sourceParts (ds : List SourceDecl) : ∀ part ∈ sourceParts ds, IsPiece part := by
  induction ds using sourceParts.induct with
  | case1 => exact fun part hpart => by cases hpart
  | case2 d => exact d.isPiece_parts (.inl rfl)
  | case3 d e ds ih => exact List.forall_mem_append.mpr ⟨d.isPiece_parts (.inr rfl), ih⟩

/-- Every declaration is a parameter. -/
theorem read_sourceDeclarations (ds : List SourceDecl) :
    listed (sourceDeclarations ds) = ds.map SourceDecl.param ∧
      stop (sourceDeclarations ds) = none ∧
      (reached (sourceDeclarations ds)).length = ds.length := by
  induction ds using sourceParts.induct with
  | case1 => exact ⟨rfl, rfl, rfl⟩
  | case2 d =>
    have hread := d.read_declaration (.inl rfl)
    simp [sourceDeclarations, listed, stop, reached, hread]
  | case3 d e ds ih =>
    have hread := d.read_declaration (.inr rfl)
    obtain ⟨hlisted, hstop, hreached⟩ := ih
    simp only [sourceDeclarations, listed, stop, reached, hread, hlisted, hstop, List.length_cons,
      hreached, List.map_cons, and_self]

/-! ## The text -/

/-- **The pieces are found in the text.** -/
theorem signatureParts_of_spaced {ds : List SourceDecl} {text : List Byte}
    (htext : Spaced isSpace (sourceParts ds) text) :
    signatureParts text = (sourceParts ds).map (List.map toLower) := by
  have hpieces := isPiece_sourceParts ds
  have hzero : 0 ∉ text := by
    intro hmem
    rcases htext.mem hmem with hblank | ⟨part, hpart, hmem⟩
    · exact absurd hblank (by decide)
    · exact (hpieces part hpart).2 hmem
  rw [signatureParts, cString_of_notMem hzero]
  refine words_of_spaced (htext.map isSpace_toLower) (List.forall_mem_map.mpr fun part hpart => ?_)
  obtain ⟨⟨hne, hblank⟩, -⟩ := hpieces part hpart
  refine ⟨by simpa using hne, List.forall_mem_map.mpr fun b hb => ?_⟩
  rw [isSpace_toLower, hblank b hb]

/-- What `Prepare` should leave for a list of declarations. -/
structure Signature.Holds (s : Signature) (ds : List SourceDecl) : Prop where
  totalCount : s.totalCount = ds.length
  declared : s.declared = ds.map SourceDecl.param
  inCount : s.inCount = ds.countP (·.param.direction = .vIn)
  outCount : s.outCount = ds.countP (·.param.direction = .vOut)
  inoutCount : s.inoutCount = ds.countP (·.param.direction = .vInout)

/-- **Signatures are read back.** -/
theorem prepare_source {paramList : List Byte → List Byte} {procName text : List Byte}
    {reply : SqlReply} {w : SqlWorld} {ds : List SourceDecl}
    (hzero : w.helper.toSignature = .zero) (h : GivesText paramList procName reply text)
    (htext : Spaced isSpace (sourceParts ds) text) (hcount : ds.length ≤ maxParamCount) :
    ∃ t, Yields (prepare paramList procName reply) w (.ok 0) t ∧ t.helper.Holds ds := by
  have hdeclarations : textDeclarations text = sourceDeclarations ds := by
    rw [textDeclarations, signatureParts_of_spaced htext]
    exact declarations_sourceParts ds .vIn
  obtain ⟨hlisted, hstop, hreached⟩ := read_sourceDeclarations ds
  rw [← hdeclarations] at hlisted hstop hreached
  obtain ⟨t, hprepare, hlists⟩ :=
    yields_prepare_of_stop_none hzero h (by simpa [hreached] using hcount) hstop
  rw [hlisted] at hlists
  refine ⟨t, hprepare, ?_⟩
  refine ⟨by simpa using hlists.totalCount, hlists.declared, ?_, ?_, ?_⟩
  · simpa [List.countP_map, Function.comp_def] using hlists.inCount
  · simpa [List.countP_map, Function.comp_def] using hlists.outCount
  · simpa [List.countP_map, Function.comp_def] using hlists.inoutCount

/-- `IN a Int`, and `b VARCHAR(50)` without a direction. -/
def SourceDecl.two : List SourceDecl :=
  [{ direction := some ⟨.vIn, ascii "IN", by decide⟩
     name := ascii "a"
     typeName := .int
     typeText := ascii "Int"
     length := none
     name_isPiece := ⟨⟨by decide, by simp [ascii, charByte, isSpace]⟩, by decide⟩
     name_free := nofun
     typeText_eq := by decide },
   { direction := none
     name := ascii "b"
     typeName := .varchar
     typeText := ascii "VARCHAR"
     length := some ⟨ascii "50", by decide, by simp [ascii, charByte, IsDigit], by decide⟩
     name_isPiece := ⟨⟨by decide, by simp [ascii, charByte, isSpace]⟩, by decide⟩
     name_free := fun _ => by decide
     typeText_eq := by decide }]

theorem spaced_two :
    Spaced isSpace (sourceParts SourceDecl.two) (ascii "IN  a Int, b VARCHAR(50)") := by
  have hblank : ∀ b ∈ ascii "  ", isSpace b = true := by simp [ascii, charByte, isSpace]
  have hone : ∀ b ∈ ascii " ", isSpace b = true := by simp [ascii, charByte, isSpace]
  have hnil : ∀ b ∈ ([] : List Byte), isSpace b = true := fun b hb => by cases hb
  refine .cons [] (ascii "IN") hnil ?_ (fun b hb => by cases hb; rfl)
  refine .cons (ascii "  ") (ascii "a") hblank ?_ (fun b hb => by cases hb; rfl)
  refine .cons (ascii " ") (ascii "Int,") hone ?_ (fun b hb => by cases hb; rfl)
  refine .cons (ascii " ") (ascii "b") hone ?_ (fun b hb => by cases hb; rfl)
  exact .cons (ascii " ") (ascii "VARCHAR(50)") hone (.nil [] hnil) fun b hb => by cases hb

theorem prepare_source_two : ∃ t,
    Yields (prepare id (ascii "f") (.value (ascii "IN  a Int, b VARCHAR(50)"))) .start (.ok 0) t ∧
      t.helper.Holds SourceDecl.two :=
  prepare_source rfl (givesText_value (by decide) _) spaced_two (by decide)

end PetsServer

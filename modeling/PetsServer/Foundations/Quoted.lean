import Mathlib.Data.List.DropRight
import PetsServer.Foundations.Joining
import PetsServer.Foundations.Text

/-!
# Literals between quotes

SQL puts texts between single quotes (39): a quote ends the literal unless it is doubled, and a
backslash (92) escapes the byte after it. `readQuoted` reads one literal, `tokens` cuts a text into
its literals and the bytes outside of them, and `arguments` reads the arguments of a call, up to the
closing parenthesis: commas and parentheses in literals do not count.

A text put between quotes as it is reads back as itself exactly when it is `Plain`.
-/

namespace Foundations

/-- What a backslash and the byte after it stand for. The wildcards of patterns keep the
backslash. -/
def unescape (b : UInt8) : List UInt8 :=
  if b = charByte '%' ∨ b = charByte '_' then [92, b]
  else if b = charByte '0' then [0]
  else if b = charByte 'b' then [8]
  else if b = charByte 'n' then [10]
  else if b = charByte 'r' then [13]
  else if b = charByte 't' then [9]
  else if b = charByte 'Z' then [26]
  else [b]

/-- The value of a literal, from after its first quote on, and the text after it. -/
def readQuoted : List UInt8 → Option (List UInt8 × List UInt8)
  | [] => none
  | 39 :: 39 :: l => (readQuoted l).map fun (value, rest) => (39 :: value, rest)
  | 39 :: l => some ([], l)
  | [92] => none
  | 92 :: b :: l => (readQuoted l).map fun (value, rest) => (unescape b ++ value, rest)
  | b :: l => (readQuoted l).map fun (value, rest) => (b :: value, rest)

/-- A byte that is neither a quote nor a backslash. -/
theorem readQuoted_cons {b : UInt8} (hquote : b ≠ 39) (hescape : b ≠ 92) (l : List UInt8) :
    readQuoted (b :: l) = (readQuoted l).map fun (value, rest) => (b :: value, rest) := by
  simp [readQuoted, hquote, hescape]

/-- There is no quote, and no backslash but before `%` and `_`. -/
def Plain : List UInt8 → Prop
  | [] => True
  | [92] => False
  | 92 :: b :: l => (b = charByte '%' ∨ b = charByte '_') ∧ Plain l
  | b :: l => b ≠ 39 ∧ Plain l

theorem unescape_of_wildcard {b : UInt8} (h : b = charByte '%' ∨ b = charByte '_') :
    unescape b = [92, b] := if_pos h

/-- A plain text before a quote is read as it is. -/
theorem readQuoted_of_plain {s : List UInt8} (h : Plain s) {rest : List UInt8}
    (hrest : rest.head? ≠ some 39) : readQuoted (s ++ 39 :: rest) = some (s, rest) := by
  induction s using Plain.induct with
  | case1 =>
    cases rest with
    | nil => rfl
    | cons b rest =>
      have hb : b ≠ 39 := fun heq => hrest (congrArg some heq)
      simp [readQuoted, hb]
  | case2 => cases h
  | case3 b l ih =>
    obtain ⟨hb, hl⟩ := h
    simp [readQuoted, ih hl, unescape_of_wildcard hb]
  | case4 b l hlast hescape ih =>
    have hb : b ≠ 92 := by
      rintro rfl
      cases l with
      | nil => exact hlast rfl rfl
      | cons c l => exact hescape c l rfl rfl
    simp only [Plain] at h
    obtain ⟨hquote, hl⟩ := h
    rw [List.cons_append, readQuoted_cons hquote hb, ih hl, Option.map_some]

theorem length_unescape_of_not_wildcard {b : UInt8}
    (h : ¬ (b = charByte '%' ∨ b = charByte '_')) : (unescape b).length = 1 := by
  unfold unescape
  rw [if_neg h]
  split_ifs <;> rfl

/-- A text between quotes that is read to its end is not shorter than its value, and as long only
if it is plain. -/
theorem plain_of_readQuoted {s value : List UInt8} (h : readQuoted (s ++ [39]) = some (value, [])) :
    value.length ≤ s.length ∧ (s.length ≤ value.length → Plain s) := by
  induction s using readQuoted.induct generalizing value with
  | case1 =>
    obtain rfl : [] = value := by simpa [readQuoted] using h
    exact ⟨Nat.le_refl _, fun _ => trivial⟩
  | case2 l ih =>
    simp only [List.cons_append, readQuoted, Option.map_eq_some_iff] at h
    obtain ⟨⟨v, rest⟩, hv, heq⟩ := h
    obtain ⟨rfl, rfl⟩ := Prod.mk.inj heq
    obtain ⟨hle, -⟩ := ih hv
    simp only [List.length_cons]
    exact ⟨by omega, by omega⟩
  | case3 l hl =>
    cases l with
    | nil => simp [readQuoted] at h
    | cons b l =>
      have hb : b ≠ 39 := fun heq => hl l (heq ▸ rfl)
      simp [readQuoted, hb] at h
  | case4 => simp [readQuoted] at h
  | case5 b l ih =>
    simp only [List.cons_append, readQuoted, Option.map_eq_some_iff] at h
    obtain ⟨⟨v, rest⟩, hv, heq⟩ := h
    obtain ⟨rfl, rfl⟩ := Prod.mk.inj heq
    obtain ⟨hle, hplain⟩ := ih hv
    rw [List.length_append]
    simp only [List.length_cons]
    by_cases hb : b = charByte '%' ∨ b = charByte '_'
    · rw [unescape_of_wildcard hb]
      simp only [List.length_cons, List.length_nil]
      exact ⟨by omega, fun h => ⟨hb, hplain (by omega)⟩⟩
    · rw [length_unescape_of_not_wildcard hb]
      exact ⟨by omega, fun h => by omega⟩
  | case6 b l hdouble hquote hlast hescape ih =>
    have hb : b ≠ 92 := by
      rintro rfl
      cases l with
      | nil => exact hlast rfl rfl
      | cons c l => exact hescape c l rfl rfl
    rw [List.cons_append, readQuoted_cons hquote hb] at h
    obtain ⟨⟨v, rest⟩, hv, heq⟩ := Option.map_eq_some_iff.mp h
    obtain ⟨rfl, rfl⟩ := Prod.mk.inj heq
    obtain ⟨hle, hplain⟩ := ih hv
    simp only [List.length_cons, Plain]
    exact ⟨by omega, fun h => ⟨hquote, hplain (by omega)⟩⟩

/-- **A text between quotes reads back as itself exactly when it is plain.** -/
theorem readQuoted_iff_plain {s : List UInt8} :
    readQuoted (s ++ [39]) = some (s, []) ↔ Plain s :=
  ⟨fun h => (plain_of_readQuoted h).2 (Nat.le_refl _),
    fun h => readQuoted_of_plain h (by simp)⟩

theorem length_readQuoted {l value rest : List UInt8} (h : readQuoted l = some (value, rest)) :
    rest.length < l.length := by
  induction l using readQuoted.induct generalizing value with
  | case1 => cases h
  | case2 l ih =>
    simp only [readQuoted, Option.map_eq_some_iff] at h
    obtain ⟨⟨v, r⟩, hv, heq⟩ := h
    obtain ⟨-, rfl⟩ := Prod.mk.inj heq
    exact (ih hv).trans (by simp only [List.length_cons]; omega)
  | case3 l hl =>
    simp only [readQuoted, Option.some.injEq, Prod.mk.injEq] at h
    obtain ⟨-, rfl⟩ := h
    exact Nat.lt_succ_self _
  | case4 => cases h
  | case5 b l ih =>
    simp only [readQuoted, Option.map_eq_some_iff] at h
    obtain ⟨⟨v, r⟩, hv, heq⟩ := h
    obtain ⟨-, rfl⟩ := Prod.mk.inj heq
    exact (ih hv).trans (by simp only [List.length_cons]; omega)
  | case6 b l hdouble hquote hlast hescape ih =>
    simp only [readQuoted, Option.map_eq_some_iff] at h
    obtain ⟨⟨v, r⟩, hv, heq⟩ := h
    obtain ⟨-, rfl⟩ := Prod.mk.inj heq
    exact Nat.lt_succ_of_lt (ih hv)

/-! ## Tokens -/

/-- A literal, or a byte outside of literals. -/
inductive Token
  | literal (value : List UInt8)
  | byte (b : UInt8)
  deriving DecidableEq, Repr

/-- The tokens of a text. A text in which a literal does not end has none. -/
def tokens (l : List UInt8) : Option (List Token) :=
  match l with
  | [] => some []
  | b :: l =>
    if b = 39 then
      match h : readQuoted l with
      | some (value, rest) =>
        have := length_readQuoted h
        (tokens rest).map (.literal value :: ·)
      | none => none
    else (tokens l).map (.byte b :: ·)
termination_by l.length

/-- `tokens` reads `l` as `ts`, whatever comes after it but a quote. -/
def Lexes (l : List UInt8) (ts : List Token) : Prop :=
  ∀ rest, rest.head? ≠ some 39 → tokens (l ++ rest) = (tokens rest).map (ts ++ ·)

theorem tokens_append_of_no_quote {l : List UInt8} (h : 39 ∉ l) (rest : List UInt8) :
    tokens (l ++ rest) = (tokens rest).map (l.map .byte ++ ·) := by
  induction l with
  | nil => simp
  | cons b l ih =>
    obtain ⟨hb, hl⟩ := not_or.mp (List.mem_cons.not.mp h)
    rw [List.cons_append, tokens, if_neg (Ne.symm hb), ih hl, Option.map_map]
    rfl

theorem lexes_of_no_quote {l : List UInt8} (h : 39 ∉ l) : Lexes l (l.map .byte) :=
  fun rest _ => tokens_append_of_no_quote h rest

theorem lexes_of_plain {s : List UInt8} (h : Plain s) : Lexes (39 :: s ++ [39]) [.literal s] := by
  intro rest hrest
  have hread : readQuoted (s ++ [39] ++ rest) = some (s, rest) := by
    rw [List.append_assoc]
    exact readQuoted_of_plain h hrest
  rw [List.cons_append, List.cons_append, tokens, if_pos rfl]
  split
  · rename_i value rest' heq
    rw [hread] at heq
    obtain ⟨rfl, rfl⟩ := Prod.mk.inj (Option.some.inj heq)
    rfl
  · rename_i heq
    rw [hread] at heq
    cases heq

theorem eq_nil_of_tokens {l : List UInt8} (h : tokens l = some []) : l = [] := by
  cases l with
  | nil => rfl
  | cons b l =>
    rw [tokens] at h
    split at h
    · split at h
      · obtain ⟨ts, -, hcons⟩ := Option.map_eq_some_iff.mp h
        cases hcons
      · cases h
    · obtain ⟨ts, -, hcons⟩ := Option.map_eq_some_iff.mp h
      cases hcons

/-- A text between quotes is one token, with the text as its value, exactly when it is plain. -/
theorem tokens_quoted_iff {s : List UInt8} :
    tokens (39 :: s ++ [39]) = some [.literal s] ↔ Plain s := by
  refine ⟨fun h => readQuoted_iff_plain.mp ?_, fun h => ?_⟩
  · rw [List.cons_append, tokens, if_pos rfl] at h
    split at h
    · rename_i value rest heq
      obtain ⟨ts, hts, hcons⟩ := Option.map_eq_some_iff.mp h
      obtain ⟨hvalue, rfl⟩ := List.cons.inj hcons
      obtain rfl := Token.literal.inj hvalue
      rw [heq, eq_nil_of_tokens hts]
    · cases h
  · have hlex := lexes_of_plain h [] (by simp)
    rw [List.append_nil] at hlex
    rw [hlex, tokens]
    rfl

/-! ## Arguments -/

/-- A blank outside of literals. -/
def Token.isBlank (t : Token) : Bool := t = .byte 32

/-- The tokens without the blanks at both ends. -/
def strip (ts : List Token) : List Token := (ts.dropWhile Token.isBlank).rdropWhile Token.isBlank

/-- The arguments of a call, from after its opening parenthesis on: they are separated by commas,
and the closing parenthesis is the last token. -/
def arguments (l : List UInt8) : Option (List (List Token)) :=
  (tokens l).bind fun ts =>
    if ts.getLast? = some (.byte 41) ∧ .byte 41 ∉ ts.dropLast then
      if ts.dropLast.all Token.isBlank then some []
      else some ((ts.dropLast.splitOn (.byte 44)).map strip)
    else none

/-- The text `l` is one argument, with the tokens `ts`. -/
structure IsArgument (l : List UInt8) (ts : List Token) : Prop where
  lexes : Lexes l ts
  ne_nil : ts ≠ []
  plain : ∀ t ∈ ts, t ≠ .byte 32 ∧ t ≠ .byte 41 ∧ t ≠ .byte 44

/-- A text without quotes and separators. -/
theorem isArgument_of_bytes {l : List UInt8} (hne : l ≠ [])
    (h : ∀ b ∈ l, b ≠ 32 ∧ b ≠ 39 ∧ b ≠ 41 ∧ b ≠ 44) : IsArgument l (l.map .byte) where
  lexes := lexes_of_no_quote fun hmem => (h 39 hmem).2.1 rfl
  ne_nil := by simpa using hne
  plain t ht := by
    obtain ⟨b, hb, rfl⟩ := List.mem_map.mp ht
    obtain ⟨hblank, -, hclose, hcomma⟩ := h b hb
    simpa using ⟨hblank, hclose, hcomma⟩

/-- A plain text between quotes. -/
theorem isArgument_of_plain {s : List UInt8} (h : Plain s) :
    IsArgument (39 :: s ++ [39]) [.literal s] where
  lexes := lexes_of_plain h
  ne_nil := List.cons_ne_nil _ _
  plain t ht := by simp [List.mem_singleton.mp ht]

section

variable {l : List UInt8} {us ts vs : List Token}

theorem IsArgument.strip_append (h : IsArgument l ts) (hu : ∀ t ∈ us, t = .byte 32)
    (hv : ∀ t ∈ vs, t = .byte 32) : strip (us ++ ts ++ vs) = ts := by
  have hblank : ∀ t ∈ ts, ¬ t.isBlank = true := fun t hmem => by
    simpa [Token.isBlank] using (h.plain t hmem).1
  have hleft : (us ++ ts ++ vs).dropWhile Token.isBlank = ts ++ vs := by
    rw [List.append_assoc,
      List.dropWhile_append_of_pos fun t ht => by simp [Token.isBlank, hu t ht]]
    cases ts with
    | nil => exact absurd rfl h.ne_nil
    | cons t ts => exact List.dropWhile_cons_of_neg (hblank t List.mem_cons_self)
  have hright : ts.reverse.dropWhile Token.isBlank = ts.reverse := by
    cases hts : ts.reverse with
    | nil => rfl
    | cons t rest =>
      have hmem : t ∈ ts := List.mem_reverse.mp (hts ▸ List.mem_cons_self)
      exact List.dropWhile_cons_of_neg (hblank t hmem)
  rw [strip, hleft, List.rdropWhile, List.reverse_append, List.dropWhile_append_of_pos, hright,
    List.reverse_reverse]
  exact fun t hmem => by simp [Token.isBlank, hv t (List.mem_reverse.mp hmem)]

theorem IsArgument.comma_notMem (h : IsArgument l ts) (hu : ∀ t ∈ us, t = .byte 32) :
    .byte 44 ∉ us ++ ts := by
  intro hmem
  rcases List.mem_append.mp hmem with hmem | hmem
  · cases hu _ hmem
  · exact (h.plain _ hmem).2.2 rfl

end

/-- The tokens of further arguments, each after its comma. -/
def furtherTokens (args : List (List UInt8 × List Token)) : List Token :=
  args.flatMap fun a => .byte 44 :: .byte 32 :: a.2

theorem head?_further_ne (args : List (List UInt8 × List Token)) :
    (args.flatMap (fun a => ascii ", " ++ a.1) ++ ascii " )").head? ≠ some 39 := by
  cases args with
  | nil => decide
  | cons a args => simp [ascii, charByte]

/-- The further arguments and the parenthesis. -/
theorem tokens_further {args : List (List UInt8 × List Token)}
    (h : ∀ a ∈ args, IsArgument a.1 a.2) :
    tokens (args.flatMap (fun a => ascii ", " ++ a.1) ++ ascii " )") =
      some (furtherTokens args ++ [.byte 32, .byte 41]) := by
  induction args with
  | nil =>
    rw [List.flatMap_nil, List.nil_append, ← List.append_nil (ascii " )"),
      tokens_append_of_no_quote (by decide), tokens]
    rfl
  | cons a args ih =>
    obtain ⟨ha, hargs⟩ := List.forall_mem_cons.mp h
    have hhead := head?_further_ne args
    rw [List.flatMap_cons, List.append_assoc, List.append_assoc,
      tokens_append_of_no_quote (by decide), ha.lexes _ hhead, ih hargs]
    simp [ascii, charByte, furtherTokens]

/-- An argument after blanks, and the further arguments. -/
theorem map_strip_splitOn {us : List Token} (hu : ∀ t ∈ us, t = .byte 32)
    {a : List UInt8 × List Token} {args : List (List UInt8 × List Token)}
    (ha : IsArgument a.1 a.2) (h : ∀ b ∈ args, IsArgument b.1 b.2) :
    ((us ++ a.2 ++ (furtherTokens args ++ [Token.byte 32])).splitOn (Token.byte 44)).map strip =
      a.2 :: args.map Prod.snd := by
  induction args generalizing us a with
  | nil =>
    have hlast : .byte 44 ∉ us ++ a.2 ++ [Token.byte 32] := by
      rw [List.mem_append, not_or]
      exact ⟨ha.comma_notMem hu, by simp⟩
    rw [furtherTokens, List.flatMap_nil, List.nil_append, List.splitOn_eq_singleton hlast,
      List.map_singleton, ha.strip_append hu (by simp)]
    rfl
  | cons b args ih =>
    obtain ⟨hb, hargs⟩ := List.forall_mem_cons.mp h
    have hsplit : us ++ a.2 ++ (furtherTokens (b :: args) ++ [Token.byte 32]) = (us ++ a.2) ++
        .byte 44 :: ([Token.byte 32] ++ b.2 ++ (furtherTokens args ++ [Token.byte 32])) := by
      simp [furtherTokens]
    have hfirst := @IsArgument.strip_append _ us _ [] ha hu (by simp)
    rw [List.append_nil] at hfirst
    rw [hsplit, List.splitOn_append_cons_self, List.splitOn_eq_singleton (ha.comma_notMem hu),
      List.map_append, List.map_singleton, hfirst, ih (by simp) hb hargs]
    rfl

theorem close_notMem_furtherTokens {args : List (List UInt8 × List Token)}
    (h : ∀ a ∈ args, IsArgument a.1 a.2) : .byte 41 ∉ furtherTokens args := by
  intro hmem
  obtain ⟨a, ha, hmem⟩ := List.mem_flatMap.mp hmem
  simp only [List.mem_cons, Token.byte.injEq] at hmem
  rcases hmem with hmem | hmem | hmem
  · exact absurd hmem (by decide)
  · exact absurd hmem (by decide)
  · exact ((h a ha).plain _ hmem).2.1 rfl

/-- **Arguments that are joined are read back one by one.** -/
theorem arguments_join {args : List (List UInt8 × List Token)}
    (h : ∀ a ∈ args, IsArgument a.1 a.2) :
    arguments ((ascii ", ").intercalate (args.map Prod.fst) ++ ascii " )") =
      some (args.map Prod.snd) := by
  cases args with
  | nil =>
    have htokens : tokens (ascii " )") = some [.byte 32, .byte 41] := tokens_further h
    rw [List.map_nil, List.intercalate_nil, List.nil_append, arguments, htokens]
    rfl
  | cons a args =>
    obtain ⟨ha, hargs⟩ := List.forall_mem_cons.mp h
    have htext : (ascii ", ").intercalate ((a :: args).map Prod.fst) ++ ascii " )" =
        a.1 ++ (args.flatMap (fun a => ascii ", " ++ a.1) ++ ascii " )") := by
      rw [List.map_cons, intercalate_cons_eq_flatMap, List.flatMap_map, List.append_assoc]
    have hhead := head?_further_ne args
    have htokens : tokens ((ascii ", ").intercalate ((a :: args).map Prod.fst) ++ ascii " )") =
        some (a.2 ++ (furtherTokens args ++ [.byte 32]) ++ [.byte 41]) := by
      rw [htext, ha.lexes _ hhead, tokens_further hargs]
      simp
    have hclose : .byte 41 ∉ a.2 ++ (furtherTokens args ++ [Token.byte 32]) := by
      simp only [List.mem_append, not_or]
      exact ⟨fun hmem => (ha.plain _ hmem).2.1 rfl, close_notMem_furtherTokens hargs, by simp⟩
    have hblank : ¬ (a.2 ++ (furtherTokens args ++ [Token.byte 32])).all Token.isBlank = true := by
      obtain ⟨t, ht⟩ := List.exists_mem_of_ne_nil _ ha.ne_nil
      intro hall
      have hblank := List.all_eq_true.mp hall t (List.mem_append_left _ ht)
      exact (ha.plain t ht).1 (by simpa [Token.isBlank] using hblank)
    have hsplit := @map_strip_splitOn [] (by simp) a args ha hargs
    rw [List.nil_append] at hsplit
    rw [arguments, htokens, Option.bind_some, List.getLast?_append_of_ne_nil _ (by simp),
      List.dropLast_concat, if_pos ⟨rfl, hclose⟩, if_neg hblank, hsplit, List.map_cons]

end Foundations

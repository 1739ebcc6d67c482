import Scaffold.Proofs.Artifact.Bodies
import Scaffold.Proofs.Text.Decimals

/-!
# Proofs/Artifact/Chains — what a chain of checks says to a reader of scripts

A chain is put together of pieces: text of its own, texts in quotes and operands as they are
(`toList_validationChain`).  `tokens?` reads a script up to its single-quoted literals.  What the
chain takes from its rules is a number or the content of a literal there exactly if every bound is
written as a decimal literal and no pattern or message has a line break (`isConfined_iff`): texts in
quotes are escaped but for line breaks, and a bound that is a text stands in the script as it is.
-/

namespace Scaffold.Artifact

open Document Model Naming Number Text

/-! ## Reading a script -/

/-- A character of a script, or the content of a literal in single quotes. -/
inductive Token where
  | mark (c : Char)
  | text (cs : List Char)
deriving DecidableEq, Repr

/-- What a character behind a backslash stands for.  Codes of characters and continued lines are not
read. -/
def escaped? (c : Char) : Option Char :=
  if c = 'n' then some '\n' else if c = 'r' then some '\r' else if c = 't' then some '\t'
  else if c = 'b' then some '\x08' else if c = 'f' then some '\x0c'
  else if c = 'v' then some '\x0b'
  else if c ∈ ['x', 'u', '\n', '\r', '\u2028', '\u2029'] || isPlainDigit c then none
  else some c

/-- The content of a literal behind its opening quote, and what follows it. -/
def readText? : List Char → Option (List Char × List Char)
  | [] => none
  | '\'' :: cs => some ([], cs)
  | ['\\'] => none
  | '\\' :: c :: cs =>
    match escaped? c with
    | some d => (readText? cs).map fun (content, rest) => (d :: content, rest)
    | none => none
  | c :: cs =>
    if c = '\n' || c = '\r' then none
    else (readText? cs).map fun (content, rest) => (c :: content, rest)

/-- Behind a literal less is left to read. -/
theorem length_of_readText? {cs content rest : List Char}
    (h : readText? cs = some (content, rest)) : rest.length < cs.length := by
  fun_induction readText? cs generalizing content rest with
  | case1 => cases h
  | case2 cs =>
    cases h
    exact Nat.lt_succ_self _
  | case3 => cases h
  | case4 c cs d _ ih =>
    obtain ⟨x, hx, heq⟩ := Option.map_eq_some_iff.mp h
    cases heq
    have hrest := ih hx
    simp only [List.length_cons]
    omega
  | case5 => cases h
  | case6 => cases h
  | case7 c cs _ _ _ _ ih =>
    obtain ⟨x, hx, heq⟩ := Option.map_eq_some_iff.mp h
    cases heq
    exact Nat.lt_succ_of_lt (ih hx)

/-- A script up to its literals, if each has an end. -/
def tokens? (cs : List Char) : Option (List Token) :=
  match cs with
  | [] => some []
  | c :: cs =>
    if c = '\'' then
      match h : readText? cs with
      | some (content, rest) =>
        have := length_of_readText? h
        (tokens? rest).map (.text content :: ·)
      | none => none
    else (tokens? cs).map (.mark c :: ·)
termination_by cs.length
decreasing_by all_goals simp_all; try omega

example : tokens? "f('it\\'s')".toList =
    some [.mark 'f', .mark '(', .text "it's".toList, .mark ')'] := by decide +kernel

theorem tokens?_cons {c : Char} (h : c ≠ '\'') (cs : List Char) :
    tokens? (c :: cs) = (tokens? cs).map (.mark c :: ·) := by
  rw [tokens?, if_neg h]

/-- A quote begins a literal, and what follows it is read by itself. -/
theorem tokens?_quote (cs : List Char) : tokens? ('\'' :: cs) =
    (readText? cs).bind fun x => (tokens? x.2).map (.text x.1 :: ·) := by
  rw [tokens?, if_pos rfl]
  split
  · rename_i h
    simp only [h, Option.bind_some]
  · rename_i h
    simp only [h, Option.bind_none]

/-- Text without quotes is read character by character. -/
theorem tokens?_append {cs : List Char} (h : '\'' ∉ cs) (ds : List Char) :
    tokens? (cs ++ ds) = (tokens? ds).map (cs.map .mark ++ ·) := by
  induction cs with
  | nil => simp
  | cons c cs ih =>
    obtain ⟨hc, hcs⟩ := not_or.mp (mt List.mem_cons.mpr h)
    rw [List.cons_append, tokens?_cons (Ne.symm hc), ih hcs, Option.map_map]
    rfl

/-! ## Texts in quotes -/

/-- Nothing in the text ends a line of a script. -/
def Unbroken (s : String) : Prop := ∀ c ∈ s.toList, c ∉ ['\n', '\r']

instance (s : String) : Decidable (Unbroken s) :=
  inferInstanceAs (Decidable (∀ c ∈ s.toList, c ∉ ['\n', '\r']))

theorem readText?_cons {c : Char} (h : c ∉ ['\'', '\\', '\n', '\r']) (cs : List Char) :
    readText? (c :: cs) = (readText? cs).map fun (content, rest) => (c :: content, rest) := by
  simp only [List.mem_cons, List.not_mem_nil, or_false, not_or] at h
  rw [readText?.eq_5 _ _ h.1 (fun heq _ => h.2.1 heq) fun _ _ heq _ => h.2.1 heq]
  simp [h]

/-- An escaped character is read back as that character. -/
theorem readText?_escapeQuoted {c : Char} (h : c ∉ ['\n', '\r']) (cs : List Char) :
    readText? (escapeQuoted c ++ cs) =
      (readText? cs).map fun (content, rest) => (c :: content, rest) := by
  by_cases hslash : c = '\\'
  · subst hslash
    rfl
  · by_cases hquote : c = '\''
    · subst hquote
      rfl
    · have hescape : escapeQuoted c = [c] := by simp [escapeQuoted, hslash, hquote]
      rw [hescape, List.singleton_append, readText?_cons]
      simp only [List.mem_cons, List.not_mem_nil, or_false, not_or] at h ⊢
      exact ⟨hquote, hslash, h⟩

theorem readText?_break {c : Char} (h : c ∈ ['\n', '\r']) (cs : List Char) :
    readText? (escapeQuoted c ++ cs) = none := by
  rw [List.mem_cons, List.mem_singleton] at h
  obtain rfl | rfl := h <;> rfl

/-- A text without line breaks is read back from its literal. -/
theorem readText?_unbroken {cs : List Char} (h : ∀ c ∈ cs, c ∉ ['\n', '\r']) (ds : List Char) :
    readText? (cs.flatMap escapeQuoted ++ '\'' :: ds) = some (cs, ds) := by
  induction cs with
  | nil => rfl
  | cons c cs ih =>
    obtain ⟨hc, hcs⟩ := List.forall_mem_cons.mp h
    rw [List.flatMap_cons, List.append_assoc, readText?_escapeQuoted hc, ih hcs]
    rfl

/-- A line break in a literal cannot be read, whatever follows. -/
theorem readText?_broken {cs : List Char} (h : ¬∀ c ∈ cs, c ∉ ['\n', '\r']) (ds : List Char) :
    readText? (cs.flatMap escapeQuoted ++ ds) = none := by
  induction cs with
  | nil => exact absurd (List.forall_mem_nil _) h
  | cons c cs ih =>
    rw [List.flatMap_cons, List.append_assoc]
    by_cases hc : c ∈ ['\n', '\r']
    · exact readText?_break hc _
    · rw [readText?_escapeQuoted hc, ih fun hcs => h (List.forall_mem_cons.mpr ⟨hc, hcs⟩)]
      rfl

theorem toList_scriptText (s : String) (ds : List Char) : (scriptText s).toList ++ ds =
    '\'' :: (s.toList.flatMap escapeQuoted ++ '\'' :: ds) := by
  rw [scriptText, String.toList_ofList, List.cons_append, List.cons_append, List.append_assoc]
  rfl

/-- **A text in quotes is read back if it is unbroken**, and is no literal otherwise. -/
theorem tokens?_scriptText (s : String) (ds : List Char) :
    tokens? ((scriptText s).toList ++ ds) =
      if Unbroken s then (tokens? ds).map (.text s.toList :: ·) else none := by
  rw [toList_scriptText, tokens?_quote]
  split
  · rename_i h
    rw [readText?_unbroken h]
    rfl
  · rename_i h
    rw [readText?_broken h]
    rfl

/-! ## Texts as they are -/

/-- The characters that a text in quotes escapes. -/
def specials : List Char := ['\'', '\\']

/-- The escapes of quotes and backslashes stand for themselves. -/
theorem eq_of_escaped? {c d : Char} (h : escaped? c = some d) (hd : d ∈ specials) : c = d := by
  have hcontrol {x : Char} (hx : x ∉ specials) (heq : some x = some d) : c = d :=
    absurd hd (Option.some.inj heq ▸ hx)
  unfold escaped? at h
  iterate 6
    split at h
    · exact hcontrol (by decide) h
  split at h
  · cases h
  · exact Option.some.inj h

/-- A character that is no special one is read as it is. -/
theorem readText?_cons_ne {c e : Char} (hc : c ∉ specials) (he : e ∈ specials)
    (cs us rest : List Char) : readText? (c :: cs) ≠ some (e :: us, rest) := by
  intro h
  by_cases hbreak : c ∈ ['\n', '\r']
  · have hnone := readText?_break hbreak cs
    have hescape : escapeQuoted c = [c] := by
      rw [List.mem_cons, List.mem_singleton] at hbreak
      obtain rfl | rfl := hbreak <;> rfl
    rw [hescape, List.singleton_append, h] at hnone
    cases hnone
  · rw [readText?_cons (by simp_all [specials])] at h
    obtain ⟨x, -, heq⟩ := Option.map_eq_some_iff.mp h
    exact hc ((List.cons.inj (Prod.mk.inj heq).1).1 ▸ he)

/-- A special character is read behind a backslash only. -/
theorem of_readText?_special {d e : Char} (he : e ∈ specials) {cs us rest : List Char}
    (h : readText? ('\\' :: d :: cs) = some (e :: us, rest)) :
    d = e ∧ readText? cs = some (us, rest) := by
  rw [readText?] at h
  split at h
  · rename_i x hx
    obtain ⟨y, hy, heq⟩ := Option.map_eq_some_iff.mp h
    obtain ⟨hcontent, rfl⟩ := Prod.mk.inj heq
    obtain ⟨rfl, rfl⟩ := List.cons.inj hcontent
    exact ⟨eq_of_escaped? hx he, hy⟩
  · cases h

/-- What is read of a text cannot begin with special characters and go on with the text itself:
each of them takes two characters of the text. -/
theorem readText?_ne {n : Nat} {p u t rest : List Char} (hn : u.length < n) (hne : p ≠ [])
    (hp : ∀ c ∈ p, c ∈ specials) (ht : ∀ c ∈ t.head?, c ∉ specials) :
    readText? (u ++ t) ≠ some (p ++ u, rest) := by
  induction n generalizing p u with
  | zero => exact absurd hn (Nat.not_lt_zero _)
  | succ n ih =>
    obtain ⟨e, p, rfl⟩ := List.exists_cons_of_ne_nil hne
    obtain ⟨he, hp'⟩ := List.forall_mem_cons.mp hp
    intro h
    cases u with
    | nil =>
      cases t with
      | nil => cases h
      | cons c t => exact readText?_cons_ne (ht c rfl) he _ _ _ h
    | cons c u =>
      by_cases hc : c ∈ specials
      · rw [specials, List.mem_cons, List.mem_singleton] at hc
        obtain rfl | rfl := hc
        · cases h
        · cases u with
          | nil =>
            cases t with
            | nil => cases h
            | cons d t => exact ht d rfl ((of_readText?_special he h).1 ▸ he)
          | cons d u =>
            obtain ⟨rfl, hrest⟩ := of_readText?_special he h
            have hpending : ∀ x ∈ p ++ ['\\', d], x ∈ specials := by
              refine List.forall_mem_append.mpr ⟨hp', List.forall_mem_cons.mpr ⟨by decide, ?_⟩⟩
              exact List.forall_mem_singleton.mpr he
            have hshort : u.length < n := by
              simp only [List.length_cons] at hn
              omega
            refine ih hshort (by simp) hpending ?_
            rw [List.append_assoc]
            exact hrest
      · exact readText?_cons_ne hc he _ _ _ h

/-- A text as it is, with no special character behind it, is read as no literal that gives it. -/
theorem tokens?_ne (s : List Char) {c : Char} (hc : c ∉ specials) (cs : List Char)
    (ts : List Token) : tokens? (s ++ c :: cs) ≠ some (.text s :: ts) := by
  have hmark {d : Char} (hd : d ≠ '\'') (ds : List Char) :
      tokens? (d :: ds) ≠ some (.text s :: ts) := by
    rw [tokens?_cons hd]
    intro h
    obtain ⟨x, -, heq⟩ := Option.map_eq_some_iff.mp h
    cases heq
  cases s with
  | nil =>
    refine hmark ?_ cs
    rintro rfl
    exact hc (by decide)
  | cons d s =>
    by_cases hd : d = '\''
    · subst hd
      intro h
      rw [List.cons_append, tokens?_quote] at h
      obtain ⟨⟨content, rest⟩, hread, hrest⟩ := Option.bind_eq_some_iff.mp h
      obtain ⟨x, -, heq⟩ := Option.map_eq_some_iff.mp hrest
      obtain ⟨rfl⟩ := Token.text.inj (List.cons.inj heq).1
      exact readText?_ne (p := ['\'']) (Nat.lt_succ_self s.length) (List.cons_ne_nil _ _)
        (by decide) (by rintro _ ⟨⟩; exact hc) hread
    · exact hmark hd _

/-! ## The pieces of a chain -/

/-- A piece of a chain. -/
inductive Piece where
  /-- Text of the chain itself. -/
  | fixed (s : String)
  /-- A text in quotes. -/
  | quoted (s : String)
  /-- An operand as it is, and the character behind it. -/
  | operand (o : Operand) (stop : Char)

namespace Piece

/-- The piece as it is written. -/
def chars : Piece → List Char
  | fixed s => s.toList
  | quoted s => (scriptText s).toList
  | operand o stop => o.document.shown.toList ++ [stop]

/-- What the piece is to be read as: an operand is a decimal literal, or a text that is the content
of a literal in quotes. -/
inductive Reads : Piece → List Token → Prop where
  | fixed (s : String) : Reads (.fixed s) (s.toList.map .mark)
  | quoted (s : String) : Reads (.quoted s) [.text s.toList]
  | number {o : Operand} (h : IsDecimal o.document.shown.toList) (stop : Char) :
    Reads (.operand o stop) ((o.document.shown.toList ++ [stop]).map .mark)
  | text (s : String) (stop : Char) : Reads (.operand (.text s) stop) [.text s.toList, .mark stop]

/-- What the piece needs for that. -/
def IsRead : Piece → Prop
  | fixed _ => True
  | quoted s => Unbroken s
  | operand o _ => IsDecimal o.document.shown.toList

/-- Nothing but literals has quotes. -/
def IsTidy : Piece → Prop
  | fixed s => '\'' ∉ s.toList
  | quoted _ => True
  | operand _ stop => stop ∉ specials

@[simp]
theorem isRead_fixed (s : String) : (fixed s).IsRead := trivial

@[simp]
theorem isRead_quoted (s : String) : (quoted s).IsRead ↔ Unbroken s := Iff.rfl

@[simp]
theorem isRead_operand (o : Operand) (stop : Char) :
    (operand o stop).IsRead ↔ IsDecimal o.document.shown.toList := Iff.rfl

@[simp]
theorem isTidy_fixed (s : String) : (fixed s).IsTidy ↔ '\'' ∉ s.toList := Iff.rfl

@[simp]
theorem isTidy_quoted (s : String) : (quoted s).IsTidy := trivial

@[simp]
theorem isTidy_operand (o : Operand) (stop : Char) :
    (operand o stop).IsTidy ↔ stop ∉ specials := Iff.rfl

end Piece

theorem map_append_eq_some_iff {α : Type} (front : List α) {xs : List α} {o : Option (List α)} :
    o.map (front ++ ·) = some (front ++ xs) ↔ o = some xs := by
  cases o with
  | none => simp
  | some ys => simp

theorem tokens?_marks_iff {cs : List Char} (h : '\'' ∉ cs) (ds : List Char) (ts : List Token) :
    tokens? (cs ++ ds) = some (cs.map .mark ++ ts) ↔ tokens? ds = some ts := by
  rw [tokens?_append h, map_append_eq_some_iff]

/-- **A text is read back from its literal exactly if it has no line break.** -/
theorem tokens?_quoted_iff (s : String) (ds : List Char) (ts : List Token) :
    tokens? ((scriptText s).toList ++ ds) = some (.text s.toList :: ts) ↔
      Unbroken s ∧ tokens? ds = some ts := by
  rw [tokens?_scriptText]
  split
  · rename_i h
    exact (map_append_eq_some_iff [Token.text s.toList]).trans (and_iff_right h).symm
  · rename_i h
    exact iff_of_false nofun fun hand => h hand.1

theorem quote_notMem_operand {cs : List Char} (h : IsDecimal cs) {stop : Char}
    (hstop : stop ∉ specials) : '\'' ∉ cs ++ [stop] := by
  refine fun hmem => (List.mem_append.mp hmem).elim (fun hquote => ?_) fun hquote => ?_
  · exact absurd (h.mem hquote) (by decide)
  · exact hstop (List.mem_singleton.mp hquote ▸ List.mem_cons_self)

/-- **Pieces are read as they should be all together or not at all.** -/
theorem tokens?_pieces_iff {ps : List Piece} (h : ∀ p ∈ ps, p.IsTidy) :
    (∃ tss, List.Forall₂ Piece.Reads ps tss ∧
      tokens? (ps.flatMap Piece.chars) = some tss.flatten) ↔ ∀ p ∈ ps, p.IsRead := by
  induction ps with
  | nil =>
    refine iff_of_true ⟨[], .nil, ?_⟩ (List.forall_mem_nil _)
    rw [List.flatMap_nil, tokens?, List.flatten_nil]
  | cons p ps ih =>
    obtain ⟨hp, hps⟩ := List.forall_mem_cons.mp h
    rw [List.forall_mem_cons, ← ih hps, List.flatMap_cons]
    constructor
    · rintro ⟨_, hreads, htokens⟩
      obtain ⟨ts, tss, hread, hrest, rfl⟩ := List.forall₂_cons_left_iff.mp hreads
      rw [List.flatten_cons] at htokens
      cases hread with
      | fixed s => exact ⟨trivial, tss, hrest, (tokens?_marks_iff hp _ _).mp htokens⟩
      | quoted s =>
        obtain ⟨hs, htokens⟩ := (tokens?_quoted_iff s _ _).mp htokens
        exact ⟨hs, tss, hrest, htokens⟩
      | number ho stop =>
        exact ⟨ho, tss, hrest, (tokens?_marks_iff (quote_notMem_operand ho hp) _ _).mp htokens⟩
      | text s stop =>
        rw [Piece.chars, List.append_assoc] at htokens
        exact absurd htokens (tokens?_ne s.toList hp _ _)
    · rintro ⟨hread, tss, hrest, htokens⟩
      cases p with
      | fixed s => exact ⟨_, .cons (.fixed s) hrest, (tokens?_marks_iff hp _ _).mpr htokens⟩
      | quoted s =>
        exact ⟨_, .cons (.quoted s) hrest, (tokens?_quoted_iff s _ _).mpr ⟨hread, htokens⟩⟩
      | operand o stop =>
        exact ⟨_, .cons (.number hread stop) hrest,
          (tokens?_marks_iff (quote_notMem_operand hread hp) _ _).mpr htokens⟩

/-! ## The chain of a field -/

def messagePieces (message : Option String) : List Piece :=
  match message with
  | some m => if m = "" then [] else [.fixed ".withMessage(", .quoted m, .fixed ")"]
  | none => []

/-- The pieces of limits between braces. -/
def limitPieces : Option Rule → Option Rule → List Piece
  | none, none => []
  | some l, none => [.fixed "min: ", .operand l.operand ' ']
  | none, some u => [.fixed "max: ", .operand u.operand ' ']
  | some l, some u =>
    [.fixed "min: ", .operand l.operand ',', .fixed " max: ", .operand u.operand ' ']

def boundPieces (f : Field) : List Piece :=
  match bounds? f with
  | none => []
  | some b =>
    if b.lower = none ∧ b.upper = none then []
    else [.fixed ("." ++ b.check ++ "(\x7b ")] ++ limitPieces b.lower b.upper ++
      [.fixed "\x7d)"] ++ messagePieces (firstMessage (b.lower.toList ++ b.upper.toList))

/-- The pieces of an operand as a literal, and of the bracket behind it. -/
def literalPieces : Operand → List Piece
  | .text s => [.quoted s, .fixed ")"]
  | o => [.operand o ')']

def patternPieces (f : Field) : List Piece :=
  match f.rule? "pattern" with
  | none => []
  | some r =>
    [.fixed ".matches(new RegExp("] ++ literalPieces r.operand ++ [.fixed ")"] ++
      messagePieces r.message

def presencePieces (forUpdate : Bool) (f : Field) : List Piece :=
  if f.required && !forUpdate then
    [.fixed r".exists({ checkNull: true }).withMessage(", .quoted (f.name ++ " is required"),
      .fixed ")"]
  else [.fixed ".optional()"]

/-- The pieces of the chain of a field. -/
def chainPieces (forUpdate : Bool) (f : Field) : List Piece :=
  [.fixed "body(", .quoted f.name, .fixed ")"] ++ presencePieces forUpdate f ++
    [.fixed ("." ++ (Catalog.facts f.type).check)] ++ boundPieces f ++ patternPieces f

/-- The pieces of a message are its parts. -/
theorem flatMap_messagePieces (message : Option String) :
    (messagePieces message).flatMap Piece.chars = (withMessage message).flatMap String.toList := by
  cases message with
  | none => rfl
  | some m =>
    rw [messagePieces, withMessage]
    split
    · rfl
    · simp [Piece.chars, String.toList_append, toString]

/-- The pieces of the bounds are their parts. -/
theorem flatMap_boundPieces (f : Field) :
    (boundPieces f).flatMap Piece.chars = (boundParts f).flatMap String.toList := by
  rw [boundPieces, boundParts]
  cases bounds? f with
  | none => rfl
  | some b =>
    obtain ⟨check, lower, upper⟩ := b
    cases lower <;> cases upper <;>
      simp [limitPieces, Piece.chars, String.toList_append, flatMap_messagePieces]

/-- The pieces of a pattern are its parts. -/
theorem flatMap_patternPieces (f : Field) :
    (patternPieces f).flatMap Piece.chars = (patternParts f).flatMap String.toList := by
  rw [patternPieces, patternParts]
  cases f.rule? "pattern" with
  | none => rfl
  | some r =>
    obtain ⟨kind, operand, message⟩ := r
    cases operand <;>
      simp [literalPieces, scriptLiteral, Piece.chars, String.toList_append, flatMap_messagePieces,
        toString]

/-- What needs no escape is quoted as it is. -/
theorem chars_quoted {s : String} (h : ∀ c ∈ s.toList, c ∉ specials) :
    (Piece.quoted s).chars = '\'' :: (s.toList ++ ['\'']) := by
  have hescape : s.toList.flatMap escapeQuoted = s.toList.flatMap fun c => [c] := by
    refine List.flatMap_congr fun c hc => ?_
    have hspecial := h c hc
    rw [specials, List.mem_cons, List.mem_singleton, or_comm] at hspecial
    simp only [escapeQuoted, Bool.or_eq_true, decide_eq_true_eq, hspecial, if_false]
  rw [Piece.chars, scriptText, String.toList_ofList, hescape, List.flatMap_singleton']
  rfl

/-- Only a line feed is dropped. -/
theorem mem_withoutFinalLineFeed {cs : List Char} {c : Char} (h : c ∈ cs) :
    c ∈ withoutFinalLineFeed cs ∨ c = '\n' := by
  unfold withoutFinalLineFeed
  split
  · rename_i hlast
    rw [← List.dropLast_append_getLast? _ hlast, List.mem_append, List.mem_singleton] at h
    exact h
  · exact .inl h

/-- A camel-case name may end in a line feed. -/
theorem isPlainAlnum_of_isCamel {s : String} (h : isCamel s = true) {c : Char} (hc : c ∈ s.toList) :
    isPlainAlnum c = true ∨ c = '\n' := by
  refine (mem_withoutFinalLineFeed hc).imp_left fun hmem => ?_
  rw [isCamel, isIdentifier] at h
  split at h
  · cases h
  · rename_i first rest hs
    obtain ⟨hfirst, hrest⟩ := Bool.and_eq_true_iff.mp h
    rw [hs] at hmem
    obtain rfl | hmem := List.mem_cons.mp hmem
    · rw [isPlainAlnum, isPlainLetter, hfirst, Bool.or_true, Bool.true_or]
    · exact List.all_eq_true.mp hrest c hmem

theorem special_notMem_of_isCamel {s : String} (h : isCamel s = true) :
    ∀ c ∈ s.toList, c ∉ specials := by
  intro c hc hspecial
  have hall : ∀ c ∈ specials, ¬(isPlainAlnum c = true ∨ c = '\n') := by decide
  exact hall c hspecial (isPlainAlnum_of_isCamel h hc)

/-- **A chain is written piece by piece.** -/
theorem toList_validationChain (forUpdate : Bool) {f : Field} (h : isCamel f.name = true) :
    (validationChain forUpdate f).toList = (chainPieces forUpdate f).flatMap Piece.chars := by
  have hname := special_notMem_of_isCamel h
  have hrequired : ∀ c ∈ (f.name ++ " is required").toList, c ∉ specials := by
    rw [String.toList_append]
    exact List.forall_mem_append.mpr ⟨hname, by decide⟩
  simp only [validationChain, chainPieces, presencePieces, String.toList_join, List.flatMap_append,
    flatMap_boundPieces, flatMap_patternPieces, List.flatMap_cons, List.flatMap_nil,
    chars_quoted hname]
  congr 2
  split
  · rw [List.flatMap_cons, List.flatMap_cons, chars_quoted hrequired]
    simp [Piece.chars, String.toList_append, toString]
  · simp [Piece.chars, String.toList_append, toString]

/-! ## What a chain needs -/

/-- The operand is written as a decimal literal. -/
def IsNumeric : Operand → Prop
  | .int _ => True
  | .real (.finite _ _ _) => True
  | .real _ => False
  | .text s => IsDecimal s.toList

/-- The operand is a literal, a text in quotes. -/
def IsQuotable : Operand → Prop
  | .text s => Unbroken s
  | o => IsNumeric o

/-- The messages that a chain takes from its rules. -/
def chainMessages (f : Field) : List String :=
  (firstMessage (boundRules f)).toList ++ ((f.rule? "pattern").bind (·.message)).toList

/-- What a chain takes from its rules is a decimal literal or the content of a literal in quotes,
and both begin and end where they should. -/
def IsConfined (forUpdate : Bool) (f : Field) : Prop :=
  ∃ tss, List.Forall₂ Piece.Reads (chainPieces forUpdate f) tss ∧
    tokens? (validationChain forUpdate f).toList = some tss.flatten

theorem shown_real (x : Binary64) : (Value.real x).shown = x.spell .plain := by
  rw [Value.shown, Value.literal, Value.literalIn]
  all_goals simp

theorem shown_int (n : Int) : (Value.int n).shown = toString n := by
  rw [Value.shown, Value.literal, Value.literalIn]
  all_goals simp

/-- **Numbers are written as decimal literals but for those that are not finite.** -/
theorem isDecimal_shown_iff (o : Operand) : IsDecimal o.document.shown.toList ↔ IsNumeric o := by
  have hspecial {cs : List Char} (hn : 'n' ∈ cs) : ¬IsDecimal cs := fun hdecimal =>
    absurd (hdecimal.mem hn) (by decide)
  cases o with
  | int n =>
    rw [Operand.document, shown_int]
    exact iff_of_true (isDecimal_toString_int n) trivial
  | real x =>
    rw [Operand.document, shown_real]
    cases x with
    | nan => exact iff_of_false (hspecial (by decide)) id
    | infinite negative => exact iff_of_false (hspecial (by cases negative <;> decide)) id
    | finite s m q => exact iff_of_true (isDecimal_spell _ s m q) trivial
  | text s => exact Iff.rfl

theorem isTidy_messagePieces (message : Option String) : ∀ p ∈ messagePieces message, p.IsTidy := by
  unfold messagePieces
  split
  · split
    · exact List.forall_mem_nil _
    · simp
  · exact List.forall_mem_nil _

/-- A message is read back exactly if it has no line break. -/
theorem isRead_messagePieces_iff (message : Option String) :
    (∀ p ∈ messagePieces message, p.IsRead) ↔ ∀ m ∈ message, Unbroken m := by
  cases message with
  | none => simp [messagePieces]
  | some m =>
    rw [messagePieces]
    split
    · rename_i hm
      simp [hm, Unbroken]
    · simp

/-- The pieces of the bounds stop where a token can stop. -/
theorem isTidy_boundPieces (f : Field) : ∀ p ∈ boundPieces f, p.IsTidy := by
  unfold boundPieces
  split
  · exact List.forall_mem_nil _
  · rename_i b hb
    split
    · exact List.forall_mem_nil _
    · have hcheck : '\'' ∉ ("." ++ b.check ++ "(\x7b ").toList := by
        have hall : ∀ s ∈ ["isLength", "isInt", "isFloat"],
            '\'' ∉ ("." ++ s ++ "(\x7b ").toList := by decide
        exact hall b.check (check_mem_of_bounds hb)
      have hlimits : ∀ p ∈ limitPieces b.lower b.upper, p.IsTidy := by
        cases b.lower <;> cases b.upper <;> simp [limitPieces, specials]
      simp only [List.forall_mem_append, List.forall_mem_singleton, Piece.isTidy_fixed]
      exact ⟨⟨⟨hcheck, hlimits⟩, by decide⟩, isTidy_messagePieces _⟩

/-- The bounds are read back exactly if their operands are numbers, and the message has no line
break. -/
theorem isRead_boundPieces_iff (f : Field) : (∀ p ∈ boundPieces f, p.IsRead) ↔
    (∀ r ∈ boundRules f, IsNumeric r.operand) ∧ ∀ m ∈ firstMessage (boundRules f), Unbroken m := by
  unfold boundPieces boundRules
  cases bounds? f with
  | none => simp [firstMessage]
  | some b =>
    dsimp only
    have hlimits : (∀ p ∈ limitPieces b.lower b.upper, p.IsRead) ↔
        ∀ r ∈ b.lower.toList ++ b.upper.toList, IsNumeric r.operand := by
      cases b.lower <;> cases b.upper <;> simp [limitPieces, isDecimal_shown_iff]
    split
    · rename_i hnone
      simp [hnone, firstMessage]
    · simp only [List.forall_mem_append, List.forall_mem_singleton, Piece.isRead_fixed, true_and,
        and_true, isRead_messagePieces_iff, hlimits]

theorem isTidy_patternPieces (f : Field) : ∀ p ∈ patternPieces f, p.IsTidy := by
  unfold patternPieces
  split
  · exact List.forall_mem_nil _
  · rename_i r _
    refine List.forall_mem_append.mpr ⟨?_, isTidy_messagePieces _⟩
    cases r.operand <;> simp [literalPieces, specials]

/-- A pattern is read back exactly if its operand can be quoted, and the message has no line break.
-/
theorem isRead_patternPieces_iff (f : Field) : (∀ p ∈ patternPieces f, p.IsRead) ↔
    (∀ r ∈ f.rule? "pattern", IsQuotable r.operand) ∧
      ∀ m ∈ (f.rule? "pattern").bind (·.message), Unbroken m := by
  unfold patternPieces
  cases f.rule? "pattern" with
  | none => simp
  | some r =>
    have hliteral : (∀ p ∈ literalPieces r.operand, p.IsRead) ↔ IsQuotable r.operand := by
      cases r.operand <;> simp [literalPieces, isDecimal_shown_iff, IsQuotable]
    simp only [List.forall_mem_append, List.forall_mem_singleton, Piece.isRead_fixed, true_and,
      and_true, isRead_messagePieces_iff, hliteral]
    simp

/-- Each piece of a chain stops where a token can stop. -/
theorem isTidy_chainPieces (forUpdate : Bool) (f : Field) :
    ∀ p ∈ chainPieces forUpdate f, p.IsTidy := by
  have hpresence : ∀ p ∈ presencePieces forUpdate f, p.IsTidy := by
    unfold presencePieces
    split <;> simp
  have hcheck : '\'' ∉ ("." ++ (Catalog.facts f.type).check).toList := by
    cases f.type <;> decide
  simp only [chainPieces, List.forall_mem_append, List.forall_mem_singleton, Piece.isTidy_fixed]
  refine ⟨⟨⟨⟨?_, hpresence⟩, hcheck⟩, isTidy_boundPieces f⟩, isTidy_patternPieces f⟩
  simp

/-- A chain is confined if each of its pieces can be read. -/
theorem isConfined_iff_isRead (forUpdate : Bool) {f : Field} (h : isCamel f.name = true) :
    IsConfined forUpdate f ↔ ∀ p ∈ chainPieces forUpdate f, p.IsRead := by
  rw [IsConfined, toList_validationChain forUpdate h]
  exact tokens?_pieces_iff (isTidy_chainPieces forUpdate f)

theorem unbroken_iff_of_isCamel {s : String} (h : isCamel s = true) : Unbroken s ↔ OneLine s := by
  have hreturn : ¬(isPlainAlnum '\r' = true ∨ '\r' = '\n') := by decide
  refine ⟨fun hs hfeed => hs _ hfeed List.mem_cons_self, fun hs c hc hbreak => ?_⟩
  rw [List.mem_cons, List.mem_singleton] at hbreak
  obtain rfl | rfl := hbreak
  · exact hs hc
  · exact hreturn (isPlainAlnum_of_isCamel h hc)

/-- **What rules say stays in its literals** exactly if every bound is a finite number, or a text
that spells one, and neither a pattern nor a message has a line break; the name may not end in one
either. -/
theorem isConfined_iff (forUpdate : Bool) {f : Field} (h : isCamel f.name = true) :
    IsConfined forUpdate f ↔ OneLine f.name ∧ (∀ r ∈ boundRules f, IsNumeric r.operand) ∧
      (∀ r ∈ f.rule? "pattern", IsQuotable r.operand) ∧ ∀ m ∈ chainMessages f, Unbroken m := by
  have hpresence (hname : Unbroken f.name) : ∀ p ∈ presencePieces forUpdate f, p.IsRead := by
    have hrequired : Unbroken (f.name ++ " is required") := by
      rw [Unbroken, String.toList_append]
      exact List.forall_mem_append.mpr ⟨hname, by decide⟩
    unfold presencePieces
    split <;> simp [hrequired]
  have hfront : (∀ p ∈ [Piece.fixed "body(", .quoted f.name, .fixed ")"], p.IsRead) ↔
      Unbroken f.name := by simp
  rw [isConfined_iff_isRead forUpdate h, ← unbroken_iff_of_isCamel h]
  simp only [chainPieces, chainMessages, List.forall_mem_append, List.forall_mem_singleton, hfront,
    Piece.isRead_fixed, isRead_boundPieces_iff, isRead_patternPieces_iff, Option.mem_toList]
  constructor
  · rintro ⟨⟨⟨⟨hname, -⟩, -⟩, hbounds, hbound⟩, hpattern, hmessage⟩
    exact ⟨hname, hbounds, hpattern, hbound, hmessage⟩
  · rintro ⟨hname, hbounds, hpattern, hbound, hmessage⟩
    exact ⟨⟨⟨⟨hname, hpresence hname⟩, trivial⟩, hbounds, hbound⟩, hpattern, hmessage⟩

/-- A text field with some rules. -/
def title (rules : List Rule) : Field where
  id := none
  name := "title"
  type := .string
  required := false
  unique := false
  default := .null
  rules := rules
  description := none

theorem isConfined_title : isCamel "title" = true ∧
    IsConfined false (title [⟨.minLength, .int 2, some r"it's \ short"⟩,
      ⟨.pattern, .text r"^\w+'$", none⟩]) := by
  refine ⟨by decide, (isConfined_iff false (by decide)).mpr ⟨by decide, ?_, ?_, by decide⟩⟩
  · exact List.forall_mem_singleton.mpr trivial
  · rintro _ ⟨⟩
    exact (by decide : Unbroken r"^\w+'$")

/-- A bound that is a text ends up among the checks. -/
theorem not_isConfined_title : isCamel "title" = true ∧
    validationChain false (title [⟨.minLength, .text "it's", none⟩]) =
      r"body('title').optional().isString().isLength({ min: it's })" ∧
    ¬IsConfined false (title [⟨.minLength, .text "it's", none⟩]) := by
  refine ⟨by decide, by decide +kernel, fun hconfined => ?_⟩
  have hread := (isConfined_iff_isRead false (by decide)).mp hconfined
  have hbounds := (isRead_boundPieces_iff _).mp fun p hp =>
    hread p (List.mem_append_left _ (List.mem_append_right _ hp))
  have hbound : IsDecimal "it's".toList := hbounds.1 _ List.mem_cons_self
  exact absurd (hbound.mem (by decide : '\'' ∈ "it's".toList)) (by decide)

end Scaffold.Artifact

import Mathlib.Data.List.Nodup
import Scaffold.Document.Json.Printer
import Scaffold.Proofs.Document.Numbers
import Scaffold.Proofs.Text.Lines

/-!
# Proofs/Document/RoundTrip — a document that is written can be read

Whatever the layout, what is written for a document is read as that document.  Texts come first: an
escape is read as the code units it stands for (`readUnits_escapeChar`), and the code units of a
text join to its characters (`joinUnits_flatMap`).  Values follow: the reader takes exactly what was
written for one and leaves what follows it (`ReadsBack`), which for lists and records rests on the
same for their items and members (`readsBack_write`).
-/

namespace Scaffold.Document.Json

/-! ## Texts -/

theorem hexQuad?_hexDigit {a b c d : Nat} (ha : a < 16) (hb : b < 16) (hc : c < 16) (hd : d < 16) :
    hexQuad? (hexDigit a) (hexDigit b) (hexDigit c) (hexDigit d) =
      some (((a * 16 + b) * 16 + c) * 16 + d) := by
  have hdigit : ∀ n < 16, Text.hexValue? (hexDigit n) = some n := by decide
  rw [hexQuad?, hdigit a ha, hdigit b hb, hdigit c hc, hdigit d hd]
  rfl

/-- An escaped code unit is read as itself, if the text goes on. -/
theorem readUnits_escapeUnit (start : List Char) {n : Nat} (hn : n < 0x10000) {rest : List Char}
    (hrest : rest ≠ []) :
    readUnits start (escapeUnit n ++ rest) =
      (readUnits start rest).map fun (ns, r) => (n :: ns, r) := by
  rcases rest with _ | ⟨e, rest⟩
  · exact absurd rfl hrest
  · have hquad := hexQuad?_hexDigit (a := n / 4096 % 16) (b := n / 256 % 16) (c := n / 16 % 16)
      (d := n % 16) (by omega) (by omega) (by omega) (by omega)
    have hvalue : ((n / 4096 % 16 * 16 + n / 256 % 16) * 16 + n / 16 % 16) * 16 + n % 16 = n := by
      omega
    rw [hvalue] at hquad
    simp only [escapeUnit, List.cons_append, List.nil_append]
    rw [readUnits, hquad]

/-- Escaped units are read back, however many there are. -/
theorem readUnits_flatMap_escapeUnit (start : List Char) {ns : List Nat}
    (hns : ∀ n ∈ ns, n < 0x10000) {rest : List Char} (hrest : rest ≠ []) :
    readUnits start (ns.flatMap escapeUnit ++ rest) =
      (readUnits start rest).map fun (ms, r) => (ns ++ ms, r) := by
  induction ns with
  | nil =>
    simp only [List.flatMap_nil, List.nil_append]
    rcases readUnits start rest with f | ⟨ms, r⟩ <;> rfl
  | cons n ns ih =>
    obtain ⟨hn, hns⟩ := List.forall_mem_cons.1 hns
    rw [List.flatMap_cons, List.append_assoc, readUnits_escapeUnit start hn (by simp [hrest]), ih hns]
    rcases readUnits start rest with f | ⟨ms, r⟩ <;> rfl

/-- A letter after a backslash is read as the character that it stands for. -/
theorem readUnits_letter (start : List Char) {e c : Char} (he : escaped? e = some c)
    (rest : List Char) :
    readUnits start ('\\' :: e :: rest) =
      (readUnits start rest).map fun (ns, r) => (c.toNat :: ns, r) := by
  have hu : e ≠ 'u' := by
    rintro rfl
    cases he
  rw [readUnits]
  · rw [he]
  all_goals
    intros
    contradiction

/-- The code units that a character is written as. -/
def unitsOf (ascii : Bool) (c : Char) : List Nat :=
  if ascii && 0x10000 ≤ c.toNat then
    [0xd800 + (c.toNat - 0x10000) / 0x400, 0xdc00 + (c.toNat - 0x10000) % 0x400]
  else [c.toNat]

theorem unitsOf_of_lt (ascii : Bool) {c : Char} (h : c.toNat < 0x10000) :
    unitsOf ascii c = [c.toNat] := by
  rw [unitsOf, if_neg]
  simp only [Bool.and_eq_true, decide_eq_true_eq, not_and]
  omega

/-- The characters that are written as a letter after a backslash. -/
def lettered : List Char := ['"', '\\', '\n', '\r', '\t', '\x08', '\x0c']

theorem exists_escapeChar_of_mem (ascii : Bool) {c : Char} (h : c ∈ lettered) :
    ∃ e, escapeChar ascii c = ['\\', e] ∧ escaped? e = some c ∧ 0x20 ≤ e.toNat ∧
      c.toNat < 0x10000 := by
  simp only [lettered, List.mem_cons, List.not_mem_nil, or_false] at h
  rcases h with rfl | rfl | rfl | rfl | rfl | rfl | rfl <;>
    exact ⟨_, rfl, rfl, by decide, by decide⟩

/-- A unit that is escaped has four digits. -/
theorem lt_of_mem_unitsOf {ascii : Bool} {c : Char} {n : Nat} (h : n ∈ unitsOf ascii c)
    (hwhole : ascii = true ∨ c.toNat < 0x10000) : n < 0x10000 := by
  have hvalid : c.toNat < 0x110000 := by
    rcases c.valid with h | h
    · exact Nat.lt_trans h (by decide)
    · exact h.2
  rw [unitsOf] at h
  split at h
  · simp only [List.mem_cons, List.not_mem_nil, or_false] at h
    omega
  · rename_i hbig
    simp only [Bool.and_eq_true, decide_eq_true_eq, not_and] at hbig
    rw [List.mem_singleton.1 h]
    rcases hwhole with ha | hlt
    · have := hbig ha
      omega
    · exact hlt

/-- Any other character is written by its code units or stands as it is. -/
theorem escapeChar_of_notMem (ascii : Bool) {c : Char} (h : c ∉ lettered) :
    escapeChar ascii c =
      if c.toNat < 0x20 ∨ (ascii = true ∧ 0x7f ≤ c.toNat) then (unitsOf ascii c).flatMap escapeUnit
      else [c] := by
  simp only [lettered, List.mem_cons, List.not_mem_nil, or_false, not_or] at h
  obtain ⟨h₁, h₂, h₃, h₄, h₅, h₆, h₇⟩ := h
  rw [escapeChar, if_neg h₁, if_neg h₂, if_neg h₃, if_neg h₄, if_neg h₅, if_neg h₆, if_neg h₇]
  by_cases hcontrol : c.toNat < 0x20
  · have hescaped : c.toNat < 0x20 ∨ (ascii = true ∧ 0x7f ≤ c.toNat) := .inl hcontrol
    rw [if_pos hcontrol, if_pos hescaped, unitsOf_of_lt ascii (by omega), List.flatMap_singleton]
  · rw [if_neg hcontrol]
    by_cases hbeyond : ascii = true ∧ 0x7f ≤ c.toNat
    · have hescaped : c.toNat < 0x20 ∨ (ascii = true ∧ 0x7f ≤ c.toNat) := .inr hbeyond
      have htest : (ascii && decide (0x7f ≤ c.toNat)) = true := by simpa using hbeyond
      rw [if_pos htest, if_pos hescaped]
      split
      · rename_i hsmall
        rw [unitsOf_of_lt ascii hsmall, List.flatMap_singleton]
      · rename_i hlarge
        have hpair : (ascii && decide (0x10000 ≤ c.toNat)) = true := by
          simpa [hbeyond.1] using hlarge
        rw [unitsOf, if_pos hpair, List.flatMap_cons, List.flatMap_singleton]
    · have htest : ¬(ascii && decide (0x7f ≤ c.toNat)) = true := by simpa using hbeyond
      have hplain : ¬(c.toNat < 0x20 ∨ (ascii = true ∧ 0x7f ≤ c.toNat)) := by
        rintro (h | h)
        · exact hcontrol h
        · exact hbeyond h
      rw [if_neg htest, if_neg hplain]

/-- A written character is read as its code units. -/
theorem readUnits_escapeChar (ascii : Bool) (start : List Char) (c : Char) {rest : List Char}
    (hrest : rest ≠ []) :
    readUnits start (escapeChar ascii c ++ rest) =
      (readUnits start rest).map fun (ns, r) => (unitsOf ascii c ++ ns, r) := by
  by_cases hmem : c ∈ lettered
  · obtain ⟨e, hwritten, he, -, hsmall⟩ := exists_escapeChar_of_mem ascii hmem
    rw [hwritten, unitsOf_of_lt ascii hsmall]
    exact readUnits_letter start he rest
  · have hquote : c ≠ '"' := fun h => hmem (by simp [lettered, h])
    have hslash : c ≠ '\\' := fun h => hmem (by simp [lettered, h])
    rw [escapeChar_of_notMem ascii hmem]
    split
    · rename_i hescaped
      refine readUnits_flatMap_escapeUnit start (fun n hn => lt_of_mem_unitsOf hn ?_) hrest
      rcases hescaped with hcontrol | ⟨hascii, -⟩
      · exact .inr (by omega)
      · exact .inl hascii
    · rename_i hplain
      have hunits : unitsOf ascii c = [c.toNat] := by
        rw [unitsOf, if_neg]
        simp only [Bool.and_eq_true, decide_eq_true_eq]
        rintro ⟨hascii, hlarge⟩
        exact hplain (.inr ⟨hascii, by omega⟩)
      rw [hunits]
      exact readUnits_plain start hquote hslash (by omega) rest

/-- Code units of characters are read as those characters. -/
theorem joinUnits_unitsOf (ascii : Bool) (c : Char) (ns : List Nat) :
    joinUnits (unitsOf ascii c ++ ns) = c :: joinUnits ns := by
  have hvalid : c.toNat < 0xd800 ∨ 0xdfff < c.toNat ∧ c.toNat < 0x110000 := c.valid
  rw [unitsOf]
  split
  · rename_i hlarge
    simp only [Bool.and_eq_true, decide_eq_true_eq] at hlarge
    have hhigh : ((0xd800 ≤ 0xd800 + (c.toNat - 0x10000) / 0x400 &&
        0xd800 + (c.toNat - 0x10000) / 0x400 ≤ 0xdbff &&
        0xdc00 ≤ 0xdc00 + (c.toNat - 0x10000) % 0x400 &&
        0xdc00 + (c.toNat - 0x10000) % 0x400 ≤ 0xdfff : Bool)) = true := by
      simp only [Bool.and_eq_true, decide_eq_true_eq]
      omega
    have hvalue : 0x10000 + (0xd800 + (c.toNat - 0x10000) / 0x400 - 0xd800) * 0x400 +
        (0xdc00 + (c.toNat - 0x10000) % 0x400 - 0xdc00) = c.toNat := by
      omega
    rw [List.cons_append, List.singleton_append, joinUnits, if_pos hhigh, hvalue,
      Char.ofNat_toNat]
  · have hchar : (if 0xd800 ≤ c.toNat && c.toNat ≤ 0xdfff then 0xfffd else c.toNat) = c.toNat := by
      rw [if_neg]
      simp only [Bool.and_eq_true, decide_eq_true_eq]
      omega
    rcases ns with _ | ⟨n, ns⟩
    · simp only [List.append_nil, joinUnits, hchar, Char.ofNat_toNat]
    · rw [List.singleton_append, joinUnits, if_neg, hchar, Char.ofNat_toNat]
      simp only [Bool.and_eq_true, decide_eq_true_eq]
      omega

theorem joinUnits_flatMap (ascii : Bool) (cs : List Char) :
    joinUnits (cs.flatMap (unitsOf ascii)) = cs := by
  induction cs with
  | nil => rfl
  | cons c cs ih => rw [List.flatMap_cons, joinUnits_unitsOf, ih]

/-- The characters of a text are read up to its closing quote. -/
theorem readUnits_flatMap_escapeChar (ascii : Bool) (start cs rest : List Char) :
    readUnits start (cs.flatMap (escapeChar ascii) ++ '"' :: rest) =
      .ok (cs.flatMap (unitsOf ascii), rest) := by
  induction cs with
  | nil => rw [List.flatMap_nil, List.flatMap_nil, List.nil_append, readUnits]
  | cons c cs ih =>
    rw [List.flatMap_cons, List.append_assoc, readUnits_escapeChar ascii start c (by simp), ih]
    rfl

/-- **A text is read as it was written.** -/
theorem readText_quoted (ascii : Bool) (s : String) (rest : List Char) :
    readText (s.toList.flatMap (escapeChar ascii) ++ '"' :: rest) = .ok (s, rest) := by
  rw [readText, readUnits_flatMap_escapeChar, Except.map]
  dsimp only
  rw [joinUnits_flatMap, String.ofList_toList]

/-! ## White space -/

/-- Nothing but white space. -/
def Blank (cs : List Char) : Prop := ∀ c ∈ cs, isSpace c = true

/-- The characters that a number can start with. -/
def numeralOpeners : List Char :=
  ['N', 'I', '-', '0', '1', '2', '3', '4', '5', '6', '7', '8', '9']

/-- The characters that a value can start with. -/
def openers : List Char := ['n', 't', 'f', '"', '[', '{'] ++ numeralOpeners

/-- The text starts like a value. -/
def Opens (cs : List Char) : Prop := ∃ c rest, cs = c :: rest ∧ c ∈ openers

theorem Opens.append {cs : List Char} (h : Opens cs) (rest : List Char) : Opens (cs ++ rest) := by
  obtain ⟨c, cs, rfl, hc⟩ := h
  exact ⟨c, cs ++ rest, rfl, hc⟩

theorem skipSpace_append {cs : List Char} (h : Blank cs) (rest : List Char) :
    skipSpace (cs ++ rest) = skipSpace rest :=
  List.dropWhile_append_of_pos h

theorem skipSpace_cons {c : Char} (h : isSpace c = false) (cs : List Char) :
    skipSpace (c :: cs) = c :: cs := by
  rw [skipSpace, List.dropWhile_cons, h, if_neg Bool.false_ne_true]

theorem skipSpace_of_opens {cs : List Char} (h : Opens cs) : skipSpace cs = cs := by
  obtain ⟨c, cs, rfl, hc⟩ := h
  have hspace : ∀ c ∈ openers, isSpace c = false := by decide
  exact skipSpace_cons (hspace c hc) cs

/-- A layout with nothing but white space beside a comma or a colon, and with a text for every
number. -/
structure Layout.IsBlank (l : Layout) : Prop where
  indent : ∀ unit ∈ l.indent, Blank unit
  itemSeparator : ∃ sep, Blank sep ∧ l.itemSeparator = ',' :: sep
  keySeparator : ∃ sep, Blank sep ∧ l.keySeparator = ':' :: sep
  float : l.float = .document

/-- The indentation is blank if its unit is. -/
theorem isBlank_indented {unit : List Char} (h : Blank unit) (ascii : Bool) :
    (Layout.indented unit ascii).IsBlank where
  indent := by
    rintro _ ⟨⟩
    exact h
  itemSeparator := ⟨[], fun _ hc => absurd hc List.not_mem_nil, rfl⟩
  keySeparator := ⟨[' '], List.forall_mem_singleton.2 rfl, rfl⟩
  float := rfl

/-- Between brackets stand the items with commas between them, and white space. -/
theorem exists_enclose {l : Layout} (hl : l.IsBlank) (depth : Nat) (opener closer : Char)
    {items : List (List Char)} (h : items ≠ []) :
    ∃ before sep after, Blank before ∧ Blank sep ∧ Blank after ∧
      enclose l depth opener closer items =
        opener :: (before ++ (Text.joinWith (',' :: sep) items ++ (after ++ [closer]))) := by
  obtain ⟨sep, hsep, hcomma⟩ := hl.itemSeparator
  have hitems : ¬items.isEmpty = true := by simpa using h
  rw [enclose, if_neg hitems, hcomma]
  split
  · exact ⟨[], sep, [], fun _ hc => absurd hc List.not_mem_nil, hsep,
      fun _ hc => absurd hc List.not_mem_nil, by simp⟩
  · rename_i unit hunit
    have hmargin (n : Nat) : Blank ('\n' :: (List.replicate n unit).flatten) := by
      rintro c hc
      rcases List.mem_cons.1 hc with rfl | hc
      · rfl
      · obtain ⟨u, hu, hc⟩ := List.mem_flatten.1 hc
        exact hl.indent unit hunit c (List.eq_of_mem_replicate hu ▸ hc)
    refine ⟨_, sep ++ ('\n' :: (List.replicate (depth + 1) unit).flatten), _, hmargin (depth + 1),
      List.forall_mem_append.2 ⟨hsep, hmargin (depth + 1)⟩, hmargin depth, ?_⟩
    simp only [List.cons_append, List.append_assoc]

/-! ## Lists and records -/

/-- Where a number ends is told by what follows it; the other values end by themselves. -/
def IsOpenEnded : Value → Prop
  | .int _ | .real _ => True
  | _ => False

/-- The reader takes the text for the value, whatever follows it that does not continue a number. -/
structure ReadsBack (levels : Nat) (text : List Char) (v : Value) : Prop where
  opens : Opens text
  reads : ∀ n rest, 2 * text.length ≤ n → (IsOpenEnded v → Ends rest) →
    readValue levels n (text ++ rest) = .ok (v, rest)

/-- Steps are left for a text that is not empty. -/
theorem ReadsBack.of_succ {levels : Nat} {text : List Char} {v : Value} (hopens : Opens text)
    (h : ∀ n rest, 2 * text.length ≤ n + 1 → (IsOpenEnded v → Ends rest) →
      readValue levels (n + 1) (text ++ rest) = .ok (v, rest)) : ReadsBack levels text v := by
  refine ⟨hopens, fun n rest hn hrest => ?_⟩
  rcases n with _ | n
  · obtain ⟨c, cs, rfl, -⟩ := hopens
    cases hn
  · exact h n rest hn hrest

theorem ends_cons {c : Char} (h : c ∈ enders) (rest : List Char) : Ends (c :: rest) := by
  rintro _ ⟨⟩
  exact h

theorem mem_enders_of_isSpace {c : Char} (h : isSpace c = true) : c ∈ enders := by
  simp only [isSpace, Bool.or_eq_true, beq_iff_eq] at h
  simp only [enders, List.mem_cons, List.not_mem_nil, or_false]
  tauto

theorem ends_blank_append {blank rest : List Char} (h : Blank blank) (hrest : Ends rest) :
    Ends (blank ++ rest) := by
  rcases blank with _ | ⟨c, blank⟩
  · exact hrest
  · exact ends_cons (mem_enders_of_isSpace (h c List.mem_cons_self)) _

theorem skipSpace_blank_cons {blank : List Char} (h : Blank blank) {c : Char}
    (hc : isSpace c = false) (rest : List Char) : skipSpace (blank ++ c :: rest) = c :: rest := by
  rw [skipSpace_append h, skipSpace_cons hc]

theorem opens_joinWith {t : List Char} (h : Opens t) (sep : List Char) (ts : List (List Char)) :
    Opens (Text.joinWith sep (t :: ts)) := by
  rcases ts with _ | ⟨t', ts⟩
  · exact h
  · rw [Text.joinWith, List.append_assoc]
    exact h.append _

/-- A reader of parts with commas between them, up to `close`: what it makes of the text of a part,
at the end and before a comma. -/
structure ReadsParts {α : Type} (read : Nat → List Char → Read (List α)) (close : Char)
    (IsText : List Char → α → Prop) : Prop where
  opens {text : List Char} {x : α} : IsText text x → Opens text
  last {text : List Char} {x : α} {n : Nat} {after : List Char} : IsText text x →
    2 * text.length ≤ n → Blank after → ∀ rest,
      read (n + 1) (text ++ (after ++ close :: rest)) = .ok ([x], rest)
  more {text : List Char} {x : α} {n : Nat} : IsText text x → 2 * text.length ≤ n → ∀ rest,
    read (n + 1) (text ++ ',' :: rest) =
      (read n (skipSpace rest)).map fun (xs, r) => (x :: xs, r)

/-- All parts are read, up to what closes them. -/
theorem ReadsParts.joinWith {α : Type} {read : Nat → List Char → Read (List α)} {close : Char}
    {IsText : List Char → α → Prop} (hread : ReadsParts read close IsText) {sep after : List Char}
    (hsep : Blank sep) (hafter : Blank after) {texts : List (List Char)} {xs : List α}
    (h : List.Forall₂ IsText texts xs) (hne : texts ≠ []) {n : Nat}
    (hn : 2 * (Text.joinWith (',' :: sep) texts).length + 1 ≤ n) (rest : List Char) :
    read n (Text.joinWith (',' :: sep) texts ++ (after ++ close :: rest)) = .ok (xs, rest) := by
  induction h generalizing n with
  | nil => exact absurd rfl hne
  | @cons t x ts xs ht hts ih =>
    rcases n with _ | n
    · omega
    · cases hts with
      | nil =>
        rw [Text.joinWith] at hn ⊢
        exact hread.last ht (by omega) hafter rest
      | @cons t' x' ts xs ht' hts =>
        rw [Text.joinWith, List.length_append, List.length_append, List.length_cons] at hn
        rw [Text.joinWith, List.append_assoc, List.append_assoc, List.cons_append,
          hread.more ht (by omega), skipSpace_append hsep,
          skipSpace_of_opens ((opens_joinWith (hread.opens ht') _ ts).append _),
          ih (List.cons_ne_nil _ _) (by omega)]
        rfl

/-- Items between commas, up to the closing bracket. -/
theorem readsParts_items (levels : Nat) :
    ReadsParts (readItems levels) ']' (ReadsBack levels) where
  opens h := h.opens
  last h hn hafter rest := by
    rw [readItems, h.reads _ _ hn fun _ => ends_blank_append hafter (ends_cons (by decide) rest)]
    dsimp only
    rw [skipSpace_blank_cons hafter (by decide)]
    rfl
  more h hn rest := by
    rw [readItems, h.reads _ _ hn fun _ => ends_cons (by decide) rest]
    dsimp only
    rw [skipSpace_cons (by decide)]
    rfl

/-- The text of a member is its key, a colon and its value. -/
def MemberReadsBack (levels : Nat) (text : List Char) (e : String × Value) : Prop :=
  ∃ ascii blank value, Blank blank ∧ ReadsBack levels value e.2 ∧
    text = quote ascii e.1 ++ (':' :: blank ++ value)

theorem MemberReadsBack.opens {levels : Nat} {text : List Char} {e : String × Value}
    (h : MemberReadsBack levels text e) : Opens text := by
  obtain ⟨ascii, blank, value, -, -, rfl⟩ := h
  exact Opens.append ⟨'"', _, rfl, by decide⟩ _

/-- The first member of a record is read up to what follows its value. -/
theorem readMembers_append {levels : Nat} {text : List Char} {e : String × Value}
    (h : MemberReadsBack levels text e) {n : Nat} (hn : 2 * text.length ≤ n) {rest : List Char}
    (hrest : Ends rest) :
    readMembers levels (n + 1) (text ++ rest) =
      match skipSpace rest with
      | '}' :: r => .ok ([e], r)
      | ',' :: r => (readMembers levels n (skipSpace r)).map fun (ms, r) => (e :: ms, r)
      | r => .error ⟨.comma, r⟩ := by
  obtain ⟨ascii, blank, value, hblank, hvalue, rfl⟩ := h
  rw [List.length_append, List.length_append] at hn
  rw [quote, List.append_assoc, List.cons_append, List.cons_append, List.append_assoc,
    List.singleton_append, readMembers, readText_quoted]
  dsimp only
  rw [List.append_assoc, List.cons_append, skipSpace_cons (by decide)]
  simp only
  rewrite [skipSpace_append hblank, skipSpace_of_opens (hvalue.opens.append _),
    hvalue.reads n _ (by omega) fun _ => hrest]
  rfl

/-- Members between commas, up to the closing brace. -/
theorem readsParts_members (levels : Nat) :
    ReadsParts (readMembers levels) '}' (MemberReadsBack levels) where
  opens h := h.opens
  last h hn hafter rest := by
    have hends := ends_blank_append hafter (ends_cons (c := '}') (by decide) rest)
    rw [readMembers_append h hn hends, skipSpace_blank_cons hafter (by decide)]
    rfl
  more h hn rest := by
    rw [readMembers_append h hn (ends_cons (by decide) rest), skipSpace_cons (by decide)]
    rfl

/-! ## Numbers -/

/-- A digit can begin a numeral. -/
theorem mem_numeralOpeners_of_isPlainDigit {c : Char} (h : Text.isPlainDigit c = true) :
    c ∈ numeralOpeners := by
  rw [Text.isPlainDigit, Bool.and_eq_true, decide_eq_true_eq, decide_eq_true_eq, Char.le_def,
    Char.le_def, UInt32.le_iff_toNat_le, UInt32.le_iff_toNat_le] at h
  have hall : ∀ n, '0'.val.toNat ≤ n → n ≤ '9'.val.toNat → Char.ofNat n ∈ numeralOpeners := by
    intro n h₀ h₉
    have h₀ : 48 ≤ n := h₀
    have h₉ : n ≤ 57 := h₉
    interval_cases n <;> decide
  exact Char.ofNat_toNat c ▸ hall c.toNat h.1 h.2

/-- So does every decimal begin. -/
theorem exists_cons_of_isDecimal {cs : List Char} (h : Number.IsDecimal cs) :
    ∃ c rest, cs = c :: rest ∧ c ∈ numeralOpeners := by
  obtain ⟨sign, whole, places, exponent, rfl, hsign, ⟨⟨hne, hdigits⟩, -⟩, -, -⟩ := h
  rw [List.mem_cons, List.mem_singleton] at hsign
  obtain rfl | rfl := hsign
  · obtain ⟨c, cs, rfl⟩ := List.exists_cons_of_ne_nil hne
    exact ⟨c, _, rfl, mem_numeralOpeners_of_isPlainDigit (hdigits c List.mem_cons_self)⟩
  · exact ⟨'-', _, rfl, by decide⟩

/-- So does every number that is not whole, whichever form it is written in. -/
theorem exists_cons_spell (x : Number.Binary64) :
    ∃ c rest, (x.spell .document).toList = c :: rest ∧ c ∈ numeralOpeners := by
  rcases x with _ | s | ⟨s, m, q⟩
  · exact ⟨'N', _, rfl, by decide⟩
  · cases s
    · exact ⟨'I', _, rfl, by decide⟩
    · exact ⟨'-', _, rfl, by decide⟩
  · exact exists_cons_of_isDecimal (Number.isDecimal_spell .document s m q)

/-- The characters that tell a text, a list or a record from other values. -/
def markers : List Char := ['"', '[', '{']

/-- A text that starts like no text, list or record is read as a word or a number. -/
theorem readValue_scalar (levels n : Nat) {cs : List Char} (h : ∀ c ∈ cs.head?, c ∉ markers) :
    readValue levels (n + 1) cs = readScalar cs := by
  rw [readValue]
  all_goals
    rintro r rfl
    exact h _ rfl (by decide)

/-- A text that is read as a word or a number is read as a value. -/
theorem readsBack_scalar (levels : Nat) {text : List Char} {v : Value}
    (hopens : ∃ c rest, text = c :: rest ∧ c ∈ numeralOpeners) (hopen : IsOpenEnded v)
    (h : ∀ rest, Ends rest → readScalar (text ++ rest) = .ok (v, rest)) :
    ReadsBack levels text v := by
  obtain ⟨c, cs, rfl, hc⟩ := hopens
  have hmarkers : ∀ c ∈ numeralOpeners, c ∉ markers := by decide
  refine .of_succ ⟨c, cs, rfl, List.mem_append_right _ hc⟩ fun n rest _ hrest => ?_
  rw [readValue_scalar]
  · exact h rest (hrest hopen)
  · rintro _ ⟨⟩
    exact hmarkers c hc

/-! ## Values -/

/-- A document whose records have distinct keys and whose numbers are not too long, inside at most so
many lists and records. -/
inductive Legible : Nat → Value → Prop
  | null (levels : Nat) : Legible levels .null
  | bool (levels : Nat) (b : Bool) : Legible levels (.bool b)
  | int (levels : Nat) {n : Int}
    (h : (Nat.toDigits 10 n.natAbs).length ≤ Number.Numeral.digitLimit) : Legible levels (.int n)
  | real (levels : Nat) {x : Number.Binary64} (h : x.IsProper) : Legible levels (.real x)
  | text (levels : Nat) (s : String) : Legible levels (.text s)
  | list {levels : Nat} {xs : List Value} (h : ∀ x ∈ xs, Legible levels x) :
    Legible (levels + 1) (.list xs)
  | record {levels : Nat} {ms : Members} (hkeys : (ms.map (·.1)).Nodup)
    (h : ∀ e ∈ ms, Legible levels e.2) : Legible (levels + 1) (.record ms)

theorem put_of_notMem {key : String} (v : Value) {ms : Members} (h : key ∉ ms.map (·.1)) :
    Members.put key v ms = ms ++ [(key, v)] := by
  induction ms with
  | nil => rfl
  | cons e ms ih =>
    rw [List.map_cons, List.mem_cons, not_or] at h
    rw [Members.put, if_neg (Ne.symm h.1), ih h.2, List.cons_append]

/-- Members with distinct keys are put one behind the other. -/
theorem foldl_put {done ms : Members} (h : ((done ++ ms).map (·.1)).Nodup) :
    ms.foldl (fun ms (k, v) => Members.put k v ms) done = done ++ ms := by
  induction ms generalizing done with
  | nil => exact (List.append_nil done).symm
  | cons e ms ih =>
    obtain ⟨k, v⟩ := e
    have hnew : k ∉ done.map (·.1) := by
      rw [List.map_append, List.map_cons] at h
      exact fun hmem => (List.nodup_middle.1 h).notMem (List.mem_append_left _ hmem)
    rw [List.append_cons] at h
    rw [List.foldl_cons]
    dsimp only
    rw [put_of_notMem v hnew, ih h, List.append_assoc, List.singleton_append]

/-- Members with distinct keys stay as they are. -/
theorem ofPairs_of_nodup {ms : Members} (h : (ms.map (·.1)).Nodup) : Members.ofPairs ms = ms := by
  rw [← List.nil_append ms] at h
  exact foldl_put h

theorem writeItems_eq_map (l : Layout) (depth : Nat) (xs : List Value) :
    writeItems l depth xs = xs.map (write l depth) := by
  induction xs with
  | nil => rfl
  | cons x xs ih => rw [writeItems, ih, List.map_cons]

theorem writeMembers_eq_map (l : Layout) (depth : Nat) (ms : Members) :
    writeMembers l depth ms =
      ms.map fun e => quote l.ascii e.1 ++ l.keySeparator ++ write l depth e.2 := by
  induction ms with
  | nil => rfl
  | cons e ms ih => rw [writeMembers, ih, List.map_cons]

theorem opens_ne {cs : List Char} (h : Opens cs) {c : Char} (hc : c ∉ openers) (rest : List Char) :
    cs ≠ c :: rest := by
  obtain ⟨c', cs, rfl, hc'⟩ := h
  rintro ⟨⟩
  exact hc hc'

/-- Parts in brackets are read as what the reader makes of their values. -/
theorem readsBack_enclose {l : Layout} (hl : l.IsBlank) {levels : Nat} (depth : Nat) {α : Type}
    {read : Nat → List Char → Read (List α)} {opener close : Char} {IsText : List Char → α → Prop}
    (hread : ReadsParts read close IsText) (hopener : opener ∈ openers) {w : List α → Value}
    (hempty : ∀ n rest, readValue levels (n + 1) (opener :: close :: rest) = .ok (w [], rest))
    (hfilled : ∀ n {before cs}, Blank before → Opens cs →
      readValue levels (n + 1) (opener :: (before ++ cs)) =
        (read n cs).map fun (xs, r) => (w xs, r))
    {texts : List (List Char)} {xs : List α} (h : List.Forall₂ IsText texts xs) :
    ReadsBack levels (enclose l depth opener close texts) (w xs) := by
  rcases h with _ | ⟨ht, hts⟩
  · exact .of_succ ⟨opener, _, rfl, hopener⟩ fun n rest _ _ => hempty n rest
  · rename_i t x ts xs
    obtain ⟨before, sep, after, hbefore, hsep, hafter, hwritten⟩ :=
      exists_enclose hl depth opener close (List.cons_ne_nil t ts)
    rw [hwritten]
    refine .of_succ ⟨opener, _, rfl, hopener⟩ fun n rest hn _ => ?_
    simp only [List.length_cons, List.length_append] at hn
    have hall := hread.joinWith hsep hafter (.cons ht hts) (List.cons_ne_nil t ts) (n := n)
      (by omega) rest
    have hopens := (opens_joinWith (hread.opens ht) (',' :: sep) ts).append (after ++ close :: rest)
    simp only [List.cons_append, List.append_assoc, List.nil_append]
    rw [hfilled n hbefore hopens, hall]
    rfl

/-- A list is read back from its items. -/
theorem readsBack_list {l : Layout} (hl : l.IsBlank) {levels : Nat} (depth : Nat)
    {texts : List (List Char)} {xs : List Value} (h : List.Forall₂ (ReadsBack levels) texts xs) :
    ReadsBack (levels + 1) (enclose l depth '[' ']' texts) (.list xs) := by
  refine readsBack_enclose hl depth (readsParts_items levels) (by decide) (fun _ _ => rfl)
    (fun n before cs hbefore hopens => ?_) h
  rw [readValue]
  dsimp only
  rw [skipSpace_append hbefore, skipSpace_of_opens hopens]
  split
  · exact absurd rfl (opens_ne hopens (by decide) _)
  · rfl

/-- A record is read back from its members if their keys are distinct. -/
theorem readsBack_record {l : Layout} (hl : l.IsBlank) {levels : Nat} (depth : Nat)
    {texts : List (List Char)} {ms : Members} (hkeys : (ms.map (·.1)).Nodup)
    (h : List.Forall₂ (MemberReadsBack levels) texts ms) :
    ReadsBack (levels + 1) (enclose l depth '{' '}' texts) (.record ms) := by
  rw [← ofPairs_of_nodup hkeys]
  refine readsBack_enclose hl depth (readsParts_members levels) (by decide)
    (w := fun ms => .record (Members.ofPairs ms)) (fun _ _ => rfl)
    (fun n before cs hbefore hopens => ?_) h
  rw [readValue]
  dsimp only
  rw [skipSpace_append hbefore, skipSpace_of_opens hopens]
  split
  · exact absurd rfl (opens_ne hopens (by decide) _)
  · rfl

/-- **What is written for a value is read as that value**, whatever follows it. -/
theorem readsBack_write {l : Layout} (hl : l.IsBlank) {levels : Nat} {v : Value}
    (h : Legible levels v) (depth : Nat) : ReadsBack levels (write l depth v) v := by
  induction h generalizing depth with
  | null levels => exact .of_succ ⟨'n', _, rfl, by decide⟩ fun n rest _ _ => rfl
  | bool levels b =>
    rcases b with _ | _
    · exact .of_succ ⟨'f', _, rfl, by decide⟩ fun n rest _ _ => rfl
    · exact .of_succ ⟨'t', _, rfl, by decide⟩ fun n rest _ _ => rfl
  | int levels h =>
    exact readsBack_scalar levels (exists_cons_of_isDecimal (Number.isDecimal_toString_int _))
      trivial fun _ hrest => readScalar_int h hrest
  | real levels h =>
    rw [write, hl.float]
    exact readsBack_scalar levels (exists_cons_spell _) trivial fun _ hrest =>
      readScalar_real h hrest
  | text levels s =>
    refine .of_succ ⟨'"', _, rfl, by decide⟩ fun n rest _ _ => ?_
    rw [write, quote, List.append_assoc, List.cons_append, List.singleton_append, readValue,
      readText_quoted]
    rfl
  | list h ih =>
    rw [write, writeItems_eq_map]
    refine readsBack_list hl depth (List.forall₂_map_left_iff.2 ?_)
    exact List.forall₂_same.2 fun x hx => ih x hx (depth + 1)
  | record hkeys h ih =>
    obtain ⟨sep, hsep, hcolon⟩ := hl.keySeparator
    rw [write, writeMembers_eq_map, hcolon]
    refine readsBack_record hl depth hkeys (List.forall₂_map_left_iff.2 ?_)
    refine List.forall₂_same.2 fun e he => ⟨l.ascii, sep, _, hsep, ih e he (depth + 1), ?_⟩
    rw [List.append_assoc]

/-- **A document is read as it was written**, with white space after it. -/
theorem read_write {l : Layout} (hl : l.IsBlank) {v : Value} (h : Legible depthLimit v)
    {after : List Char} (hafter : Blank after) : read (write l 0 v ++ after) = .ok v := by
  obtain ⟨hopens, hreads⟩ := readsBack_write hl h 0
  have hmark : ∀ rest, write l 0 v ++ after ≠ '\ufeff' :: rest :=
    opens_ne (hopens.append after) (by decide)
  have hends : Ends after := List.append_nil after ▸ ends_blank_append hafter (fun _ hc => nomatch hc)
  have hbound : 2 * (write l 0 v).length ≤ 2 * (write l 0 v ++ after).length + 2 := by
    rw [List.length_append]
    omega
  rw [read]
  · rw [skipSpace_of_opens (hopens.append after), hreads _ _ hbound fun _ => hends]
    have hend : skipSpace after = [] := by
      rw [← List.append_nil after, skipSpace_append hafter]
      rfl
    dsimp only [bind, Except.bind]
    rw [hend]
    rfl
  · exact hmark

theorem read_indented {unit : List Char} (hunit : Blank unit) (ascii : Bool) {v : Value}
    (h : Legible depthLimit v) : read (write (.indented unit ascii) 0 v ++ ['\n']) = .ok v :=
  read_write (isBlank_indented hunit ascii) h (List.forall_mem_singleton.2 rfl)

/-! ## Control characters -/

section Control

variable {x : Char} (hx : x.toNat < 0x20)

include hx

/-- An escape holds no control character. -/
theorem control_notMem_escapeUnit (n : Nat) : x ∉ escapeUnit n := by
  have hdigit : ∀ k < 16, 0x20 ≤ (hexDigit k).toNat := by decide
  have hnot {c : Char} (hc : 0x20 ≤ c.toNat) : ¬x = c := by
    rintro rfl
    omega
  simp only [escapeUnit, List.mem_cons, List.not_mem_nil, or_false, not_or]
  exact ⟨hnot (by decide), hnot (by decide), hnot (hdigit _ (by omega)),
    hnot (hdigit _ (by omega)), hnot (hdigit _ (by omega)), hnot (hdigit _ (by omega))⟩

/-- However a character is escaped, no control character is left. -/
theorem control_notMem_escapeChar (ascii : Bool) (c : Char) : x ∉ escapeChar ascii c := by
  by_cases hmem : c ∈ lettered
  · obtain ⟨e, hwritten, -, he, -⟩ := exists_escapeChar_of_mem ascii hmem
    rw [hwritten, List.mem_cons, List.mem_singleton]
    rintro (rfl | rfl)
    · exact absurd hx (by decide)
    · omega
  · rw [escapeChar_of_notMem ascii hmem]
    split
    · rw [List.mem_flatMap]
      rintro ⟨n, -, hn⟩
      exact control_notMem_escapeUnit hx n hn
    · rename_i hplain
      rw [List.mem_singleton]
      rintro rfl
      exact hplain (.inl hx)

/-- **A quoted text has no control characters.** -/
theorem control_notMem_quote (ascii : Bool) (s : String) : x ∉ quote ascii s := by
  rw [quote, List.mem_append, List.mem_cons, List.mem_flatMap, List.mem_singleton]
  rintro ((rfl | ⟨c, -, hc⟩) | rfl)
  · exact absurd hx (by decide)
  · exact control_notMem_escapeChar hx ascii c hc
  · exact absurd hx (by decide)

end Control

end Scaffold.Document.Json

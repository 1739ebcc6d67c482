import Scaffold.Document.Json.Printer
import Scaffold.Document.Literal
import Scaffold.Proofs.Document.RoundTrip
import Scaffold.Proofs.Text.Lines
import Scaffold.Text.Lettercase

/-!
# Proofs/Text/OneLine — what stays on one line, and how lines are put together

Numbers, documents without line breaks and quoted texts have no line feed, whatever they were made
from; a text in upper case has one only if it had one before.

What an emitter writes is put together from known texts and from others of which only a kind is known.
Its layout is found by instances, one for each way of putting texts and lines together, so whatever a
layout is enough for is a computation.
-/

namespace Scaffold.Text

/-! ## Texts put together -/

/-- Single lines that are joined in a line are one. -/
theorem oneLine_intercalate {sep : String} {ls : List String} (hsep : OneLine sep)
    (h : ∀ l ∈ ls, OneLine l) : OneLine (sep.intercalate ls) := by
  rw [OneLine, toList_intercalate]
  refine notMem_joinWith hsep fun p hp => ?_
  obtain ⟨l, hl, rfl⟩ := List.mem_map.mp hp
  exact h l hl

theorem oneLine_join {ls : List String} (h : ∀ l ∈ ls, OneLine l) : OneLine (String.join ls) := by
  rw [OneLine, String.toList_join, List.mem_flatMap]
  rintro ⟨l, hl, hmem⟩
  exact h l hl hmem

/-! ## Texts put together from known ones -/

/-- How a text is put together: from known characters, from texts of a kind, and from parts of which
there are two to choose from. -/
inductive Wording (κ : Type) where
  | nil
  | known (cs : List Char) (rest : Wording κ)
  | other (k : κ) (rest : Wording κ)
  | either (x y rest : Wording κ)

/-- How lines are put together: one by one, from blocks of which there are two to choose from, and
from blocks of which nothing more is said. -/
inductive Layout (κ : Type) where
  | nil
  | line (x : Wording κ) (rest : Layout κ)
  | append (front back : Layout κ)
  | either (x y : Layout κ)
  | block

/-- What the texts of each kind are like, and the blocks of which nothing more is said. -/
structure Filling (κ : Type) where
  text : κ → String → Prop
  block : List String → Prop

section Layout

variable {κ : Type}

def Wording.append : Wording κ → Wording κ → Wording κ
  | nil, z => z
  | known cs x, z => known cs (x.append z)
  | other k x, z => other k (x.append z)
  | either x y rest, z => either x y (rest.append z)

variable {F : Filling κ} {s t : String} {cs ds : List Char} {ls ms : List String}

/-- The characters are put together so. -/
inductive Spells (F : Filling κ) : Wording κ → List Char → Prop where
  | nil : Spells F .nil []
  | known (cs : List Char) {x : Wording κ} {ds : List Char} (h : Spells F x ds) :
    Spells F (.known cs x) (cs ++ ds)
  | other {k : κ} {s : String} {x : Wording κ} {ds : List Char} (hs : F.text k s)
    (h : Spells F x ds) : Spells F (.other k x) (s.toList ++ ds)
  | left {x rest : Wording κ} {cs ds : List Char} (hx : Spells F x cs) (y : Wording κ)
    (h : Spells F rest ds) : Spells F (.either x y rest) (cs ++ ds)
  | right {y rest : Wording κ} {cs ds : List Char} (x : Wording κ) (hy : Spells F y cs)
    (h : Spells F rest ds) : Spells F (.either x y rest) (cs ++ ds)

/-- The lines are put together so. -/
inductive Lays (F : Filling κ) : Layout κ → List String → Prop where
  | nil : Lays F .nil []
  | line {x : Wording κ} {l : String} {y : Layout κ} {ls : List String}
    (hl : Spells F x l.toList) (h : Lays F y ls) : Lays F (.line x y) (l :: ls)
  | append {x y : Layout κ} {ls ms : List String} (hx : Lays F x ls) (hy : Lays F y ms) :
    Lays F (.append x y) (ls ++ ms)
  | left {x : Layout κ} {ls : List String} (h : Lays F x ls) (y : Layout κ) :
    Lays F (.either x y) ls
  | right {y : Layout κ} {ls : List String} (x : Layout κ) (h : Lays F y ls) :
    Lays F (.either x y) ls
  | block {ls : List String} (h : F.block ls) : Lays F .block ls

/-- Two wordings are spelled one after the other. -/
theorem Spells.append {x y : Wording κ} (hx : Spells F x cs) (hy : Spells F y ds) :
    Spells F (x.append y) (cs ++ ds) := by
  induction hx with
  | nil => exact hy
  | known cs _ ih =>
    rw [List.append_assoc]
    exact .known cs ih
  | other hs _ ih =>
    rw [List.append_assoc]
    exact .other hs ih
  | left hx y _ _ ih =>
    rw [List.append_assoc]
    exact .left hx y ih
  | right x hy _ _ ih =>
    rw [List.append_assoc]
    exact .right x hy ih

/-! ### Their instances -/

/-- The text is of the kind. -/
class Fills (F : Filling κ) (s : String) (k : outParam κ) : Prop where
  text : F.text k s

/-- Nothing more is said of the block. -/
class FillsBlock (F : Filling κ) (ls : List String) : Prop where
  block : F.block ls

/-- The text has the wording. -/
class Worded (F : Filling κ) (s : String) (x : outParam (Wording κ)) : Prop where
  spells : Spells F x s.toList

/-- The lines have the layout. -/
class LaidOut (F : Filling κ) (ls : List String) (x : outParam (Layout κ)) : Prop where
  lays : Lays F x ls

/-- The characters of a written text are found by comparing it with a text that is made of them. -/
class Verbatim (s : String) (t : outParam String) : Prop where
  eq : s = t

instance (s : String) : Verbatim s s := ⟨rfl⟩

instance (priority := low) [h : Verbatim s (String.ofList cs)] : Worded F s (.known cs .nil) where
  spells := by
    have hcs : Spells F (.known cs .nil) (cs ++ []) := .known cs .nil
    rw [List.append_nil] at hcs
    rwa [h.eq, String.toList_ofList]

instance {k : κ} [h : Fills F s k] : Worded F s (.other k .nil) where
  spells := by
    rw [← List.append_nil s.toList]
    exact .other h.text .nil

section Parts

variable {x y z : Wording κ}

instance [hs : Worded F s x] [ht : Worded F t y] : Worded F (s ++ t) (x.append y) where
  spells := by
    rw [String.toList_append]
    exact hs.spells.append ht.spells

instance {c : Prop} [Decidable c] [hs : Worded F s x] [ht : Worded F t y] :
    Worded F (if c then s else t) (.either x y .nil) where
  spells := by
    rw [← List.append_nil (String.toList _)]
    split
    · exact .left hs.spells y .nil
    · exact .right x ht.spells .nil

instance {sep : String} [hs : Worded F s x] : Worded F (sep.intercalate [s]) x where
  spells := by
    rw [toList_intercalate]
    exact hs.spells

instance {sep : String} {ts : List String} [hs : Worded F s x] [hsep : Worded F sep y]
    [ht : Worded F (sep.intercalate (t :: ts)) z] :
    Worded F (sep.intercalate (s :: t :: ts)) (x.append (y.append z)) where
  spells := by
    have hrest := ht.spells
    rw [toList_intercalate] at hrest ⊢
    rw [List.map_cons, List.map_cons, joinWith, List.append_assoc]
    exact hs.spells.append (hsep.spells.append hrest)

end Parts

section Blocks

variable {x y : Layout κ}

instance : LaidOut F [] .nil := ⟨.nil⟩

instance {l : String} {w : Wording κ} [hl : Worded F l w] [h : LaidOut F ls x] :
    LaidOut F (l :: ls) (.line w x) :=
  ⟨.line hl.spells h.lays⟩

instance [hx : LaidOut F ls x] [hy : LaidOut F ms y] : LaidOut F (ls ++ ms) (.append x y) :=
  ⟨.append hx.lays hy.lays⟩

instance {c : Prop} [Decidable c] [hx : LaidOut F ls x] [hy : LaidOut F ms y] :
    LaidOut F (if c then ls else ms) (.either x y) where
  lays := by
    split
    · exact .left hx.lays y
    · exact .right x hy.lays

instance [h : FillsBlock F ls] : LaidOut F ls .block := ⟨.block h.block⟩

end Blocks

/-! ### Line by line -/

/-- Every line passes the check on its wording. -/
def Layout.all (check : Wording κ → Bool) : Layout κ → Bool
  | nil => true
  | line w x => check w && x.all check
  | append x y => x.all check && y.all check
  | either x y => x.all check && y.all check
  | block => true

/-- What the check is enough for, all lines are like. -/
theorem LaidOut.forall_mem {P : String → Prop} {check : Wording κ → Bool}
    (hblock : ∀ ls, F.block ls → ∀ l ∈ ls, P l)
    (hcheck : ∀ w l, check w = true → Spells F w l.toList → P l) {x : Layout κ}
    (h : LaidOut F ls x) (hall : x.all check = true) : ∀ l ∈ ls, P l := by
  obtain ⟨h⟩ := h
  induction h with
  | nil => exact List.forall_mem_nil _
  | line hl _ ih =>
    obtain ⟨hw, hx⟩ := Bool.and_eq_true_iff.mp hall
    exact List.forall_mem_cons.mpr ⟨hcheck _ _ hw hl, ih hx⟩
  | append _ _ ihx ihy =>
    obtain ⟨hx, hy⟩ := Bool.and_eq_true_iff.mp hall
    exact List.forall_mem_append.mpr ⟨ihx hx, ihy hy⟩
  | left _ _ ih => exact ih (Bool.and_eq_true_iff.mp hall).1
  | right _ _ ih => exact ih (Bool.and_eq_true_iff.mp hall).2
  | block h => exact hblock _ h

/-- No known characters hold a line feed. -/
def Wording.isOneLine : Wording κ → Bool
  | nil => true
  | known cs x => !cs.contains '\n' && x.isOneLine
  | other _ x => x.isOneLine
  | either x y rest => x.isOneLine && y.isOneLine && rest.isOneLine

/-- A wording of single lines is spelled on one line. -/
theorem Spells.lineFeed_notMem (hF : ∀ k s, F.text k s → OneLine s) {x : Wording κ}
    (h : Spells F x cs) (hx : x.isOneLine = true) : '\n' ∉ cs := by
  induction h with
  | nil => exact List.not_mem_nil
  | known cs _ ih =>
    obtain ⟨hcs, hx⟩ := Bool.and_eq_true_iff.mp hx
    rw [List.mem_append]
    exact not_or.mpr ⟨by simpa using hcs, ih hx⟩
  | other hs _ ih =>
    rw [List.mem_append]
    exact not_or.mpr ⟨hF _ _ hs, ih hx⟩
  | left _ _ _ ihx ih =>
    obtain ⟨hboth, hrest⟩ := Bool.and_eq_true_iff.mp hx
    rw [List.mem_append]
    exact not_or.mpr ⟨ihx (Bool.and_eq_true_iff.mp hboth).1, ih hrest⟩
  | right _ _ _ ihy ih =>
    obtain ⟨hboth, hrest⟩ := Bool.and_eq_true_iff.mp hx
    rw [List.mem_append]
    exact not_or.mpr ⟨ihy (Bool.and_eq_true_iff.mp hboth).2, ih hrest⟩

/-- Texts that stay on one line, and blocks of some kind. -/
def oneLiners (B : List String → Prop) : Filling Unit := ⟨fun _ => OneLine, B⟩

theorem OneLine.fills (h : OneLine s) (B : List String → Prop) : Fills (oneLiners B) s () := ⟨h⟩

theorem Spells.oneLine {B : List String → Prop} {x : Wording Unit} (h : Spells (oneLiners B) x cs)
    (hx : x.isOneLine = true) : OneLine (String.ofList cs) :=
  oneLine_ofList (h.lineFeed_notMem (fun _ _ hs => hs) hx)

theorem oneLine_of_wording {x : Wording Unit} [h : Worded (oneLiners (∀ l ∈ ·, OneLine l)) s x]
    (hx : x.isOneLine = true) : OneLine s := by
  rw [← String.ofList_toList (s := s)]
  exact h.spells.oneLine hx

theorem oneLine_of_layout {x : Layout Unit}
    [h : LaidOut (oneLiners (∀ l ∈ ·, OneLine l)) ls x] (hx : x.all Wording.isOneLine = true) :
    ∀ l ∈ ls, OneLine l :=
  h.forall_mem (fun _ h => h)
    (fun _ l hw hl => by simpa only [String.ofList_toList] using hl.oneLine hw) hx

end Layout

/-! ## Letter case -/

theorem ofNat_ne_lineFeed {n : Nat} (h : n ≠ 10) : Char.ofNat n ≠ '\n' := by
  by_cases hn : n.isValidChar
  · rw [Char.ofNat, dif_pos hn]
    exact fun heq => h (congrArg Char.toNat heq)
  · rw [Char.ofNat, dif_neg hn]
    decide

theorem plainUpper_ne_lineFeed {c : Char} (h : c ≠ '\n') : plainUpper c ≠ '\n' := by
  unfold plainUpper isLowerLetter
  split
  · rename_i hc
    rw [Bool.and_eq_true, decide_eq_true_eq, decide_eq_true_eq] at hc
    have hlow : 'a'.toNat ≤ c.toNat := hc.1
    exact ofNat_ne_lineFeed (by rw [show 'a'.toNat = 97 from rfl] at hlow; omega)
  · exact h

theorem ten_lt_of_mem_upperRuns : ∀ r ∈ upperRuns, 10 < (r.first : Int) + r.shift := by
  decide +kernel

theorem ten_notMem_upperExpansions : ∀ e ∈ upperExpansions, 10 ∉ e.2 := by
  decide +kernel

theorem shiftOf_eq_zero_or (runs : List CaseRun) (n : Nat) :
    CaseRun.shiftOf runs n = 0 ∨
      ∃ r ∈ runs, r.first ≤ n ∧ n ≤ r.last ∧ CaseRun.shiftOf runs n = r.shift := by
  unfold CaseRun.shiftOf
  split
  · rename_i r hr
    have hfound := List.find?_some hr
    simp only [Bool.and_eq_true, decide_eq_true_eq] at hfound
    exact .inr ⟨r, List.mem_of_find?_eq_some hr, hfound.1.1, hfound.1.2, rfl⟩
  · exact .inl rfl

/-- Upper case brings in no line feed. -/
theorem lineFeed_notMem_upperChar {c : Char} (h : c ≠ '\n') : '\n' ∉ upperChar c := by
  unfold upperChar
  split
  · exact fun hmem => plainUpper_ne_lineFeed h (List.mem_singleton.mp hmem).symm
  · rename_i hbeyond
    split
    · rename_i codes hcodes
      intro hmem
      obtain ⟨n, hn, hchar⟩ := List.mem_map.mp hmem
      obtain ⟨before, after, htable, -⟩ := List.lookup_eq_some_iff.mp hcodes
      have hentry : (c.toNat, codes) ∈ upperExpansions := by
        rw [htable]
        exact List.mem_append_right _ List.mem_cons_self
      have htable := ten_notMem_upperExpansions _ hentry
      exact ofNat_ne_lineFeed (fun hten => htable (hten ▸ hn)) hchar
    · refine fun hmem => ofNat_ne_lineFeed ?_ (List.mem_singleton.mp hmem).symm
      obtain hzero | ⟨r, hr, hfirst, -, hshift⟩ := shiftOf_eq_zero_or upperRuns c.toNat
      · rw [hzero]
        omega
      · have htable := ten_lt_of_mem_upperRuns r hr
        rw [hshift]
        omega

/-- So a name stays a single line. -/
theorem oneLine_upperFirst {s : String} (h : OneLine s) : OneLine (upperFirst s) := by
  unfold upperFirst
  split
  · exact List.not_mem_nil
  · rename_i c cs hs
    rw [OneLine, hs] at h
    obtain ⟨hc, hcs⟩ := not_or.mp (mt List.mem_cons.mpr h)
    refine oneLine_ofList ?_
    rw [List.mem_append]
    exact not_or.mpr ⟨lineFeed_notMem_upperChar (Ne.symm hc), hcs⟩

end Scaffold.Text

namespace Scaffold.Number

open Text

/-! ## Numbers -/

theorem lineFeed_notMem_toDigits (n : Nat) : '\n' ∉ Nat.toDigits 10 n := by
  intro hmem
  exact absurd (Nat.isDigit_of_mem_toDigits (by decide) (Nat.le_refl 10) hmem) (by decide)

theorem oneLine_toString_nat (n : Nat) : OneLine (toString n) := by
  rw [Nat.toString_eq_ofList_toDigits]
  exact oneLine_ofList (lineFeed_notMem_toDigits n)

theorem oneLine_toString_int (n : Int) : OneLine (toString n) := by
  cases n with
  | ofNat n => exact oneLine_toString_nat n
  | negSucc n =>
    have hrepr : toString (Int.negSucc n) = "-" ++ toString (n + 1) := rfl
    rw [hrepr]
    exact OneLine.append (by decide) (oneLine_toString_nat (n + 1))

theorem lineFeed_notMem_significant (d : Decimal) : '\n' ∉ d.significant.1 := by
  simp only [Decimal.significant]
  split
  · decide
  · intro hmem
    have hkept := List.mem_reverse.mp hmem
    exact lineFeed_notMem_toDigits d.digits
      (List.mem_reverse.mp ((List.dropWhile_sublist _).subset hkept))

/-- Numbers are single lines. -/
theorem oneLine_positional {digits : List Char} (h : '\n' ∉ digits) (point : Int) :
    OneLine (positional digits point) := by
  unfold positional
  split
  · refine OneLine.append (by decide) (oneLine_ofList ?_)
    rw [List.mem_append, List.mem_replicate]
    exact not_or.mpr ⟨fun hzero => absurd hzero.2 (by decide), h⟩
  · refine ((oneLine_ofList ?_).append (by decide)).append ?_
    · rw [List.mem_append, List.mem_replicate]
      exact not_or.mpr ⟨fun hmem => h (List.mem_of_mem_take hmem),
        fun hzero => absurd hzero.2 (by decide)⟩
    · split
      · decide
      · exact oneLine_ofList fun hmem => h (List.mem_of_mem_drop hmem)

theorem oneLine_padLeft {s : String} (h : OneLine s) (width : Nat) : OneLine (padLeft width '0' s) :=
  OneLine.append (oneLine_ofList fun hmem => absurd (List.mem_replicate.mp hmem).2 (by decide)) h

/-- Those with an exponent too. -/
theorem oneLine_scientific {digits : List Char} (h : '\n' ∉ digits) (exponent : Int) :
    OneLine (scientific digits exponent) := by
  have hmantissa : OneLine (String.ofList (digits.take 1) ++
      if digits.length ≤ 1 then "" else "." ++ String.ofList (digits.drop 1)) := by
    refine OneLine.append (oneLine_ofList fun hmem => h (List.mem_of_mem_take hmem)) ?_
    split
    · decide
    · exact OneLine.append (by decide) (oneLine_ofList fun hmem => h (List.mem_of_mem_drop hmem))
  have hsign : OneLine (if exponent < 0 then "-" else "+") := by
    split <;> decide
  exact ((hmantissa.append (by decide)).append hsign).append
    (oneLine_padLeft (oneLine_toString_nat _) 2)

/-- However they are spelled. -/
theorem oneLine_spell {f : FloatFormat} (hnan : OneLine f.special.nan)
    (hinfinite : OneLine f.special.infinite) (x : Binary64) : OneLine (x.spell f) := by
  have hsign (b : Bool) : OneLine (if b then "-" else "") := by
    cases b <;> decide
  cases x with
  | nan => exact hnan
  | infinite s => exact OneLine.append (hsign _) hinfinite
  | finite s m q =>
    simp only [Binary64.spell]
    refine OneLine.append (hsign s) ?_
    have hdigits := lineFeed_notMem_significant (Decimal.shortest m q)
    split
    · decide
    · split
      · exact oneLine_positional hdigits _
      · exact oneLine_scientific hdigits _

end Scaffold.Number

namespace Scaffold.Document

open Text Number

theorem oneLine_shown_int (n : Int) : OneLine (Value.int n).shown := by
  rw [Value.shown, Value.literal, Value.literalIn]
  · exact oneLine_toString_int n
  all_goals simp

theorem oneLine_shown_real (x : Binary64) : OneLine (Value.real x).shown := by
  rw [Value.shown, Value.literal, Value.literalIn]
  · exact oneLine_spell (by decide) (by decide) x
  all_goals simp

namespace Json

/-! ## Documents on one line -/

theorem lineFeed_notMem_quote (ascii : Bool) (s : String) : '\n' ∉ quote ascii s :=
  control_notMem_quote (by decide) ascii s

/-- A list of single lines on one line is one. -/
theorem lineFeed_notMem_enclose (depth : Nat) {opener closer : Char} (hopener : opener ≠ '\n')
    (hcloser : closer ≠ '\n') {items : List (List Char)} (h : ∀ p ∈ items, '\n' ∉ p) :
    '\n' ∉ enclose .line depth opener closer items := by
  have hopener' := Ne.symm hopener
  have hcloser' := Ne.symm hcloser
  by_cases hitems : items.isEmpty = true
  · rw [enclose, if_pos hitems, List.mem_cons, List.mem_singleton, not_or]
    exact ⟨hopener', hcloser'⟩
  · have hwritten : enclose .line depth opener closer items =
        [opener] ++ Text.joinWith Layout.line.itemSeparator items ++ [closer] := by
      rw [enclose, if_neg hitems]
      rfl
    simp only [hwritten, List.mem_append, List.mem_singleton, not_or]
    exact ⟨⟨hopener', notMem_joinWith (by decide) h⟩, hcloser'⟩

mutual

/-- A document that is written on one line is a single line. -/
theorem lineFeed_notMem_write : ∀ (v : Value) (depth : Nat), '\n' ∉ write .line depth v
  | .null, _ => by rw [write]; decide
  | .bool b, _ => by rw [write]; cases b <;> decide
  | .int n, _ => by rw [write]; exact oneLine_toString_int n
  | .real x, _ => by rw [write]; exact oneLine_spell (by decide) (by decide) x
  | .text s, _ => by rw [write]; exact lineFeed_notMem_quote _ s
  | .list xs, depth => by
    rw [write]
    exact lineFeed_notMem_enclose depth (by decide) (by decide)
      (lineFeed_notMem_writeItems xs (depth + 1))
  | .record ms, depth => by
    rw [write]
    exact lineFeed_notMem_enclose depth (by decide) (by decide)
      (lineFeed_notMem_writeMembers ms (depth + 1))
  | .table es, depth => by
    rw [write]
    exact lineFeed_notMem_enclose depth (by decide) (by decide)
      (lineFeed_notMem_writeEntries es (depth + 1))
  | .date d, _ => by rw [write]; exact lineFeed_notMem_quote _ _
  | .moment m, _ => by rw [write]; exact lineFeed_notMem_quote _ _
  | .bytes bs, _ => by rw [write]; exact lineFeed_notMem_quote _ _
  | .set xs, depth => by
    rw [write]
    exact lineFeed_notMem_enclose depth (by decide) (by decide)
      (lineFeed_notMem_writeItems xs (depth + 1))
  | .pair a b, depth => by
    rw [write]
    refine lineFeed_notMem_enclose depth (by decide) (by decide) ?_
    simp only [List.forall_mem_cons]
    exact ⟨lineFeed_notMem_write a _, lineFeed_notMem_write b _, by simp⟩
  | .again _, _ => by rw [write]; decide

/-- So are its items. -/
theorem lineFeed_notMem_writeItems : ∀ (xs : List Value) (depth : Nat),
    ∀ p ∈ writeItems .line depth xs, '\n' ∉ p
  | [], _ => by rw [writeItems]; simp
  | x :: xs, depth => by
    rw [writeItems, List.forall_mem_cons]
    exact ⟨lineFeed_notMem_write x depth, lineFeed_notMem_writeItems xs depth⟩

/-- So are its members. -/
theorem lineFeed_notMem_writeMembers : ∀ (ms : List (String × Value)) (depth : Nat),
    ∀ p ∈ writeMembers .line depth ms, '\n' ∉ p
  | [], _ => by rw [writeMembers]; simp
  | (k, x) :: ms, depth => by
    rw [writeMembers, List.forall_mem_cons]
    refine ⟨?_, lineFeed_notMem_writeMembers ms depth⟩
    rw [List.mem_append, List.mem_append]
    exact not_or.mpr ⟨not_or.mpr ⟨lineFeed_notMem_quote _ k, by decide⟩,
      lineFeed_notMem_write x depth⟩

/-- So are its entries. -/
theorem lineFeed_notMem_writeEntries : ∀ (es : List (Value × Value)) (depth : Nat),
    ∀ p ∈ writeEntries .line depth es, '\n' ∉ p
  | [], _ => by rw [writeEntries]; simp
  | (k, x) :: es, depth => by
    rw [writeEntries, List.forall_mem_cons]
    refine ⟨?_, lineFeed_notMem_writeEntries es depth⟩
    rw [List.mem_append, List.mem_append]
    exact not_or.mpr ⟨not_or.mpr ⟨lineFeed_notMem_quote _ _, by decide⟩,
      lineFeed_notMem_write x depth⟩

end

theorem oneLine_print (v : Value) : OneLine (print .line v) :=
  oneLine_ofList (lineFeed_notMem_write v 0)

end Json

end Scaffold.Document

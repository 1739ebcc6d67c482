import Scaffold.Format.Basic
import Scaffold.Proofs.Document.LineEnds

/-!
# Proofs/Format/Documents — formatting a document

A text that is a document is written anew from the document it is: the result is the same document,
and formatting it again changes nothing (`formatText_of_read`).  A text that is no document keeps
everything but its line ends (`formatText_of_rejected`).
-/

namespace Scaffold.Format

open Document Text

theorem blank_indentUnit (o : Options) : Json.Blank o.indentUnit := by
  rw [Options.indentUnit]
  split
  · exact List.forall_mem_singleton.mpr rfl
  · intro c hc
    rw [List.eq_of_mem_replicate hc]
    rfl

/-! ## Documents -/

/-- What a document is formatted as depends on the document only. -/
theorem formatText_eq_of_read (o : Options) {content : String} {v : Document.Value}
    (h : Json.read content.toList = .ok v) :
    (formatText o (some "json") content).toList =
      Json.write (.indented o.indentUnit false) 0 v ++ ['\n'] := by
  have hunified : Json.read (unifyLineEnds content.toList) = .ok v := by
    have hsame := Json.unified_read content.toList
    rw [h] at hsame
    exact Except.mapError_eq_ok_iff.mp hsame
  rw [formatText]
  simp only [Tag.of?, Option.bind_some, formatChars?, formatJson?, hunified, String.toList_ofList]

/-- **A document is formatted as the same document**, which passes the check, and formatting it again
changes nothing. -/
theorem formatText_of_read (o : Options) {content : String} {v : Document.Value}
    (h : Json.read content.toList = .ok v) :
    Json.read (formatText o (some "json") content).toList = .ok v ∧
      check (some "json") (formatText o (some "json") content) = .ok [] ∧
      formatText o (some "json") (formatText o (some "json") content) =
        formatText o (some "json") content := by
  have hread : Json.read (formatText o (some "json") content).toList = .ok v := by
    rw [formatText_eq_of_read o h]
    exact Json.read_indented (blank_indentUnit o) false (Json.legible_of_read h)
  refine ⟨hread, ?_, ?_⟩
  · rw [check]
    simp only [Tag.of?, hread]
  · refine String.toList_inj.mp ?_
    rw [formatText_eq_of_read o hread, formatText_eq_of_read o h]

/-- Of two members with one key the last one is kept, in the place of the first. -/
theorem formatText_of_read_repeated :
    let content := "\x7b\"a\":1,\r\n\"b\":[],\"a\":null\x7d"
    let formatted := formatText .default (some "json") content
    Json.read content.toList = .ok (.record [("a", .null), ("b", .list [])]) ∧
      Json.read formatted.toList = .ok (.record [("a", .null), ("b", .list [])]) ∧
      check (some "json") formatted = .ok [] ∧
      formatText .default (some "json") formatted = formatted := by
  intro content formatted
  have hread : Json.read content.toList = .ok (.record [("a", .null), ("b", .list [])]) := by
    rw [String.toList_ofList]
    rfl
  exact ⟨hread, formatText_of_read .default hread⟩

/-! ## Other texts -/

/-- **A text that is no document keeps everything but its line ends**, which are unified where the
text breaks the grammar. -/
theorem formatText_of_rejected (o : Options) {content : String} {f : Json.Failure}
    (h : Json.read content.toList = .error f) :
    formatText o (some "json") content =
        (if f.fault.isSyntactic then String.ofList (unifyLineEnds content.toList) else content) ∧
      (formatText o (some "json") content = content ↔
        (f.fault.isSyntactic = true → ¬['\r', '\n'] <:+: content.toList)) := by
  obtain ⟨g, hg, hfault⟩ : ∃ g, Json.read (unifyLineEnds content.toList) = .error g ∧
      g.fault = f.fault := by
    have hsame := Json.unified_read content.toList
    rw [h] at hsame
    cases hread : Json.read (unifyLineEnds content.toList) with
    | ok v =>
      rw [hread] at hsame
      cases hsame
    | error g =>
      rw [hread] at hsame
      exact ⟨g, rfl, Except.error.inj hsame⟩
  have hformatted : formatText o (some "json") content =
      if f.fault.isSyntactic then String.ofList (unifyLineEnds content.toList) else content := by
    rw [formatText]
    simp only [Tag.of?, Option.bind_some, formatChars?, formatJson?, hg, hfault]
    cases f.fault.isSyntactic <;> rfl
  refine ⟨hformatted, ?_⟩
  rw [hformatted]
  split
  · rename_i hsyntactic
    rw [← unifyLineEnds_eq_self_iff, ← String.toList_inj, String.toList_ofList]
    exact (imp_iff_right hsyntactic).symm
  · rename_i hlimit
    exact iff_of_true rfl fun hsyntactic => absurd hsyntactic hlimit

/-- What cannot be read comes back with its line ends unified. -/
theorem formatText_of_rejected_brace :
    Json.read "\x7b\n".toList = .error ⟨.propertyName, []⟩ ∧
      formatText .default (some "json") "\x7b\n" = "\x7b\n" := by
  have hread : Json.read "\x7b\n".toList = .error ⟨.propertyName, []⟩ := by
    rw [String.toList_ofList]
    rfl
  refine ⟨hread, (formatText_of_rejected .default hread).2.mpr fun _ => ?_⟩
  rw [String.toList_ofList]
  decide

/-- A text that breaks the grammar does not keep its line ends. -/
theorem formatText_loses_return :
    Json.read "\x7b\r\n".toList = .error ⟨.propertyName, []⟩ ∧
      formatText .default (some "json") "\x7b\r\n" = "\x7b\n" := by
  refine ⟨?_, ?_⟩
  · rw [String.toList_ofList]
    rfl
  · rw [formatText, String.toList_ofList]
    rfl

end Scaffold.Format

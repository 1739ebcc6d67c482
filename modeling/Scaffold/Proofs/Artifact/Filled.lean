import Scaffold.Proofs.Artifact.Balanced
import Scaffold.Proofs.Artifact.Contexts
import Scaffold.Proofs.Template.Walk

/-!
# Proofs/Artifact/Filled — the brackets of the files that templates render

What fills the holes of the templates are names, which are inert, types, and one document of roles.
That document stands in code, but it is passed between single quotes as well, since the names in it
hold no quote.  So every file that is rendered from a template of the library is balanced.
-/

namespace Scaffold.Text

/-- The first letter of a plain text has a plain capital. -/
theorem isPlain_upperFirst {s : String} (h : IsPlain s) : IsPlain (upperFirst s) := by
  unfold upperFirst
  split
  · exact isPlain_ofList (by decide)
  · rename_i c cs hs
    rw [IsPlain, hs] at h
    obtain ⟨hc, hcs⟩ := List.forall_mem_cons.mp h
    rw [IsPlain, String.toList_ofList, upperChar_of_isPlainAlnum hc]
    exact List.forall_mem_cons.mpr ⟨isPlainAlnum_plainUpper hc, hcs⟩

end Scaffold.Text

namespace Scaffold.Document.Json

open Format Text

theorem escapeChar_of_isPlainAlnum {c : Char} (h : isPlainAlnum c = true) (ascii : Bool) :
    escapeChar ascii c = [c] := by
  have hall : ∀ n < 128, isPlainAlnum (Char.ofNat n) = true →
      ∀ ascii, escapeChar ascii (Char.ofNat n) = [Char.ofNat n] := by
    decide +kernel
  rw [← Char.ofNat_toNat c] at h ⊢
  exact hall c.toNat (toNat_lt_of_isPlainAlnum (Char.ofNat_toNat c ▸ h)) h ascii

theorem quote_of_isPlain {s : String} (h : IsPlain s) (ascii : Bool) :
    quote ascii s = '"' :: s.toList ++ ['"'] := by
  have hbody : s.toList.flatMap (escapeChar ascii) = s.toList := by
    rw [List.flatMap_congr fun c hc => escapeChar_of_isPlainAlnum (h c hc) ascii]
    exact List.flatMap_singleton' s.toList
  rw [quote, hbody]

end Scaffold.Document.Json

namespace Scaffold.Project

open Text

/-- The role has plain names for itself and for what it permits. -/
def Role.IsPlain (r : Role) : Prop := Text.IsPlain r.name ∧ ∀ s ∈ r.permissions, Text.IsPlain s

end Scaffold.Project

namespace Scaffold.Artifact

open Document Format Model Options Project Template Text

/-! ## What fills the holes -/

theorem fills_of_inert {s : String} (h : Inert s) : Fills hosts s :=
  fun _ hp => h.crosses (settle_of_mem_hosts hp)

theorem fills_of_isBalanced {s : String} (h : IsBalanced s) : Fills [.code] s :=
  List.forall_mem_singleton.mpr h

section Roles

variable {p : Phase} (hp : p ∈ hosts)
include hp

/-- Between single quotes a plain text in double quotes is no literal, but it does no harm. -/
theorem crosses_plainQuote {s : String} (h : IsPlain s) :
    Crosses p (Json.quote true s) p 0 := by
  simp only [hosts, List.mem_cons, List.not_mem_nil, or_false] at hp
  obtain rfl | rfl := hp
  · exact crosses_quote true s
  · have hquotes : IsBodyOf '\'' '"' := ⟨by decide, by decide, by decide⟩
    have hplain : ∀ c ∈ s.toList, IsBodyOf '\'' c := by
      have hspecial : ∀ d ∈ ['\'', '\\', '\n'], isPlainAlnum d = false := by decide
      intro c hc
      have hne (d : Char) (hd : isPlainAlnum d = false) : c ≠ d := by
        rintro rfl
        exact Bool.noConfusion (hd.symm.trans (h c hc))
      exact ⟨hne _ (hspecial _ (by decide)), hne _ (hspecial _ (by decide)),
        hne _ (hspecial _ (by decide))⟩
    rw [Json.quote_of_isPlain h]
    exact crosses_literal (List.forall_mem_append.mpr ⟨List.forall_mem_cons.mpr ⟨hquotes, hplain⟩,
      List.forall_mem_singleton.mpr hquotes⟩)

theorem crosses_member {key : String} (hkey : IsPlain key) {value : List Char}
    (hvalue : Crosses p value p 0) :
    Crosses p (Json.quote true key ++ [':', ' '] ++ value) p 0 := by
  have hcolon : Crosses p [':', ' '] p 0 :=
    crosses_of_isInert (settle_of_mem_hosts hp) (by decide)
  exact ((crosses_plainQuote hp hkey).append hcolon).append hvalue

omit hp in
/-- Items that leave no surplus one by one. -/
theorem crosses_writeItems {depth : Nat} {xs : List Value}
    (h : ∀ x ∈ xs, Crosses p (Json.write .line depth x) p 0) :
    ∀ l ∈ Json.writeItems .line depth xs, Crosses p l p 0 := by
  induction xs with
  | nil =>
    rw [Json.writeItems]
    exact List.forall_mem_nil _
  | cons x xs ih =>
    obtain ⟨hx, hxs⟩ := List.forall_mem_cons.mp h
    rw [Json.writeItems]
    exact List.forall_mem_cons.mpr ⟨hx, ih hxs⟩

theorem crosses_write_text {s : String} (h : IsPlain s) (depth : Nat) :
    Crosses p (Json.write .line depth (.text s)) p 0 := by
  rw [Json.write]
  exact crosses_plainQuote hp h

theorem crosses_write_list {depth : Nat} {xs : List Value}
    (h : ∀ x ∈ xs, Crosses p (Json.write .line (depth + 1) x) p 0) :
    Crosses p (Json.write .line depth (.list xs)) p 0 := by
  rw [Json.write]
  exact crosses_enclose (b := ('[', ']')) hp depth (by decide) (crosses_writeItems h)

/-- A role is written as a record of plain texts. -/
theorem crosses_role {r : Role} (h : r.IsPlain) (depth : Nat) :
    Crosses p (Json.write .line depth r.document) p 0 := by
  have hname : Crosses p (Json.write .line (depth + 1) (.text r.name)) p 0 :=
    crosses_write_text hp h.1 (depth + 1)
  have hpermissions :
      Crosses p (Json.write .line (depth + 1) (.list (r.permissions.map .text))) p 0 :=
    crosses_write_list hp (List.forall_mem_map.mpr fun s hs => crosses_write_text hp (h.2 s hs) _)
  rw [Role.document, Json.write]
  refine crosses_enclose (b := ('{', '}')) hp depth (by decide) ?_
  simp only [Json.writeMembers, List.forall_mem_cons, List.not_mem_nil, false_implies,
    implies_true, and_true]
  exact ⟨crosses_member hp (isPlain_ofList (by decide)) hname,
    crosses_member hp (isPlain_ofList (by decide)) hpermissions⟩

end Roles

theorem fills_roles {roles : List Role} (h : ∀ r ∈ roles, r.IsPlain) :
    Fills hosts (Json.print .line (.list (roles.map Role.document))) := by
  intro p hp
  rw [Json.print, String.toList_ofList]
  exact crosses_write_list hp (List.forall_mem_map.mpr fun r hr => crosses_role hp (h r hr) _)

theorem isBalanced_fromTemplate {name source : String} {scope : Scope} {notes : List Note}
    (h : (name, source) ∈ Library.templates) (hreads : Reads source scope notes)
    {places : List Phase} (hreturns : Returns places source) {context : List (String × Item)}
    (hfits : Fits (Fills places) scope context) {t : String}
    (ht : fromTemplate Library.registry name context = .ok t) : IsBalanced t :=
  Library.isBalanced_render h hreads hreturns hfits (Except.mapError_eq_ok_iff.mp ht)

/-! ## The files of a model -/

section Model

variable {m : Model} (h : m.Conventional)
include h

/-- The interface of a record. -/
theorem isBalanced_recordInterface {t : String} (ht : recordInterface Library.registry m = .ok t) :
    IsBalanced t := by
  have hfits : Fits (Fills [.code]) Library.modelInterfaceScope (recordContext m) := by
    refine fits_recordContext (fills_of_isBalanced h.name.inert.isBalanced) fun f hf => ?_
    refine ⟨fills_of_isBalanced (inert_dataField h hf).isBalanced, fills_of_isBalanced ?_,
      fills_of_isBalanced ?_⟩
    · cases f.type <;> exact isBalanced_ofList (by decide)
    · split <;> exact isBalanced_ofList (by decide)
  exact isBalanced_fromTemplate (by simp [Library.templates]) Library.reads_modelInterface
    Library.returns_modelInterface hfits ht

theorem isBalanced_controller {t : String} (ht : controller Library.registry m = .ok t) :
    IsBalanced t := by
  have hservice : Inert (Naming.camel m.name ++ "Service") :=
    (Naming.isPlain_camel m.name).inert.append (inert_ofList (by decide))
  exact isBalanced_fromTemplate (by simp [Library.templates]) Library.reads_controller
    Library.returns_controller
    (fits_controllerContext (fills_of_inert h.name.inert) (fills_of_inert hservice)) ht

end Model

/-! ## The files of the login -/

section Login

variable {a : Auth}

/-- The middleware of the login: tokens, or sessions with one of two ways to find the user. -/
theorem isBalanced_authMiddleware {t : String} (ht : authMiddleware Library.registry a = .ok t) :
    IsBalanced t := by
  unfold authMiddleware at ht
  split at ht
  · have hfits : Fits (Fills []) [] [] := fits_nil
    exact isBalanced_fromTemplate (by simp [Library.templates]) Library.reads_tokenMiddleware
      Library.returns_tokenMiddleware hfits ht
  · cases ht
    exact isBalanced_sessionMiddleware (isBalanced_ofList (by decide)) (inert_ofList (by decide))
  · cases ht
    exact isBalanced_sessionMiddleware (isBalanced_ofList (by decide)) (inert_ofList (by decide))

variable (h : ∀ r ∈ a.roles, r.IsPlain)
include h

theorem inert_roleName : ∀ r ∈ a.roleNames, Inert r :=
  List.forall_mem_map.mpr fun r hr => (h r hr).1.inert

theorem isBalanced_authorizationMiddleware {t : String}
    (ht : authorizationMiddleware Library.registry a = .ok t) : IsBalanced t := by
  have hroles : ∀ r ∈ a.roles, Fills hosts r.name ∧ Fills hosts (upperFirst r.name) :=
    fun r hr => ⟨fills_of_inert (h r hr).1.inert,
      fills_of_inert (isPlain_upperFirst (h r hr).1).inert⟩
  exact isBalanced_fromTemplate (by simp [Library.templates]) Library.reads_authorizationMiddleware
    Library.returns_authorizationMiddleware (fits_authorizationContext hroles (fills_roles h)) ht

/-- The model of the accounts. -/
theorem isBalanced_userModel (o : Generation) {t : String}
    (ht : userModel Library.registry o a = .ok t) : IsBalanced t := by
  have hbar : IsBalanced " | " := isBalanced_ofList (by decide)
  have hunion : IsBalanced (" | ".intercalate (a.roleNames.map quoted)) :=
    isBalanced_intercalate hbar (List.forall_mem_map.mpr fun r hr =>
      isBalanced_quoted (inert_roleName h r hr))
  have hshown : IsBalanced (if " | ".intercalate (a.roleNames.map quoted) = "" then "string"
      else " | ".intercalate (a.roleNames.map quoted)) := by
    split
    · exact isBalanced_ofList (by decide)
    · exact hunion
  exact isBalanced_fromTemplate (by simp [Library.templates]) Library.reads_userModel
    Library.returns_userModel (fits_userModelContext (fills_of_isBalanced hshown) o.tokenAuth) ht

/-- The service of the login. -/
theorem isBalanced_authService (o : Generation) {t : String}
    (ht : authService Library.registry o a = .ok t) : IsBalanced t := by
  have hdefault : Inert a.defaultRole := by
    unfold Auth.defaultRole
    rw [List.getLastD_eq_getLast?]
    cases hlast : a.roleNames.getLast? with
    | none => exact inert_ofList (by decide)
    | some r => exact inert_roleName h r (List.mem_of_getLast? hlast)
  exact isBalanced_fromTemplate (by simp [Library.templates]) Library.reads_authService
    Library.returns_authService (fits_authServiceContext (fills_of_inert hdefault) o.tokenAuth) ht

end Login

end Scaffold.Artifact

import Scaffold.Project.File

/-!
# Project/Relocation — moving the accounts aside for a model named `User`

A model whose segment is `user` owns the paths, the type and the table of that name.  The accounts
of the login then become `AuthUser` and `auth_users`, in their files and in every file that mentions
them.  A word is renamed only where its neighbours show that it is meant by itself.
-/

namespace Scaffold.Project

open Text

/-- A word, what takes its place, and what may stand on either side of it.  `none` is the end of the
text. -/
structure Renaming where
  word : List Char
  replacement : List Char
  before : Option Char → Bool
  after : Option Char → Bool

namespace Renaming

/-- The word begins here, and its neighbours allow the renaming. -/
def applies (r : Renaming) (last : Option Char) (cs : List Char) : Bool :=
  match afterWord? r.word cs with
  | some rest => r.before last && r.after rest.head?
  | none => false

/-- Renames what follows a character; the first `skip` characters belong to a word that has been
replaced. -/
def applyFrom (r : Renaming) (skip : Nat) (last : Option Char) : List Char → List Char
  | [] => []
  | c :: cs =>
    match skip with
    | n + 1 => r.applyFrom n (some c) cs
    | 0 =>
      if r.applies last (c :: cs) then r.replacement ++ r.applyFrom (r.word.length - 1) (some c) cs
      else c :: r.applyFrom 0 (some c) cs

/-- Renames every occurrence of the word. -/
def apply (r : Renaming) (cs : List Char) : List Char := r.applyFrom 0 none cs

/-- There is a neighbour, and it is a blank or one of the given characters. -/
def blankOr (cs : List Char) : Option Char → Bool
  | some c => isBlank c || cs.contains c
  | none => false

/-- The neighbour is no part of a word. -/
def noWord (c : Option Char) : Bool := !c.any isWord

/-- The neighbour is no plain letter. -/
def noLetter (c : Option Char) : Bool := !c.any isPlainLetter

/-- The type of an account. -/
def accountType : Renaming :=
  ⟨"User".toList, "AuthUser".toList, blankOr ['{', '<', '(', ':', ',', '|'],
    blankOr [',', ';', '|', '>', ')', '}']⟩

/-- The repository of accounts. -/
def accountRepository : Renaming :=
  ⟨"UserRepository".toList, "AuthUserRepository".toList, noWord, noWord⟩

/-- The module that declares the type. -/
def accountModule : Renaming :=
  ⟨"'../models/User'".toList, "'../models/AuthUser'".toList, fun _ => true, fun _ => true⟩

/-- The table of accounts. -/
def accountTable : Renaming := ⟨"users".toList, "auth_users".toList, noLetter, noLetter⟩

end Renaming

open Renaming in
/-- A text with the accounts moved aside. -/
def relocateText (s : String) : String :=
  String.ofList (accountTable.apply (accountModule.apply (accountRepository.apply
    (accountType.apply s.toList))))

/-- The path of a file of the accounts after they have been moved aside. -/
def relocatePath : String → String
  | "src/models/User.ts" => "src/models/AuthUser.ts"
  | "src/repositories/UserRepository.ts" => "src/repositories/AuthUserRepository.ts"
  | "src/schemas/user.sql" => "src/schemas/auth_user.sql"
  | path => path

/-- A file with the accounts moved aside. -/
def File.relocate (f : File) : File :=
  { f with path := relocatePath f.path, content := relocateText f.content }

end Scaffold.Project

import Scaffold.Schema.Lax

/-!
# Format/Options — switches of the formatter
-/

namespace Scaffold.Format

open Document Schema

structure Options where
  indentSize : Nat
  useTabs : Bool
  semicolons : Bool
  singleQuotes : Bool
  trailingCommas : Bool
deriving DecidableEq, Repr

namespace Options

def default : Options := ⟨2, false, true, true, true⟩

def indentSizeKey : Key := ⟨"indent_size", some "indentSize"⟩
def useTabsKey : Key := ⟨"use_tabs", some "useTabs"⟩
def singleQuotesKey : Key := ⟨"single_quotes", some "singleQuotes"⟩
def trailingCommasKey : Key := ⟨"trailing_commas", some "trailingCommas"⟩

def keys : List Key :=
  [indentSizeKey, useTabsKey, .plain "semicolons", singleQuotesKey, trailingCommasKey]

def read : Value → Checked Options :=
  entity "FormatOptions" fun v =>
    (fun i t s q c _ => Options.mk i t s q c)
      <$> optional v indentSizeKey 2 (intBetween 1 8)
      <*> optional v useTabsKey false bool
      <*> optional v (.plain "semicolons") true bool
      <*> optional v singleQuotesKey true bool
      <*> optional v trailingCommasKey true bool
      <*> closed v keys

def document (o : Options) : Value :=
  .record [("indentSize", .int o.indentSize), ("useTabs", .bool o.useTabs),
    ("semicolons", .bool o.semicolons), ("singleQuotes", .bool o.singleQuotes),
    ("trailingCommas", .bool o.trailingCommas)]

/-- One level of indentation. -/
def indentUnit (o : Options) : List Char :=
  if o.useTabs then ['\t'] else List.replicate o.indentSize ' '

end Options

end Scaffold.Format

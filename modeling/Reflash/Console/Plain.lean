import Reflash.Console.Output
import Reflash.Bytes

/-! Printed items as plain lines, for a terminal of any width and without
colours. -/

namespace Reflash.Console.Plain

def escapeChar (c : Char) : List Char :=
  if c = '"' || c = '\\' then ['\\', c]
  else if c = '\n' then ['\\', 'n']
  else if c.toNat < 32 then '\\' :: 'u' :: Hex.padded 4 c.toNat
  else [c]

def quote (s : String) : String :=
  String.ofList ('"' :: s.toList.flatMap escapeChar ++ ['"'])

mutual

def recordText : Value → String
  | .null => "null"
  | .bool b => if b then "true" else "false"
  | .int i => Decimal.ofInt i
  | .float x => x.text Value.recordLayout
  | .text s => quote s
  | .array vs => "[" ++ ", ".intercalate (itemTexts vs) ++ "]"
  | .map entries => "\x7b" ++ ", ".intercalate (entryTexts entries) ++ "\x7d"
  | v => quote v.kind

def itemTexts : List Value → List String
  | [] => []
  | v :: rest => recordText v :: itemTexts rest

def entryTexts : Value.Entries → List String
  | [] => []
  | (k, v) :: rest =>
    (quote (k.keyText.toOption.getD k.kind) ++ ": " ++ recordText v) :: entryTexts rest

end

def padTo (width : Nat) (s : String) : String :=
  String.ofList (s.toList ++ List.replicate (width - s.length) ' ')

def widths : List (List String) → List Nat
  | [] => []
  | row :: rest =>
    let others := widths rest
    row.zipIdx.map fun (cell, i) => max cell.length (others.getD i 0)

def rowText (columns : List Nat) (row : List String) : String :=
  "  ".intercalate (row.zipIdx.map fun (cell, i) => padTo (columns.getD i 0) cell)

def lines : Item → List String
  | .text content _ => [content]
  | .panel content => ["== " ++ content ++ " =="]
  | .table title headers rows =>
    title :: (headers :: rows).map (rowText (widths (headers :: rows)))
  | .record v => [recordText v]

end Reflash.Console.Plain

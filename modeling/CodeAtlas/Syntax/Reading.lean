import CodeAtlas.Syntax.Node

/-!
# Syntax trees from documents

A node is written as a list: its kind, its first byte, the byte after its last, its
first and last row, and the list of its children, which may be left out.
-/

namespace CodeAtlas.Syntax.Node

private def offsetOf (value : Value) : Int :=
  value.asInt?.getD 0

mutual

def ofValue : Value → Node
  | .list [kind, start, stop, startRow, stopRow] =>
    .mk (kind.asText?.getD "")
      ⟨offsetOf start, offsetOf stop, offsetOf startRow, offsetOf stopRow⟩ []
  | .list (kind :: start :: stop :: startRow :: stopRow :: .list children :: _) =>
    .mk (kind.asText?.getD "")
      ⟨offsetOf start, offsetOf stop, offsetOf startRow, offsetOf stopRow⟩ (ofValues children)
  | _ => default

def ofValues : List Value → List Node
  | [] => []
  | value :: rest => ofValue value :: ofValues rest

end

end CodeAtlas.Syntax.Node

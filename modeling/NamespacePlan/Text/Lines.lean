/-!
Line ends. A text is read as if all of them were line feeds.
-/

namespace NamespacePlan.Text

def plainLines : List Char → List Char
  | '\x0d' :: '\n' :: cs => '\n' :: plainLines cs
  | '\x0d' :: cs => '\n' :: plainLines cs
  | c :: cs => c :: plainLines cs
  | [] => []

end NamespacePlan.Text

import Stencil.Filter.Text
import Stencil.Filter.List
import Stencil.Filter.Arithmetic

/-!
# Built-in filters

The filters that every engine starts with. All of them settle at once.
-/

namespace Stencil

def FilterTable.builtin : FilterTable := .ofList [
  ("upcase", Filter.upcase), ("downcase", Filter.downcase), ("capitalize", Filter.capitalize),
  ("append", Filter.append), ("prepend", Filter.prepend), ("strip", Filter.strip),
  ("replace", Filter.replace), ("split", Filter.split), ("default", Filter.default),
  ("size", Filter.size), ("join", Filter.join), ("first", Filter.first), ("last", Filter.last),
  ("reverse", Filter.reverse), ("plus", Filter.plus), ("minus", Filter.minus),
  ("times", Filter.times), ("divided_by", Filter.dividedBy)]

end Stencil
